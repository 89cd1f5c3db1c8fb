import TripleJoin.Proofs.Constraint.Ranges
/-!
The five comparisons beside each other. They look at two things only: the order of their operands by
value, if there is one, and whether the operands are identical. So what some of them say settles what
the others say, from either side. They ask no store and never fail.
-/
namespace TripleJoin

theorem Numeric.compare_self (x : Numeric) : x.compare x = .eq := by
  rw [compare_eq, Std.ReflOrd.compare_self]
  cases x with
  | integer n => exact Std.ReflOrd.compare_self
  | real x => rfl

namespace Term

theorem compareValues_blank (label : String) (b : Term) : (blank label).compareValues b = none := by
  cases b <;> rfl

/-- Identical terms are equal by value, except for blank nodes, which have no order by value. -/
theorem compareValues_self {a : Term} (visible : ∀ label, a ≠ .blank label) :
    a.compareValues a = some .eq := by
  cases a with
  | blank label => exact absurd rfl (visible label)
  | iri text => exact congrArg some Std.ReflOrd.compare_self
  | literal a =>
    rw [compareValues_eq_some_iff]
    cases number : a.numeric with
    | none =>
      rw [← Std.ReflOrd.compare_self (a := a.lexical)]
      exact .texts number number rfl rfl
    | some x =>
      rw [← x.compare_self]
      exact .numbers number number

theorem compareValues_eq_map_swap (a b : Term) :
    b.compareValues a = (a.compareValues b).map Ordering.swap := by
  cases compared : a.compareValues b with
  | some order => exact compareValues_swap compared
  | none =>
    cases back : b.compareValues a with
    | none => rfl
    | some order =>
      rw [compareValues_swap back] at compared
      cases compared

end Term

theorem Operand.resolve_eq_none_iff {operand : Operand} {row : Binding} :
    operand.resolve row = none ↔ ∃ v, operand = .value v ∧ row.get? v = none := by
  cases operand <;> simp [resolve]

namespace Constraint

/-- The constraint comes to this verdict on the row, whatever store it is asked with and whatever
    happened before. -/
def Settles (constraint : Constraint) (row : Binding) (verdict : Bool) : Prop :=
  ∀ index source, (constraint.apply index row source).Yields verdict

theorem Settles.unique {constraint : Constraint} {row : Binding} {verdict verdict' : Bool}
    (first : constraint.Settles row verdict) (second : constraint.Settles row verdict') :
    verdict = verdict' := by
  let source : Source := { name := "", answer := fun _ _ => .ok [] }
  exact (first 0 source).unique (second 0 source)

section

variable {constraint : Constraint} {accepts : Ordering → Bool} {left right : Operand}
  {row : Binding} {a b : Term}

theorem settles_of_verdict {verdict : Bool} (decided : constraint.decide row = .ofBool verdict) :
    constraint.Settles row verdict := by
  intro index source
  apply Run.Yields.after_step
  intro _
  rw [decided]
  exact Run.yields_ofExcept verdict

theorem settles_of_remark {event : Event} (decided : constraint.decide row = .remark event .no) :
    constraint.Settles row false := by
  intro index source
  apply Run.Yields.after_step
  intro _
  rw [decided]
  exact Run.Yields.after_step fun _ => Run.yields_ofExcept false

theorem settles_comparing (first : left.resolve row = some a) (second : right.resolve row = some b) :
    (comparing accepts left right).Settles row ((a.compareValues b).any accepts) := by
  cases compared : a.compareValues b with
  | some order =>
    apply settles_of_verdict
    simp only [comparing, first, second, compared, Option.any_some]
  | none =>
    have remarked : (comparing accepts left right).decide row = .remark (.incomparable a b) .no := by
      simp only [comparing, first, second, compared]
    exact settles_of_remark remarked

theorem settles_equal (first : left.resolve row = some a) (second : right.resolve row = some b) :
    (equal left right).Settles row (a = b || a.compareValues b == some .eq) := by
  apply settles_of_verdict
  simp only [equal, ofPredicate, ofCheck, first, second]
  rfl

variable (missing : left.resolve row = none ∨ right.resolve row = none)
include missing

theorem settles_comparing_of_missing : (comparing accepts left right).Settles row false := by
  apply settles_of_verdict
  unfold comparing
  dsimp only
  rcases missing with none | none
  · rw [none]
    rfl
  · rw [none]
    cases left.resolve row <;> rfl

theorem settles_equal_of_missing : (equal left right).Settles row false := by
  apply settles_of_verdict
  simp only [equal, ofPredicate, ofCheck]
  rcases missing with none | none
  · rw [none]
    rfl
  · rw [none]
    cases left.resolve row <;> rfl

end

end Constraint

/-- What the five comparisons say of two operands. -/
structure Verdicts where
  less : Bool
  lessOrEqual : Bool
  equal : Bool
  greaterOrEqual : Bool
  greater : Bool
  deriving DecidableEq

namespace Verdicts

/-- The comparisons of the operands come to these verdicts on the row. -/
structure Reached (verdicts : Verdicts) (left right : Operand) (row : Binding) : Prop where
  less : (Constraint.less left right).Settles row verdicts.less
  lessOrEqual : (Constraint.lessOrEqual left right).Settles row verdicts.lessOrEqual
  equal : (Constraint.equal left right).Settles row verdicts.equal
  greaterOrEqual : (Constraint.greaterOrEqual left right).Settles row verdicts.greaterOrEqual
  greater : (Constraint.greater left right).Settles row verdicts.greater

theorem Reached.unique {v w : Verdicts} {left right : Operand} {row : Binding}
    (first : v.Reached left right row) (second : w.Reached left right row) : v = w := by
  cases v
  cases w
  simp only [mk.injEq]
  exact ⟨first.less.unique second.less, first.lessOrEqual.unique second.lessOrEqual,
    first.equal.unique second.equal, first.greaterOrEqual.unique second.greaterOrEqual,
    first.greater.unique second.greater⟩

/-- The same seen from the other operand. -/
def swap (verdicts : Verdicts) : Verdicts :=
  ⟨verdicts.greater, verdicts.greaterOrEqual, verdicts.equal, verdicts.lessOrEqual, verdicts.less⟩

def allFalse : Verdicts := ⟨false, false, false, false, false⟩

def onlyEqual : Verdicts := ⟨false, false, true, false, false⟩

def ofOrder (order : Ordering) : Verdicts :=
  ⟨order.isLT, order.isLE, order.isEq, order.isGE, order.isGT⟩

/-- The verdicts on two values. -/
def ofTerms (a b : Term) : Verdicts :=
  let order := a.compareValues b
  ⟨order.any Ordering.isLT, order.any Ordering.isLE, a = b || order == some .eq,
    order.any Ordering.isGE, order.any Ordering.isGT⟩

/-- Where there is an order, all five go by it: identical values with an order are equal. -/
theorem ofTerms_of_compareValues {a b : Term} {order : Ordering}
    (compared : a.compareValues b = some order) : ofTerms a b = ofOrder order := by
  have tie : a = b → order = .eq := by
    rintro rfl
    have visible : ∀ label, a ≠ .blank label := by
      rintro label rfl
      rw [Term.compareValues_blank] at compared
      cases compared
    rw [Term.compareValues_self visible] at compared
    exact (Option.some.inj compared).symm
  have equal : (decide (a = b) || some order == some .eq) = order.isEq := by
    by_cases same : a = b
    · simp [tie same]
    · cases order <;> simp [same]
  simp only [ofTerms, compared, equal]
  rfl

theorem ofTerms_blank (label : String) : ofTerms (.blank label) (.blank label) = onlyEqual := by
  simp only [ofTerms, Term.compareValues_blank, decide_true]
  rfl

/-- Without an order only identical values are equal. -/
theorem ofTerms_of_incomparable {a b : Term} (compared : a.compareValues b = none)
    (differ : a ≠ b) : ofTerms a b = allFalse := by
  simp only [ofTerms, compared, decide_eq_false differ]
  rfl

theorem swap_ofOrder (order : Ordering) : (ofOrder order).swap = ofOrder order.swap := by
  cases order <;> rfl

theorem swap_ofTerms (a b : Term) : (ofTerms a b).swap = ofTerms b a := by
  cases compared : a.compareValues b with
  | some order =>
    rw [ofTerms_of_compareValues compared,
      ofTerms_of_compareValues (Term.compareValues_swap compared)]
    exact swap_ofOrder order
  | none =>
    have back : b.compareValues a = none := by
      rw [Term.compareValues_eq_map_swap a b, compared]
      rfl
    simp only [ofTerms, swap, compared, back, eq_comm]
    rfl

theorem ofTerms_exclusive (a b : Term) :
    (ofTerms a b).less.toNat + (ofTerms a b).equal.toNat + (ofTerms a b).greater.toNat ≤ 1 := by
  cases compared : a.compareValues b with
  | some order =>
    rw [ofTerms_of_compareValues compared]
    cases order <;> decide
  | none =>
    simp only [ofTerms, compared, Option.any_none, Bool.toNat_false, Nat.zero_add, Nat.add_zero]
    exact Bool.toNat_le _

theorem ofTerms_lessOrEqual {a b : Term}
    (apart : ¬∃ label, a = .blank label ∧ b = .blank label) :
    (ofTerms a b).lessOrEqual = ((ofTerms a b).less || (ofTerms a b).equal) := by
  cases compared : a.compareValues b with
  | some order =>
    rw [ofTerms_of_compareValues compared]
    cases order <;> rfl
  | none =>
    have differ : a ≠ b := by
      rintro rfl
      rw [Term.compareValues_self fun label is => apart ⟨label, is, is⟩] at compared
      cases compared
    rw [ofTerms_of_incomparable compared differ]
    rfl

section

variable {left right : Operand} {row : Binding}

theorem reached_ofTerms {a b : Term} (first : left.resolve row = some a)
    (second : right.resolve row = some b) : (ofTerms a b).Reached left right row where
  less := Constraint.settles_comparing first second
  lessOrEqual := Constraint.settles_comparing first second
  equal := Constraint.settles_equal first second
  greaterOrEqual := Constraint.settles_comparing first second
  greater := Constraint.settles_comparing first second

theorem reached_allFalse (missing : left.resolve row = none ∨ right.resolve row = none) :
    allFalse.Reached left right row where
  less := Constraint.settles_comparing_of_missing missing
  lessOrEqual := Constraint.settles_comparing_of_missing missing
  equal := Constraint.settles_equal_of_missing missing
  greaterOrEqual := Constraint.settles_comparing_of_missing missing
  greater := Constraint.settles_comparing_of_missing missing

end

end Verdicts

namespace Constraint

/-- Both operands have one blank node for their value. -/
def SameBlank (left right : Operand) (row : Binding) : Prop :=
  ∃ label, left.resolve row = some (.blank label) ∧ right.resolve row = some (.blank label)

/-- The five comparisons are one family. Each is its mirror image seen from the other operand, at most
    one of the three strict ones holds, and the other two are what their names say, except that a blank
    node is equal to itself and nothing else. Nothing holds of an operand without a value, which only a
    plain variable can be, nor of different values without an order. -/
theorem comparisons_consistent (left right : Operand) (row : Binding) :
    (∀ operand : Operand,
      operand.resolve row = none ↔ ∃ v, operand = .value v ∧ row.get? v = none) ∧
    ∃ v : Verdicts, v.Reached left right row ∧ v.swap.Reached right left row ∧
      v.less.toNat + v.equal.toNat + v.greater.toNat ≤ 1 ∧
      (SameBlank left right row → v = .onlyEqual) ∧
      (¬SameBlank left right row → v.lessOrEqual = (v.less || v.equal)) ∧
      (left.resolve row = none ∨ right.resolve row = none → v = .allFalse) ∧
      ∀ a b, left.resolve row = some a → right.resolve row = some b → a ≠ b →
        a.compareValues b = none → v = .allFalse := by
  refine ⟨fun _ => Operand.resolve_eq_none_iff, ?_⟩
  by_cases missing : left.resolve row = none ∨ right.resolve row = none
  · refine ⟨.allFalse, Verdicts.reached_allFalse missing,
      Verdicts.reached_allFalse missing.symm, by decide, ?_, fun _ => rfl, fun _ => rfl,
      fun _ _ _ _ _ _ => rfl⟩
    rintro ⟨label, first, second⟩
    rw [first, second] at missing
    rcases missing with none | none <;> cases none
  · rw [not_or] at missing
    obtain ⟨a, first⟩ := Option.ne_none_iff_exists'.mp missing.1
    obtain ⟨b, second⟩ := Option.ne_none_iff_exists'.mp missing.2
    have shared : SameBlank left right row ↔ ∃ label, a = .blank label ∧ b = .blank label := by
      simp only [SameBlank, first, second, Option.some.injEq]
    refine ⟨.ofTerms a b, Verdicts.reached_ofTerms first second, ?_,
      Verdicts.ofTerms_exclusive a b, ?_, ?_, ?_, ?_⟩
    · rw [Verdicts.swap_ofTerms]
      exact Verdicts.reached_ofTerms second first
    · rw [shared]
      rintro ⟨label, rfl, rfl⟩
      exact Verdicts.ofTerms_blank label
    · rw [shared]
      exact Verdicts.ofTerms_lessOrEqual
    · exact fun none => absurd none (not_or.mpr missing)
    · rintro a' b' first' second' differ compared
      cases first.symm.trans first'
      cases second.symm.trans second'
      exact Verdicts.ofTerms_of_incomparable compared differ

/-- One blank node, an unbound variable, and a number beside the text that it is written with. -/
theorem comparisons_of_corner_cases :
    let row := Binding.withValues [⟨"unset"⟩] [(⟨"n"⟩, .integer 10), (⟨"b"⟩, .blank "n0")]
    Verdicts.onlyEqual.Reached (.value ⟨"b"⟩) (.fixed (.blank "n0")) row ∧
      Verdicts.allFalse.Reached (.value ⟨"unset"⟩) (.value ⟨"unset"⟩) row ∧
      Verdicts.allFalse.Reached (.value ⟨"n"⟩) (.content ⟨"n"⟩) row := by
  intro row
  refine ⟨?_, ?_, ?_⟩
  · obtain ⟨_, v, reached, _, _, alone, _⟩ :=
      comparisons_consistent (.value ⟨"b"⟩) (.fixed (.blank "n0")) row
    exact alone ⟨"n0", rfl, rfl⟩ ▸ reached
  · obtain ⟨_, v, reached, _, _, _, _, never, _⟩ :=
      comparisons_consistent (.value ⟨"unset"⟩) (.value ⟨"unset"⟩) row
    exact never (Or.inl rfl) ▸ reached
  · obtain ⟨_, v, reached, _, _, _, _, _, incomparable⟩ :=
      comparisons_consistent (.value ⟨"n"⟩) (.content ⟨"n"⟩) row
    exact incomparable (.integer 10) (.plain "10") rfl rfl (by decide) (by decide) ▸ reached

end Constraint

end TripleJoin
