import TripleJoin.Constraint.Comparison
import TripleJoin.Proofs.Matcher.Growth
import TripleJoin.Proofs.Term.Identity
import TripleJoin.Solution
/-!
Comparing by value beside sorting. Where two terms have an order by value, sorting has them in the
same order, and where they are equal by value they are identical or one number. So what a range of
values lets through stands, sorted, on its own side of the bound and of what the opposite range lets
through.
-/
namespace TripleJoin

theorem then_of_ne_eq {o : Ordering} (differ : o ≠ .eq) (s : Ordering) : o.then s = o := by
  cases o with
  | eq => exact absurd rfl differ
  | _ => rfl

/-- Numbers keep their order across a third one if one of the two steps is strict. Without that three
    numbers of one double may turn around. -/
theorem Numeric.isLE_compare_trans {x y z : Numeric} (first : (x.compare y).isLE)
    (second : (y.compare z).isLE) (strict : x.compare y = .lt ∨ y.compare z = .lt) :
    (x.compare z).isLE := by
  rw [Ordering.isLE_iff_ne_gt]
  intro turned
  rw [compare_eq] at first second turned
  rw [compare_eq, compare_eq y] at strict
  obtain ⟨same, same', tie⟩ := (then_eq_gt_iff first second).mp turned
  rw [same] at first strict
  rw [same'] at second strict
  rw [Std.ReflOrd.compare_self] at strict
  -- only integers turn around; a real between them would tie with both, and an integer keeps them
  -- in order
  cases x with
  | real x => cases tie
  | integer m =>
    cases z with
    | real z => cases tie
    | integer n =>
      cases y with
      | real y => rcases strict with strict | strict <;> cases strict
      | integer k =>
        have low := Int.isLE_compare.mp (isLE_of_then_self first)
        have high := Int.isLE_compare.mp (isLE_of_then_self second)
        have back := Int.compare_eq_gt.mp tie
        omega

namespace Term

/-- The pairs of terms that have an order by value, and the order. -/
inductive Comparable : Term → Term → Ordering → Prop where
  | iris (a b : String) : Comparable (.iri a) (.iri b) (Ord.compare a b)
  | numbers {a b : Literal} {x y : Numeric} (first : a.numeric = some x)
      (second : b.numeric = some y) : Comparable (.literal a) (.literal b) (x.compare y)
  | texts {a b : Literal} (first : a.numeric = none) (second : b.numeric = none)
      (datatype : a.datatype = b.datatype) (language : a.language = b.language) :
      Comparable (.literal a) (.literal b) (Ord.compare a.lexical b.lexical)

theorem compareValues_eq_some_iff {a b : Term} {order : Ordering} :
    a.compareValues b = some order ↔ Comparable a b order := by
  constructor
  · intro compared
    cases a with
    | blank a => cases compared
    | iri a =>
      cases b with
      | iri b =>
        cases compared
        exact .iris a b
      | _ => cases compared
    | literal a =>
      cases b with
      | literal b =>
        unfold compareValues at compared
        dsimp only at compared
        split at compared
        · rename_i x y first second
          cases compared
          exact .numbers first second
        · rename_i first second
          split at compared
          · rename_i alike
            cases compared
            exact .texts first second alike.1 alike.2
          · cases compared
        · cases compared
      | _ => cases compared
  · intro comparable
    cases comparable with
    | iris a b => rfl
    | numbers first second => rw [compareValues, first, second]
    | texts first second datatype language =>
      rw [compareValues, first, second]
      exact if_pos ⟨datatype, language⟩

theorem compareValues_of_numeric {a b : Literal} {x y : Numeric} (first : a.numeric = some x)
    (second : b.numeric = some y) : (literal a).compareValues (literal b) = some (x.compare y) :=
  compareValues_eq_some_iff.mpr (.numbers first second)

/-- Two numeric literals whose numbers tie, however they are written. -/
def SameNumber (a b : Term) : Prop :=
  ∃ s t x y, a = .literal s ∧ b = .literal t ∧ s.numeric = some x ∧ t.numeric = some y ∧
    x.compare y = .eq

section

variable {a b c : Term} {order : Ordering}

theorem compare_of_compareValues (compared : a.compareValues b = some order)
    (strict : order ≠ .eq) : a.compare b = order := by
  cases compareValues_eq_some_iff.mp compared with
  | iris a b => rfl
  | @numbers a b x y first second =>
    rw [compare, Literal.compare, first, second]
    exact then_of_ne_eq strict _
  | @texts a b first second datatype language =>
    rw [compare, Literal.compare, first, second]
    exact then_of_ne_eq strict _

theorem eq_or_sameNumber (tie : a.compareValues b = some .eq) : a = b ∨ SameNumber a b := by
  generalize equal : Ordering.eq = order at tie
  cases compareValues_eq_some_iff.mp tie with
  | iris a b => exact Or.inl (congrArg iri (Std.LawfulEqOrd.eq_of_compare equal.symm))
  | numbers first second => exact Or.inr ⟨_, _, _, _, rfl, rfl, first, second, equal.symm⟩
  | @texts a b first second datatype language =>
    have lexical := Std.LawfulEqOrd.eq_of_compare equal.symm
    exact Or.inl (congrArg literal (Literal.eq_of_writing lexical datatype language))

theorem compareValues_swap (compared : a.compareValues b = some order) :
    b.compareValues a = some order.swap := by
  rw [compareValues_eq_some_iff]
  cases compareValues_eq_some_iff.mp compared with
  | iris a b =>
    rw [← Std.OrientedOrd.eq_swap]
    exact .iris b a
  | @numbers a b x y first second =>
    rw [← Numeric.compare_swap]
    exact .numbers second first
  | texts first second datatype language =>
    rw [← Std.OrientedOrd.eq_swap]
    exact .texts second first datatype.symm language.symm

/-- What is not above a bound by value and what is not below it are in order, if one of them is not
    equal to it. -/
theorem compareValues_trans {order' : Ordering} (first : a.compareValues b = some order)
    (second : b.compareValues c = some order') (le : order.isLE) (le' : order'.isLE)
    (strict : order = .lt ∨ order' = .lt) : ∃ o, a.compareValues c = some o ∧ o.isLE := by
  cases compareValues_eq_some_iff.mp first with
  | iris a b =>
    cases compareValues_eq_some_iff.mp second with
    | iris b c =>
      exact ⟨_, compareValues_eq_some_iff.mpr (.iris a c), Std.TransOrd.isLE_trans le le'⟩
  | @numbers a b x y number number' =>
    cases compareValues_eq_some_iff.mp second with
    | @numbers b c y' z again number'' =>
      cases number'.symm.trans again
      exact ⟨_, compareValues_eq_some_iff.mpr (.numbers number number''),
        Numeric.isLE_compare_trans le le' strict⟩
    | texts none => cases number'.symm.trans none
  | @texts a b none none' datatype language =>
    cases compareValues_eq_some_iff.mp second with
    | numbers number => cases none'.symm.trans number
    | @texts b c _ none'' datatype' language' =>
      exact ⟨_, compareValues_eq_some_iff.mpr (.texts none none'' (datatype.trans datatype')
        (language.trans language')), Std.TransOrd.isLE_trans le le'⟩

end

end Term

namespace Constraint

theorem holds_comparing_iff {accepts : Ordering → Bool} {left right : Operand}
    {answers : Request → List Triple} {row : Binding} :
    (comparing accepts left right).holds answers row ↔ ∃ a b order,
      left.resolve row = some a ∧ right.resolve row = some b ∧
        a.compareValues b = some order ∧ accepts order := by
  unfold comparing holds
  dsimp only
  cases left.resolve row with
  | none => exact iff_of_false Bool.false_ne_true (by rintro ⟨_, _, _, ⟨⟩, _⟩)
  | some a =>
    cases right.resolve row with
    | none => exact iff_of_false Bool.false_ne_true (by rintro ⟨_, _, _, _, ⟨⟩, _⟩)
    | some b =>
      dsimp only
      cases compared : a.compareValues b with
      | none =>
        refine iff_of_false Bool.false_ne_true ?_
        rintro ⟨_, _, _, ⟨⟩, ⟨⟩, ordered, _⟩
        rw [compared] at ordered
        cases ordered
      | some order =>
        constructor
        · exact fun accepted => ⟨a, b, order, rfl, rfl, compared, accepted⟩
        · rintro ⟨_, _, _, ⟨⟩, ⟨⟩, ordered, accepted⟩
          rw [compared] at ordered
          cases ordered
          exact accepted

end Constraint

namespace Solution

/-- Ordering by the variable puts the one row before the other, or behind it if it descends,
    whichever keys follow. -/
def Precedes (nulls : NullOrdering) (v : Variable) (row other : Binding) : Prop :=
  ∀ keys, compareBy nulls ((v, .ascending) :: keys) row other = .lt ∧
    compareBy nulls ((v, .descending) :: keys) row other = .gt

/-- Both rows have a value, and by value they are equal. -/
def SameValue (v : Variable) (row other : Binding) : Prop :=
  ∃ a b, row.get? v = some a ∧ other.get? v = some b ∧ a.compareValues b = some .eq

section

variable {v : Variable} {row other : Binding} {a b : Term} (value : row.get? v = some a)
  (value' : other.get? v = some b)
include value value'

theorem precedes_of_lt (less : a.compare b = .lt) (nulls : NullOrdering) :
    Precedes nulls v row other := by
  have turned : b.compare a = (a.compare b).swap := Std.OrientedCmp.eq_swap
  have more : b.compare a = .gt := by
    rw [turned, less]
    rfl
  intro keys
  simp only [compareBy, value, value', NullOrdering.compare, Direction.compare, less, more]
  exact ⟨rfl, rfl⟩

theorem precedes_or_sameValue {order : Ordering} (compared : a.compareValues b = some order)
    (le : order.isLE) (nulls : NullOrdering) :
    Precedes nulls v row other ∨ SameValue v row other := by
  cases order with
  | lt => exact Or.inl (precedes_of_lt value value'
      (Term.compare_of_compareValues compared (by decide)) nulls)
  | eq => exact Or.inr ⟨a, b, value, value', compared⟩
  | gt => cases le

end

end Solution

namespace Constraint

open Solution

section

variable {v : Variable} {bound : Term} {answers : Request → List Triple} {row : Binding}

theorem exists_of_range {accepts : Ordering → Bool}
    (holds : (comparing accepts (.value v) (.fixed bound)).holds answers row) :
    ∃ a order, row.get? v = some a ∧ a.compareValues bound = some order ∧ accepts order := by
  obtain ⟨a, _, order, value, ⟨⟩, compared, accepted⟩ := holds_comparing_iff.mp holds
  exact ⟨a, order, value, compared, accepted⟩

theorem exists_of_less (holds : (less (.value v) (.fixed bound)).holds answers row) :
    ∃ a, row.get? v = some a ∧ a.compareValues bound = some .lt := by
  obtain ⟨a, order, value, compared, accepted⟩ := exists_of_range holds
  rw [Ordering.isLT_iff_eq_lt.mp accepted] at compared
  exact ⟨a, value, compared⟩

theorem exists_of_lessOrEqual (holds : (lessOrEqual (.value v) (.fixed bound)).holds answers row) :
    ∃ a order, row.get? v = some a ∧ a.compareValues bound = some order ∧ order.isLE :=
  exists_of_range holds

theorem exists_of_greater (holds : (greater (.value v) (.fixed bound)).holds answers row) :
    ∃ a, row.get? v = some a ∧ bound.compareValues a = some .lt := by
  obtain ⟨a, order, value, compared, accepted⟩ := exists_of_range holds
  rw [← Ordering.isLT_swap, Ordering.isLT_iff_eq_lt] at accepted
  have back := Term.compareValues_swap compared
  rw [accepted] at back
  exact ⟨a, value, back⟩

theorem exists_of_greaterOrEqual
    (holds : (greaterOrEqual (.value v) (.fixed bound)).holds answers row) :
    ∃ a order, row.get? v = some a ∧ bound.compareValues a = some order ∧ order.isLE := by
  obtain ⟨a, order, value, compared, accepted⟩ := exists_of_range holds
  rw [← Ordering.isLE_swap] at accepted
  exact ⟨a, order.swap, value, Term.compareValues_swap compared, accepted⟩

end

/-- What ordering by a variable makes of two rows where ranges of its values have let them through:
    a row beside one that has the bound for its value, and rows beside each other. -/
structure RangesRespected (nulls : NullOrdering) (v : Variable) (bound : Term)
    (answers : Request → List Triple) (row other : Binding) : Prop where
  less_bound : (less (.value v) (.fixed bound)).holds answers row → other.get? v = some bound →
    Precedes nulls v row other
  greater_bound : (greater (.value v) (.fixed bound)).holds answers row →
    other.get? v = some bound → Precedes nulls v other row
  at_most_bound : (lessOrEqual (.value v) (.fixed bound)).holds answers row →
    other.get? v = some bound → Precedes nulls v row other ∨ SameValue v row other
  at_least_bound : (greaterOrEqual (.value v) (.fixed bound)).holds answers row →
    other.get? v = some bound → Precedes nulls v other row ∨ SameValue v other row
  less_at_least : (less (.value v) (.fixed bound)).holds answers row →
    (greaterOrEqual (.value v) (.fixed bound)).holds answers other →
      Precedes nulls v row other ∨ SameValue v row other
  at_most_greater : (lessOrEqual (.value v) (.fixed bound)).holds answers row →
    (greater (.value v) (.fixed bound)).holds answers other →
      Precedes nulls v row other ∨ SameValue v row other

/-- Filtering by value and sorting agree. Terms with a strict order by value are sorted in that order,
    and those that are equal by value are identical or one number; so sorting contradicts no range of
    values. -/
theorem ranges_agree_with_order :
    (∀ (a b : Term) (order : Ordering), a.compareValues b = some order → order ≠ .eq →
      a.compare b = order) ∧
    (∀ a b : Term, a.compareValues b = some .eq → a = b ∨ a.SameNumber b) ∧
    ∀ nulls v bound answers row other, RangesRespected nulls v bound answers row other := by
  refine ⟨fun _ _ _ => Term.compare_of_compareValues, fun _ _ => Term.eq_or_sameNumber, ?_⟩
  intro nulls v bound answers row other
  constructor
  · intro holds there
    obtain ⟨a, value, compared⟩ := exists_of_less holds
    exact precedes_of_lt value there (Term.compare_of_compareValues compared nofun) nulls
  · intro holds there
    obtain ⟨a, value, compared⟩ := exists_of_greater holds
    exact precedes_of_lt there value (Term.compare_of_compareValues compared nofun) nulls
  · intro holds there
    obtain ⟨a, order, value, compared, le⟩ := exists_of_lessOrEqual holds
    exact precedes_or_sameValue value there compared le nulls
  · intro holds there
    obtain ⟨a, order, value, compared, le⟩ := exists_of_greaterOrEqual holds
    exact precedes_or_sameValue there value compared le nulls
  · intro holds holds'
    obtain ⟨a, value, compared⟩ := exists_of_less holds
    obtain ⟨c, order, value', compared', le⟩ := exists_of_greaterOrEqual holds'
    obtain ⟨_, across, le'⟩ := Term.compareValues_trans compared compared' rfl le (Or.inl rfl)
    exact precedes_or_sameValue value value' across le' nulls
  · intro holds holds'
    obtain ⟨a, order, value, compared, le⟩ := exists_of_lessOrEqual holds
    obtain ⟨c, value', compared'⟩ := exists_of_greater holds'
    obtain ⟨_, across, le'⟩ := Term.compareValues_trans compared compared' le rfl (Or.inr rfl)
    exact precedes_or_sameValue value value' across le' nulls

/-- Nine comes before ten although its text comes after. The integer that rounds to the double of the
    bound is not above it by value, but sorting has it behind: they are one number. -/
theorem ranges_agree_with_order_of_rounded :
    let rounded := Term.literal (.typed "9007199254740993" (xsd "integer"))
    let double := Term.literal (.typed "9007199254740992" (xsd "double"))
    let row := fun value => Binding.withValues [⟨"n"⟩] [(⟨"n"⟩, value)]
    (less (.value ⟨"n"⟩) (.fixed (.integer 10))).holds (fun _ => []) (row (.integer 9)) ∧
      Precedes .last ⟨"n"⟩ (row (.integer 9)) (row (.integer 10)) ∧
      (lessOrEqual (.value ⟨"n"⟩) (.fixed double)).holds (fun _ => []) (row rounded) ∧
      SameValue ⟨"n"⟩ (row rounded) (row double) ∧ rounded.compare double = .gt ∧
      rounded.SameNumber double := by
  intro rounded double row
  obtain ⟨_, tied, ranges⟩ := ranges_agree_with_order
  have nine : (less (.value ⟨"n"⟩) (.fixed (.integer 10))).holds (fun _ => [])
      (row (.integer 9)) := by decide
  have at_most : (lessOrEqual (.value ⟨"n"⟩) (.fixed double)).holds (fun _ => [])
      (row rounded) := by decide
  have behind : rounded.compare double = .gt := by decide
  have here : ∀ value, (row value).get? ⟨"n"⟩ = some value := fun _ => rfl
  refine ⟨nine, (ranges .last _ _ _ _ _).less_bound nine (here _), at_most, ?_, behind, ?_⟩
  · refine ((ranges .last _ _ _ _ _).at_most_bound at_most (here double)).resolve_left ?_
    intro precedes
    have before := (precedes []).1
    simp only [Solution.compareBy, here, NullOrdering.compare, Direction.compare, behind] at before
    cases before
  · exact (tied rounded double (by decide)).resolve_left (by decide)

end Constraint

end TripleJoin
