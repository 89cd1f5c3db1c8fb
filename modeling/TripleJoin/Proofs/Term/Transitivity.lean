import TripleJoin.Proofs.Number.Rounding
import TripleJoin.Term.Order
/-!
Where the order of terms is transitive and where it is not. Numbers compare as doubles first, since
integers that differ keep their order when they are rounded; two integers of one double still compare
exactly, while an integer and a real of one double go by how they are written. The two rules may
contradict each other, and nothing else goes wrong.
-/
namespace TripleJoin

theorem then_lt_of_isLE {o : Ordering} (le : o.isLE) : o.then .lt = .lt := by
  cases o <;> simp_all

theorem then_gt_of_isGE {o : Ordering} (ge : o.isGE) : o.then .gt = .gt := by
  cases o <;> simp_all

theorem isLE_of_then_self {α : Type} [Ord α] [Std.ReflOrd α] {p : α} {s : Ordering}
    (le : ((compare p p).then s).isLE) : s.isLE := by
  rwa [Std.ReflOrd.compare_self] at le

section

variable {α : Type} [Ord α] [Std.TransOrd α] [Std.LawfulEqOrd α] {p q r : α} {s t u : Ordering}

/-- A comparison with a second one for ties turns around only where the first ties throughout. -/
theorem then_eq_gt_iff (first : ((compare p q).then s).isLE) (second : ((compare q r).then t).isLE) :
    (compare p r).then u = .gt ↔ p = q ∧ q = r ∧ u = .gt := by
  have before := Ordering.isLE_left_of_isLE_then first
  have after := Ordering.isLE_left_of_isLE_then second
  constructor
  · intro turned
    rcases Ordering.then_eq_gt.mp turned with greater | ⟨tie, rest⟩
    · have less := Std.TransOrd.isLE_trans before after
      rw [greater] at less
      cases less
    · have same : p = r := Std.LawfulEqOrd.eq_of_compare tie
      subst same
      have tie' := Std.OrientedCmp.isLE_antisymm before after
      have same' : p = q := Std.LawfulEqOrd.eq_of_compare tie'
      exact ⟨same', same'.symm, rest⟩
  · rintro ⟨rfl, rfl, rest⟩
    rw [Std.ReflOrd.compare_self, rest]
    rfl

end

namespace Numeric

/-- What is left to compare of numbers that are one double. -/
def tie : Numeric → Numeric → Ordering
  | .integer m, .integer n => Ord.compare m n
  | _, _ => .eq

/-- Integers may be compared as doubles first: rounding never turns them around. -/
theorem compare_eq (x y : Numeric) :
    x.compare y = (Ord.compare x.toBinary64.rank y.toBinary64.rank).then (x.tie y) := by
  cases x with
  | real x => cases y <;> exact Ordering.then_eq.symm
  | integer m =>
    cases y with
    | real y => exact Ordering.then_eq.symm
    | integer n =>
      simp only [compare, toBinary64, tie]
      rcases Int.lt_trichotomy m n with less | same | greater
      · have kept := Int.isLE_compare.mpr (Binary64.rank_ofInt_mono (Int.le_of_lt less))
        rw [Int.compare_eq_lt.mpr less]
        exact (then_lt_of_isLE kept).symm
      · rw [same, Std.ReflOrd.compare_self, Std.ReflOrd.compare_self]
        rfl
      · have kept := Int.isGE_compare.mpr (Binary64.rank_ofInt_mono (Int.le_of_lt greater))
        rw [Int.compare_eq_gt.mpr greater]
        exact (then_gt_of_isGE kept).symm

/-- Among three numbers that are one double, in this order, an exact comparison of two integers goes
    against the comparison of writings that the third number brings in. -/
def Conflict (x y z : Numeric) (writing : Ordering) : Prop :=
  match x, y, z with
  | .integer m, .real _, .integer n => n < m
  | .integer m, .integer n, .real _ => m < n ∧ writing = .gt
  | .real _, .integer m, .integer n => m < n ∧ writing = .gt
  | _, _, _ => False

theorem lt_of_tie {m n : Int} {s : Ordering} (le : ((Ord.compare m n).then s).isLE)
    (back : ¬s.isLE) : m < n := by
  rcases Ordering.isLE_then_iff_or.mp le with less | ⟨_, rest⟩
  · exact Int.compare_eq_lt.mp less
  · exact absurd rest back

theorem tie_eq_gt_iff {x y z : Numeric} {s t u : Ordering} (trans : s.isLE → t.isLE → u.isLE)
    (first : ((x.tie y).then s).isLE) (second : ((y.tie z).then t).isLE) :
    (x.tie z).then u = .gt ↔ Conflict x y z u := by
  have never : s.isLE → t.isLE → u ≠ .gt := fun before after =>
    Ordering.isLE_iff_ne_gt.mp (trans before after)
  cases x with
  | integer m =>
    cases y with
    | integer n =>
      cases z with
      | integer k =>
        simp only [tie, Conflict] at first second ⊢
        rw [then_eq_gt_iff first second, iff_false]
        rintro ⟨rfl, rfl, turned⟩
        exact never (isLE_of_then_self first) (isLE_of_then_self second) turned
      | real z =>
        change u = .gt ↔ m < n ∧ u = .gt
        constructor
        · intro turned
          exact ⟨lt_of_tie first fun before => never before second turned, turned⟩
        · exact And.right
    | real y =>
      cases z with
      | integer n =>
        change (Ord.compare m n).then u = .gt ↔ n < m
        rw [← Int.compare_eq_gt, Ordering.then_eq_gt]
        constructor
        · rintro (greater | ⟨_, turned⟩)
          · exact greater
          · exact absurd turned (never first second)
        · exact Or.inl
      | real z => exact iff_of_false (never first second) id
  | real x =>
    cases y with
    | integer m =>
      cases z with
      | integer n =>
        change u = .gt ↔ m < n ∧ u = .gt
        constructor
        · intro turned
          exact ⟨lt_of_tie second fun after => never first after turned, turned⟩
        · exact And.right
      | real z => exact iff_of_false (never first second) id
    | real y => cases z <;> exact iff_of_false (never first second) id

end Numeric

namespace Literal

instance : Std.TransCmp compareWriting :=
  inferInstanceAs (Std.TransCmp (compareLex (compareOn lexical)
    (compareLex (compareOn datatype) (compareOn language))))

/-- Three literals of one double whose writings conflict with the integers among them. -/
def Clash (a b c : Literal) : Prop :=
  ∃ x y z, a.numeric = some x ∧ b.numeric = some y ∧ c.numeric = some z ∧
    x.toBinary64 = y.toBinary64 ∧ y.toBinary64 = z.toBinary64 ∧
      Numeric.Conflict x y z (a.compareWriting c)

variable {a b c : Literal}

theorem compare_of_numeric {x y : Numeric} (first : a.numeric = some x)
    (second : b.numeric = some y) :
    a.compare b = (Ord.compare x.toBinary64.rank y.toBinary64.rank).then
      ((x.tie y).then (a.compareWriting b)) := by
  rw [compare, first, second]
  dsimp only
  rw [Numeric.compare_eq, Ordering.then_assoc]

theorem numeric_of_compare {x : Numeric} (le : (a.compare b).isLE) (later : b.numeric = some x) :
    ∃ y, a.numeric = some y := by
  cases earlier : a.numeric with
  | some y => exact ⟨y, rfl⟩
  | none =>
    rw [compare, earlier, later] at le
    cases le

theorem numeric_gt_iff {x y z : Numeric} (start : a.numeric = some x) (middle : b.numeric = some y)
    (last : c.numeric = some z) (first : (a.compare b).isLE) (second : (b.compare c).isLE) :
    a.compare c = .gt ↔ x.toBinary64 = y.toBinary64 ∧ y.toBinary64 = z.toBinary64 ∧
      Numeric.Conflict x y z (a.compareWriting c) := by
  rw [compare_of_numeric start middle] at first
  rw [compare_of_numeric middle last] at second
  rw [compare_of_numeric start last, then_eq_gt_iff first second]
  have trans : (a.compareWriting b).isLE → (b.compareWriting c).isLE →
      (a.compareWriting c).isLE := Std.TransCmp.isLE_trans
  constructor
  · rintro ⟨same, same', turned⟩
    rw [same] at first
    rw [same'] at second
    exact ⟨Binary64.rank_inj same, Binary64.rank_inj same', (Numeric.tie_eq_gt_iff trans
      (isLE_of_then_self first) (isLE_of_then_self second)).mp turned⟩
  · rintro ⟨same, same', conflict⟩
    rw [same] at first
    rw [same'] at second
    exact ⟨congrArg Binary64.rank same, congrArg Binary64.rank same', (Numeric.tie_eq_gt_iff trans
      (isLE_of_then_self first) (isLE_of_then_self second)).mpr conflict⟩

theorem literal_gt_iff (first : (a.compare b).isLE) (second : (b.compare c).isLE) :
    a.compare c = .gt ↔ Clash a b c := by
  cases last : c.numeric with
  | some z =>
    obtain ⟨y, middle⟩ := numeric_of_compare second last
    obtain ⟨x, start⟩ := numeric_of_compare first middle
    rw [numeric_gt_iff start middle last first second, Clash, start, middle, last]
    constructor
    · rintro ⟨same, same', conflict⟩
      exact ⟨x, y, z, rfl, rfl, rfl, same, same', conflict⟩
    · rintro ⟨_, _, _, ⟨⟩, ⟨⟩, ⟨⟩, same, same', conflict⟩
      exact ⟨same, same', conflict⟩
  | none =>
    have calm : ¬Clash a b c := by
      rintro ⟨_, _, z, _, _, number, _⟩
      rw [last] at number
      cases number
    refine iff_of_false ?_ calm
    cases start : a.numeric with
    | some x => simp [compare, start, last]
    | none =>
      -- then the second is no number either, and all three go by their writing
      have middle : b.numeric = none := by
        cases middle : b.numeric with
        | none => rfl
        | some y =>
          obtain ⟨x, number⟩ := numeric_of_compare first middle
          rw [start] at number
          cases number
      simp only [compare, start, middle, last] at first second ⊢
      exact Ordering.isLE_iff_ne_gt.mp (Std.TransCmp.isLE_trans first second)

end Literal

namespace Term

/-- What is left to compare of terms of one kind. -/
def within : Term → Term → Ordering
  | .blank a, .blank b => Ord.compare a b
  | .iri a, .iri b => Ord.compare a b
  | .literal a, .literal b => a.compare b
  | _, _ => .eq

theorem compare_eq_kind (a b : Term) :
    a.compare b = (Ord.compare a.kindRank b.kindRank).then (a.within b) := by
  cases a <;> cases b <;> rfl

/-- Only literals that clash go around in a circle. -/
theorem clash_of_turned {a b c : Term} (first : a.compare b ≠ .gt) (second : b.compare c ≠ .gt)
    (turned : a.compare c = .gt) :
    ∃ x y z, a = .literal x ∧ b = .literal y ∧ c = .literal z ∧ Literal.Clash x y z := by
  have before := Ordering.isLE_iff_ne_gt.mpr first
  have after := Ordering.isLE_iff_ne_gt.mpr second
  rw [compare_eq_kind] at before after
  rw [compare_eq_kind, then_eq_gt_iff before after] at turned
  obtain ⟨same, same', turned⟩ := turned
  rw [same] at before
  rw [same'] at after
  have within := isLE_of_then_self before
  have within' := isLE_of_then_self after
  cases a with
  | blank a =>
    cases b <;> cases same
    cases c <;> cases same'
    exact absurd turned (Ordering.isLE_iff_ne_gt.mp (Std.TransOrd.isLE_trans within within'))
  | iri a =>
    cases b <;> cases same
    cases c <;> cases same'
    exact absurd turned (Ordering.isLE_iff_ne_gt.mp (Std.TransOrd.isLE_trans within within'))
  | literal a =>
    cases b <;> cases same
    cases c <;> cases same'
    exact ⟨_, _, _, rfl, rfl, rfl, (Literal.literal_gt_iff within within').mp turned⟩

/-- The order is transitive but for clashes: if the first term is not after the second and the second
    not after the third, then the first is after the third exactly if the three are literals that
    clash. -/
theorem compare_turns_iff {a b c : Term} (first : a.compare b ≠ .gt) (second : b.compare c ≠ .gt) :
    a.compare c = .gt ↔
      ∃ x y z, a = .literal x ∧ b = .literal y ∧ c = .literal z ∧ Literal.Clash x y z := by
  constructor
  · exact clash_of_turned first second
  · rintro ⟨x, y, z, rfl, rfl, rfl, clash⟩
    have within : (x.compare y).isLE := Ordering.isLE_iff_ne_gt.mpr first
    have within' : (y.compare z).isLE := Ordering.isLE_iff_ne_gt.mpr second
    exact (Literal.literal_gt_iff within within').mpr clash

/-- The term stands for no number. -/
def Numberless (term : Term) : Prop :=
  ∀ literal ∈ term.literal?, literal.numeric = none

/-- The first integer that is no double, with the double that it rounds to, and the integer there. -/
theorem clash_of_rounded :
    Literal.Clash (.typed "+9007199254740993" (xsd "integer"))
      (.typed "9007199254740992" (xsd "double")) (.typed "9007199254740992" (xsd "integer")) := by
  obtain ⟨_, _, _, ⟨⟩, ⟨⟩, ⟨⟩, clash⟩ := (compare_turns_iff
    (a := .literal (.typed "+9007199254740993" (xsd "integer")))
    (b := .literal (.typed "9007199254740992" (xsd "double")))
    (c := .literal (.typed "9007199254740992" (xsd "integer")))
    (by decide) (by decide)).mp (by decide)
  exact clash

theorem compare_not_trans :
    ¬∀ a b c : Term, a.compare b ≠ .gt → b.compare c ≠ .gt → a.compare c ≠ .gt := by
  intro trans
  exact trans (.literal (.typed "+9007199254740993" (xsd "integer")))
    (.literal (.typed "9007199254740992" (xsd "double")))
    (.literal (.typed "9007199254740992" (xsd "integer"))) (by decide) (by decide) (by decide)

end Term

end TripleJoin
