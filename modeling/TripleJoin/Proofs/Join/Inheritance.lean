import TripleJoin.Proofs.Engine.Build
import TripleJoin.Proofs.Join.Pointwise
import TripleJoin.Proofs.Matcher.Scan
/-!
Inheriting agrees with seeding. An optional clause at a leaf has the values of the leaf put into its
statements and solves only what is left; the same clause as a main pattern starts with the values of
the leaf as its own. Row by row the second finds what the first finds, with the leaf added.
-/
namespace TripleJoin

namespace Binding

/-- The whole binding has the values of its own part, where the leaf has none, and those of the
    leaf. -/
structure Seeded (leaf own whole : Binding) : Prop where
  values : ∀ v, whole.get? v = (own.get? v).or (leaf.get? v)
  apart : ∀ v ∈ own.keys, leaf.get? v = none
  keys : ∀ v, v ∈ whole.keys ↔ v ∈ own.keys ∨ (leaf.get? v).isSome

variable {leaf own whole : Binding}

theorem Seeded.get?_of_leaf (seeded : leaf.Seeded own whole) {v : Variable} {term : Term}
    (inherited : leaf.get? v = some term) : whole.get? v = some term := by
  have outside : v ∉ own.keys := by
    intro member
    rw [seeded.apart v member] at inherited
    cases inherited
  rw [seeded.values, get?_eq_none_of_not_mem outside, inherited, Option.none_or]

theorem Seeded.get?_of_free (seeded : leaf.Seeded own whole) {v : Variable}
    (free : leaf.get? v = none) : whole.get? v = own.get? v := by
  rw [seeded.values, free, Option.or_none]

theorem Seeded.set (seeded : leaf.Seeded own whole) {v : Variable} (free : leaf.get? v = none)
    (term : Term) : leaf.Seeded (own.set v term) (whole.set v term) := by
  constructor
  · intro w
    have same := seeded.keys v
    rw [free] at same
    rw [get?_set, get?_set, seeded.values w]
    by_cases here : w = v ∧ v ∈ own.keys
    · rw [if_pos here, if_pos ⟨here.1, same.mpr (Or.inl here.2)⟩, Option.some_or]
    · rw [if_neg here, if_neg]
      rintro ⟨first, known⟩
      exact here ⟨first, (same.mp known).resolve_right (by simp)⟩
  · rw [keys_set]
    exact seeded.apart
  · intro w
    rw [keys_set, keys_set]
    exact seeded.keys w

theorem Seeded.slot (seeded : leaf.Seeded own whole) (slot : Slot) (term : Term) :
    Option.Rel leaf.Seeded (own.matchSlot (slot.substitute leaf) term)
      (whole.matchSlot slot term) := by
  cases slot with
  | fixed expected =>
    simp only [Slot.substitute, matchSlot]
    split
    · exact .some seeded
    · exact .none
  | free v =>
    cases value : leaf.get? v with
    | some inherited =>
      simp only [Slot.substitute, value, Option.map_some, Option.getD_some, matchSlot,
        seeded.get?_of_leaf value]
      split
      · exact .some seeded
      · exact .none
    | none =>
      simp only [Slot.substitute, value, Option.map_none, Option.getD_none, matchSlot,
        seeded.get?_of_free value]
      cases own.get? v with
      | none => exact .some (seeded.set value term)
      | some old =>
        dsimp only
        split
        · exact .some seeded
        · exact .none

theorem Seeded.triple (seeded : leaf.Seeded own whole) (pattern : TriplePattern)
    (triple : Triple) :
    Option.Rel leaf.Seeded (own.extended (pattern.substitute leaf) triple)
      (whole.extended pattern triple) := by
  simp only [extended, TriplePattern.substitute, Option.bind_eq_bind]
  apply rel_bind (seeded.slot pattern.subject triple.subject)
  intro first first' seeded'
  apply rel_bind (seeded'.slot pattern.predicate triple.predicate)
  intro second second' seeded''
  exact seeded''.slot pattern.object triple.object

theorem Seeded.isComplete_eq (seeded : leaf.Seeded own whole) :
    own.isComplete = whole.isComplete := by
  rw [Bool.eq_iff_iff, isComplete_iff, isComplete_iff]
  constructor
  · intro complete v member
    rcases (seeded.keys v).mp member with mine | inherited
    · rw [seeded.get?_of_free (seeded.apart v mine)]
      exact complete v mine
    · obtain ⟨term, found⟩ := Option.isSome_iff_exists.mp inherited
      exact Option.isSome_of_eq_some (seeded.get?_of_leaf found)
  · intro complete v member
    rw [← seeded.get?_of_free (seeded.apart v member)]
    exact complete v ((seeded.keys v).mpr (Or.inl member))

theorem Seeded.get?_overlay (seeded : leaf.Seeded own whole) (v : Variable) :
    (own.overlay leaf).get? v = whole.get? v := by
  rw [Binding.get?_overlay]
  split
  · rename_i mine
    exact (seeded.get?_of_free (seeded.apart v mine)).symm
  · rename_i outside
    rw [seeded.values, get?_eq_none_of_not_mem outside, Option.none_or]

/-- A clause that starts with the values of the leaf, in whatever order they are given. -/
theorem seeded_withValues {leaf : Binding} {initial : List (Variable × Term)}
    (distinct : (initial.map Prod.fst).Nodup) (values : ∀ v, initial.lookup v = leaf.get? v)
    (clause : Pattern) :
    leaf.Seeded (unbound (clause.substitute leaf).unbounds)
      (withValues clause.unbounds initial) := by
  have free : ∀ v, v ∈ (unbound (clause.substitute leaf).unbounds).keys ↔
      v ∈ clause.unbounds ∧ leaf.get? v = none := by
    intro v
    simp [keys_unbound, Pattern.substitute, isBound]
  constructor
  · intro v
    rw [get?_unbound, get?_withValues v _ distinct, values, Option.none_or]
  · exact fun v member => ((free v).mp member).2
  · intro v
    rw [free, keys_withValues, mem_foldl_addNew, mem_foldl_addNew, ← lookup_isSome_iff_mem, values]
    cases leaf.get? v with
    | none => simp
    | some term => simp

theorem seeded_start (leaf : Binding) (clause : Pattern) :
    leaf.Seeded (unbound (clause.substitute leaf).unbounds)
      (withValues clause.unbounds leaf.bound) :=
  seeded_withValues leaf.bound_nodup (fun v => leaf.lookup_bound v) clause

end Binding

/-- What the constraint says depends on the values of the variables only. -/
def Constraint.Extensional (constraint : Constraint) (answers : Request → List Triple) : Prop :=
  ∀ a b : Binding, (∀ v, a.get? v = b.get? v) →
    (constraint.decide a).outcome answers = (constraint.decide b).outcome answers

theorem TriplePattern.substitute_congr {a b : Binding} (same : ∀ v, a.get? v = b.get? v)
    (pattern : TriplePattern) : pattern.substitute a = pattern.substitute b := by
  have slot : ∀ slot : Slot, slot.substitute a = slot.substitute b := by
    intro slot
    cases slot with
    | fixed term => rfl
    | free v => rw [Slot.substitute, Slot.substitute, same]
  rw [substitute, substitute, slot, slot, slot]

theorem Constraint.extensional_answered (pattern : TriplePattern) (wanted : Bool)
    (answers : Request → List Triple) : (answered pattern wanted).Extensional answers := by
  intro a b same
  simp only [answered, TriplePattern.substitute_congr same pattern]

theorem Constraint.decides_answered (pattern : TriplePattern) (wanted : Bool)
    (answers : Request → List Triple) : (answered pattern wanted).Decides answers :=
  fun _ => ⟨_, rfl⟩

namespace Matcher

variable {leaf own whole : Binding}

/-- Extensional constraints admit a leaf by the values that they see. -/
theorem admitsLeaf_congr {matcher other : Matcher} {answers : Request → List Triple} {a b : Binding}
    (constraints : matcher.constraints = other.constraints)
    (extensional : ∀ constraint ∈ matcher.constraints, constraint.Extensional answers)
    (values : ∀ v, (matcher.view a).get? v = (other.view b).get? v) :
    matcher.admitsLeaf answers a = other.admitsLeaf answers b := by
  have same : ∀ constraint ∈ matcher.constraints,
      constraint.holds answers (matcher.view a) = constraint.holds answers (other.view b) :=
    fun constraint member => congrArg isYes (extensional constraint member _ _ values)
  rw [Bool.eq_iff_iff, admitsLeaf, admitsLeaf, ← constraints, List.all_eq_true, List.all_eq_true]
  constructor
  · intro holds constraint member
    exact (same constraint member).symm.trans (holds constraint member)
  · intro holds constraint member
    exact (same constraint member).trans (holds constraint member)

theorem admitsLeaf_of_seeded (seeded : leaf.Seeded own whole) (source : Source)
    {constraints : List Constraint} {answers : Request → List Triple}
    (extensional : ∀ constraint ∈ constraints, constraint.Extensional answers) :
    (Matcher.mk source constraints (some leaf)).admitsLeaf answers own =
      (Matcher.mk source constraints none).admitsLeaf answers whole :=
  admitsLeaf_congr rfl extensional seeded.get?_overlay

/-- The statements of a clause at a leaf and those of the clause itself have rows in the same
    order. -/
theorem forall₂_seeded_rows (graph : Graph) (source : Source) {constraints : List Constraint}
    (extensional : ∀ constraint ∈ constraints, constraint.Extensional graph.matching)
    (statements : List Statement) (start : leaf.Seeded own whole) :
    List.Forall₂ leaf.Seeded
      ((Matcher.mk source constraints (some leaf)).rows graph.matching
        (statements.map fun statement => statement.substitute leaf) own)
      ((Matcher.mk source constraints none).rows graph.matching statements whole) := by
  induction statements generalizing own whole with
  | nil =>
    rw [List.map_nil, rows, rows, start.isComplete_eq,
      admitsLeaf_of_seeded start source extensional]
    split
    · exact .cons start .nil
    · exact .nil
  | cons head rest ih =>
    rw [List.map_cons, rows, rows, extensions_matching, extensions_matching]
    refine forall₂_flatMap (forall₂_filterMap ?_) fun next next' seeded => ih seeded
    intro triple _
    change Option.Rel leaf.Seeded (if head.passes triple then _ else none) _
    split
    · exact start.triple head.toTriplePattern triple
    · exact .none

end Matcher

end TripleJoin
