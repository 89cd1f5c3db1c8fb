import Mathlib.Data.List.Nodup
import TripleJoin.Proofs.Matcher.Ways
/-!
Ways are told apart by where they end. Under the binding at the end of a way every statement is the
triple that it took, so the binding gives the triples back; and no triple is offered to a statement
twice. So matching never comes to one binding twice.
-/
namespace TripleJoin

theorem TriplePattern.substitute_of_extends {pattern : TriplePattern} {triple : Triple}
    {next binding : Binding} (later : next.Extends binding)
    (fixed : pattern.substitute binding = .ofTriple triple) :
    pattern.substitute next = .ofTriple triple := by
  simp only [substitute, ofTriple, mk.injEq] at fixed ⊢
  obtain ⟨subject, predicate, object⟩ := fixed
  exact ⟨Slot.substitute_of_extends later subject, Slot.substitute_of_extends later predicate,
    Slot.substitute_of_extends later object⟩

/-- The keys of the binding are enough for the statements. -/
def Binding.Covers (binding : Binding) (statements : List Statement) : Prop :=
  ∀ statement ∈ statements, ∀ v ∈ statement.freeVariables, v ∈ binding.keys

theorem Binding.Covers.tail {binding next : Binding} {head : Statement} {rest : List Statement}
    (covers : binding.Covers (head :: rest)) (keys : next.keys = binding.keys) :
    next.Covers rest := by
  intro statement stated v free
  exact keys ▸ covers statement (List.mem_cons_of_mem head stated) v free

/-- Whatever values a pattern starts with, its statements are covered. -/
theorem Pattern.Built.covers {pattern : Pattern} (built : pattern.Built)
    (initial : List (Variable × Term)) :
    (Binding.withValues pattern.unbounds initial).Covers pattern.statements := by
  intro statement stated v free
  rw [built.keys_withValues, mem_foldl_addNew]
  exact Or.inl (mem_variablesOf.mpr ⟨statement, stated, free⟩)

/-- Under the binding at its end, each statement is the triple that it took. -/
def Way.Spells (way : Way) (statements : List Statement) : Prop :=
  List.Forall₂ (fun statement triple =>
    statement.toTriplePattern.substitute way.binding = .ofTriple triple) statements way.triples

/-- Ways of the same statements that end with the same values took the same triples. -/
theorem Way.Spells.triples_eq {statements : List Statement} {a b : Way}
    (first : a.Spells statements) (second : b.Spells statements)
    (values : a.binding.get? = b.binding.get?) : a.triples = b.triples := by
  obtain ⟨triples, binding⟩ := a
  obtain ⟨others, binding'⟩ := b
  simp only [Spells] at first second values ⊢
  induction first generalizing others with
  | nil =>
    cases second
    rfl
  | cons spelled _ ih =>
    cases second with
    | cons spelled' rest =>
      rw [ih _ rest, TriplePattern.ofTriple_injective (spelled.symm.trans
        ((TriplePattern.substitute_congr (congrFun values) _).trans spelled'))]

namespace Matcher

variable {matcher : Matcher} {answers : Request → List Triple} {statements : List Statement}
  {binding : Binding} {way : Way}

theorem mem_ways_nil : way ∈ matcher.ways answers [] binding ↔
    binding.isComplete = true ∧ matcher.admitsLeaf answers binding = true ∧
      way = ⟨[], binding⟩ := by
  rw [ways, ← and_assoc, ← Bool.and_eq_true]
  split
  · rename_i admitted
    rw [List.mem_singleton, and_iff_right admitted]
  · rename_i rejected
    exact iff_of_false List.not_mem_nil fun both => rejected both.1

theorem mem_ways_cons {head : Statement} {rest : List Statement} :
    way ∈ matcher.ways answers (head :: rest) binding ↔
      ∃ triple ∈ answers (head.substitute binding).request, ∃ next,
        head.take? triple binding = some next ∧
          ∃ later ∈ matcher.ways answers rest next, later.after triple = way := by
  simp only [ways, childOf_substitute, List.mem_flatMap, List.mem_map, Option.mem_toList]

theorem extends_of_mem_ways (member : way ∈ matcher.ways answers statements binding) :
    way.binding.Extends binding := by
  induction statements generalizing binding way with
  | nil =>
    obtain ⟨_, _, rfl⟩ := mem_ways_nil.mp member
    exact .refl binding
  | cons head rest ih =>
    obtain ⟨triple, _, next, taken, later, below, rfl⟩ := mem_ways_cons.mp member
    rw [Statement.take?, Option.ite_none_right_eq_some] at taken
    exact (ih below).trans (Binding.extends_extended taken.2)

theorem complete_of_mem_ways (member : way ∈ matcher.ways answers statements binding) :
    way.binding.isComplete = true := by
  apply complete_of_mem_rows matcher answers
  rw [rows_eq_ways]
  exact List.mem_map_of_mem member

theorem held_of_mem_ways {held : List Triple}
    (draws : ∀ request, ∀ triple ∈ answers request, triple ∈ held)
    (member : way ∈ matcher.ways answers statements binding) :
    ∀ triple ∈ way.triples, triple ∈ held := by
  induction statements generalizing binding way with
  | nil =>
    obtain ⟨_, _, rfl⟩ := mem_ways_nil.mp member
    exact List.forall_mem_nil _
  | cons head rest ih =>
    obtain ⟨triple, answered, next, _, later, below, rfl⟩ := mem_ways_cons.mp member
    exact List.forall_mem_cons.mpr ⟨draws _ triple answered, ih below⟩

theorem spells_of_mem_ways (covers : binding.Covers statements)
    (member : way ∈ matcher.ways answers statements binding) : way.Spells statements := by
  induction statements generalizing binding way with
  | nil =>
    obtain ⟨_, _, rfl⟩ := mem_ways_nil.mp member
    exact .nil
  | cons head rest ih =>
    obtain ⟨triple, _, next, taken, later, below, rfl⟩ := mem_ways_cons.mp member
    rw [Statement.take?, Option.ite_none_right_eq_some] at taken
    have spelled := Binding.substitute_extended taken.2 (covers head List.mem_cons_self)
    have kept : later.binding.Extends next := extends_of_mem_ways below
    exact .cons (TriplePattern.substitute_of_extends kept spelled)
      (ih (covers.tail (Binding.keys_extended taken.2)) below)

/-- If no answer repeats a triple, no two ways consist of the same triples. -/
theorem ways_triples_nodup (distinct : ∀ request, (answers request).Nodup)
    (statements : List Statement) (binding : Binding) :
    ((matcher.ways answers statements binding).map Way.triples).Nodup := by
  induction statements generalizing binding with
  | nil =>
    rw [ways]
    split <;> simp
  | cons head rest ih =>
    rw [ways, List.map_flatMap, List.nodup_flatMap]
    have front : ∀ candidate triples, triples ∈ (List.map Way.triples
        ((childOf (head.substitute binding) binding candidate).toList.flatMap fun next =>
          (matcher.ways answers rest next).map (Way.after candidate))) →
            ∃ more, triples = candidate :: more := by
      intro candidate triples member
      simp only [List.map_flatMap, List.map_map, List.mem_flatMap, List.mem_map] at member
      obtain ⟨_, _, way, _, rfl⟩ := member
      exact ⟨way.triples, rfl⟩
    constructor
    · intro candidate _
      cases childOf (head.substitute binding) binding candidate with
      | none => exact List.nodup_nil
      | some next =>
        have below := (ih next).map (List.cons_injective (a := candidate))
        simpa [Way.after, Function.comp_def] using below
    · -- ways of different candidates begin with different triples
      refine (distinct _).imp ?_
      intro first second differ triples member member'
      obtain ⟨more, rfl⟩ := front first triples member
      obtain ⟨more', same⟩ := front second _ member'
      exact differ (List.cons.inj same).1

/-- Matching never comes to the same values twice. -/
theorem rows_values_nodup (distinct : ∀ request, (answers request).Nodup)
    (covers : binding.Covers statements) :
    ((matcher.rows answers statements binding).map Binding.get?).Nodup := by
  have triples := matcher.ways_triples_nodup distinct statements binding
  rw [rows_eq_ways, List.map_map]
  rw [List.Nodup, List.pairwise_map] at triples ⊢
  refine triples.imp_of_mem ?_
  intro a b first second differ values
  exact differ ((spells_of_mem_ways covers first).triples_eq (spells_of_mem_ways covers second)
    values)

end Matcher

end TripleJoin
