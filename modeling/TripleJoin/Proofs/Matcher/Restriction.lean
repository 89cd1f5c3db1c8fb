import TripleJoin.Proofs.Matcher.Calls
import TripleJoin.Proofs.Matcher.Uniqueness
/-!
Matching when some triples are left out. Constraints that do not ask the store see no difference, so
nothing is called that was not called before, and the ways that are left are exactly those all of
whose triples are left.
-/
namespace TripleJoin

/-- What does not ask is not answered. -/
theorem Decision.Silent.outcome_eq {decision : Decision} (silent : decision.Silent)
    (answers answers' : Request → List Triple) :
    decision.outcome answers = decision.outcome answers' := by
  induction decision with
  | verdict result => rfl
  | remark event rest ih => exact ih silent
  | ask request next => exact absurd silent id

theorem Constraint.Silent.holds_eq {constraint : Constraint} (silent : constraint.Silent)
    (answers answers' : Request → List Triple) (binding : Binding) :
    constraint.holds answers binding = constraint.holds answers' binding :=
  congrArg isYes ((silent binding).outcome_eq answers answers')

namespace Matcher

variable {answers answers' : Request → List Triple}

theorem constraintCalls_eq (seen : Binding) (index : Nat) {constraints : List Constraint}
    (silent : ∀ constraint ∈ constraints, constraint.Silent) :
    constraintCalls answers seen index constraints =
      constraintCalls answers' seen index constraints := by
  induction constraints generalizing index with
  | nil => rfl
  | cons constraint constraints ih =>
    rw [List.forall_mem_cons] at silent
    rw [constraintCalls, constraintCalls, ih (index + 1) silent.2,
      silent.1.holds_eq answers answers']

variable {source other : Source} {constraints : List Constraint} {inherited : Option Binding}

theorem admitsLeaf_eq (silent : ∀ constraint ∈ constraints, constraint.Silent)
    (binding : Binding) :
    (Matcher.mk source constraints inherited).admitsLeaf answers binding =
      (Matcher.mk other constraints inherited).admitsLeaf answers' binding := by
  rw [Bool.eq_iff_iff, admitsLeaf, admitsLeaf, List.all_eq_true, List.all_eq_true]
  exact forall₂_congr fun constraint member => by
    rw [(silent constraint member).holds_eq answers answers']
    rfl

/-- From a store that has fewer answers, nothing is called that would not be called otherwise. -/
theorem calls_subset (fewer : ∀ request, answers' request ⊆ answers request)
    (silent : ∀ constraint ∈ constraints, constraint.Silent) (statements : List Statement)
    (binding : Binding) :
    (Matcher.mk other constraints inherited).calls answers' statements binding ⊆
      (Matcher.mk source constraints inherited).calls answers statements binding := by
  induction statements generalizing binding with
  | nil =>
    rw [calls, calls, constraintCalls_eq _ 0 silent]
    exact List.Subset.refl _
  | cons head rest ih =>
    rw [calls, calls]
    apply List.cons_subset_cons
    intro call member
    obtain ⟨candidate, answered, called⟩ := List.mem_flatMap.mp member
    refine List.mem_flatMap.mpr ⟨candidate, fewer _ answered, ?_⟩
    revert called
    cases childOf (head.substitute binding) binding candidate with
    | none => exact id
    | some next =>
      simp only [Option.map_some, Option.getD_some, List.mem_append]
      exact Or.imp_right fun below => ih next below

theorem mem_ways_matching {matcher : Matcher} {graph : Graph} {head : Statement}
    {rest : List Statement} {binding : Binding} {way : Way} :
    way ∈ matcher.ways graph.matching (head :: rest) binding ↔
      ∃ triple ∈ graph.toList, ∃ next, head.take? triple binding = some next ∧
        ∃ later ∈ matcher.ways graph.matching rest next, later.after triple = way := by
  simp only [ways_matching, List.mem_flatMap, List.mem_map, Option.mem_toList]

/-- A way is there in any graph that has its triples. -/
theorem mem_ways_of_held {graph held : Graph}
    (silent : ∀ constraint ∈ constraints, constraint.Silent) {statements : List Statement}
    {binding : Binding} {way : Way}
    (member : way ∈ (Matcher.mk source constraints inherited).ways graph.matching statements
      binding) (kept : ∀ triple ∈ way.triples, triple ∈ held.toList) :
    way ∈ (Matcher.mk other constraints inherited).ways held.matching statements binding := by
  induction statements generalizing binding way with
  | nil =>
    obtain ⟨complete, admitted, rfl⟩ := mem_ways_nil.mp member
    exact mem_ways_nil.mpr ⟨complete, admitsLeaf_eq silent binding ▸ admitted, rfl⟩
  | cons head rest ih =>
    obtain ⟨triple, _, next, taken, later, below, rfl⟩ := mem_ways_matching.mp member
    obtain ⟨first, others⟩ := List.forall_mem_cons.mp kept
    exact mem_ways_matching.mpr ⟨triple, first, next, taken, later, ih below others, rfl⟩

theorem ways_nodup (matcher : Matcher) (graph : Graph) (statements : List Statement)
    (binding : Binding) : (matcher.ways graph.matching statements binding).Nodup :=
  .of_map _ (matcher.ways_triples_nodup graph.matching_nodup statements binding)

/-- A graph that has the triples of all ways through a larger one has the same ways. -/
theorem ways_perm_of_held {graph held : Graph}
    (silent : ∀ constraint ∈ constraints, constraint.Silent) (statements : List Statement)
    (binding : Binding) (fewer : held.toList ⊆ graph.toList)
    (kept : ∀ way ∈ (Matcher.mk source constraints inherited).ways graph.matching statements
      binding, ∀ triple ∈ way.triples, triple ∈ held.toList) :
    ((Matcher.mk other constraints inherited).ways held.matching statements binding).Perm
      ((Matcher.mk source constraints inherited).ways graph.matching statements binding) := by
  rw [List.perm_ext_iff_of_nodup (ways_nodup _ _ _ _) (ways_nodup _ _ _ _)]
  intro way
  constructor
  · intro member
    have inside := held_of_mem_ways (fun _ _ => Graph.mem_of_mem_matching) member
    exact mem_ways_of_held silent member fun triple taken => fewer (inside triple taken)
  · exact fun member => mem_ways_of_held silent member (kept way member)

end Matcher

end TripleJoin
