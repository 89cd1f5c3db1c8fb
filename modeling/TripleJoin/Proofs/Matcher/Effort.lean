import TripleJoin.Proofs.Matcher.Calls
/-!
What expansion spends. It makes a node for every partial match that it visits, and it asks the source
once at each of them that has a statement left. Some visits come to nothing, by a clash there or by
clashes all the way further down; the tree that it hands back has a node for each of the others.
-/
namespace TripleJoin

/-- From the first journal to the second so many nodes were made and the source was asked so
    often. -/
structure Journal.Spent (source : Source) (before : Journal) (nodes requests : Nat)
    (after : Journal) : Prop where
  nodes : after.nodes = before.nodes + nodes
  asked : after.callsTo source.name = before.callsTo source.name + requests

namespace Run

variable {ε α : Type} {source : Source} {result : α}

/-- The run ends with this result from every journal, and makes so many nodes and requests. -/
def Spends (source : Source) (run : Run ε α) (result : α) (nodes requests : Nat) : Prop :=
  ∀ journal : Journal, ∃ after,
    run.run.run journal = (.ok result, after) ∧ journal.Spent source nodes requests after

theorem Spends.yields {run : Run ε α} {nodes requests : Nat}
    (spends : run.Spends source result nodes requests) : run.Yields result := by
  intro journal
  obtain ⟨after, ends, _⟩ := spends journal
  exact ⟨after, ends⟩

/-- Where constraints ask nothing, the requests of a run are those among its calls. -/
theorem Makes.spends {run : Run QueryError α} {answers : Request → List Triple}
    {calls : List Call} {visits : List Visit} (makes : run.Makes source answers calls visits result)
    (silent : ∀ call ∈ calls, call.Silent) (fine : ∀ call ∈ calls, call.Fine source answers) :
    run.Spends source result visits.length (Call.requests calls) := by
  intro journal
  obtain ⟨after, ends, records, nodes⟩ := makes.of_fine (Or.inr silent) fine journal
  exact ⟨after, ends, nodes, (records.adds silent).asked⟩

end Run

/-- A visit with a statement left asks the source for it. -/
def Visit.asks (visit : Visit) : Bool := !visit.remaining.isEmpty

theorem Statement.requests_filterCalls (statement : Statement) (triple : Triple) :
    Call.requests (statement.filterCalls triple) = 0 := by
  unfold filterCalls
  cases statement.filter <;> rfl

namespace Matcher

theorem suffix_of_mem_visits {answers : Request → List Triple} {statements : List Statement}
    {binding : Binding} {visit : Visit} (member : visit ∈ visits answers statements binding) :
    visit.remaining <:+ statements := by
  induction statements generalizing binding with
  | nil => exact List.mem_singleton.mp member ▸ List.suffix_refl []
  | cons head rest ih =>
    rw [visits, List.mem_cons, List.mem_flatMap] at member
    rcases member with rfl | ⟨next, _, below⟩
    · exact List.suffix_refl _
    · exact (ih below).trans (List.suffix_cons head rest)

theorem requests_constraintCalls (answers : Request → List Triple) (seen : Binding) (index : Nat)
    (constraints : List Constraint) :
    Call.requests (constraintCalls answers seen index constraints) = 0 := by
  rw [Call.requests, List.countP_eq_zero]
  exact forall_mem_constraintCalls seen index fun _ _ _ => Bool.false_ne_true

/-- A search asks the source once at each visit that asks. -/
theorem requests_calls (matcher : Matcher) (answers : Request → List Triple)
    (statements : List Statement) (binding : Binding) :
    Call.requests (matcher.calls answers statements binding) =
      (visits answers statements binding).countP Visit.asks := by
  induction statements generalizing binding with
  | nil =>
    rw [calls, visits]
    split
    · exact requests_constraintCalls answers _ 0 _
    · rfl
  | cons head rest ih =>
    rw [calls, visits_cons, Call.requests_cons, List.countP_cons_of_pos rfl, Nat.add_comm,
      Call.requests_flatMap, List.countP_flatMap]
    refine congrArg (· + 1) (congrArg List.sum (List.map_congr_left fun candidate _ => ?_))
    rw [Call.requests_append, Statement.requests_filterCalls, Nat.zero_add, Function.comp_apply]
    cases childOf (head.substitute binding) binding candidate with
    | none => rfl
    | some next =>
      rw [Option.toList_some, List.flatMap_singleton]
      exact ih next

/-- Expansion makes one node for each visit and asks once at each that asks. -/
theorem spends_expandFrom {matcher : Matcher} {answers : Request → List Triple}
    (steady : matcher.source.Answers answers)
    (silent : ∀ constraint ∈ matcher.constraints, constraint.Silent)
    (decide : ∀ constraint ∈ matcher.constraints, constraint.Decides answers)
    {statements : List Statement} (filters : ∀ statement ∈ statements, statement.Decides)
    (binding : Binding) (matched : Option Triple) :
    (matcher.expandFrom statements binding matched).Spends matcher.source
      (matcher.grow answers statements binding matched)
      (visits answers statements binding).length
      ((visits answers statements binding).countP Visit.asks) := by
  rw [← matcher.requests_calls]
  exact (matcher.makes_expandFrom steady.answersOrFails statements binding matched).spends
    (silent_calls silent statements binding) (fine_calls steady decide filters binding)

/-- The expansion of a visit comes to nothing. -/
def Clashes (matcher : Matcher) (visit : Visit) : Prop :=
  (matcher.expand visit.binding visit.remaining).Yields none

/-- Whether the visit has a tree. -/
def survives (matcher : Matcher) (answers : Request → List Triple) (visit : Visit) : Bool :=
  (matcher.grow answers visit.remaining visit.binding none).isSome

section

variable {matcher : Matcher} {answers : Request → List Triple}

theorem survives_iff (steady : matcher.source.Answers answers)
    (decide : ∀ constraint ∈ matcher.constraints, constraint.Decides answers) {visit : Visit}
    (filters : ∀ statement ∈ visit.remaining, statement.Decides) :
    matcher.survives answers visit = true ↔ ¬ matcher.Clashes visit := by
  have yields := yields_expandFrom steady decide filters visit.binding none
  unfold survives
  constructor
  · intro survives clashes
    rw [yields.unique clashes] at survives
    cases survives
  · intro spared
    cases grown : matcher.grow answers visit.remaining visit.binding none with
    | none =>
      rw [grown] at yields
      exact absurd yields spared
    | some tree => rfl

/-- How a node was reached does not matter to what becomes of it. -/
theorem isSome_grow (statements : List Statement) (binding : Binding) (matched : Option Triple) :
    (matcher.grow answers statements binding matched).isSome =
      matcher.survives answers ⟨statements, binding⟩ := by
  unfold survives
  cases statements with
  | nil =>
    rw [grow, grow]
    split <;> rfl
  | cons head rest =>
    rw [grow, grow]
    split <;> rfl

/-- The tree has a node for each visit that survives; without a tree there is none. -/
theorem nodeCount_grow (statements : List Statement) (binding : Binding)
    (matched : Option Triple) :
    ((matcher.grow answers statements binding matched).map Tree.nodeCount).getD 0 =
      (visits answers statements binding).countP (matcher.survives answers) := by
  induction statements generalizing binding matched with
  | nil =>
    rw [visits, List.countP_singleton, ← isSome_grow [] binding matched, grow]
    split <;> rfl
  | cons head rest ih =>
    let statement := head.substitute binding
    -- over any candidates, since the induction takes them one by one
    have children : ∀ candidates : List Triple,
        Tree.nodeCountAll (candidates.filterMap fun candidate =>
          (childOf statement binding candidate).bind fun next =>
            matcher.grow answers rest next (some candidate)) =
          ((candidates.filterMap (childOf statement binding)).flatMap
            (visits answers rest)).countP (matcher.survives answers) := by
      intro candidates
      induction candidates with
      | nil => rfl
      | cons candidate candidates later =>
        cases child : childOf statement binding candidate with
        | none =>
          rw [List.filterMap_cons_none child, List.filterMap_cons_none (by rw [child]; rfl)]
          exact later
        | some next =>
          have below := ih next (some candidate)
          rw [List.filterMap_cons_some child, List.flatMap_cons, List.countP_append, ← below,
            ← later]
          cases grown : matcher.grow answers rest next (some candidate) with
          | none =>
            rw [List.filterMap_cons_none (by rw [child]; exact grown)]
            exact (Nat.zero_add _).symm
          | some tree => rw [List.filterMap_cons_some (by rw [child]; exact grown)]; rfl
    have all := children (answers statement.request)
    rw [visits, List.countP_cons, ← isSome_grow (head :: rest) binding matched, extensions, ← all,
      grow]
    split
    · rename_i empty
      rw [List.isEmpty_iff] at empty
      rw [empty]
      rfl
    · exact Nat.add_comm 1 _

end

end Matcher

end TripleJoin
