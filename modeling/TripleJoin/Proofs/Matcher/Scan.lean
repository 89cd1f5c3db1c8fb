import TripleJoin.Proofs.Binding.Extension
import TripleJoin.Proofs.Graph.Matching
import TripleJoin.Proofs.Matcher.Rows
/-!
Matching over a graph. Since a look-up finds every stored triple that meets the request, matching
one statement comes to trying it on every triple of the graph.
-/
namespace TripleJoin

theorem answers_ofGraph (name : String) (graph : Graph) (watched : Bool) :
    (Store.ofGraph name graph watched).Answers graph.matching :=
  fun _ _ => rfl

/-- The binding after a statement has taken a triple; none if the filter or the pattern rejects it. -/
def Statement.take? (statement : Statement) (triple : Triple) (binding : Binding) :
    Option Binding :=
  if statement.passes triple then binding.extended statement.toTriplePattern triple else none

/-- The binding has the variables of the statements that remain, and it needs nothing else to be
    complete. -/
structure Binding.Awaits (binding : Binding) (statements : List Statement) : Prop where
  known : ∀ statement ∈ statements, ∀ v ∈ statement.freeVariables, v ∈ binding.keys
  due : ∀ v ∈ binding.keys, binding.isBound v = true ∨
    ∃ statement ∈ statements, v ∈ statement.freeVariables

namespace Binding.Awaits

variable {binding next : Binding} {head : Statement} {rest : List Statement} {triple : Triple}

theorem isComplete (awaits : binding.Awaits []) : binding.isComplete = true := by
  rw [isComplete_iff]
  intro v member
  simpa [isBound] using awaits.due v member

/-- After a match the variables of the head are bound, so the rest has all that is still due. -/
theorem extended (awaits : binding.Awaits (head :: rest))
    (fits : binding.extended head.toTriplePattern triple = some next) : next.Awaits rest := by
  obtain ⟨first, others⟩ := List.forall_mem_cons.mp awaits.known
  have keys := keys_extended fits
  refine ⟨keys ▸ others, fun v member => ?_⟩
  rcases awaits.due v (keys ▸ member) with bound | ⟨statement, stated, free⟩
  · obtain ⟨term, found⟩ := Option.isSome_iff_exists.mp bound
    exact Or.inl (Option.isSome_of_eq_some (extends_extended fits v term found))
  · rcases List.mem_cons.mp stated with same | later
    · subst same
      exact Or.inl (isBound_of_extended fits first free)
    · exact Or.inr ⟨statement, later, free⟩

theorem take? (awaits : binding.Awaits (head :: rest))
    (taken : head.take? triple binding = some next) : next.Awaits rest := by
  rw [Statement.take?, Option.ite_none_right_eq_some] at taken
  exact awaits.extended taken.2

end Binding.Awaits

theorem Pattern.Built.keys_withValues {pattern : Pattern} (built : pattern.Built)
    (initial : List (Variable × Term)) :
    (Binding.withValues pattern.unbounds initial).keys =
      (initial.map Prod.fst).foldl addNew (variablesOf pattern.statements) := by
  rw [Binding.keys_withValues, built.unbounds_eq, foldl_addNew_of_nodup (variablesOf_nodup _)]

/-- A pattern that starts with some values awaits its statements. -/
theorem Pattern.Built.awaits {pattern : Pattern} (built : pattern.Built)
    (initial : List (Variable × Term)) :
    (Binding.withValues pattern.unbounds initial).Awaits pattern.statements := by
  constructor
  · intro statement stated v free
    rw [built.keys_withValues]
    exact mem_foldl_addNew.mpr (Or.inl (mem_variablesOf.mpr ⟨statement, stated, free⟩))
  · intro v member
    rw [built.keys_withValues] at member
    rcases mem_foldl_addNew.mp member with stated | fixed
    · exact Or.inr (mem_variablesOf.mp stated)
    · exact Or.inl (Binding.isBound_withValues v _ fixed)

namespace Matcher

theorem childOf_substitute (head : Statement) (binding : Binding) (triple : Triple) :
    childOf (head.substitute binding) binding triple = head.take? triple binding := by
  have passes : (head.substitute binding).passes triple = head.passes triple := rfl
  have pattern : (head.substitute binding).toTriplePattern =
      head.toTriplePattern.substitute binding := rfl
  rw [childOf, Statement.take?, passes, pattern, Binding.extended_substitute]

theorem admits_of_childOf {statement : Statement} {binding next : Binding} {triple : Triple}
    (fits : childOf statement binding triple = some next) :
    statement.request.admits triple = true := by
  rw [childOf, Option.ite_none_right_eq_some] at fits
  exact Binding.admits_of_extended fits.2

theorem childOf_eq_none {statement : Statement} {triple : Triple}
    (missed : statement.request.admits triple = false) (binding : Binding) :
    childOf statement binding triple = none := by
  refine Option.eq_none_iff_forall_ne_some.mpr fun next fits => ?_
  rw [admits_of_childOf fits] at missed
  cases missed

/-- A triple is a candidate of its own accord: one that fits meets the request. -/
theorem extensions_matching (graph : Graph) (head : Statement) (binding : Binding) :
    extensions graph.matching head binding = graph.toList.filterMap fun triple =>
      if head.passes triple then binding.extended head.toTriplePattern triple else none := by
  rw [extensions, Graph.matching_eq_filter, List.filterMap_filter]
  apply List.filterMap_congr
  intro triple _
  split
  · exact childOf_substitute head binding triple
  · rename_i missed
    exact (childOf_eq_none (Bool.eq_false_iff.mpr missed) binding).symm.trans
      (childOf_substitute head binding triple)

end Matcher

end TripleJoin
