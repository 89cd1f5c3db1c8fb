import TripleJoin.NestedLoop
import TripleJoin.Proofs.Engine.Build
import TripleJoin.Proofs.Join.Pointwise
import TripleJoin.Proofs.Matcher.Scan
/-!
Matching in a tree computes the plain nested-loop join. Both try the statements in order on the
triples in order; an assignment of the loops that has the values of a binding of the tree goes on to
have them, one match after another.
-/
namespace TripleJoin

namespace Assignment

/-- The binding has these keys, and the assignment gives every variable the value it has there. -/
structure Mirrors (keys : List Variable) (assignment : Assignment) (binding : Binding) : Prop where
  keys_eq : binding.keys = keys
  values : ∀ v, assignment.lookup v = binding.get? v

variable {keys : List Variable} {assignment next : Assignment} {binding : Binding}

theorem lookup_concat (assignment : Assignment) (v w : Variable) (term : Term) :
    (assignment ++ [(w, term)]).lookup v =
      (assignment.lookup v).or (if v = w then some term else none) := by
  rw [List.lookup_append]
  by_cases same : v = w
  · subst same
    rw [List.lookup_cons_self, if_pos rfl]
  · rw [lookup_cons_ne same, if_neg same]
    rfl

theorem Mirrors.slot {slot : Slot} (mirrors : assignment.Mirrors keys binding)
    (known : ∀ v ∈ slot.free?, v ∈ keys) (term : Term) :
    Option.Rel (Mirrors keys) (assignment.unify slot term) (binding.matchSlot slot term) := by
  cases slot with
  | fixed expected =>
    simp only [unify, Binding.matchSlot]
    split
    · exact .some mirrors
    · exact .none
  | free w =>
    have same := mirrors.values w
    cases value : binding.get? w with
    | some old =>
      rw [value] at same
      simp only [unify, Binding.matchSlot, value, same]
      split
      · exact .some mirrors
      · exact .none
    | none =>
      rw [value] at same
      simp only [unify, Binding.matchSlot, value, same]
      refine .some ⟨(Binding.keys_set ..).trans mirrors.keys_eq, ?_⟩
      intro v
      rw [lookup_concat, Binding.get?_set, mirrors.values v, mirrors.keys_eq]
      by_cases here : v = w
      · subst here
        simp [value, known v rfl]
      · simp [here]

theorem Mirrors.triple {pattern : TriplePattern} (mirrors : assignment.Mirrors keys binding)
    (known : ∀ v ∈ pattern.freeVariables, v ∈ keys) (triple : Triple) :
    Option.Rel (Mirrors keys) (assignment.unifyTriple pattern triple)
      (binding.extended pattern triple) := by
  obtain ⟨subject, predicate, object⟩ := TriplePattern.forall_free known
  simp only [unifyTriple, Binding.extended, Option.bind_eq_bind]
  apply rel_bind (mirrors.slot subject triple.subject)
  intro first first' mirrors'
  apply rel_bind (mirrors'.slot predicate triple.predicate)
  intro second second' mirrors''
  exact mirrors''.slot object triple.object

theorem keys_unify {slot : Slot} {term : Term} (unified : assignment.unify slot term = some next) :
    next.map Prod.fst = slot.free?.toList.foldl addNew (assignment.map Prod.fst) := by
  cases slot with
  | fixed expected =>
    simp only [unify, Option.ite_none_right_eq_some, Option.some.injEq] at unified
    exact unified.2 ▸ rfl
  | free w =>
    have member := lookup_isSome_iff_mem assignment w
    simp only [Slot.free?, Option.toList_some, List.foldl_cons, List.foldl_nil, addNew, ← member]
    cases value : assignment.lookup w with
    | some old =>
      simp only [unify, value, Option.ite_none_right_eq_some, Option.some.injEq] at unified
      simp [unified.2]
    | none =>
      simp only [unify, value, Option.some.injEq] at unified
      simp [← unified]

theorem keys_unifyTriple {pattern : TriplePattern} {triple : Triple}
    (unified : assignment.unifyTriple pattern triple = some next) :
    next.map Prod.fst = pattern.freeVariables.foldl addNew (assignment.map Prod.fst) := by
  simp only [unifyTriple, Option.bind_eq_bind, Option.bind_eq_some_iff] at unified
  obtain ⟨first, subject, second, predicate, object⟩ := unified
  rw [keys_unify object, keys_unify predicate, keys_unify subject, pattern.freeVariables_eq,
    List.foldl_append, List.foldl_append]

end Assignment

namespace NestedLoop

theorem search_cons (triples : List Triple) (pattern : TriplePattern)
    (patterns : List TriplePattern) (current : Assignment) :
    search triples (pattern :: patterns) current =
      (triples.filterMap (current.unifyTriple pattern)).flatMap (search triples patterns) := by
  rw [search, List.filterMap_eq_flatMap_toList, List.flatMap_assoc]
  congr 1
  funext triple
  cases current.unifyTriple pattern triple with
  | none => rfl
  | some next => exact (List.flatMap_singleton ..).symm

/-- Every solution binds the variables that are new, in the order of their first appearance, behind
    those that are there before. -/
theorem keys_search {triples : List Triple} {patterns : List TriplePattern}
    {current found : Assignment} (member : found ∈ search triples patterns current) :
    found.map Prod.fst =
      (patterns.flatMap TriplePattern.freeVariables).foldl addNew (current.map Prod.fst) := by
  induction patterns generalizing current with
  | nil => exact List.mem_singleton.mp member ▸ rfl
  | cons pattern patterns ih =>
    rw [search_cons, List.mem_flatMap] at member
    obtain ⟨next, unified, below⟩ := member
    obtain ⟨triple, _, unified⟩ := List.mem_filterMap.mp unified
    rw [ih below, Assignment.keys_unifyTriple unified, List.flatMap_cons, List.foldl_append]

end NestedLoop

namespace Matcher

theorem extensions_unfiltered (graph : Graph) {head : Statement} (unfiltered : head.filter = none)
    (binding : Binding) : extensions graph.matching head binding =
      graph.toList.filterMap (binding.extended head.toTriplePattern) := by
  have passes : ∀ triple, head.passes triple = true := by
    intro triple
    rw [Statement.passes, unfiltered, Option.all_none]
  simp only [extensions_matching, passes, if_true]

/-- The rows come in the order of the nested loops, and they bind every key. -/
theorem forall₂_search_rows (graph : Graph) {matcher : Matcher}
    (unconstrained : matcher.constraints = []) {keys : List Variable} {statements : List Statement}
    (unfiltered : ∀ statement ∈ statements, statement.filter = none)
    {current : Assignment} {binding : Binding} (mirrors : current.Mirrors keys binding)
    (awaits : binding.Awaits statements) :
    List.Forall₂ (fun found row => found.Mirrors keys row ∧ row.isComplete = true)
      (NestedLoop.search graph.toList (statements.map fun statement => statement.toTriplePattern)
        current)
      (matcher.rows graph.matching statements binding) := by
  induction statements generalizing current binding with
  | nil =>
    have complete := awaits.isComplete
    rw [rows, complete, admitsLeaf, unconstrained]
    exact .cons ⟨mirrors, complete⟩ .nil
  | cons head rest ih =>
    rw [List.forall_mem_cons] at unfiltered
    rw [List.map_cons, NestedLoop.search_cons, rows, extensions_unfiltered graph unfiltered.1]
    apply forall₂_flatMap (R := fun next next' => next.Mirrors keys next' ∧ next'.Awaits rest)
    · apply forall₂_filterMap
      intro triple _
      have known := mirrors.keys_eq ▸ awaits.known head List.mem_cons_self
      apply rel_imp (mirrors.triple known triple)
      intro next next' _ fits mirrors'
      exact ⟨mirrors', awaits.extended fits⟩
    · rintro next next' ⟨mirrors', awaits'⟩
      exact ih unfiltered.2 mirrors' awaits'

end Matcher

theorem drop_eq_filter_keys {found : Assignment} {fixed rest : List Variable}
    (keys : found.map Prod.fst = fixed ++ rest) (fresh : ∀ v ∈ rest, v ∉ fixed) :
    found.drop fixed.length = found.filter fun entry => entry.1 ∉ fixed := by
  have front : (found.take fixed.length).map Prod.fst = fixed := by
    rw [List.map_take, keys, List.take_left]
  have back : (found.drop fixed.length).map Prod.fst = rest := by
    rw [List.map_drop, keys, List.drop_left]
  conv_rhs => rw [← List.take_append_drop fixed.length found, List.filter_append]
  have dropped : (found.take fixed.length).filter (fun entry => entry.1 ∉ fixed) = [] := by
    rw [List.filter_eq_nil_iff]
    intro entry member
    simp [front ▸ List.mem_map_of_mem member]
  have kept : (found.drop fixed.length).filter (fun entry => entry.1 ∉ fixed) =
      found.drop fixed.length := by
    rw [List.filter_eq_self]
    intro entry member
    simp [fresh _ (back ▸ List.mem_map_of_mem member)]
  rw [dropped, kept, List.nil_append]

theorem map_fst_filter (keep : Variable → Bool) (entries : Assignment) :
    (entries.filter fun entry => keep entry.1).map Prod.fst =
      (entries.map Prod.fst).filter keep := by
  rw [List.filter_map]
  rfl

/-- A row and a solution of the loops with the same values have the same entries for the variables
    that are not fixed, in the same order. -/
theorem Assignment.Mirrors.fresh_eq {statements : List Statement} {initial found : Assignment}
    {row : Binding}
    (mirrors : found.Mirrors ((initial.map Prod.fst).foldl addNew (Pattern.variablesOf statements))
      row) (complete : row.isComplete = true)
    (keys : found.map Prod.fst = (statements.flatMap fun statement => statement.freeVariables).foldl
      addNew (initial.map Prod.fst)) :
    row.bound.filter (fun entry => entry.1 ∉ initial.map Prod.fst) =
      found.drop initial.length := by
  rw [← List.length_map Prod.fst]
  generalize initial.map Prod.fst = names at *
  let fresh := fun v => decide (v ∉ names)
  have none : names.filter fresh = [] := by simp [fresh, List.filter_eq_nil_iff]
  have dropped : found.drop names.length = found.filter fun entry => fresh entry.1 := by
    have later := foldl_addNew_append names [] (statements.flatMap fun s => s.freeVariables)
    rw [List.append_nil, ← keys] at later
    refine drop_eq_filter_keys later ?_
    intro v member
    simp only [mem_foldl_addNew, List.mem_filter, decide_eq_true_eq] at member
    exact (member.resolve_left List.not_mem_nil).2
  have left : (row.bound.map Prod.fst).filter fresh =
      (Pattern.variablesOf statements).filter fresh := by
    rw [Binding.bound_keys_of_isComplete complete, mirrors.keys_eq, ← foldl_addNew_filter, none]
    rfl
  have right : (found.map Prod.fst).filter fresh = (Pattern.variablesOf statements).filter fresh := by
    rw [keys, ← foldl_addNew_filter, none, Pattern.variablesOf, ← foldl_addNew_filter]
    rfl
  rw [dropped]
  apply pairs_ext
  · rw [map_fst_filter fresh, map_fst_filter fresh, left, right]
  · rw [map_fst_filter fresh]
    exact row.bound_nodup.filter fresh
  · intro v
    rw [lookup_filter_keys fresh, lookup_filter_keys fresh, Binding.lookup_bound, mirrors.values]

theorem Pattern.Built.forall₂_search_rows {pattern : Pattern} (built : pattern.Built)
    (graph : Graph) (unfiltered : ∀ statement ∈ pattern.statements, statement.filter = none)
    (unconstrained : pattern.constraints = []) {initial : List (Variable × Term)}
    (distinct : (initial.map Prod.fst).Nodup) (source : Source) :
    List.Forall₂ (fun found row => found.Mirrors
        ((initial.map Prod.fst).foldl addNew (variablesOf pattern.statements)) row ∧
          row.isComplete = true)
      (NestedLoop.search graph.toList
        (pattern.statements.map fun statement => statement.toTriplePattern) initial)
      ((Matcher.mk source pattern.constraints none).rows graph.matching pattern.statements
        (.withValues pattern.unbounds initial)) := by
  have values := fun v => Binding.get?_withValues v pattern.unbounds distinct
  exact Matcher.forall₂_search_rows graph unconstrained unfiltered
    ⟨built.keys_withValues initial, fun v => (values v).symm⟩ (built.awaits initial)

/-- A pattern without filters and constraints, matched over a graph with some variables fixed
    beforehand, has the solutions of the nested loops, in the same order and as many times. -/
theorem solutions_eq_nestedLoop (name : String) (graph : Graph) (watched : Bool) (config : Config)
    {pattern : Pattern} (built : pattern.Built) (stated : pattern.isEmpty = false)
    (unfiltered : ∀ statement ∈ pattern.statements, statement.filter = none)
    (unconstrained : pattern.constraints = []) {initial : List (Variable × Term)}
    (distinct : (initial.map Prod.fst).Nodup) :
    ∃ query, ((Engine.mk (.ofGraph name graph watched) config).build [pattern] [] initial).Yields
        query ∧
      query.solutions.map (fun solution => Assignment.sorted
          (solution.bound.filter fun entry => entry.1 ∉ initial.map Prod.fst)) =
        NestedLoop.solutions graph.toList
          (pattern.statements.map fun statement => statement.toTriplePattern) initial := by
  let engine : Engine := ⟨.ofGraph name graph watched, config⟩
  have steady : engine.store.Answers graph.matching := answers_ofGraph name graph watched
  have decides := pattern.decides_of_plain graph.matching unfiltered unconstrained
  refine ⟨_, Engine.yields_build steady stated (Engine.checkScope_nil pattern) decides
    (List.forall_mem_nil _) initial, ?_⟩
  change (Tree.rowsOf (engine.branchRoot graph.matching [] initial pattern)).map _ = _
  rw [Engine.rowsOf_branchRoot_nil, NestedLoop.solutions]
  have side := built.forall₂_search_rows graph unfiltered unconstrained distinct
    engine.store.toSource
  refine (map_eq_map_of_forall₂ ((List.forall₂_and_left _ _).mpr
    ⟨fun found member => NestedLoop.keys_search member, side⟩) ?_).symm
  rintro found row ⟨keys, mirrors, complete⟩
  rw [List.flatMap_map] at keys
  rw [mirrors.fresh_eq complete keys]

def Sample.link (subject object : String) : Triple :=
  ⟨.iri subject, .iri "link", .iri object⟩

def Sample.linked (subject object : String) : Statement :=
  .ofPattern ⟨.free ⟨subject⟩, .fixed (.iri "link"), .free ⟨object⟩⟩

open Sample in
/-- One variable is fixed, one is repeated in a statement and one fixed variable is not in the
    pattern. -/
theorem solutions_of_mutual_links :
    ∃ query, ((Engine.mk (.ofGraph "memory" (.ofList [link "a" "a", link "a" "b", link "b" "a"])
        true) {}).build [.ofStatements [linked "x" "y", linked "y" "x", linked "w" "w"]] []
          [(⟨"x"⟩, .iri "a"), (⟨"z"⟩, .iri "c")]).Yields query ∧
      query.solutions.map (fun solution => Assignment.sorted
          (solution.bound.filter fun entry => entry.1 ∉ [⟨"x"⟩, ⟨"z"⟩])) =
        [[(⟨"w"⟩, .iri "a"), (⟨"y"⟩, .iri "a")], [(⟨"w"⟩, .iri "a"), (⟨"y"⟩, .iri "b")]] := by
  have distinct : ([(⟨"x"⟩, .iri "a"), (⟨"z"⟩, .iri "c")] : List (Variable × Term)).map Prod.fst
      |>.Nodup := by decide
  obtain ⟨query, yields, same⟩ := solutions_eq_nestedLoop "memory"
    (.ofList [link "a" "a", link "a" "b", link "b" "a"]) true {}
    (Pattern.built_ofStatements [linked "x" "y", linked "y" "x", linked "w" "w"]) rfl
    (by decide) rfl distinct
  refine ⟨query, yields, same.trans ?_⟩
  rw [Graph.toList_ofList]
  decide

end TripleJoin
