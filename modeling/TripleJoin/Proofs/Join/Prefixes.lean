import Mathlib.Algebra.BigOperators.Group.Finset.Basic
import TripleJoin.Proofs.Join.Inner
import TripleJoin.Proofs.Matcher.Effort
import TripleJoin.Proofs.Matcher.Uniqueness
/-!
The size of a search. Over a graph, the visits with so many statements matched are the solutions of
the nested loops for these first statements, so what expansion spends is the sum of the sizes of the
joins of the prefixes. Constraints do not come into it: they are asked at the end of a match.
-/
namespace TripleJoin

open Finset in
/-- Counts that agree for related elements, one level at a time, agree for all of them together. -/
theorem countP_flatMap_of_forall₂ {α β γ δ : Type} {R : α → β → Prop} {p : δ → Bool}
    {levels : Nat → α → List γ} {f : β → List δ} {depth : Nat} {xs : List α} {ys : List β}
    (related : List.Forall₂ R xs ys)
    (each : ∀ x y, R x y → (f y).countP p = ∑ k ∈ range depth, (levels k x).length) :
    (ys.flatMap f).countP p = ∑ k ∈ range depth, (xs.flatMap (levels k)).length := by
  induction related with
  | nil => simp
  | cons rel _ ih =>
    simp only [List.flatMap_cons, List.countP_append, List.length_append, sum_add_distrib]
    rw [each _ _ rel, ih]

/-- Whether fewer than so many of the statements, of which there are `total`, are matched. -/
def Visit.above (total depth : Nat) (visit : Visit) : Bool :=
  total < visit.remaining.length + depth

theorem Visit.above_succ (total depth : Nat) :
    above (total + 1) (depth + 1) = above total depth := by
  funext visit
  exact decide_eq_decide.mpr Nat.succ_lt_succ_iff

namespace Matcher

variable {graph : Graph}

open Finset in
/-- Down to a depth, the visits are as many as the solutions of the loops for the first statements,
    prefix after prefix. -/
theorem countP_visits {statements : List Statement}
    (unfiltered : ∀ statement ∈ statements, statement.filter = none) {depth : Nat}
    (within : depth ≤ statements.length + 1) {keys : List Variable} {current : Assignment}
    {binding : Binding} (mirrors : current.Mirrors keys binding)
    (covers : binding.Covers statements) :
    (visits graph.matching statements binding).countP (Visit.above statements.length depth) =
      ∑ k ∈ range depth, (NestedLoop.search graph.toList
        ((statements.take k).map fun statement => statement.toTriplePattern) current).length := by
  induction statements generalizing depth current binding with
  | nil =>
    obtain rfl | rfl := Nat.le_one_iff_eq_zero_or_eq_one.mp within
    · rfl
    · rfl
  | cons head rest ih =>
    rw [List.forall_mem_cons] at unfiltered
    cases depth with
    | zero =>
      rw [range_zero, sum_empty, List.countP_eq_zero]
      intro visit member
      have bound := (suffix_of_mem_visits member).length_le
      simpa [Visit.above] using bound
    | succ depth =>
      -- what the head makes of the assignment and of the binding goes on side by side
      have nexts : List.Forall₂ (fun next next' => next.Mirrors keys next' ∧ next'.Covers rest)
          (graph.toList.filterMap (current.unifyTriple head.toTriplePattern))
          (extensions graph.matching head binding) := by
        rw [extensions_unfiltered graph unfiltered.1]
        apply forall₂_filterMap
        intro triple _
        have known := mirrors.keys_eq ▸ covers head List.mem_cons_self
        apply rel_imp (mirrors.triple known triple)
        intro next next' _ fits mirrors'
        exact ⟨mirrors', covers.tail (Binding.keys_extended fits)⟩
      have below := countP_flatMap_of_forall₂ nexts fun next next' both =>
        ih unfiltered.2 (Nat.le_of_succ_le_succ within) both.1 both.2
      have here : Visit.above (rest.length + 1) (depth + 1) ⟨head :: rest, binding⟩ = true :=
        decide_eq_true (Nat.lt_add_of_pos_right (Nat.succ_pos depth))
      rw [visits, List.length_cons, List.countP_cons_of_pos here, Visit.above_succ, below,
        sum_range_succ']
      simp only [List.take_succ_cons, List.map_cons, NestedLoop.search_cons]
      rfl

variable {statements : List Statement} {binding : Binding}

theorem length_visits (unfiltered : ∀ statement ∈ statements, statement.filter = none)
    {keys : List Variable} {current : Assignment} (mirrors : current.Mirrors keys binding)
    (covers : binding.Covers statements) :
    (visits graph.matching statements binding).length =
      ∑ k ∈ Finset.range (statements.length + 1), (NestedLoop.search graph.toList
        ((statements.take k).map fun statement => statement.toTriplePattern) current).length := by
  rw [← countP_visits unfiltered (Nat.le_refl _) mirrors covers, Eq.comm, List.countP_eq_length]
  intro visit _
  exact decide_eq_true (Nat.lt_add_left _ (Nat.lt_succ_self _))

theorem countP_asks (unfiltered : ∀ statement ∈ statements, statement.filter = none)
    {keys : List Variable} {current : Assignment} (mirrors : current.Mirrors keys binding)
    (covers : binding.Covers statements) :
    (visits graph.matching statements binding).countP Visit.asks =
      ∑ k ∈ Finset.range statements.length, (NestedLoop.search graph.toList
        ((statements.take k).map fun statement => statement.toTriplePattern) current).length := by
  rw [← countP_visits unfiltered (Nat.le_succ _) mirrors covers]
  congr 1
  funext visit
  cases left : visit.remaining <;> simp [Visit.asks, Visit.above, left]

end Matcher

/-- Over a graph, expanding a pattern without filters makes as many nodes as the joins of its
    prefixes have solutions, the whole pattern included, and as many requests less those of the
    whole. The tree has at most one node for each of these, and exactly so many if no visit
    clashes. -/
theorem expand_spends_prefix_joins (name : String) (graph : Graph) (watched : Bool)
    {pattern : Pattern} (built : pattern.Built)
    (unfiltered : ∀ statement ∈ pattern.statements, statement.filter = none)
    (silent : pattern.Silent)
    (decide : ∀ constraint ∈ pattern.constraints, constraint.Decides graph.matching)
    (inherited : Option Binding) {initial : List (Variable × Term)}
    (distinct : (initial.map Prod.fst).Nodup) :
    let matcher : Matcher :=
      ⟨(Store.ofGraph name graph watched).toSource, pattern.constraints, inherited⟩
    let start := Binding.withValues pattern.unbounds initial
    let size := fun k => (NestedLoop.solutions graph.toList
      ((pattern.statements.take k).map fun statement => statement.toTriplePattern) initial).length
    let nodes := ∑ k ∈ Finset.range (pattern.statements.length + 1), size k
    let requests := ∑ k ∈ Finset.range pattern.statements.length, size k
    ∃ root, (matcher.expand start pattern.statements).Spends matcher.source root nodes requests ∧
      ∀ tree ∈ root, tree.nodeCount ≤ nodes ∧
        (tree.nodeCount = nodes ↔
          ∀ visit ∈ Matcher.visits graph.matching pattern.statements start,
            ¬ matcher.Clashes visit) := by
  intro matcher start size nodes requests
  let visits := Matcher.visits graph.matching pattern.statements start
  have steady : matcher.source.Answers graph.matching := answers_ofGraph name graph watched
  have filters : ∀ statement ∈ pattern.statements, statement.Decides :=
    fun statement stated => Statement.decides_of_unfiltered (unfiltered statement stated)
  have mirrors : Assignment.Mirrors start.keys initial start :=
    ⟨rfl, fun v => (Binding.get?_withValues v pattern.unbounds distinct).symm⟩
  have all : nodes = visits.length := by
    rw [Matcher.length_visits unfiltered mirrors (built.covers initial)]
    exact Finset.sum_congr rfl fun _ _ => List.length_map _
  have asks : requests = visits.countP Visit.asks := by
    rw [Matcher.countP_asks unfiltered mirrors (built.covers initial)]
    exact Finset.sum_congr rfl fun _ _ => List.length_map _
  rw [all, asks]
  refine ⟨_, Matcher.spends_expandFrom steady silent decide filters start none, ?_⟩
  intro tree grown
  have count : ((matcher.grow graph.matching pattern.statements start none).map
      Tree.nodeCount).getD 0 = visits.countP (matcher.survives graph.matching) :=
    Matcher.nodeCount_grow pattern.statements start none
  rw [Option.mem_def.mp grown, Option.map_some, Option.getD_some] at count
  rw [count]
  refine ⟨List.countP_le_length, List.countP_eq_length.trans ?_⟩
  refine forall₂_congr fun visit member => Matcher.survives_iff steady decide ?_
  exact fun statement stated =>
    filters statement ((Matcher.suffix_of_mem_visits member).subset stated)

open Sample in
/-- One branch has no match for the second statement, and one leaf breaks the constraint. -/
theorem expand_spends_five_nodes :
    let graph := Graph.ofList [link "a" "b", link "a" "c", link "b" "d", link "b" "e"]
    let statements := [linked "s" "o", linked "o" "x"]
    let initial := [(⟨"s"⟩, .iri "a")]
    let test := Constraint.ofPredicate fun binding => binding.get? ⟨"x"⟩ ≠ some (.iri "e")
    let matcher : Matcher := ⟨(Store.ofGraph "memory" graph true).toSource, [test], none⟩
    let start := Binding.withValues [⟨"s"⟩, ⟨"o"⟩, ⟨"x"⟩] initial
    (initial.map Prod.fst).Nodup ∧ test.Silent ∧ test.Decides graph.matching ∧
    ∃ tree, (matcher.expand start statements).Spends matcher.source (some tree) 5 3 ∧
      tree.nodeCount = 3 ∧
      ∃ visit ∈ Matcher.visits graph.matching statements start, matcher.Clashes visit := by
  intro graph statements initial test matcher start
  let pattern := (Pattern.ofStatements statements).constrain [test]
  have built : pattern.Built := (Pattern.built_ofStatements statements).constrain [test]
  have distinct : (initial.map Prod.fst).Nodup := by decide
  have silent : test.Silent := fun _ => trivial
  have decides : test.Decides graph.matching := fun _ => ⟨_, rfl⟩
  have tests : ∀ constraint ∈ [test], constraint.Decides graph.matching :=
    List.forall_mem_singleton.mpr decides
  have unfiltered : ∀ statement ∈ statements, statement.filter = none := by decide
  have held : graph.toList = [link "a" "b", link "a" "c", link "b" "d", link "b" "e"] :=
    (Graph.toList_ofList _).trans (by decide)
  obtain ⟨root, spends, trees⟩ := expand_spends_prefix_joins "memory" graph true built
    unfiltered (List.forall_mem_singleton.mpr silent) tests none distinct
  have five : ∑ k ∈ Finset.range (pattern.statements.length + 1),
      (NestedLoop.solutions graph.toList ((pattern.statements.take k).map
        fun statement => statement.toTriplePattern) initial).length = 5 := by
    rw [held]
    decide
  have three : ∑ k ∈ Finset.range pattern.statements.length,
      (NestedLoop.solutions graph.toList ((pattern.statements.take k).map
        fun statement => statement.toTriplePattern) initial).length = 3 := by
    rw [held]
    decide
  rw [five, three] at spends
  rw [five] at trees
  have grown : root = matcher.grow graph.matching statements start none :=
    spends.yields.unique (Matcher.yields_expandFrom (answers_ofGraph "memory" graph true) tests
      (fun statement stated => Statement.decides_of_unfiltered (unfiltered statement stated))
      start none)
  have count : root.map Tree.nodeCount = some 3 := by
    rw [grown]
    simp only [funext (Graph.matching_eq_filter _), held]
    decide
  obtain ⟨tree, rfl, three⟩ := Option.map_eq_some_iff.mp count
  obtain ⟨_, full⟩ := trees tree rfl
  have clash := mt full.mpr (by rw [three]; decide)
  push Not at clash
  exact ⟨distinct, silent, decides, tree, spends, three, clash⟩

end TripleJoin
