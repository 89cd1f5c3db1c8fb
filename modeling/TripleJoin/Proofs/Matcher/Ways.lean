import TripleJoin.Proofs.Binding.Exchange
import TripleJoin.Proofs.Engine.Build
import TripleJoin.Proofs.Join.Independence
import TripleJoin.Proofs.Matcher.Scan
/-!
The ways to match all statements: a triple for each statement in order, and the binding at the end.
Rows are the bindings of the ways, and the evidence of a query is what the ways consist of. The order
of the statements only permutes the ways and the triples of each.
-/
namespace TripleJoin

/-- The triples that the statements take, in order, and the binding at the end. -/
structure Way where
  triples : List Triple
  binding : Binding

/-- The way with one more triple in front. -/
def Way.after (first : Triple) (way : Way) : Way := ⟨first :: way.triples, way.binding⟩

namespace Matcher

/-- The ways that end with a complete binding and break no constraint, in match order. -/
def ways (matcher : Matcher) (answers : Request → List Triple) :
    List Statement → Binding → List Way
  | [], binding =>
    if binding.isComplete && matcher.admitsLeaf answers binding then [⟨[], binding⟩] else []
  | head :: rest, binding =>
    let statement := head.substitute binding
    (answers statement.request).flatMap fun candidate =>
      (childOf statement binding candidate).toList.flatMap fun next =>
        (matcher.ways answers rest next).map (Way.after candidate)

variable (matcher : Matcher) (answers : Request → List Triple)

theorem rows_eq_ways (statements : List Statement) (binding : Binding) :
    matcher.rows answers statements binding =
      (matcher.ways answers statements binding).map Way.binding := by
  induction statements generalizing binding with
  | nil =>
    rw [rows, ways]
    split <;> rfl
  | cons head rest ih =>
    rw [rows, ways, extensions, List.filterMap_eq_flatMap_toList, List.flatMap_assoc,
      List.map_flatMap]
    apply List.flatMap_congr
    intro candidate _
    rw [List.map_flatMap]
    apply List.flatMap_congr
    intro next _
    rw [ih, List.map_map]
    rfl

theorem evidenceBelowAll_eq_flatMap (path : List Triple) (trees : List Tree) :
    Tree.evidenceBelowAll path trees = trees.flatMap (Tree.evidenceBelow path) := by
  induction trees with
  | nil => rfl
  | cons tree trees ih => rw [Tree.evidenceBelowAll, List.flatMap_cons, ih]

theorem evidenceBelow_grow (path : List Triple) (statements : List Statement) (binding : Binding)
    (matched : Option Triple) :
    (matcher.grow answers statements binding matched).toList.flatMap (Tree.evidenceBelow path) =
      (matcher.ways answers statements binding).flatMap fun way =>
        path ++ matched.toList ++ way.triples := by
  induction statements generalizing path binding matched with
  | nil =>
    rw [grow, ways]
    cases complete : binding.isComplete with
    | false => simp [Tree.evidenceBelow, complete]
    | true => cases matcher.admitsLeaf answers binding <;> simp [Tree.evidenceBelow, complete]
  | cons head rest ih =>
    let statement := head.substitute binding
    have children : ((answers statement.request).filterMap fun candidate =>
        (childOf statement binding candidate).bind fun next =>
          matcher.grow answers rest next (some candidate)).flatMap
            (Tree.evidenceBelow (path ++ matched.toList)) =
        (matcher.ways answers (head :: rest) binding).flatMap fun way =>
          path ++ matched.toList ++ way.triples := by
      rw [ways, List.filterMap_eq_flatMap_toList, List.flatMap_assoc, List.flatMap_assoc]
      apply List.flatMap_congr
      intro candidate _
      cases child : childOf statement binding candidate with
      | none => rfl
      | some next =>
        have below := ih (path ++ matched.toList) next (some candidate)
        simpa [Way.after, List.flatMap_map] using below
    rw [← children, grow]
    split
    · rename_i empty
      rw [List.isEmpty_iff] at empty
      rw [empty]
      rfl
    · rw [Option.toList_some, List.flatMap_singleton, Tree.evidenceBelow,
        evidenceBelowAll_eq_flatMap]

end Matcher

namespace Tree

mutual

/-- Clauses leave no trace in what the main pattern matched. -/
theorem evidenceBelow_dress (clauseTrees : Binding → List Tree) (path : List Triple) :
    ∀ tree : Tree, evidenceBelow path (tree.dress clauseTrees) = evidenceBelow path tree
  | inner binding matched children => by
    rw [dress, evidenceBelow, evidenceBelow, evidenceBelowAll_dress _ _ children]
  | leaf binding matched optionals => by
    rw [dress]
    split <;> rfl

theorem evidenceBelowAll_dress (clauseTrees : Binding → List Tree) (path : List Triple) :
    ∀ trees : List Tree,
      evidenceBelowAll path (dressAll clauseTrees trees) = evidenceBelowAll path trees
  | [] => rfl
  | tree :: trees => by
    rw [dressAll, evidenceBelowAll, evidenceBelowAll, evidenceBelow_dress _ _ tree,
      evidenceBelowAll_dress _ _ trees]

end

end Tree

/-- The ways to match a pattern that starts with some values. -/
def Engine.branchWays (engine : Engine) (answers : Request → List Triple)
    (initial : List (Variable × Term)) (pattern : Pattern) : List Way :=
  (Matcher.mk engine.store.toSource pattern.constraints none).ways answers pattern.statements
    (.withValues pattern.unbounds initial)

/-- The evidence of a branch is made of the triples of its ways, one way after another. -/
theorem Engine.evidence_branchQuery (engine : Engine) (answers : Request → List Triple)
    (optionals : List Pattern) (initial : List (Variable × Term)) (pattern : Pattern) :
    (engine.branchQuery answers optionals initial pattern).evidence =
      .ofList ((engine.branchWays answers initial pattern).flatMap Way.triples) := by
  have below := (Matcher.mk engine.store.toSource pattern.constraints none).evidenceBelow_grow
    answers [] pattern.statements (.withValues pattern.unbounds initial) none
  simp only [Option.toList_none, List.nil_append] at below
  rw [branchWays, ← below, branchQuery, Query.evidence, branchRoot, Option.map_map]
  cases (Matcher.mk engine.store.toSource pattern.constraints none).grow answers
      pattern.statements (.withValues pattern.unbounds initial) none with
  | none => rfl
  | some tree =>
    rw [Option.map_some, Option.getD_some, Function.comp_apply, Tree.evidence,
      Tree.evidenceBelow_dress, Option.toList_some, List.flatMap_singleton]

theorem Engine.toList_evidence (engine : Engine) (answers : Request → List Triple)
    (optionals : List Pattern) (initial : List (Variable × Term)) (pattern : Pattern) :
    (engine.branchQuery answers optionals initial pattern).evidence.toList =
      ((engine.branchWays answers initial pattern).flatMap Way.triples).foldl addNew [] := by
  rw [evidence_branchQuery, Graph.toList_ofList]

namespace Matcher

variable (matcher : Matcher) (graph : Graph)

theorem flatMap_filter {α β : Type} {keep : α → Bool} {f : α → List β}
    (idle : ∀ x, keep x = false → f x = []) (xs : List α) :
    (xs.filter keep).flatMap f = xs.flatMap f := by
  induction xs with
  | nil => rfl
  | cons x xs ih =>
    cases kept : keep x with
    | true => rw [List.filter_cons_of_pos kept, List.flatMap_cons, List.flatMap_cons, ih]
    | false => rw [List.filter_cons_of_neg (by simp [kept]), List.flatMap_cons, idle x kept, ih,
        List.nil_append]

/-- Over a graph every triple is tried on every statement. -/
theorem ways_matching (head : Statement) (rest : List Statement) (binding : Binding) :
    matcher.ways graph.matching (head :: rest) binding = graph.toList.flatMap fun triple =>
      (head.take? triple binding).toList.flatMap fun next =>
        (matcher.ways graph.matching rest next).map (Way.after triple) := by
  simp only [← childOf_substitute]
  rw [ways, Graph.matching_eq_filter]
  apply flatMap_filter
  intro triple missed
  rw [childOf_eq_none missed]
  rfl

theorem ways_matching_two (first second : Statement) (rest : List Statement) (binding : Binding) :
    matcher.ways graph.matching (first :: second :: rest) binding =
      graph.toList.flatMap fun triple => graph.toList.flatMap fun triple' =>
        ((first.take? triple binding).bind (second.take? triple')).toList.flatMap fun next =>
          (matcher.ways graph.matching rest next).map fun way =>
            (way.after triple').after triple := by
  rw [ways_matching]
  apply List.flatMap_congr
  intro triple _
  cases first.take? triple binding with
  | none => simp
  | some next =>
    simp only [Option.toList_some, List.flatMap_singleton, Option.bind_some, ways_matching,
      List.map_flatMap, List.map_map, Function.comp_def]

theorem exchange_take? (first second : Statement) (triple triple' : Triple) :
    Binding.Exchange (first.take? triple) (second.take? triple') :=
  (((Binding.exchange_extended _ _ triple triple').guard _).symm.guard _).symm

/-- What is read off the ways without regard to the order of their triples does not depend on the
    order of the statements, up to order. -/
theorem ways_flatMap_perm {γ : Type} {statements others : List Statement}
    (perm : statements.Perm others) {f : Way → List γ}
    (same : ∀ a b : Way, a.triples.Perm b.triples → a.binding = b.binding → (f a).Perm (f b))
    (binding : Binding) :
    ((matcher.ways graph.matching statements binding).flatMap f).Perm
      ((matcher.ways graph.matching others binding).flatMap f) := by
  induction perm generalizing binding f with
  | nil => exact .refl _
  | cons head perm ih =>
    simp only [ways_matching, List.flatMap_assoc, List.flatMap_map]
    apply List.Perm.flatMap_left
    intro triple _
    apply List.Perm.flatMap_left
    intro next _
    -- what is read off a way of the rest takes the triple of the head into account
    apply ih (f := fun way => f (way.after triple))
    intro a b triples ends
    exact same (a.after triple) (b.after triple) (triples.cons triple) ends
  | swap first second rest =>
    simp only [ways_matching_two, List.flatMap_assoc, List.flatMap_map]
    refine (flatMap_comm_perm _ _ _).trans ?_
    apply List.Perm.flatMap_left
    intro triple _
    apply List.Perm.flatMap_left
    intro triple' _
    rw [exchange_take? second first triple' triple binding]
    apply List.Perm.flatMap_left
    intro next _
    apply List.Perm.flatMap_left
    intro way _
    exact same _ _ (List.Perm.swap triple triple' way.triples) rfl
  | trans first second ih ih' => exact (ih same binding).trans (ih' same binding)

end Matcher

end TripleJoin
