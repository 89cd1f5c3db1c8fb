import Mathlib.Data.List.Perm.Basic
import TripleJoin.Proofs.Join.Outer
import TripleJoin.Proofs.Pattern.Scope
import TripleJoin.Proofs.Tree.Nodes
/-!
Optional clauses are independent of each other. The scope rule does not depend on their order, and
under it two clauses never give a value to one variable, nor does a clause give one to a variable of
the leaf that it is matched at. So joining a clause in overwrites nothing, and clauses may be joined
in any order.
-/
namespace TripleJoin

theorem flatMap_comm_perm {α β γ : Type} (xs : List α) (ys : List β) (f : α → β → List γ) :
    (xs.flatMap fun x => ys.flatMap (f x)).Perm (ys.flatMap fun y => xs.flatMap fun x => f x y) := by
  induction xs with
  | nil => simp
  | cons x xs ih =>
    simp only [List.flatMap_cons]
    exact (ih.append_left _).trans (List.flatMap_append_perm ys (f x) _)

namespace Pattern

variable {main : Pattern} {clauses others : List Pattern}

theorem wellScoped_perm (perm : clauses.Perm others) :
    main.WellScoped clauses ↔ main.WellScoped others :=
  perm.pairwise_iff fun apart v there here => apart v here there

theorem checkScope_eq_ok_iff_wellScoped :
    main.checkScope clauses = .ok () ↔ main.WellScoped clauses :=
  checkScope_eq_ok_iff.trans wellScoped_iff.symm

end Pattern

namespace Valuation

/-- No variable has a value in both. -/
def Apart (a b : Valuation) : Prop := ∀ v, a v = none ∨ b v = none

theorem Apart.symm {a b : Valuation} (apart : a.Apart b) : b.Apart a := fun v => (apart v).symm

theorem Apart.merge_comm {a b : Valuation} (apart : a.Apart b) (row : Valuation) :
    (row.merge a).merge b = (row.merge b).merge a := by
  funext v
  simp only [merge]
  rcases apart v with none | none
  · rw [none, Option.none_or, Option.none_or]
  · rw [none, Option.none_or, Option.none_or]

theorem outerJoin_perm {rows others : List Valuation} (perm : rows.Perm others)
    (extra : List Valuation) : (outerJoin rows extra).Perm (outerJoin others extra) := by
  unfold outerJoin
  split
  · exact perm
  · exact perm.flatMap_right _

theorem foldl_outerJoin_perm {rows others : List Valuation} (perm : rows.Perm others)
    (extras : List (List Valuation)) :
    (extras.foldl outerJoin rows).Perm (extras.foldl outerJoin others) := by
  induction extras generalizing rows others with
  | nil => exact perm
  | cons extra extras ih => exact ih (outerJoin_perm perm extra)

/-- Two clauses that never give a value to one variable may be joined in either order. -/
theorem outerJoin_comm {a b : List Valuation} (apart : ∀ x ∈ a, ∀ y ∈ b, x.Apart y)
    (rows : List Valuation) :
    (outerJoin (outerJoin rows a) b).Perm (outerJoin (outerJoin rows b) a) := by
  cases empty : a.isEmpty with
  | true => simp only [outerJoin, empty, if_true, List.Perm.refl]
  | false =>
    cases empty' : b.isEmpty with
    | true => simp only [outerJoin, empty', if_true, List.Perm.refl]
    | false =>
      simp only [outerJoin, empty, empty', Bool.false_eq_true, if_false, List.flatMap_assoc,
        List.flatMap_map]
      apply List.Perm.flatMap_left
      intro row _
      simp only [List.map_eq_flatMap]
      refine (flatMap_comm_perm a b _).trans (.of_eq ?_)
      apply List.flatMap_congr
      intro y later
      apply List.flatMap_congr
      intro x first
      rw [(apart x first y later).merge_comm]

/-- The order of clauses that are apart from each other only permutes the joined rows. -/
theorem outerRows_perm {extras others : List (List Valuation)} (perm : extras.Perm others)
    (apart : extras.Pairwise fun a b => ∀ x ∈ a, ∀ y ∈ b, x.Apart y) (base : Valuation) :
    (outerRows base extras).Perm (outerRows base others) := by
  have symm : ∀ {a b : List Valuation}, (∀ x ∈ a, ∀ y ∈ b, x.Apart y) →
      ∀ y ∈ b, ∀ x ∈ a, y.Apart x :=
    fun apart y second x first => (apart x first y second).symm
  unfold outerRows
  generalize [base] = rows
  induction perm generalizing rows with
  | nil => exact .refl _
  | cons extra perm ih => exact ih (List.pairwise_cons.mp apart).2 _
  | swap a b rest =>
    have both := (List.pairwise_cons.mp apart).1 a List.mem_cons_self
    exact foldl_outerJoin_perm (outerJoin_comm both rows) rest
  | trans first second ih ih' =>
    exact (ih apart rows).trans (ih' ((first.pairwise_iff symm).mp apart) rows)

end Valuation

/-- Joining in a clause is an outer join of the values that the rows stand for. -/
theorem map_get?_foldl_leftJoin (owns : List (List Binding)) (rows : List Binding) :
    (owns.foldl leftJoin rows).map Binding.get? =
      (owns.map fun own => own.map Binding.get?).foldl Valuation.outerJoin
        (rows.map Binding.get?) := by
  induction owns generalizing rows with
  | nil => rfl
  | cons own owns ih =>
    have merged : ∀ row extra : Binding,
        (row.merge extra).get? = Valuation.merge row.get? extra.get? :=
      fun row extra => funext fun v => row.get?_merge v extra
    rw [List.foldl_cons, ih, List.map_cons, List.foldl_cons, leftJoin, Valuation.outerJoin,
      List.isEmpty_map]
    split
    · rfl
    · simp only [List.map_flatMap, List.flatMap_map, List.map_map, Function.comp_def, merged]

namespace Binding

variable {row extra : Binding} {v : Variable}

theorem mem_keys_merge (known : v ∈ (row.merge extra).keys) : v ∈ row.keys ∨ v ∈ extra.keys := by
  rw [merge, keys_foldl_put, mem_foldl_addNew] at known
  exact known.imp_right fun member => extra.bound_keys_sublist.subset member

theorem apart_of_disjoint (disjoint : row.keys.Disjoint extra.keys) :
    Valuation.Apart row.get? extra.get? := by
  intro v
  by_cases known : v ∈ row.keys
  · exact Or.inr (get?_eq_none_of_not_mem (disjoint known))
  · exact Or.inl (get?_eq_none_of_not_mem known)

/-- What joining in adds to the keys of a row comes from a row that is joined in. -/
theorem mem_keys_foldl_leftJoin {owns : List (List Binding)} {rows : List Binding}
    (member : row ∈ owns.foldl leftJoin rows) (known : v ∈ row.keys) :
    (∃ first ∈ rows, v ∈ first.keys) ∨ ∃ own ∈ owns, ∃ extra ∈ own, v ∈ extra.keys := by
  induction owns generalizing rows with
  | nil => exact Or.inl ⟨row, member, known⟩
  | cons own owns ih =>
    rcases ih member with ⟨joined, listed, known⟩ | ⟨later, inside, found⟩
    · unfold leftJoin at listed
      split at listed
      · exact Or.inl ⟨joined, listed, known⟩
      · obtain ⟨first, start, listed⟩ := List.mem_flatMap.mp listed
        obtain ⟨extra, added, rfl⟩ := List.mem_map.mp listed
        rcases mem_keys_merge known with mine | more
        · exact Or.inl ⟨first, start, mine⟩
        · exact Or.inr ⟨own, List.mem_cons_self, extra, added, more⟩
    · exact Or.inr ⟨later, List.mem_cons_of_mem own inside, found⟩

end Binding

namespace Tree

/-- The optional trees at a node have keys of their own: no two of them share one, and none has a key
    of the node. So a row that is joined in sets only variables that have no value before. -/
structure ClausesApart (node : Tree) : Prop where
  each_other : node.optionals.Pairwise fun a b => ∀ x y, a.Node x → b.Node y →
    x.binding.keys.Disjoint y.binding.keys
  node_keys : ∀ tree ∈ node.optionals, ∀ x, tree.Node x →
    x.binding.keys.Disjoint node.binding.keys
  fresh : ∀ passed tree rest, node.optionals = passed ++ tree :: rest →
    ∀ row ∈ (solutionsEach passed).foldl leftJoin [node.binding], ∀ extra ∈ tree.solutions,
      ∀ v, (extra.get? v).isSome → row.get? v = none

section

variable {answers : Request → List Triple} {node : Tree}

theorem clausesApart_of_bare (bare : node.optionals = []) : node.ClausesApart := by
  refine ⟨?_, ?_, ?_⟩
  · rw [bare]
    exact .nil
  · rw [bare]
    exact List.forall_mem_nil _
  · intro passed tree rest split
    rw [bare] at split
    simp at split

/-- It is enough that the trees are grown and that the keys of their roots are apart. -/
theorem clausesApart_of_grown
    (grown : ∀ tree ∈ node.optionals, tree.Grown answers tree.binding.keys)
    (apart : node.optionals.Pairwise fun a b => a.binding.keys.Disjoint b.binding.keys)
    (outside : ∀ tree ∈ node.optionals, tree.binding.keys.Disjoint node.binding.keys) :
    node.ClausesApart := by
  refine ⟨?_, ?_, ?_⟩
  · refine apart.imp_of_mem ?_
    intro a b first second disjoint x y inside inside'
    rw [((grown a first).of_node inside).keys_eq, ((grown b second).of_node inside').keys_eq]
    exact disjoint
  · intro tree listed x inside
    rw [((grown tree listed).of_node inside).keys_eq]
    exact outside tree listed
  · intro passed tree rest split row member extra added v found
    have listed : tree ∈ node.optionals := by simp [split]
    have mine : v ∈ tree.binding.keys := by
      rw [← (grown tree listed).keys_of_mem_solutions added]
      by_contra absent
      rw [Binding.get?_eq_none_of_not_mem absent] at found
      cases found
    apply Binding.get?_eq_none_of_not_mem
    intro known
    rw [solutionsEach_eq_map] at member
    rcases Binding.mem_keys_foldl_leftJoin member known with
      ⟨first, start, known⟩ | ⟨own, joined, extra', added', known⟩
    · rw [List.mem_singleton.mp start] at known
      exact outside tree listed mine known
    · obtain ⟨earlier, before, rfl⟩ := List.mem_map.mp joined
      have listed' : earlier ∈ node.optionals := by simp [split, before]
      rw [(grown earlier listed').keys_of_mem_solutions added'] at known
      rw [split, List.pairwise_append] at apart
      exact apart.2.2 earlier before tree List.mem_cons_self known mine

end

end Tree

section

variable {source : Source} {answers : Request → List Triple} {leaf : Binding}
  {main : Pattern} {clauses others : List Pattern}

/-- The variables that a clause solves at a leaf are those that the leaf does not bind. -/
def Pattern.keysAt (clause : Pattern) (leaf : Binding) : List Variable :=
  (Binding.unbound (clause.substitute leaf).unbounds).keys

theorem Pattern.mem_keysAt {clause : Pattern} {v : Variable} :
    v ∈ clause.keysAt leaf ↔ v ∈ clause.unbounds ∧ leaf.isBound v = false := by
  simp [keysAt, Binding.keys_unbound, Pattern.substitute]

theorem Tree.grown_clauseTree {clause : Pattern} {tree : Tree}
    (found : clauseTree source answers leaf clause = some tree) :
    tree.Grown answers (clause.keysAt leaf) :=
  ⟨_, _, _, _, rfl, found⟩

theorem Tree.keys_of_mem_clause_rows {clause : Pattern} {row : Binding}
    (member : row ∈ rowsOf (clauseTree source answers leaf clause)) :
    row.keys = clause.keysAt leaf := by
  rw [clauseTree, Matcher.rowsOf_grow] at member
  exact Matcher.keys_of_mem_rows _ _ member

theorem Pattern.keysAt_outside (complete : leaf.isComplete = true) (clause : Pattern) :
    (clause.keysAt leaf).Disjoint leaf.keys := by
  intro v mine known
  have bound := (leaf.isComplete_iff).mp complete v known
  have free := (mem_keysAt.mp mine).2
  rw [Binding.isBound, bound] at free
  cases free

/-- A variable of two clauses is one of the main pattern, and there the leaf has a value for it. -/
theorem Pattern.WellScoped.keysAt_apart (scope : main.WellScoped clauses)
    (complete : leaf.isComplete = true) (solved : ∀ v ∈ main.unbounds, v ∈ leaf.keys) :
    clauses.Pairwise fun a b => (a.keysAt leaf).Disjoint (b.keysAt leaf) := by
  refine List.Pairwise.imp ?_ scope
  intro a b apart v mine other
  have inherited := apart v (mem_keysAt.mp other).1 (mem_keysAt.mp mine).1
  exact keysAt_outside complete a mine (solved v inherited)

theorem Tree.binding_keys_of_clauseTree {clause : Pattern} {tree : Tree}
    (found : clauseTree source answers leaf clause = some tree) :
    tree.binding.keys = clause.keysAt leaf :=
  (grown_clauseTree found).keys_eq

/-- Well-scoped clauses that are matched at a bound leaf are apart there. -/
theorem Tree.clausesApart_of_clauseTrees (scope : main.WellScoped clauses) {node : Tree}
    (complete : node.binding.isComplete = true) (solved : ∀ v ∈ main.unbounds, v ∈ node.binding.keys)
    (optionals : node.optionals = clauses.filterMap (clauseTree source answers node.binding)) :
    node.ClausesApart := by
  have grown : ∀ tree ∈ node.optionals, tree.Grown answers tree.binding.keys := by
    intro tree listed
    rw [optionals] at listed
    obtain ⟨clause, _, found⟩ := List.mem_filterMap.mp listed
    rw [binding_keys_of_clauseTree found]
    exact grown_clauseTree found
  apply clausesApart_of_grown grown
  · rw [optionals]
    refine List.Pairwise.filterMap _ ?_ (scope.keysAt_apart complete solved)
    intro clause clause' apart tree found tree' found'
    rw [binding_keys_of_clauseTree found, binding_keys_of_clauseTree found']
    exact apart
  · intro tree listed
    rw [optionals] at listed
    obtain ⟨clause, _, found⟩ := List.mem_filterMap.mp listed
    rw [binding_keys_of_clauseTree found]
    exact clause.keysAt_outside complete

namespace Engine

variable {engine : Engine} {initial : List (Variable × Term)}

theorem mem_keys_withValues {v : Variable} (known : v ∈ main.unbounds) :
    v ∈ (Binding.withValues main.unbounds initial).keys := by
  simp [Binding.keys_withValues, known]

theorem node_clausesApart (scope : main.WellScoped clauses) {root node : Tree}
    (found : engine.branchRoot answers clauses initial main = some root) (below : root.Node node) :
    node.ClausesApart := by
  obtain ⟨bare, grows, rfl⟩ := Option.map_eq_some_iff.mp found
  have grown : bare.Grown answers (Binding.withValues main.unbounds initial).keys :=
    ⟨_, _, _, _, rfl, grows⟩
  rcases grown.node_dress below with
    ⟨bare, grown, rfl⟩ | ⟨leaf, _, _, tree, listed, inside⟩
  · have optionals := Tree.optionals_dress (fun leaf =>
      clauses.filterMap (Tree.clauseTree engine.store.toSource answers leaf)) bare
    rw [grown.optionals_eq, List.nil_append] at optionals
    split at optionals
    · rename_i bound
      rw [← Tree.binding_dress (fun leaf =>
        clauses.filterMap (Tree.clauseTree engine.store.toSource answers leaf)) bare] at optionals
      refine Tree.clausesApart_of_clauseTrees scope ?_ ?_ optionals
      · rw [Tree.binding_dress]
        exact Tree.isComplete_of_isBound bound
      · intro v known
        rw [Tree.binding_dress, grown.keys_eq]
        exact mem_keys_withValues known
    · exact Tree.clausesApart_of_bare optionals
  · obtain ⟨clause, _, found⟩ := List.mem_filterMap.mp listed
    exact Tree.clausesApart_of_bare ((Tree.grown_clauseTree found).of_node inside).optionals_eq

/-- The values of the rows of a branch: each leaf with its clauses joined in. -/
theorem map_get?_branchRoot (engine : Engine) (answers : Request → List Triple)
    (optionals : List Pattern) (initial : List (Variable × Term)) (pattern : Pattern) :
    (Tree.rowsOf (engine.branchRoot answers optionals initial pattern)).map Binding.get? =
      ((Matcher.mk engine.store.toSource pattern.constraints none).rows answers pattern.statements
        (.withValues pattern.unbounds initial)).flatMap fun leaf =>
          Valuation.outerRows leaf.get? (optionals.map fun clause =>
            (Tree.rowsOf (Tree.clauseTree engine.store.toSource answers leaf clause)).map
              Binding.get?) := by
  rw [rowsOf_branchRoot, List.map_flatMap]
  simp only [map_get?_foldl_leftJoin, List.map_map, List.map_singleton, Valuation.outerRows,
    Function.comp_def]

theorem branchRoot_perm (scope : main.WellScoped clauses) (perm : clauses.Perm others) :
    ((Tree.rowsOf (engine.branchRoot answers clauses initial main)).map Binding.get?).Perm
      ((Tree.rowsOf (engine.branchRoot answers others initial main)).map Binding.get?) := by
  rw [map_get?_branchRoot, map_get?_branchRoot]
  apply List.Perm.flatMap_left
  intro leaf member
  refine Valuation.outerRows_perm (perm.map _) ?_ _
  have keys := Matcher.keys_of_mem_rows _ answers member
  have complete := Matcher.complete_of_mem_rows _ answers member
  have solved : ∀ v ∈ main.unbounds, v ∈ leaf.keys := fun v known =>
    keys ▸ mem_keys_withValues known
  refine List.Pairwise.map _ ?_ (scope.keysAt_apart complete solved)
  intro clause clause' disjoint x first y second
  obtain ⟨row, found, rfl⟩ := List.mem_map.mp first
  obtain ⟨row', found', rfl⟩ := List.mem_map.mp second
  apply Binding.apart_of_disjoint
  rw [Tree.keys_of_mem_clause_rows found, Tree.keys_of_mem_clause_rows found']
  exact disjoint

end Engine

end

/-- Two queries that differ in the order of their clauses only. -/
structure Engine.SameUpToClauseOrder (engine : Engine) (main : Pattern)
    (clauses others : List Pattern) (initial : List (Variable × Term))
    (query reordered : Query) : Prop where
  built : (engine.build [main] clauses initial).Yields query
  reordered_built : (engine.build [main] others initial).Yields reordered
  rows : (query.solutions.map Binding.get?).Perm (reordered.solutions.map Binding.get?)
  apart : ∀ root ∈ query.root?, ∀ node, root.Node node → node.ClausesApart

/-- The order of the optional clauses matters neither to the scope rule nor to the solutions, and at
    every leaf the clauses have variables of their own. -/
theorem clauses_independent (name : String) (graph : Graph) (watched : Bool) (config : Config)
    {main : Pattern} {clauses others : List Pattern} (perm : clauses.Perm others)
    (decides : main.Decides graph.matching)
    (decide : ∀ clause ∈ clauses, clause.Decides graph.matching)
    (initial : List (Variable × Term)) :
    (main.checkScope clauses = .ok () ↔ main.checkScope others = .ok ()) ∧
      (main.checkScope clauses = .ok () → main.isEmpty = false → ∃ query reordered,
        (Engine.mk (.ofGraph name graph watched) config).SameUpToClauseOrder main clauses others
          initial query reordered) := by
  let engine : Engine := ⟨.ofGraph name graph watched, config⟩
  have steady : engine.store.Answers graph.matching := answers_ofGraph name graph watched
  have accepted : main.checkScope clauses = .ok () ↔ main.checkScope others = .ok () := by
    rw [Pattern.checkScope_eq_ok_iff_wellScoped, Pattern.checkScope_eq_ok_iff_wellScoped]
    exact Pattern.wellScoped_perm perm
  refine ⟨accepted, fun scope stated => ?_⟩
  have decide' : ∀ clause ∈ others, clause.Decides graph.matching :=
    fun clause member => decide clause (perm.mem_iff.mpr member)
  have rule := Pattern.checkScope_eq_ok_iff_wellScoped.mp scope
  exact ⟨_, _, Engine.yields_build steady stated scope decides decide initial,
    Engine.yields_build steady stated (accepted.mp scope) decides decide' initial,
    Engine.branchRoot_perm rule perm,
    fun root found node below => Engine.node_clausesApart rule found below⟩

/-- Two clauses with several matches each change places with one that has none; one of them has a
    constraint on what the store holds. -/
theorem clauses_independent_of_rotation :
    let link := Sample.link
    let linked := Sample.linked
    let main := Pattern.ofStatements [linked "x" "y"]
    let forth := (Pattern.ofStatements [linked "y" "z"]).constrain
      [.answered (linked "z" "x").toTriplePattern true]
    let back := Pattern.ofStatements [{ linked "w" "x" with filter := some (.same .subject .object) }]
    let absent := Pattern.ofStatements [linked "y" "u", linked "u" "u", linked "u" "x"]
    main.checkScope [forth, back, absent] = .ok () ∧ ∃ query reordered,
      (Engine.mk (.ofGraph "memory"
        (.ofList [link "a" "b", link "b" "a", link "b" "c", link "b" "b"]) true)
          {}).SameUpToClauseOrder main [forth, back, absent] [back, absent, forth]
        [(⟨"x"⟩, .iri "b")] query reordered := by
  intro link linked main forth back absent
  have accepted : main.checkScope [forth, back, absent] = .ok () := rfl
  refine ⟨accepted, (clauses_independent _ _ _ _ ?_ ?_ ?_ _).2 accepted rfl⟩
  · exact (List.Perm.swap back forth [absent]).trans ((List.Perm.swap absent forth []).cons back)
  · exact Pattern.decides_of_plain _ (by decide) rfl
  · refine List.forall_mem_cons.mpr ⟨⟨?_, ?_⟩, List.forall_mem_cons.mpr ⟨⟨?_, ?_⟩,
      List.forall_mem_singleton.mpr (Pattern.decides_of_plain _ (by decide) rfl)⟩⟩
    · exact List.forall_mem_singleton.mpr (Statement.decides_of_unfiltered rfl)
    · exact List.forall_mem_singleton.mpr (Constraint.decides_answered _ true _)
    · exact List.forall_mem_singleton.mpr (Statement.decides_of_predicate rfl)
    · exact List.forall_mem_nil _

end TripleJoin
