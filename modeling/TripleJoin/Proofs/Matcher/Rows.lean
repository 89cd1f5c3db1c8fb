import TripleJoin.Proofs.Binding.Extension
import TripleJoin.Proofs.Matcher.Growth
/-!
The rows of a grown tree. They are found without the tree: each statement is matched in every way,
and the complete bindings at the end that break no constraint are the rows, in match order. Clauses
attached at the leaves are joined to each of these rows in turn.
-/
namespace TripleJoin

namespace Tree

mutual

/-- The tree with more trees of optional clauses at its bound leaves. -/
def dress (clauseTrees : Binding → List Tree) : Tree → Tree
  | inner binding matched children => inner binding matched (dressAll clauseTrees children)
  | leaf binding matched optionals =>
    if binding.isComplete then leaf binding matched (optionals ++ clauseTrees binding)
    else leaf binding matched optionals

def dressAll (clauseTrees : Binding → List Tree) : List Tree → List Tree
  | [] => []
  | tree :: trees => dress clauseTrees tree :: dressAll clauseTrees trees

end

mutual

theorem dress_nil : ∀ tree : Tree, tree.dress (fun _ => []) = tree
  | inner binding matched children => by rw [dress, dressAll_nil children]
  | leaf binding matched optionals => by rw [dress, List.append_nil, ite_self]

theorem dressAll_nil : ∀ trees : List Tree, dressAll (fun _ => []) trees = trees
  | [] => rfl
  | tree :: trees => by rw [dressAll, dress_nil tree, dressAll_nil trees]

end

theorem solutionsEach_eq_map (trees : List Tree) : solutionsEach trees = trees.map solutions := by
  induction trees with
  | nil => rfl
  | cons tree trees ih => rw [solutionsEach, List.map_cons, ih]

def rowsOf (root : Option Tree) : List Binding :=
  (root.map solutions).getD []

/-- The tree of an optional clause at a leaf with this binding; none if the clause clashes. -/
def clauseTree (source : Source) (answers : Request → List Triple) (leaf : Binding)
    (clause : Pattern) : Option Tree :=
  let grounded := clause.substitute leaf
  (Matcher.mk source grounded.constraints (some leaf)).grow answers grounded.statements
    (.unbound grounded.unbounds) none

end Tree

/-- No filter and no constraint of the pattern fails on a source with these answers. -/
structure Pattern.Decides (pattern : Pattern) (answers : Request → List Triple) : Prop where
  filters : ∀ statement ∈ pattern.statements, statement.Decides
  constraints : ∀ constraint ∈ pattern.constraints, constraint.Decides answers

theorem Statement.decides_of_unfiltered {statement : Statement}
    (unfiltered : statement.filter = none) : statement.Decides := by
  intro filter chosen
  rw [unfiltered] at chosen
  cases chosen

theorem Statement.decides_of_predicate {statement : Statement} {accepts : Triple → Bool}
    (chosen : statement.filter = some (.ofPredicate accepts)) : statement.Decides := by
  intro filter same triple
  rw [chosen] at same
  cases same
  exact ⟨_, rfl⟩

theorem Pattern.decides_of_plain {pattern : Pattern} (answers : Request → List Triple)
    (unfiltered : ∀ statement ∈ pattern.statements, statement.filter = none)
    (unconstrained : pattern.constraints = []) : pattern.Decides answers := by
  constructor
  · exact fun statement member => Statement.decides_of_unfiltered (unfiltered statement member)
  · rw [unconstrained]
    exact List.forall_mem_nil _

namespace Matcher

/-- The bindings of the ways to match one statement, in match order. -/
def extensions (answers : Request → List Triple) (head : Statement) (binding : Binding) :
    List Binding :=
  let statement := head.substitute binding
  (answers statement.request).filterMap (childOf statement binding)

/-- The complete bindings that match all statements and break no constraint, in match order. -/
def rows (matcher : Matcher) (answers : Request → List Triple) :
    List Statement → Binding → List Binding
  | [], binding =>
    if binding.isComplete && matcher.admitsLeaf answers binding then [binding] else []
  | head :: rest, binding =>
    (extensions answers head binding).flatMap fun next => matcher.rows answers rest next

variable (matcher : Matcher) (answers : Request → List Triple)

theorem keys_of_mem_rows {statements : List Statement} {binding row : Binding}
    (member : row ∈ matcher.rows answers statements binding) : row.keys = binding.keys := by
  induction statements generalizing binding with
  | nil =>
    rw [rows] at member
    split at member
    · rw [List.mem_singleton.mp member]
    · cases member
  | cons head rest ih =>
    rw [rows, List.mem_flatMap] at member
    obtain ⟨next, extended, below⟩ := member
    obtain ⟨candidate, _, child⟩ := List.mem_filterMap.mp extended
    rw [childOf, Option.ite_none_right_eq_some] at child
    rw [ih below, Binding.keys_extended child.2]

theorem complete_of_mem_rows {statements : List Statement} {binding row : Binding}
    (member : row ∈ matcher.rows answers statements binding) : row.isComplete = true := by
  induction statements generalizing binding with
  | nil =>
    rw [rows] at member
    split at member
    · rename_i admitted
      rw [Bool.and_eq_true] at admitted
      exact List.mem_singleton.mp member ▸ admitted.1
    · cases member
  | cons head rest ih =>
    rw [rows, List.mem_flatMap] at member
    obtain ⟨next, _, below⟩ := member
    exact ih below

/-- The rows of a grown tree with clauses at its leaves: those of each leaf, leaf after leaf. -/
theorem rowsOf_grow_dress (clauseTrees : Binding → List Tree) (statements : List Statement)
    (binding : Binding) (matched : Option Triple) :
    Tree.rowsOf ((matcher.grow answers statements binding matched).map (Tree.dress clauseTrees)) =
      (matcher.rows answers statements binding).flatMap fun leaf =>
        ((clauseTrees leaf).map Tree.solutions).foldl leftJoin [leaf] := by
  induction statements generalizing binding matched with
  | nil =>
    rw [grow, rows]
    cases complete : binding.isComplete with
    | false => simp [Tree.rowsOf, Tree.dress, Tree.solutions, complete]
    | true =>
      cases matcher.admitsLeaf answers binding with
      | false => rfl
      | true =>
        simp [Tree.rowsOf, Tree.dress, Tree.solutions, complete, Tree.solutionsEach_eq_map]
  | cons head rest ih =>
    let statement := head.substitute binding
    have children : ∀ candidates : List Triple,
        (Tree.solutionsEach (Tree.dressAll clauseTrees (candidates.filterMap fun candidate =>
          (childOf statement binding candidate).bind fun next =>
            matcher.grow answers rest next (some candidate)))).flatten =
          ((candidates.filterMap (childOf statement binding)).flatMap fun next =>
            matcher.rows answers rest next).flatMap fun leaf =>
              ((clauseTrees leaf).map Tree.solutions).foldl leftJoin [leaf] := by
      intro candidates
      induction candidates with
      | nil => rfl
      | cons candidate candidates deeper =>
        cases child : childOf statement binding candidate with
        | none =>
          rw [List.filterMap_cons_none child, List.filterMap_cons_none (by rw [child]; rfl)]
          exact deeper
        | some next =>
          have below := ih next (some candidate)
          rw [List.filterMap_cons_some child, List.flatMap_cons, List.flatMap_append, ← below,
            ← deeper]
          cases grown : matcher.grow answers rest next (some candidate) with
          | none => rw [List.filterMap_cons_none (by rw [child]; exact grown)]; rfl
          | some tree => rw [List.filterMap_cons_some (by rw [child]; exact grown)]; rfl
    have all := children (answers statement.request)
    rw [rows, extensions, ← all, grow]
    split
    · rename_i empty
      rw [List.isEmpty_iff] at empty
      rw [empty]
      rfl
    · rfl

theorem rowsOf_grow (statements : List Statement) (binding : Binding) (matched : Option Triple) :
    Tree.rowsOf (matcher.grow answers statements binding matched) =
      matcher.rows answers statements binding := by
  have plain := matcher.rowsOf_grow_dress answers (fun _ => []) statements binding matched
  rw [funext Tree.dress_nil, Option.map_id'] at plain
  rw [plain]
  exact List.flatMap_singleton' _

/-- A tree depends on the constraints through the leaves that they admit. -/
theorem grow_congr {answers : Request → List Triple} {matcher other : Matcher}
    (same : ∀ binding, matcher.admitsLeaf answers binding = other.admitsLeaf answers binding)
    (statements : List Statement) (binding : Binding) (matched : Option Triple) :
    matcher.grow answers statements binding matched =
      other.grow answers statements binding matched := by
  induction statements generalizing binding matched with
  | nil => rw [grow, grow, same]
  | cons head rest ih => simp only [grow, ih]

theorem rows_congr {answers : Request → List Triple} {matcher other : Matcher}
    (same : ∀ binding, matcher.admitsLeaf answers binding = other.admitsLeaf answers binding)
    (statements : List Statement) (binding : Binding) :
    matcher.rows answers statements binding = other.rows answers statements binding := by
  rw [← rowsOf_grow matcher answers statements binding none, grow_congr same, rowsOf_grow]

end Matcher

theorem foldl_leftJoin_filterMap (tree : Pattern → Option Tree) (clauses : List Pattern)
    (rows : List Binding) :
    ((clauses.filterMap tree).map Tree.solutions).foldl leftJoin rows =
      (clauses.map fun clause => Tree.rowsOf (tree clause)).foldl leftJoin rows := by
  induction clauses generalizing rows with
  | nil => rfl
  | cons clause clauses ih =>
    cases found : tree clause with
    | none =>
      rw [List.filterMap_cons_none found, List.map_cons, found]
      exact ih rows
    | some grown =>
      rw [List.filterMap_cons_some found, List.map_cons, List.map_cons, found]
      exact ih _

end TripleJoin
