import TripleJoin.Proofs.Engine.Build
/-!
The nodes of a search tree. All nodes of a grown tree have the keys of its root, and none has an
optional tree. Attaching clauses adds the grown trees of the clauses at bound leaves and nothing
else, so every node of the result is a node that was there before or one of a clause.
-/
namespace TripleJoin

namespace Tree

/-- The nodes of a tree, those of optional trees included. -/
inductive Node (root : Tree) : Tree → Prop where
  | root : Node root root
  | child {parent node : Tree} (above : Node root parent) (member : node ∈ parent.children) :
      Node root node
  | optional {parent node : Tree} (above : Node root parent) (member : node ∈ parent.optionals) :
      Node root node

theorem dressAll_eq_map (clauseTrees : Binding → List Tree) (trees : List Tree) :
    dressAll clauseTrees trees = trees.map (dress clauseTrees) := by
  induction trees with
  | nil => rfl
  | cons tree trees ih => rw [dressAll, List.map_cons, ih]

theorem binding_dress (clauseTrees : Binding → List Tree) (tree : Tree) :
    (tree.dress clauseTrees).binding = tree.binding := by
  cases tree with
  | inner binding matched children => rfl
  | leaf binding matched optionals =>
    rw [dress]
    split <;> rfl

theorem children_dress (clauseTrees : Binding → List Tree) (tree : Tree) :
    (tree.dress clauseTrees).children = tree.children.map (dress clauseTrees) := by
  cases tree with
  | inner binding matched children => exact dressAll_eq_map clauseTrees children
  | leaf binding matched optionals =>
    rw [dress]
    split <;> rfl

theorem optionals_dress (clauseTrees : Binding → List Tree) (tree : Tree) :
    (tree.dress clauseTrees).optionals =
      tree.optionals ++ if tree.isBound then clauseTrees tree.binding else [] := by
  cases tree with
  | inner binding matched children => rfl
  | leaf binding matched optionals =>
    rw [dress, isBound, Tree.binding]
    split
    · rfl
    · exact (List.append_nil optionals).symm

theorem isComplete_of_isBound {tree : Tree} (bound : tree.isBound = true) :
    tree.binding.isComplete = true := by
  cases tree with
  | inner => cases bound
  | leaf binding _ _ => exact bound

/-- The tree was grown from a binding with these keys. -/
def Grown (answers : Request → List Triple) (keys : List Variable) (tree : Tree) : Prop :=
  ∃ (matcher : Matcher) (statements : List Statement) (binding : Binding)
    (matched : Option Triple),
    binding.keys = keys ∧ matcher.grow answers statements binding matched = some tree

section

variable {answers : Request → List Triple} {keys : List Variable} {tree node : Tree}

/-- What is known of a grown tree at its root. -/
theorem grow_eq_some {matcher : Matcher} {statements : List Statement} {binding : Binding}
    {matched : Option Triple} (grows : matcher.grow answers statements binding matched = some tree) :
    tree.binding = binding ∧ tree.optionals = [] ∧
      ∀ child ∈ tree.children, child.Grown answers binding.keys := by
  cases statements with
  | nil =>
    rw [Matcher.grow, Option.ite_none_left_eq_some] at grows
    cases grows.2
    exact ⟨rfl, rfl, List.forall_mem_nil _⟩
  | cons head rest =>
    rw [Matcher.grow, Option.ite_none_left_eq_some] at grows
    cases grows.2
    refine ⟨rfl, rfl, ?_⟩
    intro child member
    obtain ⟨candidate, _, found⟩ := List.mem_filterMap.mp member
    obtain ⟨next, fits, below⟩ := Option.bind_eq_some_iff.mp found
    rw [Matcher.childOf, Option.ite_none_right_eq_some] at fits
    exact ⟨matcher, rest, next, some candidate, Binding.keys_extended fits.2, below⟩

theorem Grown.keys_eq (grown : tree.Grown answers keys) : tree.binding.keys = keys := by
  obtain ⟨matcher, statements, binding, matched, start, grows⟩ := grown
  rw [(grow_eq_some grows).1, start]

theorem Grown.optionals_eq (grown : tree.Grown answers keys) : tree.optionals = [] := by
  obtain ⟨matcher, statements, binding, matched, start, grows⟩ := grown
  exact (grow_eq_some grows).2.1

theorem Grown.child (grown : tree.Grown answers keys) (member : node ∈ tree.children) :
    node.Grown answers keys := by
  obtain ⟨matcher, statements, binding, matched, start, grows⟩ := grown
  exact start ▸ (grow_eq_some grows).2.2 node member

theorem Grown.of_node (grown : tree.Grown answers keys) (below : tree.Node node) :
    node.Grown answers keys := by
  induction below with
  | root => exact grown
  | child above member ih => exact ih.child member
  | optional above member ih =>
    rw [ih.optionals_eq] at member
    cases member

theorem Grown.keys_of_mem_solutions (grown : tree.Grown answers keys) {row : Binding}
    (member : row ∈ tree.solutions) : row.keys = keys := by
  obtain ⟨matcher, statements, binding, matched, start, grows⟩ := grown
  have rows := matcher.rowsOf_grow answers statements binding matched
  rw [grows] at rows
  have found : row ∈ matcher.rows answers statements binding := rows ▸ member
  rw [matcher.keys_of_mem_rows answers found, start]

/-- A node of a tree with clauses is a dressed node of the tree without them, or one of the tree of
    a clause at a bound leaf. -/
theorem Grown.node_dress {clauseTrees : Binding → List Tree} (grown : tree.Grown answers keys)
    (below : (tree.dress clauseTrees).Node node) :
    (∃ bare : Tree, bare.Grown answers keys ∧ node = bare.dress clauseTrees) ∨
      ∃ leaf : Binding, leaf.keys = keys ∧ leaf.isComplete = true ∧
        ∃ clause ∈ clauseTrees leaf, clause.Node node := by
  induction below with
  | root => exact Or.inl ⟨tree, grown, rfl⟩
  | child above member ih =>
    rcases ih with ⟨bare, grown', rfl⟩ | ⟨leaf, same, complete, clause, listed, inside⟩
    · rw [children_dress] at member
      obtain ⟨under, listed, rfl⟩ := List.mem_map.mp member
      exact Or.inl ⟨under, grown'.child listed, rfl⟩
    · exact Or.inr ⟨leaf, same, complete, clause, listed, inside.child member⟩
  | optional above member ih =>
    rcases ih with ⟨bare, grown', rfl⟩ | ⟨leaf, same, complete, clause, listed, inside⟩
    · rw [optionals_dress, grown'.optionals_eq, List.nil_append] at member
      split at member
      · rename_i bound
        exact Or.inr ⟨bare.binding, grown'.keys_eq, isComplete_of_isBound bound, _, member, .root⟩
      · cases member
    · exact Or.inr ⟨leaf, same, complete, clause, listed, inside.optional member⟩

end

end Tree

end TripleJoin
