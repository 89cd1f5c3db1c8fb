import TripleJoin.Proofs.Matcher.Uniqueness
import TripleJoin.Proofs.Matching
/-!
The shape of an expanded tree, for a source that may answer anything. Each level belongs to a
statement; a node hands its binding down to its children, each of which has matched a triple of its
own. A tree of this shape keeps the keys of its root everywhere and spells out one statement per
level.
-/
namespace TripleJoin

namespace Tree

/-- The tree is made of matches of the statements, one level for each, from this binding on. -/
def Spans : Tree → List Statement → Binding → Option Triple → Prop
  | tree, [], binding, matched => tree = .leaf binding matched []
  | tree, head :: rest, binding, matched =>
    ∃ children, tree = .inner binding matched children ∧ children ≠ [] ∧
      ∀ child ∈ children, ∃ triple next,
        binding.extended head.toTriplePattern triple = some next ∧
          child.Spans rest next (some triple)

/-- The nodes at a depth below the root, optional trees aside. -/
inductive At (root : Tree) : Nat → Tree → Prop where
  | root : At root 0 root
  | child {depth : Nat} {parent node : Tree} (above : At root depth parent)
      (member : node ∈ parent.children) : At root (depth + 1) node

end Tree

namespace Matcher

/-- Expansion scans the candidates of one statement after another. -/
theorem expandFrom_cons (matcher : Matcher) (head : Statement) (rest : List Statement)
    (binding : Binding) (matched : Option Triple) :
    matcher.expandFrom (head :: rest) binding matched = (do
      countNode
      let children ← scan matcher.source (head.substitute binding) binding
        fun candidate next => matcher.expandFrom rest next (some candidate)
      if children.isEmpty then
        report (.clash (head.substitute binding).toTriplePattern)
        return none
      else
        return some (.inner binding matched children)) := by
  simp only [expandFrom]
  exact bind_congr fun _ => (bind_assoc _ _ _).symm

variable {source other : Source} {filters : Filter → Prop} {imposed : Constraint → Prop}
  {constraints : List Constraint} {inherited : Option Binding}

theorem matching_holdFrom {all : List Constraint} (seen : Binding) (index : Nat)
    (allowed : ∀ constraint ∈ constraints, imposed constraint) :
    Matching source other filters imposed
      ((Matcher.mk source all inherited).holdFrom seen index constraints)
      ((Matcher.mk other all inherited).holdFrom seen index constraints) fun _ => True := by
  induction constraints generalizing index with
  | nil => exact .done trivial
  | cons constraint constraints ih =>
    rw [List.forall_mem_cons] at allowed
    refine .after (.ask allowed.1 index seen) fun verdict => ?_
    cases verdict with
    | false => exact .done trivial
    | true => exact ih (index + 1) allowed.2

theorem matching_finish (allowed : ∀ constraint ∈ constraints, imposed constraint)
    (binding : Binding) (matched : Option Triple) :
    Matching source other filters imposed
      ((Matcher.mk source constraints inherited).finish binding matched)
      ((Matcher.mk other constraints inherited).finish binding matched)
      fun found => ∀ tree ∈ found, tree.Spans [] binding matched := by
  have kept : ∀ tree ∈ some (Tree.leaf binding matched []), tree.Spans [] binding matched := by
    rintro tree ⟨⟩
    rfl
  unfold finish
  split
  · refine .after (matching_holdFrom _ 0 allowed) fun verdict => ?_
    cases verdict with
    | true => exact .done kept
    | false => exact .after (.tell nofun) fun _ => .done nofun
  · exact .done kept

/-- Whatever the source answers, expansion comes to a tree of matches or to none. -/
theorem matching_expandFrom (allowed : ∀ constraint ∈ constraints, imposed constraint)
    {statements : List Statement}
    (tested : ∀ statement ∈ statements, ∀ filter ∈ statement.filter, filters filter)
    (binding : Binding) (matched : Option Triple) :
    Matching source other filters imposed
      ((Matcher.mk source constraints inherited).expandFrom statements binding matched)
      ((Matcher.mk other constraints inherited).expandFrom statements binding matched)
      fun found => ∀ tree ∈ found, tree.Spans statements binding matched := by
  induction statements generalizing binding matched with
  | nil => exact .after .node fun _ => matching_finish allowed binding matched
  | cons head rest ih =>
    rw [List.forall_mem_cons] at tested
    rw [expandFrom_cons, expandFrom_cons]
    let good := fun child : Tree => ∃ triple next,
      binding.extended head.toTriplePattern triple = some next ∧ child.Spans rest next (some triple)
    have same : ∀ filter ∈ (head.substitute binding).filter, filters filter := tested.1
    refine .after .node fun _ => ?_
    refine .bind (p := fun children => ∀ child ∈ children, good child) ?_ fun children => ?_
    · refine .scan same fun candidate next => ?_
      refine (ih tested.2 next (some candidate)).imp fun found spans fits child grown => ?_
      have substituted := binding.extended_substitute head.toTriplePattern candidate
      exact ⟨candidate, next, substituted ▸ fits, spans child grown⟩
    · cases children with
      | nil => exact .after (.tell nofun) fun _ => .done fun _ => nofun
      | cons child children =>
        refine .done fun each => ?_
        rintro tree ⟨⟩
        exact ⟨child :: children, rfl, List.cons_ne_nil child children, each⟩

/-- Over one source nothing need be known of filters and constraints. -/
theorem matching_any (matcher : Matcher) (statements : List Statement) (binding : Binding)
    (matched : Option Triple) :
    Matching matcher.source matcher.source (fun _ => True) (fun _ => True)
      (matcher.expandFrom statements binding matched)
      (matcher.expandFrom statements binding matched)
      fun found => ∀ tree ∈ found, tree.Spans statements binding matched :=
  matching_expandFrom (fun _ _ => trivial) (fun _ _ _ _ => trivial) binding matched

theorem ensures_expandFrom (matcher : Matcher) (statements : List Statement) (binding : Binding)
    (matched : Option Triple) :
    (matcher.expandFrom statements binding matched).Ensures fun found =>
      ∀ tree ∈ found, tree.Spans statements binding matched :=
  (matcher.matching_any statements binding matched).ensures

end Matcher

namespace Tree

section

variable {tree node : Tree} {statements : List Statement} {binding : Binding}
  {matched : Option Triple} {depth : Nat}

theorem Spans.binding_eq (spans : tree.Spans statements binding matched) :
    tree.binding = binding ∧ tree.matched = matched ∧ tree.optionals = [] := by
  cases statements with
  | nil =>
    cases spans
    exact ⟨rfl, rfl, rfl⟩
  | cons head rest =>
    obtain ⟨children, rfl, _, _⟩ := spans
    exact ⟨rfl, rfl, rfl⟩

theorem Spans.isLeaf_iff (spans : tree.Spans statements binding matched) :
    tree.isLeaf = true ↔ statements = [] := by
  cases statements with
  | nil =>
    cases spans
    exact iff_of_true rfl rfl
  | cons head rest =>
    obtain ⟨children, rfl, _, _⟩ := spans
    exact iff_of_false Bool.false_ne_true (List.cons_ne_nil head rest)

theorem Spans.children_ne_nil (spans : tree.Spans statements binding matched)
    (inside : tree.isLeaf = false) : tree.children ≠ [] := by
  cases statements with
  | nil =>
    cases spans
    cases inside
  | cons head rest =>
    obtain ⟨children, rfl, filled, _⟩ := spans
    exact filled

theorem Spans.child (spans : tree.Spans statements binding matched)
    (member : node ∈ tree.children) : ∃ head rest triple next, statements = head :: rest ∧
      binding.extended head.toTriplePattern triple = some next ∧
        node.Spans rest next (some triple) := by
  cases statements with
  | nil =>
    cases spans
    cases member
  | cons head rest =>
    obtain ⟨children, rfl, _, each⟩ := spans
    obtain ⟨triple, next, fits, below⟩ := each node member
    exact ⟨head, rest, triple, next, rfl, fits, below⟩

/-- Every node is the root of a tree of the remaining statements, with the same keys. -/
theorem Spans.of_at (spans : tree.Spans statements binding matched) (here : tree.At depth node) :
    ∃ known taken, node.Spans (statements.drop depth) known taken ∧ known.keys = binding.keys ∧
      depth ≤ statements.length := by
  induction here with
  | root => exact ⟨binding, matched, spans, rfl, Nat.zero_le _⟩
  | @child depth parent node above member ih =>
    obtain ⟨known, taken, spans, keys, within⟩ := ih
    obtain ⟨head, rest, triple, next, split, fits, below⟩ := spans.child member
    have short := congrArg List.length split
    have next_drop : statements.drop (depth + 1) = rest := by
      rw [← List.drop_drop, split, List.drop_one, List.tail_cons]
    rw [List.length_drop, List.length_cons] at short
    refine ⟨next, some triple, next_drop ▸ below, (Binding.keys_extended fits).trans keys, ?_⟩
    omega

end

/-- What holds throughout a tree that was expanded from a binding over some statements. -/
structure Expanded (tree : Tree) (root : Binding) (statements : List Statement) : Prop where
  root_binding : tree.binding = root
  root_matched : tree.matched = none
  keys : ∀ depth node, tree.At depth node → node.binding.keys = root.keys
  extended : ∀ depth node child, tree.At depth node → child ∈ node.children →
    child.binding.Extends node.binding
  /-- The triple of a node is the statement of its level, with the values of the node in place. -/
  spelled : ∀ depth node, tree.At (depth + 1) node → ∃ statement triple,
    statements[depth]? = some statement ∧ node.matched = some triple ∧
      statement.toTriplePattern.substitute node.binding = .ofTriple triple
  children : ∀ depth node, tree.At depth node → node.isLeaf = false → node.children ≠ []
  leaves : ∀ depth node, tree.At depth node → (node.isLeaf = true ↔ depth = statements.length)
  bound : ∀ depth node, tree.At depth node → node.isLeaf = true →
    (node.isBound = true ↔ ∀ v ∈ node.binding.keys, (node.binding.get? v).isSome)
  optionals : ∀ depth node, tree.At depth node → node.optionals = []

theorem Spans.expanded {tree : Tree} {statements : List Statement} {binding : Binding}
    (covers : binding.Covers statements) (spans : tree.Spans statements binding none) :
    tree.Expanded binding statements where
  root_binding := spans.binding_eq.1
  root_matched := spans.binding_eq.2.1
  keys := by
    intro depth node here
    obtain ⟨known, taken, below, keys, _⟩ := spans.of_at here
    rw [below.binding_eq.1, keys]
  extended := by
    intro depth node child here member
    obtain ⟨known, taken, below, _, _⟩ := spans.of_at here
    obtain ⟨head, rest, triple, next, _, fits, under⟩ := below.child member
    rw [below.binding_eq.1, under.binding_eq.1]
    exact Binding.extends_extended fits
  spelled := by
    rintro depth node (_ | ⟨above, member⟩)
    obtain ⟨known, taken, below, keys, _⟩ := spans.of_at above
    obtain ⟨head, rest, triple, next, split, fits, under⟩ := below.child member
    have stated : statements[depth]? = some head := by
      rw [← List.head?_drop, split, List.head?_cons]
    have known_head : ∀ v ∈ head.freeVariables, v ∈ known.keys :=
      keys ▸ covers head (List.mem_of_getElem? stated)
    refine ⟨head, triple, stated, under.binding_eq.2.1, ?_⟩
    rw [under.binding_eq.1]
    exact Binding.substitute_extended fits known_head
  children := by
    intro depth node here inside
    obtain ⟨known, taken, below, _, _⟩ := spans.of_at here
    exact below.children_ne_nil inside
  leaves := by
    intro depth node here
    obtain ⟨known, taken, below, _, within⟩ := spans.of_at here
    rw [below.isLeaf_iff, List.drop_eq_nil_iff]
    omega
  bound := by
    intro depth node _ last
    cases node with
    | inner => cases last
    | leaf known _ _ => exact known.isComplete_iff
  optionals := by
    intro depth node here
    obtain ⟨known, taken, below, _, _⟩ := spans.of_at here
    exact below.binding_eq.2.2

end Tree

end TripleJoin
