import TripleJoin.Proofs.Tree.Attachment
import TripleJoin.Proofs.Tree.Expansion
/-!
The leaves of a built query. A pattern starts with the variables of its statements and with values
for all others, and a clause at a leaf with the variables that the leaf leaves open; so the matches
bind every key, and no leaf of any tree is only partly bound.
-/
namespace TripleJoin

namespace Tree

/-- No leaf, of the tree itself or of an optional tree in it, lacks a value. -/
def LeavesBound (tree : Tree) : Prop :=
  ∀ node, tree.Node node → node.isLeaf = true → node.isBound = true

section

variable {tree node : Tree}

theorem Node.eq_or_inside (inside : tree.Node node) :
    node = tree ∨ ∃ next ∈ tree.children ++ tree.optionals, next.Node node := by
  induction inside with
  | root => exact Or.inl rfl
  | child above member ih =>
    rcases ih with rfl | ⟨next, listed, inside⟩
    · exact Or.inr ⟨_, List.mem_append_left _ member, .root⟩
    · exact Or.inr ⟨next, listed, inside.child member⟩
  | optional above member ih =>
    rcases ih with rfl | ⟨next, listed, inside⟩
    · exact Or.inr ⟨_, List.mem_append_right _ member, .root⟩
    · exact Or.inr ⟨next, listed, inside.optional member⟩

theorem Node.trans {next : Tree} (above : tree.Node next) (below : next.Node node) :
    tree.Node node := by
  induction below with
  | root => exact above
  | child _ member ih => exact ih.child member
  | optional _ member ih => exact ih.optional member

theorem leavesBound_inner {binding : Binding} {matched : Option Triple} {children : List Tree} :
    (inner binding matched children).LeavesBound ↔ ∀ child ∈ children, child.LeavesBound := by
  constructor
  · intro bound child member node inside
    exact bound node ((Node.root.child member).trans inside)
  · intro each node inside last
    rcases inside.eq_or_inside with rfl | ⟨next, listed, inside⟩
    · cases last
    · exact each next ((List.mem_append.mp listed).elim id nofun) node inside last

theorem leavesBound_leaf {binding : Binding} {matched : Option Triple} {optionals : List Tree} :
    (leaf binding matched optionals).LeavesBound ↔
      binding.isComplete = true ∧ ∀ clause ∈ optionals, clause.LeavesBound := by
  constructor
  · intro bound
    refine ⟨bound _ .root rfl, fun clause member node inside => ?_⟩
    exact bound node ((Node.root.optional member).trans inside)
  · rintro ⟨complete, each⟩ node inside last
    rcases inside.eq_or_inside with rfl | ⟨next, listed, inside⟩
    · exact complete
    · exact each next listed node inside last

end

/-- Where the statements bind all that is still due, the leaves are bound. -/
theorem Spans.leavesBound {tree : Tree} {statements : List Statement} {binding : Binding}
    {matched : Option Triple} (awaits : binding.Awaits statements)
    (spans : tree.Spans statements binding matched) : tree.LeavesBound := by
  induction statements generalizing tree binding matched with
  | nil =>
    cases spans
    exact leavesBound_leaf.mpr ⟨awaits.isComplete, List.forall_mem_nil _⟩
  | cons head rest ih =>
    obtain ⟨children, rfl, _, each⟩ := spans
    refine leavesBound_inner.mpr fun child member => ?_
    obtain ⟨triple, next, fits, below⟩ := each child member
    exact ih (awaits.extended fits) below

section

variable {source : Source} {clauses : List Pattern}

/-- The variables of a clause that a leaf leaves open are those of the statements put in place. -/
theorem ClauseGives.leavesBound {leaf : Binding} {clause : Pattern} (built : clause.Built)
    {tree : Tree} (gives : ClauseGives source leaf clause (some tree)) : tree.LeavesBound := by
  obtain ⟨journal, ends⟩ := gives
  have spans := Matcher.ensures_expandFrom _ _ _ none journal (some tree) ends tree rfl
  exact spans.leavesBound ((built.substitute leaf).awaits [])

mutual

theorem Gains.leavesBound (built : ∀ clause ∈ clauses, clause.Built) : ∀ {tree next : Tree},
    Gains source clauses tree next → tree.LeavesBound → next.LeavesBound
  | inner .., _, .inner _ _ each, bound =>
    leavesBound_inner.mpr (leavesBound_of_each built each (leavesBound_inner.mp bound))
  | leaf .., _, .unbound .., bound => bound
  | leaf .., _, .bound _ _ optionals each, bound => by
    obtain ⟨complete, before⟩ := leavesBound_leaf.mp bound
    refine leavesBound_leaf.mpr ⟨complete, List.forall_mem_append.mpr ⟨before, ?_⟩⟩
    have trees := forall_mem_of_forall₂ (p := fun root => ∀ tree ∈ root, tree.LeavesBound)
      ((List.forall₂_and_left _ _).mpr ⟨built, each⟩) (by
        rintro clause found ⟨stated, gives⟩ tree rfl
        exact gives.leavesBound stated)
    intro tree member
    obtain ⟨found, listed, same⟩ := List.mem_filterMap.mp member
    exact trees found listed tree same

theorem leavesBound_of_each (built : ∀ clause ∈ clauses, clause.Built) :
    ∀ {trees others : List Tree}, List.Forall₂ (Gains source clauses) trees others →
      (∀ tree ∈ trees, tree.LeavesBound) → ∀ other ∈ others, other.LeavesBound
  | [], _, .nil, _ => List.forall_mem_nil _
  | tree :: trees, _, .cons here later, bound => by
    rw [List.forall_mem_cons] at bound ⊢
    exact ⟨here.leavesBound built bound.1, leavesBound_of_each built later bound.2⟩

end

end

end Tree

/-- The main trees of a query, branch after branch. A branch that clashed has none. -/
def Query.roots : Query → List Tree
  | tree root _ _ => root.toList
  | union first second => first.roots ++ second.roots

namespace Engine

open Run

variable {optionals : List Pattern}

theorem ensures_buildBranch (engine : Engine) (built : ∀ clause ∈ optionals, clause.Built)
    (initial : List (Variable × Term)) (branch : Nat) {pattern : Pattern} (own : pattern.Built) :
    (engine.buildBranch optionals initial branch pattern).Ensures fun query =>
      ∀ root ∈ query.roots, root.LeavesBound := by
  rw [buildBranch_eq]
  refine ensures_bind fun before => ?_
  refine (Matcher.ensures_expandFrom _ _ _ none).bind fun expanded spans => ?_
  refine ensures_bind fun now => ?_
  refine (engine.ensures_attachRoot optionals expanded).bind fun root gains => ?_
  intro journal query ends
  rw [ok_of_closeBranch ends]
  cases gains with
  | none => exact List.forall_mem_nil _
  | some gained =>
    have start := (spans _ rfl).leavesBound (own.awaits initial)
    exact List.forall_mem_singleton.mpr (gained.leavesBound built start)

theorem ensures_buildFrom (engine : Engine) (built : ∀ clause ∈ optionals, clause.Built)
    (initial : List (Variable × Term)) {patterns : List Pattern}
    (own : ∀ pattern ∈ patterns, pattern.Built) {query : Query} (branch : Nat)
    (bound : ∀ root ∈ query.roots, root.LeavesBound) :
    (engine.buildFrom optionals initial query branch patterns).Ensures fun query =>
      ∀ root ∈ query.roots, root.LeavesBound := by
  induction patterns generalizing query branch with
  | nil => exact ensures_pure bound
  | cons pattern patterns ih =>
    rw [List.forall_mem_cons] at own
    refine (engine.ensures_buildBranch built initial branch own.1).bind fun next bound' => ?_
    exact ih own.2 (branch + 1) (List.forall_mem_append.mpr ⟨bound, bound'⟩)

theorem ensures_build (engine : Engine) (built : ∀ clause ∈ optionals, clause.Built)
    (initial : List (Variable × Term)) {patterns : List Pattern}
    (own : ∀ pattern ∈ patterns, pattern.Built) :
    (engine.build patterns optionals initial).Ensures fun query =>
      ∀ root ∈ query.roots, root.LeavesBound := by
  refine ensures_bind fun _ => ?_
  cases patterns with
  | nil => exact fun _ _ absurd => nomatch absurd
  | cons pattern patterns =>
    rw [List.forall_mem_cons] at own
    refine (engine.ensures_buildBranch built initial 0 own.1).bind fun query bound => ?_
    exact engine.ensures_buildFrom built initial own.2 1 bound

end Engine

/-- An expanded tree spells out its statements level by level, whatever the source answers, as long as
    the binding has their variables for its keys. The trees of a build have bound leaves only. -/
theorem expansion_invariants :
    (∀ (matcher : Matcher) (binding : Binding) (statements : List Statement),
      binding.Covers statements → ∀ (journal : Journal) (tree : Tree),
        ((matcher.expand binding statements).run.run journal).1 = .ok (some tree) →
          tree.Expanded binding statements) ∧
    ∀ (engine : Engine) (patterns optionals : List Pattern) (initial : List (Variable × Term)),
      (∀ pattern ∈ patterns, pattern.Built) → (∀ clause ∈ optionals, clause.Built) →
        ∀ (journal : Journal) (query : Query),
          ((engine.build patterns optionals initial).run.run journal).1 = .ok query →
            ∀ root ∈ query.roots, ∀ node, root.Node node → node.isLeaf = true →
              node.isBound = true := by
  constructor
  · intro matcher binding statements covers journal tree ends
    have spans := matcher.ensures_expandFrom statements binding none journal (some tree) ends
    exact (spans tree rfl).expanded covers
  · intro engine patterns optionals initial own built journal query ends
    exact engine.ensures_build built initial own journal query ends

open Sample in
/-- The store answers with all that it holds, a variable is repeated, and one is fixed twice. -/
theorem expansion_invariants_of_loop :
    let store := Store.unselective "memory" (.ofList [link "a" "a", link "a" "b"]) true
    let engine : Engine := ⟨store, {}⟩
    let statements := [linked "x" "y", linked "y" "y"]
    let clauses := [Pattern.ofStatements [linked "y" "z"]]
    let start := Binding.unbound [⟨"x"⟩, ⟨"y"⟩]
    ∃ tree query,
      (((Matcher.mk store.toSource [] none).expand start statements).run.run Journal.empty).1 =
        .ok (some tree) ∧ tree.nodeCount = 3 ∧ tree.Expanded start statements ∧
      ((engine.build [.ofStatements statements] clauses
        [(⟨"x"⟩, .iri "b"), (⟨"x"⟩, .iri "a")]).run.run Journal.empty).1 = .ok query ∧
      query.roots.map Tree.nodeCount = [6] ∧
      ∀ root ∈ query.roots, ∀ node, root.Node node → node.isLeaf = true → node.isBound = true := by
  intro store engine statements clauses start
  let answers : Request → List Triple := fun _ => [link "a" "a", link "a" "b"]
  let matcher : Matcher := ⟨store.toSource, [], none⟩
  have steady : engine.store.Answers answers :=
    fun _ _ => congrArg Except.ok (Graph.toList_ofList [link "a" "a", link "a" "b"])
  have plain : (Pattern.ofStatements statements).Decides answers :=
    Pattern.decides_of_plain answers (by decide) rfl
  have decides : ∀ clause ∈ clauses, clause.Decides answers :=
    List.forall_mem_singleton.mpr (Pattern.decides_of_plain answers (by decide) rfl)
  obtain ⟨middle, grown⟩ := matcher.yields_expandFrom steady (List.forall_mem_nil _) plain.filters
    start none Journal.empty
  obtain ⟨last, made⟩ := Engine.yields_build steady rfl rfl plain decides
    [(⟨"x"⟩, .iri "b"), (⟨"x"⟩, .iri "a")] Journal.empty
  have count : (matcher.grow answers statements start none).map Tree.nodeCount = some 3 := by decide
  obtain ⟨tree, grows, nodes⟩ := Option.map_eq_some_iff.mp count
  have ends : ((matcher.expand start statements).run.run Journal.empty).1 = .ok (some tree) :=
    (congrArg Prod.fst grown).trans (congrArg Except.ok grows)
  have built := congrArg Prod.fst made
  have own : ∀ pattern ∈ [Pattern.ofStatements statements], pattern.Built :=
    List.forall_mem_singleton.mpr (Pattern.built_ofStatements statements)
  have optional : ∀ clause ∈ clauses, clause.Built :=
    List.forall_mem_singleton.mpr (Pattern.built_ofStatements _)
  have covers : start.Covers statements := (Pattern.built_ofStatements statements).covers []
  obtain ⟨expanded, bound⟩ := expansion_invariants
  exact ⟨tree, _, ends, nodes, expanded matcher start statements covers _ tree ends, built,
    by decide, bound engine _ clauses _ own optional _ _ built⟩

end TripleJoin
