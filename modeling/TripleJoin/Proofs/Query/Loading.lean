import TripleJoin.Proofs.Query.Provenance
import TripleJoin.Proofs.Query.Surroundings
/-!
The order in which a graph was loaded. Look-ups in two graphs of the same triples answer in different
orders, so matching comes to the same ways in different orders, and so do the joins of the clauses at
each leaf; walks collect sets in the first place. What is read without regard to order is the same.
-/
namespace TripleJoin

/-- The graphs hold the same triples, in whatever order they were inserted. -/
def Graph.SameTriples (graph other : Graph) : Prop :=
  ∀ triple, triple ∈ graph.toList ↔ triple ∈ other.toList

section Join

variable {rows others extra more : List Binding}

theorem leftJoin_perm (perm : rows.Perm others) (added : extra.Perm more) :
    (leftJoin rows extra).Perm (leftJoin others more) := by
  unfold leftJoin
  rw [added.isEmpty_eq]
  split
  · exact perm
  · exact (perm.flatMap_right _).trans
      (List.Perm.flatMap_left _ fun row _ => added.map row.merge)

theorem foldl_leftJoin_perm {extras mores : List (List Binding)}
    (each : List.Forall₂ List.Perm extras mores) (perm : rows.Perm others) :
    (extras.foldl leftJoin rows).Perm (mores.foldl leftJoin others) := by
  induction each generalizing rows others with
  | nil => exact perm
  | cons added _ ih => exact ih (leftJoin_perm perm added)

end Join

section Matching

variable {graph other : Graph} {source source' : Source}

theorem Matcher.ways_perm_of_same (same : graph.SameTriples other) {constraints : List Constraint}
    (silent : ∀ constraint ∈ constraints, constraint.Silent) (inherited : Option Binding)
    (statements : List Statement) (binding : Binding) :
    ((Matcher.mk source constraints inherited).ways graph.matching statements binding).Perm
      ((Matcher.mk source' constraints inherited).ways other.matching statements binding) := by
  apply ways_perm_of_held silent
  · exact fun triple stored => (same triple).mp stored
  · intro way member triple taken
    have stored := held_of_mem_ways (fun _ _ => Graph.mem_of_mem_matching) member triple taken
    exact (same triple).mpr stored

theorem Tree.clause_rows_perm_of_same (same : graph.SameTriples other) {clause : Pattern}
    (silent : clause.Silent) (leaf : Binding) :
    (rowsOf (clauseTree source graph.matching leaf clause)).Perm
      (rowsOf (clauseTree source' other.matching leaf clause)) := by
  simp only [clauseTree, Matcher.rowsOf_grow, Matcher.rows_eq_ways]
  exact (Matcher.ways_perm_of_same same silent _ _ _).map Way.binding

end Matching

/-- No filter and no constraint fails, and no constraint asks the store. -/
structure Pattern.Closed (pattern : Pattern) : Prop where
  filters : ∀ statement ∈ pattern.statements, statement.Decides
  silent : pattern.Silent
  constraints : ∀ constraint ∈ pattern.constraints, ∀ answers, constraint.Decides answers

theorem Pattern.Closed.decides {pattern : Pattern} (closed : pattern.Closed)
    (answers : Request → List Triple) : pattern.Decides answers :=
  ⟨closed.filters, fun constraint member => closed.constraints constraint member answers⟩

namespace Engine

variable {engine engine' : Engine} {graph other : Graph} {optionals : List Pattern}
  {pattern : Pattern}

theorem branchWays_perm_of_same (same : graph.SameTriples other) (silent : pattern.Silent)
    (initial : List (Variable × Term)) :
    (engine.branchWays graph.matching initial pattern).Perm
      (engine'.branchWays other.matching initial pattern) :=
  Matcher.ways_perm_of_same same silent none _ _

theorem branch_solutions_perm_of_same (same : graph.SameTriples other)
    (silent : ∀ clause ∈ optionals, clause.Silent) (initial : List (Variable × Term))
    (own : pattern.Silent) :
    (engine.branchQuery graph.matching optionals initial pattern).solutions.Perm
      (engine'.branchQuery other.matching optionals initial pattern).solutions := by
  change (Tree.rowsOf (engine.branchRoot graph.matching optionals initial pattern)).Perm
    (Tree.rowsOf (engine'.branchRoot other.matching optionals initial pattern))
  simp only [rowsOf_branchRoot, Matcher.rows_eq_ways]
  have leaves : (engine.branchWays graph.matching initial pattern).Perm
      (engine'.branchWays other.matching initial pattern) :=
    branchWays_perm_of_same same own initial
  refine ((leaves.map Way.binding).flatMap_right _).trans (List.Perm.flatMap_left _ fun leaf _ => ?_)
  apply foldl_leftJoin_perm _ (.refl _)
  rw [List.forall₂_map_left_iff, List.forall₂_map_right_iff, List.forall₂_same]
  exact fun clause member => Tree.clause_rows_perm_of_same same (silent clause member) leaf

end Engine

namespace Query

theorem over_of_unionOf {graph : Graph} {queries : List Query} {query : Query}
    (joined : unionOf queries = some query) (each : ∀ branch ∈ queries, branch.Over graph) :
    query.Over graph := by
  cases queries with
  | nil => cases joined
  | cons first queries =>
    cases joined
    rw [List.forall_mem_cons] at each
    obtain ⟨held, later⟩ := each
    induction queries generalizing first with
    | nil => exact held
    | cons next queries ih =>
      rw [List.forall_mem_cons] at later
      exact ih (first.union next) ⟨held, later.1⟩ later.2

theorem Selects.of_perm {query other : Query} (perm : query.solutions.Perm other.solutions)
    {selection : Selection} {term : Term} (selected : query.Selects selection term) :
    other.Selects selection term := by
  obtain ⟨solution, member, shown⟩ := selected
  exact ⟨solution, perm.mem_iff.mp member, shown⟩

end Query

theorem Walk.Reached.of_subset {held stored : List Triple} (part : held ⊆ stored) {sense : Sense}
    {seed : Term} {triple : Triple} (reached : Reached held sense seed triple) :
    Reached stored sense seed triple := by
  induction reached with
  | start member entered => exact .start (part member) entered
  | step _ member entered ih => exact .step ih (part member) entered

namespace Query

variable {graph other : Graph} {first second : Query}

theorem walk_subset_of_same (part : graph.toList ⊆ other.toList) (held : first.Over graph)
    (held' : second.Over other) (perm : first.solutions.Perm second.solutions) {sense : Walk.Sense}
    {selection : Selection} {found found' : Graph}
    (walks : (first.walk sense selection).Yields found)
    (walks' : (second.walk sense selection).Yields found') : found.toList ⊆ found'.toList := by
  obtain ⟨seeds, reached, gathers, ends, selects⟩ := walk_gathers held sense selection
  obtain ⟨seeds', reached', gathers', ends', selects'⟩ := walk_gathers held' sense selection
  obtain rfl := walks.unique ends
  obtain rfl := walks'.unique ends'
  intro triple member
  obtain ⟨seed, listed, way⟩ := (gathers.mem_iff triple).mp member
  obtain ⟨subject, selected⟩ := (selects seed).mp listed
  refine (gathers'.mem_iff triple).mpr ⟨seed, (selects' seed).mpr ⟨subject, ?_⟩, ?_⟩
  · exact selected.of_perm perm
  · exact way.of_subset part

/-- What is read of the queries without regard to order is the same, whatever the journals hold. -/
structure SameUpToOrder (query other : Query) : Prop where
  solutions : query.solutions.Perm other.solutions
  ask : query.ask = other.ask
  constructed : ∀ call call' journal journal' triple,
    triple ∈ ((query.construct none call).run journal).1.toList ↔
      triple ∈ ((other.construct none call').run journal').1.toList
  walks : ∀ sense selection, ∃ found found', (query.walk sense selection).Yields found ∧
    (other.walk sense selection).Yields found' ∧ found.SameTriples found'
  clusters : ∀ selection, ∃ both both', (query.cluster selection).Yields both ∧
    (other.cluster selection).Yields both' ∧ both.SameTriples both'

theorem sameUpToOrder_of (same : graph.SameTriples other) (held : first.Over graph)
    (held' : second.Over other) (perm : first.solutions.Perm second.solutions)
    (evidence : first.evidence.SameTriples second.evidence) : first.SameUpToOrder second := by
  have walks : ∀ sense selection, ∃ found found', (first.walk sense selection).Yields found ∧
      (second.walk sense selection).Yields found' ∧ found.SameTriples found' := by
    intro sense selection
    obtain ⟨_, found, _, ends, _⟩ := walk_gathers held sense selection
    obtain ⟨_, found', _, ends', _⟩ := walk_gathers held' sense selection
    refine ⟨found, found', ends, ends', fun triple => ⟨fun member => ?_, fun member => ?_⟩⟩
    · exact walk_subset_of_same (fun t => (same t).mp) held held' perm ends ends' member
    · exact walk_subset_of_same (fun t => (same t).mpr) held' held perm.symm ends' ends member
  refine ⟨perm, ?_, fun _ _ _ _ triple => evidence triple, walks, fun selection => ?_⟩
  · rw [ask, ask, perm.isEmpty_eq]
  · obtain ⟨back, back', ends, ends', backward⟩ := walks .backward selection
    obtain ⟨ahead, ahead', goes, goes', forward⟩ := walks .forward selection
    refine ⟨back.union ahead, back'.union ahead', ends.bind (goes.bind (Run.yields_pure _)),
      ends'.bind (goes'.bind (Run.yields_pure _)), fun triple => ?_⟩
    rw [Graph.mem_union, Graph.mem_union, backward, forward]

end Query

/-- Two builds of the same patterns: both fail with the fault of the patterns, or else both succeed,
    with queries that are the same up to order. -/
structure Engine.BuildsAlike (engine engine' : Engine) (patterns optionals : List Pattern)
    (initial : List (Variable × Term)) : Prop where
  fails : ∀ fault, check patterns optionals = .error fault → ∀ journal,
    ((engine.build patterns optionals initial).run.run journal).1 =
        .error (.configuration fault) ∧
      ((engine'.build patterns optionals initial).run.run journal).1 =
        .error (.configuration fault)
  succeeds : check patterns optionals = .ok () → ∃ query query',
    (engine.build patterns optionals initial).Yields query ∧
      (engine'.build patterns optionals initial).Yields query' ∧ query.SameUpToOrder query'

/-- Results depend on the set of the stored triples and not on the order in which they were loaded. -/
theorem loading_order_irrelevant {graph other : Graph} (same : graph.SameTriples other)
    (name name' : String) (watched watched' : Bool) (config : Config)
    {patterns optionals : List Pattern} (closed : ∀ pattern ∈ patterns, pattern.Closed)
    (closed' : ∀ clause ∈ optionals, clause.Closed) (initial : List (Variable × Term)) :
    (Engine.mk (.ofGraph name graph watched) config).BuildsAlike
      (.mk (.ofGraph name' other watched') config) patterns optionals initial := by
  let engine : Engine := ⟨.ofGraph name graph watched, config⟩
  let engine' : Engine := ⟨.ofGraph name' other watched', config⟩
  have steady : engine.store.Answers graph.matching := answers_ofGraph name graph watched
  have steady' : engine'.store.Answers other.matching := answers_ofGraph name' other watched'
  constructor
  · intro fault faulty journal
    exact ⟨congrArg Prod.fst (Engine.build_of_fault engine initial faulty journal),
      congrArg Prod.fst (Engine.build_of_fault engine' initial faulty journal)⟩
  · intro checked
    cases patterns with
    | nil => cases checked
    | cons first rest =>
      have yields := Engine.yields_build_branches steady checked
        (fun pattern member => (closed pattern member).decides _)
        (fun clause member => (closed' clause member).decides _) initial
      have yields' := Engine.yields_build_branches steady' checked
        (fun pattern member => (closed pattern member).decides _)
        (fun clause member => (closed' clause member).decides _) initial
      obtain ⟨_, ran⟩ := yields Journal.empty
      obtain ⟨_, ran'⟩ := yields' Journal.empty
      have success := congrArg Prod.fst ran
      have success' := congrArg Prod.fst ran'
      have joined := Engine.unionOf_of_build steady success
      have joined' := Engine.unionOf_of_build steady' success'
      refine ⟨_, _, yields, yields', Query.sameUpToOrder_of same
        (Query.over_of_unionOf joined ?_) (Query.over_of_unionOf joined' ?_) ?_ ?_⟩
      · rw [List.forall_mem_map]
        exact fun _ _ => steady
      · rw [List.forall_mem_map]
        exact fun _ _ => steady'
      · rw [Query.solutions_of_unionOf joined, Query.solutions_of_unionOf joined',
          List.flatMap_map, List.flatMap_map]
        exact List.Perm.flatMap_left _ fun pattern member =>
          Engine.branch_solutions_perm_of_same same
            (fun clause listed => (closed' clause listed).silent) initial (closed pattern member).silent
      · intro triple
        rw [Engine.mem_evidence_of_build steady success,
          Engine.mem_evidence_of_build steady' success']
        refine exists_congr fun pattern => and_congr_right fun member => ?_
        refine exists_congr fun way => and_congr_left fun _ => ?_
        exact (Engine.branchWays_perm_of_same same (closed pattern member).silent initial).mem_iff

/-- The links of a cycle with a tail, loaded in two orders; the pattern has a filter, a constraint and
    a clause. -/
theorem loading_order_of_cycle :
    let link := Sample.link
    let linked := Sample.linked
    let graph := Graph.ofList [link "a" "b", link "b" "a", link "b" "c"]
    let other := Graph.ofList [link "b" "c", link "a" "b", link "b" "c", link "b" "a"]
    let patterns := [(Pattern.ofStatements
      [{ linked "x" "y" with filter := some (.component .object Term.isIri) }]).constrain
        [.isIri ⟨"x"⟩]]
    let clauses := [Pattern.ofStatements [linked "y" "z"]]
    let engine : Engine := ⟨.ofGraph "memory" graph true, {}⟩
    let engine' : Engine := ⟨.ofGraph "memory" other true, {}⟩
    graph.SameTriples other ∧ graph.toList ≠ other.toList ∧ ∃ query query',
      (engine.build patterns clauses []).Yields query ∧
        (engine'.build patterns clauses []).Yields query' ∧ query.SameUpToOrder query' := by
  intro link linked graph other patterns clauses engine engine'
  have same : graph.SameTriples other := by
    intro triple
    simp only [graph, other, Graph.mem_ofList, List.mem_cons, List.not_mem_nil, or_false]
    tauto
  have closed : ∀ pattern ∈ patterns, pattern.Closed := by
    refine List.forall_mem_singleton.mpr ⟨?_, ?_, ?_⟩
    · exact List.forall_mem_singleton.mpr (Statement.decides_of_predicate rfl)
    · exact List.forall_mem_singleton.mpr fun _ => trivial
    · exact List.forall_mem_singleton.mpr fun _ _ => ⟨_, rfl⟩
  have closed' : ∀ clause ∈ clauses, clause.Closed := by
    refine List.forall_mem_singleton.mpr ⟨?_, List.forall_mem_nil _, List.forall_mem_nil _⟩
    exact List.forall_mem_singleton.mpr (Statement.decides_of_unfiltered rfl)
  refine ⟨same, ?_, (loading_order_irrelevant same _ _ _ _ _ closed closed' []).succeeds rfl⟩
  rw [Graph.toList_ofList, Graph.toList_ofList]
  decide

end TripleJoin
