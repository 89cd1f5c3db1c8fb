import TripleJoin.Proofs.Engine.FailFast
import TripleJoin.Proofs.Join.Inner
import TripleJoin.Proofs.Matcher.Covering
/-!
The engine trusts a store to be complete and to keep the order of the graph, and nothing else. Over a
store that answers too much every expansion, and so the whole build, goes in step with the one over the
graph itself: the trees, the numbers of nodes and the events are the same, and what a query reads from
its trees is too.
-/
namespace TripleJoin

namespace Query

theorem solutions_withStore (store : Store) (query : Query) :
    (query.withStore store).solutions = query.solutions := by
  induction query with
  | tree root kept nulls => rfl
  | union first second ih ih' => rw [withStore, solutions, solutions, ih, ih']

theorem evidence_withStore (store : Store) (query : Query) :
    (query.withStore store).evidence = query.evidence := by
  induction query with
  | tree root kept nulls => rfl
  | union first second ih ih' => rw [withStore, evidence, evidence, ih, ih']

/-- A graph is constructed from the trees alone. -/
theorem construct_withStore (store : Store) (query : Query) (template : Option Pattern)
    (call : UInt64) :
    (query.withStore store).construct template call = query.construct template call := by
  simp only [construct, solutions_withStore, evidence_withStore]

end Query

namespace Engine

section

variable {store exact : Store} {graph : Graph} {config : Config} {optionals : List Pattern}

theorem inStep_closeBranch (branch explored clauses : Nat) (root : Option Tree) :
    ((Engine.mk store config).closeBranch branch explored clauses root).InStep
      (Query.withStore store <$>
        (Engine.mk exact config).closeBranch branch explored clauses root) := by
  unfold closeBranch
  split
  · refine Run.InStep.after_step_map (Logged.inStep_report _) fun _ => ?_
    exact Run.InStep.after_step_map (Logged.inStep_report _) fun _ => Run.inStep_pure _
  · exact Run.InStep.after_step_map (Logged.inStep_report _) fun _ => Run.inStep_pure _

variable (covers : store.Covers graph) (steady : exact.Answers graph.matching)
  (silent_clauses : ∀ clause ∈ optionals, clause.Silent)
  (filters_clauses : ∀ clause ∈ optionals, ∀ statement ∈ clause.statements, statement.Decides)

include covers steady silent_clauses filters_clauses

theorem inStep_buildBranch {pattern : Pattern} (silent : pattern.Silent)
    (filters : ∀ statement ∈ pattern.statements, statement.Decides)
    (initial : List (Variable × Term)) (branch : Nat) :
    ((Engine.mk store config).buildBranch optionals initial branch pattern).InStep
      (Query.withStore store <$>
        (Engine.mk exact config).buildBranch optionals initial branch pattern) := by
  refine Run.InStep.after_step_map Logged.inStep_nodesSoFar fun before => ?_
  refine (Matcher.inStep_expandFrom covers steady silent filters _ none).bind_map
    fun expanded => ?_
  refine Run.InStep.after_step_map Logged.inStep_nodesSoFar fun after => ?_
  cases expanded with
  | none => exact (Run.inStep_pure none).bind_map fun root => inStep_closeBranch branch _ _ root
  | some tree =>
    have attached := Tree.inStep_attach covers steady silent_clauses filters_clauses tree
    exact (attached.map some).bind_map fun root => inStep_closeBranch branch _ _ root

theorem inStep_buildFrom {patterns : List Pattern} (silent : ∀ pattern ∈ patterns, pattern.Silent)
    (filters : ∀ pattern ∈ patterns, ∀ statement ∈ pattern.statements, statement.Decides)
    (initial : List (Variable × Term)) (built : Query) (branch : Nat) :
    ((Engine.mk store config).buildFrom optionals initial (built.withStore store) branch
        patterns).InStep
      (Query.withStore store <$>
        (Engine.mk exact config).buildFrom optionals initial built branch patterns) := by
  induction patterns generalizing built branch with
  | nil => exact Run.inStep_pure _
  | cons pattern patterns ih =>
    rw [List.forall_mem_cons] at silent filters
    rw [buildFrom, buildFrom, map_bind]
    refine (inStep_buildBranch covers steady silent_clauses filters_clauses silent.1 filters.1
      initial branch).bind_of_map fun query => ?_
    exact ih silent.2 filters.2 (built.union query) (branch + 1)

theorem inStep_build {patterns : List Pattern} (silent : ∀ pattern ∈ patterns, pattern.Silent)
    (filters : ∀ pattern ∈ patterns, ∀ statement ∈ pattern.statements, statement.Decides)
    (initial : List (Variable × Term)) :
    ((Engine.mk store config).build patterns optionals initial).InStep
      (Query.withStore store <$> (Engine.mk exact config).build patterns optionals initial) := by
  refine ((Run.inStep_ofExcept (check patterns optionals)).adapt _).bind_map fun _ => ?_
  cases patterns with
  | nil => exact Run.inStep_ofExcept _
  | cons pattern patterns =>
    rw [List.forall_mem_cons] at silent filters
    dsimp only
    rw [map_bind]
    refine (inStep_buildBranch covers steady silent_clauses filters_clauses silent.1 filters.1
      initial 0).bind_of_map fun query => ?_
    exact inStep_buildFrom covers steady silent_clauses filters_clauses silent.2 filters.2 initial
      query 1

end

/-- Two engines whose builds go in step, expansion by expansion: the trees of main patterns and of
    clauses are the same, with as many nodes, and so are the queries but for the store they keep. -/
structure BuildsInStep (engine exact : Engine) (patterns optionals : List Pattern)
    (initial : List (Variable × Term)) : Prop where
  mains : ∀ pattern ∈ patterns, ∀ start : Binding,
    ((Matcher.mk engine.store.toSource pattern.constraints none).expand start
        pattern.statements).InStep
      ((Matcher.mk exact.store.toSource pattern.constraints none).expand start pattern.statements)
  clauses : ∀ clause ∈ optionals, ∀ leaf start : Binding,
    ((Matcher.mk engine.store.toSource clause.constraints (some leaf)).expand start
        (clause.substitute leaf).statements).InStep
      ((Matcher.mk exact.store.toSource clause.constraints (some leaf)).expand start
        (clause.substitute leaf).statements)
  build : (engine.build patterns optionals initial).InStep
    (Query.withStore engine.store <$> exact.build patterns optionals initial)

/-- Both builds end with a query, and the two have the same solutions and construct the same graphs. -/
structure SameQueries (engine exact : Engine) (patterns optionals : List Pattern)
    (initial : List (Variable × Term)) (query : Query) : Prop where
  exact_built : (exact.build patterns optionals initial).Yields query
  built : (engine.build patterns optionals initial).Yields (query.withStore engine.store)
  solutions : (query.withStore engine.store).solutions = query.solutions
  constructed : ∀ template call,
    (query.withStore engine.store).construct template call = query.construct template call

end Engine

/-- A store need only be complete and keep the order of the graph: what else it answers changes no tree,
    no number of nodes and nothing that is read from a query. -/
theorem covering_store_suffices {store : Store} {graph : Graph} (covers : store.Covers graph)
    (name : String) (watched : Bool) (config : Config) {patterns optionals : List Pattern}
    (filters : ∀ pattern ∈ patterns ++ optionals,
      ∀ statement ∈ pattern.statements, statement.Decides)
    (silent : ∀ pattern ∈ patterns ++ optionals, pattern.Silent)
    (initial : List (Variable × Term)) :
    let engine : Engine := ⟨store, config⟩
    let exact : Engine := ⟨.ofGraph name graph watched, config⟩
    engine.BuildsInStep exact patterns optionals initial ∧
      (Engine.check patterns optionals = .ok () →
        (∀ pattern ∈ patterns ++ optionals, ∀ constraint ∈ pattern.constraints,
          constraint.Decides graph.matching) →
        ∃ query, engine.SameQueries exact patterns optionals initial query) := by
  intro engine exact
  have steady : exact.store.Answers graph.matching := answers_ofGraph name graph watched
  obtain ⟨filters_mains, filters_clauses⟩ := List.forall_mem_append.mp filters
  obtain ⟨silent_mains, silent_clauses⟩ := List.forall_mem_append.mp silent
  have build : (engine.build patterns optionals initial).InStep
      (Query.withStore store <$> exact.build patterns optionals initial) :=
    Engine.inStep_build covers steady silent_clauses filters_clauses silent_mains filters_mains
      initial
  refine ⟨⟨?_, ?_, build⟩, fun checked constraints => ?_⟩
  · intro pattern member start
    exact Matcher.inStep_expandFrom covers steady (silent_mains pattern member)
      (filters_mains pattern member) start none
  · intro clause member leaf start
    refine Matcher.inStep_expandFrom covers steady (silent_clauses clause member) ?_ start none
    exact List.forall_mem_map.mpr fun statement stated =>
      (filters_clauses clause member statement stated).substitute leaf
  · have decides : ∀ pattern ∈ patterns ++ optionals, pattern.Decides graph.matching :=
      fun pattern member => ⟨filters pattern member, constraints pattern member⟩
    obtain ⟨decide_mains, decide_clauses⟩ := List.forall_mem_append.mp decides
    cases patterns with
    | nil => cases checked
    | cons pattern patterns =>
      have built := Engine.yields_build_branches steady checked decide_mains
        decide_clauses initial
      exact ⟨_, built, build.yields (built.map _), Query.solutions_withStore ..,
        fun _ _ => Query.construct_withStore ..⟩

/-- The store answers every request with all triples. One branch has a variable twice in a statement,
    the other a filter; a clause has a constraint on what it binds. -/
theorem covering_store_suffices_unselective :
    let link := Sample.link
    let linked := Sample.linked
    let graph := Graph.ofList [link "a" "a", link "a" "b", link "b" "c", link "c" "a"]
    let engine : Engine := ⟨.unselective "all" graph false, {}⟩
    let exact : Engine := ⟨.ofGraph "memory" graph true, {}⟩
    let patterns := [Pattern.ofStatements [linked "x" "x", linked "x" "y"],
      .ofStatements [{ linked "x" "y" with filter := some (.before .subject (.iri "c")) }]]
    let optionals := [(Pattern.ofStatements [linked "y" "z", linked "z" "x"]).constrain
      [.ofPredicate fun binding => binding.get? ⟨"z"⟩ != binding.get? ⟨"x"⟩]]
    engine.BuildsInStep exact patterns optionals [(⟨"y"⟩, .iri "b")] ∧
      ∃ query, engine.SameQueries exact patterns optionals [(⟨"y"⟩, .iri "b")] query := by
  intro link linked graph engine exact patterns optionals
  have unfiltered : ∀ subject object, (linked subject object).Decides :=
    fun _ _ => Statement.decides_of_unfiltered rfl
  have filters : ∀ pattern ∈ patterns ++ optionals,
      ∀ statement ∈ pattern.statements, statement.Decides := by
    refine List.forall_mem_cons.mpr ⟨?_, List.forall_mem_cons.mpr ⟨?_,
      List.forall_mem_singleton.mpr ?_⟩⟩
    · exact List.forall_mem_cons.mpr ⟨unfiltered "x" "x",
        List.forall_mem_singleton.mpr (unfiltered "x" "y")⟩
    · exact List.forall_mem_singleton.mpr (Statement.decides_of_predicate rfl)
    · exact List.forall_mem_cons.mpr ⟨unfiltered "y" "z",
        List.forall_mem_singleton.mpr (unfiltered "z" "x")⟩
  have silent : ∀ pattern ∈ patterns ++ optionals, pattern.Silent := by
    refine List.forall_mem_cons.mpr ⟨List.forall_mem_nil _, List.forall_mem_cons.mpr
      ⟨List.forall_mem_nil _, List.forall_mem_singleton.mpr ?_⟩⟩
    exact List.forall_mem_singleton.mpr fun _ => trivial
  have same := covering_store_suffices (Store.covers_unselective "all" graph false) "memory" true {}
    filters silent [(⟨"y"⟩, .iri "b")]
  refine ⟨same.1, same.2 rfl ?_⟩
  refine List.forall_mem_cons.mpr ⟨List.forall_mem_nil _, List.forall_mem_cons.mpr
    ⟨List.forall_mem_nil _, List.forall_mem_singleton.mpr ?_⟩⟩
  exact List.forall_mem_singleton.mpr fun _ => ⟨_, rfl⟩

end TripleJoin
