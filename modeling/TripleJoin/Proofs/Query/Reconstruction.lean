import TripleJoin.Proofs.Graph.Extension
import TripleJoin.Proofs.Join.Distinctness
/-!
A pattern without blank nodes of its own, used as a template for its own solutions, gives back the
triples that it matched. Under every solution each statement is the triple that was taken for it,
since optional clauses leave the values of the main pattern alone, and the repeated rows of optional
clauses give no triple a new place.
-/
namespace TripleJoin

section

variable {source : Source} {answers : Request → List Triple} {leaf row : Binding}

/-- The rows that one leaf contributes, with the clauses joined in. -/
def Tree.rowsAt (source : Source) (answers : Request → List Triple) (clauses : List Pattern)
    (leaf : Binding) : List Binding :=
  (clauses.map fun clause => rowsOf (clauseTree source answers leaf clause)).foldl leftJoin [leaf]

theorem Tree.extends_of_mem_rowsAt {clauses : List Pattern} (complete : leaf.isComplete = true)
    (member : row ∈ rowsAt source answers clauses leaf) : row.Extends leaf := by
  have listed := List.mem_map_of_mem (f := Binding.get?) member
  rw [rowsAt, map_get?_foldl_leftJoin, List.map_singleton, ← Valuation.outerRows] at listed
  refine Valuation.extends_of_apart ?_ row.get? listed
  simp only [List.forall_mem_map]
  exact fun clause _ => leaf_apart complete clause

theorem leftJoin_ne_nil {rows : List Binding} (filled : rows ≠ []) (extra : List Binding) :
    leftJoin rows extra ≠ [] := by
  unfold leftJoin
  split
  · exact filled
  · rename_i some
    obtain ⟨first, rest, rfl⟩ := List.exists_cons_of_ne_nil filled
    simp_all

theorem Tree.rowsAt_ne_nil (clauses : List Pattern) : rowsAt source answers clauses leaf ≠ [] := by
  have step : ∀ rows : List Binding, rows ≠ [] →
      (clauses.map fun clause => rowsOf (clauseTree source answers leaf clause)).foldl leftJoin
        rows ≠ [] := by
    induction clauses with
    | nil => exact fun _ filled => filled
    | cons clause clauses ih => exact fun rows filled => ih _ (leftJoin_ne_nil filled _)
  exact step [leaf] (List.cons_ne_nil leaf [])

end

theorem TriplePattern.instantiate_of_fixed {pattern : TriplePattern} {solution : Binding}
    {triple : Triple} (fixed : pattern.substitute solution = .ofTriple triple)
    (subject : triple.subject.isSubject = true) :
    pattern.instantiate (fun slot => (slot.substitute solution).fixed?) = some triple := by
  simp only [substitute, ofTriple, mk.injEq] at fixed
  obtain ⟨subjects, predicates, objects⟩ := fixed
  simp [instantiate, subjects, predicates, objects, Slot.fixed?, Option.filter, subject]

namespace Template

variable {template : Pattern}

/-- Without labels of its own a template fills its slots in from the solution alone. -/
theorem resolve_of_unlabelled (unlabelled : template.labels = []) (call : UInt64) (row : Nat)
    (solution : Binding) (slot : Slot) :
    resolve template call row solution slot = (slot.substitute solution).fixed? := by
  cases slot with
  | free v =>
    rw [resolve, Slot.substitute]
    cases solution.get? v <;> rfl
  | fixed term =>
    cases term with
    | blank label => simp [resolve, Pattern.owns, unlabelled, Slot.substitute, Slot.fixed?]
    | iri text => rfl
    | literal value => rfl

theorem instantiateRow_of_spells (unlabelled : template.labels = []) {way : Way}
    (spells : way.Spells template.statements)
    (subjects : ∀ triple ∈ way.triples, triple.subject.isSubject = true) {solution : Binding}
    (kept : solution.Extends way.binding) (call : UInt64) (row : Nat) :
    instantiateRow template call row solution = way.triples := by
  rw [instantiateRow, funext (resolve_of_unlabelled unlabelled call row solution)]
  obtain ⟨triples, binding⟩ := way
  simp only [Way.Spells] at spells subjects kept ⊢
  generalize template.statements = statements at spells ⊢
  induction spells with
  | nil => rfl
  | cons spelled _ ih =>
    rw [List.forall_mem_cons] at subjects
    have first := TriplePattern.instantiate_of_fixed
      (TriplePattern.substitute_of_extends kept spelled) subjects.1
    simp only [List.filterMap_cons, first, ih subjects.2]

theorem instantiate_of_unlabelled (unlabelled : template.labels = []) (call : UInt64)
    (solutions : List Binding) :
    instantiate template call solutions =
      .ofList (solutions.flatMap (instantiateRow template call 0)) := by
  have each : ∀ row solution, instantiateRow template call row solution =
      instantiateRow template call 0 solution := by
    intro row solution
    rw [instantiateRow, instantiateRow, funext (resolve_of_unlabelled unlabelled call row solution),
      funext (resolve_of_unlabelled unlabelled call 0 solution)]
  simp only [instantiate, each]
  rw [← List.flatMap_map, List.zipIdx_map_fst]

end Template

section

variable {engine : Engine} {graph : Graph} {pattern : Pattern} (clauses : List Pattern)
  (initial : List (Variable × Term))

theorem Engine.solutions_branchQuery (engine : Engine) (answers : Request → List Triple)
    (pattern : Pattern) :
    (engine.branchQuery answers clauses initial pattern).solutions =
      (engine.branchWays answers initial pattern).flatMap fun way =>
        Tree.rowsAt engine.store.toSource answers clauses way.binding := by
  have rows := engine.rowsOf_branchRoot answers clauses initial pattern
  rw [Matcher.rows_eq_ways, List.flatMap_map] at rows
  exact rows

theorem Engine.instantiate_branchQuery (built : pattern.Built) (unlabelled : pattern.labels = [])
    (subjects : ∀ triple ∈ graph.toList, triple.subject.isSubject = true) (call : UInt64) :
    Template.instantiate pattern call
        (engine.branchQuery graph.matching clauses initial pattern).solutions =
      (engine.branchQuery graph.matching clauses initial pattern).evidence := by
  have each : ∀ way ∈ engine.branchWays graph.matching initial pattern,
      (Tree.rowsAt engine.store.toSource graph.matching clauses way.binding).flatMap
          (Template.instantiateRow pattern call 0) =
        (Tree.rowsAt engine.store.toSource graph.matching clauses way.binding).flatMap
          fun _ => way.triples := by
    intro way member
    have spells := Matcher.spells_of_mem_ways (built.covers initial) member
    have held := Matcher.held_of_mem_ways (fun _ _ => Graph.mem_of_mem_matching) member
    have complete := Matcher.complete_of_mem_ways member
    apply List.flatMap_congr
    intro solution listed
    exact Template.instantiateRow_of_spells unlabelled spells
      (fun triple taken => subjects triple (held triple taken))
      (Tree.extends_of_mem_rowsAt complete listed) call 0
  rw [Template.instantiate_of_unlabelled unlabelled, solutions_branchQuery, List.flatMap_assoc,
    List.flatMap_congr each, evidence_branchQuery]
  exact Graph.extend_repeated _ _ (fun way => Tree.rowsAt_ne_nil clauses) _

end

/-- Over a graph without literal subjects, a pattern that declares no blank nodes constructs from its
    own solutions the graph that its query has matched, with the same order and the same report. -/
theorem constructs_agree (name : String) (graph : Graph) (watched : Bool) (config : Config)
    (subjects : ∀ triple ∈ graph.toList, triple.subject.isSubject = true) {pattern : Pattern}
    (built : pattern.Built) (unlabelled : pattern.labels = []) {clauses : List Pattern}
    {initial : List (Variable × Term)} {journal : Journal} {query : Query}
    (success : (((Engine.mk (.ofGraph name graph watched) config).build [pattern] clauses
      initial).run.run journal).1 = .ok query) (call call' : UInt64) :
    query.construct none call = query.construct (some pattern) call' := by
  let engine : Engine := ⟨.ofGraph name graph watched, config⟩
  have same : query = engine.branchQuery graph.matching clauses initial pattern :=
    engine.eq_joined_of_build (answers_ofGraph name graph watched) success
  have rebuilt := engine.instantiate_branchQuery clauses initial built unlabelled subjects call'
  rw [← same] at rebuilt
  simp only [Query.construct, rebuilt]

/-- Two ways through a cycle; a clause gives the second of them two rows. -/
theorem constructs_agree_of_cycle :
    let link := Sample.link
    let linked := Sample.linked
    let main := Pattern.ofStatements [linked "x" "y", linked "y" "x"]
    ∃ query, (((Engine.mk (.ofGraph "memory"
        (.ofList [link "a" "b", link "b" "a", link "b" "c"]) true) {}).build
          [main] [.ofStatements [linked "x" "z"]] []).run.run Journal.empty).1 = .ok query ∧
      query.solutions.length = 3 ∧ query.evidence.toList = [link "a" "b", link "b" "a"] ∧
      query.construct none 1 = query.construct (some main) 2 := by
  intro link linked main
  let engine : Engine := ⟨.ofGraph "memory"
    (.ofList [link "a" "b", link "b" "a", link "b" "c"]) true, {}⟩
  have steady : engine.store.Answers _ := answers_ofGraph _ _ _
  let clause := Pattern.ofStatements [linked "x" "z"]
  have plain : ∀ answers, main.Decides answers ∧ clause.Decides answers :=
    fun answers => ⟨Pattern.decides_of_plain answers (by decide) rfl,
      Pattern.decides_of_plain answers (by decide) rfl⟩
  obtain ⟨after, ran⟩ := Engine.yields_build steady rfl rfl (plain _).1
    (List.forall_mem_singleton.mpr (plain _).2) [] Journal.empty
  have success := congrArg Prod.fst ran
  refine ⟨_, success, ?_, ?_,
    constructs_agree _ _ _ _ ?_ (Pattern.built_ofStatements _) rfl success 1 2⟩
  · simp only [Query.solutions, Engine.branchRoot, funext (Graph.matching_eq_filter _),
      Graph.toList_ofList]
    decide
  · refine (engine.toList_evidence _ _ _ _).trans ?_
    simp only [Engine.branchWays, engine, funext (Graph.matching_eq_filter _),
      Graph.toList_ofList]
    decide
  · rw [Graph.toList_ofList]
    decide

end TripleJoin
