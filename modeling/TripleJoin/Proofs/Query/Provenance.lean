import TripleJoin.Constraint.Comparison
import TripleJoin.Proofs.Engine.Branches
import TripleJoin.Proofs.Graph.Extension
import TripleJoin.Proofs.Matcher.Restriction
/-!
The graph that a query constructs without a template is evidence for it. It holds the triples of the
ways that matching took and nothing else, so that a build over it finds these ways again, in whatever
order they come, and makes no call that could fail now and did not fail before.
-/
namespace TripleJoin

/-- The triples of one part follow those of the parts before it. -/
theorem Query.evidence_foldl_union (queries : List Query) (built : Query) :
    (queries.foldl union built).evidence =
      built.evidence.extend (queries.flatMap fun query => query.evidence.toList) := by
  induction queries generalizing built with
  | nil => rfl
  | cons next queries ih =>
    rw [List.foldl_cons, ih, evidence, List.flatMap_cons, Graph.extend_append, Graph.union]

theorem Query.mem_evidence_of_unionOf {queries : List Query} {query : Query}
    (joined : unionOf queries = some query) {triple : Triple} :
    triple ∈ query.evidence.toList ↔ ∃ branch ∈ queries, triple ∈ branch.evidence.toList := by
  cases queries with
  | nil => cases joined
  | cons first queries =>
    cases joined
    rw [evidence_foldl_union, Graph.mem_extend, List.mem_flatMap, List.exists_mem_cons_iff]

/-- Over stores whose answers never change, a call that reads nothing of the store fails for both or
    for neither. -/
theorem Call.Silent.error?_eq {call : Call} (silent : call.Silent) {source other : Source}
    {answers answers' : Request → List Triple} (steady : source.Answers answers)
    (steady' : other.Answers answers') (asked asked' : Nat) :
    call.error? source answers asked = call.error? other answers' asked' := by
  cases call with
  | request wanted => rw [error?, error?, steady, steady', faultOf, faultOf]
  | filter pattern test triple => rfl
  | constraint rule index binding =>
    rw [error?, error?, Decision.Silent.outcome_eq silent answers answers']

theorem Run.Makes.faultless {α : Type} {source : Source} {answers : Request → List Triple}
    {run : Run QueryError α} {calls : List Call} {visits : List Visit} {result a : α}
    (makes : run.Makes source answers calls visits result)
    (settled : Call.Settled source answers calls) {journal : Journal}
    (success : (run.run.run journal).1 = .ok a) :
    ∀ call ∈ calls, ∃ asked, call.error? source answers asked = none := by
  have ending := (makes.of_ok settled success).2
  obtain fine | ⟨place, error, first⟩ := Call.faultless_or_first
  · intro call member
    obtain ⟨place, found⟩ := List.getElem?_of_mem member
    refine ⟨journal.callsTo source.name + Call.requests (calls.take place), ?_⟩
    rw [Option.eq_none_iff_forall_ne_some]
    exact fun error fails => fine place error ⟨call, found, fails⟩
  · rw [first.performed_eq] at ending
    cases ending

namespace Engine

section

variable {engine : Engine} {answers : Request → List Triple} {patterns : List Pattern}
  {initial : List (Variable × Term)} {journal : Journal} {query : Query}

theorem unionOf_of_build (steady : engine.store.Answers answers) {optionals : List Pattern}
    (success : ((engine.build patterns optionals initial).run.run journal).1 = .ok query) :
    Query.unionOf (patterns.map (engine.branchQuery answers optionals initial)) = some query := by
  cases patterns with
  | nil => cases check_of_build success
  | cons pattern patterns =>
    rw [eq_joined_of_build steady success, List.map_cons, Query.unionOf, List.foldl_map]
    rfl

theorem mem_evidence_of_build (steady : engine.store.Answers answers) {optionals : List Pattern}
    (success : ((engine.build patterns optionals initial).run.run journal).1 = .ok query)
    {triple : Triple} :
    triple ∈ query.evidence.toList ↔ ∃ pattern ∈ patterns,
      ∃ way ∈ engine.branchWays answers initial pattern, triple ∈ way.triples := by
  rw [Query.mem_evidence_of_unionOf (unionOf_of_build steady success)]
  simp only [List.mem_map, exists_exists_and_eq_and, evidence_branchQuery, Graph.mem_ofList,
    List.mem_flatMap]

theorem solutions_of_build (steady : engine.store.Answers answers)
    (success : ((engine.build patterns [] initial).run.run journal).1 = .ok query) :
    query.solutions = patterns.flatMap fun pattern =>
      (engine.branchWays answers initial pattern).map Way.binding := by
  rw [Query.solutions_of_unionOf (unionOf_of_build steady success), List.flatMap_map]
  apply List.flatMap_congr
  intro pattern _
  exact (engine.rowsOf_branchRoot_nil answers initial pattern).trans (Matcher.rows_eq_ways _ _ _ _)

end

section

variable {engine other : Engine} {answers answers' : Request → List Triple}
  {patterns : List Pattern} {initial : List (Variable × Term)}

theorem branchCalls_nil (engine : Engine) (answers : Request → List Triple)
    (initial : List (Variable × Term)) (pattern : Pattern) :
    engine.branchCalls answers [] initial pattern =
      (Matcher.mk engine.store.toSource pattern.constraints none).calls answers
        pattern.statements (.withValues pattern.unbounds initial) := by
  simp [branchCalls]

/-- If a build succeeds, so does the build over a store with fewer answers. -/
theorem yields_of_fewer (steady : engine.store.Answers answers)
    (steady' : other.store.Answers answers') (fewer : ∀ request, answers' request ⊆ answers request)
    (silent : ∀ pattern ∈ patterns, pattern.Silent) {journal : Journal} {query : Query}
    (success : ((engine.build patterns [] initial).run.run journal).1 = .ok query) :
    ∃ again, (other.build patterns [] initial).Yields again := by
  have checked := check_of_build success
  cases patterns with
  | nil => cases checked
  | cons first rest =>
    have makes := makes_build steady.answersOrFails checked initial
    have makes' := makes_build steady'.answersOrFails checked initial
    have fine : ∀ call ∈ other.calls answers' (first :: rest) [] initial,
        call.Fine other.store.toSource answers' := by
      intro call member asked
      obtain ⟨pattern, listed, called⟩ := List.mem_flatMap.mp member
      rw [branchCalls_nil] at called
      have before : call ∈ engine.calls answers (first :: rest) [] initial := by
        refine List.mem_flatMap.mpr ⟨pattern, listed, ?_⟩
        rw [branchCalls_nil]
        exact Matcher.calls_subset fewer (silent pattern listed) _ _ called
      obtain ⟨asked', none⟩ := makes.faultless (Or.inl steady) success call before
      have unseen := Matcher.silent_calls (silent pattern listed) _ _ call called
      rwa [unseen.error?_eq steady' steady asked asked']
    exact ⟨_, makes'.yields (Or.inl steady') fine⟩

end

end Engine

theorem Graph.matching_subset {held graph : Graph} (fewer : held.toList ⊆ graph.toList)
    (request : Request) : held.matching request ⊆ graph.matching request := by
  rw [matching_eq_filter, matching_eq_filter]
  intro triple member
  obtain ⟨stored, met⟩ := List.mem_filter.mp member
  exact List.mem_filter.mpr ⟨fewer stored, met⟩

/-- The patterns give over `held` what the query has given over the graph: `held` is part of the
    graph, and a build over it has the same solutions, each as often, and constructs just `held`. -/
structure Query.RestsOn (query : Query) (held graph : Graph) (patterns : List Pattern)
    (initial : List (Variable × Term)) (config : Config) : Prop where
  part : held.toList ⊆ graph.toList
  again : ∀ name watched, ∃ again,
    ((Engine.mk (.ofGraph name held watched) config).build patterns [] initial).Yields again ∧
      again.solutions.Perm query.solutions ∧ ∀ call before triple,
        triple ∈ ((again.construct none call).run before).1.toList ↔ triple ∈ held.toList

theorem Query.restsOn_evidence {name : String} {graph : Graph} {watched : Bool} {config : Config}
    {patterns : List Pattern} (silent : ∀ pattern ∈ patterns, pattern.Silent)
    {initial : List (Variable × Term)} {journal : Journal} {query : Query}
    (success : (((Engine.mk (.ofGraph name graph watched) config).build patterns []
      initial).run.run journal).1 = .ok query) :
    query.RestsOn query.evidence graph patterns initial config := by
  let engine : Engine := ⟨.ofGraph name graph watched, config⟩
  have steady : engine.store.Answers graph.matching := answers_ofGraph name graph watched
  have evidence : ∀ triple, triple ∈ query.evidence.toList ↔ ∃ pattern ∈ patterns,
      ∃ way ∈ engine.branchWays graph.matching initial pattern, triple ∈ way.triples :=
    fun triple => Engine.mem_evidence_of_build steady success
  have part : query.evidence.toList ⊆ graph.toList := by
    intro triple member
    obtain ⟨pattern, _, way, taken, inside⟩ := (evidence triple).mp member
    exact Matcher.held_of_mem_ways (fun _ _ => Graph.mem_of_mem_matching) taken triple inside
  refine ⟨part, fun name' watched' => ?_⟩
  let other : Engine := ⟨.ofGraph name' query.evidence watched', config⟩
  have steady' : other.store.Answers query.evidence.matching :=
    answers_ofGraph name' query.evidence watched'
  obtain ⟨again, yields⟩ := Engine.yields_of_fewer steady steady' (Graph.matching_subset part)
    silent success
  obtain ⟨after, ran⟩ := yields Journal.empty
  have success' := congrArg Prod.fst ran
  have ways : ∀ pattern ∈ patterns,
      (other.branchWays query.evidence.matching initial pattern).Perm
        (engine.branchWays graph.matching initial pattern) := by
    intro pattern listed
    refine Matcher.ways_perm_of_held (silent pattern listed) _ _ part ?_
    exact fun way taken triple inside => (evidence triple).mpr ⟨pattern, listed, way, taken, inside⟩
  refine ⟨again, yields, ?_, fun call before triple => ?_⟩
  · rw [Engine.solutions_of_build steady success, Engine.solutions_of_build steady' success']
    exact List.Perm.flatMap_left _ fun pattern listed => (ways pattern listed).map _
  · refine (Engine.mem_evidence_of_build steady' success').trans (Iff.trans ?_ (evidence triple).symm)
    refine exists_congr fun pattern => and_congr_right fun listed => ?_
    exact exists_congr fun way => and_congr_left fun _ => (ways pattern listed).mem_iff

/-- The graph that a query without optional clauses constructs is evidence enough for the query, if
    no constraint asks the store. Such a query is there if no filter and no constraint fails. -/
theorem evidence_suffices (name : String) (graph : Graph) (watched : Bool) (config : Config)
    {patterns : List Pattern} (silent : ∀ pattern ∈ patterns, pattern.Silent)
    (initial : List (Variable × Term)) :
    (patterns ≠ [] → (∀ pattern ∈ patterns, pattern.isEmpty = false) →
      (∀ pattern ∈ patterns, pattern.Decides graph.matching) → ∃ query,
        ((Engine.mk (.ofGraph name graph watched) config).build patterns [] initial).Yields
          query) ∧
    ∀ journal query, (((Engine.mk (.ofGraph name graph watched) config).build patterns []
      initial).run.run journal).1 = .ok query → ∀ call before,
        query.RestsOn ((query.construct none call).run before).1 graph patterns initial
          config := by
  constructor
  · intro filled stated decides
    have checked : Engine.check patterns [] = .ok () := Engine.check_iff_each.mpr
      ⟨filled, fun pattern listed => Engine.check_single (stated pattern listed) rfl⟩
    cases patterns with
    | nil => cases checked
    | cons first rest =>
      exact ⟨_, Engine.yields_build_branches (answers_ofGraph name graph watched) checked decides
        (List.forall_mem_nil _) initial⟩
  · exact fun journal query success _ _ => Query.restsOn_evidence silent success

/-- Of three links the loop and the one behind it are evidence; the link to the loop breaks the
    constraint. -/
theorem evidence_suffices_of_loop :
    let link := Sample.link
    let linked := Sample.linked
    let graph := Graph.ofList [link "a" "b", link "b" "b", link "b" "c"]
    let patterns := [(Pattern.ofStatements [linked "x" "y", linked "y" "z"]).constrain
      [.test ⟨"x"⟩ fun term => term = .iri "b"], Pattern.ofStatements [linked "x" "x"]]
    (∀ pattern ∈ patterns, pattern.Silent) ∧ ∃ query,
      (((Engine.mk (.ofGraph "memory" graph true) {}).build patterns [] []).run.run
        Journal.empty).1 = .ok query ∧
      query.solutions.length = 3 ∧
      ((query.construct none 1).run Journal.empty).1.toList = [link "b" "b", link "b" "c"] ∧
      query.RestsOn ((query.construct none 1).run Journal.empty).1 graph patterns [] {} := by
  intro link linked graph patterns
  let engine : Engine := ⟨.ofGraph "memory" graph true, {}⟩
  have silent : ∀ pattern ∈ patterns, pattern.Silent := by
    refine List.forall_mem_cons.mpr ⟨?_, List.forall_mem_singleton.mpr (List.forall_mem_nil _)⟩
    exact List.forall_mem_singleton.mpr fun _ => trivial
  have decides : ∀ pattern ∈ patterns, pattern.Decides graph.matching := by
    refine List.forall_mem_cons.mpr ⟨⟨?_, ?_⟩, List.forall_mem_singleton.mpr ?_⟩
    · exact List.forall_mem_cons.mpr ⟨Statement.decides_of_unfiltered rfl,
        List.forall_mem_singleton.mpr (Statement.decides_of_unfiltered rfl)⟩
    · exact List.forall_mem_singleton.mpr fun _ => ⟨_, rfl⟩
    · exact Pattern.decides_of_plain _ (List.forall_mem_singleton.mpr rfl) rfl
  have steady : engine.store.Answers graph.matching := answers_ofGraph _ _ _
  obtain ⟨after, ran⟩ := Engine.yields_build_branches steady rfl decides (List.forall_mem_nil _) []
    Journal.empty
  have success := congrArg Prod.fst ran
  refine ⟨silent, _, success, ?_, ?_,
    (evidence_suffices _ _ _ _ silent []).2 _ _ success 1 Journal.empty⟩
  · simp only [Engine.joined, List.foldl_cons, List.foldl_nil, Engine.branchQuery, Query.solutions,
      Engine.branchRoot, graph, funext (Graph.matching_eq_filter _), Graph.toList_ofList]
    decide
  · have constructed (query : Query) :
        ((query.construct none 1).run Journal.empty).1 = query.evidence := rfl
    rw [constructed, Engine.joined, List.foldl_cons, List.foldl_nil, Query.evidence, Graph.union,
      Graph.toList_extend, Engine.toList_evidence, Engine.toList_evidence]
    simp only [Engine.branchWays, engine, graph, funext (Graph.matching_eq_filter _),
      Graph.toList_ofList]
    decide

end TripleJoin
