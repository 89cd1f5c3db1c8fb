import TripleJoin.Proofs.Engine.Faults
import TripleJoin.Proofs.Graph.Refinement
import TripleJoin.Proofs.Matcher.Lenient
/-!
A build fails fast. It makes the calls of the build in which nothing fails, in the same order, until
one of them fails; then it ends with the error of that call. If none fails it ends with the query of
the other build.
-/
namespace TripleJoin

/-- The same query, kept with another store. -/
def Query.withStore (store : Store) : Query → Query
  | tree root _ nulls => tree root store nulls
  | union first second => union (first.withStore store) (second.withStore store)

theorem Pattern.hasAt_lenient {clauses : List Pattern} {place : Nat} {v : Variable} :
    HasAt (clauses.map lenient) place v ↔ HasAt clauses place v := by
  unfold HasAt
  rw [List.getElem?_map]
  cases clauses[place]? with
  | none => simp
  | some clause => simp [lenient]

theorem Pattern.Sound.lenient {pattern : Pattern} {optionals : List Pattern}
    (sound : pattern.Sound optionals) : pattern.lenient.Sound (optionals.map Pattern.lenient) := by
  constructor
  · exact fun bare => sound.stated (List.map_eq_nil_iff.mp bare)
  · intro v clause earlier contested
    exact sound.uncontested v clause earlier ⟨contested.before, contested.outside,
      hasAt_lenient.mp contested.here, hasAt_lenient.mp contested.there⟩

namespace Engine

/-- The engine over the whole graph, which always answers. -/
def lenient (engine : Engine) (graph : Graph) : Engine :=
  { engine with store := .ofGraph engine.store.name graph engine.store.watched }

section

variable {engine : Engine} {graph : Graph} {answers : Request → List Triple}
  {patterns optionals : List Pattern}

theorem check_lenient (checked : check patterns optionals = .ok ()) :
    check (patterns.map Pattern.lenient) (optionals.map Pattern.lenient) = .ok () := by
  rw [check_eq_ok_iff] at checked ⊢
  constructor
  · exact fun bare => checked.1 (List.map_eq_nil_iff.mp bare)
  · intro pattern member
    obtain ⟨original, listed, same⟩ := List.mem_map.mp member
    exact same ▸ (checked.2 original listed).lenient

variable (engine graph answers)

theorem branchRoot_lenient (initial : List (Variable × Term)) (pattern : Pattern) :
    (engine.lenient graph).branchRoot answers (optionals.map Pattern.lenient) initial
      pattern.lenient = engine.branchRoot answers optionals initial pattern := by
  have clauses : (fun leaf => (optionals.map Pattern.lenient).filterMap
      (Tree.clauseTree (engine.lenient graph).store.toSource answers leaf)) =
        fun leaf => optionals.filterMap (Tree.clauseTree engine.store.toSource answers leaf) := by
    funext leaf
    rw [List.filterMap_map]
    exact congrArg (List.filterMap · optionals) (funext fun clause =>
      Tree.clauseTree_lenient leaf clause)
  unfold branchRoot
  rw [clauses]
  exact congrArg (Option.map _) ((Matcher.mk engine.store.toSource pattern.constraints
    none).grow_lenient pattern.statements _ none)

theorem branchQuery_lenient (initial : List (Variable × Term)) (pattern : Pattern) :
    ((engine.lenient graph).branchQuery answers (optionals.map Pattern.lenient) initial
      pattern.lenient).withStore engine.store =
        engine.branchQuery answers optionals initial pattern := by
  unfold branchQuery
  rw [branchRoot_lenient]
  rfl

theorem branchCalls_lenient (initial : List (Variable × Term)) (pattern : Pattern) :
    (engine.lenient graph).branchCalls answers (optionals.map Pattern.lenient) initial
      pattern.lenient =
        (engine.branchCalls answers optionals initial pattern).map Call.lenient := by
  let matcher : Matcher := ⟨engine.store.toSource, pattern.constraints, none⟩
  let start := Binding.withValues pattern.unbounds initial
  have clauses : ∀ leaf, (optionals.map Pattern.lenient).flatMap
      (Tree.clauseCalls (engine.lenient graph).store.toSource answers leaf) =
        (optionals.flatMap (Tree.clauseCalls engine.store.toSource answers leaf)).map
          Call.lenient := by
    intro leaf
    rw [List.flatMap_map, List.map_flatMap]
    exact congrArg (List.flatMap · optionals) (funext fun clause =>
      Tree.clauseCalls_lenient leaf clause)
  have leaves : ((matcher.lenient (engine.lenient graph).store.toSource).grow answers
      pattern.lenient.statements start none).map Tree.boundLeaves =
        (matcher.grow answers pattern.statements start none).map Tree.boundLeaves :=
    congrArg _ (matcher.grow_lenient pattern.statements start none)
  unfold branchCalls
  rw [List.map_append, List.map_flatMap]
  simp only [clauses]
  congr 1
  · exact matcher.calls_lenient pattern.statements start
  · exact congrArg (fun found => List.flatMap _ (found.getD [])) leaves

theorem calls_lenient (initial : List (Variable × Term)) :
    (engine.lenient graph).calls answers (patterns.map Pattern.lenient)
      (optionals.map Pattern.lenient) initial =
        (engine.calls answers patterns optionals initial).map Call.lenient := by
  unfold calls
  rw [List.flatMap_map, List.map_flatMap]
  exact congrArg (List.flatMap · patterns) (funext fun pattern =>
    engine.branchCalls_lenient graph answers initial pattern)

theorem joined_lenient (initial : List (Variable × Term)) (built : Query) :
    ((engine.lenient graph).joined answers (optionals.map Pattern.lenient) initial built
      (patterns.map Pattern.lenient)).withStore engine.store =
        engine.joined answers optionals initial (built.withStore engine.store) patterns := by
  induction patterns generalizing built with
  | nil => rfl
  | cons pattern patterns ih =>
    refine (ih _).trans (congrArg (engine.joined answers optionals initial · patterns) ?_)
    exact congrArg (Query.union _) (engine.branchQuery_lenient graph answers initial pattern)

end

/-- The two builds make the same calls for the same query, each with its own store. -/
theorem exists_both_make {engine : Engine} {graph : Graph} {patterns optionals : List Pattern}
    (checked : check patterns optionals = .ok ())
    (answered : engine.store.AnswersOrFails graph.matching) (initial : List (Variable × Term)) :
    ∃ query visits visits',
      ((engine.lenient graph).build (patterns.map Pattern.lenient)
        (optionals.map Pattern.lenient) initial).Makes (engine.lenient graph).store.toSource
        graph.matching ((engine.calls graph.matching patterns optionals initial).map Call.lenient)
        visits query ∧
      (engine.build patterns optionals initial).Makes engine.store.toSource graph.matching
        (engine.calls graph.matching patterns optionals initial) visits'
        (query.withStore engine.store) := by
  cases patterns with
  | nil => cases checked
  | cons pattern patterns =>
    have steady : (engine.lenient graph).store.Answers graph.matching := fun _ _ => rfl
    have lenient := makes_build steady.answersOrFails (check_lenient checked) initial
    -- as a list of both, so that the calls are those of the original patterns
    rw [← List.map_cons (f := Pattern.lenient), calls_lenient] at lenient
    refine ⟨_, _, engine.visits graph.matching (pattern :: patterns) optionals initial, lenient, ?_⟩
    rw [joined_lenient, branchQuery_lenient]
    exact makes_build answered checked initial

/-- A build beside the build in which nothing fails: the store answers from the graph, and a
    callback that would fail answers no. -/
structure FailsFast (engine : Engine) (graph : Graph) (patterns optionals : List Pattern)
    (initial : List (Variable × Term)) (calls : List Call) (query : Query) : Prop where
  lenient : ∀ journal : Journal, ∃ after,
    ((engine.lenient graph).build (patterns.map Pattern.lenient) (optionals.map Pattern.lenient)
      initial).run.run journal = (.ok query, after) ∧
      after.calls = journal.calls ++ calls.map (Call.entry engine.store.toSource)
  actual : (engine.build patterns optionals initial).StopsAtFailure engine.store.toSource
    graph.matching calls (query.withStore engine.store)

/-- A build with a store and callbacks that may fail at any call is the build in which none does,
    cut off at the first failure. -/
theorem build_fails_fast {engine : Engine} {graph : Graph} {patterns optionals : List Pattern}
    (checked : check patterns optionals = .ok ())
    (answered : engine.store.AnswersOrFails graph.matching)
    (silent : ∀ pattern ∈ patterns ++ optionals, pattern.Silent)
    (initial : List (Variable × Term)) :
    ∃ query, engine.FailsFast graph patterns optionals initial
      (engine.calls graph.matching patterns optionals initial) query := by
  rw [List.forall_mem_append] at silent
  obtain ⟨query, _, _, lenient, actual⟩ := exists_both_make checked answered initial
  refine ⟨query, ?_, actual.stopsAtFailure (silent_calls silent.1 silent.2 initial)⟩
  intro journal
  have steady : (engine.lenient graph).store.Answers graph.matching := fun _ _ => rfl
  have fine : ∀ call ∈ (engine.calls graph.matching patterns optionals initial).map Call.lenient,
      call.Fine (engine.lenient graph).store.toSource graph.matching :=
    List.forall_mem_map.mpr fun call _ asked => Call.error?_lenient steady asked call
  have quiet : ∀ call ∈ (engine.calls graph.matching patterns optionals initial).map Call.lenient,
      call.Silent :=
    List.forall_mem_map.mpr fun call member =>
      (silent_calls silent.1 silent.2 initial call member).lenient
  obtain ⟨after, ends, records, _⟩ := lenient.of_fine (Or.inl steady) fine journal
  refine ⟨after, ends, ?_⟩
  rw [(records.adds quiet).calls, List.map_map]
  exact congrArg (journal.calls ++ List.map · _) (funext (Call.entry_lenient rfl rfl))

/-- The filter of the first branch fails on the second candidate, and the store from its third
    request on; the second branch is not reached. -/
theorem fails_fast_at_second_candidate :
    let link := fun subject object : String => Triple.mk (.iri subject) (.iri "link") (.iri object)
    let linked := TriplePattern.mk (.free ⟨"x"⟩) (.fixed (.iri "link")) (.free ⟨"y"⟩)
    let graph := Graph.ofList [link "a" "b", link "b" "c"]
    let engine : Engine := ⟨(Store.ofGraph "memory" graph true).failingFrom 3 "offline", {}⟩
    let patterns := [Pattern.ofStatements [⟨linked, some (.failingOn .object (.iri "c") "no")⟩],
      (Pattern.ofStatements [.ofPattern linked]).constrain [.failing "never asked"]]
    let calls := engine.calls graph.matching patterns [] []
    (∃ query, engine.FailsFast graph patterns [] [] calls query) ∧
      Call.FirstFails engine.store.toSource graph.matching 0 calls 2
        (.evaluation (.filter linked ⟨"no"⟩)) := by
  intro link linked graph engine patterns calls
  have silent : ∀ pattern ∈ patterns ++ [], pattern.Silent := by
    refine List.forall_mem_cons.mpr ⟨List.forall_mem_nil _, List.forall_mem_singleton.mpr ?_⟩
    exact List.forall_mem_singleton.mpr fun _ => trivial
  have answered : engine.store.AnswersOrFails graph.matching :=
    Store.answersOrFails_failingFrom (Source.Answers.answersOrFails fun _ _ => rfl) 3 "offline"
  refine ⟨build_fails_fast rfl answered silent [], ?_⟩
  have held : graph.toList = [link "a" "b", link "b" "c"] :=
    Graph.toList_ofList_of_nodup (by decide)
  have matching : graph.matching = fun request =>
      [link "a" "b", link "b" "c"].filter fun triple => request.admits triple := by
    funext request
    rw [Graph.matching_eq_filter, held]
  let first : List Call := [.request linked.request,
    .filter linked (.failingOn .object (.iri "c") "no") (link "a" "b"),
    .filter linked (.failingOn .object (.iri "c") "no") (link "b" "c")]
  have called : calls.take 3 = first := by
    dsimp only [calls]
    rw [matching]
    rfl
  have ends : Call.performed engine.store.toSource graph.matching 0 first =
      (first, some (.evaluation (.filter linked ⟨"no"⟩))) := rfl
  have whole : Call.performed engine.store.toSource graph.matching 0 calls =
      (first, some (.evaluation (.filter linked ⟨"no"⟩))) := by
    rw [← List.take_append_drop 3 calls, called, Call.performed_append_of_some (by rw [ends]), ends]
  exact Call.firstFails_of_performed whole

end Engine

end TripleJoin
