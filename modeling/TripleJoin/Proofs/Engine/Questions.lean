import TripleJoin.Proofs.Engine.Branches
import TripleJoin.Proofs.Matcher.Questions
import TripleJoin.Proofs.Matcher.Scan
import TripleJoin.Proofs.Query.Reading
/-!
A build asks its constraints about each complete match once, in match order: first those of the main
pattern, then, leaf after leaf, those of each clause. Nothing that is read off the query afterwards
asks anything again.
-/
namespace TripleJoin

theorem Pattern.Decides.unconstrained {pattern : Pattern} {answers : Request → List Triple}
    (decides : pattern.Decides answers) : pattern.unconstrained.Decides answers :=
  ⟨decides.filters, List.forall_mem_nil _⟩

namespace Engine

/-- The questions of a branch: those about the matches of the main pattern, then those of the clauses
    at each of its leaves. -/
def questions (engine : Engine) (answers : Request → List Triple) (clauses : List Pattern)
    (initial : List (Variable × Term)) (pattern : Pattern) : List Entry :=
  let matcher : Matcher := ⟨engine.store.toSource, pattern.constraints, none⟩
  let start := Binding.withValues pattern.unbounds initial
  matcher.questions answers pattern.statements start ++
    (matcher.rows answers pattern.statements start).flatMap fun leaf =>
      clauses.flatMap (Tree.clauseQuestions engine.store.toSource answers leaf)

theorem questions_branchCalls (engine : Engine) (answers : Request → List Triple)
    (clauses : List Pattern) (initial : List (Variable × Term)) (pattern : Pattern) :
    Call.questions engine.store.toSource (engine.branchCalls answers clauses initial pattern) =
      engine.questions answers clauses initial pattern := by
  let matcher : Matcher := ⟨engine.store.toSource, pattern.constraints, none⟩
  let start := Binding.withValues pattern.unbounds initial
  have leaves : ((matcher.grow answers pattern.statements start none).map
      Tree.boundLeaves).getD [] = matcher.rows answers pattern.statements start := by
    rw [← Tree.boundLeaves_grow _ _ _ _ none]
    cases matcher.grow answers pattern.statements start none with
    | none => rfl
    | some tree => rw [Option.toList_some, List.flatMap_singleton]; rfl
  rw [branchCalls, Call.questions_append, leaves]
  simp only [Call.questions_flatMap, Tree.questions_clauseCalls]
  exact congrArg (· ++ _) (matcher.questions_calls answers _ _)

theorem logs_build {engine : Engine} {answers : Request → List Triple} {pattern : Pattern}
    {clauses : List Pattern} (steady : engine.store.Answers answers)
    (checked : check [pattern] clauses = .ok ()) (decides : pattern.Decides answers)
    (decide : ∀ clause ∈ clauses, clause.Decides answers) (initial : List (Variable × Term)) :
    (engine.build [pattern] clauses initial).Logs Entry.isQuestion
      (engine.questions answers clauses initial pattern)
      (engine.branchQuery answers clauses initial pattern) := by
  have logs := (makes_build steady.answersOrFails checked initial).logs (Or.inl steady)
    (fine_calls steady (List.forall_mem_singleton.mpr decides) decide initial)
  rw [calls, List.flatMap_singleton] at logs
  exact engine.questions_branchCalls answers clauses initial pattern ▸ logs

theorem solutions_branchQuery_nil (engine : Engine) (answers : Request → List Triple)
    (initial : List (Variable × Term)) (pattern : Pattern) :
    (engine.branchQuery answers [] initial pattern).solutions =
      (Matcher.mk engine.store.toSource pattern.constraints none).rows answers pattern.statements
        (.withValues pattern.unbounds initial) :=
  engine.rowsOf_branchRoot_nil answers initial pattern

/-- What builds of a pattern over a graph ask: without its constraints, without clauses and with
    them. `found` are the trees of the clauses, their constraints aside. -/
structure AsksOnce (engine : Engine) (graph : Graph) (main : Pattern) (clauses : List Pattern)
    (initial : List (Variable × Term)) (free kept whole : Query)
    (found : Binding → Pattern → Option Tree) : Prop where
  bare : (engine.build [main.unconstrained] [] initial).Yields free
  alone : (engine.build [main] [] initial).Logs Entry.isQuestion
    (free.solutions.flatMap fun solution =>
      Constraint.questions graph.matching solution 0 main.constraints) kept
  keeps : kept.solutions = free.solutions.filter fun solution =>
    main.constraints.all fun constraint => constraint.holds graph.matching solution
  matched : ∀ leaf, ∀ clause ∈ clauses, ∀ index,
    (Tree.matchClause engine.store.toSource leaf index clause.unconstrained).Yields
      (found leaf clause)
  joined : (engine.build [main] clauses initial).Logs Entry.isQuestion
    ((free.solutions.flatMap fun solution =>
        Constraint.questions graph.matching solution 0 main.constraints) ++
      kept.solutions.flatMap fun leaf => clauses.flatMap fun clause =>
        (Tree.rowsOf (found leaf clause)).flatMap fun row =>
          Constraint.questions graph.matching (row.overlay leaf) 0 clause.constraints) whole
  seen : ∀ row leaf : Binding, (row.overlay leaf).entries =
    row.entries ++ leaf.entries.filter fun entry => entry.1 ∉ row.keys
  reading : free.CallsNothing ∧ kept.CallsNothing ∧ whole.CallsNothing

/-- While a query is built over a graph, each complete match is put to the constraints of its pattern
    once, in match order and up to the first that does not hold, and never again. -/
theorem asks_each_match_once (name : String) (graph : Graph) (watched : Bool) (config : Config)
    {main : Pattern} {clauses : List Pattern} (stated : main.isEmpty = false)
    (scope : main.checkScope clauses = .ok ()) (decides : main.Decides graph.matching)
    (decide : ∀ clause ∈ clauses, clause.Decides graph.matching)
    (initial : List (Variable × Term)) :
    ∃ free kept whole found, AsksOnce ⟨.ofGraph name graph watched, config⟩ graph main clauses
      initial free kept whole found := by
  let engine : Engine := ⟨.ofGraph name graph watched, config⟩
  have steady : engine.store.Answers graph.matching := answers_ofGraph name graph watched
  let matcher : Matcher := ⟨engine.store.toSource, main.constraints, none⟩
  let start := Binding.withValues main.unbounds initial
  let free := engine.branchQuery graph.matching [] initial main.unconstrained
  let kept := engine.branchQuery graph.matching [] initial main
  let whole := engine.branchQuery graph.matching clauses initial main
  let found := fun leaf clause =>
    Tree.clauseTree engine.store.toSource graph.matching leaf (Pattern.unconstrained clause)
  have matches_free : free.solutions =
      matcher.unconstrained.rows graph.matching main.statements start :=
    engine.solutions_branchQuery_nil graph.matching initial main.unconstrained
  have matches_kept : kept.solutions = matcher.rows graph.matching main.statements start :=
    engine.solutions_branchQuery_nil graph.matching initial main
  have asked : matcher.questions graph.matching main.statements start =
      free.solutions.flatMap fun solution =>
        Constraint.questions graph.matching solution 0 main.constraints := by
    rw [matches_free]
    rfl
  have alone := engine.logs_build steady (check_single stated (checkScope_nil main)) decides
    (List.forall_mem_nil _) initial
  have joined := engine.logs_build steady (check_single stated scope) decides decide initial
  rw [questions, asked, ← matches_kept] at alone joined
  -- without clauses nothing follows the main pattern
  rw [List.flatMap_eq_nil_iff.mpr fun _ _ => List.flatMap_nil, List.append_nil] at alone
  refine ⟨free, kept, whole, found, ?_, alone, ?_, ?_, joined, Binding.entries_overlay,
    free.callsNothing, kept.callsNothing, whole.callsNothing⟩
  · have free_stated : main.unconstrained.isEmpty = false := stated
    exact yields_build steady free_stated (checkScope_nil _) decides.unconstrained
      (List.forall_mem_nil _) initial
  · rw [matches_free, matches_kept]
    exact matcher.rows_eq_filter graph.matching main.statements start
  · intro leaf clause member index
    exact Tree.yields_matchClause steady (decide clause member).unconstrained leaf index

open Sample in
/-- The first constraint asks the store whether the chain goes on, and the second is not asked about
    the link where it ends. The clause asks about its one match, seen in front of the leaf. -/
theorem asks_each_match_once_of_chain :
    let graph := Graph.ofList [link "a" "b", link "b" "c"]
    let goesOn : Constraint := .answered ⟨.free ⟨"y"⟩, .fixed (.iri "link"), .free ⟨"w"⟩⟩ true
    let apart := fun v w => Constraint.ofPredicate fun binding => binding.get? v ≠ binding.get? w
    let main := (Pattern.ofStatements [linked "x" "y"]).constrain [goesOn, apart ⟨"x"⟩ ⟨"y"⟩]
    let clause := (Pattern.ofStatements [linked "y" "z"]).constrain [apart ⟨"x"⟩ ⟨"z"⟩]
    let engine : Engine := ⟨.ofGraph "memory" graph true, {}⟩
    let row := fun x y : String =>
      Binding.withValues [⟨"x"⟩, ⟨"y"⟩] [(⟨"x"⟩, .iri x), (⟨"y"⟩, .iri y)]
    let extra := Binding.withValues [⟨"z"⟩] [(⟨"z"⟩, .iri "c")]
    ∃ free kept whole found, AsksOnce engine graph main [clause] [] free kept whole found ∧
      free.solutions = [row "a" "b", row "b" "c"] ∧ kept.solutions = [row "a" "b"] ∧
      Tree.rowsOf (found (row "a" "b") clause) = [extra] ∧
      ∃ after, (engine.build [main] [clause] []).run.run Journal.empty = (.ok whole, after) ∧
        after.only Entry.isQuestion =
          [.constraint 0 (row "a" "b") false, .constraint 1 (row "a" "b") false,
            .constraint 0 (row "b" "c") false,
            .constraint 0 (extra.overlay (row "a" "b")) false] := by
  intro graph goesOn apart main clause engine row extra
  have steady : engine.store.Answers graph.matching := answers_ofGraph _ _ _
  have unfiltered : ∀ v w, ∀ statement ∈ [linked v w], statement.Decides := fun _ _ =>
    List.forall_mem_singleton.mpr (Statement.decides_of_unfiltered rfl)
  have decides : main.Decides graph.matching := ⟨unfiltered "x" "y",
    List.forall_mem_cons.mpr ⟨fun _ => ⟨_, rfl⟩, List.forall_mem_singleton.mpr fun _ => ⟨_, rfl⟩⟩⟩
  have decides' : clause.Decides graph.matching :=
    ⟨unfiltered "y" "z", List.forall_mem_singleton.mpr fun _ => ⟨_, rfl⟩⟩
  have stated : main.isEmpty = false := rfl
  have scope : main.checkScope [clause] = .ok () := rfl
  obtain ⟨free, kept, whole, found, asks⟩ := asks_each_match_once "memory" graph true {} stated
    scope decides (List.forall_mem_singleton.mpr decides') []
  have bare : free.solutions = [row "a" "b", row "b" "c"] := by
    have free_stated : main.unconstrained.isEmpty = false := rfl
    rw [asks.bare.unique (yields_build steady free_stated (checkScope_nil _)
      decides.unconstrained (List.forall_mem_nil _) [])]
    simp only [Query.solutions, branchRoot, funext (Graph.matching_eq_filter _), graph,
      Graph.toList_ofList]
    decide
  have leaves : kept.solutions = [row "a" "b"] := by
    rw [asks.keeps, bare]
    simp only [funext (Graph.matching_eq_filter _), graph, Graph.toList_ofList]
    decide
  have rows : Tree.rowsOf (found (row "a" "b") clause) = [extra] := by
    rw [(asks.matched _ clause List.mem_cons_self 0).unique
      (Tree.yields_matchClause steady decides'.unconstrained (row "a" "b") 0)]
    simp only [Tree.clauseTree, funext (Graph.matching_eq_filter _), graph, Graph.toList_ofList]
    decide
  obtain ⟨after, ran, log⟩ := asks.joined Journal.empty
  refine ⟨free, kept, whole, found, asks, bare, leaves, rows, after, ran, ?_⟩
  rw [log, bare, leaves]
  simp only [List.flatMap_singleton, rows, funext (Graph.matching_eq_filter _), graph,
    Graph.toList_ofList]
  decide

end Engine

end TripleJoin
