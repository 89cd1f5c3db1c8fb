import TripleJoin.Proofs.Tree.Exploration
/-!
The warnings of a build. Every expansion has a count of nodes of its own, but a build compares only
the counts of its main trees with the threshold: it warns of each main tree that is too large, in the
order of the branches, and of nothing else. A clause whose expansion is too large goes unreported.
-/
namespace TripleJoin

open Run

/-- The nodes that the expansions of one branch explore. -/
structure Explored where
  /-- For the main tree. -/
  main : Nat
  /-- For each clause at each bound leaf, in match order. -/
  clauses : List Nat
  deriving DecidableEq

namespace Explored

def all (explored : Explored) : List Nat := explored.main :: explored.clauses

end Explored

namespace Engine

/-- Expands the main tree of a branch. -/
def expandMain (engine : Engine) (initial : List (Variable × Term)) (pattern : Pattern) :
    Run QueryError (Option Tree) :=
  (Matcher.mk engine.store.toSource pattern.constraints none).expand
    (.withValues pattern.unbounds initial) pattern.statements

/-- What the expansions of a branch explore, from a journal on. -/
def exploredBy (engine : Engine) (optionals : List Pattern) (initial : List (Variable × Term))
    (pattern : Pattern) (journal : Journal) : Explored where
  main := (engine.expandMain initial pattern).explored journal
  clauses :=
    match ((engine.expandMain initial pattern).run.run journal).1 with
    | .ok (some tree) =>
      tree.explored engine.store.toSource optionals
        ((engine.expandMain initial pattern).after journal)
    | _ => []

/-- What the expansions of each branch explore, where one branch is built after the other. -/
def explored (engine : Engine) (optionals : List Pattern) (initial : List (Variable × Term)) :
    Nat → List Pattern → Journal → List Explored
  | _, [], _ => []
  | branch, pattern :: patterns, journal =>
    engine.exploredBy optionals initial pattern journal ::
      explored engine optionals initial (branch + 1) patterns
        ((engine.buildBranch optionals initial branch pattern).after journal)

/-- The warning of a branch whose main tree has so many nodes. -/
def warningOf (engine : Engine) (branch nodes : Nat) : List Event :=
  if engine.config.warnNodes < nodes then
    [.largeExpansion branch nodes engine.config.warnNodes]
  else []

/-- The warnings of the branches, of which the first has this number. -/
def warningsFrom (engine : Engine) (branch : Nat) (branches : List Explored) : List Event :=
  (branches.zipIdx branch).flatMap fun entry => engine.warningOf entry.2 entry.1.main

theorem warningsFrom_cons (engine : Engine) (branch : Nat) (first : Explored)
    (branches : List Explored) : engine.warningsFrom branch (first :: branches) =
      engine.warningOf branch first.main ++ engine.warningsFrom (branch + 1) branches := rfl

theorem warningsFrom_eq_nil_iff {engine : Engine} {branch : Nat} {branches : List Explored} :
    engine.warningsFrom branch branches = [] ↔
      ∀ explored ∈ branches, explored.main ≤ engine.config.warnNodes := by
  induction branches generalizing branch with
  | nil => exact iff_of_true rfl (List.forall_mem_nil _)
  | cons first branches ih =>
    rw [warningsFrom_cons, List.append_eq_nil_iff, ih, List.forall_mem_cons, warningOf]
    simp

section

variable {engine : Engine} {pattern : Pattern} {patterns optionals : List Pattern}
  {initial : List (Variable × Term)} {remarks : Event → Prop} {journal : Journal} {query : Query}

theorem accrues_closeBranch (engine : Engine) (branch nodes clauses : Nat) (root : Option Tree)
    (journal : Journal) :
    journal.Accrues remarks 0 (engine.warningOf branch nodes)
      ((engine.closeBranch branch nodes clauses root).after journal) := by
  unfold closeBranch warningOf
  split
  · exact (journal.accrues_warning rfl).trans (Journal.accrues_record rfl _)
  · exact journal.accrues_record rfl

theorem accrues_attachRoot
    (allowed : ∀ clause ∈ optionals, ∀ event, clause.Remarks event → remarks event)
    {root : Option Tree} {next : Option Tree}
    (ends : ((engine.attachRoot optionals root).run.run journal).1 = .ok next) :
    journal.Accrues remarks
      (root.toList.flatMap fun tree => tree.explored engine.store.toSource optionals journal).sum []
      ((engine.attachRoot optionals root).after journal) := by
  cases root with
  | none => exact .refl journal
  | some tree =>
    rw [attachRoot, ← bind_pure_comp] at ends ⊢
    obtain ⟨dressed, here, _, last⟩ := after_bind ends
    rw [last, Option.toList_some, List.flatMap_singleton]
    exact Tree.accrues_attach allowed tree here

/-- Only the main tree of a branch is measured against the threshold. -/
theorem accrues_buildBranch (own : ∀ event, pattern.Remarks event → remarks event)
    (allowed : ∀ clause ∈ optionals, ∀ event, clause.Remarks event → remarks event) {branch : Nat}
    (ends : ((engine.buildBranch optionals initial branch pattern).run.run journal).1 =
      .ok query) :
    journal.Accrues remarks (engine.exploredBy optionals initial pattern journal).all.sum
      (engine.warningOf branch (engine.exploredBy optionals initial pattern journal).main)
      ((engine.buildBranch optionals initial branch pattern).after journal) := by
  have calm : (engine.expandMain initial pattern).Calm remarks :=
    Matcher.calm_expandFrom (fun constraint member binding event remarked =>
      own event ⟨constraint, member, binding, remarked⟩) _ _ none
  rw [buildBranch_eq] at ends ⊢
  obtain ⟨before, ⟨⟩, ends, last⟩ := after_bind ends
  obtain ⟨expanded, grown, ends, last'⟩ := after_bind ends
  obtain ⟨now, ⟨⟩, ends, last''⟩ := after_bind ends
  obtain ⟨root, attached, ends, last'''⟩ := after_bind ends
  rw [last, last', last'', last''']
  have mains := calm.accrues journal
  have clauses := accrues_attachRoot allowed attached
  have sizes : (engine.exploredBy optionals initial pattern journal).all.sum =
      (engine.expandMain initial pattern).explored journal +
        ((expanded.toList.flatMap fun tree => tree.explored engine.store.toSource optionals
          ((engine.expandMain initial pattern).after journal)).sum + 0) := by
    have found : ((engine.expandMain initial pattern).run.run journal).1 = .ok expanded := grown
    rw [Explored.all, List.sum_cons, exploredBy, found]
    cases expanded <;> simp
  rw [sizes]
  exact mains.trans (clauses.trans (engine.accrues_closeBranch branch _ _ root _))

theorem accrues_buildFrom
    (own : ∀ pattern ∈ patterns, ∀ event, pattern.Remarks event → remarks event)
    (allowed : ∀ clause ∈ optionals, ∀ event, clause.Remarks event → remarks event)
    {built : Query} {branch : Nat}
    (ends : ((engine.buildFrom optionals initial built branch patterns).run.run journal).1 =
      .ok query) :
    journal.Accrues remarks
      ((engine.explored optionals initial branch patterns journal).flatMap Explored.all).sum
      (engine.warningsFrom branch (engine.explored optionals initial branch patterns journal))
      ((engine.buildFrom optionals initial built branch patterns).after journal) := by
  induction patterns generalizing built branch journal with
  | nil => exact .refl journal
  | cons pattern patterns ih =>
    rw [List.forall_mem_cons] at own
    obtain ⟨next, here, ends, last⟩ := after_bind ends
    rw [buildFrom, last, explored, List.flatMap_cons, List.sum_append, warningsFrom_cons]
    exact (accrues_buildBranch own.1 allowed here).trans (ih own.2 ends)

theorem accrues_build (own : ∀ pattern ∈ patterns, ∀ event, pattern.Remarks event → remarks event)
    (allowed : ∀ clause ∈ optionals, ∀ event, clause.Remarks event → remarks event)
    (built : ((engine.build patterns optionals initial).run.run journal).1 = .ok query) :
    journal.Accrues remarks
      ((engine.explored optionals initial 0 patterns journal).flatMap Explored.all).sum
      (engine.warningsFrom 0 (engine.explored optionals initial 0 patterns journal))
      ((engine.build patterns optionals initial).after journal) := by
  have checked := check_of_build built
  cases patterns with
  | nil => cases checked
  | cons pattern patterns =>
    rw [List.forall_mem_cons] at own
    rw [engine.build_of_check initial checked] at built ⊢
    obtain ⟨first, here, ends, last⟩ := after_bind built
    rw [last, explored, List.flatMap_cons, List.sum_append, warningsFrom_cons]
    exact (accrues_buildBranch own.1 allowed here).trans (accrues_buildFrom own.2 allowed ends)

end

/-- The expansions of a build make all of its nodes, and it warns of the main trees that are too
    large, each by its branch and in order; all else is remarked by constraints. So if these remark
    nothing, a build warns exactly if some expansion is too large, unless that is so of clauses
    only. -/
theorem oversized_warned_iff {engine : Engine} {patterns optionals : List Pattern}
    {initial : List (Variable × Term)} {journal : Journal} {query : Query}
    (built : ((engine.build patterns optionals initial).run.run journal).1 = .ok query) :
    let after := (engine.build patterns optionals initial).after journal
    let branches := engine.explored optionals initial 0 patterns journal
    let remarked := fun event => ∃ pattern ∈ patterns ++ optionals, pattern.Remarks event
    let oversized := fun nodes => engine.config.warnNodes < nodes
    after.nodes = journal.nodes + (branches.flatMap Explored.all).sum ∧
      journal.Warned remarked (engine.warningsFrom 0 branches) after ∧
      ((∀ event, event.level = .warn → ¬ remarked event) →
        after.warnings = journal.warnings ++ engine.warningsFrom 0 branches ∧
        (((∃ explored ∈ branches, ∃ nodes ∈ explored.all, oversized nodes) ↔
            after.warnings ≠ journal.warnings) ↔
          ((∃ explored ∈ branches, ∃ nodes ∈ explored.clauses, oversized nodes) →
            ∃ explored ∈ branches, oversized explored.main))) := by
  intro after branches remarked oversized
  have accrues : journal.Accrues remarked (branches.flatMap Explored.all).sum
      (engine.warningsFrom 0 branches) after :=
    accrues_build
      (fun pattern member event remarks => ⟨pattern, List.mem_append_left _ member, remarks⟩)
      (fun clause member event remarks => ⟨clause, List.mem_append_right _ member, remarks⟩) built
  refine ⟨accrues.nodes, accrues.warned, fun silent => ?_⟩
  have log := accrues.warned.eq silent
  have warns : after.warnings ≠ journal.warnings ↔
      ∃ explored ∈ branches, oversized explored.main := by
    rw [log, ne_eq, List.append_right_eq_self, warningsFrom_eq_nil_iff]
    simp [oversized]
  have either : (∃ explored ∈ branches, ∃ nodes ∈ explored.all, oversized nodes) ↔
      (∃ explored ∈ branches, oversized explored.main) ∨
        ∃ explored ∈ branches, ∃ nodes ∈ explored.clauses, oversized nodes := by
    simp only [Explored.all, List.exists_mem_cons_iff, ← exists_or, ← and_or_left]
  refine ⟨log, ?_⟩
  rw [warns, either]
  exact or_iff_left_iff_imp

theorem exists_ok_of_isOk {ε α : Type} {result : Except ε α} (succeeds : result.isOk = true) :
    ∃ a, result = .ok a := by
  cases result with
  | ok a => exact ⟨a, rfl⟩
  | error cause => cases succeeds

section

open Sample

/-- The main tree of the second branch is too large, and so is the tree of the clause at every leaf of
    both branches. -/
theorem oversized_warned_of_second_branch :
    let has := fun object => Triple.mk (.iri "a") (.iri "part") (.iri object)
    let part := fun object => Statement.ofPattern
      ⟨.free ⟨"x"⟩, .fixed (.iri "part"), .free ⟨object⟩⟩
    let engine : Engine :=
      ⟨.ofGraph "memory" (.ofList [link "a" "b", has "c", has "d"]) true, { warnNodes := 2 }⟩
    let patterns := [Pattern.ofStatements [linked "x" "y"], .ofStatements [part "y"]]
    let clause := Pattern.ofStatements [part "z"]
    ∃ query, ((engine.build patterns [clause] []).run.run Journal.empty).1 = .ok query ∧
      engine.explored [clause] [] 0 patterns Journal.empty = [⟨2, [3]⟩, ⟨3, [3, 3]⟩] ∧
      ((engine.build patterns [clause] []).after Journal.empty).nodes = 14 ∧
      ((engine.build patterns [clause] []).after Journal.empty).warnings =
        [.largeExpansion 1 3 2] := by
  intro has part engine patterns clause
  have succeeds : ((engine.build patterns [clause] []).run.run Journal.empty).1.isOk = true := by
    simp only [engine, Store.ofGraph, funext (Graph.matching_eq_filter _), Graph.toList_ofList]
    decide
  have sizes : engine.explored [clause] [] 0 patterns Journal.empty =
      [⟨2, [3]⟩, ⟨3, [3, 3]⟩] := by
    simp only [engine, Store.ofGraph, funext (Graph.matching_eq_filter _), Graph.toList_ofList]
    decide
  have plain : ∀ pattern ∈ patterns ++ [clause], pattern.constraints = [] := by
    simp [patterns, clause, Pattern.ofStatements, Pattern.addAll_constraints, Pattern.empty]
  obtain ⟨query, ran⟩ := exists_ok_of_isOk succeeds
  obtain ⟨nodes, _, warns⟩ := oversized_warned_iff ran
  obtain ⟨log, _⟩ := warns fun event _ remarked => by
    obtain ⟨pattern, member, constraint, stated, _⟩ := remarked
    rw [plain pattern member] at stated
    cases stated
  rw [sizes] at nodes log
  exact ⟨query, ran, sizes, nodes, log⟩

/-- The main tree has two nodes, as many as are allowed, and the tree of the clause at its leaf has
    three. -/
theorem oversized_clause_unreported :
    let has := fun object => Triple.mk (.iri "a") (.iri "part") (.iri object)
    let engine : Engine :=
      ⟨.ofGraph "memory" (.ofList [link "a" "b", has "c", has "d"]) true, { warnNodes := 2 }⟩
    let main := Pattern.ofStatements [linked "x" "y"]
    let clause := Pattern.ofStatements [.ofPattern
      ⟨.free ⟨"x"⟩, .fixed (.iri "part"), .free ⟨"z"⟩⟩]
    ¬ ((∃ query, ((engine.build [main] [clause] []).run.run Journal.empty).1 = .ok query) →
      (∃ explored ∈ engine.explored [clause] [] 0 [main] Journal.empty,
        ∃ nodes ∈ explored.all, engine.config.warnNodes < nodes) →
      ((engine.build [main] [clause] []).after Journal.empty).warnings ≠
        Journal.empty.warnings) := by
  intro has engine main clause reported
  have whole : ((engine.build [main] [clause] []).run.run Journal.empty).1.isOk = true ∧
      engine.explored [clause] [] 0 [main] Journal.empty = [⟨2, [3]⟩] ∧
      ((engine.build [main] [clause] []).after Journal.empty).warnings = [] := by
    simp only [engine, Store.ofGraph, funext (Graph.matching_eq_filter _), Graph.toList_ofList]
    decide
  obtain ⟨succeeds, sizes, silent⟩ := whole
  refine reported (exists_ok_of_isOk succeeds) ?_ silent
  rw [sizes]
  decide

end

end Engine

end TripleJoin
