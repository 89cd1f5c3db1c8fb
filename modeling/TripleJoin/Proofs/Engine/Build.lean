import TripleJoin.Engine
import TripleJoin.Proofs.Matcher.Calls
/-!
Building queries over a store that always gives the same answers, unless it fails. A build makes the
calls of its branches, branch after branch. If the patterns pass the check and no call fails, the query
has for each branch the grown tree of the pattern with the clauses attached, and its solutions are the
rows of these trees.
-/
namespace TripleJoin

namespace Engine

variable {engine : Engine} {answers : Request → List Triple}

/-- The tree of a branch, with the clauses attached at its leaves. -/
def branchRoot (engine : Engine) (answers : Request → List Triple) (optionals : List Pattern)
    (initial : List (Variable × Term)) (pattern : Pattern) : Option Tree :=
  ((Matcher.mk engine.store.toSource pattern.constraints none).grow answers pattern.statements
    (.withValues pattern.unbounds initial) none).map
      (Tree.dress fun leaf =>
        optionals.filterMap (Tree.clauseTree engine.store.toSource answers leaf))

/-- The end of a branch: its events and its query. -/
def closeBranch (engine : Engine) (branch explored clauses : Nat) (root : Option Tree) :
    Run QueryError Query := do
  if engine.config.warnNodes < explored then
    report (.largeExpansion branch explored engine.config.warnNodes)
  report (.branchBuilt branch explored ((root.map Tree.nodeCount).getD 0) clauses root.isNone)
  return .tree root engine.store engine.config.nulls

/-- The query of one branch. -/
def branchQuery (engine : Engine) (answers : Request → List Triple) (optionals : List Pattern)
    (initial : List (Variable × Term)) (pattern : Pattern) : Query :=
  .tree (engine.branchRoot answers optionals initial pattern) engine.store engine.config.nulls

/-- The union of a query with the branches of more patterns. -/
def joined (engine : Engine) (answers : Request → List Triple) (optionals : List Pattern)
    (initial : List (Variable × Term)) (built : Query) (patterns : List Pattern) : Query :=
  patterns.foldl
    (fun built pattern => built.union (engine.branchQuery answers optionals initial pattern)) built

/-- The calls for one branch. -/
def branchCalls (engine : Engine) (answers : Request → List Triple) (optionals : List Pattern)
    (initial : List (Variable × Term)) (pattern : Pattern) : List Call :=
  let source := engine.store.toSource
  let matcher : Matcher := ⟨source, pattern.constraints, none⟩
  let start := Binding.withValues pattern.unbounds initial
  let leaves := ((matcher.grow answers pattern.statements start none).map Tree.boundLeaves).getD []
  matcher.calls answers pattern.statements start ++
    leaves.flatMap fun leaf => optionals.flatMap (Tree.clauseCalls source answers leaf)

/-- The visits of one branch. -/
def branchVisits (engine : Engine) (answers : Request → List Triple) (optionals : List Pattern)
    (initial : List (Variable × Term)) (pattern : Pattern) : List Visit :=
  let matcher : Matcher := ⟨engine.store.toSource, pattern.constraints, none⟩
  let start := Binding.withValues pattern.unbounds initial
  let leaves := ((matcher.grow answers pattern.statements start none).map Tree.boundLeaves).getD []
  Matcher.visits answers pattern.statements start ++
    leaves.flatMap fun leaf => optionals.flatMap (Tree.clauseVisits answers leaf)

/-- The calls for all branches, branch after branch. -/
def calls (engine : Engine) (answers : Request → List Triple) (patterns optionals : List Pattern)
    (initial : List (Variable × Term)) : List Call :=
  patterns.flatMap (engine.branchCalls answers optionals initial)

/-- The visits of all branches, branch after branch. -/
def visits (engine : Engine) (answers : Request → List Triple) (patterns optionals : List Pattern)
    (initial : List (Variable × Term)) : List Visit :=
  patterns.flatMap (engine.branchVisits answers optionals initial)

section

variable {pattern : Pattern} {patterns optionals : List Pattern}

theorem silent_calls (silent : ∀ pattern ∈ patterns, pattern.Silent)
    (silent_clauses : ∀ clause ∈ optionals, clause.Silent) (initial : List (Variable × Term)) :
    ∀ call ∈ engine.calls answers patterns optionals initial, call.Silent := by
  simp only [calls, branchCalls, List.forall_mem_flatMap, List.forall_mem_append]
  refine fun pattern member => ⟨Matcher.silent_calls (silent pattern member) _ _, ?_⟩
  exact fun leaf _ clause stated => Tree.silent_clauseCalls (silent_clauses clause stated) leaf

theorem fine_calls (steady : engine.store.Answers answers)
    (decides : ∀ pattern ∈ patterns, pattern.Decides answers)
    (decide : ∀ clause ∈ optionals, clause.Decides answers) (initial : List (Variable × Term)) :
    ∀ call ∈ engine.calls answers patterns optionals initial,
      call.Fine engine.store.toSource answers := by
  simp only [calls, branchCalls, List.forall_mem_flatMap, List.forall_mem_append]
  refine fun pattern member => ⟨?_, fun leaf _ clause stated => ?_⟩
  · exact Matcher.fine_calls steady (decides pattern member).constraints
      (decides pattern member).filters _
  · exact Tree.fine_clauseCalls steady (decide clause stated) leaf

theorem makes_closeBranch (answers : Request → List Triple) (branch explored clauses : Nat)
    (root : Option Tree) :
    (engine.closeBranch branch explored clauses root).Makes engine.store.toSource answers [] []
      (.tree root engine.store engine.config.nulls) := by
  unfold closeBranch
  split
  · exact Run.Makes.after_step (Journal.rests_report _) fun _ =>
      Run.Makes.after_step (Journal.rests_report _) fun _ => Run.makes_pure _
  · exact Run.Makes.after_step (Journal.rests_report _) fun _ => Run.makes_pure _

theorem yields_closeBranch (branch explored clauses : Nat) (root : Option Tree) :
    (engine.closeBranch branch explored clauses root).Yields
      (.tree root engine.store engine.config.nulls) :=
  (makes_closeBranch (fun _ => []) branch explored clauses root).yields Call.settled_nil
    (List.forall_mem_nil _)

theorem makes_buildBranch (answered : engine.store.AnswersOrFails answers)
    (optionals : List Pattern) (initial : List (Variable × Term)) (branch : Nat)
    (pattern : Pattern) :
    (engine.buildBranch optionals initial branch pattern).Makes engine.store.toSource answers
      (engine.branchCalls answers optionals initial pattern)
      (engine.branchVisits answers optionals initial pattern)
      (engine.branchQuery answers optionals initial pattern) := by
  refine Run.Makes.after_step Journal.rests_nodesSoFar fun _ => ?_
  refine (Matcher.makes_expandFrom ⟨_, pattern.constraints, none⟩ answered _ _ none).bind ?_
  refine Run.Makes.after_step Journal.rests_nodesSoFar fun _ => ?_
  unfold branchQuery branchRoot
  cases (Matcher.mk engine.store.toSource pattern.constraints none).grow answers
      pattern.statements (.withValues pattern.unbounds initial) none with
  | none => exact (Run.makes_pure none).bind (makes_closeBranch answers branch _ _ none)
  | some tree =>
    exact ((Tree.makes_attach answered tree).map some).bind_quiet
      (makes_closeBranch answers branch _ _ _)

theorem makes_buildFrom (answered : engine.store.AnswersOrFails answers)
    (optionals : List Pattern) (initial : List (Variable × Term)) (built : Query) (branch : Nat)
    (patterns : List Pattern) :
    (engine.buildFrom optionals initial built branch patterns).Makes engine.store.toSource answers
      (engine.calls answers patterns optionals initial)
      (engine.visits answers patterns optionals initial)
      (engine.joined answers optionals initial built patterns) := by
  induction patterns generalizing built branch with
  | nil => exact Run.makes_pure built
  | cons pattern patterns ih =>
    exact (makes_buildBranch answered optionals initial branch pattern).bind (ih _ (branch + 1))

theorem makes_build (answered : engine.store.AnswersOrFails answers)
    (checked : check (pattern :: patterns) optionals = .ok ())
    (initial : List (Variable × Term)) :
    (engine.build (pattern :: patterns) optionals initial).Makes engine.store.toSource answers
      (engine.calls answers (pattern :: patterns) optionals initial)
      (engine.visits answers (pattern :: patterns) optionals initial)
      (engine.joined answers optionals initial
        (engine.branchQuery answers optionals initial pattern) patterns) := by
  rw [build, checked]
  refine (Run.makes_pure ()).bind ?_
  exact (makes_buildBranch answered optionals initial 0 pattern).bind
    (makes_buildFrom answered optionals initial _ 1 patterns)

theorem yields_build_branches (steady : engine.store.Answers answers)
    (checked : check (pattern :: patterns) optionals = .ok ())
    (decides : ∀ branch ∈ pattern :: patterns, branch.Decides answers)
    (decide : ∀ clause ∈ optionals, clause.Decides answers) (initial : List (Variable × Term)) :
    (engine.build (pattern :: patterns) optionals initial).Yields
      (engine.joined answers optionals initial
        (engine.branchQuery answers optionals initial pattern) patterns) :=
  (makes_build steady.answersOrFails checked initial).yields (Or.inl steady)
    (fine_calls steady decides decide initial)

theorem check_single (stated : pattern.isEmpty = false)
    (scope : pattern.checkScope optionals = .ok ()) : check [pattern] optionals = .ok () := by
  simp only [check, List.isEmpty_cons, Bool.false_eq_true, ↓reduceIte, checkFrom, stated, scope]
  rfl

theorem yields_build (steady : engine.store.Answers answers) (stated : pattern.isEmpty = false)
    (scope : pattern.checkScope optionals = .ok ()) (decides : pattern.Decides answers)
    (decide : ∀ clause ∈ optionals, clause.Decides answers) (initial : List (Variable × Term)) :
    (engine.build [pattern] optionals initial).Yields
      (.tree (engine.branchRoot answers optionals initial pattern) engine.store
        engine.config.nulls) :=
  yields_build_branches steady (check_single stated scope) (List.forall_mem_singleton.mpr decides)
    decide initial

end

theorem checkScope_nil (pattern : Pattern) : pattern.checkScope [] = .ok () := rfl

/-- The rows of a branch: those of each leaf with its clauses joined in, leaf after leaf. -/
theorem rowsOf_branchRoot (engine : Engine) (answers : Request → List Triple)
    (optionals : List Pattern) (initial : List (Variable × Term)) (pattern : Pattern) :
    Tree.rowsOf (engine.branchRoot answers optionals initial pattern) =
      ((Matcher.mk engine.store.toSource pattern.constraints none).rows answers pattern.statements
        (.withValues pattern.unbounds initial)).flatMap fun leaf =>
          (optionals.map fun clause =>
            Tree.rowsOf (Tree.clauseTree engine.store.toSource answers leaf clause)).foldl
              leftJoin [leaf] := by
  rw [branchRoot, Matcher.rowsOf_grow_dress]
  simp only [foldl_leftJoin_filterMap]

theorem rowsOf_branchRoot_nil (engine : Engine) (answers : Request → List Triple)
    (initial : List (Variable × Term)) (pattern : Pattern) :
    Tree.rowsOf (engine.branchRoot answers [] initial pattern) =
      (Matcher.mk engine.store.toSource pattern.constraints none).rows answers pattern.statements
        (.withValues pattern.unbounds initial) := by
  rw [rowsOf_branchRoot]
  exact List.flatMap_singleton' _

end Engine

end TripleJoin
