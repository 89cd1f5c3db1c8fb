import Mathlib.Data.List.Forall2
import TripleJoin.Proofs.Alike
import TripleJoin.Proofs.Engine.Faults
/-!
A build of several branches is the fold of the builds of its branches. One branch after another is
matched as if it were the only one: its number shows in events alone, and what was asked before it is
what a build of the earlier branches has asked. Over a store whose answers never change, each branch
may as well be built on its own.
-/
namespace TripleJoin

open Run

section

variable (source : Source)

theorem Statement.endsAlike_accepts (statement : Statement) (triple : Triple) :
    EndsAlike source (statement.accepts triple) (statement.accepts triple) := by
  unfold accepts
  cases statement.filter with
  | none => exact endsAlike_pure true
  | some filter =>
    exact EndsAlike.after_step (silent_note _) (silent_note _) fun _ _ => endsAlike_ofExcept _

theorem Decision.endsAlike_run (decision : Decision) :
    EndsAlike source (decision.run source) (decision.run source) := by
  induction decision with
  | verdict result => exact endsAlike_ofExcept result
  | remark event rest ih =>
    exact EndsAlike.after_step (silent_report event) (silent_report event) fun _ _ => ih
  | ask request next ih => exact EndsAlike.after_run (source.endsAlike_ask request) ih

theorem Constraint.endsAlike_apply (constraint : Constraint) (index : Nat) (binding : Binding) :
    EndsAlike source (constraint.apply index binding source)
      (constraint.apply index binding source) :=
  EndsAlike.after_step (silent_note _) (silent_note _) fun _ _ =>
    (constraint.decide binding).endsAlike_run source

end

theorem Matching.endsAlike {source : Source} {filters : Filter → Prop}
    {constraints : Constraint → Prop} {α : Type} {run run' : Run QueryError α} {p : α → Prop}
    (matching : Matching source source filters constraints run run' p) :
    EndsAlike source run run' := by
  induction matching with
  | done => exact endsAlike_pure _
  | bind _ _ start rest => exact start.bind rest
  | ensuring _ _ alike => exact alike
  | node => exact endsAlike_step silent_countNode
  | tell => exact endsAlike_step (silent_report _)
  | reporting _ _ alike =>
    refine .after_step silent_nodesSoFar silent_nodesSoFar fun _ _ => alike.bind fun _ => ?_
    refine .after_step silent_nodesSoFar silent_nodesSoFar fun _ _ => ?_
    exact .after_step (silent_report _) (silent_report _) fun _ _ => endsAlike_pure _
  | ask _ index binding => exact (Constraint.endsAlike_apply source _ index binding).adapt _
  | scan _ _ each =>
    refine ((source.endsAlike_ask _).adapt _).bind fun candidates => ?_
    refine endsAlike_filterMapM candidates fun candidate => ?_
    refine (((Statement.endsAlike_accepts source _ candidate).adapt _).bind fun _ =>
      endsAlike_pure _).bind fun found => ?_
    cases found with
    | none => exact endsAlike_pure none
    | some next => exact each candidate next

namespace Engine

variable (engine : Engine) (optionals : List Pattern) (initial : List (Variable × Term))

theorem run_closeBranch (branch explored clauses : Nat) (root : Option Tree) (journal : Journal) :
    ∃ after, (engine.closeBranch branch explored clauses root).run.run journal =
      (.ok (.tree root engine.store engine.config.nulls), after) ∧
        after.asked = journal.asked := by
  unfold closeBranch
  split
  · exact ⟨_, rfl, rfl⟩
  · exact ⟨_, rfl, rfl⟩

theorem endsAlike_closeBranch (branch branch' explored explored' clauses : Nat)
    (root : Option Tree) :
    EndsAlike engine.store.toSource (engine.closeBranch branch explored clauses root)
      (engine.closeBranch branch' explored' clauses root) := by
  intro journal other alike
  obtain ⟨after, ran, asked⟩ := engine.run_closeBranch branch explored clauses root journal
  obtain ⟨after', ran', asked'⟩ := engine.run_closeBranch branch' explored' clauses root other
  rw [ran, ran']
  exact ⟨rfl, alike.of_asked asked asked'⟩

/-- The number of a branch shows in its events alone. -/
theorem endsAlike_buildBranch (branch branch' : Nat) (pattern : Pattern) :
    EndsAlike engine.store.toSource (engine.buildBranch optionals initial branch pattern)
      (engine.buildBranch optionals initial branch' pattern) := by
  apply EndsAlike.after_step silent_nodesSoFar silent_nodesSoFar
  intro _ _
  refine (Matcher.matching_any ⟨engine.store.toSource, _, none⟩ _ _ none).endsAlike.bind
    fun expanded => ?_
  apply EndsAlike.after_step silent_nodesSoFar silent_nodesSoFar
  intro _ _
  cases expanded with
  | none =>
    exact (endsAlike_pure none).bind fun _ => engine.endsAlike_closeBranch branch branch' _ _ _ _
  | some tree =>
    exact ((tree.matching_attach_any _ optionals).endsAlike.map some).bind fun _ =>
      engine.endsAlike_closeBranch branch branch' _ _ _ _

variable {optionals} {pattern : Pattern} {patterns : List Pattern}

theorem build_of_check (checked : check (pattern :: patterns) optionals = .ok ()) :
    engine.build (pattern :: patterns) optionals initial =
      engine.buildBranch optionals initial 0 pattern >>= fun query =>
        engine.buildFrom optionals initial query 1 patterns := by
  rw [build, checked]
  exact pure_bind () _

theorem build_single (checked : check [pattern] optionals = .ok ()) :
    engine.build [pattern] optionals initial =
      engine.buildBranch optionals initial 0 pattern :=
  (engine.build_of_check initial checked).trans (bind_pure _)

theorem check_iff_each : check patterns optionals = .ok () ↔
    patterns ≠ [] ∧ ∀ pattern ∈ patterns, check [pattern] optionals = .ok () := by
  have single : ∀ pattern, check [pattern] optionals = .ok () ↔ pattern.Sound optionals := by
    intro pattern
    rw [check_eq_ok_iff, List.forall_mem_singleton]
    exact and_iff_right (List.cons_ne_nil pattern [])
  simp only [check_eq_ok_iff, single]

/-- Adding branches to a union ends as building each of them as if it were the only one, one after
    the other. -/
theorem endsAlike_buildFrom
    (checked : ∀ pattern ∈ patterns, check [pattern] optionals = .ok ()) (built : Query)
    (branch : Nat) :
    EndsAlike engine.store.toSource (engine.buildFrom optionals initial built branch patterns)
      ((fun queries => queries.foldl Query.union built) <$>
        patterns.mapM fun pattern => engine.build [pattern] optionals initial) := by
  induction patterns generalizing built branch with
  | nil => exact endsAlike_pure built
  | cons pattern patterns ih =>
    rw [List.forall_mem_cons] at checked
    rw [List.mapM_cons, map_bind, engine.build_single initial checked.1]
    refine (engine.endsAlike_buildBranch optionals initial branch 0 pattern).bind fun query => ?_
    rw [map_bind]
    simp only [map_pure, bind_pure_comp]
    exact ih checked.2 (built.union query) (branch + 1)

end Engine

/-- The queries joined from the left; none if there are none. -/
def Query.unionOf : List Query → Option Query
  | [] => none
  | query :: queries => some (queries.foldl union query)

theorem Query.solutions_foldl_union (queries : List Query) (built : Query) :
    (queries.foldl union built).solutions =
      built.solutions ++ queries.flatMap Query.solutions := by
  induction queries generalizing built with
  | nil => exact (List.append_nil _).symm
  | cons next queries ih =>
    rw [List.foldl_cons, ih, solutions, List.flatMap_cons, List.append_assoc]

theorem Query.solutions_of_unionOf {queries : List Query} {query : Query}
    (joined : unionOf queries = some query) :
    query.solutions = queries.flatMap Query.solutions := by
  cases queries with
  | nil => cases joined
  | cons first queries =>
    cases joined
    exact solutions_foldl_union queries first

namespace Run

variable {ε α β : Type}

theorem map_eq_ok_iff {result : Except ε α} {f : α → β} {b : β} :
    result.map f = .ok b ↔ ∃ a, result = .ok a ∧ f a = b := by
  cases result <;> simp [Except.map]

theorem run_map_fst (run : Run ε α) (f : α → β) (journal : Journal) :
    ((f <$> run).run.run journal).1 = (run.run.run journal).1.map f := by
  rw [ExceptT.run_map, StateT.run_map]
  rfl

/-- Each of the runs has succeeded, from the journal that those before it left. -/
theorem forall₂_of_mapM {step : α → Run ε β} {xs : List α} {ys : List β} {journal : Journal}
    (success : ((xs.mapM step).run.run journal).1 = .ok ys) :
    List.Forall₂ (fun x y => ∃ journal, ((step x).run.run journal).1 = .ok y) xs ys := by
  induction xs generalizing ys journal with
  | nil =>
    cases success
    exact .nil
  | cons x xs ih =>
    rw [List.mapM_cons] at success
    obtain ⟨y, here, success⟩ := bind_eq_ok success
    obtain ⟨rest, later, success⟩ := bind_eq_ok success
    cases success
    exact .cons ⟨journal, here⟩ (ih later)

theorem yields_mapM {step : α → Run ε β} {xs : List α} {ys : List β}
    (each : List.Forall₂ (fun x y => (step x).Yields y) xs ys) : (xs.mapM step).Yields ys := by
  induction each with
  | nil => exact yields_pure []
  | cons here _ ih =>
    rw [List.mapM_cons]
    exact here.bind (ih.bind (yields_pure _))

end Run

namespace Engine

variable (engine : Engine) (patterns optionals : List Pattern) (initial : List (Variable × Term))

variable {engine patterns optionals initial}

theorem endsAlike_build (checked : check patterns optionals = .ok ()) :
    EndsAlike engine.store.toSource (some <$> engine.build patterns optionals initial)
      (Query.unionOf <$> patterns.mapM fun pattern => engine.build [pattern] optionals initial) := by
  cases patterns with
  | nil => cases checked
  | cons pattern patterns =>
    have each := (check_iff_each.mp checked).2
    rw [List.forall_mem_cons] at each
    rw [engine.build_of_check initial checked, List.mapM_cons, map_bind, map_bind,
      engine.build_single initial each.1]
    refine (engine.endsAlike_buildBranch optionals initial 0 0 pattern).bind fun query => ?_
    have rest := (engine.endsAlike_buildFrom initial each.2 query 1).map some
    rw [Functor.map_map] at rest
    rw [map_bind]
    simp only [map_pure, bind_pure_comp]
    exact rest

theorem outcome_eq (engine : Engine) (initial : List (Variable × Term))
    (checked : check patterns optionals = .ok ()) (journal : Journal) :
    ((engine.build patterns optionals initial).run.run journal).1.map some =
      ((patterns.mapM fun pattern => engine.build [pattern] optionals initial).run.run
        journal).1.map Query.unionOf := by
  rw [← run_map_fst, ← run_map_fst]
  exact (endsAlike_build checked journal journal (.refl _ journal)).1

theorem check_of_mapM {journal : Journal} {queries : List Query}
    (success : ((patterns.mapM fun pattern =>
      engine.build [pattern] optionals initial).run.run journal).1 = .ok queries) :
    ∀ pattern ∈ patterns, check [pattern] optionals = .ok () := by
  have built := forall₂_of_mapM success
  clear success
  induction built with
  | nil => exact List.forall_mem_nil _
  | cons here _ ih =>
    obtain ⟨journal, ends⟩ := here
    exact List.forall_mem_cons.mpr ⟨check_of_build ends, ih⟩

theorem build_eq_ok_iff {journal : Journal} {query : Query} :
    ((engine.build patterns optionals initial).run.run journal).1 = .ok query ↔
      ∃ queries, ((patterns.mapM fun pattern =>
        engine.build [pattern] optionals initial).run.run journal).1 = .ok queries ∧
          Query.unionOf queries = some query := by
  constructor
  · intro success
    have same := outcome_eq engine initial (check_of_build success) journal
    rw [success] at same
    exact map_eq_ok_iff.mp same.symm
  · rintro ⟨queries, success, joined⟩
    have filled : patterns ≠ [] := by
      rintro rfl
      cases success
      cases joined
    have checked := check_iff_each.mpr ⟨filled, check_of_mapM success⟩
    have same := outcome_eq engine initial checked journal
    rw [success] at same
    obtain ⟨built, ends, known⟩ := map_eq_ok_iff.mp same
    rw [ends, Option.some.inj (known.trans joined)]

/-- A build is made of the builds of its branches, run one after the other. It passes the check if
    they do. It succeeds if they do, with their union, and then its solutions are theirs in order; it
    fails as the first of them that does. -/
structure FoldsBranches (engine : Engine) (patterns optionals : List Pattern)
    (initial : List (Variable × Term)) : Prop where
  checked : check patterns optionals = .ok () ↔
    patterns ≠ [] ∧ ∀ pattern ∈ patterns, check [pattern] optionals = .ok ()
  query : ∀ journal query, ((engine.build patterns optionals initial).run.run journal).1 =
    .ok query ↔ ∃ queries, ((patterns.mapM fun pattern =>
      engine.build [pattern] optionals initial).run.run journal).1 = .ok queries ∧
        Query.unionOf queries = some query
  solutions : check patterns optionals = .ok () → ∀ journal,
    ((engine.build patterns optionals initial).run.run journal).1.map Query.solutions =
      ((patterns.mapM fun pattern => engine.build [pattern] optionals initial).run.run
        journal).1.map (List.flatMap Query.solutions)
  /-- Over a store whose answers never change it does not matter when a branch is built. -/
  alone : ∀ answers, engine.store.Answers answers → ∀ journal query,
    ((engine.build patterns optionals initial).run.run journal).1 = .ok query ↔
      ∃ queries, List.Forall₂ (fun pattern branch =>
        (engine.build [pattern] optionals initial).Yields branch) patterns queries ∧
          Query.unionOf queries = some query

theorem foldsBranches (engine : Engine) (patterns optionals : List Pattern)
    (initial : List (Variable × Term)) : engine.FoldsBranches patterns optionals initial := by
  refine ⟨check_iff_each, fun journal query => build_eq_ok_iff, ?_, ?_⟩
  · intro checked journal
    have same := outcome_eq engine initial checked journal
    cases ends : ((engine.build patterns optionals initial).run.run journal).1 with
    | ok query =>
      obtain ⟨queries, each, joined⟩ := build_eq_ok_iff.mp ends
      rw [each]
      exact congrArg Except.ok (Query.solutions_of_unionOf joined)
    | error cause =>
      rw [ends] at same
      cases each : ((patterns.mapM fun pattern =>
          engine.build [pattern] optionals initial).run.run journal).1 with
      | ok queries =>
        rw [each] at same
        cases same
      | error cause' =>
        rw [each] at same
        cases same
        rfl
  · intro answers steady journal query
    rw [build_eq_ok_iff]
    constructor
    · rintro ⟨queries, success, joined⟩
      refine ⟨queries, (forall₂_of_mapM success).imp ?_, joined⟩
      rintro pattern branch ⟨journal, ends⟩
      have alike := engine.endsAlike_buildBranch optionals initial 0 0 pattern
      rw [← engine.build_single initial (check_of_build ends)] at alike
      exact alike.yields steady ends
    · rintro ⟨queries, each, joined⟩
      obtain ⟨after, ran⟩ := yields_mapM each journal
      exact ⟨queries, congrArg Prod.fst ran, joined⟩

end Engine

end TripleJoin
