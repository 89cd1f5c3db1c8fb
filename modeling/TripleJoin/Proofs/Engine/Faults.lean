import TripleJoin.Proofs.Engine.Build
import TripleJoin.Proofs.Matcher.Errors
import TripleJoin.Proofs.Pattern.Scope
/-!
Malformed queries. The check finds the fault of the first branch that has one, a build ends with it
before anything is asked, and a build that passes the check never ends in a fault of its patterns. A
build that succeeds has passed it, and over a store whose answers never change it has come to the one
query there is.
-/
namespace TripleJoin

namespace Pattern

/-- A branch that can be matched: it has statements, and no variable of the clauses is contested. -/
structure Sound (pattern : Pattern) (optionals : List Pattern) : Prop where
  stated : pattern.statements ≠ []
  uncontested : ∀ v clause earlier, ¬ pattern.Contested optionals v clause earlier

/-- The fault of a branch. Only a branch with statements is asked for its contests. -/
inductive Faulty (pattern : Pattern) (optionals : List Pattern) (branch : Nat) :
    ConfigurationError → Prop where
  | empty (bare : pattern.statements = []) : Faulty pattern optionals branch (.emptyPattern branch)
  | scope {v : Variable} {clause earlier : Nat} (stated : pattern.statements ≠ [])
      (first : pattern.FirstContest optionals v clause earlier) :
      Faulty pattern optionals branch (.optionalScope v clause earlier)

end Pattern

namespace Engine

/-- The fault of a list of branches: there is none at all, or it is that of the first branch that is
    not sound. -/
inductive Faulty (patterns optionals : List Pattern) : ConfigurationError → Prop where
  | none (bare : patterns = []) : Faulty patterns optionals .noPatterns
  | branch {branch : Nat} {pattern : Pattern} {fault : ConfigurationError}
      (found : pattern ∈ patterns[branch]?) (faulty : pattern.Faulty optionals branch fault)
      (sound : ∀ i < branch, ∀ other ∈ patterns[i]?, other.Sound optionals) :
      Faulty patterns optionals fault

section

variable {pattern : Pattern} {patterns optionals before : List Pattern}
  {fault : ConfigurationError}

def branchFault? (optionals before : List Pattern) (pattern : Pattern) :
    Option ConfigurationError :=
  if pattern.isEmpty then some (.emptyPattern before.length)
  else match pattern.checkScope optionals with
    | .error fault => some fault
    | .ok _ => none

theorem branchFault?_eq_none_iff :
    branchFault? optionals before pattern = none ↔ pattern.Sound optionals := by
  unfold branchFault?
  split
  · rename_i bare
    simp only [reduceCtorEq, false_iff]
    exact fun sound => sound.stated (List.isEmpty_iff.mp bare)
  · rename_i stated
    have stated : pattern.statements ≠ [] := fun bare => stated (List.isEmpty_iff.mpr bare)
    split
    · rename_i fault faulty
      simp only [reduceCtorEq, false_iff]
      intro sound
      rw [Pattern.checkScope_eq_ok_iff.mpr sound.uncontested] at faulty
      cases faulty
    · rename_i fine
      simp only [true_iff]
      exact ⟨stated, Pattern.checkScope_eq_ok_iff.mp fine⟩

theorem branchFault?_eq_some_iff :
    branchFault? optionals before pattern = some fault ↔
      pattern.Faulty optionals before.length fault := by
  unfold branchFault?
  split
  · rename_i bare
    have bare := List.isEmpty_iff.mp bare
    constructor
    · rintro ⟨⟩
      exact .empty bare
    · rintro (_ | ⟨stated, _⟩)
      · rfl
      · exact absurd bare stated
  · rename_i stated
    have stated : pattern.statements ≠ [] := fun bare => stated (List.isEmpty_iff.mpr bare)
    split
    · rename_i cause faulty
      constructor
      · rintro ⟨⟩
        obtain ⟨v, clause, earlier, rfl, first⟩ := Pattern.checkScope_eq_error_iff.mp faulty
        exact .scope stated first
      · rintro (bare | ⟨_, first⟩)
        · exact absurd bare stated
        · have reported := Pattern.checkScope_eq_error_iff.mpr ⟨_, _, _, rfl, first⟩
          rw [faulty] at reported
          cases reported
          rfl
    · rename_i fine
      constructor
      · exact fun absurd => nomatch absurd
      · rintro (bare | ⟨_, first⟩)
        · exact absurd bare stated
        · exact absurd first.contested (Pattern.checkScope_eq_ok_iff.mp fine _ _ _)

theorem checkFrom_eq (before patterns : List Pattern) :
    checkFrom optionals before.length patterns =
      failIf (firstFault? (branchFault? optionals) before patterns) := by
  induction patterns generalizing before with
  | nil => rfl
  | cons pattern patterns ih =>
    -- the number of a branch is the number of branches before it
    have later := ih (before ++ [pattern])
    rw [List.length_append, List.length_singleton] at later
    rw [checkFrom, firstFault?, branchFault?, later]
    cases pattern.isEmpty with
    | true => rfl
    | false => cases pattern.checkScope optionals <;> rfl

theorem check_eq_error_iff :
    check patterns optionals = .error fault ↔ Faulty patterns optionals fault := by
  unfold check
  split
  · rename_i bare
    have bare := List.isEmpty_iff.mp bare
    constructor
    · rintro ⟨⟩
      exact .none bare
    · rintro (_ | ⟨found, _, _⟩)
      · rfl
      · rw [bare] at found
        cases found
  · rename_i stated
    rw [← List.length_nil (α := Pattern), checkFrom_eq, failIf_eq_error_iff,
      firstFault?_eq_some_iff]
    simp only [List.nil_append, branchFault?_eq_some_iff, branchFault?_eq_none_iff]
    constructor
    · rintro ⟨branch, pattern, found, faulty, sound⟩
      rw [length_take_of_found found] at faulty
      exact .branch found faulty sound
    · rintro (bare | @⟨branch, pattern, _, found, faulty, sound⟩)
      · exact absurd (List.isEmpty_iff.mpr bare) stated
      · refine ⟨branch, pattern, found, ?_, sound⟩
        rw [length_take_of_found found]
        exact faulty

theorem check_eq_ok_iff :
    check patterns optionals = .ok () ↔
      patterns ≠ [] ∧ ∀ pattern ∈ patterns, pattern.Sound optionals := by
  unfold check
  split
  · rename_i bare
    simp [List.isEmpty_iff.mp bare]
  · rename_i stated
    rw [← List.length_nil (α := Pattern), checkFrom_eq, failIf_eq_ok_iff, firstFault?_eq_none_iff]
    simp only [branchFault?_eq_none_iff]
    constructor
    · intro sound
      refine ⟨fun bare => stated (List.isEmpty_iff.mpr bare), ?_⟩
      intro pattern member
      obtain ⟨branch, found⟩ := List.getElem?_of_mem member
      exact sound branch pattern found
    · exact fun sound branch pattern found => sound.2 pattern (List.mem_of_getElem? found)

end

open Run QueryError

variable (engine : Engine) (optionals : List Pattern) (initial : List (Variable × Term))

theorem errsWithin_closeBranch (branch explored clauses : Nat) (root : Option Tree) :
    (engine.closeBranch branch explored clauses root).ErrsWithin OfMatching := by
  unfold closeBranch
  split
  · exact ErrsWithin.after_step fun _ => ErrsWithin.after_step fun _ => errsWithin_pure _
  · exact ErrsWithin.after_step fun _ => errsWithin_pure _

theorem errsWithin_buildBranch (branch : Nat) (pattern : Pattern) :
    (engine.buildBranch optionals initial branch pattern).ErrsWithin OfMatching := by
  apply ErrsWithin.after_step
  intro _
  refine (Matcher.errsWithin_expandFrom _ _ _ none).bind fun expanded => ?_
  apply ErrsWithin.after_step
  intro _
  cases expanded with
  | none => exact (errsWithin_pure none).bind (engine.errsWithin_closeBranch branch _ _)
  | some tree =>
    exact ((Tree.errsWithin_attach _ optionals tree).map some).bind
      (engine.errsWithin_closeBranch branch _ _)

theorem errsWithin_buildFrom (built : Query) (branch : Nat) (patterns : List Pattern) :
    (engine.buildFrom optionals initial built branch patterns).ErrsWithin OfMatching := by
  induction patterns generalizing built branch with
  | nil => exact errsWithin_pure built
  | cons pattern patterns ih =>
    exact (engine.errsWithin_buildBranch optionals initial branch pattern).bind fun query =>
      ih (built.union query) (branch + 1)

variable {optionals} {patterns : List Pattern}

/-- Once the check has passed, only the store and the callbacks can make a build fail. -/
theorem errsWithin_build (checked : check patterns optionals = .ok ()) :
    (engine.build patterns optionals initial).ErrsWithin OfMatching := by
  cases patterns with
  | nil => cases checked
  | cons pattern patterns =>
    rw [build, checked]
    refine (errsWithin_pure ()).bind fun _ => ?_
    exact (engine.errsWithin_buildBranch optionals initial 0 pattern).bind fun query =>
      engine.errsWithin_buildFrom optionals initial query 1 patterns

/-- A failed check ends the build at once: the journal stays as it is. -/
theorem build_of_fault {fault : ConfigurationError}
    (faulty : check patterns optionals = .error fault) (journal : Journal) :
    (engine.build patterns optionals initial).run.run journal =
      (.error (.configuration fault), journal) := by
  unfold build
  rw [faulty]
  rfl

section

variable {engine initial} {journal : Journal} {query : Query}

theorem check_of_build
    (built : ((engine.build patterns optionals initial).run.run journal).1 = .ok query) :
    check patterns optionals = .ok () := by
  cases checked : check patterns optionals with
  | ok _ => rfl
  | error fault =>
    rw [build_of_fault engine initial checked] at built
    cases built

/-- Over a store whose answers never change, a build that succeeds has made its branches, whatever
    the filters and the constraints do. -/
theorem eq_joined_of_build {answers : Request → List Triple}
    (steady : engine.store.Answers answers) {pattern : Pattern}
    (built : ((engine.build (pattern :: patterns) optionals initial).run.run journal).1 =
      .ok query) :
    query = engine.joined answers optionals initial
      (engine.branchQuery answers optionals initial pattern) patterns := by
  have checked := check_of_build built
  exact ((makes_build steady.answersOrFails checked initial).of_ok (Or.inl steady) built).1

end

/-- How a build treats the faults of its patterns. -/
structure FaultsFirst (engine : Engine) (patterns optionals : List Pattern)
    (initial : List (Variable × Term)) : Prop where
  exists_iff : (∃ fault, Faulty patterns optionals fault) ↔
    patterns = [] ∨ ∃ pattern ∈ patterns, ¬ pattern.Sound optionals
  /-- The fault is the result, and the journal has no new entry. -/
  reports : ∀ fault, Faulty patterns optionals fault → ∀ journal,
    (engine.build patterns optionals initial).run.run journal =
      (.error (.configuration fault), journal)
  otherwise : (∀ fault, ¬ Faulty patterns optionals fault) →
    (engine.build patterns optionals initial).ErrsWithin OfMatching
  succeeds : (∀ fault, ¬ Faulty patterns optionals fault) → ∀ graph : Graph,
    engine.store.Answers graph.matching →
    (∀ pattern ∈ patterns, pattern.Decides graph.matching) →
    (∀ clause ∈ optionals, clause.Decides graph.matching) →
    ∃ query, (engine.build patterns optionals initial).Yields query

theorem check_of_faultless (faultless : ∀ fault, ¬ Faulty patterns optionals fault) :
    check patterns optionals = .ok () := by
  cases result : check patterns optionals with
  | ok => rfl
  | error fault => exact absurd (check_eq_error_iff.mp result) (faultless fault)

/-- Whatever the store and the callbacks do, faults of the patterns are found first, and only they
    make a configuration error. -/
theorem build_faults_first (engine : Engine) (patterns optionals : List Pattern)
    (initial : List (Variable × Term)) : engine.FaultsFirst patterns optionals initial := by
  refine ⟨?_, ?_, ?_, ?_⟩
  · constructor
    · rintro ⟨fault, faulty⟩
      rw [Classical.or_iff_not_imp_left]
      refine fun stated => Classical.byContradiction fun none => ?_
      have sound : ∀ pattern ∈ patterns, pattern.Sound optionals := fun pattern member =>
        Classical.byContradiction fun unsound => none ⟨pattern, member, unsound⟩
      rw [← check_eq_error_iff, check_eq_ok_iff.mpr ⟨stated, sound⟩] at faulty
      cases faulty
    · intro unsound
      refine Classical.byContradiction fun faultless => ?_
      rw [not_exists] at faultless
      obtain ⟨stated, sound⟩ := check_eq_ok_iff.mp (check_of_faultless faultless)
      rcases unsound with bare | ⟨pattern, member, faulty⟩
      · exact stated bare
      · exact faulty (sound pattern member)
  · intro fault faulty
    exact engine.build_of_fault initial (check_eq_error_iff.mpr faulty)
  · intro faultless
    exact engine.errsWithin_build initial (check_of_faultless faultless)
  · intro faultless graph steady decides decide
    have checked := check_of_faultless faultless
    cases patterns with
    | nil => cases checked
    | cons pattern patterns =>
      exact ⟨_, yields_build_branches steady checked decides decide initial⟩

/-- The second branch lacks a variable that two clauses share; the store would fail at once. -/
theorem faults_first_of_shared_variable :
    let statement := fun subject predicate object : String => Statement.ofPattern
      ⟨.free ⟨subject⟩, .fixed (.iri predicate), .free ⟨object⟩⟩
    let patterns := [Pattern.ofStatements [statement "x" "knows" "z"],
      .ofStatements [statement "x" "knows" "y"]]
    let optionals := [Pattern.ofStatements [statement "x" "likes" "z"],
      .ofStatements [statement "y" "likes" "z"]]
    let store := (Store.ofGraph "memory" .empty true).failingFrom 1 "offline"
    Faulty patterns optionals (.optionalScope ⟨"z"⟩ 1 0) ∧ ∀ journal,
      ((Engine.mk store {}).build patterns optionals []).run.run journal =
        (.error (.configuration (.optionalScope ⟨"z"⟩ 1 0)), journal) := by
  intro statement patterns optionals store
  have faulty : Faulty patterns optionals (.optionalScope ⟨"z"⟩ 1 0) :=
    check_eq_error_iff.mp rfl
  exact ⟨faulty, (build_faults_first ⟨store, {}⟩ patterns optionals []).reports _ faulty⟩

end Engine

end TripleJoin
