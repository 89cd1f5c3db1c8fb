import TripleJoin.Proofs.Pattern.Scope
import TripleJoin.Proofs.Query.Reconstruction
/-!
A filter is a constraint that is asked early. What a statement took stays what it is under every
binding further down, so a constraint on the complete binding can still tell what the filter would
have said of the candidate; it only rejects one by one the rows that the filter never comes to.
Either way what is left are the solutions in which the statement passes the test.
-/
namespace TripleJoin

/-- The triple that a pattern without variables stands for. -/
def TriplePattern.triple? (pattern : TriplePattern) : Option Triple := do
  let subject ← pattern.subject.fixed?
  let predicate ← pattern.predicate.fixed?
  let object ← pattern.object.fixed?
  return ⟨subject, predicate, object⟩

@[simp] theorem TriplePattern.triple?_ofTriple (triple : Triple) :
    (ofTriple triple).triple? = some triple := rfl

/-- A test of the three slots of a pattern, resolved in the binding. -/
def Constraint.ofSlots (pattern : TriplePattern) (accepts : Triple → Bool) : Constraint :=
  .ofPredicate fun binding => (pattern.substitute binding).triple?.any accepts

/-- Among bindings that extend one where the pattern is a triple, the test keeps all or none. -/
theorem TriplePattern.filter_any_triple? {pattern : TriplePattern} {base : Binding}
    {triple : Triple} (spelled : pattern.substitute base = .ofTriple triple) {rows : List Binding}
    (kept : ∀ row ∈ rows, row.Extends base) (accepts : Triple → Bool) :
    (rows.filter fun row => (pattern.substitute row).triple?.any accepts) =
      if accepts triple then rows else [] := by
  have constant : ∀ row ∈ rows,
      (pattern.substitute row).triple?.any accepts = accepts triple := by
    intro row member
    rw [substitute_of_extends (kept row member) spelled, triple?_ofTriple, Option.any_some]
  rw [List.filter_congr constant]
  cases accepts triple <;> simp

def Statement.filterBy (statement : Statement) (accepts : Triple → Bool) : Statement :=
  { statement with filter := some (.ofPredicate accepts) }

def Pattern.filterAt (pattern : Pattern) (place : Nat) (accepts : Triple → Bool) : Pattern :=
  { pattern with
    statements := pattern.statements.modify place fun statement => statement.filterBy accepts }

theorem Pattern.isEmpty_filterAt (pattern : Pattern) (place : Nat) (accepts : Triple → Bool) :
    (pattern.filterAt place accepts).isEmpty = pattern.isEmpty := by
  cases stated : pattern.statements <;> cases place <;> simp [isEmpty, filterAt, stated]

theorem Constraint.decides_ofSlots (pattern : TriplePattern) (accepts : Triple → Bool)
    (answers : Request → List Triple) : (ofSlots pattern accepts).Decides answers :=
  fun _ => ⟨_, rfl⟩

namespace Pattern.Decides

variable {pattern : Pattern} {answers : Request → List Triple}

theorem filterAt (decides : pattern.Decides answers) (place : Nat) (accepts : Triple → Bool) :
    (pattern.filterAt place accepts).Decides answers := by
  refine ⟨fun statement member => ?_, decides.constraints⟩
  obtain ⟨index, found⟩ := List.mem_iff_getElem?.mp member
  rw [Pattern.filterAt, List.getElem?_modify, Option.map_eq_map, Option.map_eq_some_iff] at found
  obtain ⟨original, stated, rfl⟩ := found
  split
  · exact Statement.decides_of_predicate rfl
  · exact decides.filters original (List.mem_of_getElem? stated)

theorem constrain (decides : pattern.Decides answers) {constraints : List Constraint}
    (decide : ∀ constraint ∈ constraints, constraint.Decides answers) :
    (pattern.constrain constraints).Decides answers :=
  ⟨decides.filters, List.forall_mem_append.mpr ⟨decides.constraints, decide⟩⟩

end Pattern.Decides

namespace Matcher

variable (matcher : Matcher) (answers : Request → List Triple)

/-- The matcher with one more constraint, behind its own. -/
def constrain (extra : Constraint) : Matcher :=
  { matcher with constraints := matcher.constraints ++ [extra] }

/-- A constraint drops rows and does nothing else. -/
theorem rows_constrain (extra : Constraint) (statements : List Statement) (binding : Binding) :
    (matcher.constrain extra).rows answers statements binding =
      (matcher.rows answers statements binding).filter fun row =>
        extra.holds answers (matcher.view row) := by
  induction statements generalizing binding with
  | nil =>
    have leaf : (matcher.constrain extra).admitsLeaf answers binding =
        (matcher.admitsLeaf answers binding && extra.holds answers (matcher.view binding)) := by
      rw [admitsLeaf, constrain, List.all_append, List.all_cons, List.all_nil, Bool.and_true]
      rfl
    rw [rows, rows, leaf, ← Bool.and_assoc]
    cases binding.isComplete && matcher.admitsLeaf answers binding with
    | false => rfl
    | true => rw [Bool.true_and, if_pos rfl, List.filter_cons, List.filter_nil]
  | cons head rest ih =>
    rw [rows, rows, List.filter_flatMap]
    exact congrArg (List.flatMap · _) (funext ih)

theorem extends_of_mem_rows {statements : List Statement} {binding row : Binding}
    (member : row ∈ matcher.rows answers statements binding) : row.Extends binding := by
  rw [rows_eq_ways] at member
  obtain ⟨way, found, rfl⟩ := List.mem_map.mp member
  exact extends_of_mem_ways found

variable (accepts : Triple → Bool)

/-- Below a child the statement is the candidate that made the child. -/
theorem filter_rows_of_childOf {head : Statement} {rest : List Statement} {binding next : Binding}
    {candidate : Triple} (known : ∀ v ∈ head.freeVariables, v ∈ binding.keys)
    (child : childOf (head.substitute binding) binding candidate = some next) :
    ((matcher.rows answers rest next).filter fun row =>
        (head.toTriplePattern.substitute row).triple?.any accepts) =
      if accepts candidate then matcher.rows answers rest next else [] := by
  rw [childOf_substitute, Statement.take?, Option.ite_none_right_eq_some] at child
  have taken := Binding.substitute_extended child.2 known
  exact TriplePattern.filter_any_triple? taken
    (fun _ member => extends_of_mem_rows matcher answers member) accepts

/-- A filter at the head drops the rows in which the statement is a triple that it rejects. -/
theorem rows_filterBy {head : Statement} {rest : List Statement} {binding : Binding}
    (unfiltered : head.filter = none) (known : ∀ v ∈ head.freeVariables, v ∈ binding.keys) :
    matcher.rows answers (head.filterBy accepts :: rest) binding =
      (matcher.rows answers (head :: rest) binding).filter fun row =>
        (head.toTriplePattern.substitute row).triple?.any accepts := by
  have child : ∀ candidate,
      childOf ((head.filterBy accepts).substitute binding) binding candidate =
        if accepts candidate then childOf (head.substitute binding) binding candidate
        else none := by
    intro candidate
    have passes : (head.substitute binding).passes candidate = true := by
      rw [Statement.passes, Statement.substitute, unfiltered, Option.all_none]
    rw [childOf, childOf, passes]
    rfl
  simp only [rows, extensions, List.filter_flatMap, List.filterMap_eq_flatMap_toList,
    List.flatMap_assoc]
  apply List.flatMap_congr
  intro candidate _
  rw [child]
  cases made : childOf (head.substitute binding) binding candidate with
  | none => simp
  | some next =>
    rw [Option.toList_some, List.flatMap_singleton,
      matcher.filter_rows_of_childOf answers accepts known made]
    cases accepts candidate <;> simp

/-- So does a filter further down: the rows of each child are dropped alike. -/
theorem rows_modify {statements : List Statement} {place : Nat} {statement : Statement}
    (stated : statements[place]? = some statement) (unfiltered : statement.filter = none)
    {binding : Binding} (covers : binding.Covers statements) :
    matcher.rows answers (statements.modify place fun statement => statement.filterBy accepts)
        binding =
      (matcher.rows answers statements binding).filter fun row =>
        (statement.toTriplePattern.substitute row).triple?.any accepts := by
  induction statements generalizing place binding with
  | nil => cases stated
  | cons head rest ih =>
    cases place with
    | zero =>
      cases stated
      exact matcher.rows_filterBy answers accepts unfiltered (covers _ List.mem_cons_self)
    | succ place =>
      rw [List.modify_succ_cons, rows, rows, List.filter_flatMap]
      apply List.flatMap_congr
      intro next extended
      obtain ⟨candidate, _, child⟩ := List.mem_filterMap.mp extended
      rw [childOf, Option.ite_none_right_eq_some] at child
      exact ih stated (covers.tail (Binding.keys_extended child.2))

/-- Every row turns each statement into a triple. -/
theorem exists_spelled_of_mem_rows {statements : List Statement} {binding row : Binding}
    (covers : binding.Covers statements) (member : row ∈ matcher.rows answers statements binding)
    {statement : Statement} (stated : statement ∈ statements) :
    ∃ triple, statement.toTriplePattern.substitute row = .ofTriple triple := by
  rw [rows_eq_ways] at member
  obtain ⟨way, found, rfl⟩ := List.mem_map.mp member
  have spells := spells_of_mem_ways covers found
  obtain ⟨place, inside, rfl⟩ := List.mem_iff_getElem.mp stated
  exact ⟨_, spells.get inside (spells.length_eq ▸ inside)⟩

end Matcher

/-- Clauses that are joined in leave the verdict of a test on the main pattern as it was. -/
theorem Engine.filter_rowsOf_branchRoot (engine : Engine) {answers : Request → List Triple}
    {pattern : Pattern} (built : pattern.Built) (clauses : List Pattern)
    (initial : List (Variable × Term)) {statement : Statement}
    (stated : statement ∈ pattern.statements) (accepts : Triple → Bool) :
    Tree.rowsOf (engine.branchRoot answers clauses initial
        (pattern.constrain [.ofSlots statement.toTriplePattern accepts])) =
      (Tree.rowsOf (engine.branchRoot answers clauses initial pattern)).filter fun row =>
        (statement.toTriplePattern.substitute row).triple?.any accepts := by
  let matcher : Matcher := ⟨engine.store.toSource, pattern.constraints, none⟩
  let test := fun row => (statement.toTriplePattern.substitute row).triple?.any accepts
  let rows := matcher.rows answers pattern.statements (.withValues pattern.unbounds initial)
  let below := Tree.rowsAt engine.store.toSource answers clauses
  -- a leaf is bound, so all rows that it contributes pass or fail with it
  have each : ∀ leaf ∈ rows, (below leaf).filter test = if test leaf then below leaf else [] := by
    intro leaf member
    obtain ⟨triple, spelled⟩ :=
      matcher.exists_spelled_of_mem_rows answers (built.covers initial) member stated
    have complete := matcher.complete_of_mem_rows answers member
    have verdict : test leaf = accepts triple := by simp [test, spelled]
    rw [verdict]
    exact TriplePattern.filter_any_triple? spelled
      (fun _ listed => Tree.extends_of_mem_rowsAt complete listed) accepts
  have kept := matcher.rows_constrain answers (.ofSlots statement.toTriplePattern accepts)
    pattern.statements (.withValues pattern.unbounds initial)
  rw [rowsOf_branchRoot, rowsOf_branchRoot, List.filter_flatMap]
  calc ((matcher.constrain (.ofSlots statement.toTriplePattern accepts)).rows answers
        pattern.statements (.withValues pattern.unbounds initial)).flatMap below
    _ = (rows.filter test).flatMap below := congrArg (List.flatMap below) kept
    _ = (rows.filter test).flatMap fun leaf => if test leaf then below leaf else [] := by
        apply List.flatMap_congr
        intro leaf member
        rw [if_pos (List.mem_filter.mp member).2]
    _ = rows.flatMap fun leaf => if test leaf then below leaf else [] :=
        Matcher.flatMap_filter (fun leaf failed => by simp [failed]) rows
    _ = rows.flatMap fun leaf => (below leaf).filter test :=
        List.flatMap_congr fun leaf member => (each leaf member).symm

/-- A pattern with a filter on a statement that had none has the solutions of the pattern with the
    same test as a constraint instead, in the same order and as many times, whatever is attached to
    it: the solutions of the plain pattern in which the statement passes the test. -/
theorem solutions_filterAt_eq_constrain (name : String) (graph : Graph) (watched : Bool)
    (config : Config) {pattern : Pattern} (built : pattern.Built)
    (decides : pattern.Decides graph.matching) {clauses : List Pattern}
    (scope : pattern.checkScope clauses = .ok ())
    (decide : ∀ clause ∈ clauses, clause.Decides graph.matching) {place : Nat}
    {statement : Statement} (stated : pattern.statements[place]? = some statement)
    (unfiltered : statement.filter = none) (accepts : Triple → Bool)
    (initial : List (Variable × Term)) :
    let engine : Engine := ⟨.ofGraph name graph watched, config⟩
    ∃ plain early late,
      (engine.build [pattern] clauses initial).Yields plain ∧
      (engine.build [pattern.filterAt place accepts] clauses initial).Yields early ∧
      (engine.build [pattern.constrain [.ofSlots statement.toTriplePattern accepts]] clauses
        initial).Yields late ∧
      early.solutions = late.solutions ∧
      late.solutions = plain.solutions.filter fun solution =>
        (statement.toTriplePattern.substitute solution).triple?.any accepts := by
  intro engine
  let filtered := pattern.filterAt place accepts
  let test := Constraint.ofSlots statement.toTriplePattern accepts
  have steady : engine.store.Answers graph.matching := answers_ofGraph name graph watched
  have listed : statement ∈ pattern.statements := List.mem_of_getElem? stated
  have filled : pattern.isEmpty = false :=
    List.isEmpty_eq_false_iff_exists_mem.mpr ⟨statement, listed⟩
  have filled' : (pattern.constrain [test]).isEmpty = false := filled
  have filled'' : filtered.isEmpty = false :=
    (pattern.isEmpty_filterAt place accepts).trans filled
  have wellScoped := Pattern.checkScope_eq_ok_iff_wellScoped.mp scope
  have scope' : (pattern.constrain [test]).checkScope clauses = .ok () :=
    Pattern.checkScope_eq_ok_iff_wellScoped.mpr wellScoped
  have scope'' : filtered.checkScope clauses = .ok () :=
    Pattern.checkScope_eq_ok_iff_wellScoped.mpr wellScoped
  have decides' : (pattern.constrain [test]).Decides graph.matching :=
    decides.constrain
      (List.forall_mem_singleton.mpr (Constraint.decides_ofSlots _ accepts graph.matching))
  refine ⟨_, _, _, Engine.yields_build steady filled scope decides decide initial,
    Engine.yields_build steady filled'' scope'' (decides.filterAt place accepts) decide initial,
    Engine.yields_build steady filled' scope' decides' decide initial, ?_,
    engine.filter_rowsOf_branchRoot built clauses initial listed accepts⟩
  let matcher : Matcher := ⟨engine.store.toSource, pattern.constraints, none⟩
  let root := Binding.withValues pattern.unbounds initial
  have same : matcher.rows graph.matching filtered.statements root =
      (matcher.constrain test).rows graph.matching pattern.statements root := by
    rw [Matcher.rows_constrain]
    exact matcher.rows_modify graph.matching accepts stated unfiltered (built.covers initial)
  change Tree.rowsOf (engine.branchRoot graph.matching clauses initial filtered) =
    Tree.rowsOf (engine.branchRoot graph.matching clauses initial (pattern.constrain [test]))
  rw [Engine.rowsOf_branchRoot, Engine.rowsOf_branchRoot]
  exact congrArg (List.flatMap _) same

open Sample in
/-- The filter is on a statement with a repeated variable, in the middle of the pattern. -/
theorem solutions_filterAt_of_loops :
    let graph := Graph.ofList [link "a" "a", link "a" "b", link "b" "b", link "b" "c"]
    let pattern := (Pattern.ofStatements [linked "x" "y", linked "y" "y", linked "y" "z"]).constrain
      [.ofPredicate fun binding => binding.get? ⟨"x"⟩ ≠ binding.get? ⟨"z"⟩]
    let accepts := fun triple : Triple => decide (triple.subject ≠ .iri "a")
    let engine : Engine := ⟨.ofGraph "memory" graph true, {}⟩
    let initial := [(⟨"x"⟩, .iri "a")]
    let row := fun y z : String =>
      Binding.withValues [⟨"x"⟩, ⟨"y"⟩, ⟨"z"⟩] (initial ++ [(⟨"y"⟩, .iri y), (⟨"z"⟩, .iri z)])
    ∃ plain early late,
      (engine.build [pattern] [] initial).Yields plain ∧
      (engine.build [pattern.filterAt 1 accepts] [] initial).Yields early ∧
      (engine.build [pattern.constrain [.ofSlots (linked "y" "y").toTriplePattern accepts]] []
        initial).Yields late ∧
      plain.solutions = [row "a" "b", row "b" "b", row "b" "c"] ∧
      early.solutions = late.solutions ∧ late.solutions = [row "b" "b", row "b" "c"] := by
  intro graph pattern accepts engine initial row
  have built : pattern.Built := (Pattern.built_ofStatements _).constrain _
  have decides : pattern.Decides graph.matching :=
    ⟨fun statement member => Statement.decides_of_unfiltered (by revert statement; decide),
      List.forall_mem_singleton.mpr fun binding => ⟨_, rfl⟩⟩
  obtain ⟨plain, early, late, yields, yields', yields'', same, kept⟩ :=
    solutions_filterAt_eq_constrain "memory" graph true {} built decides
      (Engine.checkScope_nil pattern) (List.forall_mem_nil _)
      (rfl : pattern.statements[1]? = some (linked "y" "y")) rfl accepts initial
  have steady : engine.store.Answers graph.matching := answers_ofGraph _ _ _
  have solutions : plain.solutions = [row "a" "b", row "b" "b", row "b" "c"] := by
    rw [yields.unique (Engine.yields_build steady rfl (Engine.checkScope_nil _) decides
      (List.forall_mem_nil _) initial)]
    simp only [Query.solutions, Engine.branchRoot, funext (Graph.matching_eq_filter _), graph,
      Graph.toList_ofList]
    decide
  refine ⟨plain, early, late, yields, yields', yields'', solutions, same, ?_⟩
  rw [kept, solutions]
  decide

end TripleJoin
