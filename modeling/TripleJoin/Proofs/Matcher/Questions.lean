import TripleJoin.Proofs.Matcher.Calls
import TripleJoin.Proofs.Matcher.Ways
/-!
Which constraints are asked, about what and in which order. Matching asks about each complete match
that there is without the constraints, in match order; a clause asks about its own matches at a leaf,
with the values of the leaf behind them. Constraints may put questions to the store in between.
-/
namespace TripleJoin

def Pattern.unconstrained (pattern : Pattern) : Pattern := { pattern with constraints := [] }

/-- The questions about a binding: to each constraint in turn, numbered from `index` on, up to and
    with the first that does not hold. -/
def Constraint.questions (answers : Request → List Triple) (seen : Binding) (index : Nat)
    (constraints : List Constraint) : List Entry :=
  let held := constraints.takeWhile fun constraint => constraint.holds answers seen
  ((constraints.zipIdx index).take (held.length + 1)).map fun entry =>
    .constraint entry.2 seen entry.1.watched

theorem Constraint.questions_cons (answers : Request → List Triple) (seen : Binding) (index : Nat)
    (constraint : Constraint) (constraints : List Constraint) :
    questions answers seen index (constraint :: constraints) =
      .constraint index seen constraint.watched ::
        if constraint.holds answers seen then questions answers seen (index + 1) constraints
        else [] := by
  rw [questions, List.takeWhile_cons]
  cases constraint.holds answers seen <;> rfl

/-- The questions to constraints among the entries that calls leave. -/
def Call.questions (source : Source) (calls : List Call) : List Entry :=
  (calls.map (Call.entry source)).filter Entry.isQuestion

section

variable (source : Source) {calls more : List Call}

theorem Call.questions_append :
    questions source (calls ++ more) = questions source calls ++ questions source more := by
  rw [questions, List.map_append, List.filter_append]
  rfl

theorem Call.questions_flatMap {α : Type} (xs : List α) (callsOf : α → List Call) :
    questions source (xs.flatMap callsOf) = xs.flatMap fun x => questions source (callsOf x) := by
  rw [questions, List.map_flatMap, List.filter_flatMap]
  rfl

theorem Statement.questions_filterCalls (statement : Statement) (triple : Triple) :
    Call.questions source (statement.filterCalls triple) = [] := by
  unfold filterCalls
  cases statement.filter <;> rfl

end

namespace Matcher

def unconstrained (matcher : Matcher) : Matcher := { matcher with constraints := [] }

theorem rows_eq_filter (matcher : Matcher) (answers : Request → List Triple)
    (statements : List Statement) (binding : Binding) :
    matcher.rows answers statements binding =
      (matcher.unconstrained.rows answers statements binding).filter
        (matcher.admitsLeaf answers) := by
  induction statements generalizing binding with
  | nil =>
    have free : matcher.unconstrained.admitsLeaf answers binding = true := rfl
    rw [rows, rows, free, Bool.and_true]
    cases binding.isComplete with
    | false => rfl
    | true => rw [Bool.true_and, if_pos rfl, List.filter_cons, List.filter_nil]
  | cons head rest ih =>
    rw [rows, rows, List.filter_flatMap]
    exact congrArg (List.flatMap · _) (funext ih)

/-- The questions of a matcher: about each match of the statements without the constraints. -/
def questions (matcher : Matcher) (answers : Request → List Triple) (statements : List Statement)
    (binding : Binding) : List Entry :=
  (matcher.unconstrained.rows answers statements binding).flatMap fun row =>
    Constraint.questions answers (matcher.view row) 0 matcher.constraints

/-- The questions among the calls for some constraints. -/
theorem questions_constraintCalls (source : Source) (answers : Request → List Triple)
    (seen : Binding) (index : Nat) (constraints : List Constraint) :
    Call.questions source (constraintCalls answers seen index constraints) =
      Constraint.questions answers seen index constraints := by
  induction constraints generalizing index with
  | nil => rfl
  | cons constraint constraints ih =>
    rw [constraintCalls, Constraint.questions_cons, ← ih]
    cases constraint.holds answers seen <;> rfl

/-- The questions among the calls of a search are about the matches without the constraints. -/
theorem questions_calls (matcher : Matcher) (answers : Request → List Triple)
    (statements : List Statement) (binding : Binding) :
    Call.questions matcher.source (matcher.calls answers statements binding) =
      matcher.questions answers statements binding := by
  induction statements generalizing binding with
  | nil =>
    have free : matcher.unconstrained.admitsLeaf answers binding = true := rfl
    rw [calls, questions, rows, free, Bool.and_true]
    cases binding.isComplete with
    | false => rfl
    | true =>
      rw [if_pos rfl, if_pos rfl, List.flatMap_singleton]
      exact questions_constraintCalls _ answers _ 0 _
  | cons head rest ih =>
    let statement := head.substitute binding
    have below : Call.questions matcher.source (matcher.calls answers (head :: rest) binding) =
        (answers statement.request).flatMap fun candidate =>
          Call.questions matcher.source
            (((childOf statement binding candidate).map (matcher.calls answers rest)).getD []) := by
      rw [calls, ← List.singleton_append, Call.questions_append, Call.questions_flatMap]
      simp only [Call.questions_append, Statement.questions_filterCalls, List.nil_append]
      rfl
    rw [below, questions, rows, extensions, List.filterMap_eq_flatMap_toList, List.flatMap_assoc,
      List.flatMap_assoc]
    apply List.flatMap_congr
    intro candidate _
    cases childOf statement binding candidate with
    | none => rfl
    | some next =>
      rw [Option.toList_some, List.flatMap_singleton]
      exact ih next

end Matcher

namespace Tree

theorem boundLeavesAll_eq_flatMap (trees : List Tree) :
    boundLeavesAll trees = trees.flatMap boundLeaves := by
  induction trees with
  | nil => rfl
  | cons tree trees ih => rw [boundLeavesAll, List.flatMap_cons, ih]

/-- The bound leaves of a grown tree are its rows. -/
theorem boundLeaves_grow (matcher : Matcher) (answers : Request → List Triple)
    (statements : List Statement) (binding : Binding) (matched : Option Triple) :
    (matcher.grow answers statements binding matched).toList.flatMap boundLeaves =
      matcher.rows answers statements binding := by
  induction statements generalizing binding matched with
  | nil =>
    rw [Matcher.grow, Matcher.rows]
    cases complete : binding.isComplete with
    | false => simp [boundLeaves, complete]
    | true => cases matcher.admitsLeaf answers binding <;> simp [boundLeaves, complete]
  | cons head rest ih =>
    let statement := head.substitute binding
    have children : ((answers statement.request).filterMap fun candidate =>
        (Matcher.childOf statement binding candidate).bind fun next =>
          matcher.grow answers rest next (some candidate)).flatMap boundLeaves =
        matcher.rows answers (head :: rest) binding := by
      rw [Matcher.rows, Matcher.extensions, List.filterMap_eq_flatMap_toList,
        List.filterMap_eq_flatMap_toList, List.flatMap_assoc, List.flatMap_assoc]
      apply List.flatMap_congr
      intro candidate _
      cases Matcher.childOf (head.substitute binding) binding candidate with
      | none => rfl
      | some next =>
        rw [Option.bind_some, ih, Option.toList_some, List.flatMap_singleton]
    rw [← children, Matcher.grow]
    split
    · rename_i empty
      rw [List.isEmpty_iff] at empty
      rw [empty]
      rfl
    · rw [Option.toList_some, List.flatMap_singleton, boundLeaves, boundLeavesAll_eq_flatMap]

/-- The questions of a clause at a leaf: about each match that it has there without its constraints,
    seen in front of the leaf. -/
def clauseQuestions (source : Source) (answers : Request → List Triple) (leaf : Binding)
    (clause : Pattern) : List Entry :=
  (rowsOf (clauseTree source answers leaf clause.unconstrained)).flatMap fun row =>
    Constraint.questions answers (row.overlay leaf) 0 clause.constraints

theorem questions_clauseCalls (source : Source) (answers : Request → List Triple) (leaf : Binding)
    (clause : Pattern) :
    Call.questions source (clauseCalls source answers leaf clause) =
      clauseQuestions source answers leaf clause := by
  let matcher : Matcher := ⟨source, (clause.substitute leaf).constraints, some leaf⟩
  have asked : clauseQuestions source answers leaf clause =
      matcher.questions answers (clause.substitute leaf).statements
        (.unbound (clause.substitute leaf).unbounds) := by
    rw [Matcher.questions, ← matcher.unconstrained.rowsOf_grow answers _ _ none]
    rfl
  rw [asked]
  exact matcher.questions_calls answers _ _

end Tree

end TripleJoin
