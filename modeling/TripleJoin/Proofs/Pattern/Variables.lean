import TripleJoin.Proofs.Distinct
/-!
The variables of a pattern. A pattern keeps exactly the variables of its statements, each at its
first appearance, whichever way it was built.
-/
namespace TripleJoin

theorem TriplePattern.freeVariables_substitute (pattern : TriplePattern) (binding : Binding) :
    (pattern.substitute binding).freeVariables =
      pattern.freeVariables.filter fun v => !binding.isBound v := by
  have slot : ∀ slot : Slot, (slot.substitute binding).free? =
      slot.free?.filter fun v => !binding.isBound v := by
    intro slot
    cases slot with
    | fixed term => rfl
    | free v =>
      cases value : binding.get? v with
      | none => simp [Slot.substitute, Slot.free?, Binding.isBound, value, Option.filter]
      | some term => simp [Slot.substitute, Slot.free?, Binding.isBound, value, Option.filter]
  have slots : (pattern.substitute binding).slots =
      pattern.slots.map fun slot => slot.substitute binding := rfl
  rw [freeVariables, slots, List.filterMap_map, freeVariables, List.filter_filterMap]
  exact congrArg (List.filterMap · pattern.slots) (funext slot)

theorem TriplePattern.freeVariables_eq (pattern : TriplePattern) :
    pattern.freeVariables = pattern.subject.free?.toList ++
      (pattern.predicate.free?.toList ++ pattern.object.free?.toList) := by
  simp only [freeVariables, slots]
  cases pattern.subject <;> cases pattern.predicate <;> cases pattern.object <;> rfl

/-- What holds of the variables of a pattern holds of the variable of each slot. -/
theorem TriplePattern.forall_free {p : Variable → Prop} {pattern : TriplePattern}
    (all : ∀ v ∈ pattern.freeVariables, p v) :
    (∀ v ∈ pattern.subject.free?, p v) ∧ (∀ v ∈ pattern.predicate.free?, p v) ∧
      ∀ v ∈ pattern.object.free?, p v := by
  have slots : ∀ slot ∈ pattern.slots, ∀ v ∈ slot.free?, p v := by
    intro slot member v free
    exact all v (List.mem_filterMap.mpr ⟨slot, member, free⟩)
  simp only [TriplePattern.slots, List.forall_mem_cons] at slots
  exact ⟨slots.1, slots.2.1, slots.2.2.1⟩

namespace Pattern

/-- The patterns that the operations on patterns make. -/
inductive Built : Pattern → Prop where
  | empty : Built empty
  | add {pattern : Pattern} (built : Built pattern) (statement : Statement) :
      Built (pattern.add statement)
  | prepend {pattern : Pattern} (built : Built pattern) (statements : List Statement) :
      Built (pattern.prepend statements)
  | declare {pattern : Pattern} (built : Built pattern) (label : String) :
      Built (pattern.declare label)
  | constrain {pattern : Pattern} (built : Built pattern) (constraints : List Constraint) :
      Built (pattern.constrain constraints)
  | merge {a b : Pattern} (first : Built a) (second : Built b) : Built (a.merge b)
  | substitute {pattern : Pattern} (built : Built pattern) (binding : Binding) :
      Built (pattern.substitute binding)

theorem Built.addAll {pattern : Pattern} (built : pattern.Built) (statements : List Statement) :
    (pattern.addAll statements).Built := by
  induction statements generalizing pattern with
  | nil => exact built
  | cons statement statements ih => exact ih (built.add statement)

theorem built_ofStatements (statements : List Statement) : (ofStatements statements).Built :=
  Built.empty.addAll statements

theorem addAll_statements (pattern : Pattern) (statements : List Statement) :
    (pattern.addAll statements).statements = pattern.statements ++ statements := by
  unfold addAll
  induction statements generalizing pattern with
  | nil => exact (List.append_nil _).symm
  | cons statement statements ih =>
    rw [List.foldl_cons, ih, add, List.append_assoc, List.singleton_append]

theorem addAll_constraints (pattern : Pattern) (statements : List Statement) :
    (pattern.addAll statements).constraints = pattern.constraints := by
  unfold addAll
  induction statements generalizing pattern with
  | nil => rfl
  | cons statement statements ih => exact ih (pattern.add statement)

theorem ofStatements_statements (statements : List Statement) :
    (ofStatements statements).statements = statements := by
  rw [ofStatements, addAll_statements, empty, List.nil_append]

theorem declareAll_statements (pattern : Pattern) (labels : List String) :
    (pattern.declareAll labels).statements = pattern.statements := by
  unfold declareAll
  induction labels generalizing pattern with
  | nil => rfl
  | cons label labels ih => exact ih (pattern.declare label)

theorem declareAll_unbounds (pattern : Pattern) (labels : List String) :
    (pattern.declareAll labels).unbounds = pattern.unbounds := by
  unfold declareAll
  induction labels generalizing pattern with
  | nil => rfl
  | cons label labels ih => exact ih (pattern.declare label)

theorem add_unbounds {pattern : Pattern}
    (exact : pattern.unbounds = variablesOf pattern.statements) (statement : Statement) :
    (pattern.add statement).unbounds = variablesOf (pattern.add statement).statements := by
  simp only [add, variablesOf, List.flatMap_append, List.flatMap_cons, List.flatMap_nil,
    List.append_nil, List.foldl_append]
  rw [exact]
  rfl

theorem addAll_unbounds {pattern : Pattern}
    (exact : pattern.unbounds = variablesOf pattern.statements) (statements : List Statement) :
    (pattern.addAll statements).unbounds = variablesOf (pattern.addAll statements).statements := by
  unfold addAll
  induction statements generalizing pattern with
  | nil => exact exact
  | cons statement statements ih => exact ih (add_unbounds exact statement)

theorem variablesOf_substitute (statements : List Statement) (binding : Binding) :
    variablesOf (statements.map fun statement => statement.substitute binding) =
      (variablesOf statements).filter fun v => !binding.isBound v := by
  have each : ∀ statement : Statement, (statement.substitute binding).freeVariables =
      statement.freeVariables.filter fun v => !binding.isBound v :=
    fun statement => statement.toTriplePattern.freeVariables_substitute binding
  simp only [variablesOf, List.flatMap_map, each]
  rw [← foldl_addNew_filter, List.filter_flatMap]
  rfl

theorem Built.unbounds_eq {pattern : Pattern} (built : pattern.Built) :
    pattern.unbounds = variablesOf pattern.statements := by
  induction built with
  | empty => rfl
  | add built statement ih => exact add_unbounds ih statement
  | prepend built statements ih => rfl
  | declare built label ih => exact ih
  | constrain built constraints ih => exact ih
  | @merge a b first second iha ihb =>
    simp only [Pattern.merge, declareAll_unbounds, declareAll_statements]
    exact addAll_unbounds iha b.statements
  | @substitute pattern built binding ih =>
    simp only [Pattern.substitute]
    rw [ih, variablesOf_substitute]

theorem mem_variablesOf {statements : List Statement} {v : Variable} :
    v ∈ variablesOf statements ↔ ∃ statement ∈ statements, v ∈ statement.freeVariables := by
  simp [variablesOf]

theorem variablesOf_nodup (statements : List Statement) : (variablesOf statements).Nodup :=
  nodup_foldl_addNew List.nodup_nil _

end Pattern

end TripleJoin
