import TripleJoin.Proofs.Pattern.Variables
/-!
Patterns as a monoid. A pattern that was built by the operations has nothing in it but its
statements, its constraints and its labels: the variables that it keeps are those of its statements,
in order of first appearance. So patterns are put together as lists are, in any grouping, and putting
statements in front is putting a pattern of them in front.
-/
namespace TripleJoin

/-- First occurrences may be taken part by part. -/
theorem foldl_addNew_foldl {α : Type} [DecidableEq α] (xs ys zs : List α) :
    (zs.foldl addNew ys).foldl addNew xs = zs.foldl addNew (ys.foldl addNew xs) := by
  induction zs generalizing ys with
  | nil => rfl
  | cons z zs ih =>
    have first : (addNew ys z).foldl addNew xs = addNew (ys.foldl addNew xs) z := by
      by_cases known : z ∈ ys
      · have there : z ∈ ys.foldl addNew xs := mem_foldl_addNew.mpr (Or.inr known)
        rw [addNew, if_pos known, addNew, if_pos there]
      · rw [addNew, if_neg known, List.foldl_append]
        rfl
    rw [List.foldl_cons, List.foldl_cons, ih, first]

theorem TriplePattern.mem_freeVariables_iff (pattern : TriplePattern) (v : Variable) :
    v ∈ pattern.freeVariables ↔ .free v ∈ pattern.slots := by
  rw [freeVariables, List.mem_filterMap]
  constructor
  · rintro ⟨slot, member, free⟩
    cases slot with
    | fixed term => cases free
    | free w =>
      cases free
      exact member
  · exact fun member => ⟨_, member, rfl⟩

namespace Pattern

theorem addAll_eq (pattern : Pattern) (statements : List Statement) :
    pattern.addAll statements =
      { pattern with
        statements := pattern.statements ++ statements
        unbounds := (statements.flatMap fun statement => statement.freeVariables).foldl addNew
          pattern.unbounds } := by
  unfold addAll
  induction statements generalizing pattern with
  | nil => rw [List.foldl_nil, List.append_nil, List.flatMap_nil, List.foldl_nil]
  | cons statement statements ih =>
    rw [List.foldl_cons, ih, List.flatMap_cons, List.foldl_append]
    simp only [add, List.append_assoc, List.singleton_append]

theorem declareAll_eq (pattern : Pattern) (labels : List String) :
    pattern.declareAll labels = { pattern with labels := labels.foldl addNew pattern.labels } := by
  unfold declareAll
  induction labels generalizing pattern with
  | nil => rfl
  | cons label labels ih =>
    rw [List.foldl_cons, ih]
    rfl

theorem merge_eq (a b : Pattern) :
    a.merge b =
      ⟨a.statements ++ b.statements, a.constraints ++ b.constraints,
        (b.statements.flatMap fun statement => statement.freeVariables).foldl addNew a.unbounds,
        b.labels.foldl addNew a.labels⟩ := by
  rw [merge, addAll_eq, constrain, declareAll_eq]

theorem merge_assoc (a b c : Pattern) : (a.merge b).merge c = a.merge (b.merge c) := by
  simp only [merge_eq, List.append_assoc, List.flatMap_append, List.foldl_append,
    foldl_addNew_foldl]

theorem merge_empty (pattern : Pattern) : pattern.merge empty = pattern := by
  rw [merge_eq]
  simp only [empty, List.append_nil, List.flatMap_nil, List.foldl_nil]

theorem Built.declareAll {pattern : Pattern} (built : pattern.Built) (labels : List String) :
    (pattern.declareAll labels).Built := by
  induction labels generalizing pattern with
  | nil => exact built
  | cons label labels ih => exact ih (built.declare label)

/-- No operation declares a label twice. -/
theorem Built.labels_nodup {pattern : Pattern} (built : pattern.Built) : pattern.labels.Nodup := by
  induction built with
  | empty => exact List.nodup_nil
  | add built statement ih => exact ih
  | prepend built statements ih => exact ih
  | declare built label ih => exact nodup_addNew ih label
  | constrain built constraints ih => exact ih
  | @merge a b first second iha ihb =>
    rw [merge_eq]
    exact nodup_foldl_addNew iha b.labels
  | substitute built binding ih => exact ih

section

variable {pattern : Pattern} (built : pattern.Built)
include built

theorem Built.empty_merge : Pattern.empty.merge pattern = pattern := by
  have kept := built.unbounds_eq
  rw [variablesOf] at kept
  rw [merge_eq]
  simp only [Pattern.empty, List.nil_append]
  rw [← kept, foldl_addNew_of_nodup built.labels_nodup]

theorem Built.prepend_eq_merge (statements : List Statement) :
    pattern.prepend statements = (ofStatements statements).merge pattern := by
  rw [merge_eq, ofStatements, addAll_eq]
  simp only [Pattern.prepend, variablesOf, Pattern.empty, List.nil_append, List.flatMap_append,
    List.foldl_append]
  rw [foldl_addNew_of_nodup built.labels_nodup]

end

/-- The pattern keeps its variables without repetition, in the order in which the slots of its
    statements first show them, and no others; and it has no label twice. -/
structure Exact (pattern : Pattern) : Prop where
  in_order : pattern.unbounds =
    (pattern.statements.flatMap fun statement => statement.slots.filterMap Slot.free?).eraseDups
  once : pattern.unbounds.Nodup
  mem_iff : ∀ v, v ∈ pattern.unbounds ↔ ∃ statement ∈ pattern.statements, .free v ∈ statement.slots
  labels_once : pattern.labels.Nodup

theorem Built.exact {pattern : Pattern} (built : pattern.Built) : pattern.Exact := by
  refine ⟨?_, ?_, fun v => ?_, built.labels_nodup⟩
  · rw [built.unbounds_eq, variablesOf, foldl_addNew_eq_eraseDups]
    rfl
  · rw [built.unbounds_eq]
    exact variablesOf_nodup _
  · rw [built.unbounds_eq, mem_variablesOf]
    exact exists_congr fun statement => and_congr_right fun _ =>
      statement.mem_freeVariables_iff v

/-- Whatever the operations that built it, a pattern keeps exactly the variables of its statements.
    Statements may be put in front of it as a pattern of their own, and patterns may be put together
    in any grouping, where the empty one adds nothing. -/
theorem built_concatenates {pattern : Pattern} (built : pattern.Built) :
    pattern.Exact ∧
      (∀ statements, pattern.prepend statements = (ofStatements statements).merge pattern) ∧
      empty.merge pattern = pattern ∧ pattern.merge empty = pattern ∧
      ∀ second third, (pattern.merge second).merge third = pattern.merge (second.merge third) :=
  ⟨built.exact, built.prepend_eq_merge, built.empty_merge, pattern.merge_empty,
    pattern.merge_assoc⟩

/-- The statement put in front shows `y` before `z`, the second pattern adds only `w`, and `x` is
    inherited; the label that both declare is there once. -/
theorem built_concatenates_of_inherited :
    let statement := fun subject object : String =>
      Statement.ofPattern ⟨.free ⟨subject⟩, .fixed (.iri "link"), .free ⟨object⟩⟩
    let first := ((ofStatements [statement "x" "z"]).prepend [statement "x" "y"]).declareAll
      ["b", "c"]
    let second := (ofStatements [statement "w" "y", statement "z" "w"]).declare "b"
    let pattern := (first.merge second).substitute (.withValues [⟨"x"⟩] [(⟨"x"⟩, .iri "a")])
    pattern.Built ∧ pattern.Exact ∧ pattern.unbounds = [⟨"y"⟩, ⟨"z"⟩, ⟨"w"⟩] ∧
      pattern.labels = ["b", "c"] := by
  intro statement first second pattern
  have built : pattern.Built :=
    ((((built_ofStatements _).prepend _).declareAll _).merge
      ((built_ofStatements _).declare _)).substitute _
  exact ⟨built, (built_concatenates built).1, by decide, by decide⟩

end Pattern

end TripleJoin
