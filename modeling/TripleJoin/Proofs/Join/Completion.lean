import TripleJoin.Proofs.Binding.Exchange
import TripleJoin.Proofs.Join.Outer
/-!
A match solves equations. A triple sets every slot of a statement equal to one of its components, and
what the match adds to a binding is what these equations demand of its values, no more and no less.
So it does not matter whether known values were put in place beforehand.
-/
namespace TripleJoin

/-- The term that a slot stands for; none for a variable without a value. -/
def Slot.under (values : Valuation) : Slot → Option Term
  | .fixed term => some term
  | .free v => values v

/-- Under these values the pattern is the triple. -/
structure TriplePattern.TurnsInto (pattern : TriplePattern) (values : Valuation)
    (triple : Triple) : Prop where
  subject : pattern.subject.under values = some triple.subject
  predicate : pattern.predicate.under values = some triple.predicate
  object : pattern.object.under values = some triple.object

/-- The binding becomes the next one as the pattern turns into the triple: the keys stay, the
    variables of the pattern get values, and whatever has a value keeps it. -/
structure Binding.CompletedBy (binding : Binding) (pattern : TriplePattern) (triple : Triple)
    (next : Binding) : Prop where
  keys : next.keys = binding.keys
  bound : ∀ v, next.isBound v = true ↔ binding.isBound v = true ∨ v ∈ pattern.freeVariables
  kept : next.Extends binding
  turns : pattern.TurnsInto next.get? triple

section Slot

variable {binding next : Binding} {slot : Slot} {term : Term} {values : Valuation}

theorem Slot.under_eq_iff_substitute :
    slot.under binding.get? = some term ↔ slot.substitute binding = .fixed term := by
  cases slot with
  | fixed expected => simp [under, substitute]
  | free v => cases value : binding.get? v <;> simp [under, substitute, value]

theorem Slot.under_of_extends {others : Valuation} (later : others.Extends values)
    (turns : slot.under values = some term) : slot.under others = some term := by
  cases slot with
  | fixed expected => exact turns
  | free v => exact later v term turns

/-- A match of a slot adds its equation to what a binding demands of values. -/
theorem Binding.extends_matchSlot_iff (known : ∀ v ∈ slot.free?, v ∈ binding.keys) :
    (∃ next, binding.matchSlot slot term = some next ∧ values.Extends next.get?) ↔
      values.Extends binding.get? ∧ slot.under values = some term := by
  constructor
  · rintro ⟨next, matched, extend⟩
    have turns : slot.under next.get? = some term :=
      Slot.under_eq_iff_substitute.mpr (substitute_of_matchSlot matched known)
    exact ⟨fun v value found => extend v value (extends_matchSlot matched v value found),
      Slot.under_of_extends extend turns⟩
  · rintro ⟨extend, turns⟩
    cases slot with
    | fixed expected =>
      obtain rfl : expected = term := Option.some.inj turns
      exact ⟨binding, by simp [matchSlot], extend⟩
    | free v =>
      have agrees : (binding.get? v).all (· = term) = true := by
        cases value : binding.get? v with
        | none => rfl
        | some known =>
          have same : some known = some term := (extend v known value).symm.trans turns
          simpa using same
      refine ⟨binding.set v term, by rw [matchSlot_free, if_pos agrees], ?_⟩
      intro w value found
      rw [get?_set] at found
      split at found
      · rename_i here
        rw [here.1, ← found]
        exact turns
      · exact extend w value found

theorem Binding.isBound_matchSlot (matched : binding.matchSlot slot term = some next)
    (known : ∀ v ∈ slot.free?, v ∈ binding.keys) (v : Variable) :
    next.isBound v = true ↔ binding.isBound v = true ∨ v ∈ slot.free? := by
  cases slot with
  | fixed expected =>
    simp only [matchSlot, Option.ite_none_right_eq_some, Option.some.injEq] at matched
    simp [Slot.free?, matched.2]
  | free w =>
    rw [matchSlot_free, Option.ite_none_right_eq_some, Option.some.injEq] at matched
    have key : w ∈ binding.keys := known w rfl
    rw [← matched.2, isBound, get?_set, isBound]
    by_cases same : v = w
    · simp [same, key, Slot.free?]
    · simp [same, Ne.symm same, Slot.free?]

end Slot

theorem TriplePattern.turnsInto_iff_substitute {pattern : TriplePattern} {binding : Binding}
    {triple : Triple} :
    pattern.TurnsInto binding.get? triple ↔ pattern.substitute binding = .ofTriple triple := by
  simp only [substitute, ofTriple, mk.injEq, ← Slot.under_eq_iff_substitute]
  exact ⟨fun turns => ⟨turns.subject, turns.predicate, turns.object⟩,
    fun slots => ⟨slots.1, slots.2.1, slots.2.2⟩⟩

namespace Binding

variable {binding next : Binding} {pattern : TriplePattern} {triple : Triple} {values : Valuation}

/-- The equations of the slots together are those of the pattern. -/
theorem extends_extended_iff (known : ∀ v ∈ pattern.freeVariables, v ∈ binding.keys) :
    (∃ next, binding.extended pattern triple = some next ∧ values.Extends next.get?) ↔
      values.Extends binding.get? ∧ pattern.TurnsInto values triple := by
  obtain ⟨subject, predicate, object⟩ := TriplePattern.forall_free known
  constructor
  · rintro ⟨next, fits, extend⟩
    obtain ⟨first, matched, second, matched', matched''⟩ := extended_eq_some_iff.mp fits
    have keys := keys_matchSlot matched
    have keys' := (keys_matchSlot matched').trans keys
    obtain ⟨extend, objects⟩ := (extends_matchSlot_iff (keys' ▸ object)).mp ⟨_, matched'', extend⟩
    obtain ⟨extend, predicates⟩ :=
      (extends_matchSlot_iff (keys ▸ predicate)).mp ⟨_, matched', extend⟩
    obtain ⟨extend, subjects⟩ := (extends_matchSlot_iff subject).mp ⟨_, matched, extend⟩
    exact ⟨extend, subjects, predicates, objects⟩
  · rintro ⟨extend, turns⟩
    obtain ⟨first, matched, extend⟩ := (extends_matchSlot_iff subject).mpr ⟨extend, turns.subject⟩
    have keys := keys_matchSlot matched
    obtain ⟨second, matched', extend⟩ :=
      (extends_matchSlot_iff (keys ▸ predicate)).mpr ⟨extend, turns.predicate⟩
    have keys' := (keys_matchSlot matched').trans keys
    obtain ⟨next, matched'', extend⟩ :=
      (extends_matchSlot_iff (keys' ▸ object)).mpr ⟨extend, turns.object⟩
    exact ⟨next, extended_eq_some_iff.mpr ⟨first, matched, second, matched', matched''⟩, extend⟩

theorem isBound_extended (fits : binding.extended pattern triple = some next)
    (known : ∀ v ∈ pattern.freeVariables, v ∈ binding.keys) (v : Variable) :
    next.isBound v = true ↔ binding.isBound v = true ∨ v ∈ pattern.freeVariables := by
  obtain ⟨subject, predicate, object⟩ := TriplePattern.forall_free known
  obtain ⟨first, matched, second, matched', matched''⟩ := extended_eq_some_iff.mp fits
  have keys := keys_matchSlot matched
  have keys' := (keys_matchSlot matched').trans keys
  rw [isBound_matchSlot matched'' (keys' ▸ object), isBound_matchSlot matched' (keys ▸ predicate),
    isBound_matchSlot matched subject, pattern.freeVariables_eq]
  simp only [List.mem_append, Option.mem_toList, Option.mem_def, or_assoc]

theorem completedBy_extended (fits : binding.extended pattern triple = some next)
    (known : ∀ v ∈ pattern.freeVariables, v ∈ binding.keys) :
    binding.CompletedBy pattern triple next where
  keys := keys_extended fits
  bound := isBound_extended fits known
  kept := extends_extended fits
  turns := TriplePattern.turnsInto_iff_substitute.mpr (substitute_extended fits known)

/-- The completion is determined: a variable of the pattern takes its value from the triple, and any
    other one keeps what it has. -/
theorem CompletedBy.extended (completed : binding.CompletedBy pattern triple next)
    (known : ∀ v ∈ pattern.freeVariables, v ∈ binding.keys) :
    binding.extended pattern triple = some next := by
  obtain ⟨found, fits, below⟩ :=
    (extends_extended_iff known).mpr ⟨completed.kept, completed.turns⟩
  have same := completedBy_extended fits known
  rw [fits, Option.some.injEq]
  refine (eq_of_values (completed.keys.trans same.keys.symm) fun v => ?_).symm
  cases value : found.get? v with
  | some term => exact below v term value
  | none =>
    have bound := (completed.bound v).trans (same.bound v).symm
    simpa [isBound, value] using bound

end Binding

/-- Known values may be put into a statement without any change to what it matches. A match succeeds
    exactly if values for the variables, those of the binding among them, turn the statement into the
    triple; then it gives the one binding that is completed so, and otherwise it gives none. -/
theorem Binding.extended_solves {binding : Binding} {statement : Statement}
    (known : ∀ v ∈ statement.freeVariables, v ∈ binding.keys) (triple : Triple) :
    binding.extended (statement.substitute binding).toTriplePattern triple =
        binding.extended statement.toTriplePattern triple ∧
      ((∃ next, binding.extended statement.toTriplePattern triple = some next) ↔
        ∃ values : Valuation, values.Extends binding.get? ∧ statement.TurnsInto values triple) ∧
      (∀ next, binding.extended statement.toTriplePattern triple = some next ↔
        binding.CompletedBy statement.toTriplePattern triple next) ∧
      ((¬ ∃ values : Valuation, values.Extends binding.get? ∧ statement.TurnsInto values triple) →
        binding.extended statement.toTriplePattern triple = none) := by
  have solvable : (∃ next, binding.extended statement.toTriplePattern triple = some next) ↔
      ∃ values : Valuation, values.Extends binding.get? ∧ statement.TurnsInto values triple := by
    constructor
    · rintro ⟨next, fits⟩
      have completed := completedBy_extended fits known
      exact ⟨next.get?, completed.kept, completed.turns⟩
    · rintro ⟨values, solves⟩
      obtain ⟨next, fits, _⟩ := (extends_extended_iff known).mpr solves
      exact ⟨next, fits⟩
  refine ⟨extended_substitute binding statement.toTriplePattern triple, solvable, ?_, ?_⟩
  · intro next
    exact ⟨fun fits => completedBy_extended fits known, fun completed => completed.extended known⟩
  · intro unsolvable
    rw [Option.eq_none_iff_forall_ne_some]
    exact fun next fits => unsolvable (solvable.mp ⟨next, fits⟩)

/-- Of a statement with one variable twice and another one bound, a loop has a completion and a link
    between two nodes has none. -/
theorem Binding.extended_solves_loop :
    let binding := withValues [⟨"z"⟩, ⟨"y"⟩, ⟨"x"⟩] [(⟨"x"⟩, .iri "p")]
    let next := withValues [⟨"z"⟩, ⟨"y"⟩, ⟨"x"⟩] [(⟨"x"⟩, .iri "p"), (⟨"y"⟩, .iri "a")]
    let statement := Statement.ofPattern ⟨.free ⟨"y"⟩, .free ⟨"x"⟩, .free ⟨"y"⟩⟩
    let loop : Triple := ⟨.iri "a", .iri "p", .iri "a"⟩
    let link : Triple := ⟨.iri "a", .iri "p", .iri "b"⟩
    (∀ v ∈ statement.freeVariables, v ∈ binding.keys) ∧
      binding.extended (statement.substitute binding).toTriplePattern loop = some next ∧
      binding.CompletedBy statement.toTriplePattern loop next ∧
      (∃ values : Valuation, values.Extends binding.get? ∧ statement.TurnsInto values loop) ∧
      (¬ ∃ values : Valuation, values.Extends binding.get? ∧ statement.TurnsInto values link) ∧
      binding.extended (statement.substitute binding).toTriplePattern link = none := by
  intro binding next statement loop link
  have known : ∀ v ∈ statement.freeVariables, v ∈ binding.keys := by decide
  have found : binding.extended statement.toTriplePattern loop = some next := by decide
  have missed : binding.extended statement.toTriplePattern link = none := by decide
  obtain ⟨same, solvable, completes, _⟩ := extended_solves known loop
  obtain ⟨same', solvable', _, _⟩ := extended_solves known link
  refine ⟨known, same.trans found, (completes next).mp found, solvable.mp ⟨next, found⟩, ?_,
    same'.trans missed⟩
  intro solved
  obtain ⟨other, fits⟩ := solvable'.mpr solved
  rw [missed] at fits
  cases fits

end TripleJoin
