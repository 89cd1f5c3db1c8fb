import TripleJoin.Proofs.Binding.Values
/-!
What a match does to a binding. It keeps the keys and every value that is set, and it turns the
pattern into the triple; known values may be put in place beforehand without changing the outcome.
-/
namespace TripleJoin

namespace Binding

/-- Every value of the second binding is a value of the first. -/
def Extends (next binding : Binding) : Prop :=
  ∀ v term, binding.get? v = some term → next.get? v = some term

theorem Extends.refl (binding : Binding) : binding.Extends binding := fun _ _ found => found

theorem Extends.trans {a b c : Binding} (later : c.Extends b) (earlier : b.Extends a) :
    c.Extends a :=
  fun v term found => later v term (earlier v term found)

theorem extends_set {binding : Binding} {v : Variable} (free : binding.get? v = none)
    (term : Term) : (binding.set v term).Extends binding := by
  intro w value found
  rw [get?_set, if_neg]
  · exact found
  · rintro ⟨same, _⟩
    rw [same, free] at found
    cases found

end Binding

section Slot

variable {binding next : Binding} {slot : Slot} {term : Term}

theorem extends_matchSlot (matched : binding.matchSlot slot term = some next) :
    next.Extends binding := by
  cases slot with
  | fixed expected =>
    simp only [Binding.matchSlot, Option.ite_none_right_eq_some, Option.some.injEq] at matched
    exact matched.2 ▸ .refl binding
  | free v =>
    cases value : binding.get? v with
    | some known =>
      simp only [Binding.matchSlot, value, Option.ite_none_right_eq_some,
        Option.some.injEq] at matched
      exact matched.2 ▸ .refl binding
    | none =>
      simp only [Binding.matchSlot, value, Option.some.injEq] at matched
      exact matched ▸ Binding.extends_set value term

/-- A value that was set before may be put in place first. -/
theorem matchSlot_substitute {earlier : Binding} (later : binding.Extends earlier) (slot : Slot)
    (term : Term) :
    binding.matchSlot (slot.substitute earlier) term = binding.matchSlot slot term := by
  cases slot with
  | fixed expected => rfl
  | free v =>
    cases value : earlier.get? v with
    | none => simp [Slot.substitute, value]
    | some known => simp [Slot.substitute, value, Binding.matchSlot, later v known value]

theorem substitute_of_matchSlot (matched : binding.matchSlot slot term = some next)
    (known : ∀ v ∈ slot.free?, v ∈ binding.keys) : slot.substitute next = .fixed term := by
  cases slot with
  | fixed expected =>
    simp only [Binding.matchSlot, Option.ite_none_right_eq_some] at matched
    rw [matched.1]
    rfl
  | free v =>
    have found : next.get? v = some term := by
      cases value : binding.get? v with
      | some old =>
        simp only [Binding.matchSlot, value, Option.ite_none_right_eq_some,
          Option.some.injEq] at matched
        rw [← matched.2, value, matched.1]
      | none =>
        simp only [Binding.matchSlot, value, Option.some.injEq] at matched
        rw [← matched, Binding.get?_set, if_pos ⟨rfl, known v rfl⟩]
    simp [Slot.substitute, found]

theorem Slot.substitute_of_extends (later : next.Extends binding)
    (fixed : slot.substitute binding = .fixed term) : slot.substitute next = .fixed term := by
  cases slot with
  | fixed expected => exact fixed
  | free v =>
    cases value : binding.get? v with
    | none => simp [Slot.substitute, value] at fixed
    | some known =>
      rw [Slot.substitute, later v known value]
      rwa [Slot.substitute, value] at fixed

theorem fixed?_all_of_matchSlot (matched : binding.matchSlot slot term = some next) :
    slot.fixed?.all (· = term) = true := by
  cases slot with
  | free v => rfl
  | fixed expected =>
    simp only [Binding.matchSlot, Option.ite_none_right_eq_some] at matched
    simp [Slot.fixed?, matched.1]

end Slot

/-- The pattern that only this triple matches. -/
def TriplePattern.ofTriple (triple : Triple) : TriplePattern :=
  ⟨.fixed triple.subject, .fixed triple.predicate, .fixed triple.object⟩

theorem TriplePattern.ofTriple_injective {triple other : Triple}
    (same : ofTriple triple = ofTriple other) : triple = other := by
  cases triple
  cases other
  simpa [ofTriple] using same

/-- A binding without values for the variables of a pattern leaves it as it is. -/
theorem TriplePattern.substitute_of_free {pattern : TriplePattern} {binding : Binding}
    (free : ∀ v ∈ pattern.freeVariables, binding.get? v = none) :
    pattern.substitute binding = pattern := by
  have slot : ∀ slot : Slot, (∀ v ∈ slot.free?, binding.get? v = none) →
      slot.substitute binding = slot := by
    intro slot own
    cases slot with
    | fixed term => rfl
    | free v => simp [Slot.substitute, own v rfl]
  obtain ⟨subject, predicate, object⟩ := forall_free free
  rw [substitute, slot _ subject, slot _ predicate, slot _ object]

namespace Binding

variable {binding next : Binding} {pattern : TriplePattern} {triple : Triple}

theorem extended_eq_some_iff : binding.extended pattern triple = some next ↔
    ∃ first, binding.matchSlot pattern.subject triple.subject = some first ∧
      ∃ second, first.matchSlot pattern.predicate triple.predicate = some second ∧
        second.matchSlot pattern.object triple.object = some next := by
  simp only [extended, Option.bind_eq_bind, Option.bind_eq_some_iff]

theorem keys_extended (fits : binding.extended pattern triple = some next) :
    next.keys = binding.keys := by
  obtain ⟨first, subject, second, predicate, object⟩ := extended_eq_some_iff.mp fits
  rw [keys_matchSlot object, keys_matchSlot predicate, keys_matchSlot subject]

theorem extends_extended (fits : binding.extended pattern triple = some next) :
    next.Extends binding := by
  obtain ⟨first, subject, second, predicate, object⟩ := extended_eq_some_iff.mp fits
  exact (extends_matchSlot object).trans
    ((extends_matchSlot predicate).trans (extends_matchSlot subject))

theorem extended_substitute (binding : Binding) (pattern : TriplePattern) (triple : Triple) :
    binding.extended (pattern.substitute binding) triple = binding.extended pattern triple := by
  simp only [extended, TriplePattern.substitute, Option.bind_eq_bind]
  rw [matchSlot_substitute (.refl binding)]
  apply Option.bind_congr
  intro first subject
  have kept := extends_matchSlot subject
  rw [matchSlot_substitute kept]
  apply Option.bind_congr
  intro second predicate
  rw [matchSlot_substitute ((extends_matchSlot predicate).trans kept)]

theorem substitute_extended (fits : binding.extended pattern triple = some next)
    (known : ∀ v ∈ pattern.freeVariables, v ∈ binding.keys) :
    pattern.substitute next = .ofTriple triple := by
  obtain ⟨first, subject, second, predicate, object⟩ := extended_eq_some_iff.mp fits
  have keys : first.keys = binding.keys := keys_matchSlot subject
  have keys' : second.keys = binding.keys := (keys_matchSlot predicate).trans keys
  obtain ⟨known₁, known₂, known₃⟩ := TriplePattern.forall_free known
  have subjects := substitute_of_matchSlot subject known₁
  have predicates := substitute_of_matchSlot predicate (keys ▸ known₂)
  have objects := substitute_of_matchSlot object (keys' ▸ known₃)
  rw [TriplePattern.substitute, TriplePattern.ofTriple, objects,
    Slot.substitute_of_extends (extends_matchSlot object) predicates,
    Slot.substitute_of_extends ((extends_matchSlot object).trans (extends_matchSlot predicate))
      subjects]

/-- A match binds every variable of the pattern that is a key. -/
theorem isBound_of_extended (fits : binding.extended pattern triple = some next)
    (known : ∀ v ∈ pattern.freeVariables, v ∈ binding.keys) {v : Variable}
    (free : v ∈ pattern.freeVariables) : next.isBound v = true := by
  have none : (pattern.substitute next).freeVariables = [] := by
    rw [substitute_extended fits known]
    rfl
  rw [TriplePattern.freeVariables_substitute, List.filter_eq_nil_iff] at none
  simpa using none v free

theorem admits_of_extended (fits : binding.extended pattern triple = some next) :
    pattern.request.admits triple = true := by
  obtain ⟨first, subject, second, predicate, object⟩ := extended_eq_some_iff.mp fits
  simp only [TriplePattern.request, Request.admits, Bool.and_eq_true]
  exact ⟨⟨fixed?_all_of_matchSlot subject, fixed?_all_of_matchSlot predicate⟩,
    fixed?_all_of_matchSlot object⟩

end Binding

end TripleJoin
