import TripleJoin.Proofs.Binding.Extension
/-!
Two matches may change places: each only adds what it demands of the variables, and both demands
are met or not, whichever comes first.
-/
namespace TripleJoin

namespace Binding

theorem eq_of_values {a b : Binding} (keys : a.keys = b.keys) (values : ∀ v, a.get? v = b.get? v) :
    a = b := by
  have entries : a.entries = b.entries := by
    refine pairs_ext keys a.distinct fun v => ?_
    by_cases known : v ∈ a.keys
    · have known' : v ∈ b.keys := keys ▸ known
      obtain ⟨x, found⟩ := Option.isSome_iff_exists.mp
        ((lookup_isSome_iff_mem a.entries v).mpr known)
      obtain ⟨y, found'⟩ := Option.isSome_iff_exists.mp
        ((lookup_isSome_iff_mem b.entries v).mpr known')
      have same := values v
      simp only [get?, found, found', Option.join_some] at same
      rw [found, found', same]
    · have known' : v ∉ b.keys := keys ▸ known
      rw [lookup_eq_none_of_not_mem known, lookup_eq_none_of_not_mem known']
  cases a
  cases b
  cases entries
  rfl

theorem set_of_not_mem {binding : Binding} {v : Variable} (absent : v ∉ binding.keys)
    (term : Term) : binding.set v term = binding := by
  refine eq_of_values (keys_set ..) fun w => ?_
  rw [get?_set, if_neg fun both => absent both.2]

theorem set_of_get? {binding : Binding} {v : Variable} {term : Term}
    (value : binding.get? v = some term) : binding.set v term = binding := by
  refine eq_of_values (keys_set ..) fun w => ?_
  rw [get?_set]
  split
  · rename_i both
    rw [both.1, value]
  · rfl

theorem set_comm (binding : Binding) {v w : Variable} (differ : v ≠ w) (term term' : Term) :
    (binding.set v term).set w term' = (binding.set w term').set v term := by
  refine eq_of_values (by simp) fun u => ?_
  simp only [get?_set, keys_set]
  by_cases first : u = v
  · subst first
    simp [differ]
  · simp [first]

/-- Two steps that may fail come to the same in either order. -/
def Exchange (f g : Binding → Option Binding) : Prop :=
  ∀ binding, (f binding).bind g = (g binding).bind f

section

variable {f g h : Binding → Option Binding}

theorem Exchange.symm (exchange : Exchange f g) : Exchange g f :=
  fun binding => (exchange binding).symm

theorem Exchange.bind (first : Exchange f g) (second : Exchange f h) :
    Exchange f fun binding => (g binding).bind h := by
  intro binding
  calc (f binding).bind (fun next => (g next).bind h)
      = ((f binding).bind g).bind h := (Option.bind_assoc ..).symm
    _ = ((g binding).bind f).bind h := by rw [first binding]
    _ = (g binding).bind (fun next => (f next).bind h) := Option.bind_assoc ..
    _ = (g binding).bind (fun next => (h next).bind f) := by simp only [second _]
    _ = ((g binding).bind h).bind f := (Option.bind_assoc ..).symm

theorem Exchange.guard (exchange : Exchange f g) (allowed : Bool) :
    Exchange f fun binding => if allowed then g binding else none := by
  intro binding
  cases allowed with
  | true => exact exchange binding
  | false => simp

theorem exchange_fixed (expected term : Term) (f : Binding → Option Binding) :
    Exchange f fun binding => binding.matchSlot (.fixed expected) term := by
  intro binding
  simp only [matchSlot]
  split <;> simp

end

section

variable {binding : Binding} {v w : Variable}

/-- A variable takes a term unless it has another value. -/
theorem matchSlot_free (binding : Binding) (v : Variable) (term : Term) :
    binding.matchSlot (.free v) term =
      if (binding.get? v).all (· = term) then some (binding.set v term) else none := by
  cases value : binding.get? v with
  | none => simp only [matchSlot, value, Option.all_none, if_true]
  | some known =>
    simp only [matchSlot, value, Option.all_some, decide_eq_true_eq]
    split
    · rename_i same
      rw [set_of_get? (same ▸ value)]
    · rfl

theorem exchange_same (v : Variable) (term term' : Term) :
    Exchange (fun binding => binding.matchSlot (.free v) term)
      fun binding => binding.matchSlot (.free v) term' := by
  intro binding
  by_cases known : v ∈ binding.keys
  · have clash : ∀ {x y : Term}, x ≠ y → ((binding.matchSlot (.free v) x).bind fun next =>
        next.matchSlot (.free v) y) = none := by
      intro x y differ
      have taken : (binding.set v x).get? v = some x := by rw [get?_set, if_pos ⟨rfl, known⟩]
      rw [matchSlot_free]
      split
      · rw [Option.bind_some, matchSlot_free, taken]
        simp [differ]
      · rfl
    by_cases same : term = term'
    · rw [same]
    · exact (clash same).trans (clash (Ne.symm same)).symm
  · simp [matchSlot_free, set_of_not_mem known, get?_eq_none_of_not_mem known]

theorem exchange_differ (differ : v ≠ w) (term term' : Term) :
    Exchange (fun binding => binding.matchSlot (.free v) term)
      fun binding => binding.matchSlot (.free w) term' := by
  intro binding
  have kept : (binding.set v term).get? w = binding.get? w := by
    rw [get?_set, if_neg fun both => differ both.1.symm]
  have kept' : (binding.set w term').get? v = binding.get? v := by
    rw [get?_set, if_neg fun both => differ both.1]
  simp only [matchSlot_free]
  cases first : (binding.get? v).all (· = term) <;>
    cases second : (binding.get? w).all (· = term') <;>
      simp only [first, second, kept, kept', set_comm binding differ, if_true, Bool.false_eq_true,
        if_false, Option.bind_some, Option.bind_none]

theorem exchange_slots (slot slot' : Slot) (term term' : Term) :
    Exchange (fun binding => binding.matchSlot slot term)
      fun binding => binding.matchSlot slot' term' := by
  cases slot with
  | fixed expected => exact (exchange_fixed expected term _).symm
  | free v =>
    cases slot' with
    | fixed expected => exact exchange_fixed expected term' _
    | free w =>
      by_cases same : v = w
      · subst same
        exact exchange_same v term term'
      · exact exchange_differ same term term'

theorem exchange_extended_slot (pattern : TriplePattern) (triple : Triple) (slot : Slot)
    (term : Term) : Exchange (fun binding => binding.extended pattern triple)
      fun binding => binding.matchSlot slot term := by
  have each := fun slot' term' => exchange_slots slot slot' term term'
  refine Exchange.symm ?_
  exact (each pattern.subject triple.subject).bind
    ((each pattern.predicate triple.predicate).bind (each pattern.object triple.object))

/-- Two triple patterns may be matched in either order. -/
theorem exchange_extended (pattern pattern' : TriplePattern) (triple triple' : Triple) :
    Exchange (fun binding => binding.extended pattern triple)
      fun binding => binding.extended pattern' triple' := by
  have slot := exchange_extended_slot pattern triple
  exact (slot pattern'.subject triple'.subject).bind
    ((slot pattern'.predicate triple'.predicate).bind (slot pattern'.object triple'.object))

end

end Binding

end TripleJoin
