import TripleJoin.Variable
/-!
Bindings: distinct variables in a fixed order, each with a term or with none. Matching extends a
binding and never changes a value that is set. A solution is a binding too.
-/
namespace TripleJoin

structure Binding where
  entries : List (Variable × Option Term)
  distinct : (entries.map Prod.fst).Nodup
  deriving DecidableEq

namespace Binding

def empty : Binding := ⟨[], List.nodup_nil⟩

/-- The variables in order, bound or not. -/
def keys (binding : Binding) : List Variable := binding.entries.map Prod.fst

def has (binding : Binding) (v : Variable) : Bool := v ∈ binding.keys

/-- The value of a variable; none if it is unbound or no key. -/
def get? (binding : Binding) (v : Variable) : Option Term :=
  (binding.entries.lookup v).join

def isBound (binding : Binding) (v : Variable) : Bool := (binding.get? v).isSome

def isComplete (binding : Binding) : Bool := binding.entries.all (·.2.isSome)

def size (binding : Binding) : Nat := binding.entries.length

/-- The bound variables with their values, in key order. -/
def bound (binding : Binding) : List (Variable × Term) :=
  binding.entries.filterMap fun entry => entry.2.map (entry.1, ·)

/-- Appends a key unless the binding has it. -/
def addKey (binding : Binding) (v : Variable) (value : Option Term) : Binding :=
  if fresh : v ∉ binding.keys then
    ⟨binding.entries ++ [(v, value)], by
      rw [List.map_append, List.nodup_append]
      refine ⟨binding.distinct, by simp, ?_⟩
      intro a member b single same
      rw [List.map_singleton, List.mem_singleton] at single
      subst same single
      exact fresh member⟩
  else binding

/-- Changes values and no keys. -/
def mapValues (binding : Binding) (f : Variable → Option Term → Option Term) : Binding :=
  ⟨binding.entries.map fun entry => (entry.1, f entry.1 entry.2), by
    rw [List.map_map]; exact binding.distinct⟩

/-- Sets the value of a key; without effect on any other variable. -/
def set (binding : Binding) (v : Variable) (term : Term) : Binding :=
  binding.mapValues fun key value => if key = v then some term else value

/-- Sets the value of a variable, which becomes the last key if it is none yet. -/
def put (binding : Binding) (v : Variable) (term : Term) : Binding :=
  (binding.addKey v none).set v term

/-- All variables unbound, each kept at its first place. -/
def unbound (keys : List Variable) : Binding :=
  keys.foldl (fun binding v => binding.addKey v none) empty

/-- The variables and those of the pairs, with the values of the pairs. The last pair of a variable
    counts. -/
def withValues (keys : List Variable) (initial : List (Variable × Term)) : Binding :=
  initial.foldl (fun binding pair => binding.put pair.1 pair.2) (unbound keys)

/-- The entries of the first binding, then those of the second for other variables. -/
def overlay (binding inherited : Binding) : Binding :=
  inherited.entries.foldl (fun combined entry => combined.addKey entry.1 entry.2) binding

/-- Copies in every value that the second binding has. -/
def merge (binding other : Binding) : Binding :=
  other.bound.foldl (fun merged pair => merged.put pair.1 pair.2) binding

/-- Matches a slot against a term: a fixed term must be the same, a bound variable must have that
    value, an unbound one takes it, and a variable that is no key matches anything. -/
def matchSlot (binding : Binding) (slot : Slot) (term : Term) : Option Binding :=
  match slot with
  | .fixed expected => if expected = term then some binding else none
  | .free v =>
    match binding.get? v with
    | some value => if value = term then some binding else none
    | none => some (binding.set v term)

@[simp] theorem keys_mapValues (binding : Binding) (f : Variable → Option Term → Option Term) :
    (binding.mapValues f).keys = binding.keys := by
  simp [keys, mapValues, Function.comp_def]

@[simp] theorem keys_set (binding : Binding) (v : Variable) (term : Term) :
    (binding.set v term).keys = binding.keys :=
  keys_mapValues _ _

theorem keys_addKey (binding : Binding) (v : Variable) (value : Option Term) :
    (binding.addKey v value).keys =
      if v ∈ binding.keys then binding.keys else binding.keys ++ [v] := by
  unfold addKey
  split <;> simp_all [keys]

theorem keys_put (binding : Binding) (v : Variable) (term : Term) :
    (binding.put v term).keys =
      if v ∈ binding.keys then binding.keys else binding.keys ++ [v] := by
  rw [put, keys_set, keys_addKey]

theorem keys_matchSlot {binding next : Binding} {slot : Slot} {term : Term}
    (matched : binding.matchSlot slot term = some next) : next.keys = binding.keys := by
  unfold matchSlot at matched
  split at matched
  · split at matched <;> simp_all
  · split at matched
    · split at matched <;> simp_all
    · cases matched
      exact keys_set _ _ _

end Binding

end TripleJoin
