import Std.Data.HashMap
import TripleJoin.Triple
/-!
Where the terms of a list of triples occur. An index keeps, for one position, the increasing offsets
at which each term stands there; `Lists` says so against the list itself.
-/
namespace TripleJoin

/-- The offsets of the triples that hold the term at the position. -/
def occurrences (position : Position) (term : Term) (triples : List Triple) : List Nat :=
  (triples.zipIdx.filter fun entry => entry.1.get position = term).map (·.2)

theorem occurrences_concat (position : Position) (term : Term) (triples : List Triple)
    (triple : Triple) :
    occurrences position term (triples ++ [triple]) =
      occurrences position term triples ++
        if triple.get position = term then [triples.length] else [] := by
  simp only [occurrences, List.zipIdx_append, List.filter_append, List.map_append, List.zipIdx_cons,
    List.zipIdx_nil, List.filter_cons, List.filter_nil, Nat.zero_add]
  split <;> simp_all

structure Index where
  table : Std.HashMap Term (Array Nat)

namespace Index

def empty : Index := ⟨∅⟩

def offsets (index : Index) (term : Term) : Array Nat :=
  index.table.getD term #[]

def add (index : Index) (term : Term) (offset : Nat) : Index :=
  ⟨index.table.alter term fun known => some ((known.getD #[]).push offset)⟩

@[simp] theorem offsets_empty (term : Term) : empty.offsets term = #[] := by
  simp [empty, offsets]

theorem offsets_add (index : Index) (term other : Term) (offset : Nat) :
    (index.add term offset).offsets other =
      if term = other then (index.offsets other).push offset else index.offsets other := by
  simp only [offsets, add, Std.HashMap.getD_alter, beq_iff_eq]
  split
  · subst other
    simp [Std.HashMap.getD_eq_getD_getElem?]
  · rfl

/-- The index holds exactly the occurrences at its position. -/
def Lists (index : Index) (position : Position) (triples : Array Triple) : Prop :=
  ∀ term, (index.offsets term).toList = occurrences position term triples.toList

theorem lists_empty (position : Position) : empty.Lists position #[] := by
  intro term
  simp [occurrences]

theorem lists_add {index : Index} {position : Position} {triples : Array Triple}
    (lists : index.Lists position triples) (triple : Triple) :
    (index.add (triple.get position) triples.size).Lists position (triples.push triple) := by
  intro term
  rw [offsets_add, Array.toList_push, occurrences_concat, ← lists term]
  split <;> simp

end Index

end TripleJoin
