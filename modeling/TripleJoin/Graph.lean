import Std.Data.HashSet
import TripleJoin.Graph.Index
/-!
Graphs: sets of triples that remember the order of first insertion. A graph keeps its triples in
that order, a hash set of them, and an index for each position, so that a request scans only the
triples that hold its rarest term. The proof fields keep the five in step.
-/
namespace TripleJoin

structure Graph where
  triples : Array Triple
  present : Std.HashSet Triple
  subjects : Index
  predicates : Index
  objects : Index
  nodup : triples.toList.Nodup
  mem_present : ∀ triple, triple ∈ present ↔ triple ∈ triples
  subjects_lists : subjects.Lists .subject triples
  predicates_lists : predicates.Lists .predicate triples
  objects_lists : objects.Lists .object triples

namespace Graph

def empty : Graph where
  triples := #[]
  present := ∅
  subjects := .empty
  predicates := .empty
  objects := .empty
  nodup := List.nodup_nil
  mem_present := by simp
  subjects_lists := Index.lists_empty _
  predicates_lists := Index.lists_empty _
  objects_lists := Index.lists_empty _

/-- The triples in the order of their first insertion. -/
def toList (graph : Graph) : List Triple := graph.triples.toList

def size (graph : Graph) : Nat := graph.triples.size

def isEmpty (graph : Graph) : Bool := graph.triples.isEmpty

def contains (graph : Graph) (triple : Triple) : Bool := graph.present.contains triple

@[simp] theorem contains_iff {graph : Graph} {triple : Triple} :
    graph.contains triple = true ↔ triple ∈ graph.toList := by
  rw [contains, ← Std.HashSet.mem_iff_contains, graph.mem_present, toList, Array.mem_toList_iff]

theorem toList_nodup (graph : Graph) : graph.toList.Nodup := graph.nodup

/-- Appends a triple that the graph does not hold. -/
def append (graph : Graph) (triple : Triple) (absent : triple ∉ graph.toList) : Graph where
  triples := graph.triples.push triple
  present := graph.present.insert triple
  subjects := graph.subjects.add triple.subject graph.triples.size
  predicates := graph.predicates.add triple.predicate graph.triples.size
  objects := graph.objects.add triple.object graph.triples.size
  nodup := by
    rw [Array.toList_push, List.nodup_append]
    refine ⟨graph.nodup, by simp, ?_⟩
    intro a member b single same
    rw [List.mem_singleton] at single
    exact absent (by rw [← single, ← same]; exact member)
  mem_present := by
    intro other
    rw [Std.HashSet.mem_insert, graph.mem_present, Array.mem_push, beq_iff_eq]
    constructor
    · rintro (same | member)
      · exact Or.inr same.symm
      · exact Or.inl member
    · rintro (member | same)
      · exact Or.inr member
      · exact Or.inl same.symm
  subjects_lists := Index.lists_add graph.subjects_lists triple
  predicates_lists := Index.lists_add graph.predicates_lists triple
  objects_lists := Index.lists_add graph.objects_lists triple

/-- Adds a triple, and says whether it is new. A triple the graph holds keeps its place. -/
def insert (graph : Graph) (triple : Triple) : Bool × Graph :=
  if held : graph.contains triple then (false, graph)
  else (true, graph.append triple (mt contains_iff.mpr held))

theorem insert_fst (graph : Graph) (triple : Triple) :
    (graph.insert triple).1 = !graph.contains triple := by
  unfold insert
  split <;> simp_all

theorem toList_insert (graph : Graph) (triple : Triple) :
    (graph.insert triple).2.toList =
      if triple ∈ graph.toList then graph.toList else graph.toList ++ [triple] := by
  unfold insert
  split
  · rename_i held
    rw [if_pos (contains_iff.mp held)]
  · rename_i absent
    rw [if_neg (mt contains_iff.mpr absent)]
    simp [append, toList]

def extend (graph : Graph) (triples : List Triple) : Graph :=
  triples.foldl (fun grown triple => (grown.insert triple).2) graph

def ofList (triples : List Triple) : Graph := empty.extend triples

/-- The graph made anew of its own triples. -/
def copy (graph : Graph) : Graph := ofList graph.toList

/-- The triples of the first graph, then the new ones of the second. -/
def union (a b : Graph) : Graph := a.extend b.toList

/-- The triples of the first graph that the second holds. -/
def intersection (a b : Graph) : Graph := ofList (a.toList.filter b.contains)

/-- The triples of the first graph that the second does not hold. -/
def difference (a b : Graph) : Graph := ofList (a.toList.filter fun triple => !b.contains triple)

/-- The shortest of the offset lists of the components that a request gives, the first of several;
    none if it gives no component. -/
def candidates (graph : Graph) (request : Request) : Option (Array Nat) :=
  let lists := [request.subject.map graph.subjects.offsets,
    request.predicate.map graph.predicates.offsets, request.object.map graph.objects.offsets]
  (lists.filterMap id).foldl (fun shortest offsets =>
    match shortest with
    | none => some offsets
    | some best => if offsets.size < best.size then some offsets else some best) none

/-- The triples that meet a request, in insertion order. -/
def matching (graph : Graph) (request : Request) : List Triple :=
  match graph.candidates request with
  | none => graph.toList
  | some offsets => offsets.toList.filterMap fun offset =>
      graph.triples[offset]?.filter fun triple => request.admits triple

end Graph

end TripleJoin
