import TripleJoin.Proofs.Distinct
import TripleJoin.Proofs.Graph.Matching
/-!
Extending a graph by lists of triples. A triple that the graph holds changes nothing, neither the
order nor an index, so that graphs which are extended by the same triples in the same order of first
occurrence are one graph.
-/
namespace TripleJoin.Graph

variable {graph : Graph} {triple : Triple}

theorem insert_of_held (held : triple ∈ graph.toList) : (graph.insert triple).2 = graph := by
  rw [insert, dif_pos (contains_iff.mpr held)]

theorem extend_append (graph : Graph) (triples more : List Triple) :
    graph.extend (triples ++ more) = (graph.extend triples).extend more :=
  List.foldl_append

theorem mem_extend {triples : List Triple} :
    triple ∈ (graph.extend triples).toList ↔ triple ∈ graph.toList ∨ triple ∈ triples := by
  rw [toList_extend, mem_foldl_addNew]

theorem mem_ofList {triples : List Triple} : triple ∈ (ofList triples).toList ↔ triple ∈ triples :=
  mem_extend.trans (or_iff_right List.not_mem_nil)

theorem mem_union {a b : Graph} :
    triple ∈ (a.union b).toList ↔ triple ∈ a.toList ∨ triple ∈ b.toList :=
  mem_extend

theorem extend_of_held {triples : List Triple} (held : ∀ triple ∈ triples, triple ∈ graph.toList) :
    graph.extend triples = graph := by
  induction triples with
  | nil => rfl
  | cons first rest ih =>
    rw [List.forall_mem_cons] at held
    rw [extend, List.foldl_cons, insert_of_held held.1]
    exact ih held.2

/-- Lists that come several times in a row have the effect of coming once. -/
theorem extend_repeated {α β : Type} (graph : Graph) (triples : α → List Triple)
    {times : α → List β} (some : ∀ x, times x ≠ []) (xs : List α) :
    graph.extend (xs.flatMap fun x => (times x).flatMap fun _ => triples x) =
      graph.extend (xs.flatMap triples) := by
  have once : ∀ (graph : Graph) (x : α),
      graph.extend ((times x).flatMap fun _ => triples x) = graph.extend (triples x) := by
    intro graph x
    obtain ⟨first, rest, several⟩ := List.exists_cons_of_ne_nil (some x)
    rw [several, List.flatMap_cons, extend_append]
    apply extend_of_held
    intro triple member
    obtain ⟨_, _, listed⟩ := List.mem_flatMap.mp member
    exact mem_extend.mpr (Or.inr listed)
  induction xs generalizing graph with
  | nil => rfl
  | cons x xs ih =>
    rw [List.flatMap_cons, List.flatMap_cons, extend_append, extend_append, once, ih]

theorem union_insert (a b : Graph) (triple : Triple) :
    a.union (b.insert triple).2 = ((a.union b).insert triple).2 := by
  rw [union, toList_insert]
  split
  · rename_i held
    rw [← union, insert_of_held (mem_union.mpr (Or.inr held))]
  · rw [extend_append]
    rfl

theorem union_extend (a b : Graph) (triples : List Triple) :
    a.union (b.extend triples) = (a.union b).extend triples := by
  induction triples generalizing b with
  | nil => rfl
  | cons first rest ih =>
    rw [extend, List.foldl_cons, ← extend, ih, union_insert]
    rfl

/-- As whole graphs, with the order of insertion and the indexes. -/
theorem union_assoc (a b c : Graph) : (a.union b).union c = a.union (b.union c) :=
  (union_extend a b c.toList).symm

end TripleJoin.Graph
