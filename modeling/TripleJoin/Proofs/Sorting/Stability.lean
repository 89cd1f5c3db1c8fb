import TripleJoin.Proofs.Sorting
/-!
Sorting is stable. Elements are tagged with their places; sorting them by the comparison and, where it
ties, by place is sorting as it is. So equal elements keep their order, whether a list is sorted by
insertion or by merging, and it is enough that the comparison is lawful among the elements of the list.
-/
namespace TripleJoin.Sorting

variable {α : Type} {compare : α → α → Ordering}

/-- By the comparison, then by the place in the list. -/
def byPlace (compare : α → α → Ordering) : α × Nat → α × Nat → Ordering :=
  compareLex (fun a b => compare a.1 b.1) (compareOn Prod.snd)

theorem isLT_byPlace {a b : α × Nat} (later : b.2 < a.2) :
    (byPlace compare a b).isLT = (compare a.1 b.1).isLT := by
  have place : compareOn Prod.snd a b = .gt := Nat.compare_eq_gt.mpr later
  rw [byPlace, compareLex, place]
  cases compare a.1 b.1 <;> rfl

theorem map_insertBack_byPlace {x : α × Nat} {ys : List (α × Nat)} (earlier : ∀ y ∈ ys, y.2 < x.2) :
    (insertBack (byPlace compare) x ys).map Prod.fst =
      insertBack compare x.1 (ys.map Prod.fst) := by
  induction ys with
  | nil => rfl
  | cons y ys ih =>
    rw [List.forall_mem_cons] at earlier
    rw [insertBack, List.map_cons, insertBack, isLT_byPlace earlier.1]
    split
    · rw [List.map_cons, ih earlier.2]
    · rfl

theorem map_foldl_insertBack_byPlace (xs : List α) {sorted : List (α × Nat)} {start : Nat}
    (earlier : ∀ y ∈ sorted, y.2 < start) :
    ((xs.zipIdx start).foldl (fun sorted x => insertBack (byPlace compare) x sorted) sorted).map
        Prod.fst =
      xs.foldl (fun sorted x => insertBack compare x sorted) (sorted.map Prod.fst) := by
  induction xs generalizing sorted start with
  | nil => rfl
  | cons x xs ih =>
    rw [List.zipIdx_cons, List.foldl_cons, List.foldl_cons, ih, map_insertBack_byPlace earlier]
    intro y member
    rcases List.mem_cons.mp ((insertBack_perm _ _ sorted).mem_iff.mp member) with rfl | before
    · exact Nat.lt_succ_self start
    · exact Nat.lt_succ_of_lt (earlier y before)

/-- Merging keeps to the places as it is. -/
theorem zipIdxLE_eq_byPlace [Std.OrientedCmp compare] (a b : α × Nat) :
    List.zipIdxLE (fun x y => (compare x y).isLE) a b = (byPlace compare a b).isLE := by
  have swapped : compare b.1 a.1 = (compare a.1 b.1).swap := Std.OrientedCmp.eq_swap
  have places : (compareOn Prod.snd a b).isLE = decide (a.2 ≤ b.2) := by
    rw [Bool.eq_iff_iff, decide_eq_true_iff]
    exact Nat.isLE_compare
  rw [List.zipIdxLE, byPlace, compareLex, swapped]
  cases compare a.1 b.1 with
  | lt => rfl
  | eq => exact places.symm
  | gt => rfl

theorem map_sort_byPlace [Std.OrientedCmp compare] (xs : List α) :
    (sort (byPlace compare) xs.zipIdx).map Prod.fst = sort compare xs := by
  unfold sort
  rw [List.length_zipIdx]
  split
  · rw [byInsertion, byInsertion, List.map_reverse]
    exact congrArg List.reverse (map_foldl_insertBack_byPlace xs (List.forall_mem_nil _))
  · have same : (fun a b => (byPlace compare a b).isLE) =
        List.zipIdxLE fun x y => (compare x y).isLE :=
      funext fun a => funext fun b => (zipIdxLE_eq_byPlace a b).symm
    rw [same]
    exact List.mergeSort_zipIdx

/-- The tagged elements ascend by the comparison, and those that tie keep their order. -/
structure Arranges (compare : α → α → Ordering) (xs : List α) (tagged : List (α × Nat)) : Prop where
  perm : tagged.Perm xs.zipIdx
  ascends : tagged.Pairwise fun a b => compare a.1 b.1 ≠ .gt
  stable : tagged.Pairwise fun a b => compare a.1 b.1 = .eq → a.2 < b.2

instance transCmp_fst [Std.TransCmp compare] :
    Std.TransCmp fun a b : α × Nat => compare a.1 b.1 where
  eq_swap := Std.OrientedCmp.eq_swap
  isLE_trans := Std.TransCmp.isLE_trans

instance transCmp_byPlace [Std.TransCmp compare] : Std.TransCmp (byPlace compare) :=
  inferInstanceAs (Std.TransCmp (compareLex (fun a b : α × Nat => compare a.1 b.1)
    (compareOn Prod.snd)))

theorem arranges_sort_byPlace [Std.TransCmp compare] (xs : List α) :
    Arranges compare xs (sort (byPlace compare) xs.zipIdx) := by
  have perm := sort_perm (byPlace compare) xs.zipIdx
  have sorted : (sort (byPlace compare) xs.zipIdx).Pairwise fun a b =>
      (byPlace compare a b).isLE := pairwise_sort xs.zipIdx
  have places : ((sort (byPlace compare) xs.zipIdx).map Prod.snd).Nodup := by
    rw [(perm.map Prod.snd).nodup_iff, List.zipIdx_map_snd]
    exact List.nodup_range'
  refine ⟨perm, sorted.imp fun {a b} le => ?_, ?_⟩
  · exact Ordering.isLE_iff_ne_gt.mp (Ordering.isLE_left_of_isLE_then le)
  · refine (sorted.and (List.pairwise_map.mp places)).imp fun {a b} both tie => ?_
    obtain ⟨le, differ⟩ := both
    rw [byPlace, compareLex, tie] at le
    exact Nat.lt_of_le_of_ne (Nat.isLE_compare.mp le) differ

/-- It is enough that the comparison is consistent among the elements. -/
theorem Consistent.exists_arranges {xs : List α} (consistent : Consistent compare xs) :
    ∃ tagged, Arranges compare xs tagged ∧ tagged.map Prod.fst = sort compare xs := by
  let within := fun a b : { x // x ∈ xs } => compare a.1 b.1
  have lawful : Std.TransCmp within := consistent
  have arranges : Arranges within xs.attach _ := arranges_sort_byPlace xs.attach
  have places : xs.attach.zipIdx.map (Prod.map Subtype.val id) = xs.zipIdx := by
    rw [← List.zipIdx_map, List.attach_map_subtype_val]
  refine ⟨(sort (byPlace within) xs.attach.zipIdx).map (Prod.map Subtype.val id),
    ⟨?_, ?_, ?_⟩, ?_⟩
  · exact places ▸ arranges.perm.map _
  · exact List.pairwise_map.mpr arranges.ascends
  · exact List.pairwise_map.mpr arranges.stable
  · have sorted : (sort within xs.attach).map Subtype.val = sort compare xs := by
      have followed : (sort within xs.attach).map Subtype.val =
          sort compare (xs.attach.map Subtype.val) := map_sort fun _ _ _ _ => rfl
      rw [followed, List.attach_map_subtype_val]
    rw [← sorted, ← map_sort_byPlace xs.attach, List.map_map, List.map_map]
    rfl

end TripleJoin.Sorting
