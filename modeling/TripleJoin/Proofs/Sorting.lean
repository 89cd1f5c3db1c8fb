import Mathlib.Data.List.Nodup
import TripleJoin.NestedLoop
import TripleJoin.Proofs.Binding.Values
import TripleJoin.Proofs.Term.Transitivity
/-!
What sorting comes to. By a lawful order the result ascends, so the same elements always end up as
the same list, however long it is. Sorting by keys may be followed on the keys alone; so the sorted
entries of an assignment are given by the values that they look up.
-/
namespace TripleJoin

namespace Sorting

variable {α β : Type} {compare : α → α → Ordering}

section

variable [Std.TransCmp compare]

theorem pairwise_insertBack (x : α) {ys : List α}
    (sorted : ys.Pairwise fun a b => (compare b a).isLE) :
    (insertBack compare x ys).Pairwise fun a b => (compare b a).isLE := by
  induction ys with
  | nil => exact List.pairwise_singleton _ x
  | cons y ys ih =>
    rw [List.pairwise_cons] at sorted
    rw [insertBack]
    split
    · rename_i less
      have le : (compare x y).isLE := by
        cases order : compare x y <;> simp_all
      rw [List.pairwise_cons]
      refine ⟨fun z member => ?_, ih sorted.2⟩
      rcases List.mem_cons.mp ((insertBack_perm compare x ys).mem_iff.mp member) with rfl | later
      · exact le
      · exact sorted.1 z later
    · rename_i more
      have swapped : compare y x = (compare x y).swap := Std.OrientedCmp.eq_swap
      have le : (compare y x).isLE := by
        rw [swapped]
        cases order : compare x y <;> simp_all
      rw [List.pairwise_cons]
      refine ⟨fun z member => ?_, List.pairwise_cons.mpr sorted⟩
      rcases List.mem_cons.mp member with rfl | later
      · exact le
      · exact Std.TransCmp.isLE_trans (sorted.1 z later) le

theorem pairwise_foldl_insertBack (xs : List α) {sorted : List α}
    (before : sorted.Pairwise fun a b => (compare b a).isLE) :
    (xs.foldl (fun sorted x => insertBack compare x sorted) sorted).Pairwise
      fun a b => (compare b a).isLE := by
  induction xs generalizing sorted with
  | nil => exact before
  | cons x xs ih => exact ih (pairwise_insertBack x before)

theorem pairwise_sort (xs : List α) :
    (sort compare xs).Pairwise fun a b => (compare a b).isLE := by
  unfold sort
  split
  · rw [byInsertion, List.pairwise_reverse]
    exact pairwise_foldl_insertBack xs .nil
  · apply List.pairwise_mergeSort
    · exact fun _ _ _ first second => Std.TransCmp.isLE_trans first second
    · intro a b
      have swapped : compare b a = (compare a b).swap := Std.OrientedCmp.eq_swap
      rw [swapped]
      cases compare a b <;> rfl

theorem sort_eq_of_perm [Std.LawfulEqCmp compare] {xs ys : List α} (perm : xs.Perm ys) :
    sort compare xs = sort compare ys := by
  refine List.Perm.eq_of_pairwise ?_ (pairwise_sort xs) (pairwise_sort ys)
    ((sort_perm compare xs).trans (perm.trans (sort_perm compare ys).symm))
  intro a b _ _ first second
  exact Std.LawfulEqCmp.eq_of_compare (Std.OrientedCmp.isLE_antisymm first second)

end

variable {other : β → β → Ordering} {f : α → β}

theorem map_insertBack {x : α} {ys : List α} (same : ∀ y ∈ ys, compare x y = other (f x) (f y)) :
    (insertBack compare x ys).map f = insertBack other (f x) (ys.map f) := by
  induction ys with
  | nil => rfl
  | cons y ys ih =>
    rw [List.forall_mem_cons] at same
    rw [insertBack, List.map_cons, insertBack, same.1]
    split
    · rw [List.map_cons, ih same.2]
    · rfl

theorem map_foldl_insertBack {xs sorted : List α}
    (same : ∀ x ∈ sorted ++ xs, ∀ y ∈ sorted ++ xs, compare x y = other (f x) (f y)) :
    (xs.foldl (fun sorted x => insertBack compare x sorted) sorted).map f =
      (xs.map f).foldl (fun sorted x => insertBack other x sorted) (sorted.map f) := by
  induction xs generalizing sorted with
  | nil => rfl
  | cons x xs ih =>
    have perm : (insertBack compare x sorted ++ xs).Perm (sorted ++ x :: xs) :=
      ((insertBack_perm compare x sorted).append_right xs).trans List.perm_middle.symm
    rw [List.foldl_cons, ih, List.map_cons, List.foldl_cons, map_insertBack]
    · exact fun y member => same x (by simp) y (List.mem_append_left _ member)
    · intro y first z second
      exact same y (perm.mem_iff.mp first) z (perm.mem_iff.mp second)

/-- Where a comparison goes by keys, sorting does. -/
theorem map_sort {xs : List α} (same : ∀ x ∈ xs, ∀ y ∈ xs, compare x y = other (f x) (f y)) :
    (sort compare xs).map f = sort other (xs.map f) := by
  unfold sort
  rw [List.length_map]
  split
  · rw [byInsertion, byInsertion, List.map_reverse, map_foldl_insertBack same]
    rfl
  · apply List.map_mergeSort
    intro x first y second
    rw [same x first y second]

end Sorting

theorem Numeric.compare_swap (x y : Numeric) : x.compare y = (y.compare x).swap := by
  have ranks : Ord.compare x.toBinary64.rank y.toBinary64.rank =
      (Ord.compare y.toBinary64.rank x.toBinary64.rank).swap := Std.OrientedOrd.eq_swap
  have tie : x.tie y = (y.tie x).swap := by
    cases x with
    | real x => cases y <;> rfl
    | integer m =>
      cases y with
      | real y => rfl
      | integer n => exact Std.OrientedOrd.eq_swap (α := Int)
  rw [compare_eq, compare_eq y x, Ordering.swap_then, ← ranks, ← tie]

theorem Literal.compare_swap (a b : Literal) : a.compare b = (b.compare a).swap := by
  have writing : a.compareWriting b = (b.compareWriting a).swap := Std.OrientedCmp.eq_swap
  unfold compare
  cases a.numeric with
  | none =>
    cases b.numeric with
    | none => exact writing
    | some y => rfl
  | some x =>
    cases b.numeric with
    | none => rfl
    | some y =>
      dsimp only
      rw [Ordering.swap_then, ← x.compare_swap y, ← writing]

/-- The order of terms looks the same from both sides, also where it is not transitive. -/
instance : Std.OrientedCmp Term.compare where
  eq_swap {a b} := by
    have ranks : Ord.compare a.kindRank b.kindRank =
        (Ord.compare b.kindRank a.kindRank).swap := Std.OrientedOrd.eq_swap
    have within : a.within b = (b.within a).swap := by
      cases a with
      | blank a =>
        cases b with
        | blank b => exact Std.OrientedOrd.eq_swap (α := String)
        | _ => rfl
      | iri a =>
        cases b with
        | iri b => exact Std.OrientedOrd.eq_swap (α := String)
        | _ => rfl
      | literal a =>
        cases b with
        | literal b => exact a.compare_swap b
        | _ => rfl
    rw [Term.compare_eq_kind, Term.compare_eq_kind b a, Ordering.swap_then, ← ranks, ← within]

namespace Variable

instance : Std.TransCmp Variable.compare where
  eq_swap {v w} := by
    change Ord.compare v.name w.name = (Ord.compare w.name v.name).swap
    exact Std.OrientedCmp.eq_swap
  isLE_trans {u v w} first second := by
    change (Ord.compare u.name w.name).isLE
    exact Std.TransCmp.isLE_trans first second

instance : Std.LawfulEqCmp Variable.compare where
  eq_of_compare {v w} same := by
    have names : v.name = w.name := Std.LawfulEqCmp.eq_of_compare same
    cases v
    cases w
    exact congrArg Variable.mk names

end Variable

section

variable {β : Type} {xs ys : List (Variable × β)} {v : Variable}

theorem lookup_eq_some_iff_mem (distinct : (xs.map Prod.fst).Nodup) {value : β} :
    xs.lookup v = some value ↔ (v, value) ∈ xs := by
  induction xs with
  | nil => simp
  | cons x xs ih =>
    obtain ⟨key, first⟩ := x
    rw [List.map_cons, List.nodup_cons] at distinct
    by_cases same : v = key
    · subst same
      have fresh : (v, value) ∉ xs := fun member =>
        distinct.1 (List.mem_map.mpr ⟨_, member, rfl⟩)
      simp [fresh, eq_comm]
    · rw [lookup_cons_ne same, ih distinct.2]
      simp [same]

theorem lookup_eq_of_perm (distinct : (xs.map Prod.fst).Nodup) (perm : xs.Perm ys) :
    xs.lookup v = ys.lookup v := by
  have distinct' : (ys.map Prod.fst).Nodup := (perm.map Prod.fst).nodup_iff.mp distinct
  ext value
  rw [lookup_eq_some_iff_mem distinct, lookup_eq_some_iff_mem distinct', perm.mem_iff]

end

namespace Assignment

variable {a b : Assignment}

theorem compareEntry_eq (distinct : (a.map Prod.fst).Nodup) :
    ∀ x ∈ a, ∀ y ∈ a, compareEntry x y = x.1.compare y.1 := by
  intro x first y second
  by_cases same : x.1 = y.1
  · have equal : x = y := List.inj_on_of_nodup_map distinct first second same
    subst equal
    have tie : x.1.compare x.1 = .eq := Std.ReflCmp.compare_self
    have same : x.2.compare x.2 = .eq := Std.ReflCmp.compare_self
    rw [compareEntry, tie, same]
    rfl
  · have differ : x.1.compare y.1 ≠ .eq := fun tie => same (Std.LawfulEqCmp.eq_of_compare tie)
    rw [compareEntry]
    cases order : x.1.compare y.1 <;> simp_all

/-- However many entries there are, they can be sorted. -/
theorem consistent_compareEntry (distinct : (a.map Prod.fst).Nodup) :
    Sorting.Consistent compareEntry a := by
  have same : (fun x y : { entry // entry ∈ a } => compareEntry x.1 y.1) =
      fun x y => x.1.1.compare y.1.1 :=
    funext fun x => funext fun y => compareEntry_eq distinct x.1 x.2 y.1 y.2
  rw [Sorting.Consistent, same]
  exact { eq_swap := Std.OrientedCmp.eq_swap, isLE_trans := Std.TransCmp.isLE_trans }

/-- The sorted entries are given by the values of the variables. -/
theorem sorted_eq_of_values (distinct : (a.map Prod.fst).Nodup) (distinct' : (b.map Prod.fst).Nodup)
    (values : ∀ v, a.lookup v = b.lookup v) : a.sorted = b.sorted := by
  have perm : (a.map Prod.fst).Perm (b.map Prod.fst) := by
    rw [List.perm_ext_iff_of_nodup distinct distinct']
    intro v
    rw [← lookup_isSome_iff_mem, ← lookup_isSome_iff_mem, values]
  have keys : a.sorted.map Prod.fst = b.sorted.map Prod.fst := by
    rw [sorted, sorted, Sorting.map_sort (compareEntry_eq distinct),
      Sorting.map_sort (compareEntry_eq distinct'), Sorting.sort_eq_of_perm perm]
  have sorted_distinct : (a.sorted.map Prod.fst).Nodup :=
    ((Sorting.sort_perm compareEntry a).map Prod.fst).nodup_iff.mpr distinct
  apply pairs_ext keys sorted_distinct
  intro v
  rw [sorted, sorted, ← lookup_eq_of_perm distinct (Sorting.sort_perm compareEntry a).symm,
    ← lookup_eq_of_perm distinct' (Sorting.sort_perm compareEntry b).symm, values]

end Assignment

end TripleJoin
