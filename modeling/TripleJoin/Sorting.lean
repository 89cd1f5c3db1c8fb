/-!
Stable sorting by a comparison. Up to twenty elements are sorted by insertion: in list order, each
moves left past every element that it is less than, whatever the comparison is like. Longer lists are
merged, which asks for a total preorder of the elements; both ways then give the one stable
arrangement. Under any other comparison a long sort may break off or leave another order, so that
`sort` speaks for it only where `Accepts` holds.
-/
namespace TripleJoin.Sorting

variable {α : Type}

/-- Inserts an element into a list that ascends from its end. -/
def insertBack (compare : α → α → Ordering) (x : α) : List α → List α
  | [] => [x]
  | y :: ys => if (compare x y).isLT then y :: insertBack compare x ys else x :: y :: ys

def byInsertion (compare : α → α → Ordering) (xs : List α) : List α :=
  (xs.foldl (fun sorted x => insertBack compare x sorted) []).reverse

def insertionLimit : Nat := 20

/-- The arrangement of a sort that ends well. -/
def sort (compare : α → α → Ordering) (xs : List α) : List α :=
  if xs.length ≤ insertionLimit then byInsertion compare xs
  else xs.mergeSort fun x y => (compare x y).isLE

/-- Among these elements the comparison is a total preorder. -/
def Consistent (compare : α → α → Ordering) (xs : List α) : Prop :=
  Std.TransCmp fun a b : { x // x ∈ xs } => compare a.1 b.1

/-- The sort is sure to end, and in its arrangement. -/
def Accepts (compare : α → α → Ordering) (xs : List α) : Prop :=
  xs.length ≤ insertionLimit ∨ Consistent compare xs

theorem insertBack_perm (compare : α → α → Ordering) (x : α) (ys : List α) :
    (insertBack compare x ys).Perm (x :: ys) := by
  induction ys with
  | nil => exact .refl _
  | cons y ys ih =>
    rw [insertBack]
    split
    · exact (ih.cons y).trans (.swap x y ys)
    · exact .refl _

theorem foldl_insertBack_perm (compare : α → α → Ordering) (xs sorted : List α) :
    (xs.foldl (fun sorted x => insertBack compare x sorted) sorted).Perm (sorted ++ xs) := by
  induction xs generalizing sorted with
  | nil => simp
  | cons x xs ih =>
    refine (ih _).trans ?_
    exact ((insertBack_perm compare x sorted).append_right xs).trans List.perm_middle.symm

theorem sort_perm (compare : α → α → Ordering) (xs : List α) : (sort compare xs).Perm xs := by
  unfold sort
  split
  · exact (List.reverse_perm _).trans (by simpa using foldl_insertBack_perm compare xs [])
  · exact List.mergeSort_perm xs _

end TripleJoin.Sorting
