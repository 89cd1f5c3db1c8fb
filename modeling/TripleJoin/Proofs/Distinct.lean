import TripleJoin.Distinct
import TripleJoin.Pattern
/-!
First occurrences. Collecting them one by one commutes with filtering and with a list that is there
beforehand, and it gives what the pass with a hash set gives.
-/
namespace TripleJoin

section

variable {α : Type} [DecidableEq α]

@[simp] theorem mem_addNew {xs : List α} {x y : α} : y ∈ addNew xs x ↔ y ∈ xs ∨ y = x := by
  unfold addNew
  split
  · rename_i known
    constructor
    · exact Or.inl
    · rintro (member | same)
      · exact member
      · exact same ▸ known
  · simp

@[simp] theorem mem_foldl_addNew {xs ys : List α} {y : α} :
    y ∈ ys.foldl addNew xs ↔ y ∈ xs ∨ y ∈ ys := by
  induction ys generalizing xs with
  | nil => simp
  | cons z ys ih => rw [List.foldl_cons, ih, mem_addNew, List.mem_cons, or_assoc]

theorem nodup_addNew {xs : List α} (distinct : xs.Nodup) (x : α) : (addNew xs x).Nodup := by
  unfold addNew
  split
  · exact distinct
  · rename_i fresh
    rw [List.nodup_append]
    refine ⟨distinct, by simp, ?_⟩
    intro y member z single same
    rw [List.mem_singleton] at single
    exact fresh (single ▸ same ▸ member)

theorem nodup_foldl_addNew {xs : List α} (distinct : xs.Nodup) (ys : List α) :
    (ys.foldl addNew xs).Nodup := by
  induction ys generalizing xs with
  | nil => exact distinct
  | cons y ys ih => exact ih (nodup_addNew distinct y)

theorem foldl_addNew_append (xs acc ys : List α) :
    ys.foldl addNew (xs ++ acc) = xs ++ (ys.filter (· ∉ xs)).foldl addNew acc := by
  induction ys generalizing acc with
  | nil => rfl
  | cons y ys ih =>
    rw [List.foldl_cons, List.filter_cons]
    by_cases known : y ∈ xs
    · have same : addNew (xs ++ acc) y = xs ++ acc := if_pos (List.mem_append_left acc known)
      rw [same, ih]
      simp [known]
    · have same : addNew (xs ++ acc) y = xs ++ addNew acc y := by
        simp only [addNew, List.mem_append, known, false_or]
        split
        · rfl
        · rw [List.append_assoc]
      rw [same, ih]
      simp [known]

theorem foldl_addNew_filter (keep : α → Bool) (acc ys : List α) :
    (ys.filter keep).foldl addNew (acc.filter keep) = (ys.foldl addNew acc).filter keep := by
  induction ys generalizing acc with
  | nil => rfl
  | cons y ys ih =>
    have step : (addNew acc y).filter keep =
        if keep y then addNew (acc.filter keep) y else acc.filter keep := by
      unfold addNew
      split <;> split <;> simp_all
    rw [List.filter_cons, List.foldl_cons, ← ih, step]
    split <;> rfl

theorem foldl_addNew_of_nodup {ys : List α} (distinct : ys.Nodup) : ys.foldl addNew [] = ys := by
  have step : ∀ acc : List α, (∀ y ∈ ys, y ∉ acc) → ys.foldl addNew acc = acc ++ ys := by
    induction ys with
    | nil => simp
    | cons y ys ih =>
      intro acc fresh
      rw [List.nodup_cons] at distinct
      have first : addNew acc y = acc ++ [y] := if_neg (fresh y List.mem_cons_self)
      rw [List.foldl_cons, first, ih distinct.2]
      · rw [List.append_assoc, List.singleton_append]
      · intro z member
        rw [List.mem_append, List.mem_singleton, not_or]
        refine ⟨fresh z (List.mem_cons_of_mem y member), ?_⟩
        intro same
        exact distinct.1 (same ▸ member)
  exact step [] (by simp)

/-- Taken one by one, the first occurrences are what is left when repetitions are erased. -/
theorem foldl_addNew_eq_eraseDups (ys : List α) : ys.foldl addNew [] = ys.eraseDups := by
  induction length : ys.length using Nat.strongRecOn generalizing ys with
  | ind n ih =>
    cases ys with
    | nil => rfl
    | cons y ys =>
      have shorter : (ys.filter (· ∉ [y])).length < n := by
        have kept := List.length_filter_le (· ∉ [y]) ys
        simp only [List.length_cons] at length
        omega
      have first := foldl_addNew_append [y] [] ys
      rw [List.append_nil, ih _ shorter _ rfl] at first
      have others : ys.filter (· ∉ [y]) = ys.filter fun z => !z == y := by
        apply List.filter_congr
        intro z _
        rw [Bool.eq_iff_iff]
        simp
      rw [List.foldl_cons, List.eraseDups_cons, ← others]
      exact first

theorem eraseDups_filter (keep : α → Bool) (ys : List α) :
    (ys.filter keep).eraseDups = ys.eraseDups.filter keep := by
  have same := foldl_addNew_filter keep [] ys
  rwa [List.filter_nil, foldl_addNew_eq_eraseDups, foldl_addNew_eq_eraseDups] at same

variable [Hashable α]

theorem distinctAfter_eq {seen : Std.HashSet α} {known : List α}
    (same : ∀ x, x ∈ seen ↔ x ∈ known) (xs : List α) :
    known ++ distinctAfter seen xs = xs.foldl addNew known := by
  induction xs generalizing seen known with
  | nil => simp [distinctAfter]
  | cons x xs ih =>
    have next : ∀ y, y ∈ seen.insert x ↔ y ∈ known ++ [x] := by
      intro y
      rw [Std.HashSet.mem_insert, List.mem_append, List.mem_singleton, same y, beq_iff_eq,
        or_comm, eq_comm]
    have contained : seen.contains x = true ↔ x ∈ known :=
      Std.HashSet.mem_iff_contains.symm.trans (same x)
    rw [distinctAfter, List.foldl_cons, addNew]
    by_cases member : x ∈ known
    · rw [if_pos member, if_pos (contained.mpr member)]
      exact ih same
    · rw [if_neg member, if_neg (mt contained.mp member), ← ih next, List.append_assoc,
        List.singleton_append]

theorem distinct_eq (xs : List α) : distinct xs = xs.foldl addNew [] := by
  have start : ∀ x : α, x ∈ (∅ : Std.HashSet α) ↔ x ∈ ([] : List α) := by simp
  exact distinctAfter_eq start xs

theorem mem_distinct {xs : List α} {x : α} : x ∈ distinct xs ↔ x ∈ xs := by
  simp [distinct_eq]

theorem nodup_distinct (xs : List α) : (distinct xs).Nodup := by
  rw [distinct_eq]
  exact nodup_foldl_addNew List.nodup_nil xs

theorem distinct_perm {xs ys : List α} (perm : xs.Perm ys) : (distinct xs).Perm (distinct ys) := by
  rw [List.perm_ext_iff_of_nodup (nodup_distinct xs) (nodup_distinct ys)]
  intro x
  rw [mem_distinct, mem_distinct]
  exact perm.mem_iff

end

end TripleJoin
