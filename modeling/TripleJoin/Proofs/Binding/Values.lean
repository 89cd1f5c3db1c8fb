import TripleJoin.TriplePattern
import TripleJoin.Proofs.Pattern.Variables
/-!
Bindings seen through the values of their variables: what every operation does to `get?` and to the
keys. Two bindings with the same keys and values have the same entries.
-/
namespace TripleJoin

section Lookup

variable {β γ : Type}

theorem lookup_isSome_iff_mem (pairs : List (Variable × β)) (v : Variable) :
    (pairs.lookup v).isSome ↔ v ∈ pairs.map Prod.fst := by
  rw [List.lookup_isSome_iff, List.mem_map]
  simp only [beq_iff_eq]
  constructor
  · rintro ⟨pair, member, same⟩
    exact ⟨pair, member, same.symm⟩
  · rintro ⟨pair, member, same⟩
    exact ⟨pair, member, same.symm⟩

theorem lookup_eq_none_of_not_mem {pairs : List (Variable × β)} {v : Variable}
    (absent : v ∉ pairs.map Prod.fst) : pairs.lookup v = none := by
  rw [← Option.not_isSome_iff_eq_none, lookup_isSome_iff_mem]
  exact absent

theorem lookup_cons_ne {v key : Variable} (differs : v ≠ key) (value : β)
    (pairs : List (Variable × β)) : ((key, value) :: pairs).lookup v = pairs.lookup v := by
  rw [List.lookup_cons, beq_false_of_ne differs]

theorem lookup_map_values (f : Variable → β → γ) (pairs : List (Variable × β)) (v : Variable) :
    (pairs.map fun pair => (pair.1, f pair.1 pair.2)).lookup v = (pairs.lookup v).map (f v) := by
  induction pairs with
  | nil => rfl
  | cons pair pairs ih =>
    by_cases same : v = pair.1
    · subst same
      rw [List.map_cons, List.lookup_cons_self, List.lookup_cons_self]
      rfl
    · rw [List.map_cons, lookup_cons_ne same, ih, ← lookup_cons_ne same pair.2]

theorem lookup_filter_keys (keep : Variable → Bool) (pairs : List (Variable × β)) (v : Variable) :
    (pairs.filter fun pair => keep pair.1).lookup v = if keep v then pairs.lookup v else none := by
  induction pairs with
  | nil => simp
  | cons pair pairs ih =>
    obtain ⟨key, value⟩ := pair
    by_cases same : v = key
    · subst same
      cases kept : keep v <;> simp [kept, ih]
    · rw [List.filter_cons]
      split
      · rw [lookup_cons_ne same, lookup_cons_ne same, ih]
      · rw [lookup_cons_ne same, ih]

/-- A list of pairs with distinct variables is given by its variables and by what it looks up. -/
theorem pairs_ext {xs ys : List (Variable × β)} (keys : xs.map Prod.fst = ys.map Prod.fst)
    (distinct : (xs.map Prod.fst).Nodup) (values : ∀ v, xs.lookup v = ys.lookup v) : xs = ys := by
  induction xs generalizing ys with
  | nil =>
    cases ys with
    | nil => rfl
    | cons y ys => cases keys
  | cons x xs ih =>
    cases ys with
    | nil => cases keys
    | cons y ys =>
      obtain ⟨key, value⟩ := x
      obtain ⟨key', value'⟩ := y
      simp only [List.map_cons, List.cons.injEq] at keys
      obtain ⟨same, rest⟩ := keys
      subst same
      rw [List.map_cons, List.nodup_cons] at distinct
      have head := values key
      simp only [List.lookup_cons_self, Option.some.injEq] at head
      subst head
      congr 1
      apply ih rest distinct.2
      intro v
      by_cases first : v = key
      · subst first
        rw [lookup_eq_none_of_not_mem distinct.1, lookup_eq_none_of_not_mem (rest ▸ distinct.1)]
      · have tails := values v
        rw [lookup_cons_ne first, lookup_cons_ne first] at tails
        exact tails

end Lookup

namespace Binding

variable (binding : Binding) (v w : Variable)

theorem keys_nodup : binding.keys.Nodup := binding.distinct

theorem get?_eq_none_of_not_mem {binding : Binding} {v : Variable} (absent : v ∉ binding.keys) :
    binding.get? v = none := by
  rw [get?, lookup_eq_none_of_not_mem absent]
  rfl

theorem get?_addKey (value : Option Term) :
    (binding.addKey w value).get? v =
      if v = w ∧ w ∉ binding.keys then value else binding.get? v := by
  unfold addKey
  split
  · rename_i fresh
    rw [get?, List.lookup_append]
    by_cases same : v = w
    · subst same
      rw [lookup_eq_none_of_not_mem fresh, List.lookup_cons_self]
      simp [fresh]
    · rw [lookup_cons_ne same, if_neg fun both => same both.1]
      simp [get?]
  · rename_i known
    rw [if_neg fun both => known both.2]

theorem get?_mapValues (f : Variable → Option Term → Option Term) :
    (binding.mapValues f).get? v = if v ∈ binding.keys then f v (binding.get? v) else none := by
  rw [get?, mapValues, lookup_map_values]
  by_cases member : v ∈ binding.keys
  · obtain ⟨value, found⟩ := Option.isSome_iff_exists.mp
      ((lookup_isSome_iff_mem binding.entries v).mpr member)
    simp [get?, found, member]
  · rw [lookup_eq_none_of_not_mem member, if_neg member]
    rfl

theorem get?_set (term : Term) :
    (binding.set w term).get? v =
      if v = w ∧ w ∈ binding.keys then some term else binding.get? v := by
  rw [set, get?_mapValues]
  by_cases member : v ∈ binding.keys
  · by_cases same : v = w
    · subst same
      simp [member]
    · simp [member, same]
  · rw [if_neg member, get?_eq_none_of_not_mem member, if_neg]
    rintro ⟨same, known⟩
    exact member (same ▸ known)

theorem get?_put (term : Term) :
    (binding.put w term).get? v = if v = w then some term else binding.get? v := by
  have known : w ∈ (binding.addKey w none).keys := by
    rw [keys_addKey]
    split <;> simp_all
  rw [put, get?_set, get?_addKey]
  by_cases same : v = w
  · simp [same, known]
  · simp [same]

theorem get?_unbound (keys : List Variable) : (unbound keys).get? v = none := by
  have step : ∀ binding : Binding, binding.get? v = none →
      (keys.foldl (fun binding v => binding.addKey v none) binding).get? v = none := by
    induction keys with
    | nil => exact fun _ none => none
    | cons key keys ih =>
      intro binding none
      apply ih
      rw [get?_addKey, none, ite_self]
  exact step empty rfl

theorem keys_addKey_eq_addNew (value : Option Term) :
    (binding.addKey v value).keys = addNew binding.keys v := by
  rw [keys_addKey, addNew]

theorem keys_unbound (keys : List Variable) : (unbound keys).keys = keys.foldl addNew [] := by
  have step : ∀ binding : Binding,
      (keys.foldl (fun binding v => binding.addKey v none) binding).keys =
        keys.foldl addNew binding.keys := by
    induction keys with
    | nil => exact fun _ => rfl
    | cons key keys ih =>
      intro binding
      rw [List.foldl_cons, List.foldl_cons, ih, keys_addKey_eq_addNew]
  exact step empty

theorem isComplete_iff : binding.isComplete = true ↔ ∀ v ∈ binding.keys, (binding.get? v).isSome := by
  obtain ⟨entries, distinct⟩ := binding
  simp only [isComplete, keys, get?]
  induction entries with
  | nil => simp
  | cons entry entries ih =>
    rw [List.map_cons, List.nodup_cons] at distinct
    have others : ∀ v ∈ entries.map Prod.fst,
        ((entry :: entries).lookup v).join = (entries.lookup v).join := by
      intro v member
      have differs : v ≠ entry.1 := fun same => distinct.1 (same ▸ member)
      rw [lookup_cons_ne differs]
    rw [List.all_cons, Bool.and_eq_true, ih distinct.2, List.map_cons, List.forall_mem_cons]
    apply and_congr
    · rw [List.lookup_cons_self]
      simp
    · constructor
      · intro bound v member
        rw [others v member]
        exact bound v member
      · intro bound v member
        rw [← others v member]
        exact bound v member

theorem lookup_bound : binding.bound.lookup v = binding.get? v := by
  obtain ⟨entries, distinct⟩ := binding
  simp only [bound, get?]
  induction entries with
  | nil => rfl
  | cons entry entries ih =>
    obtain ⟨key, value⟩ := entry
    rw [List.map_cons, List.nodup_cons] at distinct
    have rest := ih distinct.2
    cases value with
    | some term =>
      simp only [List.filterMap_cons, Option.map_some]
      by_cases same : v = key
      · subst same
        rw [List.lookup_cons_self, List.lookup_cons_self]
        rfl
      · rw [lookup_cons_ne same, lookup_cons_ne same, rest]
    | none =>
      simp only [List.filterMap_cons, Option.map_none]
      by_cases same : v = key
      · subst same
        rw [rest, List.lookup_cons_self, lookup_eq_none_of_not_mem distinct.1]
        rfl
      · rw [lookup_cons_ne same, rest]

theorem bound_keys_sublist : (binding.bound.map Prod.fst).Sublist binding.keys := by
  obtain ⟨entries, distinct⟩ := binding
  simp only [bound, keys]
  clear distinct
  induction entries with
  | nil => exact .slnil
  | cons entry entries ih =>
    obtain ⟨key, value⟩ := entry
    cases value with
    | some term => simpa [List.filterMap_cons] using ih
    | none => simpa [List.filterMap_cons] using ih.cons key

theorem bound_nodup : (binding.bound.map Prod.fst).Nodup :=
  binding.keys_nodup.sublist binding.bound_keys_sublist

theorem bound_keys_of_isComplete {binding : Binding} (complete : binding.isComplete = true) :
    binding.bound.map Prod.fst = binding.keys := by
  obtain ⟨entries, distinct⟩ := binding
  simp only [isComplete, bound, keys] at complete ⊢
  clear distinct
  induction entries with
  | nil => rfl
  | cons entry entries ih =>
    obtain ⟨key, value⟩ := entry
    rw [List.all_cons, Bool.and_eq_true] at complete
    obtain ⟨term, bound⟩ := Option.isSome_iff_exists.mp complete.1
    subst bound
    simp only [List.filterMap_cons, Option.map_some, List.map_cons, ih complete.2]

theorem get?_foldl_put {pairs : List (Variable × Term)} (distinct : (pairs.map Prod.fst).Nodup) :
    (pairs.foldl (fun binding pair => binding.put pair.1 pair.2) binding).get? v =
      (pairs.lookup v).or (binding.get? v) := by
  induction pairs generalizing binding with
  | nil => rfl
  | cons pair pairs ih =>
    obtain ⟨key, term⟩ := pair
    rw [List.map_cons, List.nodup_cons] at distinct
    rw [List.foldl_cons, ih _ distinct.2, get?_put]
    by_cases same : v = key
    · subst same
      rw [lookup_eq_none_of_not_mem distinct.1, List.lookup_cons_self]
      simp
    · rw [if_neg same, lookup_cons_ne same]

theorem keys_foldl_put (pairs : List (Variable × Term)) :
    (pairs.foldl (fun binding pair => binding.put pair.1 pair.2) binding).keys =
      (pairs.map Prod.fst).foldl addNew binding.keys := by
  induction pairs generalizing binding with
  | nil => rfl
  | cons pair pairs ih =>
    rw [List.foldl_cons, ih, keys_put, List.map_cons, List.foldl_cons, addNew]

theorem isBound_foldl_put {pairs : List (Variable × Term)}
    (given : v ∈ pairs.map Prod.fst ∨ binding.isBound v = true) :
    (pairs.foldl (fun binding pair => binding.put pair.1 pair.2) binding).isBound v = true := by
  induction pairs generalizing binding with
  | nil => simpa using given
  | cons pair pairs ih =>
    apply ih
    rw [isBound, get?_put]
    by_cases same : v = pair.1
    · simp [same]
    · simpa [same, isBound] using given

theorem isBound_withValues (keys : List Variable) {initial : List (Variable × Term)}
    (given : v ∈ initial.map Prod.fst) : (withValues keys initial).isBound v = true :=
  isBound_foldl_put _ v (Or.inl given)

theorem get?_withValues (keys : List Variable) {initial : List (Variable × Term)}
    (distinct : (initial.map Prod.fst).Nodup) :
    (withValues keys initial).get? v = initial.lookup v := by
  rw [withValues, get?_foldl_put _ v distinct, get?_unbound, Option.or_none]

theorem keys_withValues (keys : List Variable) (initial : List (Variable × Term)) :
    (withValues keys initial).keys =
      (initial.map Prod.fst).foldl addNew (keys.foldl addNew []) := by
  rw [withValues, keys_foldl_put, keys_unbound]

/-- The pairs of the second binding win, where it has a value. -/
theorem get?_merge (other : Binding) :
    (binding.merge other).get? v = (other.get? v).or (binding.get? v) := by
  rw [merge, get?_foldl_put _ v other.bound_nodup, lookup_bound]

/-- Of pairs with distinct keys, those whose key is not there yet are added in order. -/
theorem entries_foldl_addKey {entries : List (Variable × Option Term)}
    (distinct : (entries.map Prod.fst).Nodup) :
    (entries.foldl (fun combined entry => combined.addKey entry.1 entry.2) binding).entries =
      binding.entries ++ entries.filter fun entry => entry.1 ∉ binding.keys := by
  induction entries generalizing binding with
  | nil => simp
  | cons entry entries ih =>
    rw [List.map_cons, List.nodup_cons] at distinct
    rw [List.foldl_cons, ih _ distinct.2]
    by_cases known : entry.1 ∈ binding.keys
    · rw [addKey, dif_neg fun fresh => fresh known,
        List.filter_cons_of_neg (by simpa using known)]
    · have others : entries.filter (fun other => other.1 ∉ binding.keys ++ [entry.1]) =
          entries.filter fun other => other.1 ∉ binding.keys := by
        apply List.filter_congr
        intro other member
        have apart : other.1 ≠ entry.1 :=
          fun same => distinct.1 (same ▸ List.mem_map_of_mem member)
        simp [apart]
      rw [keys_addKey, if_neg known, others, addKey, dif_pos known,
        List.filter_cons_of_pos (by simpa using known), List.append_assoc]
      rfl

theorem entries_overlay (inherited : Binding) :
    (binding.overlay inherited).entries =
      binding.entries ++ inherited.entries.filter fun entry => entry.1 ∉ binding.keys :=
  binding.entries_foldl_addKey inherited.distinct

/-- The keys of the first binding hide those of the second, bound or not. -/
theorem get?_overlay (inherited : Binding) :
    (binding.overlay inherited).get? v =
      if v ∈ binding.keys then binding.get? v else inherited.get? v := by
  have behind := lookup_filter_keys (fun key => decide (key ∉ binding.keys)) inherited.entries v
  rw [get?, entries_overlay, List.lookup_append, behind]
  by_cases known : v ∈ binding.keys
  · simp [known, get?]
  · rw [lookup_eq_none_of_not_mem known]
    simp [known, get?]

end Binding

end TripleJoin
