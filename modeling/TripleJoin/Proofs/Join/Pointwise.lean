import Mathlib.Data.List.Forall2
/-!
Two enumerations that go through one list side by side and stay related element by element.
-/
namespace TripleJoin

variable {α β γ δ : Type} {R : β → γ → Prop}

theorem rel_bind {S : α → δ → Prop} {x : Option β} {y : Option γ} {f : β → Option α}
    {g : γ → Option δ} (start : Option.Rel R x y) (step : ∀ b c, R b c → Option.Rel S (f b) (g c)) :
    Option.Rel S (x.bind f) (y.bind g) := by
  cases start with
  | none => exact .none
  | some related => exact step _ _ related

theorem rel_imp {S : β → γ → Prop} {x : Option β} {y : Option γ} (related : Option.Rel R x y)
    (more : ∀ b c, x = some b → y = some c → R b c → S b c) : Option.Rel S x y := by
  cases related with
  | none => exact .none
  | some rel => exact .some (more _ _ rfl rfl rel)

theorem forall₂_filterMap {f : α → Option β} {g : α → Option γ} {xs : List α}
    (each : ∀ x ∈ xs, Option.Rel R (f x) (g x)) :
    List.Forall₂ R (xs.filterMap f) (xs.filterMap g) := by
  induction xs with
  | nil => exact .nil
  | cons x xs ih =>
    have first := each x List.mem_cons_self
    have rest := ih fun y later => each y (List.mem_cons_of_mem x later)
    rw [List.filterMap_cons, List.filterMap_cons]
    generalize f x = left, g x = right at first
    cases first with
    | none => exact rest
    | some related => exact .cons related rest

theorem forall₂_toList {x : Option β} {y : Option γ} (related : Option.Rel R x y) :
    List.Forall₂ R x.toList y.toList := by
  cases related with
  | none => exact .nil
  | some rel => exact .cons rel .nil

theorem forall₂_flatMap {S : α → δ → Prop} {f : β → List α} {g : γ → List δ} {xs : List β}
    {ys : List γ} (related : List.Forall₂ R xs ys)
    (step : ∀ b c, R b c → List.Forall₂ S (f b) (g c)) :
    List.Forall₂ S (xs.flatMap f) (ys.flatMap g) :=
  List.rel_flatMap related fun _ _ rel => step _ _ rel

theorem map_eq_map_of_forall₂ {f : β → δ} {g : γ → δ} {xs : List β} {ys : List γ}
    (related : List.Forall₂ R xs ys) (same : ∀ b c, R b c → f b = g c) : xs.map f = ys.map g := by
  induction related with
  | nil => rfl
  | cons rel _ ih => rw [List.map_cons, List.map_cons, same _ _ rel, ih]

theorem flatMap_perm_of_forall₂ {f : β → List δ} {g : γ → List δ} {xs : List β} {ys : List γ}
    (related : List.Forall₂ R xs ys) (same : ∀ b c, R b c → (f b).Perm (g c)) :
    (xs.flatMap f).Perm (ys.flatMap g) := by
  induction related with
  | nil => exact .refl _
  | cons rel _ ih =>
    rw [List.flatMap_cons, List.flatMap_cons]
    exact (same _ _ rel).append ih

theorem forall_mem_of_forall₂ {p : γ → Prop} {xs : List β} {ys : List γ}
    (related : List.Forall₂ R xs ys) (each : ∀ b c, R b c → p c) : ∀ y ∈ ys, p y := by
  induction related with
  | nil => exact List.forall_mem_nil _
  | cons rel _ ih => exact List.forall_mem_cons.mpr ⟨each _ _ rel, ih⟩

end TripleJoin
