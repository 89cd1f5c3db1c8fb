import TripleJoin.NestedLoop
import TripleJoin.Proofs.Sorting
/-!
Where the values of the nested loops come from. Matching, dropping what was fixed, sorting by variable
and joining in make up no term: what holds of every term of the triples holds of every value found.
-/
namespace TripleJoin

/-- All values have the property. -/
def Assignment.All (p : Term → Prop) (assignment : Assignment) : Prop :=
  ∀ entry ∈ assignment, p entry.2

/-- All terms have the property. -/
def Triple.All (p : Term → Prop) (triple : Triple) : Prop :=
  ∀ position, p (triple.get position)

namespace Assignment

variable {p : Term → Prop} {assignment next extra : Assignment}

theorem All.unify (held : assignment.All p) {slot : Slot} {term : Term} (new : p term)
    (unified : assignment.unify slot term = some next) : next.All p := by
  cases slot with
  | fixed expected =>
    simp only [Assignment.unify, Option.ite_none_right_eq_some, Option.some.injEq] at unified
    exact unified.2 ▸ held
  | free v =>
    cases known : assignment.lookup v with
    | some value =>
      simp only [Assignment.unify, known, Option.ite_none_right_eq_some, Option.some.injEq]
        at unified
      exact unified.2 ▸ held
    | none =>
      simp only [Assignment.unify, known, Option.some.injEq] at unified
      exact unified ▸ List.forall_mem_append.mpr ⟨held, List.forall_mem_singleton.mpr new⟩

theorem All.unifyTriple (held : assignment.All p) {pattern : TriplePattern} {triple : Triple}
    (terms : triple.All p) (unified : assignment.unifyTriple pattern triple = some next) :
    next.All p := by
  simp only [Assignment.unifyTriple, Option.bind_eq_bind, Option.bind_eq_some_iff] at unified
  obtain ⟨first, subject, second, predicate, object⟩ := unified
  exact ((held.unify (terms .subject) subject).unify (terms .predicate) predicate).unify
    (terms .object) object

theorem all_sorted : assignment.sorted.All p ↔ assignment.All p := by
  have perm := Sorting.sort_perm compareEntry assignment
  exact forall_congr' fun entry => imp_congr_left perm.mem_iff

theorem All.join (held : assignment.All p) (more : extra.All p) : (assignment.join extra).All p := by
  rw [Assignment.join, all_sorted]
  induction extra generalizing assignment with
  | nil => exact held
  | cons entry extra ih =>
    rw [All, List.forall_mem_cons] at more
    rw [List.foldl_cons]
    split
    · exact ih held more.2
    · exact ih (List.forall_mem_append.mpr ⟨held, List.forall_mem_singleton.mpr more.1⟩) more.2

end Assignment

namespace NestedLoop

variable {p : Term → Prop} {triples : List Triple} (terms : ∀ triple ∈ triples, triple.All p)

include terms

theorem all_search {patterns : List TriplePattern} {current : Assignment} (start : current.All p) :
    ∀ found ∈ search triples patterns current, found.All p := by
  induction patterns generalizing current with
  | nil => exact List.forall_mem_singleton.mpr start
  | cons pattern patterns ih =>
    intro found member
    rw [search, List.mem_flatMap] at member
    obtain ⟨triple, listed, below⟩ := member
    cases unified : current.unifyTriple pattern triple with
    | none => simp [unified] at below
    | some next =>
      rw [unified] at below
      exact ih (start.unifyTriple (terms triple listed) unified) found below

theorem all_solutions (patterns : List TriplePattern) {fixed : Assignment} (start : fixed.All p) :
    ∀ found ∈ solutions triples patterns fixed, found.All p := by
  intro found member
  obtain ⟨whole, searched, rfl⟩ := List.mem_map.mp member
  rw [Assignment.all_sorted]
  intro entry later
  exact all_search terms start whole searched entry (List.mem_of_mem_drop later)

theorem all_outerRows {base : Assignment} (start : base.All p) (clauses : List (List TriplePattern)) :
    ∀ row ∈ outerRows triples base clauses, row.All p := by
  refine List.foldlRecOn (motive := fun rows : List Assignment => ∀ row ∈ rows, row.All p) clauses _
    (List.forall_mem_singleton.mpr start) fun rows held clause _ => ?_
  dsimp only
  split
  · exact held
  · intro row member
    obtain ⟨before, listed, member⟩ := List.mem_flatMap.mp member
    obtain ⟨extra, found, rfl⟩ := List.mem_map.mp member
    exact (held before listed).join (all_solutions terms clause start extra found)

theorem all_outerJoin (main : List TriplePattern) (clauses : List (List TriplePattern)) :
    ∀ row ∈ outerJoin triples main clauses, row.All p := by
  intro row member
  obtain ⟨base, found, member⟩ := List.mem_flatMap.mp member
  exact all_outerRows terms (all_solutions terms main (List.forall_mem_nil _) base found) clauses
    row member

end NestedLoop

end TripleJoin
