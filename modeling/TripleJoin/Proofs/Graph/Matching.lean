import Mathlib.Data.List.Basic
import Mathlib.Data.List.Induction
import TripleJoin.Pattern
import TripleJoin.Store
/-!
The contents of a graph and looking up triples in it. Whichever index is the narrowest, the answer
to a request is the list of all stored triples that meet it, in insertion order.
-/
namespace TripleJoin

theorem Request.get_eq_of_admits {request : Request} {triple : Triple}
    (met : request.admits triple = true) {position : Position} {term : Term}
    (given : request.get position = some term) : triple.get position = term := by
  simp only [admits, Bool.and_eq_true] at met
  cases position <;> simp_all [get, Triple.get]

theorem getElem?_append_of_mem_occurrences {position : Position} {term : Term}
    {triples : List Triple} {offset : Nat} (member : offset ∈ occurrences position term triples)
    (more : List Triple) : (triples ++ more)[offset]? = triples[offset]? := by
  obtain ⟨entry, listed, same⟩ := List.mem_map.mp member
  have bound := List.snd_lt_of_mem_zipIdx (List.mem_filter.mp listed).1
  rw [List.getElem?_append_left]
  omega

/-- Scanning the offsets of a component that the request gives finds what scanning all finds. -/
theorem filterMap_occurrences {request : Request} {position : Position} {term : Term}
    (given : request.get position = some term) (triples : List Triple) :
    (occurrences position term triples).filterMap
      (fun offset => triples[offset]?.filter fun triple => request.admits triple) =
        triples.filter fun triple => request.admits triple := by
  induction triples using List.reverseRecOn with
  | nil => rfl
  | append_singleton earlier last ih =>
    have before : (occurrences position term earlier).filterMap
        (fun offset => (earlier ++ [last])[offset]?.filter fun triple => request.admits triple) =
          earlier.filter fun triple => request.admits triple := by
      rw [← ih]
      apply List.filterMap_congr
      intro offset member
      rw [getElem?_append_of_mem_occurrences member]
    rw [occurrences_concat, List.filterMap_append, before, List.filter_append]
    congr 1
    by_cases held : last.get position = term
    · rw [if_pos held, List.filterMap_cons, List.getElem?_concat_length, List.filterMap_nil,
        List.filter_singleton]
      cases met : request.admits last <;> simp [Option.filter, met]
    · have missed : request.admits last = false := by
        rw [← Bool.not_eq_true]
        exact fun met => held (Request.get_eq_of_admits met given)
      simp [held, missed]

/-- A fold that keeps one of two candidates at each step ends with one of them all. -/
theorem foldl_choice {α : Type} {pick : Option α → α → Option α}
    (first : ∀ x, pick none x = some x)
    (next : ∀ best x, pick (some best) x = some best ∨ pick (some best) x = some x) (xs : List α) :
    (xs = [] ∧ xs.foldl pick none = none) ∨ ∃ best ∈ xs, xs.foldl pick none = some best := by
  have step : ∀ (ys : List α) (best : α), ∃ last ∈ best :: ys,
      ys.foldl pick (some best) = some last := by
    intro ys
    induction ys with
    | nil => exact fun best => ⟨best, List.mem_cons_self, rfl⟩
    | cons y ys ih =>
      intro best
      rw [List.foldl_cons]
      rcases next best y with kept | changed
      · obtain ⟨last, member, ends⟩ := ih best
        rw [kept]
        refine ⟨last, ?_, ends⟩
        rcases List.mem_cons.mp member with same | later
        · exact same ▸ List.mem_cons_self
        · exact List.mem_cons_of_mem _ (List.mem_cons_of_mem _ later)
      · obtain ⟨last, member, ends⟩ := ih y
        rw [changed]
        exact ⟨last, List.mem_cons_of_mem _ member, ends⟩
  cases xs with
  | nil => exact Or.inl ⟨rfl, rfl⟩
  | cons x xs =>
    rw [List.foldl_cons, first]
    exact Or.inr (step xs x)

namespace Graph

theorem toList_extend (graph : Graph) (triples : List Triple) :
    (graph.extend triples).toList = triples.foldl addNew graph.toList := by
  unfold extend
  induction triples generalizing graph with
  | nil => rfl
  | cons triple triples ih => rw [List.foldl_cons, ih, toList_insert, List.foldl_cons, addNew]

theorem toList_ofList (triples : List Triple) :
    (ofList triples).toList = triples.foldl addNew [] :=
  toList_extend empty triples

/-- The offsets that a look-up scans are those of a component that the request gives; it scans all
    triples only if the request gives none. -/
theorem candidates_spec (graph : Graph) (request : Request) :
    (request = .any ∧ graph.candidates request = none) ∨
      ∃ position term offsets, request.get position = some term ∧
        graph.candidates request = some offsets ∧
          offsets.toList = occurrences position term graph.toList := by
  let lists := [request.subject.map graph.subjects.offsets,
    request.predicate.map graph.predicates.offsets, request.object.map graph.objects.offsets]
  have choice : (lists.filterMap id = [] ∧ graph.candidates request = none) ∨
      ∃ best ∈ lists.filterMap id, graph.candidates request = some best := by
    apply foldl_choice
    · exact fun _ => rfl
    · intro best offsets
      dsimp only
      split
      · exact Or.inr rfl
      · exact Or.inl rfl
  rcases choice with ⟨empty, none⟩ | ⟨best, member, chosen⟩
  · refine Or.inl ⟨?_, none⟩
    obtain ⟨subject, predicate, object⟩ := request
    simpa [lists, List.filterMap_eq_nil_iff, Request.any] using empty
  · obtain ⟨given, listed, same⟩ := List.mem_filterMap.mp member
    simp only [lists, List.mem_cons, List.not_mem_nil, or_false] at listed
    rcases listed with first | second | third
    · obtain ⟨term, set, offsets⟩ := Option.map_eq_some_iff.mp (first.symm.trans same)
      exact Or.inr ⟨.subject, term, best, set, chosen, offsets ▸ graph.subjects_lists term⟩
    · obtain ⟨term, set, offsets⟩ := Option.map_eq_some_iff.mp (second.symm.trans same)
      exact Or.inr ⟨.predicate, term, best, set, chosen, offsets ▸ graph.predicates_lists term⟩
    · obtain ⟨term, set, offsets⟩ := Option.map_eq_some_iff.mp (third.symm.trans same)
      exact Or.inr ⟨.object, term, best, set, chosen, offsets ▸ graph.objects_lists term⟩

/-- The answer to a request is the list of the triples that meet it, in insertion order. -/
theorem matching_eq_filter (graph : Graph) (request : Request) :
    graph.matching request = graph.toList.filter fun triple => request.admits triple := by
  rw [matching]
  rcases graph.candidates_spec request with
    ⟨any, all⟩ | ⟨position, term, offsets, given, chosen, same⟩
  · rw [all, any]
    simp [Request.admits, Request.any]
  · rw [chosen]
    dsimp only
    rw [same, ← filterMap_occurrences given]
    simp [toList]

theorem matching_nodup (graph : Graph) (request : Request) : (graph.matching request).Nodup := by
  rw [graph.matching_eq_filter]
  exact graph.toList_nodup.filter _

end Graph

end TripleJoin
