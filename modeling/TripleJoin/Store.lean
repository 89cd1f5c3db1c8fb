import TripleJoin.Graph
import TripleJoin.Journal
import TripleJoin.Error
/-!
Stores answer requests with triples. An answer may depend on how often the store was asked before,
and need not fit the request: matching checks every triple again. What matching reads is a source;
a store is a source whose answers come from a finite set of triples, so that walks over it end.
-/
namespace TripleJoin

structure Source where
  name : String
  /-- The answer to a request, given the number of earlier requests. -/
  answer : Nat → Request → Except StoreError (List Triple)
  watched : Bool := false

namespace Source

/-- The triples of one answer. -/
def Answer (source : Source) : Type :=
  { triples : List Triple // ∃ earlier request, source.answer earlier request = .ok triples }

def answerTo (source : Source) (earlier : Nat) (request : Request) :
    Except StoreError source.Answer :=
  match answered : source.answer earlier request with
  | .ok triples => .ok ⟨triples, earlier, request, answered⟩
  | .error error => .error error

/-- Asks the source and keeps in mind that the triples are an answer of it. -/
def draw (source : Source) (request : Request) : Logged (Except StoreError source.Answer) :=
  modifyGet fun journal =>
    (source.answerTo (journal.callsTo source.name) request,
      journal.recordRequest source.name request source.watched)

def ask (source : Source) (request : Request) : Run StoreError (List Triple) :=
  ExceptT.mk <| modifyGet fun journal =>
    (source.answer (journal.callsTo source.name) request,
      journal.recordRequest source.name request source.watched)

theorem map_answerTo (source : Source) (earlier : Nat) (request : Request) :
    (source.answerTo earlier request).map Subtype.val = source.answer earlier request := by
  unfold answerTo
  split <;> simp_all [Except.map]

/-- Every answer consists of these triples. -/
def DrawsFrom (source : Source) (held : List Triple) : Prop :=
  ∀ earlier request answers, source.answer earlier request = .ok answers →
    ∀ triple ∈ answers, triple ∈ held

end Source

structure Store extends Source where
  finite : ∃ held, toSource.DrawsFrom held

theorem Graph.mem_of_mem_matching {graph : Graph} {request : Request} {triple : Triple}
    (found : triple ∈ graph.matching request) : triple ∈ graph.toList := by
  unfold Graph.matching at found
  split at found
  · exact found
  · obtain ⟨offset, _, hit⟩ := List.mem_filterMap.mp found
    obtain ⟨stored, _⟩ := Option.filter_eq_some_iff.mp hit
    exact Array.mem_toList_iff.mpr (Array.mem_of_getElem? stored)

namespace Store

/-- Answers exactly what the graph holds. -/
def ofGraph (name : String) (graph : Graph) (watched : Bool) : Store where
  name := name
  answer _ request := .ok (graph.matching request)
  watched := watched
  finite := ⟨graph.toList, by
    intro _ _ _ answered triple member
    cases answered
    exact Graph.mem_of_mem_matching member⟩

/-- Answers every request with all triples of the graph. -/
def unselective (name : String) (graph : Graph) (watched : Bool) : Store where
  name := name
  answer _ _ := .ok graph.toList
  watched := watched
  finite := ⟨graph.toList, by
    intro _ _ _ answered triple member
    cases answered
    exact member⟩

/-- Fails from the `n`-th request on; the first request is number one. -/
def failingFrom (store : Store) (n : Nat) (message : String) : Store where
  name := store.name
  answer earlier request :=
    if n ≤ earlier + 1 then .error ⟨message⟩ else store.answer earlier request
  watched := store.watched
  finite := by
    obtain ⟨held, draws⟩ := store.finite
    refine ⟨held, ?_⟩
    intro earlier request answers answered
    dsimp only at answered
    split at answered
    · cases answered
    · exact draws earlier request answers answered

end Store

end TripleJoin
