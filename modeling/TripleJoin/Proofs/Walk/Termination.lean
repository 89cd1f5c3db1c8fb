import TripleJoin.Proofs.Calls
import TripleJoin.Proofs.Walk.Reachability
/-!
Walks end. Whatever a source answers, each step of a walk takes one node from those pending and adds
the exits of the triples that are new; so the requests and the nodes still pending are, together, one
more than these exits. Triples run out if the answers come from a finite list, however the answers
vary and whatever they have to do with the requests, and then no walk goes on for ever.
-/
namespace TripleJoin

/-- For one of these requests, made one after the other when the source was asked so often before,
    the source returned the triple. -/
def Source.Returned (source : Source) (asked : Nat) (requests : List Request) (triple : Triple) :
    Prop :=
  ∃ place, ∃ request ∈ requests[place]?, ∃ answer,
    source.answer (asked + place) request = .ok answer ∧ triple ∈ answer

section

variable {source : Source} {asked : Nat} {request : Request} {requests : List Request}
  {triple : Triple}

theorem Source.returned_cons_iff : source.Returned asked (request :: requests) triple ↔
    (∃ answer, source.answer asked request = .ok answer ∧ triple ∈ answer) ∨
      source.Returned (asked + 1) requests triple := by
  constructor
  · rintro ⟨place, wanted, there, answer, answered, member⟩
    cases place with
    | zero =>
      cases there
      exact Or.inl ⟨answer, answered, member⟩
    | succ place =>
      rw [Nat.add_succ, ← Nat.succ_add] at answered
      exact Or.inr ⟨place, wanted, there, answer, answered, member⟩
  · rintro (⟨answer, answered, member⟩ | ⟨place, wanted, there, answer, answered, member⟩)
    · exact ⟨0, request, rfl, answer, answered, member⟩
    · rw [Nat.succ_add, ← Nat.add_succ] at answered
      exact ⟨place + 1, wanted, there, answer, answered, member⟩

theorem Source.not_returned_nil : ¬ source.Returned asked [] triple := by
  rintro ⟨_, _, ⟨⟩, _⟩

theorem Source.returned_append_iff {more : List Request} :
    source.Returned asked (requests ++ more) triple ↔
      source.Returned asked requests triple ∨
        source.Returned (asked + requests.length) more triple := by
  induction requests generalizing asked with
  | nil => exact (or_iff_right not_returned_nil).symm
  | cons request requests ih =>
    rw [List.cons_append, returned_cons_iff, returned_cons_iff, ih, List.length_cons, or_assoc,
      Nat.add_right_comm, Nat.add_assoc]

theorem Source.DrawsFrom.mem_of_returned {held : List Triple} (draws : source.DrawsFrom held)
    (returned : source.Returned asked requests triple) : triple ∈ held := by
  obtain ⟨place, request, _, answer, answered, member⟩ := returned
  exact draws _ request answer answered triple member

end

theorem Call.requests_of_map (requests : List Request) :
    Call.requests (requests.map .request) = requests.length := by
  rw [Call.requests, List.countP_map]
  exact List.countP_eq_length.mpr fun _ _ => rfl

/-- A graph keeps what was appended apart from itself and from what it held before. -/
theorem Graph.apart_of_grown {into reached : Graph} {added : List Triple}
    (grown : reached.toList = into.toList ++ added) :
    added.Nodup ∧ ∀ triple ∈ added, triple ∉ into.toList := by
  have distinct := reached.toList_nodup
  rw [grown, List.nodup_append] at distinct
  exact ⟨distinct.2.1, fun triple member former => distinct.2.2 triple former triple member rfl⟩

namespace Walk

theorem length_exits_le (sense : Sense) (triple : Triple) : (sense.exits triple).length ≤ 2 := by
  cases sense with
  | forward => exact List.length_filter_le _ _
  | backward => exact Nat.le_refl 2

theorem length_exitsOf_le (sense : Sense) (triples : List Triple) :
    (triples.flatMap sense.exits).length ≤ 2 * triples.length := by
  induction triples with
  | nil => exact Nat.le_refl 0
  | cons triple triples ih =>
    have first := length_exits_le sense triple
    rw [List.flatMap_cons, List.length_append, List.length_cons]
    omega

theorem length_exitsOf_backward (triples : List Triple) :
    (triples.flatMap Sense.backward.exits).length = 2 * triples.length := by
  induction triples with
  | nil => rfl
  | cons triple triples ih =>
    rw [List.flatMap_cons, List.length_append, ih, List.length_cons, Nat.mul_succ, Nat.add_comm]
    rfl

/-- Collecting an answer appends the triples that are new, and their exits become pending. -/
theorem foldl_follow_grows (sense : Sense) (answer : List Triple) (state : State) :
    ∃ added,
      (answer.foldl (follow sense) state).reached.toList = state.reached.toList ++ added ∧
      (answer.foldl (follow sense) state).pending.length =
        state.pending.length + (added.flatMap sense.exits).length := by
  induction answer generalizing state with
  | nil => exact ⟨[], (List.append_nil _).symm, rfl⟩
  | cons triple answer ih =>
    rw [List.foldl_cons]
    obtain ⟨added, grown, pushed⟩ := ih (follow sense state triple)
    by_cases old : triple ∈ state.reached.toList
    · rw [follow_old old] at grown pushed ⊢
      exact ⟨added, grown, pushed⟩
    · refine ⟨triple :: added, ?_, ?_⟩
      · rw [grown, follow_reached, Graph.toList_insert, if_neg old, List.append_assoc,
          List.singleton_append]
      · rw [pushed, follow_new sense state old, List.length_append, List.length_reverse,
          List.flatMap_cons, List.length_append]
        omega

/-- A walk on its way: after so many earlier requests the source answers these, one for each step,
    and what it answers leads from the first state to the second. -/
inductive Course (source : Source) (sense : Sense) :
    Nat → State → List Request → State → Prop where
  | stay {asked : Nat} {state : State} : Course source sense asked state [] state
  | visit {asked : Nat} {node : Term} {pending : List Term} {reached : Graph}
      {answer : List Triple} {requests : List Request} {finish : State}
      (answered : source.answer asked (sense.request node) = .ok answer)
      (rest : Course source sense (asked + 1) (answer.foldl (follow sense) ⟨pending, reached⟩)
        requests finish) :
      Course source sense asked ⟨node :: pending, reached⟩ (sense.request node :: requests) finish

/-- How a walk ends: with nothing pending, or with an error of the source. -/
inductive Ends (source : Source) (sense : Sense) (asked : Nat) (state : State) :
    List Request → Outcome → Prop where
  | emptied {requests : List Request} {reached : Graph}
      (course : Course source sense asked state requests ⟨[], reached⟩) :
      Ends source sense asked state requests ⟨reached, none⟩
  | refused {requests : List Request} {node : Term} {pending : List Term} {reached : Graph}
      {error : StoreError}
      (course : Course source sense asked state requests ⟨node :: pending, reached⟩)
      (failed : source.answer (asked + requests.length) (sense.request node) = .error error) :
      Ends source sense asked state (requests ++ [sense.request node]) ⟨reached, some error⟩

section

variable {source : Source} {sense : Sense} {asked : Nat} {state finish : State}
  {requests : List Request} {outcome : Outcome}

/-- The account that each step keeps: a request for a node taken, pending nodes for the exits of what
    is new. -/
theorem Course.grows (course : Course source sense asked state requests finish) :
    ∃ added, finish.reached.toList = state.reached.toList ++ added ∧
      requests.length + finish.pending.length =
        state.pending.length + (added.flatMap sense.exits).length := by
  induction course with
  | stay => exact ⟨[], (List.append_nil _).symm, Nat.zero_add _⟩
  | @visit asked node pending reached answer requests finish answered rest ih =>
    obtain ⟨fresh, grown, pushed⟩ := foldl_follow_grows sense answer ⟨pending, reached⟩
    obtain ⟨added, grown', balance⟩ := ih
    refine ⟨fresh ++ added, ?_, ?_⟩
    · rw [grown', grown, List.append_assoc]
    · simp only [List.flatMap_append, List.length_append, List.length_cons] at pushed ⊢
      omega

theorem Course.mem_reached_iff (course : Course source sense asked state requests finish)
    (triple : Triple) : triple ∈ finish.reached.toList ↔
      triple ∈ state.reached.toList ∨ source.Returned asked requests triple := by
  induction course with
  | stay => exact (or_iff_left Source.not_returned_nil).symm
  | @visit asked node pending reached answer requests finish answered rest ih =>
    have here : (∃ triples, source.answer asked (sense.request node) = .ok triples ∧
        triple ∈ triples) ↔ triple ∈ answer := by
      rw [answered]
      exact ⟨by rintro ⟨_, ⟨⟩, member⟩; exact member, fun member => ⟨answer, rfl, member⟩⟩
    rw [ih, mem_reached_foldl, Source.returned_cons_iff, here, or_assoc]

theorem Ends.visit {node : Term} {pending : List Term} {reached : Graph} {answer : List Triple}
    (answered : source.answer asked (sense.request node) = .ok answer)
    (rest : Ends source sense (asked + 1) (answer.foldl (follow sense) ⟨pending, reached⟩) requests
      outcome) :
    Ends source sense asked ⟨node :: pending, reached⟩ (sense.request node :: requests) outcome := by
  cases rest with
  | emptied course => exact .emptied (.visit answered course)
  | refused course failed =>
    rw [Nat.succ_add, ← Nat.add_succ] at failed
    exact .refused (.visit answered course) failed

theorem Ends.mem_reached_iff (ends : Ends source sense asked state requests outcome)
    (triple : Triple) : triple ∈ outcome.reached.toList ↔
      triple ∈ state.reached.toList ∨ source.Returned asked requests triple := by
  cases ends with
  | emptied course => exact course.mem_reached_iff triple
  | @refused requests node pending reached error course failed =>
    have nothing : ¬ source.Returned (asked + requests.length) [sense.request node] triple := by
      rw [Source.returned_cons_iff, failed]
      rintro (⟨_, ⟨⟩, _⟩ | later)
      exact Source.not_returned_nil later
    rw [Source.returned_append_iff, or_iff_left nothing]
    exact course.mem_reached_iff triple

/-- A walk that succeeds makes a request for each node that was ever pending; one that fails may
    leave some of them out. -/
theorem Ends.grows (ends : Ends source sense asked state requests outcome) :
    ∃ added, outcome.reached.toList = state.reached.toList ++ added ∧
      requests.length ≤ state.pending.length + (added.flatMap sense.exits).length ∧
      (outcome.failure = none →
        requests.length = state.pending.length + (added.flatMap sense.exits).length) := by
  cases ends with
  | emptied course =>
    obtain ⟨added, grown, balance⟩ := course.grows
    exact ⟨added, grown, Nat.le_of_eq balance, fun _ => balance⟩
  | refused course failed =>
    obtain ⟨added, grown, balance⟩ := course.grows
    refine ⟨added, grown, ?_, nofun⟩
    simp only [List.length_append, List.length_cons, List.length_nil] at balance ⊢
    omega

section

variable {held : List Triple} (draws : source.DrawsFrom held)
include draws

/-- No course is longer than the pending nodes and the triples that are missing allow. -/
theorem Course.length_le (course : Course source sense asked state requests finish) :
    requests.length ≤ state.pending.length + 2 * missing held state.reached := by
  obtain ⟨added, grown, balance⟩ := course.grows
  obtain ⟨once, new⟩ := Graph.apart_of_grown grown
  have drawn : added ⊆ held.filter fun triple => !state.reached.contains triple := by
    intro triple member
    have there : triple ∈ finish.reached.toList := grown ▸ List.mem_append_right _ member
    have returned := ((course.mem_reached_iff triple).mp there).resolve_left (new triple member)
    rw [List.mem_filter, Bool.not_eq_true', ← Bool.not_eq_true, Graph.contains_iff]
    exact ⟨draws.mem_of_returned returned, new triple member⟩
  have few : added.length ≤ missing held state.reached := by
    rw [missing, List.countP_eq_length_filter]
    exact once.length_le_of_subset drawn
  have exits := length_exitsOf_le sense added
  omega

end

end

theorem visit_ends (store : Store) (sense : Sense) (state : State) (before : Journal) :
    ∃ outcome after requests, (visit store sense state).run before = (outcome, after) ∧
      Ends store.toSource sense (before.callsTo store.name) state requests outcome ∧
      before.Adds store.toSource (requests.map .request) after := by
  induction state using visit.induct store sense generalizing before with
  | case1 reached =>
    rw [visit]
    exact ⟨_, _, [], rfl, .emptied .stay, (List.append_nil _).symm, rfl⟩
  | case2 node pending reached ih =>
    let middle := before.recordRequest store.name (sense.request node) store.watched
    have adds : before.Adds store.toSource [.request (sense.request node)] middle :=
      before.adds_recordRequest (sense.request node)
    have value := store.map_answerTo (before.callsTo store.name) (sense.request node)
    have drawn : (store.draw (sense.request node)).run before =
        (store.answerTo (before.callsTo store.name) (sense.request node), middle) := rfl
    rw [visit, StateT.run_bind, drawn]
    cases answer : store.answerTo (before.callsTo store.name) (sense.request node) with
    | error error =>
      rw [answer] at value
      exact ⟨_, middle, [sense.request node], rfl, .refused .stay value.symm, adds⟩
    | ok answers =>
      rw [answer] at value
      obtain ⟨outcome, after, requests, ran, ends, more⟩ := ih answers middle
      rw [adds.asked] at ends
      exact ⟨outcome, after, sense.request node :: requests, ran, ends.visit value.symm,
        adds.trans more⟩

/-- What a walk from a seed does and leaves, with the requests that it makes and the triples that are
    new to the graph. -/
structure Account (source : Source) (sense : Sense) (seed : Term) (into : Graph)
    (before after : Journal) (outcome : Outcome) (requests : List Request)
    (added : List Triple) : Prop where
  ends : Ends source sense (before.callsTo source.name) ⟨[seed], into⟩ requests outcome
  adds : before.Adds source (requests.map .request) after
  counted : after.callsTo source.name = before.callsTo source.name + requests.length
  grown : outcome.reached.toList = into.toList ++ added
  bounded : requests.length ≤ 1 + 2 * added.length
  exact : sense = .backward → outcome.failure = none → requests.length = 1 + 2 * added.length
  kept : ∀ triple, triple ∈ outcome.reached.toList ↔
    triple ∈ into.toList ∨ source.Returned (before.callsTo source.name) requests triple

/-- Walks over a store whose answers come from a finite list end, whatever the graph holds at the
    start. Every course ends after so many steps, and the walk that runs follows one until nothing is
    pending or the store fails. It asks at most once more than twice for each new triple, and exactly
    so often if it goes backwards and the store does not fail. Failed or not, it leaves what the graph
    held and what the store returned. -/
theorem collect_terminates {store : Store} {held : List Triple} (draws : store.DrawsFrom held)
    (sense : Sense) (seed : Term) (into : Graph) :
    (∀ asked requests finish,
      Course store.toSource sense asked ⟨[seed], into⟩ requests finish →
        requests.length ≤ 1 + 2 * missing held into) ∧
    ∀ before, ∃ outcome after requests added,
      (collect store sense seed into).run before = (outcome, after) ∧
        Account store.toSource sense seed into before after outcome requests added := by
  refine ⟨fun asked requests finish course => course.length_le draws, fun before => ?_⟩
  obtain ⟨outcome, after, requests, ran, ends, adds⟩ := visit_ends store sense ⟨[seed], into⟩ before
  obtain ⟨added, grown, spent, balance⟩ := ends.grows
  refine ⟨outcome, after, requests, added, ran, ends, adds, ?_, grown, ?_, ?_,
    ends.mem_reached_iff⟩
  · rw [adds.asked, Call.requests_of_map]
  · exact Nat.le_trans spent (Nat.add_le_add_left (length_exitsOf_le sense added) 1)
  · rintro rfl fine
    rw [balance fine, length_exitsOf_backward]
    rfl

/-- The store does not care what it is asked and alternates between two links. Backwards there are
    five requests: for the seed, and for both exits of each link. -/
theorem collect_terminates_of_alternating :
    let link := fun subject object : String => Triple.mk (.iri subject) (.iri "link") (.iri object)
    let held := [link "a" "b", link "b" "a"]
    let source : Source :=
      ⟨"memory", fun earlier _ => .ok [if earlier % 2 = 0 then link "a" "b" else link "b" "a"], true⟩
    let into := Graph.ofList [link "c" "a"]
    ∃ draws : source.DrawsFrom held, ∃ outcome after requests added,
      (collect ⟨source, held, draws⟩ .backward (.iri "z") into).run Journal.empty =
          (outcome, after) ∧
        Account source .backward (.iri "z") into Journal.empty after outcome requests added ∧
        outcome.failure = none ∧ added.Perm held ∧ requests.length = 5 := by
  intro link held source into
  have draws : source.DrawsFrom held := by
    rintro earlier request answers ⟨⟩ triple member
    rw [List.mem_singleton] at member
    rw [member]
    split <;> simp [held]
  let store : Store := ⟨source, held, draws⟩
  have store_draws : store.DrawsFrom held := draws
  obtain ⟨_, walks⟩ := collect_terminates store_draws .backward (.iri "z") into
  obtain ⟨outcome, after, requests, added, ran, account⟩ := walks Journal.empty
  have fine : outcome.failure = none := by
    cases account.ends with
    | emptied _ => rfl
    | refused _ failed => cases failed
  have asked : requests.length = 1 + 2 * added.length := account.exact rfl fine
  obtain ⟨once, new⟩ := Graph.apart_of_grown account.grown
  have start : Journal.empty.callsTo "memory" = 0 := Std.HashMap.getD_empty
  have kept := account.kept
  rw [account.grown, start] at kept
  have drawn : ∀ triple ∈ added, triple ∈ held := by
    intro triple member
    have returned := (kept triple).mp (List.mem_append_right _ member)
    exact draws.mem_of_returned (returned.resolve_left (new triple member))
  have collected : ∀ place < requests.length,
      (if place % 2 = 0 then link "a" "b" else link "b" "a") ∈ added := by
    intro place inside
    have returned : source.Returned 0 requests
        (if place % 2 = 0 then link "a" "b" else link "b" "a") :=
      ⟨place, requests[place], List.getElem?_eq_getElem inside, _, rfl,
        List.mem_singleton.mpr (by rw [Nat.zero_add])⟩
    have other : (if place % 2 = 0 then link "a" "b" else link "b" "a") ∉ into.toList := by
      rw [Graph.mem_ofList]
      split <;> decide
    exact (List.mem_append.mp ((kept _).mpr (Or.inr returned))).resolve_left other
  have first : link "a" "b" ∈ added := collected 0 (by omega)
  have some := List.length_pos_of_mem first
  have second : link "b" "a" ∈ added := collected 1 (by omega)
  have all : added.Perm held := by
    rw [List.perm_ext_iff_of_nodup once (by decide)]
    intro triple
    refine ⟨drawn triple, fun listed => ?_⟩
    rcases List.mem_pair.mp listed with rfl | rfl
    · exact first
    · exact second
  refine ⟨draws, outcome, after, requests, added, ran, account, fine, all, ?_⟩
  rw [asked, all.length_eq]
  rfl

end Walk

end TripleJoin
