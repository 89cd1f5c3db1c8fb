import TripleJoin.Proofs.Matcher.Scan
import TripleJoin.Proofs.Query.Surroundings
/-!
Walks into a graph that holds triples already. The graph is the set of visited triples, so what it
held before is not followed: such a walk adds exactly what a walk through the other triples of the
store collects. That is all that can be reached if the former triples lead to former triples only.
-/
namespace TripleJoin

theorem Graph.mem_difference {a b : Graph} {triple : Triple} :
    triple ∈ (a.difference b).toList ↔ triple ∈ a.toList ∧ triple ∉ b.toList := by
  rw [Graph.difference, Graph.mem_ofList, List.mem_filter, Bool.not_eq_true', ← Bool.not_eq_true,
    Graph.contains_iff]

namespace Walk

/-- The state on top of what a graph held before the walk. -/
def State.atop (state : State) (into : Graph) : State :=
  ⟨state.pending, into.union state.reached⟩

section Atop

variable {held left : List Triple} {sense : Sense} {into : Graph} {state next : State}

theorem follow_atop_of_not_mem {triple : Triple} (absent : triple ∉ into.toList) :
    follow sense (state.atop into) triple = (follow sense state triple).atop into := by
  by_cases old : triple ∈ state.reached.toList
  · rw [follow_old old, follow_old (Graph.mem_union.mpr (Or.inr old))]
  · have new : triple ∉ (state.atop into).reached.toList :=
      fun member => (Graph.mem_union.mp member).elim absent old
    rw [follow_new _ _ old, follow_new _ _ new]
    simp only [State.atop, Graph.union_insert]

/-- A former triple is passed over, and any other is followed as if the graph had started empty. -/
theorem foldl_follow_atop (sense : Sense) (into : Graph) (answers : List Triple) (state : State) :
    answers.foldl (follow sense) (state.atop into) =
      ((answers.filter (· ∉ into.toList)).foldl (follow sense) state).atop into := by
  induction answers generalizing state with
  | nil => rfl
  | cons answer answers ih =>
    by_cases former : answer ∈ into.toList
    · rw [List.foldl_cons, follow_old (Graph.mem_union.mpr (Or.inl former)), ih,
        List.filter_cons_of_neg (by simpa using former)]
    · rw [List.foldl_cons, follow_atop_of_not_mem former, ih,
        List.filter_cons_of_pos (by simpa using former), List.foldl_cons]

variable (remains : ∀ triple, triple ∈ left ↔ triple ∈ held ∧ triple ∉ into.toList)
include remains

theorem Move.below (move : Move held sense (state.atop into) next) :
    ∃ lower : State, next = lower.atop into ∧ Move left sense state lower := by
  obtain ⟨pending, reached⟩ := state
  cases move with
  | @visit _ rest arrangement node answers _ taken entered arranged =>
    have passed := foldl_follow_atop sense into answers ⟨rest, reached⟩
    change answers.foldl (follow sense) ⟨rest, into.union reached⟩ = _ at passed
    rw [passed] at arranged ⊢
    refine ⟨⟨arrangement, _⟩, rfl, .visit taken ?_ arranged⟩
    intro triple
    rw [List.mem_filter, entered, remains, decide_eq_true_iff]
    exact and_right_comm

theorem moves_below (moves : Relation.ReflTransGen (Move held sense) (state.atop into) next) :
    ∃ lower : State, next = lower.atop into ∧
      Relation.ReflTransGen (Move left sense) state lower := by
  induction moves with
  | refl => exact ⟨state, rfl, .refl⟩
  | tail _ move ih =>
    obtain ⟨lower, rfl, moves⟩ := ih
    obtain ⟨lowest, rfl, last⟩ := move.below remains
    exact ⟨lowest, rfl, moves.tail last⟩

end Atop

theorem collect_atop {store : Store} {graph : Graph} (steady : store.Answers graph.matching)
    (sense : Sense) (seed : Term) (into : Graph) :
    ∃ added : Graph,
      (∀ journal, ((collect store sense seed into).run journal).1 = ⟨into.union added, none⟩) ∧
      ∀ triple, triple ∈ added.toList ↔
        Reached (graph.difference into).toList sense seed triple := by
  obtain ⟨finish, moves, ends⟩ := visit_moves steady sense ⟨[seed], into⟩
  have start : (⟨[seed], into⟩ : State) = State.atop ⟨[seed], .empty⟩ into := rfl
  rw [start] at moves
  obtain ⟨⟨pending, added⟩, same, below⟩ := moves_below (fun _ => Graph.mem_difference) moves
  obtain ⟨rfl, rfl⟩ := State.mk.inj same
  refine ⟨added, ends, ?_⟩
  intro triple
  rw [(Gathers.start.more [seed] below).mem_iff]
  simp

end Walk

section Chains

variable {held former : List Triple} {first : Triple → Prop} {leads : Triple → Triple → Prop}

theorem EndsChain.mono {more : List Triple} (within : held ⊆ more) {triple : Triple}
    (chain : EndsChain held first leads triple) : EndsChain more first leads triple := by
  obtain ⟨start, stored, may_start, steps⟩ := chain
  exact ⟨start, within stored, may_start,
    Relation.ReflTransGen.mono (fun _ _ step => ⟨within step.1, step.2⟩) _ _ steps⟩

/-- Each former triple leads to former triples only. -/
def Closed (held former : List Triple) (leads : Triple → Triple → Prop) : Prop :=
  ∀ triple ∈ former, ∀ next ∈ held, leads triple next → next ∈ former

theorem Closed.former_or_past (closed : Closed held former leads) {left : List Triple}
    (remains : ∀ triple, triple ∈ left ↔ triple ∈ held ∧ triple ∉ former) {triple : Triple} :
    triple ∈ former ∨ EndsChain left first leads triple ↔
      triple ∈ former ∨ EndsChain held first leads triple := by
  refine ⟨Or.imp_right (EndsChain.mono fun _ member => ((remains _).mp member).1), ?_⟩
  rintro (old | chain)
  · exact Or.inl old
  obtain ⟨start, stored, may_start, steps⟩ := chain
  induction steps with
  | refl =>
    by_cases old : start ∈ former
    · exact Or.inl old
    · exact Or.inr ⟨start, (remains start).mpr ⟨stored, old⟩, may_start, .refl⟩
  | @tail before next _ step ih =>
    by_cases old : next ∈ former
    · exact Or.inl old
    · rcases ih with passed | ⟨start, stored, may_start, steps⟩
      · exact Or.inl (closed before passed next step.1 step.2)
      · exact Or.inr ⟨start, stored, may_start,
          steps.tail ⟨(remains next).mpr ⟨step.1, old⟩, step.2⟩⟩

end Chains

namespace Walk

theorem reached_iff {held : List Triple} {sense : Sense} {seed : Term}
    {leads : Triple → Triple → Prop} (steps : ∀ {a b}, leads a b ↔ sense.entry b ∈ sense.exits a)
    (triple : Triple) : Reached held sense seed triple ↔
      EndsChain held (fun first => sense.entry first = seed) leads triple := by
  have starts : ∀ first, sense.entry first = seed ↔ sense.entry first ∈ [seed] :=
    fun _ => List.mem_singleton.symm
  rw [← exists_reached_iff (fun _ _ => steps) starts]
  simp

/-- What walks from a seed leave of a graph: the triples that it held, and those at the end of a
    chain of triples that it lacked. If what it held leads to nothing else, then whatever can be
    reached is there. -/
structure Resumption (graph : Graph) (seed : Term) (into : Graph) (found : Sense → Graph) :
    Prop where
  forwards : ∀ triple, triple ∈ (found .forward).toList ↔ triple ∈ into.toList ∨
    EndsChain (graph.difference into).toList (fun first => first.subject = seed)
      Triple.LeadsForward triple
  backwards : ∀ triple, triple ∈ (found .backward).toList ↔ triple ∈ into.toList ∨
    EndsChain (graph.difference into).toList (fun first => first.object = seed)
      Triple.LeadsBackward triple
  whole_forwards : Closed graph.toList into.toList Triple.LeadsForward →
    ∀ triple, triple ∈ (found .forward).toList ↔ triple ∈ into.toList ∨
      EndsChain graph.toList (fun first => first.subject = seed) Triple.LeadsForward triple
  whole_backwards : Closed graph.toList into.toList Triple.LeadsBackward →
    ∀ triple, triple ∈ (found .backward).toList ↔ triple ∈ into.toList ∨
      EndsChain graph.toList (fun first => first.object = seed) Triple.LeadsBackward triple

/-- A walk goes on behind the triples that are new to the graph, and behind no former one. -/
theorem collect_resumes (name : String) (graph : Graph) (watched : Bool) (seed : Term)
    (into : Graph) :
    ∃ found, Resumption graph seed into found ∧ ∀ sense journal,
      ((collect (.ofGraph name graph watched) sense seed into).run journal).1 =
        ⟨found sense, none⟩ := by
  have steady : (Store.ofGraph name graph watched).Answers graph.matching := answers_ofGraph _ _ _
  choose added ends exact using fun sense => collect_atop steady sense seed into
  have holds : ∀ sense triple, triple ∈ (into.union (added sense)).toList ↔
      triple ∈ into.toList ∨ Reached (graph.difference into).toList sense seed triple :=
    fun sense triple => Graph.mem_union.trans (or_congr_right (exact sense triple))
  have forwards := fun triple => (holds .forward triple).trans (or_congr_right
    (reached_iff Triple.leadsForward_iff triple))
  have backwards := fun triple => (holds .backward triple).trans (or_congr_right
    (reached_iff Triple.leadsBackward_iff triple))
  refine ⟨fun sense => into.union (added sense), ⟨forwards, backwards, ?_, ?_⟩, ends⟩
  · intro closed triple
    exact (forwards triple).trans (closed.former_or_past fun _ => Graph.mem_difference)
  · intro closed triple
    exact (backwards triple).trans (closed.former_or_past fun _ => Graph.mem_difference)

/-- From `a` to `c` there is a way, but its first link is in the graph already. -/
theorem collect_stops_at_former :
    let link := fun subject object : String => Triple.mk (.iri subject) (.iri "link") (.iri object)
    let graph := Graph.ofList [link "a" "b", link "b" "c"]
    let into := Graph.ofList [link "a" "b"]
    ∃ found : Graph, (∀ journal, ((collect (.ofGraph "memory" graph true) .forward (.iri "a")
        into).run journal).1 = ⟨found, none⟩) ∧
      EndsChain graph.toList (fun first => first.subject = .iri "a") Triple.LeadsForward
        (link "b" "c") ∧ link "b" "c" ∉ found.toList := by
  intro link graph into
  obtain ⟨added, ends, exact⟩ :=
    collect_atop (answers_ofGraph "memory" graph true) .forward (.iri "a") into
  have stays : ∀ triple,
      ¬ Reached (graph.difference into).toList .forward (.iri "a") triple := by
    intro triple way
    induction way with
    | start stored entered =>
      obtain ⟨stored, new⟩ := Graph.mem_difference.mp stored
      simp only [graph, into, Graph.mem_ofList, List.mem_cons, List.not_mem_nil, or_false]
        at stored new
      rcases stored with rfl | rfl
      · exact new rfl
      · revert entered
        decide
    | step _ _ _ ih => exact ih
  refine ⟨into.union added, ends, ⟨link "a" "b", ?_, rfl, .single ⟨?_, ?_⟩⟩, ?_⟩
  · exact Graph.mem_ofList.mpr List.mem_cons_self
  · exact Graph.mem_ofList.mpr (List.mem_cons_of_mem _ List.mem_cons_self)
  · exact ⟨rfl, Or.inr rfl⟩
  · rw [Graph.mem_union, exact]
    rintro (former | way)
    · rw [Graph.mem_ofList] at former
      revert former
      decide
    · exact stays _ way

end Walk

end TripleJoin
