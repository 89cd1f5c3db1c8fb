import Mathlib.Logic.Relation
import TripleJoin.Proofs.Distinct
import TripleJoin.Proofs.Graph.Extension
import TripleJoin.Proofs.Outcome
import TripleJoin.Walk
/-!
What a walk collects. A walk may take its pending nodes in any order, and walks from several seeds
may share one graph or keep graphs of their own: as soon as nothing is pending, the graph holds
exactly the triples that some seed reaches. The walk that runs is one of these.
-/
namespace TripleJoin

namespace Walk

section Follow

variable (sense : Sense) (state : State)

theorem mem_reached_follow {triple other : Triple} :
    other ∈ (follow sense state triple).reached.toList ↔
      other ∈ state.reached.toList ∨ other = triple := by
  rw [follow_reached, Graph.toList_insert]
  exact mem_addNew

theorem follow_new {triple : Triple} (absent : triple ∉ state.reached.toList) :
    follow sense state triple =
      ⟨(sense.exits triple).reverse ++ state.pending, (state.reached.insert triple).2⟩ := by
  have fresh : (state.reached.insert triple).1 = true := by
    rw [Graph.insert_fst, Bool.not_eq_true', ← Bool.not_eq_true, Graph.contains_iff]
    exact absent
  unfold follow
  split
  · rename_i inserted
    rw [inserted]
  · rename_i unchanged
    rw [unchanged] at fresh
    cases fresh

theorem mem_pending_follow {triple : Triple} {node : Term} :
    node ∈ (follow sense state triple).pending ↔ node ∈ state.pending ∨
      triple ∉ state.reached.toList ∧ node ∈ sense.exits triple := by
  by_cases old : triple ∈ state.reached.toList
  · simp [follow_old old, old]
  · simp [follow_new sense state old, old, or_comm]

variable (answers : List Triple)

theorem mem_reached_foldl {triple : Triple} :
    triple ∈ (answers.foldl (follow sense) state).reached.toList ↔
      triple ∈ state.reached.toList ∨ triple ∈ answers := by
  induction answers generalizing state with
  | nil => simp
  | cons answer answers ih => rw [List.foldl_cons, ih, mem_reached_follow, List.mem_cons, or_assoc]

theorem mem_pending_foldl {node : Term} :
    node ∈ (answers.foldl (follow sense) state).pending ↔ node ∈ state.pending ∨
      ∃ triple ∈ answers, triple ∉ state.reached.toList ∧ node ∈ sense.exits triple := by
  induction answers generalizing state with
  | nil => simp
  | cons answer answers ih =>
    rw [List.foldl_cons, ih, mem_pending_follow]
    simp only [mem_reached_follow, not_or, List.mem_cons, exists_eq_or_imp]
    constructor
    · rintro ((old | new) | ⟨triple, member, ⟨absent, _⟩, exit⟩)
      · exact Or.inl old
      · exact Or.inr (Or.inl new)
      · exact Or.inr (Or.inr ⟨triple, member, absent, exit⟩)
    · rintro (old | new | ⟨triple, member, absent, exit⟩)
      · exact Or.inl (Or.inl old)
      · exact Or.inl (Or.inr new)
      · by_cases same : triple = answer
        · exact Or.inl (Or.inr (same ▸ ⟨absent, exit⟩))
        · exact Or.inr ⟨triple, member, ⟨absent, same⟩, exit⟩

end Follow

variable {held : List Triple} {sense : Sense}

/-- One move of a walk that keeps no order: any pending node is taken, the triples entered from it
    come in any order, and the nodes that are pending then are arranged in any way. -/
inductive Move (held : List Triple) (sense : Sense) : State → State → Prop where
  | visit {pending rest next : List Term} {node : Term} {answers : List Triple} {reached : Graph}
      (taken : pending.Perm (node :: rest))
      (entered : ∀ triple, triple ∈ answers ↔ triple ∈ held ∧ sense.entry triple = node)
      (arranged : next.Perm (answers.foldl (follow sense) ⟨rest, reached⟩).pending) :
      Move held sense ⟨pending, reached⟩
        ⟨next, (answers.foldl (follow sense) ⟨rest, reached⟩).reached⟩

/-- A node that a walk from the seeds has come by. -/
def Met (sense : Sense) (seeds : List Term) (reached : Graph) (node : Term) : Prop :=
  node ∈ seeds ∨ ∃ triple ∈ reached.toList, node ∈ sense.exits triple

/-- Every node that was met is pending or has been followed. -/
structure Progress (held : List Triple) (sense : Sense) (seeds : List Term) (state : State) :
    Prop where
  collected : ∀ triple ∈ state.reached.toList, ∃ seed ∈ seeds, Reached held sense seed triple
  pending_met : ∀ node ∈ state.pending, Met sense seeds state.reached node
  followed : ∀ node, Met sense seeds state.reached node → node ∈ state.pending ∨
    ∀ triple ∈ held, sense.entry triple = node → triple ∈ state.reached.toList

variable {seeds : List Term} {state next : State}

theorem progress_start (seeds : List Term) : Progress held sense seeds ⟨seeds, .empty⟩ where
  collected _ member := absurd member List.not_mem_nil
  pending_met _ member := Or.inl member
  followed := by
    rintro node (seed | ⟨triple, member, _⟩)
    · exact Or.inl seed
    · exact absurd member List.not_mem_nil

theorem Progress.reached_of_met (progress : Progress held sense seeds state) {triple : Triple}
    (stored : triple ∈ held) (met : Met sense seeds state.reached (sense.entry triple)) :
    ∃ seed ∈ seeds, Reached held sense seed triple := by
  rcases met with seed | ⟨before, member, exit⟩
  · exact ⟨_, seed, .start stored rfl⟩
  · obtain ⟨seed, listed, reached⟩ := progress.collected before member
    exact ⟨seed, listed, .step reached stored exit⟩

theorem Progress.move (progress : Progress held sense seeds state)
    (move : Move held sense state next) : Progress held sense seeds next := by
  cases move with
  | @visit pending rest next node answers reached taken entered arranged =>
    have grown : ∀ triple, triple ∈ (answers.foldl (follow sense) ⟨rest, reached⟩).reached.toList ↔
        triple ∈ reached.toList ∨ triple ∈ answers :=
      fun _ => mem_reached_foldl sense ⟨rest, reached⟩ answers
    have due : ∀ other, other ∈ next ↔ other ∈ rest ∨
        ∃ triple ∈ answers, triple ∉ reached.toList ∧ other ∈ sense.exits triple :=
      fun _ => arranged.mem_iff.trans (mem_pending_foldl sense ⟨rest, reached⟩ answers)
    have met_before : Met sense seeds reached node :=
      progress.pending_met node (taken.mem_iff.mpr List.mem_cons_self)
    constructor
    · intro triple member
      rcases (grown triple).mp member with old | new
      · exact progress.collected triple old
      · obtain ⟨stored, from_node⟩ := (entered triple).mp new
        exact progress.reached_of_met stored (from_node ▸ met_before)
    · intro other member
      rcases (due other).mp member with old | ⟨triple, new, _, exit⟩
      · rcases progress.pending_met other (taken.mem_iff.mpr (List.mem_cons_of_mem node old)) with
          seed | ⟨triple, collected, exit⟩
        · exact Or.inl seed
        · exact Or.inr ⟨triple, (grown triple).mpr (Or.inl collected), exit⟩
      · exact Or.inr ⟨triple, (grown triple).mpr (Or.inr new), exit⟩
    · intro other met
      have known : Met sense seeds reached other ∨ other ∈ next := by
        rcases met with seed | ⟨triple, member, exit⟩
        · exact Or.inl (Or.inl seed)
        · by_cases old : triple ∈ reached.toList
          · exact Or.inl (Or.inr ⟨triple, old, exit⟩)
          · have new := ((grown triple).mp member).resolve_left old
            exact Or.inr ((due other).mpr (Or.inr ⟨triple, new, old, exit⟩))
      rcases known with met | pending
      · rcases progress.followed other met with waiting | done
        · rcases List.mem_cons.mp (taken.mem_iff.mp waiting) with here | later
          · -- the node that was taken is followed now
            refine Or.inr fun triple stored from_node => (grown triple).mpr (Or.inr ?_)
            exact (entered triple).mpr ⟨stored, from_node.trans here⟩
          · exact Or.inl ((due other).mpr (Or.inl later))
        · exact Or.inr fun triple stored from_node =>
            (grown triple).mpr (Or.inl (done triple stored from_node))
      · exact Or.inl pending

theorem Progress.moves (progress : Progress held sense seeds state)
    (moves : Relation.ReflTransGen (Move held sense) state next) :
    Progress held sense seeds next := by
  induction moves with
  | refl => exact progress
  | tail _ move ih => exact ih.move move

/-- A walk from more seeds may go on with the graph of a finished one. -/
theorem Progress.more {reached : Graph} (progress : Progress held sense seeds ⟨[], reached⟩)
    (more : List Term) : Progress held sense (seeds ++ more) ⟨more, reached⟩ where
  collected := by
    intro triple member
    obtain ⟨seed, listed, reached⟩ := progress.collected triple member
    exact ⟨seed, List.mem_append_left more listed, reached⟩
  pending_met _ member := Or.inl (List.mem_append_right seeds member)
  followed := by
    have done : ∀ node, Met sense seeds reached node → ∀ triple ∈ held,
        sense.entry triple = node → triple ∈ reached.toList :=
      fun node met => (progress.followed node met).resolve_left List.not_mem_nil
    rintro node (seed | exit)
    · rcases List.mem_append.mp seed with old | new
      · exact Or.inr (done node (Or.inl old))
      · exact Or.inl new
    · exact Or.inr (done node (Or.inr exit))

theorem Progress.mem_iff {reached : Graph} (progress : Progress held sense seeds ⟨[], reached⟩)
    (triple : Triple) :
    triple ∈ reached.toList ↔ ∃ seed ∈ seeds, Reached held sense seed triple := by
  have done : ∀ other ∈ held, Met sense seeds reached (sense.entry other) →
      other ∈ reached.toList := fun other stored met =>
    ((progress.followed _ met).resolve_left List.not_mem_nil) other stored rfl
  constructor
  · exact progress.collected triple
  · rintro ⟨seed, listed, way⟩
    induction way with
    | start stored entered => exact done _ stored (Or.inl (entered ▸ listed))
    | step _ stored entered ih => exact done _ stored (Or.inr ⟨_, ih, entered⟩)

/-- The ways to walk from seeds: some more seeds may be walked from, into the graph of the walks
    before, and walks with graphs of their own may be put together. -/
inductive Gathers (held : List Triple) (sense : Sense) : List Term → Graph → Prop where
  | start : Gathers held sense [] .empty
  | more {seeds : List Term} {reached finish : Graph} (before : Gathers held sense seeds reached)
      (more : List Term)
      (moves : Relation.ReflTransGen (Move held sense) ⟨more, reached⟩ ⟨[], finish⟩) :
      Gathers held sense (seeds ++ more) finish
  | apart {seeds others : List Term} {first second : Graph}
      (left : Gathers held sense seeds first) (right : Gathers held sense others second) :
      Gathers held sense (seeds ++ others) (first.union second)

theorem progress_of_mem_iff {reached : Graph}
    (exact : ∀ triple, triple ∈ reached.toList ↔ ∃ seed ∈ seeds, Reached held sense seed triple) :
    Progress held sense seeds ⟨[], reached⟩ where
  collected triple := (exact triple).mp
  pending_met _ member := absurd member List.not_mem_nil
  followed := by
    rintro node (seed | ⟨before, member, exit⟩)
    · exact Or.inr fun triple stored entered =>
        (exact triple).mpr ⟨node, seed, .start stored entered⟩
    · obtain ⟨seed, listed, way⟩ := (exact before).mp member
      exact Or.inr fun triple stored entered =>
        (exact triple).mpr ⟨seed, listed, .step way stored (entered ▸ exit)⟩

/-- Whichever way it is walked, the graph holds what some seed reaches. -/
theorem Gathers.mem_iff {reached : Graph} (gathers : Gathers held sense seeds reached) :
    ∀ triple, triple ∈ reached.toList ↔ ∃ seed ∈ seeds, Reached held sense seed triple := by
  induction gathers with
  | start => exact (progress_start []).mem_iff
  | more before more moves ih => exact (((progress_of_mem_iff ih).more more).moves moves).mem_iff
  | apart left right ih ih' =>
    intro triple
    simp only [Graph.mem_union, ih triple, ih' triple, List.mem_append, or_and_right, exists_or]

section Visit

variable {store : Store} {graph : Graph}

theorem draw_of_answers {source : Source} {answers : Request → List Triple}
    (steady : source.Answers answers) (request : Request) (journal : Journal) :
    (source.draw request).run journal =
      (.ok ⟨answers request, _, request, steady (journal.callsTo source.name) request⟩,
        journal.recordRequest source.name request source.watched) := by
  change (source.answerTo (journal.callsTo source.name) request, _) = _
  congr 1
  unfold Source.answerTo
  split
  · rename_i triples answered
    have same := (steady _ request).symm.trans answered
    cases same
    rfl
  · rename_i error answered
    have same := (steady _ request).symm.trans answered
    cases same

theorem mem_matching_request (graph : Graph) (node : Term) (triple : Triple) :
    triple ∈ graph.matching (sense.request node) ↔
      triple ∈ graph.toList ∧ sense.entry triple = node := by
  rw [Graph.matching_eq_filter, List.mem_filter]
  cases sense <;> simp [Sense.request, Sense.entry, Request.admits, eq_comm]

/-- A walk in a store that answers like a graph ends well, and it makes moves only. -/
theorem visit_moves (steady : store.Answers graph.matching) (sense : Sense) (state : State) :
    ∃ finish, Relation.ReflTransGen (Move graph.toList sense) state ⟨[], finish⟩ ∧
      ∀ journal, ((visit store sense state).run journal).1 = ⟨finish, none⟩ := by
  obtain ⟨pending, reached⟩ := state
  cases pending with
  | nil =>
    refine ⟨reached, .refl, ?_⟩
    intro journal
    rw [visit]
    rfl
  | cons node pending =>
    obtain ⟨finish, moves, ends⟩ := visit_moves steady sense
      ((graph.matching (sense.request node)).foldl (follow sense) ⟨pending, reached⟩)
    refine ⟨finish, .head ?_ moves, ?_⟩
    · exact .visit (.refl _) (mem_matching_request graph node) (.refl _)
    · intro journal
      rw [visit, StateT.run_bind, draw_of_answers steady]
      exact ends _
termination_by (missing graph.toList state.reached, state.pending.length)
decreasing_by
  have drawn : ∀ triple ∈ graph.matching (sense.request node), triple ∈ graph.toList :=
    fun triple => Graph.mem_of_mem_matching
  rcases follow_all sense drawn ⟨pending, reached⟩ with same | less
  · rw [same]
    exact Prod.Lex.right _ (Nat.lt_succ_self _)
  · exact Prod.Lex.left _ _ less

end Visit

end Walk

end TripleJoin
