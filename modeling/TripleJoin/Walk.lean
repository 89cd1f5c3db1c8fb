import TripleJoin.Store
/-!
Walks from a seed along the triples of a store, forwards from the subject to the predicate and the
object, or backwards from the object to the subject and the predicate. A walk collects triples into
a graph and follows a triple only when it is new there, so the graph serves as the set of visited
triples too. It ends since the triples of a store are finitely many.
-/
namespace TripleJoin

namespace Walk

inductive Sense where
  | forward
  | backward
  deriving DecidableEq

namespace Sense

/-- The node from which a triple is entered. -/
def entry : Sense → Triple → Term
  | forward, triple => triple.subject
  | backward, triple => triple.object

/-- The nodes to which a triple leads. Forwards a literal leads nowhere. -/
def exits : Sense → Triple → List Term
  | forward, triple => [triple.predicate, triple.object].filter Term.isSubject
  | backward, triple => [triple.subject, triple.predicate]

/-- Asks for the triples that are entered from a node. -/
def request (node : Term) : Sense → Request
  | forward => ⟨some node, none, none⟩
  | backward => ⟨none, none, some node⟩

end Sense

/-- The triples that a walk from the seed comes by. -/
inductive Reached (held : List Triple) (sense : Sense) (seed : Term) : Triple → Prop where
  | start {triple : Triple} (stored : triple ∈ held) (entered : sense.entry triple = seed) :
      Reached held sense seed triple
  | step {triple next : Triple} (before : Reached held sense seed triple) (stored : next ∈ held)
      (entered : sense.entry next ∈ sense.exits triple) : Reached held sense seed next

/-- The nodes still to visit, the next one first, and the triples collected so far. -/
structure State where
  pending : List Term
  reached : Graph

/-- Collects a triple. The exits of a new one are visited before all others, the last one first. -/
def follow (sense : Sense) (state : State) (triple : Triple) : State :=
  match state.reached.insert triple with
  | (true, reached) => ⟨(sense.exits triple).reverse ++ state.pending, reached⟩
  | (false, reached) => ⟨state.pending, reached⟩

/-- What a walk leaves: the graph, grown also if the store failed on the way. -/
structure Outcome where
  reached : Graph
  failure : Option StoreError

/-- How many of the triples the graph lacks. -/
def missing (held : List Triple) (graph : Graph) : Nat :=
  held.countP fun triple => !graph.contains triple

theorem countP_lt {α : Type} {p q : α → Bool} {x : α} {xs : List α} (weaker : ∀ y, q y → p y)
    (member : x ∈ xs) (yes : p x) (no : ¬ q x) : xs.countP q < xs.countP p := by
  induction xs with
  | nil => cases member
  | cons y ys ih =>
    simp only [List.countP_cons]
    have tail : ys.countP q ≤ ys.countP p := List.countP_mono_left fun z _ => weaker z
    rcases List.mem_cons.mp member with same | later
    · subst same
      simp only [yes, no, ↓reduceIte, Bool.false_eq_true]
      omega
    · have strict := ih later
      by_cases old : q y
      · rw [if_pos old, if_pos (weaker y old)]
        exact Nat.succ_lt_succ strict
      · rw [if_neg old]
        exact Nat.lt_of_lt_of_le strict (Nat.le_add_right _ _)

theorem missing_insert {held : List Triple} {graph : Graph} {triple : Triple}
    (stored : triple ∈ held) (absent : triple ∉ graph.toList) :
    missing held (graph.insert triple).2 < missing held graph := by
  apply countP_lt (x := triple)
  · intro other
    simp only [Bool.not_eq_true', ← Bool.not_eq_true, Graph.contains_iff, Graph.toList_insert,
      if_neg absent]
    intro out inside
    exact out (List.mem_append_left _ inside)
  · exact stored
  · rw [Bool.not_eq_true', ← Bool.not_eq_true, Graph.contains_iff]
    exact absent
  · have inside : triple ∈ (graph.insert triple).2.toList := by
      rw [Graph.toList_insert, if_neg absent]
      exact List.mem_append_right _ List.mem_cons_self
    rw [Graph.contains_iff.mpr inside]
    exact Bool.false_ne_true

theorem follow_old {sense : Sense} {state : State} {triple : Triple}
    (held : triple ∈ state.reached.toList) : follow sense state triple = state := by
  have known : state.reached.insert triple = (false, state.reached) := by
    rw [Graph.insert, dif_pos (Graph.contains_iff.mpr held)]
  rw [follow, known]

theorem follow_reached (sense : Sense) (state : State) (triple : Triple) :
    (follow sense state triple).reached = (state.reached.insert triple).2 := by
  unfold follow
  split <;> simp_all

/-- Collecting an answer leaves the state as it is or leaves fewer triples to collect. -/
theorem follow_all (sense : Sense) {held answers : List Triple}
    (drawn : ∀ triple ∈ answers, triple ∈ held) (state : State) :
    answers.foldl (follow sense) state = state ∨
      missing held (answers.foldl (follow sense) state).reached < missing held state.reached := by
  induction answers generalizing state with
  | nil => exact Or.inl rfl
  | cons triple answers ih =>
    have later := ih (fun other member => drawn other (List.mem_cons_of_mem _ member))
      (follow sense state triple)
    simp only [List.foldl_cons]
    by_cases old : triple ∈ state.reached.toList
    · rw [follow_old old] at later ⊢
      exact later
    · have fewer := missing_insert (drawn triple List.mem_cons_self) old
      rw [← follow_reached sense] at fewer
      rcases later with same | less
      · exact Or.inr (by rw [same]; exact fewer)
      · exact Or.inr (Nat.lt_trans less fewer)

def visit (store : Store) (sense : Sense) (state : State) : Logged Outcome := do
  match state with
  | ⟨[], reached⟩ => return ⟨reached, none⟩
  | ⟨node :: pending, reached⟩ =>
    match ← store.draw (sense.request node) with
    | .error error => return ⟨reached, some error⟩
    | .ok answers => visit store sense (answers.val.foldl (follow sense) ⟨pending, reached⟩)
termination_by (missing store.finite.choose state.reached, state.pending.length)
decreasing_by
  have drawn : ∀ triple ∈ answers.val, triple ∈ store.finite.choose := by
    obtain ⟨triples, earlier, request, answered⟩ := answers
    exact store.finite.choose_spec earlier request triples answered
  rcases follow_all sense drawn ⟨pending, reached⟩ with same | less
  · rw [same]
    exact Prod.Lex.right _ (Nat.lt_succ_self _)
  · exact Prod.Lex.left _ _ less

/-- Walks from a seed and collects into a graph. -/
def collect (store : Store) (sense : Sense) (seed : Term) (into : Graph) : Logged Outcome :=
  visit store sense ⟨[seed], into⟩

end Walk

end TripleJoin
