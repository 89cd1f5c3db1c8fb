import TripleJoin.Proofs.Selection.Columns
import TripleJoin.Proofs.Walk.Reachability
import TripleJoin.Query.Cluster
/-!
The surroundings of selected values. The walks of a query, in all its branches, collect exactly the
triples at the end of some chain from a selected value that can be a subject.
-/
namespace TripleJoin

theorem Row.mem_values_ofList {terms : List (Option Term)} {term : Term} :
    term ∈ (Row.ofList terms).values ↔ some term ∈ terms := by
  match terms with
  | [] => simp [ofList, values]
  | [single] => simp [ofList, values, eq_comm]
  | first :: second :: rest => simp [ofList, values]

def Selection.Shows : Selection → Variable → Prop
  | .all, _ => True
  | .columns shown, v => v ∈ shown

namespace Query

/-- Some solution has the term for a variable that the selection shows. -/
def Selects (query : Query) (selection : Selection) (term : Term) : Prop :=
  ∃ solution ∈ query.solutions, ∃ v, selection.Shows v ∧ solution.get? v = some term

theorem selects_union {first second : Query} {selection : Selection} {term : Term} :
    (union first second).Selects selection term ↔
      first.Selects selection term ∨ second.Selects selection term := by
  simp only [Selects, solutions, List.mem_append, or_and_right, exists_or]

theorem yields_selected (query : Query) (selection : Selection) :
    ∃ table, (query.select { selection := selection }).Yields table ∧
      ∀ term, term ∈ table.values ↔ query.Selects selection term := by
  refine ⟨_, yields_select rfl, ?_⟩
  intro term
  simp only [Table.values, List.drop_zero, ↓reduceIte, List.mem_flatMap, mem_distinct,
    List.mem_map, Binding.project]
  constructor
  · rintro ⟨row, ⟨solution, member, rfl⟩, shown⟩
    obtain ⟨v, column, value⟩ := List.mem_map.mp (Row.mem_values_ofList.mp shown)
    refine ⟨solution, member, v, ?_, value⟩
    cases selection with
    | all => trivial
    | columns shown => exact column
  · rintro ⟨solution, member, v, shown, value⟩
    refine ⟨_, ⟨solution, member, rfl⟩, Row.mem_values_ofList.mpr (List.mem_map.mpr ⟨v, ?_, value⟩)⟩
    cases selection with
    | all =>
      rw [Solution.heading, mem_distinct, List.mem_flatMap]
      refine ⟨solution, member, ?_⟩
      by_contra absent
      rw [Binding.get?_eq_none_of_not_mem absent] at value
      cases value
    | columns shown => exact shown

/-- Every branch keeps a store that answers like the graph. -/
def Over (graph : Graph) : Query → Prop
  | tree _ store _ => store.Answers graph.matching
  | union first second => first.Over graph ∧ second.Over graph

theorem collectFrom_gathers {store : Store} {graph : Graph} (steady : store.Answers graph.matching)
    (sense : Walk.Sense) (seeds : List Term) {done : List Term} {reached : Graph}
    (before : Walk.Gathers graph.toList sense done reached) :
    ∃ finish, Walk.Gathers graph.toList sense (done ++ seeds) finish ∧
      (collectFrom store sense reached seeds).Yields finish := by
  induction seeds generalizing done reached with
  | nil => exact ⟨reached, by rwa [List.append_nil], Run.yields_pure reached⟩
  | cons seed seeds ih =>
    obtain ⟨next, moves, ends⟩ := Walk.visit_moves steady sense ⟨[seed], reached⟩
    obtain ⟨finish, gathers, yields⟩ := ih (before.more [seed] moves)
    refine ⟨finish, ?_, Run.Yields.after_known ends yields⟩
    rwa [List.append_assoc] at gathers

/-- The walks of all branches together are one way to walk from the selected values. -/
theorem walk_gathers {graph : Graph} {query : Query} (answered : query.Over graph)
    (sense : Walk.Sense) (selection : Selection) :
    ∃ seeds reached, Walk.Gathers graph.toList sense seeds reached ∧
      (query.walk sense selection).Yields reached ∧
      ∀ term, term ∈ seeds ↔ term.isSubject = true ∧ query.Selects selection term := by
  induction query with
  | tree root store nulls =>
    obtain ⟨table, selected, values⟩ := yields_selected (tree root store nulls) selection
    obtain ⟨reached, gathers, yields⟩ := collectFrom_gathers answered sense
      (table.values.filter Term.isSubject) .start
    refine ⟨_, reached, gathers, ?_, ?_⟩
    · refine selected.bind (yields.bind ?_)
      exact Run.Yields.after_step fun _ => Run.yields_pure reached
    · intro term
      rw [List.nil_append, List.mem_filter, values, and_comm]
  | union first second ih ih' =>
    obtain ⟨seeds, reached, gathers, yields, from_first⟩ := ih answered.1
    obtain ⟨others, more, gathers', yields', from_second⟩ := ih' answered.2
    refine ⟨_, _, gathers.apart gathers', yields.bind (yields'.bind (Run.yields_pure _)), ?_⟩
    intro term
    rw [List.mem_append, from_first, from_second, selects_union, and_or_left]

end Query

namespace Triple

/-- Forwards a triple leads to those whose subject is its predicate or its object. -/
def LeadsForward (a b : Triple) : Prop :=
  b.subject.isSubject = true ∧ (b.subject = a.predicate ∨ b.subject = a.object)

/-- Backwards a triple leads to those whose object is its subject or its predicate. -/
def LeadsBackward (a b : Triple) : Prop :=
  b.object = a.subject ∨ b.object = a.predicate

theorem leadsForward_iff {a b : Triple} :
    a.LeadsForward b ↔ Walk.Sense.forward.entry b ∈ Walk.Sense.forward.exits a := by
  simp only [LeadsForward, Walk.Sense.entry, Walk.Sense.exits, List.mem_filter, List.mem_cons,
    List.not_mem_nil, or_false]
  exact and_comm

theorem leadsBackward_iff {a b : Triple} :
    a.LeadsBackward b ↔ Walk.Sense.backward.entry b ∈ Walk.Sense.backward.exits a := by
  simp [LeadsBackward, Walk.Sense.entry, Walk.Sense.exits]

end Triple

/-- A chain of stored triples from one that may come first to this one, each led to by the one
    before. -/
def EndsChain (held : List Triple) (first : Triple → Prop) (leads : Triple → Triple → Prop)
    (triple : Triple) : Prop :=
  ∃ start ∈ held, first start ∧
    Relation.ReflTransGen (fun a b => b ∈ held ∧ leads a b) start triple

theorem Walk.exists_reached_iff {held : List Triple} {sense : Sense} {seeds : List Term}
    {leads : Triple → Triple → Prop} (steps : ∀ a b, leads a b ↔ sense.entry b ∈ sense.exits a)
    {first : Triple → Prop} (starts : ∀ triple, first triple ↔ sense.entry triple ∈ seeds)
    (triple : Triple) :
    (∃ seed ∈ seeds, Reached held sense seed triple) ↔ EndsChain held first leads triple := by
  constructor
  · rintro ⟨seed, listed, way⟩
    induction way with
    | @start triple stored entered =>
      exact ⟨triple, stored, (starts triple).mpr (entered ▸ listed), .refl⟩
    | step _ stored entered ih =>
      obtain ⟨start, from_start, may_start, chain⟩ := ih
      exact ⟨start, from_start, may_start, chain.tail ⟨stored, (steps _ _).mpr entered⟩⟩
  · rintro ⟨start, stored, may_start, chain⟩
    refine ⟨_, (starts start).mp may_start, ?_⟩
    induction chain with
    | refl => exact .start stored rfl
    | tail _ step ih => exact .step ih step.1 ((steps _ _).mp step.2)

namespace Query

/-- What the walks of a query over a graph leave, told by chains from the selected values. The
    triples do not depend on how it is walked: in which order the seeds are taken, in which order
    the pending nodes, and which walks share a graph. -/
structure Surroundings (graph : Graph) (query : Query) (selection : Selection) (table : Table)
    (found : Walk.Sense → Graph) (both : Graph) : Prop where
  selected : (query.select { selection := selection }).Yields table
  walks : ∀ sense, (query.walk sense selection).Yields (found sense)
  clusters : (query.cluster selection).Yields both
  describes : (query.describe selection true true).Yields both ∧
    (query.describe selection true false).Yields (found .forward) ∧
    (query.describe selection false true).Yields (found .backward) ∧
    (query.describe selection false false).Yields .empty
  once : (∀ sense, (found sense).toList.Nodup) ∧ both.toList.Nodup
  forwards : ∀ triple, triple ∈ (found .forward).toList ↔ EndsChain graph.toList
    (fun first => first.subject.isSubject = true ∧ first.subject ∈ table.values)
      Triple.LeadsForward triple
  backwards : ∀ triple, triple ∈ (found .backward).toList ↔ EndsChain graph.toList
    (fun first => first.object.isSubject = true ∧ first.object ∈ table.values)
      Triple.LeadsBackward triple
  unites : ∀ triple, triple ∈ both.toList ↔
    triple ∈ (found .forward).toList ∨ triple ∈ (found .backward).toList
  any_way : ∀ sense seeds reached, Walk.Gathers graph.toList sense seeds reached →
    (∀ node, node ∈ seeds ↔ node.isSubject = true ∧ node ∈ table.values) →
      ∀ triple, triple ∈ reached.toList ↔ triple ∈ (found sense).toList

/-- Over one graph, walking, clustering and describing compute reachability. -/
theorem surroundings_reachable {graph : Graph} {query : Query} (answered : query.Over graph)
    (selection : Selection) :
    ∃ table found both, Surroundings graph query selection table found both := by
  obtain ⟨table, selected, values⟩ := query.yields_selected selection
  choose seeds found gathers walks selects using fun sense => walk_gathers answered sense selection
  have listed : ∀ sense node, node ∈ seeds sense ↔ node.isSubject = true ∧ node ∈ table.values := by
    intro sense node
    rw [selects, values]
  have clusters : (query.cluster selection).Yields ((found .backward).union (found .forward)) :=
    (walks .backward).bind ((walks .forward).bind (Run.yields_pure _))
  refine ⟨table, found, _, selected, walks, clusters,
    ⟨clusters, walks .forward, walks .backward, Run.yields_pure _⟩,
    ⟨fun sense => (found sense).toList_nodup, Graph.toList_nodup _⟩, ?_, ?_, ?_, ?_⟩
  · intro triple
    rw [(gathers .forward).mem_iff]
    exact Walk.exists_reached_iff (fun _ _ => Triple.leadsForward_iff)
      (fun first => (listed .forward first.subject).symm) triple
  · intro triple
    rw [(gathers .backward).mem_iff]
    exact Walk.exists_reached_iff (fun _ _ => Triple.leadsBackward_iff)
      (fun first => (listed .backward first.object).symm) triple
  · intro triple
    rw [Graph.mem_union, or_comm]
  · intro sense others reached ways same triple
    rw [ways.mem_iff, (gathers sense).mem_iff]
    simp only [same, listed]

/-- A union over a graph with a cycle: one branch selects a node of the cycle, one a literal, and
    one clashed. -/
theorem surroundings_of_cycle :
    let link := fun subject object : String => Triple.mk (.iri subject) (.iri "link") (.iri object)
    let graph := Graph.ofList [link "a" "b", link "b" "a", link "b" "c", link "d" "a"]
    let branch := fun value : Term => tree (some (.leaf
      ⟨[(⟨"x"⟩, some value)], by simp⟩ none [])) (.ofGraph "memory" graph true) .last
    let query := union (branch (.iri "a"))
      (union (branch (.plain "b")) (tree none (.ofGraph "spare" graph false) .first))
    query.Over graph ∧ ∃ table found both,
      Surroundings graph query (.columns [⟨"x"⟩]) table found both := by
  intro link graph branch query
  have answered : query.Over graph := ⟨fun _ _ => rfl, fun _ _ => rfl, fun _ _ => rfl⟩
  exact ⟨answered, surroundings_reachable answered _⟩

end Query

end TripleJoin
