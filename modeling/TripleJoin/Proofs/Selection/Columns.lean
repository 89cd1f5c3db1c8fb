import TripleJoin.Proofs.Engine.Build
import TripleJoin.Proofs.Matcher.Scan
/-!
The table of everything, plain and ordered by a key. A valid ordering permutes the solutions, and so
it permutes the columns too, which stand in the order in which the solutions first show them. The rows
are the same rows only if the new order of the columns makes no difference to them.
-/
namespace TripleJoin

namespace OrderBy

/-- Columns to order by are named, each with its direction if any has one. -/
def WellFormed : OrderBy → Prop
  | columns keys directions => keys ≠ [] ∧ ∀ given ∈ directions, given.length = keys.length
  | comparator _ => True

/-- The ordering is well-formed, and a sort of these solutions accepts how it compares them. -/
structure Valid (nulls : NullOrdering) (solutions : List Binding) (orderBy : OrderBy) : Prop where
  wellFormed : orderBy.WellFormed
  accepted : ∀ compare, Solution.comparison nulls orderBy = .ok compare →
    Sorting.Accepts compare solutions

section

variable {orderBy : OrderBy} (wellFormed : orderBy.WellFormed)

include wellFormed

theorem WellFormed.exists_keyed : ∃ keys, orderBy.keyed = .ok keys := by
  cases orderBy with
  | comparator compare => exact ⟨_, rfl⟩
  | columns keys directions =>
    obtain ⟨named, paired⟩ := wellFormed
    obtain ⟨first, rest, rfl⟩ := List.exists_cons_of_ne_nil named
    cases directions with
    | none => exact ⟨_, rfl⟩
    | some given => exact ⟨_, if_pos (paired given rfl)⟩

theorem WellFormed.exists_comparison (nulls : NullOrdering) :
    ∃ compare, Solution.comparison nulls orderBy = .ok compare := by
  obtain ⟨keys, keyed⟩ := wellFormed.exists_keyed
  cases orderBy with
  | comparator compare => exact ⟨compare, rfl⟩
  | columns names directions =>
    refine ⟨Solution.compareBy nulls (keys.getD []), ?_⟩
    rw [Solution.comparison, keyed]
    · rfl
    · intro compare absurd
      cases absurd

end

theorem valid_singleton {nulls : NullOrdering} {solutions : List Binding} {key : Variable}
    (accepted : Sorting.Accepts (Solution.compareBy nulls [(key, .ascending)]) solutions) :
    (columns [key] none).Valid nulls solutions where
  wellFormed := ⟨List.cons_ne_nil key [], fun _ absurd => nomatch absurd⟩
  accepted := by
    rintro _ ⟨⟩
    exact accepted

end OrderBy

namespace Solution

variable {nulls : NullOrdering} {solutions : List Binding}

theorem order_of_valid {chosen : OrderBy} (valid : chosen.Valid nulls solutions) :
    ∃ compare, comparison nulls chosen = .ok compare ∧ Sorting.Accepts compare solutions ∧
      order nulls (some chosen) solutions = .ok (Sorting.sort compare solutions) := by
  obtain ⟨compare, compared⟩ := valid.wellFormed.exists_comparison nulls
  refine ⟨compare, compared, valid.accepted compare compared, ?_⟩
  rw [order, compared]
  rfl

/-- There is an order to speak of if the ordering is valid for these solutions. -/
theorem exists_order {orderBy : Option OrderBy}
    (valid : ∀ chosen ∈ orderBy, chosen.Valid nulls solutions) :
    ∃ ordered, order nulls orderBy solutions = .ok ordered := by
  cases orderBy with
  | none => exact ⟨solutions, rfl⟩
  | some chosen =>
    obtain ⟨_, _, _, sorted⟩ := order_of_valid (valid chosen rfl)
    exact ⟨_, sorted⟩

theorem heading_perm {first second : List Binding} (perm : first.Perm second) :
    (heading first).Perm (heading second) :=
  distinct_perm (perm.flatMap_right _)

theorem heading_eq_of_keys {keys : List Variable} {solutions : List Binding}
    (alike : ∀ solution ∈ solutions, solution.keys = keys) (filled : solutions ≠ []) :
    heading solutions = keys := by
  obtain ⟨first, rest, same⟩ := List.exists_cons_of_ne_nil filled
  subst same
  rw [List.forall_mem_cons] at alike
  obtain ⟨head, alike⟩ := alike
  have old : (rest.flatMap Binding.keys).filter (· ∉ keys) = [] := by
    rw [List.filter_eq_nil_iff]
    intro v member
    obtain ⟨solution, listed, member⟩ := List.mem_flatMap.mp member
    simpa [← alike solution listed] using member
  have later := foldl_addNew_append keys [] (rest.flatMap Binding.keys)
  rw [old, List.append_nil] at later
  rw [heading, distinct_eq, List.flatMap_cons, List.foldl_append, head,
    foldl_addNew_of_nodup (head ▸ first.distinct), later]
  exact List.append_nil keys

/-- All solutions on all their columns. -/
def tableOf (solutions : List Binding) : Table :=
  ⟨heading solutions, solutions.map fun solution => solution.project (heading solutions)⟩

def orderedBy (nulls : NullOrdering) (key : Variable) (solutions : List Binding) : List Binding :=
  Sorting.sort (compareBy nulls [(key, .ascending)]) solutions

end Solution

namespace Query

theorem yields_select {query : Query} {options : SelectOptions} {table : Table}
    (arranged : Solution.arrange query.nulls options query.solutions = .ok table) :
    (query.select options).Yields table := by
  unfold select
  simp only [arranged]
  refine ((Run.yields_ofExcept table).adapt _).bind ?_
  exact Run.Yields.after_step fun _ => Run.yields_pure table

variable (query : Query)

theorem yields_plain :
    (query.select { distinct := false }).Yields (Solution.tableOf query.solutions) :=
  yields_select rfl

theorem yields_ordered (key : Variable)
    (valid : (OrderBy.columns [key] none).Valid query.nulls query.solutions) :
    (query.select { distinct := false, orderBy := some (.columns [key] none) }).Yields
      (Solution.tableOf (Solution.orderedBy query.nulls key query.solutions)) := by
  obtain ⟨compare, ⟨⟩, _, sorted⟩ := Solution.order_of_valid valid
  apply yields_select
  rw [Solution.arrange, sorted]
  rfl

/-- Columns only move if two solutions have different keys. -/
theorem heading_orderedBy (key : Variable)
    (alike : ∀ a ∈ query.solutions, ∀ b ∈ query.solutions, a.keys = b.keys) :
    Solution.heading (Solution.orderedBy query.nulls key query.solutions) =
      Solution.heading query.solutions := by
  have sorted := Sorting.sort_perm (Solution.compareBy query.nulls [(key, .ascending)])
    query.solutions
  cases listed : query.solutions with
  | nil => rfl
  | cons first rest =>
    have filled : query.solutions ≠ [] := by simp [listed]
    have all : ∀ solution ∈ query.solutions, solution.keys = first.keys :=
      fun solution member => alike solution member first (by simp [listed])
    rw [← listed, Solution.heading_eq_of_keys all filled]
    apply Solution.heading_eq_of_keys
    · exact fun solution member => all solution (sorted.mem_iff.mp member)
    · intro none
      exact filled (List.nil_perm.mp (none ▸ sorted))

theorem rows_perm_of_keys (key : Variable)
    (alike : ∀ a ∈ query.solutions, ∀ b ∈ query.solutions, a.keys = b.keys) :
    (Solution.tableOf (Solution.orderedBy query.nulls key query.solutions)).rows.Perm
      (Solution.tableOf query.solutions).rows := by
  rw [Solution.tableOf, query.heading_orderedBy key alike]
  exact (Sorting.sort_perm _ query.solutions).map _

/-- A valid ordering by a variable permutes the columns, and it permutes the rows as they read on the
    columns it ends up with. So it only permutes the rows of the plain table exactly if the solutions
    give the same rows on either order of the columns, each as often. That is so, in particular, if
    all solutions have the same keys: then the columns do not move. -/
theorem ordering_permutes_iff (key : Variable)
    (valid : (OrderBy.columns [key] none).Valid query.nulls query.solutions) :
    ∃ plain ordered, (query.select { distinct := false }).Yields plain ∧
      (query.select { distinct := false, orderBy := some (.columns [key] none) }).Yields ordered ∧
      ordered.columns.Perm plain.columns ∧
      ordered.rows.Perm (query.solutions.map fun solution => solution.project ordered.columns) ∧
      (ordered.rows.Perm plain.rows ↔
        (query.solutions.map fun solution => solution.project ordered.columns).Perm
          (query.solutions.map fun solution => solution.project plain.columns)) ∧
      ((∀ a ∈ query.solutions, ∀ b ∈ query.solutions, a.keys = b.keys) →
        ordered.columns = plain.columns ∧ ordered.rows.Perm plain.rows) := by
  have sorted := Sorting.sort_perm (Solution.compareBy query.nulls [(key, .ascending)])
    query.solutions
  have rows := sorted.map fun solution => solution.project
    (Solution.heading (Solution.orderedBy query.nulls key query.solutions))
  refine ⟨_, _, query.yields_plain, query.yields_ordered key valid, Solution.heading_perm sorted,
    rows, ⟨?_, ?_⟩, ?_⟩
  · exact fun same => rows.symm.trans same
  · exact fun same => rows.trans same
  · exact fun alike => ⟨query.heading_orderedBy key alike, query.rows_perm_of_keys key alike⟩

/-- Both solutions have both columns, and the key turns them around. -/
theorem ordering_permutes_of_pairs :
    let triple := fun subject object : String =>
      Triple.mk (.iri subject) (.iri "left") (.iri object)
    let pattern :=
      Pattern.ofStatements [.ofPattern ⟨.free ⟨"x"⟩, .fixed (.iri "left"), .free ⟨"l"⟩⟩]
    ∃ query plain ordered,
      ((Engine.mk (.ofGraph "memory" (.ofList [triple "b" "d", triple "a" "c"]) true) {}).build
        [pattern] [] []).Yields query ∧
      (OrderBy.columns [⟨"l"⟩] none).Valid query.nulls query.solutions ∧
      (query.select { distinct := false }).Yields plain ∧
      (query.select { distinct := false, orderBy := some (.columns [⟨"l"⟩] none) }).Yields
        ordered ∧
      ordered.rows = plain.rows.reverse ∧ ordered.columns = plain.columns ∧
      ordered.rows.Perm plain.rows := by
  intro triple pattern
  have decides : ∀ answers, pattern.Decides answers :=
    fun answers => Pattern.decides_of_plain answers (List.forall_mem_singleton.mpr rfl) rfl
  let engine : Engine := ⟨.ofGraph "memory" (.ofList [triple "b" "d", triple "a" "c"]) true, {}⟩
  have steady : engine.store.Answers _ := answers_ofGraph _ _ _
  have built := Engine.yields_build steady rfl (Engine.checkScope_nil pattern) (decides _)
    (List.forall_mem_nil _) []
  generalize made : Query.tree _ _ _ = query at built
  have solutions : query.solutions = [("b", "d"), ("a", "c")].map fun nodes =>
      Binding.withValues [⟨"x"⟩, ⟨"l"⟩] [(⟨"x"⟩, .iri nodes.1), (⟨"l"⟩, .iri nodes.2)] := by
    rw [← made]
    simp only [Query.solutions, Engine.branchRoot, funext (Graph.matching_eq_filter _),
      Graph.toList_ofList]
    decide
  have valid : (OrderBy.columns [⟨"l"⟩] none).Valid query.nulls query.solutions := by
    refine OrderBy.valid_singleton (.inl ?_)
    rw [solutions]
    decide
  have alike : ∀ a ∈ query.solutions, ∀ b ∈ query.solutions, a.keys = b.keys := by
    rw [solutions]
    decide
  obtain ⟨plain, ordered, shown, sorted, _, _, _, permutes⟩ :=
    query.ordering_permutes_iff ⟨"l"⟩ valid
  obtain ⟨columns, rows⟩ := permutes alike
  refine ⟨query, plain, ordered, built, valid, shown, sorted, ?_, columns, rows⟩
  rw [sorted.unique (query.yields_ordered _ valid), shown.unique query.yields_plain, ← made]
  simp only [Query.solutions, Query.nulls, Engine.branchRoot, funext (Graph.matching_eq_filter _),
    Graph.toList_ofList, Solution.tableOf, Solution.heading, distinct_eq]
  decide

/-- Two solutions match one clause each, and the key puts them in the other order. -/
theorem ordering_changes_rows :
    let triple := fun subject predicate object : String =>
      Triple.mk (.iri subject) (.iri predicate) (.iri object)
    let asks := fun (predicate : String) (object : Slot) =>
      Pattern.ofStatements [.ofPattern ⟨.free ⟨"x"⟩, .fixed (.iri predicate), object⟩]
    ∃ query plain ordered,
      ((Engine.mk (.ofGraph "memory" (.ofList [triple "a" "kind" "item", triple "b" "kind" "item",
          triple "a" "right" "c", triple "b" "left" "d"]) true) {}).build
        [asks "kind" (.fixed (.iri "item"))]
        [asks "left" (.free ⟨"l"⟩), asks "right" (.free ⟨"r"⟩)] []).Yields query ∧
      (query.select { distinct := false }).Yields plain ∧
      (query.select { distinct := false, orderBy := some (.columns [⟨"l"⟩] none) }).Yields
        ordered ∧
      ¬ ordered.rows.Perm plain.rows := by
  intro triple asks
  have decides : ∀ predicate object answers, (asks predicate object).Decides answers :=
    fun _ _ answers => Pattern.decides_of_plain answers (List.forall_mem_singleton.mpr rfl) rfl
  refine ⟨_, _, _, Engine.yields_build (answers_ofGraph _ _ _) rfl rfl (decides _ _ _) ?_ [],
    yields_plain _, yields_ordered _ _ (OrderBy.valid_singleton (.inl ?_)), ?_⟩
  · exact List.forall_mem_cons.mpr ⟨decides _ _ _, List.forall_mem_singleton.mpr (decides _ _ _)⟩
  · simp only [Query.solutions, Engine.branchRoot, funext (Graph.matching_eq_filter _),
      Graph.toList_ofList]
    decide
  · -- without the hash tables of the graph and of the heading everything here computes
    simp only [Query.solutions, Engine.branchRoot, funext (Graph.matching_eq_filter _),
      Graph.toList_ofList, Solution.tableOf, Solution.heading, distinct_eq]
    decide

end Query

/-- The solutions of one pattern without optional clauses all have the same keys, so ordering them
    only permutes the rows. -/
theorem Engine.branch_ordering_permutes {engine : Engine} {answers : Request → List Triple}
    (steady : engine.store.Answers answers) {pattern : Pattern} (stated : pattern.isEmpty = false)
    (decides : pattern.Decides answers) (initial : List (Variable × Term)) (key : Variable) :
    ∃ query, (engine.build [pattern] [] initial).Yields query ∧
      (Solution.tableOf (Solution.orderedBy query.nulls key query.solutions)).rows.Perm
        (Solution.tableOf query.solutions).rows := by
  refine ⟨_, yields_build steady stated (checkScope_nil pattern) decides (List.forall_mem_nil _)
    initial, Query.rows_perm_of_keys _ key ?_⟩
  intro a first b second
  change a ∈ Tree.rowsOf (engine.branchRoot answers [] initial pattern) at first
  change b ∈ Tree.rowsOf (engine.branchRoot answers [] initial pattern) at second
  rw [rowsOf_branchRoot_nil] at first second
  rw [Matcher.keys_of_mem_rows _ _ first, Matcher.keys_of_mem_rows _ _ second]

end TripleJoin
