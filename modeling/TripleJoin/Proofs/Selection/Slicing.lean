import TripleJoin.Proofs.Join.Inner
import TripleJoin.Proofs.Selection.Columns
/-!
What the flags of a selection change in its table. With `distinct` each row stays where it stands
first, and an offset with a limit cuts a stretch out of the rows that are left then. Neither touches
the columns.
-/
namespace TripleJoin

/-- The first occurrences are the elements that do not stand before their own place. -/
theorem distinct_eq_filter_zipIdx {α : Type} [DecidableEq α] [Hashable α] (xs : List α) :
    distinct xs = (xs.zipIdx.filter fun entry => entry.1 ∉ xs.take entry.2).map Prod.fst := by
  rw [distinct_eq]
  induction xs using List.reverseRecOn with
  | nil => rfl
  | append_singleton xs x ih =>
    have earlier : xs.zipIdx.filter (fun entry => entry.1 ∉ (xs ++ [x]).take entry.2) =
        xs.zipIdx.filter fun entry => entry.1 ∉ xs.take entry.2 := by
      apply List.filter_congr
      intro entry member
      have within : entry.2 ≤ xs.length := Nat.le_of_lt (List.snd_lt_of_mem_zipIdx member)
      rw [List.take_append_of_le_length within]
    have last : (xs ++ [x]).take xs.length = xs := List.take_left
    rw [List.foldl_append, List.zipIdx_append, List.filter_append, List.map_append, earlier, ← ih,
      List.foldl_cons, List.foldl_nil, addNew]
    by_cases known : x ∈ xs
    · have listed : x ∈ xs.foldl addNew [] := mem_foldl_addNew.mpr (Or.inr known)
      simp [last, known, listed]
    · have fresh : x ∉ xs.foldl addNew [] := by simpa using known
      simp [last, known, fresh]

/-- The columns that a selection shows of ordered solutions. -/
def Selection.headingOf (selection : Selection) (ordered : List Binding) : List Variable :=
  match selection with
  | .all => Solution.heading ordered
  | .columns shown => shown

namespace SelectOptions

variable (options : SelectOptions) (ordered : List Binding)

/-- The rows before a slice is cut out. -/
def rowsOf : List Row :=
  let rows := ordered.map fun solution => solution.project (options.selection.headingOf ordered)
  if options.distinct then TripleJoin.distinct rows else rows

def cut (rows : List Row) : List Row :=
  match options.limit with
  | none => rows.drop options.offset
  | some limit => (rows.drop options.offset).take limit

theorem getElem?_cut (rows : List Row) (i : Nat) : (options.cut rows)[i]? =
    if options.limit.all (i < ·) then rows[options.offset + i]? else none := by
  unfold cut
  cases options.limit with
  | none => simp [List.getElem?_drop]
  | some limit => simp [List.getElem?_take, List.getElem?_drop]

end SelectOptions

theorem Query.yields_select_of_order {query : Query} {options : SelectOptions}
    {ordered : List Binding}
    (sorted : Solution.order query.nulls options.orderBy query.solutions = .ok ordered) :
    (query.select options).Yields
      ⟨options.selection.headingOf ordered, options.cut (options.rowsOf ordered)⟩ := by
  apply yields_select
  rw [Solution.arrange, sorted]
  rfl

namespace Table

/-- The rows of the second table are those of the first without later repetitions. -/
structure Dedupes (plain single : Table) : Prop where
  columns : single.columns = plain.columns
  firsts : single.rows =
    (plain.rows.zipIdx.filter fun entry => entry.1 ∉ plain.rows.take entry.2).map Prod.fst
  once : single.rows.Nodup
  same : ∀ row, row ∈ single.rows ↔ row ∈ plain.rows

/-- The rows of the second table are those that the first has from the offset on, as many as the
    limit allows. -/
structure Slices (full part : Table) (offset : Nat) (limit : Option Nat) : Prop where
  columns : part.columns = full.columns
  rows : ∀ i, part.rows[i]? = if limit.all (i < ·) then full.rows[offset + i]? else none

end Table

namespace Query

/-- Repetitions are dropped first and the slice is cut out afterwards, whatever is shown and in
    whichever valid order. -/
theorem select_dedupes_and_slices (query : Query) (selection : Selection)
    {orderBy : Option OrderBy}
    (valid : ∀ chosen ∈ orderBy, chosen.Valid query.nulls query.solutions) :
    ∃ table : Bool → Table,
      (∀ distinct, (query.select
        { selection := selection, distinct := distinct, orderBy := orderBy }).Yields
          (table distinct)) ∧
      (table false).Dedupes (table true) ∧
      ∀ distinct offset limit, ∃ part, (query.select
        { selection := selection
          distinct := distinct
          limit := limit
          offset := offset
          orderBy := orderBy }).Yields part ∧
        (table distinct).Slices part offset limit := by
  obtain ⟨ordered, sorted⟩ := Solution.exists_order valid
  let options := fun distinct : Bool =>
    { selection := selection, distinct := distinct, orderBy := orderBy : SelectOptions }
  refine ⟨fun distinct => ⟨selection.headingOf ordered, (options distinct).rowsOf ordered⟩,
    fun distinct => yields_select_of_order sorted, ⟨rfl, ?_, ?_, ?_⟩, ?_⟩
  · exact distinct_eq_filter_zipIdx _
  · exact nodup_distinct _
  · exact fun row => mem_distinct
  · intro distinct offset limit
    exact ⟨_, yields_select_of_order sorted, rfl, SelectOptions.getElem?_cut _ _⟩

/-- Three links, two of them from one node, ordered by a column that is not shown. -/
theorem select_dedupes_and_slices_of_links :
    let link := Sample.link
    let graph := Graph.ofList [link "a" "b", link "a" "c", link "d" "b"]
    let engine : Engine := ⟨.ofGraph "memory" graph true, {}⟩
    let orderBy : OrderBy := .columns [⟨"y"⟩] (some [.descending])
    let options := fun (distinct : Bool) (offset : Nat) (limit : Option Nat) =>
      { selection := .columns [⟨"x"⟩]
        distinct := distinct
        limit := limit
        offset := offset
        orderBy := some orderBy : SelectOptions }
    let rows := List.map fun node : String => Row.value (some (.iri node))
    ∃ (query : Query) (table : Bool → Table) (part : Table),
      (engine.build [Pattern.ofStatements [Sample.linked "x" "y"]] [] []).Yields query ∧
      orderBy.Valid query.nulls query.solutions ∧
      (∀ distinct, (query.select (options distinct 0 none)).Yields (table distinct)) ∧
      (table false).Dedupes (table true) ∧
      (query.select (options true 1 (some 5))).Yields part ∧
      (table true).Slices part 1 (some 5) ∧
      (table false).rows = rows ["a", "a", "d"] ∧ (table true).rows = rows ["a", "d"] ∧
      part.rows[0]? = some (.value (some (.iri "d"))) ∧ part.rows[1]? = none := by
  intro link graph engine orderBy options rows
  have steady : engine.store.Answers graph.matching := answers_ofGraph _ _ _
  have plainly : (Pattern.ofStatements [Sample.linked "x" "y"]).Decides graph.matching :=
    Pattern.decides_of_plain _ (by decide) rfl
  have built := Engine.yields_build steady rfl (Engine.checkScope_nil _) plainly
    (List.forall_mem_nil _) []
  generalize made : Query.tree _ _ _ = query at built
  have solutions : query.solutions = [("a", "b"), ("a", "c"), ("d", "b")].map fun nodes =>
      Binding.withValues [⟨"x"⟩, ⟨"y"⟩] [(⟨"x"⟩, .iri nodes.1), (⟨"y"⟩, .iri nodes.2)] := by
    rw [← made]
    simp only [Query.solutions, Engine.branchRoot, funext (Graph.matching_eq_filter _), graph,
      Graph.toList_ofList]
    decide
  have few : query.solutions.length ≤ Sorting.insertionLimit := by
    rw [solutions]
    decide
  have valid : orderBy.Valid query.nulls query.solutions :=
    ⟨⟨List.cons_ne_nil _ _, by rintro _ ⟨⟩; rfl⟩, fun _ _ => .inl few⟩
  have chosen : ∀ chosen ∈ some orderBy, chosen.Valid query.nulls query.solutions := by
    rintro _ ⟨⟩
    exact valid
  obtain ⟨table, yields, dedupes, slices⟩ :=
    query.select_dedupes_and_slices (.columns [⟨"x"⟩]) chosen
  obtain ⟨part, sliced, slice⟩ := slices true 1 (some 5)
  have nulls : query.nulls = .last := by
    rw [← made]
    rfl
  have plain : (table false).rows = rows ["a", "a", "d"] := by
    rw [(yields false).unique (yields_select rfl), solutions, nulls]
    decide
  have single : (table true).rows = rows ["a", "d"] := by
    rw [dedupes.firsts, plain]
    decide
  refine ⟨query, table, part, built, valid, yields, dedupes, sliced, slice, plain, single, ?_, ?_⟩
  · rw [slice.rows, single]
    rfl
  · rw [slice.rows, single]
    rfl

end Query

end TripleJoin
