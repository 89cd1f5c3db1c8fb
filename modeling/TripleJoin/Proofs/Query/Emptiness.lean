import TripleJoin.Proofs.Query.Reconstruction
import TripleJoin.Proofs.Selection.Slicing
import TripleJoin.Proofs.Tree.Attachment
/-!
Having no row. A tree that is grown has a bound leaf, each bound leaf gives a row whatever the clauses
do, and nothing after that loses the last row. So the tree, the ways, the solutions, the rows of every
selection and the matched triples are missing together.
-/
namespace TripleJoin

namespace Matcher

variable {matcher : Matcher} {answers : Request → List Triple} {statements : List Statement}
  {binding : Binding}

/-- Statements that leave nothing unbound at the end do not grow a tree without a way. -/
theorem ways_ne_nil_of_grow (awaits : binding.Awaits statements) {matched : Option Triple}
    {tree : Tree} (grown : matcher.grow answers statements binding matched = some tree) :
    matcher.ways answers statements binding ≠ [] := by
  induction statements generalizing binding matched tree with
  | nil =>
    have complete := awaits.isComplete
    rw [grow, complete, Bool.true_and] at grown
    cases admitted : matcher.admitsLeaf answers binding with
    | false =>
      rw [admitted] at grown
      cases grown
    | true => exact List.ne_nil_of_mem (mem_ways_nil.mpr ⟨complete, admitted, rfl⟩)
  | cons head rest ih =>
    rw [grow, Option.ite_none_left_eq_some, List.isEmpty_iff] at grown
    obtain ⟨child, member⟩ := List.exists_mem_of_ne_nil _ grown.1
    obtain ⟨candidate, answered, below⟩ := List.mem_filterMap.mp member
    obtain ⟨next, fits, grown⟩ := Option.bind_eq_some_iff.mp below
    rw [childOf_substitute] at fits
    obtain ⟨way, later⟩ := List.exists_mem_of_ne_nil _ (ih (awaits.take? fits) grown)
    exact List.ne_nil_of_mem (mem_ways_cons.mpr ⟨candidate, answered, next, fits, way, later, rfl⟩)

theorem grow_eq_none_iff (awaits : binding.Awaits statements) (matched : Option Triple) :
    matcher.grow answers statements binding matched = none ↔
      matcher.ways answers statements binding = [] := by
  cases grown : matcher.grow answers statements binding matched with
  | some tree => exact iff_of_false (Option.some_ne_none tree) (ways_ne_nil_of_grow awaits grown)
  | none =>
    have rows := matcher.rowsOf_grow answers statements binding matched
    rw [grown, rows_eq_ways, eq_comm] at rows
    exact iff_of_true rfl (List.map_eq_nil_iff.mp rows)

end Matcher

theorem flatMap_eq_nil_iff_of_filled {α β : Type} {xs : List α} {f : α → List β}
    (filled : ∀ x ∈ xs, f x ≠ []) : xs.flatMap f = [] ↔ xs = [] := by
  constructor
  · intro empty
    rw [List.flatMap_eq_nil_iff] at empty
    exact List.eq_nil_iff_forall_not_mem.mpr fun x member => filled x member (empty x member)
  · rintro rfl
    rfl

namespace Engine

variable {engine : Engine} {answers : Request → List Triple} {pattern : Pattern}
  (clauses : List Pattern) (initial : List (Variable × Term))

/-- A branch clashes exactly if there is no way to match its pattern. -/
theorem branchRoot_eq_none_iff (built : pattern.Built) :
    engine.branchRoot answers clauses initial pattern = none ↔
      engine.branchWays answers initial pattern = [] := by
  rw [branchRoot, Option.map_eq_none_iff]
  exact Matcher.grow_eq_none_iff (built.awaits initial) none

theorem solutions_eq_nil_iff (pattern : Pattern) :
    (engine.branchQuery answers clauses initial pattern).solutions = [] ↔
      engine.branchWays answers initial pattern = [] := by
  rw [solutions_branchQuery]
  exact flatMap_eq_nil_iff_of_filled fun way _ => Tree.rowsAt_ne_nil clauses

theorem evidence_eq_nil_iff (built : pattern.Built) (stated : pattern.statements ≠ []) :
    (engine.branchQuery answers clauses initial pattern).evidence.toList = [] ↔
      engine.branchWays answers initial pattern = [] := by
  have filled : ∀ way ∈ engine.branchWays answers initial pattern, way.triples ≠ [] := by
    intro way member
    have spells := Matcher.spells_of_mem_ways (built.covers initial) member
    rw [← List.length_pos_iff, ← spells.length_eq]
    exact List.length_pos_iff.mpr stated
  rw [evidence_branchQuery, ← flatMap_eq_nil_iff_of_filled filled]
  simp only [List.eq_nil_iff_forall_not_mem, Graph.mem_ofList]

end Engine

namespace Query

/-- There is no solution exactly if there is no matched triple. -/
def Evident (query : Query) : Prop :=
  query.solutions = [] ↔ query.evidence.toList = []

theorem Evident.union {first second : Query} (left : first.Evident) (right : second.Evident) :
    (first.union second).Evident := by
  have triples : (first.union second).evidence.toList = [] ↔
      first.evidence.toList = [] ∧ second.evidence.toList = [] := by
    simp only [evidence, List.eq_nil_iff_forall_not_mem, Graph.mem_union, not_or, forall_and]
  exact List.append_eq_nil_iff.trans ((and_congr left right).trans triples.symm)

theorem Evident.foldl_union {built : Query} {queries : List Query} (start : built.Evident)
    (each : ∀ query ∈ queries, query.Evident) : (queries.foldl Query.union built).Evident := by
  induction queries generalizing built with
  | nil => exact start
  | cons query queries ih =>
    rw [List.forall_mem_cons] at each
    exact ih (start.union each.1) each.2

/-- Queries that engines over graphs have built, and their unions. -/
inductive Made : Query → Prop where
  | build {name : String} {graph : Graph} {watched : Bool} {config : Config}
      {patterns clauses : List Pattern} {initial : List (Variable × Term)} {journal : Journal}
      {query : Query} (built : ∀ pattern ∈ patterns, pattern.Built)
      (success : (((Engine.mk (.ofGraph name graph watched) config).build patterns clauses
        initial).run.run journal).1 = .ok query) : Made query
  | union {first second : Query} (left : Made first) (right : Made second) :
      Made (first.union second)

theorem Made.evident {query : Query} (made : query.Made) : query.Evident := by
  induction made with
  | union _ _ left right => exact left.union right
  | @build name graph watched config patterns clauses initial journal query built success =>
    let engine : Engine := ⟨.ofGraph name graph watched, config⟩
    have steady : engine.store.Answers graph.matching := answers_ofGraph _ _ _
    obtain ⟨_, sound⟩ := Engine.check_eq_ok_iff.mp (Engine.check_of_build success)
    have branch : ∀ pattern ∈ patterns,
        (engine.branchQuery graph.matching clauses initial pattern).Evident := fun pattern member =>
      (engine.solutions_eq_nil_iff clauses initial pattern).trans
        (engine.evidence_eq_nil_iff clauses initial (built pattern member)
          (sound pattern member).stated).symm
    cases patterns with
    | nil => cases Engine.check_of_build success
    | cons pattern patterns =>
      rw [List.forall_mem_cons] at branch
      rw [engine.eq_joined_of_build steady success, Engine.joined,
        ← List.foldl_map (f := engine.branchQuery graph.matching clauses initial)]
      refine branch.1.foldl_union ?_
      rw [List.forall_mem_map]
      exact branch.2

theorem ask_iff {query : Query} : query.ask = true ↔ query.solutions ≠ [] := by
  rw [ask, Bool.not_eq_true', List.isEmpty_eq_false_iff]

end Query

namespace SelectOptions

variable {options : SelectOptions}

theorem rowsOf_eq_nil_iff {ordered : List Binding} : options.rowsOf ordered = [] ↔ ordered = [] := by
  unfold rowsOf
  split
  · rw [List.eq_nil_iff_forall_not_mem]
    simp only [mem_distinct]
    rw [← List.eq_nil_iff_forall_not_mem, List.map_eq_nil_iff]
  · exact List.map_eq_nil_iff

theorem cut_eq_nil_iff (start : options.offset = 0) (some : ∀ limit ∈ options.limit, 1 ≤ limit)
    {rows : List Row} : options.cut rows = [] ↔ rows = [] := by
  have first := options.getElem?_cut rows 0
  have admitted : options.limit.all (0 < ·) = true := by
    cases bound : options.limit with
    | none => rfl
    | some limit => exact decide_eq_true (some limit bound)
  rw [if_pos admitted, start] at first
  rw [← List.head?_eq_none_iff, List.head?_eq_getElem?, first, ← List.head?_eq_getElem?,
    List.head?_eq_none_iff]

end SelectOptions

namespace Query

/-- Asking for a row, selecting rows in whatever valid order as long as there is room for one, and
    constructing from what was matched agree on whether there is anything. -/
structure ShowsRows (query : Query) : Prop where
  selects : ∀ options : SelectOptions,
    (∀ chosen ∈ options.orderBy, chosen.Valid query.nulls query.solutions) →
    options.offset = 0 → (∀ limit ∈ options.limit, 1 ≤ limit) →
      ∃ table, (query.select options).Yields table ∧ (query.ask = true ↔ table.rows ≠ [])
  constructs : ∀ call journal,
    query.ask = true ↔ ((query.construct none call).run journal).1.toList ≠ []

theorem Made.showsRows {query : Query} (made : query.Made) : query.ShowsRows where
  selects := by
    intro options valid start some
    obtain ⟨ordered, sorted⟩ := Solution.exists_order valid
    refine ⟨_, yields_select_of_order sorted, ask_iff.trans (not_congr ?_)⟩
    rw [SelectOptions.cut_eq_nil_iff start some, SelectOptions.rowsOf_eq_nil_iff,
      ← List.length_eq_zero_iff, ← (Solution.perm_of_order sorted).length_eq,
      List.length_eq_zero_iff]
  constructs _ _ := ask_iff.trans (not_congr made.evident)

theorem isSome_root_iff {engine : Engine} {answers : Request → List Triple} {pattern : Pattern}
    (built : pattern.Built) (clauses : List Pattern) (initial : List (Variable × Term)) :
    (engine.branchQuery answers clauses initial pattern).root?.isSome = true ↔
      engine.branchWays answers initial pattern ≠ [] := by
  rw [Option.isSome_iff_ne_none]
  exact not_congr (engine.branchRoot_eq_none_iff clauses initial built)

/-- Whatever has been built agrees on whether it has a row. A single branch has one exactly if it did
    not clash, and it clashes with clauses exactly if it does without them. -/
theorem rows_shown_alike :
    (∀ query : Query, query.Made → query.ShowsRows) ∧
    ∀ (name : String) (graph : Graph) (watched : Bool) (config : Config) (pattern : Pattern)
      (clauses : List Pattern) (initial : List (Variable × Term)) (journal : Journal)
      (query : Query), pattern.Built →
      let engine : Engine := ⟨.ofGraph name graph watched, config⟩
      ((engine.build [pattern] clauses initial).run.run journal).1 = .ok query →
      ∃ plain, (engine.build [pattern] [] initial).Yields plain ∧
        (query.ask = true ↔ query.root?.isSome = true) ∧
        (query.root?.isSome = true ↔ plain.root?.isSome = true) ∧ query.ShowsRows := by
  refine ⟨fun query made => made.showsRows, ?_⟩
  intro name graph watched config pattern clauses initial journal query built engine success
  have steady : engine.store.Answers graph.matching := answers_ofGraph _ _ _
  obtain ⟨plain, yields, _⟩ := Engine.build_without_clauses steady success
  obtain ⟨after, ran⟩ := yields journal
  have made : query.Made := .build (List.forall_mem_singleton.mpr built) success
  have full : query = engine.branchQuery graph.matching clauses initial pattern :=
    engine.eq_joined_of_build steady success
  have bare : plain = engine.branchQuery graph.matching [] initial pattern :=
    engine.eq_joined_of_build steady (congrArg Prod.fst ran)
  refine ⟨plain, yields, ?_, ?_, made.showsRows⟩
  · rw [ask_iff, full, isSome_root_iff built]
    exact not_congr (engine.solutions_eq_nil_iff clauses initial pattern)
  · rw [full, bare, isSome_root_iff built, isSome_root_iff built]

/-- Of two branches the first has a row for each link, and the second looks for a loop and clashes. -/
theorem rows_shown_alike_of_chain :
    let link := Sample.link
    let linked := Sample.linked
    let graph := Graph.ofList [link "a" "b", link "b" "c"]
    let engine : Engine := ⟨.ofGraph "memory" graph true, {}⟩
    let chain := Pattern.ofStatements [linked "x" "y"]
    let loop := Pattern.ofStatements [linked "x" "x"]
    let clauses := [Pattern.ofStatements [linked "x" "z"]]
    ∃ matched clashed plain,
      ((engine.build [chain] clauses []).run.run Journal.empty).1 = .ok matched ∧
      ((engine.build [loop] clauses []).run.run Journal.empty).1 = .ok clashed ∧
      (matched.union clashed).ask = true ∧ (matched.union clashed).ShowsRows ∧
      clashed.ask = false ∧ clashed.ShowsRows ∧ (engine.build [loop] [] []).Yields plain ∧
      plain.root?.isSome = false := by
  intro link linked graph engine chain loop clauses
  have steady : engine.store.Answers graph.matching := answers_ofGraph _ _ _
  have decides : ∀ v w, (Pattern.ofStatements [linked v w]).Decides graph.matching :=
    fun _ _ => Pattern.decides_of_plain _ (List.forall_mem_singleton.mpr rfl) rfl
  have decide : ∀ clause ∈ clauses, clause.Decides graph.matching :=
    List.forall_mem_singleton.mpr (decides _ _)
  obtain ⟨_, ran⟩ := Engine.yields_build steady rfl rfl (decides "x" "y") decide [] Journal.empty
  obtain ⟨_, ran'⟩ := Engine.yields_build steady rfl rfl (decides "x" "x") decide [] Journal.empty
  have matched : ((engine.build [chain] clauses []).run.run Journal.empty).1 =
      .ok (engine.branchQuery graph.matching clauses [] chain) := congrArg Prod.fst ran
  have clashed : ((engine.build [loop] clauses []).run.run Journal.empty).1 =
      .ok (engine.branchQuery graph.matching clauses [] loop) := congrArg Prod.fst ran'
  have made := Pattern.built_ofStatements [linked "x" "y"]
  have made' := Pattern.built_ofStatements [linked "x" "x"]
  obtain ⟨showsRows, branch⟩ := rows_shown_alike
  obtain ⟨plain, yields, asks, bare, shows⟩ := branch _ _ _ _ _ _ _ _ _ made' clashed
  have rootless : (engine.branchQuery graph.matching clauses [] loop).root?.isSome = false := by
    simp only [Engine.branchQuery, Engine.branchRoot, funext (Graph.matching_eq_filter _), graph,
      Graph.toList_ofList]
    decide
  refine ⟨_, _, plain, matched, clashed, ?_, ?_, ?_, shows, yields, ?_⟩
  · simp only [ask, solutions, Engine.branchQuery, Engine.branchRoot,
      funext (Graph.matching_eq_filter _), graph, Graph.toList_ofList]
    decide
  · exact showsRows _ (.union (.build (List.forall_mem_singleton.mpr made) matched)
      (.build (List.forall_mem_singleton.mpr made') clashed))
  · rw [Bool.eq_false_iff, ne_eq, asks, rootless]
    exact Bool.false_ne_true
  · rw [Bool.eq_false_iff, ne_eq, ← bare, rootless]
    exact Bool.false_ne_true

end Query

end TripleJoin
