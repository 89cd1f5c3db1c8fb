import TripleJoin.Proofs.Engine.Faults
import TripleJoin.Proofs.Matcher.Uniqueness
/-!
A single branch never gives one row twice. Matching comes to no binding of the main pattern twice,
joining in a clause multiplies a row by different values of other variables, and all columns together
tell rows apart. So asking a table of everything for distinct rows changes nothing.
-/
namespace TripleJoin

namespace Valuation

section

variable {row row' extra extra' : Valuation}

theorem Apart.merge_left (first : row.Apart extra') (second : extra.Apart extra') :
    (row.merge extra).Apart extra' := by
  intro v
  rcases first v with none | none
  · exact (second v).imp_left fun none' => by rw [merge, none', none, Option.or_none]
  · exact Or.inr none

theorem Apart.eq_none {v : Variable} {term : Term} (apart : row.Apart extra)
    (set : extra v = some term) : row v = none :=
  (apart v).resolve_right (by simp [set])

theorem Apart.extends_merge {base : Valuation} (apart : base.Apart extra)
    (kept : row.Extends base) : (row.merge extra).Extends base := by
  intro v term found
  rw [merge, (apart v).resolve_left (by simp [found]), Option.none_or, kept v term found]

/-- What is joined in can be read off the merged row, if the row itself has no value there. -/
theorem extra_of_merge (apart : row'.Apart extra) (same : row.merge extra = row'.merge extra')
    {v : Variable} {term : Term} (set : extra v = some term) : extra' v = some term := by
  have here := congrFun same v
  rwa [merge, merge, set, Option.some_or, apart.eq_none set, Option.or_none, eq_comm] at here

theorem merge_injective (own : row.Apart extra) (left : row.Apart extra')
    (right : row'.Apart extra) (same : row.merge extra = row'.merge extra') :
    row = row' ∧ extra = extra' := by
  have extras : extra = extra' := by
    funext v
    exact Option.ext fun term =>
      ⟨fun set => extra_of_merge right same set, fun set => extra_of_merge left same.symm set⟩
  refine ⟨?_, extras⟩
  subst extras
  funext v
  have here := congrFun same v
  rw [merge, merge] at here
  cases set : extra v with
  | none => rwa [set, Option.none_or, Option.none_or] at here
  | some term => rw [own.eq_none set, right.eq_none set]

theorem outerJoin_nodup {rows extra : List Valuation} (distinct : rows.Nodup)
    (distinct' : extra.Nodup) (apart : ∀ x ∈ rows, ∀ y ∈ extra, x.Apart y) :
    (outerJoin rows extra).Nodup := by
  unfold outerJoin
  split
  · exact distinct
  · rw [List.nodup_flatMap]
    constructor
    · intro x member
      refine distinct'.map_on ?_
      intro y second y' second' same
      exact (merge_injective (apart x member y second) (apart x member y' second')
        (apart x member y second) same).2
    · refine distinct.imp_of_mem ?_
      intro x x' member member' differ joined first second
      obtain ⟨y, listed, rfl⟩ := List.mem_map.mp first
      obtain ⟨y', listed', same⟩ := List.mem_map.mp second
      exact differ (merge_injective (apart x member y listed) (apart x member y' listed')
        (apart x' member' y listed) same.symm).1

end

section

variable {base : Valuation} {extras : List (List Valuation)}

theorem forall_outerRows {p : Valuation → Prop} (start : p base)
    (step : ∀ extra ∈ extras, ∀ y ∈ extra, ∀ x, p x → p (x.merge y)) :
    ∀ row ∈ outerRows base extras, p row := by
  induction extras using List.reverseRecOn with
  | nil =>
    intro row single
    exact List.mem_singleton.mp single ▸ start
  | append_singleton earlier last ih =>
    rw [List.forall_mem_append, List.forall_mem_singleton] at step
    have before := ih step.1
    rw [outerRows, List.foldl_append, List.foldl_cons, List.foldl_nil, ← outerRows, outerJoin]
    split
    · exact before
    · intro row member
      obtain ⟨x, first, member⟩ := List.mem_flatMap.mp member
      obtain ⟨y, second, rfl⟩ := List.mem_map.mp member
      exact step.2 y second x (before x first)

theorem extends_of_apart (outside : ∀ extra ∈ extras, ∀ y ∈ extra, base.Apart y) :
    ∀ row ∈ outerRows base extras, row.Extends base :=
  forall_outerRows (fun _ _ found => found) fun extra listed y second _ kept =>
    (outside extra listed y second).extends_merge kept

/-- The rows of each clause are distinct, and no variable has a value both in the base and in a
    clause, or in two clauses. -/
structure Separate (base : Valuation) (extras : List (List Valuation)) : Prop where
  distinct : ∀ extra ∈ extras, extra.Nodup
  outside : ∀ extra ∈ extras, ∀ y ∈ extra, base.Apart y
  each_other : extras.Pairwise fun a b => ∀ x ∈ a, ∀ y ∈ b, x.Apart y

theorem Separate.outerRows_nodup (separate : base.Separate extras) :
    (outerRows base extras).Nodup := by
  induction extras using List.reverseRecOn with
  | nil => exact List.nodup_singleton base
  | append_singleton earlier last ih =>
    obtain ⟨distinct, outside, each_other⟩ := separate
    rw [List.forall_mem_append, List.forall_mem_singleton] at distinct outside
    rw [List.pairwise_append] at each_other
    have apart : ∀ x ∈ outerRows base earlier, ∀ y ∈ last, x.Apart y := by
      refine forall_outerRows (p := fun x => ∀ y ∈ last, x.Apart y) outside.2 ?_
      intro extra listed z third x kept y second
      exact (kept y second).merge_left
        (each_other.2.2 extra listed last List.mem_cons_self z third y second)
    rw [outerRows, List.foldl_append]
    exact outerJoin_nodup (ih ⟨distinct.1, outside.1, each_other.1⟩) distinct.2 apart

end

end Valuation

section

variable {source : Source} {graph : Graph} {leaf : Binding} {main : Pattern}
  {clauses : List Pattern}

/-- A clause never matches twice with the same values. -/
theorem Tree.clause_values_nodup {clause : Pattern} (built : clause.Built) :
    ((rowsOf (clauseTree source graph.matching leaf clause)).map Binding.get?).Nodup := by
  rw [clauseTree, Matcher.rowsOf_grow]
  exact Matcher.rows_values_nodup graph.matching_nodup ((built.substitute leaf).covers [])

/-- A clause gives no value to a variable of the leaf that it is matched at. -/
theorem Tree.leaf_apart {answers : Request → List Triple} (complete : leaf.isComplete = true)
    (clause : Pattern) :
    ∀ row ∈ rowsOf (clauseTree source answers leaf clause),
      Valuation.Apart leaf.get? row.get? := by
  intro row member
  apply Binding.apart_of_disjoint
  rw [keys_of_mem_clause_rows member]
  exact List.disjoint_comm.mp (clause.keysAt_outside complete)

/-- At a complete leaf the well-scoped clauses are separate from it and from each other. -/
theorem Pattern.WellScoped.separate (scope : main.WellScoped clauses)
    (built : ∀ clause ∈ clauses, clause.Built) (complete : leaf.isComplete = true)
    (solved : ∀ v ∈ main.unbounds, v ∈ leaf.keys) :
    Valuation.Separate leaf.get? (clauses.map fun clause =>
      (Tree.rowsOf (Tree.clauseTree source graph.matching leaf clause)).map Binding.get?) := by
  constructor
  · rw [List.forall_mem_map]
    exact fun clause listed => Tree.clause_values_nodup (built clause listed)
  · simp only [List.forall_mem_map]
    exact fun clause _ => Tree.leaf_apart complete clause
  · refine List.Pairwise.map _ ?_ (scope.keysAt_apart complete solved)
    intro clause clause' disjoint x first y second
    obtain ⟨row, member, rfl⟩ := List.mem_map.mp first
    obtain ⟨row', member', rfl⟩ := List.mem_map.mp second
    apply Binding.apart_of_disjoint
    rw [Tree.keys_of_mem_clause_rows member, Tree.keys_of_mem_clause_rows member']
    exact disjoint

/-- The rows of a branch are distinct: those of one leaf are, and rows of two leaves differ where the
    leaves do. -/
theorem Engine.branch_values_nodup (engine : Engine) (scope : main.WellScoped clauses)
    (built : main.Built) (each : ∀ clause ∈ clauses, clause.Built)
    (initial : List (Variable × Term)) :
    ((Tree.rowsOf (engine.branchRoot graph.matching clauses initial main)).map
      Binding.get?).Nodup := by
  let matcher : Matcher := ⟨engine.store.toSource, main.constraints, none⟩
  let start := Binding.withValues main.unbounds initial
  have keys : ∀ leaf ∈ matcher.rows graph.matching main.statements start,
      leaf.keys = start.keys := fun leaf member => Matcher.keys_of_mem_rows _ _ member
  have separate : ∀ leaf ∈ matcher.rows graph.matching main.statements start,
      Valuation.Separate leaf.get? (clauses.map fun clause =>
        (Tree.rowsOf (Tree.clauseTree engine.store.toSource graph.matching leaf clause)).map
          Binding.get?) := by
    intro leaf member
    refine scope.separate each (Matcher.complete_of_mem_rows _ _ member) ?_
    exact fun v known => keys leaf member ▸ mem_keys_withValues known
  rw [map_get?_branchRoot, List.nodup_flatMap]
  constructor
  · exact fun leaf member => (separate leaf member).outerRows_nodup
  · have distinct := matcher.rows_values_nodup graph.matching_nodup (built.covers initial)
    rw [List.Nodup, List.pairwise_map] at distinct
    refine distinct.imp_of_mem ?_
    intro leaf leaf' member member' differ row first second
    apply differ
    have kept := Valuation.extends_of_apart (separate leaf member).outside row first
    have kept' := Valuation.extends_of_apart (separate leaf' member').outside row second
    funext v
    by_cases known : v ∈ start.keys
    · have bound := leaf.isComplete_iff.mp (Matcher.complete_of_mem_rows _ _ member) v
        (keys leaf member ▸ known)
      have bound' := leaf'.isComplete_iff.mp (Matcher.complete_of_mem_rows _ _ member') v
        (keys leaf' member' ▸ known)
      obtain ⟨term, found⟩ := Option.isSome_iff_exists.mp bound
      obtain ⟨term', found'⟩ := Option.isSome_iff_exists.mp bound'
      rw [found, found', ← kept v term found, kept' v term' found']
    · rw [Binding.get?_eq_none_of_not_mem (keys leaf member ▸ known),
        Binding.get?_eq_none_of_not_mem (keys leaf' member' ▸ known)]

end

theorem Row.ofList_injective : Function.Injective Row.ofList := by
  intro xs ys same
  unfold ofList at same
  split at same <;> split at same <;> simp_all

/-- A row of all columns has all the values of its solution. -/
theorem Binding.get?_eq_of_project {a b : Binding} {columns : List Variable}
    (first : ∀ v ∈ a.keys, v ∈ columns) (second : ∀ v ∈ b.keys, v ∈ columns)
    (same : a.project columns = b.project columns) : a.get? = b.get? := by
  have shown := List.map_inj_left.mp (Row.ofList_injective same)
  funext v
  by_cases column : v ∈ columns
  · exact shown v column
  · rw [get?_eq_none_of_not_mem (mt (first v) column),
      get?_eq_none_of_not_mem (mt (second v) column)]

namespace Solution

variable {solutions ordered : List Binding}

theorem mem_heading {v : Variable} :
    v ∈ heading solutions ↔ ∃ solution ∈ solutions, v ∈ solution.keys := by
  rw [heading, mem_distinct, List.mem_flatMap]

theorem perm_of_order {nulls : NullOrdering} {orderBy : Option OrderBy}
    (arranged : order nulls orderBy solutions = .ok ordered) : ordered.Perm solutions := by
  cases orderBy with
  | none =>
    cases arranged
    exact .refl _
  | some chosen =>
    rw [order] at arranged
    cases compared : comparison nulls chosen with
    | error fault =>
      rw [compared] at arranged
      cases arranged
    | ok compare =>
      rw [compared] at arranged
      cases arranged
      exact Sorting.sort_perm compare solutions

theorem rows_nodup (distinct : (solutions.map Binding.get?).Nodup) :
    (solutions.map fun solution => solution.project (heading solutions)).Nodup := by
  rw [List.Nodup, List.pairwise_map] at distinct ⊢
  refine distinct.imp_of_mem ?_
  intro a b first second differ same
  exact differ (Binding.get?_eq_of_project (fun v known => mem_heading.mpr ⟨a, first, known⟩)
    (fun v known => mem_heading.mpr ⟨b, second, known⟩) same)

/-- On all columns distinct solutions have distinct rows, however they are ordered. -/
theorem arrange_distinct (distinct : (solutions.map Binding.get?).Nodup) (nulls : NullOrdering)
    (options : SelectOptions) :
    arrange nulls { options with selection := .all, distinct := true } solutions =
      arrange nulls { options with selection := .all, distinct := false } solutions := by
  unfold arrange
  dsimp only
  cases arranged : order nulls options.orderBy solutions with
  | error fault => rfl
  | ok ordered =>
    have nodup := rows_nodup (((perm_of_order arranged).map _).nodup_iff.mpr distinct)
    have kept := foldl_addNew_of_nodup nodup
    rw [← distinct_eq] at kept
    simp only [Except.map, kept, if_true, Bool.false_eq_true, if_false]

end Solution

/-- Over a graph no two solutions of a single branch have the same values, so that in a table of
    everything there are no repeated rows to drop. -/
theorem solutions_distinct (name : String) (graph : Graph) (watched : Bool) (config : Config)
    {main : Pattern} {clauses : List Pattern} (built : main.Built)
    (each : ∀ clause ∈ clauses, clause.Built) {initial : List (Variable × Term)}
    {journal : Journal} {query : Query}
    (success : (((Engine.mk (.ofGraph name graph watched) config).build [main] clauses
      initial).run.run journal).1 = .ok query) :
    (query.solutions.map Binding.get?).Nodup ∧ ∀ options : SelectOptions,
      query.select { options with selection := .all, distinct := true } =
        query.select { options with selection := .all, distinct := false } := by
  let engine : Engine := ⟨.ofGraph name graph watched, config⟩
  have same := engine.eq_joined_of_build (answers_ofGraph name graph watched) success
  have sound := (Engine.check_eq_ok_iff.mp (Engine.check_of_build success)).2 main
    List.mem_cons_self
  have scope := Pattern.wellScoped_iff.mpr sound.uncontested
  have distinct : (query.solutions.map Binding.get?).Nodup := by
    rw [same]
    exact engine.branch_values_nodup scope built each initial
  refine ⟨distinct, fun options => ?_⟩
  unfold Query.select
  dsimp only
  rw [Solution.arrange_distinct distinct]

/-- Two clauses with several matches each multiply the matches of a loop: ten solutions, all
    different. -/
theorem solutions_distinct_of_loop :
    let link := Sample.link
    let linked := Sample.linked
    ∃ query, (((Engine.mk (.ofGraph "memory"
        (.ofList [link "a" "b", link "b" "a", link "b" "c", link "b" "b"]) true) {}).build
          [.ofStatements [linked "x" "y"]]
          [.ofStatements [linked "y" "z"], .ofStatements [linked "w" "x"]]
          [(⟨"x"⟩, .iri "b")]).run.run Journal.empty).1 = .ok query ∧
      query.solutions.length = 10 ∧ (query.solutions.map Binding.get?).Nodup ∧
      ∀ options : SelectOptions,
        query.select { options with selection := .all, distinct := true } =
          query.select { options with selection := .all, distinct := false } := by
  intro link linked
  have plain : ∀ (subject object : String) answers,
      (Pattern.ofStatements [linked subject object]).Decides answers :=
    fun _ _ answers => Pattern.decides_of_plain answers (List.forall_mem_singleton.mpr rfl) rfl
  let engine : Engine := ⟨.ofGraph "memory"
    (.ofList [link "a" "b", link "b" "a", link "b" "c", link "b" "b"]) true, {}⟩
  have steady : engine.store.Answers _ := answers_ofGraph _ _ _
  obtain ⟨after, ran⟩ := Engine.yields_build steady rfl rfl (plain "x" "y" _)
    (List.forall_mem_cons.mpr ⟨plain "y" "z" _, List.forall_mem_singleton.mpr (plain "w" "x" _)⟩)
    [(⟨"x"⟩, .iri "b")] Journal.empty
  have success := congrArg Prod.fst ran
  refine ⟨_, success, ?_, solutions_distinct _ _ _ _ (Pattern.built_ofStatements _) ?_ success⟩
  · simp only [Query.solutions, Engine.branchRoot, funext (Graph.matching_eq_filter _),
      Graph.toList_ofList]
    decide
  · exact List.forall_mem_cons.mpr ⟨Pattern.built_ofStatements _,
      List.forall_mem_singleton.mpr (Pattern.built_ofStatements _)⟩

end TripleJoin
