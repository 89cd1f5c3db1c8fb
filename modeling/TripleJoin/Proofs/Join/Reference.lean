import TripleJoin.Proofs.Join.Distinctness
import TripleJoin.Proofs.Sorting
/-!
The left outer join of the reference, row for row. A clause that the loops search with the values of
a solution in front finds what the clause at the leaf of that solution finds; and joining entries in
that are not there yet comes to the same as merging bindings that share no value.
-/
namespace TripleJoin

namespace Assignment

theorem lookup_foldl_join (extra joined : Assignment) (v : Variable) :
    (extra.foldl (fun joined entry =>
        if (joined.lookup entry.1).isSome then joined else joined ++ [entry]) joined).lookup v =
      (joined.lookup v).or (extra.lookup v) := by
  induction extra generalizing joined with
  | nil => exact Option.or_none.symm
  | cons entry extra ih =>
    obtain ⟨w, term⟩ := entry
    rw [List.foldl_cons, ih]
    by_cases same : v = w
    · subst same
      cases known : joined.lookup v <;> simp [known, lookup_concat]
    · rw [lookup_cons_ne same]
      split
      · rfl
      · rw [lookup_concat, if_neg same, Option.or_none]

theorem keys_foldl_join (extra joined : Assignment) :
    (extra.foldl (fun joined entry =>
        if (joined.lookup entry.1).isSome then joined else joined ++ [entry]) joined).map Prod.fst =
      (extra.map Prod.fst).foldl addNew (joined.map Prod.fst) := by
  induction extra generalizing joined with
  | nil => rfl
  | cons entry extra ih =>
    rw [List.foldl_cons, ih, List.map_cons, List.foldl_cons, addNew]
    simp only [lookup_isSome_iff_mem]
    split <;> simp

theorem nodup_ofBinding (binding : Binding) : ((ofBinding binding).map Prod.fst).Nodup :=
  ((Sorting.sort_perm compareEntry binding.bound).map Prod.fst).nodup_iff.mpr binding.bound_nodup

theorem lookup_ofBinding (binding : Binding) (v : Variable) :
    (ofBinding binding).lookup v = binding.get? v := by
  have perm := Sorting.sort_perm compareEntry binding.bound
  rw [ofBinding, sorted, ← lookup_eq_of_perm binding.bound_nodup perm.symm, Binding.lookup_bound]

/-- Where no variable has a value in both, it does not matter which of them counts. -/
theorem join_ofBinding {row extra : Binding} (apart : Valuation.Apart row.get? extra.get?) :
    (ofBinding row).join (ofBinding extra) = ofBinding (row.merge extra) := by
  rw [join]
  apply sorted_eq_of_values
  · rw [keys_foldl_join]
    exact nodup_foldl_addNew (nodup_ofBinding row) _
  · exact (row.merge extra).bound_nodup
  · intro v
    rw [lookup_foldl_join, lookup_ofBinding, lookup_ofBinding, Binding.lookup_bound,
      Binding.get?_merge]
    rcases apart v with none | none
    · rw [none, Option.none_or, Option.or_none]
    · rw [none, Option.none_or, Option.or_none]

end Assignment

open Assignment

section

variable {rows extra : List Binding}

theorem map_ofBinding_leftJoin
    (apart : ∀ row ∈ rows, ∀ more ∈ extra, Valuation.Apart row.get? more.get?) :
    (leftJoin rows extra).map ofBinding =
      if (extra.map ofBinding).isEmpty then rows.map ofBinding
      else (rows.map ofBinding).flatMap fun row => (extra.map ofBinding).map row.join := by
  rw [leftJoin, List.isEmpty_map]
  split
  · rfl
  · rw [List.map_flatMap, List.flatMap_map]
    apply List.flatMap_congr
    intro row first
    rw [List.map_map, List.map_map]
    apply List.map_congr_left
    intro more second
    exact (join_ofBinding (apart row first more second)).symm

/-- Rows stay apart from a later clause when an earlier one is joined in. -/
theorem apart_leftJoin {later : Valuation}
    (rows_apart : ∀ row ∈ rows, Valuation.Apart row.get? later)
    (extra_apart : ∀ more ∈ extra, Valuation.Apart more.get? later) :
    ∀ row ∈ leftJoin rows extra, Valuation.Apart row.get? later := by
  unfold leftJoin
  split
  · exact rows_apart
  · intro joined member
    obtain ⟨row, first, member⟩ := List.mem_flatMap.mp member
    obtain ⟨more, second, rfl⟩ := List.mem_map.mp member
    have merged : (row.merge more).get? = Valuation.merge row.get? more.get? :=
      funext fun v => row.get?_merge v more
    rw [merged]
    exact (rows_apart row first).merge_left (extra_apart more second)

theorem map_ofBinding_foldl_leftJoin {owns : List (List Binding)}
    (outside : ∀ own ∈ owns, ∀ more ∈ own, ∀ row ∈ rows, Valuation.Apart row.get? more.get?)
    (each_other : owns.Pairwise fun a b =>
      ∀ x ∈ a, ∀ y ∈ b, Valuation.Apart x.get? y.get?) :
    (owns.foldl leftJoin rows).map ofBinding = owns.foldl (fun rows own =>
      if (own.map ofBinding).isEmpty then rows
      else rows.flatMap fun row => (own.map ofBinding).map row.join) (rows.map ofBinding) := by
  induction owns generalizing rows with
  | nil => rfl
  | cons own owns ih =>
    rw [List.forall_mem_cons] at outside
    rw [List.pairwise_cons] at each_other
    rw [List.foldl_cons, List.foldl_cons, ih ?_ each_other.2, map_ofBinding_leftJoin]
    · exact fun row first more second => outside.1 more second row first
    · intro later listed more third
      exact apart_leftJoin (outside.2 later listed more third)
        fun x second => each_other.1 later listed x second more third

end

/-- Built by the operations on patterns, with no filter and no constraint. -/
structure Pattern.Plain (pattern : Pattern) : Prop where
  built : pattern.Built
  unfiltered : ∀ statement ∈ pattern.statements, statement.filter = none
  unconstrained : pattern.constraints = []

namespace Pattern.Plain

variable {pattern : Pattern}

theorem ofStatements {statements : List Statement}
    (unfiltered : ∀ statement ∈ statements, statement.filter = none) :
    (Pattern.ofStatements statements).Plain :=
  ⟨built_ofStatements statements, (ofStatements_statements statements).symm ▸ unfiltered,
    addAll_constraints empty statements⟩

theorem decides (plain : pattern.Plain) (answers : Request → List Triple) :
    pattern.Decides answers :=
  decides_of_plain answers plain.unfiltered plain.unconstrained

/-- The loops that start with some values find the rows that start with them, less these values. -/
theorem solutions_eq_rows (plain : pattern.Plain) (graph : Graph) (source : Source)
    {initial : Assignment} (distinct : (initial.map Prod.fst).Nodup) :
    NestedLoop.solutions graph.toList
        (pattern.statements.map fun statement => statement.toTriplePattern) initial =
      ((Matcher.mk source pattern.constraints none).rows graph.matching pattern.statements
        (.withValues pattern.unbounds initial)).map fun row =>
          sorted (row.bound.filter fun entry => entry.1 ∉ initial.map Prod.fst) := by
  have side := plain.built.forall₂_search_rows graph plain.unfiltered plain.unconstrained distinct
    source
  refine map_eq_map_of_forall₂ ((List.forall₂_and_left _ _).mpr
    ⟨fun found member => NestedLoop.keys_search member, side⟩) ?_
  rintro found row ⟨keys, mirrors, complete⟩
  rw [List.flatMap_map] at keys
  rw [mirrors.fresh_eq complete keys]

/-- The loops that start with nothing find the rows. -/
theorem solutions_nil_eq_rows (plain : pattern.Plain) (graph : Graph) (source : Source) :
    NestedLoop.solutions graph.toList
        (pattern.statements.map fun statement => statement.toTriplePattern) [] =
      ((Matcher.mk source pattern.constraints none).rows graph.matching pattern.statements
        (.withValues pattern.unbounds [])).map ofBinding := by
  have distinct : (([] : Assignment).map Prod.fst).Nodup := List.nodup_nil
  simp [plain.solutions_eq_rows graph source distinct, ofBinding]

end Pattern.Plain

/-- What a clause adds to a leaf is the whole row less the values of the leaf. -/
theorem Binding.Seeded.ofBinding_eq {leaf own whole : Binding} (seeded : leaf.Seeded own whole) :
    sorted (whole.bound.filter fun entry => entry.1 ∉ (ofBinding leaf).map Prod.fst) =
      ofBinding own := by
  let outside := fun v => decide (v ∉ (ofBinding leaf).map Prod.fst)
  apply sorted_eq_of_values
  · rw [map_fst_filter outside]
    exact whole.bound_nodup.filter outside
  · exact own.bound_nodup
  · intro v
    have inherited := lookup_isSome_iff_mem (ofBinding leaf) v
    rw [lookup_ofBinding] at inherited
    rw [lookup_filter_keys outside, lookup_bound, lookup_bound]
    by_cases member : v ∈ (ofBinding leaf).map Prod.fst
    · obtain ⟨term, known⟩ := Option.isSome_iff_exists.mp (inherited.mpr member)
      have foreign : v ∉ own.keys := fun mine => by simp [seeded.apart v mine] at known
      rw [get?_eq_none_of_not_mem foreign]
      simp [outside, member]
    · have free : leaf.get? v = none := by simpa [member] using inherited
      rw [seeded.get?_of_free free]
      simp [outside, member]

section

variable {clause main : Pattern} {clauses : List Pattern}

/-- The loops that start with the values of a leaf find what the clause adds to it. -/
theorem Tree.solutions_eq_clause_rows (plain : clause.Plain) (graph : Graph) (source : Source)
    (leaf : Binding) :
    NestedLoop.solutions graph.toList
        (clause.statements.map fun statement => statement.toTriplePattern) (ofBinding leaf) =
      (rowsOf (clauseTree source graph.matching leaf clause)).map ofBinding := by
  have extensional : ∀ constraint ∈ clause.constraints,
      constraint.Extensional graph.matching := by
    rw [plain.unconstrained]
    exact List.forall_mem_nil _
  have side := Matcher.forall₂_seeded_rows graph source extensional clause.statements
    (Binding.seeded_withValues (nodup_ofBinding leaf) (lookup_ofBinding leaf) clause)
  rw [plain.solutions_eq_rows graph source (nodup_ofBinding leaf), clauseTree,
    Matcher.rowsOf_grow]
  exact (map_eq_map_of_forall₂ side fun own whole seeded => seeded.ofBinding_eq.symm).symm

/-- The rows of a branch are those of the left outer join by the loops, in the same order. -/
theorem Engine.outerJoin_eq_rows (engine : Engine) (graph : Graph) (plain : main.Plain)
    (each : ∀ clause ∈ clauses, clause.Plain) (scope : main.WellScoped clauses) :
    NestedLoop.outerJoin graph.toList
        (main.statements.map fun statement => statement.toTriplePattern)
        (clauses.map fun clause =>
          clause.statements.map fun statement => statement.toTriplePattern) =
      (Tree.rowsOf (engine.branchRoot graph.matching clauses [] main)).map ofBinding := by
  rw [NestedLoop.outerJoin, plain.solutions_nil_eq_rows graph engine.store.toSource,
    rowsOf_branchRoot, List.flatMap_map, List.map_flatMap]
  apply List.flatMap_congr
  intro leaf member
  have separate : Valuation.Separate leaf.get? (clauses.map fun clause =>
      (Tree.rowsOf (Tree.clauseTree engine.store.toSource graph.matching leaf clause)).map
        Binding.get?) := by
    refine scope.separate (fun clause listed => (each clause listed).built)
      (Matcher.complete_of_mem_rows _ _ member) fun v known => ?_
    exact Matcher.keys_of_mem_rows _ _ member ▸ mem_keys_withValues known
  rw [NestedLoop.outerRows, map_ofBinding_foldl_leftJoin]
  · rw [List.foldl_map, List.foldl_map]
    apply List.foldl_ext
    intro rows clause listed
    rw [Tree.solutions_eq_clause_rows (each clause listed)]
  · have outside := separate.outside
    simp only [List.forall_mem_map] at outside ⊢
    intro clause listed more second row single
    exact List.mem_singleton.mp single ▸ outside clause listed more second
  · have each_other := separate.each_other
    rw [List.pairwise_map] at each_other ⊢
    simpa only [List.forall_mem_map] using each_other

end

end TripleJoin
