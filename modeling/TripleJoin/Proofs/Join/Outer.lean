import Mathlib.Algebra.BigOperators.Group.List.Basic
import TripleJoin.Proofs.Join.Inheritance
import TripleJoin.Proofs.Join.Inner
/-!
Optional clauses are left outer joins. A row of the main pattern is joined with the solutions of each
clause in turn, where the clause is matched as a main pattern that starts with the values of the row.
-/
namespace TripleJoin

/-- The values of a row, whatever its keys are and how they are ordered. -/
abbrev Valuation := Variable → Option Term

namespace Valuation

def merge (row extra : Valuation) : Valuation := fun v => (extra v).or (row v)

def outerJoin (rows extra : List Valuation) : List Valuation :=
  if extra.isEmpty then rows else rows.flatMap fun row => extra.map row.merge

/-- One main row with the rows of the clauses joined in, in the order of the clauses. -/
def outerRows (base : Valuation) (extras : List (List Valuation)) : List Valuation :=
  extras.foldl outerJoin [base]

def Extends (row base : Valuation) : Prop :=
  ∀ v term, base v = some term → row v = some term

variable {base extra : Valuation}

theorem Extends.merge (added : extra.Extends base) (row : Valuation) :
    (row.merge extra).Extends base := by
  intro v term found
  rw [Valuation.merge, added v term found, Option.some_or]

theorem length_outerJoin (rows extra : List Valuation) :
    (outerJoin rows extra).length = rows.length * max 1 extra.length := by
  cases extra with
  | nil => simp [outerJoin]
  | cons first rest =>
    have more : max 1 (first :: rest).length = (first :: rest).length := by simp
    rw [more]
    simp [outerJoin, List.length_flatMap]

theorem extends_outerJoin {rows extra : List Valuation} (kept : ∀ row ∈ rows, row.Extends base)
    (added : ∀ row ∈ extra, row.Extends base) : ∀ row ∈ outerJoin rows extra, row.Extends base := by
  unfold outerJoin
  split
  · exact kept
  · intro joined member
    obtain ⟨row, _, member⟩ := List.mem_flatMap.mp member
    obtain ⟨more, second, same⟩ := List.mem_map.mp member
    exact same ▸ (added more second).merge row

/-- A main row contributes a row for each choice of one row from every clause that has some. -/
theorem length_outerRows (base : Valuation) (extras : List (List Valuation)) :
    (outerRows base extras).length = (extras.map fun extra => max 1 extra.length).prod := by
  have step : ∀ rows : List Valuation, (extras.foldl outerJoin rows).length =
      rows.length * (extras.map fun extra => max 1 extra.length).prod := by
    induction extras with
    | nil => simp
    | cons extra extras ih =>
      intro rows
      rw [List.foldl_cons, ih, length_outerJoin, List.map_cons, List.prod_cons, Nat.mul_assoc]
  rw [outerRows, step, List.length_singleton, Nat.one_mul]

theorem extends_outerRows {extras : List (List Valuation)}
    (added : ∀ extra ∈ extras, ∀ row ∈ extra, row.Extends base) :
    ∀ row ∈ outerRows base extras, row.Extends base := by
  have step : ∀ rows : List Valuation, (∀ row ∈ rows, row.Extends base) →
      ∀ row ∈ extras.foldl outerJoin rows, row.Extends base := by
    induction extras with
    | nil => exact fun _ kept => kept
    | cons extra extras ih =>
      rw [List.forall_mem_cons] at added
      intro rows kept
      exact ih added.2 _ (extends_outerJoin kept added.1)
  apply step
  intro row single
  rw [List.mem_singleton.mp single]
  exact fun _ _ found => found

end Valuation

section

variable {leaf row own whole : Binding}

theorem Binding.Seeded.get?_merge (seeded : leaf.Seeded own whole) (kept : row.Extends leaf) :
    (row.merge own).get? = Valuation.merge row.get? whole.get? := by
  funext v
  rw [Binding.get?_merge, Valuation.merge, seeded.values]
  cases inherited : leaf.get? v with
  | none => rw [Option.or_none]
  | some term => rw [kept v term inherited, Option.or_assoc, Option.some_or]

theorem Binding.Seeded.extends_merge (seeded : leaf.Seeded own whole) (kept : row.Extends leaf) :
    (row.merge own).Extends leaf := by
  intro v term found
  rw [seeded.get?_merge kept, Valuation.merge, seeded.get?_of_leaf found, Option.some_or]

/-- A row of the leaf with the valuation that it stands for. -/
def Carries (leaf row : Binding) (valuation : Valuation) : Prop :=
  row.get? = valuation ∧ row.Extends leaf

/-- A row that a clause adds with the valuation of the clause that is matched on its own. -/
def Adds (leaf own : Binding) (valuation : Valuation) : Prop :=
  ∃ whole, leaf.Seeded own whole ∧ whole.get? = valuation

theorem forall₂_leftJoin {rows owns : List Binding} {valuations extra : List Valuation}
    (carries : List.Forall₂ (Carries leaf) rows valuations)
    (adds : List.Forall₂ (Adds leaf) owns extra) :
    List.Forall₂ (Carries leaf) (leftJoin rows owns) (Valuation.outerJoin valuations extra) := by
  have empty : owns.isEmpty = extra.isEmpty := by
    cases adds <;> rfl
  rw [leftJoin, Valuation.outerJoin, empty]
  split
  · exact carries
  · apply forall₂_flatMap carries
    rintro row valuation ⟨same, kept⟩
    rw [List.forall₂_map_left_iff, List.forall₂_map_right_iff]
    refine adds.imp ?_
    rintro own valuation' ⟨whole, seeded, same'⟩
    exact ⟨same ▸ same' ▸ seeded.get?_merge kept, seeded.extends_merge kept⟩

theorem get?_leaf_rows {owns : List (List Binding)} {extras : List (List Valuation)}
    (adds : List.Forall₂ (List.Forall₂ (Adds leaf)) owns extras) :
    (owns.foldl leftJoin [leaf]).map Binding.get? = Valuation.outerRows leaf.get? extras := by
  have start : List.Forall₂ (Carries leaf) [leaf] [leaf.get?] :=
    .cons ⟨rfl, .refl leaf⟩ .nil
  have side := List.rel_foldl (P := List.Forall₂ (Carries leaf))
    (R := List.Forall₂ (Adds leaf)) (fun _ _ carries _ _ adds => forall₂_leftJoin carries adds)
    start adds
  have same := map_eq_map_of_forall₂ (g := id) side fun row valuation carries => carries.1
  rw [same, List.map_id, Valuation.outerRows]

end

theorem forall₂_clause_rows (graph : Graph) (engine : Engine) (leaf : Binding) {clause : Pattern}
    (extensional : ∀ constraint ∈ clause.constraints, constraint.Extensional graph.matching) :
    List.Forall₂ (Adds leaf)
      (Tree.rowsOf (Tree.clauseTree engine.store.toSource graph.matching leaf clause))
      ((Tree.rowsOf (engine.branchRoot graph.matching [] leaf.bound clause)).map
        Binding.get?) := by
  rw [Tree.clauseTree, Matcher.rowsOf_grow, Engine.rowsOf_branchRoot_nil,
    List.forall₂_map_right_iff]
  refine (Matcher.forall₂_seeded_rows graph engine.store.toSource extensional clause.statements
    (Binding.seeded_start leaf clause)).imp ?_
  exact fun own whole seeded => ⟨whole, seeded, rfl⟩

theorem extends_clause_rows (graph : Graph) (engine : Engine) (leaf : Binding) {clause : Pattern}
    (extensional : ∀ constraint ∈ clause.constraints, constraint.Extensional graph.matching) :
    ∀ row ∈ (Tree.rowsOf (engine.branchRoot graph.matching [] leaf.bound clause)).map Binding.get?,
      Valuation.Extends row leaf.get? := by
  refine forall_mem_of_forall₂ (forall₂_clause_rows graph engine leaf extensional) ?_
  rintro own valuation ⟨whole, seeded, same⟩ v term inherited
  exact same ▸ seeded.get?_of_leaf inherited

/-- A solution of the main pattern joined with the solutions of each clause, where `found` has the
    query of a clause that is started with a solution. -/
def joinedRows (found : Binding → Pattern → Query) (clauses : List Pattern) (solution : Binding) :
    List Valuation :=
  Valuation.outerRows solution.get?
    (clauses.map fun clause => (found solution clause).solutions.map Binding.get?)

/-- The query with the optional clauses is the left outer join of the query without them and the
    queries of the clauses, each matched as a main pattern that starts with a solution. -/
structure Engine.LeftJoins (engine : Engine) (main : Pattern) (clauses : List Pattern)
    (initial : List (Variable × Term)) (base joined : Query)
    (found : Binding → Pattern → Query) : Prop where
  base_built : (engine.build [main] [] initial).Yields base
  joined_built : (engine.build [main] clauses initial).Yields joined
  found_built : ∀ solution ∈ base.solutions, ∀ clause ∈ clauses,
    (engine.build [clause] [] solution.bound).Yields (found solution clause)
  rows : joined.solutions.map Binding.get? = base.solutions.flatMap (joinedRows found clauses)
  contributes : ∀ solution ∈ base.solutions, (joinedRows found clauses solution).length =
    (clauses.map fun clause => max 1 (found solution clause).solutions.length).prod
  keeps : ∀ solution ∈ base.solutions, ∀ row ∈ joinedRows found clauses solution,
    row.Extends solution.get?

/-- Optional clauses are left outer joins, in the order in which the rows are found. -/
theorem optionals_leftJoin (name : String) (graph : Graph) (watched : Bool) (config : Config)
    {main : Pattern} {clauses : List Pattern} (stated : main.isEmpty = false)
    (filled : ∀ clause ∈ clauses, clause.isEmpty = false)
    (scope : main.checkScope clauses = .ok ()) (decides : main.Decides graph.matching)
    (decide : ∀ clause ∈ clauses, clause.Decides graph.matching)
    (extensional : ∀ clause ∈ clauses, ∀ constraint ∈ clause.constraints,
      constraint.Extensional graph.matching) (initial : List (Variable × Term)) :
    ∃ base joined found, (Engine.mk (.ofGraph name graph watched) config).LeftJoins main clauses
      initial base joined found := by
  let engine : Engine := ⟨.ofGraph name graph watched, config⟩
  have steady : engine.store.Answers graph.matching := answers_ofGraph name graph watched
  let found := fun (solution : Binding) (clause : Pattern) =>
    Query.tree (engine.branchRoot graph.matching [] solution.bound clause) engine.store
      engine.config.nulls
  refine ⟨_, _, found,
    Engine.yields_build steady stated (Engine.checkScope_nil main) decides
      (List.forall_mem_nil _) initial,
    Engine.yields_build steady stated scope decides decide initial, ?_, ?_, ?_, ?_⟩
  · intro solution _ clause member
    exact Engine.yields_build steady (filled clause member) (Engine.checkScope_nil clause)
      (decide clause member) (List.forall_mem_nil _) solution.bound
  · change (Tree.rowsOf (engine.branchRoot graph.matching clauses initial main)).map _ =
      (Tree.rowsOf (engine.branchRoot graph.matching [] initial main)).flatMap _
    rw [Engine.rowsOf_branchRoot, Engine.rowsOf_branchRoot_nil, List.map_flatMap]
    apply List.flatMap_congr
    intro leaf _
    apply get?_leaf_rows
    rw [List.forall₂_map_left_iff, List.forall₂_map_right_iff, List.forall₂_same]
    exact fun clause member => forall₂_clause_rows graph engine leaf (extensional clause member)
  · intro solution _
    rw [joinedRows, Valuation.length_outerRows, List.map_map]
    simp only [Function.comp_def, List.length_map]
  · intro solution _
    apply Valuation.extends_outerRows
    intro extra member
    obtain ⟨clause, listed, same⟩ := List.mem_map.mp member
    exact same ▸ extends_clause_rows graph engine solution (extensional clause listed)

/-- A row and two clauses at its end: one with a constraint on what the store holds, which also sees
    the start of the row, and one whose variables are all inherited. -/
theorem links_leftJoin :
    let link := Sample.link
    let linked := Sample.linked
    ∃ base joined found, (Engine.mk (.ofGraph "memory"
        (.ofList [link "a" "b", link "b" "a", link "b" "c", link "b" "b"]) true) {}).LeftJoins
      (.ofStatements [{ linked "x" "y" with filter := some (.component .object Term.isIri) }])
      [(Pattern.ofStatements [linked "y" "z"]).constrain
          [.answered (linked "z" "x").toTriplePattern true],
        .ofStatements [linked "y" "y"]]
      [(⟨"x"⟩, .iri "a")] base joined found := by
  intro link linked
  refine optionals_leftJoin _ _ _ _ rfl (by decide) rfl ⟨?_, List.forall_mem_nil _⟩ ?_ ?_ _
  · refine List.forall_mem_singleton.mpr ?_
    intro filter chosen triple
    cases chosen
    exact ⟨_, rfl⟩
  · refine List.forall_mem_cons.mpr ⟨⟨?_, ?_⟩, List.forall_mem_singleton.mpr ⟨?_, ?_⟩⟩
    · exact List.forall_mem_singleton.mpr (Statement.decides_of_unfiltered rfl)
    · exact List.forall_mem_singleton.mpr (Constraint.decides_answered _ true _)
    · exact List.forall_mem_singleton.mpr (Statement.decides_of_unfiltered rfl)
    · exact List.forall_mem_nil _
  · refine List.forall_mem_cons.mpr ⟨?_, List.forall_mem_singleton.mpr (List.forall_mem_nil _)⟩
    exact List.forall_mem_singleton.mpr (Constraint.extensional_answered _ true _)

end TripleJoin
