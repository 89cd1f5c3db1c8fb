import TripleJoin.Proofs.Tree.Expansion
/-!
What attaching clauses does to a tree, for a source that may answer anything. Bound leaves gain the
trees of the clauses that match there, and all else stays as it is.
-/
namespace TripleJoin

/-- All filters and constraints of the pattern are of these kinds. -/
structure Pattern.Uses (pattern : Pattern) (filters : Filter → Prop)
    (constraints : Constraint → Prop) : Prop where
  filters : ∀ statement ∈ pattern.statements, ∀ filter ∈ statement.filter, filters filter
  constraints : ∀ constraint ∈ pattern.constraints, constraints constraint

theorem Pattern.uses_any (pattern : Pattern) :
    pattern.Uses (fun _ => True) (fun _ => True) :=
  ⟨fun _ _ _ _ => trivial, fun _ _ => trivial⟩

theorem Pattern.Uses.substitute {pattern : Pattern} {filters : Filter → Prop}
    {constraints : Constraint → Prop} (uses : pattern.Uses filters constraints)
    (binding : Binding) : (pattern.substitute binding).Uses filters constraints :=
  ⟨List.forall_mem_map.mpr uses.filters, uses.constraints⟩

namespace Tree

/-- Expands a clause at a leaf, with the values of the leaf in place. -/
def expandClause (source : Source) (leaf : Binding) (clause : Pattern) :
    Run QueryError (Option Tree) :=
  let grounded := clause.substitute leaf
  (Matcher.mk source grounded.constraints (some leaf)).expand (.unbound grounded.unbounds)
    grounded.statements

/-- Expanding the clause at a leaf, with the values of the leaf in place, has come to this. -/
def ClauseGives (source : Source) (leaf : Binding) (clause : Pattern) (found : Option Tree) : Prop :=
  let grounded := clause.substitute leaf
  ∃ journal, (((Matcher.mk source grounded.constraints (some leaf)).expand
    (.unbound grounded.unbounds) grounded.statements).run.run journal).1 = .ok found

/-- The second tree is the first one, with trees of the clauses added at its bound leaves: behind the
    trees that are there, in the order of the clauses, one for each clause that does not clash. -/
inductive Gains (source : Source) (clauses : List Pattern) : Tree → Tree → Prop where
  | inner (binding : Binding) (matched : Option Triple) {children next : List Tree}
      (each : List.Forall₂ (Gains source clauses) children next) :
      Gains source clauses (.inner binding matched children) (.inner binding matched next)
  | unbound {binding : Binding} (partly : binding.isComplete = false) (matched : Option Triple)
      (optionals : List Tree) :
      Gains source clauses (.leaf binding matched optionals) (.leaf binding matched optionals)
  | bound {binding : Binding} (complete : binding.isComplete = true) (matched : Option Triple)
      (optionals : List Tree) {found : List (Option Tree)}
      (each : List.Forall₂ (ClauseGives source binding) clauses found) :
      Gains source clauses (.leaf binding matched optionals)
        (.leaf binding matched (optionals ++ found.filterMap id))

/-- What is reported of a clause at a leaf. -/
def clauseEvent (index : Nat) : Option Tree → Nat → Event
  | some _, nodes => .optionalAttached index nodes
  | none, _ => .optionalUnmatched index

theorem matchClause_eq (source : Source) (leaf : Binding) (index : Nat) (clause : Pattern) :
    matchClause source leaf index clause =
      (expandClause source leaf clause).reporting (clauseEvent index) := by
  refine bind_congr fun before => bind_congr fun found => ?_
  cases found <;> rfl

variable {source other : Source} {filters : Filter → Prop} {constraints : Constraint → Prop}
  {clauses : List Pattern}

theorem matching_matchClause {clause : Pattern} (uses : clause.Uses filters constraints)
    (leaf : Binding) (index : Nat) :
    Matching source other filters constraints (matchClause source leaf index clause)
      (matchClause other leaf index clause) (ClauseGives source leaf clause) := by
  have grounded := uses.substitute leaf
  rw [matchClause_eq, matchClause_eq]
  refine .reporting (fun found nodes => by cases found <;> exact nofun) ?_
  refine .ensuring (Matcher.matching_expandFrom grounded.constraints grounded.filters _ none) ?_
  exact fun journal found ends _ => ⟨journal, ends⟩

theorem matching_matchClauses (uses : ∀ clause ∈ clauses, clause.Uses filters constraints)
    (leaf : Binding) (index : Nat) :
    Matching source other filters constraints (matchClauses source leaf index clauses)
      (matchClauses other leaf index clauses) fun trees => ∃ found,
        List.Forall₂ (ClauseGives source leaf) clauses found ∧ trees = found.filterMap id := by
  induction clauses generalizing index with
  | nil => exact .done ⟨[], .nil, rfl⟩
  | cons clause clauses ih =>
    rw [List.forall_mem_cons] at uses
    refine .bind (matching_matchClause uses.1 leaf index) fun tree => ?_
    refine .bind (ih uses.2 (index + 1)) fun trees => .done ?_
    rintro ⟨found, each, rfl⟩ gives
    refine ⟨tree :: found, .cons gives each, ?_⟩
    cases tree <;> rfl

mutual

theorem matching_attach (uses : ∀ clause ∈ clauses, clause.Uses filters constraints) :
    ∀ tree : Tree, Matching source other filters constraints (tree.attach source clauses)
      (tree.attach other clauses) (Gains source clauses tree)
  | inner binding matched children =>
    .bind (matching_attachAll uses children) fun _ => .done fun each => .inner binding matched each
  | leaf binding matched optionals => by
    rw [attach, attach]
    split
    · rename_i complete
      refine .bind (matching_matchClauses uses binding 0) fun trees => .done ?_
      rintro ⟨found, each, rfl⟩
      exact .bound complete matched optionals each
    · rename_i partly
      exact .done (.unbound (Bool.eq_false_iff.mpr partly) matched optionals)

theorem matching_attachAll (uses : ∀ clause ∈ clauses, clause.Uses filters constraints) :
    ∀ trees : List Tree, Matching source other filters constraints (attachAll source clauses trees)
      (attachAll other clauses trees) (List.Forall₂ (Gains source clauses) trees)
  | [] => .done .nil
  | tree :: trees =>
    .bind (matching_attach uses tree) fun _ => .bind (matching_attachAll uses trees) fun _ =>
      .done fun later here => .cons here later

end

theorem matching_attach_any (source : Source) (clauses : List Pattern) (tree : Tree) :
    Matching source source (fun _ => True) (fun _ => True) (tree.attach source clauses)
      (tree.attach source clauses) (Gains source clauses tree) :=
  matching_attach (fun clause _ => clause.uses_any) tree

theorem ensures_attach (source : Source) (clauses : List Pattern) (tree : Tree) :
    (tree.attach source clauses).Ensures (Gains source clauses tree) :=
  (tree.matching_attach_any source clauses).ensures

end Tree

end TripleJoin
