import TripleJoin.Proofs.Engine.Branches
import TripleJoin.Proofs.Graph.Extension
import TripleJoin.Proofs.Join.Inner
import TripleJoin.Query.Cluster
/-!
Unions of queries. However a union is nested, every way of reading it gives the same: what is read
from its parts is joined in their order, and all that is joined are lists and graphs, for which the
nesting does not matter. So a build is the union of its branches in whichever way they are grouped.
-/
namespace TripleJoin.Query

/-- Every way of reading gives the same for both queries: the same result, or the same error, and the
    same journal. -/
structure ReadsAlike (query other : Query) : Prop where
  solutions : query.solutions = other.solutions
  heading : query.heading = other.heading
  ask : query.ask = other.ask
  select : ∀ options, query.select options = other.select options
  construct : ∀ template call, query.construct template call = other.construct template call
  walk : ∀ sense selection, query.walk sense selection = other.walk sense selection
  cluster : ∀ selection, query.cluster selection = other.cluster selection
  describe : ∀ selection forward backward,
    query.describe selection forward backward = other.describe selection forward backward

/-- All that is ever read of a query. -/
theorem readsAlike_of {query other : Query} (solutions : query.solutions = other.solutions)
    (nulls : query.nulls = other.nulls) (evidence : query.evidence = other.evidence)
    (walk : ∀ sense selection, query.walk sense selection = other.walk sense selection) :
    query.ReadsAlike other where
  solutions := solutions
  heading := by rw [heading, heading, solutions]
  ask := by rw [ask, ask, solutions]
  select options := by simp only [select, solutions, nulls]
  construct template call := by simp only [construct, solutions, evidence]
  walk := walk
  cluster selection := by simp only [cluster, walk]
  describe selection forward backward := by
    cases forward <;> cases backward <;> simp only [describe, cluster, walk]

variable (a b c : Query)

theorem walk_union_assoc (sense : Walk.Sense) (selection : Selection) :
    ((a.union b).union c).walk sense selection = (a.union (b.union c)).walk sense selection := by
  simp only [walk, bind_assoc, pure_bind, Graph.union_assoc]

theorem readsAlike_union_assoc : ((a.union b).union c).ReadsAlike (a.union (b.union c)) :=
  readsAlike_of (List.append_assoc _ _ _) rfl (Graph.union_assoc _ _ _) (walk_union_assoc a b c)

/-- Unions may be grouped in any way, and a build is the union of the builds of its branches, so that
    its solutions are theirs one after the other. -/
theorem union_assoc_and_builds_fold :
    (∀ a b c : Query, ((a.union b).union c).ReadsAlike (a.union (b.union c))) ∧
      (∀ queries query, unionOf queries = some query →
        query.solutions = queries.flatMap Query.solutions) ∧
      ∀ (engine : Engine) (patterns optionals : List Pattern) (initial : List (Variable × Term)),
        engine.FoldsBranches patterns optionals initial :=
  ⟨readsAlike_union_assoc, fun _ _ => solutions_of_unionOf, Engine.foldsBranches⟩

/-- Two branches and a clause over a chain of two links: two solutions of the first branch, then one
    of the second. -/
theorem union_of_chain :
    let link := Sample.link
    let linked := Sample.linked
    let graph := Graph.ofList [link "a" "b", link "b" "c"]
    let engine : Engine := ⟨.ofGraph "memory" graph true, {}⟩
    let first := Pattern.ofStatements [linked "x" "y"]
    let second := Pattern.ofStatements [linked "x" "y", linked "y" "z"]
    let clauses := [Pattern.ofStatements [linked "y" "w"]]
    ∃ query a b, ((engine.build [first, second] clauses []).run.run Journal.empty).1 = .ok query ∧
      (engine.build [first] clauses []).Yields a ∧ (engine.build [second] clauses []).Yields b ∧
      query.solutions.length = 3 ∧ query.solutions = a.solutions ++ b.solutions ∧
      ((query.union a).union b).ReadsAlike (query.union (a.union b)) := by
  intro link linked graph engine first second clauses
  have steady : engine.store.Answers graph.matching := answers_ofGraph _ _ _
  have plain : ∀ pattern ∈ [first, second], pattern.Decides graph.matching :=
    List.forall_mem_cons.mpr ⟨Pattern.decides_of_plain _ (by decide) rfl,
      List.forall_mem_singleton.mpr (Pattern.decides_of_plain _ (by decide) rfl)⟩
  have plain' : ∀ clause ∈ clauses, clause.Decides graph.matching :=
    List.forall_mem_singleton.mpr (Pattern.decides_of_plain _ (by decide) rfl)
  obtain ⟨after, ran⟩ := Engine.yields_build_branches steady rfl plain plain' [] Journal.empty
  have success := congrArg Prod.fst ran
  obtain ⟨grouped, parts, folds⟩ := union_assoc_and_builds_fold
  obtain ⟨queries, each, joined⟩ :=
    ((folds engine [first, second] clauses []).alone _ steady Journal.empty _).mp success
  obtain ⟨a, _, here, others, rfl⟩ := List.forall₂_cons_left_iff.mp each
  obtain ⟨b, _, there, last, rfl⟩ := List.forall₂_cons_left_iff.mp others
  obtain rfl := List.forall₂_nil_left_iff.mp last
  have appended : [a, b].flatMap Query.solutions = a.solutions ++ b.solutions := by simp
  refine ⟨_, a, b, success, here, there, ?_, (parts _ _ joined).trans appended, grouped _ a b⟩
  simp only [Engine.joined, List.foldl_cons, List.foldl_nil, Query.solutions, Engine.branchQuery,
    Engine.branchRoot, graph, funext (Graph.matching_eq_filter _), Graph.toList_ofList]
  decide

end TripleJoin.Query
