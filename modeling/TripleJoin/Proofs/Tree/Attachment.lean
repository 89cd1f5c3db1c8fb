import TripleJoin.Proofs.Query.Provenance
import TripleJoin.Proofs.Tree.Clauses
/-!
What attaching clauses leaves as it was. A tree only gains trees at its bound leaves, so the triples
that the main pattern matched are those from before. If nothing fails and the answers never change,
clauses may as well be attached in several goes.
-/
namespace TripleJoin

namespace Tree

section

open Run

variable {source : Source} {clauses : List Pattern}

mutual

/-- Optional trees are not looked at when the matched triples are collected. -/
theorem Gains.evidenceBelow_eq (path : List Triple) : ∀ {tree next : Tree},
    Gains source clauses tree next → evidenceBelow path next = evidenceBelow path tree
  | inner _ matched _, _, .inner _ _ each => by
    rw [evidenceBelow, evidenceBelow, evidenceBelowAll_eq (path ++ matched.toList) each]
  | leaf .., _, .unbound .. => rfl
  | leaf .., _, .bound .. => rfl

theorem evidenceBelowAll_eq (path : List Triple) : ∀ {trees others : List Tree},
    List.Forall₂ (Gains source clauses) trees others →
      evidenceBelowAll path others = evidenceBelowAll path trees
  | [], _, .nil => rfl
  | tree :: trees, _, .cons here later => by
    rw [evidenceBelowAll, evidenceBelowAll, here.evidenceBelow_eq path,
      evidenceBelowAll_eq path later]

end

mutual

theorem yields_attach_nil (source : Source) : ∀ tree : Tree, (tree.attach source []).Yields tree
  | inner binding matched children =>
    (yields_attachAll_nil source children).bind (yields_pure _)
  | leaf binding matched optionals => by
    rw [attach]
    split
    · rw [matchClauses, pure_bind, List.append_nil]
      exact yields_pure _
    · exact yields_pure _

theorem yields_attachAll_nil (source : Source) :
    ∀ trees : List Tree, (attachAll source [] trees).Yields trees
  | [] => yields_pure []
  | tree :: trees =>
    (yields_attach_nil source tree).bind
      ((yields_attachAll_nil source trees).bind (yields_pure _))

end

mutual

theorem dress_dress (first second : Binding → List Tree) : ∀ tree : Tree,
    (tree.dress first).dress second = tree.dress fun leaf => first leaf ++ second leaf
  | inner binding matched children => by
    rw [dress, dress, dress, dressAll_dressAll first second children]
  | leaf binding matched optionals => by
    simp only [dress]
    split
    · rename_i complete
      rw [dress, if_pos complete, List.append_assoc]
    · rename_i partly
      rw [dress, if_neg partly]

theorem dressAll_dressAll (first second : Binding → List Tree) : ∀ trees : List Tree,
    dressAll second (dressAll first trees) = dressAll (fun leaf => first leaf ++ second leaf) trees
  | [] => rfl
  | tree :: trees => by
    rw [dressAll, dressAll, dressAll, dress_dress first second tree,
      dressAll_dressAll first second trees]

end

end

end Tree

/-- The triples of a union are those of its parts, so parts with the same triples make unions with
    the same triples. -/
theorem Query.evidence_of_same {queries others : List Query} {query : Query}
    (joined : unionOf queries = some query)
    (same : queries.map evidence = others.map evidence) :
    ∃ other, unionOf others = some other ∧ other.evidence = query.evidence := by
  cases queries with
  | nil => cases joined
  | cons first queries =>
    cases joined
    cases others with
    | nil => cases same
    | cons first' others =>
      rw [List.map_cons, List.map_cons, List.cons.injEq] at same
      refine ⟨_, rfl, ?_⟩
      have each : ∀ queries : List Query, (queries.flatMap fun query => query.evidence.toList) =
          (queries.map evidence).flatMap Graph.toList := fun queries => by rw [List.flatMap_map]
      rw [evidence_foldl_union, evidence_foldl_union, each, each, same.1, same.2]

namespace Engine

variable {engine : Engine} {optionals : List Pattern} {initial : List (Variable × Term)}
  {journal : Journal} {query : Query}

theorem check_without_clauses {pattern : Pattern} (checked : check [pattern] optionals = .ok ()) :
    check [pattern] [] = .ok () := by
  have sound := (check_eq_ok_iff.mp checked).2 pattern (List.mem_singleton_self pattern)
  exact check_single (by simpa [Pattern.isEmpty] using sound.stated) (checkScope_nil pattern)

/-- Attaches the clauses to the tree of a branch, if there is one. -/
def attachRoot (engine : Engine) (optionals : List Pattern) :
    Option Tree → Run QueryError (Option Tree)
  | none => pure none
  | some tree => some <$> tree.attach engine.store.toSource optionals

/-- A branch is expanded, then its clauses are attached, then it is closed. -/
theorem buildBranch_eq (engine : Engine) (optionals : List Pattern)
    (initial : List (Variable × Term)) (branch : Nat) (pattern : Pattern) :
    engine.buildBranch optionals initial branch pattern = (do
      let before ← nodesSoFar
      let expanded ← (Matcher.mk engine.store.toSource pattern.constraints none).expand
        (.withValues pattern.unbounds initial) pattern.statements
      let now ← nodesSoFar
      let root ← engine.attachRoot optionals expanded
      engine.closeBranch branch (now - before) optionals.length root) := by
  refine bind_congr fun before => bind_congr fun expanded => bind_congr fun now => ?_
  cases expanded <;> rfl

theorem ensures_attachRoot (engine : Engine) (optionals : List Pattern) (root : Option Tree) :
    (engine.attachRoot optionals root).Ensures
      (Option.Rel (Tree.Gains engine.store.toSource optionals) root) := by
  cases root with
  | none => exact Run.ensures_pure .none
  | some tree =>
    apply Run.Ensures.map
    intro journal next ends
    exact .some (Tree.ensures_attach engine.store.toSource optionals tree journal next ends)

theorem yields_attachRoot_nil (engine : Engine) (root : Option Tree) :
    (engine.attachRoot [] root).Yields root := by
  cases root with
  | none => exact Run.yields_pure none
  | some tree => exact (Tree.yields_attach_nil engine.store.toSource tree).map some

theorem ok_of_closeBranch {branch explored clauses : Nat} {root : Option Tree}
    (ends : ((engine.closeBranch branch explored clauses root).run.run journal).1 = .ok query) :
    query = .tree root engine.store engine.config.nulls :=
  (yields_closeBranch branch explored clauses root).eq_of_ok ends

/-- A branch that is built with clauses is built without them too, from the same journal, and has
    matched the same triples. -/
theorem branch_without_clauses {pattern : Pattern}
    (built : ((engine.build [pattern] optionals initial).run.run journal).1 = .ok query) :
    ∃ plain, ((engine.build [pattern] [] initial).run.run journal).1 = .ok plain ∧
      plain.evidence = query.evidence := by
  have checked := check_of_build built
  rw [engine.build_single initial checked, buildBranch_eq] at built
  rw [engine.build_single initial (check_without_clauses checked), buildBranch_eq]
  obtain ⟨before, here, built⟩ := Run.bind_eq_ok built
  obtain ⟨expanded, grown, built⟩ := Run.bind_eq_ok built
  obtain ⟨now, there, built⟩ := Run.bind_eq_ok built
  obtain ⟨root, attached, built⟩ := Run.bind_eq_ok built
  have gains := engine.ensures_attachRoot optionals expanded _ root attached
  refine ⟨.tree expanded engine.store engine.config.nulls, ?_, ?_⟩
  · rw [Run.bind_of_ok here, Run.bind_of_ok grown, Run.bind_of_ok there]
    have closes : (engine.closeBranch 0 (now - before) 0 expanded).Yields _ :=
      yields_closeBranch 0 (now - before) 0 expanded
    obtain ⟨last, ends⟩ := (engine.yields_attachRoot_nil expanded).bind closes _
    exact congrArg Prod.fst ends
  · rw [ok_of_closeBranch built]
    cases gains with
    | none => rfl
    | some gained => exact congrArg Graph.ofList (gained.evidenceBelow_eq []).symm

/-- Over a store whose answers never change, any number of branches has matched the same triples with
    clauses and without them. -/
theorem build_without_clauses {answers : Request → List Triple}
    (steady : engine.store.Answers answers) {patterns : List Pattern}
    (built : ((engine.build patterns optionals initial).run.run journal).1 = .ok query) :
    ∃ plain, (engine.build patterns [] initial).Yields plain ∧ plain.evidence = query.evidence := by
  obtain ⟨queries, each, joined⟩ :=
    ((engine.foldsBranches patterns optionals initial).alone answers steady journal query).mp built
  have bare : ∃ others, List.Forall₂ (fun pattern branch =>
      (engine.build [pattern] [] initial).Yields branch) patterns others ∧
        queries.map Query.evidence = others.map Query.evidence := by
    clear built joined
    induction each with
    | nil => exact ⟨[], .nil, rfl⟩
    | @cons pattern branch patterns queries here _ ih =>
      obtain ⟨others, later, same⟩ := ih
      obtain ⟨last, ran⟩ := here Journal.empty
      obtain ⟨plain, ends, kept⟩ := branch_without_clauses (congrArg Prod.fst ran)
      obtain ⟨single, alone, only⟩ :=
        ((engine.foldsBranches [pattern] [] initial).alone answers steady _ plain).mp ends
      obtain ⟨other, _, yields, rest, rfl⟩ := List.forall₂_cons_left_iff.mp alone
      obtain rfl := List.forall₂_nil_left_iff.mp rest
      obtain rfl : other = plain := Option.some.inj only
      refine ⟨other :: others, .cons yields later, ?_⟩
      rw [List.map_cons, List.map_cons, kept, same]
  obtain ⟨others, yields, same⟩ := bare
  obtain ⟨plain, union, kept⟩ := Query.evidence_of_same joined same
  refine ⟨plain, fun start => ?_, kept⟩
  have ends := ((engine.foldsBranches patterns [] initial).alone answers steady start plain).mpr
    ⟨others, yields, union⟩
  exact ⟨_, Prod.ext ends rfl⟩

end Engine

/-- Clauses never change the main tree. They only add trees at its bound leaves, whatever the source
    answers, so that a graph constructed without a template is the same with them and without them;
    and as long as the store does not change and nothing fails, they may be added in two goes. -/
theorem clauses_leave_main_tree :
    (∀ (source : Source) (clauses : List Pattern) (tree next : Tree) (journal : Journal),
      ((tree.attach source clauses).run.run journal).1 = .ok next →
        tree.Gains source clauses next ∧ next.evidenceBelow [] = tree.evidenceBelow [] ∧
          next.evidence = tree.evidence) ∧
    (∀ (engine : Engine) (pattern : Pattern) (optionals : List Pattern)
        (initial : List (Variable × Term)) (journal : Journal) (query : Query),
      ((engine.build [pattern] optionals initial).run.run journal).1 = .ok query →
        ∃ plain, ((engine.build [pattern] [] initial).run.run journal).1 = .ok plain ∧
          ∀ call, plain.construct none call = query.construct none call) ∧
    (∀ (engine : Engine) (answers : Request → List Triple), engine.store.Answers answers →
      ∀ (patterns optionals : List Pattern) (initial : List (Variable × Term)) (journal : Journal)
        (query : Query), ((engine.build patterns optionals initial).run.run journal).1 = .ok query →
          ∃ plain, (engine.build patterns [] initial).Yields plain ∧
            ∀ call, plain.construct none call = query.construct none call) ∧
    ∀ (source : Source) (answers : Request → List Triple), source.Answers answers →
      ∀ first second : List Pattern, (∀ clause ∈ first ++ second, clause.Decides answers) →
        ∀ tree : Tree, ∃ middle next, (tree.attach source first).Yields middle ∧
          (middle.attach source second).Yields next ∧
            (tree.attach source (first ++ second)).Yields next := by
  refine ⟨?_, ?_, ?_, ?_⟩
  · intro source clauses tree next journal ends
    have gains := Tree.ensures_attach source clauses tree journal next ends
    have kept := gains.evidenceBelow_eq []
    exact ⟨gains, kept, congrArg Graph.ofList kept⟩
  · intro engine pattern optionals initial journal query built
    obtain ⟨plain, ends, kept⟩ := Engine.branch_without_clauses built
    exact ⟨plain, ends, fun call => by rw [Query.construct, kept, Query.construct]⟩
  · intro engine answers steady patterns optionals initial journal query built
    obtain ⟨plain, yields, kept⟩ := Engine.build_without_clauses steady built
    exact ⟨plain, yields, fun call => by rw [Query.construct, kept, Query.construct]⟩
  · intro source answers steady first second decide tree
    rw [List.forall_mem_append] at decide
    have goes := Tree.yields_attach steady decide.1 tree
    have goes' := Tree.yields_attach steady decide.2 (tree.dress fun leaf =>
      first.filterMap (Tree.clauseTree source answers leaf))
    have once := Tree.yields_attach steady (List.forall_mem_append.mpr decide) tree
    simp only [List.filterMap_append, ← Tree.dress_dress] at once
    exact ⟨_, _, goes, goes', once⟩

open Sample in
/-- At a leaf the first clause matches in two ways and the second one clashes. -/
theorem clauses_leave_leaf :
    let graph := Graph.ofList [link "a" "b", link "b" "c", link "b" "d"]
    let engine : Engine := ⟨.ofGraph "memory" graph true, {}⟩
    let main := Pattern.ofStatements [linked "x" "y"]
    let clause := Pattern.ofStatements [linked "y" "z"]
    let clash := Pattern.ofStatements [linked "w" "x"]
    let leaf := Tree.leaf (.withValues [] [(⟨"x"⟩, .iri "a"), (⟨"y"⟩, .iri "b")])
      (some (link "a" "b")) []
    ∃ next query plain,
      ((leaf.attach engine.store.toSource [clause, clash]).run.run Journal.empty).1 = .ok next ∧
      next.optionals.map Tree.nodeCount = [3] ∧ next.evidence = leaf.evidence ∧
      (leaf.attach engine.store.toSource ([clause] ++ [clash])).Yields next ∧
      ((engine.build [main] [clause, clash] []).run.run Journal.empty).1 = .ok query ∧
      (engine.build [main] [] []).Yields plain ∧
      ∀ call, plain.construct none call = query.construct none call := by
  intro graph engine main clause clash leaf
  have steady : engine.store.Answers graph.matching := answers_ofGraph _ _ _
  have decides : ∀ pattern ∈ [clause, clash], pattern.Decides graph.matching :=
    List.forall_mem_cons.mpr ⟨Pattern.decides_of_plain _ (by decide) rfl,
      List.forall_mem_singleton.mpr (Pattern.decides_of_plain _ (by decide) rfl)⟩
  have own : main.Decides graph.matching := Pattern.decides_of_plain _ (by decide) rfl
  obtain ⟨frame, _, build, goes⟩ := clauses_leave_main_tree
  obtain ⟨middle, next, _, _, once⟩ :=
    goes engine.store.toSource graph.matching steady [clause] [clash] decides leaf
  obtain ⟨last, ran⟩ := once Journal.empty
  have ends := congrArg Prod.fst ran
  obtain ⟨_, _, kept⟩ := frame _ _ _ _ _ ends
  obtain ⟨after, made⟩ := Engine.yields_build steady rfl rfl own decides [] Journal.empty
  have built := congrArg Prod.fst made
  obtain ⟨plain, yields, same⟩ := build engine graph.matching steady _ _ _ _ _ built
  refine ⟨next, _, plain, ends, ?_, kept, once, built, yields, same⟩
  rw [once.unique (Tree.yields_attach steady decides leaf)]
  simp only [graph, funext (Graph.matching_eq_filter _), Graph.toList_ofList]
  decide

end TripleJoin
