import TripleJoin.Proofs.Matcher.Ways
/-!
The order of the statements of a pattern. It decides which requests are made and in which order the
keys of a binding stand, and so what matching costs; but the solutions are the same up to order, and
the evidence has the same triples. What constraints and clauses see of a leaf are the values alone.
-/
namespace TripleJoin

namespace Binding

/-- Bindings that differ at most in the order of their keys. -/
structure Alike (a b : Binding) : Prop where
  values : ∀ v, a.get? v = b.get? v
  keys : ∀ v, v ∈ a.keys ↔ v ∈ b.keys

theorem Alike.refl (a : Binding) : a.Alike a := ⟨fun _ => rfl, fun _ => .rfl⟩

theorem get?_empty (v : Variable) : empty.get? v = none := rfl

variable {a b : Binding}

theorem alike_iff_seeded : a.Alike b ↔ empty.Seeded a b := by
  constructor
  · rintro ⟨values, keys⟩
    refine ⟨fun v => ?_, fun _ _ => rfl, fun v => ?_⟩
    · rw [get?_empty, Option.or_none, values]
    · simp [get?_empty, keys v]
  · intro seeded
    refine ⟨fun v => (seeded.get?_of_free rfl).symm, fun v => ?_⟩
    simp [seeded.keys v, get?_empty]

theorem Alike.triple (alike : a.Alike b) (pattern : TriplePattern) (triple : Triple) :
    Option.Rel Alike (a.extended pattern triple) (b.extended pattern triple) := by
  have related := (alike_iff_seeded.mp alike).triple pattern triple
  rw [TriplePattern.substitute_of_free fun v _ => get?_empty v] at related
  exact rel_imp related fun _ _ _ _ seeded => alike_iff_seeded.mpr seeded

theorem Alike.isComplete_eq (alike : a.Alike b) : a.isComplete = b.isComplete :=
  (alike_iff_seeded.mp alike).isComplete_eq

theorem Alike.put (alike : a.Alike b) (v : Variable) (term : Term) :
    (a.put v term).Alike (b.put v term) := by
  constructor
  · intro w
    rw [get?_put, get?_put, alike.values w]
  · intro w
    have key : ∀ binding : Binding, (binding.put v term).keys = addNew binding.keys v :=
      fun binding => keys_put binding v term
    rw [key, key, mem_addNew, mem_addNew, alike.keys w]

theorem alike_withValues {keys keys' : List Variable} (same : ∀ v, v ∈ keys ↔ v ∈ keys')
    (initial : List (Variable × Term)) :
    (withValues keys initial).Alike (withValues keys' initial) := by
  have step : ∀ {a b : Binding}, a.Alike b →
      (initial.foldl (fun binding pair => binding.put pair.1 pair.2) a).Alike
        (initial.foldl (fun binding pair => binding.put pair.1 pair.2) b) := by
    induction initial with
    | nil => exact fun alike => alike
    | cons pair initial ih => exact fun alike => ih (alike.put pair.1 pair.2)
  apply step
  constructor
  · intro v
    rw [get?_unbound, get?_unbound]
  · intro v
    simp [keys_unbound, same v]

end Binding

namespace Matcher

variable {answers : Request → List Triple} {a b : Binding}

/-- Alike bindings are matched in the same ways. -/
theorem forall₂_alike_ways (matcher : Matcher) (own : matcher.inherited = none)
    (extensional : ∀ constraint ∈ matcher.constraints, constraint.Extensional answers)
    (statements : List Statement) (alike : a.Alike b) :
    List.Forall₂ (fun way way' => way.triples = way'.triples ∧ way.binding.Alike way'.binding)
      (matcher.ways answers statements a) (matcher.ways answers statements b) := by
  induction statements generalizing a b with
  | nil =>
    have admits : matcher.admitsLeaf answers a = matcher.admitsLeaf answers b := by
      apply admitsLeaf_congr rfl extensional
      simpa only [view, own] using alike.values
    rw [ways, ways, alike.isComplete_eq, admits]
    split
    · exact .cons ⟨rfl, alike⟩ .nil
    · exact .nil
  | cons head rest ih =>
    have statement : head.substitute a = head.substitute b := by
      simp only [Statement.substitute, TriplePattern.substitute_congr alike.values]
    rw [ways, ways, statement]
    refine forall₂_flatMap (R := (· = ·)) (List.forall₂_refl _) ?_
    rintro candidate _ rfl
    have children : Option.Rel Binding.Alike
        (childOf (head.substitute b) a candidate) (childOf (head.substitute b) b candidate) := by
      unfold childOf
      split
      · exact alike.triple _ candidate
      · exact .none
    apply forall₂_flatMap (forall₂_toList children)
    intro next next' alike'
    rw [List.forall₂_map_left_iff, List.forall₂_map_right_iff]
    refine (ih alike').imp ?_
    rintro way way' ⟨triples, ends⟩
    exact ⟨congrArg (List.cons candidate) triples, ends⟩

end Matcher

namespace Tree

/-- At leaves with the same values a clause has the same tree. -/
theorem clauseTree_congr {source : Source} {answers : Request → List Triple} {leaf leaf' : Binding}
    {clause : Pattern} (values : ∀ v, leaf.get? v = leaf'.get? v)
    (extensional : ∀ constraint ∈ clause.constraints, constraint.Extensional answers) :
    clauseTree source answers leaf clause = clauseTree source answers leaf' clause := by
  have grounded : clause.substitute leaf = clause.substitute leaf' := by
    simp only [Pattern.substitute, Statement.substitute, TriplePattern.substitute_congr values,
      Binding.isBound, values]
  rw [clauseTree, clauseTree, grounded]
  apply Matcher.grow_congr
  intro binding
  refine Matcher.admitsLeaf_congr rfl extensional fun v => ?_
  simp only [Matcher.view, Binding.get?_overlay, values]

end Tree

/-- Two patterns that differ in the order of their statements at most. -/
structure Pattern.Reordered (main other : Pattern) : Prop where
  built : main.Built
  other_built : other.Built
  statements : main.statements.Perm other.statements
  constraints : main.constraints = other.constraints

section

variable {main other : Pattern}

theorem Pattern.Reordered.mem_unbounds (reordered : main.Reordered other) (v : Variable) :
    v ∈ main.unbounds ↔ v ∈ other.unbounds := by
  rw [reordered.built.unbounds_eq, reordered.other_built.unbounds_eq, mem_variablesOf,
    mem_variablesOf]
  simp only [reordered.statements.mem_iff]

theorem Pattern.Reordered.wellScoped (reordered : main.Reordered other) {clauses : List Pattern}
    (scope : main.WellScoped clauses) : other.WellScoped clauses := by
  refine List.Pairwise.imp ?_ scope
  intro a b apart v here there
  exact (reordered.mem_unbounds v).mp (apart v here there)

end

namespace Engine

variable {engine : Engine} {graph : Graph} {main other : Pattern}
  {initial : List (Variable × Term)}

/-- What is read off the ways of a branch without regard to orders does not depend on the order of
    the statements, up to order. -/
theorem branchWays_flatMap_perm {γ : Type} (reordered : main.Reordered other)
    (extensional : ∀ constraint ∈ main.constraints, constraint.Extensional graph.matching)
    {f : Way → List γ}
    (same : ∀ a b : Way, a.triples.Perm b.triples → a.binding.Alike b.binding →
      (f a).Perm (f b)) :
    ((engine.branchWays graph.matching initial main).flatMap f).Perm
      ((engine.branchWays graph.matching initial other).flatMap f) := by
  rw [branchWays, branchWays, ← reordered.constraints]
  have statements := (Matcher.mk engine.store.toSource main.constraints none).ways_flatMap_perm
    graph reordered.statements (fun a b triples ends => same a b triples (ends ▸ .refl _))
    (.withValues main.unbounds initial)
  refine statements.trans ?_
  have keys := Matcher.forall₂_alike_ways ⟨engine.store.toSource, main.constraints, none⟩ rfl
    extensional other.statements (Binding.alike_withValues reordered.mem_unbounds initial)
  apply flatMap_perm_of_forall₂ keys
  rintro way way' ⟨triples, ends⟩
  exact same way way' (.of_eq triples) ends

theorem rows_reordered (reordered : main.Reordered other)
    (extensional : ∀ constraint ∈ main.constraints, constraint.Extensional graph.matching)
    {clauses : List Pattern} (clauses_extensional : ∀ clause ∈ clauses,
      ∀ constraint ∈ clause.constraints, constraint.Extensional graph.matching) :
    ((Tree.rowsOf (engine.branchRoot graph.matching clauses initial main)).map Binding.get?).Perm
      ((Tree.rowsOf (engine.branchRoot graph.matching clauses initial other)).map
        Binding.get?) := by
  rw [map_get?_branchRoot, map_get?_branchRoot, Matcher.rows_eq_ways, Matcher.rows_eq_ways,
    List.flatMap_map, List.flatMap_map]
  apply branchWays_flatMap_perm reordered extensional
  intro a b _ alike
  have values : a.binding.get? = b.binding.get? := funext alike.values
  refine .of_eq (congrArg₂ Valuation.outerRows values (List.map_congr_left ?_))
  intro clause member
  rw [Tree.clauseTree_congr alike.values (clauses_extensional clause member)]

theorem mem_evidence_reordered (reordered : main.Reordered other)
    (extensional : ∀ constraint ∈ main.constraints, constraint.Extensional graph.matching)
    (clauses : List Pattern) (triple : Triple) :
    triple ∈ (engine.branchQuery graph.matching clauses initial main).evidence.toList ↔
      triple ∈ (engine.branchQuery graph.matching clauses initial other).evidence.toList := by
  have perm : ((engine.branchWays graph.matching initial main).flatMap Way.triples).Perm
      ((engine.branchWays graph.matching initial other).flatMap Way.triples) :=
    branchWays_flatMap_perm reordered extensional fun _ _ triples _ => triples
  rw [toList_evidence, toList_evidence, mem_foldl_addNew, mem_foldl_addNew, perm.mem_iff]

/-- Two queries whose patterns differ in the order of their statements at most. -/
structure SameUpToStatementOrder (engine : Engine) (main other : Pattern)
    (clauses : List Pattern) (initial : List (Variable × Term)) (query reordered : Query) :
    Prop where
  built : (engine.build [main] clauses initial).Yields query
  reordered_built : (engine.build [other] clauses initial).Yields reordered
  rows : (query.solutions.map Binding.get?).Perm (reordered.solutions.map Binding.get?)
  constructed : ∀ triple call call' journal journal',
    triple ∈ ((query.construct none call).run journal).1.toList ↔
      triple ∈ ((reordered.construct none call').run journal').1.toList

end Engine

/-- The order of the statements changes neither the solutions, up to order, nor the set of triples
    that the pattern matched. -/
theorem reordering_keeps_results (name : String) (graph : Graph) (watched : Bool) (config : Config)
    {main other : Pattern} (reordered : main.Reordered other) {clauses : List Pattern}
    (stated : main.isEmpty = false) (scope : main.checkScope clauses = .ok ())
    (decides : main.Decides graph.matching)
    (decide : ∀ clause ∈ clauses, clause.Decides graph.matching)
    (extensional : ∀ constraint ∈ main.constraints, constraint.Extensional graph.matching)
    (clauses_extensional : ∀ clause ∈ clauses, ∀ constraint ∈ clause.constraints,
      constraint.Extensional graph.matching) (initial : List (Variable × Term)) :
    ∃ query query', (Engine.mk (.ofGraph name graph watched) config).SameUpToStatementOrder
      main other clauses initial query query' := by
  let engine : Engine := ⟨.ofGraph name graph watched, config⟩
  have steady : engine.store.Answers graph.matching := answers_ofGraph name graph watched
  have stated' : other.isEmpty = false := by
    rw [Pattern.isEmpty, ← reordered.statements.isEmpty_eq]
    exact stated
  have scope' : other.checkScope clauses = .ok () :=
    Pattern.checkScope_eq_ok_iff_wellScoped.mpr
      (reordered.wellScoped (Pattern.checkScope_eq_ok_iff_wellScoped.mp scope))
  have decides' : other.Decides graph.matching :=
    ⟨fun statement member => decides.filters statement (reordered.statements.mem_iff.mpr member),
      reordered.constraints ▸ decides.constraints⟩
  refine ⟨_, _, Engine.yields_build steady stated scope decides decide initial,
    Engine.yields_build steady stated' scope' decides' decide initial,
    Engine.rows_reordered reordered extensional clauses_extensional, ?_⟩
  intro triple call call' journal journal'
  exact Engine.mem_evidence_reordered reordered extensional clauses triple

/-- The last statement of a cycle comes first; the first has a filter, and a constraint asks the store
    about the values of all. -/
theorem reordering_keeps_cycle :
    let link := Sample.link
    let linked := Sample.linked
    let first := { linked "x" "y" with filter := some (.component .object Term.isIri) }
    let closing := [Constraint.answered (linked "y" "x").toTriplePattern true]
    let main := (Pattern.ofStatements [first, linked "y" "z", linked "z" "x"]).constrain closing
    let other := ((Pattern.ofStatements [linked "y" "z"]).constrain closing).prepend
      [linked "z" "x", first]
    ∃ query reordered, (Engine.mk (.ofGraph "memory"
        (.ofList [link "a" "a", link "a" "b", link "b" "a", link "b" "c"]) true)
          {}).SameUpToStatementOrder main other [.ofStatements [linked "z" "u"]]
        [(⟨"w"⟩, .iri "a")] query reordered := by
  intro link linked first closing main other
  have perm : ([first, linked "y" "z"] ++ [linked "z" "x"]).Perm
      ([linked "z" "x"] ++ [first, linked "y" "z"]) := List.perm_append_comm
  have reordered : main.Reordered other :=
    ⟨(Pattern.built_ofStatements _).constrain closing,
      ((Pattern.built_ofStatements _).constrain closing).prepend _, perm, rfl⟩
  refine reordering_keeps_results _ _ _ _ reordered rfl rfl ⟨?_, ?_⟩ ?_ ?_ ?_ _
  · exact List.forall_mem_cons.mpr ⟨Statement.decides_of_predicate rfl, List.forall_mem_cons.mpr
      ⟨Statement.decides_of_unfiltered rfl,
        List.forall_mem_singleton.mpr (Statement.decides_of_unfiltered rfl)⟩⟩
  · exact List.forall_mem_singleton.mpr (Constraint.decides_answered _ true _)
  · exact List.forall_mem_singleton.mpr (Pattern.decides_of_plain _ (by decide) rfl)
  · exact List.forall_mem_singleton.mpr (Constraint.extensional_answered _ true _)
  · exact List.forall_mem_singleton.mpr (List.forall_mem_nil _)

end TripleJoin
