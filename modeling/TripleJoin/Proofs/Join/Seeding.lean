import TripleJoin.Proofs.Binding.Exchange
import TripleJoin.Proofs.Join.Inheritance
import TripleJoin.Proofs.Join.Inner
/-!
Values that are fixed beforehand. Demanding them first and matching the statements afterwards comes
to matching first and demanding at the end, for the two may change places; and a demand made of a
complete binding is a test. So fixing variables keeps the solutions that have these values, and adds
the variables that no statement has.
-/
namespace TripleJoin

namespace Binding

/-- The binding after each of these variables has taken its value; none if one has another value. -/
def demand : List (Variable × Term) → Binding → Option Binding
  | [], binding => some binding
  | (v, term) :: rest, binding => (binding.matchSlot (.free v) term).bind (demand rest)

/-- Each of the variables that has a value here has the same value in the binding. -/
def AgreesOn (binding : Binding) (names : List Variable) (values : List (Variable × Term)) :
    Prop :=
  ∀ pair ∈ values, pair.1 ∈ names → binding.get? pair.1 = some pair.2

instance (binding : Binding) (names : List Variable) (values : List (Variable × Term)) :
    Decidable (binding.AgreesOn names values) :=
  inferInstanceAs (Decidable (∀ pair ∈ values, pair.1 ∈ names → _))

theorem exchange_demand {f : Binding → Option Binding}
    (each : ∀ v term, Exchange f fun binding => binding.matchSlot (.free v) term)
    (values : List (Variable × Term)) : Exchange f (demand values) := by
  induction values with
  | nil =>
    intro binding
    simp [demand]
  | cons pair rest ih => exact (each pair.1 pair.2).bind ih

theorem agreesOn_cons {binding : Binding} {names : List Variable} {pair : Variable × Term}
    {rest : List (Variable × Term)} : binding.AgreesOn names (pair :: rest) ↔
      (pair.1 ∈ names → binding.get? pair.1 = some pair.2) ∧ binding.AgreesOn names rest :=
  List.forall_mem_cons

theorem demand_of_isComplete {binding : Binding} (complete : binding.isComplete = true)
    (values : List (Variable × Term)) :
    binding.demand values = if binding.AgreesOn binding.keys values then some binding else none := by
  induction values with
  | nil => exact (if_pos (List.forall_mem_nil _)).symm
  | cons pair rest ih =>
    obtain ⟨v, term⟩ := pair
    simp only [demand, matchSlot_free, agreesOn_cons]
    by_cases known : v ∈ binding.keys
    · obtain ⟨value, found⟩ := Option.isSome_iff_exists.mp ((isComplete_iff _).mp complete v known)
      by_cases same : value = term
      · subst same
        simp [found, set_of_get? found, ih]
      · simp [found, known, same]
    · simp [get?_eq_none_of_not_mem known, set_of_not_mem known, known, ih]

/-- Variables without a value take the values that are demanded. -/
theorem demand_of_free {values : List (Variable × Term)} (distinct : (values.map Prod.fst).Nodup)
    {binding : Binding} (free : ∀ v ∈ values.map Prod.fst, binding.get? v = none) :
    ∃ own, binding.demand values = some own ∧ own.keys = binding.keys ∧
      ∀ v, own.get? v = if v ∈ binding.keys then (values.lookup v).or (binding.get? v)
        else none := by
  induction values generalizing binding with
  | nil =>
    refine ⟨binding, rfl, rfl, fun v => ?_⟩
    split
    · rfl
    · rename_i absent
      exact get?_eq_none_of_not_mem absent
  | cons pair rest ih =>
    obtain ⟨w, term⟩ := pair
    rw [List.map_cons, List.nodup_cons] at distinct
    rw [List.map_cons, List.forall_mem_cons] at free
    have others : ∀ v ∈ rest.map Prod.fst, (binding.set w term).get? v = none := by
      intro v member
      rw [get?_set, if_neg fun both : v = w ∧ _ => distinct.1 (both.1 ▸ member)]
      exact free.2 v member
    obtain ⟨own, demanded, keys, values⟩ := ih distinct.2 others
    refine ⟨own, ?_, keys.trans (keys_set ..), fun v => ?_⟩
    · rw [demand, matchSlot_free, free.1]
      exact demanded
    · rw [values, keys_set, get?_set]
      by_cases here : v = w
      · subst here
        by_cases known : v ∈ binding.keys <;>
          simp [known, lookup_eq_none_of_not_mem distinct.1]
      · rw [if_neg fun both : v = w ∧ _ => here both.1, lookup_cons_ne here]

/-- A binding that starts with some values is the one of which they are demanded, seeded with the
    values of all other variables. -/
theorem seeded_demand {values : List (Variable × Term)} (distinct : (values.map Prod.fst).Nodup)
    (names : List Variable) : ∃ own, (unbound names).demand values = some own ∧
      (withValues [] (values.filter fun pair => pair.1 ∉ names)).Seeded own
        (withValues names values) := by
  have free : ∀ v ∈ values.map Prod.fst, (unbound names).get? v = none :=
    fun v _ => get?_unbound v names
  obtain ⟨own, demanded, keys, found⟩ := demand_of_free distinct free
  have mine : ∀ v, v ∈ own.keys ↔ v ∈ names := by
    intro v
    rw [keys, keys_unbound, mem_foldl_addNew]
    exact or_iff_right List.not_mem_nil
  have left : ∀ v, (withValues [] (values.filter fun pair => pair.1 ∉ names)).get? v =
      if v ∈ names then none else values.lookup v := by
    intro v
    have apart := lookup_filter_keys (fun v => decide (v ∉ names)) values v
    have unique : ((values.filter fun pair => pair.1 ∉ names).map Prod.fst).Nodup :=
      distinct.sublist (List.filter_sublist.map _)
    rw [get?_withValues v [] unique, apart]
    by_cases known : v ∈ names <;> simp [known]
  refine ⟨own, demanded, ?_, ?_, ?_⟩
  · intro v
    rw [get?_withValues v names distinct, found, ← keys, left, get?_unbound]
    by_cases known : v ∈ names <;> simp [known, mine v]
  · intro v member
    rw [left, if_pos ((mine v).mp member)]
  · intro v
    rw [keys_withValues, mem_foldl_addNew, mem_foldl_addNew, mine, left, ← lookup_isSome_iff_mem]
    by_cases known : v ∈ names <;> simp [known]

end Binding

namespace Matcher

theorem rows_matching (matcher : Matcher) (graph : Graph) (head : Statement)
    (rest : List Statement) (binding : Binding) :
    matcher.rows graph.matching (head :: rest) binding = graph.toList.flatMap fun triple =>
      (head.take? triple binding).toList.flatMap (matcher.rows graph.matching rest) := by
  rw [rows, extensions_matching, List.filterMap_eq_flatMap_toList, List.flatMap_assoc]
  rfl

theorem exchange_demand (head : Statement) (triple : Triple) (values : List (Variable × Term)) :
    Binding.Exchange (head.take? triple) (Binding.demand values) := by
  apply Binding.exchange_demand
  intro v term
  exact ((Binding.exchange_extended_slot _ triple (.free v) term).symm.guard _).symm

theorem toList_flatMap_comm {α β γ : Type} (x : Option α) (ys : List β) (f : α → β → List γ) :
    x.toList.flatMap (fun a => ys.flatMap (f a)) =
      ys.flatMap fun b => x.toList.flatMap fun a => f a b := by
  cases x <;> simp

theorem toList_bind_flatMap {α β γ : Type} (x : Option α) (f : α → Option β) (g : β → List γ) :
    (x.bind f).toList.flatMap g = x.toList.flatMap fun a => (f a).toList.flatMap g := by
  cases x <;> simp

/-- Values demanded first and values demanded of the rows come to the same. -/
theorem rows_demand {matcher : Matcher} (graph : Graph) (values : List (Variable × Term))
    (unconstrained : matcher.constraints = []) {statements : List Statement} {binding : Binding}
    (awaits : binding.Awaits statements) :
    (binding.demand values).toList.flatMap (matcher.rows graph.matching statements) =
      (matcher.rows graph.matching statements binding).filterMap (Binding.demand values) := by
  rw [List.filterMap_eq_flatMap_toList]
  induction statements generalizing binding with
  | nil =>
    have leaf : ∀ row : Binding, row.isComplete = true →
        matcher.rows graph.matching [] row = [row] := by
      intro row complete
      rw [rows, complete, admitsLeaf, unconstrained]
      rfl
    have complete := awaits.isComplete
    rw [leaf binding complete, List.flatMap_singleton, Binding.demand_of_isComplete complete]
    split
    · exact (List.flatMap_singleton ..).trans (leaf binding complete)
    · rfl
  | cons head rest ih =>
    have each := funext (matcher.rows_matching graph head rest)
    simp only [each, List.flatMap_assoc]
    rw [toList_flatMap_comm]
    apply List.flatMap_congr
    intro triple _
    -- the demand goes behind the match of the head, where the statements that remain take it on
    have turn := exchange_demand head triple values binding
    calc ((binding.demand values).toList.flatMap fun next =>
            (head.take? triple next).toList.flatMap (matcher.rows graph.matching rest))
        = ((binding.demand values).bind (head.take? triple)).toList.flatMap
            (matcher.rows graph.matching rest) := (toList_bind_flatMap ..).symm
      _ = ((head.take? triple binding).bind (Binding.demand values)).toList.flatMap
            (matcher.rows graph.matching rest) := by rw [turn]
      _ = (head.take? triple binding).toList.flatMap fun next =>
            (next.demand values).toList.flatMap (matcher.rows graph.matching rest) :=
          toList_bind_flatMap ..
      _ = (head.take? triple binding).toList.flatMap fun next =>
            (matcher.rows graph.matching rest next).flatMap fun row =>
              (row.demand values).toList := by
          apply List.flatMap_congr
          intro next taken
          exact ih (awaits.take? (Option.mem_toList.mp taken))

end Matcher

namespace Pattern

variable {pattern : Pattern} {matcher : Matcher} {initial : List (Variable × Term)}

theorem substitute_statements {leaf : Binding}
    (free : ∀ v ∈ variablesOf pattern.statements, leaf.get? v = none) :
    pattern.statements.map (fun statement => statement.substitute leaf) = pattern.statements := by
  refine (List.map_congr_left fun statement stated => ?_).trans (List.map_id _)
  have own : ∀ v ∈ statement.freeVariables, leaf.get? v = none :=
    fun v member => free v (mem_variablesOf.mpr ⟨statement, stated, member⟩)
  rw [Statement.substitute, TriplePattern.substitute_of_free own]
  rfl

theorem Built.rows_demand (built : pattern.Built) (graph : Graph)
    (unconstrained : matcher.constraints = []) {own : Binding}
    (demanded : (Binding.unbound pattern.unbounds).demand initial = some own) :
    matcher.rows graph.matching pattern.statements own =
      (matcher.rows graph.matching pattern.statements (.withValues pattern.unbounds [])).filter
        fun row => row.AgreesOn (variablesOf pattern.statements) initial := by
  have awaits : (Binding.unbound pattern.unbounds).Awaits pattern.statements :=
    built.awaits []
  have turn := Matcher.rows_demand graph initial unconstrained awaits
  rw [demanded, Option.toList_some, List.flatMap_singleton] at turn
  rw [turn, ← List.filterMap_eq_filter]
  apply List.filterMap_congr
  intro row member
  have keys : row.keys = variablesOf pattern.statements := by
    rw [matcher.keys_of_mem_rows _ member, Binding.keys_unbound, built.unbounds_eq]
    exact foldl_addNew_of_nodup (variablesOf_nodup _)
  rw [Binding.demand_of_isComplete (matcher.complete_of_mem_rows _ member), keys]
  simp [Option.guard]

/-- A pattern that starts with some values has the rows that it has without them, as far as they have
    these values, with the values of all other variables added. -/
theorem Built.rows_seeded (built : pattern.Built) (graph : Graph)
    (unconstrained : matcher.constraints = []) (distinct : (initial.map Prod.fst).Nodup) :
    (matcher.rows graph.matching pattern.statements (.withValues pattern.unbounds initial)).map
        Binding.get? =
      ((matcher.rows graph.matching pattern.statements (.withValues pattern.unbounds [])).filter
          fun row => row.AgreesOn (variablesOf pattern.statements) initial).map fun row v =>
        (row.get? v).or ((initial.filter fun pair =>
          pair.1 ∉ variablesOf pattern.statements).lookup v) := by
  obtain ⟨own, demanded, seeded⟩ := Binding.seeded_demand distinct pattern.unbounds
  rw [← built.rows_demand graph unconstrained demanded, ← built.unbounds_eq]
  let extra := initial.filter fun pair => pair.1 ∉ pattern.unbounds
  have unique : (extra.map Prod.fst).Nodup := distinct.sublist (List.filter_sublist.map _)
  have outside : ∀ v, (Binding.withValues [] extra).get? v = extra.lookup v :=
    fun v => Binding.get?_withValues v [] unique
  have rows := Matcher.forall₂_seeded_rows graph matcher.source (List.forall_mem_nil _)
    pattern.statements seeded
  rw [substitute_statements] at rows
  · have all : ∀ other : Matcher, other.constraints = [] → ∀ binding,
        other.rows graph.matching pattern.statements binding =
          matcher.rows graph.matching pattern.statements binding := by
      intro other none
      apply Matcher.rows_congr
      intro binding
      rw [Matcher.admitsLeaf, Matcher.admitsLeaf, none, unconstrained]
      rfl
    rw [all ⟨_, [], some _⟩ rfl, all ⟨_, [], none⟩ rfl] at rows
    refine (map_eq_map_of_forall₂ rows ?_).symm
    intro row whole related
    funext v
    rw [related.values, outside]
  · intro v member
    rw [outside]
    apply lookup_eq_none_of_not_mem
    simp [extra, built.unbounds_eq, member]

end Pattern

/-- Two queries of a pattern, one with some variables fixed beforehand: its solutions are those of the
    other with the same values for the variables of the pattern, with all other variables added. -/
structure Engine.SeedsByFilter (engine : Engine) (pattern : Pattern)
    (initial : List (Variable × Term)) (plain seeded : Query) : Prop where
  plain_built : (engine.build [pattern] [] []).Yields plain
  seeded_built : (engine.build [pattern] [] initial).Yields seeded
  rows : seeded.solutions.map Binding.get? =
    (plain.solutions.filter fun solution =>
        solution.AgreesOn (Pattern.variablesOf pattern.statements) initial).map
      fun solution v => (solution.get? v).or ((initial.filter fun pair =>
        pair.1 ∉ Pattern.variablesOf pattern.statements).lookup v)

/-- Fixing variables beforehand comes to choosing from the solutions afterwards, in the same order. -/
theorem seeded_eq_filtered (name : String) (graph : Graph) (watched : Bool) (config : Config)
    {pattern : Pattern} (built : pattern.Built) (stated : pattern.isEmpty = false)
    (filters : ∀ statement ∈ pattern.statements, statement.Decides)
    (unconstrained : pattern.constraints = []) {initial : List (Variable × Term)}
    (distinct : (initial.map Prod.fst).Nodup) :
    ∃ plain seeded, (Engine.mk (.ofGraph name graph watched) config).SeedsByFilter pattern initial
      plain seeded := by
  let engine : Engine := ⟨.ofGraph name graph watched, config⟩
  have steady : engine.store.Answers graph.matching := answers_ofGraph name graph watched
  have decides : pattern.Decides graph.matching :=
    ⟨filters, unconstrained ▸ List.forall_mem_nil _⟩
  have yields := Engine.yields_build steady stated (Engine.checkScope_nil pattern) decides
    (List.forall_mem_nil _)
  refine ⟨_, _, yields [], yields initial, ?_⟩
  change (Tree.rowsOf (engine.branchRoot graph.matching [] initial pattern)).map _ =
    ((Tree.rowsOf (engine.branchRoot graph.matching [] [] pattern)).filter _).map _
  rw [Engine.rowsOf_branchRoot_nil, Engine.rowsOf_branchRoot_nil]
  exact built.rows_seeded graph unconstrained distinct

/-- A fixed variable occurs twice in one statement and once in another, which has a filter; a second
    fixed variable is not in the pattern. -/
theorem seeded_eq_filtered_of_loop :
    let link := Sample.link
    let linked := Sample.linked
    ∃ plain seeded, (Engine.mk (.ofGraph "memory"
        (.ofList [link "a" "b", link "b" "b", link "c" "b", link "c" "c"]) true) {}).SeedsByFilter
      (.ofStatements [{ linked "x" "y" with filter := some (.before .subject (.iri "c")) },
        linked "y" "y"])
      [(⟨"y"⟩, .iri "b"), (⟨"z"⟩, .iri "c")] plain seeded := by
  intro link linked
  refine seeded_eq_filtered _ _ _ _ (Pattern.built_ofStatements _) rfl ?_ rfl (by decide)
  exact List.forall_mem_cons.mpr ⟨Statement.decides_of_predicate rfl,
    List.forall_mem_singleton.mpr (Statement.decides_of_unfiltered rfl)⟩

end TripleJoin
