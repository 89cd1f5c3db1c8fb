import TripleJoin.Proofs.Join.Inner
import TripleJoin.Proofs.Selection.Columns
import TripleJoin.Proofs.Sorting.Stability
/-!
Ordering by columns. A key compares the values that two solutions have for it, in its direction, and
places unbound values first or last whatever the direction; the next key decides where one ties. Where
the order of terms is transitive on the values of each key this is a total preorder of the solutions,
so ordering is one stable arrangement of them, and unbound values of the first key stand together.
-/
namespace TripleJoin

/-- No three of these terms, in any order, go around in a circle. -/
def Term.TransitiveOn (terms : List Term) : Prop :=
  ∀ a ∈ terms, ∀ b ∈ terms, ∀ c ∈ terms, a.compare b ≠ .gt → b.compare c ≠ .gt →
    a.compare c ≠ .gt

instance (terms : List Term) : Decidable (Term.TransitiveOn terms) :=
  inferInstanceAs (Decidable (∀ a ∈ terms, ∀ b ∈ terms, ∀ c ∈ terms, _ → _ → _))

/-- It takes a number for terms to go around in a circle. -/
theorem Term.transitiveOn_of_numberless {terms : List Term}
    (numberless : ∀ term ∈ terms, term.Numberless) : TransitiveOn terms := by
  intro a member b _ c _ first second turned
  obtain ⟨x, _, _, rfl, _, _, number, _, _, numeric, _⟩ := clash_of_turned first second turned
  have none := numberless _ member x rfl
  rw [numeric] at none
  cases none

namespace Direction

theorem compare_swap (direction : Direction) (a b : Term) :
    direction.compare a b = (direction.compare b a).swap := by
  have order : ∀ x y : Term, x.compare y = (y.compare x).swap := fun _ _ => Std.OrientedCmp.eq_swap
  cases direction with
  | ascending => exact order a b
  | descending => exact order b a

theorem isLE_trans {terms : List Term} (transitive : Term.TransitiveOn terms)
    (direction : Direction) {a b c : Term} (first : a ∈ terms) (second : b ∈ terms)
    (third : c ∈ terms) (le : (direction.compare a b).isLE) (le' : (direction.compare b c).isLE) :
    (direction.compare a c).isLE := by
  rw [Ordering.isLE_iff_ne_gt] at le le' ⊢
  cases direction with
  | ascending => exact transitive a first b second c third le le'
  | descending => exact transitive c third b second a first le' le

end Direction

namespace NullOrdering

variable {values : Term → Term → Ordering} {a b c : Option Term}

theorem compare_swap (nulls : NullOrdering) (swap : ∀ x y, values x y = (values y x).swap) :
    nulls.compare values a b = (nulls.compare values b a).swap := by
  cases a with
  | none => cases b <;> cases nulls <;> rfl
  | some x =>
    cases b with
    | none => cases nulls <;> rfl
    | some y => exact swap x y

theorem isLE_trans (nulls : NullOrdering)
    (trans : ∀ x ∈ a, ∀ y ∈ b, ∀ z ∈ c, (values x y).isLE → (values y z).isLE → (values x z).isLE)
    (le : (nulls.compare values a b).isLE) (le' : (nulls.compare values b c).isLE) :
    (nulls.compare values a c).isLE := by
  cases a with
  | none => cases b <;> cases c <;> cases nulls <;> simp_all [compare]
  | some x =>
    cases b with
    | none => cases c <;> cases nulls <;> simp_all [compare]
    | some y =>
      cases c with
      | none => cases nulls <;> simp_all [compare]
      | some z => exact trans x rfl y rfl z rfl le le'

/-- Whether a value comes before none is for the null ordering alone to decide. -/
theorem isSome_of_first (le : first.compare values a b ≠ .gt) (bound : a.isSome) : b.isSome := by
  cases b with
  | some y => rfl
  | none =>
    obtain ⟨x, rfl⟩ := Option.isSome_iff_exists.mp bound
    exact absurd rfl le

theorem isSome_of_last (le : last.compare values a b ≠ .gt) (bound : b.isSome) : a.isSome := by
  cases a with
  | some x => rfl
  | none =>
    obtain ⟨y, rfl⟩ := Option.isSome_iff_exists.mp bound
    exact absurd rfl le

end NullOrdering

namespace Solution

/-- The terms that the solutions have for a variable. -/
def column (solutions : List Binding) (v : Variable) : List Term :=
  solutions.filterMap fun solution => solution.get? v

theorem mem_column {solutions : List Binding} {solution : Binding} (member : solution ∈ solutions)
    {v : Variable} {term : Term} (found : term ∈ solution.get? v) : term ∈ column solutions v :=
  List.mem_filterMap.mpr ⟨solution, member, found⟩

/-- Among solutions on whose values for each key the order of terms is transitive, the comparison by
    keys is a total preorder. -/
theorem consistent_compareBy {solutions : List Binding} (nulls : NullOrdering)
    {keys : List (Variable × Direction)}
    (transitive : ∀ key ∈ keys, Term.TransitiveOn (column solutions key.1)) :
    Sorting.Consistent (compareBy nulls keys) solutions := by
  induction keys with
  | nil =>
    exact { eq_swap := rfl, isLE_trans := fun _ _ => rfl }
  | cons key keys ih =>
    obtain ⟨v, direction⟩ := key
    rw [List.forall_mem_cons] at transitive
    have rest : Std.TransCmp fun a b : { solution // solution ∈ solutions } =>
        compareBy nulls keys a.1 b.1 := ih transitive.2
    have first : Std.TransCmp fun a b : { solution // solution ∈ solutions } =>
        nulls.compare direction.compare (a.1.get? v) (b.1.get? v) :=
      { eq_swap := nulls.compare_swap direction.compare_swap
        isLE_trans := fun {a b c} => nulls.isLE_trans fun x x_found y y_found z z_found =>
          direction.isLE_trans transitive.1 (mem_column a.2 x_found) (mem_column b.2 y_found)
            (mem_column c.2 z_found) }
    exact inferInstanceAs (Std.TransCmp (compareLex
      (fun a b : { solution // solution ∈ solutions } =>
        nulls.compare direction.compare (a.1.get? v) (b.1.get? v)) _))

end Solution

/-- Directed columns are a valid ordering wherever the order of terms is transitive on their values. -/
theorem OrderBy.valid_of_transitive {nulls : NullOrdering} {solutions : List Binding}
    {keys : List Variable} {directions : List Direction} (named : keys ≠ [])
    (paired : directions.length = keys.length)
    (transitive : ∀ key ∈ keys, Term.TransitiveOn (Solution.column solutions key)) :
    (columns keys (some directions)).Valid nulls solutions where
  wellFormed := by
    refine ⟨named, ?_⟩
    rintro _ ⟨⟩
    exact paired
  accepted := by
    obtain ⟨first, rest, rfl⟩ := List.exists_cons_of_ne_nil named
    intro compare compared
    simp only [Solution.comparison, keyed, paired, if_true] at compared
    cases compared
    exact .inr (Solution.consistent_compareBy nulls fun key member =>
      transitive key.1 (List.of_mem_zip member).1)

theorem eq_filter_append_of_pairwise {α : Type} {p : α → Bool} {xs : List α}
    (pairs : xs.Pairwise fun a b => p a → p b) :
    xs = (xs.filter fun x => !p x) ++ xs.filter p := by
  induction xs with
  | nil => rfl
  | cons x xs ih =>
    rw [List.pairwise_cons] at pairs
    cases held : p x with
    | false =>
      rw [List.filter_cons_of_pos (by simp [held]), List.filter_cons_of_neg (by simp [held]),
        List.cons_append, ← ih pairs.2]
    | true =>
      have all : ∀ y ∈ xs, p y = true := fun y member => pairs.1 y member held
      have none : (x :: xs).filter (fun y => !p y) = [] := by
        rw [List.filter_eq_nil_iff]
        intro y member
        rcases List.mem_cons.mp member with rfl | later
        · simp [held]
        · simp [all y later]
      have every : (x :: xs).filter p = x :: xs :=
        List.filter_eq_self.mpr (List.forall_mem_cons.mpr ⟨held, all⟩)
      rw [none, every, List.nil_append]

/-- Unbound values of the variable stand together, at the start or at the end. -/
def NullOrdering.Places (nulls : NullOrdering) (v : Variable) (solutions : List Binding) : Prop :=
  let bound := solutions.filter fun solution => solution.isBound v
  let unbound := solutions.filter fun solution => !solution.isBound v
  match nulls with
  | first => solutions = unbound ++ bound
  | last => solutions = bound ++ unbound

theorem NullOrdering.places_of_ascending {nulls : NullOrdering} {v : Variable}
    {direction : Direction} {keys : List (Variable × Direction)} {solutions : List Binding}
    (ascends : solutions.Pairwise fun a b =>
      Solution.compareBy nulls ((v, direction) :: keys) a b ≠ .gt) :
    nulls.Places v solutions := by
  have heads : solutions.Pairwise fun a b =>
      nulls.compare direction.compare (a.get? v) (b.get? v) ≠ .gt :=
    ascends.imp fun {a b} le => Ordering.isLE_iff_ne_gt.mp
      (Ordering.isLE_left_of_isLE_then (Ordering.isLE_iff_ne_gt.mpr le))
  cases nulls with
  | first =>
    have pairs : solutions.Pairwise fun a b => a.isBound v → b.isBound v :=
      heads.imp isSome_of_first
    exact eq_filter_append_of_pairwise pairs
  | last =>
    have pairs : solutions.Pairwise fun a b => (!a.isBound v) → !b.isBound v :=
      heads.imp fun {a b} le free => by
        have bound := isSome_of_last le
        simp only [Binding.isBound] at free bound ⊢
        cases found : (b.get? v).isSome <;> simp_all
    have parted := eq_filter_append_of_pairwise pairs
    simp only [Bool.not_not] at parted
    exact parted

/-- Ordering by columns arranges the solutions, tagged with their places in match order: no earlier
    one compares greater than a later one, those that tie on all keys stay in match order, and those
    without a value for the first key stand together where the null ordering wants them. Columns that
    are not shown may be keys. -/
theorem Query.select_arranges_by_columns (query : Query) (columns : List Variable)
    (first : Variable) (keys : List Variable) {directions : List Direction}
    (paired : directions.length = (first :: keys).length)
    (transitive : ∀ key ∈ first :: keys,
      Term.TransitiveOn (Solution.column query.solutions key)) (offset : Nat) :
    ∃ tagged : List (Binding × Nat),
      Sorting.Arranges (Solution.compareBy query.nulls ((first :: keys).zip directions))
        query.solutions tagged ∧
      query.nulls.Places first (tagged.map Prod.fst) ∧
      (query.select
        { selection := .columns columns
          distinct := false
          offset := offset
          orderBy := some (.columns (first :: keys) (some directions)) }).Yields
        ⟨columns, ((tagged.map Prod.fst).map fun solution => solution.project columns).drop
          offset⟩ := by
  have keyed : ∀ key ∈ (first :: keys).zip directions,
      Term.TransitiveOn (Solution.column query.solutions key.1) :=
    fun key member => transitive key.1 (List.of_mem_zip member).1
  obtain ⟨tagged, arranges, sorted⟩ :=
    (Solution.consistent_compareBy query.nulls keyed).exists_arranges
  refine ⟨tagged, arranges, ?_, ?_⟩
  · obtain ⟨direction, rest, rfl⟩ := List.exists_cons_of_length_eq_add_one paired
    exact NullOrdering.places_of_ascending (List.pairwise_map.mpr arranges.ascends)
  · apply Query.yields_select
    simp only [Solution.arrange, Solution.order, Solution.comparison, OrderBy.keyed, paired, if_true]
    rw [sorted]
    rfl

/-- Names by falling age, which is not shown: two tie and one has none. -/
theorem Query.select_arranges_by_age :
    let fact := fun (subject predicate : String) (object : Term) =>
      Triple.mk (.iri subject) (.iri predicate) object
    let asks := fun predicate object : String =>
      Pattern.ofStatements [.ofPattern ⟨.free ⟨"p"⟩, .fixed (.iri predicate), .free ⟨object⟩⟩]
    let graph := Graph.ofList [fact "b" "name" (.plain "Bob"), fact "d" "name" (.plain "Dave"),
      fact "a" "name" (.plain "Alice"), fact "c" "name" (.plain "Carol"),
      fact "a" "age" (.integer 30), fact "b" "age" (.integer 25), fact "c" "age" (.integer 30)]
    ∃ query tagged, ((Engine.mk (.ofGraph "memory" graph true) {}).build [asks "name" "n"]
        [asks "age" "a"] []).Yields query ∧
      Term.TransitiveOn (Solution.column query.solutions ⟨"a"⟩) ∧
      Sorting.Arranges (Solution.compareBy .last [(⟨"a"⟩, .descending)]) query.solutions tagged ∧
      NullOrdering.last.Places ⟨"a"⟩ (tagged.map Prod.fst) ∧
      ((tagged.map Prod.fst).map fun solution => solution.project [⟨"n"⟩]) =
        ["Alice", "Carol", "Bob", "Dave"].map fun name => .value (some (.plain name)) := by
  intro fact asks graph
  let engine : Engine := ⟨.ofGraph "memory" graph true, {}⟩
  have steady : engine.store.Answers graph.matching := answers_ofGraph _ _ _
  have decides : ∀ predicate object, (asks predicate object).Decides graph.matching :=
    fun _ _ => Pattern.decides_of_plain _ (List.forall_mem_singleton.mpr rfl) rfl
  have scope : (asks "name" "n").checkScope [asks "age" "a"] = .ok () := rfl
  have built := Engine.yields_build steady rfl scope (decides "name" "n")
    (List.forall_mem_singleton.mpr (decides "age" "a")) []
  generalize made : Query.tree _ _ _ = query at built
  have solutions : query.solutions = [
      Binding.withValues [⟨"p"⟩, ⟨"n"⟩, ⟨"a"⟩]
        [(⟨"p"⟩, .iri "b"), (⟨"n"⟩, .plain "Bob"), (⟨"a"⟩, .integer 25)],
      Binding.withValues [⟨"p"⟩, ⟨"n"⟩] [(⟨"p"⟩, .iri "d"), (⟨"n"⟩, .plain "Dave")],
      Binding.withValues [⟨"p"⟩, ⟨"n"⟩, ⟨"a"⟩]
        [(⟨"p"⟩, .iri "a"), (⟨"n"⟩, .plain "Alice"), (⟨"a"⟩, .integer 30)],
      Binding.withValues [⟨"p"⟩, ⟨"n"⟩, ⟨"a"⟩]
        [(⟨"p"⟩, .iri "c"), (⟨"n"⟩, .plain "Carol"), (⟨"a"⟩, .integer 30)]] := by
    rw [← made]
    simp only [Query.solutions, Engine.branchRoot, funext (Graph.matching_eq_filter _), graph,
      Graph.toList_ofList]
    decide
  have transitive : Term.TransitiveOn (Solution.column query.solutions ⟨"a"⟩) := by
    rw [solutions]
    decide
  have nulls : query.nulls = .last := by
    rw [← made]
    rfl
  have paired : [Direction.descending].length = [(⟨"a"⟩ : Variable)].length := rfl
  obtain ⟨tagged, arranges, places, selects⟩ := query.select_arranges_by_columns [⟨"n"⟩] ⟨"a"⟩ []
    paired (List.forall_mem_singleton.mpr transitive) 0
  rw [nulls] at arranges places
  refine ⟨query, tagged, built, transitive, arranges, places, ?_⟩
  have rows := congrArg Table.rows (selects.unique (yields_select rfl))
  simp only [List.drop_zero] at rows
  rw [rows, solutions, nulls]
  decide

end TripleJoin
