import Mathlib.Logic.Relation
import TripleJoin.Proofs.Selection.Ordering
import TripleJoin.Proofs.Simulation.Generation
import TripleJoin.Simulation.Simulator
/-!
The simulation never accuses an engine that is right. The engine builds every generated query and
finds the rows of the nested loops, so that no run counts a failure or reports rows that differ. The
values in these rows are terms of the generated graph, which holds no number, and without numbers the
order of terms is total: every sort that a check asks for is accepted.
-/
namespace TripleJoin

theorem sameTally_self {α : Type} [BEq α] [Hashable α] (xs : List α) : sameTally xs xs = true := by
  simp [sameTally]

namespace Simulation

/-- None of the violations is that the rows are not those of the left outer join. -/
def Agree (violations : List Violation) : Prop :=
  ∀ violation ∈ violations, violation.description ≠ "rows differ from naive outer join"

theorem agree_nil : Agree [] := List.forall_mem_nil _

theorem Agree.append {first second : List Violation} (here : Agree first) (there : Agree second) :
    Agree (first ++ second) :=
  List.forall_mem_append.mpr ⟨here, there⟩

/-- Every query was built, and no rows were called wrong. -/
structure Summary.Acquits (summary : Summary) : Prop where
  built : summary.buildFailures = 0
  agree : Agree summary.violations

namespace Check

theorem agree_expect {description : String}
    (other : description ≠ "rows differ from naive outer join") (holds : Bool) (iteration : Nat)
    (context : String) : Agree (expect holds iteration description context) := by
  unfold expect Agree
  split <;> simp [other]

variable (query : Query) (iteration : Nat)

theorem agree_slicing (isDistinct : Bool) (offset limit : Nat) :
    Always (slicing query isDistinct offset limit iteration) Agree := by
  refine always_bind fun full => always_bind fun part => ?_
  split
  · apply always_pure
    exact (agree_expect (by decide) _ _ _).append (agree_expect (by decide) _ _ _)
  · exact always_pure (agree_expect (by decide) _ _ _)

theorem agree_ordering (key : Variable) : Always (ordering query key iteration) Agree := by
  refine always_bind fun plain => always_bind fun sorted => ?_
  split
  · exact always_pure (agree_expect (by decide) _ _ _)
  · exact always_pure (agree_expect (by decide) _ _ _)

theorem agree_repeatable : Always (repeatable query iteration) Agree := by
  refine always_bind fun first => always_bind fun second => always_bind fun graph =>
    always_bind fun again => always_pure ?_
  exact ((agree_expect (by decide) _ _ _).append (agree_expect (by decide) _ _ _)).append
    (agree_expect (by decide) _ _ _)

end Check

/-- The engine that a trial is given to. -/
def Trial.engine (trial : Trial) (config : Config) : Engine :=
  ⟨.ofGraph "simulated" trial.graph false, config⟩

/-- The loops find these very rows for the trial. -/
def Trial.Finds (trial : Trial) (query : Query) : Prop :=
  NestedLoop.outerJoin trial.graph.toList (Check.patternsOf trial.main)
    (trial.optionals.map Check.patternsOf) = query.solutions.map Assignment.ofBinding

theorem Trial.Plain.builds {trial : Trial} (plain : trial.Plain)
    (stated : 1 ≤ trial.main.statements.length)
    (scope : trial.main.checkScope trial.optionals = .ok ()) (config : Config) :
    ∃ query, ((trial.engine config).build [trial.main] trial.optionals []).Yields query ∧
      trial.Finds query := by
  have filled : trial.main.isEmpty = false := by
    rw [Pattern.isEmpty, List.isEmpty_eq_false_iff_exists_mem]
    exact List.exists_mem_of_length_pos stated
  refine ⟨_, Engine.yields_build (answers_ofGraph _ _ _) filled scope (plain.main.decides _)
    (fun clause member => (plain.optionals clause member).decides _) [], ?_⟩
  exact (trial.engine config).outerJoin_eq_rows trial.graph plain.main plain.optionals
    (Pattern.checkScope_eq_ok_iff_wellScoped.mp scope)

namespace Trial.Finds

variable {trial : Trial} {query : Query} (finds : trial.Finds query)

include finds

/-- The rows pass the check against the loops. -/
theorem outerJoin_eq_nil (iteration : Nat) :
    Check.outerJoin trial.graph trial.main trial.optionals query iteration = [] := by
  refine if_pos ?_
  rw [finds]
  exact sameTally_self _

theorem numberless (plain : trial.Plain) (v : Variable) :
    ∀ term ∈ Solution.column query.solutions v, term.Numberless := by
  intro term member
  obtain ⟨solution, listed, found⟩ := List.mem_filterMap.mp member
  have row := NestedLoop.all_outerJoin plain.numberless (Check.patternsOf trial.main)
    (trial.optionals.map Check.patternsOf) (Assignment.ofBinding solution)
    (finds ▸ List.mem_map_of_mem listed)
  rw [← Assignment.lookup_ofBinding,
    lookup_eq_some_iff_mem (Assignment.nodup_ofBinding solution)] at found
  exact row (v, term) found

/-- However many rows there are, they can be ordered by any variable. -/
theorem orders (plain : trial.Plain) (key : Variable) :
    (OrderBy.columns [key] none).Valid query.nulls query.solutions := by
  refine OrderBy.valid_singleton (.inr (Solution.consistent_compareBy query.nulls ?_))
  exact List.forall_mem_singleton.mpr (Term.transitiveOn_of_numberless (finds.numberless plain key))

end Trial.Finds

/-- Whatever the engine builds for the trial can be ordered by any variable. -/
def Trial.Orders (trial : Trial) (config : Config) : Prop :=
  ∀ query, ((trial.engine config).build [trial.main] trial.optionals []).Yields query →
    ∀ key, (OrderBy.columns [key] none).Valid query.nulls query.solutions

theorem Trial.Plain.orders {trial : Trial} (plain : trial.Plain)
    (stated : 1 ≤ trial.main.statements.length)
    (scope : trial.main.checkScope trial.optionals = .ok ()) (config : Config) :
    trial.Orders config := by
  intro query yields key
  obtain ⟨_, builds, finds⟩ := plain.builds stated scope config
  exact yields.unique builds ▸ finds.orders plain key

namespace Simulator

variable {σ : Type}

structure Clean (simulator : Simulator σ) : Prop where
  usable : simulator.shape.Usable
  agree : Agree simulator.violations

variable [RandomSource σ] {simulator : Simulator σ}

theorem agree_inspect {trial : Trial} {query : Query} (finds : trial.Finds query) (iteration : Nat)
    (choice : Nat × Nat × Bool) : Always (inspect trial query choice iteration) Agree := by
  refine (Check.agree_slicing query iteration _ _ _).bind fun sliced first => ?_
  -- The same checks follow whether or not there is a variable to order by.
  have rest : ∀ ordered, Agree ordered → Always (do
      let orderedByOptional ← Check.ordering query ⟨"opt0_0"⟩ iteration
      let repeated ← Check.repeatable query iteration
      return Check.outerJoin trial.graph trial.main trial.optionals query iteration ++ sliced ++
        ordered ++ orderedByOptional ++ repeated) Agree := by
    intro ordered second
    refine (Check.agree_ordering query iteration _).bind fun orderedByOptional third => ?_
    refine (Check.agree_repeatable query iteration).bind fun repeated fourth => always_pure ?_
    rw [finds.outerJoin_eq_nil, List.nil_append]
    exact ((first.append second).append third).append fourth
  dsimp only
  split
  · exact (always_pure agree_nil).bind rest
  · exact (Check.agree_ordering query iteration _).bind rest

theorem Clean.step (clean : simulator.Clean) (iteration : Nat) :
    Always (simulator.step iteration) fun result =>
      result.1.failed = false ∧ result.2.Clean := by
  have drawn := simulator.shape.always_trial clean.usable simulator.trials
  unfold Simulator.step
  generalize simulator.shape.trial.run simulator.trials = draw at drawn ⊢
  obtain ⟨trial, trials⟩ := draw
  obtain ⟨fits, plain⟩ := drawn
  obtain ⟨query, builds, finds⟩ := plain.builds fits.statements_pos fits.scope simulator.config
  refine builds.always.bind fun result yields => ?_
  subst yields
  dsimp only
  rcases choose.run simulator.choices with ⟨choice, choices⟩
  refine (agree_inspect finds iteration choice).bind fun violations new => always_pure ?_
  exact ⟨rfl, clean.usable, clean.agree.append new⟩

theorem Clean.steps (clean : simulator.Clean) (iteration n : Nat) :
    Always (simulator.steps iteration n) fun result =>
      (∀ finding ∈ result.1, finding.failed = false) ∧ result.2.Clean := by
  induction n generalizing simulator iteration with
  | zero => exact always_pure ⟨List.forall_mem_nil _, clean⟩
  | succ n ih =>
    refine (clean.step iteration).bind fun result first => ?_
    refine (ih first.2 (iteration + 1)).bind fun results rest => always_pure ?_
    exact ⟨List.forall_mem_cons.mpr ⟨first.1, rest.1⟩, rest.2⟩

theorem Clean.run (clean : simulator.Clean) (iterations : Nat) :
    Always (simulator.run iterations) fun result => result.1.Acquits ∧ result.2.Clean := by
  refine (clean.steps 0 iterations).bind fun result ran => ?_
  refine always_bind fun _ => always_pure ⟨⟨?_, ran.2.agree⟩, ran.2⟩
  rw [List.countP_eq_zero]
  intro finding member
  simp [ran.1 finding member]

/-- A simulator as a run leaves it. -/
def Runs (earlier later : Simulator σ) : Prop :=
  ∃ iterations journal, ((earlier.run iterations).run journal).1.2 = later

end Simulator

/-- Whatever the source, generated queries fit the shape and can be ordered as the checks order them,
    and no run of a simulator, the first or a further one, finds fault with how the engine builds or
    joins them. -/
theorem simulation_sound {σ : Type} [RandomSource σ] {shape : Shape} (usable : shape.Usable)
    (seed : UInt64) (config : Config) (trials choices : σ) :
    (∀ source : σ, (shape.trial.run source).1.Fits shape ∧
        (shape.trial.run source).1.Orders config) ∧
      ∀ simulator, Relation.ReflTransGen Simulator.Runs
          (Simulator.fresh seed shape config trials choices) simulator →
        ∀ iterations journal, ((simulator.run iterations).run journal).1.1.Acquits := by
  constructor
  · intro source
    obtain ⟨fits, plain⟩ := shape.always_trial usable source
    exact ⟨fits, plain.orders fits.statements_pos fits.scope config⟩
  · intro simulator reached iterations journal
    have clean : simulator.Clean := by
      induction reached with
      | refl => exact ⟨usable, agree_nil⟩
      | tail _ runs ih =>
        obtain ⟨iterations, journal, rfl⟩ := runs
        exact (ih.run iterations journal).2
    exact (clean.run iterations journal).1

/-- The default shape and the seeded stream, in a first run and in a second. -/
theorem simulation_sound_of_default :
    ({} : Shape).Usable ∧ (∀ source : Stream, (({} : Shape).trial.run source).1.Fits {} ∧
        (({} : Shape).trial.run source).1.Orders {}) ∧
      (((Simulator.start 2024 {} {}).run 100).run Journal.empty).1.1.Acquits ∧
      (((((Simulator.start 2024 {} {}).run 100).run Journal.empty).1.2.run 200).run
        Journal.empty).1.1.Acquits := by
  have usable : ({} : Shape).Usable := by constructor <;> decide
  have sound := simulation_sound usable 2024 {} (Stream.mk 2024) (Stream.mk (2024 + 1))
  have again : Relation.ReflTransGen Simulator.Runs (Simulator.start 2024 {} {})
      (((Simulator.start 2024 {} {}).run 100).run Journal.empty).1.2 :=
    .single ⟨100, Journal.empty, rfl⟩
  have first := sound.2 (Simulator.start 2024 {} {}) .refl 100 Journal.empty
  have second := sound.2 _ again 200 Journal.empty
  exact ⟨usable, sound.1, first, second⟩

end Simulation

end TripleJoin
