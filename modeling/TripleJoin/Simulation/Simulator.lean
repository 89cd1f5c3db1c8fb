import TripleJoin.Simulation.Check
import TripleJoin.Simulation.Generator
/-!
Simulation: random queries are built by the engine and held to every law. One seed determines the
whole course; the choices that the checks need come from a stream of their own, so that they do not
shift the queries.
-/
namespace TripleJoin.Simulation

structure Simulator (σ : Type := Stream) where
  seed : UInt64
  shape : Shape
  config : Config
  trials : σ
  choices : σ
  /-- All violations so far, over all runs. -/
  violations : List Violation

structure Summary where
  seed : UInt64
  queriesRun : Nat
  queriesMatched : Nat
  buildFailures : Nat
  violations : List Violation

def Summary.passed (summary : Summary) : Bool :=
  summary.buildFailures == 0 && summary.violations.isEmpty

/-- What one simulated query adds to a summary. -/
structure Finding where
  matched : Bool
  failed : Bool
  violations : List Violation

namespace Simulator

variable {σ : Type}

/-- A simulator that has not run yet. -/
def fresh (seed : UInt64) (shape : Shape) (config : Config) (trials choices : σ) : Simulator σ :=
  ⟨seed, shape, config, trials, choices, []⟩

def start (seed : UInt64) (shape : Shape) (config : Config) : Simulator :=
  fresh seed shape config ⟨seed⟩ ⟨seed + 1⟩

variable [RandomSource σ]

/-- What the check of slicing needs: an offset, a limit and whether rows are distinct. -/
def choose : Random σ (Nat × Nat × Bool) := do
  let offset ← Random.below 4
  let limit ← Random.below 6
  let isDistinct ← Random.chance (.ofRatio false 1 2)
  return (offset, limit, isDistinct)

/-- Checks a query that was built for a trial. -/
def inspect (trial : Trial) (query : Query) (choice : Nat × Nat × Bool) (iteration : Nat) :
    Logged (List Violation) := do
  let (offset, limit, isDistinct) := choice
  let joined := Check.outerJoin trial.graph trial.main trial.optionals query iteration
  let sliced ← Check.slicing query isDistinct offset limit iteration
  let ordered ← match trial.main.unbounds with
    | [] => pure []
    | key :: _ => Check.ordering query key iteration
  let orderedByOptional ← Check.ordering query ⟨"opt0_0"⟩ iteration
  let repeated ← Check.repeatable query iteration
  return joined ++ sliced ++ ordered ++ orderedByOptional ++ repeated

def step (simulator : Simulator σ) (iteration : Nat) : Logged (Finding × Simulator σ) := do
  let (trial, trials) := simulator.shape.trial.run simulator.trials
  let engine : Engine := ⟨.ofGraph "simulated" trial.graph false, simulator.config⟩
  match ← (engine.build [trial.main] trial.optionals []).run with
  | .error error =>
    let violations := Check.expect false iteration "generated query failed to build" error.message
    return (⟨false, true, violations⟩,
      { simulator with trials := trials, violations := simulator.violations ++ violations })
  | .ok query =>
    let (choice, choices) := choose.run simulator.choices
    let violations ← inspect trial query choice iteration
    return (⟨query.ask, false, violations⟩,
      { simulator with
        trials := trials
        choices := choices
        violations := simulator.violations ++ violations })

/-- The findings of a number of further queries. -/
def steps (simulator : Simulator σ) (iteration : Nat) : Nat → Logged (List Finding × Simulator σ)
  | 0 => pure ([], simulator)
  | n + 1 => do
    let (finding, simulator) ← simulator.step iteration
    let (findings, simulator) ← simulator.steps (iteration + 1) n
    return (finding :: findings, simulator)

/-- Simulates a number of further queries, counted from zero. -/
def run (simulator : Simulator σ) (iterations : Nat) : Logged (Summary × Simulator σ) := do
  let (findings, simulator) ← simulator.steps 0 iterations
  let summary : Summary :=
    { seed := simulator.seed
      queriesRun := iterations
      queriesMatched := findings.countP (·.matched)
      buildFailures := findings.countP (·.failed)
      violations := simulator.violations }
  report (.simulated simulator.seed.toNat iterations summary.queriesMatched
    summary.violations.length)
  return (summary, simulator)

end Simulator

end TripleJoin.Simulation
