import Std.Data.HashMap
import TripleJoin.Event
/-!
The journal of a run: every request to a store, every call of a filter or a constraint and every
event, in order. An error ends a run and leaves what the journal holds.
-/
namespace TripleJoin

/-- One thing that happened. `watched` marks what a report shows. -/
inductive Entry where
  | request (store : String) (request : Request) (watched : Bool)
  | filter (triple : Triple) (watched : Bool)
  /-- The constraint at this place of its list was asked about this binding. -/
  | constraint (index : Nat) (binding : Binding) (watched : Bool)
  | event (event : Event)
  deriving DecidableEq

structure Journal where
  entries : Array Entry
  /-- How often each store, known by its name, was asked. -/
  asked : Std.HashMap String Nat
  /-- How many nodes expansion made, those that clashed included. -/
  nodes : Nat

/-- A computation that writes the journal and cannot fail. -/
abbrev Logged (α : Type) := StateM Journal α

/-- A computation that writes the journal and may end in an error. -/
abbrev Run (ε α : Type) := ExceptT ε (StateM Journal) α

namespace Journal

def empty : Journal := ⟨#[], ∅, 0⟩

def callsTo (journal : Journal) (store : String) : Nat := journal.asked.getD store 0

def record (journal : Journal) (entry : Entry) : Journal :=
  { journal with entries := journal.entries.push entry }

/-- Records a request and counts it. -/
def recordRequest (journal : Journal) (store : String) (request : Request) (watched : Bool) :
    Journal :=
  { journal with
    entries := journal.entries.push (.request store request watched)
    asked := journal.asked.insert store (journal.callsTo store + 1) }

/-- Starts the list of entries anew; the counts go on. -/
def clear (journal : Journal) : Journal := { journal with entries := #[] }

end Journal

def note (entry : Entry) : Logged Unit :=
  modify fun journal => journal.record entry

def report (event : Event) : Logged Unit :=
  note (.event event)

/-- Counts one more node. -/
def countNode : Logged Unit :=
  modify fun journal => { journal with nodes := journal.nodes + 1 }

def nodesSoFar : Logged Nat :=
  return (← get).nodes

/-- A result that is known without a run. -/
def Run.ofExcept {ε α : Type} (result : Except ε α) : Run ε α :=
  ExceptT.mk (pure result)

end TripleJoin
