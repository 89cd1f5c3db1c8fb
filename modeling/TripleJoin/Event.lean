import TripleJoin.TriplePattern
/-!
Events that evaluation reports, each with a level, a message and named details.
-/
namespace TripleJoin

inductive Level where
  | warn
  | debug
  | trace
  deriving DecidableEq

inductive Event where
  /-- The expansion of a branch made more nodes than the threshold. -/
  | largeExpansion (branch nodes threshold : Nat)
  | branchBuilt (branch explored kept optionals : Nat) (clashed : Bool)
  | selected (solutions rows : Nat)
  | constructed (triples : Nat)
  | clustered (seeds triples : Nat)
  /-- No candidate of a statement survived. -/
  | clash (pattern : TriplePattern)
  | constraintClash
  | optionalAttached (clause nodes : Nat)
  | optionalUnmatched (clause : Nat)
  | incomparable (left right : Term)
  | simulated (seed iterations matched violations : Nat)
  deriving DecidableEq

inductive Detail where
  | count (n : Nat)
  | flag (b : Bool)
  | text (s : String)

namespace Level

def name : Level → String
  | warn => "WARN"
  | debug => "DEBUG"
  | trace => "TRACE"

def verbosity : Level → Nat
  | warn => 0
  | debug => 1
  | trace => 2

/-- A report at some level shows the events of that level and of the less verbose ones. -/
def shows (limit level : Level) : Bool := level.verbosity ≤ limit.verbosity

end Level

namespace Event

def level : Event → Level
  | largeExpansion .. => .warn
  | branchBuilt .. | selected .. | constructed .. | clustered .. | simulated .. => .debug
  | clash .. | constraintClash | optionalAttached .. | optionalUnmatched .. | incomparable .. =>
    .trace

def message : Event → String
  | largeExpansion .. => "expansion tree is very large"
  | branchBuilt .. => "built query branch"
  | selected .. => "select finished"
  | constructed .. => "construct finished"
  | clustered .. => "cluster finished"
  | clash .. => "clash"
  | constraintClash => "clash on constraint"
  | optionalAttached .. => "attached optional clause"
  | optionalUnmatched .. => "optional clause did not match"
  | incomparable .. => "incomparable operands"
  | simulated .. => "simulation finished"

def details : Event → List (String × Detail)
  | largeExpansion branch nodes threshold =>
    [("branch", .count branch), ("nodes", .count nodes), ("threshold", .count threshold)]
  | branchBuilt branch explored kept optionals clashed =>
    [("branch", .count branch), ("explored", .count explored), ("kept", .count kept),
      ("optionals", .count optionals), ("clash", .flag clashed)]
  | selected solutions rows => [("solutions", .count solutions), ("rows", .count rows)]
  | constructed triples => [("triples", .count triples)]
  | clustered seeds triples => [("seeds", .count seeds), ("triples", .count triples)]
  | clash pattern => [("statement", .text pattern.text)]
  | constraintClash => []
  | optionalAttached clause nodes => [("clause", .count clause), ("nodes", .count nodes)]
  | optionalUnmatched clause => [("clause", .count clause)]
  | incomparable left right => [("left", .text left.text), ("right", .text right.text)]
  | simulated seed iterations matched violations =>
    [("seed", .count seed), ("iterations", .count iterations), ("queries_matched", .count matched),
      ("violations", .count violations)]

end Event

end TripleJoin
