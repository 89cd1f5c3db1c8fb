import TripleJoin.Selection
import TripleJoin.Number.Decimal
/-!
The settings of an engine, and how they are read from named texts such as environment variables.
-/
namespace TripleJoin

structure Config where
  /-- Where unbound values stand when rows are ordered by columns. -/
  nulls : NullOrdering := .last
  /-- An expansion of more nodes than this is reported; it is never cut short. -/
  warnNodes : Nat := 100000
  deriving DecidableEq

/-- A setting whose text has no meaning. -/
structure ConfigError where
  name : String
  complaint : String
  deriving DecidableEq

def ConfigError.message (error : ConfigError) : String :=
  "invalid value for " ++ error.name ++ ": " ++ error.complaint

namespace NullOrdering

def name : NullOrdering → String
  | first => "first"
  | last => "last"

/-- Reads a name in any case, with blanks around it. -/
def parse? (text : String) : Option NullOrdering :=
  let word := String.ofList ((Text.trim text.toList).map Char.toLower)
  if word = first.name then some first
  else if word = last.name then some last
  else none

end NullOrdering

namespace Config

def nullsName : String := "TRIPLEQUERY_NULL_ORDERING"

def warnNodesName : String := "TRIPLEQUERY_EXPANSION_WARN_NODES"

def readNulls (text : String) : Except ConfigError NullOrdering :=
  match NullOrdering.parse? text with
  | some nulls => .ok nulls
  | none => .error ⟨nullsName, "'" ++ text ++ "' is not one of 'first', 'last'"⟩

/-- Reads a positive number of at most 64 bits. -/
def readWarnNodes (text : String) : Except ConfigError Nat :=
  match Decimal.natural? (Text.trim text.toList) with
  | some n =>
    if 0 < n ∧ n < UInt64.size then .ok n
    else .error ⟨warnNodesName, "'" ++ text ++ "' is not a positive integer"⟩
  | none => .error ⟨warnNodesName, "'" ++ text ++ "' is not a positive integer"⟩

/-- Reads the settings that `lookup` finds; the others keep their defaults. -/
def read (lookup : String → Option String) : Except ConfigError Config := do
  let nulls ← match lookup nullsName with
    | none => pure ({} : Config).nulls
    | some text => readNulls text
  let warnNodes ← match lookup warnNodesName with
    | none => pure ({} : Config).warnNodes
    | some text => readWarnNodes text
  return ⟨nulls, warnNodes⟩

end Config

end TripleJoin
