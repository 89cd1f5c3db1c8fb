import TripleJoin.Error
import TripleJoin.Text.Blank
/-!
Reading variables and column selections from text, and the arguments of a selection.
-/
namespace TripleJoin

/-- Reads `?name` or `name`, with blanks around it. A name is not empty and has no blank and no
    further question mark. -/
def Variable.parse (text : String) : Except ConfigurationError Variable :=
  let trimmed := Text.trim text.toList
  let name := match trimmed with
    | '?' :: rest => rest
    | _ => trimmed
  if name.isEmpty || name.any (fun c => Text.isBlank c || c == '?') then
    .error (.invalidVariable text)
  else .ok ⟨String.ofList name⟩

/-- Which variables a selection shows. -/
inductive Selection where
  | all
  | columns (shown : List Variable)
  deriving DecidableEq

namespace Selection

/-- Reads variables between blanks. No text, or a star alone, selects everything. -/
def parse (text : String) : Except ConfigurationError Selection :=
  let trimmed := Text.trim text.toList
  if trimmed = [] ∨ trimmed = ['*'] then .ok .all
  else ((Text.words trimmed).mapM fun word => Variable.parse (String.ofList word)).map .columns

/-- An empty list selects everything. -/
def ofList (shown : List Variable) : Selection :=
  if shown.isEmpty then .all else .columns shown

end Selection

inductive Direction where
  | ascending
  | descending
  deriving DecidableEq

/-- Where unbound values stand among bound ones, whichever way the others are sorted. -/
inductive NullOrdering where
  | first
  | last
  deriving DecidableEq

/-- How solutions are ordered. Without directions every key ascends. -/
inductive OrderBy where
  | columns (keys : List Variable) (directions : Option (List Direction))
  | comparator (compare : Binding → Binding → Ordering)

namespace OrderBy

/-- The keys with their directions; none for a comparator. -/
def keyed : OrderBy → Except ConfigurationError (Option (List (Variable × Direction)))
  | comparator _ => .ok none
  | columns [] _ => .error .emptyOrder
  | columns keys none => .ok (some (keys.map (·, .ascending)))
  | columns keys (some directions) =>
    if directions.length = keys.length then .ok (some (keys.zip directions))
    else .error (.directionCount keys.length directions.length)

end OrderBy

structure SelectOptions where
  selection : Selection := .all
  distinct : Bool := true
  limit : Option Nat := none
  offset : Nat := 0
  orderBy : Option OrderBy := none

end TripleJoin
