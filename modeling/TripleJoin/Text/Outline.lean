import TripleJoin.Text.Quoted
/-!
Outlines of values: constructors with their arguments or named fields, lists, tuples, quoted texts
and truth values, all on one line.
-/
namespace TripleJoin.Text

inductive Outline where
  /-- Named fields; `more` says that some are left out. -/
  | record (name : String) (fields : List (String × Outline)) (more : Bool)
  | variant (name : String) (arguments : List Outline)
  | list (items : List Outline)
  | tuple (items : List Outline)
  | text (content : String)
  | flag (value : Bool)

namespace Outline

def ofOption : Option Outline → Outline
  | none => variant "None" []
  | some outline => variant "Some" [outline]

/-- A value of which only the type is shown. -/
def hidden (name : String) : Outline := record name [] true

mutual

def render : Outline → String
  | record name fields more =>
    name ++ " \x7b " ++
      String.intercalate ", " (renderFields fields ++ if more then [".."] else []) ++ " \x7d"
  | variant name arguments =>
    if arguments.isEmpty then name
    else name ++ "(" ++ String.intercalate ", " (renderAll arguments) ++ ")"
  | list items => "[" ++ String.intercalate ", " (renderAll items) ++ "]"
  | tuple items => "(" ++ String.intercalate ", " (renderAll items) ++ ")"
  | text content => quoted content
  | flag value => if value then "true" else "false"

def renderAll : List Outline → List String
  | [] => []
  | outline :: outlines => render outline :: renderAll outlines

def renderFields : List (String × Outline) → List String
  | [] => []
  | (name, outline) :: fields => (name ++ ": " ++ render outline) :: renderFields fields

end

end Outline

end TripleJoin.Text
