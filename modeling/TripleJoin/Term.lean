import TripleJoin.Text.Quoted
/-!
The terms that statements are made of. Terms are equal only if written alike: `"1"` and `"01"` are
two literals, whatever their datatype.
-/
namespace TripleJoin

/-- A text with an optional datatype and an optional language tag. -/
structure Literal where
  lexical : String
  datatype : Option String
  language : Option String
  deriving DecidableEq, Hashable

inductive Term where
  | iri (text : String)
  | blank (label : String)
  | literal (value : Literal)
  deriving DecidableEq, Hashable

/-- The IRI of a datatype of XML Schema. -/
def xsd (name : String) : String :=
  "http://www.w3.org/2001/XMLSchema#" ++ name

namespace Literal

def plain (lexical : String) : Literal := ⟨lexical, none, none⟩

def typed (lexical datatype : String) : Literal := ⟨lexical, some datatype, none⟩

def tagged (lexical language : String) : Literal := ⟨lexical, none, some language⟩

/-- The quoted text, then the language tag or else the datatype. -/
def text (literal : Literal) : String :=
  let body := Text.quoted literal.lexical
  match literal.language, literal.datatype with
  | some language, _ => body ++ "@" ++ language
  | none, some datatype => body ++ "^^<" ++ datatype ++ ">"
  | none, none => body

end Literal

namespace Term

def plain (lexical : String) : Term := .literal (.plain lexical)

def integer (n : Int) : Term := .literal (.typed (toString n) (xsd "integer"))

/-- Only an IRI or a blank node may be the subject of a statement. -/
def isSubject : Term → Bool
  | .literal _ => false
  | _ => true

def isIri : Term → Bool
  | .iri _ => true
  | _ => false

def isBlank : Term → Bool
  | .blank _ => true
  | _ => false

def literal? : Term → Option Literal
  | .literal value => some value
  | _ => none

def isLiteral (term : Term) : Bool :=
  term.literal?.isSome

def text : Term → String
  | .iri text => "<" ++ text ++ ">"
  | .blank label => "_:" ++ label
  | .literal value => value.text

end Term

end TripleJoin
