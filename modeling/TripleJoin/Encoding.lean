import TripleJoin.Triple
import TripleJoin.Variable
/-!
Terms, triples and variables as plain data, for exchange in a format such as JSON. Reading is more
generous than writing: a record may be given as the list of its fields, optional fields may be left
out, and fields that mean nothing are passed over.
-/
namespace TripleJoin

inductive Data where
  | null
  | flag (value : Bool)
  | number (mantissa : Int) (exponent : Int)
  | text (content : String)
  | list (items : List Data)
  /-- Named fields with distinct names. -/
  | record (fields : List (String × Data))
  deriving Inhabited

namespace Data

def text? : Data → Option String
  | text content => some content
  | _ => none

/-- A text or null. -/
def optionalText? : Data → Option (Option String)
  | null => some none
  | text content => some (some content)
  | _ => none

def ofOptionalText : Option String → Data
  | none => null
  | some content => text content

/-- The fields with these names, in this order; none stands for one that is left out. A list must
    have exactly one item for each field. -/
def fields? (names : List String) : Data → Option (List (Option Data))
  | list items => if items.length = names.length then some (items.map some) else none
  | record fields => some (names.map fun name => fields.lookup name)
  | _ => none

end Data

namespace Literal

def encode (literal : Literal) : Data :=
  .record [("lexical", .text literal.lexical), ("datatype", .ofOptionalText literal.datatype),
    ("language", .ofOptionalText literal.language)]

def decode? (data : Data) : Option Literal := do
  let [some lexical, datatype, language] ← data.fields? ["lexical", "datatype", "language"] | none
  return ⟨← lexical.text?, ← (datatype.getD .null).optionalText?,
    ← (language.getD .null).optionalText?⟩

end Literal

namespace Term

def encode : Term → Data
  | .iri text => .record [("Iri", .text text)]
  | .blank label => .record [("BlankNode", .text label)]
  | .literal value => .record [("Literal", value.encode)]

/-- Reads a record of one field, whose name tells the kind of term. -/
def decode? : Data → Option Term
  | .record [("Iri", data)] => data.text?.map Term.iri
  | .record [("BlankNode", data)] => data.text?.map Term.blank
  | .record [("Literal", data)] => (Literal.decode? data).map Term.literal
  | _ => none

end Term

namespace Triple

def encode (triple : Triple) : Data :=
  .record [("subject", triple.subject.encode), ("predicate", triple.predicate.encode),
    ("object", triple.object.encode)]

def decode? (data : Data) : Option Triple := do
  let [some subject, some predicate, some object] ←
    data.fields? ["subject", "predicate", "object"] | none
  return ⟨← Term.decode? subject, ← Term.decode? predicate, ← Term.decode? object⟩

end Triple

namespace Variable

def encode (v : Variable) : Data := .record [("name", .text v.name)]

def decode? (data : Data) : Option Variable := do
  let [some name] ← data.fields? ["name"] | none
  return ⟨← name.text?⟩

end Variable

end TripleJoin
