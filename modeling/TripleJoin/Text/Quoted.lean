import TripleJoin.Text.Unseen
/-!
Quoted text: double quotes around, a backslash before a quote or a backslash, short names for the
common controls, and the hexadecimal number of every other character without a visible form.
-/
namespace TripleJoin.Text

def hexadecimal (n : Nat) : String :=
  String.ofList (Nat.toDigits 16 n)

def escaped (c : Char) : String :=
  if c = '\x00' then "\\0"
  else if c = '\t' then "\\t"
  else if c = '\n' then "\\n"
  else if c = '\r' then "\\r"
  else if c = '\"' then "\\\""
  else if c = '\\' then "\\\\"
  else if isUnseen c then "\\u\x7b" ++ hexadecimal c.toNat ++ "\x7d"
  else c.toString

def quoted (text : String) : String :=
  "\"" ++ String.join (text.toList.map escaped) ++ "\""

end TripleJoin.Text
