/-!
Blank characters, and cutting text at them. The blanks are the 25 characters with the property
White_Space; core's `Char.isWhitespace` knows four of them.
-/
namespace TripleJoin.Text

def isBlank (c : Char) : Bool :=
  let n := c.toNat
  (0x09 ≤ n && n ≤ 0x0d) || n == 0x20 || n == 0x85 || n == 0xa0 || n == 0x1680 ||
    (0x2000 ≤ n && n ≤ 0x200a) || n == 0x2028 || n == 0x2029 || n == 0x202f || n == 0x205f ||
    n == 0x3000

theorem isBlank_of_isWhitespace (c : Char) (h : c.isWhitespace = true) : isBlank c = true := by
  simp only [Char.isWhitespace, Bool.or_eq_true, decide_eq_true_eq] at h
  rcases h with ((rfl | rfl) | rfl) | rfl <;> decide

/-- The text without the blanks at its two ends. -/
def trim (cs : List Char) : List Char :=
  ((cs.dropWhile isBlank).reverse.dropWhile isBlank).reverse

def consWord (word : List Char) (words : List (List Char)) : List (List Char) :=
  if word.isEmpty then words else word :: words

/-- The word that the text starts with, empty before a blank, and the words after it. -/
def cutWords : List Char → List Char × List (List Char)
  | [] => ([], [])
  | c :: cs =>
    let (word, words) := cutWords cs
    if isBlank c then ([], consWord word words) else (c :: word, words)

/-- The longest runs of characters that are not blank, in order. -/
def words (cs : List Char) : List (List Char) :=
  consWord (cutWords cs).1 (cutWords cs).2

end TripleJoin.Text
