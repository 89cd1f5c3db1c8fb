import Std.Data.HashSet
import Std.Data.HashMap
/-!
First occurrences in a list, and lists that agree up to order.
-/
namespace TripleJoin

section

variable {α : Type} [BEq α] [Hashable α]

def distinctAfter (seen : Std.HashSet α) : List α → List α
  | [] => []
  | x :: xs => if seen.contains x then distinctAfter seen xs
    else x :: distinctAfter (seen.insert x) xs

/-- The list without repetitions, each element at its first place. -/
def distinct (xs : List α) : List α :=
  distinctAfter ∅ xs

/-- How often each element occurs. -/
def tally (xs : List α) : Std.HashMap α Nat :=
  xs.foldl (fun counts x => counts.alter x fun n => some (n.getD 0 + 1)) ∅

/-- Whether two lists hold the same elements equally often. -/
def sameTally (xs ys : List α) : Bool :=
  let counts := tally xs
  let others := tally ys
  xs.length == ys.length && xs.all fun x => counts.getD x 0 == others.getD x 0

end

end TripleJoin
