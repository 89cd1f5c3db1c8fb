import TripleJoin.Number.Binary64
/-!
Random draws. A source is whatever numbers, fractions and outcomes can be drawn from. One source is the
stream of 64-bit words from a seed, by the splitmix recurrence, where each draw takes one word.
-/
namespace TripleJoin.Simulation

/-- Nothing is known of the draws but that a number lies below its bound. -/
class RandomSource (σ : Type) where
  below : Nat → σ → Nat × σ
  /-- A fraction from zero up to one. -/
  fraction : σ → Binary64 × σ
  /-- Whether something of this likelihood happens. -/
  chance : Binary64 → σ → Bool × σ
  below_lt : ∀ {count : Nat} (source : σ), 0 < count → (below count source).1 < count

/-- A computation that draws from a source. -/
abbrev Random (σ α : Type) := StateM σ α

structure Stream where
  state : UInt64
  deriving DecidableEq

namespace Stream

def mix (z : UInt64) : UInt64 :=
  let z := (z ^^^ (z >>> 30)) * 0xbf58476d1ce4e5b9
  let z := (z ^^^ (z >>> 27)) * 0x94d049bb133111eb
  z ^^^ (z >>> 31)

def next (stream : Stream) : UInt64 × Stream :=
  let state := stream.state + 0x9e3779b97f4a7c15
  (mix state, ⟨state⟩)

/-- The fractions are in steps of 2^-53. -/
def fraction (stream : Stream) : Binary64 × Stream :=
  let (word, rest) := stream.next
  (.ofRatio false (word.toNat >>> 11) (1 <<< 53), rest)

instance : RandomSource Stream where
  below count stream :=
    let (word, rest) := stream.next
    (word.toNat % count, rest)
  fraction := fraction
  chance rate stream :=
    let (fraction, rest) := stream.fraction
    (fraction.isLess rate, rest)
  below_lt _ positive := Nat.mod_lt _ positive

end Stream

namespace Random

variable {σ : Type} [RandomSource σ]

/-- A number below `count`. -/
def below (count : Nat) : Random σ Nat := modifyGet (RandomSource.below count)

/-- A number from `low` up to `high`. -/
def between (low high : Nat) : Random σ Nat := return low + (← below (high + 1 - low))

def fraction : Random σ Binary64 := modifyGet RandomSource.fraction

def chance (rate : Binary64) : Random σ Bool := modifyGet (RandomSource.chance rate)

end Random

end TripleJoin.Simulation
