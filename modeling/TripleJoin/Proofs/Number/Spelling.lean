import TripleJoin.Number.Decimal
import TripleJoin.Proofs.Text.Blanks
/-!
Writing integers in decimal and reading them back. Whatever zeros and blanks are added to the digits
and whichever sign is written where it may be left out, reading finds the integer that was written.
-/
namespace TripleJoin.Decimal

open Text

/-- What may stand before the digits of an integer. Zero may have either sign. -/
inductive Signs : Int → List Char → Prop where
  | unsigned {n : Int} (nonneg : 0 ≤ n) : Signs n []
  | plus {n : Int} (nonneg : 0 ≤ n) : Signs n ['+']
  | minus {n : Int} (nonpos : n ≤ 0) : Signs n ['-']

/-- The decimal digits of a natural number, with any number of zeros before them. -/
def padded (zeros n : Nat) : List Char := List.replicate zeros '0' ++ Nat.toDigits 10 n

/-- The text is a way to write the integer: its sign and its digits, with blanks around them. -/
def Writes (text : List Char) (n : Int) : Prop :=
  ∃ before sign zeros after, AllBlank before ∧ AllBlank after ∧ Signs n sign ∧
    text = before ++ (sign ++ padded zeros n.natAbs) ++ after

theorem isDigit_of_mem_padded {zeros n : Nat} {c : Char} (member : c ∈ padded zeros n) :
    c.isDigit := by
  rcases List.mem_append.mp member with zero | digit
  · rw [List.eq_of_mem_replicate zero]
    rfl
  · exact Nat.isDigit_of_mem_toDigits (by decide) (by decide) digit

theorem padded_ne_nil (zeros n : Nat) : padded zeros n ≠ [] :=
  List.append_ne_nil_of_right_ne_nil _ Nat.toDigits_ne_nil

theorem value_padded (zeros n : Nat) : value (padded zeros n) = n := by
  calc value (padded zeros n) = Nat.ofDigitChars 10 (padded zeros n) 0 := rfl
    _ = Nat.ofDigitChars 10 (Nat.toDigits 10 n) (10 ^ zeros * 0) := by
      rw [padded, Nat.ofDigitChars_append, Nat.ofDigitChars_replicate_zero]
    _ = n := by rw [Nat.mul_zero, Nat.ofDigitChars_ten_toDigits]

theorem digits?_padded (zeros n : Nat) : digits? (padded zeros n) = some n := by
  have all : (padded zeros n).all Char.isDigit :=
    List.all_eq_true.mpr fun _ member => isDigit_of_mem_padded member
  simp [digits?, all, padded_ne_nil, value_padded]

theorem cutSign_padded (zeros n : Nat) : cutSign (padded zeros n) = (false, padded zeros n) := by
  have digits : ∀ c ∈ padded zeros n, c.isDigit := fun _ member => isDigit_of_mem_padded member
  generalize padded zeros n = cs at digits
  unfold cutSign
  split
  · cases digits '-' List.mem_cons_self
  · cases digits '+' List.mem_cons_self
  · rfl

theorem integer?_written {n : Int} {sign : List Char} (signs : Signs n sign) (zeros : Nat) :
    integer? (sign ++ padded zeros n.natAbs) = some n := by
  cases signs with
  | unsigned nonneg =>
    rw [List.nil_append, integer?, cutSign_padded]
    simp [digits?_padded, Int.natAbs_of_nonneg nonneg]
  | plus nonneg => simp [integer?, cutSign, digits?_padded, Int.natAbs_of_nonneg nonneg]
  | minus nonpos => simp [integer?, cutSign, digits?_padded, Int.ofNat_natAbs_of_nonpos nonpos]

theorem isBlank_of_isDigit {c : Char} (digit : c.isDigit) : isBlank c = false := by
  have range : '0'.toNat ≤ c.toNat ∧ c.toNat ≤ '9'.toNat := by
    simpa [Char.isDigit, UInt32.le_iff_toNat_le] using digit
  have low : 48 ≤ c.toNat := range.1
  have high : c.toNat ≤ 57 := range.2
  simp [isBlank]
  omega

theorem isBlank_of_mem_sign {n : Int} {sign : List Char} (signs : Signs n sign) {c : Char}
    (member : c ∈ sign) : isBlank c = false := by
  cases signs with
  | unsigned => cases member
  | _ =>
    rw [List.mem_singleton.mp member]
    rfl

theorem Writes.integer? {text : List Char} {n : Int} (writes : Writes text n) :
    integer? (trim text) = some n := by
  obtain ⟨before, sign, zeros, after, leading, trailing, signs, rfl⟩ := writes
  have visible : ∀ c ∈ sign ++ padded zeros n.natAbs, isBlank c = false := by
    intro c member
    rcases List.mem_append.mp member with first | digit
    · exact isBlank_of_mem_sign signs first
    · exact isBlank_of_isDigit (isDigit_of_mem_padded digit)
  have trims : Trims (before ++ (sign ++ padded zeros n.natAbs) ++ after)
      (sign ++ padded zeros n.natAbs) :=
    ⟨before, after, leading, trailing, rfl, fun c first => visible c (List.mem_of_mem_head? first),
      fun c last => visible c (List.mem_of_mem_getLast? last)⟩
  rw [trims.eq]
  exact integer?_written signs zeros

theorem writes_toString (n : Int) : Writes (toString n).toList n := by
  have nothing : AllBlank [] := fun _ none => nomatch none
  rw [Int.toString_eq_repr, Int.repr_eq_if]
  split
  · rename_i nonneg
    refine ⟨[], [], 0, [], nothing, nothing, .unsigned nonneg, ?_⟩
    have magnitude : n.toNat = n.natAbs := by omega
    simp [padded, magnitude]
  · rename_i negative
    refine ⟨[], ['-'], 0, [], nothing, nothing, .minus (by omega), ?_⟩
    have magnitude : (-n).toNat = n.natAbs := by omega
    simp [padded, magnitude]

end TripleJoin.Decimal
