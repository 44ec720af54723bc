import Mathlib.Data.List.Basic

/-!
# Decimal texts

A natural number as its decimal digits, and the parser of such texts that Rust's `u64` has: an optional
plus sign, at least one digit, a value that fits.
-/

namespace Abixio.Lib

/-- The decimal digits of a number. -/
def decimal (n : Nat) : String := String.ofList (Nat.toDigits 10 n)

/-- A number below `bound`. -/
def parseDecimal (bound : Nat) (s : String) : Option Nat :=
  let digits : List Char := match s.toList with
    | '+' :: rest => rest
    | cs => cs
  let value : Nat := Nat.ofDigitChars 10 digits 0
  if digits ≠ [] ∧ digits.all Char.isDigit ∧ value < bound then some value else none

theorem isDigit_of_mem_decimal {n : Nat} {c : Char} (h : c ∈ (decimal n).toList) : c.isDigit = true := by
  rw [decimal, String.toList_ofList] at h
  exact Nat.isDigit_of_mem_toDigits (by decide) (by decide) h

/-- **A number is read back.** -/
theorem parseDecimal_decimal {bound n : Nat} (h : n < bound) :
    parseDecimal bound (decimal n) = some n := by
  have hdigits : ∀ c ∈ Nat.toDigits 10 n, c.isDigit = true := fun c hc =>
    Nat.isDigit_of_mem_toDigits (by decide) (by decide) hc
  unfold parseDecimal decimal
  rw [String.toList_ofList]
  -- the first digit is not a sign
  have hsign : (match Nat.toDigits 10 n with
      | '+' :: rest => rest
      | cs => cs) = Nat.toDigits 10 n := by
    split
    · next rest heq =>
      have hplus := hdigits '+' (by rw [heq]; exact List.mem_cons_self)
      cases hplus
    · rfl
  rw [hsign]
  have hvalue : Nat.ofDigitChars 10 (Nat.toDigits 10 n) 0 = n := Nat.ofDigitChars_ten_toDigits
  dsimp only
  rw [hvalue, if_pos ⟨Nat.toDigits_ne_nil, List.all_eq_true.2 hdigits, h⟩]

end Abixio.Lib
