import FluentRegex.Text

/-!
Decimal numerals for 32-bit bounds. Writing gives the shortest numeral; reading takes any
non-empty run of ASCII digits, leading zeros included, whose value fits.
-/

namespace FluentRegex.Text

/-- The shortest decimal numeral of a natural number. -/
def numeral (n : Nat) : Text :=
  Nat.toDigits 10 n

/-- The value of a run of decimal digits. The empty run counts as zero. -/
def numeralValue (digits : Text) : Nat :=
  Nat.ofDigitChars 10 digits 0

/-- The bound that a run of digits denotes, if the run is not empty and its value is below `2 ^
32`. -/
def bound? (digits : Text) : Option UInt32 :=
  if digits.isEmpty then none
  else if numeralValue digits < UInt32.size then some (UInt32.ofNat (numeralValue digits))
  else none

theorem numeral_ne_nil (n : Nat) : numeral n ≠ [] :=
  List.ne_nil_of_length_pos Nat.length_toDigits_pos

theorem isDigit_of_mem_numeral {n : Nat} {c : Char} (h : c ∈ numeral n) : c.isDigit = true :=
  Nat.isDigit_of_mem_toDigits (by decide) (by decide) h

@[simp] theorem numeralValue_numeral (n : Nat) : numeralValue (numeral n) = n :=
  Nat.ofDigitChars_toDigits (by decide) (by decide)

theorem bound?_numeral (n : UInt32) : bound? (numeral n.toNat) = some n := by
  simp [bound?, numeral_ne_nil, n.toNat_lt_size]

end FluentRegex.Text
