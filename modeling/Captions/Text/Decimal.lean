import Captions.Text

/-!
# Decimal numerals

Whole numbers as they are written: without leading zeros, or padded with zeros
to a width that a wider number simply exceeds. A clock shows its hours in full
this way, and a cue keeps the number it was given, however long.

Reading goes from the digits to the number and does not care for leading
zeros.

## Main definitions

* `Text.digits`: The decimal digits of a natural number.
* `Text.padded`: The digits with zeros in front up to a width.
* `Text.ofInt`: A whole number with its sign.
* `Text.ofDigits`: The number that a list of digit values denotes.
-/

namespace Captions

namespace Text

/-- The character of a digit value below ten. -/
def digitChar (d : Nat) : Char := Char.ofNat (0x30 + d)

/-- The decimal digit values of a number, the first one zero only for zero
    itself. -/
def digitValues (n : Nat) : List Nat :=
  if n < 10 then [n] else digitValues (n / 10) ++ [n % 10]
termination_by n
decreasing_by omega

/-- The decimal digits of a number. -/
def digits (n : Nat) : Text := (digitValues n).map digitChar

/-- The digits of a number, with zeros in front when there are fewer than
    `width`. -/
def padded (width n : Nat) : Text :=
  List.replicate (width - (digits n).length) '0' ++ digits n

/-- A whole number: its digits, after a minus sign if it is below zero. -/
def ofInt (z : Int) : Text :=
  if z < 0 then '-' :: digits z.natAbs else digits z.natAbs

/-- The number whose decimal digits have these values. -/
def ofDigits (ds : List Nat) : Nat := ds.foldl (fun n d => 10 * n + d) 0

theorem ofDigits_append_singleton (ds : List Nat) (d : Nat) :
    ofDigits (ds ++ [d]) = 10 * ofDigits ds + d := by
  simp [ofDigits]

/-- The digits of a number denote it. -/
theorem ofDigits_digitValues (n : Nat) : ofDigits (digitValues n) = n := by
  induction n using digitValues.induct with
  | case1 n h => rw [digitValues, if_pos h]; simp [ofDigits]
  | case2 n h ih =>
      rw [digitValues, if_neg h, ofDigits_append_singleton, ih]
      omega

end Text

end Captions
