/-!
# Rounding a quotient

Every rounding in the library is the same step: a quotient of natural numbers
goes to the nearest whole number, and a quotient halfway between two goes to
the even one. Which grid is meant is in the quotient: places after a point
multiply the numerator by a power of ten, a double's spacing multiplies the
denominator by a power of two.

## Main definitions

* `roundHalfEven`: The whole number nearest to a quotient, ties to even.

## Theorems

* `roundHalfEven_mul`: A whole quotient is its own rounding.
-/

namespace Captions

/-- The whole number nearest to `num / den`; of two equally near, the even
    one. -/
def roundHalfEven (num den : Nat) : Nat :=
  if 2 * (num % den) < den then num / den
  else if den < 2 * (num % den) then num / den + 1
  else if num / den % 2 = 0 then num / den
  else num / den + 1

theorem div_le_roundHalfEven (num den : Nat) : num / den ≤ roundHalfEven num den := by
  unfold roundHalfEven
  split
  · exact Nat.le_refl _
  · split
    · exact Nat.le_succ _
    · split
      · exact Nat.le_refl _
      · exact Nat.le_succ _

theorem roundHalfEven_le (num den : Nat) : roundHalfEven num den ≤ num / den + 1 := by
  unfold roundHalfEven
  split
  · exact Nat.le_succ _
  · split
    · exact Nat.le_refl _
    · split
      · exact Nat.le_succ _
      · exact Nat.le_refl _

/-- A quotient without remainder is its own rounding. -/
theorem roundHalfEven_mul {den : Nat} (h : 0 < den) (n : Nat) :
    roundHalfEven (n * den) den = n := by
  simp [roundHalfEven, Nat.mul_div_cancel _ h, h]

end Captions
