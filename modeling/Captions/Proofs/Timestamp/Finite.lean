import Captions.Proofs.Number.Magnitude
import Captions.Proofs.Timestamp.Fractions

/-!
# Times That Do Not Overflow

A canonical timestamp is malformed in one case only, which is when its hours are
beyond the doubles. Its seconds may also overflow a little earlier, when the
hours are multiplied, and then the time is read as an infinity.

Both need hours of more than three hundred digits. Hours with no more than that
lie below the thousandth power of two, and the product and the two sums add no
more than fourteen to the exponent, which leaves it in the range of the doubles.

## Theorems

* `Written.seconds_atMost`: A time with few digits for the hours is read, as a
  double that has not overflowed.
* `Canonical.seconds_finite`: The same of canonical timestamps.
-/

namespace Captions

open Text (numeral ofDigits)

namespace Timestamp

-- Three digits are less than ten bits.
theorem ofDigits_le_two_pow (ds : List Nat) (n : Nat) (hds : Text.IsDigits ds)
    (h : ds.length ≤ 3 * n) : ofDigits ds ≤ 2 ^ (10 * n) := by
  calc ofDigits ds ≤ 10 ^ ds.length := Nat.le_of_lt (Text.ofDigits_lt ds hds)
    _ ≤ 10 ^ (3 * n) := Nat.pow_le_pow_right (by omega) h
    _ = (10 ^ 3) ^ n := Nat.pow_mul 10 3 n
    _ ≤ (2 ^ 10) ^ n := Nat.pow_le_pow_left (by omega) n
    _ = 2 ^ (10 * n) := (Nat.pow_mul 2 10 n).symm

namespace Written

theorem secondsDouble_atMost (w : Written) : w.secondsDouble.AtMost 6 := by
  rw [secondsDouble, Binary64.ofDecimal_places]
  refine Binary64.atMost_ofRatio _ _ 6 (Nat.pow_pos (by omega)) (by omega) ?_
  calc w.secondsPart * Binary64.one ≤ 2 ^ 6 * 10 ^ w.fraction.length * Binary64.one :=
        Nat.mul_le_mul_right _ (Nat.le_trans w.secondsPart_le (Nat.mul_le_mul_right _ (by omega)))
    _ = 2 ^ 6 * Binary64.one * 10 ^ w.fraction.length := by ring

/-- A time with few digits for the hours is read, as a double that has not
    overflowed. -/
theorem seconds_atMost (w : Written) (n : Nat) (hn : n ≤ 100) (h : w.hours.length ≤ 3 * n) :
    ∃ x, Timestamp.seconds w.text = .ok x ∧ x.AtMost (10 * n + 14) := by
  have hm := w.minutes_lt
  have hhours := Binary64.atMost_ofInt _ (10 * n) (by omega)
    (ofDigits_le_two_pow w.hours n w.hours_isDigits h)
  have hfield := field_numeral _ w.hours_isDigits w.hours_ne_nil
  rw [if_pos (Binary64.value_of_atMost _ _ hhours).1] at hfield
  refine ⟨_, by rw [Timestamp.seconds, ofFields_text w _ hfield], ?_⟩
  have hproduct := Binary64.atMost_mul _ _ (10 * n) 12 hhours
    (Binary64.atMost_ofInt 3600 12 (by omega) (by omega)) (by omega)
  have hminutes := Binary64.atMost_mul _ _ 6 6
    (Binary64.atMost_ofInt (ofDigits w.minutes) 6 (by omega) (by omega))
    (Binary64.atMost_ofInt 60 6 (by omega) (by omega)) (by omega)
  have hsum := Binary64.atMost_add _ _ (10 * n + 12) hproduct
    (Binary64.atMost_mono _ 12 _ hminutes (by omega)) (by omega)
  exact Binary64.atMost_add _ _ (10 * n + 13) hsum
    (Binary64.atMost_mono _ 6 _ w.secondsDouble_atMost (by omega)) (by omega)

end Written

namespace Canonical

/-- A canonical timestamp with few digits for the hours is read as a finite time
    that is not below zero. -/
theorem seconds_finite (c : Canonical) (h : c.hours.length ≤ 300) :
    ∃ x, Timestamp.seconds c.text = .ok x ∧ x.isFinite = true ∧ 0 ≤ x.value := by
  rcases c.written.seconds_atMost 100 (Nat.le_refl 100) h with ⟨x, hx, hbound⟩
  exact ⟨x, hx, Binary64.value_of_atMost x _ hbound⟩

end Canonical

end Timestamp

end Captions
