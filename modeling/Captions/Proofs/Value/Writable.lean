import Captions.Proofs.Number.Numeral
import Captions.Proofs.Number.Value
import Captions.Value

/-!
# Numbers That Can Be Written

Which whole numbers are short enough to be handed out as text.

A whole number has a limit of digits in writing and none in value. So a number
that was computed can be one that nobody can be told, while a number that came
from somewhere is mostly harmless. A numeral that can be read at all is no
longer than the limit, and a double is far below it, since the largest of them
has three hundred and nine digits.

A numeral in a base other than ten is the way around this: it is read whatever
its length.

## Theorems

* `isWritable_whole_iff`: The limit as a bound on the number.
* `isWritable_of_whole`: A numeral that is read can be written again.
* `isWritable_of_value`: So can a double that is a whole number.
-/

namespace Captions

namespace Text

/-- A number has more digits than some when it is at least the power of ten. -/
theorem lt_length_digits_iff (n k : Nat) (hk : 0 < k) :
    k < (digits n).length ↔ 10 ^ k ≤ n := by
  constructor
  · intro h
    by_contra hlt
    exact absurd (length_digits_le n k hk (Nat.lt_of_not_le hlt)) (Nat.not_le_of_lt h)
  · intro h
    have hlt := ofDigits_lt (digitValues n) (isDigits_digitValues n)
    rw [ofDigits_digitValues] at hlt
    rw [digits, List.length_map]
    exact (Nat.pow_lt_pow_iff_right (by omega)).mp (Nat.lt_of_le_of_lt h hlt)

end Text

open Numeral (digitLimit)

theorem digitLimit_pos : 0 < digitLimit := Nat.succ_pos _

namespace Number

theorem isWritable_whole_iff (n : Int) :
    (whole n).isWritable = true ↔ n.natAbs < 10 ^ digitLimit := by
  have hlt := Text.lt_length_digits_iff n.natAbs digitLimit digitLimit_pos
  rw [isWritable, decide_eq_true_iff, ← not_lt, hlt, not_le]

end Number

namespace Numeral

open Text

-- An underscore is passed over only when a digit follows it.
theorem isDigits_digitRun (t : Text) : IsDigits (digitRun t).1 := by
  induction t using digitRun.induct with
  | case1 => exact isDigits_nil
  | case2 c rest d hd ih =>
      simp only [digitRun, hd]
      exact (isDigits_cons _ _).mpr ⟨digitValue?_lt hd, ih⟩
  | case3 c rest hd =>
      simp only [digitRun, hd]
      exact isDigits_nil
  | case4 => exact isDigits_nil
  | case5 c t hc d hd ih =>
      rw [digitRun_cons c t hc d hd]
      exact (isDigits_cons _ _).mpr ⟨digitValue?_lt hd, ih⟩
  | case6 c t hc hd =>
      rw [digitRun, hd]
      · exact isDigits_nil
      · exact hc

theorem isDigits_digitsFirst (t : Text) : IsDigits (digitsFirst t).1 := by
  unfold digitsFirst
  split
  · exact isDigits_nil
  · exact isDigits_digitRun t

/-- A numeral that is read denotes a number that can be written. -/
theorem isWritable_of_whole (t : Text) (n : Int) (h : whole t = .ok n) :
    (Number.whole n).isWritable = true := by
  rw [Number.isWritable_whole_iff]
  unfold whole at h
  simp only [] at h
  have hdigits := isDigits_digitsFirst (sign (unpadded t)).2
  generalize (digitsFirst (sign (unpadded t)).2).1 = ds at h hdigits
  split at h
  · exact absurd h (by simp only [reduceCtorEq, not_false_eq_true])
  rcases hlimited : limited ds with fault | m
  · rw [hlimited] at h
    exact absurd h (by simp only [reduceCtorEq, not_false_eq_true])
  rcases (limited_eq_ok_iff ds m).mp hlimited with ⟨hlength, hm⟩
  have hlt : m < 10 ^ digitLimit :=
    hm ▸ Nat.lt_of_lt_of_le (ofDigits_lt ds hdigits) (Nat.pow_le_pow_right (by omega) hlength)
  have habs : n.natAbs = m := by
    rw [hlimited] at h
    simp only [] at h
    split at h
    · rw [← Except.ok.inj h]
      split <;> omega
    · exact absurd h (by simp only [reduceCtorEq, not_false_eq_true])
  exact habs ▸ hlt

end Numeral

namespace Binary64

theorem value_eq_iff (x : Binary64) (n : Int) : x.value = n ↔ x.units = n * one := by
  rw [value, div_eq_iff (ne_of_gt one_cast_pos)]
  exact_mod_cast Iff.rfl

-- Stated for any exponents, because those of the doubles are not to be evaluated.
theorem two_pow_depth_add (k : Nat) : 2 ^ (depth + k) = 2 ^ k * one := by
  rw [one_eq, Nat.pow_add, Nat.mul_comm]

theorem two_pow_le_ten_pow (j k : Nat) (h : j ≤ k) : 2 ^ j ≤ 10 ^ k :=
  Nat.le_trans (Nat.pow_le_pow_left (by omega) j) (Nat.pow_le_pow_right (by omega) h)

/-- A whole number that is a double can be written. -/
theorem isWritable_of_value (x : Binary64) (n : Int) (h : x.value = n) :
    (Number.whole n).isWritable = true := by
  have hbound := (representable_natAbs_units x).1
  rw [(value_eq_iff x n).mp h, Int.natAbs_mul, Int.natAbs_natCast,
    bound_eq.trans (two_pow_depth_add 1024)] at hbound
  rw [Number.isWritable_whole_iff]
  exact Nat.lt_of_lt_of_le (Nat.lt_of_mul_lt_mul_right hbound)
    (two_pow_le_ten_pow 1024 digitLimit (by decide))

end Binary64

end Captions
