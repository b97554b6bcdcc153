import Captions.Proofs.Clock.Reading
import Captions.Proofs.Number.Sign
import Captions.Proofs.Outcome
import Captions.Proofs.Timestamp.Fractions

/-!
# Readings in Order

A clock that is moved on never shows an earlier time.

The fields of a reading are computed apart from each other, and only the last of
them is rounded, so it is not the order of roundings that carries the argument.
The first three fields are those of the whole second, exactly, and the last one
stays below the next second whatever it is rounded from. So a reading is a
number of milliseconds, its whole second first (`readMillis`), and a later time
either lies in a later second or in the same second with a rounding that is no
smaller.

The same number of milliseconds is what a reader finds in the text of the
reading, which is a canonical timestamp.

## Main definitions

* `readMillis`: The milliseconds that a clock shows.

## Theorems

* `ofSeconds?_eq`: A reading is one of milliseconds.
* `readMillis_mono`: Readings keep the order.
* `exists_units_read`, `ofSeconds?_of_range`: What is read of a number in a range.
-/

namespace Captions

namespace Clock

open Binary64 (one roundUnits)

/-- The milliseconds that a clock of so many units shows: the whole second that
    it lies in, and the rest rounded without reaching the next second. -/
def readMillis (c : Nat) : Nat :=
  c / one * 1000 + min (roundHalfEven (roundUnits (c % one * 1000) 1) one) 999

/-- A reading of a time is one of a number of milliseconds. -/
theorem ofSeconds?_eq (x : Binary64) (c : Nat) (hfin : x.isFinite = true) (hc : x.units = c)
    (hsize : c < 2 ^ 53 * one) : ofSeconds? (.double x) = some (ofMillis (readMillis c)) := by
  have hlast : min (roundHalfEven (roundUnits (c % one * 1000) 1) one) 999 < 1000 := by omega
  rw [ofSeconds?_eq_ofDouble? x c hfin hc, ofDouble?_eq x c hfin hc hsize, ofMillis_eq, readMillis]
  generalize min (roundHalfEven (roundUnits (c % one * 1000) 1) one) 999 = m at hlast ⊢
  have hsecond : (c / one * 1000 + m) / 1000 = c / one := by omega
  have hmillis : (c / one * 1000 + m) % 1000 = m := by omega
  rw [hsecond, hmillis]

/-- Readings keep the order of the times. -/
theorem readMillis_mono (a b : Nat) (h : a ≤ b) : readMillis a ≤ readMillis b := by
  have hdiv : a / one ≤ b / one := Nat.div_le_div_right h
  rcases Nat.lt_or_eq_of_le hdiv with hlt | heq
  · -- A later second, and the milliseconds do not reach it.
    have hlast : min (roundHalfEven (roundUnits (a % one * 1000) 1) one) 999 ≤ 999 :=
      Nat.min_le_right _ _
    unfold readMillis
    omega
  · have hmod : a % one ≤ b % one := by
      have ha := Nat.div_add_mod a one
      have hb := Nat.div_add_mod b one
      rw [heq] at ha
      omega
    have hround := Binary64.roundUnits_mono _ _ 1 (Nat.mul_le_mul_right 1000 hmod)
    rw [readMillis, readMillis, heq]
    exact Nat.add_le_add_left
      (min_le_min_right 999 (roundHalfEven_mono _ _ one hround)) _

theorem readMillis_lt (c n : Nat) (h : c < n * one) : readMillis c < n * 1000 := by
  have hdiv : c / one < n := (Nat.div_lt_iff_lt_mul Binary64.one_pos).mpr h
  unfold readMillis
  omega

-- What is in a range is finite, and its units are as well.
theorem exists_units_of_range (x : Binary64) (n : Nat)
    (hlow : (Number.double x).isBelow 0 = false) (hhigh : (Number.double x).isBelow n = true) :
    x.isFinite = true ∧ ∃ c : Nat, x.units = c ∧ c < n * one := by
  cases x with
  | nan => exact absurd hhigh Bool.false_ne_true
  | infinite s =>
      cases s with
      | true => exact absurd hlow Bool.noConfusion
      | false => exact absurd hhigh Bool.false_ne_true
  | finite s u h =>
      simp only [Number.isBelow, Number.compare?, Option.some_inj, decide_eq_false_iff_not,
        decide_eq_true_eq, compare_lt_iff_lt, Int.zero_mul, not_lt] at hlow hhigh
      rcases Int.eq_ofNat_of_zero_le hlow with ⟨c, hc⟩
      rw [hc] at hhigh
      exact ⟨rfl, c, hc, by exact_mod_cast hhigh⟩

-- What has no minus sign is in the range that begins at zero.
theorem isBelow_zero (x : Binary64) (h : x.negative = false) :
    (Number.double x).isBelow 0 = false := by
  cases x with
  | nan => rfl
  | infinite s =>
      rw [Binary64.negative] at h
      rw [h]
      rfl
  | finite s u hu =>
      rw [Binary64.negative] at h
      rw [Number.isBelow, Number.compare?, h, Binary64.signed_false, Int.zero_mul,
        decide_eq_false_iff_not, Option.some_inj, compare_lt_iff_lt]
      omega

-- A number below another is as a double below it, unless it has a minus sign.
theorem exists_units_of_toDouble (x : Number) (y : Binary64) (n : Nat) (hn : n ≤ 2 ^ 53)
    (hy : x.toDouble = .ok y) (hsign : y.negative = false) (hhigh : x.isBelow n = true) :
    y.isFinite = true ∧ ∃ c : Nat, y.units = c ∧ c < n * one := by
  cases x with
  | whole k =>
      have heq : Binary64.ofInt k = y := by
        rw [Number.toDouble] at hy
        split at hy
        · exact Except.ok.inj hy
        · exact absurd hy (error_ne_ok _ _)
      rw [← heq, Binary64.ofInt, Binary64.negative_ofRatio, decide_eq_false_iff_not] at hsign
      simp only [Number.isBelow, Number.compare?, Option.some_inj, decide_eq_true_eq,
        compare_lt_iff_lt] at hhigh
      rcases Int.eq_ofNat_of_zero_le (not_lt.mp hsign) with ⟨m, rfl⟩
      have hlt : m < n := by exact_mod_cast hhigh
      have hm : m ≤ 2 ^ 53 := by omega
      rw [← heq]
      exact ⟨Binary64.isFinite_ofInt m hm, _, Binary64.units_ofInt m hm,
        Nat.mul_lt_mul_of_pos_right hlt Binary64.one_pos⟩
  | double d =>
      have heq : d = y := Except.ok.inj hy
      rw [heq] at hhigh
      exact exists_units_of_range y n (isBelow_zero y hsign) hhigh

theorem ofWhole_natCast (n : Nat) : ofWhole n = ofMillis (n * 1000 : Nat) := by
  have hsecond : n * 1000 / 1000 = n := by omega
  have hmillis : n * 1000 % 1000 = 0 := by omega
  rw [ofMillis_eq, hsecond, hmillis]
  rfl

-- A whole second is read as it is.
theorem readMillis_mul_one (n : Nat) : readMillis (n * one) = n * 1000 := by
  have hround : roundUnits (0 * 1000) 1 = 0 := by
    rw [Nat.zero_mul, Binary64.roundUnits_zero 1 Nat.one_pos]
  rw [readMillis, Nat.mul_div_cancel n Binary64.one_pos, Nat.mul_mod_left, hround,
    Binary64.roundHalfEven_zero one Binary64.one_pos, Nat.zero_min, Nat.add_zero]

/-- A number in a range, whole or not, is a number of units, and what is read is
    that of the units. -/
theorem exists_units_read (x : Number) (n : Nat) (hn : n ≤ 2 ^ 53) (hlow : x.isBelow 0 = false)
    (hhigh : x.isBelow n = true) :
    ∃ c : Nat, c < n * one ∧ x.value = (c : ℚ) / one ∧
      ofSeconds? x = some (ofMillis (readMillis c)) := by
  cases x with
  | whole k =>
      have hread : ofSeconds? (.whole k) = some (ofWhole k) := by
        rw [ofSeconds?, hlow, if_neg Bool.false_ne_true]
      simp only [Number.isBelow, Number.compare?, Option.some_inj, decide_eq_false_iff_not,
        decide_eq_true_eq, compare_lt_iff_lt, not_lt] at hlow hhigh
      rcases Int.eq_ofNat_of_zero_le hlow with ⟨m, rfl⟩
      have hlt : m < n := by exact_mod_cast hhigh
      refine ⟨m * one, Nat.mul_lt_mul_of_pos_right hlt Binary64.one_pos, ?_, ?_⟩
      · rw [Number.value, Nat.cast_mul, mul_div_cancel_right₀ _ (ne_of_gt Binary64.one_cast_pos),
          Int.cast_natCast]
      · rw [hread, ofWhole_natCast, readMillis_mul_one]
  | double d =>
      rcases exists_units_of_range d n hlow hhigh with ⟨hfin, c, hc, hlt⟩
      have hsize : c < 2 ^ 53 * one := Nat.lt_of_lt_of_le hlt (Nat.mul_le_mul_right one hn)
      refine ⟨c, hlt, ?_, ofSeconds?_eq d c hfin hc hsize⟩
      rw [Number.value, Binary64.value, hc, Int.cast_natCast]

/-- A number in a range is read as milliseconds in that range. -/
theorem ofSeconds?_of_range (x : Number) (n : Nat) (hn : n ≤ 2 ^ 53) (hlow : x.isBelow 0 = false)
    (hhigh : x.isBelow n = true) :
    ∃ ms, ofSeconds? x = some (ofMillis (ms : Nat)) ∧ ms < n * 1000 := by
  rcases exists_units_read x n hn hlow hhigh with ⟨c, hlt, _, hread⟩
  exact ⟨readMillis c, hread, readMillis_lt c n hlt⟩

end Clock

end Captions
