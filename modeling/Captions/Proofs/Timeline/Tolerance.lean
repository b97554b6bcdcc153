import Captions.Proofs.Number.Value
import Captions.Timeline

/-!
# The Gap Tolerance

Whether a gap is worth a wait is decided by its rounding to the microsecond,
which is then compared with the double nearest to fifty milliseconds. Three
roundings stand between a gap in milliseconds and the answer, and
`worthWaiting_iff` says that they never change it: a double that lies within
half a microsecond of a number of milliseconds is worth a wait exactly when
that number is more than fifty.

Both sides of the comparison are doubles nearest to a number of microseconds,
so both are values of `micros`. Its order carries the proof. Rounding to the
microsecond gives at most 50000 of them in one case and at least 51000 in the
other, and between the two there is room for every rounding error.

## Main definitions

* `micros`: The double nearest to a number of microseconds.

## Theorems

* `worthWaiting_iff`: A gap is worth a wait when it is more than fifty
  milliseconds.
-/

namespace Captions

namespace Timeline

open Binary64

/-- The double nearest to a number of microseconds. -/
def micros (k : Nat) : Binary64 := ofRatio false (k * one) 1000000

theorem tolerance_eq : tolerance = micros 50000 := by
  have hscale := roundUnits_scale (5 * one) 100 10000 (by omega)
  have hnum : 10000 * (5 * one) = 50000 * one := by omega
  rw [hnum] at hscale
  have hround : roundUnits (50000 * one) 1000000 = roundUnits (5 * one) 100 := hscale
  rw [tolerance, ofDecimal, if_pos (by decide), micros, ofRatio, ofRatio]
  simp only [hround]
  rfl

theorem micros_near (k : Nat) (hk : k ≤ 2 ^ 90) :
    (micros k).isFinite = true ∧ |(micros k).value - (k : ℚ) / 1000000| ≤ k / 1000000 / 2 ^ 53 := by
  have hnear := ofRatio_mul_one_near k 1000000 (by omega) (by omega) (by omega)
  rwa [Nat.cast_ofNat] at hnear

theorem micros_mono (j k : Nat) (h : j ≤ k) (hk : k ≤ 2 ^ 90) :
    (micros j).value ≤ (micros k).value := by
  have hj := (isFinite_ofRatio_iff false _ _).mp (micros_near j (by omega)).1
  have hk' := (isFinite_ofRatio_iff false _ _).mp (micros_near k hk).1
  have hle := roundUnits_mono (j * one) (k * one) 1000000 (Nat.mul_le_mul_right _ h)
  rw [value, value, micros, micros, units_ofRatio _ _ _ hj, units_ofRatio _ _ _ hk']
  simp only [signed, Bool.false_eq_true, if_false, Int.cast_natCast]
  exact div_le_div_of_nonneg_right (Nat.cast_le.mpr hle) (le_of_lt one_cast_pos)

-- Fifty-one milliseconds stay above fifty, however they are rounded.
theorem micros_lt_micros : (micros 50000).value < (micros 51000).value := by
  have h50 := (micros_near 50000 (by omega)).2
  have h51 := (micros_near 51000 (by omega)).2
  rw [abs_le] at h50 h51
  push_cast at h50 h51
  linarith

theorem value_micros_nonneg (k : Nat) : 0 ≤ (micros k).value := by
  have hpos := le_of_lt one_cast_pos
  by_cases h : roundUnits (k * one) 1000000 < bound
  · rw [value, micros, units_ofRatio _ _ _ h]
    simp only [signed, Bool.false_eq_true, if_false, Int.cast_natCast]
    exact div_nonneg (Nat.cast_nonneg _) hpos
  · have hinf : micros k = infinite false := by
      rw [micros, ofRatio, dif_neg h]
    rw [hinf]
    exact div_nonneg (le_refl 0) hpos

theorem neg_ofRatio (num den : Nat) : ofRatio true num den = (ofRatio false num den).neg := by
  by_cases h : roundUnits num den < bound
  · rw [ofRatio_eq _ _ _ h, ofRatio_eq _ _ _ h]
    rfl
  · rw [ofRatio, ofRatio, dif_neg h, dif_neg h]
    rfl

-- A double close to a number of milliseconds is rounded to it.
theorem roundHalfEven_micros (u n : Nat) (hnear : |(u : ℚ) / one - (n : ℚ) / 1000| < 1 / 2000000) :
    roundHalfEven (u * 1000000) one = n * 1000 := by
  have hpos := one_cast_pos
  rw [abs_lt, lt_sub_iff_add_lt, sub_lt_iff_lt_add, div_lt_iff₀ hpos, lt_div_iff₀ hpos] at hnear
  have hlo : (2 : ℚ) * (one * (n * 1000)) < 2 * (u * 1000000) + one := by
    linarith [hnear.1]
  have hhi : (2 : ℚ) * (u * 1000000) < 2 * (one * (n * 1000)) + one := by
    linarith [hnear.2]
  refine roundHalfEven_eq_of_near _ _ _ ?_ ?_
  · exact_mod_cast hlo
  · exact_mod_cast hhi

-- A gap that is not positive is rounded to one that is not.
theorem worthWaiting_negative (u n : Nat) (hu : Representable u) (hn : n ≤ 2 ^ 70)
    (hnear : |(u : ℚ) / one - (n : ℚ) / 1000| < 1 / 2000000) :
    worthWaiting (finite true u hu) = false := by
  have hplaces : (finite true u hu).roundPlaces 6 = (micros (n * 1000)).neg := by
    rw [← roundHalfEven_micros u n hnear]
    exact neg_ofRatio _ _
  have hfin := (micros_near (n * 1000) (by omega)).1
  rw [Bool.eq_false_iff, Ne, worthWaiting, tolerance_eq, hplaces,
    lt_iff_value _ _ (micros_near 50000 (by omega)).1 (by rw [isFinite_neg]; exact hfin), value_neg]
  have h50 := value_micros_nonneg 50000
  have hgap := value_micros_nonneg (n * 1000)
  intro h
  linarith

-- A gap without a sign is compared by its microseconds.
theorem worthWaiting_positive_iff (u n : Nat) (hu : Representable u) (hn : n ≤ 2 ^ 70)
    (hnear : |(u : ℚ) / one - (n : ℚ) / 1000| < 1 / 2000000) :
    worthWaiting (finite false u hu) = true ↔ 50 < n := by
  have hplaces : (finite false u hu).roundPlaces 6 = micros (n * 1000) := by
    rw [← roundHalfEven_micros u n hnear]
    rfl
  have hfin := (micros_near (n * 1000) (by omega)).1
  rw [worthWaiting, tolerance_eq, hplaces, lt_iff_value _ _ (micros_near 50000 (by omega)).1 hfin]
  constructor
  · intro h
    by_contra hc
    have := micros_mono (n * 1000) 50000 (by omega) (by omega)
    linarith
  · intro h
    have := micros_mono 51000 (n * 1000) (by omega) (by omega)
    exact lt_of_lt_of_le micros_lt_micros this

/-- The roundings of a gap never change whether it is worth a wait. -/
theorem worthWaiting_iff (gap : Binary64) (ms : Int) (hfin : gap.isFinite = true)
    (hms : ms.natAbs ≤ 2 ^ 70) (hnear : |gap.value - (ms : ℚ) / 1000| < 1 / 2000000) :
    worthWaiting gap = true ↔ 50 < ms := by
  cases gap with
  | nan => exact absurd hfin (by decide)
  | infinite s =>
      exact absurd hfin (by simp only [isFinite, Bool.false_eq_true, not_false_eq_true])
  | finite s u hu =>
      have hu0 : (0 : ℚ) ≤ (u : ℚ) / one := div_nonneg (Nat.cast_nonneg u) (le_of_lt one_cast_pos)
      rw [value, units, cast_signed] at hnear
      cases s with
      | true =>
          rw [if_pos rfl, neg_one_mul, neg_div] at hnear
          have hle : ms ≤ 0 := by
            have hlt : (ms : ℚ) < 1 := by linarith [(abs_lt.mp hnear).1]
            have : ms < 1 := by exact_mod_cast hlt
            omega
          have hcast : (ms : ℚ) = -(ms.natAbs : ℚ) := by
            rw [Nat.cast_natAbs, abs_of_nonpos hle, Int.cast_neg, neg_neg]
          rw [hcast, neg_div, ← neg_sub', abs_neg] at hnear
          have hnot : ¬ 50 < ms := by omega
          simp only [worthWaiting_negative u ms.natAbs hu hms hnear, hnot, Bool.false_eq_true]
      | false =>
          rw [if_neg Bool.false_ne_true, one_mul] at hnear
          have hge : 0 ≤ ms := by
            have hlt : (-1 : ℚ) < ms := by linarith [(abs_lt.mp hnear).2]
            have : -1 < ms := by exact_mod_cast hlt
            omega
          have hcast : (ms : ℚ) = (ms.natAbs : ℚ) := by
            rw [Nat.cast_natAbs, abs_of_nonneg hge]
          rw [hcast] at hnear
          rw [worthWaiting_positive_iff u ms.natAbs hu hms hnear]
          omega

end Timeline

end Captions
