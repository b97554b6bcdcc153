import Captions.Proofs.Number.Value

/-!
# Doubles Below a Power of Two

How far doubles are from overflowing.

The sums and products that a time is made of are rounded, and a rounded result
may lie above the exact one. But a power of two is a double, so a result that is
not above it is not rounded above it either. `AtMost` is a bound of that kind on
a double that has no sign. A product adds the exponents of the bounds and a sum
raises the larger one by one, and as long as the exponent stays in the range of
the doubles, none of it can overflow.

## Main definitions

* `AtMost`: A double has no sign and is at most a power of two.

## Theorems

* `ofRatio_finite`: A quotient that is not above a double is finite.
* `atMost_ofRatio`: Rounding keeps a bound by a power of two.
* `atMost_mul`, `atMost_add`: Bounds of products and sums.
* `value_of_atMost`: A bounded double is finite and not below zero.
-/

namespace Captions

namespace Binary64

/-- A double without a sign that is at most a power of two. -/
def AtMost (x : Binary64) (k : Nat) : Prop := ∃ u h, x = .finite false u h ∧ u ≤ 2 ^ k * one

/-- A quotient that is not above a double is not rounded above it either. -/
theorem ofRatio_finite (s : Bool) (num den u : Nat) (hden : 0 < den) (hu : Representable u)
    (h : num ≤ u * den) : ∃ m hm, ofRatio s num den = .finite s m hm ∧ m ≤ u := by
  have hround := roundUnits_mono num _ den h
  rw [roundUnits_mul u den hden hu] at hround
  have hlt : roundUnits num den < bound := Nat.lt_of_le_of_lt hround hu.1
  exact ⟨_, _, ofRatio_eq s num den hlt, hround⟩

theorem representable_two_pow (k : Nat) (hk : k ≤ 1023) : Representable (2 ^ k * one) := by
  rw [one_eq, ← Nat.pow_add]
  refine representable_of_dvd _ (k + depth) (Nat.dvd_refl _)
    (Nat.pow_le_pow_right (by omega) (by omega)) ?_
  rw [bound_eq]
  exact Nat.pow_lt_pow_right (by omega) (by omega)

/-- A quotient that is at most a power of two is not rounded above it. -/
theorem atMost_ofRatio (num den k : Nat) (hden : 0 < den) (hk : k ≤ 1023)
    (h : num ≤ 2 ^ k * one * den) : (ofRatio false num den).AtMost k :=
  ofRatio_finite false num den _ hden (representable_two_pow k hk) h

theorem atMost_ofInt (n k : Nat) (hk : k ≤ 1023) (h : n ≤ 2 ^ k) : (ofInt n).AtMost k := by
  rw [ofInt_natCast]
  refine atMost_ofRatio _ 1 k Nat.one_pos hk ?_
  rw [Nat.mul_one]
  exact Nat.mul_le_mul_right one h

theorem atMost_mono (x : Binary64) (j k : Nat) (hx : x.AtMost j) (h : j ≤ k) : x.AtMost k := by
  rcases hx with ⟨u, hu, rfl, hle⟩
  have hpow : 2 ^ j * one ≤ 2 ^ k * one :=
    Nat.mul_le_mul_right one (Nat.pow_le_pow_right (by omega) h)
  exact ⟨u, hu, rfl, Nat.le_trans hle hpow⟩

theorem atMost_mul (x y : Binary64) (j k : Nat) (hx : x.AtMost j) (hy : y.AtMost k)
    (h : j + k ≤ 1023) : (x.mul y).AtMost (j + k) := by
  rcases hx with ⟨u, hu, rfl, hle⟩
  rcases hy with ⟨v, hv, rfl, hle'⟩
  rw [mul, bne_self_eq_false]
  refine atMost_ofRatio _ one _ one_pos h ?_
  calc u * v ≤ 2 ^ j * one * (2 ^ k * one) := Nat.mul_le_mul hle hle'
    _ = 2 ^ (j + k) * one * one := by rw [Nat.pow_add]; ring

theorem atMost_add (x y : Binary64) (k : Nat) (hx : x.AtMost k) (hy : y.AtMost k)
    (h : k + 1 ≤ 1023) : (x.add y).AtMost (k + 1) := by
  rcases hx with ⟨u, hu, rfl, hle⟩
  rcases hy with ⟨v, hv, rfl, hle'⟩
  rw [add, signed_false_add]
  split
  · exact ⟨0, representable_zero, rfl, Nat.zero_le _⟩
  · rw [ofUnits_natCast]
    refine atMost_ofRatio (u + v) 1 _ Nat.one_pos h ?_
    rw [Nat.pow_succ]
    generalize one = n at hle hle'
    rw [Nat.mul_one, Nat.mul_assoc, Nat.mul_comm 2, ← Nat.mul_assoc]
    omega

/-- A bounded double is finite and not below zero. -/
theorem value_of_atMost (x : Binary64) (k : Nat) (hx : x.AtMost k) :
    x.isFinite = true ∧ 0 ≤ x.value := by
  rcases hx with ⟨u, hu, rfl, -⟩
  rw [value_finite]
  exact ⟨rfl, div_nonneg (Nat.cast_nonneg u) (le_of_lt one_cast_pos)⟩

end Binary64

end Captions
