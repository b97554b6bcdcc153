import Captions.Number.Binary64
import Mathlib.Tactic.Ring

/-!
# Laws of Rounding

How far a rounding moves a quotient, and which quotients it does not move.

A double is a count of units, so every statement here is one about natural
numbers, and the distance between a quotient and its rounding is written as a
pair of inequalities between multiples of the denominator. Nothing is divided.

`roundHalfEven` moves a quotient by at most half. `roundUnits` rounds to a
grid, the multiples of a power of two that grows with the quotient, so it
moves a quotient by at most half a step of that grid. The step is at most the
quotient divided by `2 ^ 52`, unless the quotient is so small that the grid
cannot be finer (`step_le`). Between them these two facts give the relative
error of every operation on doubles.

A count on the grid is not moved at all. `representable_of_dvd` says when a
count is on its own grid: it is a multiple of some power of two, and no more
than `2 ^ 53` times that power. The exact sums and differences of the timeline
are all recognised by it.

## Main definitions

* `step`: The spacing of the grid that a quotient is rounded to.

## Theorems

* `roundHalfEven_near`: Rounding moves a quotient by at most half.
* `roundHalfEven_eq_of_near`: A whole number closer than half is the rounding.
* `roundHalfEven_mono`: Rounding keeps the order.
* `roundHalfEven_scale`: Rounding depends on the quotient alone.
* `roundUnits_near`: Rounding to the grid moves by at most half a step.
* `step_le`: A step is small beside the quotient.
* `roundUnits_mono`: Rounding to the grid keeps the order.
* `roundUnits_scale`: Rounding to the grid depends on the quotient alone.
* `roundUnits_mul`: A quotient on the grid is not moved.
* `representable_of_dvd`: A multiple of a power of two is on the grid.
-/

namespace Captions

theorem roundHalfEven_near (num den : Nat) (hden : 0 < den) :
    2 * (den * roundHalfEven num den) ≤ 2 * num + den ∧
      2 * num ≤ 2 * (den * roundHalfEven num den) + den := by
  have hdiv := Nat.div_add_mod num den
  have hmod := Nat.mod_lt num hden
  have hsucc : den * (num / den + 1) = den * (num / den) + den := Nat.mul_succ _ _
  unfold roundHalfEven
  split
  · omega
  · split
    · rw [hsucc]
      omega
    · split
      · omega
      · rw [hsucc]
        omega

/-- A whole number closer than half to a quotient is its rounding. -/
theorem roundHalfEven_eq_of_near (num den n : Nat)
    (hlo : 2 * (den * n) < 2 * num + den) (hhi : 2 * num < 2 * (den * n) + den) :
    roundHalfEven num den = n := by
  have hden : 0 < den := by omega
  rcases roundHalfEven_near num den hden with ⟨hle, hge⟩
  have hup : den * roundHalfEven num den < den * (n + 1) := by
    rw [Nat.mul_succ]
    omega
  have hdown : den * n < den * (roundHalfEven num den + 1) := by
    rw [Nat.mul_succ]
    omega
  have h1 := Nat.lt_of_mul_lt_mul_left hup
  have h2 := Nat.lt_of_mul_lt_mul_left hdown
  omega

theorem roundHalfEven_mono (num num' den : Nat) (h : num ≤ num') :
    roundHalfEven num den ≤ roundHalfEven num' den := by
  have hdiv : num / den ≤ num' / den := Nat.div_le_div_right h
  rcases Nat.lt_or_eq_of_le hdiv with hlt | heq
  · calc roundHalfEven num den ≤ num / den + 1 := roundHalfEven_le num den
      _ ≤ num' / den := hlt
      _ ≤ roundHalfEven num' den := div_le_roundHalfEven num' den
  · -- The same whole part: the larger remainder is rounded up no less often.
    have hmod : num % den ≤ num' % den := by
      have h1 := Nat.div_add_mod num den
      have h2 := Nat.div_add_mod num' den
      rw [← heq] at h2
      omega
    unfold roundHalfEven
    rw [heq]
    split_ifs <;> omega

theorem roundHalfEven_scale (num den c : Nat) (hc : 0 < c) :
    roundHalfEven (c * num) (c * den) = roundHalfEven num den := by
  have hlt : ∀ a b : Nat, c * a < c * b ↔ a < b := fun a b => Nat.mul_lt_mul_left hc
  unfold roundHalfEven
  rw [Nat.mul_div_mul_left _ _ hc, Nat.mul_mod_mul_left,
    show 2 * (c * (num % den)) = c * (2 * (num % den)) by ring]
  simp only [hlt]

namespace Binary64

/-- The spacing of the grid that a quotient is rounded to, times the
    denominator. -/
def step (num den : Nat) : Nat := den * 2 ^ excess num den

theorem roundUnits_eq (num den : Nat) :
    roundUnits num den = roundHalfEven num (step num den) * 2 ^ excess num den := rfl

theorem step_pos (num den : Nat) (hden : 0 < den) : 0 < step num den :=
  Nat.mul_pos hden (Nat.two_pow_pos _)

theorem roundUnits_near (num den : Nat) (hden : 0 < den) :
    2 * (den * roundUnits num den) ≤ 2 * num + step num den ∧
      2 * num ≤ 2 * (den * roundUnits num den) + step num den := by
  have hnear := roundHalfEven_near num (step num den) (step_pos num den hden)
  have heq : den * roundUnits num den
      = step num den * roundHalfEven num (step num den) := by
    rw [roundUnits_eq, step]
    ring
  rw [heq]
  exact hnear

/-- A step is at most the `2 ^ 52`-th part of the quotient, or the finest there
    is. -/
theorem step_le (num den : Nat) : step num den * 2 ^ 52 ≤ max num (den * 2 ^ 52) := by
  unfold step excess
  rcases Nat.le_total (num / den).log2 52 with hsmall | hlarge
  · rw [Nat.sub_eq_zero_of_le hsmall, Nat.pow_zero, Nat.mul_one]
    exact Nat.le_max_right _ _
  · have hne : num / den ≠ 0 := by
      intro h
      rw [h, Nat.log2_zero] at hlarge
      omega
    calc den * 2 ^ ((num / den).log2 - 52) * 2 ^ 52
        = den * 2 ^ (num / den).log2 := by
          rw [Nat.mul_assoc, ← Nat.pow_add, Nat.sub_add_cancel hlarge]
      _ ≤ den * (num / den) := Nat.mul_le_mul_left _ (Nat.log2_self_le hne)
      _ ≤ num := Nat.mul_div_le num den
      _ ≤ max num (den * 2 ^ 52) := Nat.le_max_left _ _

theorem two_pow_le_roundHalfEven (num den : Nat) (h : 0 < excess num den) :
    2 ^ 52 ≤ roundHalfEven num (step num den) := by
  have hlog : (num / den).log2 = excess num den + 52 := by
    unfold excess at h ⊢
    omega
  have hne : num / den ≠ 0 := by
    intro hz
    rw [hz, Nat.log2_zero] at hlog
    omega
  refine Nat.le_trans ?_ (div_le_roundHalfEven _ _)
  unfold step
  rw [← Nat.div_div_eq_div_mul, Nat.le_div_iff_mul_le (Nat.two_pow_pos _), ← Nat.pow_add,
    Nat.add_comm, ← hlog]
  exact Nat.log2_self_le hne

theorem excess_mono (num num' den : Nat) (h : num ≤ num') :
    excess num den ≤ excess num' den := by
  unfold excess
  have hdiv : num / den ≤ num' / den := Nat.div_le_div_right h
  rcases Nat.eq_zero_or_pos (num / den) with hz | hpos
  · rw [hz, Nat.log2_zero]
    omega
  · have hlog : (num / den).log2 ≤ (num' / den).log2 :=
      (Nat.le_log2 (by omega)).mpr (Nat.le_trans (Nat.log2_self_le (by omega)) hdiv)
    omega

theorem roundUnits_mono (num num' den : Nat) (h : num ≤ num') :
    roundUnits num den ≤ roundUnits num' den := by
  rcases Nat.lt_or_eq_of_le (excess_mono num num' den h) with hlt | heq
  · -- On a finer grid the rounding ends at `2 ^ 53` steps, where the coarser begins.
    have hsucc : 2 ^ 53 * 2 ^ excess num den ≤ 2 ^ 52 * 2 ^ excess num' den := by
      rw [← Nat.pow_add, ← Nat.pow_add]
      exact Nat.pow_le_pow_right (by omega) (by omega)
    calc roundUnits num den ≤ 2 ^ 53 * 2 ^ excess num den :=
          Nat.mul_le_mul_right _ (roundHalfEven_excess_le num den)
      _ ≤ 2 ^ 52 * 2 ^ excess num' den := hsucc
      _ ≤ roundUnits num' den :=
          Nat.mul_le_mul_right _ (two_pow_le_roundHalfEven num' den (by omega))
  · rw [roundUnits_eq, roundUnits_eq]
    unfold step
    rw [heq]
    exact Nat.mul_le_mul_right _ (roundHalfEven_mono _ _ _ h)

theorem roundUnits_scale (num den c : Nat) (hc : 0 < c) :
    roundUnits (c * num) (c * den) = roundUnits num den := by
  have hexcess : excess (c * num) (c * den) = excess num den := by
    unfold excess
    rw [Nat.mul_div_mul_left _ _ hc]
  rw [roundUnits_eq, roundUnits_eq]
  unfold step
  rw [hexcess, Nat.mul_assoc, roundHalfEven_scale _ _ _ hc]

theorem roundUnits_mul (n den : Nat) (hden : 0 < den) (hn : Representable n) :
    roundUnits (n * den) den = n := by
  have hexcess : excess (n * den) den = n.log2 - 52 := by
    unfold excess
    rw [Nat.mul_div_cancel _ hden]
  rcases hn.2 with ⟨k, hk⟩
  have hpow : n = k * 2 ^ (n.log2 - 52) := by
    rw [Nat.mul_comm]
    exact hk
  rw [roundUnits_eq]
  unfold step
  rw [hexcess]
  generalize n.log2 - 52 = e at hpow ⊢
  have hnum : n * den = k * (den * 2 ^ e) := by
    rw [hpow]
    ring
  rw [hnum, roundHalfEven_mul (Nat.mul_pos hden (Nat.two_pow_pos _)), ← hpow]

theorem roundUnits_zero (den : Nat) (hden : 0 < den) : roundUnits 0 den = 0 := by
  have h := roundUnits_mul 0 den hden representable_zero
  rwa [Nat.zero_mul] at h

theorem roundUnits_representable (n : Nat) (hn : Representable n) : roundUnits n 1 = n := by
  have h := roundUnits_mul n 1 Nat.one_pos hn
  rwa [Nat.mul_one] at h

/-- A multiple of a power of two is on the grid as long as it has no more than
    fifty-three bits above that power. -/
theorem representable_of_dvd (n e : Nat) (hdvd : 2 ^ e ∣ n) (hle : n ≤ 2 ^ (e + 53))
    (hbound : n < bound) : Representable n := by
  rcases hdvd with ⟨k, hk⟩
  have hpow : n = k * 2 ^ e := by
    rw [hk, Nat.mul_comm]
  have hk53 : k ≤ Nat.pow 2 53 := by
    rw [hpow, Nat.add_comm, Nat.pow_add] at hle
    exact Nat.le_of_mul_le_mul_right hle (Nat.two_pow_pos e)
  refine ⟨hbound, ?_⟩
  rw [hpow]
  exact spacing_dvd hk53

end Binary64

end Captions
