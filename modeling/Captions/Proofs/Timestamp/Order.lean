import Captions.Proofs.Number.Spacing
import Captions.Proofs.Timestamp.Canonical

/-!
# Timestamps in Order

A later timestamp is not read as an earlier time.

The minutes are read exactly, and the seconds with their fraction are rounded
before they are added. Rounding keeps the order, and sixty seconds need none, so
what is left of one minute stays at most where the next minute begins. The sum is
rounded once more, which keeps the order again.

This holds as long as doubles count the seconds one by one, far beyond the times
at which the milliseconds are still told apart.

## Main definitions

* `Canonical.NotAfter`: A timestamp is no later than another, as it is written
  and as it is read.

## Theorems

* `units_ofMillis`: The units that a time is read as.
* `value_ofMillis_mono`: Reading keeps the order of the times.
* `Canonical.notAfter_of_total`: The milliseconds decide about the order.
-/

namespace Captions

namespace Timestamp

open Binary64 (one roundUnits)

-- What is left of a minute is rounded to at most a minute.
theorem roundUnits_part_le (p : Nat) (h : p ≤ 60000) : roundUnits (p * one) 1000 ≤ 60 * one := by
  have hmono := Binary64.roundUnits_mono (p * one) (60 * one * 1000) 1000 (by
    rw [Nat.mul_right_comm]
    exact Nat.mul_le_mul_right one h)
  rwa [Binary64.roundUnits_mul _ _ (by omega) (Binary64.representable_mul_one 60 (by omega))]
    at hmono

/-- The units that a time is read as: the seconds of a minute are rounded, and
    their sum with the minutes is. -/
theorem units_ofMillis (ms : Nat) (h : ms < 2 ^ 53 * 1000) :
    (ofMillis ms).isFinite = true ∧ (ofMillis ms).units
      = (roundUnits (ms / 60000 * 60 * one + roundUnits (ms % 60000 * one) 1000) 1 : Nat) := by
  have hlt : ms % 60000 < 60000 := Nat.mod_lt ms (by omega)
  have hwhole : ms / 60000 * 60 ≤ 2 ^ 53 := by omega
  have hpart := (secondsPart_le _ hlt).1
  have hround := roundUnits_part_le _ (Nat.le_of_lt hlt)
  have hunits : (Binary64.ofDecimal false (ms % 60000 : Nat) (-3)).units
      = (roundUnits (ms % 60000 * one) 1000 : Nat) := by
    rw [ofDecimal_millis, Binary64.isFinite_ofRatio_iff] at hpart
    rw [ofDecimal_millis, Binary64.units_ofRatio _ _ _ hpart, Binary64.signed_false]
  have hsize : ms / 60000 * 60 * one ≤ 2 ^ 53 * one := Nat.mul_le_mul_right one hwhole
  have hbound := Binary64.two_pow_mul_one_le_bound 55 (by omega)
  exact Binary64.add_units _ _ _ _ (Binary64.isFinite_ofInt _ hwhole) hpart
    (Binary64.units_ofInt _ hwhole) hunits (by omega)

/-- Reading keeps the order of the times. -/
theorem value_ofMillis_mono (a b : Nat) (hab : a ≤ b) (hb : b < 2 ^ 53 * 1000) :
    (ofMillis a).value ≤ (ofMillis b).value := by
  have hsum : a / 60000 * 60 * one + roundUnits (a % 60000 * one) 1000
      ≤ b / 60000 * 60 * one + roundUnits (b % 60000 * one) 1000 := by
    rcases Nat.lt_or_eq_of_le (Nat.div_le_div_right (c := 60000) hab) with hlt | heq
    · -- The rest of the earlier minute ends where a later one begins.
      have hpart := roundUnits_part_le (a % 60000) (Nat.le_of_lt (Nat.mod_lt a (by omega)))
      have hnext : (a / 60000 * 60 + 60) * one ≤ b / 60000 * 60 * one :=
        Nat.mul_le_mul_right one (by omega)
      rw [Nat.add_mul] at hnext
      omega
    · rw [heq]
      exact Nat.add_le_add_left
        (Binary64.roundUnits_mono _ _ _ (Nat.mul_le_mul_right one (by omega))) _
  rw [← not_lt, Binary64.value_lt_value, (units_ofMillis a (by omega)).2, (units_ofMillis b hb).2,
    not_lt, Int.ofNat_le]
  exact Binary64.roundUnits_mono _ _ 1 hsum

namespace Canonical

/-- A timestamp is no later than another, by its milliseconds and by what it is
    read as. -/
def NotAfter (a b : Canonical) : Prop :=
  a.total ≤ b.total ∧ ∃ x y, Timestamp.seconds a.text = .ok x ∧
    Timestamp.seconds b.text = .ok y ∧ x.isFinite = true ∧ y.isFinite = true ∧ y.lt x = false

/-- The milliseconds decide about the order. -/
theorem notAfter_of_total (a b : Canonical) (hab : a.total ≤ b.total)
    (hb : b.total < 2 ^ 53 * 1000) : a.NotAfter b := by
  have ha : a.total < 2 ^ 53 * 1000 := Nat.lt_of_le_of_lt hab hb
  have hfa := (units_ofMillis _ ha).1
  have hfb := (units_ofMillis _ hb).1
  refine ⟨hab, _, _, seconds_text_of_total a ha, seconds_text_of_total b hb, hfa, hfb, ?_⟩
  rw [← Bool.not_eq_true, Binary64.lt_iff_value _ _ hfb hfa, not_lt]
  exact value_ofMillis_mono _ _ hab hb

end Canonical

end Timestamp

end Captions
