import Captions.Proofs.Number.Overflow
import Captions.Proofs.Outcome

/-!
# Quotients Above Zero

When a number lies above zero, and what is left of that after a division.

A number can be asked to lie above a whole number, or not to lie at or below it.
The two differ in what is not a number alone, which does neither. Rounding a
whole number above zero to a double leaves it above zero, so either question is
one about the double.

A quotient of doubles above zero may overflow, and it may vanish, but it has no
minus sign. There is one that is not a number: an infinity has no quotient by an
infinity.

## Theorems

* `Number.isAbove_iff`: What it is to lie above a whole number.
* `Number.zero_lt_of_isAbove`: A number above zero is a double above zero.
* `Number.div_double`: The division of a double by a number.
* `Binary64.negative_div`: A quotient has a minus sign only if a side has.
* `Binary64.div_eq_nan_iff`: Which quotients are not a number.
-/

namespace Captions

namespace Binary64

/-! ### Above zero -/

theorem not_lt_zero (x : Binary64) (h : x.negative = false) : x.lt zero = false := by
  rw [← Bool.not_eq_true]
  cases x with
  | nan => exact Bool.false_ne_true
  | infinite s =>
      rw [negative] at h
      rw [h, lt_of_rank _ zero (signed false bound) 0 rfl rfl, signed_false]
      omega
  | finite s u hu =>
      rw [negative] at h
      rw [h, lt_of_rank _ zero (signed false u) 0 rfl rfl, signed_false]
      omega

-- Nothing that is one or more is rounded to less than one.
theorem one_le_roundUnits (n : Nat) (h : 0 < n) : one ≤ roundUnits (n * one) 1 := by
  have hone : Representable one := by
    have hmul := representable_mul_one 1 (Nat.one_le_two_pow)
    rwa [Nat.one_mul] at hmul
  calc one = roundUnits one 1 := (roundUnits_representable one hone).symm
    _ ≤ roundUnits (n * one) 1 := roundUnits_mono _ _ _ (Nat.le_mul_of_pos_left one h)

theorem zero_lt_ofInt (z : Int) (h : 0 < z) : zero.lt (ofInt z) = true := by
  have hround := one_le_roundUnits z.natAbs (by omega)
  have hone := one_pos
  have hbound := bound_pos
  have hsign : decide (z < 0) = false := decide_eq_false (by omega)
  rw [ofInt, hsign, ofRatio]
  split
  · rw [lt_of_rank zero _ 0 (signed false _) rfl rfl, signed_false]
    omega
  · rw [lt_of_rank zero _ 0 (signed false _) rfl rfl, signed_false]
    omega

/-! ### Quotients -/

/-- A quotient has a minus sign only if one of the sides has. -/
theorem negative_div (x y : Binary64) (hx : x.negative = false) (hy : y.negative = false) :
    (x.div y).negative = false := by
  rcases x with _ | s | ⟨s, u, hu⟩
  · rfl
  · rcases y with _ | t | ⟨t, v, hv⟩
    · rfl
    · rfl
    · rw [negative] at hx
      rw [negative] at hy
      rw [hx, hy]
      rfl
  · rcases y with _ | t | ⟨t, v, hv⟩
    · rfl
    · rw [negative] at hx
      rw [negative] at hy
      rw [hx, hy]
      rfl
    · rw [negative] at hx hy
      rw [hx, hy, div]
      split_ifs
      · rfl
      · rfl
      · exact negative_ofRatio _ _ _

theorem div_nan (x : Binary64) : x.div .nan = .nan := by
  cases x <;> rfl

/-- Above zero, an infinity by an infinity is the only quotient that is not a
    number. -/
theorem div_eq_nan_iff (x y : Binary64) (hx : zero.lt x = true) (hy : zero.lt y = true) :
    x.div y = .nan ↔ x = .infinite false ∧ y = .infinite false := by
  rcases of_zero_lt x hx with ⟨hxnan, hxsign, _⟩
  rcases of_zero_lt y hy with ⟨hynan, hysign, hyzero⟩
  rcases x with _ | s | ⟨s, u, hu⟩
  · exact absurd rfl hxnan
  · rcases y with _ | t | ⟨t, v, hv⟩
    · exact absurd rfl hynan
    · rw [negative] at hxsign hysign
      rw [hxsign, hysign]
      exact iff_of_true rfl ⟨rfl, rfl⟩
    · exact iff_of_false Binary64.noConfusion fun h => Binary64.noConfusion h.2
  · refine iff_of_false ?_ fun h => Binary64.noConfusion h.1
    rcases y with _ | t | ⟨t, v, hv⟩
    · exact absurd rfl hynan
    · exact Binary64.noConfusion
    · rw [div, if_neg (of_decide_eq_false hyzero)]
      exact ofRatio_ne_nan _ _ _

end Binary64

namespace Number

/-- What is not a number lies neither at or below a whole number nor above it. -/
theorem isAbove_iff (x : Number) (n : Int) :
    x.isAbove n = true ↔ x.isAtMost n = false ∧ x ≠ .double .nan := by
  have hnan : x.compare? n = none ↔ x = .double .nan := by
    rcases x with a | ⟨_ | s | ⟨s, u, hu⟩⟩ <;> simp only [compare?, reduceCtorEq, double.injEq]
  rw [isAbove, isAtMost, ne_eq, ← hnan]
  rcases x.compare? n with _ | ⟨_ | _ | _⟩ <;> decide

/-- A number above zero is a double above zero, if it is a double at all. -/
theorem zero_lt_of_isAbove (x : Number) (y : Binary64) (h : x.isAbove 0 = true)
    (hy : x.toDouble = .ok y) : Binary64.zero.lt y = true := by
  rw [isAbove, decide_eq_true_eq] at h
  cases x with
  | whole n =>
      rw [compare?, Option.some_inj, compare_gt_iff_gt] at h
      rw [toDouble] at hy
      split at hy
      · rw [← Except.ok.inj hy]
        exact Binary64.zero_lt_ofInt n h
      · exact absurd hy (error_ne_ok _ _)
  | double z =>
      rw [← Except.ok.inj hy]
      cases z with
      | nan => exact absurd h.symm (Option.some_ne_none _)
      | infinite s =>
          cases s with
          | true => exact absurd h (by decide)
          | false =>
              rw [Binary64.lt_of_rank Binary64.zero _ 0 _ rfl rfl, Binary64.signed_false]
              exact Int.natCast_pos.mpr Binary64.bound_pos
      | finite s u hu =>
          rw [compare?, Option.some_inj, compare_gt_iff_gt, zero_mul] at h
          exact (Binary64.lt_of_rank Binary64.zero (.finite s u hu) 0 _ rfl rfl).mpr h

theorem div_double (x : Binary64) (speed : Number) (y : Binary64) (hy : speed.toDouble = .ok y) :
    (double x).div speed = .ok (x.div y) := by
  rw [div, hy, toDouble, ok_bind, ok_bind]
  · rfl
  · exact fun _ _ h => Number.noConfusion h

end Number

end Captions
