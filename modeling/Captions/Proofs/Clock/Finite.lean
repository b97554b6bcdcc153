import Captions.Proofs.Clock.Reading
import Captions.Proofs.Number.Magnitude

/-!
# Times That Can Be Read

A clock reads every finite time, however large, and of the others only the
negative infinity, which is below zero and reads as zero.

The fields of a reading are quotients and remainders in double precision. For
times up to `2 ^ 53` they are exact, and what they are then is told elsewhere.
Here it is only asked whether there are any. A quotient that overflowed would
have none, so the argument is one of size alone: what is left over, what is
taken away from the time and what remains of it in hours never have more units
than the time has, and a rounded number is not larger than the double it was
rounded below.

What is not finite leaves no remainder, and so it has no hours either.

## Theorems

* `floorQuotient?_finite`: A finite time has quotients.
* `ofDouble?_finite`: A finite time that is not negative has a reading.
* `exists_ofSeconds?_iff`: Which times have a reading.
-/

namespace Captions

namespace Binary64

-- What is left over is neither more than there was nor more than the divisor.
theorem remainder_finite (s : Bool) (c : Nat) (hc : Representable c) (hs : s = true → c = 0)
    (n : Nat) (hpos : 0 < n) (hn : n ≤ 2 ^ 53) :
    ∃ r hr, (finite s c hc).remainder (ofInt n) = .finite false r hr ∧ r ≤ c ∧ r ≤ n * one := by
  have hsign : ¬ (s = true ∧ c % (n * one) ≠ 0) := by
    rintro ⟨htrue, hne⟩
    rw [hs htrue, Nat.zero_mod] at hne
    exact hne rfl
  have hmod : c % (n * one) ≤ n * one :=
    Nat.le_of_lt (Nat.mod_lt c (Nat.mul_pos hpos one_pos))
  rcases ofRatio_finite false (c % (n * one)) 1 c Nat.one_pos hc
    (by rw [Nat.mul_one]; exact Nat.mod_le c _) with ⟨r, hr, heq, hle⟩
  rcases ofRatio_finite false (c % (n * one)) 1 (n * one) Nat.one_pos
    (representable_mul_one n hn) (by rw [Nat.mul_one]; exact hmod) with ⟨r', hr', heq', hle'⟩
  refine ⟨r, hr, ?_, hle, ?_⟩
  · rw [ofInt_eq n hn, remainder, if_neg hsign, ofUnits_natCast, heq]
  · rw [heq] at heq'
    simp only [finite.injEq, true_and] at heq'
    omega

-- What remains when no more than a double is taken from it.
theorem sub_finite (s : Bool) (c r : Nat) (hc : Representable c) (hr : Representable r)
    (hs : s = true → c = 0) (h : r ≤ c) :
    ∃ t m hm, (finite s c hc).sub (finite false r hr) = .finite t m hm ∧ m ≤ c := by
  have hneg : signed (!false) r = -(r : Int) := rfl
  have hdiff : signed s c + signed (!false) r = ((c - r : Nat) : Int) := by
    rw [signed_eq s c hs, hneg]
    omega
  rw [sub, neg, add, hdiff]
  split
  · exact ⟨_, 0, representable_zero, rfl, Nat.zero_le c⟩
  · rw [ofUnits_natCast]
    rcases ofRatio_finite false (c - r) 1 c Nat.one_pos hc (by omega) with ⟨m, hm, heq, hle⟩
    exact ⟨false, m, hm, heq, hle⟩

/-- A finite time that is not negative has a quotient by every whole number. -/
theorem floorQuotient?_finite (s : Bool) (c : Nat) (hc : Representable c) (hs : s = true → c = 0)
    (n : Nat) (hpos : 0 < n) (hn : n ≤ 2 ^ 53) :
    ∃ q, (finite s c hc).floorQuotient? (ofInt n) = some q := by
  rcases remainder_finite s c hc hs n hpos hn with ⟨r, hr, hrem, hle, _⟩
  rcases sub_finite s c r hc hr hs hle with ⟨t, m, hm, hsub, _⟩
  have hdivisor : 0 < n * one := Nat.mul_pos hpos one_pos
  have hscale : m * one ≤ m * (n * one) :=
    Nat.mul_le_mul_left m (Nat.le_mul_of_pos_left one hpos)
  rcases ofRatio_finite (t != false) (m * one) (n * one) m hdivisor hm hscale with
    ⟨k, hk, hquotient, _⟩
  have hdiv : ((finite s c hc).sub ((finite s c hc).remainder (ofInt n))).div (ofInt n)
      = .finite (t != false) k hk := by
    rw [hrem, hsub, ofInt_eq n hn, div, if_neg (Nat.ne_of_gt hdivisor), hquotient]
  unfold floorQuotient?
  rw [hdiv]
  exact ⟨_, rfl⟩

end Binary64

namespace Clock

open Binary64 (ofInt one representable_mul_one)

/-- A finite time that is not negative has a reading. -/
theorem ofDouble?_finite (s : Bool) (c : Nat) (hc : Representable c) (hs : s = true → c = 0) :
    ∃ clock, ofDouble? (.finite s c hc) = some clock := by
  rcases Binary64.floorQuotient?_finite s c hc hs 3600 (by norm_num) (by norm_num) with
    ⟨hours, hhours⟩
  rcases Binary64.remainder_finite s c hc hs 3600 (by norm_num) (by norm_num) with
    ⟨r, hr, hrem, _, _⟩
  rcases Binary64.floorQuotient?_finite false r hr Bool.noConfusion 60 (by norm_num)
    (by norm_num) with ⟨minutes, hminutes⟩
  rcases Binary64.remainder_finite s c hc hs 60 (by norm_num) (by norm_num) with
    ⟨r', hr', hrem', _, _⟩
  rcases Binary64.remainder_finite s c hc hs 1 (by norm_num) (by norm_num) with
    ⟨f, hf, hfraction, _, hle⟩
  -- The places after the point are below one, so a thousand times them is in range.
  have hproduct : f * (1000 * one) ≤ 1000 * one * one := by
    rw [Nat.one_mul] at hle
    rw [Nat.mul_comm]
    exact Nat.mul_le_mul_left _ hle
  rcases Binary64.ofRatio_finite (false != false) (f * (1000 * one)) one (1000 * one)
    Binary64.one_pos (representable_mul_one 1000 (by norm_num)) hproduct with ⟨m, hm, hmul, _⟩
  have hmillis : (Binary64.finite false f hf).mul (ofInt (1000 : Nat))
      = .finite (false != false) m hm := by
    rw [Binary64.ofInt_eq 1000 (by norm_num), Binary64.mul, hmul]
  unfold ofDouble?
  rw [show ofInt 3600 = ofInt (3600 : Nat) from rfl, show ofInt 60 = ofInt (60 : Nat) from rfl,
    show ofInt 1 = ofInt (1 : Nat) from rfl, show ofInt 1000 = ofInt (1000 : Nat) from rfl, hhours,
    hrem, hminutes, hrem', hfraction, hmillis]
  exact ⟨_, rfl⟩

/-- Every finite time has a reading, and of the others only the one below
    zero. -/
theorem exists_ofSeconds?_iff (x : Binary64) :
    (∃ clock, ofSeconds? (.double x) = some clock) ↔ x.isFinite = true ∨ x = .infinite true := by
  cases x with
  | nan =>
      have hnone : ofSeconds? (.double .nan) = none := rfl
      simp only [hnone, Binary64.isFinite, reduceCtorEq, exists_false, Bool.false_eq_true, or_self]
  | infinite s =>
      cases s with
      | true => exact iff_of_true ⟨zero, rfl⟩ (Or.inr rfl)
      | false =>
          have hnone : ofSeconds? (.double (.infinite false)) = none := rfl
          simp only [hnone, Binary64.isFinite, reduceCtorEq, exists_false, Bool.false_eq_true,
            Binary64.infinite.injEq, or_self]
  | finite s c hc =>
      refine iff_of_true ?_ (Or.inl rfl)
      by_cases hbelow : (Number.double (.finite s c hc)).isBelow 0 = true
      · exact ⟨zero, by rw [ofSeconds?, if_pos hbelow]⟩
      · have hs : s = true → c = 0 := by
          rintro rfl
          refine Nat.eq_zero_of_not_pos fun hpos => hbelow ?_
          rw [Number.isBelow, Number.compare?, decide_eq_true_eq, Option.some_inj,
            compare_lt_iff_lt, Binary64.signed, if_pos rfl]
          omega
        rcases ofDouble?_finite s c hc hs with ⟨clock, hclock⟩
        exact ⟨clock, by rw [ofSeconds?, if_neg hbelow]; exact hclock⟩

end Clock

end Captions
