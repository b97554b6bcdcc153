import Captions.Proofs.Number.Spacing

/-!
# Division by Whole Numbers

What the division of a double by a whole number comes to when the double is not
negative and below `2 ^ 53`.

The quotient that is rounded down is computed in four operations, each of which
may round, and a fifth puts right a quotient that came out one too small. None
of that happens here. One is a multiple of the spacing of such a double, so a
whole number is as well, and remainders do not leave the multiples: the
remainder is exact, so is the difference to it, and dividing that difference
gives a whole number. What is left are quotient and remainder of the counts of
units.

A double with a sign is not excluded. If it is not negative it is a zero, and a
zero behaves the same with either sign.

## Theorems

* `exists_finite`: A double that is not negative, as a sign and a count.
* `remainder_ofInt`: The remainder is that of the units.
* `floorQuotient_ofInt`: The quotient is that of the units.
* `mul_ofInt`: The product with a whole number, in units.
-/

namespace Captions

namespace Binary64

-- Only a zero that is not negative may still have a sign.
theorem exists_finite (x : Binary64) (c : Nat) (hfin : x.isFinite = true) (hc : x.units = c) :
    ∃ s h, x = .finite s c h ∧ (s = true → c = 0) := by
  cases x with
  | nan => exact absurd hfin (by decide)
  | infinite s =>
      exact absurd hfin (by simp only [isFinite, Bool.false_eq_true, not_false_eq_true])
  | finite s u h =>
      have hu : u = c := by
        have := natAbs_signed s u
        rw [units] at hc
        rw [hc, Int.natAbs_natCast] at this
        exact this.symm
      subst hu
      refine ⟨s, h, rfl, ?_⟩
      rintro rfl
      rw [units, signed, if_pos rfl] at hc
      omega

theorem signed_eq (s : Bool) (c : Nat) (h : s = true → c = 0) : signed s c = c := by
  cases s with
  | false => rfl
  | true =>
      rw [h rfl]
      rfl

theorem spacing_dvd_two_pow (c k : Nat) (h : c < 2 ^ 53 * 2 ^ k) : spacing c ∣ 2 ^ k := by
  rw [← Nat.pow_add] at h
  refine Nat.pow_dvd_pow 2 ?_
  rcases Nat.eq_zero_or_pos c with rfl | hpos
  · rw [Nat.log2_zero, Nat.zero_sub]
    exact Nat.zero_le k
  · have hlog := (Nat.log2_lt (Nat.ne_of_gt hpos)).mpr h
    omega

theorem spacing_dvd_one (c : Nat) (h : c < 2 ^ 53 * one) : spacing c ∣ one := by
  have heq := one_eq
  generalize depth = k at heq
  rw [heq] at h ⊢
  exact spacing_dvd_two_pow c k h

/-- The remainder of a division by a whole number is exact. -/
theorem remainder_ofInt (x : Binary64) (c n : Nat) (hfin : x.isFinite = true) (hc : x.units = c)
    (hsize : c < 2 ^ 53 * one) (hn : n ≤ 2 ^ 53) :
    (x.remainder (ofInt n)).isFinite = true ∧
      (x.remainder (ofInt n)).units = (c % (n * one) : Nat) := by
  have hdvd : spacing c ∣ c % (n * one) :=
    (Nat.dvd_mod_iff (Dvd.dvd.mul_left (spacing_dvd_one c hsize) n)).mpr (spacing_dvd_units x c hc)
  have hle := Nat.mod_le c (n * one)
  have hbound := two_pow_mul_one_le_bound 53 (by omega)
  have hexact := round_multiple c (c % (n * one)) hdvd
    (Nat.le_trans hle (Nat.le_of_lt (lt_spacing c))) (by omega)
  rcases exists_finite x c hfin hc with ⟨s, h, rfl, hs⟩
  have hsign : ¬ (s = true ∧ c % (n * one) ≠ 0) := by
    rintro ⟨htrue, hne⟩
    rw [hs htrue, Nat.zero_mod] at hne
    exact hne rfl
  have hlt : roundUnits (c % (n * one)) 1 < bound := by
    rw [hexact]
    omega
  rw [ofInt_eq n hn, remainder, if_neg hsign, ofUnits_natCast, isFinite_ofRatio_iff,
    units_ofRatio _ _ _ hlt, hexact]
  exact ⟨by omega, rfl⟩

-- What is left over is taken away exactly.
theorem sub_remainder (x : Binary64) (c n : Nat) (hfin : x.isFinite = true) (hc : x.units = c)
    (hsize : c < 2 ^ 53 * one) (hn : n ≤ 2 ^ 53) :
    (x.sub (x.remainder (ofInt n))).isFinite = true ∧
      (x.sub (x.remainder (ofInt n))).units = (c / (n * one) * (n * one) : Nat) := by
  rcases remainder_ofInt x c n hfin hc hsize hn with ⟨hrfin, hr⟩
  have hbound := two_pow_mul_one_le_bound 54 (by omega)
  have hsub := sub_units x _ c _ hfin hrfin hc hr (Nat.mod_le c (n * one)) (by omega)
  have hquotient : c - c % (n * one) = c / (n * one) * (n * one) := by
    have := Nat.div_add_mod' c (n * one)
    omega
  have hone := spacing_dvd_one c hsize
  have hdvd : spacing c ∣ c / (n * one) * (n * one) :=
    Dvd.dvd.mul_left (Dvd.dvd.mul_left hone n) _
  have hle : c / (n * one) * (n * one) ≤ c := Nat.div_mul_le_self c (n * one)
  have hexact := round_multiple c _ hdvd (Nat.le_trans hle (Nat.le_of_lt (lt_spacing c))) (by omega)
  rw [hquotient, hexact] at hsub
  exact hsub

-- A quotient that is whole already is not put right.
theorem not_half_lt (x : Binary64) (hfin : x.isFinite = true) (hx : x.units = 0) :
    lt (ofDecimal false 5 (-1)) x = false := by
  rcases exists_finite x 0 hfin hx with ⟨s, h, rfl, _⟩
  have hzero : signed s 0 = 0 := by
    cases s <;> rfl
  rw [ofDecimal, if_pos (by decide), ofRatio]
  split
  · rw [lt, rank, rank, hzero, decide_eq_false_iff_not]
    simp only [signed, Bool.false_eq_true, if_false]
    omega
  · rw [lt, rank, rank, hzero, decide_eq_false_iff_not]
    simp only [signed, Bool.false_eq_true, if_false]
    omega

/-- The quotient of a division by a whole number is that of the units. -/
theorem floorQuotient_ofInt (x : Binary64) (c n : Nat) (hfin : x.isFinite = true)
    (hc : x.units = c) (hsize : c < 2 ^ 53 * one) (hpos : 0 < n) (hn : n ≤ 2 ^ 53) :
    x.floorQuotient? (ofInt n) = some ((c / (n * one) : Nat) : Int) := by
  rcases sub_remainder x c n hfin hc hsize hn with ⟨hsub, hunits⟩
  have hsmall : c / (n * one) ≤ 2 ^ 53 := by
    have hle : 2 ^ 53 * one ≤ 2 ^ 53 * (n * one) :=
      Nat.mul_le_mul_left _ (Nat.le_mul_of_pos_left one hpos)
    exact Nat.le_of_lt (Nat.div_lt_of_lt_mul (by rw [Nat.mul_comm]; omega))
  generalize c / (n * one) = q at hunits hsmall ⊢
  rcases exists_finite _ _ hsub hunits with ⟨s, h, heq, hs⟩
  have hmul : q * (n * one) * one = q * one * (n * one) := by ring
  have hne : n * one ≠ 0 := Nat.mul_ne_zero (Nat.ne_of_gt hpos) (Nat.ne_of_gt one_pos)
  have hround := roundUnits_mul (q * one) (n * one) (Nat.pos_of_ne_zero hne)
    (representable_mul_one q hsmall)
  have hlt : roundUnits (q * one * (n * one)) (n * one) < bound := by
    rw [hround]
    exact (representable_mul_one q hsmall).1
  have hdiv : ((x.sub (x.remainder (ofInt n))).div (ofInt n)).isFinite = true ∧
      ((x.sub (x.remainder (ofInt n))).div (ofInt n)).units = (q * one : Nat) := by
    rw [heq, ofInt_eq n hn, div, if_neg hne, hmul, isFinite_ofRatio_iff, units_ofRatio _ _ _ hlt,
      hround, Bool.bne_false]
    refine ⟨(representable_mul_one q hsmall).1, signed_eq s _ ?_⟩
    intro htrue
    have hz := hs htrue
    have : q = 0 := (Nat.mul_eq_zero.mp hz).resolve_right hne
    rw [this, Nat.zero_mul]
  unfold floorQuotient?
  generalize (x.sub (x.remainder (ofInt n))).div (ofInt n) = y at hdiv
  rcases exists_finite y _ hdiv.1 hdiv.2 with ⟨t, h', rfl, ht⟩
  have hfloor : (finite t (q * one) h').floor? = some (q : Int) := by
    rw [floor?, signed_eq t _ ht, Nat.cast_mul, Int.mul_ediv_cancel _ (by have := one_pos; omega)]
  have hrest := units_sub_exact (finite t (q * one) h') (ofInt q) rfl (isFinite_ofInt q hsmall) (by
    rw [hdiv.2, units_ofInt q hsmall, sub_self]
    exact representable_zero)
  rw [hdiv.2, units_ofInt q hsmall, sub_self] at hrest
  simp only [hfloor, Option.map_some, not_half_lt _ hrest.1 hrest.2, Bool.false_eq_true, if_false]

theorem roundUnits_scale_one (n den : Nat) (hden : 0 < den) :
    roundUnits (den * n) den = roundUnits n 1 := by
  have h := roundUnits_scale n 1 den hden
  rwa [Nat.mul_one] at h

/-- The product with a whole number is the rounded product of the units. -/
theorem mul_ofInt (x : Binary64) (c n : Nat) (hfin : x.isFinite = true) (hc : x.units = c)
    (hn : n ≤ 2 ^ 53) (hbound : 2 * (c * n) ≤ bound) :
    (x.mul (ofInt n)).isFinite = true ∧ (x.mul (ofInt n)).units = (roundUnits (c * n) 1 : Nat) := by
  rcases exists_finite x c hfin hc with ⟨s, h, rfl, hs⟩
  have hscale : roundUnits (c * (n * one)) one = roundUnits (c * n) 1 := by
    rw [Nat.mul_comm n one, Nat.mul_left_comm]
    exact roundUnits_scale_one (c * n) one one_pos
  have hlt := roundUnits_lt_bound (c * n) 1 Nat.one_pos (by omega)
  rw [ofInt_eq n hn, mul, isFinite_ofRatio_iff, units_ofRatio _ _ _ (by rw [hscale]; exact hlt),
    hscale, Bool.bne_false]
  refine ⟨hlt, signed_eq s _ ?_⟩
  intro htrue
  rw [hs htrue, Nat.zero_mul, roundUnits_representable 0 representable_zero]

theorem truncate?_eq (x : Binary64) (c : Nat) (hfin : x.isFinite = true) (hc : x.units = c) :
    x.truncate? = some ((c / one : Nat) : Int) := by
  rcases exists_finite x c hfin hc with ⟨s, h, rfl, hs⟩
  rw [truncate?, signed_eq s _ (fun htrue => by rw [hs htrue, Nat.zero_div])]

theorem nearest?_eq (x : Binary64) (c : Nat) (hfin : x.isFinite = true) (hc : x.units = c) :
    x.nearest? = some (roundHalfEven c one : Int) := by
  rcases exists_finite x c hfin hc with ⟨s, h, rfl, hs⟩
  have hzero : s = true → roundHalfEven c one = 0 := by
    intro htrue
    have hmul := roundHalfEven_mul one_pos 0
    rw [Nat.zero_mul] at hmul
    rw [hs htrue, hmul]
  rw [nearest?, signed_eq s _ hzero]

end Binary64

end Captions
