import Captions.Proofs.Number.Value

/-!
# Running Sums of Differences

How far a running sum of doubles strays from a number whose differences it
adds up.

Every step of such a sum may round twice, once in the difference and once in
the sum, and a bound that counts the steps is useless over a long run. But most
steps do not round at all. Doubles of one binade are whole multiples of one
spacing, so the difference of two of them is exact, and adding it to a sum with
the same spacing or a finer one is exact too, unless the sum outgrows its
binade. What rounds is therefore only the step at which one of the two enters a
binade for the first time, and the errors of those are a geometric series whose
last term is about the spacing itself.

`Follows` is the invariant: a sum with a spacing no coarser than that of the
number it follows, and a distance of a few spacings. The step (`follows_step`)
needs the number to keep clear of the end of its binade, because a sum that
gets there before the number does has too coarse a spacing to continue exactly.

Everything is stated of counts of units. `add_units` and `sub_units` are what
connects them with doubles that are not negative.

## Main definitions

* `spacing`: The distance of the doubles around a count of units.
* `Follows`: A running sum is close to the number it follows.

## Theorems

* `round_near_spacing`: Rounding moves a count by half a spacing.
* `spacing_le_spacing_round`: Rounding does not leave a binade downwards.
* `follows_step`: One step of the sum keeps it close.
* `add_units`, `sub_units`: Sums and differences of doubles, in units.
-/

namespace Captions

namespace Binary64

/-- The distance between neighbouring doubles around a count of units. -/
def spacing (n : Nat) : Nat := 2 ^ (n.log2 - 52)

theorem spacing_pos (n : Nat) : 0 < spacing n := Nat.two_pow_pos _

theorem step_one (n : Nat) : step n 1 = spacing n := by
  rw [step, excess, spacing, Nat.div_one, Nat.one_mul]

theorem representable_iff (n : Nat) : Representable n ↔ n < bound ∧ spacing n ∣ n := Iff.rfl

-- A number lies within the `2 ^ 53` spacings of its binade.
theorem lt_spacing (n : Nat) : n < 2 ^ 53 * spacing n := by
  rw [spacing, ← Nat.pow_add]
  exact Nat.lt_of_lt_of_le Nat.lt_log2_self (Nat.pow_le_pow_right (by omega) (by omega))

theorem spacing_mul_le (n : Nat) : spacing n * 2 ^ 52 ≤ max n (2 ^ 52) := by
  have h := step_le n 1
  rwa [step_one, Nat.one_mul] at h

-- Up to `2 ^ 30` the spacing is less than a millionth.
theorem spacing_le_one (n : Nat) (h : n ≤ 2 ^ 30 * one) :
    2 ^ 20 * spacing n ≤ one := by
  have hwidth := spacing_mul_le n
  have hone := two_pow_le_one 64 (by decide)
  rcases Nat.le_total n (2 ^ 52) with hle | hge
  · rw [Nat.max_eq_right hle] at hwidth
    omega
  · rw [Nat.max_eq_left hge] at hwidth
    omega

theorem spacing_le_of_lt (m n : Nat) (h : n < 2 ^ 53 * spacing m) : spacing n ≤ spacing m := by
  unfold spacing at h ⊢
  rcases Nat.eq_zero_or_pos n with rfl | hpos
  · rw [Nat.log2_zero]
    exact Nat.pow_le_pow_right (by omega) (by omega)
  · rw [← Nat.pow_add] at h
    have hlog := (Nat.log2_lt (by omega)).mpr h
    exact Nat.pow_le_pow_right (by omega) (by omega)

theorem le_spacing_of_le (m n : Nat) (h : 2 ^ 52 * spacing m ≤ n) : spacing m ≤ spacing n := by
  unfold spacing at h ⊢
  rw [← Nat.pow_add] at h
  have hne : n ≠ 0 := by
    intro hz
    have := Nat.two_pow_pos (52 + (m.log2 - 52))
    omega
  have hlog := (Nat.le_log2 hne).mpr h
  exact Nat.pow_le_pow_right (by omega) (by omega)

theorem spacing_mono (m n : Nat) (h : m ≤ n) : spacing m ≤ spacing n :=
  spacing_le_of_lt n m (Nat.lt_of_le_of_lt h (lt_spacing n))

theorem spacing_dvd_spacing (m n : Nat) (h : spacing m ≤ spacing n) : spacing m ∣ spacing n :=
  Nat.pow_dvd_pow 2 ((Nat.pow_le_pow_iff_right (by omega)).mp h)

-- Spacings are powers of two, so a coarser one is at least twice as wide.
theorem two_mul_spacing_le (m n : Nat) (h : spacing m < spacing n) :
    2 * spacing m ≤ spacing n := by
  unfold spacing at h ⊢
  have hlt := (Nat.pow_lt_pow_iff_right (by omega)).mp h
  rw [Nat.mul_comm, ← Nat.pow_succ]
  exact Nat.pow_le_pow_right (by omega) hlt

-- Multiples of a spacing are doubles as far as the binade of it reaches.
theorem round_multiple (m n : Nat) (hdvd : spacing m ∣ n) (hle : n ≤ 2 ^ 53 * spacing m)
    (hbound : n < bound) : roundUnits n 1 = n := by
  refine roundUnits_representable n (representable_of_dvd n (m.log2 - 52) hdvd ?_ hbound)
  rw [Nat.pow_add, Nat.mul_comm]
  exact hle

theorem round_near_spacing (n : Nat) :
    2 * roundUnits n 1 ≤ 2 * n + spacing n ∧ 2 * n ≤ 2 * roundUnits n 1 + spacing n := by
  have h := roundUnits_near n 1 Nat.one_pos
  rwa [step_one, Nat.one_mul] at h

theorem spacing_le_spacing_round (n : Nat) : spacing n ≤ spacing (roundUnits n 1) := by
  rcases Nat.eq_zero_or_pos (excess n 1) with hz | hpos
  · have hone : spacing n = 1 := by
      rw [excess, Nat.div_one] at hz
      rw [spacing, hz, Nat.pow_zero]
    rw [hone]
    exact spacing_pos _
  · have h := two_pow_le_roundHalfEven n 1 hpos
    refine le_spacing_of_le n _ ?_
    have hspacing : 2 ^ excess n 1 = spacing n := by
      rw [spacing, excess, Nat.div_one]
    rw [roundUnits_eq, hspacing]
    exact Nat.mul_le_mul_right _ h

/-- A running sum is close to the number that it follows, and no coarser. -/
structure Follows (sum n : Nat) : Prop where
  /-- The sum is not in a later binade. -/
  spacing_le : spacing sum ≤ spacing n
  /-- The number is not far above the sum. -/
  le_sum : n ≤ sum + (3 * spacing n + spacing sum)
  /-- The number is not far below the sum. -/
  sum_le : sum ≤ n + (3 * spacing n + spacing sum)

theorem follows_self (n : Nat) : Follows n n :=
  ⟨Nat.le_refl _, Nat.le_add_right _ _, Nat.le_add_right _ _⟩

-- Both numbers in one binade: the difference is exact, and the sum rounds only
-- where it enters a binade of its own.
theorem follows_step_same (sum x y : Nat) (h : Follows sum x) (hx : spacing x ∣ x)
    (hy : spacing y ∣ y) (hsum : spacing sum ∣ sum) (hxy : x ≤ y)
    (hsame : spacing x = spacing y) (hroom : y + 8 * spacing y ≤ 2 ^ 53 * spacing y)
    (hbound : y + 8 * spacing y < bound) :
    Follows (roundUnits (sum + roundUnits (y - x) 1) 1) y := by
  rcases h with ⟨hle, hlo, hhi⟩
  have hpos := spacing_pos y
  have hexact : roundUnits (y - x) 1 = y - x := by
    refine round_multiple x (y - x) (Nat.dvd_sub (hsame ▸ hy) hx) ?_ (by omega)
    rw [hsame]
    omega
  rw [hexact]
  have hgrowth : spacing sum ≤ spacing (sum + (y - x)) := spacing_mono _ _ (Nat.le_add_right _ _)
  have hup : spacing (sum + (y - x)) ≤ spacing y := spacing_le_of_lt y _ (by omega)
  rcases Nat.eq_or_lt_of_le hgrowth with heq | hlt
  · -- The sum stays in its binade, where its steps are exact.
    have hdvd : spacing (sum + (y - x)) ∣ sum + (y - x) := by
      rw [← heq]
      have hfine := spacing_dvd_spacing sum x hle
      exact Nat.dvd_add hsum (Nat.dvd_sub (Nat.dvd_trans hfine (hsame ▸ hy))
        (Nat.dvd_trans hfine hx))
    rw [round_multiple _ _ hdvd (Nat.le_of_lt (lt_spacing _)) (by omega)]
    exact ⟨hup, by omega, by omega⟩
  · have hdouble := two_mul_spacing_le _ _ hlt
    have hnear := round_near_spacing (sum + (y - x))
    have hround := spacing_le_spacing_round (sum + (y - x))
    refine ⟨spacing_le_of_lt y _ ?_, ?_, ?_⟩ <;> omega

-- The number enters a binade: both operations round, but the distance that was
-- allowed before is halved in the new spacing.
theorem follows_step_later (sum x y : Nat) (h : Follows sum x) (hxy : x ≤ y)
    (hlater : spacing x < spacing y) (hroom : y + 8 * spacing y ≤ 2 ^ 53 * spacing y) :
    Follows (roundUnits (sum + roundUnits (y - x) 1) 1) y := by
  rcases h with ⟨hle, hlo, hhi⟩
  have hpos := spacing_pos y
  have hdouble := two_mul_spacing_le _ _ hlater
  have hdiff := round_near_spacing (y - x)
  have hfine := spacing_mono (y - x) y (Nat.sub_le y x)
  generalize roundUnits (y - x) 1 = d at hdiff ⊢
  have hup : spacing (sum + d) ≤ spacing y := spacing_le_of_lt y _ (by omega)
  have hnear := round_near_spacing (sum + d)
  have hround := spacing_le_spacing_round (sum + d)
  refine ⟨spacing_le_of_lt y _ ?_, ?_, ?_⟩ <;> omega

/-- Adding the difference to the next number keeps a running sum close. -/
theorem follows_step (sum x y : Nat) (h : Follows sum x) (hx : spacing x ∣ x)
    (hy : spacing y ∣ y) (hsum : spacing sum ∣ sum) (hxy : x ≤ y)
    (hroom : y + 8 * spacing y ≤ 2 ^ 53 * spacing y) (hbound : y + 8 * spacing y < bound) :
    Follows (roundUnits (sum + roundUnits (y - x) 1) 1) y := by
  rcases Nat.eq_or_lt_of_le (spacing_mono x y hxy) with hsame | hlater
  · exact follows_step_same sum x y h hx hy hsum hxy hsame hroom hbound
  · exact follows_step_later sum x y h hxy hlater hroom

theorem spacing_dvd_units (x : Binary64) (n : Nat) (h : x.units = n) : spacing n ∣ n := by
  have hrep := representable_natAbs_units x
  rw [h, Int.natAbs_natCast] at hrep
  exact ((representable_iff n).mp hrep).2

theorem add_units (x y : Binary64) (m n : Nat) (hx : x.isFinite = true) (hy : y.isFinite = true)
    (hm : x.units = m) (hn : y.units = n) (hbound : 2 * (m + n) ≤ bound) :
    (x.add y).isFinite = true ∧ (x.add y).units = (roundUnits (m + n) 1 : Nat) := by
  have hfin : (x.add y).isFinite = true := by
    rcases add_eq x y hx hy with ⟨_, hfin, _⟩ | heq
    · exact hfin
    · rw [heq, hm, hn]
      exact isFinite_ofUnits _ (by omega)
  exact ⟨hfin, units_add x y m n hm hn hfin⟩

theorem sub_units (x y : Binary64) (m n : Nat) (hx : x.isFinite = true) (hy : y.isFinite = true)
    (hm : x.units = m) (hn : y.units = n) (hle : n ≤ m) (hbound : 2 * m ≤ bound) :
    (x.sub y).isFinite = true ∧ (x.sub y).units = (roundUnits (m - n) 1 : Nat) := by
  have hfin : y.neg.isFinite = true := by
    rw [isFinite_neg]
    exact hy
  have hsum : x.units + y.neg.units = ((m - n : Nat) : Int) := by
    rw [units_neg, hm, hn]
    omega
  rw [sub]
  rcases add_eq x y.neg hx hfin with ⟨hz, hsub, hu⟩ | heq
  · have hzero : m - n = 0 := by omega
    rw [hzero, roundUnits_representable 0 representable_zero]
    exact ⟨hsub, hu⟩
  · have hlt := roundUnits_lt_bound (m - n) 1 Nat.one_pos (by omega)
    rw [heq, hsum, ofUnits_natCast, ofRatio_eq _ _ _ hlt]
    exact ⟨rfl, rfl⟩

end Binary64

end Captions
