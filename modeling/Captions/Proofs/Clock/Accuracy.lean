import Captions.Proofs.Clock.Order
import Mathlib.Algebra.Order.Floor.Semifield
import Mathlib.Data.Rat.Floor

/-!
# The Accuracy of a Reading

A reading is less than a millisecond off, and on the right side of every second.

The milliseconds are rounded twice, once when the places after the point are
multiplied and once to a whole number, which is little more than half a
millisecond together. Near the end of a second they would be rounded up to the
next one. There they stop instead, at a millisecond that is still less than one
away, so that the second shown is the one that the time lies in.

Whole numbers and doubles are told apart only until their units are known
(`exists_units_read`). From then on a reading is one of units, which is why a
whole number and a double are read in the right order too.

## Main definitions

* `printed?`: What is printed of a number of seconds.

## Theorems

* `readMillis_near`: The milliseconds shown are close to the time.
* `ofSeconds?_zero`: Zeros of all kinds have one reading.
* `reading_accurate`: What is printed is a timestamp, accurate and in order.
-/

namespace Captions

namespace Clock

open Binary64 (one roundUnits)
open Timestamp (Canonical)

/-- What is printed of a number of seconds, if it has a reading. -/
def printed? (x : Number) : Option Text := (ofSeconds? x).map text

-- The second shown is the one that the units lie in.
theorem readMillis_div (c : Nat) : readMillis c / 1000 = c / one := by
  unfold readMillis
  omega

/-- The milliseconds shown are less than one away from the units. -/
theorem readMillis_near (c : Nat) :
    readMillis c * one < c * 1000 + one ∧ c * 1000 < readMillis c * one + one := by
  have hone := Binary64.one_pos
  have hmod := Nat.mod_lt c hone
  have hsplit : c * 1000 = c / one * 1000 * one + c % one * 1000 := by
    calc c * 1000 = (one * (c / one) + c % one) * 1000 := by rw [Nat.div_add_mod]
      _ = c / one * 1000 * one + c % one * 1000 := by ring
  have hnear := Binary64.round_near_spacing (c % one * 1000)
  have hwidth := Binary64.spacing_le_one (c % one * 1000) (by omega)
  have hround := roundHalfEven_near (roundUnits (c % one * 1000) 1) one hone
  unfold readMillis
  rw [hsplit, Nat.add_mul]
  generalize roundHalfEven (roundUnits (c % one * 1000) 1) one = m at hround ⊢
  rw [Nat.mul_comm one m] at hround
  rcases Nat.le_total m 999 with hle | hge
  · rw [Nat.min_eq_left hle]
    omega
  · -- The places after the point are less than a second, and no more is shown.
    rw [Nat.min_eq_right hge]
    have hm : 999 * one ≤ m * one := Nat.mul_le_mul_right one hge
    omega

theorem abs_readMillis_sub (c : Nat) : |(readMillis c : ℚ) / 1000 - (c : ℚ) / one| < 1 / 1000 := by
  have hone := Binary64.one_cast_pos
  rcases readMillis_near c with ⟨hup, hdown⟩
  have hc : (c : ℚ) = (c : ℚ) / one * one := (div_mul_cancel₀ _ (ne_of_gt hone)).symm
  generalize (c : ℚ) / one = q at hc ⊢
  have hhigh : (readMillis c : ℚ) < q * 1000 + 1 := by
    refine lt_of_mul_lt_mul_right ?_ (le_of_lt hone)
    calc (readMillis c : ℚ) * one < c * 1000 + one := by exact_mod_cast hup
      _ = (q * 1000 + 1) * one := by rw [hc]; ring
  have hlow : q * 1000 < (readMillis c : ℚ) + 1 := by
    refine lt_of_mul_lt_mul_right ?_ (le_of_lt hone)
    calc q * 1000 * one = (c : ℚ) * 1000 := by rw [hc]; ring
      _ < readMillis c * one + one := by exact_mod_cast hdown
      _ = (readMillis c + 1) * one := by ring
  rw [abs_lt]
  constructor <;> linarith

/-- Zeros of both kinds and both signs are read as zero. -/
theorem ofSeconds?_zero (z : Number) (h : z.isZero = true) : ofSeconds? z = some zero := by
  cases z with
  | whole n =>
      rw [Number.isZero, decide_eq_true_eq] at h
      rw [h]
      rfl
  | double x =>
      rcases x with _ | s | ⟨s, u, hu⟩
      · exact absurd h Bool.false_ne_true
      · exact absurd h Bool.false_ne_true
      · rw [Number.isZero, Binary64.isZero, decide_eq_true_eq] at h
        subst h
        have hunits : (Binary64.finite s 0 hu).units = (0 : Nat) := by cases s <;> rfl
        have hpos : 0 < 2 ^ 53 * one := Nat.mul_pos (by norm_num) Binary64.one_pos
        have hzero : readMillis 0 = 0 := by
          have hwhole := readMillis_mul_one 0
          rwa [Nat.zero_mul, Nat.zero_mul] at hwhole
        rw [ofSeconds?_eq _ 0 rfl hunits hpos, hzero]
        rfl

theorem ofSeconds?_of_below (x : Number) (h : x.isBelow 0 = true) : ofSeconds? x = some zero := by
  unfold ofSeconds?
  rw [if_pos h]

-- What is printed of a number in a range is the timestamp of its units.
theorem printed?_eq (x : Number) (hlow : x.isBelow 0 = false) (hhigh : x.isBelow (2 ^ 53) = true) :
    ∃ c : Nat, x.value = (c : ℚ) / one ∧
      printed? x = some (Canonical.inFull (readMillis c)).text := by
  rcases exists_units_read x (2 ^ 53) (le_refl _) hlow (by exact_mod_cast hhigh) with
    ⟨c, _, hvalue, hread⟩
  refine ⟨c, hvalue, ?_⟩
  rw [printed?, hread, Option.map_some, Canonical.text_inFull]

/-- What is printed of a number of seconds is a timestamp with the whole second
    of the number, less than a millisecond off. A later number is not printed as
    an earlier time, and what is below zero is printed as zero is. -/
theorem reading_accurate :
    (∀ x : Number, x.isBelow 0 = false → x.isBelow (2 ^ 53) = true →
      ∃ c : Canonical, printed? x = some c.text ∧ c.total / 1000 = ⌊x.value⌋₊ ∧
        |(c.total : ℚ) / 1000 - x.value| < 1 / 1000) ∧
    (∀ x y : Number, x.isBelow 0 = false → x.isBelow (2 ^ 53) = true →
      y.isBelow 0 = false → y.isBelow (2 ^ 53) = true → x.value ≤ y.value →
      ∀ c d : Canonical, printed? x = some c.text → printed? y = some d.text →
        c.total ≤ d.total) ∧
    ∀ x z : Number, x.isBelow 0 = true → z.isZero = true →
      printed? x = printed? z ∧ printed? z = some "00:00:00,000".toList := by
  refine ⟨?_, ?_, ?_⟩
  · intro x hlow hhigh
    rcases printed?_eq x hlow hhigh with ⟨c, hvalue, hprinted⟩
    refine ⟨_, hprinted, ?_, ?_⟩
    · rw [Canonical.total_inFull, readMillis_div, hvalue, Nat.floor_div_eq_div]
    · rw [Canonical.total_inFull, hvalue]
      exact abs_readMillis_sub c
  · intro x y hxlow hxhigh hylow hyhigh hle c d hc hd
    rcases printed?_eq x hxlow hxhigh with ⟨a, hx, ha⟩
    rcases printed?_eq y hylow hyhigh with ⟨b, hy, hb⟩
    rw [hc, Option.some.injEq] at ha
    rw [hd, Option.some.injEq] at hb
    rw [Canonical.text_inj _ _ ha, Canonical.text_inj _ _ hb, Canonical.total_inFull,
      Canonical.total_inFull]
    rw [hx, hy, div_le_div_iff_of_pos_right Binary64.one_cast_pos] at hle
    exact readMillis_mono a b (by exact_mod_cast hle)
  · intro x z hx hz
    rw [printed?, printed?, ofSeconds?_of_below x hx, ofSeconds?_zero z hz]
    exact ⟨rfl, by decide +kernel⟩

/-- A number of seconds that is nearest to a full hour in milliseconds. -/
def almostHour : Number := .double (Binary64.ofDecimal false 35999999 (-4))

theorem reading_accurate_almostHour :
    almostHour.isBelow 0 = false ∧ almostHour.isBelow (2 ^ 53) = true ∧
      (Number.whole 3600).isBelow 0 = false ∧ (Number.whole 3600).isBelow (2 ^ 53) = true ∧
      almostHour.value ≤ (Number.whole 3600).value ∧
      (∃ c d : Canonical, c.text = "00:59:59,999".toList ∧ d.text = "01:00:00,000".toList ∧
        printed? almostHour = some c.text ∧ printed? (.whole 3600) = some d.text ∧
        c.total / 1000 = ⌊almostHour.value⌋₊ ∧
        |(c.total : ℚ) / 1000 - almostHour.value| < 1 / 1000 ∧ c.total ≤ d.total) ∧
      (Number.double (.infinite true)).isBelow 0 = true ∧ (Number.whole 0).isZero = true ∧
      printed? (.double (.infinite true)) = printed? (.whole 0) := by
  have hlow : almostHour.isBelow 0 = false := by decide +kernel
  have hhigh : almostHour.isBelow (2 ^ 53) = true := by decide +kernel
  have hlow' : (Number.whole 3600).isBelow 0 = false := by decide
  have hhigh' : (Number.whole 3600).isBelow (2 ^ 53) = true := by decide
  have hle : almostHour.value ≤ (Number.whole 3600).value := by decide +kernel
  have hprinted : printed? almostHour = some "00:59:59,999".toList := by decide +kernel
  have hprinted' : printed? (.whole 3600) = some "01:00:00,000".toList := by decide +kernel
  rcases reading_accurate with ⟨haccurate, hordered, hbelow⟩
  rcases haccurate almostHour hlow hhigh with ⟨c, hc, hsecond, hnear⟩
  rcases haccurate (.whole 3600) hlow' hhigh' with ⟨d, hd, _, _⟩
  have hctext := Option.some.inj (hc.symm.trans hprinted)
  have hdtext := Option.some.inj (hd.symm.trans hprinted')
  exact ⟨hlow, hhigh, hlow', hhigh', hle,
    ⟨c, d, hctext, hdtext, hc, hd, hsecond, hnear,
      hordered _ _ hlow hhigh hlow' hhigh' hle c d hc hd⟩,
    by decide, by decide, (hbelow _ _ (by decide) (by decide)).1⟩

end Clock

end Captions
