import Captions.Number
import Captions.Proofs.Number.Rounding
import Mathlib.Algebra.Order.Field.Basic
import Mathlib.Algebra.Order.Ring.Rat
import Mathlib.Data.Rat.Cast.Order
import Mathlib.Tactic.Linarith
import Mathlib.Tactic.NormNum
import Mathlib.Tactic.Positivity

/-!
# Values of Doubles

The exact rational value of a double, and how far each operation's result is
from the exact result.

A finite double is a whole number of units, so its value is that number over
the units in one. What has no value, an infinity or not-a-number, is given the
value zero so that `value` is a total function; every statement about a value
therefore asks for or provides finiteness.

Addition and subtraction are the operations of the timeline. Both are exact in
units before they are rounded, so their error is relative and there is no term
for underflow: `add_near` and `sub_near` hold wherever the result is finite.
A quotient read from decimals can underflow, so `ofRatio_near` asks for a
numerator that is zero or large.

Errors are stated relative to the exact result, and `isFinite_add` with its
relatives says when a result is finite. They ask for an exact result below
`2 ^ 128`, which no time in question comes near.

## Main definitions

* `units`: The signed count of units of a double.
* `value`: The exact value of a double.
* `Number.value`: The exact value of a number.

## Theorems

* `lt_iff_value`: Comparing doubles is comparing their values.
* `add_near`, `sub_near`: Sums and differences are rounded once.
* `isFinite_add`, `isFinite_sub`: Moderate sums and differences are finite.
* `units_add`: A finite sum is the rounded sum of the units.
* `units_add_exact`: A sum that a double holds is not rounded.
* `ofInt_add`, `ofInt_mul`: Arithmetic on whole numbers is exact.
* `ofRatio_near`, `ofRatio_mul_one_near`: A quotient is rounded once.
-/

namespace Captions

namespace Binary64

/-- The signed count of units of a double; zero when it is not finite. -/
def units : Binary64 → Int
  | .finite s u _ => signed s u
  | _ => 0

/-- The exact value of a double; zero when it is not finite. -/
def value (x : Binary64) : ℚ := (x.units : ℚ) / (one : ℚ)

theorem one_cast_pos : (0 : ℚ) < (one : ℚ) := Nat.cast_pos.mpr one_pos

theorem one_eq : one = 2 ^ depth := by
  unfold one
  generalize depth = n
  rfl

theorem bound_eq : bound = 2 ^ (depth + 1024) := by
  unfold bound
  generalize depth + 1024 = n
  rfl

theorem two_pow_dvd_one (k : Nat) (hk : k ≤ depth) : 2 ^ k ∣ one := by
  rw [one_eq]
  exact Nat.pow_dvd_pow 2 hk

theorem two_pow_le_one (k : Nat) (hk : k ≤ depth) : 2 ^ k ≤ one :=
  Nat.le_of_dvd one_pos (two_pow_dvd_one k hk)

theorem two_pow_mul_one_le_bound (k : Nat) (hk : k ≤ 1024) : 2 ^ k * one ≤ bound := by
  rw [one_eq, bound_eq, ← Nat.pow_add]
  exact Nat.pow_le_pow_right (by omega) (by omega)

theorem natAbs_signed (s : Bool) (u : Nat) : (signed s u).natAbs = u := by
  cases s
  · simp only [signed, Bool.false_eq_true, if_false, Int.natAbs_natCast]
  · simp only [signed, if_true, Int.natAbs_neg, Int.natAbs_natCast]

theorem signed_false (u : Nat) : signed false u = u := if_neg Bool.false_ne_true

theorem signed_false_add (u v : Nat) :
    signed false u + signed false v = ((u + v : Nat) : Int) := by
  rw [signed_false, signed_false, Nat.cast_add]

theorem value_finite (u : Nat) (h : Representable u) :
    (finite false u h).value = (u : ℚ) / (one : ℚ) := by
  rw [value, units, signed_false, Int.cast_natCast]

theorem signed_natAbs (z : Int) : signed (decide (z < 0)) z.natAbs = z := by
  unfold signed
  by_cases hz : z < 0
  · rw [if_pos (decide_eq_true hz)]
    omega
  · rw [if_neg (by simp only [hz, decide_false, Bool.false_eq_true, not_false_eq_true])]
    omega

theorem representable_natAbs_units (x : Binary64) : Representable x.units.natAbs := by
  cases x with
  | nan => exact representable_zero
  | infinite s => exact representable_zero
  | finite s u h =>
      rw [units, natAbs_signed]
      exact h

theorem value_zero : zero.value = 0 := by
  simp only [value, units, zero, signed, Bool.false_eq_true, if_false, Nat.cast_zero,
    Int.cast_zero, zero_div]

theorem isFinite_neg (x : Binary64) : x.neg.isFinite = x.isFinite := by
  cases x <;> rfl

theorem units_neg (x : Binary64) : x.neg.units = -x.units := by
  cases x with
  | nan => rfl
  | infinite s => rfl
  | finite s u h =>
      cases s <;> simp only [neg, units, signed, Bool.not_false, Bool.not_true, if_true,
        Bool.false_eq_true, if_false, neg_neg]

theorem value_neg (x : Binary64) : x.neg.value = -x.value := by
  rw [value, value, units_neg, Int.cast_neg, neg_div]

-- A value is below another exactly when its count of units is.
theorem value_lt_value (x y : Binary64) : x.value < y.value ↔ x.units < y.units := by
  rw [value, value, div_lt_div_iff_of_pos_right one_cast_pos, Int.cast_lt]

theorem lt_iff_value (x y : Binary64) (hx : x.isFinite = true) (hy : y.isFinite = true) :
    x.lt y = true ↔ x.value < y.value := by
  rw [value_lt_value]
  cases x with
  | nan => exact absurd hx (by decide)
  | infinite s => exact absurd hx (by simp only [isFinite, Bool.false_eq_true, not_false_eq_true])
  | finite s u h =>
      cases y with
      | nan => exact absurd hy (by decide)
      | infinite t =>
          exact absurd hy (by simp only [isFinite, Bool.false_eq_true, not_false_eq_true])
      | finite t v h' => simp only [lt, rank, units, decide_eq_true_eq]

-- Rounding overflows only beyond half of the overflow bound.
theorem roundUnits_lt_bound (num den : Nat) (hden : 0 < den) (h : 2 * num ≤ den * bound) :
    roundUnits num den < bound := by
  have hnear := (roundUnits_near num den hden).1
  have hstep := step_le num den
  have hbig : 2 ^ 53 ≤ bound := by
    have h1 := two_pow_le_one 53 (by decide)
    have h2 := two_pow_mul_one_le_bound 0 (by omega)
    omega
  have hdb : den * 2 ^ 53 ≤ den * bound := Nat.mul_le_mul_left _ hbig
  refine Nat.lt_of_mul_lt_mul_left (a := den) ?_
  rcases Nat.le_total num (den * 2 ^ 52) with hle | hle
  · rw [Nat.max_eq_right hle] at hstep
    have := Nat.le_of_mul_le_mul_right hstep (Nat.two_pow_pos 52)
    omega
  · rw [Nat.max_eq_left hle] at hstep
    omega

theorem ofRatio_eq (s : Bool) (num den : Nat) (h : roundUnits num den < bound) :
    ofRatio s num den = .finite s (roundUnits num den) (representable_roundUnits h) := by
  rw [ofRatio, dif_pos h]

theorem units_ofRatio (s : Bool) (num den : Nat) (h : roundUnits num den < bound) :
    (ofRatio s num den).units = signed s (roundUnits num den) := by
  rw [ofRatio_eq s num den h, units]

theorem isFinite_ofRatio_iff (s : Bool) (num den : Nat) :
    (ofRatio s num den).isFinite = true ↔ roundUnits num den < bound := by
  by_cases h : roundUnits num den < bound
  · rw [ofRatio_eq s num den h]
    simp only [isFinite, h]
  · rw [ofRatio, dif_neg h]
    simp only [isFinite, h, Bool.false_eq_true]

theorem ofUnits_natCast (n : Nat) : ofUnits n = ofRatio false n 1 := by
  have hneg : decide ((n : Int) < 0) = false := by
    rw [decide_eq_false_iff_not]
    omega
  rw [ofUnits, hneg, Int.natAbs_natCast]

theorem ofInt_natCast (n : Nat) : ofInt n = ofRatio false (n * one) 1 := by
  have hneg : decide ((n : Int) < 0) = false := by
    rw [decide_eq_false_iff_not]
    omega
  rw [ofInt, hneg, Int.natAbs_natCast]

-- The error of a rounded quotient, with both sides over the denominator.
theorem abs_value_ofRatio_sub (num den : Nat) (hden : 0 < den)
    (h : roundUnits num den < bound) :
    |(ofRatio false num den).value - (num : ℚ) / (den * one)|
      = |(den : ℚ) * roundUnits num den - num| / (den * one) := by
  have hdenq : (0 : ℚ) < den := Nat.cast_pos.mpr hden
  have hval : (ofRatio false num den).value = (roundUnits num den : ℚ) / one := by
    rw [value, units_ofRatio false num den h]
    simp only [signed, Bool.false_eq_true, if_false, Int.cast_natCast]
  have hsplit : (roundUnits num den : ℚ) / one - (num : ℚ) / (den * one)
      = (den * roundUnits num den - num) / (den * one) := by
    rw [sub_div, mul_div_mul_left _ _ (ne_of_gt hdenq)]
  rw [hval, hsplit, abs_div, abs_of_pos (mul_pos hdenq one_cast_pos)]

/-- A positive quotient is rounded once, with a relative error, unless it is
    too small for the full number of bits. -/
theorem ofRatio_near (num den : Nat) (hden : 0 < den) (hlarge : num = 0 ∨ den * 2 ^ 52 ≤ num)
    (hbound : 2 * num ≤ den * bound) :
    (ofRatio false num den).isFinite = true ∧
      |(ofRatio false num den).value - (num : ℚ) / (den * one)|
        ≤ (num : ℚ) / (den * one) / 2 ^ 53 := by
  have hlt := roundUnits_lt_bound num den hden hbound
  refine ⟨(isFinite_ofRatio_iff false num den).mpr hlt, ?_⟩
  have hdenq : (0 : ℚ) < den := Nat.cast_pos.mpr hden
  have hstep : step num den * 2 ^ 52 ≤ num ∨ num = 0 := by
    rcases hlarge with hz | hle
    · exact Or.inr hz
    · have := step_le num den
      rw [Nat.max_eq_left hle] at this
      exact Or.inl this
  have hdist : |(den : ℚ) * roundUnits num den - num| ≤ num / 2 ^ 53 := by
    rcases hstep with hstep | hz
    · rcases roundUnits_near num den hden with ⟨h1, h2⟩
      have h1q : 2 * ((den : ℚ) * roundUnits num den) ≤ 2 * num + step num den := by
        exact_mod_cast h1
      have h2q : 2 * (num : ℚ) ≤ 2 * (den * roundUnits num den) + step num den := by
        exact_mod_cast h2
      have h3q : (step num den : ℚ) * 2 ^ 52 ≤ num := by
        exact_mod_cast hstep
      rw [abs_le]
      constructor <;> linarith
    · subst hz
      rw [roundUnits_zero den hden]
      simp only [Nat.cast_zero, mul_zero, sub_zero, abs_zero, zero_div, le_refl]
  rw [abs_value_ofRatio_sub num den hden hlt, div_right_comm]
  exact div_le_div_of_nonneg_right hdist (le_of_lt (mul_pos hdenq one_cast_pos))

/-- A quotient of whole numbers is rounded once, with a relative error. -/
theorem ofRatio_mul_one_near (n den : Nat) (hpos : 0 < den) (hden : den ≤ 2 ^ 100)
    (hn : n ≤ 2 ^ 100) :
    (ofRatio false (n * one) den).isFinite = true ∧
      |(ofRatio false (n * one) den).value - (n : ℚ) / den| ≤ (n : ℚ) / den / 2 ^ 53 := by
  have hone := two_pow_le_one 152 (by decide)
  have hbound := two_pow_mul_one_le_bound 101 (by omega)
  have hle : n * one ≤ 2 ^ 100 * one := Nat.mul_le_mul_right _ hn
  have hsize : bound ≤ den * bound := Nat.le_mul_of_pos_left bound hpos
  have hlarge : n * one = 0 ∨ den * 2 ^ 52 ≤ n * one := by
    rcases Nat.eq_zero_or_pos n with hz | hnpos
    · left
      rw [hz, Nat.zero_mul]
    · right
      have := Nat.le_mul_of_pos_left one hnpos
      omega
  have hnear := ofRatio_near (n * one) den hpos hlarge (by omega)
  rwa [Nat.cast_mul, mul_div_mul_right _ _ (ne_of_gt one_cast_pos)] at hnear

-- A count of units is rounded with a relative error; small ones not at all.
theorem roundUnits_one_near (n : Nat) : |(roundUnits n 1 : ℚ) - n| ≤ (n : ℚ) / 2 ^ 53 := by
  rcases Nat.lt_or_ge n (2 ^ 52) with hsmall | hlarge
  · have hbound : n < bound := by
      have h1 := two_pow_le_one 52 (by decide)
      have h2 := two_pow_mul_one_le_bound 0 (by omega)
      omega
    have hexact := roundUnits_representable n
      (representable_of_dvd n 0 (one_dvd n) (by omega) hbound)
    rw [hexact, sub_self, abs_zero]
    exact div_nonneg (Nat.cast_nonneg n) (pow_nonneg (by norm_num) 53)
  · have hstep := step_le n 1
    rw [Nat.one_mul, Nat.max_eq_left hlarge] at hstep
    rcases roundUnits_near n 1 Nat.one_pos with ⟨h1, h2⟩
    rw [Nat.one_mul] at h1 h2
    have h1q : 2 * (roundUnits n 1 : ℚ) ≤ 2 * n + step n 1 := by
      exact_mod_cast h1
    have h2q : 2 * (n : ℚ) ≤ 2 * roundUnits n 1 + step n 1 := by
      exact_mod_cast h2
    have h3q : (step n 1 : ℚ) * 2 ^ 52 ≤ n := by
      exact_mod_cast hstep
    rw [abs_le]
    constructor <;> linarith

theorem cast_signed (s : Bool) (u : Nat) :
    ((signed s u : Int) : ℚ) = (if s then -1 else 1) * (u : ℚ) := by
  cases s
  · simp only [signed, Bool.false_eq_true, if_false, Int.cast_natCast, one_mul]
  · simp only [signed, if_true, Int.cast_neg, Int.cast_natCast, neg_mul, one_mul]

theorem abs_signed_sub (s : Bool) (u v : Nat) :
    |((signed s u : Int) : ℚ) - (signed s v : Int)| = |(u : ℚ) - v| := by
  rw [cast_signed, cast_signed, ← mul_sub, abs_mul]
  cases s
  · simp only [Bool.false_eq_true, if_false, abs_one, one_mul]
  · simp only [if_true, abs_neg, abs_one, one_mul]

theorem ofUnits_near (z : Int) (h : (ofUnits z).isFinite = true) :
    |((ofUnits z).units : ℚ) - z| ≤ |(z : ℚ)| / 2 ^ 53 := by
  rw [ofUnits, isFinite_ofRatio_iff] at h
  rw [ofUnits, units_ofRatio _ _ _ h]
  have habs : |(z : ℚ)| = (z.natAbs : ℚ) := by
    rw [Nat.cast_natAbs, Int.cast_abs]
  have hdist := abs_signed_sub (decide (z < 0)) (roundUnits z.natAbs 1) z.natAbs
  rw [signed_natAbs] at hdist
  rw [hdist, habs]
  exact roundUnits_one_near z.natAbs

-- A finite sum has finite summands.
theorem isFinite_of_add (x y : Binary64) (h : (x.add y).isFinite = true) :
    x.isFinite = true ∧ y.isFinite = true := by
  cases x with
  | nan => exact absurd h (by simp only [add, isFinite, Bool.false_eq_true, not_false_eq_true])
  | infinite s =>
      cases y with
      | nan => exact absurd h (by simp only [add, isFinite, Bool.false_eq_true, not_false_eq_true])
      | infinite t =>
          simp only [add] at h
          split at h
          · exact absurd h (by simp only [isFinite, Bool.false_eq_true, not_false_eq_true])
          · exact absurd h (by simp only [isFinite, Bool.false_eq_true, not_false_eq_true])
      | finite t v h' =>
          exact absurd h (by simp only [add, isFinite, Bool.false_eq_true, not_false_eq_true])
  | finite s u hu =>
      cases y with
      | nan => exact absurd h (by simp only [add, isFinite, Bool.false_eq_true, not_false_eq_true])
      | infinite t =>
          exact absurd h (by simp only [add, isFinite, Bool.false_eq_true, not_false_eq_true])
      | finite t v hv => exact ⟨rfl, rfl⟩

-- The sum of finite doubles is the rounded sum of their units, up to the sign of a
-- zero.
theorem add_eq (x y : Binary64) (hx : x.isFinite = true) (hy : y.isFinite = true) :
    (x.units + y.units = 0 ∧ (x.add y).isFinite = true ∧ (x.add y).units = 0) ∨
      x.add y = ofUnits (x.units + y.units) := by
  cases x with
  | nan => exact absurd hx (by decide)
  | infinite s => exact absurd hx (by simp only [isFinite, Bool.false_eq_true, not_false_eq_true])
  | finite s u hu =>
      cases y with
      | nan => exact absurd hy (by decide)
      | infinite t =>
          exact absurd hy (by simp only [isFinite, Bool.false_eq_true, not_false_eq_true])
      | finite t v hv =>
          simp only [units, add]
          by_cases hz : signed s u + signed t v = 0
          · left
            rw [if_pos hz]
            refine ⟨hz, rfl, ?_⟩
            simp only [signed]
            split <;> rfl
          · right
            rw [if_neg hz]

/-- A finite sum of doubles that are not negative, in units. -/
theorem units_add (x y : Binary64) (m n : Nat) (hm : x.units = m) (hn : y.units = n)
    (h : (x.add y).isFinite = true) : (x.add y).units = (roundUnits (m + n) 1 : Nat) := by
  have hfin := isFinite_of_add x y h
  rcases add_eq x y hfin.1 hfin.2 with ⟨hz, _, hu⟩ | heq
  · have hzero : m + n = 0 := by omega
    rw [hzero, roundUnits_representable 0 representable_zero]
    exact hu
  · rw [hm, hn, ← Nat.cast_add, ofUnits_natCast] at heq
    rw [heq, isFinite_ofRatio_iff] at h
    rw [heq, units_ofRatio _ _ _ h, signed_false]

theorem isFinite_ofUnits (z : Int) (h : 2 * z.natAbs ≤ bound) : (ofUnits z).isFinite = true := by
  rw [ofUnits, isFinite_ofRatio_iff]
  exact roundUnits_lt_bound z.natAbs 1 Nat.one_pos (by omega)

/-- A sum is its exact value rounded once. -/
theorem add_near (x y : Binary64) (h : (x.add y).isFinite = true) :
    |(x.add y).value - (x.value + y.value)| ≤ |x.value + y.value| / 2 ^ 53 := by
  have hxy := isFinite_of_add x y h
  have hsum : x.value + y.value = ((x.units + y.units : Int) : ℚ) / one := by
    rw [value, value, ← add_div, Int.cast_add]
  rw [hsum, value, ← sub_div, abs_div, abs_div, abs_of_pos one_cast_pos, div_right_comm]
  refine div_le_div_of_nonneg_right ?_ (le_of_lt one_cast_pos)
  rcases add_eq x y hxy.1 hxy.2 with ⟨hz, _, hu⟩ | heq
  · rw [hz, hu]
    simp only [Int.cast_zero, sub_self, abs_zero, zero_div, le_refl]
  · rw [heq] at h ⊢
    exact ofUnits_near _ h

theorem sub_near (x y : Binary64) (h : (x.sub y).isFinite = true) :
    |(x.sub y).value - (x.value - y.value)| ≤ |x.value - y.value| / 2 ^ 53 := by
  have := add_near x y.neg h
  rwa [value_neg, ← sub_eq_add_neg] at this

theorem isFinite_add (x y : Binary64) (hx : x.isFinite = true) (hy : y.isFinite = true)
    (h : |x.value + y.value| ≤ 2 ^ 128) : (x.add y).isFinite = true := by
  rcases add_eq x y hx hy with ⟨_, hfin, _⟩ | heq
  · exact hfin
  · rw [heq]
    refine isFinite_ofUnits _ ?_
    have hsum : x.value + y.value = ((x.units + y.units : Int) : ℚ) / one := by
      rw [value, value, ← add_div, Int.cast_add]
    rw [hsum, abs_div, abs_of_pos one_cast_pos, div_le_iff₀ one_cast_pos, ← Int.cast_abs,
      ← Nat.cast_natAbs] at h
    have hnat : (x.units + y.units).natAbs ≤ 2 ^ 128 * one := by
      exact_mod_cast h
    have hbound := two_pow_mul_one_le_bound 129 (by omega)
    omega

theorem isFinite_sub (x y : Binary64) (hx : x.isFinite = true) (hy : y.isFinite = true)
    (h : |x.value - y.value| ≤ 2 ^ 128) : (x.sub y).isFinite = true := by
  refine isFinite_add x y.neg hx (by rw [isFinite_neg]; exact hy) ?_
  rwa [value_neg, ← sub_eq_add_neg]

/-- A sum that a double holds is not rounded. -/
theorem units_add_exact (x y : Binary64) (hx : x.isFinite = true) (hy : y.isFinite = true)
    (h : Representable (x.units + y.units).natAbs) :
    (x.add y).isFinite = true ∧ (x.add y).units = x.units + y.units := by
  rcases add_eq x y hx hy with ⟨hz, hfin, hu⟩ | heq
  · exact ⟨hfin, by rw [hu, hz]⟩
  · have hround := roundUnits_representable _ h
    have hlt : roundUnits (x.units + y.units).natAbs 1 < bound := by
      rw [hround]
      exact h.1
    rw [heq, ofUnits, isFinite_ofRatio_iff, units_ofRatio _ _ _ hlt, hround, signed_natAbs]
    exact ⟨h.1, rfl⟩

theorem units_sub_exact (x y : Binary64) (hx : x.isFinite = true) (hy : y.isFinite = true)
    (h : Representable (x.units - y.units).natAbs) :
    (x.sub y).isFinite = true ∧ (x.sub y).units = x.units - y.units := by
  have := units_add_exact x y.neg hx (by rw [isFinite_neg]; exact hy)
    (by rw [units_neg, ← Int.sub_eq_add_neg]; exact h)
  rwa [units_neg, ← Int.sub_eq_add_neg] at this

-- Fifty-three bits are enough for a whole number of any power of two up to one.
theorem representable_mul_two_pow (n k : Nat) (hk : k ≤ depth) (h : n ≤ 2 ^ 53) :
    Representable (n * 2 ^ k) := by
  refine representable_of_dvd (n * 2 ^ k) k (Nat.dvd_mul_left _ n) ?_ ?_
  · rw [Nat.add_comm, Nat.pow_add]
    exact Nat.mul_le_mul_right _ h
  · have hbound := two_pow_mul_one_le_bound 54 (by omega)
    have hpos := one_pos
    have hle := Nat.mul_le_mul h (two_pow_le_one k hk)
    omega

theorem representable_mul_one (n : Nat) (h : n ≤ 2 ^ 53) : Representable (n * one) := by
  rw [one_eq]
  exact representable_mul_two_pow n depth (Nat.le_refl depth) h

theorem finite_congr (s : Bool) (u v : Nat) (hu : Representable u) (hv : Representable v)
    (h : u = v) : finite s u hu = finite s v hv := by
  subst h
  rfl

theorem ofInt_eq (n : Nat) (h : n ≤ 2 ^ 53) :
    ofInt n = .finite false (n * one) (representable_mul_one n h) := by
  have hround := roundUnits_representable _ (representable_mul_one n h)
  have hlt : roundUnits (n * one) 1 < bound := by
    rw [hround]
    exact (representable_mul_one n h).1
  rw [ofInt_natCast, ofRatio_eq _ _ _ hlt]
  exact finite_congr _ _ _ _ _ hround

theorem ofInt_zero : ofInt (0 : Nat) = zero := by
  rw [ofInt_eq 0 (Nat.zero_le _)]
  exact finite_congr _ _ _ _ _ (Nat.zero_mul _)

theorem isFinite_ofInt (n : Nat) (h : n ≤ 2 ^ 53) : (ofInt n).isFinite = true := by
  rw [ofInt_eq n h]
  rfl

theorem units_ofInt (n : Nat) (h : n ≤ 2 ^ 53) : (ofInt n).units = (n * one : Nat) := by
  rw [ofInt_eq n h]
  rfl

theorem value_ofInt (n : Nat) (h : n ≤ 2 ^ 53) : (ofInt n).value = n := by
  rw [value, units_ofInt n h, Int.cast_natCast, Nat.cast_mul,
    mul_div_cancel_right₀ _ (ne_of_gt one_cast_pos)]

/-- Whole numbers up to `2 ^ 53` are added exactly. -/
theorem ofInt_add (m n : Nat) (h : m + n ≤ 2 ^ 53) :
    (ofInt m).add (ofInt n) = ofInt (m + n : Nat) := by
  have hround := roundUnits_representable _ (representable_mul_one (m + n) h)
  have hlt : roundUnits ((m + n) * one) 1 < bound := by
    rw [hround]
    exact (representable_mul_one (m + n) h).1
  have hsum : signed false (m * one) + signed false (n * one) = ((m + n) * one : Nat) := by
    rw [signed_false_add, Nat.add_mul]
  rw [ofInt_eq m (by omega), ofInt_eq n (by omega), ofInt_eq (m + n) h, add, hsum]
  split
  · -- Nothing plus nothing, whose sign is that of both.
    rename_i hz
    have hz' : 0 = (m + n) * one := by omega
    exact finite_congr _ _ _ _ _ hz'
  · rw [ofUnits_natCast, ofRatio_eq _ _ _ hlt]
    exact finite_congr _ _ _ _ _ hround

/-- Whole numbers are multiplied exactly as long as the product is no more than
    `2 ^ 53`. -/
theorem ofInt_mul (m n : Nat) (hm : m ≤ 2 ^ 53) (hn : n ≤ 2 ^ 53) (h : m * n ≤ 2 ^ 53) :
    (ofInt m).mul (ofInt n) = ofInt (m * n : Nat) := by
  have hprod : m * one * (n * one) = m * n * one * one := by
    ring
  have hround := roundUnits_mul _ one one_pos (representable_mul_one (m * n) h)
  have hlt : roundUnits (m * n * one * one) one < bound := by
    rw [hround]
    exact (representable_mul_one (m * n) h).1
  rw [ofInt_eq m hm, ofInt_eq n hn, ofInt_eq (m * n) h, mul, hprod, bne_self_eq_false,
    ofRatio_eq _ _ _ hlt]
  exact finite_congr _ _ _ _ _ hround

end Binary64

/-- The exact value of a number. -/
def Number.value : Number → ℚ
  | .whole n => n
  | .double x => x.value

end Captions
