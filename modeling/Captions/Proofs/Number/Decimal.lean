import Captions.Proofs.Number.Numeral
import Captions.Proofs.Number.Value

/-!
# Decimals as Doubles

What a decimal of any length is read as, and how large a double can be known to
be when its exact value cannot.

A numeral with places after the point is a quotient by a power of ten, rounded
once. With few places its error is relative. With many it is not, because the
quotient may be too small for a full significand, and the bound here is one for
the whole range up to some number instead. A quotient that comes out whole is
that whole number however many places it was written with.

A whole numeral of many digits may be an infinity, and so may what is computed
from it. Both the infinity and a finite double that is large satisfy `AtLeast`,
which is kept by the sums and products a time is made of, so that the two need
not be told apart until a comparison is drawn.

## Main definitions

* `AtLeast`: A double is no less than a whole number, or infinite.

## Theorems

* `ofDecimal_scaled`: Zeros after the point make no difference.
* `ofDecimal_near`: A decimal is rounded by little beside the bound it is under.
* `toDouble_places`: A numeral with places is a decimal.
* `atLeast_ofInt`, `atLeast_mul`, `atLeast_add`: Lower bounds are kept.
-/

namespace Captions

namespace Binary64

theorem ofRatio_congr (s : Bool) (num den num' den' : Nat)
    (h : roundUnits num den = roundUnits num' den') :
    ofRatio s num den = ofRatio s num' den' := by
  simp only [ofRatio, h]

theorem ofDecimal_places (n k : Nat) :
    ofDecimal false n (-(k : Int)) = ofRatio false (n * one) (10 ^ k) := by
  unfold ofDecimal
  by_cases hk : k = 0
  · have habs : (-((0 : Nat) : Int)).natAbs = 0 := rfl
    rw [hk, if_neg (by omega), habs, Nat.pow_eq, Nat.pow_zero, Nat.mul_one]
  · have habs : (-(k : Int)).natAbs = k := by omega
    rw [if_pos (by omega), habs]
    rfl

/-- Zeros after the point make no difference. -/
theorem ofDecimal_scaled (n k : Nat) : ofDecimal false (n * 10 ^ k) (-(k : Int)) = ofInt n := by
  have hscale := roundUnits_scale (n * one) 1 (10 ^ k) (Nat.pow_pos (by omega))
  rw [ofDecimal_places, ofInt_natCast]
  refine ofRatio_congr false _ _ _ _ ?_
  rw [← hscale, Nat.mul_one, ← Nat.mul_assoc, Nat.mul_comm n]

/-- A decimal is rounded by little beside the bound it is under. -/
theorem ofDecimal_near (n k m : Nat) (hn : n ≤ m * 10 ^ k) (hpos : 0 < m) (hm : m ≤ 2 ^ 100) :
    (ofDecimal false n (-(k : Int))).isFinite = true ∧
      |(ofDecimal false n (-(k : Int))).value - (n : ℚ) / 10 ^ k| ≤ (m : ℚ) / 2 ^ 53 := by
  have hden : 0 < 10 ^ k := Nat.pow_pos (by omega)
  have hone := two_pow_le_one 52 (by decide)
  have hbound := two_pow_mul_one_le_bound 101 (by omega)
  have hnum : n * one ≤ 10 ^ k * (m * one) := by
    calc n * one ≤ m * 10 ^ k * one := Nat.mul_le_mul_right _ hn
      _ = 10 ^ k * (m * one) := by ring
  have hlarge : m * one ≤ 2 ^ 100 * one := Nat.mul_le_mul_right _ hm
  have hsize : 10 ^ k * (2 * (m * one)) ≤ 10 ^ k * bound := Nat.mul_le_mul_left _ (by omega)
  have hlt := roundUnits_lt_bound (n * one) (10 ^ k) hden (by
    rw [Nat.mul_left_comm] at hsize
    omega)
  -- A step is small beside the bound, even where it is not beside the quotient.
  have hstep : step (n * one) (10 ^ k) * 2 ^ 52 ≤ 10 ^ k * (m * one) := by
    have hunit : 10 ^ k * 2 ^ 52 ≤ 10 ^ k * (m * one) :=
      Nat.mul_le_mul_left _ (Nat.le_trans hone (Nat.le_mul_of_pos_left one hpos))
    exact Nat.le_trans (step_le _ _) (Nat.max_le.mpr ⟨hnum, hunit⟩)
  have hnear := roundUnits_near (n * one) (10 ^ k) hden
  have hdist := abs_value_ofRatio_sub (n * one) (10 ^ k) hden hlt
  rw [Nat.cast_mul, mul_div_mul_right _ _ (ne_of_gt one_cast_pos), Nat.cast_pow,
    Nat.cast_ofNat] at hdist
  rw [ofDecimal_places, isFinite_ofRatio_iff, hdist]
  refine ⟨hlt, ?_⟩
  generalize roundUnits (n * one) (10 ^ k) = r at hnear ⊢
  generalize step (n * one) (10 ^ k) = width at hstep hnear
  have hdenq : (0 : ℚ) < 10 ^ k := by positivity
  have honeq := one_cast_pos
  have h1q : 2 * ((10 : ℚ) ^ k * r) ≤ 2 * (n * one) + width := by exact_mod_cast hnear.1
  have h2q : 2 * ((n : ℚ) * one) ≤ 2 * (10 ^ k * r) + width := by exact_mod_cast hnear.2
  have hstepq : (width : ℚ) * 2 ^ 52 ≤ 10 ^ k * (m * one) := by exact_mod_cast hstep
  rw [div_le_iff₀ (mul_pos hdenq honeq), abs_le]
  constructor <;> linarith

/-- A double is no less than a whole number, or it is the infinity. -/
def AtLeast (x : Binary64) (n : Nat) : Prop :=
  x = .infinite false ∨ ∃ u h, x = .finite false u h ∧ n * one ≤ u

theorem atLeast_ofRatio (num den n : Nat) (hden : 0 < den) (hn : n ≤ 2 ^ 53)
    (h : n * one * den ≤ num) : (ofRatio false num den).AtLeast n := by
  have hround := roundUnits_mono _ _ den h
  rw [roundUnits_mul _ den hden (representable_mul_one n hn)] at hround
  by_cases hlt : roundUnits num den < bound
  · exact Or.inr ⟨_, _, ofRatio_eq false num den hlt, hround⟩
  · exact Or.inl (dif_neg hlt)

theorem atLeast_ofInt (m n : Nat) (hn : n ≤ 2 ^ 53) (h : n ≤ m) : (ofInt m).AtLeast n := by
  rw [ofInt_natCast]
  refine atLeast_ofRatio _ 1 n Nat.one_pos hn ?_
  rw [Nat.mul_one]
  exact Nat.mul_le_mul_right _ h

theorem atLeast_ofDecimal (n k : Nat) : (ofDecimal false n (-(k : Int))).AtLeast 0 := by
  rw [ofDecimal_places]
  refine atLeast_ofRatio _ _ 0 (Nat.pow_pos (by omega)) (Nat.zero_le _) ?_
  rw [Nat.zero_mul, Nat.zero_mul]
  exact Nat.zero_le _

theorem atLeast_mul (x : Binary64) (m n : Nat) (hx : x.AtLeast m) (hpos : 0 < n)
    (hn : n ≤ 2 ^ 53) (h : m * n ≤ 2 ^ 53) : (x.mul (ofInt n)).AtLeast (m * n) := by
  rw [ofInt_eq n hn]
  rcases hx with rfl | ⟨u, hu, rfl, hle⟩
  · have hne : n * one ≠ 0 := Nat.mul_ne_zero (by omega) (Nat.ne_of_gt one_pos)
    rw [mul, if_neg hne]
    exact Or.inl rfl
  · rw [mul, bne_self_eq_false]
    refine atLeast_ofRatio _ one (m * n) one_pos h ?_
    calc m * n * one * one = m * one * (n * one) := by ring
      _ ≤ u * (n * one) := Nat.mul_le_mul_right _ hle

theorem atLeast_add (x y : Binary64) (m : Nat) (hx : x.AtLeast m) (hy : y.AtLeast 0)
    (hm : m ≤ 2 ^ 53) : (x.add y).AtLeast m := by
  rcases hx with rfl | ⟨u, hu, rfl, hle⟩
  · rcases hy with rfl | ⟨v, hv, rfl, -⟩
    · exact Or.inl rfl
    · exact Or.inl rfl
  · rcases hy with rfl | ⟨v, hv, rfl, -⟩
    · exact Or.inl rfl
    · rw [add, signed_false_add]
      split
      · rename_i hz
        refine Or.inr ⟨0, representable_zero, rfl, ?_⟩
        omega
      · rw [ofUnits_natCast]
        refine atLeast_ofRatio (u + v) 1 m Nat.one_pos hm ?_
        omega

theorem value_of_atLeast (x : Binary64) (n : Nat) (hx : x.AtLeast n)
    (hfin : x.isFinite = true) : (n : ℚ) ≤ x.value := by
  rcases hx with rfl | ⟨u, hu, rfl, hle⟩
  · exact absurd hfin Bool.false_ne_true
  · rw [value_finite, le_div_iff₀ one_cast_pos]
    exact_mod_cast hle

end Binary64

namespace Numeral

open Text (ofDigits)

/-- A numeral with places after the point is a decimal. -/
theorem toDouble_places (ds es : List Nat) :
    toDouble false (ds ++ es) es.length 0
      = Binary64.ofDecimal false (ofDigits (ds ++ es)) (-(es.length : Int)) := by
  simp only [toDouble, zero_sub]
  split
  · rename_i hz
    have hscaled := Binary64.ofDecimal_scaled 0 es.length
    rw [Nat.zero_mul] at hscaled
    rw [hz, hscaled, Binary64.ofInt_eq 0 (by omega)]
    exact Binary64.finite_congr _ _ _ _ _ (Nat.zero_mul _).symm
  · rw [if_neg (by rw [List.length_append]; omega), if_neg (by omega)]

theorem toDouble_whole (ds : List Nat) :
    toDouble false ds 0 0 = Binary64.ofInt (ofDigits ds) := by
  have hplaces := toDouble_places ds []
  have hscaled := Binary64.ofDecimal_scaled (ofDigits ds) 0
  rw [List.append_nil, List.length_nil] at hplaces
  rw [Nat.pow_zero, Nat.mul_one] at hscaled
  rw [hplaces, hscaled]

end Numeral

end Captions
