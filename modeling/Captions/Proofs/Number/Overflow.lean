import Captions.Proofs.Number.Sign

/-!
# Where Overflow Begins

Which exact results are rounded to an infinity.

The largest double lies one spacing below `2 ^ 1024`, so what is less than half
a spacing away from `2 ^ 1024` would be rounded to it, and is an infinity
instead. The point in the middle goes there too: its neighbours are the largest
double, which is odd as a multiple of the spacing, and `2 ^ 1024`, which is
even. Overflow therefore begins exactly at `2 ^ 1024 - 2 ^ 970`.

As every operation rounds one exact result, whether it overflows depends on the
size of that result and on nothing else.

## Main definitions

* `limit`: The size at which overflow begins.

## Theorems

* `roundUnits_lt_bound_iff`: Which quotients are rounded to a double.
* `isFinite_mul_iff`, `isFinite_add_iff`: When a product or a sum is finite.
* `add_eq_nan_iff`: When a sum is not a number.
-/

namespace Captions

namespace Binary64

/-- Half the distance between the largest double and the bound, in units. -/
def margin : Nat := Nat.pow 2 (depth + 970)

theorem margin_eq : margin = 2 ^ (depth + 970) := by
  unfold margin
  generalize depth = n
  rfl

theorem margin_pos : 0 < margin := by
  rw [margin_eq]
  exact Nat.two_pow_pos _

theorem margin_mul_two : margin * 2 = 2 ^ (depth + 971) := by
  rw [margin_eq]
  generalize depth = n
  exact (Nat.pow_succ 2 (n + 970)).symm

theorem bound_eq_margin : bound = margin * 2 ^ 54 := by
  rw [bound_eq, margin_eq]
  generalize depth = n
  exact Nat.pow_add 2 (n + 970) 54

-- The numbers from the middle on have as many bits as those below the bound have at
-- most.
theorem excess_middle : excess (margin * (2 ^ 54 - 1)) 1 = depth + 971 := by
  have hne : margin * (2 ^ 54 - 1) ≠ 0 := Nat.mul_ne_zero margin_pos.ne' (by norm_num)
  have hhigh : margin * (2 ^ 54 - 1) < 2 ^ (depth + 1024) := by
    rw [← bound_eq, bound_eq_margin]
    exact Nat.mul_lt_mul_of_pos_left (by norm_num) margin_pos
  have hlow : 2 ^ (depth + 1023) ≤ margin * (2 ^ 54 - 1) := by
    have hsplit : 2 ^ (depth + 1023) = margin * 2 ^ 53 := by
      rw [margin_eq]
      generalize depth = n
      exact Nat.pow_add 2 (n + 970) 53
    rw [hsplit]
    exact Nat.mul_le_mul_left _ (by norm_num)
  have hlog := (Nat.le_log2 hne).mpr hlow
  have hlog' := (Nat.log2_lt hne).mpr hhigh
  rw [excess, Nat.div_one]
  clear hlow hhigh
  generalize (margin * (2 ^ 54 - 1)).log2 = l at hlog hlog' ⊢
  omega

-- The middle between the largest double and the bound is rounded to the bound.
theorem roundUnits_middle : roundUnits (bound - margin) 1 = bound := by
  have hbound := bound_eq_margin
  have hmiddle : bound - margin = margin * (2 ^ 54 - 1) := by omega
  have heven : roundHalfEven (2 ^ 54 - 1) 2 = 2 ^ 53 := by decide
  rw [hmiddle, roundUnits_eq, step, excess_middle, Nat.one_mul, ← margin_mul_two,
    roundHalfEven_scale _ _ _ margin_pos, heven]
  omega

-- Below the bound no spacing is wider than that of the largest double.
theorem step_le_margin (num den : Nat) (hden : 0 < den) (h : num < den * bound) :
    step num den ≤ den * (margin * 2) := by
  have hdiv : num / den < 2 ^ (depth + 1024) := by
    rw [← bound_eq, Nat.div_lt_iff_lt_mul hden, Nat.mul_comm]
    exact h
  have hexcess : excess num den ≤ depth + 971 := by
    unfold excess
    by_cases hz : num / den = 0
    · rw [hz, Nat.log2_zero]
      omega
    · have hlog := (Nat.log2_lt hz).mpr hdiv
      omega
  rw [step, margin_mul_two]
  exact Nat.mul_le_mul_left _ (Nat.pow_le_pow_right (by omega) hexcess)

/-- A quotient is rounded to a double exactly when it is below the middle between
    the largest double and the bound. -/
theorem roundUnits_lt_bound_iff (num den : Nat) (hden : 0 < den) :
    roundUnits num den < bound ↔ num < den * (bound - margin) := by
  constructor
  · intro h
    by_contra hge
    have hmono := roundUnits_mono _ num den (not_lt.mp hge)
    have hscale := roundUnits_scale (bound - margin) 1 den hden
    rw [Nat.mul_one] at hscale
    rw [hscale, roundUnits_middle] at hmono
    omega
  · intro h
    have hsub := Nat.mul_sub den bound margin
    have hle : den * margin ≤ den * bound := by
      refine Nat.mul_le_mul_left _ ?_
      have := bound_eq_margin
      omega
    have hstep := step_le_margin num den hden (by omega)
    have hnear := (roundUnits_near num den hden).1
    rw [← Nat.mul_assoc] at hstep
    refine Nat.lt_of_mul_lt_mul_left (a := den) ?_
    omega

/-- The size at which an exact result is rounded to an infinity. -/
def limit : ℚ := 2 ^ 1024 - 2 ^ 970

theorem limit_pos : 0 < limit :=
  sub_pos.mpr (pow_lt_pow_right₀ (by norm_num) (by norm_num))

theorem cast_bound_sub_margin : ((bound - margin : Nat) : ℚ) = limit * one := by
  have hle : margin ≤ bound := by
    rw [bound_eq_margin]
    exact Nat.le_mul_of_pos_right _ (Nat.two_pow_pos 54)
  have hbound : (bound : ℚ) = 2 ^ 1024 * one := by
    rw [bound_eq, one_eq, Nat.cast_pow, Nat.cast_pow, Nat.cast_two, ← pow_add, Nat.add_comm]
  have hmargin : (margin : ℚ) = 2 ^ 970 * one := by
    rw [margin_eq, one_eq, Nat.cast_pow, Nat.cast_pow, Nat.cast_two, ← pow_add, Nat.add_comm]
  rw [Nat.cast_sub hle, hbound, hmargin, limit, sub_mul]

/-- A quotient of units is rounded to a double exactly when its value is below the
    limit. -/
theorem isFinite_ofRatio_iff_limit (s : Bool) (num den : Nat) (hden : 0 < den) :
    (ofRatio s num den).isFinite = true ↔ (num : ℚ) / (den * one) < limit := by
  have hpos : (0 : ℚ) < den * one := mul_pos (Nat.cast_pos.mpr hden) one_cast_pos
  rw [isFinite_ofRatio_iff, roundUnits_lt_bound_iff num den hden, div_lt_iff₀ hpos, mul_left_comm,
    ← cast_bound_sub_margin, ← Nat.cast_mul, Nat.cast_lt]

theorem abs_value (x : Binary64) : |x.value| = (x.units.natAbs : ℚ) / one := by
  rw [value, abs_div, abs_of_pos one_cast_pos, Nat.cast_natAbs, Int.cast_abs]

-- The product of finite doubles is the rounded product of their units.
theorem mul_eq (x y : Binary64) (hx : x.isFinite = true) (hy : y.isFinite = true) :
    x.mul y = ofRatio (x.negative != y.negative) (x.units.natAbs * y.units.natAbs) one := by
  cases x with
  | nan => exact absurd hx Bool.false_ne_true
  | infinite s => exact absurd hx Bool.false_ne_true
  | finite s u hu =>
      cases y with
      | nan => exact absurd hy Bool.false_ne_true
      | infinite t => exact absurd hy Bool.false_ne_true
      | finite t v hv => rw [mul, units, units, natAbs_signed, natAbs_signed, negative, negative]

/-- A product of finite doubles is finite exactly when the exact one is below the
    limit. -/
theorem isFinite_mul_iff (x y : Binary64) (hx : x.isFinite = true) (hy : y.isFinite = true) :
    (x.mul y).isFinite = true ↔ |x.value * y.value| < limit := by
  rw [mul_eq x y hx hy, isFinite_ofRatio_iff_limit _ _ _ one_pos, Nat.cast_mul, mul_div_mul_comm,
    ← abs_value, ← abs_value, abs_mul]

/-- A sum of finite doubles is finite exactly when the exact one is below the
    limit. -/
theorem isFinite_add_iff (x y : Binary64) (hx : x.isFinite = true) (hy : y.isFinite = true) :
    (x.add y).isFinite = true ↔ |x.value + y.value| < limit := by
  have hsum : |x.value + y.value| = ((x.units + y.units).natAbs : ℚ) / one := by
    rw [value, value, ← add_div, ← Int.cast_add, abs_div, abs_of_pos one_cast_pos, Nat.cast_natAbs,
      Int.cast_abs]
  rcases add_eq x y hx hy with ⟨hz, hfin, _⟩ | heq
  · rw [hsum, hz, Int.natAbs_zero, Nat.cast_zero, zero_div]
    exact iff_of_true hfin limit_pos
  · rw [hsum, heq, ofUnits, isFinite_ofRatio_iff_limit _ _ _ Nat.one_pos, Nat.cast_one, one_mul]

/-! ### What is not finite -/

-- A rounded quotient is a number, and an infinity of its sign if it is not finite.
theorem ofRatio_cases (s : Bool) (num den : Nat) :
    (ofRatio s num den).isFinite = true ∨ ofRatio s num den = .infinite s := by
  rw [ofRatio]
  split
  · exact Or.inl rfl
  · exact Or.inr rfl

theorem ofRatio_ne_nan (s : Bool) (num den : Nat) : ofRatio s num den ≠ .nan := by
  rcases ofRatio_cases s num den with h | h
  · intro heq
    rw [heq] at h
    exact absurd h Bool.false_ne_true
  · rw [h]
    exact Binary64.noConfusion

-- The sign of a double shows in its value, zero aside.
theorem value_nonneg (x : Binary64) (h : x.negative = false) : 0 ≤ x.value := by
  rcases exists_units x h with ⟨n, hn⟩
  rw [value, hn, Int.cast_natCast]
  exact div_nonneg (Nat.cast_nonneg n) (le_of_lt one_cast_pos)

theorem value_nonpos (x : Binary64) (h : x.negative = true) : x.value ≤ 0 := by
  have hunits : x.units ≤ 0 := by
    cases x with
    | nan => exact le_refl _
    | infinite s => exact le_refl _
    | finite s u hu =>
        rw [negative] at h
        rw [units, h]
        exact signed_true_nonpos u
  exact div_nonpos_of_nonpos_of_nonneg (by exact_mod_cast hunits) (le_of_lt one_cast_pos)

/-- A product with a number that has no minus sign overflows to an infinity of its
    sign. -/
theorem mul_eq_infinite_iff (x y : Binary64) (hx : x.isFinite = true) (hy : y.isFinite = true)
    (hsign : y.negative = false) (s : Bool) :
    x.mul y = .infinite s ↔ limit ≤ if s then -(x.value * y.value) else x.value * y.value := by
  have hmul := mul_eq x y hx hy
  rw [hsign, Bool.bne_false] at hmul
  have hnonneg := fun h => mul_nonneg (value_nonneg x h) (value_nonneg y hsign)
  have hnonpos := fun h => mul_nonpos_of_nonpos_of_nonneg (value_nonpos x h) (value_nonneg y hsign)
  have hsize : (if x.negative then -(x.value * y.value) else x.value * y.value)
      = |x.value * y.value| := by
    split
    · rename_i h
      exact (abs_of_nonpos (hnonpos h)).symm
    · rename_i h
      exact (abs_of_nonneg (hnonneg (Bool.eq_false_of_not_eq_true h))).symm
  constructor
  · intro h
    have hneg : x.negative = s := by
      have hratio := negative_ofRatio x.negative (x.units.natAbs * y.units.natAbs) one
      rw [← hmul, h] at hratio
      exact hratio.symm
    rw [← hneg, hsize, ← not_lt, ← isFinite_mul_iff x y hx hy, h]
    exact Bool.false_ne_true
  · intro h
    have hpos := limit_pos
    have hneg : x.negative = s := by
      cases s with
      | false =>
          rw [if_neg Bool.false_ne_true] at h
          by_contra hne
          have := hnonpos (Bool.eq_true_of_not_eq_false hne)
          linarith
      | true =>
          rw [if_pos rfl] at h
          by_contra hne
          have := hnonneg (Bool.eq_false_of_not_eq_true hne)
          linarith
    rw [← hneg, hsize, ← not_lt, ← isFinite_mul_iff x y hx hy, hmul] at h
    rw [hmul, ← hneg]
    exact (ofRatio_cases _ _ _).resolve_left h

/-- A sum of numbers is not a number only if they are opposite infinities. -/
theorem add_eq_nan_iff (x y : Binary64) (hx : x ≠ .nan) (hy : y ≠ .nan) :
    x.add y = .nan ↔ ∃ s, x = .infinite s ∧ y = .infinite !s := by
  cases x with
  | nan => exact absurd rfl hx
  | infinite s =>
      cases y with
      | nan => exact absurd rfl hy
      | infinite t => cases s <;> cases t <;> decide
      | finite t v hv =>
          simp only [add, reduceCtorEq, and_false, exists_false]
  | finite s u hu =>
      have hne : (finite s u hu).add y ≠ .nan := by
        cases y with
        | nan => exact absurd rfl hy
        | infinite t => exact Binary64.noConfusion
        | finite t v hv =>
            rw [add]
            split
            · exact Binary64.noConfusion
            · exact ofRatio_ne_nan _ _ _
      simp only [hne, reduceCtorEq, false_and, exists_false]

end Binary64

end Captions
