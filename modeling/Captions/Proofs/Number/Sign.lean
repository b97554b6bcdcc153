import Captions.Proofs.Number.Value

/-!
# The Sign of a Double

Which doubles lie above zero, and how much of that a comparison tells.

Doubles are compared by their rank, and what is not a number has none. So a
comparison that succeeds says of both sides that they are numbers, and a
comparison with zero excludes at once what is not a number, both zeros and
every minus sign. Rounding keeps the sign of a quotient, also where the quotient
overflows or where nothing is left of it, so a rounded double that lies above
something not negative was positive before.

## Theorems

* `lt_of_rank`: Doubles are compared by their rank.
* `rank_ofRatio`: A rounded quotient keeps its sign.
* `of_zero_lt`: What lies above zero is a number, without a minus sign.
* `zero_lt_of_lt_roundPlaces`: The sign of a double shows in its rounding.
* `negative_add`: A sum has no minus sign that no summand has.
* `units_le_add`: A finite sum of such summands is no less than the first.
-/

namespace Captions

namespace Binary64

theorem lt_of_rank (x y : Binary64) (a b : Int) (hx : x.rank = some a) (hy : y.rank = some b) :
    x.lt y = true ↔ a < b := by
  rw [lt, hx, hy]
  exact decide_eq_true_iff

/-- A quotient keeps its sign when it is rounded, also where it overflows. -/
theorem rank_ofRatio (s : Bool) (num den : Nat) :
    ∃ u, (ofRatio s num den).rank = some (signed s u) := by
  rw [ofRatio]
  split
  · exact ⟨roundUnits num den, rfl⟩
  · exact ⟨bound, rfl⟩

theorem signed_true_nonpos (u : Nat) : signed true u ≤ 0 := by
  rw [signed, if_pos rfl]
  omega

/-- A rounded quotient lies above a number that is not negative only if the
    quotient is positive. -/
theorem pos_of_lt_ofRatio (y : Binary64) (a : Nat) (s : Bool) (num den : Nat) (hden : 0 < den)
    (hy : y.rank = some (a : Int)) (h : y.lt (ofRatio s num den) = true) :
    s = false ∧ 0 < num := by
  cases s with
  | true =>
      rcases rank_ofRatio true num den with ⟨u, hu⟩
      have hlt := (lt_of_rank y _ a _ hy hu).mp h
      have := signed_true_nonpos u
      omega
  | false =>
      refine ⟨rfl, Nat.pos_of_ne_zero fun hnum => ?_⟩
      have hround := roundUnits_zero den hden
      have hrank : (ofRatio false num den).rank = some 0 := by
        rw [hnum, ofRatio_eq false 0 den (by rw [hround]; exact bound_pos), rank, hround]
        rfl
      have hlt := (lt_of_rank y _ a _ hy hrank).mp h
      omega

theorem roundHalfEven_zero (den : Nat) (hden : 0 < den) : roundHalfEven 0 den = 0 := by
  have h := roundHalfEven_mul hden 0
  rwa [Nat.zero_mul] at h

/-- A double that is rounded to something above a number that is not negative
    is positive itself. -/
theorem zero_lt_of_lt_roundPlaces (y x : Binary64) (a places : Nat) (hy : y.rank = some (a : Int))
    (h : y.lt (x.roundPlaces places) = true) : zero.lt x = true := by
  cases x with
  | nan =>
      have hnan : y.lt nan = false := by
        rw [lt, hy]
        rfl
      exact absurd (h.symm.trans hnan) Bool.noConfusion
  | infinite s =>
      have hlt := (lt_of_rank y (.infinite s) a (signed s bound) hy rfl).mp h
      rw [lt_of_rank zero _ 0 (signed s bound) rfl rfl]
      omega
  | finite s u hu =>
      rcases pos_of_lt_ofRatio y a s _ _ (Nat.pow_pos (by omega)) hy h with ⟨rfl, hnum⟩
      rw [lt_of_rank zero _ 0 (signed false u) rfl rfl, signed_false]
      -- A double of no units is rounded to nothing.
      have hunits : u ≠ 0 := by
        rintro rfl
        rw [Nat.zero_mul, roundHalfEven_zero one one_pos, Nat.zero_mul] at hnum
        exact absurd hnum (Nat.lt_irrefl 0)
      omega

/-- What is above zero is a number, with neither a minus sign nor a zero. -/
theorem of_zero_lt (x : Binary64) (h : zero.lt x = true) :
    x ≠ .nan ∧ x.negative = false ∧ x.isZero = false := by
  cases x with
  | nan => exact absurd h Bool.false_ne_true
  | infinite s =>
      have hlt := (lt_of_rank zero _ 0 (signed s bound) rfl rfl).mp h
      cases s with
      | true => exact absurd hlt (signed_true_nonpos bound).not_gt
      | false => exact ⟨Binary64.noConfusion, rfl, rfl⟩
  | finite s u hu =>
      have hlt := (lt_of_rank zero _ 0 (signed s u) rfl rfl).mp h
      cases s with
      | true => exact absurd hlt (signed_true_nonpos u).not_gt
      | false =>
          rw [signed_false] at hlt
          exact ⟨Binary64.noConfusion, rfl, decide_eq_false (by omega)⟩

theorem negative_ofRatio (s : Bool) (num den : Nat) : (ofRatio s num den).negative = s := by
  rw [ofRatio]
  split <;> rfl

/-- A sum has a minus sign only if one of the summands has. -/
theorem negative_add (x y : Binary64) (hx : x.negative = false) (hy : y.negative = false) :
    (x.add y).negative = false := by
  rcases x with _ | s | ⟨s, u, hu⟩
  · rfl
  · rcases y with _ | t | ⟨t, v, hv⟩
    · rfl
    · rw [negative] at hx hy
      rw [hx, hy]
      rfl
    · exact hx
  · rcases y with _ | t | ⟨t, v, hv⟩
    · rfl
    · exact hy
    · rw [negative] at hx hy
      rw [hx, hy, add, signed_false_add]
      split
      · rfl
      · rw [ofUnits_natCast, negative_ofRatio]

-- Without a minus sign the units are a natural number.
theorem exists_units (x : Binary64) (h : x.negative = false) : ∃ n : Nat, x.units = n := by
  cases x with
  | nan => exact ⟨0, rfl⟩
  | infinite s => exact ⟨0, rfl⟩
  | finite s u hu =>
      rw [negative] at h
      exact ⟨u, by rw [units, h, signed_false]⟩

/-- A finite sum is no less than its first summand if neither has a minus sign:
    the exact sum is not, and the first summand needs no rounding. -/
theorem units_le_add (x y : Binary64) (hx : x.negative = false) (hy : y.negative = false)
    (h : (x.add y).isFinite = true) : x.units ≤ (x.add y).units := by
  rcases exists_units x hx with ⟨m, hm⟩
  rcases exists_units y hy with ⟨n, hn⟩
  have hrep := representable_natAbs_units x
  rw [hm, Int.natAbs_natCast] at hrep
  have hmono := roundUnits_mono m (m + n) 1 (Nat.le_add_right m n)
  rw [roundUnits_representable m hrep] at hmono
  rw [units_add x y m n hm hn h, hm]
  exact_mod_cast hmono

end Binary64

end Captions
