import Captions.Number.Rounding

/-!
# Double precision

Times are computed in double precision, and every decision about a cue, whether
its gap is worth a pause and whether it is shown at all, is a decision about
the rounded values. So the doubles here are the exact set of values, with
arithmetic that rounds each exact result once, to the nearest double and to an
even significand on a tie.

All finite doubles are whole multiples of the smallest positive one. A finite
double is therefore a sign and a count of these *units*, and the counts that
occur are those with at most fifty-three significant bits, below the bound
where overflow begins. Sums of doubles are sums of whole numbers before they
are rounded, an exact quotient is a quotient of whole numbers, and comparing is
comparing whole numbers: no exponent has to be aligned anywhere.

Zero has a sign of its own, which comparison ignores and printing shows.

## Main definitions

* `Representable`: The counts of units that a double holds exactly.
* `Binary64`: The doubles.
* `Binary64.ofRatio`: The double nearest to a quotient of units.
* `Binary64.add`, `Binary64.sub`, `Binary64.mul`, `Binary64.div`: Arithmetic.
* `Binary64.rank`: The place of a double in the order of all numbers.
* `Binary64.remainder`, `Binary64.floorQuotient?`: Division with remainder.
* `Binary64.roundPlaces`: Rounding to a number of decimal places.

## Theorems

* `representable_roundUnits`: Rounding yields a count that a double holds,
  unless it overflows.
-/

namespace Captions

/-- The number of bits between one and the smallest positive double. -/
def Binary64.depth : Nat := 1074

/-- The number of units in one. -/
def Binary64.one : Nat := Nat.pow 2 Binary64.depth

/-- The number of units at which overflow begins. -/
def Binary64.bound : Nat := Nat.pow 2 (Binary64.depth + 1024)

/-- The counts of units that a finite double holds: below the overflow bound,
    and with no significant bit after the fifty-third. -/
def Representable (units : Nat) : Prop :=
  units < Binary64.bound ∧ Nat.pow 2 (units.log2 - 52) ∣ units

instance (units : Nat) : Decidable (Representable units) :=
  inferInstanceAs (Decidable (_ ∧ _))

/-- A double. -/
inductive Binary64 where
  /-- Not a number. -/
  | nan
  /-- An infinity, with its sign. -/
  | infinite (negative : Bool)
  /-- A sign and a number of units. -/
  | finite (negative : Bool) (units : Nat) (representable : Representable units)
  deriving DecidableEq

namespace Binary64

/-- How many bits a quotient is too long by to be a significand. -/
def excess (num den : Nat) : Nat := (num / den).log2 - 52

/-- The count of units nearest to a quotient among those with at most
    fifty-three significant bits. -/
def roundUnits (num den : Nat) : Nat :=
  roundHalfEven num (den * Nat.pow 2 (excess num den)) * Nat.pow 2 (excess num den)

theorem roundHalfEven_excess_le (num den : Nat) :
    roundHalfEven num (den * Nat.pow 2 (excess num den)) ≤ Nat.pow 2 53 := by
  simp only [Nat.pow_eq, excess]
  -- Rounding adds at most one to the quotient, which has at most 53 bits.
  refine Nat.le_trans (roundHalfEven_le _ _) (Nat.succ_le_of_lt ?_)
  rw [← Nat.div_div_eq_div_mul, Nat.div_lt_iff_lt_mul (Nat.two_pow_pos _), ← Nat.pow_add]
  refine Nat.lt_of_lt_of_le Nat.lt_log2_self (Nat.pow_le_pow_right (by omega) (by omega))

/-- A count of at most fifty-three bits, moved to any place, has no significant
    bit after the fifty-third. -/
theorem spacing_dvd {r s : Nat} (h : r ≤ Nat.pow 2 53) :
    Nat.pow 2 ((r * Nat.pow 2 s).log2 - 52) ∣ r * Nat.pow 2 s := by
  simp only [Nat.pow_eq] at *
  rcases Nat.eq_zero_or_pos r with rfl | hr
  · simp
  · rcases Nat.lt_or_eq_of_le h with h | rfl
    · -- The count has at most `53 + s` bits, so the move alone supplies the factor.
      refine Nat.dvd_trans (Nat.pow_dvd_pow 2 ?_) (Nat.dvd_mul_left _ r)
      have hne : r * 2 ^ s ≠ 0 :=
        Nat.mul_ne_zero (by omega) (Nat.pos_iff_ne_zero.1 (Nat.two_pow_pos s))
      have : (r * 2 ^ s).log2 < 53 + s := by
        rw [Nat.log2_lt hne, Nat.pow_add]
        exact Nat.mul_lt_mul_of_pos_right h (Nat.two_pow_pos s)
      omega
    · -- Rounding up to `2 ^ 53` needs one more bit, but only its first is set.
      rw [← Nat.pow_add]
      refine Nat.pow_dvd_pow 2 ?_
      rw [Nat.log2_two_pow]
      omega

theorem representable_roundUnits {num den : Nat} (h : roundUnits num den < bound) :
    Representable (roundUnits num den) :=
  ⟨h, spacing_dvd (roundHalfEven_excess_le num den)⟩

/-- The double nearest to a quotient of units, with a sign; an infinity from
    the overflow bound on. -/
def ofRatio (negative : Bool) (num den : Nat) : Binary64 :=
  if h : roundUnits num den < bound then
    .finite negative (roundUnits num den) (representable_roundUnits h)
  else .infinite negative

/-- The double nearest to a whole number of units. -/
def ofUnits (z : Int) : Binary64 := ofRatio (z < 0) z.natAbs 1

/-- The double nearest to a whole number. -/
def ofInt (z : Int) : Binary64 := ofRatio (z < 0) (z.natAbs * one) 1

/-- The double nearest to `significand * 10 ^ exponent`, with a sign. -/
def ofDecimal (negative : Bool) (significand : Nat) (exponent : Int) : Binary64 :=
  if exponent < 0 then ofRatio negative (significand * one) (Nat.pow 10 exponent.natAbs)
  else ofRatio negative (significand * Nat.pow 10 exponent.natAbs * one) 1

theorem two_pow_pos (n : Nat) : 0 < Nat.pow 2 n := Nat.two_pow_pos n

theorem one_pos : 0 < one := by
  unfold one
  generalize depth = n
  exact two_pow_pos n

theorem bound_pos : 0 < bound := by
  unfold bound
  generalize depth + 1024 = n
  exact two_pow_pos n

theorem representable_zero : Representable 0 :=
  ⟨bound_pos, by simp⟩

/-- The positive zero. -/
def zero : Binary64 := .finite false 0 representable_zero

/-- Whether the sign is a minus sign. That of `nan` does not show. -/
def negative : Binary64 → Bool
  | .nan => false
  | .infinite s => s
  | .finite s _ _ => s

/-- The units of a finite double with the sign in front. -/
def signed (s : Bool) (units : Nat) : Int := if s then -(units : Int) else units

/-- The place of a double in the order of all numbers, counted in units from
    zero. An infinity lies at the overflow bound, beyond all finite values. -/
def rank : Binary64 → Option Int
  | .nan => none
  | .infinite s => some (signed s bound)
  | .finite s u _ => some (signed s u)

/-- Whether one double is below another; never so for `nan`. -/
def lt (x y : Binary64) : Bool :=
  match x.rank, y.rank with
  | some a, some b => a < b
  | _, _ => false

/-- Whether a double is a number and not an infinity. -/
def isFinite : Binary64 → Bool
  | .finite .. => true
  | _ => false

/-- Whether a double is a zero of either sign. -/
def isZero : Binary64 → Bool
  | .finite _ u _ => u = 0
  | _ => false

/-- The double with the other sign. -/
def neg : Binary64 → Binary64
  | .nan => .nan
  | .infinite s => .infinite !s
  | .finite s u h => .finite (!s) u h

/-- The rounded sum. Opposite infinities have none, and the sum of two zeros is
    negative only when both are. -/
def add : Binary64 → Binary64 → Binary64
  | .finite s u _, .finite t v _ =>
    if signed s u + signed t v = 0 then .finite (s && t) 0 representable_zero
    else ofUnits (signed s u + signed t v)
  | .infinite s, .infinite t => if s = t then .infinite s else .nan
  | .infinite s, .finite .. => .infinite s
  | .finite .., .infinite t => .infinite t
  | .nan, _ => .nan
  | _, .nan => .nan

/-- The rounded difference. -/
def sub (x y : Binary64) : Binary64 := add x y.neg

/-- The rounded product. -/
def mul : Binary64 → Binary64 → Binary64
  | .finite s u _, .finite t v _ => ofRatio (s != t) (u * v) one
  | .infinite s, .infinite t => .infinite (s != t)
  | .infinite s, .finite t v _ => if v = 0 then .nan else .infinite (s != t)
  | .finite s u _, .infinite t => if u = 0 then .nan else .infinite (s != t)
  | .nan, _ => .nan
  | _, .nan => .nan

/-- The rounded quotient. -/
def div : Binary64 → Binary64 → Binary64
  | .finite s u _, .finite t v _ =>
    if v = 0 then if u = 0 then .nan else .infinite (s != t)
    else ofRatio (s != t) (u * one) v
  | .infinite _, .infinite _ => .nan
  | .infinite s, .finite t _ _ => .infinite (s != t)
  | .finite s _ _, .infinite t => .finite (s != t) 0 representable_zero
  | .nan, _ => .nan
  | _, .nan => .nan

/-- The greatest whole number not above a finite double. -/
def floor? : Binary64 → Option Int
  | .finite s u _ => some (signed s u / (one : Int))
  | _ => none

/-- The whole number that remains of a finite double without its places after
    the point. -/
def truncate? : Binary64 → Option Int
  | .finite s u _ => some (signed s (u / one))
  | _ => none

/-- The whole number nearest to a finite double, ties to even. -/
def nearest? : Binary64 → Option Int
  | .finite s u _ => some (signed s (roundHalfEven u one))
  | _ => none

/-- Whether a double is a whole number. -/
def isWhole : Binary64 → Bool
  | .finite _ u _ => u % one = 0
  | _ => false

/-- What remains of `x` after taking away `w`, a positive finite double, as
    often as it fits. The remainder is never below zero, and it is not a number
    when `x` is not finite. -/
def remainder : Binary64 → Binary64 → Binary64
  | .finite s u _, .finite _ v _ =>
    if s ∧ u % v ≠ 0 then ofUnits ((v : Int) - (u % v : Nat)) else ofUnits (u % v : Nat)
  | _, _ => .nan

/-- How often `w`, a positive finite double, fits into `x`. The difference between `x`
    and its remainder is nearly a multiple of `w`; the quotient is rounded, so
    the whole number nearest to it is meant, and a quotient just below one is
    that one. -/
def floorQuotient? (x w : Binary64) : Option Int :=
  let quotient := div (sub x (remainder x w)) w
  quotient.floor?.map fun below =>
    if lt (ofDecimal false 5 (-1)) (sub quotient (ofInt below)) then below + 1 else below

/-- The double nearest to what is left when a finite double is rounded to a
    number of decimal places. -/
def roundPlaces (places : Nat) : Binary64 → Binary64
  | .finite s u _ =>
    ofRatio s (roundHalfEven (u * Nat.pow 10 places) one * one) (Nat.pow 10 places)
  | x => x

end Binary64

end Captions
