import Captions.Proofs.Number.Overflow
import Captions.Proofs.Outcome
import Captions.Timestamp

/-!
# Times That Overflow

Which timestamps are read as a number that is not finite.

Every field of a timestamp has to be finite, and so would be the time if it were
exact. But hours are multiplied before anything is added, and the product of a
large finite number with `3600` is beyond the doubles. The same can happen to
the minutes and to each of the two sums. Nothing looks at the result, so a
timestamp that is not malformed is read as an infinity as soon as one step
overflows; and where hours and minutes overflow in opposite directions, the sum
of both is not a number.

Each step rounds one exact result, so whether the time is finite is a matter of
four exact results, of which the last two are of numbers already rounded.

## Main definitions

* `Denotes`: A text has three fields, which are finite numbers.
* `InRange`: No step in adding up the fields overflows.
* `Opposed`: Hours and minutes overflow in opposite directions.

## Theorems

* `isFinite_total_iff`: When a time is finite.
* `total_eq_nan_iff`: When a time is not a number.
* `seconds_outcome`: What becomes of any text.
-/

namespace Captions

namespace Timestamp

open Binary64 (limit ofInt)

/-- A text has three fields, which are these finite numbers. -/
def Denotes (t : Text) (h m s : Binary64) : Prop :=
  (fields t).map field = [.ok h, .ok m, .ok s]

/-- No step in adding up hours, minutes and seconds overflows. -/
structure InRange (h m s : Binary64) : Prop where
  /-- Neither do the seconds of the hours. -/
  hours : |h.value * 3600| < limit
  /-- Nor those of the minutes. -/
  minutes : |m.value * 60| < limit
  /-- Nor their sum. -/
  whole : |(h.mul (ofInt 3600)).value + (m.mul (ofInt 60)).value| < limit
  /-- Nor its sum with the seconds. -/
  sum : |((h.mul (ofInt 3600)).add (m.mul (ofInt 60))).value + s.value| < limit

/-- The hours and the minutes overflow in opposite directions. -/
def Opposed (h m : Binary64) : Prop :=
  limit ≤ h.value * 3600 ∧ limit ≤ -(m.value * 60) ∨
    limit ≤ -(h.value * 3600) ∧ limit ≤ m.value * 60

theorem isFinite_of_field (part : Text) (x : Binary64) (h : field part = .ok x) :
    x.isFinite = true := by
  unfold field at h
  split at h
  · exact absurd h (error_ne_ok _ _)
  · split at h
    · rename_i hfin
      rwa [← Except.ok.inj h]
    · exact absurd h (error_ne_ok _ _)

theorem isFinite_of_denotes (t : Text) (h m s : Binary64) (hd : Denotes t h m s) :
    h.isFinite = true ∧ m.isFinite = true ∧ s.isFinite = true := by
  have hall : ∀ x : Binary64, Except.ok x ∈ (fields t).map field → x.isFinite = true := by
    intro x hx
    rcases List.mem_map.mp hx with ⟨part, _, hpart⟩
    exact isFinite_of_field part x hpart
  unfold Denotes at hd
  rw [hd] at hall
  exact ⟨hall h (by simp only [List.mem_cons, true_or]),
    hall m (by simp only [List.mem_cons, true_or, or_true]),
    hall s (by simp only [List.mem_cons, true_or, or_true])⟩

-- A product with a small whole number, by its value.
theorem isFinite_times_iff (x : Binary64) (n : Nat) (hn : n ≤ 2 ^ 53) (hx : x.isFinite = true) :
    (x.mul (ofInt n)).isFinite = true ↔ |x.value * n| < limit := by
  rw [Binary64.isFinite_mul_iff x _ hx (Binary64.isFinite_ofInt n hn), Binary64.value_ofInt n hn]

theorem times_eq_infinite_iff (x : Binary64) (n : Nat) (hn : n ≤ 2 ^ 53) (hx : x.isFinite = true)
    (s : Bool) :
    x.mul (ofInt n) = .infinite s ↔ limit ≤ if s then -(x.value * n) else x.value * n := by
  have hsign : (ofInt (n : Nat)).negative = false := by
    rw [Binary64.ofInt_natCast, Binary64.negative_ofRatio]
  rw [Binary64.mul_eq_infinite_iff x _ hx (Binary64.isFinite_ofInt n hn) hsign,
    Binary64.value_ofInt n hn]

theorem times_ne_nan (x : Binary64) (n : Nat) (hn : n ≤ 2 ^ 53) (hx : x.isFinite = true) :
    x.mul (ofInt n) ≠ .nan := by
  rw [Binary64.mul_eq x _ hx (Binary64.isFinite_ofInt n hn)]
  exact Binary64.ofRatio_ne_nan _ _ _

/-- A time is finite exactly when no step overflows. -/
theorem isFinite_total_iff (h m s : Binary64) (hh : h.isFinite = true) (hm : m.isFinite = true)
    (hs : s.isFinite = true) : (total h m s).isFinite = true ↔ InRange h m s := by
  have hhours := isFinite_times_iff h 3600 (by omega) hh
  have hminutes := isFinite_times_iff m 60 (by omega) hm
  rw [Nat.cast_ofNat, Nat.cast_ofNat] at hhours hminutes
  unfold total
  constructor
  · intro hfin
    have hsum := (Binary64.isFinite_of_add _ _ hfin).1
    have hparts := Binary64.isFinite_of_add _ _ hsum
    exact ⟨hhours.mp hparts.1, hminutes.mp hparts.2,
      (Binary64.isFinite_add_iff _ _ hparts.1 hparts.2).mp hsum,
      (Binary64.isFinite_add_iff _ _ hsum hs).mp hfin⟩
  · intro hrange
    have hsum := (Binary64.isFinite_add_iff _ _ (hhours.mpr hrange.hours)
      (hminutes.mpr hrange.minutes)).mpr hrange.whole
    exact (Binary64.isFinite_add_iff _ _ hsum hs).mpr hrange.sum

/-- A time is not a number exactly when hours and minutes overflow in opposite
    directions. -/
theorem total_eq_nan_iff (h m s : Binary64) (hh : h.isFinite = true) (hm : m.isFinite = true)
    (hs : s.isFinite = true) : total h m s = .nan ↔ Opposed h m := by
  have hhours := times_eq_infinite_iff h 3600 (by omega) hh
  have hminutes := times_eq_infinite_iff m 60 (by omega) hm
  rw [Nat.cast_ofNat, Nat.cast_ofNat] at hhours hminutes
  have hp : h.mul (ofInt 3600) ≠ .nan := times_ne_nan h 3600 (by omega) hh
  have hq : m.mul (ofInt 60) ≠ .nan := times_ne_nan m 60 (by omega) hm
  have hwhole : (h.mul (ofInt 3600)).add (m.mul (ofInt 60)) = .nan ↔ Opposed h m := by
    have hfalse := and_congr (hhours false) (hminutes true)
    have htrue := and_congr (hhours true) (hminutes false)
    simp only [Bool.false_eq_true, if_false, if_true] at hfalse htrue
    rw [Binary64.add_eq_nan_iff _ _ hp hq, Bool.exists_bool, Bool.not_false, Bool.not_true, Opposed]
    exact or_congr hfalse htrue
  -- The seconds are finite, so they make nothing of an infinity but itself.
  rw [← hwhole, total]
  by_cases hnan : (h.mul (ofInt 3600)).add (m.mul (ofInt 60)) = .nan
  · rw [hnan]
    exact iff_of_true rfl rfl
  · have hsnan : s ≠ .nan := by
      rintro rfl
      exact absurd hs Bool.false_ne_true
    refine iff_of_false (fun hsum => ?_) hnan
    rcases (Binary64.add_eq_nan_iff _ _ hnan hsnan).mp hsum with ⟨b, _, rfl⟩
    exact absurd hs Bool.false_ne_true

-- Three fields that are finite numbers are all that is asked of a timestamp.
theorem ofFields_eq_ok_iff (parts : List Text) (x : Binary64) :
    ofFields parts = .ok x ↔
      ∃ h m s, parts.map field = [.ok h, .ok m, .ok s] ∧ total h m s = x := by
  unfold ofFields
  split
  · simp only [bind_eq_ok_iff, pure_eq_ok_iff, List.map_cons, List.map_nil, List.cons.injEq,
      and_true]
    constructor
    · rintro ⟨h, hh, m, hm, s, hs, rfl⟩
      exact ⟨h, m, s, ⟨hh, hm, hs⟩, rfl⟩
    · rintro ⟨h, m, s, ⟨hh, hm, hs⟩, rfl⟩
      exact ⟨h, hh, m, hm, s, hs, rfl⟩
  · rename_i hparts
    refine iff_of_false (error_ne_ok _ _) ?_
    rintro ⟨h, m, s, hmap, _⟩
    have hlength : parts.length = 3 := by
      rw [← parts.length_map field, hmap]
      rfl
    rcases List.length_eq_three.mp hlength with ⟨a, b, c, rfl⟩
    exact hparts a b c rfl

/-- What becomes of any text: it is malformed unless it has three fields that are
    finite numbers, and then it is read as a time, which is finite exactly when no
    step of adding up the fields overflows. -/
theorem seconds_outcome (t : Text) :
    ((∃ reason, seconds t = .error ⟨t, reason⟩) ∧ ∀ h m s, ¬ Denotes t h m s) ∨
      ∃ h m s, Denotes t h m s ∧ seconds t = .ok (total h m s) ∧
        ((total h m s).isFinite = true ↔ InRange h m s) ∧
        (total h m s = .nan ↔ Opposed h m) := by
  rcases hfields : ofFields (fields t) with reason | x
  · left
    refine ⟨⟨reason, by rw [seconds, hfields]⟩, fun h m s hd => ?_⟩
    rw [(ofFields_eq_ok_iff (fields t) _).mpr ⟨h, m, s, hd, rfl⟩] at hfields
    exact absurd hfields (ok_ne_error _ _)
  · right
    rcases (ofFields_eq_ok_iff (fields t) x).mp hfields with ⟨h, m, s, hd, rfl⟩
    rcases isFinite_of_denotes t h m s hd with ⟨hh, hm, hs⟩
    exact ⟨h, m, s, hd, by rw [seconds, hfields], isFinite_total_iff h m s hh hm hs,
      total_eq_nan_iff h m s hh hm hs⟩

/-- Not every text is malformed or read as a finite time. -/
theorem not_always_finite :
    ¬ ∀ t : Text, (∃ fault, seconds t = .error fault) ∨
      ∃ x, seconds t = .ok x ∧ x.isFinite = true := by
  intro hall
  have hnan : seconds "1e308:-1e308:0" = .ok .nan := by decide +kernel
  rcases hall "1e308:-1e308:0" with ⟨fault, h⟩ | ⟨x, h, hfin⟩
  · rw [hnan] at h
    exact absurd h (ok_ne_error _ _)
  · rw [hnan, Except.ok.injEq] at h
    rw [← h] at hfin
    exact absurd hfin Bool.false_ne_true

end Timestamp

end Captions
