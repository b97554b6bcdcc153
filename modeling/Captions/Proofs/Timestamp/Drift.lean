import Captions.Proofs.Number.Spacing
import Captions.Proofs.Timestamp.Canonical

/-!
# A Clock That Adds Up Times

A clock that is moved on from time to time by their difference, all in double
precision, and how far it strays from the time.

`Binary64.Follows` carries the argument as long as every time keeps clear of
the end of its binade, and a time in milliseconds does. Its distance to a power
of two is a multiple of the finest of the two grids, which is far wider than a
few spacings; and where there is no distance at all, the time is read exactly
and begins the next binade (`ofMillis_room`).

The clock may therefore be moved any number of times. Below a hundred hours it
stays within a quarter of a millisecond of the time (`tracks_near`), by a wide
margin, and all that can go wrong is that it falls below a second that the time
has reached.

## Main definitions

* `Tracks`: A clock is close to a time.

## Theorems

* `units_ofMillis_near`: The units that a time is read as.
* `ofMillis_room`: A time keeps clear of the end of its binade.
* `tracks_add`: Moving a clock on keeps it close to the time.
* `tracks_near`: How close the clock is.
-/

namespace Captions

namespace Timestamp

open Binary64 (spacing Follows)

/-- A time is read as a number of units that is off by at most a `2 ^ 51`-st
    part. -/
theorem units_ofMillis_near (ms : Nat) (h : ms ≤ 2 ^ 53) :
    ∃ n : Nat, (ofMillis ms).units = n ∧
      2 ^ 51 * (1000 * n) ≤ (2 ^ 51 + 1) * (ms * Binary64.one) ∧
      (2 ^ 51 - 1) * (ms * Binary64.one) ≤ 2 ^ 51 * (1000 * n) := by
  have hnear := (ofMillis_near ms h).2
  have hone := Binary64.one_cast_pos
  have hms : (0 : ℚ) ≤ ms := Nat.cast_nonneg ms
  rw [Binary64.value, abs_le] at hnear
  rcases hnear with ⟨hlo, hhi⟩
  have hdiv : ((ofMillis ms).units : ℚ) / Binary64.one * Binary64.one = (ofMillis ms).units :=
    div_mul_cancel₀ _ (ne_of_gt hone)
  have hlo' := mul_le_mul_of_nonneg_right hlo (le_of_lt hone)
  have hhi' := mul_le_mul_of_nonneg_right hhi (le_of_lt hone)
  rw [sub_mul, hdiv] at hlo' hhi'
  have hprod : (0 : ℚ) ≤ ms * Binary64.one := mul_nonneg hms (le_of_lt hone)
  have hnonneg : (0 : ℚ) ≤ ((ofMillis ms).units : ℚ) := by linarith
  rcases Int.eq_ofNat_of_zero_le (by exact_mod_cast hnonneg) with ⟨n, hn⟩
  rw [hn, Int.cast_natCast] at hlo' hhi'
  refine ⟨n, hn, ?_, ?_⟩
  · have : (2 ^ 51 * (1000 * n) : ℚ) ≤ (2 ^ 51 + 1) * (ms * Binary64.one) := by linarith
    exact_mod_cast this
  · have : ((2 ^ 51 - 1 : Nat) : ℚ) * (ms * Binary64.one) ≤ 2 ^ 51 * (1000 * n) := by
      have hcast : ((2 ^ 51 - 1 : Nat) : ℚ) = 2 ^ 51 - 1 := by norm_num
      rw [hcast]
      linarith
    exact_mod_cast this

-- A number that reaches `2 ^ k` lies in a binade that ends at a multiple of it.
theorem two_pow_dvd_binade (n k : Nat) (hk : 52 ≤ k) (h : 2 ^ k ≤ n) :
    2 ^ k ∣ 2 ^ 53 * spacing n := by
  have hne : n ≠ 0 := by
    intro hz
    have := Nat.two_pow_pos k
    omega
  have hlog := (Nat.le_log2 hne).mpr h
  rw [spacing, ← Nat.pow_add]
  exact Nat.pow_dvd_pow 2 (by omega)

theorem units_ofMillis_eighth (ms n : Nat) (h : ms ≤ 2 ^ 53) (hdvd : ms % 125 = 0)
    (hn : (ofMillis ms).units = n) : n * 1000 = ms * Binary64.one := by
  have hval := value_ofMillis_eighth ms h hdvd
  rw [Binary64.value, hn, div_eq_div_iff (ne_of_gt Binary64.one_cast_pos) (by norm_num)] at hval
  exact_mod_cast hval

-- Two multiples of a grid that are less than one of it apart are one number.
theorem eq_of_near_grid (e t ms : Nat) (h1 : 1000 * (e * t) < 1024 * (ms * e) + e)
    (h2 : 1024 * (ms * e) < 1000 * (e * t) + e) : 1000 * t = 1024 * ms ∧ ms % 125 = 0 := by
  have h1' : e * (1000 * t) < e * (1024 * ms + 1) := by
    calc e * (1000 * t) = 1000 * (e * t) := by ring
      _ < 1024 * (ms * e) + e := h1
      _ = e * (1024 * ms + 1) := by ring
  have h2' : e * (1024 * ms) < e * (1000 * t + 1) := by
    calc e * (1024 * ms) = 1024 * (ms * e) := by ring
      _ < 1000 * (e * t) + e := h2
      _ = e * (1000 * t + 1) := by ring
  have hlt := Nat.lt_of_mul_lt_mul_left h1'
  have hgt := Nat.lt_of_mul_lt_mul_left h2'
  clear h1 h2 h1' h2'
  omega

/-- A time keeps clear of the end of its binade by more than eight spacings. -/
theorem ofMillis_room (ms n : Nat) (hpos : 0 < ms) (hms : ms < 360000000000)
    (hn : (ofMillis ms).units = n) : n + 8 * spacing n ≤ 2 ^ 53 * spacing n := by
  have hsmall : ms ≤ 2 ^ 53 := by omega
  rcases units_ofMillis_near ms hsmall with ⟨n', hn', hup, hlo⟩
  rw [hn', Int.natCast_inj] at hn
  subst hn
  by_contra hclose
  have hone : Binary64.one = 1024 * 2 ^ (Binary64.depth - 10) := by
    rw [Binary64.one_eq, show (1024 : Nat) = 2 ^ 10 by rfl, ← Nat.pow_add,
      Nat.add_sub_cancel' (by decide)]
  have hlt := Binary64.lt_spacing n'
  have hdvd := two_pow_dvd_binade n' (Binary64.depth - 10) (by decide)
  have hpow := Nat.two_pow_pos (Binary64.depth - 10)
  generalize 2 ^ (Binary64.depth - 10) = e at hone hdvd hpow
  have hunits : ms * Binary64.one = 1024 * (ms * e) := by
    rw [hone]
    ring
  have hle : e ≤ ms * e := Nat.le_mul_of_pos_left e hpos
  have hlarge : ms * e ≤ 360000000000 * e := Nat.mul_le_mul_right e (Nat.le_of_lt hms)
  rcases hdvd (by omega) with ⟨t, ht⟩
  -- The end of the binade is a multiple of the grid, and so close to the time
  -- that they can only be equal.
  have hnear : 1000 * (e * t) < 1024 * (ms * e) + e ∧ 1024 * (ms * e) < 1000 * (e * t) + e := by
    omega
  rcases eq_of_near_grid e t ms hnear.1 hnear.2 with ⟨hend, hdvd⟩
  have hexact := units_ofMillis_eighth ms n' hsmall hdvd hn'
  have hreach : 1000 * n' = 1000 * (e * t) := by
    calc 1000 * n' = n' * 1000 := Nat.mul_comm 1000 n'
      _ = 1024 * (ms * e) := by rw [hexact, hunits]
      _ = e * (1024 * ms) := by ring
      _ = 1000 * (e * t) := by rw [← hend]; ring
  rw [ht] at hlt
  exact absurd (Nat.eq_of_mul_eq_mul_left (by norm_num) hreach) (Nat.ne_of_lt hlt)

/-- A clock in double precision is close to a time. -/
def Tracks (clock : Binary64) (ms : Nat) : Prop :=
  clock.isFinite = true ∧
    ∃ c n : Nat, clock.units = c ∧ (ofMillis ms).units = n ∧ Follows c n

theorem tracks_zero : Tracks Binary64.zero 0 := by
  refine ⟨rfl, 0, 0, rfl, ?_, Binary64.follows_self 0⟩
  rw [ofMillis_zero]
  rfl

theorem units_ofMillis_lt (a b m n : Nat) (hab : a < b) (hb : b < 360000000000)
    (hm : (ofMillis a).units = m) (hn : (ofMillis b).units = n) :
    m ≤ n ∧ n ≤ 2 ^ 30 * Binary64.one := by
  rcases units_ofMillis_near a (by omega) with ⟨m', hm', hup, _⟩
  rcases units_ofMillis_near b (by omega) with ⟨n', hn', hup', hlo'⟩
  rw [hm', Int.natCast_inj] at hm
  rw [hn', Int.natCast_inj] at hn
  subst hm hn
  have hstep := Nat.mul_le_mul_right Binary64.one (Nat.succ_le_of_lt hab)
  have hlarge : b * Binary64.one ≤ 360000000000 * Binary64.one :=
    Nat.mul_le_mul_right _ (Nat.le_of_lt hb)
  rw [Nat.succ_mul] at hstep
  constructor <;> omega

-- All numbers in play are within a few times the later time.
theorem follows_bound (c m n : Nat) (h : Follows c m) (hmn : m ≤ n)
    (hn : n ≤ 2 ^ 30 * Binary64.one) :
    2 * n ≤ Binary64.bound ∧ 2 * (c + Binary64.roundUnits (n - m) 1) ≤ Binary64.bound ∧
      n + 8 * spacing n < Binary64.bound := by
  have hwidth := Binary64.spacing_le_one n hn
  have hspacing := Binary64.spacing_mono m n hmn
  have hclock : c ≤ n + 4 * spacing n := by
    have hle := h.spacing_le
    have habove := h.sum_le
    omega
  have hmove : Binary64.roundUnits (n - m) 1 ≤ n + spacing n := by
    have hdiff := (Binary64.round_near_spacing (n - m)).1
    have hfine := Binary64.spacing_mono (n - m) n (Nat.sub_le n m)
    omega
  have hbound := Binary64.two_pow_mul_one_le_bound 128 (by omega)
  have hone := Binary64.one_pos
  refine ⟨?_, ?_, ?_⟩ <;> omega

/-- Moving a clock on by the difference of two times keeps it close. -/
theorem tracks_add (clock : Binary64) (a b : Nat) (h : Tracks clock a) (hab : a < b)
    (hb : b < 360000000000) : Tracks (clock.add ((ofMillis b).sub (ofMillis a))) b := by
  have hsmall : b ≤ 2 ^ 53 := by omega
  rcases h with ⟨hfin, c, m, hc, hm, hfollows⟩
  rcases units_ofMillis_near b hsmall with ⟨n, hn, _, _⟩
  rcases units_ofMillis_lt a b m n hab hb hm hn with ⟨hmn, hn30⟩
  rcases follows_bound c m n hfollows hmn hn30 with ⟨hbn, hbsum, hbroom⟩
  have hsub := Binary64.sub_units (ofMillis b) (ofMillis a) n m (ofMillis_near b hsmall).1
    (ofMillis_near a (le_trans (le_of_lt hab) hsmall)).1 hn hm hmn hbn
  have hadd := Binary64.add_units clock _ c _ hfin hsub.1 hc hsub.2 hbsum
  have hroom := ofMillis_room b n (Nat.lt_of_le_of_lt (Nat.zero_le a) hab) hb hn
  exact ⟨hadd.1, _, n, hadd.2, hn, Binary64.follows_step c m n hfollows
    (Binary64.spacing_dvd_units _ m hm) (Binary64.spacing_dvd_units _ n hn)
    (Binary64.spacing_dvd_units clock c hc) hmn hroom hbroom⟩

theorem follows_near (c n ms : Nat) (h : Follows c n)
    (hup : 2 ^ 51 * (1000 * n) ≤ (2 ^ 51 + 1) * (ms * Binary64.one))
    (hdown : (2 ^ 51 - 1) * (ms * Binary64.one) ≤ 2 ^ 51 * (1000 * n)) (hms : ms < 360000000) :
    4000 * c ≤ 4 * (ms * Binary64.one) + Binary64.one ∧
      4 * (ms * Binary64.one) ≤ 4000 * c + Binary64.one := by
  rcases h with ⟨hle, hlo, hhi⟩
  have hlarge : ms * Binary64.one ≤ 360000000 * Binary64.one :=
    Nat.mul_le_mul_right _ (Nat.le_of_lt hms)
  have hwidth := Binary64.spacing_le_one n (by omega)
  constructor <;> omega

/-- Below a hundred hours, a clock stays within a quarter of a millisecond. -/
theorem tracks_near (clock : Binary64) (ms : Nat) (h : Tracks clock ms) (hms : ms < 360000000) :
    ∃ c : Nat, clock.isFinite = true ∧ clock.units = c ∧
      4000 * c ≤ 4 * (ms * Binary64.one) + Binary64.one ∧
      4 * (ms * Binary64.one) ≤ 4000 * c + Binary64.one := by
  rcases units_ofMillis_near ms (by omega) with ⟨n, hn, hup, hdown⟩
  rcases h with ⟨hfin, c, n', hc, hn', hfollows⟩
  rw [hn, Int.natCast_inj] at hn'
  subst hn'
  exact ⟨c, hfin, hc, follows_near c n ms hfollows hup hdown hms⟩

end Timestamp

end Captions
