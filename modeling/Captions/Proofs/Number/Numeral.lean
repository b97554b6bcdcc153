import Captions.Number.Numeral
import Captions.Proofs.Text.Pieces
import Mathlib.Data.List.Basic
import Mathlib.Data.List.Induction
import Mathlib.Tactic.NormNum

/-!
# Reading Plain Numerals

What the readers of numbers make of texts that hold ASCII digits and at most
one point.

`Numeral.double?` accepts far more than that: padding, signs, underscores,
exponents, the names of the infinities. Each of these is recognised by a
character, and a text of digits has none of those characters, so the lemmas
here come in two kinds. The first says what a digit is not. The second follows
the reader through its stages and says that nothing is removed and nothing is
left over.

The digits are given as their values. `numeral` writes them, and the same list
of values is what comes back, whether or not it begins with zeros.

## Main definitions

* `Text.numeral`: The text of a list of digit values.
* `Text.IsDigits`: Every value in a list is a digit.

## Theorems

* `digitRun_numeral`: A run of digits is read whole.
* `double?_numeral`: A numeral without a point.
* `double?_numeral_point`: A numeral with a point.
* `whole_numeral`, `whole_ofInt`: Whole numerals, and whole numbers as written.
* `ofDigits_append`, `ofDigits_lt`: The number that digits denote.
-/

namespace Captions

namespace Text

/-- The text of a list of digit values. -/
def numeral (ds : List Nat) : Text := ds.map digitChar

/-- Every value in the list is a decimal digit. -/
def IsDigits (ds : List Nat) : Prop := ∀ d ∈ ds, d < 10

instance (ds : List Nat) : Decidable (IsDigits ds) :=
  inferInstanceAs (Decidable (∀ d ∈ ds, d < 10))

theorem isDigits_nil : IsDigits [] := by
  intro d hd
  exact absurd hd List.not_mem_nil

theorem isDigits_cons (d : Nat) (ds : List Nat) : IsDigits (d :: ds) ↔ d < 10 ∧ IsDigits ds :=
  List.forall_mem_cons

theorem isDigits_append (ds es : List Nat) :
    IsDigits (ds ++ es) ↔ IsDigits ds ∧ IsDigits es :=
  List.forall_mem_append

theorem isDigits_digitValues (n : Nat) : IsDigits (digitValues n) := by
  induction n using digitValues.induct with
  | case1 n h =>
      rw [digitValues, if_pos h, isDigits_cons]
      exact ⟨h, isDigits_nil⟩
  | case2 n h ih =>
      rw [digitValues, if_neg h, isDigits_append, isDigits_cons]
      exact ⟨ih, Nat.mod_lt n (by omega), isDigits_nil⟩

theorem digitValues_ne_nil (n : Nat) : digitValues n ≠ [] := by
  rw [digitValues]
  split
  · exact List.cons_ne_nil _ _
  · exact List.append_ne_nil_of_right_ne_nil _ (List.cons_ne_nil _ _)

theorem toNat_digitChar (d : Nat) (h : d < 10) : (digitChar d).toNat = 0x30 + d := by
  have hall : ∀ d < 10, (digitChar d).toNat = 0x30 + d := by decide
  exact hall d h

theorem numeral_inj (ds es : List Nat) (hds : IsDigits ds) (hes : IsDigits es)
    (h : numeral ds = numeral es) : ds = es := by
  have hread : ∀ fs : List Nat, IsDigits fs → (numeral fs).map (fun c => c.toNat - 0x30) = fs := by
    intro fs hfs
    rw [numeral, List.map_map]
    refine (List.map_congr_left fun d hd => ?_).trans (List.map_id fs)
    rw [Function.comp_apply, toNat_digitChar d (hfs d hd), Nat.add_sub_cancel_left, id]
  rw [← hread ds hds, h, hread es hes]

theorem digitValue?_digitChar (d : Nat) (h : d < 10) : digitValue? (digitChar d) = some d := by
  have hall : ∀ d < 10, digitValue? (digitChar d) = some d := by decide
  exact hall d h

-- A digit is no character whose code point lies outside the digits.
theorem digitChar_ne (d : Nat) (h : d < 10) (c : Char) (hc : c.toNat < 0x30 ∨ 0x39 < c.toNat) :
    digitChar d ≠ c := by
  intro heq
  have := toNat_digitChar d h
  rw [heq] at this
  omega

theorem isBlank_digitChar (d : Nat) (h : d < 10) : isBlank (digitChar d) = false := by
  have hall : ∀ d < 10, isBlank (digitChar d) = false := by decide
  exact hall d h

theorem toLower_digitChar (d : Nat) (h : d < 10) : (digitChar d).toLower = digitChar d := by
  have hall : ∀ d < 10, (digitChar d).toLower = digitChar d := by decide
  exact hall d h

theorem isPadding_of_not_isBlank (c : Char) (h : isBlank c = false) : isPadding c = false := by
  rw [isPadding, h, Bool.false_and]

-- A character of a numeral is a digit.
theorem mem_numeral (ds : List Nat) (hds : IsDigits ds) (c : Char) (hc : c ∈ numeral ds) :
    ∃ d, d < 10 ∧ c = digitChar d := by
  rcases List.mem_map.mp hc with ⟨d, hd, rfl⟩
  exact ⟨d, hds d hd, rfl⟩

theorem ofDigits_foldl (ds : List Nat) (n : Nat) :
    ds.foldl (fun n d => 10 * n + d) n = n * 10 ^ ds.length + ofDigits ds := by
  induction ds generalizing n with
  | nil => simp only [ofDigits, List.foldl_nil, List.length_nil, Nat.pow_zero]; omega
  | cons d ds ih =>
      have hhead : ofDigits (d :: ds) = d * 10 ^ ds.length + ofDigits ds := by
        rw [ofDigits, List.foldl_cons, Nat.mul_zero, Nat.zero_add, ih]
      rw [List.foldl_cons, ih, hhead, List.length_cons, Nat.pow_succ, Nat.add_mul,
        Nat.mul_comm 10 n, Nat.mul_assoc n 10, Nat.mul_comm 10 (10 ^ ds.length), Nat.add_assoc]

theorem ofDigits_append (ds es : List Nat) :
    ofDigits (ds ++ es) = ofDigits ds * 10 ^ es.length + ofDigits es := by
  rw [ofDigits, List.foldl_append, ofDigits_foldl]
  rfl

theorem ofDigits_lt (ds : List Nat) (hds : IsDigits ds) : ofDigits ds < 10 ^ ds.length := by
  induction ds with
  | nil => simp only [ofDigits, List.foldl_nil, List.length_nil, Nat.pow_zero, Nat.lt_one_iff]
  | cons d ds ih =>
      have hd : d < 10 := hds d List.mem_cons_self
      have hrest := ih (fun e he => hds e (List.mem_cons_of_mem d he))
      have hcons : ofDigits (d :: ds) = d * 10 ^ ds.length + ofDigits ds := by
        rw [ofDigits, List.foldl_cons, ofDigits_foldl, Nat.mul_zero, Nat.zero_add]
      have hmul : d * 10 ^ ds.length ≤ 9 * 10 ^ ds.length := Nat.mul_le_mul_right _ (by omega)
      rw [hcons, List.length_cons, Nat.pow_succ]
      omega

theorem digits_append (n d : Nat) (hd : d < 10) :
    digits (n * 10 + d) = if n = 0 then [digitChar d] else digits n ++ [digitChar d] := by
  rw [digits, digitValues]
  by_cases hn : n = 0
  · rw [if_pos hn, if_pos (by omega), hn, Nat.zero_mul, Nat.zero_add]
    rfl
  · have hdiv : (n * 10 + d) / 10 = n := by omega
    have hmod : (n * 10 + d) % 10 = d := by omega
    rw [if_neg hn, if_neg (by omega), hdiv, hmod, List.map_append]
    rfl

-- Padding a number to the width of a numeral writes the numeral.
theorem padded_ofDigits (ds : List Nat) (hds : IsDigits ds) (hne : ds ≠ []) :
    padded ds.length (ofDigits ds) = numeral ds := by
  induction ds using List.reverseRecOn with
  | nil => exact absurd rfl hne
  | append_singleton ds d ih =>
      have hd : d < 10 := hds d (List.mem_append_right ds List.mem_cons_self)
      have hinit : IsDigits ds := fun e he => hds e (List.mem_append_left _ he)
      have hvalue : ofDigits (ds ++ [d]) = ofDigits ds * 10 + d := by
        rw [ofDigits_append_singleton, Nat.mul_comm]
      rw [padded, hvalue, digits_append _ d hd, List.length_append, numeral, List.map_append]
      by_cases hempty : ds = []
      · rw [hempty]
        rfl
      · rw [← numeral, ← ih hinit hempty, padded]
        have hlen : 0 < ds.length := List.length_pos_iff.mpr hempty
        by_cases hz : ofDigits ds = 0
        · -- The zeros before the digits are one zero more, or a digit zero.
          have hzero : digits 0 = ['0'] := by
            rw [digits, digitValues]
            rfl
          have hwidth : ds.length + 1 - 1 = ds.length - 1 + 1 := by omega
          rw [if_pos hz, hz, hzero, List.length_singleton, List.length_singleton,
            List.length_singleton, hwidth, List.replicate_succ']
          rfl
        · have hwidth : ds.length + 1 - ((digits (ofDigits ds)).length + 1)
              = ds.length - (digits (ofDigits ds)).length := by omega
          rw [if_neg hz, List.length_append, List.length_singleton, List.length_singleton, hwidth,
            List.append_assoc]
          rfl

theorem length_digits_le (n k : Nat) (hk : 0 < k) (h : n < 10 ^ k) : (digits n).length ≤ k := by
  rw [digits, List.length_map]
  induction n using digitValues.induct generalizing k with
  | case1 n hn =>
      rw [digitValues, if_pos hn]
      exact hk
  | case2 n hn ih =>
      rw [digitValues, if_neg hn, List.length_append, List.length_singleton]
      rcases Nat.exists_eq_succ_of_ne_zero (Nat.ne_of_gt hk) with ⟨j, rfl⟩
      rw [Nat.pow_succ] at h
      have hj : 0 < j := by
        refine Nat.pos_of_ne_zero fun hz => ?_
        rw [hz, Nat.pow_zero] at h
        omega
      exact Nat.succ_le_succ (ih j hj (by omega))

-- Without a zero in front there is nothing to pad.
theorem digits_ofDigits (ds : List Nat) (hds : IsDigits ds) (hne : ds ≠ [])
    (hhead : ds.head? ≠ some 0) : digits (ofDigits ds) = numeral ds := by
  have hpadded := padded_ofDigits ds hds hne
  rw [padded] at hpadded
  rcases Nat.eq_zero_or_pos (ds.length - (digits (ofDigits ds)).length) with hz | hpos
  · rwa [hz, List.replicate_zero, List.nil_append] at hpadded
  · rcases Nat.exists_eq_succ_of_ne_zero (Nat.ne_of_gt hpos) with ⟨k, hk⟩
    rw [hk, List.replicate_succ, List.cons_append] at hpadded
    cases ds with
    | nil => exact absurd rfl hne
    | cons d ds =>
        -- The zero in front would be the first digit.
        have hzero : digitChar d = '0' := (List.cons.inj hpadded).1.symm
        have hd := toNat_digitChar d (hds d List.mem_cons_self)
        rw [hzero, show ('0' : Char).toNat = 0x30 from rfl] at hd
        exact absurd (congrArg some (show d = 0 by omega)) hhead

-- A whole number is written with digits and at most a minus sign.
theorem mem_ofInt (n : Int) (c : Char) (hc : c ∈ ofInt n) :
    c = '-' ∨ ∃ d, d < 10 ∧ c = digitChar d := by
  have hdigits := mem_numeral _ (isDigits_digitValues n.natAbs) c
  unfold ofInt at hc
  split at hc
  · rcases List.mem_cons.mp hc with rfl | hc
    · exact Or.inl rfl
    · exact Or.inr (hdigits hc)
  · exact Or.inr (hdigits hc)

theorem ofInt_ne_nil (n : Int) : ofInt n ≠ [] := by
  unfold ofInt
  split
  · exact List.cons_ne_nil _ _
  · exact fun h => digitValues_ne_nil n.natAbs (List.map_eq_nil_iff.mp h)

theorem dropEndWhile_eq_self (p : Char → Bool) (t : Text) (h : ∀ c ∈ t, p c = false) :
    dropEndWhile p t = t := by
  induction t with
  | nil => rfl
  | cons c t ih =>
      have hrest := ih (fun d hd => h d (List.mem_cons_of_mem c hd))
      have hc := h c List.mem_cons_self
      rw [dropEndWhile, List.foldr_cons, ← dropEndWhile, hrest, hc, Bool.and_false,
        if_neg Bool.false_ne_true]

theorem dropWhile_eq_self (p : Char → Bool) (t : Text) (h : ∀ c ∈ t, p c = false) :
    t.dropWhile p = t := by
  cases t with
  | nil => rfl
  | cons c t => rw [List.dropWhile_cons_of_neg (by rw [h c List.mem_cons_self]; decide)]

-- A text without blanks has none to trim.
theorem trim_eq_self (t : Text) (h : ∀ c ∈ t, isBlank c = false) : trim t = t := by
  rw [trim, trimStart, trimEnd, dropWhile_eq_self isBlank t h, dropEndWhile_eq_self isBlank t h]

theorem swap_append (a b : Char) (t u : Text) : swap a b (t ++ u) = swap a b t ++ swap a b u :=
  List.map_append

-- Swapping a character that does not occur changes nothing.
theorem swap_eq_self (a b : Char) (t : Text) (h : a ∉ t) : swap a b t = t := by
  induction t with
  | nil => rfl
  | cons c t ih =>
      have hc : c ≠ a := fun heq => h (List.mem_cons.mpr (Or.inl heq.symm))
      have hrest := ih (fun ha => h (List.mem_cons_of_mem c ha))
      rw [swap, List.map_cons, if_neg hc, ← swap, hrest]

end Text

namespace Numeral

open Text

theorem digitRun_cons (c : Char) (t : Text) (hc : c ≠ '_') (d : Nat)
    (hd : digitValue? c = some d) : digitRun (c :: t) = (d :: (digitRun t).1, (digitRun t).2) := by
  rw [digitRun]
  · rw [hd]
  · exact hc

/-- A run of digits is read whole, and the reading goes on behind it. -/
theorem digitRun_numeral (ds : List Nat) (rest : Text) (hds : IsDigits ds) :
    digitRun (numeral ds ++ rest) = (ds ++ (digitRun rest).1, (digitRun rest).2) := by
  induction ds with
  | nil => rfl
  | cons d ds ih =>
      have hd : d < 10 := hds d List.mem_cons_self
      have hrest := ih (fun e he => hds e (List.mem_cons_of_mem d he))
      have hcons : numeral (d :: ds) ++ rest = digitChar d :: (numeral ds ++ rest) := rfl
      rw [hcons, digitRun_cons _ _ (digitChar_ne d hd '_' (by decide)) d
        (digitValue?_digitChar d hd), hrest]
      rfl

-- A text that begins with a digit is read as a run of digits.
theorem digitsFirst_numeral (ds : List Nat) (rest : Text) (hds : IsDigits ds) (hne : ds ≠ []) :
    digitsFirst (numeral ds ++ rest) = (ds ++ (digitRun rest).1, (digitRun rest).2) := by
  rw [← digitRun_numeral ds rest hds]
  cases ds with
  | nil => exact absurd rfl hne
  | cons d ds =>
      have hd := digitChar_ne d (hds d List.mem_cons_self) '_' (by decide)
      have hcons : numeral (d :: ds) ++ rest = digitChar d :: (numeral ds ++ rest) := rfl
      rw [hcons, digitsFirst]
      intro t ht
      exact hd (List.cons.inj ht).1

theorem unpadded_eq_self (t : Text) (h : ∀ c ∈ t, isBlank c = false) : unpadded t = t := by
  have hpadding : ∀ c ∈ t, isPadding c = false := fun c hc => isPadding_of_not_isBlank c (h c hc)
  rw [unpadded, dropWhile_eq_self isPadding t hpadding, dropEndWhile_eq_self isPadding t hpadding]

-- A digit is no sign.
theorem sign_digitChar (d : Nat) (t : Text) (hd : d < 10) :
    sign (digitChar d :: t) = (false, digitChar d :: t) := by
  rw [sign]
  · intro u hu
    exact digitChar_ne d hd '-' (by decide) (List.cons.inj hu).1
  · intro u hu
    exact digitChar_ne d hd '+' (by decide) (List.cons.inj hu).1

-- A text of digits and points that begins with a digit is read as digits with a
-- point, and not as a name or a signed number.
theorem double?_eq_decimal? (d : Nat) (t : Text) (hd : d < 10)
    (ht : ∀ c ∈ t, isBlank c = false) :
    double? (digitChar d :: t) = decimal? false (digitChar d :: t) := by
  have hblank : ∀ c ∈ digitChar d :: t, isBlank c = false := by
    intro c hc
    rcases List.mem_cons.mp hc with rfl | hc
    · exact isBlank_digitChar d hd
    · exact ht c hc
  -- The names begin with letters, and no digit is one.
  have hname : ∀ (c : Char) (u : Text), 0x39 < c.toNat → lower (digitChar d :: t) ≠ c :: u := by
    intro c u hc hu
    rw [lower, List.map_cons, toLower_digitChar d hd] at hu
    exact digitChar_ne d hd c (Or.inr hc) (List.cons.inj hu).1
  rw [double?, unpadded_eq_self _ hblank, sign_digitChar d t hd]
  simp only []
  rw [if_neg, if_neg]
  · exact hname 'n' ['a', 'n'] (by decide)
  · rintro (h | h)
    · exact hname 'i' ['n', 'f'] (by decide) h
    · exact hname 'i' ['n', 'f', 'i', 'n', 'i', 't', 'y'] (by decide) h

theorem not_isBlank_numeral (ds : List Nat) (hds : IsDigits ds) :
    ∀ c ∈ numeral ds, isBlank c = false := by
  intro c hc
  rcases mem_numeral ds hds c hc with ⟨d, hd, rfl⟩
  exact isBlank_digitChar d hd

/-- A numeral without a point. -/
theorem double?_numeral (ds : List Nat) (hds : IsDigits ds) (hne : ds ≠ []) :
    double? (numeral ds) = some (toDouble false ds 0 0) := by
  have hdecimal : decimal? false (numeral ds) = some (toDouble false ds 0 0) := by
    have hfirst := digitsFirst_numeral ds [] hds hne
    rw [List.append_nil] at hfirst
    rw [decimal?, hfirst]
    simp only [digitRun, List.append_nil, if_neg hne, exponent?, Option.map_some]
  rw [← hdecimal]
  cases ds with
  | nil => exact absurd rfl hne
  | cons d ds =>
      exact double?_eq_decimal? d (numeral ds) (hds d List.mem_cons_self)
        (not_isBlank_numeral ds (fun e he => hds e (List.mem_cons_of_mem d he)))

/-- A numeral with a point among its digits. -/
theorem double?_numeral_point (ds es : List Nat) (hds : IsDigits ds) (hes : IsDigits es)
    (hne : ds ≠ []) (hne' : es ≠ []) :
    double? (numeral ds ++ '.' :: numeral es) = some (toDouble false (ds ++ es) es.length 0) := by
  have hdecimal : decimal? false (numeral ds ++ '.' :: numeral es)
      = some (toDouble false (ds ++ es) es.length 0) := by
    have hpoint : digitRun ('.' :: numeral es) = ([], '.' :: numeral es) := rfl
    have hplaces := digitsFirst_numeral es [] hes hne'
    rw [List.append_nil] at hplaces
    rw [decimal?, digitsFirst_numeral ds _ hds hne, hpoint]
    simp only [hplaces, digitRun, List.append_nil, hne, false_and, if_false, exponent?,
      Option.map_some]
  rw [← hdecimal]
  cases ds with
  | nil => exact absurd rfl hne
  | cons d ds =>
      refine double?_eq_decimal? d (numeral ds ++ '.' :: numeral es) (hds d List.mem_cons_self) ?_
      intro c hc
      rcases List.mem_append.mp hc with hc | hc
      · exact not_isBlank_numeral ds (fun e he => hds e (List.mem_cons_of_mem d he)) c hc
      · rcases List.mem_cons.mp hc with rfl | hc
        · rfl
        · exact not_isBlank_numeral es hes c hc

theorem limited_eq_ok_iff (ds : List Nat) (n : Nat) :
    limited ds = .ok n ↔ ds.length ≤ digitLimit ∧ n = ofDigits ds := by
  unfold limited
  by_cases h : digitLimit < ds.length
  · rw [if_pos h]
    simp only [reduceCtorEq, false_iff, not_and]
    omega
  · rw [if_neg h, Except.ok.injEq]
    constructor
    · exact fun heq => ⟨by omega, heq.symm⟩
    · exact fun heq => heq.2.symm

/-- What a numeral of digits after a sign is read as, unless it is too long. -/
theorem whole_eq (t : Text) (negative : Bool) (ds : List Nat) (hds : IsDigits ds) (hne : ds ≠ [])
    (ht : sign (unpadded t) = (negative, numeral ds)) :
    whole t = (limited ds).map fun n : Nat => if negative then -(n : Int) else n := by
  have hfirst := digitsFirst_numeral ds [] hds hne
  rw [List.append_nil] at hfirst
  rw [whole, ht]
  simp only [hfirst, digitRun, List.append_nil, List.head?_nil, hne, reduceCtorEq, or_self,
    if_false, if_true]
  rcases limited ds with fault | n
  · rfl
  · rfl

theorem whole_numeral (ds : List Nat) (hds : IsDigits ds) (hne : ds ≠ []) :
    whole (numeral ds) = (limited ds).map fun n : Nat => (n : Int) := by
  refine whole_eq (numeral ds) false ds hds hne ?_
  rw [unpadded_eq_self _ (not_isBlank_numeral ds hds)]
  cases ds with
  | nil => exact absurd rfl hne
  | cons d ds => exact sign_digitChar d (numeral ds) (hds d List.mem_cons_self)

theorem leadingDigits_numeral (ds : List Nat) (hds : IsDigits ds) :
    leadingDigits (numeral ds) = (ds, []) := by
  induction ds with
  | nil => rfl
  | cons d ds ih =>
      have hrest := ih (fun e he => hds e (List.mem_cons_of_mem d he))
      have hcons : numeral (d :: ds) = digitChar d :: numeral ds := rfl
      rw [hcons, leadingDigits, digitValue?_digitChar d (hds d List.mem_cons_self)]
      simp only [hrest]

/-- A whole number is read back as it was written, unless it is too long. -/
theorem whole_ofInt (z : Int) (h : (digits z.natAbs).length ≤ digitLimit) :
    whole (Text.ofInt z) = .ok z := by
  have hds := isDigits_digitValues z.natAbs
  have hne := digitValues_ne_nil z.natAbs
  have hlimited : limited (digitValues z.natAbs) = .ok z.natAbs := by
    rw [digits, List.length_map] at h
    rw [limited_eq_ok_iff, ofDigits_digitValues]
    exact ⟨h, rfl⟩
  unfold Text.ofInt
  by_cases hz : z < 0
  · have hsign : sign (unpadded ('-' :: digits z.natAbs))
        = (true, numeral (digitValues z.natAbs)) := by
      rw [unpadded_eq_self]
      · rfl
      · intro c hc
        rcases List.mem_cons.mp hc with rfl | hc
        · rfl
        · exact not_isBlank_numeral _ hds c hc
    rw [if_pos hz, whole_eq _ true _ hds hne hsign, hlimited]
    exact congrArg Except.ok (show -(z.natAbs : Int) = z by omega)
  · rw [if_neg hz, show digits z.natAbs = numeral (digitValues z.natAbs) from rfl,
      whole_numeral _ hds hne, hlimited]
    exact congrArg Except.ok (show (z.natAbs : Int) = z by omega)

end Numeral

end Captions
