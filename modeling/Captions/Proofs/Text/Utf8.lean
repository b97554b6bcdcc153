import Captions.Text.Utf8

/-!
# UTF-8 There and Back

The octets of a text are read as the text again.

Reading looks at the first octet of a character for how many more there are and
for the range of the second one, which is what keeps overlong forms, surrogates
and numbers past the last code point out. What is written for a character never
falls outside, and the only thing to see to is the arithmetic: one case for each
number of octets, and in the cases of three and four the ranges of the second
octet at either end. A character is no surrogate, which settles the case of ED.

The byte order mark is a character like any other when it is written. Only
`afterMark` treats it differently, and on the octets of a text it removes one
leading mark and nothing else, because no text's octets stop inside a mark.

## Main definitions

* `Spells`: The octets of one character, seen from the reader's side.

## Theorems

* `spells_encodeChar`: What is written for a character spells it.
* `decode_encode`: What is written is read back.
* `afterMark_encode_mark`, `afterMark_encode_of_ne`: The octets of a text after
  the mark.
-/

namespace Captions

namespace Utf8

theorem toNat_ofNat (n : Nat) (h : n < 256) : (UInt8.ofNat n).toNat = n := by
  rw [UInt8.toNat_ofNat']
  exact Nat.mod_eq_of_lt h

theorem continued_zero (low high bits : Nat) (rest : Octets) :
    continued 0 low high bits rest = .ok (bits, rest) := by
  rw [continued]

-- One more octet in its range, when the octets after it are in order.
theorem continued_succ (more low high bits n : Nat) (rest : Octets) (found : Nat × Octets)
    (hn : n < 256) (hlow : low ≤ n) (hhigh : n ≤ high)
    (h : continued more 0x80 0xBF (bits * 0x40 + n % 0x40) rest = .ok found) :
    continued (more + 1) low high bits (UInt8.ofNat n :: rest) = .ok found := by
  rw [continued, toNat_ofNat n hn, if_pos ⟨hlow, hhigh⟩, h]

-- A character is read when its first octet announces it and the others are in order.
theorem decodeAfter_cons (position : Nat) (before : Text) (b : UInt8) (rest after : Octets)
    (lead : Lead) (n : Nat) (hlead : lead? b = some lead)
    (h : continued lead.more lead.low lead.high lead.bits rest = .ok (n, after)) :
    decodeAfter position before (b :: rest)
      = decodeAfter (position + lead.more + 1) (Char.ofNat n :: before) after := by
  rw [decodeAfter]
  split
  · rename_i hnone
    rw [hlead] at hnone
    exact absurd hnone (by simp only [reduceCtorEq, not_false_eq_true])
  · rename_i lead' hsome
    rw [hlead] at hsome
    have heq := Option.some.inj hsome
    subst heq
    split
    · rename_i herror
      rw [h] at herror
      exact absurd herror (by simp only [reduceCtorEq, not_false_eq_true])
    · rename_i hok
      rw [h] at hok
      rcases Prod.mk.inj (Except.ok.inj hok) with ⟨rfl, rfl⟩
      rfl

/-- The first of the octets announces a character and the others continue it, so
    that together they are read as the code point. -/
def Spells (n : Nat) (bs : Octets) : Prop :=
  ∃ b more lead, bs = b :: more ∧ lead? b = some lead ∧
    ∀ rest, continued lead.more lead.low lead.high lead.bits (more ++ rest) = .ok (n, rest)

theorem spells_one (n : Nat) (h : n < 0x80) : Spells n [UInt8.ofNat n] := by
  have hlead : lead? (UInt8.ofNat n) = some ⟨0, 0x80, 0xBF, n⟩ := by
    rw [lead?, toNat_ofNat n (by omega)]
    exact if_pos h
  exact ⟨_, _, _, rfl, hlead, fun rest => continued_zero _ _ _ rest⟩

theorem spells_two (n : Nat) (hlow : 0x80 ≤ n) (hhigh : n < 0x800) :
    Spells n [UInt8.ofNat (0xC0 + n / 0x40), UInt8.ofNat (0x80 + n % 0x40)] := by
  have hlead : lead? (UInt8.ofNat (0xC0 + n / 0x40)) = some ⟨1, 0x80, 0xBF, n / 0x40⟩ := by
    rw [lead?, toNat_ofNat _ (by omega), if_neg (by omega), if_neg (by omega),
      if_pos (by omega), Nat.add_sub_cancel_left]
  have hbits : n / 0x40 * 0x40 + (0x80 + n % 0x40) % 0x40 = n := by omega
  refine ⟨_, _, _, rfl, hlead, fun rest => ?_⟩
  have hlast : continued 0 0x80 0xBF (n / 0x40 * 0x40 + (0x80 + n % 0x40) % 0x40) rest
      = .ok (n, rest) := by
    rw [hbits]
    exact continued_zero _ _ _ rest
  exact continued_succ 0 0x80 0xBF _ _ _ _ (by omega) (by omega) (by omega) hlast

-- The second octet has a narrower range after E0, and after ED for the surrogates.
theorem spells_three (n : Nat) (hlow : 0x800 ≤ n) (hhigh : n < 0x10000)
    (hchar : n < 0xD800 ∨ 0xDFFF < n) :
    Spells n [UInt8.ofNat (0xE0 + n / 0x1000), UInt8.ofNat (0x80 + n / 0x40 % 0x40),
      UInt8.ofNat (0x80 + n % 0x40)] := by
  have hlead : lead? (UInt8.ofNat (0xE0 + n / 0x1000))
      = some ⟨2, if 0xE0 + n / 0x1000 = 0xE0 then 0xA0 else 0x80,
        if 0xE0 + n / 0x1000 = 0xED then 0x9F else 0xBF, n / 0x1000⟩ := by
    rw [lead?, toNat_ofNat _ (by omega), if_neg (by omega), if_neg (by omega),
      if_neg (by omega), if_pos (by omega), Nat.add_sub_cancel_left]
  have hbits : (n / 0x1000 * 0x40 + (0x80 + n / 0x40 % 0x40) % 0x40) * 0x40
      + (0x80 + n % 0x40) % 0x40 = n := by omega
  refine ⟨_, _, _, rfl, hlead, fun rest => ?_⟩
  refine continued_succ _ _ _ _ _ _ _ (by omega) ?_ ?_
    (continued_succ _ _ _ _ _ _ _ (by omega) (by omega) (by omega) ?_)
  · dsimp only
    split <;> omega
  · dsimp only
    split <;> omega
  · rw [hbits]
    exact continued_zero _ _ _ rest

-- Likewise after F0, and after F4 for the end of the code points.
theorem spells_four (n : Nat) (hlow : 0x10000 ≤ n) (hhigh : n < 0x110000) :
    Spells n [UInt8.ofNat (0xF0 + n / 0x40000), UInt8.ofNat (0x80 + n / 0x1000 % 0x40),
      UInt8.ofNat (0x80 + n / 0x40 % 0x40), UInt8.ofNat (0x80 + n % 0x40)] := by
  have hlead : lead? (UInt8.ofNat (0xF0 + n / 0x40000))
      = some ⟨3, if 0xF0 + n / 0x40000 = 0xF0 then 0x90 else 0x80,
        if 0xF0 + n / 0x40000 = 0xF4 then 0x8F else 0xBF, n / 0x40000⟩ := by
    rw [lead?, toNat_ofNat _ (by omega), if_neg (by omega), if_neg (by omega),
      if_neg (by omega), if_neg (by omega), if_pos (by omega), Nat.add_sub_cancel_left]
  have hbits : ((n / 0x40000 * 0x40 + (0x80 + n / 0x1000 % 0x40) % 0x40) * 0x40
      + (0x80 + n / 0x40 % 0x40) % 0x40) * 0x40 + (0x80 + n % 0x40) % 0x40 = n := by omega
  refine ⟨_, _, _, rfl, hlead, fun rest => ?_⟩
  refine continued_succ _ _ _ _ _ _ _ (by omega) ?_ ?_
    (continued_succ _ _ _ _ _ _ _ (by omega) (by omega) (by omega)
      (continued_succ _ _ _ _ _ _ _ (by omega) (by omega) (by omega) ?_))
  · dsimp only
    split <;> omega
  · dsimp only
    split <;> omega
  · rw [hbits]
    exact continued_zero _ _ _ rest

/-- What is written for a character spells it. -/
theorem spells_encodeChar (c : Char) : Spells c.toNat (encodeChar c) := by
  have hchar : c.toNat < 0xD800 ∨ 0xDFFF < c.toNat ∧ c.toNat < 0x110000 := c.valid
  unfold encodeChar
  generalize c.toNat = n at hchar ⊢
  dsimp only
  by_cases h1 : n < 0x80
  · rw [if_pos h1]
    exact spells_one n h1
  rw [if_neg h1]
  by_cases h2 : n < 0x800
  · rw [if_pos h2]
    exact spells_two n (by omega) h2
  rw [if_neg h2]
  by_cases h3 : n < 0x10000
  · rw [if_pos h3]
    exact spells_three n (by omega) h3 (by omega)
  · rw [if_neg h3]
    exact spells_four n (by omega) (by omega)

theorem decodeAfter_encodeChar (position : Nat) (before : Text) (c : Char) (rest : Octets) :
    ∃ position', decodeAfter position before (encodeChar c ++ rest)
      = decodeAfter position' (c :: before) rest := by
  rcases spells_encodeChar c with ⟨b, more, lead, heq, hlead, hcontinued⟩
  rw [heq, List.cons_append, decodeAfter_cons position before b _ rest lead _ hlead
    (hcontinued rest), Char.ofNat_toNat]
  exact ⟨_, rfl⟩

theorem encode_cons (c : Char) (t : Text) : encode (c :: t) = encodeChar c ++ encode t := rfl

theorem decodeAfter_encode (t : Text) : ∀ (position : Nat) (before : Text),
    decodeAfter position before (encode t) = .ok (before.reverse ++ t) := by
  induction t with
  | nil =>
      intro position before
      rw [encode, List.flatMap_nil, decodeAfter, List.append_nil]
  | cons c t ih =>
      intro position before
      rw [encode_cons]
      rcases decodeAfter_encodeChar position before c (encode t) with ⟨position', h⟩
      rw [h, ih, List.reverse_cons, List.append_assoc, List.singleton_append]

/-- What is written is read back. -/
theorem decode_encode (t : Text) : decode (encode t) = .ok t := by
  rw [decode, decodeAfter_encode, List.reverse_nil, List.nil_append]

/-- The mark as a character. -/
def markChar : Char := Char.ofNat 0xFEFF

theorem encodeChar_markChar : encodeChar markChar = mark := by decide

-- Only a character of three octets begins like the mark.
theorem encodeChar_of_head (c : Char) (more : Octets) (h : encodeChar c = 0xEF :: more) :
    c.toNat / 0x1000 = 15 ∧ more = [UInt8.ofNat (0x80 + c.toNat / 0x40 % 0x40),
      UInt8.ofNat (0x80 + c.toNat % 0x40)] := by
  have hfirst : ∀ k, k < 256 → UInt8.ofNat k = 0xEF → k = 0xEF := by
    intro k hk heq
    have := congrArg UInt8.toNat heq
    rwa [toNat_ofNat k hk] at this
  have hchar : c.toNat < 0xD800 ∨ 0xDFFF < c.toNat ∧ c.toNat < 0x110000 := c.valid
  unfold encodeChar at h
  generalize c.toNat = n at h hchar ⊢
  dsimp only at h
  by_cases h1 : n < 0x80
  · rw [if_pos h1] at h
    have := hfirst _ (by omega) (List.cons.inj h).1
    omega
  rw [if_neg h1] at h
  by_cases h2 : n < 0x800
  · rw [if_pos h2] at h
    have := hfirst _ (by omega) (List.cons.inj h).1
    omega
  rw [if_neg h2] at h
  by_cases h3 : n < 0x10000
  · rw [if_pos h3] at h
    have := hfirst _ (by omega) (List.cons.inj h).1
    exact ⟨by omega, (List.cons.inj h).2.symm⟩
  · rw [if_neg h3] at h
    have := hfirst _ (by omega) (List.cons.inj h).1
    omega

-- The octets of a text that stop in the mark or go on after it begin with all of it.
theorem head_eq_markChar (c : Char) (rest : Octets)
    (h : (encodeChar c ++ rest).isPrefixOf mark = true ∨
      mark.isPrefixOf (encodeChar c ++ rest) = true) : c = markChar := by
  rcases spells_encodeChar c with ⟨b, more, _, heq, _, _⟩
  have hb : b = 0xEF := by
    rw [heq] at h
    simp only [mark, List.cons_append, List.isPrefixOf, Bool.and_eq_true, beq_iff_eq] at h
    rcases h with h | h
    · exact h.1
    · exact h.1.symm
  rw [hb] at heq
  rcases encodeChar_of_head c more heq with ⟨hhigh, hmore⟩
  rw [heq, hmore] at h
  simp only [mark, List.cons_append, List.nil_append, List.isPrefixOf, Bool.and_eq_true,
    beq_iff_eq] at h
  have hoctets : UInt8.ofNat (0x80 + c.toNat / 0x40 % 0x40) = 0xBB ∧
      UInt8.ofNat (0x80 + c.toNat % 0x40) = 0xBF := by
    rcases h with ⟨_, hx, hy, _⟩ | ⟨_, hx, hy, _⟩
    · exact ⟨hx, hy⟩
    · exact ⟨hx.symm, hy.symm⟩
  have hx := congrArg UInt8.toNat hoctets.1
  have hy := congrArg UInt8.toNat hoctets.2
  rw [toNat_ofNat _ (by omega), show (0xBB : UInt8).toNat = 0xBB from rfl] at hx
  rw [toNat_ofNat _ (by omega), show (0xBF : UInt8).toNat = 0xBF from rfl] at hy
  have hn : c.toNat = 0xFEFF := by omega
  rw [← Char.ofNat_toNat c, hn, markChar]

theorem afterMark_encode_mark (t : Text) : afterMark (encode (markChar :: t)) = encode t := by
  rw [encode_cons, encodeChar_markChar, afterMark]
  cases encode t with
  | nil => rfl
  | cons b bs => rfl

/-- The octets of a text that begins with no mark are left as they are. -/
theorem afterMark_encode_of_ne (t : Text) (h : t.head? ≠ some markChar) :
    afterMark (encode t) = encode t := by
  cases t with
  | nil => rfl
  | cons c t =>
      have hc : ¬ c = markChar := fun heq => h (congrArg some heq)
      rw [encode_cons, afterMark, if_neg fun hpre => hc (head_eq_markChar c _ (Or.inl hpre)),
        if_neg fun hpre => hc (head_eq_markChar c _ (Or.inr hpre))]

end Utf8

end Captions
