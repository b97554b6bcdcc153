import Captions.Proofs.Number.Numeral
import Captions.Proofs.Text.Lines
import Captions.Proofs.Timestamp.Overflow

/-!
# Spellings of a Timestamp

Which differences between two timestamps do not matter.

A timestamp is trimmed, its commas are written as points, it is cut at its
colons, and each piece is read as a number. Trimming comes first and knows of
nothing but blanks, so blanks around the text and the choice of the mark are
gone before anything is judged. Texts that differ in no more have the same
fields, and a malformed one is malformed for the same reason. Only the text that
is reported along with the reason is the one that was given.

Spaces beside a colon are a different matter. They stay in the fields, and are
dropped where a field is read as a number, which drops fewer characters than
trimming does: the information separators are blank, but are no padding. Where
the first or the last field is nothing but blanks the two even meet, and what was
inserted is trimmed away with the rest. In each case every field is the one
before it up to its padding, so the numbers are the same. The reason need not
be, since it quotes a field.

## Main definitions

* `SameMark`: Characters that are equal, or both the mark of a fraction.
* `Respelled`: Texts that differ in marks and in blanks around them.
* `Spaced`: A text with spaces inserted beside its colons.

## Theorems

* `fields_of_respelled`: Such texts have the same fields.
* `fields_of_spaced`: The fields of such texts differ in padding.
* `seconds_respelled`: What becomes of such texts.
-/

namespace Captions

namespace Timestamp

open Text (swap trim trimStart trimEnd dropEndWhile cutAt extendFirst isBlank isAllBlank isPadding)
open Numeral (unpadded)

/-- Characters that are equal, or both of which may stand before a fraction. -/
def SameMark (c d : Char) : Prop := c = d ∨ c ∈ [',', '.'] ∧ d ∈ [',', '.']

instance (c d : Char) : Decidable (SameMark c d) := inferInstanceAs (Decidable (_ ∨ _))

/-- Texts that differ in the marks before fractions and in blanks around them. -/
inductive Respelled : Text → Text → Prop where
  /-- Marks are exchanged. -/
  | marks (s t : Text) (h : List.Forall₂ SameMark s t) : Respelled s t
  /-- Blanks are added around the text. -/
  | added (front s rest : Text) (hfront : isAllBlank front = true)
    (hrest : isAllBlank rest = true) : Respelled s (front ++ s ++ rest)
  /-- Blanks around the text are removed. -/
  | removed (front s rest : Text) (hfront : isAllBlank front = true)
    (hrest : isAllBlank rest = true) : Respelled (front ++ s ++ rest) s
  /-- One after the other. -/
  | trans (s t u : Text) (hst : Respelled s t) (htu : Respelled t u) : Respelled s u

/-- A number of spaces. -/
def spaces (n : Nat) : Text := List.replicate n ' '

/-- The second text is the first with spaces inserted beside its colons. -/
inductive Spaced (s : Text) : Text → Prop where
  /-- Nothing is inserted. -/
  | refl : Spaced s s
  /-- Spaces are inserted on either side of a colon. -/
  | insert (front rest : Text) (before after : Nat) (h : Spaced s (front ++ ':' :: rest)) :
    Spaced s (front ++ spaces before ++ ':' :: (spaces after ++ rest))

/-! ### Marks and blanks -/

theorem swap_of_sameMark (s t : Text) (h : List.Forall₂ SameMark s t) :
    swap ',' '.' s = swap ',' '.' t := by
  induction h with
  | nil => rfl
  | @cons c d s t hcd _ ih =>
      have hhead : (if c = ',' then '.' else c) = if d = ',' then '.' else d := by
        rcases hcd with rfl | ⟨hc, hd⟩
        · rfl
        · have hall : ∀ m : Char, m ∈ [',', '.'] → (if m = ',' then '.' else m) = '.' := by
            intro m hm
            rcases List.mem_pair.mp hm with rfl | rfl
            · exact if_pos rfl
            · exact ite_self _
          rw [hall c hc, hall d hd]
      rw [swap, List.map_cons, hhead, ← swap, ih]
      rfl

-- Neither mark is blank.
theorem isBlank_swap (c : Char) : isBlank (if c = ',' then '.' else c) = isBlank c := by
  by_cases hc : c = ','
  · rw [if_pos hc, hc]
    decide
  · rw [if_neg hc]

theorem swap_trim (t : Text) : swap ',' '.' (trim t) = trim (swap ',' '.' t) := by
  have hend : ∀ u, swap ',' '.' (trimEnd u) = trimEnd (swap ',' '.' u) := by
    intro u
    induction u with
    | nil => rfl
    | cons c u ih =>
        have hempty : (trimEnd (swap ',' '.' u)).isEmpty = (trimEnd u).isEmpty := by
          rw [← ih, swap, List.isEmpty_map]
        have hcons : swap ',' '.' (c :: u) = (if c = ',' then '.' else c) :: swap ',' '.' u := rfl
        rw [hcons, trimEnd, Text.dropEndWhile_cons, trimEnd, Text.dropEndWhile_cons, ← trimEnd,
          ← trimEnd, hempty, isBlank_swap, ← ih]
        split
        · rfl
        · rfl
  have hstart : swap ',' '.' (trimStart t) = trimStart (swap ',' '.' t) := by
    rw [trimStart, trimStart, swap, swap, List.dropWhile_map]
    exact congrArg _ (congrArg (t.dropWhile ·) (funext fun c => (isBlank_swap c).symm))
  rw [trim, hend, hstart, trim]

theorem fields_eq (t : Text) : fields t = cutAt (· = ':') (trim (swap ',' '.' t)) := by
  rw [fields, swap_trim]

theorem fields_append (front t rest : Text) (hfront : isAllBlank front = true)
    (hrest : isAllBlank rest = true) : fields (front ++ t ++ rest) = fields t := by
  rw [fields, Text.trim_append front t rest hfront hrest, fields]

/-- Texts that differ in marks and in blanks around them have the same fields. -/
theorem fields_of_respelled (s t : Text) (h : Respelled s t) : fields s = fields t := by
  induction h with
  | marks s t h => rw [fields_eq, fields_eq, swap_of_sameMark s t h]
  | added front s rest hfront hrest => exact (fields_append front s rest hfront hrest).symm
  | removed front s rest hfront hrest => exact fields_append front s rest hfront hrest
  | trans s t u _ _ ihst ihtu => exact ihst.trans ihtu

/-! ### Spaces beside a colon -/

/-- Pieces that are the same up to their padding. -/
def SamePadded (parts parts' : List Text) : Prop := parts.map unpadded = parts'.map unpadded

theorem isPadding_of_mem_spaces (n : Nat) : ∀ c ∈ spaces n, isPadding c = true := by
  intro c hc
  rw [List.eq_of_mem_replicate hc]
  decide

theorem isAllBlank_spaces (n : Nat) : isAllBlank (spaces n) = true := by
  refine List.all_eq_true.mpr fun c hc => ?_
  rw [List.eq_of_mem_replicate hc]
  decide

theorem swap_spaces (n : Nat) : swap ',' '.' (spaces n) = spaces n :=
  Text.swap_eq_self ',' '.' _ fun h => absurd (List.eq_of_mem_replicate h) (by decide)

theorem unpadded_append_spaces (part : Text) (n : Nat) :
    unpadded (part ++ spaces n) = unpadded part :=
  Text.dropEndWhile_dropWhile_append isPadding [] part (spaces n) (fun _ h => nomatch h)
    (isPadding_of_mem_spaces n)

theorem unpadded_spaces_append (part : Text) (n : Nat) :
    unpadded (spaces n ++ part) = unpadded part := by
  have h := Text.dropEndWhile_dropWhile_append isPadding (spaces n) part []
    (isPadding_of_mem_spaces n) (fun _ h => nomatch h)
  rwa [List.append_nil] at h

-- A colon is not blank, so what stands beside it is trimmed on the other side only.
theorem trim_append_colon (front rest : Text) :
    trim (front ++ ':' :: rest) = trimStart front ++ ':' :: trimEnd rest := by
  have hcolon : isBlank ':' = false := by decide
  have hstart : trimStart (front ++ ':' :: rest) = trimStart front ++ ':' :: rest := by
    rw [trimStart, List.dropWhile_append, List.dropWhile_cons_of_neg (by rw [hcolon]; decide)]
    split
    · rename_i h
      rw [trimStart, List.isEmpty_iff.mp h, List.nil_append]
    · rfl
  have hend : trimEnd (':' :: rest) = ':' :: trimEnd rest := by
    rw [trimEnd, Text.dropEndWhile_cons, hcolon, Bool.and_false, if_neg Bool.false_ne_true,
      ← trimEnd]
  rw [trim, hstart, trimEnd, Text.dropEndWhile_append, ← trimEnd, hend,
    if_neg (List.cons_ne_nil _ _)]

theorem fields_append_colon (front rest : Text) :
    fields (front ++ ':' :: rest)
      = cutAt (· = ':') (trimStart (swap ',' '.' front))
        ++ cutAt (· = ':') (trimEnd (swap ',' '.' rest)) := by
  have hcolon : swap ',' '.' (':' :: rest) = ':' :: swap ',' '.' rest := rfl
  rw [fields_eq, Text.swap_append, hcolon, trim_append_colon, Text.cutAt_eq_splitOnP,
    List.splitOnP_append_cons _ _ (by decide), ← Text.cutAt_eq_splitOnP, ← Text.cutAt_eq_splitOnP]

-- Spaces behind a text end up behind its last piece.
theorem cutAt_append_spaces (t : Text) (n : Nat) :
    SamePadded (cutAt (· = ':') (t ++ spaces n)) (cutAt (· = ':') t) := by
  have hbehind : List.Forall₂ (fun part part' => ∃ k, part = part' ++ spaces k)
      (cutAt (· = ':') (t ++ spaces n)) (cutAt (· = ':') t) := by
    induction t with
    | nil =>
        have hspaces : ∀ c ∈ spaces n, decide (c = ':') = false := by
          intro c hc
          rw [List.eq_of_mem_replicate hc]
          decide
        rw [List.nil_append, Text.cutAt_eq_self _ _ hspaces]
        exact List.Forall₂.cons ⟨n, rfl⟩ List.Forall₂.nil
    | cons c t ih =>
        rw [List.cons_append, Text.cutAt_cons, Text.cutAt_cons]
        split
        · exact List.Forall₂.cons ⟨0, rfl⟩ ih
        · rcases hpieces : cutAt (· = ':') t with _ | ⟨first, rest⟩
          · exact absurd hpieces (Text.cutAt_ne_nil _ t)
          · rw [hpieces, List.forall₂_cons_right_iff] at ih
            rcases ih with ⟨first', rest', ⟨k, rfl⟩, hrest, hcut⟩
            rw [hcut]
            exact List.Forall₂.cons ⟨k, rfl⟩ hrest
  rw [SamePadded, ← List.forall₂_eq_eq_eq, List.forall₂_map_left_iff, List.forall₂_map_right_iff]
  refine hbehind.imp fun part part' h => ?_
  rcases h with ⟨k, rfl⟩
  exact unpadded_append_spaces part' k

-- Spaces before a text end up before its first piece.
theorem cutAt_spaces_append (t : Text) (n : Nat) :
    SamePadded (cutAt (· = ':') (spaces n ++ t)) (cutAt (· = ':') t) := by
  rcases hpieces : cutAt (· = ':') t with _ | ⟨first, rest⟩
  · exact absurd hpieces (Text.cutAt_ne_nil _ t)
  · have hbefore : cutAt (· = ':') (spaces n ++ t) = (spaces n ++ first) :: rest := by
      induction n with
      | zero => exact hpieces
      | succ n ih =>
          have hspace : spaces (n + 1) ++ t = ' ' :: (spaces n ++ t) := rfl
          rw [hspace, Text.cutAt_cons, if_neg (by decide), ih]
          rfl
    rw [hbefore, SamePadded, List.map_cons, List.map_cons, unpadded_spaces_append]

/-- Spaces beside a colon change the fields in their padding only. -/
theorem fields_insert (front rest : Text) (before after : Nat) :
    SamePadded (fields (front ++ spaces before ++ ':' :: (spaces after ++ rest)))
      (fields (front ++ ':' :: rest)) := by
  have hfront : SamePadded
      (cutAt (· = ':') (trimStart (swap ',' '.' front ++ spaces before)))
      (cutAt (· = ':') (trimStart (swap ',' '.' front))) := by
    rw [trimStart, List.dropWhile_append]
    split
    · -- The field is nothing but blanks, and the spaces are trimmed with it.
      rename_i h
      rw [List.dropWhile_eq_nil_iff.mpr (List.all_eq_true.mp (isAllBlank_spaces before)),
        trimStart, List.isEmpty_iff.mp h, SamePadded]
    · exact cutAt_append_spaces _ before
  have hrest : SamePadded (cutAt (· = ':') (trimEnd (spaces after ++ swap ',' '.' rest)))
      (cutAt (· = ':') (trimEnd (swap ',' '.' rest))) := by
    rw [trimEnd, Text.dropEndWhile_append, ← trimEnd]
    split
    · rename_i h
      rw [h, ← trimEnd, (Text.trimEnd_eq_nil_iff _).mpr (isAllBlank_spaces after), SamePadded]
    · exact cutAt_spaces_append _ after
  rw [fields_append_colon, fields_append_colon, Text.swap_append, Text.swap_append, swap_spaces,
    swap_spaces, SamePadded, List.map_append, List.map_append, hfront, hrest]

/-- The fields of a text with spaces beside its colons are the same up to their
    padding. -/
theorem fields_of_spaced (s t : Text) (h : Spaced s t) : SamePadded (fields t) (fields s) := by
  induction h with
  | refl => rfl
  | insert front rest before after _ ih => exact (fields_insert front rest before after).trans ih

/-! ### Numbers -/

-- A number is read without its padding.
theorem field_eq_ok_iff (part part' : Text) (h : unpadded part = unpadded part') (x : Binary64) :
    field part = .ok x ↔ field part' = .ok x := by
  have hdouble : Numeral.double? part = Numeral.double? part' := by
    rw [Numeral.double?, Numeral.double?, h]
  rw [field, field, hdouble]
  rcases Numeral.double? part' with _ | y
  · exact iff_of_false (error_ne_ok _ _) (error_ne_ok _ _)
  · simp only []
    split
    · exact Iff.rfl
    · exact iff_of_false (error_ne_ok _ _) (error_ne_ok _ _)

theorem map_field_iff (xs : List Binary64) :
    ∀ parts parts' : List Text, SamePadded parts parts' →
      (parts.map field = xs.map .ok ↔ parts'.map field = xs.map .ok) := by
  induction xs with
  | nil =>
      intro parts parts' h
      have hnil : parts = [] ↔ parts' = [] := by
        rw [← List.map_eq_nil_iff (f := unpadded), h, List.map_eq_nil_iff]
      rw [List.map_nil, List.map_eq_nil_iff, List.map_eq_nil_iff, hnil]
  | cons x xs ih =>
      intro parts parts' h
      rcases parts with _ | ⟨part, parts⟩
      · rw [List.map_eq_nil_iff.mp h.symm]
      rcases parts' with _ | ⟨part', parts'⟩
      · exact absurd h (List.cons_ne_nil _ _)
      rw [SamePadded, List.map_cons, List.map_cons, List.cons.injEq] at h
      rw [List.map_cons, List.map_cons, List.map_cons, List.cons.injEq, List.cons.injEq,
        field_eq_ok_iff part part' h.1, ih parts parts' h.2]

theorem seconds_eq_ok_iff (t : Text) (x : Binary64) :
    seconds t = .ok x ↔ ofFields (fields t) = .ok x := by
  unfold seconds
  split
  · rename_i y hy
    rw [hy, Except.ok.injEq, Except.ok.injEq]
  · rename_i reason hreason
    rw [hreason]
    exact iff_of_false (error_ne_ok _ _) (error_ne_ok _ _)

theorem mapError_seconds (t : Text) :
    (seconds t).mapError Malformed.reason = ofFields (fields t) := by
  rw [seconds]
  rcases ofFields (fields t) with reason | y
  · rfl
  · rfl

/-- What becomes of a text that is spelled differently. Exchanging the marks of
    fractions and adding or removing blanks around it changes neither the time nor
    the reason for which it is malformed, and spaces inserted beside its colons do
    not change whether there is a time and which. What is reported is the text as
    it was given. -/
theorem seconds_respelled (s t : Text) :
    (Respelled s t →
      (seconds t).mapError Malformed.reason = (seconds s).mapError Malformed.reason) ∧
    (Spaced s t → (seconds t).toOption = (seconds s).toOption) ∧
    ∀ fault, seconds t = .error fault → fault.timestamp = t := by
  refine ⟨fun h => ?_, fun h => ?_, fun fault h => timestamp_of_seconds t fault h⟩
  · rw [mapError_seconds, mapError_seconds, fields_of_respelled s t h]
  · refine toOption_eq_of_iff _ _ fun x => ?_
    rw [seconds_eq_ok_iff, seconds_eq_ok_iff, ofFields_eq_ok_iff, ofFields_eq_ok_iff]
    refine exists_congr fun hours => exists_congr fun minutes => exists_congr fun rest => ?_
    exact and_congr_left' (map_field_iff [hours, minutes, rest] _ _ (fields_of_spaced s t h))

-- A separator is trimmed at an end, but it is no padding beside a space.
theorem seconds_respelled_separators :
    Respelled "1:2:3.5" "\x1c\u30001:2:3,5\n" ∧
      (seconds "\x1c\u30001:2:3,5\n").mapError Malformed.reason
        = (seconds "1:2:3.5").mapError Malformed.reason ∧
      Spaced "1\x1c:2:3.5" "1\x1c  : 2:3.5" ∧
      (seconds "1\x1c  : 2:3.5").toOption = (seconds "1\x1c:2:3.5").toOption ∧
      (seconds "1:2:3.5").toOption.isSome = true ∧ (seconds "1\x1c:2:3.5").toOption = none := by
  have hmarks : Respelled "1:2:3.5" "1:2:3,5" := .marks _ _ (by decide)
  have hblanks : Respelled "1:2:3,5" "\x1c\u30001:2:3,5\n" :=
    .added "\x1c\u3000" _ "\n" (by decide) (by decide)
  have hspaced : Spaced "1\x1c:2:3.5" "1\x1c  : 2:3.5" := .insert "1\x1c" "2:3.5" 2 1 .refl
  have hrespelled := hmarks.trans _ _ _ hblanks
  exact ⟨hrespelled, (seconds_respelled _ _).1 hrespelled, hspaced,
    (seconds_respelled _ _).2.1 hspaced, by decide +kernel, by decide +kernel⟩

end Timestamp

end Captions
