import Captions.Proofs.Clock.Finite
import Captions.Proofs.Instruction.Parts
import Captions.Proofs.Number.Numeral
import Captions.Proofs.Number.Value
import Captions.Proofs.Outcome
import Captions.Proofs.Text.Pieces

/-!
# The Lines of a Preview

Which line of a preview belongs to which block, and what it takes for there to
be a preview at all.

A preview is made in one walk that adds up the delays, counts the blocks and
stops at a limit. To speak of one line the walk is not needed. The blocks before
a block say at which place its line stands, the delays before it say which time
the line begins with, and the limit only says whether there is such a line: a
block within the limit has one, with the same time at the same place, whatever
the limit is and whatever follows.

Where all delays can be added, a preview fails for one reason only, that the
line of some block within the limit cannot be made. A time after the limit is
never looked at.

The text of a preview comes apart into its lines because none of them holds a
line feed, nor anything else that ends a line. The times are digits, and the
words of a block have no blanks.

## Main definitions

* `Text.Unbroken`: A text that is a single line.
* `clockAfter`: The clock of a preview after instructions.

## Theorems

* `previewLines_getElem?`: The line of a block stands at its place.
* `previewLines_eq_error`: Why the lines cannot be made.
* `preview_eq_ok_iff`: When there is a preview.
* `previewLine_of_isFinite`: A block that ends at a finite time has a line.
* `unbroken_line`: The line of a block is a single line.
* `cutAt_preview`: A preview comes apart into its lines.
* `line_of_preview`: The line of a preview that belongs to a block.
-/

namespace Captions

namespace Number

theorem isAtMost_whole_iff (a n : Int) : (whole a).isAtMost n = true ↔ a ≤ n := by
  rw [isAtMost, compare?, Bool.or_eq_true, decide_eq_true_eq, decide_eq_true_eq, Option.some_inj,
    Option.some_inj, compare_lt_iff_lt, compare_eq_iff_eq]
  omega

theorem isAtMost_finite_iff (s : Bool) (u : Nat) (hu : Representable u) (n : Int) :
    (double (.finite s u hu)).isAtMost n = true ↔ Binary64.signed s u ≤ n * Binary64.one := by
  rw [isAtMost, compare?, Bool.or_eq_true, decide_eq_true_eq, decide_eq_true_eq, Option.some_inj,
    Option.some_inj, compare_lt_iff_lt, compare_eq_iff_eq]
  omega

/-- What is at most a whole number is at most every larger one. -/
theorem isAtMost_mono (x : Number) (m n : Int) (hle : m ≤ n) (h : x.isAtMost m = true) :
    x.isAtMost n = true := by
  rcases x with a | ⟨_ | s | ⟨s, u, hu⟩⟩
  · rw [isAtMost_whole_iff] at h ⊢
    omega
  · exact h
  · exact h
  · rw [isAtMost_finite_iff] at h ⊢
    exact le_trans h (Int.mul_le_mul_of_nonneg_right hle (Int.natCast_nonneg _))

end Number

namespace Text

/-- A text that is a single line, whatever it is that ends a line. -/
def Unbroken (t : Text) : Prop := ∀ c ∈ t, isBreak c = false

instance (t : Text) : Decidable (Unbroken t) :=
  List.decidableBAll (fun c => isBreak c = false) t

theorem unbroken_append (t u : Text) : Unbroken (t ++ u) ↔ Unbroken t ∧ Unbroken u :=
  List.forall_mem_append

theorem newline_not_mem (t : Text) (h : Unbroken t) : '\n' ∉ t :=
  fun hc => absurd (h _ hc) (by decide)

-- All that ends a line is blank.
theorem unbroken_of_not_isBlank (t : Text) (h : ∀ c ∈ t, isBlank c = false) : Unbroken t := by
  intro c hc
  rw [← Bool.not_eq_true]
  intro hbreak
  have hblank := isBlank_of_isBreak hbreak
  rw [h c hc] at hblank
  exact absurd hblank Bool.false_ne_true

theorem unbroken_joinWith (sep : Text) (pieces : List Text) (hsep : Unbroken sep)
    (h : ∀ piece ∈ pieces, Unbroken piece) : Unbroken (joinWith sep pieces) := by
  intro c hc
  rcases mem_of_mem_joinWith sep pieces c hc with hc | ⟨piece, hpiece, hc⟩
  · exact hsep c hc
  · exact h piece hpiece c hc

theorem unbroken_digits (n : Nat) : Unbroken (digits n) := by
  refine unbroken_of_not_isBlank _ fun c hc => ?_
  rcases mem_numeral _ (isDigits_digitValues n) c hc with ⟨d, hd, rfl⟩
  exact isBlank_digitChar d hd

theorem unbroken_padded (width n : Nat) : Unbroken (padded width n) := by
  refine (unbroken_append _ _).mpr ⟨fun c hc => ?_, unbroken_digits n⟩
  rw [List.eq_of_mem_replicate hc]
  decide

end Text

theorem Clock.unbroken_text (c : Clock) : Text.Unbroken c.text := by
  have hmarks : Text.Unbroken ":" ∧ Text.Unbroken "," := by decide
  simp only [text, Text.unbroken_append, Text.unbroken_padded, hmarks, and_self]

namespace Instruction

open Text (Unbroken unbroken_append)

/-- The clock of a preview after instructions: their delays, added to it from
    left to right. -/
def clockAfter (clock : Binary64) (is : List Instruction) : Except PreviewFault Binary64 :=
  (delays is).foldlM advance clock

theorem advance_double (clock x : Binary64) : advance clock (.double x) = .ok (clock.add x) := rfl

theorem clockAfter_wait (clock : Binary64) (d : Number) (is : List Instruction) :
    clockAfter clock (.wait d :: is) = (advance clock d >>= fun next => clockAfter next is) := rfl

theorem clockAfter_showText (clock : Binary64) (b : Block) (is : List Instruction) :
    clockAfter clock (.showText b :: is) = clockAfter clock is := rfl

/-- The line of a block that is within the limit stands at the place of the
    block, and is made with the clock there. -/
theorem previewLines_getElem? (limit : Number) (is : List Instruction) :
    ∀ clock shown lines, previewLines limit clock shown is = .ok lines →
      ∀ before b after, is = before ++ .showText b :: after →
        limit.isAtMost ((shown + shownCount before : Nat) : Int) = false →
        ∃ now line, clockAfter clock before = .ok now ∧ previewLine now b = .ok line ∧
          lines[shownCount before]? = some line := by
  induction is with
  | nil =>
      intro clock shown lines _ before b after his
      exact absurd his.symm (List.append_ne_nil_of_right_ne_nil _ (List.cons_ne_nil _ _))
  | cons i is ih =>
      intro clock shown lines h before b after his hlimit
      cases i with
      | wait delay =>
          rw [previewLines, bind_eq_ok_iff] at h
          rcases h with ⟨next, hnext, h⟩
          rcases before with _ | ⟨first, before⟩
          · exact absurd (List.cons.inj his).1 Instruction.noConfusion
          · rw [List.cons_append, List.cons.injEq] at his
            rcases his with ⟨rfl, his⟩
            rw [clockAfter_wait, hnext, ok_bind]
            exact ih next shown lines h before b after his hlimit
      | showText c =>
          have hopen : limit.isAtMost (shown : Int) = false := by
            rw [← Bool.not_eq_true] at hlimit ⊢
            exact fun hc => hlimit (Number.isAtMost_mono limit _ _ (by omega) hc)
          rw [previewLines, hopen, if_neg Bool.false_ne_true, bind_eq_ok_iff] at h
          rcases h with ⟨line, hline, h⟩
          rw [bind_eq_ok_iff] at h
          rcases h with ⟨rest, hrest, h⟩
          rw [pure_eq_ok_iff] at h
          subst h
          rcases before with _ | ⟨first, before⟩
          · rw [List.nil_append, List.cons.injEq, showText.injEq] at his
            rw [← his.1]
            exact ⟨clock, line, rfl, hline, rfl⟩
          · rw [List.cons_append, List.cons.injEq] at his
            rcases his with ⟨rfl, his⟩
            rw [clockAfter_showText, shownCount, List.getElem?_cons_succ]
            rw [shownCount, ← Nat.add_assoc, Nat.add_right_comm] at hlimit
            exact ih clock (shown + 1) rest hrest before b after his hlimit

/-- Where all delays can be added, the lines cannot be made only because that of
    some block within the limit cannot. -/
theorem previewLines_eq_error (limit : Number) (fault : PreviewFault) (is : List Instruction)
    (hdelays : ∀ d ∈ delays is, ∃ x, d.toDouble = .ok x) :
    ∀ clock shown, previewLines limit clock shown is = .error fault →
      ∃ before b after now, is = before ++ .showText b :: after ∧
        limit.isAtMost ((shown + shownCount before : Nat) : Int) = false ∧
        clockAfter clock before = .ok now ∧ previewLine now b = .error fault := by
  induction is with
  | nil => intro clock shown h; exact absurd h (ok_ne_error _ _)
  | cons i is ih =>
      intro clock shown h
      cases i with
      | wait delay =>
          rcases hdelays delay List.mem_cons_self with ⟨x, hx⟩
          have hnext : advance clock delay = .ok (clock.add x) := by rw [advance, hx]
          rw [previewLines, hnext, ok_bind] at h
          rcases ih (fun d hd => hdelays d (List.mem_cons_of_mem _ hd)) _ shown h with
            ⟨before, b, after, now, rfl, hlimit, hnow, hfault⟩
          refine ⟨.wait delay :: before, b, after, now, rfl, hlimit, ?_, hfault⟩
          rw [clockAfter_wait, hnext, ok_bind, hnow]
      | showText c =>
          rw [previewLines] at h
          split at h
          · exact absurd h (ok_ne_error _ _)
          rename_i hopen
          rw [Bool.not_eq_true] at hopen
          simp only [bind_eq_error_iff, pure_ne_error, and_false, exists_false, or_false] at h
          rcases h with hline | ⟨line, _, hrest⟩
          · exact ⟨[], c, is, clock, rfl, hopen, rfl, hline⟩
          · rcases ih hdelays clock (shown + 1) hrest with
              ⟨before, b, after, now, rfl, hlimit, hnow, hfault⟩
            refine ⟨.showText c :: before, b, after, now, rfl, ?_, hnow, hfault⟩
            rwa [shownCount, ← Nat.add_assoc, Nat.add_right_comm]

theorem preview_eq_ok (limit : Number) (is : List Instruction) (text : Text) :
    preview limit is = .ok text ↔ ∃ lines, previewLines limit Binary64.zero 0 is = .ok lines ∧
      text = Text.joinWith "\n" (lines ++ remainder (shownCount is) lines.length) := by
  rw [preview, bind_eq_ok_iff]
  exact exists_congr fun lines => and_congr_right' (pure_eq_ok_iff _ _)

/-- Where all delays can be added, there is a preview exactly when every block
    within the limit has a line. -/
theorem preview_eq_ok_iff (limit : Number) (is : List Instruction)
    (hdelays : ∀ d ∈ delays is, ∃ x, d.toDouble = .ok x) :
    (∃ text, preview limit is = .ok text) ↔
      ∀ before b after, is = before ++ .showText b :: after →
        limit.isAtMost (shownCount before : Int) = false →
        ∃ now line, clockAfter Binary64.zero before = .ok now ∧ previewLine now b = .ok line := by
  constructor
  · rintro ⟨text, htext⟩ before b after his hlimit
    rcases (preview_eq_ok limit is text).mp htext with ⟨lines, hlines, _⟩
    rcases previewLines_getElem? limit is _ 0 lines hlines before b after his
      (by rwa [Nat.zero_add]) with ⟨now, line, hnow, hline, _⟩
    exact ⟨now, line, hnow, hline⟩
  · intro h
    rcases hlines : previewLines limit Binary64.zero 0 is with fault | lines
    · rcases previewLines_eq_error limit fault is hdelays _ 0 hlines with
        ⟨before, b, after, now, his, hlimit, hnow, hfault⟩
      rw [Nat.zero_add] at hlimit
      rcases h before b after his hlimit with ⟨now', line, hnow', hline⟩
      rw [hnow, Except.ok.injEq] at hnow'
      rw [← hnow', hfault] at hline
      exact absurd hline (error_ne_ok _ _)
    · exact ⟨_, (preview_eq_ok limit is _).mpr ⟨lines, hlines, rfl⟩⟩

/-! ### The line of a block -/

/-- What a line consists of. -/
theorem previewLine_eq_ok_iff (clock : Binary64) (b : Block) (line : Text) :
    previewLine clock b = .ok line ↔ ∃ start later finish, reading clock = .ok start ∧
      advance clock b.duration = .ok later ∧ reading later = .ok finish ∧
      line = "  [" ++ start.text ++ " → " ++ finish.text ++ "] " ++ excerpt b := by
  simp only [previewLine, bind_eq_ok_iff, pure_eq_ok_iff, exists_and_left]

-- An infinity below zero is read as zero.
theorem exists_reading_iff (x : Binary64) :
    (∃ c, reading x = .ok c) ↔ x.isFinite = true ∨ x = .infinite true := by
  rw [← Clock.exists_ofSeconds?_iff]
  unfold reading
  rcases Clock.ofSeconds? (.double x) with _ | c
  · simp only [reduceCtorEq, exists_false]
  · simp only [Except.ok.injEq, Option.some.injEq]

-- A block that ends at a finite time has begun at one.
theorem previewLine_of_isFinite (now later : Binary64) (b : Block)
    (hlater : advance now b.duration = .ok later) (hfinite : later.isFinite = true) :
    ∃ line, previewLine now b = .ok line := by
  have hnow : now.isFinite = true := by
    unfold advance at hlater
    split at hlater
    · rw [Except.ok.injEq] at hlater
      rw [← hlater] at hfinite
      exact (Binary64.isFinite_of_add now _ hfinite).1
    · exact absurd hlater (error_ne_ok _ _)
  rcases (exists_reading_iff now).mpr (Or.inl hnow) with ⟨start, hstart⟩
  rcases (exists_reading_iff later).mpr (Or.inl hfinite) with ⟨finish, hfinish⟩
  exact ⟨_, (previewLine_eq_ok_iff now b _).mpr
    ⟨start, later, finish, hstart, hlater, hfinish, rfl⟩⟩

/-! ### The text of a preview -/

-- The words of a block have no blanks.
theorem unbroken_excerpt (b : Block) : Unbroken (excerpt b) := by
  have hline : Unbroken (Text.joinWith " " (Text.words b.plainText)) :=
    Text.unbroken_joinWith _ _ (by decide) fun w hw =>
      Text.unbroken_of_not_isBlank w (Text.not_isBlank_of_mem_words _ w hw)
  rw [excerpt]
  split
  · exact (unbroken_append _ _).mpr ⟨fun c hc => hline c (List.mem_of_mem_take hc), by decide⟩
  · exact hline

theorem unbroken_line (clock : Binary64) (b : Block) (line : Text)
    (h : previewLine clock b = .ok line) : Unbroken line := by
  rcases (previewLine_eq_ok_iff clock b line).mp h with ⟨start, later, finish, _, _, _, rfl⟩
  have hmarks : Unbroken "  [" ∧ Unbroken " → " ∧ Unbroken "] " := by decide
  simp only [unbroken_append, Clock.unbroken_text, unbroken_excerpt, hmarks, and_self]

/-- A line that is listed is the line of a block at some time. -/
theorem exists_of_mem_previewLines (limit : Number) (is : List Instruction) :
    ∀ clock shown lines, previewLines limit clock shown is = .ok lines →
      ∀ line ∈ lines, ∃ now b, previewLine now b = .ok line := by
  induction is with
  | nil =>
      intro clock shown lines h line hline
      rw [previewLines, Except.ok.injEq] at h
      rw [← h] at hline
      exact absurd hline List.not_mem_nil
  | cons i is ih =>
      intro clock shown lines h line hline
      cases i with
      | wait delay =>
          rw [previewLines, bind_eq_ok_iff] at h
          rcases h with ⟨next, _, h⟩
          exact ih next shown lines h line hline
      | showText b =>
          rw [previewLines] at h
          split at h
          · rw [Except.ok.injEq] at h
            rw [← h] at hline
            exact absurd hline List.not_mem_nil
          simp only [bind_eq_ok_iff, pure_eq_ok_iff] at h
          rcases h with ⟨first, hfirst, rest, hrest, rfl⟩
          rcases List.mem_cons.mp hline with rfl | hline
          · exact ⟨clock, b, hfirst⟩
          · exact ih clock (shown + 1) rest hrest line hline

theorem unbroken_remainder (shown listed : Nat) :
    ∀ line ∈ remainder shown listed, Unbroken line := by
  intro line h
  have hwords : Unbroken "  ... and " ∧ Unbroken " more entries" := by decide
  rw [remainder] at h
  split at h
  · rw [List.mem_singleton.mp h]
    simp only [unbroken_append, Text.unbroken_digits, hwords, and_self]
  · exact absurd h List.not_mem_nil

/-- A preview comes apart into its lines, if it has any. -/
theorem cutAt_preview (limit : Number) (is : List Instruction) (lines : List Text)
    (h : previewLines limit Binary64.zero 0 is = .ok lines)
    (hne : lines ++ remainder (shownCount is) lines.length ≠ []) :
    Text.cutAt (· = '\n') (Text.joinWith "\n" (lines ++ remainder (shownCount is) lines.length))
      = lines ++ remainder (shownCount is) lines.length := by
  refine Text.cutAt_joinWith '\n' _ hne fun line hline => Text.newline_not_mem line ?_
  rcases List.mem_append.mp hline with hline | hline
  · rcases exists_of_mem_previewLines limit is _ 0 lines h line hline with ⟨now, b, hb⟩
    exact unbroken_line now b line hb
  · exact unbroken_remainder _ _ line hline

/-- The line of a preview that belongs to a block. It begins with the time that
    the delays before the block add up to. -/
theorem line_of_preview (limit : Number) (is before after : List Instruction) (b : Block)
    (text : Text) (h : preview limit is = .ok text) (his : is = before ++ .showText b :: after)
    (hlimit : limit.isAtMost (shownCount before : Int) = false) :
    ∃ now start later finish, (delays before).foldlM advance Binary64.zero = .ok now ∧
      reading now = .ok start ∧ advance now b.duration = .ok later ∧ reading later = .ok finish ∧
      (Text.cutAt (· = '\n') text)[shownCount before]?
        = some ("  [" ++ start.text ++ " → " ++ finish.text ++ "] " ++ excerpt b) := by
  rcases (preview_eq_ok limit is text).mp h with ⟨lines, hlines, rfl⟩
  rcases previewLines_getElem? limit is _ 0 lines hlines before b after his
    (by rwa [Nat.zero_add]) with ⟨now, line, hnow, hline, hget⟩
  rcases (previewLine_eq_ok_iff now b line).mp hline with
    ⟨start, later, finish, hstart, hlater, hfinish, rfl⟩
  have hne : lines ≠ [] := List.ne_nil_of_mem (List.mem_of_getElem? hget)
  refine ⟨now, start, later, finish, hnow, hstart, hlater, hfinish, ?_⟩
  rw [cutAt_preview limit is lines hlines (List.append_ne_nil_of_left_ne_nil hne _),
    List.getElem?_append_left (List.getElem?_eq_some_iff.mp hget).1, hget]

end Instruction

end Captions
