import Captions.Proofs.Outcome
import Captions.Proofs.Text.Lines
import Captions.Source

/-!
# Documents Block by Block

A document is read one block at a time, and a block by its trimmed lines alone.

The reader numbers the lines, gathers them until a blank one and stops at the
first block that cannot be read. None of that matters to what is read. The
numbers and the original line endings are for messages, and since a fault
anywhere is a fault of the document, it makes no difference which one comes
first. What remains is `parse_eq_ok_iff`: the cues of a document are the cues
of its blocks, one for one and in order, where the blocks are the stretches of
trimmed lines that are not empty.

Everything about whole documents follows from how `blocks` behaves. A blank
line between two texts keeps their blocks apart (`blocks_append`), because the
text before it ends some line with the first of the two line feeds, whatever it
was in the middle of, and the second makes the blank line.

## Main definitions

* `paragraphs`: The stretches of lines that are not empty.
* `blocks`: The trimmed lines of each block of a text.
* `unmarked`: A text without the marks it begins with.
* `Reads`: What cue a block is read as.

## Theorems

* `tidy_of_mem_blocks`: A block consists of tidy lines.
* `chunks_lines`: The reader gathers the blocks.
* `parse_eq_ok_iff`: A document is read when each of its blocks is.
* `blocks_append`: The blocks on both sides of a blank line.
* `parse_blockwise`: Two documents with a blank line between them.
-/

namespace Captions

namespace Document

open Text (trimEnd isAllBlank trimmedLines)

/-- The stretches of lines that are not empty. -/
def paragraphs (ls : List Text) : List (List Text) :=
  (ls.splitOnP List.isEmpty).filter fun p => !p.isEmpty

theorem paragraphs_append (ls ms : List Text) :
    paragraphs (ls ++ [] :: ms) = paragraphs ls ++ paragraphs ms := by
  rw [paragraphs, List.splitOnP_append_cons ls ms rfl, List.filter_append, ← paragraphs,
    ← paragraphs]

theorem paragraphs_concat (ls : List Text) : paragraphs (ls ++ [[]]) = paragraphs ls := by
  rw [paragraphs_append]
  exact List.append_nil _

theorem paragraphs_eq_singleton (ls : List Text) (hne : ls ≠ []) (h : ∀ l ∈ ls, l ≠ []) :
    paragraphs ls = [ls] := by
  have hfull : ∀ l ∈ ls, l.isEmpty = false := fun l hl => List.isEmpty_eq_false_iff.mpr (h l hl)
  rw [paragraphs, List.splitOnP_eq_singleton hfull, List.filter_cons_of_pos, List.filter_nil]
  rw [List.isEmpty_eq_false_iff.mpr hne]
  rfl

-- The lines gathered so far and the lines to come are one stretch, up to the first
-- blank line.
theorem chunksFrom_lines (ls : List Text) : ∀ (number : Nat) (before : List Text),
    (∀ l ∈ before, isAllBlank l = false) →
    (chunksFrom number before ls).map (fun b => b.lines.map trimEnd)
      = paragraphs ((before.reverse ++ ls).map trimEnd) := by
  have hgathered : ∀ (number : Nat) (before : List Text),
      (∀ l ∈ before, isAllBlank l = false) →
      (if before = [] then [] else [Chunk.mk number before.reverse]).map
        (fun b => b.lines.map trimEnd) = paragraphs (before.reverse.map trimEnd) := by
    intro number before hbefore
    by_cases hne : before = []
    · rw [if_pos hne, hne]
      rfl
    · rw [if_neg hne, paragraphs_eq_singleton, List.map_singleton]
      · rw [ne_eq, List.map_eq_nil_iff, List.reverse_eq_nil_iff]
        exact hne
      · intro l hl
        rcases List.mem_map.mp hl with ⟨m, hm, rfl⟩
        rw [ne_eq, Text.trimEnd_eq_nil_iff, hbefore m (List.mem_reverse.mp hm)]
        exact Bool.false_ne_true
  induction ls with
  | nil =>
      intro number before hbefore
      rw [chunksFrom, List.append_nil]
      exact hgathered number before hbefore
  | cons line ls ih =>
      intro number before hbefore
      rw [chunksFrom]
      by_cases hblank : isAllBlank line = true
      · have hempty : trimEnd line = [] := (Text.trimEnd_eq_nil_iff line).mpr hblank
        have hrest := ih (number + 1) [] (fun l hl => absurd hl List.not_mem_nil)
        rw [List.reverse_nil, List.nil_append] at hrest
        have hfirst := hgathered number before hbefore
        rw [if_pos hblank, List.map_append, List.map_cons, hempty, paragraphs_append, ← hrest,
          ← hfirst]
        by_cases hne : before = []
        · rw [if_pos hne, if_pos hne]
          rfl
        · rw [if_neg hne, if_neg hne]
          rfl
      · rw [if_neg hblank, ih (number + 1) (line :: before)]
        · rw [List.reverse_cons, List.append_assoc, List.singleton_append]
        · intro l hl
          rcases List.mem_cons.mp hl with rfl | hl
          · rwa [Bool.not_eq_true] at hblank
          · exact hbefore l hl

/-- The trimmed lines of each block of a text. -/
def blocks (t : Text) : List (List Text) := paragraphs (trimmedLines t)

/-- The lines of a block are lines of the text that are not blank. -/
theorem tidy_of_mem_blocks (t : Text) (ls : List Text) (h : ls ∈ blocks t) :
    ∀ l ∈ ls, Text.Tidy l := by
  intro l hl
  rcases Text.mem_of_mem_splitOnP List.isEmpty _ ls (List.mem_of_mem_filter h) l hl with
    ⟨hmem, hfull⟩
  exact Text.tidy_of_mem_trimmedLines t l hmem (List.isEmpty_eq_false_iff.mp hfull)

/-- A text without the marks it begins with. -/
def unmarked (t : Text) : Text := t.dropWhile (· = mark)

/-- The reader's blocks are those of the text without its marks. The line that
    stands for the end of the document ends no further block. -/
theorem chunks_lines (t : Text) :
    (chunks (lines t ++ [['\n']])).map (fun b => b.lines.map trimEnd) = blocks (unmarked t) := by
  have hend : trimEnd ['\n'] = [] := Text.trimEnd_break '\n' (by decide)
  rw [chunks, chunksFrom_lines _ 0 [] (fun l hl => absurd hl List.not_mem_nil), List.reverse_nil,
    List.nil_append, List.map_append, List.map_singleton, hend, paragraphs_concat, lines, blocks,
    trimmedLines, unmarked]

/-- A block of trimmed lines is read as a cue. -/
def Reads (ls : List Text) (c : Cue) : Prop :=
  ∃ e, (Chunk.mk 0 ls).entry = .ok e ∧ e.cue = .ok c

-- The block goes into the reading of a time only for its message.
theorem time_eq_ok (b b' : Chunk) (t : Text) (n : Int) (h : time b t = .ok n) :
    time b' t = .ok n := by
  unfold time at h ⊢
  split
  · rename_i hempty
    rwa [if_pos hempty] at h
  · rename_i hne
    rw [if_neg hne] at h
    split
    · rename_i hcut
      rw [hcut] at h
      exact h
    · rename_i hcut
      split at h
      · rename_i hcut'
        exact absurd hcut' (hcut _ _ _ _)
      · exact absurd h (error_ne_ok _ _)

/-- What it takes for a block to be read. -/
theorem entry_eq_ok_iff (b : Chunk) (e : Entry) :
    b.entry = .ok e ↔ 2 ≤ b.lines.length ∧ ∃ number line rest first second start finish,
      splitIndex (b.lines.map trimEnd) = (number, line :: rest) ∧
      times? line = some (first, second) ∧ time b first = .ok start ∧ time b second = .ok finish ∧
      e = ⟨number, start, finish, Text.joinWith "\n" rest⟩ := by
  constructor
  · intro h
    rw [Chunk.entry] at h
    split at h
    · exact absurd h (error_ne_ok _ _)
    rename_i hlength
    refine ⟨by omega, ?_⟩
    rcases hsplit : splitIndex (b.lines.map trimEnd) with ⟨number, _ | ⟨line, rest⟩⟩
    · rw [hsplit] at h
      exact absurd h (error_ne_ok _ _)
    rw [hsplit] at h
    simp only [] at h
    rcases htimes : times? line with _ | ⟨first, second⟩
    · rw [htimes] at h
      exact absurd h (error_ne_ok _ _)
    rw [htimes] at h
    simp only [] at h
    simp only [bind_eq_ok_iff, pure_eq_ok_iff] at h
    rcases h with ⟨start, hstart, finish, hfinish, he⟩
    exact ⟨number, line, rest, first, second, start, finish, rfl, htimes, hstart, hfinish, he⟩
  · rintro ⟨hlength, number, line, rest, first, second, start, finish, hsplit, htimes, hstart,
      hfinish, rfl⟩
    rw [Chunk.entry, if_neg (by omega), hsplit]
    simp only [htimes, hstart, hfinish]
    rfl

-- A block is read by its trimmed lines.
theorem entry_eq_ok_trimmed (b : Chunk) (e : Entry) :
    b.entry = .ok e ↔ (Chunk.mk 0 (b.lines.map trimEnd)).entry = .ok e := by
  have htwice : (b.lines.map trimEnd).map trimEnd = b.lines.map trimEnd := by
    rw [List.map_map]
    exact List.map_congr_left fun l _ => Text.trimEnd_trimEnd l
  have hcongr : ∀ (b b' : Chunk), b.lines.length = b'.lines.length →
      b.lines.map trimEnd = b'.lines.map trimEnd → b.entry = .ok e → b'.entry = .ok e := by
    intro b b' hlength hlines h
    rw [entry_eq_ok_iff] at h ⊢
    rcases h with ⟨htwo, number, line, rest, first, second, start, finish, hsplit, htimes,
      hstart, hfinish, he⟩
    rw [hlength] at htwo
    rw [hlines] at hsplit
    exact ⟨htwo, number, line, rest, first, second, start, finish, hsplit, htimes,
      time_eq_ok b b' _ _ hstart, time_eq_ok b b' _ _ hfinish, he⟩
  exact ⟨hcongr b _ (List.length_map _).symm htwice.symm,
    hcongr _ b (List.length_map _) htwice⟩

/-- A document is read exactly when each of its blocks is, and its cues are
    those of the blocks. -/
theorem parse_eq_ok_iff (t : Text) (cues : List Cue) :
    parse t = .ok cues ↔ List.Forall₂ Reads (blocks (unmarked t)) cues := by
  have hblock : ∀ (b : Chunk) (c : Cue),
      (∃ e, b.entry = .ok e ∧ e.cue = .ok c) ↔ Reads (b.lines.map trimEnd) c :=
    fun b c => exists_congr fun e => and_congr_left' (entry_eq_ok_trimmed b e)
  simp only [parse, bind_eq_ok_iff, mapM_eq_ok_iff, forall₂_exists_iff, hblock]
  rw [← chunks_lines, List.forall₂_map_left_iff]

theorem blocks_concat_newline (a : Text) : blocks (a ++ ['\n']) = blocks a := by
  rw [blocks, blocks]
  rcases Text.trimmedLines_concat_newline a with h | h
  · rw [h]
  · rw [h, paragraphs_concat]

/-- A blank line keeps the blocks on either side of it apart. The first line
    feed ends whatever line the first text stops in. -/
theorem blocks_append (a b : Text) :
    blocks (a ++ '\n' :: '\n' :: b) = blocks a ++ blocks b := by
  rw [blocks, Text.trimmedLines_append_newline, Text.trimmedLines_newline, paragraphs_append,
    ← blocks, ← blocks, blocks_concat_newline]

theorem blocks_unifyBreaks (t : Text) : blocks (Text.unifyBreaks t) = blocks t := by
  rw [blocks, Text.trimmedLines_unifyBreaks, blocks]

theorem unmarked_mark (t : Text) : unmarked (mark :: t) = unmarked t :=
  List.dropWhile_cons_of_pos (decide_eq_true rfl)

theorem unmarked_eq_self (t : Text) (h : t.head? ≠ some mark) : unmarked t = t := by
  cases t with
  | nil => rfl
  | cons c t =>
      have hc : ¬ decide (c = mark) = true := by
        rw [decide_eq_true_eq]
        exact fun heq => h (congrArg some heq)
      exact List.dropWhile_cons_of_neg hc

-- Marks are dropped from the first text alone; the second must not bring its own.
theorem unmarked_append (a b : Text) (hb : b.head? ≠ some mark) :
    unmarked (a ++ '\n' :: '\n' :: b) = unmarked a ++ '\n' :: '\n' :: unmarked b := by
  rw [unmarked_eq_self b hb]
  induction a with
  | nil => rfl
  | cons c a ih =>
      rw [List.cons_append]
      by_cases hc : c = mark
      · rw [hc, unmarked_mark, unmarked_mark, ih]
      · have hhead : ∀ u : Text, (c :: u).head? ≠ some mark := fun u heq =>
          hc (Option.some.inj heq)
        rw [unmarked_eq_self _ (hhead _), unmarked_eq_self _ (hhead _), List.cons_append]

theorem parse_append_iff (a b : Text) (hb : b.head? ≠ some mark) (cues : List Cue) :
    parse (a ++ '\n' :: '\n' :: b) = .ok cues
      ↔ ∃ ca cb, cues = ca ++ cb ∧ parse a = .ok ca ∧ parse b = .ok cb := by
  simp only [parse_eq_ok_iff, unmarked_append a b hb, blocks_append, forall₂_append_left_iff]

end Document

namespace Source

open Document (Reads blocks unmarked)

theorem parse_eq_ok_iff (name t : Text) (cues : List Cue) :
    parse name t = .ok cues ↔ Document.parse t = .ok cues := by
  unfold parse
  split
  · rename_i h
    rw [h]
    exact ⟨fun heq => congrArg Except.ok (Except.ok.inj heq),
      fun heq => congrArg Except.ok (Except.ok.inj heq)⟩
  · rename_i h
    rw [h]
    simp only [reduceCtorEq]
  · rename_i h
    rw [h]
    simp only [reduceCtorEq]

-- A text fails when there are no cues it could be read as.
theorem parse_fails_iff (name t : Text) :
    (∃ fault, parse name t = .error fault) ↔ ¬ ∃ cues, Document.parse t = .ok cues := by
  simp only [← parse_eq_ok_iff name]
  rcases parse name t with fault | cues
  · simp only [reduceCtorEq, exists_false, not_false_eq_true, Except.error.injEq, exists_eq']
  · simp only [reduceCtorEq, exists_false, Except.ok.injEq, exists_eq', not_true_eq_false]

/-- Two texts with a blank line between them are read one after the other, and
    if either cannot be read, neither can both. The same holds of the blocks of
    any one text: its cues are those of its blocks, in order, so that none of
    them is skipped and none changes how another is read. -/
theorem parse_blockwise (name a b : Text) (hb : b.head? ≠ some Document.mark) :
    (∀ ca cb, parse name a = .ok ca → parse name b = .ok cb →
      parse name (a ++ '\n' :: '\n' :: b) = .ok (ca ++ cb)) ∧
    ((∃ fault, parse name a = .error fault) ∨ (∃ fault, parse name b = .error fault) →
      ∃ fault, parse name (a ++ '\n' :: '\n' :: b) = .error fault) ∧
    ∀ t cues, parse name t = .ok cues ↔ List.Forall₂ Reads (blocks (unmarked t)) cues := by
  refine ⟨?_, ?_, ?_⟩
  · intro ca cb ha hcb
    rw [parse_eq_ok_iff] at ha hcb ⊢
    exact (Document.parse_append_iff a b hb _).mpr ⟨ca, cb, rfl, ha, hcb⟩
  · simp only [parse_fails_iff, Document.parse_append_iff a b hb]
    rintro (hfail | hfail) ⟨_, ca, cb, rfl, ha, hcb⟩
    · exact hfail ⟨ca, ha⟩
    · exact hfail ⟨cb, hcb⟩
  · intro t cues
    rw [parse_eq_ok_iff, Document.parse_eq_ok_iff]

/-- A text that begins with a mark and stops in a carriage return in the middle
    of its block. -/
def openBlock : Text := "\uFEFF1\n00:00:01,000 --> 00:00:02,000\nfirst\r"

/-- A text that begins with a blank line and has no cue number. -/
def bareBlock : Text := "\n00:00:03,5 --> 00:00:02,000\r\n  1 --> 2"

theorem parse_blockwise_openBlock :
    bareBlock.head? ≠ some Document.mark ∧
      parse "talk.srt" (openBlock ++ '\n' :: '\n' :: bareBlock) = .ok
        [⟨.ofInt 1, .text "00:00:01,000", .text "00:00:02,000", "first"⟩,
          ⟨.null, .text "00:00:03,005", .text "00:00:02,000", "  1 --> 2"⟩] := by
  have hmark : bareBlock.head? ≠ some Document.mark := by decide
  refine ⟨hmark, (parse_blockwise "talk.srt" openBlock bareBlock hmark).1
    [⟨.ofInt 1, .text "00:00:01,000", .text "00:00:02,000", "first"⟩]
    [⟨.null, .text "00:00:03,005", .text "00:00:02,000", "  1 --> 2"⟩] ?_ ?_⟩
  · with_unfolding_all rfl
  · with_unfolding_all rfl

end Source

end Captions
