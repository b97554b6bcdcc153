import Captions.Proofs.Document.Blocks
import Captions.Proofs.Value.Writable

/-!
# Documents That Cannot Be Read

Why a document gives no cues.

A document is read in two passes. All of its blocks are read first, and then
their times are written. A block that cannot be read fails the first pass, and
the fault is that of the first such block, because the pass ends there. The
second pass has one fault only. The reader takes numerals of any number up to
its limit of digits, and minutes and seconds that overflow are carried to the
hours, so the hours can come to have one digit more than may be written.

The two kinds of fault do not mix. Reading a block never fails because of its
hours, which are not known before the fields are put together. So hours that
are too long are reported exactly when all blocks can be read, and
`parse_eq_longHours_iff` says so.

## Main definitions

* `HasEntries`: What the blocks of a text hold, if they all can be read.
* `TooLong`: The hours of a time have too many digits.
* `HasLongHours`: Every block of a text can be read, but a time of one is too
  long.

## Theorems

* `entry_ne_longHours`: Reading a block does not look at its hours.
* `cue_eq_error_iff`: Why the cue of a block cannot be made.
* `parse_eq_ok_iff_entries`: The two passes of a document that is read.
* `parse_eq_error_iff`: Why a document cannot be read.
* `parse_eq_longHours_iff`: When the hours of a document are too long.
-/

namespace Captions

namespace Document

open Text (trimEnd)

/-- Each block of a text can be read, and holds what is listed. -/
def HasEntries (t : Text) (entries : List Entry) : Prop :=
  List.Forall₂ (fun ls e => (Chunk.mk 0 ls).entry = .ok e) (blocks (unmarked t)) entries

/-- The hours of a time have too many digits to be written. -/
def TooLong (total : Int) : Prop := 10 ^ Numeral.digitLimit ≤ (Clock.ofMillis total).hours

/-- A time of a block is too long. -/
def Entry.TooLong (e : Entry) : Prop := Document.TooLong e.start ∨ Document.TooLong e.finish

/-- Every block of a text can be read, but a time of one of them is too long. -/
def HasLongHours (t : Text) : Prop :=
  ∃ entries, HasEntries t entries ∧ ∃ e ∈ entries, e.TooLong

/-! ### One block -/

theorem timeField_ne_longHours (part : Text) : timeField part ≠ .error .longHours := by
  unfold timeField
  split
  · simp only [ne_eq, reduceCtorEq, not_false_eq_true]
  · split <;> simp only [ne_eq, reduceCtorEq, Except.error.injEq, not_false_eq_true]

theorem time_ne_longHours (b : Chunk) (t : Text) : time b t ≠ .error .longHours := by
  unfold time
  split
  · simp only [ne_eq, reduceCtorEq, not_false_eq_true]
  · split
    · simp only [ne_eq, bind_eq_error_iff, timeField_ne_longHours, pure_ne_error, and_false,
        exists_false, or_false, not_false_eq_true]
    · simp only [ne_eq, reduceCtorEq, Except.error.injEq, not_false_eq_true]

/-- Reading a block does not look at its hours. -/
theorem entry_ne_longHours (b : Chunk) : b.entry ≠ .error .longHours := by
  unfold Chunk.entry
  split
  · simp only [ne_eq, reduceCtorEq, Except.error.injEq, not_false_eq_true]
  · split
    · simp only [ne_eq, reduceCtorEq, Except.error.injEq, not_false_eq_true]
    · split
      · simp only [ne_eq, reduceCtorEq, Except.error.injEq, not_false_eq_true]
      · simp only [ne_eq, bind_eq_error_iff, time_ne_longHours, pure_ne_error, and_false,
          exists_false, or_false, not_false_eq_true]

theorem clockText_eq_error_iff (total : Int) (fault : Fault) :
    clockText total = .error fault ↔ fault = .longHours ∧ TooLong total := by
  unfold clockText TooLong
  rw [← Text.lt_length_digits_iff _ _ (by decide)]
  simp only []
  split
  · rename_i h
    rw [and_iff_left h, Except.error.injEq, eq_comm]
  · rename_i h
    simp only [reduceCtorEq, h, and_false]

/-- The cue of a block cannot be made only because a time is too long. -/
theorem cue_eq_error_iff (e : Entry) (fault : Fault) :
    e.cue = .error fault ↔ fault = .longHours ∧ e.TooLong := by
  simp only [Entry.cue, Entry.TooLong, bind_eq_error_iff, pure_ne_error, and_false, exists_false,
    or_false, clockText_eq_error_iff]
  constructor
  · rintro (⟨rfl, hstart⟩ | ⟨_, _, rfl, hfinish⟩)
    · exact ⟨rfl, Or.inl hstart⟩
    · exact ⟨rfl, Or.inr hfinish⟩
  · rintro ⟨rfl, hlong⟩
    by_cases hstart : TooLong e.start
    · exact Or.inl ⟨rfl, hstart⟩
    · rcases hclock : clockText e.start with other | s
      · exact absurd ((clockText_eq_error_iff e.start other).mp hclock).2 hstart
      · exact Or.inr ⟨s, rfl, rfl, hlong.resolve_left hstart⟩

/-! ### Whole documents -/

-- Blocks are read by their trimmed lines, whatever their numbers are.
theorem entries_iff (t : Text) (entries : List Entry) :
    (chunks (lines t ++ [['\n']])).mapM Chunk.entry = .ok entries ↔ HasEntries t entries := by
  have htrimmed : ∀ (b : Chunk) (e : Entry),
      b.entry = .ok e ↔ (Chunk.mk 0 (b.lines.map trimEnd)).entry = .ok e := entry_eq_ok_trimmed
  rw [mapM_eq_ok_iff, HasEntries, ← chunks_lines, List.forall₂_map_left_iff]
  exact ⟨fun h => h.imp fun b e => (htrimmed b e).mp, fun h => h.imp fun b e => (htrimmed b e).mpr⟩

theorem parse_eq_ok_iff_entries (t : Text) (cues : List Cue) :
    parse t = .ok cues ↔
      ∃ entries, HasEntries t entries ∧ List.Forall₂ (fun e c => e.cue = .ok c) entries cues := by
  rw [parse, bind_eq_ok_iff]
  exact exists_congr fun entries =>
    and_congr (entries_iff t entries) (mapM_eq_ok_iff Entry.cue entries cues)

theorem cues_eq_error_iff (entries : List Entry) (fault : Fault) :
    entries.mapM Entry.cue = .error fault ↔ fault = .longHours ∧ ∃ e ∈ entries, e.TooLong := by
  constructor
  · intro h
    rcases (mapM_eq_error_iff Entry.cue entries fault).mp h with ⟨before, e, after, rfl, _, he⟩
    rcases (cue_eq_error_iff e fault).mp he with ⟨rfl, hlong⟩
    exact ⟨rfl, e, List.mem_append_right _ List.mem_cons_self, hlong⟩
  · rintro ⟨rfl, e, he, hlong⟩
    rcases hcues : entries.mapM Entry.cue with other | cues
    · rcases (mapM_eq_error_iff Entry.cue entries other).mp hcues with ⟨_, d, _, _, _, hd⟩
      rw [((cue_eq_error_iff d other).mp hd).1]
    · rcases (exists_mapM_iff Entry.cue entries).mp ⟨cues, hcues⟩ e he with ⟨c, hc⟩
      rw [(cue_eq_error_iff e .longHours).mpr ⟨rfl, hlong⟩] at hc
      exact absurd hc (error_ne_ok _ _)

/-- A document cannot be read because of its first block that cannot, or, when
    they all can, because of its hours. -/
theorem parse_eq_error_iff (t : Text) (fault : Fault) :
    parse t = .error fault ↔
      (∃ before b after, chunks (lines t ++ [['\n']]) = before ++ b :: after ∧
        (∀ c ∈ before, ∃ e, c.entry = .ok e) ∧ b.entry = .error fault) ∨
      fault = .longHours ∧ HasLongHours t := by
  rw [parse, bind_eq_error_iff, mapM_eq_error_iff]
  simp only [entries_iff, cues_eq_error_iff]
  refine or_congr_right ⟨?_, ?_⟩
  · rintro ⟨entries, hentries, rfl, hlong⟩
    exact ⟨rfl, entries, hentries, hlong⟩
  · rintro ⟨rfl, entries, hentries, hlong⟩
    exact ⟨entries, hentries, rfl, hlong⟩

/-- The hours of a document are reported when all its blocks can be read, and
    otherwise a block is. -/
theorem parse_eq_longHours_iff (t : Text) : parse t = .error .longHours ↔ HasLongHours t := by
  rw [parse_eq_error_iff, and_iff_right rfl]
  refine ⟨fun h => h.resolve_left ?_, Or.inr⟩
  rintro ⟨_, b, _, _, _, hb⟩
  exact entry_ne_longHours b hb

end Document

end Captions
