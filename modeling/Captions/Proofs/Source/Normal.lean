import Captions.Proofs.Document.Fractions
import Captions.Proofs.Timeline.Millis
import Captions.Proofs.Timeline.Segments
import Captions.Proofs.Timestamp.Finite
import Captions.Proofs.Value.Writable

/-!
# Cues in Normal Form

What every cue of a document looks like, however the document was written.

The fields of a time in a document may be negative, overflow, end in letters or
be missing. None of that shows in the cue, because its times are printed again
from a number of milliseconds, and a clock prints any such number as a canonical
timestamp. The lines of its text are trimmed lines of the document, with no empty
one among them. `NormalCue` has these facts as fields, and `reads_normal` finds
one for each block.

The rules by which a cue's times are read later are not those of the document.
They accept a canonical timestamp as long as its hours are within the doubles.
So a document whose hours have at most three hundred digits is never malformed.
Nor do its numbers stand in the way of a timeline, since a number that was read
is not too long to be written. Only those of the style can.

## Main definitions

* `NormalCue`: A cue with canonical times and a text of tidy lines.
* `NormalCue.HoursWithin`: A bound on the digits of its hours.

## Theorems

* `clockText_canonical`: What is printed is a canonical timestamp.
* `reads_normal`: A block is read as a cue in normal form.
* `parse_normal`: The cues of a document are in normal form and have a timeline.
-/

namespace Captions

open Text (Tidy)
open Timestamp (Canonical)
open Timeline (CanonicalCue)

/-- A cue with canonical times, a number that can be written and a text of tidy
    lines. -/
structure NormalCue extends CanonicalCue where
  /-- The number has no more digits than can be written. -/
  index_writable : index.isWritable = true
  /-- The lines of the text. -/
  lines : List Text
  /-- No line is blank, ends in a blank or holds a line break. -/
  lines_tidy : ∀ l ∈ lines, Tidy l
  text_eq : text = Text.joinWith "\n" lines

namespace NormalCue

/-- The hours of both times have at most this many digits. -/
def HoursWithin (c : NormalCue) (n : Nat) : Prop :=
  c.start.hours.length ≤ n ∧ c.finish.hours.length ≤ n

-- The length of a canonical timestamp says how many digits its hours have.
theorem hoursWithin_of_length (c : NormalCue) (n : Nat) (start finish : Text)
    (hstart : c.cue.start = .text start) (hfinish : c.cue.finish = .text finish)
    (hs : start.length ≤ n + 10) (hf : finish.length ≤ n + 10) : c.HoursWithin n := by
  have hstart' : c.start.text = start := Value.text.inj hstart
  have hfinish' : c.finish.text = finish := Value.text.inj hfinish
  rw [← hstart', c.start.length_text] at hs
  rw [← hfinish', c.finish.length_text] at hf
  exact ⟨by omega, by omega⟩

theorem converts (c : NormalCue) (h : c.HoursWithin 300) : Timeline.Converts c.cue := by
  rcases c.start.seconds_finite h.1 with ⟨start, hstart, -⟩
  rcases c.finish.seconds_finite h.2 with ⟨finish, hfinish, -⟩
  exact ⟨⟨start, Cue.time_text _ _ hstart⟩, finish, Cue.time_text _ _ hfinish⟩

theorem isWritable (c : NormalCue) : c.cue.isWritable = true :=
  c.isWritable_cue c.index_writable

end NormalCue

namespace Document

/-- A number of milliseconds is printed as a canonical timestamp, and as that of
    zero if it is negative. -/
theorem clockText_canonical (total : Int) (s : Text) (h : clockText total = .ok s) :
    s = (Canonical.inFull total.toNat).text := by
  have hnat : clockText total = clockText (total.toNat : Int) := by
    unfold clockText Clock.ofMillis
    rw [Int.toNat_natCast]
  rw [hnat] at h
  rw [clockText_eq_ok total.toNat s h, Canonical.text_inFull]

theorem mem_of_splitIndex (ls rest : List Text) (number : Value)
    (h : splitIndex ls = (number, rest)) : ∀ l ∈ rest, l ∈ ls := by
  cases ls with
  | nil =>
      rw [splitIndex, Prod.mk.injEq] at h
      rw [← h.2]
      exact fun l hl => hl
  | cons first ls =>
      rw [splitIndex] at h
      split at h
      · rw [Prod.mk.injEq] at h
        rw [← h.2]
        exact fun l hl => hl
      · rw [Prod.mk.injEq] at h
        rw [← h.2]
        exact fun l hl => List.mem_cons_of_mem first hl

-- A number that is read is not too long to be written.
theorem isWritable_of_splitIndex (ls rest : List Text) (number : Value)
    (h : splitIndex ls = (number, rest)) : number.isWritable = true := by
  cases ls with
  | nil =>
      rw [splitIndex, Prod.mk.injEq] at h
      rw [← h.1]
      rfl
  | cons first ls =>
      rw [splitIndex] at h
      split at h
      · rw [Prod.mk.injEq] at h
        rw [← h.1]
        rfl
      · rw [Prod.mk.injEq] at h
        rw [← h.1, index]
        rcases hwhole : Numeral.whole first with fault | n
        · exact rfl
        · exact Numeral.isWritable_of_whole first n hwhole

/-- A block of tidy lines is read as a cue in normal form. -/
theorem reads_normal (ls : List Text) (c : Cue) (htidy : ∀ l ∈ ls, Tidy l) (h : Reads ls c) :
    ∃ n : NormalCue, n.cue = c := by
  rcases (reads_iff ls c).mp h with ⟨-, number, line, rest, -, -, start, finish, s, f, hsplit, -,
    -, -, hs, hf, rfl⟩
  rw [Text.map_trimEnd_tidy ls htidy] at hsplit
  have hrest : ∀ l ∈ rest, Tidy l := fun l hl =>
    htidy l (mem_of_splitIndex ls _ number hsplit l (List.mem_cons_of_mem line hl))
  rw [clockText_canonical start s hs, clockText_canonical finish f hf]
  exact ⟨⟨⟨number, _, _, _⟩, isWritable_of_splitIndex _ _ number hsplit, rest, hrest, rfl⟩, rfl⟩

theorem forall₂_reads_normal (bs : List (List Text)) (cues : List Cue)
    (htidy : ∀ ls ∈ bs, ∀ l ∈ ls, Tidy l) (h : List.Forall₂ Reads bs cues) :
    ∃ ns : List NormalCue, ns.map (fun n => n.cue) = cues := by
  induction h with
  | nil => exact ⟨[], rfl⟩
  | cons hread _ ih =>
      rcases reads_normal _ _ (htidy _ List.mem_cons_self) hread with ⟨n, rfl⟩
      rcases ih (fun ls hls => htidy ls (List.mem_cons_of_mem _ hls)) with ⟨ns, rfl⟩
      exact ⟨n :: ns, rfl⟩

end Document

namespace Source

/-- The cues of every document are in normal form. A time of theirs whose hours
    have at most three hundred digits is read as a finite time that is not below
    zero. A document with only such times is never found malformed, and in every
    style that can be written it has a timeline. -/
theorem parse_normal (name t : Text) (cues : List Cue) (h : parse name t = .ok cues) :
    ∃ ns : List NormalCue, ns.map (fun n => n.cue) = cues ∧
      (∀ n ∈ ns, ∀ time ∈ [n.start, n.finish], time.hours.length ≤ 300 →
        ∃ x, Timestamp.seconds time.text = .ok x ∧ x.isFinite = true ∧ 0 ≤ x.value) ∧
      ((∀ n ∈ ns, n.HoursWithin 300) →
        (∀ style m, (Timeline.sequence style cues).2 ≠ .error (.malformed m)) ∧
        ∀ style, style.isWritable = true → ∃ is, (Timeline.sequence style cues).2 = .ok is) := by
  rw [parse_eq_ok_iff, Document.parse_eq_ok_iff] at h
  rcases Document.forall₂_reads_normal _ cues (Document.tidy_of_mem_blocks _) h with ⟨ns, rfl⟩
  refine ⟨ns, rfl, fun n _ time _ hhours => time.seconds_finite hhours, ?_⟩
  intro hhours
  have hconverts : ∀ cue ∈ ns.map (fun n => n.cue), Timeline.Converts cue := by
    intro cue hcue
    rcases List.mem_map.mp hcue with ⟨n, hn, rfl⟩
    exact n.converts (hhours n hn)
  rcases Timeline.exists_converted _ hconverts with ⟨timed, hmap, hconv⟩
  constructor
  · intro style m hfault
    rw [← hmap] at hfault
    exact absurd (Timeline.fault_of_sequence style timed hconv _ hfault).1
      (by simp only [reduceCtorEq, not_false_eq_true])
  · intro style hstyle
    have hcues : ∀ t ∈ timed, t.1.isWritable = true := by
      intro t ht
      have hcue : t.1 ∈ ns.map (fun n => n.cue) := hmap ▸ List.mem_map_of_mem ht
      rcases List.mem_map.mp hcue with ⟨n, _, hn⟩
      exact hn ▸ n.isWritable
    exact ⟨_, (Timeline.sequence_eq_ok_iff style _ _).mpr
      ⟨timed, hmap, hconv, Timeline.admitted_of_isWritable style timed hstyle hcues _, rfl⟩⟩

/-- A document with fields that are negative, too large, too long, followed by
    letters or missing. -/
def looseDocument : Text :=
  "1\n-1:75:1_0,12345 --> 00:00:99,5junk  \nhello  \n\tworld\n\n --> -2:00:00,0\u0085bye"

/-- The cues that are read from it. -/
def looseCues : List Cue :=
  [ ⟨.ofInt 1, .text "00:15:22,345", .text "00:01:39,005", "hello\n\tworld"⟩,
    ⟨.null, .text "00:00:00,000", .text "00:00:00,000", "bye"⟩ ]

set_option maxRecDepth 4000 in
theorem parse_looseDocument : parse "talk.srt" looseDocument = .ok looseCues := by
  with_unfolding_all rfl

theorem parse_normal_looseDocument :
    parse "talk.srt" looseDocument = .ok looseCues ∧
      (∃ ns : List NormalCue, ns.map (fun n => n.cue) = looseCues ∧
        ∀ n ∈ ns, ∀ time ∈ [n.start, n.finish],
          ∃ x, Timestamp.seconds time.text = .ok x ∧ x.isFinite = true ∧ 0 ≤ x.value) ∧
      (∀ style m, (Timeline.sequence style looseCues).2 ≠ .error (.malformed m)) ∧
      ∃ is, (Timeline.sequence .standard looseCues).2 = .ok is := by
  rcases parse_normal "talk.srt" looseDocument looseCues parse_looseDocument with
    ⟨ns, hns, htimes, hsequence⟩
  have hlengths : ∀ cue ∈ looseCues, ∃ start finish : Text, cue.start = .text start ∧
      cue.finish = .text finish ∧ start.length ≤ 300 + 10 ∧ finish.length ≤ 300 + 10 := by
    intro cue hcue
    rcases List.mem_pair.mp hcue with rfl | rfl
    · exact ⟨_, _, rfl, rfl, by decide, by decide⟩
    · exact ⟨_, _, rfl, rfl, by decide, by decide⟩
  have hhours : ∀ n ∈ ns, n.HoursWithin 300 := by
    intro n hn
    have hcue : n.cue ∈ looseCues := hns ▸ List.mem_map_of_mem hn
    rcases hlengths n.cue hcue with ⟨start, finish, hstart, hfinish, hs, hf⟩
    exact n.hoursWithin_of_length 300 start finish hstart hfinish hs hf
  rcases hsequence hhours with ⟨hnever, hmakes⟩
  refine ⟨parse_looseDocument, ⟨ns, hns, fun n hn time htime => ?_⟩, hnever,
    hmakes .standard Style.isWritable_standard⟩
  refine htimes n hn time htime ?_
  rcases List.mem_pair.mp htime with rfl | rfl
  · exact (hhours n hn).1
  · exact (hhours n hn).2

end Source

end Captions
