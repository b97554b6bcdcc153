import Captions.Proofs.Clock.Order
import Captions.Proofs.Timeline.Millis
import Captions.Proofs.Timeline.Positive
import Captions.Proofs.Timestamp.Order

/-!
# Previews in Order

The times in a preview never go back, in whatever order the cues are.

Nothing of this is due to the cues. Their times may go back, overlap or be the
same, and the playhead goes back with them, but no wait is negative. So the
clock of a preview only moves on, although each of its sums is rounded: a sum of
doubles without a minus sign is rounded to no less than the first of them.

That a line ends before the next begins is due to the order of the instructions.
A block does not move the clock, and the line of a block says when it would be
over. In a timeline the wait for exactly that long follows the block, so the
clock reaches the time at which a line ends before anything else is shown, and
by the same sum.

What is printed is not the clock but a reading of it, whose fields are computed
apart from each other. Readings are in the order of the clocks, as long as
doubles count the seconds one by one.

## Main definitions

* `WaitedOut`: Every block is followed by a wait for its duration.
* `printedTimes?`: The two times in a line.
* `inOrder`: The times of lines, one after the other.

## Theorems

* `waitedOut_emitted`: The blocks of a timeline are waited out.
* `units_clockAfter_mono`: The clock only moves on.
* `previewLines_waitedOut`: The lines of blocks that are waited out.
* `preview_chronological`: The times in a preview never go back.
-/

namespace Captions

namespace Instruction

open Binary64 (one)
open Clock (readMillis)
open Timestamp (Canonical)

/-- Every block is waited out: what follows it is a wait for its duration. -/
inductive WaitedOut : List Instruction → Prop
  | nil : WaitedOut []
  | wait (delay : Number) (is : List Instruction) (h : WaitedOut is) :
      WaitedOut (.wait delay :: is)
  | block (b : Block) (is : List Instruction) (h : WaitedOut is) :
      WaitedOut (.showText b :: .wait b.duration :: is)

theorem waitedOut_append (is js : List Instruction) (hi : WaitedOut is) (hj : WaitedOut js) :
    WaitedOut (is ++ js) := by
  induction hi with
  | nil => exact hj
  | wait delay is _ ih => exact WaitedOut.wait delay _ ih
  | block b is _ ih => exact WaitedOut.block b _ ih

/-! ### The clock -/

-- A clock that arrives at a finite time never was at a later one.
theorem units_clockAfter_mono (is : List Instruction) (h : Unsigned is) (now : Binary64)
    (hfin : now.isFinite = true) :
    ∀ clock : Binary64, clock.negative = false → clockAfter clock is = .ok now →
      clock.isFinite = true ∧ clock.units ≤ now.units := by
  induction is with
  | nil =>
      intro clock _ hnow
      have heq : clock = now := Except.ok.inj hnow
      rw [heq]
      exact ⟨hfin, le_refl _⟩
  | cons i is ih =>
      intro clock hclock hnow
      have hrest := ih (unsigned_of_cons i is h)
      cases i with
      | wait delay =>
          rcases h _ List.mem_cons_self with ⟨x, hx, hsign⟩
          rw [length] at hx
          rw [clockAfter_wait, hx, advance_double, ok_bind] at hnow
          rcases hrest _ (Binary64.negative_add clock x hclock hsign) hnow with ⟨hnext, hle⟩
          exact ⟨(Binary64.isFinite_of_add clock x hnext).1,
            le_trans (Binary64.units_le_add clock x hclock hsign hnext) hle⟩
      | showText b => exact hrest clock hclock hnow

-- One wait on the way to a finite time.
theorem clock_step (delay : Number) (is : List Instruction) (h : Unsigned (.wait delay :: is))
    (last : Binary64) (m : Nat) (hfin : last.isFinite = true) (hm : last.units = m)
    (clock : Binary64) (c : Nat) (hclock : clock.negative = false) (hc : clock.units = c)
    (hlast : clockAfter clock (.wait delay :: is) = .ok last) :
    ∃ (next : Binary64) (n : Nat), advance clock delay = .ok next ∧ next.negative = false ∧
      clock.isFinite = true ∧ next.isFinite = true ∧ next.units = n ∧ c ≤ n ∧ n ≤ m ∧
      clockAfter next is = .ok last := by
  rcases h _ List.mem_cons_self with ⟨x, hx, hsign⟩
  rw [length] at hx
  rw [clockAfter_wait, hx, advance_double, ok_bind] at hlast
  have hnext := Binary64.negative_add clock x hclock hsign
  rcases Binary64.exists_units _ hnext with ⟨n, hn⟩
  rcases units_clockAfter_mono is (unsigned_of_cons _ is h) last hfin _ hnext hlast with
    ⟨hfinite, hle⟩
  have hmoved := Binary64.units_le_add clock x hclock hsign hfinite
  refine ⟨_, n, by rw [hx, advance_double], hnext, (Binary64.isFinite_of_add clock x hfinite).1,
    hfinite, hn, ?_, ?_, hlast⟩
  · omega
  · omega

/-! ### The times in a line -/

/-- The two times in a line of a preview, which stand in brackets with an arrow
    between them. -/
def printedTimes? (line : Text) : Option (Text × Text) :=
  match Text.cutAt (· = ' ') line with
  | [] :: [] :: ('[' :: start) :: _ :: finish :: _ => some (start, finish.dropLast)
  | _ => none

/-- The times of lines in the order in which they are printed. -/
def inOrder (times : List (Canonical × Canonical)) : List Canonical :=
  times.flatMap fun t => [t.1, t.2]

theorem inOrder_cons (start finish : Canonical) (times : List (Canonical × Canonical)) :
    inOrder ((start, finish) :: times) = start :: finish :: inOrder times := rfl

/-- The times of lines never go back, and lie in a range. -/
structure Between (first last : Nat) (times : List (Canonical × Canonical)) : Prop where
  /-- No time is before one that is printed before it. -/
  ordered : (inOrder times).Pairwise fun a b => a.total ≤ b.total
  /-- All times are in the range. -/
  range : ∀ t ∈ inOrder times, first ≤ t.total ∧ t.total ≤ last

theorem between_nil (first last : Nat) : Between first last [] :=
  ⟨List.Pairwise.nil, fun _ ht => absurd ht List.not_mem_nil⟩

theorem between_of_le (first next last : Nat) (times : List (Canonical × Canonical))
    (h : Between next last times) (hle : first ≤ next) : Between first last times :=
  ⟨h.ordered, fun t ht => ⟨Nat.le_trans hle (h.range t ht).1, (h.range t ht).2⟩⟩

-- A line before others, which ends where they may begin.
theorem between_cons (start finish : Canonical) (last : Nat)
    (times : List (Canonical × Canonical)) (h : Between finish.total last times)
    (hle : start.total ≤ finish.total) (hlast : finish.total ≤ last) :
    Between start.total last ((start, finish) :: times) := by
  have hall := between_of_le start.total finish.total last times h hle
  constructor
  · rw [inOrder_cons, List.pairwise_cons, List.pairwise_cons, List.forall_mem_cons]
    exact ⟨⟨hle, fun t ht => (hall.range t ht).1⟩, fun t ht => (h.range t ht).1, h.ordered⟩
  · rw [inOrder_cons, List.forall_mem_cons, List.forall_mem_cons]
    exact ⟨⟨le_refl _, Nat.le_trans hle hlast⟩, ⟨hle, hlast⟩, hall.range⟩

theorem printedTimes?_line (a b : Canonical) (rest : Text) :
    printedTimes? ("  [" ++ a.text ++ " → " ++ b.text ++ "] " ++ rest) = some (a.text, b.text) := by
  have hspace : ∀ c : Canonical, ∀ x ∈ c.text, decide (x = ' ') = false := by
    intro c x hx
    rw [← Canonical.text_written] at hx
    have hblank := c.written.not_isBlank_text x hx
    rw [decide_eq_false_iff_not]
    rintro rfl
    exact absurd hblank (by decide)
  have hline : ("  [" ++ a.text ++ " → " ++ b.text ++ "] " ++ rest : Text)
      = [] ++ ' ' :: ([] ++ ' ' :: (('[' :: a.text) ++ ' ' :: (['→'] ++ ' ' ::
          ((b.text ++ [']']) ++ ' ' :: rest)))) := by
    simp only [List.append_assoc]
    rfl
  have hopen : ∀ x ∈ '[' :: a.text, decide (x = ' ') = false := by
    simp only [List.forall_mem_cons]
    exact ⟨by decide, hspace a⟩
  have hclose : ∀ x ∈ b.text ++ [']'], decide (x = ' ') = false := by
    simp only [List.forall_mem_append, List.forall_mem_singleton]
    exact ⟨hspace b, by decide⟩
  have hempty : ∀ x ∈ ([] : Text), decide (x = ' ') = false :=
    fun _ hx => absurd hx List.not_mem_nil
  have harrow : ∀ x ∈ ['→'], decide (x = ' ') = false := List.forall_mem_singleton.mpr (by decide)
  have hcut := fun t rest h => Text.cutAt_append (· = ' ') t rest ' ' h (by decide)
  rw [printedTimes?, hline, hcut _ _ hempty, hcut _ _ hempty, hcut _ _ hopen, hcut _ _ harrow,
    hcut _ _ hclose]
  simp only [List.dropLast_concat]

theorem reading_of_units (x : Binary64) (c : Nat) (hfin : x.isFinite = true) (hc : x.units = c)
    (hsize : c < 2 ^ 53 * one) : reading x = .ok (Clock.ofMillis (readMillis c)) := by
  rw [reading, Clock.ofSeconds?_eq x c hfin hc hsize]

-- A block that is waited out makes a line with the times of the clock before and
-- after the wait.
theorem previewLine_waitedOut (b : Block) (clock next : Binary64) (c n : Nat)
    (hclock : clock.isFinite = true) (hnext : next.isFinite = true) (hc : clock.units = c)
    (hn : next.units = n) (hle : c ≤ n) (hsize : n < 2 ^ 53 * one)
    (hadvance : advance clock b.duration = .ok next) :
    ∃ line, previewLine clock b = .ok line ∧ printedTimes? line
      = some ((Canonical.inFull (readMillis c)).text, (Canonical.inFull (readMillis n)).text) := by
  have hstart := reading_of_units clock c hclock hc (Nat.lt_of_le_of_lt hle hsize)
  have hfinish := reading_of_units next n hnext hn hsize
  refine ⟨_, (previewLine_eq_ok_iff clock b _).mpr
    ⟨_, next, _, hstart, hadvance, hfinish, rfl⟩, ?_⟩
  rw [Canonical.text_inFull, Canonical.text_inFull, printedTimes?_line]

/-- The lines of blocks that are waited out. Each of their times is one of the
    clock, which only moves on. -/
theorem previewLines_waitedOut (limit : Number) (is : List Instruction) (hout : WaitedOut is)
    (last : Binary64) (m : Nat) (hfin : last.isFinite = true) (hm : last.units = m)
    (hsize : m < 2 ^ 53 * one) :
    Unsigned is → ∀ (clock : Binary64) (shown c : Nat), clock.negative = false → clock.units = c →
      clockAfter clock is = .ok last →
      ∃ lines times, previewLines limit clock shown is = .ok lines ∧
        lines.map printedTimes? = times.map (fun t => some (t.1.text, t.2.text)) ∧
        Between (readMillis c) (readMillis m) times := by
  induction hout with
  | nil =>
      intro _ clock shown c _ _ _
      exact ⟨[], [], rfl, rfl, between_nil _ _⟩
  | wait delay is _ ih =>
      intro hun clock shown c hclock hc hlast
      rcases clock_step delay is hun last m hfin hm clock c hclock hc hlast with
        ⟨next, n, hadvance, hsign, _, _, hn, hcn, _, hrest⟩
      rcases ih (unsigned_of_cons _ is hun) next shown n hsign hn hrest with
        ⟨lines, times, hlines, htimes, hbetween⟩
      refine ⟨lines, times, ?_, htimes,
        between_of_le _ _ _ times hbetween (Clock.readMillis_mono c n hcn)⟩
      rw [previewLines, hadvance, ok_bind, hlines]
  | block b is _ ih =>
      intro hun clock shown c hclock hc hlast
      have hun' := unsigned_of_cons _ _ hun
      rcases clock_step b.duration is hun' last m hfin hm clock c hclock hc hlast with
        ⟨next, n, hadvance, hsign, hfinite, hfinite', hn, hcn, hnm, hrest⟩
      by_cases hlimit : limit.isAtMost (shown : Int) = true
      · refine ⟨[], [], ?_, rfl, between_nil _ _⟩
        rw [previewLines, if_pos hlimit]
      · rcases previewLine_waitedOut b clock next c n hfinite hfinite' hc hn hcn (by omega) hadvance
          with ⟨line, hline, hprinted⟩
        rcases ih (unsigned_of_cons _ is hun') next (shown + 1) n hsign hn hrest with
          ⟨lines, times, hlines, htimes, hbetween⟩
        have hmono := Clock.readMillis_mono c n hcn
        have hmono' := Clock.readMillis_mono n m hnm
        have hcons := between_cons (Canonical.inFull (readMillis c))
          (Canonical.inFull (readMillis n)) (readMillis m) times
        simp only [Canonical.total_inFull] at hcons
        refine ⟨line :: lines, _ :: times, ?_, ?_, hcons hbetween hmono hmono'⟩
        · rw [previewLines, if_neg hlimit, hline, ok_bind, previewLines, hadvance, ok_bind, hlines]
          rfl
        · rw [List.map_cons, List.map_cons, hprinted, htimes]

end Instruction

namespace Timeline

open Binary64 (one zero)
open Instruction (WaitedOut waitedOut_append inOrder previewLines preview printedTimes?)
open Timestamp (Canonical)

theorem waitedOut_gapWait (gap : Binary64) : WaitedOut (gapWait gap) := by
  unfold gapWait
  split
  · exact WaitedOut.wait _ _ WaitedOut.nil
  · exact WaitedOut.nil

theorem waitedOut_shown (style : Style) (cue : Cue) (duration : Binary64) :
    WaitedOut (shown style cue duration) := by
  unfold shown
  split
  · exact WaitedOut.block (block style cue duration) [] WaitedOut.nil
  · exact WaitedOut.nil

/-- The blocks of a timeline are waited out. -/
theorem waitedOut_emitted (style : Style) (timed : List Timed) :
    ∀ playhead, WaitedOut (emitted style playhead timed) := by
  induction timed with
  | nil => intro playhead; exact WaitedOut.nil
  | cons t timed ih =>
      intro playhead
      exact waitedOut_append _ _
        (waitedOut_append _ _ (waitedOut_gapWait _) (waitedOut_shown _ _ _)) (ih t.2.finish)

/-- The times in a preview never go back, in whatever order the cues are: there
    is a preview, its lines hold two times each, and no time is after one that
    is printed later. -/
theorem preview_chronological (style : Style) (cues : List Cue) (is : List Instruction)
    (total limit : Number) (h : (sequence style cues).2 = .ok is)
    (htotal : Instruction.totalDelay is = .ok total) (hbelow : total.isBelow (2 ^ 53) = true) :
    ∃ lines times, previewLines limit zero 0 is = .ok lines ∧
      preview limit is = .ok (Text.joinWith "\n"
        (lines ++ Instruction.remainder (Instruction.shownCount is) lines.length)) ∧
      lines.map printedTimes? = times.map (fun t => some (t.1.text, t.2.text)) ∧
      (inOrder times).Pairwise Canonical.NotAfter := by
  have hun := unsigned_sequence style cues is h
  rcases (sequence_eq_ok_iff style cues is).mp h with ⟨timed, _, _, _, his⟩
  have hout : WaitedOut is := his ▸ waitedOut_emitted style timed zero
  -- The clock arrives at the length of the timeline.
  rcases Instruction.totalDelay_unsigned is hun with ⟨total', last, htotal', hdouble, hlast⟩
  rw [htotal, Except.ok.injEq] at htotal'
  rw [← htotal'] at hdouble
  rcases Instruction.clockAfter_unsigned is hun zero rfl with ⟨last', hlast', hsign⟩
  rw [hlast, Except.ok.injEq] at hlast'
  rw [← hlast'] at hsign
  rcases Clock.exists_units_of_toDouble total last (2 ^ 53) (le_refl _) hdouble hsign
    (by exact_mod_cast hbelow) with ⟨hfin, m, hm, hsize⟩
  rcases Instruction.previewLines_waitedOut limit is hout last m hfin hm hsize hun zero 0 0 rfl rfl
    hlast with ⟨lines, times, hlines, htimes, hbetween⟩
  have hmillis := Clock.readMillis_lt m (2 ^ 53) hsize
  refine ⟨lines, times, hlines, (Instruction.preview_eq_ok limit is _).mpr ⟨lines, hlines, rfl⟩,
    htimes, ?_⟩
  refine hbetween.ordered.imp_of_mem fun {a b} _ hb hle => ?_
  exact Canonical.notAfter_of_total a b hle
    (Nat.lt_of_le_of_lt (hbetween.range b hb).2 hmillis)

/-- Cues that overlap and go back in time, one of which ends before it starts. -/
def disordered : List CanonicalCue :=
  [ .ofTotals "late" 5000 8000, .ofTotals "early" 1000 3000, .ofTotals "reversed" 6000 2500,
    .ofTotals "overlapping" 2600 6100 ]

theorem preview_chronological_disordered :
    ∃ is total, (sequence Style.standard (disordered.map CanonicalCue.cue)).2 = .ok is ∧
      Instruction.totalDelay is = .ok total ∧ total.isBelow (2 ^ 53) = true ∧
      ∃ lines times, previewLines (.whole 20) zero 0 is = .ok lines ∧
        lines.map printedTimes?
          = ([ some ("00:00:05,000", "00:00:08,000"), some ("00:00:08,000", "00:00:10,000"),
              some ("00:00:13,100", "00:00:16,600") ] : List (Option (Text × Text))) ∧
        lines.map printedTimes? = times.map (fun t => some (t.1.text, t.2.text)) ∧
        (inOrder times).Pairwise Canonical.NotAfter := by
  have hhours : ∀ c ∈ disordered, c.HoursBelow 100000 := by
    simp only [disordered, List.forall_mem_cons, CanonicalCue.hoursBelow_ofTotals, List.not_mem_nil,
      false_implies, implies_true, and_self]
  have hindices : ∀ c ∈ disordered, c.index = .null := by
    simp only [disordered, List.forall_mem_cons, CanonicalCue.ofTotals, List.not_mem_nil,
      false_implies, implies_true, and_self]
  have hseq := (sequence_canonical Style.standard disordered hhours).resolve_left
    (not_unwritable disordered hindices)
  have hbelow : (Instruction.totalDelay
      (emitted Style.standard zero (disordered.map CanonicalCue.timed))).toOption.any
        (·.isBelow (2 ^ 53)) = true := by
    decide +kernel
  have hprinted : (previewLines (.whole 20) zero 0
      (emitted Style.standard zero (disordered.map CanonicalCue.timed))).map
        (·.map printedTimes?)
      = .ok [ some ("00:00:05,000", "00:00:08,000"), some ("00:00:08,000", "00:00:10,000"),
          some ("00:00:13,100", "00:00:16,600") ] := by
    decide +kernel
  generalize emitted Style.standard zero (disordered.map CanonicalCue.timed) = is
    at hseq hbelow hprinted
  rcases htotal : Instruction.totalDelay is with o | total
  · rw [htotal] at hbelow
    exact absurd hbelow Bool.false_ne_true
  · rw [htotal] at hbelow
    rcases preview_chronological Style.standard _ is total (.whole 20) hseq htotal hbelow with
      ⟨lines, times, hlines, _, htimes, hordered⟩
    rw [hlines] at hprinted
    exact ⟨is, total, hseq, htotal, hbelow, lines, times, hlines, Except.ok.inj hprinted, htimes,
      hordered⟩

end Timeline

end Captions
