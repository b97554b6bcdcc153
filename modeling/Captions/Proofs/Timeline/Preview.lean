import Captions.Proofs.Clock.Reading
import Captions.Proofs.Instruction.Listed
import Captions.Proofs.Timeline.Ordered
import Captions.Proofs.Timestamp.Drift

/-!
# What a Preview Shows

The times that a preview of a timeline shows, beside those of the cues.

A preview knows the instructions and nothing of the cues, so it adds up the
delays and reads the sum. For cues that follow each other directly or after a
gap that is waited for, no time is lost, and the sum is a running sum of
differences of the cues' own times. That is what `Timestamp.Tracks` is about,
and `previewLines_emitted` carries it through the timeline: every line is
printed, and each time in it is the cue's own or the millisecond before it.

The latter does occur. It takes a time on a whole second and a clock that falls
short of it, by however little. `preview_shows` says that nothing else makes a
line differ from the cue's timestamps, and `not_preview_own` that a preview of
two cues can already do so.

## Main definitions

* `Paced`: Cues between which no time is lost.
* `startClock`, `finishClock`: The preview's clock at a cue.
* `clockAfter`: The preview's clock after cues.
* `ownLine`: The line of a cue with its own timestamps.
* `shownLine`: The line of a cue with the times that are shown.

## Theorems

* `tracks_clockAfter`: The clock is close to the time all along.
* `previewLines_emitted`: The lines of a timeline.
* `shownLine_eq_ownLine_iff`: When a line shows the cue's own timestamps.
* `preview_shows`: What a preview shows, and when it is what it should be.
-/

namespace Captions

namespace Timeline

open Timestamp (ofMillis Tracks tracks_add tracks_near tracks_zero)
open Clock (Lags shownMillis)
open Instruction (advance_double previewLines)

/-- Both times have two digits for the hours. -/
def CanonicalCue.TwoDigitHours (c : CanonicalCue) : Prop :=
  c.start.hours.length = 2 ∧ c.finish.hours.length = 2

/-- Cues that last, in order, each of them at the end of the one before or
    after a gap longer than the tolerance. -/
def Paced : Nat → List CanonicalCue → Prop
  | _, [] => True
  | playhead, c :: cs =>
    (playhead = c.start.total ∨ playhead + 50 < c.start.total) ∧
      c.start.total < c.finish.total ∧ Paced c.finish.total cs

/-- A clock moved on by the difference of two times, if there is one. -/
def moved (clock : Binary64) (a b : Nat) : Binary64 :=
  if a = b then clock else clock.add ((ofMillis b).sub (ofMillis a))

/-- The preview's clock when a cue appears. -/
def startClock (clock : Binary64) (playhead : Nat) (c : CanonicalCue) : Binary64 :=
  moved clock playhead c.start.total

/-- The preview's clock when a cue disappears. -/
def finishClock (clock : Binary64) (playhead : Nat) (c : CanonicalCue) : Binary64 :=
  moved (startClock clock playhead c) c.start.total c.finish.total

/-- The preview's clock after cues. -/
def clockAfter : Binary64 → Nat → List CanonicalCue → Binary64
  | clock, _, [] => clock
  | clock, playhead, c :: cs => clockAfter (finishClock clock playhead c) c.finish.total cs

/-- The line of a cue with its times as texts. -/
def line (style : Style) (c : CanonicalCue) (start finish : Text) : Text :=
  "  [" ++ start ++ " → " ++ finish ++ "] " ++
    Instruction.excerpt (block style c.cue c.span.duration)

/-- The line of a cue with its own timestamps. -/
def ownLine (style : Style) (c : CanonicalCue) : Text := line style c c.start.text c.finish.text

/-- The line of a cue with the times that the preview's clock shows. -/
def shownLine (style : Style) (clock : Binary64) (playhead : Nat) (c : CanonicalCue) : Text :=
  line style c
    (Clock.ofMillis (shownMillis (startClock clock playhead c) c.start.total)).text
    (Clock.ofMillis (shownMillis (finishClock clock playhead c) c.finish.total)).text

/-- The lines of cues from a playhead on. -/
def shownLines (style : Style) : Binary64 → Nat → List CanonicalCue → List Text
  | _, _, [] => []
  | clock, playhead, c :: cs =>
    shownLine style clock playhead c ::
      shownLines style (finishClock clock playhead c) c.finish.total cs

theorem CanonicalCue.hoursBelow_hundred (c : CanonicalCue) (h : c.TwoDigitHours) :
    c.HoursBelow 100 := by
  have hs := Text.ofDigits_lt c.start.hours c.start.hours_isDigits
  have hf := Text.ofDigits_lt c.finish.hours c.finish.hours_isDigits
  rw [h.1] at hs
  rw [h.2] at hf
  exact ⟨hs, hf⟩

theorem CanonicalCue.hoursBelow_of_twoDigit (c : CanonicalCue) (h : c.TwoDigitHours) :
    c.HoursBelow 100000 := by
  have hbelow := c.hoursBelow_hundred h
  exact ⟨Nat.lt_trans hbelow.1 (by norm_num), Nat.lt_trans hbelow.2 (by norm_num)⟩

theorem CanonicalCue.totals_of_twoDigit (c : CanonicalCue) (h : c.TwoDigitHours) :
    c.start.total < 360000000 ∧ c.finish.total < 360000000 :=
  c.totals_lt 100 (c.hoursBelow_hundred h)

theorem tracks_moved (clock : Binary64) (a b : Nat) (h : Tracks clock a) (hab : a ≤ b)
    (hb : b < 360000000) : Tracks (moved clock a b) b := by
  unfold moved
  by_cases heq : a = b
  · rw [if_pos heq, ← heq]
    exact h
  · rw [if_neg heq]
    exact tracks_add clock a b h (by omega) (by omega)

-- The clock is close to the time when a cue appears and when it disappears.
theorem tracks_cue (clock : Binary64) (playhead : Nat) (c : CanonicalCue)
    (h : Tracks clock playhead) (hc : c.TwoDigitHours) (hstart : playhead ≤ c.start.total)
    (hlasts : c.start.total < c.finish.total) :
    Tracks (startClock clock playhead c) c.start.total ∧
      Tracks (finishClock clock playhead c) c.finish.total := by
  rcases c.totals_of_twoDigit hc with ⟨hs, hf⟩
  have htracks := tracks_moved clock playhead c.start.total h hstart hs
  exact ⟨htracks, tracks_moved _ _ _ htracks (Nat.le_of_lt hlasts) hf⟩

-- A clock that is close to a time can be read.
theorem reading_of_tracks (x : Binary64) (ms : Nat) (h : Tracks x ms) (hms : ms < 360000000) :
    Instruction.reading x = .ok (Clock.ofMillis (shownMillis x ms)) := by
  rcases tracks_near x ms h hms with ⟨c, hfin, hc, hup, hdown⟩
  rw [Instruction.reading, Clock.ofSeconds?_near x c ms hfin hc hup hdown (by omega)]

theorem gapWait_paced (playhead : Nat) (c : CanonicalCue) (hp : playhead < 360000000)
    (hc : c.TwoDigitHours) (hgap : playhead = c.start.total ∨ playhead + 50 < c.start.total) :
    gapWait ((ofMillis c.start.total).sub (ofMillis playhead))
      = if playhead = c.start.total then []
        else [.wait (.double ((ofMillis c.start.total).sub (ofMillis playhead)))] := by
  rcases c.totals_of_twoDigit hc with ⟨hs, _⟩
  have hiff := worthWaiting_ofMillis c.start.total playhead (by omega) (by omega)
  unfold gapWait
  by_cases heq : playhead = c.start.total
  · rw [if_pos heq, if_neg (fun hw => by have := hiff.mp hw; omega)]
  · rw [if_neg heq, if_pos (hiff.mpr (by omega))]

-- The wait for a gap moves the preview's clock to the start of the cue.
theorem previewLines_gapWait (limit : Number) (clock : Binary64) (playhead shown : Nat)
    (c : CanonicalCue) (rest : List Instruction) (hp : playhead < 360000000)
    (hc : c.TwoDigitHours) (hgap : playhead = c.start.total ∨ playhead + 50 < c.start.total) :
    previewLines limit clock shown
        (gapWait ((ofMillis c.start.total).sub (ofMillis playhead)) ++ rest)
      = previewLines limit (startClock clock playhead c) shown rest := by
  rw [gapWait_paced playhead c hp hc hgap, startClock, moved]
  by_cases heq : playhead = c.start.total
  · rw [if_pos heq, if_pos heq, List.nil_append]
  · rw [if_neg heq, if_neg heq]
    rfl

theorem add_duration (clock : Binary64) (playhead : Nat) (c : CanonicalCue)
    (hlasts : c.start.total < c.finish.total) :
    (startClock clock playhead c).add c.span.duration = finishClock clock playhead c := by
  rw [finishClock, moved, if_neg (Nat.ne_of_lt hlasts), c.span_duration]

-- The line that is printed of a cue.
theorem previewLine_cue (style : Style) (clock : Binary64) (playhead : Nat) (c : CanonicalCue)
    (h : Tracks clock playhead) (hc : c.TwoDigitHours) (hstart : playhead ≤ c.start.total)
    (hlasts : c.start.total < c.finish.total) :
    Instruction.previewLine (startClock clock playhead c) (block style c.cue c.span.duration)
      = .ok (shownLine style clock playhead c) := by
  rcases c.totals_of_twoDigit hc with ⟨hs, hf⟩
  rcases tracks_cue clock playhead c h hc hstart hlasts with ⟨htracks, htracks'⟩
  have hduration : (block style c.cue c.span.duration).duration = .double c.span.duration := rfl
  rw [Instruction.previewLine, hduration, advance_double, add_duration clock playhead c hlasts,
    reading_of_tracks _ _ htracks hs, ok_bind, ok_bind, reading_of_tracks _ _ htracks' hf]
  rfl

/-- Every cue of a timeline makes a line, as long as the limit allows it. -/
theorem previewLines_emitted (style : Style) (limit : Number) (cs : List CanonicalCue)
    (h : ∀ c ∈ cs, c.TwoDigitHours) :
    ∀ clock playhead shown, playhead < 360000000 → Tracks clock playhead → Paced playhead cs →
      (∀ k < shown + cs.length, limit.isAtMost k = false) →
      previewLines limit clock shown
          (emitted style (ofMillis playhead) (cs.map CanonicalCue.timed))
        = .ok (shownLines style clock playhead cs) := by
  induction cs with
  | nil => intro clock playhead shown _ _ _ _; rfl
  | cons c cs ih =>
      intro clock playhead shown hp htracks hpaced hlimit
      rcases hpaced with ⟨hgap, hlasts, hrest⟩
      have hc := h c List.mem_cons_self
      have hstart : playhead ≤ c.start.total := by omega
      rcases c.totals_of_twoDigit hc with ⟨hs, hf⟩
      rcases tracks_cue clock playhead c htracks hc hstart hlasts with ⟨_, htracks'⟩
      have hpos := (c.lasts_iff (c.hoursBelow_of_twoDigit hc)).mpr hlasts
      have hnot : limit.isAtMost shown = false := hlimit shown (by
        rw [List.length_cons]
        omega)
      have hcs := ih (fun d hd => h d (List.mem_cons_of_mem c hd))
        (finishClock clock playhead c) c.finish.total (shown + 1) hf htracks' hrest
        (fun k hk => hlimit k (by rw [List.length_cons]; omega))
      rw [emitted_timed_cons, List.append_assoc, previewLines_gapWait limit clock playhead shown c _
        hp hc hgap, Timeline.shown, if_pos hpos, List.cons_append, List.cons_append, previewLines,
        hnot, if_neg Bool.false_ne_true, previewLine_cue style clock playhead c htracks hc hstart
          hlasts, ok_bind, previewLines, advance_double, add_duration clock playhead c hlasts,
        ok_bind, List.nil_append, hcs, ok_bind]
      rfl

theorem length_shownLines (style : Style) (cs : List CanonicalCue) :
    ∀ clock playhead, (shownLines style clock playhead cs).length = cs.length := by
  induction cs with
  | nil => intro clock playhead; rfl
  | cons c cs ih =>
      intro clock playhead
      rw [shownLines, List.length_cons, List.length_cons, ih]

theorem paced_append (xs ys : List CanonicalCue) :
    ∀ playhead, Paced playhead (xs ++ ys) ↔
      Paced playhead xs ∧ Paced (endAfter playhead xs) ys := by
  induction xs with
  | nil => intro playhead; rw [List.nil_append, endAfter, Paced, true_and]
  | cons c xs ih =>
      intro playhead
      rw [List.cons_append, Paced, Paced, endAfter, ih]
      simp only [and_assoc]

theorem lasts_of_paced (cs : List CanonicalCue) :
    ∀ playhead, Paced playhead cs → ∀ c ∈ cs, c.start.total < c.finish.total := by
  induction cs with
  | nil => intro _ _ c hc; exact absurd hc List.not_mem_nil
  | cons d cs ih =>
      intro playhead h c hc
      rcases h with ⟨_, hlasts, hrest⟩
      rcases List.mem_cons.mp hc with rfl | hmem
      · exact hlasts
      · exact ih d.finish.total hrest c hmem

/-- The preview's clock is close to the time all along. -/
theorem tracks_clockAfter (cs : List CanonicalCue) (h : ∀ c ∈ cs, c.TwoDigitHours) :
    ∀ clock playhead, Tracks clock playhead → Paced playhead cs →
      Tracks (clockAfter clock playhead cs) (endAfter playhead cs) := by
  induction cs with
  | nil => intro clock playhead htracks _; exact htracks
  | cons c cs ih =>
      intro clock playhead htracks hpaced
      rcases hpaced with ⟨hgap, hlasts, hrest⟩
      have hcue := tracks_cue clock playhead c htracks (h c List.mem_cons_self) (by omega) hlasts
      exact ih (fun d hd => h d (List.mem_cons_of_mem c hd)) _ _ hcue.2 hrest

-- The line of a cue stands at its place.
theorem shownLines_getElem? (style : Style) (pre post : List CanonicalCue) (c : CanonicalCue) :
    ∀ clock playhead, (shownLines style clock playhead (pre ++ c :: post))[pre.length]?
      = some (shownLine style (clockAfter clock playhead pre) (endAfter playhead pre) c) := by
  induction pre with
  | nil =>
      intro clock playhead
      rw [List.nil_append, shownLines, List.length_nil, List.getElem?_cons_zero, clockAfter,
        endAfter]
  | cons d pre ih =>
      intro clock playhead
      rw [List.cons_append, shownLines, List.length_cons, List.getElem?_cons_succ, ih, clockAfter,
        endAfter]

-- Timestamps of one length can be told apart inside a line.
theorem line_inj (style : Style) (c : CanonicalCue) (a b a' b' : Text)
    (ha : a.length = a'.length) (hb : b.length = b'.length)
    (h : line style c a b = line style c a' b') : a = a' ∧ b = b' := by
  unfold line at h
  simp only [List.append_assoc] at h
  have hstart := List.append_inj (List.append_cancel_left h) ha
  have hfinish := List.append_inj (List.append_cancel_left hstart.2) hb
  exact ⟨hstart.1, hfinish.1⟩

/-- A line shows the cue's own timestamps unless the clock falls short of one
    of them. -/
theorem shownLine_eq_ownLine_iff (style : Style) (clock : Binary64) (playhead : Nat)
    (c : CanonicalCue) (hc : c.TwoDigitHours)
    (hstart : Tracks (startClock clock playhead c) c.start.total)
    (hfinish : Tracks (finishClock clock playhead c) c.finish.total) :
    shownLine style clock playhead c = ownLine style c ↔
      ¬ Lags (startClock clock playhead c) c.start.total ∧
        ¬ Lags (finishClock clock playhead c) c.finish.total := by
  rcases c.totals_of_twoDigit hc with ⟨hs, hf⟩
  rcases hstart with ⟨_, x, _, hx, _, _⟩
  rcases hfinish with ⟨_, y, _, hy, _, _⟩
  have hle := Clock.shownMillis_le (startClock clock playhead c) c.start.total
  have hle' := Clock.shownMillis_le (finishClock clock playhead c) c.finish.total
  rw [← Clock.shownMillis_eq_iff _ x _ hx, ← Clock.shownMillis_eq_iff _ y _ hy, shownLine, ownLine,
    ← Clock.text_ofMillis c.start hc.1, ← Clock.text_ofMillis c.finish hc.2]
  constructor
  · intro h
    have htexts := line_inj style c _ _ _ _
      (by rw [Clock.length_text_ofMillis _ (by omega), Clock.length_text_ofMillis _ hs])
      (by rw [Clock.length_text_ofMillis _ (by omega), Clock.length_text_ofMillis _ hf]) h
    exact ⟨Clock.text_ofMillis_inj _ _ (by omega) hs htexts.1,
      Clock.text_ofMillis_inj _ _ (by omega) hf htexts.2⟩
  · rintro ⟨h, h'⟩
    rw [h, h']

-- A preview consists of the lines of all cues if the limit is no smaller than their
-- number.
theorem preview_emitted (style : Style) (cs : List CanonicalCue) (n : Int)
    (h : ∀ c ∈ cs, c.TwoDigitHours) (hpaced : Paced 0 cs) (hn : (cs.length : Int) ≤ n) :
    Instruction.preview (.whole n) (emitted style Binary64.zero (cs.map CanonicalCue.timed))
      = .ok (Text.joinWith "\n" (shownLines style Binary64.zero 0 cs)) := by
  have hlimit : ∀ k < 0 + cs.length, (Number.whole n).isAtMost k = false := by
    intro k hk
    have hgt : compare n (k : Int) = .gt := compare_gt_iff_gt.mpr (by omega)
    rw [Number.isAtMost, Number.compare?, hgt]
    rfl
  have hlines := previewLines_emitted style (.whole n) cs h Binary64.zero 0 0 (by omega)
    tracks_zero hpaced hlimit
  have hcount : Instruction.shownCount (emitted style Binary64.zero (cs.map CanonicalCue.timed))
      = cs.length := by
    rw [shownCount_emitted,
      shownCues_timed cs (fun c hc => c.hoursBelow_of_twoDigit (h c hc)),
      List.countP_eq_length]
    intro c hc
    exact decide_eq_true (lasts_of_paced cs 0 hpaced c hc)
  rw [Timestamp.ofMillis_zero] at hlines
  rw [Instruction.preview, hlines, ok_bind, hcount, length_shownLines, Instruction.remainder,
    if_neg (Nat.lt_irrefl _), List.append_nil]
  rfl

/-- A preview has one line for each cue. The line shows the cue's own timestamps
    up to a millisecond, and it shows them exactly unless one of them is on a
    whole second that the preview's clock falls short of. Only a number that is too
    long to be written leaves nothing to preview. -/
theorem preview_shows (style : Style) (cs : List CanonicalCue) (n : Int)
    (h : ∀ c ∈ cs, c.TwoDigitHours) (hpaced : Paced 0 cs) (hn : (cs.length : Int) ≤ n) :
    Unwritable style cs ∨ ∃ is lines, (sequence style (cs.map CanonicalCue.cue)).2 = .ok is ∧
      Instruction.preview (.whole n) is = .ok (Text.joinWith "\n" lines) ∧
      lines.length = cs.length ∧
      ∀ pre c post, cs = pre ++ c :: post →
        lines[pre.length]?
          = some (shownLine style (clockAfter Binary64.zero 0 pre) (endAfter 0 pre) c) ∧
        (lines[pre.length]? = some (ownLine style c) ↔
          ¬ Lags (startClock (clockAfter Binary64.zero 0 pre) (endAfter 0 pre) c) c.start.total ∧
          ¬ Lags (finishClock (clockAfter Binary64.zero 0 pre) (endAfter 0 pre) c)
            c.finish.total) := by
  have hhours : ∀ c ∈ cs, c.HoursBelow 100000 := fun c hc => c.hoursBelow_of_twoDigit (h c hc)
  refine (sequence_canonical style cs hhours).imp_right fun hseq => ?_
  refine ⟨_, shownLines style Binary64.zero 0 cs, hseq,
    preview_emitted style cs n h hpaced hn, length_shownLines style cs _ _, ?_⟩
  rintro pre c post rfl
  rcases (paced_append pre (c :: post) 0).mp hpaced with ⟨hpre, hgap, hlasts, _⟩
  have hc := h c (List.mem_append_right _ List.mem_cons_self)
  have htracks := tracks_clockAfter pre (fun d hd => h d (List.mem_append_left _ hd))
    Binary64.zero 0 tracks_zero hpre
  have hcue := tracks_cue _ _ c htracks hc (by omega) hlasts
  have hget := shownLines_getElem? style pre post c Binary64.zero 0
  refine ⟨hget, ?_⟩
  rw [hget, Option.some_inj]
  exact shownLine_eq_ownLine_iff style _ _ c hc hcue.1 hcue.2

/-- A cue after a pause, between two times that are no doubles. -/
def leading : CanonicalCue := .ofTotals "b" 553 1777

/-- A cue right after `leading` that ends on a whole second. -/
def trailing : CanonicalCue := .ofTotals "c" 1777 2000

theorem twoDigitHours_trailing : ∀ c ∈ [leading, trailing], c.TwoDigitHours := by
  intro c hc
  rcases List.mem_pair.mp hc with rfl | rfl
  · exact ⟨rfl, rfl⟩
  · exact ⟨rfl, rfl⟩

theorem not_unwritable_trailing : ¬ Unwritable Style.standard [leading, trailing] := by
  refine not_unwritable _ fun c hc => ?_
  rcases List.mem_pair.mp hc with rfl | rfl <;> rfl

theorem paced_trailing : Paced 0 [leading, trailing] := by
  simp (disch := omega) only [Paced, leading, trailing, CanonicalCue.ofTotals,
    Timestamp.Canonical.total_ofTotal]
  decide

-- Neither time of the first cue is on a whole second.
theorem not_lags_leading : ¬ Lags (startClock Binary64.zero 0 leading) leading.start.total ∧
    ¬ Lags (finishClock Binary64.zero 0 leading) leading.finish.total := by
  decide +kernel

-- The clock has lost its last bit at the end of the second cue.
theorem lags_trailing :
    Lags (finishClock (clockAfter Binary64.zero 0 [leading]) (endAfter 0 [leading]) trailing)
      trailing.finish.total := by
  decide +kernel

theorem preview_shows_trailing :
    (∀ c ∈ [leading, trailing], c.TwoDigitHours) ∧ Paced 0 [leading, trailing] ∧
      ∃ is lines,
        (sequence Style.standard ([leading, trailing].map CanonicalCue.cue)).2 = .ok is ∧
        Instruction.preview (.whole 2) is = .ok (Text.joinWith "\n" lines) ∧ lines.length = 2 ∧
        lines[0]? = some (ownLine Style.standard leading) ∧
        lines[1]? = some (line Style.standard trailing "00:00:01,777" "00:00:01,999") ∧
        lines[1]? ≠ some (ownLine Style.standard trailing) := by
  rcases (preview_shows Style.standard [leading, trailing] 2 twoDigitHours_trailing
    paced_trailing (by decide)).resolve_left not_unwritable_trailing with
    ⟨is, lines, hseq, hpreview, hlength, hlines⟩
  refine ⟨twoDigitHours_trailing, paced_trailing, is, lines, hseq, hpreview, hlength, ?_, ?_, ?_⟩
  · exact (hlines [] leading [trailing] rfl).2.mpr not_lags_leading
  · have hstart : (Clock.ofMillis (shownMillis (startClock
        (clockAfter Binary64.zero 0 [leading]) (endAfter 0 [leading]) trailing)
        trailing.start.total)).text = "00:00:01,777".toList := by decide +kernel
    have hfinish : (Clock.ofMillis (shownMillis (finishClock
        (clockAfter Binary64.zero 0 [leading]) (endAfter 0 [leading]) trailing)
        trailing.finish.total)).text = "00:00:01,999".toList := by decide +kernel
    have hline := (hlines [leading] trailing [] rfl).1
    rw [shownLine, hstart, hfinish] at hline
    exact hline
  · intro hown
    exact ((hlines [leading] trailing [] rfl).2.mp hown).2 lags_trailing

theorem joinWith_pair (sep a b : Text) : Text.joinWith sep [a, b] = a ++ (sep ++ b) := by
  rw [Text.joinWith, List.intercalate_cons_cons, List.intercalate_singleton, List.append_assoc]

-- A preview need not show the cues' own timestamps, even of two cues between which
-- no time is lost.
theorem not_preview_own :
    ¬ ∀ (style : Style) (cs : List CanonicalCue) (n : Int),
      (∀ c ∈ cs, c.TwoDigitHours) → Paced 0 cs → (cs.length : Int) ≤ n →
      ∀ is, (sequence style (cs.map CanonicalCue.cue)).2 = .ok is →
        Instruction.preview (.whole n) is
          = .ok (Text.joinWith "\n" (cs.map (ownLine style))) := by
  intro hclaim
  have hseq := (sequence_canonical Style.standard [leading, trailing] fun c hc =>
    c.hoursBelow_of_twoDigit (twoDigitHours_trailing c hc)).resolve_left not_unwritable_trailing
  have hown := hclaim Style.standard [leading, trailing] 2 twoDigitHours_trailing paced_trailing
    (by decide) _ hseq
  rw [preview_emitted Style.standard _ 2 twoDigitHours_trailing paced_trailing (by decide),
    Except.ok.injEq, shownLines, shownLines, shownLines] at hown
  have hlead := twoDigitHours_trailing leading List.mem_cons_self
  have htrail := twoDigitHours_trailing trailing (List.mem_cons_of_mem _ List.mem_cons_self)
  have hlasts := lasts_of_paced _ 0 paced_trailing
  have hfirst := tracks_cue Binary64.zero 0 leading tracks_zero hlead (Nat.zero_le _)
    (hlasts leading List.mem_cons_self)
  have hsecond := tracks_cue _ _ trailing hfirst.2 htrail (Nat.le_refl _)
    (hlasts trailing (List.mem_cons_of_mem _ List.mem_cons_self))
  -- The first lines agree, so the second ones would have to.
  rw [(shownLine_eq_ownLine_iff Style.standard _ _ leading hlead hfirst.1 hfirst.2).mpr
    not_lags_leading] at hown
  rw [List.map_cons, List.map_cons, List.map_nil, joinWith_pair, joinWith_pair] at hown
  have hline := List.append_cancel_left (List.append_cancel_left hown)
  exact ((shownLine_eq_ownLine_iff Style.standard _ _ trailing htrail hsecond.1 hsecond.2).mp
    hline).2 lags_trailing

end Timeline

end Captions
