import Captions.Proofs.Document.Rendered
import Captions.Proofs.Run.Ending
import Captions.Proofs.Source.Faults
import Captions.Proofs.Source.Files
import Captions.Proofs.Timeline.Pulled

/-!
# What a Run Hands Over

A run is all or nothing, and its source alone decides which.

A run goes through stages: the source has to name a file, the file has to have a
text, the blocks of the text have to be cues, and the times of the cues have to
be well-formed. `Accepted` says that all of it is so, and none of it depends on
a style. Since each stage hands on all that it was given, what a run completes
with is the timeline of all cues there are, and since a stage that fails hands
on nothing, a run that fails is left with a message.

The stages fail with faults of their own, but what is left of them is little.
The message only says whether there was a source at all. What went wrong is
noted, as one error, because the stages after the one that fails are not
entered and those before it note nothing of that kind. Of a malformed time this
error has the text as it was given, and it is the first such time of the file.

A style may keep a run from having a result, by a number that is too long to be
written. It cannot change the result that a run has.

## Main definitions

* `Source.Readable`: The blocks in the file of a source can all be read.
* `Source.Gives`: The cues of a source.
* `Offends`: The first time of a cue that does not convert.
* `Accepted`: Every stage of a run accepts a source.
* `errors`: The errors among notices.

## Theorems

* `Source.read_eq_ok_iff_gives`: What it takes for a source to be read.
* `Source.exists_cues_of_readable`: What is readable has cues, unless its hours
  are too long.
* `Timeline.exists_offends`: What is wrong with a cue whose times do not convert.
* `start_cases`: How far a run has come.
* `start_decides`: What a run hands over, and what is noted as an error.
-/

namespace Captions

namespace Source

open Document (HasEntries)

/-- A source names a file, the file has a text, and the blocks of the text can
    be read and hold what is listed. -/
def Readable (tree : FileTree) (source : Reference) (entries : List Document.Entry) : Prop :=
  ∃ t octets u, source.text? = some t ∧ Text.isAllBlank t = false ∧
    tree.read (FilePath.ofText t) = .ok octets ∧ Utf8.decode (Utf8.afterMark octets) = .ok u ∧
    HasEntries (Text.unifyBreaks u) entries

/-- The cues of a source are those of the blocks in its file. -/
def Gives (tree : FileTree) (source : Reference) (cues : List Cue) : Prop :=
  ∃ entries, Readable tree source entries ∧
    List.Forall₂ (fun e c => e.cue = .ok c) entries cues

theorem read_eq_ok_iff_gives (tree : FileTree) (source : Reference) (cues : List Cue) :
    (read tree source).2 = .ok cues ↔ Gives tree source cues := by
  constructor
  · intro h
    rcases read_cases tree source with ⟨_, _, _, hread⟩ | ⟨_, _, _, _, _, hread⟩ |
      ⟨t, u, htext, hblank, hcontent, hread⟩
    · exact absurd (hread.symm.trans h) (error_ne_ok _ _)
    · exact absurd (hread.symm.trans h) (error_ne_ok _ _)
    · rcases (content_eq_ok_iff tree _ u).mp hcontent with ⟨octets, v, hoctets, hdecode, rfl⟩
      rw [hread, parse_eq_ok_iff, Document.parse_eq_ok_iff_entries] at h
      rcases h with ⟨entries, hentries, hcues⟩
      exact ⟨entries, ⟨t, octets, v, htext, hblank, hoctets, hdecode, hentries⟩, hcues⟩
  · rintro ⟨entries, ⟨t, octets, u, htext, hblank, hoctets, hdecode, hentries⟩, hcues⟩
    have hpath := filePath_of_text? source t htext
    rw [path_of_not_isAllBlank t hblank] at hpath
    rw [read_of_path tree source _ hpath,
      (content_eq_ok_iff tree _ _).mpr ⟨octets, u, hoctets, hdecode, rfl⟩, ok_bind,
      parse_eq_ok_iff, Document.parse_eq_ok_iff_entries]
    exact ⟨entries, hentries, hcues⟩

/-- The times of the cues of a source are texts. -/
theorem texts_of_gives (tree : FileTree) (source : Reference) (cues : List Cue)
    (h : Gives tree source cues) :
    ∀ cue ∈ cues, ∃ s f, cue.start = .text s ∧ cue.finish = .text f := by
  rcases h with ⟨entries, -, hcues⟩
  refine (forall_ok_iff _ _ _ _ hcues).mp fun e _ cue hcue => ?_
  simp only [Document.Entry.cue, bind_eq_ok_iff, pure_eq_ok_iff] at hcue
  rcases hcue with ⟨s, -, f, -, rfl⟩
  exact ⟨s, f, rfl, rfl⟩

/-- What is readable gives cues, unless the hours of a time are too long. -/
theorem exists_cues_of_readable (tree : FileTree) (source : Reference)
    (entries : List Document.Entry) (h : Readable tree source entries)
    (hshort : (read tree source).2 ≠ .error .longHours) :
    ∃ cues, List.Forall₂ (fun e c => e.cue = .ok c) entries cues := by
  rcases hcues : entries.mapM Document.Entry.cue with fault | cues
  · refine absurd ((read_eq_longHours_iff tree source).mpr ?_) hshort
    rcases h with ⟨t, octets, u, htext, hblank, hoctets, hdecode, hentries⟩
    exact ⟨t, octets, u, htext, hblank, hoctets, hdecode, entries, hentries,
      ((Document.cues_eq_error_iff entries fault).mp hcues).2⟩
  · exact ⟨cues, (mapM_eq_ok_iff _ _ _).mp hcues⟩

-- Reading notes nothing but how much was read.
theorem level_of_mem_read (tree : FileTree) (source : Reference) :
    ∀ n ∈ (read tree source).1, n.level = .info := by
  intro n hn
  rw [read] at hn
  split at hn
  · exact absurd hn List.not_mem_nil
  · rw [List.mem_singleton.mp hn]
    rfl

/-- Of a source that can be shown if it has to be, those are unusable that are
    neither a text nor a path, and those that are blank. -/
theorem unusable_iff (tree : FileTree) (source : Reference)
    (h : (read tree source).2 ≠ .error .longNumber) :
    (∃ misuse, (read tree source).2 = .error (.unusable misuse)) ↔
      (∃ v, source = .value v ∧ NotText v) ∨
        ∃ t, source.text? = some t ∧ Text.isAllBlank t = true := by
  rw [read_eq_unusable_iff]
  rw [ne_eq, read_eq_longNumber_iff] at h
  refine or_congr_left (exists_congr fun v => ⟨fun hv => ⟨hv.1, hv.2.1⟩, fun hv => ?_⟩)
  refine ⟨hv.1, hv.2, ?_⟩
  by_contra hlong
  exact h ⟨v, hv.1, hv.2, Bool.eq_false_iff.mpr hlong⟩

end Source

namespace Timeline

/-- The first time of a cue that does not convert is this text, for this reason. -/
def Offends (cue : Cue) (t : Text) (reason : Timestamp.Reason) : Prop :=
  Timestamp.seconds t = .error ⟨t, reason⟩ ∧
    (cue.start = .text t ∨ (∃ start, Cue.time cue.start = .ok start) ∧ cue.finish = .text t)

theorem time_of_seconds (t : Text) (reason : Timestamp.Reason)
    (h : Timestamp.seconds t = .error ⟨t, reason⟩) :
    Cue.time (.text t) = .error (.malformed ⟨t, reason⟩) := by
  rw [Cue.time, h]

theorem failsWith_of_offends (cue : Cue) (t : Text) (reason : Timestamp.Reason)
    (h : Offends cue t reason) : FailsWith cue (.malformed ⟨t, reason⟩) := by
  have htime := time_of_seconds t reason h.1
  rcases h.2 with hstart | ⟨hstart, hfinish⟩
  · exact Or.inl (hstart ▸ htime)
  · exact Or.inr ⟨hstart, hfinish ▸ htime⟩

-- A time that is a text converts, or it is what is reported.
theorem time_cases (t : Text) :
    (∃ x, Cue.time (.text t) = .ok x) ∨ ∃ reason, Timestamp.seconds t = .error ⟨t, reason⟩ := by
  rcases hseconds : Timestamp.seconds t with m | x
  · refine Or.inr ⟨m.reason, ?_⟩
    have htimestamp := Timestamp.timestamp_of_seconds t m hseconds
    rcases m with ⟨timestamp, reason⟩
    rw [show timestamp = t from htimestamp]
  · exact Or.inl ⟨x, Cue.time_text t x hseconds⟩

/-- Of a cue whose times are texts, one offends unless both convert. -/
theorem exists_offends (cue : Cue) (s f : Text) (hs : cue.start = .text s)
    (hf : cue.finish = .text f) (h : ¬ Converts cue) : ∃ t reason, Offends cue t reason := by
  rcases time_cases s with hstart | ⟨reason, hreason⟩
  · rcases time_cases f with hfinish | ⟨reason, hreason⟩
    · exact absurd ⟨hs ▸ hstart, hf ▸ hfinish⟩ h
    · exact ⟨f, reason, hreason, Or.inr ⟨hs ▸ hstart, hf⟩⟩
  · exact ⟨s, reason, hreason, Or.inl hs⟩

/-- Cues with a time that does not convert make no timeline. The fault is that
    time, unless a number before it is too long. -/
theorem sequence_of_failsWith (style : Style) (pre post : List Cue) (bad : Cue)
    (fault : Cue.Fault) (hpre : ∀ cue ∈ pre, Converts cue) (hbad : FailsWith bad fault) :
    (sequence style (pre ++ bad :: post)).2 = .error fault ∨
      (sequence style (pre ++ bad :: post)).2 = .error .longNumber := by
  rcases exists_converted pre hpre with ⟨timed, rfl, hconv⟩
  rcases hevents : events style Binary64.zero (timed.map Prod.fst) with ⟨es, _ | found⟩
  · rcases admitted_of_events style _ Binary64.zero (by rw [hevents]) with
      ⟨other, hmap, hother, hadmitted⟩
    rw [converted_unique other timed hother hconv hmap] at hadmitted
    rw [sequence, events_failing style timed hconv hadmitted bad post fault hbad]
    exact Or.inl rfl
  · have hlong := (fault_of_converted style timed hconv Binary64.zero found (by rw [hevents])).1
    rw [sequence, events_fault_append style (bad :: post) _ _ es found hevents, hlong]
    exact Or.inr rfl

/-- Cues make a timeline in one style if they do in any, as long as there is no
    number that is too long: when their times are all well-formed. -/
theorem exists_sequence_iff (style : Style) (cues : List Cue)
    (hlong : (sequence style cues).2 ≠ .error .longNumber) :
    (∃ is, (sequence style cues).2 = .ok is) ↔ ∀ cue ∈ cues, Converts cue := by
  constructor
  · rintro ⟨is, his⟩ cue hcue
    rcases (sequence_eq_ok_iff style cues is).mp his with ⟨timed, rfl, hconv, -⟩
    rcases List.mem_map.mp hcue with ⟨t, ht, rfl⟩
    exact (converts_iff t.1).mpr ⟨t.2, hconv t ht⟩
  · intro h
    rcases exists_converted cues h with ⟨timed, rfl, hconv⟩
    rcases hseq : (sequence style (timed.map Prod.fst)).2 with fault | is
    · rw [(fault_of_sequence style timed hconv fault hseq).1] at hseq
      exact absurd hseq hlong
    · exact ⟨is, rfl⟩

/-- Whatever becomes of cues, details and a summary are all that is noted. -/
theorem level_of_mem_sequence (style : Style) (cues : List Cue) :
    ∀ n ∈ (sequence style cues).1, n.level = .debug ∨ n.level = .info := by
  intro n hn
  have hdetails := level_of_mem_events style n cues Binary64.zero
  rcases hevents : events style Binary64.zero cues with ⟨es, _ | fault⟩
  · rw [hevents] at hdetails
    rw [sequence, hevents] at hn
    rcases List.mem_append.mp hn with hn | hn
    · exact Or.inl (hdetails hn)
    · rw [List.mem_singleton.mp hn]
      exact Or.inr rfl
  · rw [hevents] at hdetails
    rw [sequence, hevents] at hn
    exact Or.inl (hdetails hn)

end Timeline

namespace Run

open Timeline (Converts Offends)
open Timestamp (Canonical)

/-- The errors among notices. -/
def errors (notes : List Notice) : List Notice := notes.filter fun n => n.level = .error

theorem errors_append (xs ys : List Notice) : errors (xs ++ ys) = errors xs ++ errors ys :=
  List.filter_append _ _

theorem errors_eq_nil (notes : List Notice)
    (h : ∀ n ∈ notes, n.level = .debug ∨ n.level = .info) : errors notes = [] := by
  rw [errors, List.filter_eq_nil_iff]
  intro n hn
  rw [decide_eq_true_eq]
  rcases h n hn with hlevel | hlevel <;> rw [hlevel] <;> decide

/-- Every stage of a run accepts a source: it can be read, and the times of its
    cues are well-formed. -/
def Accepted (tree : FileTree) (source : Source.Reference) : Prop :=
  ∃ entries, Source.Readable tree source entries ∧
    ∀ e ∈ entries, ∀ cue, e.cue = .ok cue → Converts cue

theorem errors_read (tree : FileTree) (source : Source.Reference) :
    errors (Source.read tree source).1 = [] :=
  errors_eq_nil _ fun n hn => Or.inr (Source.level_of_mem_read tree source n hn)

theorem errors_sequence (style : Style) (cues : List Cue) :
    errors (Timeline.sequence style cues).1 = [] :=
  errors_eq_nil _ (Timeline.level_of_mem_sequence style cues)

theorem errors_complete (is : List Instruction) : errors (complete is).1 = [] := by
  refine errors_eq_nil _ fun n hn => Or.inr ?_
  unfold complete at hn
  split at hn
  · exact absurd hn List.not_mem_nil
  split at hn
  · rw [List.mem_singleton.mp hn]
    rfl
  · rcases List.mem_cons.mp hn with rfl | hn
    · rfl
    · rw [previewNotice] at hn
      split at hn
      · exact absurd hn List.not_mem_nil
      · rw [List.mem_singleton.mp hn]
        rfl

theorem complete_eq_ok (is : List Instruction) (result : Result)
    (h : (complete is).2 = .ok result) : result = .completed is := by
  unfold complete at h
  split at h
  · exact absurd h (error_ne_ok _ _)
  split at h
  · exact absurd h (error_ne_ok _ _)
  · exact (Except.ok.inj h).symm

/-- How far a run with a result has come: its source is none, cannot be read,
    has a malformed time, or is made into a timeline. -/
theorem start_cases (tree : FileTree) (style : Style) (configured given : Source.Reference)
    (notes : List Notice) (result : Result)
    (h : start tree style configured given = (notes, .ok result)) :
    (∃ misuse, (Source.read tree (chosen configured given)).2 = .error (.unusable misuse) ∧
      result = .failed (some missingMessage) ∧ (errors notes).length = 1) ∨
    (∃ name cause,
      (Source.read tree (chosen configured given)).2 = .error (.unreadable name cause) ∧
      result = .failed (some failureMessage) ∧ (errors notes).length = 1) ∨
    (∃ cues m, (Source.read tree (chosen configured given)).2 = .ok cues ∧
      (Timeline.sequence style cues).2 = .error (.malformed m) ∧
      result = .failed (some failureMessage) ∧ errors notes = [.readFailed m.message]) ∨
    ∃ cues is, (Source.read tree (chosen configured given)).2 = .ok cues ∧
      (Timeline.sequence style cues).2 = .ok is ∧ result = .completed is ∧ errors notes = [] := by
  have hread := errors_read tree (chosen configured given)
  rcases hsource : Source.read tree (chosen configured given) with ⟨noted, fault | cues⟩
  · rw [hsource] at hread
    rw [start, ofSource, hsource, Prod.mk.injEq] at h
    rcases h with ⟨rfl, h⟩
    rw [errors_append, hread, List.nil_append]
    cases fault with
    | unusable misuse => exact Or.inl ⟨misuse, rfl, (Except.ok.inj h).symm, rfl⟩
    | unreadable name cause => exact Or.inr (Or.inl ⟨name, cause, rfl, (Except.ok.inj h).symm, rfl⟩)
    | longNumber => exact absurd h (error_ne_ok _ _)
    | unencodable torn => exact absurd h (error_ne_ok _ _)
    | nullCharacter => exact absurd h (error_ne_ok _ _)
    | longHours => exact absurd h (error_ne_ok _ _)
  · rw [hsource] at hread
    rw [start, ofSource, hsource, Prod.mk.injEq] at h
    rcases h with ⟨rfl, h⟩
    have hsequence := errors_sequence style cues
    rcases hseq : Timeline.sequence style cues with ⟨details, (m | _) | is⟩
    · rw [hseq] at hsequence
      simp only [ofCues_malformed style cues details m hseq] at h ⊢
      rw [errors_append, hread, errors_append, hsequence]
      exact Or.inr (Or.inr (Or.inl ⟨cues, m, rfl, by rw [hseq], (Except.ok.inj h).symm, rfl⟩))
    · rw [ofCues_longNumber style cues details hseq] at h
      exact absurd h (error_ne_ok _ _)
    · rw [hseq] at hsequence
      simp only [ofCues_sequenced style cues details is hseq] at h ⊢
      rw [errors_append, hread, errors_append, hsequence, errors_complete]
      exact Or.inr (Or.inr (Or.inr ⟨cues, is, rfl, by rw [hseq], complete_eq_ok is result h, rfl⟩))

theorem accepted_iff (tree : FileTree) (style : Style) (source : Source.Reference)
    (hshort : (Source.read tree source).2 ≠ .error .longHours)
    (hlong : ∀ cues, (Source.read tree source).2 = .ok cues →
      (Timeline.sequence style cues).2 ≠ .error .longNumber) :
    Accepted tree source ↔ ∃ cues, (Source.read tree source).2 = .ok cues ∧
      ∃ is, (Timeline.sequence style cues).2 = .ok is := by
  constructor
  · rintro ⟨entries, hreadable, hconv⟩
    rcases Source.exists_cues_of_readable tree source entries hreadable hshort with ⟨cues, hcues⟩
    have hread := (Source.read_eq_ok_iff_gives tree source cues).mpr ⟨entries, hreadable, hcues⟩
    exact ⟨cues, hread, (Timeline.exists_sequence_iff style cues (hlong cues hread)).mpr
      ((forall_ok_iff _ _ _ _ hcues).mp hconv)⟩
  · rintro ⟨cues, hread, his⟩
    rcases (Source.read_eq_ok_iff_gives tree source cues).mp hread with
      ⟨entries, hreadable, hcues⟩
    exact ⟨entries, hreadable, (forall_ok_iff _ _ _ _ hcues).mpr
      ((Timeline.exists_sequence_iff style cues (hlong cues hread)).mp his)⟩

-- A run with a result has come upon no number that is too long.
theorem short_of_start (tree : FileTree) (style : Style) (configured given : Source.Reference)
    (notes : List Notice) (result : Result)
    (h : start tree style configured given = (notes, .ok result)) :
    (Source.read tree (chosen configured given)).2 ≠ .error .longHours ∧
      ∀ cues, (Source.read tree (chosen configured given)).2 = .ok cues →
        (Timeline.sequence style cues).2 ≠ .error .longNumber := by
  rcases start_cases tree style configured given notes result h with
    ⟨_, hread, _⟩ | ⟨_, _, hread, _⟩ | ⟨cues, _, hread, hseq, _⟩ | ⟨cues, is, hread, hseq, _⟩
  all_goals rw [hread]
  · exact ⟨fun heq => (nomatch heq), fun _ heq => (nomatch heq)⟩
  · exact ⟨fun heq => (nomatch heq), fun _ heq => (nomatch heq)⟩
  · refine ⟨ok_ne_error _ _, fun other heq => ?_⟩
    rw [← Except.ok.inj heq, hseq]
    exact fun heq => (nomatch heq)
  · refine ⟨ok_ne_error _ _, fun other heq => ?_⟩
    rw [← Except.ok.inj heq, hseq]
    exact ok_ne_error _ _

/-- A run with a result is complete exactly when every stage accepts its
    source. -/
theorem completed_iff (tree : FileTree) (style : Style) (configured given : Source.Reference)
    (notes : List Notice) (result : Result)
    (h : start tree style configured given = (notes, .ok result)) :
    (∃ effects, result = .completed effects) ↔ Accepted tree (chosen configured given) := by
  rcases short_of_start tree style configured given notes result h with ⟨hshort, hlong⟩
  rw [accepted_iff tree style _ hshort hlong]
  rcases start_cases tree style configured given notes result h with
    ⟨_, hread, rfl, _⟩ | ⟨_, _, hread, rfl, _⟩ | ⟨cues, _, hread, hseq, rfl, _⟩ |
    ⟨cues, is, hread, hseq, rfl, _⟩
  · simp only [hread, reduceCtorEq, exists_false, false_and]
  · simp only [hread, reduceCtorEq, exists_false, false_and]
  · simp only [hread, hseq, reduceCtorEq, exists_false, Except.ok.injEq, exists_eq_left']
  · exact iff_of_true ⟨is, rfl⟩ ⟨cues, hread, is, hseq⟩

/-- A tree with a file whose last block is none. -/
def brokenTree : FileTree :=
  ⟨[], [(["talk.srt"], .file (Utf8.encode (Source.talk ++ "hello".toList)))]⟩

/-- The number of instructions that a result hands over, if it hands over any. -/
def Result.count : Result → Option Nat
  | .completed effects => some effects.length
  | .failed _ => none

/-- A time with many hours, all digits of which are the same. -/
def farTime (digit : Nat) (h : digit < 10) : Canonical :=
  { Canonical.ofTotal 0 with
    hours := List.replicate 310 digit
    hours_isDigits := fun d hd => (List.eq_of_mem_replicate hd).symm ▸ h
    hours_length := by
      rw [List.length_replicate]
      decide }

/-- The text of such a time that is beyond the doubles. -/
def farText : Text := (farTime 9 (by decide)).text

theorem seconds_farText : Timestamp.seconds farText
    = .error ⟨farText, .notFinite (List.replicate 310 '9')⟩ := by
  decide +kernel

/-- A cue that ends at it. -/
def farCue : Cue := ⟨.ofInt 2, .text "00:00:03,000", .text farText, "b"⟩

/-- What is wrong with it is its end. -/
theorem eq_of_offends_farCue (t : Text) (reason : Timestamp.Reason) (h : Offends farCue t reason) :
    t = farText ∧ reason = .notFinite (List.replicate 310 '9') := by
  rcases h with ⟨hseconds, hstart | ⟨-, hfinish⟩⟩
  · have hgood : (Timestamp.seconds "00:00:03,000").toBool = true := by decide +kernel
    rw [← Value.text.inj hstart] at hseconds
    rw [hseconds] at hgood
    exact absurd hgood Bool.false_ne_true
  · have ht : farText = t := Value.text.inj hfinish
    rw [← ht, seconds_farText, Except.error.injEq, Timestamp.Malformed.mk.injEq] at hseconds
    exact ⟨ht.symm, hseconds.2.symm⟩

theorem failsWith_farCue : Timeline.FailsWith farCue
    (.malformed ⟨farText, .notFinite (List.replicate 310 '9')⟩) :=
  Or.inr ⟨⟨Binary64.ofInt 3, by decide +kernel⟩, Timeline.time_of_seconds _ _ seconds_farText⟩

/-- Cues of which it is the second, and the third has such times too. -/
def farCues : List Cue :=
  [⟨.ofInt 1, .text "00:00:01,000", .text "00:00:02,000", "a"⟩, farCue,
    ⟨.ofInt 3, .text (farTime 8 (by decide)).text, .text (farTime 8 (by decide)).text, "c"⟩]

/-- A tree with a file of these cues. -/
def farTree : FileTree := ⟨[], [(["far.srt"], .file (Utf8.encode (Document.render farCues)))]⟩

theorem plainTime_farTime (digit : Nat) (h : digit < 10) (hne : digit ≠ 0) :
    Document.PlainTime (.text (farTime digit h).text) := by
  refine ⟨farTime digit h, Or.inr ?_, ?_, rfl⟩
  · exact fun hhead => hne (Option.some.inj hhead)
  · exact Nat.le_trans (Nat.le_of_eq List.length_replicate) (by decide)

theorem writable_farCues : ∀ c ∈ farCues, Document.Writable c := by
  have hplain : ∀ ms, Document.PlainTime (.text (Canonical.ofTotal ms).text) := fun ms =>
    ⟨.ofTotal ms, Or.inl rfl, show 2 ≤ Numeral.digitLimit by decide, rfl⟩
  simp only [farCues, farCue, farText, List.forall_mem_cons]
  refine ⟨⟨⟨1, by with_unfolding_all decide, rfl⟩, hplain 1000, hplain 2000, ["a"], by decide, rfl⟩,
    ⟨⟨2, by with_unfolding_all decide, rfl⟩, hplain 3000, plainTime_farTime 9 _ (by decide),
      ["b"], by decide, rfl⟩,
    ⟨⟨3, by with_unfolding_all decide, rfl⟩, plainTime_farTime 8 _ (by decide),
      plainTime_farTime 8 _ (by decide), ["c"], by decide, rfl⟩,
    fun c hc => absurd hc List.not_mem_nil⟩

theorem read_farTree : (Source.read farTree (Value.text "far.srt")).2 = .ok farCues := by
  rw [Source.read_encode farTree (.text "far.srt") _ (Document.render farCues) rfl rfl,
    Document.parse_eq_ok_iff, Document.unmarked_render farCues writable_farCues]
  exact Document.reads_render farCues writable_farCues

theorem converts_before_farCue : ∀ cue ∈ farCues.take 1, Converts cue := by
  intro cue hcue
  rw [List.mem_singleton.mp hcue, Timeline.converts_iff]
  exact ⟨⟨Binary64.ofInt 1, Binary64.ofInt 2⟩, by decide +kernel⟩

theorem start_farTree : ∃ notes, start farTree Style.standard Value.null (Value.text "far.srt")
    = (notes, .ok (.failed (some failureMessage))) := by
  have hfails := Timeline.sequence_of_failsWith Style.standard (farCues.take 1) (farCues.drop 2)
    farCue _ converts_before_farCue failsWith_farCue
  have hshort := Timeline.sequence_of_isWritable Style.standard farCues Style.isWritable_standard
    (by decide +kernel)
  have hsequence := hfails.resolve_right hshort
  rcases hseq : Timeline.sequence Style.standard farCues with ⟨details, fault | is⟩
  · have hfault : (Timeline.sequence Style.standard farCues).2 = .error fault := by rw [hseq]
    rw [Except.error.inj (hfault.symm.trans hsequence)] at hseq
    rw [start_of_read farTree _ Value.null (Value.text "far.srt") _ farCues
      (Prod.ext rfl read_farTree), ofCues_malformed _ farCues details _ hseq]
    exact ⟨_, rfl⟩
  · have hmade : (Timeline.sequence Style.standard farCues).2 = .ok is := by rw [hseq]
    exact absurd (hmade.symm.trans hsequence) (ok_ne_error _ _)

end Run

end Captions
