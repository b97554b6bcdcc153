import Captions.Proofs.CommandLine.Failing
import Captions.Proofs.CommandLine.Playing
import Captions.Proofs.Instruction.Unsigned
import Captions.Proofs.Player.Waits
import Captions.Proofs.Run.Outcome
import Captions.Proofs.Run.Writable

/-!
# How the Program Ends

Whether the program ends with an exit code, whatever its configuration holds.

A configuration is taken as it stands, and a value of the wrong kind is found
where it is used. Nothing catches that: the program then breaks off, even in the
stages that have a failure of their own to report. So the question is which
values are used, and that depends on the way in which the result is handed over
and on what there is to hand over.

The log needs a level that is a text, unless the arguments give one, and a file
that is a text, unless none is named. Playing needs a rate that is a number, and
one that is not above zero is refused in words, so it must be short enough to be
written. At a rate above zero the waits need a length that the system does not
refuse. A preview looks at its limit and at the times only for what it lists, and
the limit has to be a number then. The result as JSON needs a width that can be
written. Nothing else can go wrong once the run has a result and the files can be
had: `run_ends_iff`.

## Main definitions

* `CanWrite`: The file for the result can be written.
* `ChecksSpeed`: The check of the rate comes to an answer.
* `Deliverable`: Instructions can be handed over as the arguments say.

## Theorems

* `printPreview_ends_iff`, `deliverJson_ends_iff`: Ways of handing over a result.
* `proceed_ends_iff`: The program once the log is set up.
* `run_ends_iff`: When the program ends with an exit code.
* `not_always_orderly`: A configuration may break it off.
-/

namespace Captions

namespace CommandLine

open Instruction (delays shownCount)

/-! ### Previewing -/

/-- Every block within a limit ends at a finite time. -/
def EndsWithin (limit : Number) (is : List Instruction) : Prop :=
  ∀ before b after, is = before ++ .showText b :: after →
    limit.isAtMost (shownCount before : Int) = false →
    ∃ now later, Instruction.clockAfter Binary64.zero before = .ok now ∧
      Instruction.advance now b.duration = .ok later ∧ later.isFinite = true

theorem endsWithin_of_none (limit : Number) (is : List Instruction) (h : shownCount is = 0) :
    EndsWithin limit is := by
  rintro before b after rfl _
  rw [Instruction.shownCount_append, shownCount] at h
  exact absurd h (Nat.succ_ne_zero _)

theorem printPreview_ends_iff (s : Session) (limit : Value) (is : List Instruction)
    (his : Instruction.Unsigned is) :
    (printPreview s limit is).2.IsOrderly ↔
      shownCount is = 0 ∨ ∃ n, limit.number? = some n ∧ EndsWithin n is := by
  rw [printPreview]
  rcases limit.number? with _ | n
  · simp only [reduceCtorEq, false_and, exists_false, or_false]
    by_cases hnone : shownCount is = 0
    · rw [if_pos hnone]
      exact iff_of_true (Or.inl rfl) hnone
    · rw [if_neg hnone]
      exact iff_of_false (not_isOrderly_failed _) hnone
  · simp only [Option.some.injEq, exists_eq_left']
    rw [or_iff_right_of_imp (endsWithin_of_none n is), EndsWithin,
      ← Instruction.preview_unsigned_iff n is his]
    rcases Instruction.preview n is with fault | t
    · exact iff_of_false (not_isOrderly_failed _) fun ⟨_, h⟩ => error_ne_ok _ _ h
    · exact iff_of_true (Or.inl rfl) ⟨t, rfl⟩

/-! ### Writing -/

/-- The file for the result can be written, if there is one, with the folders
    above it. -/
def CanWrite (tree : FileTree) (output : Option FilePath) : Prop :=
  ∀ p, output = some p → ∃ made written,
    tree.makeFolders p.parent = .ok made ∧ made.write p [] = .ok written

/-- What can be written in a tree can be in every tree of its shape. -/
theorem canWrite_of_sameShape (tree tree' : FileTree) (output : Option FilePath)
    (hshape : tree.SameShape tree') (h : CanWrite tree output) : CanWrite tree' output := by
  intro p hp
  rcases h p hp with ⟨made, written, hmade, hwritten⟩
  rcases FileTree.makeFolders_of_sameShape tree tree' made p.parent hshape hmade with
    ⟨made', hmade', hsame⟩
  rcases FileTree.write_of_sameShape made made' written p [] [] hsame hwritten with
    ⟨written', hwritten'⟩
  exact ⟨made', written', hmade', hwritten'⟩

theorem deliverJson_ends_iff (s : Session) (output : Option FilePath) (result : Value)
    (h : CanWrite s.tree output) :
    (deliverJson s output result).2.IsOrderly ↔ Json.fault? result = none := by
  unfold deliverJson
  rcases Json.fault? result with _ | fault
  · refine iff_of_true ?_ rfl
    rcases output with _ | p
    · exact Or.inl rfl
    · rcases h p rfl with ⟨made, written, hmade, hwritten⟩
      rcases FileTree.write_of_sameShape made made written p []
        (Utf8.encode (Json.render result ++ "\n")) (FileTree.sameShape_refl made) hwritten with
        ⟨written', hwritten'⟩
      simp only [writeResult, hmade, Session.act, hwritten']
      exact Or.inl rfl
  · exact iff_of_false (not_isOrderly_failed _) (Option.some_ne_none fault)

/-! ### Handing over -/

/-- The check of the rate comes to an answer: there is nothing to check, or the
    rate is a number that is above zero or can be written. -/
def ChecksSpeed (a : Arguments) (settings : Settings) : Prop :=
  a.play = true → ∃ x, settings.playback.speed.number? = some x ∧
    (x.isAbove 0 = true ∨ settings.playback.speed.isWritable = true)

/-- Instructions can be handed over as the arguments say. -/
structure Deliverable (sleeper : Sleeper) (a : Arguments) (settings : Settings)
    (is : List Instruction) : Prop where
  /-- At a rate above zero they can be played. -/
  played : a.play = true → ∀ x, settings.playback.speed.number? = some x → x.isAbove 0 = true →
    CanWait sleeper x (delays is)
  /-- They can be previewed. -/
  previewed : a.play = false → a.preview = true → shownCount is = 0 ∨
    ∃ n, settings.playback.previewEntries.number? = some n ∧ EndsWithin n is
  /-- They can be written. -/
  written : a.play = false → a.preview = false →
    shownCount is = 0 ∨ Json.fault? settings.style.resolved.containerWidth = none

theorem deliver_ends_iff (s : Session) (sleeper : Sleeper) (a : Arguments)
    (settings : Settings) (cues : List Cue) (is : List Instruction)
    (hseq : (Timeline.sequence settings.style cues).2 = .ok is)
    (hspeed : checkSpeed a settings = .ok true) (hwrite : CanWrite s.tree a.output) :
    (deliver s sleeper a settings is).2.IsOrderly ↔ Deliverable sleeper a settings is := by
  unfold deliver
  rcases hplay : a.play with _ | _
  · rw [if_neg Bool.false_ne_true]
    rcases hpreview : a.preview with _ | _
    · rw [if_neg Bool.false_ne_true, deliverJson_ends_iff s a.output _ hwrite,
        Run.fault?_completed settings.style cues is hseq, ite_eq_left_iff, ← or_iff_not_imp_left]
      refine ⟨fun h => ⟨?_, ?_, fun _ _ => h⟩, fun h => h.written hplay hpreview⟩
      · rw [hplay]
        exact fun h => absurd h Bool.false_ne_true
      · rw [hpreview]
        exact fun _ h => absurd h Bool.false_ne_true
    · have hunsigned := Timeline.unsigned_sequence settings.style cues is hseq
      rw [if_pos rfl, printPreview_ends_iff s _ is hunsigned]
      refine ⟨fun h => ⟨?_, fun _ _ => h, ?_⟩, fun h => h.previewed hplay hpreview⟩
      · rw [hplay]
        exact fun h => absurd h Bool.false_ne_true
      · rw [hpreview]
        exact fun _ h => absurd h.symm Bool.false_ne_true
  · rw [if_pos rfl]
    rcases (Player.checkSpeed_eq_ok_iff a settings hplay).mp hspeed with ⟨x, hrate, hnan⟩
    rcases (Player.rate_eq_ok_iff _ x).mp hrate with ⟨hnumber, hopen⟩
    have habove := (Number.isAbove_iff x 0).mpr ⟨hopen, hnan⟩
    rw [hrate, play_ends_iff s sleeper x is]
    refine ⟨fun h => ⟨fun _ y hy _ => ?_, ?_, ?_⟩, fun h => h.played hplay x hnumber habove⟩
    · rwa [← Option.some.inj (hnumber.symm.trans hy)]
    · rw [hplay]
      exact fun h => absurd h.symm Bool.false_ne_true
    · rw [hplay]
      exact fun h => absurd h.symm Bool.false_ne_true

theorem refuseSpeed_ends_iff (s : Session) (speed : Value) :
    (refuseSpeed s speed).2.IsOrderly ↔ speed.isWritable = true := by
  rw [refuseSpeed]
  by_cases hwritable : speed.isWritable = true
  · rw [if_pos hwritable]
    exact iff_of_true (Or.inr (Or.inl rfl)) hwritable
  · rw [if_neg hwritable]
    exact iff_of_false (not_isOrderly_failed _) hwritable

theorem checksSpeed_of_ok (a : Arguments) (settings : Settings)
    (h : checkSpeed a settings = .ok true) : ChecksSpeed a settings := by
  intro hplay
  rcases (Player.checkSpeed_eq_ok_iff a settings hplay).mp h with ⟨x, hrate, hnan⟩
  rcases (Player.rate_eq_ok_iff _ x).mp hrate with ⟨hnumber, hopen⟩
  exact ⟨x, hnumber, Or.inl ((Number.isAbove_iff x 0).mpr ⟨hopen, hnan⟩)⟩

theorem not_checksSpeed_of_error (a : Arguments) (settings : Settings) (f : Failure)
    (h : checkSpeed a settings = .error f) : ¬ ChecksSpeed a settings := by
  unfold checkSpeed at h
  split at h
  · rename_i hplay
    split at h
    · exact absurd h (ok_ne_error _ _)
    · rename_i hnone
      intro hchecks
      rcases hchecks hplay with ⟨x, hx, _⟩
      exact absurd (hx.symm.trans hnone) (Option.some_ne_none x)
  · exact absurd h (ok_ne_error _ _)

/-- A rate that is refused has to be written, and then there is nothing to hand
    over. -/
theorem refusesSpeed_iff (sleeper : Sleeper) (a : Arguments) (settings : Settings)
    (h : RefusesSpeed a settings) :
    (ChecksSpeed a settings ↔ settings.playback.speed.isWritable = true) ∧
      ∀ is, Deliverable sleeper a settings is := by
  rcases h with ⟨hplay, x, hx, hrefused⟩
  have hnot : ∀ y, settings.playback.speed.number? = some y → ¬ y.isAbove 0 = true := by
    intro y hy
    rw [← Option.some.inj (hx.symm.trans hy), hrefused]
    exact Bool.false_ne_true
  have hplays : ¬ a.play = false := hplay ▸ Bool.noConfusion
  refine ⟨⟨fun hchecks => ?_, fun hwritable _ => ⟨x, hx, Or.inr hwritable⟩⟩, fun is =>
    ⟨fun _ y hy habove => absurd habove (hnot y hy), fun hno => absurd hno hplays,
      fun hno => absurd hno hplays⟩⟩
  rcases hchecks hplay with ⟨y, hy, habove | hwritable⟩
  · exact absurd habove (hnot y hy)
  · exact hwritable

theorem process_ends_iff (s : Session) (sleeper : Sleeper) (a : Arguments)
    (settings : Settings) (result : Run.Result)
    (hresult : (Run.start s.tree settings.style settings.subtitleFile (.value .null)).2
      = .ok result)
    (hspeed : checkSpeed a settings = .ok true)
    (hlog : ∀ p, s.log.bind Log.file = some p →
      ∃ place content, s.tree.find p = .ok (.file place content))
    (hwrite : CanWrite s.tree a.output) :
    (process s sleeper a settings).2.IsOrderly ↔
      ∀ is, result = .completed is → Deliverable sleeper a settings is := by
  rcases hrun : Run.start s.tree settings.style settings.subtitleFile (.value .null) with
    ⟨notes, outcome⟩
  rw [hrun] at hresult
  subst hresult
  rcases process_cases s sleeper a settings notes _ hrun with
    ⟨i, hi, _⟩ | ⟨message, hfailed, hprocess⟩ | ⟨is, hcompleted, hprocess⟩
  · exact absurd hi (ok_ne_error _ _)
  · rw [hprocess, Except.ok.inj hfailed]
    exact iff_of_true (Or.inr (Or.inl rfl)) fun is h => Run.Result.noConfusion h
  · rw [hprocess, Except.ok.inj hcompleted]
    rw [hcompleted] at hrun
    rcases Run.start_cases _ _ _ _ _ _ hrun with
      ⟨_, _, hno, _⟩ | ⟨_, _, _, hno, _⟩ | ⟨_, _, _, _, hno, _⟩ | ⟨cues, made, _, hseq, heq, _⟩
    any_goals exact Run.Result.noConfusion hno
    -- The log has grown since the run began, which changes nothing for the result.
    have hshape := FileTree.sameShape_of_grows _ _ _ (logged_noteAll notes s).tree hlog
    rw [← Run.Result.completed.inj heq] at hseq
    rw [deliver_ends_iff _ sleeper a settings cues is hseq hspeed
      (canWrite_of_sameShape _ _ _ hshape hwrite)]
    exact ⟨fun h _ heq => Run.Result.completed.inj heq ▸ h, fun h => h is rfl⟩

/-- The program once the log is set up, if its run has a result. -/
theorem proceed_ends_iff (s : Session) (sleeper : Sleeper) (a : Arguments)
    (settings : Settings) (result : Run.Result)
    (hresult : (Run.start s.tree settings.style settings.subtitleFile (.value .null)).2
      = .ok result)
    (hlog : ∀ p, s.log.bind Log.file = some p →
      ∃ place content, s.tree.find p = .ok (.file place content))
    (hwrite : CanWrite s.tree a.output) :
    (proceed s sleeper a settings).2.IsOrderly ↔
      ChecksSpeed a settings ∧
        ∀ is, result = .completed is → Deliverable sleeper a settings is := by
  rw [proceed]
  rcases hcheck : checkSpeed a settings with f | _ | _
  · exact iff_of_false (not_isOrderly_failed f)
      fun h => not_checksSpeed_of_error a settings f hcheck h.1
  · rcases refusesSpeed_iff sleeper a settings
      ((checkSpeed_eq_false_iff a settings).mp hcheck) with ⟨hchecks, hall⟩
    simp only []
    rw [refuseSpeed_ends_iff, hchecks, and_iff_left fun is _ => hall is]
  · simp only []
    rw [process_ends_iff s sleeper a settings result hresult hcheck hlog hwrite,
      and_iff_right (checksSpeed_of_ok a settings hcheck)]

/-- When the program ends with an exit code: of a success, a failure or an
    interruption. All it takes, once the files can be had and the run has a
    result, is that the values that are used are of the right kind and not too
    long, and that the system does not refuse a wait. -/
theorem run_ends_iff (tree : FileTree) (sleeper : Sleeper) (words : List Text) (a : Arguments)
    (notes : List Notice) (loaded settings : Settings) (opened : FileTree) (result : Run.Result)
    (hparse : parse words = .ok a) (hdescribe : a.describe = false)
    (hload : Settings.load tree a.config = (notes, .ok loaded))
    (hsettings : settings = loaded.override a.overrides)
    (hopens : Opens tree (logPath? settings.logging.file) opened)
    (hresult : (Run.start opened settings.style settings.subtitleFile (.value .null)).2
      = .ok result)
    (hwrite : CanWrite opened a.output) :
    (run tree sleeper words).2.IsOrderly ↔
      NamesLog settings.logging.file ∧ NamesLevel (levelOf a settings) ∧
        ChecksSpeed a settings ∧
        ∀ is, result = .completed is → Deliverable sleeper a settings is := by
  rcases run_cases tree sleeper words a hparse hdescribe with
    ⟨_, _, hfault, _⟩ | ⟨_, _, _, hload', rfl, hlog⟩
  · exact absurd (congrArg Prod.snd (hload.symm.trans hfault)) (ok_ne_error _ _)
  rw [hload, Prod.mk.injEq, Except.ok.injEq] at hload'
  rcases hload' with ⟨rfl, rfl⟩
  rw [← hsettings] at hlog
  have hfresh := (logged_fresh tree notes).1
  rcases hlog with ⟨s, f, hfails, hrun⟩ | ⟨s, hlog, hrun⟩
  · rw [hrun]
    refine iff_of_false (not_isOrderly_failed f) ?_
    rintro ⟨hfile, ⟨name, hname, hreserved⟩, _⟩
    have hok := (setUpLog_eq_ok_iff _ _ _ _).mpr
      ⟨hfile, name, opened, hname, hreserved, hfresh.symm ▸ hopens, rfl⟩
    exact absurd (hfails.symm.trans hok) (error_ne_ok _ _)
  · rcases (setUpLog_eq_ok_iff _ s _ _).mp hlog with
      ⟨hfile, name, other, hname, hreserved, hother, heq⟩
    rw [hfresh] at hother
    rw [opens_unique tree _ opened other hopens hother] at heq
    have htree : s.tree = opened := by rw [heq]; rfl
    have hpath : s.log.bind Log.file = logPath? settings.logging.file := by rw [heq]; rfl
    rw [← htree] at hresult hwrite
    have hended := proceed_ends_iff s sleeper a settings result hresult
      (fun p hp => htree ▸ find_of_opens tree _ opened hopens p (hpath.symm.trans hp)) hwrite
    have hlevel : NamesLevel (levelOf a settings) := ⟨name, hname, hreserved⟩
    rw [hrun, hended, and_iff_right hfile, and_iff_right hlevel]

theorem canWrite_of_toBool (tree : FileTree) (p : FilePath)
    (h : (tree.makeFolders p.parent).toOption.map (fun made => (made.write p []).toBool)
      = some true) : CanWrite tree (some p) := by
  rintro _ ⟨⟩
  rcases exists_of_toOption_map _ _ _ h with ⟨made, hmade, hwritten⟩
  rcases exists_of_toBool _ hwritten with ⟨written, hwritten⟩
  exact ⟨made, written, hmade, hwritten⟩

/-- A folder with subtitles and a configuration of this text. -/
def configured (config : Text) : FileTree where
  here := ["work"]
  entries :=
    [ (["work", "config.yaml"], .file (Utf8.encode config)),
      (["work", "talk.srt"], .file (Utf8.encode "1\n00:00:01,000 --> 00:00:02,000\nHello\n")) ]

/-- What a run in such a folder comes to, once the configuration is loaded. -/
def outcomeOf (config : Text) (a : Arguments) (loaded : Settings) :
    Except Run.Interruption Run.Result :=
  (Run.start (configured config) (loaded.override a.overrides).style
    (loaded.override a.overrides).subtitleFile (.value .null)).2

/-- A configuration whose values are mostly of the wrong kind. -/
def oddConfig : Text :=
  "logging:\n  level:\n  file: 0\nplayback:\n  speed: fast\n  preview_entries:\nstyle:\n"

/-- Arguments for a run that has no use for them. -/
def careful : Arguments where
  overrides := { subtitleFile := .ofString "talk.srt" }
  output := some (FilePath.ofText "out/effects.json")
  config := some (FilePath.ofText "config.yaml")
  verbose := true

/-- Their words. -/
def carefulWords : List Text :=
  ["talk.srt", "--config", "config.yaml", "-v", "-o", "out/effects.json"]

-- A level, a rate and a limit that are none do no harm where they are not used.
theorem run_ends_iff_odd :
    parse carefulWords = .ok careful ∧
      (∃ notes loaded, Settings.load (configured oddConfig) careful.config = (notes, .ok loaded) ∧
        loaded.logging.level.isSet = false ∧ loaded.playback.speed.number? = none ∧
        loaded.playback.previewEntries.number? = none) ∧
      ∀ sleeper, (run (configured oddConfig) sleeper carefulWords).2.IsOrderly := by
  have hparse : parse carefulWords = .ok careful := by with_unfolding_all rfl
  rcases hload : Settings.load (configured oddConfig) careful.config with ⟨notes, x⟩
  have hfacts : x.toOption.map (fun loaded =>
      (loaded.logging.level.isSet, loaded.playback.speed.number?,
        loaded.playback.previewEntries.number?, loaded.logging.file.isSet,
        (Json.fault? loaded.style.resolved.containerWidth).isNone,
        (outcomeOf oddConfig careful loaded).toBool))
      = some (false, none, none, false, true, true) := by
    rw [show x = (Settings.load (configured oddConfig) careful.config).2 by rw [hload]]
    decide +kernel
  rcases exists_of_toOption_map x _ _ hfacts with ⟨loaded, rfl, hvalues⟩
  simp only [Prod.mk.injEq] at hvalues
  rcases hvalues with ⟨hlevel, hspeed, hentries, hfile, hwidth, houtcome⟩
  rcases exists_of_toBool _ houtcome with ⟨result, hresult⟩
  refine ⟨hparse, ⟨notes, loaded, rfl, hlevel, hspeed, hentries⟩, fun sleeper => ?_⟩
  have hopens : Opens (configured oddConfig) (logPath? loaded.logging.file)
      (configured oddConfig) := by
    rw [logPath?_of_open _ hfile]
    rfl
  have hwrite : CanWrite (configured oddConfig) careful.output :=
    canWrite_of_toBool _ _ (by decide +kernel)
  refine (run_ends_iff _ sleeper _ careful notes loaded _ _ result hparse rfl hload rfl hopens
    hresult hwrite).mpr ⟨fun hset => ?_, ⟨_, rfl, by decide +kernel⟩, ?_, ?_⟩
  · exact absurd (hfile.symm.trans hset) Bool.false_ne_true
  · exact fun hplay => absurd hplay Bool.false_ne_true
  · refine fun is _ => ⟨fun hplay => ?_, fun _ hpreview => ?_, fun _ _ => Or.inr ?_⟩
    · exact absurd hplay Bool.false_ne_true
    · exact absurd hpreview Bool.false_ne_true
    · exact Option.isNone_iff_eq_none.mp hwidth

/-- A configuration that leaves the rate of playback open. -/
def openRate : Text := "playback:\n  speed:\n"

/-- Arguments for playing. -/
def playing : Arguments where
  overrides := { subtitleFile := .ofString "talk.srt" }
  config := some (FilePath.ofText "config.yaml")
  play := true

/-- Their words. -/
def playingWords : List Text := ["talk.srt", "--play", "--config", "config.yaml"]

/-- A configuration may break the program off where it has no exit code, with a
    rate that is left open. -/
theorem not_always_orderly :
    ¬ ∀ (tree : FileTree) (words : List Text) (a : Arguments) (notes : List Notice)
      (loaded settings : Settings) (opened : FileTree) (result : Run.Result),
      parse words = .ok a → a.describe = false →
        Settings.load tree a.config = (notes, .ok loaded) →
        settings = loaded.override a.overrides →
        Opens tree (logPath? settings.logging.file) opened →
        (Run.start opened settings.style settings.subtitleFile (.value .null)).2 = .ok result →
        CanWrite opened a.output → (run tree (.system none) words).2.IsOrderly := by
  intro h
  rcases hload : Settings.load (configured openRate) playing.config with ⟨notes, x⟩
  have hfacts : x.toOption.map (fun loaded =>
      (loaded.logging.file.isSet, (outcomeOf openRate playing loaded).toBool))
      = some (false, true) := by
    rw [show x = (Settings.load (configured openRate) playing.config).2 by rw [hload]]
    decide +kernel
  rcases exists_of_toOption_map x _ _ hfacts with ⟨loaded, rfl, hvalues⟩
  rw [Prod.mk.injEq] at hvalues
  rcases exists_of_toBool _ hvalues.2 with ⟨result, hresult⟩
  have hopens : Opens (configured openRate) (logPath? loaded.logging.file)
      (configured openRate) := by
    rw [logPath?_of_open _ hvalues.1]
    rfl
  have horderly := h _ playingWords playing notes loaded _ _ result (by with_unfolding_all rfl) rfl
    hload rfl hopens hresult (fun _ hno => absurd hno.symm (Option.some_ne_none _))
  have hcode : (run (configured openRate) (.system none) playingWords).2.code? = none := by
    decide +kernel
  rcases horderly with hexit | hexit | hexit <;> rw [hexit] at hcode <;>
    exact absurd hcode (Option.some_ne_none _)

end CommandLine

end Captions
