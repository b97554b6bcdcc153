import Captions.Proofs.CommandLine.Logged

/-!
# Runs That Fail

What a run of the program that fails leaves behind.

The program fails with the exit code one, and only for two reasons: the rate of
playback is refused, or the run has a message for the user in place of a result.
Both are found before anything is handed over, however far into the file the
cause is, since a run makes all of its instructions before the first is used.
The user may interrupt at any time, and then another code takes the place of the
one for a failure. So the reasons are reasons for a program that is not
interrupted, and what is left behind is the same either way.

By then the program has said something on the error output, and it may have made
or extended the log file. Everything else is as it was. The file for the result
is no exception, nor are the folders above it, unless that file is the log file
itself.

## Main definitions

* `RefusesSpeed`: The rate of playback is refused.

## Theorems

* `deliver_exit`: Handing over a result is no failure.
* `proceed_exits`: The reasons for each exit code.
* `run_exits`: When the program fails, and what it leaves behind then.
* `not_output_untouched`: The log file may be the file for the result.
-/

namespace Captions

namespace CommandLine

/-- The instructions are to be played, at a rate that is a number and not above
    zero. Not-a-number is not above zero. -/
def RefusesSpeed (a : Arguments) (settings : Settings) : Prop :=
  a.play = true ∧ ∃ x, settings.playback.speed.number? = some x ∧ x.isAbove 0 = false

theorem checkSpeed_eq_false_iff (a : Arguments) (settings : Settings) :
    checkSpeed a settings = .ok false ↔ RefusesSpeed a settings := by
  unfold checkSpeed RefusesSpeed
  rcases a.play with _ | _
  · simp only [Bool.false_eq_true, if_false, Except.ok.injEq, false_and, reduceCtorEq]
  · rcases settings.playback.speed.number? with _ | x
    · simp only [if_true, reduceCtorEq, false_and, exists_false, and_false]
    · simp only [if_true, Except.ok.injEq, Option.some.injEq, exists_eq_left', true_and]

/-! ### Exit codes -/

theorem play_exit (s : Session) (sleeper : Sleeper) (rate : Number) (is : List Instruction)
    (code : Nat) (h : (play s sleeper rate is).2 = .exit code) : code = 0 ∨ code = 130 := by
  unfold play at h
  simp only [] at h
  split at h
  · exact Or.inr (Ending.exit.inj h).symm
  · exact Ending.noConfusion h
  · split at h
    · exact Or.inl (Ending.exit.inj h).symm
    · exact Ending.noConfusion h

theorem printPreview_exit (s : Session) (limit : Value) (is : List Instruction) (code : Nat)
    (h : (printPreview s limit is).2 = .exit code) : code = 0 := by
  unfold printPreview at h
  split at h <;> split at h <;> first
    | exact (Ending.exit.inj h).symm
    | exact Ending.noConfusion h

theorem writeResult_exit (s : Session) (p : FilePath) (payload : Text) (code : Nat)
    (h : (writeResult s p payload).2 = .exit code) : code = 0 := by
  unfold writeResult at h
  split at h
  · exact Ending.noConfusion h
  · simp only [] at h
    split at h
    · exact Ending.noConfusion h
    · exact (Ending.exit.inj h).symm

theorem deliverJson_exit (s : Session) (output : Option FilePath) (result : Value) (code : Nat)
    (h : (deliverJson s output result).2 = .exit code) : code = 0 := by
  unfold deliverJson at h
  split at h
  · exact Ending.noConfusion h
  · split at h
    · exact writeResult_exit s _ _ code h
    · exact (Ending.exit.inj h).symm

/-- Handing over a result is no failure. -/
theorem deliver_exit (s : Session) (sleeper : Sleeper) (a : Arguments) (settings : Settings)
    (is : List Instruction) (code : Nat) (h : (deliver s sleeper a settings is).2 = .exit code) :
    code = 0 ∨ code = 130 := by
  unfold deliver at h
  split at h
  · split at h
    · exact play_exit s sleeper _ is code h
    · exact Ending.noConfusion h
  · split at h
    · exact Or.inl (printPreview_exit s _ is code h)
    · exact Or.inl (deliverJson_exit s _ _ code h)

/-- The reasons for each exit code. The code for a failure comes with messages
    only. -/
theorem proceed_exits (s : Session) (sleeper : Sleeper) (a : Arguments) (settings : Settings)
    (code : Nat) (h : (proceed s sleeper a settings).2 = .exit code) :
    code = 1 ∧ Logged s (proceed s sleeper a settings).1 ∧
      (RefusesSpeed a settings ∨
        ∃ message, (Run.start s.tree settings.style settings.subtitleFile (.value .null)).2
          = .ok (.failed message)) ∨
    code ≠ 1 ∧ ¬ RefusesSpeed a settings ∧
      ∃ is, (Run.start s.tree settings.style settings.subtitleFile (.value .null)).2
        = .ok (.completed is) := by
  rw [← checkSpeed_eq_false_iff]
  rcases hcheck : checkSpeed a settings with f | _ | _
  · rw [proceed, hcheck] at h
    exact Ending.noConfusion h
  · have hproceed : proceed s sleeper a settings = refuseSpeed s settings.playback.speed := by
      rw [proceed, hcheck]
    rw [hproceed] at h ⊢
    unfold refuseSpeed at h ⊢
    split at h
    · rename_i hwritable
      rw [if_pos hwritable]
      exact Or.inl ⟨(Ending.exit.inj h).symm, logged_act s _ trivial, Or.inl rfl⟩
    · exact Ending.noConfusion h
  · have hproceed : proceed s sleeper a settings = process s sleeper a settings := by
      rw [proceed, hcheck]
    rw [hproceed] at h ⊢
    rcases hrun : Run.start s.tree settings.style settings.subtitleFile (.value .null) with
      ⟨notes, result⟩
    rcases process_cases s sleeper a settings notes result hrun with
      ⟨i, _, hprocess⟩ | ⟨message, hresult, hprocess⟩ | ⟨is, hresult, hprocess⟩ <;>
      rw [hprocess] at h ⊢
    · exact Ending.noConfusion h
    · exact Or.inl ⟨(Ending.exit.inj h).symm,
        logged_trans s _ _ (logged_noteAll notes s) (logged_act _ _ trivial),
        Or.inr ⟨message, hresult⟩⟩
    · refine Or.inr ⟨?_, fun hfalse => Bool.noConfusion (Except.ok.inj hfalse), is, hresult⟩
      rcases deliver_exit _ sleeper a settings is code h with rfl | rfl
      · exact Nat.zero_ne_one
      · decide

/-! ### Failures -/

/-- When the program fails, and what it leaves behind then. Uninterrupted, it has
    the exit code one if the rate is refused or the run failed. With that code it
    has done nothing but log and complain, and all that is listed elsewhere than
    where the log file is stays as it was. -/
theorem run_exits (tree : FileTree) (sleeper : Sleeper) (words : List Text) (a : Arguments)
    (code : Nat) (hparse : parse words = .ok a) (hdescribe : a.describe = false)
    (hexit : (run tree sleeper words).2 = .exit code) :
    ∃ notes loaded settings opened,
      Settings.load tree a.config = (notes, .ok loaded) ∧
      settings = loaded.override a.overrides ∧
      Opens tree (logPath? settings.logging.file) opened ∧
      (sleeper.patience = none → (code = 1 ↔ RefusesSpeed a settings ∨
        ∃ message, (Run.start opened settings.style settings.subtitleFile (.value .null)).2
          = .ok (.failed message))) ∧
      (code = 1 →
        (∀ e ∈ (run tree sleeper words).1.effects, e.IsMessage ∨
          ∃ p, logPath? settings.logging.file = some p ∧ e = .openLog p) ∧
        ∀ q, (∀ p, logPath? settings.logging.file = some p → ¬ tree.LeadsTo p q) →
          (run tree sleeper words).1.tree.node? q = tree.node? q) := by
  rcases run_cases tree sleeper words a hparse hdescribe with
    ⟨_, _, _, hfailed⟩ | ⟨notes, loaded, settings, hload, hsettings, hlog⟩
  · exact Ending.noConfusion (hexit.symm.trans hfailed)
  rcases hlog with ⟨_, _, _, hfailed⟩ | ⟨s, hlog, hrun⟩
  · exact Ending.noConfusion (hexit.symm.trans hfailed)
  rcases logged_fresh tree notes with ⟨hfresh, hmessages⟩
  rcases (setUpLog_eq_ok_iff _ s _ _).mp hlog with ⟨_, name, opened, _, _, hopens, rfl⟩
  rw [hfresh] at hopens
  rw [hrun] at hexit ⊢
  refine ⟨notes, loaded, settings, opened, hload, hsettings, hopens, ?_⟩
  rcases proceed_exits _ sleeper a settings code hexit with
    ⟨hone, ⟨_, ⟨es, heffects, hes⟩, htree⟩, hreason⟩ | ⟨hother, hspeed, is, hresult⟩
  · refine ⟨fun _ => iff_of_true hone hreason, fun _ => ⟨?_, fun q hq => ?_⟩⟩
    · rw [heffects]
      simp only [Session.opening, List.mem_append, List.mem_map, Option.mem_toList]
      rintro e (he | ⟨p, hp, rfl⟩ | he)
      · exact Or.inl (hes e he)
      · exact Or.inr ⟨p, hp, rfl⟩
      · exact Or.inl (hmessages e he)
    · have hgrows := (grows_of_opens tree _ opened hopens).trans htree
      exact FileTree.node?_of_grows _ tree _ hgrows q hq
  · refine ⟨fun _ => iff_of_false hother ?_, fun hone => absurd hone hother⟩
    rintro (hrefuses | ⟨message, hmessage⟩)
    · exact hspeed hrefuses
    · exact Run.Result.noConfusion (Except.ok.inj (hresult.symm.trans hmessage))

/-- The exit code, if there is one. -/
def Ending.code? : Ending → Option Nat
  | .exit code => some code
  | .failed _ => none

theorem eq_exit_of_code? (e : Ending) (code : Nat) (h : e.code? = some code) : e = .exit code := by
  cases e with
  | exit other => rw [Option.some.inj h]
  | failed f => exact absurd h.symm (Option.some_ne_none code)

/-- A folder with a configuration that names a log file, and with subtitles
    whose last time is malformed. -/
def spoiled : FileTree where
  here := ["work"]
  entries :=
    [ (["work", "config.yaml"], .file (Utf8.encode "logging:\n  file: run.log\n")),
      (["work", "talk.srt"], .file (Utf8.encode
        ("1\n00:00:01,000 --> 00:00:02,000\nHello\n\n" ++
          "2\n00:00:03,000 --> 00:00:04:05,000\nBye\n"))) ]

/-- The arguments for a run on it whose result goes to a path. -/
def writingTo (output : Text) : Arguments where
  overrides := { subtitleFile := .ofString "talk.srt" }
  output := some (FilePath.ofText output)
  config := some (FilePath.ofText "config.yaml")

/-- Their words. -/
def wordsTo (output : Text) : List Text :=
  ["talk.srt", "--config", "config.yaml", "-o", output]

theorem leadsTo_log : spoiled.LeadsTo (FilePath.ofText "run.log") ["work", "run.log"] :=
  ⟨.vacant ["work", "run.log"], by with_unfolding_all rfl, rfl⟩

-- A malformed time at the very end leaves no trace of the folder for the result.
theorem run_exits_spoiled :
    parse (wordsTo "out/effects.json") = .ok (writingTo "out/effects.json") ∧
      (run spoiled (.system none) (wordsTo "out/effects.json")).2 = .exit 1 ∧
      (∃ (settings : Settings) (opened : FileTree) (message : Option Text),
        (Run.start opened settings.style settings.subtitleFile (.value .null)).2
          = .ok (.failed message)) ∧
      ∀ q : Location, q ≠ ["work", "run.log"] →
        (run spoiled (.system none) (wordsTo "out/effects.json")).1.tree.node? q
          = spoiled.node? q := by
  have hparse : parse (wordsTo "out/effects.json") = .ok (writingTo "out/effects.json") := by
    with_unfolding_all rfl
  have hexit : (run spoiled (.system none) (wordsTo "out/effects.json")).2 = .exit 1 :=
    eq_exit_of_code? _ 1 (by decide +kernel)
  have hfile : (Settings.load spoiled (writingTo "out/effects.json").config).2.toOption.map
      (fun loaded => logPath? loaded.logging.file) = some (some (FilePath.ofText "run.log")) := by
    decide +kernel
  rcases run_exits spoiled (.system none) _ _ 1 hparse rfl hexit with
    ⟨notes, loaded, settings, opened, hload, hsettings, _, hreason, huntouched⟩
  have hmessage := ((hreason rfl).mp rfl).resolve_left fun hrefuses =>
    absurd hrefuses.1 Bool.false_ne_true
  refine ⟨hparse, hexit, ⟨settings, opened, hmessage⟩, fun q hq => ?_⟩
  refine (huntouched rfl).2 q fun p hp hleads => hq ?_
  rw [hload] at hfile
  rw [hsettings] at hp
  have hlog : p = FilePath.ofText "run.log" :=
    Option.some.inj (hp.symm.trans (Option.some.inj hfile))
  rw [hlog] at hleads
  exact FileTree.eq_of_leadsTo spoiled _ _ q leadsTo_log hleads

/-- The log file may be the file for the result. It is then there after a run
    that failed. -/
theorem not_output_untouched :
    ¬ ∀ (tree : FileTree) (words : List Text) (a : Arguments) (p : FilePath) (place : Location),
      parse words = .ok a → a.describe = false → (run tree (.system none) words).2 = .exit 1 →
        a.output = some p → tree.LeadsTo p place →
        (run tree (.system none) words).1.tree.node? place = tree.node? place := by
  intro h
  have huntouched := h spoiled (wordsTo "run.log") (writingTo "run.log") _ _
    (by with_unfolding_all rfl) rfl (eq_exit_of_code? _ 1 (by decide +kernel)) rfl leadsTo_log
  have hbefore : (spoiled.node? ["work", "run.log"]).isSome = false := by decide +kernel
  have hafter : ((run spoiled (.system none) (wordsTo "run.log")).1.tree.node?
      ["work", "run.log"]).isSome = true := by decide +kernel
  rw [huntouched, hbefore] at hafter
  exact Bool.false_ne_true hafter

end CommandLine

end Captions
