import Captions.CommandLine.Arguments
import Captions.Proofs.FilePath.Normal
import Captions.Source

/-!
# Sources Judged Twice

Whether a source is judged alike on the command line and by a caller.

A caller's text is judged first and then read as a path. On the command line the
text is read as a path first, the path is written into the settings, and what is
written is judged. Where both accept the text they arrive at the same path,
since what is written of a path is read as that path again.

So it only matters whether the text and what is written of it are both blank.
They differ in two cases. The empty text is blank, and the path that it is read
as is written as a dot. The other case is the opposite one: a slash or a dot
beside blanks makes a text that is not blank, and reading drops it and leaves
the blanks.

## Main definitions

* `stored`: What the settings hold of a file named on the command line.

## Theorems

* `path_stored_eq_iff`: What both judge depends on being blank.
* `path_withFile`: Which texts are judged alike, and what becomes of the others.
* `not_judged_alike`: The empty text is not.
-/

namespace Captions

namespace Source

open FilePath (BlankName)

/-- What the settings hold of a subtitle file that is named on the command
    line. -/
def stored (s : Settings) (a : CommandLine.Arguments) (t : Text) : Value :=
  (s.override (a.withFile t).overrides).subtitleFile

theorem stored_eq (s : Settings) (a : CommandLine.Arguments) (t : Text) :
    stored s a t = .text (FilePath.ofText t).text := if_pos (FilePath.isSet_text t)

theorem path_stored (s : Settings) (a : CommandLine.Arguments) (t : Text) :
    path (stored s a t) = if Text.isAllBlank (FilePath.ofText t).text then .error (.unusable .blank)
      else .ok (FilePath.ofText t) := by
  rw [stored_eq, path, FilePath.ofText_text_ofText]

/-- The text and what is written of it are judged alike when both of them are
    blank or neither is. -/
theorem path_stored_eq_iff (s : Settings) (a : CommandLine.Arguments) (t : Text) :
    path (stored s a t) = path (.text t) ↔
      Text.isAllBlank (FilePath.ofText t).text = Text.isAllBlank t := by
  rw [path_stored, path]
  rcases Text.isAllBlank (FilePath.ofText t).text with _ | _ <;>
    rcases Text.isAllBlank t with _ | _ <;>
    simp only [Bool.false_eq_true, if_false, if_true, reduceCtorEq]

-- Only a blank name is as blank as what is written of it.
theorem isAllBlank_text_eq_iff (t : Text) :
    Text.isAllBlank (FilePath.ofText t).text = Text.isAllBlank t ↔
      t ≠ [] ∧ ∀ n, BlankName n → FilePath.ofText t = FilePath.ofText n → t = n := by
  constructor
  · intro h
    have hne : t ≠ [] := by
      rintro rfl
      exact absurd h (by decide)
    refine ⟨hne, fun n hblank heq => ?_⟩
    have ht : Text.isAllBlank t = true :=
      h ▸ (FilePath.isAllBlank_text_iff t).mpr ⟨n, hblank, heq⟩
    rw [FilePath.ofText_of_blankName t ⟨hne, ht⟩, FilePath.ofText_of_blankName n hblank] at heq
    exact List.singleton_inj.mp (congrArg FilePath.names heq)
  · rintro ⟨hne, hspelling⟩
    rw [Bool.eq_iff_iff, FilePath.isAllBlank_text_iff]
    constructor
    · rintro ⟨n, hblank, heq⟩
      rw [hspelling n hblank heq]
      exact hblank.2
    · intro ht
      exact ⟨t, ⟨hne, ht⟩, rfl⟩

/-- Which sources are judged alike on the command line and by a caller: all but
    the empty text and the blank names in another spelling. The empty text is
    accepted on the command line only, and the others by a caller only. -/
theorem path_withFile (s : Settings) (a : CommandLine.Arguments) (t : Text) :
    (path (stored s a t) = path (.text t) ↔
      t ≠ [] ∧ ∀ n, BlankName n → FilePath.ofText t = FilePath.ofText n → t = n) ∧
    (t = [] → path (stored s a t) = .ok ⟨[], []⟩ ∧ path (.text t) = .error (.unusable .blank)) ∧
    ∀ n, BlankName n → FilePath.ofText t = FilePath.ofText n → t ≠ n →
      path (stored s a t) = .error (.unusable .blank) ∧ path (.text t) = .ok ⟨[], [n]⟩ := by
  refine ⟨(path_stored_eq_iff s a t).trans (isAllBlank_text_eq_iff t), ?_, ?_⟩
  · rintro rfl
    rw [path_stored]
    exact ⟨rfl, rfl⟩
  · intro n hblank heq hne
    have hstored : Text.isAllBlank (FilePath.ofText t).text = true :=
      (FilePath.isAllBlank_text_iff t).mpr ⟨n, hblank, heq⟩
    have ht : Text.isAllBlank t = false := by
      rw [← Bool.not_eq_true]
      intro hc
      exact hne (((isAllBlank_text_eq_iff t).mp (hstored.trans hc.symm)).2 n hblank heq)
    rw [path_stored, hstored, path, ht, heq, FilePath.ofText_of_blankName n hblank]
    exact ⟨rfl, rfl⟩

theorem path_withFile_spellings :
    path (stored {} {} "./talks//talk.srt") = path (.text "./talks//talk.srt") ∧
    path (stored {} {} "") = .ok ⟨[], []⟩ ∧ path (.text "") = .error (.unusable .blank) ∧
    path (stored {} {} "./ ") = .error (.unusable .blank) ∧
    path (.text "./ ") = .ok ⟨[], [[' ']]⟩ := by
  have hempty := (path_withFile {} {} "").2.1 rfl
  have hdot := (path_withFile {} {} "./ ").2.2 [' '] ⟨by decide, by decide⟩ (by decide) (by decide)
  refine ⟨(path_withFile {} {} _).1.mpr ⟨by decide, fun n hblank heq => ?_⟩, hempty.1, hempty.2,
    hdot.1, hdot.2⟩
  have hnames : (FilePath.ofText "./talks//talk.srt").names.length = 1 := by
    rw [heq, FilePath.ofText_of_blankName n hblank]
    rfl
  exact absurd hnames (by decide)

/-- Not every source is judged alike, even where the settings had none. -/
theorem not_judged_alike :
    ¬ ∀ (s : Settings) (a : CommandLine.Arguments) (t : Text), s.subtitleFile = .null →
      path (s.override (a.withFile t).overrides).subtitleFile = path (.text t) := by
  intro h
  have halike : path (stored {} {} []) = path (.text []) := h {} {} [] rfl
  rw [path_stored] at halike
  exact absurd halike (fun heq => nomatch heq)

end Source

end Captions
