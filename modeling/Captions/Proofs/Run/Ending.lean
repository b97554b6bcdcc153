import Captions.Proofs.Timeline.Positive
import Captions.Run

/-!
# How a Run Ends

What a run comes to once its cues are read.

A run that has its cues makes a timeline of them, notes its length and shows its
beginning. A malformed time is a result like any other. A number that is too long
to be written is not, and neither is what is computed of a finished timeline
guarded in that way, so a number there that has no text ends the run without a
result too.

Not much can go wrong with the length. The numbers of a timeline are doubles, a
sum of doubles is a double whatever they are, and every double has a text. A
preview is different, because a clock reads only what is finite. The numbers of
a timeline have no minus sign, so its clock never goes below zero and never
comes back from an infinity. A line can then be made exactly when the time at
which its block ends is finite, and that is all there is to it: `ofCues_ends`.

The fields of a time are finite, but the time that they make up need not be, and
the sum of finite times need not be either. `endless` is a cue of the first
kind.

## Theorems

* `lengthText_unsigned`: There always is a text of a timeline's length.
* `ofCues_ends`: When a run ends with a result, and how it ends otherwise.
* `not_always_result`: A run need not end with a result.
-/

namespace Captions

namespace Run

open Instruction (Unsigned advance clockAfter shownCount)

theorem lengthText_unsigned (is : List Instruction) (h : Unsigned is) :
    ∃ length, lengthText is = .ok length := by
  rcases Instruction.totalDelay_unsigned is h with ⟨total, x, htotal, hx, _⟩
  refine ⟨x.fixed 1, ?_⟩
  rw [lengthText, htotal, ok_bind, Number.fixed, hx, ok_bind]
  rfl

theorem isAtMost_previewLimit (k : Nat) : previewLimit.isAtMost (k : Int) = false ↔ k < 5 := by
  rw [← Bool.not_eq_true, previewLimit, Number.isAtMost_whole_iff]
  omega

/-- A timeline without a minus sign is completed, or its preview has a time that
    is not finite. -/
theorem complete_unsigned (is : List Instruction) (h : Unsigned is) :
    ∃ length, lengthText is = .ok length ∧
      ((∃ text, Instruction.preview previewLimit is = .ok text ∧
          complete is = (.runComplete is.length length :: previewNotice text,
            .ok (.completed is))) ∨
        ((¬ ∃ text, Instruction.preview previewLimit is = .ok text) ∧
          complete is = ([.runComplete is.length length], .error (.preview .notFinite)))) := by
  rcases lengthText_unsigned is h with ⟨length, hlength⟩
  refine ⟨length, hlength, ?_⟩
  rcases hpreview : Instruction.preview previewLimit is with fault | text
  · have hfault := Instruction.preview_eq_error previewLimit is h fault hpreview
    subst hfault
    refine Or.inr ⟨?_, by rw [complete, hlength, hpreview]⟩
    simp only [reduceCtorEq, exists_false, not_false_eq_true]
  · exact Or.inl ⟨text, rfl, by rw [complete, hlength, hpreview]⟩

theorem ofCues_malformed (style : Style) (cues : List Cue) (notes : List Notice)
    (m : Timestamp.Malformed)
    (h : Timeline.sequence style cues = (notes, .error (.malformed m))) :
    ofCues style (.ok cues)
      = (notes ++ [.readFailed m.message], .ok (.failed (some failureMessage))) := by
  rw [ofCues, h]
  rfl

theorem ofCues_longNumber (style : Style) (cues : List Cue) (notes : List Notice)
    (h : Timeline.sequence style cues = (notes, .error .longNumber)) :
    ofCues style (.ok cues) = (notes, .error .longNumber) := by
  rw [ofCues, h]
  exact Prod.ext (List.append_nil notes) rfl

theorem ofCues_sequenced (style : Style) (cues : List Cue) (notes : List Notice)
    (is : List Instruction) (h : Timeline.sequence style cues = (notes, .ok is)) :
    ofCues style (.ok cues) = (notes ++ (complete is).1, (complete is).2) := by
  rw [ofCues, h]

/-- A run whose source is read ends as its cues do. -/
theorem start_of_read (tree : FileTree) (style : Style) (configured given : Source.Reference)
    (noted : List Notice) (cues : List Cue)
    (h : Source.read tree (chosen configured given) = (noted, .ok cues)) :
    start tree style configured given
      = (noted ++ (ofCues style (.ok cues)).1, (ofCues style (.ok cues)).2) := by
  rw [start, ofSource, h]

/-- A run that has its cues ends with a result, unless one of the first five
    blocks of its timeline ends at a time that is not finite, or a number is too
    long for there to be a timeline. A style and cues that can be written have no
    such number, and then nothing but the preview ends the run, after the length
    is noted. -/
theorem ofCues_ends (style : Style) (cues : List Cue) :
    ((∃ result, (ofCues style (.ok cues)).2 = .ok result) ↔
      (Timeline.sequence style cues).2 ≠ .error .longNumber ∧
      ∀ is, (Timeline.sequence style cues).2 = .ok is → ∀ before b after,
        is = before ++ .showText b :: after → shownCount before < 5 →
        ∃ now later, clockAfter Binary64.zero before = .ok now ∧
          advance now b.duration = .ok later ∧ later.isFinite = true) ∧
    (∀ interruption, (ofCues style (.ok cues)).2 = .error interruption →
      (interruption = .preview .notFinite ∧
        ∃ notes is length, Timeline.sequence style cues = (notes, .ok is) ∧
          lengthText is = .ok length ∧
          (ofCues style (.ok cues)).1 = notes ++ [.runComplete is.length length]) ∨
      interruption = .longNumber ∧
        Timeline.sequence style cues = ((ofCues style (.ok cues)).1, .error .longNumber)) ∧
    (style.isWritable = true → (∀ cue ∈ cues, cue.isWritable = true) →
      (Timeline.sequence style cues).2 ≠ .error .longNumber) ∧
    -- A run that reads the cues from its source ends as they do.
    ∀ tree configured given noted, Source.read tree (chosen configured given) = (noted, .ok cues) →
      start tree style configured given
        = (noted ++ (ofCues style (.ok cues)).1, (ofCues style (.ok cues)).2) := by
  refine ⟨?_, ?_, Timeline.sequence_of_isWritable style cues,
    fun tree configured given noted h => start_of_read tree style configured given noted cues h⟩
  all_goals rcases hseq : Timeline.sequence style cues with ⟨notes, (m | _) | is⟩
  · rw [ofCues_malformed style cues notes m hseq]
    refine iff_of_true ⟨_, rfl⟩ ⟨?_, fun is h => absurd h (error_ne_ok _ _)⟩
    simp only [ne_eq, Except.error.injEq, reduceCtorEq, not_false_eq_true]
  · rw [ofCues_longNumber style cues notes hseq]
    exact iff_of_false (fun h => h.elim fun _ heq => nomatch heq) fun h => h.1 rfl
  · have hunsigned := Timeline.unsigned_sequence style cues is (by rw [hseq])
    have hpreview := Instruction.preview_unsigned_iff previewLimit is hunsigned
    simp only [isAtMost_previewLimit] at hpreview
    simp only [ne_eq, reduceCtorEq, not_false_eq_true, true_and, Except.ok.injEq, forall_eq']
    rw [← hpreview]
    rcases complete_unsigned is hunsigned with ⟨_, _, ⟨text, htext, hcomplete⟩ | ⟨hnone, hcomplete⟩⟩
    · rw [ofCues_sequenced style cues notes is hseq, hcomplete]
      exact iff_of_true ⟨_, rfl⟩ ⟨text, htext⟩
    · rw [ofCues_sequenced style cues notes is hseq, hcomplete]
      exact iff_of_false (fun h => h.elim fun _ heq => nomatch heq) hnone
  · intro interruption h
    rw [ofCues_malformed style cues notes m hseq] at h
    exact absurd h (ok_ne_error _ _)
  · intro interruption h
    rw [ofCues_longNumber style cues notes hseq] at h ⊢
    exact Or.inr ⟨(Except.error.inj h).symm, rfl⟩
  · intro interruption h
    have hunsigned := Timeline.unsigned_sequence style cues is (by rw [hseq])
    rcases complete_unsigned is hunsigned with ⟨length, hlength, ⟨_, _, hcomplete⟩ | ⟨_, hcomplete⟩⟩
    · rw [ofCues_sequenced style cues notes is hseq, hcomplete] at h
      exact absurd h (ok_ne_error _ _)
    · rw [ofCues_sequenced style cues notes is hseq, hcomplete] at h ⊢
      exact Or.inl ⟨(Except.error.inj h).symm, notes, is, length, rfl, hlength, rfl⟩

/-- A cue whose end has finite fields and is not finite itself. -/
def endless : Cue := ⟨.ofInt 1, .ofString "00:00:00,000", .ofString "1e308:00:00", "a"⟩

-- A run need not end with a result, even in the standard style and with texts as times.
theorem not_always_result :
    ¬ ∀ cues : List Cue, (∀ cue ∈ cues, ∃ s t, cue.start = .text s ∧ cue.finish = .text t) →
      ∃ result, (ofCues Style.standard (.ok cues)).2 = .ok result := by
  intro h
  have htexts : ∀ cue ∈ [endless], ∃ s t, cue.start = .text s ∧ cue.finish = .text t := by
    intro cue hcue
    rw [List.mem_singleton.mp hcue]
    exact ⟨_, _, rfl, rfl⟩
  rcases h [endless] htexts with ⟨result, hresult⟩
  have hfails : (ofCues Style.standard (.ok [endless])).2.toBool = false := by decide +kernel
  rw [hresult] at hfails
  exact absurd hfails Bool.noConfusion

end Run

end Captions
