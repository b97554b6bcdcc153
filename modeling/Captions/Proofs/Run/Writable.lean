import Captions.Json
import Captions.Proofs.Timeline.Positive
import Captions.Proofs.Timeline.Segments
import Captions.Run

/-!
# Results That Can Be Written

When the result of a run can be handed out as JSON, and what stands in the way.

Whole numbers have a limit of digits in writing, and dates have no form. The
numbers of a timeline are doubles, and texts have no limit, so there is one value
in a result that can be at fault: the width of the boxes, which a block takes over
from the style as it stands. It is the same in all blocks, so the first block
shows what is wrong with it, and without a block it is not written.

## Theorems

* `fault?_wire`: What is wrong with an instruction.
* `fault?_completed`: What is wrong with the result of a run.
-/

namespace Captions

open Instruction (block? shownCount)

/-- An instruction whose number is a double has the fault of its block's width. -/
theorem Instruction.fault?_wire (i : Instruction) (x : Binary64) (hx : i.length = .double x) :
    Json.fault? i.wire = i.block?.bind fun b => Json.fault? b.width := by
  cases i with
  | wait delay =>
      rw [show delay = .double x from hx]
      rfl
  | showText b =>
      rw [wire, show b.duration = .double x from hx]
      simp only [Json.fault?, Json.faultWithin?, Json.nameFault?, Json.numberFault?,
        Number.isWritable, Value.ofString, block?, Option.bind_some, Option.or_none,
        Option.none_or, if_true]

/-- The blocks of a timeline have the width that the style gives them. -/
theorem Timeline.width_of_sequence (style : Style) (cues : List Cue) (is : List Instruction)
    (h : (sequence style cues).2 = .ok is) :
    ∀ b ∈ is.filterMap block?, b.width = style.resolved.containerWidth := by
  rcases (sequence_eq_ok_iff style cues is).mp h with ⟨timed, _, _, _, rfl⟩
  rw [blocks_emitted, List.forall_mem_map]
  exact fun _ _ => rfl

-- Blocks that are all of one width have its fault, if there are any.
theorem Json.faultAmong?_wire (width : Value) (is : List Instruction)
    (hdoubles : ∀ i ∈ is, ∃ x, i.length = .double x)
    (hwidth : ∀ b ∈ is.filterMap block?, b.width = width) :
    faultAmong? (is.map Instruction.wire)
      = if is.filterMap block? = [] then none else fault? width := by
  induction is with
  | nil => rfl
  | cons i is ih =>
      have hrest := ih (fun j hj => hdoubles j (List.mem_cons_of_mem i hj))
      rcases hdoubles i List.mem_cons_self with ⟨x, hx⟩
      rw [List.map_cons, faultAmong?, Instruction.fault?_wire i x hx]
      rcases hblock : i.block? with _ | b
      · rw [List.filterMap_cons_none hblock] at hwidth ⊢
        rw [hrest hwidth]
        rfl
      · rw [List.filterMap_cons_some hblock] at hwidth ⊢
        rw [List.forall_mem_cons] at hwidth
        rw [hrest hwidth.2, if_neg (List.cons_ne_nil _ _), Option.bind_some, hwidth.1]
        split <;> rcases fault? width <;> rfl

/-- The result of a run has the fault of the width of its boxes, and none if it
    shows nothing. -/
theorem Run.fault?_completed (style : Style) (cues : List Cue) (is : List Instruction)
    (h : (Timeline.sequence style cues).2 = .ok is) :
    Json.fault? (Result.completed is).wire
      = if shownCount is = 0 then none else Json.fault? style.resolved.containerWidth := by
  have hwire : Json.fault? (Result.completed is).wire
      = Json.faultAmong? (is.map Instruction.wire) := by
    simp only [Result.wire, Json.fault?, Json.faultWithin?, Json.nameFault?, Option.none_or,
      Option.or_none]
  have hdoubles : ∀ i ∈ is, ∃ x, i.length = .double x := by
    intro i hi
    rcases Timeline.unsigned_sequence style cues is h i hi with ⟨x, hx, _⟩
    exact ⟨x, hx⟩
  rw [hwire, Json.faultAmong?_wire _ is hdoubles (Timeline.width_of_sequence style cues is h)]
  simp only [Instruction.shownCount_eq_length, List.length_eq_zero_iff]

end Captions
