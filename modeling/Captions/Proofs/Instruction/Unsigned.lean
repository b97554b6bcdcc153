import Captions.Proofs.Instruction.Listed
import Captions.Proofs.Number.Sign

/-!
# Instructions Without a Minus Sign

What is computed of instructions whose numbers are doubles without a minus sign.

The sum of such doubles has no minus sign either, so the clock of a preview never
goes below zero, and never comes back from an infinity. Every sum is a number,
if not a finite one, and a length is always found. A line of the preview can be
made exactly when the time at which its block ends is finite, since a clock
reads what is finite and would only read an infinity below zero.

The length of a timeline is added up from a whole number and the clock of a
preview from a double. They arrive at the same time.

## Main definitions

* `Unsigned`: The numbers in instructions have no minus sign.

## Theorems

* `previewLine_unsigned_iff`: When the line of a block can be made.
* `preview_unsigned_iff`: When there is a preview of such instructions.
* `preview_eq_error`: Why there is none otherwise.
* `totalDelay_unsigned`: There always is a length, and where the clock arrives.
-/

namespace Captions

theorem Number.add_double (sum : Number) (x y : Binary64) (h : sum.toDouble = .ok x) :
    sum.add (.double y) = .ok (.double (x.add y)) := by
  cases sum with
  | whole n =>
      rw [add, h, toDouble, ok_bind, ok_bind]
      · rfl
      · exact fun _ _ _ => Number.noConfusion
  | double z =>
      rw [add, h, toDouble, ok_bind, ok_bind]
      · rfl
      · exact fun _ _ => Number.noConfusion

theorem Number.toDouble_zero : (Number.whole 0).toDouble = .ok Binary64.zero := by
  have hzero : Binary64.ofInt 0 = Binary64.zero := Binary64.ofInt_zero
  rw [toDouble, hzero]
  rfl

namespace Instruction

/-- The numbers in instructions are doubles without a minus sign. -/
def Unsigned (is : List Instruction) : Prop :=
  ∀ i ∈ is, ∃ x : Binary64, i.length = .double x ∧ x.negative = false

theorem unsigned_of_cons (i : Instruction) (is : List Instruction) (h : Unsigned (i :: is)) :
    Unsigned is :=
  fun j hj => h j (List.mem_cons_of_mem i hj)

theorem toDouble_of_mem_delays (is : List Instruction) (h : Unsigned is) :
    ∀ d ∈ delays is, ∃ x, d.toDouble = .ok x := by
  intro d hd
  rcases h _ ((mem_delays is d).mp hd) with ⟨x, hx, _⟩
  rw [length] at hx
  exact ⟨x, by rw [hx, Number.toDouble]⟩

-- The clock never goes below zero.
theorem clockAfter_unsigned (is : List Instruction) (h : Unsigned is) :
    ∀ clock : Binary64, clock.negative = false →
      ∃ now, clockAfter clock is = .ok now ∧ now.negative = false := by
  induction is with
  | nil => intro clock hclock; exact ⟨clock, rfl, hclock⟩
  | cons i is ih =>
      intro clock hclock
      have hrest := ih (unsigned_of_cons i is h)
      cases i with
      | wait delay =>
          rcases h _ List.mem_cons_self with ⟨x, hx, hsign⟩
          rw [length] at hx
          rw [clockAfter_wait, hx, advance_double, ok_bind]
          exact hrest _ (Binary64.negative_add clock x hclock hsign)
      | showText b => exact hrest clock hclock

-- Below zero everything could be read, the infinity too.
theorem reading_iff_isFinite (x : Binary64) (hx : x.negative = false) :
    (∃ c, reading x = .ok c) ↔ x.isFinite = true := by
  rw [exists_reading_iff, or_iff_left]
  rintro rfl
  exact absurd hx.symm Bool.false_ne_true

/-- A line can be made exactly when its block ends at a finite time. -/
theorem previewLine_unsigned_iff (now x : Binary64) (b : Block) (hb : b.duration = .double x)
    (hnow : now.negative = false) (hx : x.negative = false) :
    (∃ line, previewLine now b = .ok line) ↔ (now.add x).isFinite = true := by
  have hend : advance now b.duration = .ok (now.add x) := by rw [hb, advance_double]
  constructor
  · rintro ⟨line, hline⟩
    rcases (previewLine_eq_ok_iff now b line).mp hline with
      ⟨_, later, finish, _, hlater, hfinish, _⟩
    rw [hend, Except.ok.injEq] at hlater
    rw [← hlater] at hfinish
    exact (reading_iff_isFinite _ (Binary64.negative_add now x hnow hx)).mp ⟨finish, hfinish⟩
  · exact previewLine_of_isFinite now _ b hend

theorem reading_eq_error (x : Binary64) (fault : PreviewFault) (h : reading x = .error fault) :
    fault = .notFinite := by
  unfold reading at h
  split at h
  · exact absurd h (ok_ne_error _ _)
  · exact (Except.error.inj h).symm

theorem previewLine_eq_error (now x : Binary64) (b : Block) (hb : b.duration = .double x)
    (fault : PreviewFault) (h : previewLine now b = .error fault) : fault = .notFinite := by
  simp only [previewLine, hb, advance_double, ok_bind, bind_eq_error_iff, pure_ne_error, and_false,
    exists_false, or_false] at h
  rcases h with h | ⟨_, _, h⟩
  · exact reading_eq_error now fault h
  · exact reading_eq_error _ fault h

/-- There is a preview exactly when every block within the limit ends at a
    finite time. -/
theorem preview_unsigned_iff (limit : Number) (is : List Instruction) (h : Unsigned is) :
    (∃ text, preview limit is = .ok text) ↔
      ∀ before b after, is = before ++ .showText b :: after →
        limit.isAtMost (shownCount before : Int) = false →
        ∃ now later, clockAfter Binary64.zero before = .ok now ∧
          advance now b.duration = .ok later ∧ later.isFinite = true := by
  rw [preview_eq_ok_iff limit is (toDouble_of_mem_delays is h)]
  refine forall_congr' fun before => forall_congr' fun b => forall_congr' fun after => ?_
  refine imp_congr_right fun his => imp_congr_right fun _ => ?_
  have hbefore : Unsigned before := fun i hi => h i (his ▸ List.mem_append_left _ hi)
  rcases h (.showText b) (his ▸ List.mem_append_right _ List.mem_cons_self) with ⟨x, hx, hsign⟩
  rw [length] at hx
  rcases clockAfter_unsigned before hbefore Binary64.zero rfl with ⟨now, hnow, hclock⟩
  have hline := previewLine_unsigned_iff now x b hx hclock hsign
  simp only [hnow, hx, advance_double, Except.ok.injEq, exists_and_left, exists_eq_left', hline]

theorem preview_eq_error (limit : Number) (is : List Instruction) (h : Unsigned is)
    (fault : PreviewFault) (hfault : preview limit is = .error fault) : fault = .notFinite := by
  simp only [preview, bind_eq_error_iff, pure_ne_error, and_false, exists_false, or_false] at hfault
  rcases previewLines_eq_error limit fault is (toDouble_of_mem_delays is h) _ 0 hfault with
    ⟨before, b, after, now, rfl, _, _, hline⟩
  rcases h (.showText b) (List.mem_append_right _ List.mem_cons_self) with ⟨x, hx, _⟩
  exact previewLine_eq_error now x b hx fault hline

-- A sum of doubles is a double, and the clock of a preview adds up the same.
theorem totalAfter_unsigned (is : List Instruction) (h : Unsigned is) :
    ∀ sum x, sum.toDouble = .ok x →
      ∃ total y, totalAfter sum is = .ok total ∧ total.toDouble = .ok y ∧
        clockAfter x is = .ok y := by
  induction is with
  | nil =>
      intro sum x hx
      exact ⟨sum, x, rfl, hx, rfl⟩
  | cons i is ih =>
      intro sum x hx
      have hrest := ih (unsigned_of_cons i is h)
      cases i with
      | wait delay =>
          rcases h _ List.mem_cons_self with ⟨d, hd, _⟩
          rw [length] at hd
          rw [totalAfter, hd, Number.add_double sum x d hx, ok_bind, clockAfter_wait,
            advance_double, ok_bind]
          exact hrest _ _ rfl
      | showText b => exact hrest sum x hx

/-- The length of a timeline without minus signs is a number, and the time at
    which the clock of a preview arrives. -/
theorem totalDelay_unsigned (is : List Instruction) (h : Unsigned is) :
    ∃ total y, totalDelay is = .ok total ∧ total.toDouble = .ok y ∧
      clockAfter Binary64.zero is = .ok y :=
  totalAfter_unsigned is h (.whole 0) Binary64.zero Number.toDouble_zero

end Instruction

end Captions
