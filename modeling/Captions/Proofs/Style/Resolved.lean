import Captions.Proofs.Value.Writable
import Captions.Timeline

/-!
# Styles That Look the Same

Which styles make the same timeline.

A style is passed on as it was configured and resolved wherever it is used. For
this to be harmless two things are needed: resolving has to come to an end after
one step, and nothing may look at a style except through what is resolved. The
second is where most of the work is, because what is written of a style is not
its resolved values but their texts, and lengths are written in a way of their
own.

All that a timeline takes from a style are its declarations, the width of its box
and whether its numbers are short enough to be written at all. Styles that agree
on these look the same, and make the same timeline for all cues. Three changes
keep the look of a style: another value that counts as open in an open field,
another kind of number for a length that is whole, and any outline at all where
none is drawn. The outline itself is no field of the first kind, since it tells
nothing from false.

## Main definitions

* `SameLook`: Styles that a timeline cannot tell apart.
* `SameWhereSet`: Styles that differ in fields that are open in both.
* `SameLength`: A length as a double and as a whole number.
* `SameSizes`: Styles that differ in the kind of their lengths.

## Theorems

* `pixels_ofDouble`: A whole double is written as a whole number.
* `sequence_of_sameLook`: Styles that look the same make the same timeline.
* `resolved_resolved`: A resolved style resolves to itself.
* `resolved_of_sameWhereSet`: Open fields resolve alike.
* `sameLook_of_sameSizes`: The kind of a length does not show.
* `Timeline.sequence_resolved`: Which styles make one timeline.
-/

namespace Captions

namespace Binary64

theorem signed_mul (s : Bool) (u v : Nat) : signed s (u * v) = signed s u * v := by
  cases s
  · rw [signed_false, signed_false, Nat.cast_mul]
  · rw [signed, signed, if_pos rfl, if_pos rfl, Nat.cast_mul, neg_mul]

/-- What a double is that has a whole number as its value. -/
theorem whole_of_value (x : Binary64) (n : Int) (hfinite : x.isFinite = true) (h : x.value = n) :
    x.isWhole = true ∧ x.truncate? = some n ∧ x.isZero = decide (n = 0) := by
  have hunits := (value_eq_iff x n).mp h
  cases x with
  | nan => exact absurd hfinite Bool.false_ne_true
  | infinite s => exact absurd hfinite Bool.false_ne_true
  | finite s u hu =>
      rw [units] at hunits
      have hone : (one : Int) ≠ 0 := Nat.cast_ne_zero.mpr one_pos.ne'
      have hcount : u = n.natAbs * one := by
        rw [← natAbs_signed s u, hunits, Int.natAbs_mul, Int.natAbs_natCast]
      rw [hcount, signed_mul] at hunits
      have hsigned : signed s n.natAbs = n := Int.eq_of_mul_eq_mul_right hone hunits
      refine ⟨?_, ?_, ?_⟩
      · rw [isWhole, hcount, Nat.mul_mod_left]
        rfl
      · rw [truncate?, hcount, Nat.mul_div_cancel _ one_pos, hsigned]
      · rw [isZero, hcount, decide_eq_decide, Nat.mul_eq_zero, Int.natAbs_eq_zero]
        exact or_iff_left (Nat.ne_of_gt one_pos)

end Binary64

namespace Style

/-! ### What a timeline takes from a style -/

/-- Styles with the same declarations and the same width, of which both or neither
    can be written. -/
def SameLook (s s' : Style) : Prop :=
  s.declarations = s'.declarations ∧ s.resolved.containerWidth = s'.resolved.containerWidth ∧
    s.isWritable = s'.isWritable

theorem render_of_declarations (s s' : Style) (h : s.declarations = s'.declarations) (t : Text) :
    s.render t = s'.render t := by
  unfold render
  rw [h]

theorem block_of_sameLook (s s' : Style) (h : SameLook s s') (cue : Cue) (duration : Binary64) :
    Timeline.block s cue duration = Timeline.block s' cue duration := by
  rw [Timeline.block, Timeline.block, render_of_declarations s s' h.1, h.2.1]

-- A cue takes nothing else from its style, whether or not it is to be shown.
theorem contribution_of_sameLook (s s' : Style) (h : SameLook s s') (playhead : Binary64)
    (cue : Cue) : Timeline.contribution s playhead cue = Timeline.contribution s' playhead cue := by
  have hevents : ∀ span,
      Timeline.cueEvents s playhead cue span = Timeline.cueEvents s' playhead cue span := by
    intro span
    rw [Timeline.cueEvents, Timeline.cueEvents, Timeline.blockEvents, Timeline.blockEvents,
      block_of_sameLook s s' h]
  have hwritable : ∀ duration,
      Timeline.blockWritable s cue duration = Timeline.blockWritable s' cue duration := by
    intro duration
    rw [Timeline.blockWritable, Timeline.blockWritable, h.2.2]
  simp only [Timeline.contribution, hevents, hwritable]

theorem events_of_sameLook (s s' : Style) (h : SameLook s s') (cues : List Cue) :
    ∀ playhead, Timeline.events s playhead cues = Timeline.events s' playhead cues := by
  induction cues with
  | nil => intro playhead; rfl
  | cons cue cues ih =>
      intro playhead
      rw [Timeline.events, Timeline.events, contribution_of_sameLook s s' h playhead cue]
      simp only [ih]

/-- Styles that look the same make the same timeline, with the same notices. -/
theorem sequence_of_sameLook (s s' : Style) (h : SameLook s s') (cues : List Cue) :
    Timeline.sequence s cues = Timeline.sequence s' cues := by
  rw [Timeline.sequence, Timeline.sequence, events_of_sameLook s s' h]

-- The declarations are made of what is resolved and of whether there is an outline.
theorem declarations_of_resolved (s s' : Style) (h : s.resolved = s'.resolved) :
    s.declarations = s'.declarations := by
  have houtlined : s.outlined = s'.outlined := Value.bool.inj (congrArg Style.outline h)
  rw [declarations, declarations, h, houtlined]

theorem isWritable_of_resolved (s s' : Style) (h : s.resolved = s'.resolved) :
    s.isWritable = s'.isWritable := by
  have houtlined : s.outlined = s'.outlined := Value.bool.inj (congrArg Style.outline h)
  rw [isWritable, isWritable, h, houtlined]

theorem sameLook_of_resolved (s s' : Style) (h : s.resolved = s'.resolved) : SameLook s s' :=
  ⟨declarations_of_resolved s s' h, by rw [h], isWritable_of_resolved s s' h⟩

/-! ### Open fields -/

theorem orStandard_of_isSet (v d : Value) (h : v.isSet = true) : orStandard v d = v := if_pos h

theorem orStandard_of_open (v d : Value) (h : v.isSet = false) : orStandard v d = d :=
  if_neg (Bool.not_eq_true _ ▸ h)

-- The values of open fields are no open values themselves.
theorem orStandard_orStandard (v d : Value) (hd : d.isSet = true) :
    orStandard (orStandard v d) d = orStandard v d := by
  rcases hv : v.isSet with _ | _
  · rw [orStandard_of_open v d hv, orStandard_of_isSet d d hd]
  · rw [orStandard_of_isSet v d hv, orStandard_of_isSet v d hv]

/-- A resolved style resolves to itself. -/
theorem resolved_resolved (s : Style) : s.resolved.resolved = s.resolved := by
  have hsize := orStandard_orStandard s.fontSize standard.fontSize rfl
  have hcolor := orStandard_orStandard s.textColor standard.textColor rfl
  have hwidth := orStandard_orStandard s.outlineWidth standard.outlineWidth rfl
  have hline := orStandard_orStandard s.outlineColor standard.outlineColor rfl
  have hbox := orStandard_orStandard s.containerWidth standard.containerWidth rfl
  simp only [resolved, outlined, Value.isSet, hsize, hcolor, hwidth, hline, hbox]

/-- The fields that are open when nothing, zero or something empty is in them. -/
def openFields : List (Style → Value) :=
  [fontSize, textColor, outlineWidth, outlineColor, containerWidth]

/-- Styles with the same outline, whose other fields are the same or open in
    both. -/
def SameWhereSet (s s' : Style) : Prop :=
  s.outline = s'.outline ∧
    ∀ get ∈ openFields, get s = get s' ∨ (get s).isSet = false ∧ (get s').isSet = false

/-- Open fields resolve alike, whatever is in them. -/
theorem resolved_of_sameWhereSet (s s' : Style) (h : SameWhereSet s s') :
    s.resolved = s'.resolved := by
  have hfield : ∀ get ∈ openFields, ∀ d, orStandard (get s) d = orStandard (get s') d := by
    intro get hget d
    rcases h.2 get hget with heq | ⟨hopen, hopen'⟩
    · rw [heq]
    · rw [orStandard_of_open _ d hopen, orStandard_of_open _ d hopen']
  simp only [openFields, List.forall_mem_cons] at hfield
  rcases hfield with ⟨hsize, hcolor, hwidth, hline, hbox, _⟩
  simp only [resolved, outlined, h.1, hsize, hcolor, hwidth, hline, hbox]

/-! ### Lengths -/

/-- A length as a double and as the whole number that it is, in either order. -/
def SameLength (v w : Value) : Prop :=
  v = w ∨ ∃ (x : Binary64) (n : Int), x.isFinite = true ∧ x.value = n ∧
    (v = .ofDouble x ∧ w = .ofInt n ∨ v = .ofInt n ∧ w = .ofDouble x)

/-- A double that is a whole number is written as one, however large it is. -/
theorem pixels_ofDouble (x : Binary64) (n : Int) (hfinite : x.isFinite = true)
    (h : x.value = n) : pixels (.ofDouble x) = Text.ofInt n := by
  rcases Binary64.whole_of_value x n hfinite h with ⟨hwhole, htruncate, _⟩
  rw [Value.ofDouble, pixels, if_pos hwhole, htruncate, Option.map_some, Option.getD_some]

theorem isSet_ofDouble (x : Binary64) (n : Int) (hfinite : x.isFinite = true)
    (h : x.value = n) : (Value.ofDouble x).isSet = (Value.ofInt n).isSet := by
  rw [Value.ofDouble, Value.isSet, Number.isZero, (Binary64.whole_of_value x n hfinite h).2.2]
  rfl

-- A double has a text anyway, and so has the whole number that it is.
theorem isWritable_ofDouble (x : Binary64) (n : Int) (h : x.value = n) :
    (Value.ofDouble x).isWritable = (Value.ofInt n).isWritable :=
  (Binary64.isWritable_of_value x n h).symm

-- A zero of either kind leaves the field open.
theorem pixels_of_sameLength (v w d : Value) (h : SameLength v w) :
    pixels (orStandard v d) = pixels (orStandard w d) ∧
      (orStandard v d).isWritable = (orStandard w d).isWritable := by
  have hall : v.isSet = w.isSet ∧ pixels v = pixels w ∧ v.isWritable = w.isWritable := by
    rcases h with rfl | ⟨x, n, hfinite, hvalue, ⟨rfl, rfl⟩ | ⟨rfl, rfl⟩⟩
    · exact ⟨rfl, rfl, rfl⟩
    · exact ⟨isSet_ofDouble x n hfinite hvalue, pixels_ofDouble x n hfinite hvalue,
        isWritable_ofDouble x n hvalue⟩
    · exact ⟨(isSet_ofDouble x n hfinite hvalue).symm, (pixels_ofDouble x n hfinite hvalue).symm,
        (isWritable_ofDouble x n hvalue).symm⟩
  rcases hv : v.isSet with _ | _
  · rw [orStandard_of_open v d hv, orStandard_of_open w d (hall.1 ▸ hv)]
    exact ⟨rfl, rfl⟩
  · rw [orStandard_of_isSet v d hv, orStandard_of_isSet w d (hall.1 ▸ hv)]
    exact hall.2

/-- Styles that differ at most in the kind of number that their size and the
    width of their outline are. -/
def SameSizes (s s' : Style) : Prop :=
  SameLength s.fontSize s'.fontSize ∧ SameLength s.outlineWidth s'.outlineWidth ∧
    s.textColor = s'.textColor ∧ s.outline = s'.outline ∧ s.outlineColor = s'.outlineColor ∧
    s.containerWidth = s'.containerWidth

/-- The kind of a length does not show. -/
theorem sameLook_of_sameSizes (s s' : Style) (h : SameSizes s s') : SameLook s s' := by
  rcases h with ⟨hsize, hwidth, hcolor, houtline, hline, hbox⟩
  have hsize := pixels_of_sameLength _ _ standard.fontSize hsize
  have hwidth := pixels_of_sameLength _ _ standard.outlineWidth hwidth
  have houtlined : s.outlined = s'.outlined := by rw [outlined, outlined, houtline]
  refine ⟨?_, ?_, ?_⟩
  · unfold declarations resolved
    simp only [houtlined, hsize.1, hwidth.1, hcolor, hline]
  · simp only [resolved, hbox]
  · unfold isWritable resolved
    simp only [houtlined, hsize.2, hwidth.2, hcolor, hline]

/-! ### No outline -/

/-- Where no outline is drawn its width and its colour do not show. -/
theorem sameLook_of_not_outlined (s : Style) (h : s.outlined = false) (width color : Value) :
    SameLook { s with outlineWidth := width, outlineColor := color } s := by
  have hnone : ({ s with outlineWidth := width, outlineColor := color } : Style).outlined = false :=
    h
  refine ⟨?_, rfl, ?_⟩
  · rw [declarations, declarations, h, hnone]
    rfl
  · rw [isWritable, isWritable, h, hnone]
    rfl

end Style

namespace Timeline

open Style (SameWhereSet SameSizes)

/-- Which styles make one timeline. A style makes the same one as it does resolved,
    and resolving it again changes nothing. Other values in fields that are open,
    lengths as the other kind of number, and what an outline would be that is not
    drawn make no difference either. -/
theorem sequence_resolved (s : Style) (cues : List Cue) :
    s.resolved.resolved = s.resolved ∧
    s.resolved.declarations = s.declarations ∧
    sequence s.resolved cues = sequence s cues ∧
    (∀ s', SameWhereSet s' s →
      s'.resolved = s.resolved ∧ sequence s' cues = sequence s cues) ∧
    (∀ s', SameSizes s' s → s'.declarations = s.declarations ∧
      (∀ t, s'.render t = s.render t) ∧ sequence s' cues = sequence s cues) ∧
    (s.outlined = false → ∀ width color,
      sequence { s with outlineWidth := width, outlineColor := color } cues = sequence s cues) := by
  have hresolved := Style.resolved_resolved s
  have hlook := Style.sameLook_of_resolved _ _ hresolved
  refine ⟨hresolved, hlook.1, Style.sequence_of_sameLook _ _ hlook cues,
    fun s' hsame => ?_, fun s' hsame => ?_, fun houtlined width color => ?_⟩
  · have hsame := Style.resolved_of_sameWhereSet s' s hsame
    exact ⟨hsame, Style.sequence_of_sameLook _ _ (Style.sameLook_of_resolved _ _ hsame) cues⟩
  · have hsame := Style.sameLook_of_sameSizes s' s hsame
    exact ⟨hsame.1, Style.render_of_declarations _ _ hsame.1,
      Style.sequence_of_sameLook _ _ hsame cues⟩
  · exact Style.sequence_of_sameLook _ _
      (Style.sameLook_of_not_outlined s houtlined width color) cues

/-- A style with a huge size, an empty colour and no outline. -/
def huge : Style :=
  { fontSize := .ofDouble (Binary64.ofDecimal false 1 22), textColor := .ofString "",
    outline := .bool false }

/-- A cue of one second. -/
def hello : Cue := ⟨.ofInt 1, .ofString "00:00:01,000", .ofString "00:00:02,000", "Hello"⟩

theorem sequence_resolved_huge :
    SameWhereSet { huge with textColor := .list [], containerWidth := .bool false } huge ∧
    SameSizes { huge with fontSize := .ofInt (10 ^ 22) } huge ∧ huge.outlined = false ∧
    huge.declarations = ["color: #FFFFFF;".toList, "font-size: 10000000000000000000000px;".toList] ∧
    huge.resolved.resolved = huge.resolved ∧
    sequence huge.resolved [hello] = sequence huge [hello] ∧
    sequence { huge with textColor := .list [], containerWidth := .bool false } [hello]
      = sequence huge [hello] ∧
    sequence { huge with fontSize := .ofInt (10 ^ 22) } [hello] = sequence huge [hello] ∧
    sequence { huge with outlineWidth := .ofInt 5, outlineColor := .ofString "red" } [hello]
      = sequence huge [hello] := by
  have hopen : SameWhereSet { huge with textColor := .list [], containerWidth := .bool false }
      huge := by
    refine ⟨rfl, ?_⟩
    simp only [Style.openFields, List.forall_mem_cons]
    exact ⟨Or.inl trivial, Or.inr ⟨rfl, rfl⟩, Or.inl trivial, Or.inl trivial, Or.inr ⟨rfl, rfl⟩,
      fun _ h => absurd h List.not_mem_nil⟩
  have hsize : SameSizes { huge with fontSize := .ofInt (10 ^ 22) } huge := by
    refine ⟨Or.inr ⟨Binary64.ofDecimal false 1 22, 10 ^ 22, by decide +kernel, ?_,
      Or.inr ⟨rfl, rfl⟩⟩, Or.inl rfl, rfl, rfl, rfl, rfl⟩
    rw [Binary64.value_eq_iff]
    decide +kernel
  rcases sequence_resolved huge [hello] with ⟨hresolved, _, hsame, hopens, hsizes, hline⟩
  exact ⟨hopen, hsize, rfl, by decide +kernel, hresolved, hsame, (hopens _ hopen).2,
    (hsizes _ hsize).2.2, hline rfl _ _⟩

end Timeline

end Captions
