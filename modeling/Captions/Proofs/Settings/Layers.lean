import Captions.Proofs.Settings.Fields

/-!
# Settings in Layers

What the settings are after any number of overrides.

An override changes a field or leaves it, and it leaves the other fields to
themselves. So the settings after many of them are settled field by field: the
last override that gives a field decides, and if none does, the mapping. That one
override twice is the same as once, and that overrides of different fields may
change places, is then a matter of one field as well.

Settings are values here, and a value does not change. In a program that holds
its settings as objects this is not so. There the style is an object that may be
held elsewhere, and what an override has to make sure of is that it leaves the
object as it is and holds another one from then on. `Held` is that view of the
same settings: all style objects made so far, and the one that is held.

## Main definitions

* `Apart`: Overrides that do not give a field both.
* `Held`: Settings that hold one of the styles that were made.
* `Held.override`: Such settings with a caller's overrides.

## Theorems

* `get_override`: What an override makes of a field.
* `get_foldl_override`: What any number of them makes of it.
* `Held.settings_override`: Both views of the settings agree.
* `Held.styles_foldl`: No style that was made is changed.
* `Held.getElem?_foldl`: A style that is held stays what it is.
* `override_layers`: The settings after any number of overrides.
-/

namespace Captions

namespace Settings

/-! ### Fields -/

theorem given_eq (value standing : Value) :
    given value standing = (nonNull value).getD standing := by
  cases value <;> rfl

theorem ite_eq_getD (p : Prop) [Decidable p] (value standing : Value) :
    (if p then value else standing) = (if p then some value else none).getD standing := by
  by_cases h : p
  · rw [if_pos h, if_pos h, Option.getD_some]
  · rw [if_neg h, if_neg h, Option.getD_none]

theorem get_override_styleField (s : Settings) (o : Overrides) :
    ∀ f ∈ styleFields, f.get (s.override o) = (f.offered o).getD (f.get s) := by
  have hfield : ∀ key get, get (overrideStyle o.style s.style) = given (get o.style) (get s.style) →
      (styleField key get).get (s.override o)
        = ((styleField key get).offered o).getD ((styleField key get).get s) := by
    intro key get h
    rw [get_styleField, get_styleField, override, h, given_eq]
    rfl
  simp only [styleFields, List.forall_mem_cons]
  refine ⟨?_, ?_, ?_, ?_, ?_, ?_, fun _ h => absurd h List.not_mem_nil⟩
  · exact hfield _ Style.fontSize rfl
  · exact hfield _ Style.textColor rfl
  · exact hfield _ Style.outline rfl
  · exact hfield _ Style.outlineWidth rfl
  · exact hfield _ Style.outlineColor rfl
  · exact hfield _ Style.containerWidth rfl

theorem get_override_fixedField (group key : Text) (standard : Value) (get : Settings → Value)
    (s : Settings) (o : Overrides) (h : get (s.override o) = get s) :
    (fixedField group key standard get).get (s.override o)
      = ((fixedField group key standard get).offered o).getD
          ((fixedField group key standard get).get s) := by
  rw [fixedField, Option.getD_none]
  exact h

/-- What an override makes of a field: what it gives, and otherwise what it was. -/
theorem get_override (s : Settings) (o : Overrides) :
    ∀ f ∈ fields, f.get (s.override o) = (f.offered o).getD (f.get s) := by
  rw [fields, List.forall_mem_append]
  refine ⟨?_, get_override_styleField s o⟩
  simp only [List.forall_mem_cons]
  refine ⟨?_, ?_, ?_, ?_, ?_, fun _ h => absurd h List.not_mem_nil⟩
  · exact ite_eq_getD _ _ s.subtitleFile
  · exact ite_eq_getD _ _ s.playback.speed
  · exact get_override_fixedField _ _ _ _ s o rfl
  · exact get_override_fixedField _ _ _ _ s o rfl
  · exact get_override_fixedField _ _ _ _ s o rfl

/-- What any number of overrides makes of a field: what the last of them gives that
    gives it, and otherwise what it was. -/
theorem get_foldl_override (f : Field) (hf : f ∈ fields) (os : List Overrides) :
    ∀ s : Settings, f.get (os.foldl override s)
      = (os.filterMap f.offered).getLast?.getD (f.get s) := by
  induction os with
  | nil => intro s; rfl
  | cons o os ih =>
      intro s
      rw [List.foldl_cons, ih, get_override s o f hf]
      cases hoffer : f.offered o with
      | none => rw [List.filterMap_cons_none hoffer, Option.getD_none]
      | some v =>
          rw [List.filterMap_cons_some hoffer, List.getLast?_cons, Option.getD_some,
            Option.getD_some]

/-- The same override twice in a row is the same as once. -/
theorem override_override (s : Settings) (o : Overrides) :
    (s.override o).override o = s.override o := by
  refine eq_of_fields _ _ fun f hf => ?_
  rw [get_override _ o f hf, get_override s o f hf]
  cases f.offered o <;> rfl

/-- No field is given by both overrides. -/
def Apart (o o' : Overrides) : Prop :=
  ∀ f ∈ fields, f.offered o = none ∨ f.offered o' = none

/-- Overrides of different fields may change places. -/
theorem override_comm (s : Settings) (o o' : Overrides) (h : Apart o o') :
    (s.override o).override o' = (s.override o').override o := by
  refine eq_of_fields _ _ fun f hf => ?_
  rw [get_override _ o' f hf, get_override s o f hf, get_override _ o f hf, get_override s o' f hf]
  rcases h f hf with hnone | hnone
  · rw [hnone, Option.getD_none, Option.getD_none]
  · rw [hnone, Option.getD_none, Option.getD_none]

/-! ### Styles as objects -/

/-- Whether overrides give a field of the style. -/
def givesStyle (o : Overrides) : Bool := styleFields.any fun f => (f.offered o).isSome

theorem overrideStyle_of_not_givesStyle (s : Settings) (o : Overrides)
    (h : givesStyle o = false) : overrideStyle o.style s.style = s.style := by
  have hstyle : (s.override o).style = s.style := eq_of_styleFields _ _ fun f hf => by
    have hnone : f.offered o = none :=
      Option.not_isSome_iff_eq_none.mp (List.any_eq_false.mp h f hf)
    rw [get_override_styleField s o f hf, hnone, Option.getD_none]
  exact hstyle

/-- Settings that hold one of the styles that were made. The others may be held
    elsewhere. -/
structure Held where
  /-- The styles that were made, in their order. -/
  styles : List Style
  /-- The place of the one that is held. -/
  current : Nat
  current_lt : current < styles.length
  /-- The subtitle file. -/
  subtitleFile : Value
  /-- Playing and previewing. -/
  playback : Playback
  /-- The log. -/
  logging : Logging

namespace Held

/-- The style that is held. -/
def style (h : Held) : Style := h.styles.get ⟨h.current, h.current_lt⟩

/-- The settings without regard to what else was made. -/
def settings (h : Held) : Settings := ⟨h.subtitleFile, h.style, h.playback, h.logging⟩

/-- The settings with a caller's overrides. If they give a field of the style, a new
    style is made and held from then on; nothing else is done to the styles. -/
def override (h : Held) (o : Overrides) : Held where
  styles := if givesStyle o then h.styles ++ [overrideStyle o.style h.style] else h.styles
  current := if givesStyle o then h.styles.length else h.current
  current_lt := by
    split
    · rw [List.length_append, List.length_singleton]
      exact Nat.lt_succ_self _
    · exact h.current_lt
  subtitleFile := (h.settings.override o).subtitleFile
  playback := (h.settings.override o).playback
  logging := h.logging

theorem getElem?_current (h : Held) : h.styles[h.current]? = some h.style :=
  List.getElem?_eq_getElem h.current_lt

theorem styles_of_givesStyle (h : Held) (o : Overrides) (hgives : givesStyle o = true) :
    (h.override o).styles = h.styles ++ [overrideStyle o.style h.style] := if_pos hgives

theorem styles_of_not_givesStyle (h : Held) (o : Overrides) (hgives : ¬ givesStyle o = true) :
    (h.override o).styles = h.styles := if_neg hgives

theorem style_override (h : Held) (o : Overrides) :
    (h.override o).style = overrideStyle o.style h.style := by
  rw [← Option.some_inj, ← getElem?_current]
  by_cases hgives : givesStyle o = true
  · have hcurrent : (h.override o).current = h.styles.length := if_pos hgives
    rw [styles_of_givesStyle h o hgives, hcurrent, List.getElem?_concat_length]
  · have hcurrent : (h.override o).current = h.current := if_neg hgives
    have hsame := overrideStyle_of_not_givesStyle h.settings o ((Bool.not_eq_true _).mp hgives)
    have hstyle : h.settings.style = h.style := rfl
    rw [hstyle] at hsame
    rw [styles_of_not_givesStyle h o hgives, hcurrent, getElem?_current, hsame]

/-- The settings that are held are the settings with the overrides. -/
theorem settings_override (h : Held) (o : Overrides) :
    (h.override o).settings = h.settings.override o :=
  Settings.ext rfl (style_override h o) rfl rfl

theorem settings_foldl (os : List Overrides) :
    ∀ h : Held, (os.foldl override h).settings = os.foldl Settings.override h.settings := by
  induction os with
  | nil => intro h; rfl
  | cons o os ih =>
      intro h
      rw [List.foldl_cons, List.foldl_cons, ih, settings_override]

-- An override makes a style or none, and leaves those that were made as they are.
theorem styles_override (h : Held) (o : Overrides) : h.styles <+: (h.override o).styles := by
  by_cases hgives : givesStyle o = true
  · rw [styles_of_givesStyle h o hgives]
    exact List.prefix_append _ _
  · exact styles_of_not_givesStyle h o hgives ▸ List.prefix_rfl

/-- No style that was made is changed by any number of overrides. -/
theorem styles_foldl (os : List Overrides) :
    ∀ h : Held, h.styles <+: (os.foldl override h).styles := by
  induction os with
  | nil => intro h; exact List.prefix_rfl
  | cons o os ih =>
      intro h
      exact (styles_override h o).trans (ih (h.override o))

/-- The style that is held stays what it is, whether it is held later or not. -/
theorem getElem?_foldl (h : Held) (os : List Overrides) :
    (os.foldl override h).styles[h.current]? = some h.style := by
  rcases styles_foldl os h with ⟨made, hmade⟩
  rw [← hmade, List.getElem?_append_left h.current_lt, getElem?_current]

end Held

/-! ### All layers -/

/-- The settings that a mapping describes, after any number of overrides. Every
    field is what the last override makes of it that gives it, and otherwise what
    the mapping says or leaves to the default. Order and unknown names in the mapping
    do not matter, an override twice in a row is the same as once, and overrides
    of different fields may change places. If styles are objects, none of those
    held on the way is changed. -/
theorem override_layers (es : List (Key × Value)) (s : Settings)
    (h : ofValue (.map es) = .ok s) :
    (∀ os : List Overrides, ∀ f ∈ fields, f.get (os.foldl override s)
      = (os.filterMap f.offered).getLast?.getD (f.configured es)) ∧
    (∀ es', Alike es es' → ofValue (.map es') = .ok s) ∧
    (∀ (t : Settings) (o : Overrides), (t.override o).override o = t.override o) ∧
    (∀ (t : Settings) (o o' : Overrides), Apart o o' →
      (t.override o).override o' = (t.override o').override o) ∧
    ∀ held : Held, held.settings = s → ∀ before after : List Overrides,
      ((before ++ after).foldl Held.override held).settings = (before ++ after).foldl override s ∧
      ((before ++ after).foldl Held.override held).styles[
        (before.foldl Held.override held).current]? = some (before.foldl override s).style := by
  refine ⟨fun os f hf => ?_, fun es' halike => ofSections_of_alike es es' halike s h,
    override_override, override_comm, fun held hheld before after => ⟨?_, ?_⟩⟩
  · rw [get_foldl_override f hf os s, get_of_sections es s h f hf]
  · rw [Held.settings_foldl, hheld]
  · have hstyle : (before.foldl Held.override held).style = (before.foldl override s).style := by
      rw [← hheld, ← Held.settings_foldl]
      rfl
    rw [List.foldl_append, Held.getElem?_foldl, hstyle]

/-- Entries of a style with a name that means nothing. -/
def styleEntries : List (Key × Value) :=
  [ (.text "font_size", .ofInt 20), (.text "bold", .bool true), (.text "text_color", .null) ]

/-- The same entries in another order, without that name. -/
def reorderedEntries : List (Key × Value) :=
  [(.text "text_color", .null), (.text "font_size", .ofInt 20)]

/-- A mapping with a section that holds nothing. -/
def sample : List (Key × Value) :=
  [(.text "style", .map styleEntries), (.text "playback", .null)]

/-- The same in another order, with a section that means nothing. -/
def reordered : List (Key × Value) :=
  [ (.number (.whole 1), .text "unknown"), (.text "playback", .null),
    (.text "style", .map reorderedEntries) ]

theorem alike_reordered : Alike sample reordered := by
  refine ⟨by decide, _, List.Perm.swap _ _ _, List.Forall₂.cons ⟨rfl, Or.inl rfl⟩
    (List.Forall₂.cons ⟨rfl, Or.inr ⟨"style", styleEntries, reorderedEntries, rfl, rfl, rfl, ?_⟩⟩
      List.Forall₂.nil)⟩
  exact ⟨by decide, List.Perm.swap _ _ _⟩

/-- Overrides with a size, a subtitle file and a rate that does not count. -/
def large : Overrides :=
  { subtitleFile := .text "talk.srt", style := { fontSize := .ofInt 36 }, speed := .ofInt 0 }

/-- Overrides with an outline. -/
def plain : Overrides := { style := { outline := .bool false } }

theorem apart_large_plain : Apart large plain := by
  have hnone : ∀ f ∈ fields, (f.offered large).isNone ∨ (f.offered plain).isNone := by decide
  intro f hf
  exact (hnone f hf).imp Option.isNone_iff_eq_none.mp Option.isNone_iff_eq_none.mp

theorem override_layers_sample :
    ∃ s, ofValue (.map sample) = .ok s ∧
      (fields.map fun f => f.get ([large, plain].foldl override s))
        = [ .text "talk.srt", .ofDouble (Binary64.ofInt 1), .ofInt 10, .ofString "INFO", .null,
            .ofInt 36, .null, .bool false, .null, .null, .null ] ∧
      Alike sample reordered ∧ ofValue (.map reordered) = .ok s ∧
      (s.override large).override large = s.override large ∧
      Apart large plain ∧ (s.override large).override plain = (s.override plain).override large ∧
      ∃ held : Held, held.settings = s ∧
        ([large, plain].foldl Held.override held).settings = [large, plain].foldl override s ∧
        ([large, plain].foldl Held.override held).styles[
          ([large].foldl Held.override held).current]? = some ([large].foldl override s).style := by
  rcases hs : ofValue (.map sample) with fault | s
  · exact absurd hs (ok_ne_error _ _)
  · rcases override_layers sample s hs with ⟨hfields, hsame, htwice, hswap, hheld⟩
    have hlast := List.map_congr_left (hfields [large, plain])
    refine ⟨s, rfl, hlast, alike_reordered, hsame _ alike_reordered, htwice s large,
      apart_large_plain, hswap s large plain apart_large_plain, ?_⟩
    exact ⟨⟨[s.style], 0, Nat.one_pos, s.subtitleFile, s.playback, s.logging⟩, rfl,
      hheld _ rfl [large] [plain]⟩

end Settings

end Captions
