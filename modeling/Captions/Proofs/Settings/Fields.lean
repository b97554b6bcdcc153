import Captions.Proofs.Outcome
import Captions.Settings
import Mathlib.Data.List.Nodup

/-!
# The Fields of the Settings

What a mapping says about the settings, field by field.

The settings are four records with eleven fields, and the mapping that describes
them is as deep: each field stands under a key in a section. Instead of following
the records, everything is said of one field at a time. A field knows where it
stands in a mapping, what it is otherwise, where it is in the settings and when
an override gives it, and two settings are the same if they agree on all fields.

The value of a field is then a matter of two look-ups, and only of names that are
known. So it does not matter what else a mapping holds, nor, as long as no name
occurs twice, in which order.

## Main definitions

* `Field`, `fields`: The fields of the settings.
* `Field.configured`: What a mapping says about a field.
* `SameUnder`: Entries that are the same under some names, up to their order.
* `Alike`: Mappings that are the same but for order and unknown names.

## Theorems

* `find?_of_sameUnder`: Entries that are the same have the same look-ups.
* `eq_of_fields`: Settings are the same if their fields are.
* `ofSections_eq_ok_iff`: Which mappings describe settings.
* `get_of_sections`: What the fields of such settings are.
* `ofSections_of_alike`: Order and unknown names do not matter.
-/

namespace Captions

namespace Value

/-- The entries under some names. -/
def known (names : List Text) (es : List (Key × Value)) : List (Key × Value) :=
  es.filter fun e => names.any fun name => e.1 = .text name

/-- Entries that are the same under some names, in any order and whatever else
    there is. No name occurs twice. -/
def SameUnder (names : List Text) (es es' : List (Key × Value)) : Prop :=
  ((known names es).map Prod.fst).Nodup ∧ (known names es).Perm (known names es')

theorem find?_known (names : List Text) (name : Text) (h : name ∈ names)
    (es : List (Key × Value)) : find? name (known names es) = find? name es := by
  induction es with
  | nil => rfl
  | cons e es ih =>
      rcases e with ⟨k, v⟩
      rw [known] at ih ⊢
      rw [List.filter_cons]
      split
      · rw [find?, find?, ih]
      · rename_i hnot
        have hk : k ≠ .text name := fun hk =>
          hnot (List.any_eq_true.mpr ⟨name, h, decide_eq_true hk⟩)
        rw [find?, if_neg hk, ih]

-- With distinct keys a look-up finds exactly what is there.
theorem find?_eq_some_iff (name : Text) (es : List (Key × Value)) (hd : (es.map Prod.fst).Nodup)
    (v : Value) : find? name es = some v ↔ (.text name, v) ∈ es := by
  induction es with
  | nil => exact iff_of_false (Option.some_ne_none v).symm List.not_mem_nil
  | cons e es ih =>
      rcases e with ⟨k, w⟩
      rw [List.map_cons, List.nodup_cons] at hd
      rw [find?, List.mem_cons, Prod.mk.injEq]
      by_cases hk : k = .text name
      · have hnot : (Key.text name, v) ∉ es := by
          intro hmem
          rw [hk] at hd
          exact hd.1 (List.mem_map.mpr ⟨_, hmem, rfl⟩)
        rw [if_pos hk, Option.some_inj, hk]
        simp only [hnot, true_and, or_false, eq_comm]
      · rw [if_neg hk, ih hd.2]
        simp only [Ne.symm hk, false_and, false_or]

theorem find?_perm (name : Text) (es es' : List (Key × Value)) (hd : (es.map Prod.fst).Nodup)
    (h : es.Perm es') : find? name es = find? name es' := by
  have hd' : (es'.map Prod.fst).Nodup := (h.map Prod.fst).nodup_iff.mp hd
  refine Option.ext fun v => ?_
  rw [find?_eq_some_iff name es hd, find?_eq_some_iff name es' hd', h.mem_iff]

/-- Entries that are the same under some names have the same look-ups. -/
theorem find?_of_sameUnder (names : List Text) (es es' : List (Key × Value))
    (h : SameUnder names es es') (name : Text) (hname : name ∈ names) :
    find? name es = find? name es' := by
  rw [← find?_known names name hname es, ← find?_known names name hname es']
  exact find?_perm name _ _ h.1 h.2

end Value

attribute [ext] Style Playback Logging Settings

namespace Settings

open Value (find? known SameUnder find?_known find?_perm find?_of_sameUnder)

/-- A field of the settings. -/
structure Field where
  /-- The section that it stands in. -/
  group : Text
  /-- Its key in the section. -/
  key : Text
  /-- What it is if nothing is said about it. -/
  standard : Value
  /-- What it is in settings. -/
  get : Settings → Value
  /-- What overrides make of it, if they give it. -/
  offered : Overrides → Option Value

/-- A value that is not nothing. -/
def nonNull : Value → Option Value
  | .null => none
  | v => some v

/-- A field of the style. It is given when it is not nothing. -/
def styleField (key : Text) (get : Style → Value) : Field where
  group := "style"
  key := key
  standard := .null
  get s := get s.style
  offered o := nonNull (get o.style)

/-- The fields of the style. -/
def styleFields : List Field :=
  [ styleField "font_size" Style.fontSize, styleField "text_color" Style.textColor,
    styleField "outline" Style.outline, styleField "outline_width" Style.outlineWidth,
    styleField "outline_color" Style.outlineColor,
    styleField "container_width" Style.containerWidth ]

/-- The subtitle file. What is given becomes a text. -/
def subtitleFileField : Field where
  group := "source"
  key := "subtitle_file"
  standard := .null
  get := subtitleFile
  offered o := if o.subtitleFile.isSet then some (.text o.subtitleFile.written) else none

/-- The rate of playback. -/
def speedField : Field where
  group := "playback"
  key := "speed"
  standard := .ofDouble (Binary64.ofInt 1)
  get s := s.playback.speed
  offered o := if o.speed.isSet then some o.speed else none

/-- A field that no override gives. -/
def fixedField (group key : Text) (standard : Value) (get : Settings → Value) : Field where
  group := group
  key := key
  standard := standard
  get := get
  offered _ := none

/-- The fields of the settings. -/
def fields : List Field :=
  [ subtitleFileField, speedField,
    fixedField "playback" "preview_entries" (.ofInt 10) (·.playback.previewEntries),
    fixedField "logging" "level" (.ofString "INFO") (·.logging.level),
    fixedField "logging" "file" .null (·.logging.file) ] ++ styleFields

/-- The names of the sections. -/
def groups : List Text := ["source", "style", "playback", "logging"]

/-- The keys of a section. -/
def keysOf (group : Text) : List Text :=
  (fields.filter fun f => f.group = group).map Field.key

/-- What a mapping says about a field: the value under its key in its section, if
    there are both. -/
def Field.configured (f : Field) (es : List (Key × Value)) : Value :=
  match find? f.group es with
  | some (.map entries) => field entries f.key f.standard
  | _ => f.standard

theorem get_styleField (key : Text) (get : Style → Value) (s : Settings) :
    (styleField key get).get s = get s.style := rfl

theorem eq_of_styleFields (s s' : Settings) (h : ∀ f ∈ styleFields, f.get s = f.get s') :
    s.style = s'.style := by
  simp only [styleFields, List.forall_mem_cons, get_styleField] at h
  rcases h with ⟨hsize, hcolor, houtline, hwidth, hline, hbox, _⟩
  exact Style.ext hsize hcolor houtline hwidth hline hbox

/-- Settings are the same if all their fields are. -/
theorem eq_of_fields (s s' : Settings) (h : ∀ f ∈ fields, f.get s = f.get s') : s = s' := by
  rw [fields, List.forall_mem_append] at h
  rcases h with ⟨hothers, hstyle⟩
  simp only [List.forall_mem_cons] at hothers
  rcases hothers with ⟨hfile, hspeed, hentries, hlevel, hlog, _⟩
  exact Settings.ext hfile (eq_of_styleFields s s' hstyle) (Playback.ext hspeed hentries)
    (Logging.ext hlevel hlog)

/-- A mapping describes settings exactly when its sections have entries. -/
theorem ofSections_eq_ok_iff (es : List (Key × Value)) :
    (∃ s, ofSections es = .ok s) ↔
      ∀ group ∈ groups, ∃ entries, section? es group = .ok entries := by
  simp only [ofSections, bind_eq_ok_iff, pure_eq_ok_iff, groups, List.forall_mem_cons]
  constructor
  · rintro ⟨s, source, hsource, style, hstyle, playback, hplayback, logging, hlogging, _⟩
    exact ⟨⟨source, hsource⟩, ⟨style, hstyle⟩, ⟨playback, hplayback⟩, ⟨logging, hlogging⟩,
      fun _ h => absurd h List.not_mem_nil⟩
  · rintro ⟨⟨source, hsource⟩, ⟨style, hstyle⟩, ⟨playback, hplayback⟩, ⟨logging, hlogging⟩, _⟩
    exact ⟨_, source, hsource, style, hstyle, playback, hplayback, logging, hlogging, rfl⟩

-- A section that is missing or nothing says as much as one without entries.
theorem configured_of_section (f : Field) (es entries : List (Key × Value))
    (h : section? es f.group = .ok entries) :
    f.configured es = field entries f.key f.standard := by
  unfold section? at h
  rw [Field.configured]
  rcases hfind : find? f.group es with _ | v
  · rw [hfind] at h
    rw [← Except.ok.inj h]
    rfl
  · rw [hfind] at h
    cases v with
    | null =>
        rw [← Except.ok.inj h]
        rfl
    | map a => rw [← Except.ok.inj h]
    | _ => exact absurd h (error_ne_ok _ _)

/-- The fields of settings that a mapping describes. -/
theorem get_of_sections (es : List (Key × Value)) (s : Settings) (h : ofSections es = .ok s) :
    ∀ f ∈ fields, f.get s = f.configured es := by
  simp only [ofSections, bind_eq_ok_iff, pure_eq_ok_iff] at h
  rcases h with ⟨source, hsource, style, hstyle, playback, hplayback, logging, hlogging, rfl⟩
  have hfield : ∀ f : Field, ∀ entries, section? es f.group = .ok entries →
      field entries f.key f.standard = f.configured es :=
    fun f entries h => (configured_of_section f es entries h).symm
  have hstyles : ∀ key get, field style key .null = (styleField key get).configured es :=
    fun key get => hfield (styleField key get) style hstyle
  rw [fields, styleFields]
  simp only [List.forall_mem_append, List.forall_mem_cons]
  refine ⟨⟨?_, ?_, ?_, ?_, ?_, fun _ h => absurd h List.not_mem_nil⟩, ?_, ?_, ?_, ?_, ?_, ?_,
    fun _ h => absurd h List.not_mem_nil⟩
  · exact hfield subtitleFileField source hsource
  · exact hfield speedField playback hplayback
  · exact hfield (fixedField _ _ _ _) playback hplayback
  · exact hfield (fixedField _ _ _ _) logging hlogging
  · exact hfield (fixedField _ _ _ _) logging hlogging
  all_goals exact hstyles _ _

/-! ### Order and unknown names -/

/-- Entries of a mapping whose sections are the same under the keys of their
    fields. -/
def AlikeSection (e e' : Key × Value) : Prop :=
  e.1 = e'.1 ∧ (e.2 = e'.2 ∨ ∃ group a b, e.1 = .text group ∧ e.2 = .map a ∧ e'.2 = .map b ∧
    SameUnder (keysOf group) a b)

/-- Mappings with the same sections, in any order and whatever else there is,
    whose entries are the same in any order and whatever else there is. -/
def Alike (es es' : List (Key × Value)) : Prop :=
  ((known groups es).map Prod.fst).Nodup ∧
    ∃ reordered, (known groups es).Perm reordered ∧
      List.Forall₂ AlikeSection reordered (known groups es')

theorem group_mem_groups : ∀ f ∈ fields, f.group ∈ groups := by
  decide

theorem key_mem_keysOf (f : Field) (hf : f ∈ fields) : f.key ∈ keysOf f.group :=
  List.mem_map.mpr ⟨f, List.mem_filter.mpr ⟨hf, decide_eq_true rfl⟩, rfl⟩

-- A section is the same, or both have entries that are.
theorem find?_of_forall₂ (group : Text) (es es' : List (Key × Value))
    (h : List.Forall₂ AlikeSection es es') :
    find? group es = find? group es' ∨ ∃ a b, find? group es = some (.map a) ∧
      find? group es' = some (.map b) ∧ SameUnder (keysOf group) a b := by
  induction h with
  | nil => exact Or.inl rfl
  | @cons e e' es es' he _ ih =>
      rcases e with ⟨k, v⟩
      rcases e' with ⟨k', v'⟩
      rcases he with ⟨hk, hv⟩
      simp only at hk hv
      rw [find?, find?, ← hk]
      by_cases hgroup : k = .text group
      · rw [if_pos hgroup, if_pos hgroup]
        rcases hv with rfl | ⟨group', a, b, hk', rfl, rfl, hsame⟩
        · exact Or.inl rfl
        · rw [hgroup, Key.text.injEq] at hk'
          exact Or.inr ⟨a, b, rfl, rfl, hk' ▸ hsame⟩
      · rw [if_neg hgroup, if_neg hgroup]
        exact ih

theorem find?_of_alike (group : Text) (hgroup : group ∈ groups) (es es' : List (Key × Value))
    (h : Alike es es') :
    find? group es = find? group es' ∨ ∃ a b, find? group es = some (.map a) ∧
      find? group es' = some (.map b) ∧ SameUnder (keysOf group) a b := by
  rcases h with ⟨hd, reordered, hperm, halike⟩
  rw [← find?_known groups group hgroup es, ← find?_known groups group hgroup es',
    find?_perm group _ _ hd hperm]
  exact find?_of_forall₂ group _ _ halike

theorem configured_of_alike (f : Field) (hf : f ∈ fields) (es es' : List (Key × Value))
    (h : Alike es es') : f.configured es = f.configured es' := by
  rw [Field.configured, Field.configured]
  rcases find?_of_alike f.group (group_mem_groups f hf) es es' h with heq | ⟨a, b, ha, hb, hsame⟩
  · rw [heq]
  · rw [ha, hb]
    simp only [field, find?_of_sameUnder _ a b hsame f.key (key_mem_keysOf f hf)]

/-- Order and unknown names do not matter. -/
theorem ofSections_of_alike (es es' : List (Key × Value)) (h : Alike es es') (s : Settings)
    (hs : ofSections es = .ok s) : ofSections es' = .ok s := by
  have haccepted : ∃ s', ofSections es' = .ok s' := by
    rw [ofSections_eq_ok_iff]
    intro group hgroup
    rcases (ofSections_eq_ok_iff es).mp ⟨s, hs⟩ group hgroup with ⟨entries, hentries⟩
    rcases find?_of_alike group hgroup es es' h with heq | ⟨a, b, _, hb, _⟩
    · exact ⟨entries, by rw [section?, ← heq]; exact hentries⟩
    · exact ⟨b, by rw [section?, hb]⟩
  rcases haccepted with ⟨s', hs'⟩
  have hsame : s = s' := eq_of_fields s s' fun f hf => by
    rw [get_of_sections es s hs f hf, get_of_sections es' s' hs' f hf,
      configured_of_alike f hf es es' h]
  rw [hsame]
  exact hs'

end Settings

end Captions
