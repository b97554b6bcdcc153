import Captions.CommandLine
import Captions.Proofs.FilePath.Normal
import Captions.Proofs.Player.Waits
import Captions.Proofs.Settings.Fields

/-!
# Arguments That Are Given

Which arguments take effect, and what they leave alone.

An argument that is given should be what its field holds afterwards, whatever it
is, and an argument that is not given should leave the field as it was. Nothing
is what an argument is that is not given. For the fields of the style this is
what is asked, so zero, false and an empty text are taken like any others. A
subtitle file that is given is the text of a path, which is never empty.

For the rate of playback it is asked whether it counts as set, and zero does
not. A rate of zero is passed over, and what is checked and played at is the rate
that stands. Then it takes effect only by chance, where that rate is the same.

## Main definitions

* `Argument`: An argument and the field that it is for.
* `Argument.Takes`: The argument takes effect, if it is given.

## Theorems

* `takes_of_styleArguments`: The arguments for the style take effect.
* `takes_speedArgument_iff`: When the rate of playback does.
* `override_takes`: What becomes of all arguments.
* `not_always_taken`: The rate of playback may be given and not taken.
-/

namespace Captions

namespace Settings

/-- An argument: what is given for it, and the field that it is for. -/
structure Argument where
  /-- What is given, and nothing if it is not. -/
  value : Overrides → Value
  /-- The field that it is for. -/
  field : Settings → Value

/-- The field holds the argument if it is given, and is unchanged if it is not. -/
def Argument.Takes (a : Argument) (s : Settings) (o : Overrides) : Prop :=
  (a.value o ≠ .null → a.field (s.override o) = a.value o) ∧
    (a.value o = .null → a.field (s.override o) = a.field s)

/-- The argument for a field of the style. -/
def styleArgument (get : Style → Value) : Argument := ⟨fun o => get o.style, fun s => get s.style⟩

/-- The arguments for the style. -/
def styleArguments : List Argument :=
  [ Style.fontSize, Style.textColor, Style.outline, Style.outlineWidth, Style.outlineColor,
    Style.containerWidth ].map styleArgument

/-- The argument for the rate of playback. -/
def speedArgument : Argument := ⟨Overrides.speed, fun s => s.playback.speed⟩

theorem given_of_ne_null (value standing : Value) (h : value ≠ .null) :
    given value standing = value := by
  cases value with
  | null => exact absurd rfl h
  | _ => rfl

/-- The arguments for the style take effect, whatever is given. -/
theorem takes_of_styleArguments (s : Settings) (o : Overrides) :
    ∀ a ∈ styleArguments, a.Takes s o := by
  have hfield : ∀ get : Style → Value,
      get (overrideStyle o.style s.style) = given (get o.style) (get s.style) →
      (styleArgument get).Takes s o := by
    intro get h
    refine ⟨fun hgiven => h.trans (given_of_ne_null _ _ hgiven), fun hnull => h.trans ?_⟩
    rw [show get o.style = .null from hnull]
    rfl
  rw [styleArguments, List.forall_mem_map]
  simp only [List.forall_mem_cons]
  exact ⟨hfield _ rfl, hfield _ rfl, hfield _ rfl, hfield _ rfl, hfield _ rfl, hfield _ rfl,
    fun _ h => absurd h List.not_mem_nil⟩

theorem speed_of_isSet (s : Settings) (o : Overrides) (h : o.speed.isSet = true) :
    (s.override o).playback.speed = o.speed := if_pos h

theorem speed_of_not_isSet (s : Settings) (o : Overrides) (h : o.speed.isSet = false) :
    (s.override o).playback.speed = s.playback.speed := if_neg (Bool.not_eq_true _ ▸ h)

/-- The rate of playback takes effect if it counts as set, and otherwise only if
    it is what it was. -/
theorem takes_speedArgument_iff (s : Settings) (o : Overrides) :
    speedArgument.Takes s o ↔
      o.speed = .null ∨ o.speed.isSet = true ∨ o.speed = s.playback.speed := by
  have htakes : speedArgument.Takes s o ↔
      (o.speed ≠ .null → (s.override o).playback.speed = o.speed) ∧
        (o.speed = .null → (s.override o).playback.speed = s.playback.speed) := Iff.rfl
  rw [htakes]
  rcases hset : o.speed.isSet with _ | _
  · rw [speed_of_not_isSet s o hset]
    constructor
    · rintro ⟨hgiven, _⟩
      by_cases hnull : o.speed = .null
      · exact Or.inl hnull
      · exact Or.inr (Or.inr (hgiven hnull).symm)
    · rintro (hnull | hfalse | heq)
      · exact ⟨fun hgiven => absurd hnull hgiven, fun _ => rfl⟩
      · exact absurd hfalse Bool.false_ne_true
      · exact ⟨fun _ => heq.symm, fun _ => rfl⟩
  · rw [speed_of_isSet s o hset]
    have hgiven : o.speed ≠ .null := by
      intro hnull
      rw [hnull] at hset
      exact absurd hset Bool.false_ne_true
    exact iff_of_true ⟨fun _ => rfl, fun hnull => absurd hnull hgiven⟩ (Or.inr (Or.inl rfl))

theorem subtitleFile_of_path (s : Settings) (o : Overrides) (t : Text)
    (h : o.subtitleFile = .text (FilePath.ofText t).text) :
    (s.override o).subtitleFile = .text (FilePath.ofText t).text := by
  rw [override, h, if_pos (FilePath.isSet_text t)]
  rfl

/-- What becomes of all arguments. Those for the style and the subtitle file take
    effect, and nothing else changes. The rate of playback takes effect if it is
    set, and where it does it is the rate that is checked and played at. -/
theorem override_takes (s : Settings) (o : Overrides) :
    (∀ a ∈ styleArguments, a.Takes s o) ∧
    (∀ t, o.subtitleFile = .text (FilePath.ofText t).text →
      (s.override o).subtitleFile = .text (FilePath.ofText t).text) ∧
    (o.subtitleFile = .null → (s.override o).subtitleFile = s.subtitleFile) ∧
    (speedArgument.Takes s o ↔
      o.speed = .null ∨ o.speed.isSet = true ∨ o.speed = s.playback.speed) ∧
    (o.speed.isSet = false → (s.override o).playback.speed = s.playback.speed) ∧
    (s.override o).playback.previewEntries = s.playback.previewEntries ∧
    (s.override o).logging = s.logging ∧
    ∀ a : CommandLine.Arguments, a.overrides = o → a.play = true → o.speed ≠ .null →
      speedArgument.Takes s o →
      (CommandLine.checkSpeed a (s.override a.overrides) = .ok true ↔
        ∃ rate, Player.rate o.speed = .ok rate ∧ rate ≠ .double .nan) ∧
      ∀ rate, Player.rate o.speed = .ok rate → ∀ session patience is,
        CommandLine.deliver session patience a (s.override a.overrides) is
          = CommandLine.play session patience rate is := by
  refine ⟨takes_of_styleArguments s o, subtitleFile_of_path s o, fun hnull => ?_,
    takes_speedArgument_iff s o, speed_of_not_isSet s o, rfl, rfl, ?_⟩
  · rw [override, hnull]
    rfl
  · rintro a rfl hplay hgiven htakes
    have hspeed : (s.override a.overrides).playback.speed = a.overrides.speed := htakes.1 hgiven
    refine ⟨?_, fun rate hrate session patience is => ?_⟩
    · rw [Player.checkSpeed_eq_ok_iff a _ hplay, hspeed]
    · rw [CommandLine.deliver, if_pos hplay, hspeed, hrate]

/-- Arguments that count as not set for the most part. -/
def falsy : Overrides :=
  { subtitleFile := .text (FilePath.ofText "./talk.srt").text
    style := { fontSize := .ofInt 0, textColor := .ofString "", outline := .bool false }
    speed := .ofInt 2 }

theorem override_takes_falsy :
    ({} : Settings).override falsy =
      { subtitleFile := .ofString "talk.srt"
        style := { fontSize := .ofInt 0, textColor := .ofString "", outline := .bool false }
        playback := { speed := .ofInt 2 } } ∧
    speedArgument.Takes {} falsy ∧
    ∀ session patience is,
      CommandLine.deliver session patience { overrides := falsy, play := true }
        (({} : Settings).override falsy) is
          = CommandLine.play session patience (.whole 2) is := by
  rcases override_takes {} falsy with ⟨hstyle, hfile, _, hspeed, _, hentries, hlog, hplay⟩
  have htakes := hspeed.mpr (Or.inr (Or.inl rfl))
  have hgiven : falsy.speed ≠ .null := Value.noConfusion
  simp only [styleArguments, List.forall_mem_map, List.forall_mem_cons] at hstyle
  rcases hstyle with ⟨hsize, hcolor, houtline, hwidth, hline, hbox, _⟩
  refine ⟨Settings.ext (hfile _ rfl) (Style.ext ?_ ?_ ?_ ?_ ?_ ?_)
    (Playback.ext (htakes.1 hgiven) hentries) hlog, htakes,
    (hplay { overrides := falsy, play := true } rfl rfl hgiven htakes).2 _ rfl⟩
  · exact hsize.1 Value.noConfusion
  · exact hcolor.1 Value.noConfusion
  · exact houtline.1 Value.noConfusion
  · exact hwidth.2 rfl
  · exact hline.2 rfl
  · exact hbox.2 rfl

/-- A rate of playback that is given need not be the one that holds. -/
theorem not_always_taken :
    ¬ ∀ (s : Settings) (o : Overrides), speedArgument.Takes s o := by
  intro h
  have hzero := (takes_speedArgument_iff {} { speed := .ofDouble .zero }).mp (h _ _)
  rcases hzero with hnull | hset | heq
  · exact Value.noConfusion hnull
  · exact absurd hset (by decide)
  · exact absurd (Number.double.inj (Value.number.inj heq)) (by decide +kernel)

end Settings

end Captions
