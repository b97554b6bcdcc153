import Captions.Value

/-!
# Styles

A style sets the size and the colours of the text, its outline and the width
of the box it stands in. Any field may be left open, and a field that holds
nothing, zero or an empty text counts as open as well, so that a configuration
file can say "the default" in whichever way is at hand. The outline is the
exception: only a missing value leaves it open, because `false` is how it is
turned off.

Open fields are resolved where they are used. A resolved style resolves to
itself.

A field may be a whole number with more digits than can be written. A style that
writes such a field into a text cannot be used for one; `isWritable` is asked
before a text is styled.

## Main definitions

* `Style`: The six fields.
* `Style.resolved`: The style with its open fields filled.
* `Style.pixels`: A length as it is written.
* `Style.isWritable`: Whether a text can be styled.
* `Style.declarations`, `Style.render`: The styled text.
-/

namespace Captions

/-- The look of the overlay text. -/
structure Style where
  /-- The font size in pixels. -/
  fontSize : Value := .null
  /-- The colour of the text. -/
  textColor : Value := .null
  /-- Whether the text is outlined. -/
  outline : Value := .null
  /-- The width of the outline in pixels. -/
  outlineWidth : Value := .null
  /-- The colour of the outline. -/
  outlineColor : Value := .null
  /-- The width of the text's box in pixels. -/
  containerWidth : Value := .null

namespace Style

/-- The values of the fields left open. -/
def standard : Style where
  fontSize := .ofInt 48
  textColor := .ofString "#FFFFFF"
  outline := .bool true
  outlineWidth := .ofInt 2
  outlineColor := .ofString "#222222"
  containerWidth := .ofInt 1200

/-- A value if it is set, and otherwise the one it defaults to. -/
def orStandard (value fallback : Value) : Value :=
  if value.isSet then value else fallback

/-- Whether the text is outlined. -/
def outlined (s : Style) : Bool :=
  match s.outline with
  | .null => standard.outline.isSet
  | v => v.isSet

/-- The style with every open field filled. -/
def resolved (s : Style) : Style where
  fontSize := orStandard s.fontSize standard.fontSize
  textColor := orStandard s.textColor standard.textColor
  outline := .bool s.outlined
  outlineWidth := orStandard s.outlineWidth standard.outlineWidth
  outlineColor := orStandard s.outlineColor standard.outlineColor
  containerWidth := orStandard s.containerWidth standard.containerWidth

/-- A length as it is written: a double without places after the point is
    written as a whole number. -/
def pixels : Value → Text
  | .number (.double x) =>
    if x.isWhole then (x.truncate?.map Text.ofInt).getD x.written else x.written
  | v => v.written

/-- Whether all fields that are written into a styled text can be. The outline's
    are not written when there is none, and the width never is. -/
def isWritable (s : Style) : Bool :=
  s.resolved.textColor.isWritable && s.resolved.fontSize.isWritable &&
    (!s.outlined ||
      s.resolved.outlineWidth.isWritable && s.resolved.outlineColor.isWritable)

/-- The declarations of the colour, the font size and, if there is one, the
    outline. -/
def declarations (s : Style) : List Text :=
  [ "color: " ++ s.resolved.textColor.written ++ ";",
    "font-size: " ++ pixels s.resolved.fontSize ++ "px;" ] ++
  if s.outlined then
    [ "-webkit-text-stroke: " ++ pixels s.resolved.outlineWidth ++ "px " ++
        s.resolved.outlineColor.written ++ ";" ]
  else []

/-- The text inside an element that carries the declarations. -/
def render (s : Style) (t : Text) : Text :=
  "<span style=\"" ++ Text.joinWith " " s.declarations ++ "\">" ++ t ++ "</span>"

end Style

end Captions
