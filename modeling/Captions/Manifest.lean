import Captions.Style

/-!
# Manifest

What an overlay host is told about the program before it runs: its name and the
parameters a user may set, each with its type and default. The defaults are
those of the standard style.

## Main definitions

* `Manifest.script`: The name, the description and the version.
* `Manifest.parameters`: The parameters.
* `Manifest.description`: Both together.
-/

namespace Captions

namespace Manifest

/-- The name, the description and the version. -/
def script : Value :=
  .map
    [ ("name", .ofString "Subtitle Displayer"),
      ("description", .ofString
        ("Reads an SRT subtitle file and displays it on the overlay " ++
          "with correct timing and custom styles.")),
      ("version", .ofString "1.3") ]

/-- A parameter of a type, with its description and its default. -/
def parameter (type description : String) (standard : Value) : Value :=
  .map
    [ ("type", .ofString type), ("description", .ofString description), ("default", standard) ]

/-- The parameter that names the subtitle file, which has no default. -/
def subtitleFile : Value :=
  .map
    [ ("type", .ofString "filepath"),
      ("description", .ofString "Select the .srt subtitle file to display."),
      ("fileOptions",
        .map
          [ ("filters",
              .list
                [ .map
                    [ ("name", .ofString "SubRip Subtitle"),
                      ("extensions", .list [.ofString "srt"]) ] ]) ]) ]

/-- The parameters a user may set. -/
def parameters : Value :=
  .map
    [ ("subtitleFile", subtitleFile),
      ("containerWidth",
        parameter "number"
          ("The width of the text container in pixels. " ++
            "Adjust if text is wrapping too soon.")
          Style.standard.containerWidth),
      ("fontSize",
        parameter "number" "Font size for the subtitles in pixels." Style.standard.fontSize),
      ("textColor",
        parameter "string" "The color of the subtitle text (hex code, e.g., #FFFFFF)."
          Style.standard.textColor),
      ("outline",
        parameter "boolean" "Enable or disable a text outline for better visibility."
          Style.standard.outline),
      ("outlineWidth",
        parameter "number" "The width of the text outline in pixels."
          Style.standard.outlineWidth),
      ("outlineColor",
        parameter "string" "The color of the text outline (hex code, e.g., #222222)."
          Style.standard.outlineColor) ]

/-- The script and its parameters. -/
def description : Value := .map [("manifest", script), ("parameters", parameters)]

end Manifest

end Captions
