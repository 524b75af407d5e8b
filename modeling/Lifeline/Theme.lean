import Lifeline.Json.Display
import Lifeline.Json.Writer

/-!
# Colour themes

A theme gives a colour to each of nine places of a diagram.  Colours are texts
and are not checked.  A directive in front of a diagram applies a theme.
-/

namespace Lifeline

/-- The places of a diagram that have a colour. -/
inductive Slot where
  | primary
  | secondary
  | background
  | text
  | actorBackground
  | actorText
  | lineColor
  | noteBackground
  | noteBorder
deriving DecidableEq

namespace Slot

/-- All places in order. -/
def all : List Slot :=
  [.primary, .secondary, .background, .text, .actorBackground, .actorText, .lineColor,
    .noteBackground, .noteBorder]

/-- The name of a place in a record. -/
def name : Slot → Text
  | .primary => "primary".toText
  | .secondary => "secondary".toText
  | .background => "background".toText
  | .text => "text".toText
  | .actorBackground => "actorBackground".toText
  | .actorText => "actorText".toText
  | .lineColor => "lineColor".toText
  | .noteBackground => "noteBackground".toText
  | .noteBorder => "noteBorder".toText

end Slot

/-- Nine colours. -/
structure Theme where
  primary : Text
  secondary : Text
  background : Text
  text : Text
  actorBackground : Text
  actorText : Text
  lineColor : Text
  noteBackground : Text
  noteBorder : Text
deriving DecidableEq

namespace Theme

/-- The colour of a place. -/
def get (theme : Theme) : Slot → Text
  | .primary => theme.primary
  | .secondary => theme.secondary
  | .background => theme.background
  | .text => theme.text
  | .actorBackground => theme.actorBackground
  | .actorText => theme.actorText
  | .lineColor => theme.lineColor
  | .noteBackground => theme.noteBackground
  | .noteBorder => theme.noteBorder

/-- The theme with given colours. -/
def ofColours (colour : Slot → Text) : Theme where
  primary := colour .primary
  secondary := colour .secondary
  background := colour .background
  text := colour .text
  actorBackground := colour .actorBackground
  actorText := colour .actorText
  lineColor := colour .lineColor
  noteBackground := colour .noteBackground
  noteBorder := colour .noteBorder

@[simp] theorem get_ofColours (colour : Slot → Text) (slot : Slot) :
    (ofColours colour).get slot = colour slot := by
  cases slot <;> rfl

/-- The theme of a diagram that names none. -/
def default : Theme where
  primary := "#0ea5e9".toText
  secondary := "#a855f7".toText
  background := "#1e1e2e".toText
  text := "#e2e8f0".toText
  actorBackground := "#0ea5e9".toText
  actorText := "#ffffff".toText
  lineColor := "#0ea5e9".toText
  noteBackground := "#1e1e2e".toText
  noteBorder := "#a855f7".toText

/-- A theme with a name to choose it by. -/
structure Preset where
  name : Text
  theme : Theme

/-- The themes to choose from. -/
def presets : List Preset :=
  [{ name := "Cyber (Default)".toText, theme := default },
    { name := "Ocean".toText
      theme :=
        { primary := "#06b6d4".toText, secondary := "#0284c7".toText
          background := "#0f172a".toText, text := "#f1f5f9".toText
          actorBackground := "#06b6d4".toText, actorText := "#ffffff".toText
          lineColor := "#06b6d4".toText, noteBackground := "#0f172a".toText
          noteBorder := "#0284c7".toText } },
    { name := "Forest".toText
      theme :=
        { primary := "#22c55e".toText, secondary := "#16a34a".toText
          background := "#14532d".toText, text := "#f0fdf4".toText
          actorBackground := "#22c55e".toText, actorText := "#ffffff".toText
          lineColor := "#22c55e".toText, noteBackground := "#14532d".toText
          noteBorder := "#16a34a".toText } },
    { name := "Sunset".toText
      theme :=
        { primary := "#f97316".toText, secondary := "#ea580c".toText
          background := "#1c1917".toText, text := "#fafaf9".toText
          actorBackground := "#f97316".toText, actorText := "#ffffff".toText
          lineColor := "#f97316".toText, noteBackground := "#1c1917".toText
          noteBorder := "#ea580c".toText } },
    { name := "Rose".toText
      theme :=
        { primary := "#f43f5e".toText, secondary := "#e11d48".toText
          background := "#1f1f1f".toText, text := "#fecdd3".toText
          actorBackground := "#f43f5e".toText, actorText := "#ffffff".toText
          lineColor := "#f43f5e".toText, noteBackground := "#1f1f1f".toText
          noteBorder := "#e11d48".toText } },
    { name := "Monochrome".toText
      theme :=
        { primary := "#a1a1aa".toText, secondary := "#71717a".toText
          background := "#18181b".toText, text := "#fafafa".toText
          actorBackground := "#52525b".toText, actorText := "#ffffff".toText
          lineColor := "#a1a1aa".toText, noteBackground := "#27272a".toText
          noteBorder := "#71717a".toText } },
    { name := "Light Mode".toText
      theme :=
        { primary := "#2563eb".toText, secondary := "#7c3aed".toText
          background := "#ffffff".toText, text := "#1e293b".toText
          actorBackground := "#2563eb".toText, actorText := "#ffffff".toText
          lineColor := "#2563eb".toText, noteBackground := "#f8fafc".toText
          noteBorder := "#7c3aed".toText } }]

/-- The theme that fields describe: a missing colour is the default one, and a
colour that is no text is shown as one. -/
def ofFields (fields : List (Text × Json)) : Theme :=
  ofColours fun slot =>
    match lookupEntry slot.name fields with
    | some v => v.display
    | none => default.get slot

/-- The theme that a value describes: the default theme for a void value;
`none` for a value that has no fields. -/
def ofJson? (v : Json) : Option Theme :=
  v.fieldsOrVoid?.map ofFields

/-- The colours by name. -/
def toJson (theme : Theme) : Json :=
  .obj (Slot.all.map fun slot => (slot.name, .str (theme.get slot)))

/-- The theme is the default one. -/
def isDefault (theme : Theme) : Bool :=
  theme == default

/-- The colours that differ from the default theme, by name. -/
def overrides (theme : Theme) : List (Text × Text) :=
  Slot.all.filterMap fun slot =>
    if theme.get slot = default.get slot then none else some (slot.name, theme.get slot)

/-- The overrides as an object. -/
def overridesJson (theme : Theme) : Json :=
  .obj (theme.overrides.map fun e => (e.1, .str e.2))

/-- The variables of the diagram renderer, each with its colour. -/
def variableColours (theme : Theme) : List (Text × Text) :=
  [("primaryColor".toText, theme.primary),
    ("primaryTextColor".toText, theme.actorText),
    ("primaryBorderColor".toText, theme.primary),
    ("secondaryColor".toText, theme.secondary),
    ("secondaryTextColor".toText, theme.actorText),
    ("secondaryBorderColor".toText, theme.secondary),
    ("tertiaryColor".toText, theme.background),
    ("lineColor".toText, theme.lineColor),
    ("textColor".toText, theme.text),
    ("actorBkg".toText, theme.actorBackground),
    ("actorBorder".toText, theme.primary),
    ("actorTextColor".toText, theme.actorText),
    ("actorLineColor".toText, theme.lineColor ++ "60".toText),
    ("signalColor".toText, theme.lineColor),
    ("signalTextColor".toText, theme.text),
    ("labelBoxBkgColor".toText, theme.background),
    ("labelBoxBorderColor".toText, theme.primary),
    ("labelTextColor".toText, theme.text),
    ("loopTextColor".toText, theme.secondary),
    ("noteBkgColor".toText, theme.noteBackground),
    ("noteBorderColor".toText, theme.noteBorder),
    ("noteTextColor".toText, theme.text),
    ("activationBkgColor".toText, theme.primary ++ "20".toText),
    ("activationBorderColor".toText, theme.primary),
    ("sequenceNumberColor".toText, theme.actorText)]

/-- The variables as an object. -/
def variablesJson (theme : Theme) : Json :=
  .obj (theme.variableColours.map fun e => (e.1, .str e.2))

/-- What the directive of a theme tells the renderer. -/
def configuration (theme : Theme) : Json :=
  .obj [("theme".toText, .str "base".toText), ("themeVariables".toText, theme.variablesJson)]

/-- The line in front of a diagram that applies a theme. -/
def directive (theme : Theme) : Text :=
  "%%\x7binit: ".toText ++ Json.write .denseAscii theme.configuration ++ "\x7d%%".toText

end Theme
end Lifeline
