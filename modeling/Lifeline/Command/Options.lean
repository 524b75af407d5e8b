import Lifeline.Text.Digit
import Lifeline.Text.Lines

/-!
# Options of a command line

A command takes options and nothing else.  An option is a word behind two
hyphens, which may be cut short as long as it stays unambiguous, or a letter
behind one.  It switches something on, or takes a value: the rest of the word
behind an equals sign, the rest of the letter's word, or the next word, unless
that looks like an option.  Two hyphens in the word of an option are no value;
the option is then given without one, whatever its values are.  Anything else is
a misuse of the command.
-/

namespace Lifeline.Command

/-- An option of a command. -/
structure OptionSpec where
  name : Text
  letter? : Option CodePoint
  takesValue : Bool
  /-- The values that may be given; any when there are none. -/
  choices : List Text

namespace OptionSpec

/-- An option that switches something on. -/
def switch (name : String) : OptionSpec :=
  ⟨name.toText, none, false, []⟩

/-- An option with any value. -/
def value (name : String) (letter? : Option CodePoint) : OptionSpec :=
  ⟨name.toText, letter?, true, []⟩

/-- An option with one of some values. -/
def choice (name : String) (choices : List Text) : OptionSpec :=
  ⟨name.toText, none, true, choices⟩

/-- The word that names the option. -/
def word (o : OptionSpec) : Text :=
  '-' :: '-' :: o.name

/-- The value may be given. -/
def allows (o : OptionSpec) (v : Text) : Bool :=
  o.choices.isEmpty || o.choices.contains v

/-- What the option is set to by a value in its own word. -/
def setInWord? (o : OptionSpec) (v : Text) : Option (Option Text) :=
  if v = "--".toText then some none else if o.allows v then some (some v) else none

end OptionSpec

/-- What a word of a command line is. -/
inductive Word where
  | plain
  | option (o : OptionSpec) (value? : Option Text)
  | unknown

/-- A word that is a negative number: a hyphen, then decimal digits, or a point
with decimal digits behind it and perhaps in front.  The digits may be of any
script, and a line feed may follow. -/
def isNegativeNumber (w : Text) : Bool :=
  match Text.line? w with
  | some ('-' :: rest) =>
      let whole := rest.takeWhile Text.isDecimal
      match rest.dropWhile Text.isDecimal with
      | [] => !whole.isEmpty
      | '.' :: fraction => !fraction.isEmpty && fraction.all Text.isDecimal
      | _ => false
  | _ => false

/-- A word and the value behind its first equals sign. -/
def splitValue (w : Text) : Text × Option Text :=
  match Text.cutAt? '=' w with
  | some (before, behind) => (before, some behind)
  | none => (w, none)

/-- The options that a word names exactly, by name or by letter. -/
def exactly (specs : List OptionSpec) (w : Text) : Option OptionSpec :=
  specs.find? fun o =>
    w == o.word ||
      (match o.letter? with
        | some letter => w == [.char '-', letter]
        | none => false)

/-- The options that a word may stand for without naming one exactly: a cut
name, or a letter with its value in the same word. -/
def candidates (specs : List OptionSpec) (w : Text) : List (OptionSpec × Option Text) :=
  match w with
  | '-' :: '-' :: _ =>
      let (name, value?) := splitValue w
      (specs.filter fun o => name.isPrefixOf o.word).map fun o => (o, value?)
  | '-' :: letter :: rest =>
      (specs.filter fun o => o.letter? == some letter).map fun o => (o, some rest)
  | _ => []

/-- What a word is; `none` when it is ambiguous. -/
def classify? (specs : List OptionSpec) (w : Text) : Option Word :=
  match w with
  | '-' :: _ :: _ =>
      let (name, value?) := splitValue w
      match exactly specs w, exactly specs name with
      | some o, _ => some (.option o none)
      | none, some o => some (.option o value?)
      | none, none =>
          match candidates specs w with
          | [(o, v)] => some (.option o v)
          | _ :: _ :: _ => none
          | [] =>
              if isNegativeNumber w || decide (.char ' ' ∈ w) then some .plain else some .unknown
  | _ => some .plain

/-- The options that a command line gives, with their values, the last first;
`none` for a misuse.  `given` holds those given so far. -/
def readFrom (specs : List OptionSpec) (given : List (Text × Option Text)) :
    List Text → Option (List (Text × Option Text))
  | [] => some given
  | w :: rest =>
      if w = [.char '-', .char '-'] then
        none
      else
        match classify? specs w with
        | some (.option o value?) =>
            if o.takesValue then
              match value? with
              | some v =>
                  match o.setInWord? v with
                  | some value? => readFrom specs ((o.name, value?) :: given) rest
                  | none => none
              | none =>
                  match rest with
                  | [] => none
                  | v :: rest =>
                      match classify? specs v with
                      | some .plain =>
                          if o.allows v then readFrom specs ((o.name, some v) :: given) rest
                          else none
                      | _ => none
            else if value?.isSome then
              none
            else
              readFrom specs ((o.name, none) :: given) rest
        | _ => none

/-- The options that a command line gives, the last first. -/
structure Options where
  given : List (Text × Option Text)

/-- Reads a command line; `none` for a misuse. -/
def Options.read? (specs : List OptionSpec) (words : List Text) : Option Options :=
  (readFrom specs [] words).map Options.mk

/-- What an option is set to where it is given last: its value, if it has one.
`none` when the option is not given. -/
def Options.setting? (o : Options) (name : String) : Option (Option Text) :=
  (o.given.find? fun e => e.1 == name.toText).map Prod.snd

/-- The value of an option, if it is not empty. -/
def Options.nonempty? (o : Options) (name : String) : Option Text :=
  match o.setting? name with
  | some (some (c :: rest)) => some (c :: rest)
  | _ => none

/-- The option is given. -/
def Options.has (o : Options) (name : String) : Bool :=
  (o.setting? name).isSome

end Lifeline.Command
