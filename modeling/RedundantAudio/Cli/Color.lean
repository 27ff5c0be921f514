import RedundantAudio.Log

/-!
# When to Color

Programs color what they write to a terminal, unless the environment says
that nobody wants it. A choice on the command line overrides both. What is
colored is the level of a log line; the name of its component is dimmed.

Complaints about the command line come before there is a choice. They are
colored on a terminal or if the environment insists.

## Main definitions

* `ColorChoice`: When to color.
* `ColorChoice.ofName`: The choice with a name.
* `ColorChoice.allows`: Whether to color.
* `insistsOnColor`: Whether the environment wants color everywhere.
* `painted`: A log line in color.
-/

namespace RedundantAudio

namespace Cli

/-- When to color. -/
inductive ColorChoice
  /-- On a terminal, unless the environment forbids it. -/
  | auto
  | always
  | never
  deriving DecidableEq, Repr

namespace ColorChoice

/-- All choices. -/
def all : List ColorChoice := [auto, always, never]

/-- The name of a choice. -/
def name : ColorChoice → String
  | auto => "auto"
  | always => "always"
  | never => "never"

/-- The choice with a name. Upper and lower case may count as the same, among
    the letters of English only. -/
def ofName (text : String) (ignoreCase : Bool) : Option ColorChoice :=
  all.find? fun choice => if ignoreCase then text.toLower = choice.name else text = choice.name

/-- What is said about a name that no choice has. -/
def unknown (text : String) : String :=
  s!"invalid variant: {text}"

/-- Variables whose presence forbids color, whatever their values. -/
def forbidding : List String := ["NO_COLOR", "EMACS"]

/-- Whether to color, given the names of all variables and whether the output
    is a terminal. -/
def allows (choice : ColorChoice) (named : List String) (terminal : Bool) : Bool :=
  match choice with
  | always => true
  | never => false
  | auto => terminal && !forbidding.any named.contains

end ColorChoice

/-- The variables that decide whether the environment insists. -/
def forcingVariables : List String := ["NO_COLOR", "CLICOLOR_FORCE"]

/-- Whether the environment wants color everywhere, given the values of
    variables. -/
def insistsOnColor (value : String → Option String) : Bool :=
  ((value "NO_COLOR").getD "").isEmpty && (value "CLICOLOR_FORCE").any (· ≠ "0")

/-- The number of the color of a level. -/
def levelColor : Log.Level → Nat
  | .error => 31
  | .warn => 33
  | .info => 32
  | .debug => 34
  | .trace => 35

/-- A text between the mark of a style and the mark that ends it. -/
def styled (style : Nat) (text : String) : String :=
  let mark (n : Nat) : String := String.ofList [Text.escape, '['] ++ toString n ++ "m"
  mark style ++ text ++ mark 0

/-- A log line in color. -/
def painted (line : Log.Line) : String :=
  styled (levelColor line.level) line.level.name ++ " " ++ styled 2 line.source.name
    ++ styled 2 ":" ++ " " ++ line.plainText

end Cli

end RedundantAudio
