import RedundantAudio.Cli.Value

/-!
# Options on a Command Line

A command line is a list of words. An option is named by a long word with two
dashes or by a single letter with one, and its value either follows in the
same word or is the next one. There are no other words: a word that is
neither an option nor the value of one is an error.

A value in a word of its own is not looked at until the next option comes, or
the end. So when two things are wrong, it is the unknown word that is
complained about even if a bad value stands before it, while of two bad
values it is the first.

Reading options is therefore a walk over the words with at most one option
*pending*, and `settle` is the only place where an option takes effect.

## Main definitions

* `Opt`: An option, which changes settings of type `α`.
* `Misuse`: What is wrong with a command line.
* `Ending`: Why a command line gives no settings.
* `readOptions`: Reads a command line.
-/

namespace RedundantAudio

namespace Cli

/-- An option, which changes settings of type `α`. -/
structure Opt (α : Type) where
  /-- Its long name. -/
  long : String
  /-- Its letter, if it has one. -/
  short : Option Char := none
  /-- The names that its value may be, if only names will do. -/
  names : List String := []
  /-- Takes a value. -/
  set : String → α → Except ValueFault α

namespace Opt

/-- What stands for the value of an option in messages. -/
def valueName {α : Type} (o : Opt α) : String :=
  String.ofList (o.long.toList.map fun c => if c = '-' then '_' else c.toUpper)

/-- An option as messages show it. -/
def display {α : Type} (o : Opt α) : String :=
  "--" ++ o.long ++ " <" ++ o.valueName ++ ">"

end Opt

/-- What is wrong with a command line. -/
inductive Misuse
  /-- A word is out of place. -/
  | unexpected (word : String)
  /-- A value is refused. -/
  | badValue (value option reason : String)
  /-- A value is not one of the names that it may be. -/
  | badName (value option : String) (names : List String)
  /-- There is no value. -/
  | noValue (option : String) (names : List String)
  /-- An option is given twice. -/
  | repeated (option : String)
  /-- An option that takes no value has one. -/
  | needless (value option : String)
  deriving DecidableEq, Repr

/-- What is wrong, with another text for every word of the command line. -/
def Misuse.mapWords (f : String → String) : Misuse → Misuse
  | unexpected word => unexpected (f word)
  | badValue value option reason => badValue (f value) option reason
  | badName value option names => badName (f value) option names
  | noValue option names => noValue option names
  | repeated option => repeated option
  | needless value option => needless (f value) option

/-- The names that a value may be, as a second line. -/
def namesLine (names : List String) : List String :=
  if names.isEmpty then []
  else ["  [possible values: " ++ ", ".intercalate names ++ "]"]

/-- What is said about misuse, line by line. -/
def Misuse.lines : Misuse → List String
  | unexpected word => [s!"error: unexpected argument '{word}' found"]
  | badValue value option reason => [s!"error: invalid value '{value}' for '{option}': {reason}"]
  | badName value option names =>
    s!"error: invalid value '{value}' for '{option}'" :: namesLine names
  | noValue option names =>
    s!"error: a value is required for '{option}' but none was supplied" :: namesLine names
  | repeated option => [s!"error: the argument '{option}' cannot be used multiple times"]
  | needless value option =>
    [s!"error: unexpected value '{value}' for '{option}' found; no more were expected"]

/-- Why a command line gives no settings. -/
inductive Ending
  /-- Help is wanted. -/
  | help
  /-- The version is wanted. -/
  | version
  /-- It is misused. -/
  | misuse (what : Misuse)
  deriving DecidableEq, Repr

/-- A walk over the words of a command line. -/
structure Walk (α : Type) where
  /-- The settings so far. -/
  settings : α
  /-- The long names of the options that took effect. -/
  taken : List String := []
  /-- The option whose turn it is, and its value if that has come. -/
  pending : Option (Opt α × Option String) := none

namespace Walk

variable {α : Type}

/-- Lets an option take effect. -/
def take (w : Walk α) (option : Opt α) (value : String) : Except Ending (Walk α) :=
  if w.taken.contains option.long then .error (.misuse (.repeated option.display))
  else
    match option.set value w.settings with
    | .ok settings => .ok { w with settings, taken := option.long :: w.taken }
    | .error (.because reason) => .error (.misuse (.badValue value option.display reason))
    | .error (.noneOf names) =>
      if value.isEmpty then .error (.misuse (.noValue option.display names))
      else .error (.misuse (.badName value option.display names))

/-- Lets the pending option take effect, if there is one. -/
def settle (w : Walk α) : Except Ending (Walk α) :=
  match w.pending with
  | none => .ok w
  | some (option, none) => .error (.misuse (.noValue option.display option.names))
  | some (option, some value) => { w with pending := none }.take option value

/-- Starts an option. With its value in the same word it takes effect at
    once. -/
def start (w : Walk α) (option : Opt α) (attached : Option String) : Except Ending (Walk α) := do
  let w ← w.settle
  match attached with
  | some value => w.take option value
  | none => return { w with pending := some (option, none) }

/-- Ends the walk for another reason than misuse. -/
def leave (w : Walk α) (ending : Ending) : Except Ending (Walk α) := do
  let _ ← w.settle
  .error ending

end Walk

/-- Splits a word at its first equals sign. -/
def splitValue (word : List Char) : String × Option String :=
  let name := String.ofList (word.takeWhile (· ≠ '='))
  match word.dropWhile (· ≠ '=') with
  | [] => (name, none)
  | _ :: value => (name, some (String.ofList value))

/-- Reads a word with two dashes, which are taken off. -/
def readLong {α : Type} (options : List (Opt α)) (w : Walk α) (word : List Char) :
    Except Ending (Walk α) :=
  let (name, value) := splitValue word
  match options.find? (·.long = name), value with
  | some option, value => w.start option value
  | none, value =>
    if name = "help" || name = "version" then
      match value with
      | some value => .error (.misuse (.needless value ("--" ++ name)))
      | none => w.leave (if name = "help" then .help else .version)
    else .error (.misuse (.unexpected ("--" ++ name)))

/-- Reads a word with one dash, which is taken off. What stands behind the
    letter is its value, with or without an equals sign. -/
def readShort {α : Type} (options : List (Opt α)) (w : Walk α) (letter : Char)
    (rest : List Char) : Except Ending (Walk α) :=
  match options.find? (·.short = some letter), rest with
  | some option, [] => w.start option none
  | some option, '=' :: value => w.start option (some (String.ofList value))
  | some option, value => w.start option (some (String.ofList value))
  | none, _ =>
    if letter = 'h' then w.leave .help
    else if letter = 'V' then w.leave .version
    else .error (.misuse (.unexpected (String.ofList ['-', letter])))

/-- Reads a word that is no option: the value of the pending one, unless that
    has come already. -/
def readPlain {α : Type} (w : Walk α) (word : String) : Except Ending (Walk α) :=
  match w.pending with
  | some (option, none) => .ok { w with pending := some (option, some word) }
  | _ => .error (.misuse (.unexpected word))

/-- Walks over the words of a command line. Two dashes by themselves say that
    no option follows, and then there is nothing that may. -/
def walkWords {α : Type} (options : List (Opt α)) (w : Walk α) : List String →
    Except Ending (Walk α)
  | [] => .ok w
  | word :: words =>
    match word.toList with
    | ['-', '-'] =>
      match words with
      | [] => .ok w
      | extra :: _ => .error (.misuse (.unexpected extra))
    | '-' :: '-' :: name => do walkWords options (← readLong options w name) words
    | '-' :: letter :: rest => do walkWords options (← readShort options w letter rest) words
    | _ => do walkWords options (← readPlain w word) words

/-- Reads a command line, starting from default settings. -/
def readOptions {α : Type} (options : List (Opt α)) (defaults : α) (words : List String) :
    Except Ending α := do
  let w ← walkWords options { settings := defaults } words
  return (← w.settle).settings

end Cli

end RedundantAudio
