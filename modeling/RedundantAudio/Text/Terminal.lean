import RedundantAudio.Text.Hex

/-!
# Commands to a Terminal

A terminal does not show every character. Some are commands, and an escape
character begins a command that goes on for several characters. A text from
elsewhere may hold such commands, and what prints it decides what becomes of
them: log lines spell them out, and complaints about a command line leave
them away.

Leaving them away takes a machine that follows a command to its end. Kinds of
commands differ in where they end and in whether the end of a line shows
inside them. While text is shown the machine judges every character as if no
command were open, so a command that the end of a line interrupts goes on with
the next character that does not show.

## Main definitions

* `spellOut`: A text with its commands spelled out.
* `dropCommands`: A text without its commands.
* `dropColors`: A text without the commands that set colors.
-/

namespace RedundantAudio

namespace Text

/-- The character that begins a command. -/
def escape : Char := .ofNat 0x1B

/-- A number below 256 in two digits of base sixteen. -/
def twoHexDigits (n : Nat) : List Char :=
  [hexDigit (n / 16), hexDigit (n % 16)]

/-! ### Spelling out -/

/-- Whether a character commands the terminal without being a blank that texts
    need: bell, backspace, end of page, escape and delete. -/
def isCommand (c : Char) : Bool :=
  [0x07, 0x08, 0x0C, 0x1B, 0x7F].contains c.toNat

/-- Whether a character is one of the commands that Unicode adds. -/
def isHighCommand (c : Char) : Bool :=
  0x80 ≤ c.toNat && c.toNat ≤ 0x9F

/-- A character, spelled out if it is a command. -/
def spellOutChar (c : Char) : List Char :=
  if isCommand c then '\\' :: 'x' :: twoHexDigits c.toNat
  else if isHighCommand c then '\\' :: 'u' :: '\x7b' :: (twoHexDigits c.toNat ++ ['\x7d'])
  else [c]

/-- A text with its commands spelled out. -/
def spellOut (text : String) : String :=
  String.ofList (text.toList.flatMap spellOutChar)

/-! ### Leaving away -/

/-- Where in a command a text is. -/
inductive CommandState
  /-- In none. -/
  | none
  /-- Behind the escape character. -/
  | start
  /-- In a command with marks. -/
  | marks
  /-- In a command with numbers. -/
  | numbers
  /-- In a text for the operating system, which a bell ends. -/
  | systemText
  /-- In a text for somebody else. -/
  | otherText
  deriving DecidableEq, Repr

namespace CommandState

/-- Whether a number lies between two others. -/
def within (low high n : Nat) : Bool :=
  low ≤ n && n ≤ high

/-- The state behind a character that follows the escape character. -/
def afterStart (n : Nat) : CommandState :=
  if within 0x20 0x2F n then marks
  else if n = 0x5B then numbers
  else if n = 0x5D then systemText
  else if n = 0x50 || n = 0x58 || n = 0x5E || n = 0x5F then otherText
  else if within 0x30 0x7E n then none
  else start

/-- The state behind a character. Two characters end every command, and the
    escape character begins one anywhere. -/
def after (s : CommandState) (c : Char) : CommandState :=
  let n := c.toNat
  if n = 0x1B then start
  else if n = 0x18 || n = 0x1A then none
  else
    match s with
    | start => afterStart n
    | marks => if within 0x30 0x7E n then none else marks
    | numbers => if within 0x40 0x7E n then none else numbers
    | systemText => if n = 0x07 then none else systemText
    | none | otherText => s

/-- Whether a character is a blank that every terminal knows. -/
def isPlainBlank (c : Char) : Bool :=
  [0x09, 0x0A, 0x0C, 0x0D].contains c.toNat

/-- Whether a character shows. In a text for somebody else nothing does, and
    in any other command only the ends of lines and tabs. -/
def shows (s : CommandState) (c : Char) : Bool :=
  match s with
  | none => isPlainBlank c || (0x20 ≤ c.toNat && c.toNat ≠ 0x7F)
  | start | marks | numbers => isPlainBlank c
  | systemText | otherText => false

end CommandState

/-- Leaves commands away. The flag tells whether the character before was
    shown, and then the next one shows as if no command were open. -/
def dropCommandsFrom (s : CommandState) (shown : Bool) : List Char → List Char
  | [] => []
  | c :: rest =>
    if (if shown then .none else s).shows c then c :: dropCommandsFrom s true rest
    else dropCommandsFrom (s.after c) false rest

/-- A text without its commands. -/
def dropCommands (text : String) : String :=
  String.ofList (dropCommandsFrom .none false text.toList)

/-- How many characters a command that sets colors has behind its escape
    character: a bracket, numbers with semicolons between them, and a letter.
    It is zero if the text does not go on with such a command. -/
def colorLength : List Char → Nat
  | '[' :: rest =>
    let numbers := rest.takeWhile fun c => c.isDigit || c = ';'
    if (rest.drop numbers.length).head? = some 'm' then numbers.length + 2 else 0
  | _ => 0

/-- Leaves away as many characters as asked, and all commands that set colors
    behind them. -/
def dropColorsBehind : Nat → List Char → List Char
  | _, [] => []
  | count + 1, _ :: rest => dropColorsBehind count rest
  | 0, c :: rest =>
    if c = escape && 0 < colorLength rest then dropColorsBehind (colorLength rest) rest
    else c :: dropColorsBehind 0 rest

/-- A text without the commands that set colors. -/
def dropColors (text : String) : String :=
  String.ofList (dropColorsBehind 0 text.toList)

end Text

end RedundantAudio
