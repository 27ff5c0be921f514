import RedundantAudio.Text.Alphanumeric
import RedundantAudio.Text.Blank
import RedundantAudio.Text.Hex

/-!
# Regular Expressions

Which texts are regular expressions. What an expression matches is nobody's
question here, only whether it could be compiled: it has to be well formed,
and it may ask for nothing that takes a table of Unicode. There is no table of
letters, digits or blanks, so their classes and the edges of words exist among
the characters of English alone, once `u` is switched off; nor is there a
table of upper and lower case. With `u` switched off nothing may match a byte
beyond English, since that would be half of a character.

Text is read from the front. An expression is a sequence of units, so all
that has to be remembered is which flags are on, which groups are open, and
whether there is a unit for a repetition to repeat. Every step eats a
character, hence the length of the text is fuel enough.

## Main definitions

* `Flags`: The flags that matter.
* `Atom`: A unit that stands for a character, a class or a place.
* `readClass`: Reads a class in brackets.
* `readGroup`: Reads what opens a group.
* `isPattern`: Whether a text is a regular expression.
-/

namespace RedundantAudio

namespace Text

namespace Pattern

/-- The flags that decide whether an expression can be compiled. -/
structure Flags where
  /-- Upper and lower case are the same. -/
  anyCase : Bool := false
  /-- Characters are those of Unicode. -/
  unicode : Bool := true
  /-- Blanks and remarks do not count. -/
  spaced : Bool := false
  deriving DecidableEq, Repr

namespace Flags

/-- Skips blanks and remarks, which go on to the end of a line. -/
def skipSpaces (remark : Bool) : List Char → List Char
  | [] => []
  | c :: rest =>
    if remark then skipSpaces (c ≠ '\n') rest
    else if c = '#' then skipSpaces true rest
    else if isBlank c then skipSpaces false rest
    else c :: rest

/-- Skips what does not count. -/
def skip (f : Flags) (text : List Char) : List Char :=
  if f.spaced then skipSpaces false text else text

/-- Whether classes that hold something, and are the complement of a class or
    not, can be compiled. -/
def allowsClass (f : Flags) (negated : Bool) : Bool :=
  if f.unicode then !f.anyCase else !negated

/-- Switches a flag. Flags that do not matter here exist too. -/
def set (f : Flags) (on : Bool) (name : Char) : Flags :=
  match name with
  | 'i' => { f with anyCase := on }
  | 'u' => { f with unicode := on }
  | 'x' => { f with spaced := on }
  | _ => f

/-- Switches flags on or, behind a minus sign, off. -/
def setAll (f : Flags) (names : List Char) : Flags :=
  let on := names.takeWhile (· ≠ '-')
  let off := names.dropWhile (· ≠ '-')
  off.foldl (·.set false) (on.foldl (·.set true) f)

end Flags

/-! ### Units -/

/-- A unit that stands for a character, a class or a place. -/
inductive Atom
  /-- A character, or a byte that is written as one. -/
  | character (c : Char) (isByte : Bool)
  /-- Digits, blanks or letters, or all but them. -/
  | family (negated : Bool)
  /-- One end of the text. -/
  | textEdge
  /-- The edge of a word, or any place that is none. -/
  | wordEdge
  deriving DecidableEq, Repr

/-- Whether a character is one of English. -/
def isAscii (c : Char) : Bool :=
  c.toNat < 0x80

/-- Whether a unit can be compiled, by itself or in a class. -/
def Atom.isAllowed (f : Flags) (inClass : Bool) : Atom → Bool
  | character c isByte =>
    if f.unicode then !f.anyCase else isAscii c || !(inClass || isByte)
  | family negated => !f.unicode && !negated
  | textEdge => !inClass
  | wordEdge => !inClass && !f.unicode

/-- Reads so many digits of base sixteen. -/
def readHex (f : Flags) : (digits value : Nat) → List Char → Option (Nat × List Char)
  | 0, value, text => some (value, text)
  | digits + 1, value, text =>
    match f.skip text with
    | [] => none
    | c :: rest => do readHex f digits (16 * value + (← hexValue c)) rest

/-- Reads the number of a character. -/
def readCode (f : Flags) (digits : Nat) (text : List Char) : Option (Atom × List Char) := do
  let (n, rest) ← readHex f digits 0 text
  if h : n.isValidChar then some (.character (.ofNatAux n h) (digits = 2), f.skip rest) else none

/-- The character that a letter behind a backslash names. -/
def namedChar : Char → Option Char
  | 'a' => some (.ofNat 0x07)
  | 't' => some '\t'
  | 'n' => some '\n'
  | 'v' => some (.ofNat 0x0B)
  | 'f' => some (.ofNat 0x0C)
  | 'r' => some '\r'
  | _ => none

/-- Reads what stands behind a backslash. Marks stand for themselves, and of
    the letters only some have a meaning. -/
def readEscape (f : Flags) : List Char → Option (Atom × List Char)
  | [] => none
  | c :: rest =>
    match c with
    | 'x' => readCode f 2 rest
    | 'u' => readCode f 4 rest
    | 'U' => readCode f 8 rest
    | 'd' | 's' | 'w' => some (.family false, rest)
    | 'D' | 'S' | 'W' => some (.family true, rest)
    | 'A' | 'z' => some (.textEdge, rest)
    | 'b' | 'B' | '<' | '>' => some (.wordEdge, rest)
    | _ =>
      match namedChar c with
      | some named => some (.character named false, rest)
      | none => if isAscii c && !c.isAlphanum then some (.character c false, rest) else none

/-! ### Classes -/

/-- Reads a unit of a class. -/
def readClassAtom (f : Flags) : List Char → Option (Atom × List Char)
  | [] => none
  | '\\' :: rest => readEscape f rest
  | c :: rest => some (.character c false, rest)

/-- Whether two units are the ends of a range. -/
def isRange : Atom → Atom → Bool
  | .character first _, .character last _ => first ≤ last
  | _, _ => false

/-- Reads a unit of a class, or two with a dash between them. A dash in front
    of the closing bracket is a unit, and two of them are no range. -/
def readRange (f : Flags) (text : List Char) : Option (List Char) := do
  let (first, text) ← readClassAtom f text
  let text := f.skip text
  let behindDash := match text with
    | '-' :: rest =>
      match f.skip rest with
      | ']' :: _ | '-' :: _ => none
      | rest => some rest
    | _ => none
  match behindDash with
  | none => if first.isAllowed f true then some text else none
  | some rest =>
    let (last, rest) ← readClassAtom f rest
    if isRange first last && first.isAllowed f true && last.isAllowed f true then some rest
    else none

/-- The names of classes of English characters. -/
def classNames : List String := [
  "alnum", "alpha", "ascii", "blank", "cntrl", "digit", "graph", "lower", "print", "punct",
  "space", "upper", "word", "xdigit"]

/-- Reads a class by name behind its bracket: whether it is a complement. -/
def readNamed : List Char → Option (Bool × List Char)
  | ':' :: rest =>
    let negated := rest.head? = some '^'
    let rest := if negated then rest.drop 1 else rest
    let name := rest.takeWhile (· ≠ ':')
    match rest.drop name.length with
    | ':' :: ']' :: rest =>
      if classNames.contains (String.ofList name) then some (negated, rest) else none
    | _ => none
  | _ => none

/-- Reads the dashes that a class may begin with. -/
def readDashes (f : Flags) : (fuel : Nat) → List Char → Option (List Char)
  | 0, _ => none
  | fuel + 1, text =>
    match text with
    | '-' :: rest => if f.allowsClass false then readDashes f fuel (f.skip rest) else none
    | text => some text

/-- Reads the beginning of a class behind its bracket. A closing bracket in
    the first place stands for itself. -/
def openClass (f : Flags) (text : List Char) : Option (List Char) := do
  let text := f.skip text
  let negated := text.head? = some '^'
  let text := if negated then f.skip (text.drop 1) else text
  if negated && !f.unicode then none
  else if text.head? = some '-' then readDashes f (text.length + 1) text
  else if text.head? = some ']' then
    if f.allowsClass false then some (text.drop 1) else none
  else some text

/-- Reads a class to its closing bracket, with so many others open around
    it. -/
def closeClass (f : Flags) : (fuel outer : Nat) → List Char → Option (List Char)
  | 0, _, _ => none
  | fuel + 1, outer, text =>
    match f.skip text with
    | [] => none
    | '[' :: rest =>
      match readNamed rest with
      | some (negated, rest) =>
        if f.allowsClass negated then closeClass f fuel outer rest else none
      | none => do closeClass f fuel (outer + 1) (← openClass f rest)
    | ']' :: rest =>
      match outer with
      | 0 => some rest
      | outer + 1 => closeClass f fuel outer rest
    | '&' :: '&' :: rest | '-' :: '-' :: rest | '~' :: '~' :: rest =>
      closeClass f fuel outer rest
    | text => do closeClass f fuel outer (← readRange f text)

/-- Reads a class behind its bracket. -/
def readClass (f : Flags) (text : List Char) : Option (List Char) := do
  closeClass f (text.length + 1) 0 (← openClass f text)

/-! ### Groups -/

/-- What opens a group, or only switches flags. -/
inductive Opening
  /-- A group, with the flags inside it and its name, if it has one. -/
  | group (inside : Flags) (name : Option (List Char))
  /-- Other flags from here on. -/
  | flags (f : Flags)

/-- Whether a name of a group may go on with a character, or start with it. -/
def isNameChar (isFirst : Bool) (c : Char) : Bool :=
  if isFirst then c = '_' || (isAlphanumeric c && !c.isDigit)
  else ['_', '.', '[', ']'].contains c || isAlphanumeric c

/-- Reads the name of a group behind its bracket. -/
def readName (text : List Char) : Option (List Char × List Char) :=
  let name := text.takeWhile (· ≠ '>')
  match name, text.drop name.length with
  | first :: others, _ :: rest =>
    if isNameChar true first && others.all (isNameChar false) then some (name, rest) else none
  | _, _ => none

/-- The names of all flags, and the sign that switches off. -/
def flagNames : List Char := ['i', 'm', 's', 'U', 'u', 'R', 'x', '-']

/-- Reads the names of flags up to the mark behind them. None may be there
    twice, and something has to be switched off behind the sign. -/
def readFlags (seen : List Char) : List Char → Option (List Char × Char × List Char)
  | [] => none
  | c :: rest =>
    if c = ':' || c = ')' then
      if seen.getLast? = some '-' then none else some (seen, c, rest)
    else if flagNames.contains c && !seen.contains c then readFlags (seen ++ [c]) rest
    else none

/-- Reads what stands behind an opening bracket. -/
def readGroup (f : Flags) (text : List Char) : Option (Opening × List Char) :=
  match text with
  | '?' :: 'P' :: '<' :: rest | '?' :: '<' :: rest => do
    let (name, rest) ← readName rest
    return (.group f (some name), rest)
  | '?' :: rest => do
    let (names, mark, rest) ← readFlags [] rest
    let inside := f.setAll names
    if mark = ':' then return (.group inside none, rest)
    else if names.isEmpty then none
    else return (.flags inside, rest)
  | _ => some (.group f none, text)

/-! ### Expressions -/

/-- What has to be remembered of the front of an expression. -/
structure Progress where
  /-- The flags. -/
  flags : Flags := {}
  /-- The flags around each open group, the innermost first. -/
  outer : List Flags := []
  /-- The names of groups so far. -/
  names : List (List Char) := []
  /-- Whether there is something to repeat. -/
  repeatable : Bool := false

namespace Progress

/-- A unit is read. -/
def unit (p : Progress) : Progress :=
  { p with repeatable := true }

/-- A group is opened, or flags are switched. -/
def opened (p : Progress) (opening : Opening) : Option Progress :=
  let p := { p with repeatable := false }
  match opening with
  | .flags f => some { p with flags := f }
  | .group inside name =>
    if name.any p.names.contains then none
    else some {
      p with flags := inside, outer := p.flags :: p.outer, names := name.toList ++ p.names }

/-- A group is closed. -/
def closed (p : Progress) : Option Progress :=
  match p.outer with
  | [] => none
  | f :: outer => some { p with flags := f, outer, repeatable := true }

/-- Reads one step of an expression that begins with a character. -/
def step (p : Progress) (c : Char) (rest : List Char) : Option (Progress × List Char) :=
  match c with
  | '(' => do
    let (opening, rest) ← readGroup p.flags (p.flags.skip rest)
    return (← p.opened opening, rest)
  | ')' => do return (← p.closed, rest)
  | '|' => some ({ p with repeatable := false }, rest)
  | '[' => do return (p.unit, ← readClass p.flags rest)
  | '{' => none
  | '*' | '+' | '?' =>
    if p.repeatable then some (p, if rest.head? = some '?' then rest.drop 1 else rest) else none
  | '.' => if p.flags.unicode then some (p.unit, rest) else none
  | '^' | '$' => some (p.unit, rest)
  | '\\' => do
    let (atom, rest) ← readEscape p.flags rest
    if atom.isAllowed p.flags false then return (p.unit, rest) else none
  | c => if (Atom.character c false).isAllowed p.flags false then some (p.unit, rest) else none

/-- Reads an expression to its end. -/
def finishes : (fuel : Nat) → Progress → List Char → Bool
  | 0, _, _ => false
  | fuel + 1, p, text =>
    match p.flags.skip text with
    | [] => p.outer.isEmpty
    | c :: rest =>
      match p.step c rest with
      | some (p, rest) => finishes fuel p rest
      | none => false

end Progress

end Pattern

/-- Whether a text is a regular expression. -/
def isPattern (text : List Char) : Bool :=
  Pattern.Progress.finishes (text.length + 1) {} text

end Text

end RedundantAudio
