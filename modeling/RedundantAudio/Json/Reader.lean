import RedundantAudio.Json.Value

/-!
# Reading JSON

Text is read strictly: blanks may stand around values and nowhere else,
numbers have no needless zeros, strings hold no control characters, and
nothing may follow the value. Each reader returns what it read with the text
behind it.

Strings are read in two steps. The first takes the escapes apart and leaves
the code units of escaped characters alone; the second joins surrogate pairs
and finds out whether the string stands for a text at all.

The readers of values call each other once for every bracket that they open,
so they carry fuel. Every step that costs fuel also eats a character, hence
the length of the text is enough, and `read` supplies it.

## Main definitions

* `readPieces`, `assemble`: The two steps of reading a string.
* `readNumber`: Reads a number.
* `readValue`: Reads a value.
* `read`: Reads a whole text.
-/

namespace RedundantAudio

namespace Json

/-- Whether a character is a blank. -/
def isBlank (c : Char) : Bool :=
  c = ' ' || c = '\n' || c = '\t' || c = '\r'

/-- The text behind its leading blanks. -/
def skipBlanks (text : List Char) : List Char :=
  text.dropWhile isBlank

/-- A character of a string, or a code unit that it escapes. -/
inductive Piece
  | char (c : Char)
  | unit (n : Nat)
  deriving DecidableEq, Repr

/-- The code unit that four digits stand for. -/
def unitValue (a b c d : Char) : Option Nat := do
  return 4096 * (← Text.hexValue a) + 256 * (← Text.hexValue b) + 16 * (← Text.hexValue c)
    + (← Text.hexValue d)

/-- The character that a letter behind a backslash stands for. -/
def simpleEscape : Char → Option Char
  | '"' => some '"'
  | '\\' => some '\\'
  | '/' => some '/'
  | 'b' => some (.ofNat 8)
  | 'f' => some (.ofNat 12)
  | 'n' => some '\n'
  | 'r' => some '\r'
  | 't' => some '\t'
  | _ => none

/-- Reads a string behind its opening quote. -/
def readPieces : List Char → Option (List Piece × List Char)
  | [] => none
  | '"' :: rest => some ([], rest)
  | '\\' :: 'u' :: a :: b :: c :: d :: rest => do
    let n ← unitValue a b c d
    let (pieces, rest) ← readPieces rest
    return (.unit n :: pieces, rest)
  | '\\' :: e :: rest => do
    let c ← simpleEscape e
    let (pieces, rest) ← readPieces rest
    return (.char c :: pieces, rest)
  | c :: rest =>
    if c.toNat < 32 then none
    else do
      let (pieces, rest) ← readPieces rest
      return (.char c :: pieces, rest)

/-- Whether a code unit opens a surrogate pair. -/
def isHighSurrogate (n : Nat) : Bool :=
  0xD800 ≤ n && n < 0xDC00

/-- Whether a code unit closes a surrogate pair. -/
def isLowSurrogate (n : Nat) : Bool :=
  0xDC00 ≤ n && n < 0xE000

/-- The text that a string stands for, unless half of a surrogate pair stands
    alone in it. -/
def assemble : List Piece → Option (List Char)
  | [] => some []
  | .char c :: pieces => (assemble pieces).map (c :: ·)
  | .unit high :: .unit low :: pieces =>
    if isHighSurrogate high && isLowSurrogate low then
      (assemble pieces).map (.ofNat (0x10000 + (high - 0xD800) * 0x400 + (low - 0xDC00)) :: ·)
    else if isHighSurrogate high || isLowSurrogate high then none
    else (assemble (.unit low :: pieces)).map (.ofNat high :: ·)
  | .unit n :: pieces =>
    if isHighSurrogate n || isLowSurrogate n then none
    else (assemble pieces).map (.ofNat n :: ·)

/-- Reads the digits at the start of a text; there must be one. -/
def readDigits (text : List Char) : Option (List Char × List Char) :=
  let digits := text.takeWhile Char.isDigit
  if digits.isEmpty then none else some (digits, text.dropWhile Char.isDigit)

/-- Reads the places behind the point of a number, if there is a point. -/
def readPlaces : List Char → Option (List Char × List Char)
  | '.' :: rest => readDigits rest
  | rest => some ([], rest)

/-- Reads the exponent of a number, if there is one. -/
def readPower (text : List Char) : Option (Option Int × List Char) :=
  match text with
  | mark :: rest =>
    if mark = 'e' || mark = 'E' then do
      let (negative, rest) := Decimal.splitSign rest
      let (digits, rest) ← readDigits rest
      let n := Decimal.digitsValue digits
      return (some (if negative then -(n : Int) else n), rest)
    else some (none, text)
  | [] => some (none, text)

/-- Reads a number. A leading zero is the whole integer part. -/
def readNumber (text : List Char) : Option (Value × List Char) := do
  let (negative, text) := match text with
    | '-' :: rest => (true, rest)
    | _ => (false, text)
  let (whole, rest) ← readDigits text
  if whole.length > 1 && whole.head? = some '0' then none
  else
    let (places, rest) ← readPlaces rest
    let (power, rest) ← readPower rest
    match places, power with
    | [], none => some (.integer negative (Decimal.digitsValue whole), rest)
    | _, _ => some (.decimal negative whole places (power.getD 0), rest)

mutual

/-- Reads a value and the blanks in front of it. -/
def readValue : Nat → List Char → Option (Value × List Char)
  | 0, _ => none
  | fuel + 1, text =>
    match skipBlanks text with
    | 'n' :: 'u' :: 'l' :: 'l' :: rest => some (.null, rest)
    | 't' :: 'r' :: 'u' :: 'e' :: rest => some (.bool true, rest)
    | 'f' :: 'a' :: 'l' :: 's' :: 'e' :: rest => some (.bool false, rest)
    | '"' :: rest => do
      let (pieces, rest) ← readPieces rest
      match assemble pieces with
      | some s => return (.string (String.ofList s), rest)
      | none => return (.broken, rest)
    | '[' :: rest =>
      match skipBlanks rest with
      | ']' :: rest => some (.array [], rest)
      | rest => do
        let (items, rest) ← readItems fuel rest
        return (.array items, rest)
    | '{' :: rest =>
      match skipBlanks rest with
      | '}' :: rest => some (.object [], rest)
      | rest => do
        let (members, rest) ← readMembers fuel rest
        return (members.elim .broken .object, rest)
    | text => readNumber text

/-- Reads the items of an array up to its closing bracket. -/
def readItems : Nat → List Char → Option (List Value × List Char)
  | 0, _ => none
  | fuel + 1, text => do
    let (v, rest) ← readValue fuel text
    match skipBlanks rest with
    | ',' :: rest =>
      let (vs, rest) ← readItems fuel rest
      return (v :: vs, rest)
    | ']' :: rest => return ([v], rest)
    | _ => none

/-- Reads the members of an object up to its closing bracket. There are none to
    speak of if one of the keys stands for no text. -/
def readMembers : Nat → List Char → Option (Option (List (String × Value)) × List Char)
  | 0, _ => none
  | fuel + 1, text =>
    match skipBlanks text with
    | '"' :: rest => do
      let (pieces, rest) ← readPieces rest
      let key := (assemble pieces).map String.ofList
      match skipBlanks rest with
      | ':' :: rest => do
        let (v, rest) ← readValue fuel rest
        match skipBlanks rest with
        | ',' :: rest =>
          let (members, rest) ← readMembers fuel rest
          return (key.bind fun k => members.map ((k, v) :: ·), rest)
        | '}' :: rest => return (key.map fun k => [(k, v)], rest)
        | _ => none
      | _ => none
    | _ => none

end

/-- Reads a text that holds one value and blanks around it. -/
def read (text : String) : Option Value := do
  let (v, rest) ← readValue (2 * text.toList.length + 2) text.toList
  if (skipBlanks rest).isEmpty then some v else none

end Json

end RedundantAudio
