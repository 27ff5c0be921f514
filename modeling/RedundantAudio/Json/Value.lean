import RedundantAudio.Decimal.Reader
import RedundantAudio.Text.Hex

/-!
# JSON Values

Messages travel as JSON text. A value keeps exactly what a reader of messages
may ask for. Integers stay integers of any size, since a counter has to
survive to its last digit, and any number with a point or an exponent is kept
apart from them because no field takes one. Members keep their order and may
repeat: what to do about a repeated key is for the message to say.

A number can only be kept if a double can. Which double it would be comes of
two steps that round, and not of one: the digits go into a word of 64 bits, as
many as it holds, and the word is then multiplied by a power of ten. Near the
largest double that decides, so the digits stay as they are written.

A string may contain half of a surrogate pair, written as an escape. Such a
string stands for no text, so it is a value of its own kind, which nothing
but skipping it can use, and so is an object with such a key.

## Main definitions

* `Value`: A JSON value.
* `Value.render`: Its text, without blanks.
* `Value.isPlain`: Whether a value can be kept, and not only skipped.
-/

namespace RedundantAudio

namespace Json

/-- A JSON value. -/
inductive Value
  | null
  | bool (b : Bool)
  /-- A number without point and exponent. -/
  | integer (negative : Bool) (n : Nat)
  /-- Any other number: its digits before and behind the point, and its power
      of ten. -/
  | decimal (negative : Bool) (whole places : List Char) (power : Int)
  | string (s : String)
  /-- A string with half of a surrogate pair, or an object with such a key. -/
  | broken
  | array (items : List Value)
  | object (members : List (String × Value))

/-- A character inside a string. Quotes, backslashes and control characters
    are escaped. -/
def renderChar (c : Char) : List Char :=
  if c = '"' then ['\\', '"']
  else if c = '\\' then ['\\', '\\']
  else if c.toNat < 32 then
    ['\\', 'u', '0', '0', Text.hexDigit (c.toNat / 16), Text.hexDigit (c.toNat % 16)]
  else [c]

/-- A text as a string. -/
def renderString (s : List Char) : List Char :=
  '"' :: (s.flatMap renderChar ++ ['"'])

/-- The sign of a number. -/
def renderSign (negative : Bool) : List Char :=
  if negative then ['-'] else []

namespace Value

mutual

/-- The text of a value, without blanks. -/
def chars : Value → List Char
  | null => ['n', 'u', 'l', 'l']
  | bool true => ['t', 'r', 'u', 'e']
  | bool false => ['f', 'a', 'l', 's', 'e']
  | integer negative n => renderSign negative ++ Nat.toDigits 10 n
  | decimal negative whole places power =>
    renderSign negative ++ whole ++ (if places.isEmpty then [] else '.' :: places)
      ++ ('e' :: renderSign (power < 0)) ++ Nat.toDigits 10 power.natAbs
  | string s => renderString s.toList
  | broken => ['"', '\\', 'u', 'd', '8', '0', '0', '"']
  | array [] => ['[', ']']
  | array (v :: vs) => '[' :: (v.chars ++ itemsChars vs)
  | object [] => ['{', '}']
  | object ((key, v) :: ms) =>
    '{' :: (renderString key.toList ++ (':' :: v.chars) ++ membersChars ms)

/-- The items of an array behind its first one. -/
def itemsChars : List Value → List Char
  | [] => [']']
  | v :: vs => ',' :: (v.chars ++ itemsChars vs)

/-- The members of an object behind its first one. -/
def membersChars : List (String × Value) → List Char
  | [] => ['}']
  | (key, v) :: ms =>
    ',' :: (renderString key.toList ++ (':' :: v.chars) ++ membersChars ms)

end

/-- The text of a value, without blanks. -/
def render (v : Value) : String :=
  String.ofList v.chars

/-- Appends digits to a word as long as it holds them, and tells how many it
    took. -/
def fillWord (word : Nat) : List Char → Nat × Nat
  | [] => (word, 0)
  | c :: rest =>
    let next := 10 * word + (c.toNat - 48)
    if next < UInt64.size then
      let (word, taken) := fillWord next rest
      (word, taken + 1)
    else (word, 0)

/-- The word of a number and its power of ten. -/
def scaledWord (whole places : List Char) (power : Int) : Nat × Int :=
  let (word, taken) := fillWord 0 whole
  let (word, placesTaken) := fillWord word places
  (word, power + (whole.length - taken : Nat) - placesTaken)

/-- The largest power of ten that a double can be. -/
def topPower : Int := 308

/-- Whether a number is within the range of a double. No number is too small, a
    word by itself is never too large, and zero may have any power. -/
def inRange (whole places : List Char) (power : Int) : Bool :=
  let (word, power) := scaledWord whole places power
  word = 0 || power ≤ 0
    || (power ≤ topPower
      && (Decimal.ofNat word * Decimal.ofNat (Decimal.pow10 power.toNat)).isFinite)

mutual

/-- Whether a value can be kept: its strings stand for texts, its numbers are
    in range, and it is nested less deeply than a limit. -/
def isPlain (depth : Nat) : Value → Bool
  | null | bool _ | string _ => true
  | broken => false
  | integer _ n => inRange (Nat.toDigits 10 n) [] 0
  | decimal _ whole places power => inRange whole places power
  | array items => 0 < depth && itemsPlain (depth - 1) items
  | object members => 0 < depth && membersPlain (depth - 1) members

/-- Whether all items can be kept. -/
def itemsPlain (depth : Nat) : List Value → Bool
  | [] => true
  | v :: vs => v.isPlain depth && itemsPlain depth vs

/-- Whether the values of all members can be kept. -/
def membersPlain (depth : Nat) : List (String × Value) → Bool
  | [] => true
  | (_, v) :: ms => v.isPlain depth && membersPlain depth ms

end

/-- The natural number that a value is, if it lies below a bound. A negative
    zero is none. -/
def asNatBelow (bound : Nat) : Value → Option Nat
  | integer false n => if n < bound then some n else none
  | _ => none

/-- The truth value that a value is. -/
def asBool : Value → Option Bool
  | bool b => some b
  | _ => none

end Value

/-- The value of a key, if exactly one member has it. -/
def uniqueMember (key : String) (members : List (String × Value)) : Option Value :=
  match members.filter fun m => m.1 = key with
  | [m] => some m.2
  | _ => none

end Json

end RedundantAudio
