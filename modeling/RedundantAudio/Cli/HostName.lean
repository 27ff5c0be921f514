import RedundantAudio.Cli.Address
import RedundantAudio.Wire.Bytes

/-!
# Names of Hosts

What stands for a host is often no name but its address in disguise. One to
four numbers with points between them are a version 4 address: all but the
last are a byte each, the last one fills what is left, and each may be written
to the base eight or sixteen. A version 6 address may have a scope behind it.

What remains is a name of the domain system, if it can be one: labels with
points between them, each of up to 63 characters. A backslash in front of a
character, or of its number in three digits, stands for that character. A name
that keeps to this is worth a question to somebody who knows names; any other
is not.

## Main definitions

* `HostName`: What a text stands for.
* `HostName.ofText`: Reads it.
-/

namespace RedundantAudio

namespace Cli

/-- What a text stands for that is meant for a host. -/
inductive HostName
  /-- A version 4 address. -/
  | v4 (octets : List Nat)
  /-- A version 6 address. -/
  | v6 (groups : List Nat)
  /-- The host itself. -/
  | itself
  /-- A name that somebody might know. -/
  | domain
  /-- Nothing that can be a name. -/
  | senseless
  deriving DecidableEq, Repr

namespace HostName

/-! ### Addresses in disguise -/

/-- What a reader reads, if nothing is left behind it. -/
def wholly {α : Type} (read : Reader α) (text : List Char) : Option α :=
  match read text with
  | some (a, []) => some a
  | _ => none

/-- Reads a number of 32 bits in the base that its first digits show. -/
def readPart (text : List Char) : Option Nat :=
  let number (base : Nat) := wholly (readNumber base (UInt32.size - 1) none true)
  match text with
  | '0' :: 'x' :: digits | '0' :: 'X' :: digits => number 16 digits
  | '0' :: digits => number 8 ('0' :: digits)
  | digits => number 10 digits

/-- The octets of a number, so many of them. -/
def octetsOf : (count n : Nat) → List Nat
  | 0, _ => []
  | count + 1, n => n / Nat.pow 256 count % 256 :: octetsOf count n

/-- The address whose octets begin with some numbers and which a last number
    fills. -/
def fill : (room : Nat) → List Nat → Option (List Nat)
  | 0, _ | _, [] => none
  | room, [n] => if n < Nat.pow 256 room then some (octetsOf room n) else none
  | room + 1, n :: rest => if n < 256 then (fill room rest).map (n :: ·) else none

/-- Reads numbers with points between them. -/
def readPoints (text : String) : Option (List Nat) := do
  fill 4 (← (text.splitOn ".").mapM fun part => readPart part.toList)

/-- Whether a version 6 address is of the kind that only a link knows. -/
def isOfLink (groups : List Nat) : Bool :=
  let first := groups.headD 0
  first / 64 = 0xFE80 / 64 || (first / 256 = 0xFF && (first % 16 = 1 || first % 16 = 2))

/-- The link of a host to itself. -/
def ownLink : List Char := ['l', 'o']

/-- Whether a text is a scope for an address: a number, or a link for the
    addresses that only links know. -/
def isScope (groups : List Nat) (text : List Char) : Bool :=
  (isOfLink groups && text = ownLink)
    || (wholly (readNumber 10 (UInt32.size - 1) none true) text).isSome

/-- Reads a version 6 address, with or without a scope. -/
def readScoped (text : List Char) : Option (List Nat) := do
  let (groups, rest) ← readV6 text
  match rest with
  | [] => some groups
  | '%' :: scope => if isScope groups scope then some groups else none
  | _ => none

/-! ### Names -/

/-- A character of a name: one that belongs to it, or a point between
    labels. -/
inductive Piece
  | char (n : Nat)
  | point
  deriving DecidableEq, Repr

/-- Takes the backslashes out of a name. -/
def readPieces : List Char → Option (List Piece)
  | [] => some []
  | '\\' :: a :: b :: c :: rest =>
    if a.isDigit then
      match wholly (readNumber 10 255 none true) [a, b, c] with
      | some n => (readPieces rest).map (.char n :: ·)
      | none => none
    else (readPieces (b :: c :: rest)).map (.char a.toNat :: ·)
  | '\\' :: a :: rest => if a.isDigit then none else (readPieces rest).map (.char a.toNat :: ·)
  | ['\\'] => none
  | '.' :: rest => (readPieces rest).map (.point :: ·)
  | c :: rest => (readPieces rest).map (.char c.toNat :: ·)

/-- The labels of a name. -/
def labels : List Piece → List (List Nat)
  | [] => [[]]
  | .point :: rest => [] :: labels rest
  | .char n :: rest =>
    match labels rest with
    | [] => [[n]]
    | label :: others => (n :: label) :: others

/-- Whether a number is that of a letter, a digit, a dash or an underscore of
    English. -/
def isLabelChar (n : Nat) : Bool :=
  n < 0x80 && ((Char.ofNat n).isAlphanum || n = 0x2D || n = 0x5F)

/-- The characters that a label may have. -/
def maxLabel : Nat := 63

/-- The bytes that a name may take when it is asked for: one more than
    characters for each label, and one for the end. -/
def maxName : Nat := 255

/-- The labels of a name that ends with a point are those in front of it. -/
def namedLabels (text : List Char) : Option (List (List Nat)) := do
  let all := labels (← readPieces text)
  return if all.getLast? = some [] then all.dropLast else all

/-- Whether a text can be a name. A point by itself is the name of the root. -/
def isName (text : String) : Bool :=
  if text = "." then true
  else
    match namedLabels text.toList with
    | none | some [] => false
    | some ls =>
      ls.all (fun l => !l.isEmpty && l.length ≤ maxLabel && l.all isLabelChar)
        && ls.head?.bind List.head? ≠ some 0x2D
        && Wire.total (ls.map fun l => l.length + 1) + 1 ≤ maxName

/-- The name that every host has for itself. -/
def ownName : String := "localhost"

/-- What a text stands for. -/
def ofText (text : String) : HostName :=
  match readPoints text, readScoped text.toList with
  | some octets, _ => v4 octets
  | none, some groups => v6 groups
  | none, none =>
    if text.toLower = ownName then itself
    else if isName text then domain
    else senseless

end HostName

end Cli

end RedundantAudio
