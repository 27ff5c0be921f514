import RedundantAudio.Cli.Value
import RedundantAudio.Text.Hex

/-!
# Socket Addresses

An address of the internet protocol, version 4 or 6, with a port. A version 4
address is four numbers below 256 without needless zeros. A version 6 address
is eight groups of up to four hexadecimal digits, of which a run of zero
groups may be left out once, and the last two may be written as a version 4
address; with a port behind it, it stands in brackets.

A destination may also be the name of a host and a port, and then it takes
somebody who knows hosts by name to find the address.

## Main definitions

* `Address`: A socket address.
* `Address.ofText`, `Address.toText`: Reads and shows one.
* `Destination`: An address, or a host by name.
* `Destination.ofText`: Reads one.
-/

namespace RedundantAudio

namespace Cli

/-- A socket address. -/
inductive Address
  /-- Four numbers, and a port. -/
  | v4 (octets : List Nat) (port : Nat)
  /-- Eight groups, and a port. -/
  | v6 (groups : List Nat) (port : Nat)
  deriving DecidableEq, Repr

/-- A reader of the front of a text. -/
abbrev Reader (α : Type) := List Char → Option (α × List Char)

/-- The value of a digit in a base of up to sixteen. -/
def digitValue (base : Nat) (c : Char) : Option Nat :=
  (Text.hexValue c).filter (· < base)

/-- Reads a number up to a bound, with a limit on its digits if there is one.
    Needless zeros may be forbidden. -/
def readNumber (base bound : Nat) (digits : Option Nat) (zeros : Bool) : Reader Nat := fun text =>
  let isDigit (c : Char) := (digitValue base c).isSome
  let front := text.takeWhile isDigit
  let value := front.foldl (fun n c => base * n + (digitValue base c).getD 0) 0
  if front.isEmpty || digits.any (· < front.length) then none
  else if !zeros && front.head? = some '0' && front.length > 1 then none
  else if value > bound then none
  else some (value, text.drop front.length)

/-- Takes a character off the front. -/
def takeChar (c : Char) : Reader Unit
  | d :: rest => if c = d then some ((), rest) else none
  | [] => none

/-- Reads one of the four numbers of a version 4 address. -/
def readOctet : Reader Nat :=
  readNumber 10 255 (some 3) false

/-- Reads a version 4 address. -/
def readV4 : Reader (List Nat) := fun text => do
  let (a, text) ← readOctet text
  let ((), text) ← takeChar '.' text
  let (b, text) ← readOctet text
  let ((), text) ← takeChar '.' text
  let (c, text) ← readOctet text
  let ((), text) ← takeChar '.' text
  let (d, text) ← readOctet text
  return ([a, b, c, d], text)

/-- The two groups that a version 4 address comes to. -/
def groupsOfV4 : List Nat → List Nat
  | [a, b, c, d] => [256 * a + b, 256 * c + d]
  | _ => []

/-- Takes off the colon in front of every group but the first. -/
def takeColon (first : Bool) (text : List Char) : Option (List Char) :=
  if first then some text else (takeChar ':' text).map (·.2)

/-- Reads up to `limit` groups, as many as there are. The flag tells whether
    they ended with a version 4 address. -/
def readGroups (first : Bool) : (limit : Nat) → List Char → List Nat × Bool × List Char
  | 0, text => ([], false, text)
  | limit + 1, text =>
    let v4 := if limit = 0 then none else (takeColon first text).bind readV4
    match v4 with
    | some (octets, rest) => (groupsOfV4 octets, true, rest)
    | none =>
      match (takeColon first text).bind (readNumber 16 65535 (some 4) true) with
      | none => ([], false, text)
      | some (group, rest) =>
        let (groups, ended, rest) := readGroups false limit rest
        (group :: groups, ended, rest)

/-- Reads a version 6 address. Groups that are left out are zero, and there is
    at least one of them. -/
def readV6 : Reader (List Nat) := fun text => do
  let (head, ended, rest) := readGroups true 8 text
  if head.length = 8 then some (head, rest)
  else if ended then none
  else
    let ((), rest) ← takeChar ':' rest
    let ((), rest) ← takeChar ':' rest
    let (tail, _, rest) := readGroups true (8 - (head.length + 1)) rest
    some (head ++ List.replicate (8 - head.length - tail.length) 0 ++ tail, rest)

/-- Reads the colon and the number of a port. -/
def readPort : Reader Nat := fun text => do
  let ((), text) ← takeChar ':' text
  readNumber 10 65535 none true text

/-- Reads the zone of a version 6 address, if there is one. -/
def readZone (text : List Char) : Option (List Char) :=
  match text with
  | '%' :: rest => (readNumber 10 (UInt32.size - 1) none true rest).map (·.2)
  | _ => some text

namespace Address

/-- Reads a version 4 socket address. -/
def readV4Socket : Reader Address := fun text => do
  let (octets, text) ← readV4 text
  let (port, text) ← readPort text
  return (.v4 octets port, text)

/-- Reads a version 6 socket address. -/
def readV6Socket : Reader Address := fun text => do
  let ((), text) ← takeChar '[' text
  let (groups, text) ← readV6 text
  let text ← readZone text
  let ((), text) ← takeChar ']' text
  let (port, text) ← readPort text
  return (.v6 groups port, text)

/-- Reads a socket address. Nothing may stand behind it. -/
def ofText (text : String) : Option Address :=
  match readV4Socket text.toList <|> readV6Socket text.toList with
  | some (address, []) => some address
  | _ => none

/-- The place and the length of the longest run of zeros; of equals, the
    first. -/
def longestZeros (groups : List Nat) : Nat × Nat :=
  (List.range groups.length).foldl (fun best i =>
    let length := ((groups.drop i).takeWhile (· = 0)).length
    if best.2 < length then (i, length) else best) (0, 0)

/-- Groups with colons between them. -/
def joinGroups (groups : List Nat) : String :=
  ":".intercalate (groups.map fun g => String.ofList (Nat.toDigits 16 g))

/-- Octets with points between them. -/
def joinOctets (octets : List Nat) : String :=
  ".".intercalate (octets.map toString)

/-- A version 6 address as it is shown. The longest run of zero groups is left
    out, if there are two of them, and an address that stands for one of
    version 4 is shown like it. -/
def showV6 (groups : List Nat) : String :=
  match groups with
  | [0, 0, 0, 0, 0, 65535, high, low] =>
    "::ffff:" ++ joinOctets [high / 256, high % 256, low / 256, low % 256]
  | _ =>
    let (start, length) := longestZeros groups
    if length < 2 then joinGroups groups
    else joinGroups (groups.take start) ++ "::" ++ joinGroups (groups.drop (start + length))

/-- An address as it is shown. -/
def toText : Address → String
  | v4 octets port => s!"{joinOctets octets}:{port}"
  | v6 groups port => s!"[{showV6 groups}]:{port}"

/-- What is said about a text that is no socket address. -/
def syntaxFault : String := "invalid socket address syntax"

end Address

/-- Splits a text at its last colon. -/
def splitLastColon (text : String) : Option (String × String) :=
  let reversed := text.toList.reverse
  match reversed.dropWhile (· ≠ ':') with
  | [] => none
  | _ :: host =>
    some (String.ofList host.reverse, String.ofList (reversed.takeWhile (· ≠ ':')).reverse)

/-- Where packets may be sent. -/
inductive Destination
  /-- An address that is written out. -/
  | address (address : Address)
  /-- A port of a host that somebody has to know by name. -/
  | host (name : String) (port : Nat)
  deriving DecidableEq, Repr

/-- What is said about a name with the character in it that ends names. -/
def nulFault : String := "file name contained an unexpected NUL byte"

/-- Whether a name has the character in it that ends names. -/
def hasNul (name : String) : Bool :=
  name.toList.any (·.toNat = 0)

/-- The destination that a text names, or why it names none. -/
def Destination.ofText (text : String) : Except String Destination :=
  match Address.ofText text with
  | some a => .ok (.address a)
  | none =>
    match splitLastColon text with
    | none => .error "invalid socket address"
    | some (name, port) =>
      match readUnsigned port with
      | .ok n =>
        if n ≥ 65536 then .error "invalid port value"
        else if hasNul name then .error nulFault
        else .ok (.host name n)
      | .error _ => .error "invalid port value"

end Cli

end RedundantAudio
