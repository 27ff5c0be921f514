import RedundantAudio.Cli.Value
import RedundantAudio.Log
import RedundantAudio.Text.Blank
import RedundantAudio.Text.Pattern

/-!
# Directives of a Log Filter

A directive names a component and how much of its log to show, or only one of
the two: a level by itself goes for every component, and a component by itself
is shown in full. In brackets between the two it may name a span, and in
braces at the end of those a field with a value that the field must have.

A directive is read character by character, and what it consists of is known
by where its parts begin and end. Blanks around it are passed over while its
characters are looked at, but the parts are cut out of the directive as it was
written, at the same places. So with blanks in front every part is displaced
by as many bytes as they take.

## Main definitions

* `Directive`: One directive.
* `Directive.ofText`: Reads one.
* `Directive.covers`: Whether it covers a component.
-/

namespace RedundantAudio

namespace Cli

/-- How much a level shows, from nothing at zero to everything at five. It may
    be a number, and upper and lower case are the same. -/
def verbosityOf (text : String) : Option Nat :=
  match readUnsigned text with
  | .ok n => if n ≤ 5 then some n else none
  | .error _ =>
    match text.toLower with
    | "off" => some 0
    | "error" => some 1
    | "warn" => some 2
    | "info" => some 3
    | "debug" => some 4
    | "trace" => some 5
    | _ => none

/-- Everything is shown. -/
def fullVerbosity : Nat := 5

/-- A field that a directive asks for. -/
structure FieldCondition where
  /-- The name of the field. -/
  name : String
  /-- Whether it must have a certain value. -/
  hasValue : Bool
  deriving DecidableEq, Repr

/-- One directive of a filter. -/
structure Directive where
  /-- The start of the names that it covers; every name, if there is none. -/
  target : Option String := none
  /-- The name of the span that it is confined to, if it is. -/
  span : Option String := none
  /-- The field that it asks for, if it does. -/
  field : Option FieldCondition := none
  /-- How much to show. -/
  verbosity : Nat := fullVerbosity
  deriving DecidableEq, Repr

/-- Reads a field. Its value is true or false, a number or, if none of them, a
    regular expression, and what stands behind a second equals sign does not
    count. -/
def FieldCondition.ofText (text : String) : Option FieldCondition :=
  match text.splitOn "=" with
  | [] => none
  | [name] => some ⟨name, false⟩
  | name :: value :: _ =>
    if (Decimal.readDouble value).isSome || Text.isPattern value.toList then some ⟨name, true⟩
    else none

namespace Directive

/-- Where in a directive a character is. A number tells where the part began,
    in bytes. -/
inductive Place
  /-- In front. -/
  | front
  /-- In a level or the name of a component. -/
  | name (start : Nat)
  /-- In the name of a span. -/
  | span (start : Nat)
  /-- In a field. -/
  | field (start : Nat)
  /-- Behind the field. -/
  | behindField
  /-- Behind the closing bracket. -/
  | behindSpan
  /-- In the level behind an equals sign. -/
  | level (start : Nat)
  deriving DecidableEq, Repr

/-- The characters of a text from so many bytes on. -/
def dropBytes : Nat → List Char → List Char
  | 0, text => text
  | _, [] => []
  | n, c :: rest => if n < c.utf8Size then c :: rest else dropBytes (n - c.utf8Size) rest

/-- The characters of a text that begin in its first so many bytes. -/
def takeBytes : Nat → List Char → List Char
  | 0, _ => []
  | _, [] => []
  | n, c :: rest => c :: takeBytes (n - c.utf8Size) rest

/-- The part of a text between two places. -/
def cut (text : List Char) (start stop : Nat) : String :=
  String.ofList (takeBytes (stop - start) (dropBytes start text))

/-- The characters that a directive may begin with, apart from a bracket. -/
def isFrontChar (c : Char) : Bool :=
  c = '-' || c = ':' || c = '_' || Text.isAlphanumeric c

/-- Takes in one character, which stands so many bytes behind the front. -/
def step (text : List Char) (d : Directive) (place : Place) (i : Nat) (c : Char) :
    Option (Directive × Place) :=
  match place with
  | .front =>
    if c = '[' then some (d, .span (i + 1))
    else if isFrontChar c then some (d, .name i)
    else none
  | .name start =>
    if c = '=' then some ({ d with target := some (cut text start i) }, .level (i + 1))
    else if c = '[' then some ({ d with target := some (cut text start i) }, .span (i + 1))
    else some (d, place)
  | .span start =>
    if c = ']' then some ({ d with span := some (cut text start i) }, .behindSpan)
    else if c = '\x7b' then
      some ({ d with span := some (cut text start i) |>.filter (· ≠ "") }, .field (i + 1))
    else some (d, place)
  | .field start =>
    if c = '\x7d' then
      let written := cut text start i
      if written.isEmpty then none
      else do return ({ d with field := some (← FieldCondition.ofText written) }, .behindField)
    else some (d, place)
  | .behindField => if c = ']' then some (d, .behindSpan) else none
  | .behindSpan => if c = '=' then some (d, .level (i + 1)) else none
  | .level _ => some (d, place)

/-- Takes in characters, the first of which stands so many bytes behind the
    front. -/
def scan (text : List Char) (d : Directive) (place : Place) (i : Nat) :
    List Char → Option (Directive × Place)
  | [] => some (d, place)
  | c :: rest => do
    let (d, place) ← step text d place i c
    scan text d place (i + c.utf8Size) rest

/-- The directive that ends at a place. A name that is a level covers every
    component. -/
def finish (text : List Char) (d : Directive) (place : Place) : Option Directive :=
  match place with
  | .name start =>
    let written := String.ofList (dropBytes start text)
    match verbosityOf written with
    | some verbosity => some { d with verbosity }
    | none => some { d with target := if written.isEmpty then none else some written }
  | .level start =>
    let written := String.ofList (dropBytes start text)
    if written.isEmpty then some d
    else (verbosityOf written).map fun verbosity => { d with verbosity }
  | .behindSpan => some d
  | .front | .span _ | .field _ | .behindField => none

/-- Reads a directive. -/
def ofText (text : String) : Option Directive := do
  let (d, place) ← scan text.toList {} .front 0 (Text.trim text.toList)
  finish text.toList d place

/-- How narrow a directive is, to be compared with others: by the length of
    its name first, and then by whether it asks for a field. -/
def narrowness (d : Directive) : Nat × Nat :=
  (match d.target with
    | none => 0
    | some name => name.utf8ByteSize + 1,
    if d.field.isSome then 1 else 0)

/-- Whether a directive is no narrower than another. -/
def isBroaderOrEqual (d e : Directive) : Bool :=
  d.narrowness.1 < e.narrowness.1
    || (d.narrowness.1 = e.narrowness.1 && d.narrowness.2 ≤ e.narrowness.2)

/-- The only field that log lines have. -/
def messageField : String := "message"

/-- Whether a directive covers a component. No line is inside a span or has a
    field with a value to be compared. -/
def covers (d : Directive) (component : String) : Bool :=
  d.span.isNone && (d.field.all fun f => f.name = messageField && !f.hasValue)
    && d.target.all fun name => name.toList.isPrefixOf component.toList

end Directive

end Cli

end RedundantAudio
