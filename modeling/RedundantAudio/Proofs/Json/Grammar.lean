import RedundantAudio.Json.Reader

/-!
# The Grammar of JSON

Which texts stand for a value, told without a reader. Blanks may stand around
every value and around every key. A text stands for one value at most, but most
values have many texts, since blanks, escapes, exponents and the sign of an
exponent leave a choice.

A string is a list of pieces, and what it stands for is known only once surrogate
pairs are joined. If that fails the string is still good JSON, and so is an object
that has it as a key. So keys are optional here: a key that stands for no text
spoils the object around it (`objectOf`), but not its grammar.

Arrays and objects are lists that end with a bracket, and not items between
brackets. That is how they are read, and nothing is lost by it.

## Main definitions

* `StringText`, `KeyText`: The texts of strings and keys.
* `NumberText`: The texts of numbers.
* `ValueText`, `ItemsText`, `MembersText`: The texts of values, and of what is
  between brackets.
* `ObjectText`: The texts of an object with given members.
-/

namespace RedundantAudio

namespace Json

/-- Nothing but blanks. -/
def Blanks (text : List Char) : Prop :=
  ∀ c ∈ text, isBlank c = true

instance (text : List Char) : Decidable (Blanks text) :=
  List.decidableBAll (fun c => isBlank c = true) text

theorem blanks_nil : Blanks [] :=
  fun _ hc => nomatch hc

theorem Blanks.append {front back : List Char} (hfront : Blanks front) (hback : Blanks back) :
    Blanks (front ++ back) :=
  fun c hc => (List.mem_append.mp hc).elim (hfront c) (hback c)

/-! ### Strings -/

/-- A character of a string, or a code unit that it escapes. -/
inductive PieceText : List Char → Piece → Prop
  /-- A character that stands for itself. -/
  | plain (c : Char) (hcontrol : 32 ≤ c.toNat) (hquote : c ≠ '"') (hslash : c ≠ '\\') :
      PieceText [c] (.char c)
  /-- A character that a letter stands for. -/
  | letter (e c : Char) (h : simpleEscape e = some c) : PieceText ['\\', e] (.char c)
  /-- A code unit in four digits. -/
  | digits (a b c d : Char) (n : Nat) (h : unitValue a b c d = some n) :
      PieceText ['\\', 'u', a, b, c, d] (.unit n)

/-- What is between the quotes of a string. -/
inductive StringText : List Char → List Piece → Prop
  | nil : StringText [] []
  | cons {first rest : List Char} {piece : Piece} {pieces : List Piece}
      (hfirst : PieceText first piece) (hrest : StringText rest pieces) :
      StringText (first ++ rest) (piece :: pieces)

/-- The value of a string, which may be broken. -/
def stringValue (pieces : List Piece) : Value :=
  match assemble pieces with
  | some s => .string (String.ofList s)
  | none => .broken

/-- A key with its colon, and blanks around the key. -/
inductive KeyText : List Char → Option String → Prop
  | mk {front inner back : List Char} {pieces : List Piece} (hfront : Blanks front)
      (hinner : StringText inner pieces) (hback : Blanks back) :
      KeyText (front ++ '"' :: (inner ++ '"' :: (back ++ [':'])))
        ((assemble pieces).map String.ofList)

/-! ### Numbers -/

/-- Digits, and at least one. -/
def Digits (digits : List Char) : Prop :=
  digits ≠ [] ∧ ∀ c ∈ digits, c.isDigit = true

/-- The digits in front of the point. A leading zero is alone. -/
def Whole (digits : List Char) : Prop :=
  Digits digits ∧ (digits.head? = some '0' → digits.length ≤ 1)

/-- The point and the places behind it, or neither. -/
inductive PlacesText : List Char → List Char → Prop
  | none : PlacesText [] []
  | some {digits : List Char} (h : Digits digits) : PlacesText ('.' :: digits) digits

/-- The sign of an exponent, which is negative or not. -/
inductive SignText : List Char → Bool → Prop
  | none : SignText [] false
  | plus : SignText ['+'] false
  | minus : SignText ['-'] true

/-- An exponent, or none. -/
inductive PowerText : List Char → Option Int → Prop
  | none : PowerText [] none
  | some {mark : Char} {sign digits : List Char} {negative : Bool}
      (hmark : mark = 'e' ∨ mark = 'E') (hsign : SignText sign negative)
      (hdigits : Digits digits) :
      PowerText (mark :: (sign ++ digits))
        (some (if negative then -(Decimal.digitsValue digits : Int)
          else Decimal.digitsValue digits))

/-- The value of a number. Without point and exponent it is an integer. -/
def numberValue (negative : Bool) (whole places : List Char) (power : Option Int) : Value :=
  match places, power with
  | [], none => .integer negative (Decimal.digitsValue whole)
  | _, _ => .decimal negative whole places (power.getD 0)

/-- A number. -/
inductive NumberText : List Char → Value → Prop
  | mk (negative : Bool) {whole point places exponent : List Char} {power : Option Int}
      (hwhole : Whole whole) (hplaces : PlacesText point places)
      (hpower : PowerText exponent power) :
      NumberText (renderSign negative ++ (whole ++ (point ++ exponent)))
        (numberValue negative whole places power)

/-! ### Values -/

/-- The members of an object, if all of its keys stand for texts. -/
def keyed : List (Option String × Value) → Option (List (String × Value))
  | [] => some []
  | (key, v) :: members => key.bind fun k => (keyed members).map ((k, v) :: ·)

/-- The object with some members. One key that stands for no text breaks it. -/
def objectOf (members : List (Option String × Value)) : Value :=
  (keyed members).elim .broken .object

mutual

/-- A value, with or without blanks around it. -/
inductive ValueText : List Char → Value → Prop
  | blanks {front text back : List Char} {v : Value} (hfront : Blanks front)
      (h : ValueText text v) (hback : Blanks back) : ValueText (front ++ (text ++ back)) v
  | null : ValueText ['n', 'u', 'l', 'l'] .null
  | true : ValueText ['t', 'r', 'u', 'e'] (.bool true)
  | false : ValueText ['f', 'a', 'l', 's', 'e'] (.bool false)
  | number {text : List Char} {v : Value} (h : NumberText text v) : ValueText text v
  | string {inner : List Char} {pieces : List Piece} (h : StringText inner pieces) :
      ValueText ('"' :: (inner ++ ['"'])) (stringValue pieces)
  | emptyArray {inner : List Char} (h : Blanks inner) :
      ValueText ('[' :: (inner ++ [']'])) (.array [])
  | array {text : List Char} {items : List Value} (h : ItemsText text items) :
      ValueText ('[' :: text) (.array items)
  | emptyObject {inner : List Char} (h : Blanks inner) :
      ValueText ('{' :: (inner ++ ['}'])) (.object [])
  | object {text : List Char} {members : List (Option String × Value)}
      (h : MembersText text members) : ValueText ('{' :: text) (objectOf members)

/-- The items of an array with the bracket behind them. -/
inductive ItemsText : List Char → List Value → Prop
  | last {text : List Char} {v : Value} (h : ValueText text v) : ItemsText (text ++ [']']) [v]
  | cons {text rest : List Char} {v : Value} {items : List Value} (h : ValueText text v)
      (hrest : ItemsText rest items) : ItemsText (text ++ ',' :: rest) (v :: items)

/-- The members of an object with the bracket behind them. -/
inductive MembersText : List Char → List (Option String × Value) → Prop
  | last {keyText text : List Char} {key : Option String} {v : Value} (hkey : KeyText keyText key)
      (h : ValueText text v) : MembersText (keyText ++ (text ++ ['}'])) [(key, v)]
  | cons {keyText text rest : List Char} {key : Option String} {v : Value}
      {members : List (Option String × Value)} (hkey : KeyText keyText key) (h : ValueText text v)
      (hrest : MembersText rest members) :
      MembersText (keyText ++ (text ++ ',' :: rest)) ((key, v) :: members)

end

/-- An object with some members in order, and blanks around it. -/
def ObjectText (text : List Char) (members : List (Option String × Value)) : Prop :=
  ∃ front inner back, Blanks front ∧ MembersText inner members ∧ Blanks back ∧
    text = front ++ ('{' :: inner ++ back)

theorem ObjectText.valueText {text : List Char} {members : List (Option String × Value)}
    (h : ObjectText text members) : ValueText text (objectOf members) := by
  rcases h with ⟨front, inner, back, hfront, hinner, hback, rfl⟩
  exact .blanks hfront (.object hinner) hback

theorem ObjectText.surrounded {front text back : List Char}
    {members : List (Option String × Value)} (hfront : Blanks front) (h : ObjectText text members)
    (hback : Blanks back) : ObjectText (front ++ text ++ back) members := by
  rcases h with ⟨front', inner, back', hfront', hinner, hback', rfl⟩
  refine ⟨front ++ front', inner, back' ++ back, hfront.append hfront', hinner,
    hback'.append hback, ?_⟩
  simp only [List.append_assoc, List.cons_append]

end Json

end RedundantAudio
