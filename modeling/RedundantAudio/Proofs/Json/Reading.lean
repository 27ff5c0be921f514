import Mathlib.Data.List.DropRight
import RedundantAudio.Proofs.Json.Grammar

/-!
# Reading Follows the Grammar

Every text of the grammar is read as the value that it stands for, and what is
behind it is left over. Each reader has a lemma that says so for its part of the
grammar, and these lemmas follow the constructors.

Two things need care. A number ends where the digits end, so something has to
stand behind it that cannot continue it (`Ends`); brackets, commas and blanks do.
And a reader takes the blanks in front of a value, not those behind it, so what is
left over may begin with blanks of the text itself.

The readers of values call each other with less fuel each time, and take a
character before they do. So a text is never longer than the fuel it needs, and
the length of the text is a measure for all three of them.

## Main definitions

* `Ends`: What may stand behind a number.

## Theorems

* `readPieces_of_stringText`, `readNumber_of_numberText`: Strings and numbers.
* `readValue_of_valueText`, `readItems_of_itemsText`, `readMembers_of_membersText`:
  Values.
* `read_of_valueText`: A whole text.
* `ValueText.unique`: So no text stands for two values.
-/

namespace RedundantAudio

namespace Json

/-! ### Blanks -/

theorem skipBlanks_append {blanks : List Char} (h : Blanks blanks) (rest : List Char) :
    skipBlanks (blanks ++ rest) = skipBlanks rest :=
  List.dropWhile_append_of_pos h

theorem skipBlanks_cons {c : Char} (h : isBlank c = false) (rest : List Char) :
    skipBlanks (c :: rest) = c :: rest :=
  List.dropWhile_cons_of_neg (by rw [h]; exact Bool.false_ne_true)

theorem skipBlanks_skipBlanks (text : List Char) :
    skipBlanks (skipBlanks text) = skipBlanks text :=
  List.dropWhile_idempotent _ text

theorem skipBlanks_blanks {blanks : List Char} (h : Blanks blanks) : skipBlanks blanks = [] := by
  rw [← List.append_nil blanks, skipBlanks_append h]
  rfl

/-! ### Strings -/

/-- One piece of a string is read, if the rest of the string is. The reader asks for escapes
    before it takes a character as it is, so for a plain one the cases before have to be
    excluded. -/
theorem readPieces_of_pieceText {text rest behind : List Char} {piece : Piece}
    {pieces : List Piece} (h : PieceText text piece)
    (hrest : readPieces rest = some (pieces, behind)) :
    readPieces (text ++ rest) = some (piece :: pieces, behind) := by
  cases h with
  | plain c hcontrol hquote hslash =>
      rw [List.singleton_append, readPieces, if_neg (Nat.not_lt.mpr hcontrol), hrest]
      · rfl
      · exact hquote
      · exact fun _ _ _ _ _ hc => absurd hc hslash
      · exact fun _ _ hc => absurd hc hslash
  | letter e c h =>
      rw [List.cons_append, List.singleton_append, readPieces, h, hrest]
      · rfl
      · -- The letter of a code unit stands for no character.
        rintro _ _ _ _ _ rfl
        cases h
  | digits a b c d n h =>
      change readPieces ('\\' :: 'u' :: a :: b :: c :: d :: rest) = _
      rw [readPieces, h, hrest]
      rfl

/-- A string is read up to its closing quote. -/
theorem readPieces_of_stringText {text : List Char} {pieces : List Piece}
    (h : StringText text pieces) (rest : List Char) :
    readPieces (text ++ '"' :: rest) = some (pieces, rest) := by
  induction h with
  | nil => rfl
  | cons hfirst _ ih =>
      rw [List.append_assoc]
      exact readPieces_of_pieceText hfirst ih

/-! ### Numbers -/

/-- What can stand behind a number without continuing it. -/
def Ends (rest : List Char) : Prop :=
  ∀ c ∈ rest.head?, c.isDigit = false ∧ c ≠ '.' ∧ c ≠ 'e' ∧ c ≠ 'E'

theorem ends_cons {c : Char} {rest : List Char}
    (h : c.isDigit = false ∧ c ≠ '.' ∧ c ≠ 'e' ∧ c ≠ 'E') : Ends (c :: rest) := by
  intro d hd
  obtain rfl : c = d := Option.some.inj hd
  exact h

/-- A number ends at a blank, or at what stands behind blanks. -/
theorem ends_blanks_append {blanks rest : List Char} (h : Blanks blanks) (hrest : Ends rest) :
    Ends (blanks ++ rest) := by
  rcases blanks with _ | ⟨c, blanks⟩
  · exact hrest
  · intro d hd
    obtain rfl : c = d := Option.some.inj hd
    have hblank := h c List.mem_cons_self
    simp only [isBlank, Bool.or_eq_true, decide_eq_true_eq] at hblank
    rcases hblank with ((rfl | rfl) | rfl) | rfl <;> decide

/-- Digits are read up to where no digit stands. The reader takes as many as it can, so this
    asks that no further one follows. -/
theorem readDigits_of_digits {digits rest : List Char} (h : Digits digits)
    (hrest : ∀ c ∈ rest.head?, c.isDigit = false) :
    readDigits (digits ++ rest) = some (digits, rest) := by
  -- The reader takes digits as long as it finds some, so none may follow.
  have hstop : rest.takeWhile Char.isDigit = [] ∧ rest.dropWhile Char.isDigit = rest := by
    rcases rest with _ | ⟨c, rest⟩
    · exact ⟨rfl, rfl⟩
    · have hc := hrest c rfl
      exact ⟨by rw [List.takeWhile_cons, hc]; rfl, by rw [List.dropWhile_cons, hc]; rfl⟩
  rw [readDigits, List.takeWhile_append_of_pos h.2, List.dropWhile_append_of_pos h.2, hstop.1,
    hstop.2, List.append_nil]
  exact if_neg fun hempty => h.1 (List.isEmpty_iff.mp hempty)

/-- The places are read with their point. Where there are none, there is no point either. -/
theorem readPlaces_of_placesText {text places rest : List Char} (h : PlacesText text places)
    (hrest : ∀ c ∈ rest.head?, c.isDigit = false ∧ c ≠ '.') :
    readPlaces (text ++ rest) = some (places, rest) := by
  cases h with
  | none =>
      rw [List.nil_append, readPlaces]
      rintro behind rfl
      exact (hrest '.' rfl).2 rfl
  | some h =>
      rw [List.cons_append, readPlaces]
      exact readDigits_of_digits h fun c hc => (hrest c hc).1

/-- The sign of an exponent is split off. Where there is none, a digit stands in its place,
    and a digit is never taken for a sign. -/
theorem splitSign_of_signText {sign digits : List Char} {negative : Bool}
    (h : SignText sign negative) (hdigits : Digits digits) (rest : List Char) :
    Decimal.splitSign (sign ++ (digits ++ rest)) = (negative, digits ++ rest) := by
  cases h with
  | none =>
      -- A digit is neither of the two signs.
      rcases digits with _ | ⟨c, digits⟩
      · exact absurd rfl hdigits.1
      · have hc := hdigits.2 c List.mem_cons_self
        rw [List.nil_append, List.cons_append, Decimal.splitSign]
        · rintro _ heq
          rw [(List.cons.inj heq).1] at hc
          cases hc
        · rintro _ heq
          rw [(List.cons.inj heq).1] at hc
          cases hc
  | plus => rfl
  | minus => rfl

/-- An exponent is read, or none where none is marked. What follows the number must not look
    like an exponent, or the reader would try to go on with it. -/
theorem readPower_of_powerText {text rest : List Char} {power : Option Int}
    (h : PowerText text power) (hrest : Ends rest) :
    readPower (text ++ rest) = some (power, rest) := by
  cases h with
  | none =>
      rw [List.nil_append]
      rcases rest with _ | ⟨c, rest⟩
      · rfl
      · -- What stands there is neither of the two letters that mark an exponent.
        have hc := hrest c rfl
        rw [readPower, if_neg]
        simp only [hc.2.2.1, hc.2.2.2, decide_false, Bool.or_self, Bool.false_eq_true,
          not_false_eq_true]
  | some hmark hsign hdigits =>
      rw [List.cons_append, List.append_assoc, readPower, if_pos,
        splitSign_of_signText hsign hdigits]
      · simp only [readDigits_of_digits hdigits fun c hc => (hrest c hc).1]
        rfl
      · simpa only [Bool.or_eq_true, decide_eq_true_eq] using hmark

/-- An exponent, or what follows if there is none, does not go on with the digits before it. -/
theorem PowerText.head {text rest : List Char} {power : Option Int} (h : PowerText text power)
    (hrest : Ends rest) : ∀ c ∈ (text ++ rest).head?, c.isDigit = false ∧ c ≠ '.' := by
  cases h with
  | none => exact fun c hc => ⟨(hrest c hc).1, (hrest c hc).2.1⟩
  | some hmark _ _ =>
      rintro c hc
      obtain rfl := Option.some.inj hc
      rcases hmark with rfl | rfl <;> decide

/-- Neither do the places, whose first character is the point. -/
theorem PlacesText.head {text places rest : List Char} (h : PlacesText text places)
    (hrest : ∀ c ∈ rest.head?, c.isDigit = false ∧ c ≠ '.') :
    ∀ c ∈ (text ++ rest).head?, c.isDigit = false := by
  cases h with
  | none => exact fun c hc => (hrest c hc).1
  | some _ =>
      rintro c hc
      obtain rfl := Option.some.inj hc
      decide

/-- A number without a sign does not begin with one. -/
theorem Whole.ne_minus {whole behind rest : List Char} (h : Whole whole) :
    whole ++ behind ≠ '-' :: rest := by
  rcases whole with _ | ⟨c, whole⟩
  · exact absurd rfl h.1.1
  · intro heq
    have hc := h.1.2 c List.mem_cons_self
    rw [(List.cons.inj heq).1] at hc
    cases hc

/-- A number begins with a minus sign or a digit. -/
theorem NumberText.head {text : List Char} {v : Value} (h : NumberText text v) :
    ∃ c tail, text = c :: tail ∧ (c = '-' ∨ c.isDigit = true) := by
  cases h with
  | @mk negative whole _ _ _ _ hwhole _ _ =>
      cases negative with
      | true => exact ⟨'-', _, rfl, Or.inl rfl⟩
      | false =>
          rcases whole with _ | ⟨c, whole⟩
          · exact absurd rfl hwhole.1.1
          · exact ⟨c, _, rfl, Or.inr (hwhole.1.2 c List.mem_cons_self)⟩

/-- A number is read up to where it cannot go on. Sign, digits, places and exponent are read
    in this order, and each reader stops because the next part does not begin like its own.
    The value follows from the parts: an integer if there are neither places nor exponent. -/
theorem readNumber_of_numberText {text rest : List Char} {v : Value} (h : NumberText text v)
    (hrest : Ends rest) : readNumber (text ++ rest) = some (v, rest) := by
  cases h with
  | @mk negative whole point places exponent power hwhole hplaces hpower =>
      -- Each part ends where the next one begins, told from the back.
      have hexponent := hpower.head hrest
      have hdigits := readDigits_of_digits hwhole.1 (hplaces.head hexponent)
      have hpoint := readPlaces_of_placesText hplaces hexponent
      have hbehind := readPower_of_powerText hpower hrest
      -- The reader refuses a zero that is followed by digits.
      have hzero : ¬ ((decide (whole.length > 1) && decide (whole.head? = some '0')) = true) := by
        rw [Bool.and_eq_true, decide_eq_true_eq, decide_eq_true_eq]
        exact fun h => Nat.not_lt.mpr (hwhole.2 h.2) h.1
      simp only [List.append_assoc]
      cases negative with
      | true =>
          rw [renderSign, if_pos rfl, List.singleton_append, readNumber]
          simp only [hdigits, if_neg hzero, hpoint, hbehind, Option.bind_eq_bind, Option.bind_some]
          rcases places with _ | ⟨c, places⟩ <;> rcases power with _ | power <;> rfl
      | false =>
          rw [renderSign, if_neg Bool.false_ne_true, List.nil_append, readNumber]
          · simp only [hdigits, if_neg hzero, hpoint, hbehind, Option.bind_eq_bind,
              Option.bind_some]
            rcases places with _ | ⟨c, places⟩ <;> rcases power with _ | power <;> rfl
          · exact fun _ => hwhole.ne_minus

/-! ### Values -/

theorem readValue_skipBlanks (fuel : Nat) (text : List Char) :
    readValue fuel (skipBlanks text) = readValue fuel text := by
  cases fuel with
  | zero => rfl
  | succ fuel => rw [readValue, readValue, skipBlanks_skipBlanks]

theorem readItems_skipBlanks (fuel : Nat) (text : List Char) :
    readItems fuel (skipBlanks text) = readItems fuel text := by
  cases fuel with
  | zero => rfl
  | succ fuel => rw [readItems, readItems, readValue_skipBlanks]

theorem readMembers_skipBlanks (fuel : Nat) (text : List Char) :
    readMembers fuel (skipBlanks text) = readMembers fuel text := by
  cases fuel with
  | zero => rfl
  | succ fuel => rw [readMembers, readMembers, skipBlanks_skipBlanks]

section Number

variable {c : Char} (h : c = '-' ∨ c.isDigit = true)

include h

theorem ne_of_number {d : Char} (hd : d ≠ '-' ∧ d.isDigit = false) : c ≠ d := by
  rintro rfl
  rcases h with h | h
  · exact hd.1 h
  · exact absurd h (by rw [hd.2]; exact Bool.false_ne_true)

theorem isBlank_of_number : isBlank c = false := by
  simp only [isBlank, ne_of_number h (d := ' ') (by decide),
    ne_of_number h (d := '\n') (by decide), ne_of_number h (d := '\t') (by decide),
    ne_of_number h (d := '\r') (by decide), decide_false, Bool.or_self]

/-- A value that begins like a number is read as one. -/
theorem readValue_number (fuel : Nat) (rest : List Char) :
    readValue (fuel + 1) (c :: rest) = readNumber (c :: rest) := by
  rw [readValue, skipBlanks_cons (isBlank_of_number h)]
  -- The reader asks for the other things first, and none of them begins like this.
  split
  case h_7 => rfl
  all_goals
    next heq => exact absurd (List.cons.inj heq).1 (ne_of_number h (by decide))

end Number

theorem readValue_string (fuel : Nat) {inner : List Char} {pieces : List Piece}
    (h : StringText inner pieces) (rest : List Char) :
    readValue (fuel + 1) ('"' :: (inner ++ '"' :: rest)) = some (stringValue pieces, rest) := by
  rw [readValue, skipBlanks_cons rfl]
  simp only [readPieces_of_stringText h, Option.bind_eq_bind, Option.bind_some]
  rw [stringValue]
  cases assemble pieces <;> rfl

/-- Behind an opening bracket stands the closing one, or there are items. -/
theorem readValue_bracket (fuel : Nat) (text : List Char) :
    readValue (fuel + 1) ('[' :: text) =
      match skipBlanks text with
      | ']' :: rest => some (.array [], rest)
      | rest => do
        let (items, rest) ← readItems fuel rest
        return (.array items, rest) := by
  rw [readValue, skipBlanks_cons rfl]
  rfl

theorem readValue_emptyArray (fuel : Nat) {inner : List Char} (h : Blanks inner)
    (rest : List Char) :
    readValue (fuel + 1) ('[' :: (inner ++ ']' :: rest)) = some (.array [], rest) := by
  rw [readValue_bracket, skipBlanks_append h, skipBlanks_cons rfl]
  rfl

/-- An array is read if its items are. They must not begin like the end of an empty array. -/
theorem readValue_array (fuel : Nat) {text rest : List Char} {items : List Value}
    (hitems : readItems fuel text = some (items, rest))
    (hhead : ∀ tail, skipBlanks text ≠ ']' :: tail) :
    readValue (fuel + 1) ('[' :: text) = some (.array items, rest) := by
  rw [readValue_bracket]
  split
  · next heq => exact absurd heq (hhead _)
  · rw [readItems_skipBlanks, hitems]
    rfl

/-- Behind an opening brace stands the closing one, or there are members. -/
theorem readValue_brace (fuel : Nat) (text : List Char) :
    readValue (fuel + 1) ('{' :: text) =
      match skipBlanks text with
      | '}' :: rest => some (.object [], rest)
      | rest => do
        let (members, rest) ← readMembers fuel rest
        return (members.elim .broken .object, rest) := by
  rw [readValue, skipBlanks_cons rfl]
  rfl

theorem readValue_emptyObject (fuel : Nat) {inner : List Char} (h : Blanks inner)
    (rest : List Char) :
    readValue (fuel + 1) ('{' :: (inner ++ '}' :: rest)) = some (.object [], rest) := by
  rw [readValue_brace, skipBlanks_append h, skipBlanks_cons rfl]
  rfl

/-- An object is read if its members are, and it is broken if one of their keys is. -/
theorem readValue_object (fuel : Nat) {text rest : List Char}
    {members : List (Option String × Value)}
    (hmembers : readMembers fuel text = some (keyed members, rest))
    (hhead : ∀ tail, skipBlanks text ≠ '}' :: tail) :
    readValue (fuel + 1) ('{' :: text) = some (objectOf members, rest) := by
  rw [readValue_brace]
  split
  · next heq => exact absurd heq (hhead _)
  · rw [readMembers_skipBlanks, hmembers]
    rfl

/-- A key is read up to its colon. It is told in the steps of the reader, which skips blanks
    before the quote and again behind the text; whether the text is broken does not matter
    yet. -/
theorem KeyText.read {keyText : List Char} {key : Option String} (h : KeyText keyText key)
    (text : List Char) : ∃ pieces inner behind, skipBlanks (keyText ++ text) = '"' :: inner ∧
      readPieces inner = some (pieces, behind) ∧ (assemble pieces).map String.ofList = key ∧
        skipBlanks behind = ':' :: text := by
  cases h with
  | @mk front inner back pieces hfront hinner hback =>
      refine ⟨pieces, inner ++ '"' :: (back ++ ':' :: text), back ++ ':' :: text, ?_,
        readPieces_of_stringText hinner _, rfl, ?_⟩
      · -- Behind the blanks stands the quote that opens the key.
        rw [List.append_assoc, skipBlanks_append hfront]
        simp only [List.cons_append, List.append_assoc, List.nil_append]
        exact skipBlanks_cons rfl _
      · rw [skipBlanks_append hback]
        rfl

section Member

variable {fuel : Nat} {keyText text behind rest : List Char} {key : Option String} {v : Value}
  (hkey : KeyText keyText key) (hread : readValue fuel text = some (v, behind))

include hkey hread

theorem readMembers_last (hbehind : skipBlanks behind = '}' :: rest) :
    readMembers (fuel + 1) (keyText ++ text) = some (keyed [(key, v)], rest) := by
  rcases hkey.read text with ⟨pieces, inner, after, hhead, hpieces, rfl, hcolon⟩
  rw [readMembers, hhead]
  simp only [hpieces, hcolon, hread, hbehind, Option.bind_eq_bind, Option.bind_some]
  cases assemble pieces <;> rfl

/-- A member is read up to the comma behind it, and the others from there. -/
theorem readMembers_cons {members : List (Option String × Value)} {tail : List Char}
    (hbehind : skipBlanks behind = ',' :: tail)
    (hmembers : readMembers fuel tail = some (keyed members, rest)) :
    readMembers (fuel + 1) (keyText ++ text) = some (keyed ((key, v) :: members), rest) := by
  rcases hkey.read text with ⟨pieces, inner, after, hhead, hpieces, rfl, hcolon⟩
  rw [readMembers, hhead]
  simp only [hpieces, hcolon, hread, hbehind, hmembers, Option.bind_eq_bind, Option.bind_some]
  rfl

end Member

/-- No value begins with a bracket that closes. So the reader, which looks for that bracket
    first, does not take an array with items for an empty one. -/
theorem ValueText.head {text : List Char} {v : Value} (rest : List Char) :
    ValueText text v → ∃ c tail, skipBlanks (text ++ rest) = c :: tail ∧ c ≠ ']'
  | .blanks hfront h _ => by
      rw [List.append_assoc, skipBlanks_append hfront, List.append_assoc]
      exact h.head _
  | .null => ⟨'n', _, rfl, by decide⟩
  | .true => ⟨'t', _, rfl, by decide⟩
  | .false => ⟨'f', _, rfl, by decide⟩
  | .number h => by
      rcases h.head with ⟨c, tail, rfl, hc⟩
      exact ⟨c, _, skipBlanks_cons (isBlank_of_number hc) _, ne_of_number hc (by decide)⟩
  | .string _ => ⟨'"', _, rfl, by decide⟩
  | .emptyArray _ => ⟨'[', _, rfl, by decide⟩
  | .array _ => ⟨'[', _, rfl, by decide⟩
  | .emptyObject _ => ⟨'{', _, rfl, by decide⟩
  | .object _ => ⟨'{', _, rfl, by decide⟩

/-- Items do not begin with the bracket that would end an empty array. -/
theorem ItemsText.head {text : List Char} {items : List Value} (h : ItemsText text items)
    (rest tail : List Char) : skipBlanks (text ++ rest) ≠ ']' :: tail := by
  have hvalue : ∃ c tail, skipBlanks (text ++ rest) = c :: tail ∧ c ≠ ']' := by
    cases h with
    | last h =>
        rw [List.append_assoc]
        exact h.head _
    | cons h _ =>
        rw [List.append_assoc]
        exact h.head _
  rcases hvalue with ⟨c, tail', heq, hc⟩
  rw [heq]
  exact fun h => hc (List.cons.inj h).1

/-- Members begin with a quote, and so not with the brace that would end an empty object. -/
theorem MembersText.head {text : List Char} {members : List (Option String × Value)}
    (h : MembersText text members) (rest tail : List Char) :
    skipBlanks (text ++ rest) ≠ '}' :: tail := by
  have hkey : ∃ tail, skipBlanks (text ++ rest) = '"' :: tail := by
    cases h with
    | last hkey _ =>
        rw [List.append_assoc]
        rcases hkey.read _ with ⟨_, inner, _, hhead, _⟩
        exact ⟨inner, hhead⟩
    | cons hkey _ _ =>
        rw [List.append_assoc]
        rcases hkey.read _ with ⟨_, inner, _, hhead, _⟩
        exact ⟨inner, hhead⟩
  rcases hkey with ⟨tail', heq⟩
  rw [heq]
  exact fun h => absurd (List.cons.inj h).1 (by decide)

mutual

/-- A value is read, up to the blanks behind it. The three statements about values, items
    and members are proved together, by recursion on the derivation; the fuel is at least
    the length of the text, and every part is shorter than the whole by the characters
    around it. -/
theorem readValue_of_valueText {text rest : List Char} {v : Value} {fuel : Nat}
    (hrest : Ends rest) (hfuel : text.length ≤ fuel) : ValueText text v →
      ∃ back, Blanks back ∧ readValue fuel (text ++ rest) = some (v, back ++ rest)
  | @ValueText.blanks front text back _ hfront h hback => by
      -- What the value leaves of its own blanks comes before those behind it.
      rw [List.length_append, List.length_append] at hfuel
      rcases readValue_of_valueText (ends_blanks_append hback hrest)
        (show text.length ≤ fuel by omega) h with ⟨more, hmore, hread⟩
      refine ⟨more ++ back, hmore.append hback, ?_⟩
      rw [List.append_assoc, ← readValue_skipBlanks, skipBlanks_append hfront,
        readValue_skipBlanks, List.append_assoc, hread, List.append_assoc]
  | .null => by
      rcases Nat.exists_eq_add_of_le' hfuel with ⟨more, rfl⟩
      exact ⟨[], blanks_nil, rfl⟩
  | .true => by
      rcases Nat.exists_eq_add_of_le' hfuel with ⟨more, rfl⟩
      exact ⟨[], blanks_nil, rfl⟩
  | .false => by
      rcases Nat.exists_eq_add_of_le' hfuel with ⟨more, rfl⟩
      exact ⟨[], blanks_nil, rfl⟩
  | .number h => by
      have hnumber := readNumber_of_numberText h hrest
      rcases h.head with ⟨c, tail, rfl, hc⟩
      rcases Nat.exists_eq_add_of_le' hfuel with ⟨more, rfl⟩
      refine ⟨[], blanks_nil, ?_⟩
      rw [List.length_cons, ← Nat.add_assoc, List.cons_append, readValue_number hc]
      exact hnumber
  | .string h => by
      rcases Nat.exists_eq_add_of_le' hfuel with ⟨more, rfl⟩
      refine ⟨[], blanks_nil, ?_⟩
      rw [List.length_cons, ← Nat.add_assoc, List.cons_append, List.append_assoc]
      exact readValue_string _ h rest
  | .emptyArray h => by
      rcases Nat.exists_eq_add_of_le' hfuel with ⟨more, rfl⟩
      refine ⟨[], blanks_nil, ?_⟩
      rw [List.length_cons, ← Nat.add_assoc, List.cons_append, List.append_assoc]
      exact readValue_emptyArray _ h rest
  | .array h => by
      rcases Nat.exists_eq_add_of_le' hfuel with ⟨more, rfl⟩
      refine ⟨[], blanks_nil, ?_⟩
      rw [List.length_cons, ← Nat.add_assoc]
      exact readValue_array _ (readItems_of_itemsText (Nat.le_add_left _ _) h) (h.head _)
  | .emptyObject h => by
      rcases Nat.exists_eq_add_of_le' hfuel with ⟨more, rfl⟩
      refine ⟨[], blanks_nil, ?_⟩
      rw [List.length_cons, ← Nat.add_assoc, List.cons_append, List.append_assoc]
      exact readValue_emptyObject _ h rest
  | .object h => by
      rcases Nat.exists_eq_add_of_le' hfuel with ⟨more, rfl⟩
      refine ⟨[], blanks_nil, ?_⟩
      rw [List.length_cons, ← Nat.add_assoc]
      exact readValue_object _ (readMembers_of_membersText (Nat.le_add_left _ _) h) (h.head _)

/-- The items of an array are read with the bracket behind them. Each takes some of the
    text, and so the fuel that is enough for all of it is enough for the rest. The bracket
    or comma behind an item is what ends it, should it be a number. -/
theorem readItems_of_itemsText {text rest : List Char} {items : List Value} {fuel : Nat}
    (hfuel : text.length ≤ fuel) : ItemsText text items →
      readItems fuel (text ++ rest) = some (items, rest)
  | @ItemsText.last text v h => by
      rw [List.length_append, List.length_singleton] at hfuel
      rcases Nat.exists_eq_add_of_le' (le_trans (Nat.le_add_left 1 _) hfuel) with ⟨fuel, rfl⟩
      have hends : Ends (']' :: rest) := ends_cons (by decide)
      rcases readValue_of_valueText hends (Nat.le_of_succ_le_succ hfuel) h with
        ⟨back, hback, hread⟩
      rw [readItems, List.append_assoc, List.singleton_append, hread]
      simp only [Option.bind_eq_bind, Option.bind_some, skipBlanks_append hback]
      rfl
  | @ItemsText.cons text behind v items h hitems => by
      rw [List.length_append, List.length_cons] at hfuel
      rcases Nat.exists_eq_add_of_le' (show 1 ≤ fuel by omega) with ⟨fuel, rfl⟩
      -- A comma ends whatever stands in front of it.
      have hends : Ends (',' :: (behind ++ rest)) := ends_cons (by decide)
      rcases readValue_of_valueText hends (show text.length ≤ fuel by omega) h with
        ⟨back, hback, hread⟩
      have hbehind : readItems fuel (behind ++ rest) = some (items, rest) :=
        readItems_of_itemsText (by omega) hitems
      rw [readItems, List.append_assoc, List.cons_append, hread]
      simp only [Option.bind_eq_bind, Option.bind_some, skipBlanks_append hback]
      rw [skipBlanks_cons rfl]
      simp only [hbehind, Option.bind_some]
      rfl

/-- The members of an object are read with the brace behind them, in the same way. Keys may
    be broken at this point; the object is told to be so only when all its members are read. -/
theorem readMembers_of_membersText {text rest : List Char}
    {members : List (Option String × Value)} {fuel : Nat} (hfuel : text.length ≤ fuel) :
    MembersText text members → readMembers fuel (text ++ rest) = some (keyed members, rest)
  | @MembersText.last keyText text key v hkey h => by
      rw [List.length_append, List.length_append, List.length_singleton] at hfuel
      rcases Nat.exists_eq_add_of_le' (show 1 ≤ fuel by omega) with ⟨fuel, rfl⟩
      -- The brace or the comma behind a value is where the value ends.
      have hends : Ends ('}' :: rest) := ends_cons (by decide)
      rcases readValue_of_valueText hends (show text.length ≤ fuel by omega) h with
        ⟨back, hback, hread⟩
      rw [List.append_assoc, List.append_assoc, List.singleton_append]
      refine readMembers_last hkey hread ?_
      rw [skipBlanks_append hback, skipBlanks_cons rfl]
  | @MembersText.cons keyText text behind key v members hkey h hmembers => by
      rw [List.length_append, List.length_append, List.length_cons] at hfuel
      rcases Nat.exists_eq_add_of_le' (show 1 ≤ fuel by omega) with ⟨fuel, rfl⟩
      have hends : Ends (',' :: (behind ++ rest)) := ends_cons (by decide)
      rcases readValue_of_valueText hends (show text.length ≤ fuel by omega) h with
        ⟨back, hback, hread⟩
      rw [List.append_assoc, List.append_assoc, List.cons_append]
      refine readMembers_cons hkey hread ?_ (readMembers_of_membersText (by omega) hmembers)
      rw [skipBlanks_append hback, skipBlanks_cons rfl]

end

/-- A whole text is read as what it stands for. -/
theorem read_of_valueText {text : String} {v : Value} (h : ValueText text.toList v) :
    read text = some v := by
  have hends : Ends [] := fun _ hc => nomatch hc
  -- The reader starts with more fuel than the text is long.
  have hfuel : text.toList.length ≤ 2 * text.toList.length + 2 := by omega
  rcases readValue_of_valueText hends hfuel h with ⟨back, hback, hread⟩
  rw [List.append_nil, List.append_nil] at hread
  rw [read, hread]
  simp only [Option.bind_eq_bind, Option.bind_some, skipBlanks_blanks hback]
  rfl

/-- A text stands for one value at most. -/
theorem ValueText.unique {text : List Char} {v v' : Value} (h : ValueText text v)
    (h' : ValueText text v') : v = v' := by
  have hv : read (String.ofList text) = some v := read_of_valueText (by rwa [String.toList_ofList])
  rw [read_of_valueText (v := v') (by rwa [String.toList_ofList])] at hv
  exact (Option.some.inj hv).symm

end Json

end RedundantAudio
