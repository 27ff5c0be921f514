import RedundantAudio.Proofs.Json.Members
import RedundantAudio.Proofs.Json.Reading

/-!
# Writing Follows the Grammar

What is written for a value is one of its texts, so it is read as that value again.
That needs a proviso, since a value may hold anything for the digits of a number:
they have to be digits, and no zero may lead them (`Proper`).

A text is written character by character, and the escaped ones are read as code
units again. None of these is half of a surrogate pair, so joining pairs leaves
them alone. Numbers are written without leading zeros, and as integers they are
read back whatever their size. Below the size of a word they can be kept too, since
a word takes all of their digits and no power of ten is left.

## Main definitions

* `Proper`: A value whose numbers can be written.

## Theorems

* `stringText_flatMap_renderChar`, `numberText_integer`: Strings and integers.
* `valueText_chars`: Every proper value is written as one of its texts.
* `objectText_chars`: An object is written with its members in order.
* `read_render`: What is written is read again.
* `inRange_toDigits`: An integer below the size of a word can be kept.
-/

namespace RedundantAudio

namespace Json

/-! ### Strings -/

/-- A control character is escaped in four digits, and they stand for its code. -/
theorem unitValue_of_control {c : Char} (h : c.toNat < 32) :
    unitValue '0' '0' (Text.hexDigit (c.toNat / 16)) (Text.hexDigit (c.toNat % 16)) =
      some c.toNat := by
  have hhigh : Text.hexValue (Text.hexDigit (c.toNat / 16)) = some (c.toNat / 16) :=
    Text.hexValue_hexDigit (by omega)
  have hlow : Text.hexValue (Text.hexDigit (c.toNat % 16)) = some (c.toNat % 16) :=
    Text.hexValue_hexDigit (by omega)
  have hzero : Text.hexValue '0' = some 0 := rfl
  simp only [unitValue, hhigh, hlow, hzero, Option.bind_eq_bind, Option.bind_some]
  exact congrArg some (by omega)

/-- A code unit that is no half of a pair stands for a character. It does not matter what
    follows it, as only the first half of a pair asks for another one. -/
theorem assemble_unit {n : Nat} (h : n < 0xD800) (pieces : List Piece) :
    assemble (.unit n :: pieces) = (assemble pieces).map (.ofNat n :: ·) := by
  have hhigh : isHighSurrogate n = false := by
    rw [isHighSurrogate, Bool.and_eq_false_iff, decide_eq_false_iff_not]
    exact Or.inl (Nat.not_le.mpr h)
  have hlow : isLowSurrogate n = false := by
    rw [isLowSurrogate, Bool.and_eq_false_iff, decide_eq_false_iff_not]
    exact Or.inl (by omega)
  rcases pieces with _ | ⟨c | low, pieces⟩
  · simp only [assemble, hhigh, hlow, Bool.or_self, Bool.false_eq_true, if_false]
  · simp only [assemble, hhigh, hlow, Bool.or_self, Bool.false_eq_true, if_false]
  · rw [assemble, hhigh, hlow]
    rfl

/-- A character that is written stands for itself. It is read as one piece of text, and this
    is put together with whatever is read behind it. -/
theorem pieceText_renderChar (c : Char) :
    ∃ piece, PieceText (renderChar c) piece ∧
      ∀ pieces, assemble (piece :: pieces) = (assemble pieces).map (c :: ·) := by
  rw [renderChar]
  split
  · next h => exact ⟨.char c, h ▸ .letter '"' '"' rfl, fun _ => rfl⟩
  split
  · next h => exact ⟨.char c, h ▸ .letter '\\' '\\' rfl, fun _ => rfl⟩
  split
  · -- A control character is read as a code unit, which is far from the surrogates.
    next h =>
      refine ⟨.unit c.toNat, .digits _ _ _ _ _ (unitValue_of_control h), fun pieces => ?_⟩
      rw [assemble_unit (by omega), Char.ofNat_toNat]
  · next hquote hslash h =>
      exact ⟨.char c, .plain c (Nat.not_lt.mp h) hquote hslash, fun _ => rfl⟩

/-- A text that is written as a string stands for itself. -/
theorem stringText_flatMap_renderChar (s : List Char) :
    ∃ pieces, StringText (s.flatMap renderChar) pieces ∧ assemble pieces = some s := by
  induction s with
  | nil => exact ⟨[], .nil, rfl⟩
  | cons c s ih =>
      rcases pieceText_renderChar c with ⟨piece, hpiece, hassemble⟩
      rcases ih with ⟨pieces, hpieces, hs⟩
      refine ⟨piece :: pieces, .cons hpiece hpieces, ?_⟩
      rw [hassemble, hs]
      rfl

theorem keyText_renderString (key : String) :
    KeyText (renderString key.toList ++ [':']) (some key) := by
  rcases stringText_flatMap_renderChar key.toList with ⟨pieces, hpieces, hassemble⟩
  have h := KeyText.mk blanks_nil hpieces blanks_nil
  rw [hassemble, Option.map_some, String.ofList_toList] at h
  rw [renderString, List.cons_append, List.append_assoc]
  exact h

/-! ### Numbers -/

theorem digits_toDigits (n : Nat) : Digits (Nat.toDigits 10 n) :=
  ⟨Nat.toDigits_ne_nil, fun _ hc => Nat.isDigit_of_mem_toDigits (by decide) (by decide) hc⟩

theorem digitsValue_toDigits (n : Nat) : Decimal.digitsValue (Nat.toDigits 10 n) = n :=
  Nat.ofDigitChars_toDigits (by decide) (by decide)

/-- Only zero is written with a zero in front. The grammar asks for this, and it is not seen
    from the recursion on the last digit, so it takes an induction on the size. -/
theorem head?_toDigits_ne_zero {n : Nat} (h : 0 < n) : (Nat.toDigits 10 n).head? ≠ some '0' := by
  induction n using Nat.strongRecOn with
  | ind n ih =>
      rcases Nat.lt_or_ge n 10 with hlt | hge
      · rw [Nat.toDigits_of_lt_base hlt, List.head?_cons]
        intro hzero
        exact Nat.ne_of_gt h (Nat.digitChar_eq_zero.mp (Option.some.inj hzero))
      · -- A longer number begins like its tenth part.
        rw [Nat.toDigits_of_base_le (by decide) hge,
          List.head?_append_of_ne_nil _ Nat.toDigits_ne_nil]
        exact ih (n / 10) (Nat.div_lt_self h (by decide)) (Nat.div_pos hge (by decide))

/-- A number is written without leading zeros, as the grammar asks. -/
theorem whole_toDigits (n : Nat) : Whole (Nat.toDigits 10 n) := by
  refine ⟨digits_toDigits n, fun hzero => ?_⟩
  rcases Nat.eq_zero_or_pos n with rfl | h
  · decide
  · exact absurd hzero (head?_toDigits_ne_zero h)

theorem numberText_integer (negative : Bool) (n : Nat) :
    NumberText (Value.integer negative n).chars (.integer negative n) := by
  have h := NumberText.mk negative (whole_toDigits n) .none .none
  rw [List.append_nil, List.append_nil, numberValue, digitsValue_toDigits] at h
  rw [Value.chars]
  exact h

/-! ### Values -/

/-- A value whose numbers with point or exponent are made of digits. -/
inductive Proper : Value → Prop
  | null : Proper .null
  | bool (b : Bool) : Proper (.bool b)
  | integer (negative : Bool) (n : Nat) : Proper (.integer negative n)
  | decimal (negative : Bool) {whole places : List Char} (power : Int) (hwhole : Whole whole)
      (hplaces : places = [] ∨ Digits places) : Proper (.decimal negative whole places power)
  | string (s : String) : Proper (.string s)
  | broken : Proper .broken
  | array {items : List Value} (h : ∀ v ∈ items, Proper v) : Proper (.array items)
  | object {members : List (String × Value)} (h : ∀ m ∈ members, Proper m.2) :
      Proper (.object members)

theorem placesText_of_places {places : List Char} (h : places = [] ∨ Digits places) :
    PlacesText (if places.isEmpty then [] else '.' :: places) places := by
  rcases h with rfl | h
  · exact .none
  · rw [if_neg fun hempty => h.1 (List.isEmpty_iff.mp hempty)]
    exact .some h

theorem signText_renderSign (negative : Bool) : SignText (renderSign negative) negative := by
  cases negative with
  | true => exact .minus
  | false => exact .none

/-- An exponent is written as its sign and the digits of its size. -/
theorem powerText_toDigits (power : Int) :
    PowerText ('e' :: (renderSign (power < 0) ++ Nat.toDigits 10 power.natAbs)) (some power) := by
  have h := PowerText.some (Or.inl (rfl : 'e' = 'e')) (signText_renderSign (power < 0))
    (digits_toDigits power.natAbs)
  have hpower : (if decide (power < 0) = true then -(power.natAbs : Int) else power.natAbs) =
      power := by
    simp only [decide_eq_true_eq]
    omega
  rw [digitsValue_toDigits, hpower] at h
  exact h

/-- A number with places or an exponent is written as one of its texts. It always has an
    exponent, and so is never taken for an integer. -/
theorem numberText_decimal (negative : Bool) {whole places : List Char} (power : Int)
    (hwhole : Whole whole) (hplaces : places = [] ∨ Digits places) :
    NumberText (Value.decimal negative whole places power).chars
      (.decimal negative whole places power) := by
  have h := NumberText.mk negative hwhole (placesText_of_places hplaces) (powerText_toDigits power)
  -- With an exponent, a number is no integer even without places.
  have hvalue : numberValue negative whole places (some power) =
      .decimal negative whole places power := by
    cases places <;> rfl
  rw [hvalue] at h
  rw [Value.chars, List.append_assoc, List.append_assoc, List.append_assoc, List.cons_append]
  exact h

theorem valueText_string (s : String) : ValueText (Value.string s).chars (.string s) := by
  rcases stringText_flatMap_renderChar s.toList with ⟨pieces, hpieces, hassemble⟩
  have h := ValueText.string hpieces
  rw [stringValue, hassemble] at h
  simp only [String.ofList_toList] at h
  rw [Value.chars, renderString]
  exact h

theorem valueText_broken : ValueText Value.broken.chars .broken := by
  have h := PieceText.digits 'd' '8' '0' '0' 0xD800 rfl
  exact .string (.cons h .nil)

mutual

/-- A proper value is written as one of its texts. The writer follows the value and the
    grammar allows what it does at each step, so reading after writing needs no argument
    about the reader beyond that it accepts the grammar. -/
theorem valueText_chars : {v : Value} → Proper v → ValueText v.chars v
  | _, .null => .null
  | _, .bool true => .true
  | _, .bool false => .false
  | _, .integer negative n => .number (numberText_integer negative n)
  | _, .decimal negative power hwhole hplaces =>
      .number (numberText_decimal negative power hwhole hplaces)
  | _, .string s => valueText_string s
  | _, .broken => valueText_broken
  | .array [], .array _ => .emptyArray blanks_nil
  | .array (v :: items), .array h => by
      have hv := valueText_chars (h v List.mem_cons_self)
      rw [Value.chars]
      exact .array (itemsText_itemsChars items (fun w hw => h w (List.mem_cons_of_mem _ hw)) hv)
  | .object [], .object _ => .emptyObject blanks_nil
  | .object ((key, v) :: members), .object h => by
      have hv := valueText_chars (h (key, v) List.mem_cons_self)
      rw [Value.chars, ← objectOf_map_named]
      exact .object (membersText_membersChars members
        (fun m hm => h m (List.mem_cons_of_mem _ hm)) key hv)

/-- What is written behind the first item are the other items, with commas between them. -/
theorem itemsText_itemsChars {text : List Char} {v : Value} : (items : List Value) →
    (∀ w ∈ items, Proper w) → ValueText text v →
      ItemsText (text ++ Value.itemsChars items) (v :: items)
  | [], _, h => .last h
  | w :: items, hitems, h => by
      have hw := valueText_chars (hitems w List.mem_cons_self)
      rw [Value.itemsChars]
      exact .cons h
        (itemsText_itemsChars items (fun u hu => hitems u (List.mem_cons_of_mem _ hu)) hw)

/-- What is written behind the first member are the other members, with commas between them.
    The first one is given as key and text, because the writer has put it down before it
    comes to the rest. -/
theorem membersText_membersChars {text : List Char} {v : Value} :
    (members : List (String × Value)) → (∀ m ∈ members, Proper m.2) → (key : String) →
      ValueText text v →
        MembersText (renderString key.toList ++ (':' :: text) ++ Value.membersChars members)
          (((key, v) :: members).map named)
  | [], _, key, h => by
      have hmembers := MembersText.last (keyText_renderString key) h
      rw [List.append_assoc, List.singleton_append] at hmembers
      rw [Value.membersChars, List.append_assoc, List.cons_append]
      exact hmembers
  | (k, w) :: members, hmembers, key, h => by
      have hw := valueText_chars (hmembers (k, w) List.mem_cons_self)
      -- The first member ends where the comma stands, and the others follow.
      have hcons := MembersText.cons (keyText_renderString key) h
        (membersText_membersChars members (fun u hu => hmembers u (List.mem_cons_of_mem _ hu)) k hw)
      rw [List.append_assoc, List.singleton_append] at hcons
      rw [Value.membersChars, List.append_assoc, List.cons_append]
      exact hcons

end

/-- Some members are written in order. -/
theorem objectText_chars {members : List (String × Value)} (hne : members ≠ [])
    (h : ∀ m ∈ members, Proper m.2) :
    ObjectText (Value.object members).chars (members.map named) := by
  rcases members with _ | ⟨⟨key, v⟩, members⟩
  · exact absurd rfl hne
  · have hv := valueText_chars (h (key, v) List.mem_cons_self)
    have hmembers := membersText_membersChars members
      (fun m hm => h m (List.mem_cons_of_mem _ hm)) key hv
    refine ⟨[], _, [], blanks_nil, hmembers, blanks_nil, ?_⟩
    rw [Value.chars, List.nil_append, List.append_nil]

/-- What is written for a value is read as that value. -/
theorem read_render {v : Value} (h : Proper v) : read v.render = some v := by
  refine read_of_valueText ?_
  rw [Value.render, String.toList_ofList]
  exact valueText_chars h

/-! ### Keeping integers -/

theorem le_ofDigitChars (digits : List Char) (word : Nat) :
    word ≤ Nat.ofDigitChars 10 digits word := by
  induction digits generalizing word with
  | nil => exact Nat.le_refl word
  | cons c digits ih =>
      rw [Nat.ofDigitChars_cons]
      exact le_trans (by omega) (ih _)

/-- A word takes all digits of a number that is not too large. -/
theorem fillWord_of_lt (digits : List Char) (word : Nat)
    (h : Nat.ofDigitChars 10 digits word < UInt64.size) :
    Value.fillWord word digits = (Nat.ofDigitChars 10 digits word, digits.length) := by
  induction digits generalizing word with
  | nil => rfl
  | cons c digits ih =>
      -- Digits only make the word larger, so if all of them fit, this one does.
      have hnext : 10 * word + (c.toNat - 48) < UInt64.size :=
        Nat.lt_of_le_of_lt (le_ofDigitChars digits _) h
      rw [Value.fillWord, if_pos hnext, ih (10 * word + (c.toNat - 48)) h]
      rfl

/-- An integer that fits 64 bits is in range: the reader takes all of its digits, so none is
    left to be made up for by an exponent. -/
theorem inRange_toDigits {n : Nat} (h : n < UInt64.size) :
    Value.inRange (Nat.toDigits 10 n) [] 0 = true := by
  have hn : Nat.ofDigitChars 10 (Nat.toDigits 10 n) 0 = n :=
    Nat.ofDigitChars_toDigits (by decide) (by decide)
  have hfill := fillWord_of_lt (Nat.toDigits 10 n) 0 (by rw [hn]; exact h)
  -- No digit is left out and no place was moved, so the scale is not positive.
  have hpower : (Value.scaledWord (Nat.toDigits 10 n) [] 0).2 ≤ 0 := by
    rw [Value.scaledWord, hfill]
    simp only [Value.fillWord, Nat.sub_self]
    decide
  simp only [Value.inRange, hpower, decide_true, Bool.or_true, Bool.true_or]

end Json

end RedundantAudio
