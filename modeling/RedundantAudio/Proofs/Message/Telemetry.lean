import Mathlib.Data.List.Perm.Basic
import RedundantAudio.Message.Telemetry
import RedundantAudio.Proofs.Json.Members
import RedundantAudio.Proofs.Json.Reading
import RedundantAudio.Proofs.Json.Writing

/-!
# Telemetry Survives Its Text

A message is written as one object, and that text is read as the message again, up to
the last digit of a counter of 64 bits. But a host may write the object in its own
way, so much more than one text has to do: the members in any order, each written in
any way that JSON has for it, blanks wherever they may stand, and members that no
message knows (`TextWith`).

Unknown members are passed over, but not unseen. The kind may come last, so every
member has to be kept until the kind is known, and a member that cannot be kept is
the end of the message. Three things cannot: a string or a key that stands for no
text, a number beyond the doubles, and a value that is nested too deeply. Everything
else can (`keepable`), and then it makes no difference.

The argument goes through members and not through texts. A text of the grammar is read
as the object of its members; asking such an object for a key of the message gives
what the message wrote there; and all the fields together are the message.

## Main definitions

* `Telemetry.members`: What a message writes.
* `Telemetry.Fits`: Counters that fit into 64 bits.
* `Telemetry.keepable`: Members that may be passed over.
* `Telemetry.TextWith`: The texts of a message with some unknown members.

## Theorems

* `uniqueMember_arranged`: Every key of a message is found with its value.
* `ofJson_objectOf_arranged`: A message is read off its members.
* `round_trip`: A message is read off its text, and off every other text of it.
-/

namespace RedundantAudio

namespace Telemetry

/-- The members of a message. -/
def members (t : Telemetry) : List (String × Json.Value) :=
  match t.toJson with
  | .object members => members
  | _ => []

/-- All counters fit into their 64 bits. -/
def Fits : Telemetry → Prop
  | lossReport r => r.counters.lost < counterBound ∧ r.counters.expected < counterBound ∧
      r.counters.recoveredRed < counterBound ∧ r.counters.recoveredFec < counterBound
  | redundancy _ _ => True

/-- A member that can be kept, and so need not be known. -/
def keepable (m : Option String × Json.Value) : Bool :=
  m.1.isSome && m.2.isPlain nestingLimit

/-- Texts with the members of a message in any order, and unknown members among them. -/
def TextWith (t : Telemetry) (unknown : List (Option String × Json.Value)) (text : String) : Prop :=
  ∃ arranged, Json.ObjectText text.toList arranged ∧
    arranged.Perm (t.members.map Json.named ++ unknown) ∧
    ∀ m ∈ unknown, ∀ key ∈ m.1, key ∉ t.members.map Prod.fst

instance (t : Telemetry) : Decidable t.Fits :=
  match t with
  | lossReport _ => inferInstanceAs (Decidable (_ ∧ _))
  | redundancy _ _ => inferInstanceAs (Decidable True)

theorem toJson_eq (t : Telemetry) : t.toJson = .object t.members := by
  cases t <;> rfl

/-- Each member of a message is the only one with its key. -/
theorem uniqueMember_members {t : Telemetry} {m : String × Json.Value} (hm : m ∈ t.members) :
    Json.uniqueMember m.1 t.members = some m.2 := by
  cases t with
  | lossReport r =>
      simp only [members, toJson, List.mem_cons, List.not_mem_nil, or_false] at hm
      rcases hm with rfl | rfl | rfl | rfl | rfl | rfl <;> rfl
  | redundancy enabled level =>
      simp only [members, toJson, List.mem_cons, List.not_mem_nil, or_false] at hm
      rcases hm with rfl | rfl | rfl <;> rfl

/-- The members of a message that fits are ones that can be kept, as its numbers are in
    range. -/
theorem isPlain_members {t : Telemetry} (h : t.Fits) :
    ∀ m ∈ t.members, m.2.isPlain nestingLimit = true := by
  cases t with
  | lossReport r =>
      rcases h with ⟨hlost, hexpected, hred, hfec⟩
      -- A member can be put aside if its number can be held, which is so for every word.
      have hssrc : r.ssrc.toNat < UInt64.size :=
        Nat.lt_trans r.ssrc.toNat_lt (by decide)
      simp only [members, toJson, List.forall_mem_cons, Json.Value.isPlain,
        Json.inRange_toDigits hssrc, Json.inRange_toDigits hlost, Json.inRange_toDigits hexpected,
        Json.inRange_toDigits hred, Json.inRange_toDigits hfec, true_and, List.not_mem_nil,
        false_imp_iff, implies_true]
  | redundancy enabled level =>
      have hlevel : level.toNat < UInt64.size :=
        Nat.lt_trans level.toNat_lt (by decide)
      simp only [members, toJson, List.forall_mem_cons, Json.Value.isPlain,
        Json.inRange_toDigits hlevel, true_and, List.not_mem_nil,
        false_imp_iff, implies_true]

section Arranged

variable {t : Telemetry} {others arranged : List (String × Json.Value)}
  (hperm : arranged.Perm (t.members ++ others))
  (hothers : ∀ m ∈ others, m.1 ∉ t.members.map Prod.fst)

include hperm hothers

theorem uniqueMember_arranged {m : String × Json.Value} (hm : m ∈ t.members) :
    Json.uniqueMember m.1 arranged = some m.2 :=
  Json.uniqueMember_of_perm hperm (uniqueMember_members hm) fun m' hm' heq =>
    hothers m' hm' (heq ▸ List.mem_map_of_mem hm)

theorem natMember_arranged (key : String) {n bound : Nat} (hn : n < bound)
    (hm : (key, Json.Value.integer false n) ∈ t.members) :
    natMember key bound arranged = some n := by
  have h := uniqueMember_arranged hperm hothers hm
  simp only [natMember, h, Option.bind_eq_bind, Option.bind_some, Json.Value.asNatBelow,
    if_pos hn]

/-- The tag of a message is found among the members, and with it all that the message says.
    Each field is looked up by its key alone, so neither the order nor other members matter,
    and each counter is within the bound that it is read with. -/
theorem ofMembers_arranged (hfits : t.Fits) : ∃ kind,
    Json.uniqueMember "type" arranged = some (.string kind) ∧ ofMembers kind arranged = some t := by
  cases t with
  | lossReport r =>
      rcases hfits with ⟨hlost, hexpected, hred, hfec⟩
      -- Each number is found under its own key, wherever its member stands by now.
      have hnat := natMember_arranged hperm hothers
      have hssrc := hnat "ssrc" r.ssrc.toNat_lt
        (by simp only [members, toJson, List.mem_cons, true_or, or_true])
      have hlost := hnat "total_lost" hlost
        (by simp only [members, toJson, List.mem_cons, true_or, or_true])
      have hexpected := hnat "total_expected" hexpected
        (by simp only [members, toJson, List.mem_cons, true_or, or_true])
      have hred := hnat "total_recovered_red" hred
        (by simp only [members, toJson, List.mem_cons, true_or, or_true])
      have hfec := hnat "total_recovered_fec" hfec
        (by simp only [members, toJson, List.mem_cons, true_or, or_true])
      refine ⟨_, uniqueMember_arranged hperm hothers List.mem_cons_self, ?_⟩
      simp only [ofMembers, hssrc, hlost, hexpected, hred, hfec, Option.bind_eq_bind,
        Option.bind_some, UInt32.ofNat_toNat]
      rfl
  | redundancy enabled level =>
      have henabled : Json.uniqueMember "enabled" arranged = some (.bool enabled) :=
        uniqueMember_arranged hperm hothers (m := ("enabled", .bool enabled))
          (by simp only [members, toJson, List.mem_cons, true_or, or_true])
      have hlevel := natMember_arranged hperm hothers "num_redundant_encodings" level.toNat_lt
        (by simp only [members, toJson, List.mem_cons, true_or, or_true])
      refine ⟨_, uniqueMember_arranged hperm hothers List.mem_cons_self, ?_⟩
      simp only [ofMembers, henabled, hlevel, Option.bind_eq_bind, Option.bind_some,
        Json.Value.asBool, UInt8.ofNat_toNat]
      rfl

/-- A message is read off its members, in any order and with others that can be kept. -/
theorem ofJson_arranged (hfits : t.Fits) :
    ofJson (.object arranged) =
      if others.all (fun m => m.2.isPlain nestingLimit) then some t else none := by
  rcases ofMembers_arranged hperm hothers hfits with ⟨kind, hkind, ht⟩
  -- All members are checked, and of the message's own we know that they pass.
  have hown : t.members.all (fun m => m.2.isPlain nestingLimit) = true :=
    List.all_eq_true.mpr (isPlain_members hfits)
  rw [ofJson, hkind]
  simp only [Option.bind_eq_bind, Option.bind_some]
  rw [Json.membersPlain_eq_all, hperm.all_eq, List.all_append, hown, Bool.true_and, ht]

end Arranged

section Unknown

variable {t : Telemetry} {unknown arranged : List (Option String × Json.Value)}
  (hperm : arranged.Perm (t.members.map Json.named ++ unknown))
  (hunknown : ∀ m ∈ unknown, ∀ key ∈ m.1, key ∉ t.members.map Prod.fst)

include hperm

theorem ofJson_of_unkeyed {m : Option String × Json.Value} (hm : m ∈ unknown)
    (hkey : m.1 = none) : ofJson (Json.objectOf arranged) = none := by
  have harranged : m ∈ arranged := hperm.mem_iff.mpr (List.mem_append_right _ hm)
  rw [Json.objectOf_of_mem harranged hkey]
  rfl

include hunknown

/-- Of unknown members it matters only whether they can be kept. They are put aside before
    the tag is known, in case they belong to the message, and one that cannot be put aside
    makes the whole message unreadable even though nobody asks for it. -/
theorem ofJson_objectOf_arranged (hfits : t.Fits) :
    ofJson (Json.objectOf arranged) = if unknown.all keepable then some t else none := by
  by_cases hkeys : ∀ m ∈ unknown, m.1.isSome = true
  · -- All keys stand for texts, so the order is one of members with such keys.
    rcases Json.exists_named hkeys with ⟨others, rfl⟩
    rw [← List.map_append] at hperm
    have hnamed : ∀ m ∈ arranged, m.1.isSome = true := by
      intro m hm
      rcases List.mem_map.mp (hperm.mem_iff.mp hm) with ⟨m', _, rfl⟩
      rfl
    rcases Json.exists_named hnamed with ⟨arranged, rfl⟩
    have hothers : ∀ m ∈ others, m.1 ∉ t.members.map Prod.fst := fun m hm =>
      hunknown (Json.named m) (List.mem_map_of_mem hm) m.1 rfl
    rw [List.map_perm_map_iff Json.named_injective] at hperm
    rw [Json.objectOf_map_named, ofJson_arranged hperm hothers hfits, List.all_map]
    rfl
  · -- One key does not, and then there is no object to ask.
    simp only [not_forall] at hkeys
    rcases hkeys with ⟨m, hm, hkey⟩
    have hall : ¬ unknown.all keepable = true := fun hall =>
      hkey (Bool.and_eq_true_iff.mp (List.all_eq_true.mp hall m hm)).1
    rw [if_neg hall, ofJson_of_unkeyed hperm hm (Option.not_isSome_iff_eq_none.mp hkey)]

end Unknown

/-- The members of a message have proper values, so that they are read as they are written. -/
theorem proper_members (t : Telemetry) : ∀ m ∈ t.members, Json.Proper m.2 := by
  cases t with
  | lossReport r =>
      simp only [members, toJson, List.forall_mem_cons, List.not_mem_nil, false_imp_iff,
        implies_true, and_true]
      exact ⟨.string _, .integer _ _, .integer _ _, .integer _ _, .integer _ _, .integer _ _⟩
  | redundancy enabled level =>
      simp only [members, toJson, List.forall_mem_cons, List.not_mem_nil, false_imp_iff,
        implies_true, and_true]
      exact ⟨.string _, .bool _, .integer _ _⟩

/-- One such text writes all members without blanks, and puts blanks around them. This is
    enough to give examples of texts in other orders without spelling out derivations. -/
theorem textWith_render {t : Telemetry} {others arranged : List (String × Json.Value)}
    (front back : List Char) (hperm : arranged.Perm (t.members ++ others))
    (hproper : ∀ m ∈ others, Json.Proper m.2)
    (hothers : ∀ m ∈ others, m.1 ∉ t.members.map Prod.fst) (hfront : Json.Blanks front)
    (hback : Json.Blanks back) :
    t.TextWith (others.map Json.named)
      (String.ofList (front ++ (Json.Value.object arranged).chars ++ back)) := by
  refine ⟨arranged.map Json.named, ?_, ?_, ?_⟩
  · rw [String.toList_ofList]
    refine (Json.objectText_chars ?_ fun m hm => ?_).surrounded hfront hback
    · -- Every message has members, if only its tag.
      rintro rfl
      cases t <;> exact List.cons_ne_nil _ _ hperm.nil_eq.symm
    · exact (List.mem_append.mp (hperm.mem_iff.mp hm)).elim (t.proper_members m) (hproper m)
  · rw [← List.map_append]
    exact hperm.map Json.named
  · intro m hm key hkey
    rcases List.mem_map.mp hm with ⟨m, hothers', rfl⟩
    exact Option.some.inj hkey ▸ hothers m hothers'

/-- The text that a message is written as is read as the object that was written, whose
    members are those of the message and no others. -/
theorem ofText_toText {t : Telemetry} (hfits : t.Fits) : ofText t.toText = some t := by
  have hread : Json.read t.toText = some (.object t.members) := by
    rw [toText, toJson_eq]
    exact Json.read_render (.object t.proper_members)
  have hperm : t.members.Perm (t.members ++ []) := by rw [List.append_nil]
  rw [ofText, hread, Option.bind_eq_bind, Option.bind_some]
  exact ofJson_arranged hperm nofun hfits

/-- A text with the members of a message is read as the message, unless some other member in
    it is one that cannot be kept. -/
theorem ofText_of_textWith {t : Telemetry} {unknown : List (Option String × Json.Value)}
    {text : String} (hfits : t.Fits) (h : t.TextWith unknown text) :
    ofText text = if unknown.all keepable then some t else none := by
  rcases h with ⟨arranged, htext, hperm, hunknown⟩
  rw [ofText, Json.read_of_valueText htext.valueText, Option.bind_eq_bind, Option.bind_some]
  exact ofJson_objectOf_arranged hperm hunknown hfits

/-- A message is read off its text, and off every other text with its members, if what else
    is in there can be kept. The text may have its members in any order, spell strings and
    numbers in any way, and have blanks wherever the grammar allows them. -/
theorem round_trip {t : Telemetry} (hfits : t.Fits) :
    ofText t.toText = some t ∧
      ∀ (unknown : List (Option String × Json.Value)) (text : String), t.TextWith unknown text →
        ofText text = if unknown.all keepable then some t else none :=
  ⟨ofText_toText hfits, fun _ _ => ofText_of_textWith hfits⟩

/-- The largest counters in a text that has its members the other way round, with an unknown
    member in front of them and blanks outside. Nothing is lost on the way. -/
theorem round_trip_reversed :
    let t := lossReport ⟨4294967295, ⟨18446744073709551615, 18446744073709551615, 0, 7⟩⟩
    let unknown := [(some "jitter", Json.Value.array [.null])]
    let text := " \x7b\"jitter\":[null],\"total_recovered_fec\":7,\"total_recovered_red\":0,"
      ++ "\"total_expected\":18446744073709551615,\"total_lost\":18446744073709551615,"
      ++ "\"ssrc\":4294967295,\"type\":\"redundant_audio_stats\"\x7d\n"
    t.Fits ∧ t.TextWith unknown text ∧ ofText t.toText = some t ∧ ofText text = some t := by
  intro t unknown text
  have hfits : t.Fits := by decide
  have hperm : (("jitter", .array [.null]) :: t.members.reverse).Perm
      (t.members ++ [("jitter", .array [.null])]) :=
    (t.members.reverse_perm.cons _).trans (List.perm_append_singleton _ _).symm
  have hproper : Json.Proper (.array [.null]) :=
    .array fun v hv => List.mem_singleton.mp hv ▸ .null
  have hrender : text = String.ofList ([' '] ++
      (Json.Value.object (("jitter", .array [.null]) :: t.members.reverse)).chars ++ ['\n']) := by
    decide +kernel
  -- The text is one that the writer could have made of these members.
  have htext : t.TextWith unknown text := hrender ▸ textWith_render [' '] ['\n'] hperm
    (fun m hm => List.mem_singleton.mp hm ▸ hproper)
    (fun m hm => List.mem_singleton.mp hm ▸ by decide) (by decide) (by decide)
  exact ⟨hfits, htext, (round_trip hfits).1, (round_trip hfits).2 _ _ htext⟩

/-- A member that no double can hold is not passed over. It is unknown to the message, and
    is a number by the grammar, but it cannot be put aside and so the message is refused. -/
theorem out_of_range_member :
    let t := redundancy true 1
    let unknown := [(some "x", Json.Value.decimal false ['1'] [] 999)]
    let text := "\x7b\"type\":\"redundancy_level\",\"enabled\":true,"
      ++ "\"num_redundant_encodings\":1,\"x\":1e999\x7d"
    t.Fits ∧ t.TextWith unknown text ∧ ofText text = none := by
  intro t unknown text
  have hwhole : Json.Whole ['1'] :=
    ⟨⟨List.cons_ne_nil _ _, fun _ hc => List.mem_singleton.mp hc ▸ rfl⟩, fun _ => Nat.le_refl 1⟩
  have hproper : Json.Proper (.decimal false ['1'] [] 999) :=
    .decimal false 999 hwhole (Or.inl rfl)
  have hrender : text = String.ofList ([] ++
      (Json.Value.object (t.members ++ [("x", .decimal false ['1'] [] 999)])).chars ++ []) := by
    decide +kernel
  have htext : t.TextWith unknown text := hrender ▸ textWith_render [] [] (.refl _)
    (fun m hm => List.mem_singleton.mp hm ▸ hproper)
    (fun m hm => List.mem_singleton.mp hm ▸ by decide) Json.blanks_nil Json.blanks_nil
  have hkeepable : unknown.all keepable = false := by decide +kernel
  have hfits : t.Fits := trivial
  refine ⟨hfits, htext, ?_⟩
  rw [ofText_of_textWith hfits htext, hkeepable]
  rfl

end Telemetry

end RedundantAudio
