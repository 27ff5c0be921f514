import RedundantAudio.Opus.Packet
import RedundantAudio.Proofs.Wire.Fields

/-!
# The Fields of a Packet

In front of the frames stand fields of variable length: frame sizes of one or
two bytes, and a chain of padding counts. Each of them says by its first byte
whether it goes on, so each can be read from the front of whatever follows.

A reader in this library refuses a field as soon as what is left cannot hold
what the field announces. So a field is read exactly from its own bytes *and*
enough of the others behind them, and the statements here come in that form:
which bytes are read, what they say, and how much has to follow.

There is one way to write a size, since two bytes are used only from 252 on and
the first of the two gives the remainder by four. That makes the field of a
size a function, `sizeBytes`. A chain of padding counts is a function of the
amount too, but it is easier to follow as the grammar `PaddingCounts`.

## Main definitions

* `PaddingCounts`: The bytes that count an amount of padding.

## Theorems

* `bind_eq_ok_iff`, `ite_bind_eq_ok_iff`, `refusal_eq_ok_iff`: When a reader in
  several steps succeeds.
* `decodeSize_sizeBytes`: A size is read back from its bytes.
* `eq_sizeBytes_of_decodeSize`: No other bytes are read as that size.
* `takeSize_eq_ok_iff`: A size is taken from its bytes, if the frame fits.
* `takeSizes_append`, `eq_append_of_takeSizes`: Sizes are taken one by one.
* `readPadding_eq_ok_iff`: Padding counts are read, if the padding fits.
-/

namespace RedundantAudio

namespace Opus

/-- A reader in two steps succeeds if both of them do. With this a reader is taken apart
    step by step, without a look at the ways in which it can fail. -/
theorem bind_eq_ok_iff {ε α β : Type} (x : Except ε α) (f : α → Except ε β) (b : β) :
    (x >>= f) = .ok b ↔ ∃ a, x = .ok a ∧ f a = .ok b := by
  cases x with
  | error e =>
      refine ⟨fun h => ?_, ?_⟩
      · cases h
      · rintro ⟨a, ha, _⟩
        cases ha
  | ok a =>
      refine ⟨fun h => ⟨a, rfl, h⟩, ?_⟩
      rintro ⟨a', ha, h⟩
      cases ha
      exact h

/-- The same where the first step depends on a test. Readers with optional fields come out
    in this form. -/
theorem ite_bind_eq_ok_iff {ε α β : Type} (c : Prop) [Decidable c] (x y : Except ε α)
    (f : α → Except ε β) (b : β) :
    (if c then x >>= f else y >>= f) = .ok b ↔
      ∃ a, (if c then x else y) = .ok a ∧ f a = .ok b := by
  split <;> exact bind_eq_ok_iff _ _ _

/-- A reader that may refuse what it has seen goes on if it does not. -/
theorem refusal_eq_ok_iff {ε β : Type} (c : Prop) [Decidable c] (e : ε) (x : Except ε β) (b : β) :
    (if c then (throw e >>= fun _ : PUnit => x) else x) = .ok b ↔ ¬ c ∧ x = .ok b := by
  by_cases h : c
  · rw [if_pos h]
    refine ⟨fun hb => ?_, fun hb => absurd h hb.1⟩
    cases hb
  · rw [if_neg h]
    exact ⟨fun hb => ⟨h, hb⟩, fun hb => hb.2⟩

/-! ### Frame sizes -/

theorem decodeSize_short (a : UInt8) (rest : Bytes) (h : a.toNat < 252) :
    decodeSize (a :: rest) = some (a.toNat, 1) := by
  have ha : a < 252 := h
  cases rest with
  | nil => rw [decodeSize, if_pos ha]
  | cons b rest => rw [decodeSize, if_pos ha]

theorem decodeSize_long (a b : UInt8) (rest : Bytes) (h : 252 ≤ a.toNat) :
    decodeSize (a :: b :: rest) = some (4 * b.toNat + a.toNat, 2) := by
  have ha : ¬ a < 252 := Nat.not_lt.mpr h
  rw [decodeSize, if_neg ha]

theorem sizeBytes_short (size : Nat) (h : size < 252) : sizeBytes size = [.ofNat size] :=
  if_pos h

theorem sizeBytes_long (size : Nat) (h : 252 ≤ size) :
    sizeBytes size = [.ofNat (252 + size % 4), .ofNat ((size - 252) / 4)] :=
  if_neg (Nat.not_lt.mpr h)

theorem length_sizeBytes (size : Nat) :
    (sizeBytes size).length = if size < 252 then 1 else 2 := by
  rw [sizeBytes]
  split <;> rfl

/-- The size that was written is read, together with how much of the input it took. -/
theorem decodeSize_sizeBytes (size : Nat) (rest : Bytes) (h : size ≤ maxFrameBytes) :
    decodeSize (sizeBytes size ++ rest) = some (size, (sizeBytes size).length) := by
  rw [maxFrameBytes] at h
  by_cases hshort : size < 252
  · have hsize : (UInt8.ofNat size).toNat = size :=
      UInt8.toNat_ofNat_of_lt' (by change _ < 256; omega)
    rw [sizeBytes_short size hshort, List.singleton_append,
      decodeSize_short _ rest (by rw [hsize]; exact hshort), hsize]
    rfl
  · have hlow : (UInt8.ofNat (252 + size % 4)).toNat = 252 + size % 4 :=
      UInt8.toNat_ofNat_of_lt' (by change _ < 256; omega)
    have hhigh : (UInt8.ofNat ((size - 252) / 4)).toNat = (size - 252) / 4 :=
      UInt8.toNat_ofNat_of_lt' (by change _ < 256; omega)
    -- The remainder by four is the same with 252 taken off, as four divides it.
    have hsum : 4 * ((size - 252) / 4) + (252 + size % 4) = size := by omega
    rw [sizeBytes_long size (by omega), List.cons_append, List.cons_append, List.nil_append,
      decodeSize_long _ _ rest (by rw [hlow]; omega), hlow, hhigh, hsum]
    rfl

/-- A size that is read was written as it would be: one byte says less than 252, and two are
    read as a size that needs them. Nor can two bytes say more than the largest frame, so
    the reader needs no check of its own for that. -/
theorem eq_sizeBytes_of_decodeSize (body : Bytes) (size used : Nat)
    (h : decodeSize body = some (size, used)) :
    size ≤ maxFrameBytes ∧ body = sizeBytes size ++ body.drop used := by
  rw [maxFrameBytes]
  match body with
  | [] => cases h
  | a :: rest =>
      have ha := a.toNat_lt
      by_cases hshort : a.toNat < 252
      · rw [decodeSize_short a rest hshort, Option.some.injEq, Prod.mk.injEq] at h
        rcases h with ⟨rfl, rfl⟩
        refine ⟨by omega, ?_⟩
        rw [sizeBytes_short _ hshort, UInt8.ofNat_toNat]
        rfl
      · match rest with
        | [] =>
            have hlong : ¬ a < 252 := hshort
            rw [decodeSize, if_neg hlong] at h
            cases h
        | b :: rest =>
            have hb := b.toNat_lt
            rw [decodeSize_long a b rest (by omega), Option.some.injEq, Prod.mk.injEq] at h
            rcases h with ⟨rfl, rfl⟩
            -- The first byte gives the remainder by four, and the second one the rest.
            have hlow : 252 + (4 * b.toNat + a.toNat) % 4 = a.toNat := by omega
            have hhigh : (4 * b.toNat + a.toNat - 252) / 4 = b.toNat := by omega
            refine ⟨by omega, ?_⟩
            rw [sizeBytes_long _ (by omega), hlow, hhigh, UInt8.ofNat_toNat, UInt8.ofNat_toNat]
            rfl

/-- A size is taken exactly from its bytes, if what follows them could hold the frame. The
    frame itself need not stand there: between a size and its frame there may be others. -/
theorem takeSize_eq_ok_iff (body : Bytes) (size : Nat) (rest : Bytes) :
    takeSize body = .ok (size, rest) ↔
      body = sizeBytes size ++ rest ∧ size ≤ maxFrameBytes ∧ size ≤ rest.length := by
  constructor
  · intro h
    rw [takeSize] at h
    cases hread : decodeSize body with
    | none =>
        rw [hread] at h
        cases h
    | some found =>
        rcases found with ⟨size', used⟩
        simp only [hread] at h
        -- The bytes of a size are known from the size, so only its room is left to be
        -- checked.
        rcases eq_sizeBytes_of_decodeSize body size' used hread with ⟨hsmall, hbody⟩
        by_cases hfits : size' > (body.drop used).length
        · rw [if_pos hfits] at h
          cases h
        · rw [if_neg hfits, Except.ok.injEq, Prod.mk.injEq] at h
          rcases h with ⟨rfl, rfl⟩
          exact ⟨hbody, hsmall, Nat.le_of_not_lt hfits⟩
  · rintro ⟨rfl, hsmall, hfits⟩
    have hdrop : (sizeBytes size ++ rest).drop (sizeBytes size).length = rest := List.drop_left
    rw [takeSize, decodeSize_sizeBytes size rest hsmall]
    simp only [hdrop, if_neg (Nat.not_lt.mpr hfits)]

/-- Sizes are taken one by one, if all the frames together fit. The reader checks each size
    against what is left behind it, other sizes included, which asks for less than that. -/
theorem takeSizes_append (rest : Bytes) :
    ∀ sizes : List Nat, (∀ size ∈ sizes, size ≤ maxFrameBytes) →
      Wire.total sizes ≤ rest.length →
      takeSizes sizes.length (sizes.flatMap sizeBytes ++ rest) = .ok (sizes, rest) := by
  intro sizes
  induction sizes with
  | nil =>
      intro _ _
      rfl
  | cons size sizes ih =>
      intro hsmall hroom
      rw [Wire.total] at hroom
      have hsize := List.forall_mem_cons.mp hsmall
      -- The sizes that are still to come only add to the room behind this one.
      have hone : takeSize (sizeBytes size ++ (sizes.flatMap sizeBytes ++ rest))
          = .ok (size, sizes.flatMap sizeBytes ++ rest) := by
        refine (takeSize_eq_ok_iff _ _ _).mpr ⟨rfl, hsize.1, ?_⟩
        rw [List.length_append]
        omega
      rw [List.flatMap_cons, List.append_assoc, List.length_cons, takeSizes]
      refine (bind_eq_ok_iff _ _ _).mpr ⟨_, hone, ?_⟩
      -- The other sizes are read behind this one.
      exact (bind_eq_ok_iff _ _ _).mpr ⟨_, ih hsize.2 (by omega), rfl⟩

/-- Whatever sizes are taken, they were written in front. That the frames fit together is
    not known from this: each size was checked alone. -/
theorem eq_append_of_takeSizes :
    ∀ (count : Nat) (body : Bytes) (sizes : List Nat) (rest : Bytes),
      takeSizes count body = .ok (sizes, rest) →
      sizes.length = count ∧ (∀ size ∈ sizes, size ≤ maxFrameBytes) ∧
        body = sizes.flatMap sizeBytes ++ rest := by
  intro count
  induction count with
  | zero =>
      intro body sizes rest h
      rw [takeSizes, Except.ok.injEq, Prod.mk.injEq] at h
      rcases h with ⟨rfl, rfl⟩
      exact ⟨rfl, List.forall_mem_nil _, rfl⟩
  | succ count ih =>
      intro body sizes rest h
      rw [takeSizes, bind_eq_ok_iff] at h
      -- One size is taken first, and the others are taken from what it leaves.
      rcases h with ⟨⟨size, body'⟩, hone, h⟩
      rw [bind_eq_ok_iff] at h
      rcases h with ⟨⟨sizes', rest'⟩, hmore, h⟩
      cases h
      rcases (takeSize_eq_ok_iff _ _ _).mp hone with ⟨rfl, hsmall, _⟩
      rcases ih body' sizes' rest hmore with ⟨rfl, hall, rfl⟩
      refine ⟨rfl, List.forall_mem_cons.mpr ⟨hsmall, hall⟩, ?_⟩
      rw [List.flatMap_cons, List.append_assoc]

/-! ### Padding -/

/-- The bytes that count an amount of padding: 255 stands for 254 bytes and
    says that another count follows. -/
inductive PaddingCounts : Bytes → Nat → Prop
  | last (b : UInt8) (h : b ≠ 255) : PaddingCounts [b] b.toNat
  | more (counts : Bytes) (amount : Nat) (h : PaddingCounts counts amount) :
      PaddingCounts (255 :: counts) (254 + amount)

/-- A chain of counts is read as the amount that it stands for. How much was counted before
    is general, since the reader goes along the chain with it. -/
theorem readPadding_of_counts (counts : Bytes) (amount : Nat) (h : PaddingCounts counts amount)
    (rest : Bytes) :
    ∀ counted, counted + amount ≤ rest.length →
      readPadding counted (counts ++ rest) = .ok (counted + amount, rest) := by
  induction h with
  | last b hb =>
      intro counted hroom
      rw [List.singleton_append, readPadding, if_neg (by omega), if_neg hb, if_neg (by omega)]
  | more counts amount _ ih =>
      intro counted hroom
      -- All the padding fits behind the chain, so what was counted so far does.
      have hlong : ¬ (counts ++ rest).length < counted := by
        rw [List.length_append]
        omega
      rw [List.cons_append, readPadding, if_neg hlong, if_pos rfl, ih (counted + 254) (by omega),
        Nat.add_assoc]

/-- Padding that is read was announced by a chain of counts, and fits behind it. A count of
    255 stands for 254 bytes and says that another count follows. -/
theorem counts_of_readPadding (counted : Nat) (data : Bytes) (padding : Nat) (rest : Bytes)
    (h : readPadding counted data = .ok (padding, rest)) :
    ∃ counts amount, PaddingCounts counts amount ∧ data = counts ++ rest ∧
      padding = counted + amount ∧ padding ≤ rest.length := by
  -- By the recursion of the reader, each turn of which is one count.
  fun_induction readPadding counted data with
  | case1 counted => cases h
  | case2 counted b rest' hshort => cases h
  | case3 counted rest' hlong ih =>
      rcases ih h with ⟨counts, amount, hcounts, rfl, rfl, hroom⟩
      exact ⟨255 :: counts, 254 + amount, .more counts amount hcounts, rfl, Nat.add_assoc _ _ _,
        hroom⟩
  | case4 counted b rest' hlong hlast hover => cases h
  | case5 counted b rest' hlong hlast hroom =>
      rw [Except.ok.injEq, Prod.mk.injEq] at h
      rcases h with ⟨rfl, rfl⟩
      exact ⟨[b], b.toNat, .last b hlast, rfl, rfl, Nat.le_of_not_lt hroom⟩

/-- Padding counts are read exactly from their bytes, if the padding fits behind
    them. -/
theorem readPadding_eq_ok_iff (data : Bytes) (padding : Nat) (rest : Bytes) :
    readPadding 0 data = .ok (padding, rest) ↔
      ∃ counts, PaddingCounts counts padding ∧ data = counts ++ rest ∧ padding ≤ rest.length := by
  constructor
  · intro h
    rcases counts_of_readPadding 0 data padding rest h with
      ⟨counts, amount, hcounts, hdata, hpadding, hroom⟩
    rw [Nat.zero_add] at hpadding
    rw [← hpadding] at hcounts
    exact ⟨counts, hcounts, hdata, hroom⟩
  · rintro ⟨counts, hcounts, rfl, hroom⟩
    have hread := readPadding_of_counts counts padding hcounts rest 0 (by omega)
    rwa [Nat.zero_add] at hread

end Opus

end RedundantAudio
