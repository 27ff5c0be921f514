import RedundantAudio.Proofs.Red.Packet
import RedundantAudio.Redundancy.Encoder

/-!
# What an Encoder Puts Into a Packet

The selection walks backwards from the newest media time in strides of two
packets, and at each stop looks at two entries of the history at most.
Whatever it finds, two things are settled by the walk alone: how old an
encoding can be that comes from the stop numbered `i`, and how much room the
encodings taken so far have left. `selectFrom_succ` is the walk cut into
single stops, and the ages, their order, the number of encodings and their
size are each one induction over it.

The size matters most. Every encoding was weighed against the room before it
was taken, so wrapping a primary that can be one never fails: `wrap_eq` and
`send_eq` say what comes out, with no failure left to consider. An encoder
keeps to `Sound` from the beginning and whatever it is told, so these hold in
every state it can reach.

## Main definitions

* `behind`: The media time some samples before another one.
* `age`: The age of an entry.
* `Sound`: What every encoder keeps to.
* `carried`: The encodings that a packet carries, with their ages.
* `packetOf`: The packet of a primary encoding.
* `recorded`: The encoder that has recorded a primary encoding.

## Theorems

* `History.youngEnough_map`: What a history drops, told of what its entries stand
  for.
* `selectFrom_succ`: One stop of the selection.
* `mem_selectFrom`: Where a selected entry comes from, and how old it is.
* `pairwise_selectFrom`: Each stop yields an older entry than the one before.
* `length_selectFrom_le`, `total_selectFrom_le`: How many, and how large.
* `mem_select`, `pairwise_select`: The same for the selection of a packet.
* `encodable_select`: Nothing selected is too old for a header.
* `sendable_select`: What is selected fits the packet.
* `announceable_select`: And the headers in it.
* `encode_select`: A primary encoding and what is selected make a packet.
* `wrap_eq`, `send_eq`: What becomes of a primary encoding.
* `send_cases`: A frame is rewritten or leaves no trace.
* `sound_run`: A run keeps an encoder sound.
-/

namespace RedundantAudio

namespace Redundancy

namespace History

theorem find_eq_some (h : History) (timestamp : UInt32) (entry : Entry)
    (hfind : h.find timestamp = some entry) :
    entry ∈ h.entries ∧ entry.timestamp = timestamp :=
  ⟨List.mem_of_find?_eq_some hfind, by simpa only [decide_eq_true_eq] using List.find?_some hfind⟩

/-- What is dropped from the front of a list is everything to drop, where
    nothing to drop stands behind something to keep. -/
theorem dropWhile_eq_filter_not {α : Type} (p : α → Bool) (l : List α)
    (h : l.Pairwise fun a b => p b = true → p a = true) :
    l.dropWhile p = l.filter fun a => !p a := by
  induction l with
  | nil => rfl
  | cons a l ih =>
      rw [List.pairwise_cons] at h
      by_cases hp : p a = true
      · rw [List.dropWhile_cons_of_pos hp, ih h.2, List.filter_cons_of_neg (by simp only [hp,
          Bool.not_true, Bool.false_eq_true, not_false_eq_true])]
      · -- The first one stays, and then nothing behind it is to be dropped.
        rw [List.dropWhile_cons_of_neg hp, List.filter_eq_self.mpr]
        intro b hb
        rcases List.mem_cons.mp hb with rfl | hb
        · exact Bool.not_eq_true' _ |>.mpr (Bool.eq_false_iff.mpr hp)
        · exact Bool.not_eq_true' _ |>.mpr (Bool.eq_false_iff.mpr fun hpb => hp (h.1 b hb hpb))

/-- What is young enough among entries that are known by something else, where
    that tells which of them are old, and nothing old stands behind something
    young. -/
theorem youngEnough_map {α : Type} (h : History) (timestamp : UInt32) (entry : α → Entry)
    (l : List α) (old : α → Bool) (hentries : h.entries = l.map entry)
    (hold : ∀ a ∈ l, decide (timestamp - (entry a).timestamp ≥ h.maxAge) = old a)
    (hsorted : l.Pairwise fun a b => old b = true → old a = true) :
    h.youngEnough timestamp = (l.filter fun a => !old a).map entry := by
  rw [youngEnough, hentries, List.dropWhile_map, dropWhile_eq_filter_not]
  · congr 1
    exact List.filter_congr fun a ha => by rw [Function.comp_apply, hold a ha]
  · refine hsorted.imp_of_mem fun {a b} ha hb hab hb' => ?_
    rw [Function.comp_apply, hold b hb] at hb'
    rw [Function.comp_apply, hold a ha]
    exact hab hb'

end History

namespace Encoder

/-- What serves a candidate is the entry at that time, or failing that the one a packet
    before it. -/
theorem candidateEntry_eq_some (h : History) (candidate : UInt32) (entry : Entry)
    (hc : candidateEntry h candidate = some entry) :
    entry ∈ h.entries ∧
      (entry.timestamp = candidate ∨ entry.timestamp = candidate - Red.packetInterval) := by
  rw [candidateEntry] at hc
  -- The time itself is looked for first, and one interval before it only if that fails.
  cases hfind : h.find candidate with
  | some found =>
      rw [hfind] at hc
      have heq : found = entry := Option.some.inj hc
      rw [← heq]
      rcases h.find_eq_some candidate found hfind with ⟨hmem, htime⟩
      exact ⟨hmem, Or.inl htime⟩
  | none =>
      rw [hfind] at hc
      rcases h.find_eq_some _ entry hc with ⟨hmem, htime⟩
      exact ⟨hmem, Or.inr htime⟩

/-- The media time some strides and samples before another one. -/
def behind (timestamp : UInt32) (samples : Nat) : UInt32 :=
  timestamp - .ofNat samples

/-- Going back twice is going back once, by as much as both. Media times wrap, so this needs
    no bound. -/
theorem behind_behind (timestamp : UInt32) (m n : Nat) :
    behind timestamp m - .ofNat n = behind timestamp (m + n) := by
  rw [behind, behind, UInt32.ofNat_add]
  grind

theorem sub_behind (timestamp : UInt32) (n : Nat) : timestamp - behind timestamp n = .ofNat n := by
  rw [behind]
  grind

theorem age_behind (timestamp : UInt32) (n : Nat) (h : n < 2 ^ 32) :
    (timestamp - behind timestamp n).toNat = n := by
  rw [sub_behind]
  exact UInt32.toNat_ofNat_of_lt' h

/-- The age of an entry at a media time. -/
def age (timestamp : UInt32) (entry : Entry) : Nat :=
  (timestamp - entry.timestamp).toNat

/-- One step of the selection: it ends, passes over a candidate, or takes an entry that
    serves the candidate and fits. It ends where the candidate is too old for a header or
    the entry too large for the room, but only passes on where no entry serves. All that is
    proved of selections goes by these three cases. -/
theorem selectFrom_succ (h : History) (timestamp : UInt32) (count k room : Nat) :
    selectFrom h timestamp (count + 1) (behind timestamp (1920 * k)) room = [] ∨
    selectFrom h timestamp (count + 1) (behind timestamp (1920 * k)) room
      = selectFrom h timestamp count (behind timestamp (1920 * (k + 1))) room ∨
    ∃ entry, candidateEntry h (behind timestamp (1920 * k)) = some entry ∧
      Red.headerBytes + entry.payload.length ≤ room ∧
      selectFrom h timestamp (count + 1) (behind timestamp (1920 * k)) room
        = entry :: selectFrom h timestamp count (behind timestamp (1920 * (k + 1)))
            (room - (Red.headerBytes + entry.payload.length)) := by
  have hnext : behind timestamp (1920 * k) - stride = behind timestamp (1920 * (k + 1)) :=
    behind_behind timestamp (1920 * k) 1920
  rw [selectFrom, hnext]
  -- A candidate that is too old for a header ends the walk.
  split
  · exact Or.inl rfl
  cases hc : candidateEntry h (behind timestamp (1920 * k)) with
  | none => exact Or.inr (Or.inl rfl)
  | some entry =>
      by_cases hroom : room < Red.headerBytes + entry.payload.length
      · exact Or.inl (if_pos hroom)
      · exact Or.inr (Or.inr ⟨entry, rfl, Nat.not_lt.mp hroom, if_neg hroom⟩)

/-- What serves at stop `k` is `2 * k` packets old, or one more. The bound on the stop keeps
    the ages from wrapping. -/
theorem age_candidateEntry (h : History) (timestamp : UInt32) (k : Nat) (entry : Entry)
    (hk : k < 1024) (hc : candidateEntry h (behind timestamp (1920 * k)) = some entry) :
    age timestamp entry = 1920 * k ∨ age timestamp entry = 1920 * k + 960 := by
  rcases candidateEntry_eq_some h _ entry hc with ⟨_, htime | htime⟩
  · left
    rw [age, htime, age_behind _ _ (by omega)]
  · right
    have hback : behind timestamp (1920 * k) - Red.packetInterval
        = behind timestamp (1920 * k + 960) := behind_behind timestamp (1920 * k) 960
    rw [age, htime, hback, age_behind _ _ (by omega)]

/-- Whatever a walk takes is from the history, and serves at one of its stops. So its age
    tells the stop at which it was taken: two packets for each stop, or one more if it is
    the fallback. The walk is short enough for no age to wrap. -/
theorem mem_selectFrom (h : History) (timestamp : UInt32) (entry : Entry) :
    ∀ (count k room : Nat), k + count ≤ 1024 →
      entry ∈ selectFrom h timestamp count (behind timestamp (1920 * k)) room →
      entry ∈ h.entries ∧
        ∃ i, k ≤ i ∧ i < k + count ∧
          (age timestamp entry = 1920 * i ∨ age timestamp entry = 1920 * i + 960) := by
  intro count
  induction count with
  | zero =>
      intro k room _ hmem
      simp only [selectFrom, List.not_mem_nil] at hmem
  | succ count ih =>
      intro k room hk hmem
      -- Whatever comes from a later stop comes from a stop of this walk.
      have hlater : ∀ room', entry ∈ selectFrom h timestamp count
          (behind timestamp (1920 * (k + 1))) room' → entry ∈ h.entries ∧
            ∃ i, k ≤ i ∧ i < k + (count + 1) ∧
              (age timestamp entry = 1920 * i ∨ age timestamp entry = 1920 * i + 960) := by
        intro room' hrest
        rcases ih (k + 1) room' (by omega) hrest with ⟨hin, i, hlo, hhi, hage⟩
        exact ⟨hin, i, by omega, by omega, hage⟩
      rcases selectFrom_succ h timestamp count k room with hend | hpass | ⟨found, hc, _, htake⟩
      · rw [hend] at hmem
        simp only [List.not_mem_nil] at hmem
      · rw [hpass] at hmem
        exact hlater _ hmem
      · rw [htake] at hmem
        rcases List.mem_cons.mp hmem with heq | hrest
        · -- This entry was taken at the first stop itself.
          subst heq
          exact ⟨(candidateEntry_eq_some h _ entry hc).1, k, le_refl k, by omega,
            age_candidateEntry h timestamp k entry (by omega) hc⟩
        · exact hlater _ hrest

/-- A walk takes its entries one stop after the other, so each is a stride older than the
    one before, even if it is the fallback that serves. -/
theorem pairwise_selectFrom (h : History) (timestamp : UInt32) :
    ∀ (count k room : Nat), k + count ≤ 1024 →
      (selectFrom h timestamp count (behind timestamp (1920 * k)) room).Pairwise
        fun x y => age timestamp x / 1920 < age timestamp y / 1920 := by
  intro count
  induction count with
  | zero =>
      intro k room _
      exact List.Pairwise.nil
  | succ count ih =>
      intro k room hk
      rcases selectFrom_succ h timestamp count k room with hend | hpass | ⟨found, hc, _, htake⟩
      · rw [hend]
        exact List.Pairwise.nil
      · rw [hpass]
        exact ih (k + 1) room (by omega)
      · rw [htake]
        refine List.Pairwise.cons (fun entry hmem => ?_) (ih (k + 1) _ (by omega))
        -- Whatever is taken later serves an older candidate.
        have hfound := age_candidateEntry h timestamp k found (by omega) hc
        rcases mem_selectFrom h timestamp entry count (k + 1) _ (by omega) hmem with
          ⟨_, i, hlo, _, hage⟩
        omega

/-- A walk takes one entry at most from each of its stops. So it takes no more than the
    level allows, however much the history holds. -/
theorem length_selectFrom_le (h : History) (timestamp : UInt32) :
    ∀ (count k room : Nat),
      (selectFrom h timestamp count (behind timestamp (1920 * k)) room).length ≤ count := by
  intro count
  induction count with
  | zero =>
      intro k room
      exact le_refl 0
  | succ count ih =>
      intro k room
      -- At a stop the walk ends, passes on, or takes one entry.
      rcases selectFrom_succ h timestamp count k room with hend | hpass | ⟨found, _, _, htake⟩
      · rw [hend]
        exact Nat.zero_le _
      · rw [hpass]
        exact Nat.le_succ_of_le (ih (k + 1) room)
      · rw [htake]
        exact Nat.succ_le_succ (ih (k + 1) _)

/-- What a walk takes fits the room that there was at its start, with a header for each.
    This is why an encoder never makes a packet that it has to throw away. -/
theorem total_selectFrom_le (h : History) (timestamp : UInt32) :
    ∀ (count k room : Nat),
      Wire.total ((selectFrom h timestamp count (behind timestamp (1920 * k)) room).map
        fun entry => Red.headerBytes + entry.payload.length) ≤ room := by
  intro count
  induction count with
  | zero =>
      intro k room
      exact Nat.zero_le _
  | succ count ih =>
      intro k room
      rcases selectFrom_succ h timestamp count k room with hend | hpass | ⟨found, _, hfit, htake⟩
      · rw [hend]
        exact Nat.zero_le _
      · rw [hpass]
        exact ih (k + 1) room
      · have hrest := ih (k + 1) (room - (Red.headerBytes + found.payload.length))
        rw [htake, List.map_cons, Wire.total]
        -- The entry has left that much less room for the rest.
        omega

/-- What every encoder keeps to: its payload types have seven bits, and it
    carries no more encodings than a packet may. -/
structure Sound (e : Encoder) : Prop where
  opusType_lt : e.opusType.toNat < 128
  redType_lt : e.redType.toNat < 128
  level_le : e.level.toNat ≤ 2

/-- The selection is a walk that starts a stride back, with the room beside the primary, and
    is then put in order, oldest first. -/
theorem select_eq (e : Encoder) (timestamp : UInt32) (size : Nat) :
    e.select timestamp size
      = if e.enabled then
          (selectFrom e.history timestamp e.level.toNat (behind timestamp (1920 * 1))
            (Red.payloadLimit - size - Red.primaryHeaderBytes)).reverse
        else [] :=
  rfl

/-- Whatever is selected is from the history, and two to five packets old. -/
theorem mem_select (e : Encoder) (hs : e.Sound) (timestamp : UInt32) (size : Nat) (entry : Entry)
    (hmem : entry ∈ e.select timestamp size) :
    entry ∈ e.history.entries ∧
      (age timestamp entry = 1920 ∨ age timestamp entry = 2880 ∨ age timestamp entry = 3840 ∨
        age timestamp entry = 4800) := by
  have hlevel := hs.level_le
  rw [select_eq] at hmem
  by_cases hon : e.enabled = true
  · rw [if_pos hon, List.mem_reverse] at hmem
    rcases mem_selectFrom e.history timestamp entry _ 1 _ (by omega) hmem with
      ⟨hin, i, hlo, hhi, hage⟩
    exact ⟨hin, by omega⟩
  · rw [if_neg hon] at hmem
    simp only [List.not_mem_nil] at hmem

/-- What is selected stands in order of age, oldest first, at least a stride apart. -/
theorem pairwise_select (e : Encoder) (hs : e.Sound) (timestamp : UInt32) (size : Nat) :
    (e.select timestamp size).Pairwise
      fun x y => age timestamp y / 1920 < age timestamp x / 1920 := by
  have hlevel := hs.level_le
  rw [select_eq]
  by_cases hon : e.enabled = true
  · rw [if_pos hon, List.pairwise_reverse]
    exact pairwise_selectFrom e.history timestamp _ 1 _ (by omega)
  · rw [if_neg hon]
    exact List.Pairwise.nil

/-- No more is selected than the level allows, and nothing while redundancy is off. -/
theorem length_select_le (e : Encoder) (timestamp : UInt32) (size : Nat) :
    (e.select timestamp size).length ≤ e.activeLevel.toNat := by
  rw [select_eq, activeLevel]
  by_cases hon : e.enabled = true
  · rw [if_pos hon, if_pos hon, List.length_reverse]
    exact length_selectFrom_le e.history timestamp _ 1 _
  · rw [if_neg hon]
    exact Nat.zero_le _

/-- What is selected fits beside the primary, headers included. -/
theorem total_select_le (e : Encoder) (timestamp : UInt32) (size : Nat) :
    Wire.total ((e.select timestamp size).map fun entry => Red.headerBytes + entry.payload.length)
      ≤ Red.payloadLimit - size - Red.primaryHeaderBytes := by
  rw [select_eq]
  by_cases hon : e.enabled = true
  · rw [if_pos hon, List.map_reverse, Wire.total_reverse]
    exact total_selectFrom_le e.history timestamp _ 1 _
  · rw [if_neg hon]
    exact Nat.zero_le _

/-- The encodings that a packet carries, with their ages. -/
def carried (e : Encoder) (timestamp : UInt32) (size : Nat) : List (UInt32 × Bytes) :=
  (e.select timestamp size).map fun entry => (timestamp - entry.timestamp, entry.payload)

/-- Nothing that is selected is too old for the header of a block, so encoding leaves out
    none of it. -/
theorem encodable_select (e : Encoder) (hs : e.Sound) (timestamp : UInt32) (size : Nat) :
    Red.encodable timestamp
        ((e.select timestamp size).map fun entry => (entry.timestamp, entry.payload))
      = e.carried timestamp size := by
  rw [Red.encodable_eq_map, List.map_map]
  · rfl
  · intro r hr
    rcases List.mem_map.mp hr with ⟨entry, hmem, rfl⟩
    have hage := (mem_select e hs timestamp size entry hmem).2
    rw [age] at hage
    rw [UInt32.lt_iff_toNat_lt]
    change (timestamp - entry.timestamp).toNat < 16384
    -- Five packets are 4800 samples, and a header can say 16383.
    omega

/-- A primary that fits, together with what was selected for it, is within all the limits of
    a packet. -/
theorem sendable_select (e : Encoder) (timestamp : UInt32) (primary : Bytes)
    (hfits : fits primary = true) : Red.Sendable primary (e.carried timestamp primary.length) := by
  have htotal := total_select_le e timestamp primary.length
  simp only [fits, Bool.and_eq_true, Bool.not_eq_true', List.isEmpty_eq_false_iff,
    decide_eq_true_eq] at hfits
  -- One encoding is no larger than all of them together.
  have hlt : primary.length < 1000 := hfits.2
  refine ⟨hfits.1, hfits.2, fun block hblock => ?_, ?_⟩
  · rcases List.mem_map.mp hblock with ⟨entry, hmem, rfl⟩
    have hle := Wire.le_total_of_mem (List.mem_map_of_mem (f := fun entry : Entry =>
      Red.headerBytes + entry.payload.length) hmem)
    simp only [Red.headerBytes, Red.payloadLimit, Red.primaryHeaderBytes, Red.blockBound] at *
    omega
  · rw [Red.packetSize, carried, List.map_map]
    simp only [Function.comp_def, Red.headerBytes, Red.payloadLimit, Red.primaryHeaderBytes] at *
    omega

/-- What is selected fits the headers that announce it: it is young, and
    short. -/
theorem announceable_select (e : Encoder) (hs : e.Sound) (timestamp : UInt32) (primary : Bytes)
    (hfits : fits primary = true) :
    ∀ block ∈ e.carried timestamp primary.length,
      block.1 < Red.offsetBound ∧ block.2.length < Red.blockBound := by
  intro block hblock
  refine ⟨?_, (sendable_select e timestamp primary hfits).block_length_lt block hblock⟩
  rw [← encodable_select e hs] at hblock
  exact Red.lt_of_mem_encodable _ _ block hblock

/-- The packet of a primary encoding. -/
def packetOf (e : Encoder) (timestamp : UInt32) (primary : Bytes) : Bytes :=
  Red.packetBytes e.opusType (e.carried timestamp primary.length) primary

/-- The encoder that has recorded a primary encoding. -/
def recorded (e : Encoder) (timestamp : UInt32) (primary : Bytes) : Encoder :=
  { e with history := e.history.update timestamp primary (Opus.isImportant primary) }

/-- A primary that can be one, and what was selected to go with it, make a
    packet. -/
theorem encode_select (e : Encoder) (hs : e.Sound) (timestamp : UInt32) (primary : Bytes)
    (hfits : fits primary = true) :
    Red.encode timestamp primary
        ((e.select timestamp primary.length).map fun entry => (entry.timestamp, entry.payload))
        e.opusType
      = .ok (e.packetOf timestamp primary) := by
  rw [Red.encode_eq_ok_iff, encodable_select e hs]
  exact ⟨sendable_select e timestamp primary hfits, rfl⟩

/-- Wrapping never fails on a primary that can be one: what was selected fits
    the packet by the way it was selected. -/
theorem wrap_eq (e : Encoder) (hs : e.Sound) (timestamp : UInt32) (primary : Bytes)
    (hfits : fits primary = true) :
    e.wrap timestamp primary
      = .ok (e.recorded timestamp primary,
          ⟨e.packetOf timestamp primary, (e.select timestamp primary.length).length⟩) := by
  unfold wrap
  dsimp only
  rw [encode_select e hs timestamp primary hfits]
  rfl

/-- What becomes of a frame with a primary that fits, without any failure to speak of: it is
    wrapped, and its primary recorded. All that is proved of packets starts from here. -/
theorem send_eq (e : Encoder) (hs : e.Sound) (frame : Rtp.Frame) (primary : Bytes)
    (hprimary : e.primaryOf frame = some (.ok primary)) (hfits : fits primary = true) :
    e.send frame
      = (e.recorded frame.timestamp primary,
          .encoded { frame with
            payload := e.packetOf frame.timestamp primary
            payloadType := e.redType } (e.select frame.timestamp primary.length).length) := by
  rw [send, hprimary]
  simp only [hfits, if_true, wrap_eq e hs frame.timestamp primary hfits]

/-- A frame that is not rewritten leaves the encoder as it was. It is passed on or dropped,
    which is decided without a look at the history. -/
theorem send_cases (e : Encoder) (frame : Rtp.Frame) :
    (∃ primary, e.primaryOf frame = some (.ok primary) ∧ fits primary = true) ∨
      e.send frame = (e, pass frame) := by
  rw [send]
  cases hprimary : e.primaryOf frame with
  | none => exact Or.inr rfl
  | some result =>
      cases result with
      | error _ => exact Or.inr rfl
      | ok primary =>
          by_cases hfits : fits primary = true
          · exact Or.inl ⟨primary, rfl, hfits⟩
          · exact Or.inr (if_neg hfits)

theorem pass_ne_encoded (frame out : Rtp.Frame) (n : Nat) : pass frame ≠ .encoded out n := by
  rw [pass]
  split <;> simp only [ne_eq, reduceCtorEq, not_false_eq_true]

theorem sound_default : Sound {} :=
  ⟨by decide, by decide, by decide⟩

theorem sound_handle (e : Encoder) (hs : e.Sound) (message : Control) :
    (e.handle message).Sound := by
  cases message with
  | opusPayloadType n => exact { hs with opusType_lt := Red.wireType_lt n }
  | redPayloadType n => exact { hs with redType_lt := Red.wireType_lt n }
  | redundancyLevel n =>
      refine { hs with level_le := ?_ }
      -- A level beyond two is taken for two.
      change (if n ≤ 2 then n else 2).toNat ≤ 2
      by_cases hn : n ≤ 2
      · rw [if_pos hn]
        exact UInt8.le_iff_toNat_le.mp hn
      · rw [if_neg hn]
        exact le_refl 2
  | enable => exact { hs with }
  | disable => exact { hs with }

theorem sound_handleAll (e : Encoder) (hs : e.Sound) (messages : List Control) :
    (e.handleAll messages).Sound := by
  induction messages generalizing e with
  | nil => exact hs
  | cons message messages ih => exact ih _ (sound_handle e hs message)

theorem history_handle (e : Encoder) (message : Control) :
    (e.handle message).history = e.history := by
  cases message <;> rfl

theorem history_handleAll (e : Encoder) (messages : List Control) :
    (e.handleAll messages).history = e.history := by
  induction messages generalizing e with
  | nil => rfl
  | cons message messages ih => exact (ih _).trans (history_handle e message)

/-- A step keeps an encoder sound: a message since it is checked, and a frame since it
    changes nothing but the history. -/
theorem sound_step (e : Encoder) (hs : e.Sound) (input : Input) : (e.step input).1.Sound := by
  cases input with
  | control message => exact sound_handle e hs message
  | frame frame =>
      change (e.send frame).1.Sound
      rcases send_cases e frame with ⟨primary, hprimary, hfits⟩ | hpass
      · rw [send_eq e hs frame primary hprimary hfits]
        exact { hs with }
      · rw [hpass]
        exact hs

/-- An encoder is sound ever after, and a new one is to begin with. -/
theorem sound_run (e : Encoder) (hs : e.Sound) (inputs : List Input) : (e.run inputs).1.Sound := by
  induction inputs generalizing e with
  | nil => exact hs
  | cons input inputs ih => exact ih _ (sound_step e hs input)

end Encoder

end Redundancy

end RedundantAudio
