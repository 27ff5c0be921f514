import Mathlib.Tactic.SplitIfs
import RedundantAudio.Proofs.Red.Timeline
import RedundantAudio.Proofs.Redundancy.Selection

/-!
# Redundancy of a Regular Stream

A sender that speaks in regular intervals is the case that the encoder was
made for, and for it the history has a plain description: before packet `n` it
holds those of the last five packets that are worth repeating. Eviction looks
at the oldest entries only, but in a stream whose media time runs forward the
oldest entries are the ones that are too old, so nothing else is lost by it,
and five entries never fill the history.

What a packet carries is then a matter of numbers. `Source.plan` is the
selection told without a history: which packets serve at the stops of a walk
back from a packet, and how many of them fit beside it. `send_plan` says that
the encoder does just that, whatever is worth repeating and however large it
is. Where every packet is worth it, and all of them are short, the fallback is
never taken and the room never runs out, and packet `n` carries packets
`n - 4` and `n - 2`, as far as the level reaches.

## Main definitions

* `Source`: A stream with a packet in every interval.
* `Source.recent`: The packets that are held before another one.
* `Source.past`: The history that holds them.
* `Source.choice`: The packet that serves at a stop.
* `Source.fitting`: The packets that fit into some room.
* `Source.plan`: The packets that a packet carries, by their numbers.
* `Source.coder`: An encoder with the history before a packet.
* `repeats`: What a packet carries where everything is worth it.
* `Source.packet`: What the encoder makes of such a packet.

## Theorems

* `Source.update_past`: Sending a packet leads from one history to the next.
* `Source.find_past`: What a history gives for a media time.
* `Source.selectFrom_past`: What a walk through the history finds.
* `Source.send_plan`: What becomes of a packet.
* `Source.plan_voiced`: The plan where everything is worth it.
* `Source.run_coder`: What a run of such packets comes to.
-/

namespace RedundantAudio

namespace Redundancy

/-- A stream that sends a packet in every interval. -/
structure Source where
  /-- The sequence number of the first packet. -/
  sequence : UInt16
  /-- The media time of the first packet. -/
  start : UInt32
  /-- The identity of the stream. -/
  ssrc : UInt32
  /-- The encoding in each packet. -/
  payload : Nat → Bytes

namespace Source

/-- The frame of a packet. -/
def frame (s : Source) (payloadType : UInt8) (n : Nat) : Rtp.Frame where
  sequence := s.sequence + .ofNat n
  timestamp := Red.packetTime s.start n
  ssrc := s.ssrc
  payloadType := payloadType
  payload := s.payload n

/-- The entry of a packet. -/
def entry (s : Source) (n : Nat) : Entry :=
  ⟨Red.packetTime s.start n, s.payload n⟩

/-- The numbers of the packets that are held before another one. -/
def recent (s : Source) (n : Nat) : List Nat :=
  (List.range n).filter fun j => decide (n ≤ j + 5) && Opus.isImportant (s.payload j)

/-- The history before a packet. -/
def past (s : Source) (n : Nat) : History :=
  { entries := (s.recent n).map s.entry }

/-- Held before a packet are the last five before it, so far as they are worth repeating. -/
theorem mem_recent (s : Source) (n j : Nat) :
    j ∈ s.recent n ↔ j < n ∧ n ≤ j + 5 ∧ Opus.isImportant (s.payload j) = true := by
  rw [recent, List.mem_filter, List.mem_range, Bool.and_eq_true, decide_eq_true_eq]

/-- Numbers within five of each other are five at most. This is what keeps the history from
    ever being full. -/
theorem length_recent_le (s : Source) (n : Nat) : (s.recent n).length ≤ 5 := by
  refine Red.length_le_of_within _ (n - 5) 5 (List.nodup_range.filter _) fun j hj => ?_
  rw [mem_recent] at hj
  omega

/-- The age of an entry that is held does not wrap, since it is that of five packets at
    most. -/
theorem age_entry (s : Source) (n j : Nat) (hj : j < n) (hn : n ≤ j + 5) :
    (Red.packetTime s.start n - (s.entry j).timestamp).toNat = 960 * (n - j) :=
  Red.toNat_packetTime_sub s.start j n (by omega) (by omega)

/-- Of what is held before a packet, only the oldest can be too old by its time: the entry
    of the packet five intervals back, whose age has just reached the limit. -/
theorem youngEnough_past (s : Source) (n : Nat) :
    (s.past n).youngEnough (Red.packetTime s.start n)
      = ((s.recent n).filter fun j => n < j + 5).map s.entry := by
  have hsorted : (s.recent n).Pairwise (· < ·) := List.pairwise_lt_range.filter _
  rw [History.youngEnough_map (s.past n) (Red.packetTime s.start n) s.entry (s.recent n)
    (fun j => j + 5 ≤ n) rfl]
  · simp only [← decide_not, Nat.not_le]
  · -- Five packets back is just too old.
    intro j hj
    rw [mem_recent] at hj
    have hage := s.age_entry n j hj.1 hj.2.1
    rw [decide_eq_decide, ge_iff_le, UInt32.le_iff_toNat_le, hage]
    change 4800 ≤ 960 * (n - j) ↔ _
    omega
  · -- Packets are held in order, so that nothing old stands behind something young.
    refine hsorted.imp fun {i j} hlt hj => ?_
    rw [decide_eq_true_eq] at hj ⊢
    omega

/-- Held before the next packet is what was held before this one, less the oldest, and the
    packet itself if it is worth repeating. -/
theorem recent_succ (s : Source) (n : Nat) :
    s.recent (n + 1) = ((s.recent n).filter fun j => n < j + 5)
      ++ if Opus.isImportant (s.payload n) then [n] else [] := by
  rw [recent, recent, List.range_succ, List.filter_append, List.filter_filter]
  congr 1
  · -- Those before the packet are held one packet longer if they are newer by one.
    refine List.filter_congr fun j hj => ?_
    rw [← Bool.and_assoc, ← Bool.decide_and]
    congr 1
    rw [decide_eq_decide]
    omega
  · have hnow : n + 1 ≤ n + 5 := by omega
    rw [List.filter_singleton, decide_eq_true hnow, Bool.true_and]
    exact (Bool.cond_eq_ite _ _ _)

/-- There are five entries at most, and room for ten. -/
theorem isFull_past (s : Source) (n : Nat) :
    (s.past n).isFull (Red.packetTime s.start n) = false := by
  have hlength : ((s.recent n).filter fun j => n < j + 5).length ≤ 5 :=
    (List.length_filter_le _ _).trans (s.length_recent_le n)
  rw [History.isFull, youngEnough_past, List.length_map, decide_eq_false_iff_not]
  -- A history is full from the eleventh entry on.
  change ¬ _ > 10
  omega

/-- A history of a regular stream is never full, so recording a packet keeps
    whatever is young enough. -/
theorem update_past (s : Source) (n : Nat) :
    (s.past n).update (Red.packetTime s.start n) (s.payload n) (Opus.isImportant (s.payload n))
      = s.past (n + 1) := by
  rw [History.update, isFull_past, youngEnough_past, past, past, recent_succ]
  -- Only what is worth repeating is added, to the history as to the numbers.
  cases Opus.isImportant (s.payload n) with
  | false => simp only [Bool.not_false, if_true, Bool.false_eq_true, if_false, List.append_nil]
  | true =>
      simp only [Bool.not_true, Bool.false_eq_true, if_false, if_true, List.map_append,
        List.map_cons, List.map_nil]
      rfl

/-- The history gives the packet that a media time so many packets back names, if there is
    one, it is recent, and it is worth repeating. Media times wrap, but among the few
    packets that are held there is only one with a given distance. -/
theorem find_past (s : Source) (n k : Nat) (hk : 0 < k) (hk' : k < 2 ^ 22) :
    (s.past n).find (Encoder.behind (Red.packetTime s.start n) (960 * k))
      = if k ≤ n ∧ k ≤ 5 ∧ Opus.isImportant (s.payload (n - k)) = true
        then some (s.entry (n - k)) else none := by
  -- Among recent packets a media time names one.
  have hname : ∀ j ∈ s.recent n,
      (s.entry j).timestamp = Encoder.behind (Red.packetTime s.start n) (960 * k) ↔ n - j = k := by
    intro j hj
    rw [mem_recent] at hj
    have hage := s.age_entry n j hj.1 hj.2.1
    have hback := Encoder.age_behind (Red.packetTime s.start n) (960 * k) (by omega)
    rw [← UInt32.sub_right_inj (Red.packetTime s.start n), ← UInt32.toNat_inj, hage, hback]
    omega
  cases hfind : (s.past n).find (Encoder.behind (Red.packetTime s.start n) (960 * k)) with
  | some found =>
      rcases History.find_eq_some _ _ _ hfind with ⟨hmem, htime⟩
      rcases List.mem_map.mp hmem with ⟨j, hj, rfl⟩
      have hjk := (hname j hj).mp htime
      rw [mem_recent] at hj
      have hj' : n - k = j := by omega
      rw [hj', if_pos ⟨by omega, by omega, hj.2.2⟩]
  | none =>
      rw [if_neg]
      rintro ⟨hle, hrecent, himp⟩
      have hj : n - k ∈ s.recent n := by
        rw [mem_recent]
        exact ⟨by omega, by omega, himp⟩
      -- If the packet were held, the search would have come upon it.
      refine absurd ((hname _ hj).mpr (by omega)) ?_
      have hnone := List.find?_eq_none.mp hfind _ (List.mem_map_of_mem hj)
      simpa only [decide_eq_true_eq] using hnone

/-! ### What a packet carries -/

/-- The number of the packet that serves at the stop `k` of a walk back from
    packet `n`: two packets back for each stop, or one more if that one is not
    worth repeating. -/
def choice (s : Source) (n k : Nat) : Option Nat :=
  if 2 * k ≤ n ∧ Opus.isImportant (s.payload (n - 2 * k)) = true then some (n - 2 * k)
  else if 2 * k + 1 ≤ n ∧ Opus.isImportant (s.payload (n - (2 * k + 1))) = true then
    some (n - (2 * k + 1))
  else none

/-- The packets that fit into some room with a header of four bytes for each,
    up to the first that does not. -/
def fitting (s : Source) : Nat → List Nat → List Nat
  | _, [] => []
  | room, m :: rest =>
    if 4 + (s.payload m).length > room then []
    else m :: s.fitting (room - (4 + (s.payload m).length)) rest

/-- The numbers of the packets that packet `n` carries at a level, oldest
    first. -/
def plan (s : Source) (level n : Nat) : List Nat :=
  (s.fitting (1000 - 1 - (s.payload n).length)
    ((List.range' 1 level).filterMap (s.choice n))).reverse

/-- At a stop of the walk, an encoder looks for the packet two intervals back and then for
    the one before, which is how the choice is described without a history. -/
theorem candidateEntry_past (s : Source) (n k : Nat) (hk : 0 < k) (hk' : k ≤ 2) :
    Encoder.candidateEntry (s.past n) (Encoder.behind (Red.packetTime s.start n) (1920 * k))
      = (s.choice n k).map s.entry := by
  have hstride : 1920 * k = 960 * (2 * k) := by omega
  have hback : Encoder.behind (Red.packetTime s.start n) (960 * (2 * k)) - Red.packetInterval
      = Encoder.behind (Red.packetTime s.start n) (960 * (2 * k + 1)) :=
    Encoder.behind_behind _ (960 * (2 * k)) 960
  -- Neither stop looks further back than the history reaches.
  have hreach : 2 * k ≤ 5 := by omega
  have hreach' : 2 * k + 1 ≤ 5 := by omega
  rw [Encoder.candidateEntry, hstride, hback, find_past s n _ (by omega) (by omega),
    find_past s n _ (by omega) (by omega), choice]
  simp only [hreach, hreach', true_and]
  split_ifs <;> rfl

/-- The walk of an encoder back over the history takes what the plan takes: the packets that
    serve at the stops, as long as they fit. By induction on the stops that are left, with
    the next stop and the room that is left in general position. -/
theorem selectFrom_past (s : Source) (n : Nat) :
    ∀ count k room, 0 < k → k + count ≤ 3 →
      Encoder.selectFrom (s.past n) (Red.packetTime s.start n) count
          (Encoder.behind (Red.packetTime s.start n) (1920 * k)) room
        = (s.fitting room ((List.range' k count).filterMap (s.choice n))).map s.entry := by
  intro count
  induction count with
  | zero =>
      intro k room _ _
      rfl
  | succ count ih =>
      intro k room hk hcount
      have hnext : Encoder.behind (Red.packetTime s.start n) (1920 * k) - Encoder.stride
          = Encoder.behind (Red.packetTime s.start n) (1920 * (k + 1)) :=
        Encoder.behind_behind _ (1920 * k) 1920
      -- One stride back or two, an encoding is young enough for a header.
      have hnear : ¬ Red.packetTime s.start n
          - Encoder.behind (Red.packetTime s.start n) (1920 * k) ≥ Red.offsetBound := by
        rw [ge_iff_le, UInt32.le_iff_toNat_le, Encoder.age_behind _ _ (by omega)]
        change ¬ 16384 ≤ 1920 * k
        omega
      rw [Encoder.selectFrom, if_neg hnear, candidateEntry_past s n k hk (by omega), hnext,
        List.range'_succ]
      cases hchoice : s.choice n k with
      | none =>
          rw [List.filterMap_cons_none hchoice]
          exact ih (k + 1) room (by omega) (by omega)
      | some m =>
          have hneeded : Red.headerBytes + (s.entry m).payload.length
              = 4 + (s.payload m).length := rfl
          rw [List.filterMap_cons_some hchoice, fitting, Option.map_some]
          dsimp only
          rw [hneeded]
          -- Both end at the first packet that does not fit.
          by_cases hroom : 4 + (s.payload m).length > room
          · rw [if_pos hroom, if_pos hroom, List.map_nil]
          · rw [if_neg hroom, if_neg hroom, List.map_cons, ih (k + 1) _ (by omega) (by omega)]

/-- An encoder that is about to send a packet. -/
def coder (s : Source) (e : Encoder) (n : Nat) : Encoder :=
  { e with history := s.past n }

theorem coder_of_history (s : Source) {e : Encoder} {n : Nat} (h : e.history = s.past n) :
    s.coder e n = e := by
  rw [coder, ← h]

/-- The encodings of some packets, with their ages at another one. -/
def aged (s : Source) (n : Nat) (numbers : List Nat) : List (UInt32 × Bytes) :=
  numbers.map fun m => (Red.packetTime s.start n - Red.packetTime s.start m, s.payload m)

/-- What an encoder selects for a packet is what the plan says for the level at which it is
    working, which is none while redundancy is off. -/
theorem select_plan (s : Source) (e : Encoder) (he : e.Sound) (n : Nat) :
    (s.coder e n).select (Red.packetTime s.start n) (s.payload n).length
      = (s.plan e.activeLevel.toNat n).map s.entry := by
  have hlevel := he.level_le
  have hroom : Red.payloadLimit - (s.payload n).length - Red.primaryHeaderBytes
      = 1000 - 1 - (s.payload n).length := Nat.sub_right_comm _ _ _
  have hwalk := selectFrom_past s n e.level.toNat 1 (1000 - 1 - (s.payload n).length) (by omega)
    (by omega)
  rw [Encoder.select_eq, coder, Encoder.activeLevel]
  by_cases hon : e.enabled = true
  · rw [if_pos hon, if_pos hon, hroom, hwalk, plan, List.map_reverse]
  · rw [if_neg hon, if_neg hon]
    rfl

theorem carried_plan (s : Source) (e : Encoder) (he : e.Sound) (n : Nat) :
    (s.coder e n).carried (Red.packetTime s.start n) (s.payload n).length
      = s.aged n (s.plan e.activeLevel.toNat n) := by
  rw [Encoder.carried, s.select_plan e he n, aged, List.map_map]
  rfl

/-- A frame of a regular stream takes along what the plan says, and the encoder is ready for
    the next one. The plan knows of numbers and payloads only, so that from here on nothing
    is said of histories, searches or media times. -/
theorem send_plan (s : Source) (e : Encoder) (he : e.Sound) (n : Nat) (frame : Rtp.Frame)
    (htype : frame.payloadType = e.opusType) (htime : frame.timestamp = Red.packetTime s.start n)
    (hpayload : frame.payload = s.payload n) (hfits : Encoder.fits (s.payload n) = true) :
    (s.coder e n).send frame
      = (s.coder e (n + 1), .encoded { frame with
          payload := Red.packetBytes e.opusType (s.aged n (s.plan e.activeLevel.toNat n))
            (s.payload n)
          payloadType := e.redType } (s.plan e.activeLevel.toNat n).length) := by
  have hsound : (s.coder e n).Sound := { he with }
  have hprimary : (s.coder e n).primaryOf frame = some (.ok (s.payload n)) :=
    (if_pos htype).trans (by rw [hpayload])
  -- After the packet, the history is the one before the next packet.
  have hrecorded : (s.coder e n).recorded (Red.packetTime s.start n) (s.payload n)
      = s.coder e (n + 1) := by
    rw [Encoder.recorded, coder, coder, update_past]
  have hpacket : (s.coder e n).packetOf (Red.packetTime s.start n) (s.payload n)
      = Red.packetBytes e.opusType (s.aged n (s.plan e.activeLevel.toNat n)) (s.payload n) := by
    rw [Encoder.packetOf, s.carried_plan e he n]
    rfl
  rw [Encoder.send_eq _ hsound _ _ hprimary hfits, htime, hrecorded, hpacket,
    s.select_plan e he n, List.length_map]
  rfl

/-! ### Where everything is worth repeating -/

/-- Every packet is worth repeating, and short enough for two others to fit
    beside it. -/
structure Voiced (s : Source) : Prop where
  ne_nil : ∀ n, s.payload n ≠ []
  length_le : ∀ n, (s.payload n).length ≤ 330
  important : ∀ n, Opus.isImportant (s.payload n) = true

theorem fits_payload (s : Source) (hs : s.Voiced) (n : Nat) :
    Encoder.fits (s.payload n) = true := by
  have hlength := hs.length_le n
  simp only [Encoder.fits, Bool.and_eq_true, Bool.not_eq_true', List.isEmpty_eq_false_iff,
    decide_eq_true_eq]
  -- Not empty, and shorter than a payload may be.
  exact ⟨hs.ne_nil n, by change _ < 1000; omega⟩

/-- Where all packets are worth repeating, none serves for another one. -/
theorem choice_voiced (s : Source) (hs : s.Voiced) (n k : Nat) :
    s.choice n k = if 2 * k ≤ n then some (n - 2 * k) else none := by
  rw [choice]
  -- If not even the packet two intervals back exists, the one before it does not either.
  by_cases hn : 2 * k ≤ n
  · rw [if_pos ⟨hn, hs.important _⟩, if_pos hn]
  · rw [if_neg fun h => hn h.1, if_neg fun h => by omega, if_neg hn]

/-- Short packets all fit where there is room for as many long ones. -/
theorem fitting_voiced (s : Source) (hs : s.Voiced) (numbers : List Nat) :
    ∀ room, 334 * numbers.length ≤ room → s.fitting room numbers = numbers := by
  induction numbers with
  | nil =>
      intro room _
      rfl
  | cons m rest ih =>
      intro room hroom
      have hlength := hs.length_le m
      rw [List.length_cons] at hroom
      -- The first fits, and leaves room for as many long ones as there are left.
      rw [fitting, if_neg (by omega), ih _ (by omega)]

end Source

/-- The numbers of the packets that a packet carries at a level, oldest
    first. -/
def repeats (level n : Nat) : List Nat :=
  (((List.range' 1 level).filter fun k => 2 * k ≤ n).map fun k => n - 2 * k).reverse

/-- A packet repeats the one two packets before it, and at the higher level also the one
    four packets before it. -/
theorem mem_repeats (level n m : Nat) (hlevel : level ≤ 2) :
    m ∈ repeats level n ↔ (1 ≤ level ∧ n = m + 2) ∨ (level = 2 ∧ n = m + 4) := by
  simp only [repeats, List.mem_reverse, List.mem_map, List.mem_filter, List.mem_range'_1,
    decide_eq_true_eq]
  constructor
  · rintro ⟨k, ⟨hk, hle⟩, rfl⟩
    omega
  · rintro (⟨h, rfl⟩ | ⟨h, rfl⟩)
    · exact ⟨1, by omega, by omega⟩
    · exact ⟨2, by omega, by omega⟩

namespace Source

/-- The encodings that a packet carries, with their ages. -/
def copies (s : Source) (level n : Nat) : List (UInt32 × Bytes) :=
  (repeats level n).map fun m => (Red.packetTime s.start n - Red.packetTime s.start m, s.payload m)

/-- What the encoder makes of a packet. -/
def packet (s : Source) (e : Encoder) (n : Nat) : Rtp.Frame :=
  { s.frame e.redType n with
    payload := Red.packetBytes e.opusType (s.copies e.level.toNat n) (s.payload n) }

/-- For a voiced stream the plan is to repeat every second packet, as far back as the level
    allows. Nothing is unimportant and everything fits. -/
theorem plan_voiced (s : Source) (hs : s.Voiced) (level n : Nat) (hlevel : level ≤ 2) :
    s.plan level n = repeats level n := by
  have hchosen : (List.range' 1 level).filterMap (s.choice n)
      = ((List.range' 1 level).filter fun k => 2 * k ≤ n).map fun k => n - 2 * k := by
    rw [← List.filterMap_eq_map, List.filterMap_filter]
    exact List.filterMap_congr fun k _ => by simp only [choice_voiced s hs, decide_eq_true_eq,
      Function.comp_apply]
  have hlength := hs.length_le n
  rw [plan, repeats, hchosen, fitting_voiced s hs]
  -- At most two encodings of 330 bytes go with a primary of 330 bytes.
  have hcount := List.length_filter_le (fun k => decide (2 * k ≤ n)) (List.range' 1 level)
  rw [List.length_range'] at hcount
  rw [List.length_map]
  omega

theorem carried_coder (s : Source) (hs : s.Voiced) (e : Encoder) (he : e.Sound)
    (hon : e.enabled = true) (n : Nat) :
    (s.coder e n).carried (Red.packetTime s.start n) (s.payload n).length
      = s.copies e.level.toNat n := by
  rw [s.carried_plan e he n, Encoder.activeLevel, if_pos hon, s.plan_voiced hs _ n he.level_le]
  rfl

/-- What a frame of a voiced stream becomes, and the encoder behind it, in closed form. -/
theorem send_coder (s : Source) (hs : s.Voiced) (e : Encoder) (he : e.Sound)
    (hon : e.enabled = true) (n : Nat) :
    (s.coder e n).send (s.frame e.opusType n)
      = (s.coder e (n + 1), .encoded (s.packet e n) (repeats e.level.toNat n).length) := by
  rw [s.send_plan e he n (s.frame e.opusType n) rfl rfl rfl (s.fits_payload hs n),
    Encoder.activeLevel, if_pos hon, s.plan_voiced hs _ n he.level_le]
  rfl

/-- Any number of frames in a row become packets as one does. The number of the first frame
    is general, since the induction moves it along. -/
theorem run_coder (s : Source) (hs : s.Voiced) (e : Encoder) (he : e.Sound)
    (hon : e.enabled = true) (count : Nat) :
    ∀ n, (s.coder e n).run ((List.range' n count).map fun m => .frame (s.frame e.opusType m))
      = (s.coder e (n + count), (List.range' n count).map fun m =>
          .encoded (s.packet e m) (repeats e.level.toNat m).length) := by
  induction count with
  | zero =>
      intro n
      rfl
  | succ count ih =>
      intro n
      rw [List.range'_succ, List.map_cons, Encoder.run, Encoder.step, send_coder s hs e he hon n]
      simp only [ih, List.map_cons, Option.toList_some, List.cons_append, List.nil_append]
      rw [Nat.add_right_comm, Nat.add_assoc]

end Source

end Redundancy

end RedundantAudio
