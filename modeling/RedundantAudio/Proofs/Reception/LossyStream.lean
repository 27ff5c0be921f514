import RedundantAudio.Proofs.Reception.Concealment
import RedundantAudio.Proofs.Rtp.Frame

/-!
# From an Encoder to What Is Heard

An encoder at one end, a listener at the other, and a wire between them that
loses packets but keeps their order. All the parts have their own laws by now,
and this module puts them in a row: the frames that an encoder sends, the
packets that arrive and are read back, and the slots that are played from
them.

The result leaves nothing open. Not only are the slots and their origins
known, they are everything that happens: no packet comes too late or twice,
playout never begins anew, and nothing fails to decode.

## Main definitions

* `sent`: The frames that go out.
* `delivered`: The frames that come in.
* `listener`, `inputs`: Who listens, and to what.
* `chatter`: A stream to look at.

## Theorems

* `sent_eq`, `delivered_sent`: The packets that go out and come in.
* `events_delivered`: All that happens at the other end.
* `played_despite_losses`: What is played, whatever is lost.
* `played_chatter`: Seven slots from three packets.
-/

namespace RedundantAudio

namespace Reception

namespace Concealment

variable (s : Redundancy.Source) (packet : Nat → Opus.Packet)

/-- The messages that set an encoder up. -/
def setUp (opus red level : UInt8) : List Control :=
  [.opusPayloadType opus, .redPayloadType red, .redundancyLevel level]

/-- The frames that go out when a fresh encoder is set up and sends so many
    packets of a stream. -/
def sent (opus red level : UInt8) (count : Nat) : List Rtp.Frame :=
  ((({} : Redundancy.Encoder).handleAll (setUp opus red level)).run
      ((List.range count).map fun n => .frame (s.frame (Red.wireType opus) n))).2.filterMap
    Redundancy.Outcome.frame

/-- The frames that come in over the wire when some of them arrive. -/
def delivered (frames : List Rtp.Frame) (arrivals : List Nat) : List Rtp.Frame :=
  (arrivals.filterMap fun n => frames[n]?).filterMap fun frame =>
    (Rtp.Frame.ofBytes frame.toBytes).toOption

/-- An encoder that is set up. -/
def encoder (opus red level : UInt8) : Redundancy.Encoder :=
  ({} : Redundancy.Encoder).handleAll (setUp opus red level)

theorem sound_encoder (opus red level : UInt8) : (encoder opus red level).Sound :=
  Redundancy.Encoder.sound_handleAll _ Redundancy.Encoder.sound_default _

/-- What is sent is known packet by packet: voice makes every frame a redundant packet, with
    the copies that the level asks for. -/
theorem sent_eq (hs : s.Voiced) (opus red level : UInt8) (count : Nat) :
    sent s opus red level count
      = (List.range count).map (s.packet (encoder opus red level)) := by
  have hrun := s.run_coder hs _ (sound_encoder opus red level) rfl count 0
  rw [← List.range_eq_range'] at hrun
  have hall : (((encoder opus red level).run
      ((List.range count).map fun n => .frame (s.frame (Red.wireType opus) n))).2)
        = (List.range count).map fun m =>
          .encoded (s.packet (encoder opus red level) m)
            (Redundancy.repeats (encoder opus red level).level.toNat m).length :=
    congrArg Prod.snd hrun
  rw [sent, ← encoder, hall, List.filterMap_map]
  exact congrFun List.filterMap_eq_map' _

/-- The packets that arrive come in as they were sent, since the wire gives back every frame
    that it takes. Only what was lost on the way is left out, and nothing else is changed. -/
theorem delivered_sent (hs : s.Voiced) (opus red level : UInt8) (count : Nat)
    (arrivals : List Nat) (hcount : ∀ n ∈ arrivals, n < count) :
    delivered (sent s opus red level count) arrivals
      = arrivals.map (s.packet (encoder opus red level)) := by
  -- A number below the count names a packet that was sent.
  have hget : ∀ n ∈ arrivals, (sent s opus red level count)[n]?
      = some (s.packet (encoder opus red level) n) := by
    intro n hn
    rw [sent_eq s hs, List.getElem?_map, List.getElem?_range (hcount n hn), Option.map_some]
  -- The wire gives back every frame as it went in.
  have hwire : ∀ n ∈ arrivals, ((fun frame : Rtp.Frame =>
      (Rtp.Frame.ofBytes frame.toBytes).toOption) ∘ s.packet (encoder opus red level)) n
        = some (s.packet (encoder opus red level) n) := by
    intro n _
    rw [Function.comp_apply,
      Rtp.Frame.ofBytes_toBytes _ (sound_encoder opus red level).redType_lt]
    rfl
  rw [delivered, List.filterMap_congr hget, List.filterMap_eq_map', List.filterMap_map,
    List.filterMap_congr hwire, List.filterMap_eq_map']

/-- A fresh listener at the end of the wire. -/
def listener (opus red : UInt8) (config : Loss.TrackerConfig) : Listener :=
  { receiver := .new opus red config, playout := {} }

/-- What a listener gets when some of the packets arrive and the stream ends. -/
def inputs (opus red level : UInt8) (count : Nat) (arrivals : List Nat) : List Listener.Input :=
  (delivered (sent s opus red level count) arrivals).map .frame ++ [.flush]

/-- What is played from end to end: the slots up to the last packet that arrives, each with
    the audio that the arrivals around it leave to it. The flush at the end plays what is
    pending then, by the same rule as all slots before. -/
theorem events_delivered (opus red level : UInt8) (config : Loss.TrackerConfig)
    (count last : Nat) (arrivals : List Nat) (hs : s.Voiced)
    (hparse : ∀ n, Opus.Packet.parse (s.payload n) false = .ok (packet n))
    (hlevel : level = 1 ∨ level = 2) (horder : Red.InOrder 51 arrivals)
    (hfirst : arrivals.head? = some 0) (hlast : arrivals.getLast? = some last)
    (hcount : last < count) :
    ((listener opus red config).run (inputs s opus red level count arrivals)).2.flatMap (·.events)
      = (List.range (last + 1)).map
          fun n => .played (playedSlot s packet level.toNat arrivals n) := by
  have he := sound_encoder opus red level
  -- Both levels are within the limit, so the encoder takes them as they are.
  have hreal : (encoder opus red level).level = level := by
    rcases hlevel with rfl | rfl <;> rfl
  have hlevel' : 1 ≤ (encoder opus red level).level.toNat := by
    rw [hreal]
    rcases hlevel with rfl | rfl <;> decide
  cases arrivals with
  | nil => cases hfirst
  | cons first later =>
      obtain rfl : first = 0 := Option.some.inj hfirst
      have hle : ∀ n ∈ 0 :: later, n < count := fun n hn =>
        lt_of_le_of_lt (horder.le_last hlast n hn) hcount
      have hinputs : inputs s opus red level count (0 :: later)
          = .frame (s.packet (encoder opus red level) 0)
            :: ((later.map fun n => .frame (s.packet (encoder opus red level) n)) ++ [.flush]) := by
        rw [inputs, delivered_sent s hs opus red level count _ hle, List.map_map]
        rfl
      -- The first packet sets up the queue, and it is no slot's turn yet.
      rcases handle_packet s (encoder opus red level) hs he rfl (listener opus red config)
        ⟨rfl, rfl⟩ 0 with ⟨report, htuned, hqueue, hevents⟩
      change (Listener.handle _ _).1.playout = (({} : Playout).push _).1 at hqueue
      change (Listener.handle _ _).2.events = (({} : Playout).push _).2 at hevents
      rw [push_first_packet s _ he] at hqueue hevents
      have hrest := events_run s _ packet hs he rfl hparse hlevel' last later _ [] 0 htuned hqueue
        horder hlast
      rw [hinputs, Listener.run, Listener.step]
      simp only [List.flatMap_cons]
      rw [hevents, hrest, hreal, List.range_eq_range']
      rfl

/-- Whatever is lost, the slots of a stream are played once each and in order,
    up to the last packet that arrives, and where the audio of a slot comes
    from is decided by the packets that arrive around it. The first packet has
    to arrive, and no more than fifty in a row may be lost. -/
theorem played_despite_losses (opus red level : UInt8) (config : Loss.TrackerConfig)
    (count last : Nat) (arrivals : List Nat) (hs : s.Voiced)
    (hparse : ∀ n, Opus.Packet.parse (s.payload n) false = .ok (packet n))
    (hlevel : level = 1 ∨ level = 2) (horder : Red.InOrder 51 arrivals)
    (hfirst : arrivals.head? = some 0) (hlast : arrivals.getLast? = some last)
    (hcount : last < count) :
    let run := (listener opus red config).run (inputs s opus red level count arrivals)
    run.2.flatMap (·.events)
        = (List.range (last + 1)).map
            (fun n => .played (playedSlot s packet level.toNat arrivals n)) ∧
      run.1.stats.late = 0 ∧ run.1.stats.duplicates = 0 ∧ run.1.stats.resyncs = 0 ∧
      run.1.stats.decodeErrors = 0 := by
  intro run
  have hall := events_delivered s packet opus red level config count last arrivals hs hparse hlevel
    horder hfirst hlast hcount
  -- The counters count events, and there is no event but slots that are played.
  have hstats : run.1.stats = ({} : PlayoutStats).afterAll
      (((List.range (last + 1)).map (playedSlot s packet level.toNat arrivals)).map .played) := by
    have hrun := Listener.stats_run (inputs s opus red level count arrivals)
      (listener opus red config)
    rw [hall] at hrun
    rw [List.map_map]
    exact hrun
  have hcalm := Listener.afterAll_played
    ((List.range (last + 1)).map (playedSlot s packet level.toNat arrivals)) {}
  rw [← hstats] at hcalm
  exact ⟨hall, hcalm⟩

/-- A stream of voice that corrects itself, and whose media time wraps soon. -/
def chatter : Redundancy.Source where
  sequence := 65534
  start := 0xFFFFF800
  ssrc := 9
  payload n := [0x08, 0xC0, .ofNat n]

/-- What the packets of that stream decode to. -/
def chatterPacket (_ : Nat) : Opus.Packet where
  toc := ⟨0x08⟩
  frameSizes := [2]
  payloadOffset := 1
  padding := 0

theorem voiced_chatter : chatter.Voiced :=
  ⟨fun _ => List.cons_ne_nil _ _, fun _ => Nat.le_of_ble_eq_true rfl, fun _ => rfl⟩

/-- Three packets out of seven, and every way there is to play a slot. The stream begins
    shortly before media time wraps, which no one notices. -/
theorem played_chatter :
    (((listener 111 63 {}).run (inputs chatter 111 63 2 7 [0, 2, 6])).2.flatMap
        (·.events)).filterMap Event.played?
      = [⟨0xFFFFF800, .primary, 960⟩, ⟨0xFFFFFBC0, .fec, 960⟩, ⟨0xFFFFFF80, .primary, 960⟩,
          ⟨0x340, .plc, 960⟩, ⟨0x700, .red, 960⟩, ⟨0xAC0, .fec, 960⟩, ⟨0xE80, .primary, 960⟩] := by
  have hplayed := (played_despite_losses chatter chatterPacket 111 63 2 {} 7 6 [0, 2, 6]
    voiced_chatter (fun _ => rfl) (Or.inr rfl) (by unfold Red.InOrder; decide) rfl rfl
    (by decide)).1
  rw [hplayed]
  rfl

end Concealment

end Reception

end RedundantAudio
