import RedundantAudio.Proofs.Audio.Frames
import RedundantAudio.Proofs.Redundancy.Wrapping
import RedundantAudio.Proofs.Transmission.Deadlines
import RedundantAudio.Proofs.Transmission.Events

/-!
# The Books of a Stream

While a stream runs it keeps a sequence number and a media time, both on clocks
that wrap, the milliseconds that have passed, the next deadline and, in the
link, the packets sent and lost. Where it stands is told by three numbers that
do not wrap: the frames begun, the packets on the link and the reports given.
`Stands` says what each counter shows by then. A frame moves on by one of the
three at a time, first the frames, then the packets, because no frame that fits
is held back, and last the reports if one is due.

So behind every frame there are as many packets as frames, and as many reports
as have fallen due (`Ready.stands`). What happens from one frame to the next is
its `turn`, and what happens over all is one turn after another
(`Ready.deeds_events`). Whatever else there is to ask of a stream, its datagrams
or its reports, can be read from the turns.

## Main definitions

* `Session`: An encoder, a stream that is about to begin, and its audio.
* `Session.behind`, `Session.events`: What has come of so many frames.
* `Session.plain`, `Session.packed`: A frame before and behind the sender.
* `Session.turn`: What a frame brings about.
* `Session.Stands`: Where a stream stands.

## Theorems

* `Stands.advance`, `Stands.offer`, `Stands.giveReport`: One part of a turn.
* `Ready.stands`: Where a stream stands behind each frame.
* `Ready.deeds_events`: What happens is one turn after another.
* `Ready.reports_events`, `Ready.datagrams_events`: Reports and datagrams.
* `run_samples`: What comes of some audio.
-/

namespace RedundantAudio

namespace Transmission

/-- A stream that is about to begin, with an encoder and the audio for it. -/
structure Session (σ : Type) where
  /-- The encoder. -/
  encoder : SpeechEncoder σ
  /-- The stream. -/
  start : Stream σ
  /-- The audio of each frame, counted from zero. -/
  audio : Nat → Audio.Pcm

namespace Session

variable {σ : Type} (s : Session σ)

/-- The stream behind so many frames. -/
def behind (n : Nat) : Stream σ :=
  (s.start.run s.encoder ((List.range n).map s.audio)).1

/-- The events of so many frames. -/
def events (n : Nat) : List Event :=
  (s.start.run s.encoder ((List.range n).map s.audio)).2

/-- What the encoder makes of a frame. -/
def payload (n : Nat) : Bytes :=
  (s.encoder.encode (s.behind n).codec (s.audio n)).2

/-- A frame as the sender is given it. -/
def plain (n : Nat) : Rtp.Frame where
  sequence := .ofNat n
  timestamp := .ofNat (960 * n)
  ssrc := s.start.ssrc
  payloadType := s.start.sender.encoder.opusType
  payload := s.payload n

/-- A frame as the sender gives it back. -/
def packed (n : Nat) : Rtp.Frame :=
  { s.plain n with
    payload := (s.behind n).sender.encoder.packetOf (.ofNat (960 * n)) (s.payload n)
    payloadType := s.start.sender.encoder.redType }

/-- The media time from one report to the next. -/
def interval : Nat :=
  s.start.reportInterval

/-- The counters of the link with so many frames. -/
def sample (n : Nat) : Redundancy.Sample where
  time := 20 * n
  sent := n
  lost := (List.range n).countP s.start.link.loses

/-- What a frame brings about. -/
def turn (n : Nat) : List Event :=
  .offered (s.plain n) :: verdict (s.start.link.loses n) (s.packed n)
    :: (reportsAfter s.interval (n + 1)).map fun number =>
      .reported (s.sample (reportFrame s.interval number))

theorem behind_succ (n : Nat) :
    s.behind (n + 1) = ((s.behind n).step s.encoder (s.audio n)).1 := by
  rw [behind, List.range_succ, List.map_append, List.map_singleton, Stream.run_concat]
  rfl

theorem events_succ (n : Nat) :
    s.events (n + 1) = s.events n ++ ((s.behind n).step s.encoder (s.audio n)).2 := by
  rw [events, List.range_succ, List.map_append, List.map_singleton, Stream.run_concat]
  rfl

/-- What a session has to be like. It has not begun, and whatever the encoder
    returns can be the primary of a packet. -/
structure Ready : Prop where
  sequence_eq : s.start.sequence = 0
  timestamp_eq : s.start.timestamp = 0
  elapsed_eq : s.start.elapsed = 0
  nextReport_eq : s.start.nextReport = s.interval
  sent_eq : s.start.link.sent = 0
  lost_eq : s.start.link.lost = 0
  sound : s.start.sender.encoder.Sound
  fits : ∀ n, Redundancy.Encoder.fits (s.payload n) = true

/-- Where a stream stands: at the beginning of some frame, with so many packets
    on the link and so many reports given. -/
structure Stands (frames packets reports : Nat) (t : Stream σ) : Prop where
  sequence_eq : t.sequence = .ofNat frames
  timestamp_eq : t.timestamp = .ofNat (960 * frames)
  ssrc_eq : t.ssrc = s.start.ssrc
  elapsed_eq : t.elapsed = 20 * frames
  interval_eq : t.reportInterval = s.interval
  nextReport_eq : t.nextReport = (reports + 1) * s.interval
  link_eq : t.link = (s.start.link.transmitAll packets).1
  types_eq : t.sender.encoder.types = s.start.sender.encoder.types
  sound : t.sender.encoder.Sound

variable {s}

/-- A session that is ready stands at its first frame, with nothing sent and nothing
    reported. -/
theorem Ready.stands_start (h : s.Ready) : s.Stands 0 0 0 s.start where
  sequence_eq := h.sequence_eq
  timestamp_eq := h.timestamp_eq
  ssrc_eq := rfl
  elapsed_eq := h.elapsed_eq
  interval_eq := rfl
  nextReport_eq := h.nextReport_eq.trans (Nat.one_mul _).symm
  link_eq := rfl
  types_eq := rfl
  sound := h.sound

namespace Stands

variable {frames packets reports : Nat} {t : Stream σ} (h : s.Stands frames packets reports t)

include h

/-- What the stream hands to the sender is numbered and timed by where it stands. The
    payload type keeps its seven bits, since a sound encoder has no more. -/
theorem frame_eq (payload : Bytes) :
    t.frame payload = ⟨.ofNat frames, .ofNat (960 * frames), s.start.ssrc,
      s.start.sender.encoder.opusType, payload⟩ := by
  have htype := Prod.mk.inj h.types_eq
  have hmask : t.sender.encoder.opusType &&& 0x7F = t.sender.encoder.opusType :=
    Red.wireType_of_lt _ h.sound.opusType_lt
  rw [Stream.frame, Rtp.Frame.ofParts, hmask, h.sequence_eq, h.timestamp_eq, h.ssrc_eq, htype.1]

/-- A frame that fits becomes a redundant packet. Its type is that of bare frames, so the
    encoding is taken for the primary as it is. -/
theorem send_eq {payload : Bytes} (hfits : Redundancy.Encoder.fits payload = true) :
    ∃ blocks, (t.sender.send (t.frame payload)).2 = .encoded
      ⟨.ofNat frames, .ofNat (960 * frames), s.start.ssrc, s.start.sender.encoder.redType,
        t.sender.encoder.packetOf (.ofNat (960 * frames)) payload⟩ blocks := by
  have htype := Prod.mk.inj h.types_eq
  -- The frame has the type of bare frames, so the encoding is the primary.
  have hprimary : t.sender.encoder.primaryOf (t.frame payload) = some (.ok payload) := by
    rw [h.frame_eq]
    exact if_pos htype.1.symm
  have hsend := Redundancy.Encoder.send_eq _ h.sound _ _ hprimary hfits
  rw [h.frame_eq, htype.2] at hsend
  rw [h.frame_eq]
  exact ⟨_, congrArg Prod.snd hsend⟩

/-! Each part of a turn moves one of the numbers. -/

/-- Encoding a frame moves the stream by one frame, and nothing else. The packet is not
    counted yet, which is why the two numbers are apart. -/
theorem advance (codec : σ) :
    s.Stands (frames + 1) packets reports { t.advance with codec } where
  sequence_eq := by
    rw [UInt16.ofNat_add, ← h.sequence_eq]
    rfl
  timestamp_eq := by
    rw [Nat.mul_succ, UInt32.ofNat_add, ← h.timestamp_eq]
    rfl
  ssrc_eq := h.ssrc_eq
  elapsed_eq := congrArg (· + 20) h.elapsed_eq
  interval_eq := h.interval_eq
  nextReport_eq := h.nextReport_eq
  link_eq := h.link_eq
  types_eq := h.types_eq
  sound := h.sound

/-- Handing over a frame moves the stream by one packet: what the sender gives back goes
    over the link, which decides by the number of the packet whether it is lost. -/
theorem offer {frame packet : Rtp.Frame} (hframe : (t.sender.send frame).2.frame = some packet) :
    s.Stands frames (packets + 1) reports (t.offer frame).1 ∧
      deeds (t.offer frame).2 = [.offered frame, verdict (s.start.link.loses packets) packet] := by
  refine ⟨?_, ?_⟩
  · rw [t.offer_of_frame hframe]
    exact { h with
      link_eq := by
        rw [Simulation.Link.transmitAll_concat, ← h.link_eq]
      types_eq := (Redundancy.Encoder.types_send _ h.sound frame).trans h.types_eq
      sound := Redundancy.Sender.sound_step _ h.sound (.frame frame) }
  · rw [t.deeds_offer, hframe, Simulation.Link.loses, ← h.link_eq]
    rfl

/-- Giving a report moves the stream by one report, and sets the next deadline an interval
    later. -/
theorem giveReport : s.Stands frames packets (reports + 1) (t.giveReport s.encoder).1 :=
  { h with
    nextReport_eq := by
      rw [Nat.succ_mul (reports + 1), ← h.nextReport_eq, ← h.interval_eq]
      rfl
    types_eq := (Redundancy.Sender.types_report _ _ _).trans h.types_eq
    sound := Redundancy.Sender.sound_step _ h.sound (.report _ _) }

end Stands

/-- What comes of a deadline behind a frame. If it has passed, a report is given and the
    next deadline is set an interval later, even if that has passed as well: then the report
    waits for the next frame. Otherwise nothing happens. -/
theorem Stands.reportIfDue {frames : Nat} {t : Stream σ}
    (h : s.Stands (frames + 1) (frames + 1) (reportCount s.interval frames) t)
    (hready : s.Ready) :
    s.Stands (frames + 1) (frames + 1) (reportCount s.interval (frames + 1))
        (t.reportIfDue s.encoder).1 ∧
      deeds (t.reportIfDue s.encoder).2
        = (reportsAfter s.interval (frames + 1)).map fun number =>
            .reported (s.sample (reportFrame s.interval number)) := by
  -- The stream waits for the report after those that have come.
  have hdue : t.elapsed ≥ t.nextReport ↔
      (reportCount s.interval frames + 1) * s.interval ≤ 20 * (frames + 1) := by
    rw [h.elapsed_eq, h.nextReport_eq]
  -- The counters of the link began at zero.
  have hsample : t.link.report t.elapsed = s.sample (frames + 1) := by
    rw [Simulation.Link.report, h.link_eq, h.elapsed_eq, Simulation.Link.sent_transmitAll,
      Simulation.Link.lost_transmitAll, hready.sent_eq, hready.lost_eq, Nat.zero_add, Nat.zero_add]
    rfl
  -- A report that comes with a frame counts what there is by then.
  have hnumber : (reportsAfter s.interval (frames + 1)).map (fun number =>
        Event.reported (s.sample (reportFrame s.interval number)))
      = (reportsAfter s.interval (frames + 1)).map fun _ => .reported (s.sample (frames + 1)) :=
    List.map_congr_left fun number hnumber => by rw [reportFrame_of_mem hnumber]
  rw [Stream.reportIfDue, hnumber, reportsAfter_succ, reportCount_succ]
  by_cases hlate : (reportCount s.interval frames + 1) * s.interval ≤ 20 * (frames + 1)
  · rw [if_pos (hdue.mpr hlate), if_pos hlate, if_pos hlate, Stream.deeds_giveReport, hsample]
    exact ⟨h.giveReport, rfl⟩
  · rw [if_neg fun hlate' => hlate (hdue.mp hlate'), if_neg hlate, if_neg hlate]
    exact ⟨h, rfl⟩

/-! ### The whole stream -/

/-- One turn, from where the stream stands behind the last one. The three parts of a turn
    are encoding, sending and reporting, and each of them moves one of the numbers. -/
theorem Ready.step (hready : s.Ready) {n : Nat}
    (h : s.Stands n n (reportCount s.interval n) (s.behind n)) :
    s.Stands (n + 1) (n + 1) (reportCount s.interval (n + 1)) (s.behind (n + 1)) ∧
      deeds ((s.behind n).step s.encoder (s.audio n)).2 = s.turn n ∧
      ∃ blocks, ((s.behind n).sender.send (s.plain n)).2 = .encoded (s.packed n) blocks := by
  have hplain : (s.behind n).frame (s.payload n) = s.plain n := h.frame_eq (s.payload n)
  rcases h.send_eq (hready.fits n) with ⟨blocks, hsend⟩
  rw [hplain] at hsend
  -- The three parts of a turn, one after the other.
  have hoffer := (h.advance (s.encoder.encode (s.behind n).codec (s.audio n)).1).offer
    (congrArg Redundancy.Outcome.frame hsend)
  have hreport := hoffer.1.reportIfDue hready
  rw [behind_succ, Stream.step]
  dsimp only
  rw [← payload, hplain, deeds_append, hoffer.2, hreport.2]
  exact ⟨hreport.1, rfl, blocks, hsend⟩

/-- Behind any number of frames, the stream stands where it should: so many packets were
    sent, and as many reports were given as were due. -/
theorem Ready.stands (h : s.Ready) (n : Nat) :
    s.Stands n n (reportCount s.interval n) (s.behind n) := by
  induction n with
  | zero =>
      rw [Nat.le_zero.mp (reportCount_le s.interval 0)]
      exact h.stands_start
  | succ n ih => exact (h.step ih).1

/-- What happens is what each turn brings about. -/
theorem Ready.deeds_events (h : s.Ready) (n : Nat) :
    deeds (s.events n) = (List.range n).flatMap s.turn := by
  induction n with
  | zero => rfl
  | succ n ih =>
      rw [events_succ, deeds_append, ih, (h.step (h.stands n)).2.1, List.range_succ,
        List.flatMap_append, List.flatMap_singleton]

/-- What is read off the events can be read off turn by turn, if lines in the log are no
    part of it. -/
theorem Ready.filterMap_events (h : s.Ready) {α : Type} (f : Event → Option α)
    (hf : ∀ line, f (.told line) = none) (n : Nat) :
    (s.events n).filterMap f = (List.range n).flatMap fun m => (s.turn m).filterMap f := by
  rw [← filterMap_deeds f hf, h.deeds_events, List.filterMap_flatMap]

/-- The reports in order, by their numbers. Each is made of the frame at which it was due,
    so the whole list is known without the stream being run. -/
theorem Ready.reports_events (h : s.Ready) (n : Nat) :
    (s.events n).filterMap Event.report
      = (List.range' 1 (reportCount s.interval n)).map fun number =>
          s.sample (reportFrame s.interval number) := by
  have hturn : ∀ m, (s.turn m).filterMap Event.report
      = (reportsAfter s.interval (m + 1)).map fun number =>
          s.sample (reportFrame s.interval number) := by
    intro m
    -- Neither a packet that is sent nor one that is lost is a report.
    have hverdict : Event.report (verdict (s.start.link.loses m) (s.packed m)) = none := by
      cases s.start.link.loses m <;> rfl
    rw [turn, List.filterMap_cons_none rfl, List.filterMap_cons_none hverdict, List.filterMap_map]
    exact congrFun List.filterMap_eq_map' _
  rw [h.filterMap_events _ fun _ => rfl, ← flatMap_reportsAfter, List.map_flatMap]
  exact List.flatMap_congr fun m _ => hturn m

/-- The datagrams in order, where the network takes them all: one for each packet that the
    link does not lose. Reports and lines in the log are no datagrams. -/
theorem Ready.datagrams_events (h : s.Ready) (network : Rtp.Frame → Sent)
    (hnetwork : ∀ frame, ∃ bytes, network frame = .ok bytes) (n : Nat) :
    (s.events n).filterMap (Event.datagram network)
      = (List.range n).filterMap fun m =>
          if s.start.link.loses m then none else some (s.packed m).toBytes := by
  rw [h.filterMap_events _ fun _ => rfl, List.filterMap_eq_flatMap_toList]
  refine List.flatMap_congr fun m _ => ?_
  -- Reports are no datagrams.
  have hreports : ((reportsAfter s.interval (m + 1)).map fun number =>
      Event.reported (s.sample (reportFrame s.interval number))).filterMap
        (Event.datagram network) = [] := by
    rw [List.filterMap_map, List.filterMap_eq_nil_iff]
    exact fun _ _ => rfl
  have hverdict : Event.datagram network (verdict (s.start.link.loses m) (s.packed m))
      = if s.start.link.loses m then none else some (s.packed m).toBytes := by
    rcases hnetwork (s.packed m) with ⟨bytes, hok⟩
    cases s.start.link.loses m with
    | true => rfl
    | false => exact if_pos (congrArg Except.toBool hok)
  rw [turn, List.filterMap_cons_none rfl, List.filterMap_cons, hverdict, hreports]
  cases s.start.link.loses m <;> rfl

/-- What comes of some audio, of whatever length it is, where the encoder makes
    packets of 1 to 999 bytes and the network takes what it is given. There is a
    frame for every 960 samples begun, numbered and timed in order. The sender
    makes a redundant packet of each, and those that the link does not lose are
    the datagrams. Report number `k` is given behind frame number
    `max k ⌈k * interval / 20⌉`, as far as there are frames, and it has the
    numbers of frames and of losses so far. -/
theorem run_samples {σ : Type} (encoder : SpeechEncoder σ) (codec : σ)
    (opusType redType : UInt8) (policy : Redundancy.PolicyConfig)
    (inputs : List Redundancy.Sender.Input) (generator : Simulation.Generator)
    (config : StreamConfig) (samples : Audio.Pcm) (network : Rtp.Frame → Sent)
    (hsizes : ∀ state frame, frame.length = 960 →
      1 ≤ (encoder.encode state frame).2.length ∧ (encoder.encode state frame).2.length ≤ 999)
    (hnetwork : ∀ frame, ∃ bytes, network frame = .ok bytes) :
    let sender := ((Redundancy.Sender.new opusType redType policy).run inputs).1
    let start := Stream.start codec sender generator config
    let s : Session σ := { encoder, start, audio := samples.frameAt }
    let events := (start.run encoder samples.frames).2
    let count := (samples.length + 959) / 960
    let interval := config.reportInterval
    let frame : Nat → Rtp.Frame := fun n =>
      ⟨.ofNat n, .ofNat (960 * n), config.ssrc, sender.encoder.opusType, s.payload n⟩
    let sample : Nat → Redundancy.Sample := fun frames =>
      ⟨20 * frames, frames, (List.range frames).countP start.link.loses⟩
    start.run encoder samples.frames = (s.behind count, s.events count) ∧
    (∀ n, (s.behind n).sender = (sender.run ((s.events n).filterMap Event.input)).1 ∧
      ∃ blocks, ((s.behind n).sender.send (frame n)).2 = .encoded (s.packed n) blocks) ∧
    deeds events = (List.range count).flatMap (fun n =>
      .offered (frame n) ::
        (if start.link.loses n then .lost (s.packed n) else .sent (s.packed n)) ::
          (reportsAfter interval (n + 1)).map fun number =>
            .reported (sample (reportFrame interval number))) ∧
    events.filterMap (Event.datagram network)
      = (List.range count).filterMap (fun n =>
          if start.link.loses n then none else some (s.packed n).toBytes) ∧
    (transmitAll network {} events).1.packets
      = (events.filterMap (Event.datagram network)).length ∧
    events.filterMap Event.report
      = (List.range' 1 (if interval = 0 then count else min count (20 * count / interval))).map
          fun number => sample (max number ((number * interval + 19) / 20)) := by
  intro sender start s events count interval frame sample
  have hready : s.Ready := {
    sequence_eq := rfl
    timestamp_eq := rfl
    elapsed_eq := rfl
    nextReport_eq := rfl
    sent_eq := rfl
    lost_eq := rfl
    sound := Redundancy.Sender.sound_run _
      (Redundancy.Sender.agrees_new opusType redType policy).sound inputs
    fits := fun n => (Redundancy.Encoder.fits_iff _).mpr
      (hsizes _ _ (samples.length_frameAt n)) }
  -- Samples are cut into frames, and each frame is the audio of its number.
  have hrun : start.run encoder samples.frames = (s.behind count, s.events count) := by
    rw [samples.frames_eq]
    rfl
  have hevents : events = s.events count := congrArg Prod.snd hrun
  rw [hevents, packets_transmitAll]
  exact ⟨hrun, fun n => ⟨Stream.sender_run _ _ _, (hready.step (hready.stands n)).2.2⟩,
    hready.deeds_events count, hready.datagrams_events network hnetwork count, Nat.zero_add _,
    hready.reports_events count⟩

/-- The first deadline falls between two frames, and the second on the last one. So the
    first report counts two packets and the second one three, one of which was lost. -/
theorem run_samples_lossy :
    (∀ state frame, frame.length = 960 →
      1 ≤ (silentEncoder.encode state frame).2.length ∧
        (silentEncoder.encode state frame).2.length ≤ 999) ∧
    (∀ frame : Rtp.Frame, ∃ bytes, (Except.ok frame.toBytes.length : Sent) = .ok bytes) ∧
    let start := Stream.start () (.new 111 63 {}) (.ofSeed 9)
      { dropPercent := 50, reportInterval := 30 }
    (start.run silentEncoder (Audio.Pcm.silence 2000).frames).2.filterMap Event.report
      = [⟨40, 2, 1⟩, ⟨60, 3, 1⟩] := by
  have hsizes : ∀ (state : Unit) (frame : Audio.Pcm), frame.length = 960 →
      1 ≤ (silentEncoder.encode state frame).2.length ∧
        (silentEncoder.encode state frame).2.length ≤ 999 :=
    fun _ _ _ => (by decide : 1 ≤ 3 ∧ 3 ≤ 999)
  have hnetwork : ∀ frame : Rtp.Frame,
      ∃ bytes, (Except.ok frame.toBytes.length : Sent) = .ok bytes :=
    fun _ => ⟨_, rfl⟩
  refine ⟨hsizes, hnetwork, ?_⟩
  have hrun := run_samples silentEncoder () 111 63 {} [] (.ofSeed 9)
    { dropPercent := 50, reportInterval := 30 } (Audio.Pcm.silence 2000) _ hsizes hnetwork
  refine hrun.2.2.2.2.2.trans ?_
  decide +kernel

end Session

end Transmission

end RedundantAudio
