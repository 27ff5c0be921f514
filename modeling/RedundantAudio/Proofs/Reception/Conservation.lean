import RedundantAudio.Proofs.Reception.Continuity
import RedundantAudio.Proofs.Reception.Listening
import RedundantAudio.Proofs.Reception.Slots
import RedundantAudio.Proofs.Reception.Turns

/-!
# No Frame Is Lost or Played Twice

A frame that playout takes can end in four ways: it is played from its own
encoding, that encoding turns out to be undecodable, it comes too late, or it
comes twice. Each of these is an event, and until one of them happens the frame
is a primary in the queue. So the number of such events and the number of
primaries that are pending rise together by one when a frame is pushed, and
their sum does not change when slots are played.

That is the whole argument, and it is made on the events. It does not depend on
where a frame belongs: a frame that restarts playout lets the queue be played
first, which moves primaries from one side to the other, and then counts like
any other. The counters enter only at the end, as they are sums over the
events.

Nor does it depend on what the frames are, so it is made once for the primaries of
any kind and the events that settle those (`Settling`).

## Main definitions

* `Event.settles`: The events that end what becomes of a frame.
* `Event.discards`: Those that end it at once.
* `PlayoutStats.settled`: The counters of such events.
* `Playout.Settling`: Events that settle primaries of a kind.

## Theorems

* `settled_afterAll`, `slots_afterAll`: Counters are sums over events.
* `countP_playFront`, `drain_conserves`: Playing slots settles primaries.
* `file_balance`, `push_balance`: Filing a frame adds one, unless it is discarded.
* `push_conserves`: A frame is settled or pending.
* `frames_conserved`: So are all frames of a run.
-/

namespace RedundantAudio

namespace Reception

/-- Whether an event ends what becomes of a frame that was pushed. -/
def Event.settles : Event → Bool
  | late .. | duplicate .. | undecodable .. => true
  | played slot => slot.origin = .primary
  | restarted .. | redundantUnusable _ | fecUnusable .. => false

/-- Whether a frame was discarded. -/
def Event.discards : Event → Bool
  | late .. | duplicate .. => true
  | _ => false

/-- What a frame becomes when it is filed. -/
def Received.primarySlot (received : Received) : Slot :=
  .primary received.frame.sequence received.primaryPayload received.primaryHasFec

/-- The counters of the events that settle frames. -/
def PlayoutStats.settled (s : PlayoutStats) : Nat :=
  s.decoded + s.decodeErrors + s.late + s.duplicates

theorem countP_cons_eq {α : Type} (p : α → Bool) (x : α) (xs : List α) :
    (x :: xs).countP p = [x].countP p + xs.countP p :=
  (List.countP_append : ([x] ++ xs).countP p = _)

/-- One event adds one to the counters of settled frames exactly if it settles one. Slots
    that are concealed add to other counters, and what is only noted adds to none of these. -/
theorem settled_after (s : PlayoutStats) (event : Event) :
    (s.after event).settled = s.settled + [event].countP Event.settles := by
  rw [List.countP_singleton]
  cases event with
  | restarted ssrc timestamp distance behind => rfl
  | late sequence timestamp =>
      simp only [PlayoutStats.after, PlayoutStats.settled, Event.settles, if_true]
      omega
  | duplicate sequence timestamp =>
      simp only [PlayoutStats.after, PlayoutStats.settled, Event.settles, if_true]
      omega
  | undecodable sequence reason =>
      simp only [PlayoutStats.after, PlayoutStats.settled, Event.settles, if_true]
      omega
  | redundantUnusable timestamp => rfl
  | fecUnusable timestamp reason => rfl
  | played slot =>
      -- Only a slot played from its own encoding settles a frame.
      cases horigin : slot.origin <;>
        simp only [PlayoutStats.after, PlayoutStats.settled, Event.settles, horigin, reduceCtorEq,
          decide_false, decide_true, Bool.false_eq_true, if_false, if_true] <;>
        omega

/-- So do many: the counters say how many events settled a frame. -/
theorem settled_afterAll (events : List Event) :
    ∀ s : PlayoutStats, (s.afterAll events).settled = s.settled + events.countP Event.settles := by
  induction events with
  | nil =>
      intro s
      rfl
  | cons event events ih =>
      intro s
      rw [Listener.afterAll_cons, ih, settled_after, countP_cons_eq _ event events, Nat.add_assoc]

/-- One event adds one to the counters of slots exactly if a slot is played. -/
theorem slots_after (s : PlayoutStats) (event : Event) :
    (s.after event).decoded + (s.after event).concealed
      = s.decoded + s.concealed + event.played?.toList.length := by
  cases event with
  | played slot =>
      cases horigin : slot.origin <;>
        simp only [PlayoutStats.after, PlayoutStats.concealed, Event.played?, horigin,
          Option.toList_some, List.length_singleton] <;>
        omega
  | restarted ssrc timestamp distance behind => rfl
  | late sequence timestamp => rfl
  | duplicate sequence timestamp => rfl
  | undecodable sequence reason => rfl
  | redundantUnusable timestamp => rfl
  | fecUnusable timestamp reason => rfl

/-- The counters of slots say how many were played, from whatever source. Every slot that is
    played adds one to just one of them, whether it was decoded or concealed. -/
theorem slots_afterAll (events : List Event) :
    ∀ s : PlayoutStats, (s.afterAll events).decoded + (s.afterAll events).concealed
      = s.decoded + s.concealed + (events.filterMap Event.played?).length := by
  induction events with
  | nil =>
      intro s
      rfl
  | cons event events ih =>
      intro s
      -- The events that play slots are counted one by one.
      have hone : ((event :: events).filterMap Event.played?).length
          = event.played?.toList.length + (events.filterMap Event.played?).length := by
        cases hplayed : event.played? with
        | none => rw [List.filterMap_cons_none hplayed, Option.toList_none, List.length_nil,
            Nat.zero_add]
        | some slot => rw [List.filterMap_cons_some hplayed, Option.toList_some, List.length_cons,
            List.length_singleton, Nat.add_comm]
      rw [Listener.afterAll_cons, ih, slots_after, hone, Nat.add_assoc]

namespace Playout

/-! ### Playing slots -/

/-- Events that end what becomes of the primaries of a kind: each of these comes to one such
    event when its slot is played. -/
structure Settling (ends : Event → Bool) (kind : Slot → Bool) : Prop where
  settles : ∀ event, ends event = true → event.settles = true
  isPrimary : ∀ slot, kind slot = true → slot.isPrimary = true
  countP_primary : ∀ timestamp sequence payload hasFec following,
    (playSlot timestamp (.primary sequence payload hasFec) following).countP ends
      = [Slot.primary sequence payload hasFec].countP kind

/-- The primaries are such a kind, with all events that settle frames: each comes to one
    when its slot is played, whether or not it can be decoded. -/
theorem settling_settles : Settling Event.settles Slot.isPrimary := by
  refine ⟨fun _ h => h, fun _ h => h, fun timestamp sequence payload hasFec following => ?_⟩
  -- An encoding that cannot be decoded settles its frame as well.
  simp only [playSlot]
  split <;> rfl

/-- Concealing a slot settles no frame, even with the correction data of one, for that one
    is still pending. -/
theorem countP_conceal (timestamp : UInt32) (following : List Slot) :
    (conceal timestamp following).countP Event.settles = 0 := by
  unfold conceal
  split
  · split <;> rfl
  · rfl

/-- A slot that holds no primary settles nothing. -/
theorem countP_playSlot_eq_zero {slot : Slot} (h : slot.isPrimary = false) (timestamp : UInt32)
    (following : List Slot) : (playSlot timestamp slot following).countP Event.settles = 0 := by
  cases slot with
  | missing => exact countP_conceal timestamp following
  | redundant payload =>
      simp only [playSlot]
      split
      · rfl
      · rw [List.countP_cons, countP_conceal]
        rfl
  | primary sequence payload hasFec => cases h

/-- Playing slots discards no frame, so what is discarded in a push is the frame that is
    pushed. -/
theorem find?_discards_drain (p : Playout) (keep : Nat) :
    (p.drain keep).2.find? Event.discards = none := by
  refine List.find?_eq_none.mpr fun event hevent => ?_
  rcases of_mem_drain p keep hevent with hnote | ⟨played, rfl⟩
  · cases event with
    | late sequence timestamp => cases hnote
    | duplicate sequence timestamp => cases hnote
    | _ => exact Bool.false_ne_true
  · exact Bool.false_ne_true

theorem lt_length_extend (slots : List Slot) (index : Nat) :
    index < (extend slots index).length := by
  rw [extend, List.length_append, List.length_replicate]
  omega

section Settling

variable {ends : Event → Bool} {kind : Slot → Bool} (h : Settling ends kind)

include h

theorem Settling.kind_eq_false {slot : Slot} (hslot : slot.isPrimary = false) :
    kind slot = false := by
  by_contra hkind
  rw [Bool.not_eq_false] at hkind
  rw [h.isPrimary slot hkind] at hslot
  cases hslot

/-- Playing one slot settles as many of a kind as the slot holds. A slot without a primary
    settles nothing, even if it is played from a copy. -/
theorem Settling.countP_playSlot (timestamp : UInt32) (slot : Slot) (following : List Slot) :
    (playSlot timestamp slot following).countP ends = [slot].countP kind := by
  cases hslot : slot.isPrimary with
  | true =>
      cases slot with
      | primary sequence payload hasFec =>
          exact h.countP_primary timestamp sequence payload hasFec following
      | _ => cases hslot
  | false =>
      -- Without a primary nothing is settled, and so nothing of the kind.
      have hle := List.countP_mono_left (l := playSlot timestamp slot following)
        fun event _ => h.settles event
      rw [countP_playSlot_eq_zero hslot] at hle
      rw [List.countP_singleton, h.kind_eq_false hslot]
      exact Nat.le_zero.mp hle

/-- What is played from the front is settled, and the rest is pending still, by induction on
    the slots that are played. No slot is lost in between, and none is counted on both
    sides. -/
theorem countP_playFront (n : Nat) :
    ∀ (timestamp : UInt32) (slots : List Slot),
      (playFront n timestamp slots).2.2.countP ends
        + (playFront n timestamp slots).2.1.countP kind = slots.countP kind := by
  induction n with
  | zero =>
      intro timestamp slots
      rw [playFront_zero]
      exact Nat.zero_add _
  | succ n ih =>
      intro timestamp slots
      cases slots with
      | nil => rfl
      | cons slot slots =>
          -- The front slot is played, and so settled, and the others are split by
          -- induction.
          have hrest := ih (timestamp + slotSamples) slots
          have hslots := countP_cons_eq kind slot slots
          simp only [playFront_cons, List.countP_append, h.countP_playSlot]
          omega

theorem drain_conserves (p : Playout) (keep : Nat) :
    (p.drain keep).2.countP ends + (p.drain keep).1.slots.countP kind = p.slots.countP kind := by
  unfold drain
  cases p.next with
  | none => exact Nat.zero_add _
  | some timestamp => exact countP_playFront h _ timestamp p.slots

/-! ### Filing a frame -/

theorem countP_extend (slots : List Slot) (index : Nat) :
    (extend slots index).countP kind = slots.countP kind := by
  rw [extend, List.countP_append, List.countP_replicate, h.kind_eq_false rfl]
  rfl

/-- A redundant block takes a slot that is missing, so no primary comes or goes. Where it
    finds no such slot, it does nothing at all. -/
theorem countP_fillOne (base : UInt32) (slots : List Slot) (b : Red.Block) :
    (fillOne base slots b).countP kind = slots.countP kind := by
  have hmissing : kind .missing = false := h.kind_eq_false rfl
  have hredundant : kind (.redundant b.payload) = false := h.kind_eq_false rfl
  unfold fillOne
  -- The block names a slot, in the queue or out of it.
  split
  next index behind _ =>
    by_cases hfree : slots[index]? = some .missing
    · rcases List.getElem?_eq_some_iff.mp hfree with ⟨hlt, hslot⟩
      split
      · -- Neither what was there nor what is there now is a primary.
        rw [List.countP_set hlt, hslot, hmissing, hredundant]
        rfl
      · rfl
    · rw [if_neg (by simp only [hfree, decide_false, Bool.and_false, Bool.false_eq_true,
        not_false_eq_true])]

theorem countP_fill (base : UInt32) (blocks : List Red.Block) (slots : List Slot) :
    (fill base blocks slots).countP kind = slots.countP kind := by
  rw [fill_eq]
  generalize (blocks.filter fun b => !b.isLast) = redundant
  induction redundant generalizing slots with
  | nil => rfl
  | cons b redundant ih => rw [List.foldl_cons, ih, countP_fillOne h]

/-- A frame that is filed is one primary more, or comes twice. Its redundant blocks only
    fill slots that are missing, so no primary that is pending gives way to them. -/
theorem file_balance (p : Playout) (received : Received) (index : Nat) :
    (p.file received index).2.countP ends + (p.file received index).1.slots.countP kind
      = p.slots.countP kind
        + match (p.file received index).2.find? Event.discards with
          | some event => [event].countP ends
          | none => [received.primarySlot].countP kind := by
  have hlt := lt_length_extend p.slots index
  have hcount := countP_extend h p.slots index
  simp only [file, countP_fill h, List.getElem?_eq_getElem hlt, Option.any_some]
  by_cases htaken : (extend p.slots index)[index].isPrimary = true
  · simp only [htaken, if_true, hcount]
    exact Nat.add_comm _ _
  · -- What the frame takes the place of is no primary.
    rw [Bool.not_eq_true] at htaken
    have hold : kind (extend p.slots index)[index] = false := h.kind_eq_false htaken
    simp only [htaken, Bool.false_eq_true, if_false, List.countP_set hlt, hcount, hold,
      List.countP_nil, List.find?_nil, List.countP_singleton, Received.primarySlot]
    omega

/-- A frame that is filed is one primary more or comes twice, also when slots are played
    behind it. -/
theorem enqueue_balance (p : Playout) (received : Received) (index : Nat) :
    (p.enqueue received index).2.countP ends + (p.enqueue received index).1.slots.countP kind
      = p.slots.countP kind
        + match (p.enqueue received index).2.find? Event.discards with
          | some event => [event].countP ends
          | none => [received.primarySlot].countP kind := by
  have hfiled := file_balance h p received index
  have hdrained := drain_conserves h (p.file received index).1
    (p.file received index).1.config.delay
  simp only [enqueue, List.countP_append, List.find?_append, find?_discards_drain, Option.or_none]
  omega

/-- What was pending when a frame is pushed comes to an end or is pending still, and the
    frame does so, too, unless it is discarded. The event that discards it is the only sign
    of that, so it is looked for among all that the push returns. -/
theorem push_balance (p : Playout) (received : Received) :
    (p.push received).2.countP ends + (p.push received).1.slots.countP kind
      = p.slots.countP kind
        + match (p.push received).2.find? Event.discards with
          | some event => [event].countP ends
          | none => [received.primarySlot].countP kind := by
  cases hplace : p.place received.frame with
  | restart distance behind =>
      -- What was pending is played first, and the frame is filed into the rest.
      have hflushed := drain_conserves h (p.known received.frame) 0
      have henqueued := enqueue_balance h
        ((p.known received.frame).renewed received.frame.timestamp) received 0
      have hrest : ((p.known received.frame).renewed received.frame.timestamp).slots
          = ((p.known received.frame).drain 0).1.slots := rfl
      have hbefore : (p.known received.frame).slots = p.slots := rfl
      have hevent : [Event.restarted received.frame.ssrc received.frame.timestamp distance
          behind].countP ends = 0 := by
        rw [List.countP_eq_zero]
        exact fun event hevent hends => absurd (h.settles event hends)
          (by rw [List.mem_singleton.mp hevent]; exact Bool.false_ne_true)
      rw [hrest] at henqueued
      rw [hbefore] at hflushed
      rw [push_restart p received distance behind hplace, countP_cons_eq, hevent,
        List.find?_cons_of_neg Bool.false_ne_true]
      simp only [flush, List.countP_append, List.find?_append, find?_discards_drain, Option.none_or]
      omega
  | late =>
      rw [push_late p received hplace]
      exact Nat.add_comm _ _
  | slot index =>
      rw [push_slot p received index hplace]
      exact enqueue_balance h _ received index

end Settling

/-- A frame that is pushed is settled, or is one primary more in the queue. What was pending
    at a restart is settled by being played, so the sum holds there as well. -/
theorem push_conserves (p : Playout) (received : Received) :
    (p.push received).2.countP Event.settles
        + (p.push received).1.slots.countP Slot.isPrimary
      = p.slots.countP Slot.isPrimary + 1 := by
  rw [push_balance settling_settles]
  -- With all events that settle, a frame that is discarded counts for one as well.
  cases hdiscards : (p.push received).2.find? Event.discards with
  | none => rfl
  | some event =>
      cases event with
      | late sequence timestamp => rfl
      | duplicate sequence timestamp => rfl
      | _ => cases List.find?_some hdiscards

end Playout

namespace Listener

/-- Whether an input is a frame. -/
def Input.isFrame : Input → Bool
  | frame _ => true
  | flush => false

/-- What the counters of a listener say about the frames it took. -/
structure Accounted (l : Listener) : Prop where
  received_eq : l.tally.received = l.stats.settled + l.playout.slots.countP Slot.isPrimary

/-- Every frame is counted as received or as dropped, and as one of the two only. A flush is
    no frame and counts for neither. -/
theorem tally_step (l : Listener) (input : Input) :
    (l.step input).1.tally.received + (l.step input).1.tally.dropped
      = l.tally.received + l.tally.dropped + [input].countP Input.isFrame := by
  cases input with
  | flush => rfl
  | frame frame =>
      rw [step]
      cases h : (l.receiver.receive frame).2 with
      | none =>
          rw [handle_dropped l frame h]
          exact (Nat.add_assoc _ _ _).symm
      | some received =>
          rw [handle_received l frame received h]
          exact Nat.add_right_comm _ _ _

/-- Every frame that a listener has received is settled or pending, and each input keeps it
    so. The tally and the counters are kept by different parts, so a frame has to be
    followed from the one to the other. -/
theorem accounted_step (l : Listener) (input : Input) (h : Accounted l) :
    Accounted (l.step input).1 := by
  have hbefore := h.received_eq
  cases input with
  | flush =>
      -- A flush settles all that is pending.
      have hplayed := Playout.drain_conserves Playout.settling_settles l.playout 0
      refine ⟨?_⟩
      simp only [step, flush, Playout.flush, settled_afterAll]
      omega
  | frame frame =>
      rw [step]
      cases hreceive : (l.receiver.receive frame).2 with
      | none =>
          -- A frame that is dropped does not come near playout.
          rw [handle_dropped l frame hreceive]
          exact ⟨hbefore⟩
      | some received =>
          have hpushed := Playout.push_conserves l.playout received
          rw [handle_received l frame received hreceive]
          refine ⟨?_⟩
          simp only [Tally.count, settled_afterAll]
          omega

/-- All frames of a run are counted as received or as dropped. -/
theorem tally_run (inputs : List Input) :
    ∀ l : Listener, (l.run inputs).1.tally.received + (l.run inputs).1.tally.dropped
      = l.tally.received + l.tally.dropped + inputs.countP Input.isFrame := by
  induction inputs with
  | nil =>
      intro l
      rfl
  | cons input inputs ih =>
      intro l
      have hrest := ih (l.step input).1
      rw [tally_step] at hrest
      rw [countP_cons_eq, ← Nat.add_assoc]
      exact hrest

/-- At any time, every frame that was received is settled or pending, by induction on the
    inputs. -/
theorem accounted_run (inputs : List Input) :
    ∀ l : Listener, Accounted l → Accounted (l.run inputs).1 := by
  induction inputs with
  | nil =>
      intro l h
      exact h
  | cons input inputs ih =>
      intro l h
      exact ih (l.step input).1 (accounted_step l input h)

/-- Every frame that a listener takes is dropped, settled or pending, whatever
    its receiver and its playout are set to; and every slot that was played
    counts once. -/
theorem frames_conserved (receiver : Receiver) (config : PlayoutConfig) (inputs : List Input) :
    let outcome := ({ receiver, playout := { config } } : Listener).run inputs
    let played := (outcome.2.flatMap (·.events)).filterMap Event.played?
    let tally := outcome.1.tally
    let stats := outcome.1.stats
    inputs.countP Input.isFrame = tally.received + tally.dropped ∧
      tally.received = stats.decoded + stats.decodeErrors + stats.late + stats.duplicates
        + outcome.1.playout.slots.countP Slot.isPrimary ∧
      played.length
        = stats.decoded + stats.concealedRed + stats.concealedFec + stats.concealedPlc := by
  intro outcome played tally stats
  have htally := tally_run inputs { receiver, playout := { config } }
  have haccounted := accounted_run inputs { receiver, playout := { config } } ⟨rfl⟩
  have hstats := stats_run inputs { receiver, playout := { config } }
  have hslots := slots_afterAll (outcome.2.flatMap (·.events)) {}
  -- The counters are those of all events, so both ways of counting slots agree.
  rw [← hstats] at hslots
  refine ⟨?_, haccounted.received_eq, ?_⟩
  · rw [htally]
    exact (Nat.zero_add _).symm
  · simp only [PlayoutStats.concealed, Nat.zero_add] at hslots
    simp only [played, stats, ← hslots, outcome]
    omega

end Listener

end Reception

end RedundantAudio
