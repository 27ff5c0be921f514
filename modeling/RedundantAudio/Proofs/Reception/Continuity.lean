import Mathlib.Data.List.Chain
import Mathlib.Data.List.Forall2
import RedundantAudio.Proofs.Reception.Listening
import RedundantAudio.Proofs.Reception.Loops

/-!
# A Timeline Without Holes

The slots that playout returns follow each other one interval at a time, until
playout begins anew somewhere else. `Steady` says so of a list of slots, with
the media time they begin at and the one that is due behind them. It is a path
rather than a property of neighbours, because slots come in portions: what one
push returns goes on where the last one stopped, and the place where it stopped
is what the queue remembers.

A push that restarts playout returns slots of two kinds. Those that were pending
belong to the old timeline, and come first; the others begin at the frame. So
the slots of a run are cut there (`stretches`), and nowhere else.

A queue that has not seen a frame has no media time yet. Its timeline may begin
anywhere, which is why the statements below speak of a start that agrees with
the queue if it knows one.

## Main definitions

* `Steady`: Slots that follow each other.
* `Playout.restarts`: Whether an input makes playout begin anew.
* `Playout.stretches`: The slots of a run, cut at every restart.
* `Tidy`: What holds of a queue between two inputs.
* `beats`: Three frames of a stream.

## Theorems

* `Steady.append`, `Steady.isChain`: Timelines are joined, and have no holes.
* `playSlot_eq`: One slot is played, behind what there is to note about it.
* `step_steady`, `restart_steady`: What one input returns.
* `stretches_steady`: What a run returns.
* `tidy_run`: A queue is never longer than the delay.
* `timeline_continuous`: The timeline of a run has no holes and no repeats.
* `timeline_beats`: One stream takes over from another.
-/

namespace RedundantAudio

namespace Reception

/-- Slots that were played one after the other from one media time up to
    another, which is that of the next slot. -/
inductive Steady : UInt32 → List Played → UInt32 → Prop
  | nil (time : UInt32) : Steady time [] time
  | cons (slot : Played) (slots : List Played) (stop : UInt32)
      (h : Steady (slot.timestamp + slotSamples) slots stop) :
      Steady slot.timestamp (slot :: slots) stop

namespace Steady

theorem append {start middle stop : UInt32} {xs ys : List Played} (hx : Steady start xs middle)
    (hy : Steady middle ys stop) : Steady start (xs ++ ys) stop := by
  induction hx with
  | nil time => exact hy
  | cons slot slots _ _ ih => exact .cons slot (slots ++ ys) stop (ih hy)

/-- A stretch begins at its first slot. -/
theorem head {start stop : UInt32} {slots : List Played} (h : Steady start slots stop) :
    ∀ first ∈ slots.head?, first.timestamp = start := by
  intro first hfirst
  cases h with
  | nil => cases hfirst
  | cons slot slots _ _ =>
      cases hfirst
      rfl

/-- In a stretch, each slot follows the one before by its length. -/
theorem isChain {start stop : UInt32} {slots : List Played} (h : Steady start slots stop) :
    slots.IsChain fun a b => b.timestamp = a.timestamp + slotSamples := by
  induction h with
  | nil time => exact .nil
  | cons slot slots stop h ih =>
      cases slots with
      | nil => exact .singleton slot
      | cons next slots => exact .cons_cons (h.head next rfl) ih

end Steady

/-- The media time at which an event says that playout begins anew. -/
def Event.restartedAt? : Event → Option UInt32
  | restarted _ timestamp _ _ => some timestamp
  | _ => none

/-- Whether an event is a remark about what a slot holds. -/
def Event.isNote : Event → Bool
  | undecodable .. | redundantUnusable _ | fecUnusable .. => true
  | _ => false

theorem Event.played?_of_isNote {event : Event} (h : event.isNote = true) :
    event.played? = none := by
  cases event with
  | played slot => cases h
  | _ => rfl

theorem Event.restartedAt?_of_isNote {event : Event} (h : event.isNote = true) :
    event.restartedAt? = none := by
  cases event with
  | restarted ssrc timestamp distance behind => cases h
  | _ => rfl

namespace Playout

/-- Whether playout begins anew at an input. -/
def restarts (p : Playout) : Input → Bool
  | .push received =>
    match p.place received.frame with
    | .restart .. => true
    | .late | .slot _ => false
  | .flush => false

/-- Puts slots in front of the first stretch. -/
def joinFirst (slots : List Played) : List (List Played) → List (List Played)
  | [] => [slots]
  | first :: others => (slots ++ first) :: others

/-- Playout begins anew at a push exactly if its frame is placed so. -/
theorem restarts_push_iff (p : Playout) (received : Received) :
    p.restarts (.push received) = true
      ↔ ∃ distance behind, p.place received.frame = .restart distance behind := by
  cases hplace : p.place received.frame with
  | restart distance behind =>
      simp only [restarts, hplace, true_iff]
      exact ⟨distance, behind, rfl⟩
  | late => simp only [restarts, hplace, Bool.false_eq_true, reduceCtorEq, exists_const]
  | slot index => simp only [restarts, hplace, Bool.false_eq_true, reduceCtorEq, exists_const]

/-- The slots that a run returns, cut at every restart: those that were pending
    go to the stretch before it, and the others begin a new one. -/
def stretches (p : Playout) : List Input → List (List Played)
  | [] => [[]]
  | input :: inputs =>
    let (next, events) := p.step input
    let slots := events.filterMap Event.played?
    if p.restarts input then
      slots.take p.pending :: joinFirst (slots.drop p.pending) (next.stretches inputs)
    else joinFirst slots (next.stretches inputs)

/-! ### What slots are played -/

/-- One slot is concealed at its media time, with a note if correction data could not be
    used. -/
theorem conceal_eq (timestamp : UInt32) (following : List Slot) :
    ∃ notes slot, conceal timestamp following = notes ++ [.played slot] ∧
      slot.timestamp = timestamp ∧ ∀ note ∈ notes, note.isNote = true := by
  unfold conceal
  split
  · split
    · exact ⟨[], _, rfl, rfl, List.forall_mem_nil _⟩
    · exact ⟨[_], _, rfl, rfl, List.forall_mem_singleton.mpr rfl⟩
  · exact ⟨[], _, rfl, rfl, List.forall_mem_nil _⟩

/-- One slot is played at its media time, whatever it holds and whatever there is to note
    about that. What is noted comes before it, so the slots of a queue can be read off its
    events. -/
theorem playSlot_eq (timestamp : UInt32) (slot : Slot) (following : List Slot) :
    ∃ notes played, playSlot timestamp slot following = notes ++ [.played played] ∧
      played.timestamp = timestamp ∧ ∀ note ∈ notes, note.isNote = true := by
  rcases conceal_eq timestamp following with ⟨notes, played, hevents, htime, hnotes⟩
  -- Each kind of slot may have something noted first, and then one is played.
  cases slot with
  | missing => exact ⟨notes, played, hevents, htime, hnotes⟩
  | redundant payload =>
      simp only [playSlot]
      split
      · exact ⟨[], _, rfl, rfl, List.forall_mem_nil _⟩
      · refine ⟨.redundantUnusable timestamp :: notes, played, ?_, htime,
          List.forall_mem_cons.mpr ⟨rfl, hnotes⟩⟩
        rw [hevents, List.cons_append]
  | primary sequence payload hasFec =>
      simp only [playSlot]
      split
      · exact ⟨[], _, rfl, rfl, List.forall_mem_nil _⟩
      · exact ⟨[_], _, rfl, rfl, List.forall_mem_singleton.mpr rfl⟩

/-- Of what happens when a slot is played, one event plays it. -/
theorem played_playSlot (timestamp : UInt32) (slot : Slot) (following : List Slot) :
    ∃ played, (playSlot timestamp slot following).filterMap Event.played? = [played] ∧
      played.timestamp = timestamp := by
  rcases playSlot_eq timestamp slot following with ⟨notes, played, hevents, htime, hnotes⟩
  have hnil : notes.filterMap Event.played? = [] :=
    List.filterMap_eq_nil_iff.mpr fun note hnote => Event.played?_of_isNote (hnotes note hnote)
  refine ⟨played, ?_, htime⟩
  rw [hevents, List.filterMap_append, hnil]
  rfl

/-- Slots played from the front are a stretch of as many slots, and what is left of the
    queue are the others. The time of the queue moves on by one interval for each of them. -/
theorem playFront_steady (n : Nat) :
    ∀ (timestamp : UInt32) (slots : List Slot), n ≤ slots.length →
      Steady timestamp ((playFront n timestamp slots).2.2.filterMap Event.played?)
          (playFront n timestamp slots).1 ∧
        ((playFront n timestamp slots).2.2.filterMap Event.played?).length = n ∧
        (playFront n timestamp slots).2.1 = slots.drop n := by
  induction n with
  | zero =>
      intro timestamp slots _
      rw [playFront_zero]
      exact ⟨.nil timestamp, rfl, rfl⟩
  | succ n ih =>
      intro timestamp slots hle
      cases slots with
      | nil => exact absurd hle (Nat.not_succ_le_zero n)
      | cons slot slots =>
          -- The first slot is played at the time of the queue, and the others one slot
          -- later.
          rcases ih (timestamp + slotSamples) slots (Nat.le_of_succ_le_succ hle) with
            ⟨hsteady, hlength, hleft⟩
          rcases played_playSlot timestamp slot slots with ⟨played, hplayed, rfl⟩
          simp only [playFront_cons, List.filterMap_append, hplayed, List.singleton_append]
          refine ⟨.cons played _ _ hsteady, ?_, ?_⟩
          · rw [List.length_cons, hlength]
          · rw [hleft, List.drop_succ_cons]

/-- A queue that takes some media time for its own stands there from then on. -/
theorem next_getD_getD (p : Playout) (time : UInt32) :
    p.next.getD (p.next.getD time) = p.next.getD time := by
  cases p.next <;> rfl

/-- The slots that are played go on from where the queue stands, and leave it
    at the slot behind them. -/
theorem drain_steady (p : Playout) (keep : Nat) (start : UInt32) (hnext : p.next = some start) :
    ∃ stop, (p.drain keep).1.next = some stop ∧
      Steady start ((p.drain keep).2.filterMap Event.played?) stop ∧
      ((p.drain keep).2.filterMap Event.played?).length = p.slots.length - keep ∧
      (p.drain keep).1.slots = p.slots.drop (p.slots.length - keep) := by
  have hplayed := playFront_steady (p.slots.length - keep) start p.slots (Nat.sub_le _ _)
  simp only [drain, hnext]
  exact ⟨_, rfl, hplayed⟩

theorem played_file (p : Playout) (received : Received) (index : Nat) :
    (p.file received index).2.filterMap Event.played? = [] := by
  simp only [file]
  split <;> rfl

/-- Filing a frame, and playing what is then too much, goes on from where the queue stands. -/
theorem enqueue_steady (p : Playout) (received : Received) (index : Nat) (start : UInt32)
    (hnext : p.next = some start) :
    ∃ stop, (p.enqueue received index).1.next = some stop ∧
      Steady start ((p.enqueue received index).2.filterMap Event.played?) stop := by
  rcases drain_steady (p.file received index).1 (p.file received index).1.config.delay start hnext
    with ⟨stop, hstop, hsteady, _⟩
  refine ⟨stop, hstop, ?_⟩
  simp only [enqueue, List.filterMap_append, played_file, List.nil_append]
  exact hsteady

/-- What an input returns goes on from where the queue stood, and leaves it at the slot
    behind that, unless playout begins anew. An empty queue has no time yet, so it may be
    taken to stand wherever the first frame puts it. -/
theorem step_steady (p : Playout) (input : Input) (h : p.restarts input = false) (stop : UInt32)
    (hstop : (p.step input).1.next.getD stop = stop) :
    ∃ start, p.next.getD start = start ∧
      Steady start ((p.step input).2.filterMap Event.played?) stop := by
  -- A flush plays from where the queue stands; a push does so unless its frame is late,
  -- when nothing is played.
  cases input with
  | flush =>
      cases hnext : p.next with
      | none =>
          simp only [step, flush, drain, hnext]
          exact ⟨stop, rfl, .nil stop⟩
      | some start =>
          rcases drain_steady p 0 start hnext with ⟨stop', hstop', hsteady, _⟩
          simp only [step, flush, hstop', Option.getD_some] at hstop
          subst hstop
          exact ⟨start, rfl, hsteady⟩
  | push received =>
      simp only [step] at hstop ⊢
      cases hplace : p.place received.frame with
      | restart distance behind =>
          simp only [restarts, hplace, Bool.true_eq_false] at h
      | late =>
          rw [push_late p received hplace] at hstop ⊢
          refine ⟨p.next.getD received.frame.timestamp, p.next_getD_getD _, ?_⟩
          rw [show p.next.getD received.frame.timestamp = stop from hstop]
          exact .nil stop
      | slot index =>
          rcases enqueue_steady (p.known received.frame) received index _ rfl with
            ⟨stop', hstop', hsteady⟩
          rw [push_slot p received index hplace] at hstop ⊢
          rw [hstop', Option.getD_some] at hstop
          subst hstop
          exact ⟨_, p.next_getD_getD _, hsteady⟩

/-- A push that makes playout begin anew returns what was pending first, from
    where the queue stood, and then goes on from the frame. -/
theorem restart_steady (p : Playout) (received : Received)
    (h : p.restarts (.push received) = true) :
    ∃ old new middle stop, (p.push received).2.filterMap Event.played? = old ++ new ∧
      old.length = p.pending ∧ (p.push received).1.next = some stop ∧
      Steady (p.next.getD received.frame.timestamp) old middle ∧
      Steady received.frame.timestamp new stop := by
  rcases (restarts_push_iff p received).mp h with ⟨distance, behind, hplace⟩
  rcases drain_steady (p.known received.frame) 0 _ rfl with ⟨middle, _, hold, hlength, _⟩
  rcases enqueue_steady ((p.known received.frame).renewed received.frame.timestamp) received 0
    received.frame.timestamp rfl with ⟨stop, hstop, hnew⟩
  rw [push_restart p received distance behind hplace]
  refine ⟨_, _, middle, stop, ?_, hlength, hstop, hold, hnew⟩
  rw [List.filterMap_cons_none rfl, List.filterMap_append]
  rfl

/-- Nothing happens while slots are played, except that they are, and what there is to note
    about them. In particular no frame is discarded then, and playout does not begin anew. -/
theorem of_mem_playFront {event : Event} (n : Nat) :
    ∀ (timestamp : UInt32) (slots : List Slot), event ∈ (playFront n timestamp slots).2.2 →
      event.isNote = true ∨ ∃ played, event = .played played := by
  induction n with
  | zero =>
      intro timestamp slots h
      rw [playFront_zero] at h
      cases h
  | succ n ih =>
      intro timestamp slots h
      cases slots with
      | nil => cases h
      | cons slot slots =>
          rw [playFront_cons, List.mem_append] at h
          rcases h with h | h
          · -- An event is one of the first slot, or of those behind it.
            rcases playSlot_eq timestamp slot slots with ⟨notes, played, hevents, _, hnotes⟩
            rw [hevents, List.mem_append, List.mem_singleton] at h
            exact h.imp (hnotes event) fun heq => ⟨played, heq⟩
          · exact ih _ _ h

/-- Nothing else happens while a queue is drained either. -/
theorem of_mem_drain {event : Event} (p : Playout) (keep : Nat) (h : event ∈ (p.drain keep).2) :
    event.isNote = true ∨ ∃ played, event = .played played := by
  unfold drain at h
  cases hnext : p.next with
  | none =>
      rw [hnext] at h
      cases h
  | some timestamp =>
      rw [hnext] at h
      exact of_mem_playFront _ timestamp p.slots h

/-! ### Restarts -/

theorem restartedAt_drain (p : Playout) (keep : Nat) :
    (p.drain keep).2.filterMap Event.restartedAt? = [] := by
  refine List.filterMap_eq_nil_iff.mpr fun event hevent => ?_
  rcases of_mem_drain p keep hevent with hnote | ⟨played, rfl⟩
  · exact Event.restartedAt?_of_isNote hnote
  · rfl

theorem restartedAt_enqueue (p : Playout) (received : Received) (index : Nat) :
    (p.enqueue received index).2.filterMap Event.restartedAt? = [] := by
  have hfiled : (p.file received index).2.filterMap Event.restartedAt? = [] := by
    simp only [file]
    split <;> rfl
  simp only [enqueue, List.filterMap_append, hfiled, restartedAt_drain, List.nil_append]

/-- The restarts of a run are told by its events: one for each input that makes
    playout begin anew, with the media time of its frame. -/
theorem restartedAt_step (p : Playout) (input : Input) (h : p.restarts input = false) :
    (p.step input).2.filterMap Event.restartedAt? = [] := by
  cases input with
  | flush => exact restartedAt_drain p 0
  | push received =>
      rw [step]
      cases hplace : p.place received.frame with
      | restart distance behind => simp only [restarts, hplace, Bool.true_eq_false] at h
      | late =>
          rw [push_late p received hplace]
          rfl
      | slot index =>
          rw [push_slot p received index hplace]
          exact restartedAt_enqueue _ received index

/-- A push at which playout begins anew says so once, with the media time of its frame. -/
theorem restartedAt_push (p : Playout) (received : Received)
    (h : p.restarts (.push received) = true) :
    (p.push received).2.filterMap Event.restartedAt? = [received.frame.timestamp] := by
  rcases (restarts_push_iff p received).mp h with ⟨distance, behind, hplace⟩
  have hevent : (Event.restarted received.frame.ssrc received.frame.timestamp distance
      behind).restartedAt? = some received.frame.timestamp := rfl
  rw [push_restart p received distance behind hplace, List.filterMap_cons_some hevent,
    List.filterMap_append, flush, restartedAt_drain, restartedAt_enqueue]
  rfl

/-- The counter of restarts says how many events told of one, which is how many stretches a
    run is cut into besides the first. -/
theorem resyncs_afterAll (events : List Event) :
    ∀ s : PlayoutStats,
      (s.afterAll events).resyncs = s.resyncs + (events.filterMap Event.restartedAt?).length := by
  induction events with
  | nil =>
      intro s
      rfl
  | cons event events ih =>
      intro s
      rw [Listener.afterAll_cons, ih]
      cases event with
      | restarted ssrc timestamp distance behind =>
          -- This is the only event that adds to the counter, and the only one that tells of
          -- a restart.
          have hevent : (Event.restarted ssrc timestamp distance behind).restartedAt?
              = some timestamp := rfl
          rw [List.filterMap_cons_some hevent, List.length_cons]
          exact Nat.succ_add_eq_add_succ _ _
      | played slot =>
          rw [List.filterMap_cons_none rfl, PlayoutStats.after]
          cases slot.origin <;> rfl
      | late sequence timestamp => rfl
      | duplicate sequence timestamp => rfl
      | undecodable sequence reason => rfl
      | redundantUnusable timestamp => rfl
      | fecUnusable timestamp reason => rfl

/-! ### Runs -/

theorem run_cons (p : Playout) (input : Input) (inputs : List Input) :
    p.run (input :: inputs)
      = (((p.step input).1.run inputs).1, (p.step input).2 ++ ((p.step input).1.run inputs).2) :=
  rfl

/-- One more input is one more step behind the others. -/
theorem run_concat (inputs : List Input) (input : Input) :
    ∀ p : Playout, p.run (inputs ++ [input])
      = (((p.run inputs).1.step input).1,
          (p.run inputs).2 ++ ((p.run inputs).1.step input).2) := by
  induction inputs with
  | nil =>
      intro p
      exact congrArg (Prod.mk _) (List.append_nil _)
  | cons first inputs ih =>
      intro p
      rw [List.cons_append, run_cons, ih, run_cons, List.append_assoc]

theorem flatten_joinFirst (slots : List Played) (stretches : List (List Played)) :
    (joinFirst slots stretches).flatten = slots ++ stretches.flatten := by
  cases stretches with
  | nil => rfl
  | cons first others => simp only [joinFirst, List.flatten_cons, List.append_assoc]

/-- Cutting the slots of a run loses none of them. The cut is inside of what one input
    returns, since a restart plays what is pending before it goes on at its frame. -/
theorem flatten_stretches (inputs : List Input) :
    ∀ p : Playout, (p.stretches inputs).flatten = (p.run inputs).2.filterMap Event.played? := by
  induction inputs with
  | nil =>
      intro p
      rfl
  | cons input inputs ih =>
      intro p
      have hrest := ih (p.step input).1
      simp only [stretches, run_cons, List.filterMap_append]
      -- What is pending at a restart goes to the stretch before it, and nothing is lost.
      split
      · rw [List.flatten_cons, flatten_joinFirst, ← List.append_assoc, List.take_append_drop, hrest]
      · rw [flatten_joinFirst, hrest]

/-- The first stretch of a run goes on from where the queue stood, and each of the others
    begins at the frame that playout began anew at. Whatever was pending before that frame
    still belongs to the stretch before. -/
theorem stretches_steady (inputs : List Input) :
    ∀ p : Playout, ∃ first others start stop, p.stretches inputs = first :: others ∧
      p.next.getD start = start ∧ Steady start first stop ∧
      List.Forall₂ (fun slots time => ∃ stop, Steady time slots stop) others
        ((p.run inputs).2.filterMap Event.restartedAt?) := by
  induction inputs with
  | nil =>
      intro p
      exact ⟨[], [], p.next.getD 0, p.next.getD 0, rfl, p.next_getD_getD 0, .nil _, .nil⟩
  | cons input inputs ih =>
      intro p
      rcases ih (p.step input).1 with ⟨first, others, middle, stop, hcut, hmiddle, hfirst, hothers⟩
      cases hrestarts : p.restarts input with
      | false =>
          -- What this input returns is put in front of what the others return.
          rcases step_steady p input hrestarts middle hmiddle with ⟨start, hstart, hslots⟩
          refine ⟨(p.step input).2.filterMap Event.played? ++ first, others, start, stop, ?_,
            hstart, hslots.append hfirst, ?_⟩
          · simp only [stretches, hrestarts, hcut, joinFirst, Bool.false_eq_true, if_false]
          · rw [run_cons, List.filterMap_append, restartedAt_step p input hrestarts]
            exact hothers
      -- The stretch ends with what was pending, and another one begins at the frame.
      | true =>
          cases input with
          | flush => simp only [restarts, Bool.false_eq_true] at hrestarts
          | push received =>
              rcases restart_steady p received hrestarts with
                ⟨old, new, middle', stop', hslots, hlength, hnext, hold, hnew⟩
              rw [step, hnext, Option.getD_some] at hmiddle
              subst hmiddle
              refine ⟨old, (new ++ first) :: others, p.next.getD received.frame.timestamp, middle',
                ?_, p.next_getD_getD _, hold, ?_⟩
              · have hcut' : (p.push received).1.stretches inputs = first :: others := hcut
                simp only [stretches, hrestarts, step, hslots, ← hlength, List.take_left,
                  List.drop_left, hcut', joinFirst, if_true]
              · rw [run_cons, List.filterMap_append, step, restartedAt_push p received hrestarts]
                exact .cons ⟨stop, hnew.append hfirst⟩ hothers

/-! ### What is left pending -/

/-- What holds of a queue between two inputs: it is no longer than the delay,
    and without a media time it belongs to no stream and is empty. -/
structure Tidy (config : PlayoutConfig) (p : Playout) : Prop where
  config_eq : p.config = config
  pending_le : p.pending ≤ config.delay
  ssrc_of_next : p.next = none → p.ssrc = none
  slots_of_next : p.next = none → p.slots = []

theorem pending_drain (p : Playout) (keep : Nat) (start : UInt32) (hnext : p.next = some start) :
    (p.drain keep).1.pending ≤ keep := by
  rcases drain_steady p keep start hnext with ⟨_, _, _, _, hslots⟩
  rw [pending, hslots, List.length_drop]
  omega

/-- Nothing is pending behind a flush: a queue without a media time was empty before. -/
theorem pending_flush (p : Playout) (config : PlayoutConfig) (h : Tidy config p) :
    p.flush.1.pending = 0 := by
  cases hnext : p.next with
  | none =>
      simp only [flush, drain, hnext, pending, h.slots_of_next hnext, List.length_nil]
  | some start => exact Nat.le_zero.mp (pending_drain p 0 start hnext)

/-- Each slot that is pending is played, and nothing else is. -/
theorem length_flush (p : Playout) (config : PlayoutConfig) (h : Tidy config p) :
    (p.flush.2.filterMap Event.played?).length = p.pending := by
  cases hnext : p.next with
  | none =>
      simp only [flush, drain, hnext, pending, h.slots_of_next hnext, List.filterMap_nil,
        List.length_nil]
  | some start =>
      rcases drain_steady p 0 start hnext with ⟨_, _, _, hlength, _⟩
      exact hlength

/-- A flush keeps a queue tidy. -/
theorem tidy_flush (p : Playout) (config : PlayoutConfig) (h : Tidy config p) :
    Tidy config p.flush.1 := by
  refine ⟨(config_drain p 0).trans h.config_eq, ?_, ?_, ?_⟩
  · rw [pending_flush p config h]
    exact Nat.zero_le _
  · cases hnext : p.next with
    | none => simpa only [flush, drain, hnext] using h.ssrc_of_next
    | some start =>
        rcases drain_steady p 0 start hnext with ⟨stop, hstop, _⟩
        exact fun hnone => absurd (hstop.symm.trans hnone) (Option.some_ne_none stop)
  · exact fun _ => List.length_eq_zero_iff.mp (pending_flush p config h)

theorem tidy_of_next {config : PlayoutConfig} {p : Playout} {time : UInt32}
    (hconfig : p.config = config) (hpending : p.pending ≤ config.delay)
    (hnext : p.next = some time) : Tidy config p :=
  ⟨hconfig, hpending, fun h => absurd (hnext.symm.trans h) (Option.some_ne_none time),
    fun h => absurd (hnext.symm.trans h) (Option.some_ne_none time)⟩

/-- Filing a frame plays what is more than the delay. -/
theorem tidy_enqueue (p : Playout) (config : PlayoutConfig) (received : Received) (index : Nat)
    (start : UInt32) (hconfig : p.config = config) (hnext : p.next = some start) :
    Tidy config (p.enqueue received index).1 := by
  rcases enqueue_steady p received index start hnext with ⟨stop, hstop, _⟩
  refine tidy_of_next ?_ ?_ hstop
  · exact (config_drain (p.file received index).1 p.config.delay).trans hconfig
  · rw [← hconfig]
    exact pending_drain (p.file received index).1 p.config.delay start hnext

/-- A push keeps a queue tidy, wherever its frame is placed. Whatever it files, it then
    plays until no more slots are pending than the delay. -/
theorem tidy_push (p : Playout) (config : PlayoutConfig) (received : Received)
    (h : Tidy config p) : Tidy config (p.push received).1 := by
  cases hplace : p.place received.frame with
  | restart distance behind =>
      rw [push_restart p received distance behind hplace]
      exact tidy_enqueue ((p.known received.frame).renewed received.frame.timestamp) config received
        0 _ ((config_drain (p.known received.frame) 0).trans h.config_eq) rfl
  | late =>
      -- Nothing is filed, so nothing is played and nothing is added.
      rw [push_late p received hplace]
      exact tidy_of_next h.config_eq h.pending_le rfl
  | slot index =>
      rw [push_slot p received index hplace]
      exact tidy_enqueue (p.known received.frame) config received index _ h.config_eq rfl

/-- A queue is tidy between all inputs, by induction on them. -/
theorem tidy_run (config : PlayoutConfig) (inputs : List Input) :
    ∀ p : Playout, Tidy config p → Tidy config (p.run inputs).1 := by
  induction inputs with
  | nil =>
      intro p h
      exact h
  | cons input inputs ih =>
      intro p h
      refine ih (p.step input).1 ?_
      cases input with
      | flush => exact tidy_flush p config h
      | push received => exact tidy_push p config received h

/-- Playout begins anew only if there is a frame to measure from. So it makes no difference
    that the queue first takes down the time of the frame, which is done for a queue without
    a time. -/
theorem known_of_restarts (p : Playout) (config : PlayoutConfig) (received : Received)
    (h : Tidy config p) (hrestarts : p.restarts (.push received) = true) :
    (p.known received.frame).flush.2 = p.flush.2 := by
  cases hnext : p.next with
  | some start => simp only [known, flush, drain, hnext, Option.getD_some]
  | none =>
      -- Without a media time the frame is the first one, which is no restart.
      have hplace : p.place received.frame = .slot 0 := by
        simp only [place, hnext, Option.getD_none, slotDistance_self, h.ssrc_of_next hnext,
          Option.any_none, Bool.false_or, Nat.not_lt_zero, gt_iff_lt, decide_false,
          Bool.false_eq_true, if_false]
      simp only [restarts, hplace, Bool.false_eq_true] at hrestarts

/-- Cut at every restart, the slots of a run follow each other without holes or
    repeats, each stretch but the first one from the frame at which playout
    began anew. Wherever a run has led, the next push and the next flush end,
    with no more pending than the delay and with nothing; and if the push makes
    playout begin anew, it returns what was pending first. -/
theorem timeline_continuous (config : PlayoutConfig) (inputs : List Input) :
    let playout : Playout := { config }
    let p := (playout.run inputs).1
    let events := (playout.run inputs).2
    (playout.stretches inputs).flatten = events.filterMap Event.played? ∧
      (playout.stretches inputs).length
        = (({} : PlayoutStats).afterAll events).resyncs + 1 ∧
      (∀ slots ∈ playout.stretches inputs,
        slots.IsChain fun a b => b.timestamp = a.timestamp + slotSamples) ∧
      List.Forall₂ (fun slots time => ∀ first ∈ slots.head?, first.timestamp = time)
        (playout.stretches inputs).tail (events.filterMap Event.restartedAt?) ∧
      (∀ received, Pushes p received (p.push received).2 (p.push received).1 ∧
        (p.push received).1.pending ≤ config.delay ∧
        (p.restarts (.push received) = true → ∃ distance behind later, (p.push received).2
          = .restarted received.frame.ssrc received.frame.timestamp distance behind
            :: (p.flush.2 ++ later))) ∧
      Empties p p.flush.2 p.flush.1 ∧ p.flush.1.pending = 0 ∧
      (p.flush.2.filterMap Event.played?).length = p.pending := by
  intro playout p events
  have htidy : Tidy config p :=
    tidy_run config inputs playout ⟨rfl, Nat.zero_le _, fun _ => rfl, fun _ => rfl⟩
  rcases stretches_steady inputs playout with
    ⟨first, others, start, stop, hcut, _, hfirst, hothers⟩
  -- What holds of each stretch is taken apart, as chains and as first slots.
  rcases (List.forall₂_and_left _ _).mp (hothers.imp fun _ _ ⟨_, hsteady⟩ =>
    ⟨hsteady.isChain, hsteady.head⟩) with ⟨hchains, hheads⟩
  refine ⟨flatten_stretches inputs playout, ?_, ?_, ?_, ?_, empties_flush p,
    pending_flush p config htidy, length_flush p config htidy⟩
  · rw [hcut, List.length_cons, hothers.length_eq, resyncs_afterAll]
    exact congrArg (· + 1) (Nat.zero_add _).symm
  · intro slots hslots
    rw [hcut, List.mem_cons] at hslots
    rcases hslots with rfl | hslots
    · exact hfirst.isChain
    · exact hchains slots hslots
  · rw [hcut, List.tail_cons]
    exact hheads
  · intro received
    refine ⟨pushes_push p received, (tidy_push p config received htidy).pending_le, ?_⟩
    intro hrestarts
    rcases (restarts_push_iff p received).mp hrestarts with ⟨distance, behind, hplace⟩
    rw [push_restart p received distance behind hplace,
      known_of_restarts p config received htidy hrestarts]
    exact ⟨distance, behind, _, rfl⟩

/-- A frame with a packet of one interval, without redundant blocks. -/
def beat (ssrc timestamp : UInt32) : Received where
  frame := { sequence := 0, timestamp, ssrc, payloadType := 111, payload := [0x08] }
  blocks := []
  report := none

/-- Four intervals around the point where media time wraps, without the frame
    of the second one. -/
def beats : List Input :=
  [.push (beat 9 0xFFFFF880), .push (beat 9 0), .push (beat 9 0x3C0)]

/-- Another stream takes over while two slots are pending, which are played before it. That
    it is another one is enough for playout to begin anew, whatever its media time. -/
theorem timeline_beats :
    let p := (({ config := { delay := 2 } } : Playout).run beats).1
    p.restarts (.push (beat 7 5000)) = true ∧ p.pending = 2 ∧
      p.flush.2.filterMap Event.played?
        = [⟨0, .primary, 960⟩, ⟨0x3C0, .primary, 960⟩] ∧
      ∃ distance behind later, (p.push (beat 7 5000)).2
        = .restarted 7 5000 distance behind :: (p.flush.2 ++ later) := by
  intro p
  have hrestarts : p.restarts (.push (beat 7 5000)) = true := by decide
  rcases timeline_continuous { delay := 2 } beats with ⟨_, _, _, _, hpush, _⟩
  exact ⟨hrestarts, by decide, by decide, (hpush (beat 7 5000)).2.2 hrestarts⟩

end Playout

end Reception

end RedundantAudio
