import RedundantAudio.Reception.Listener

/-!
# What a Listener Counts

A listener hands a frame to its receiver and whatever comes out of that to
playout. The counters of playout are read off the events, so over a run they
are a function of everything that happened (`stats_run`), and a claim about
them is a claim about the list of events.

## Theorems

* `handle_dropped`, `handle_received`: What becomes of a frame.
* `stats_run`: The counters behind a run.
* `afterAll_played`: Slots that are played are no trouble.
-/

namespace RedundantAudio

namespace Reception

namespace Listener

theorem afterAll_cons (stats : PlayoutStats) (event : Event) (events : List Event) :
    stats.afterAll (event :: events) = (stats.after event).afterAll events :=
  rfl

theorem afterAll_append (stats : PlayoutStats) (xs ys : List Event) :
    stats.afterAll (xs ++ ys) = (stats.afterAll xs).afterAll ys :=
  List.foldl_append

/-- A frame that is not handed on counts as dropped, and nothing is played for it. -/
theorem handle_dropped (l : Listener) (frame : Rtp.Frame)
    (h : (l.receiver.receive frame).2 = none) :
    l.handle frame
      = ({ l with receiver := (l.receiver.receive frame).1, tally := l.tally.count none }, {}) := by
  rw [handle, play]
  split
  next next received events heq =>
    simp only [h, Prod.mk.injEq] at heq
    rcases heq with ⟨rfl, rfl, rfl⟩
    rfl

/-- A frame that is handed on goes to playout, and its report to whoever listens. What was
    made to happen goes to the counters as well as to the outcome. -/
theorem handle_received (l : Listener) (frame : Rtp.Frame) (received : Received)
    (h : (l.receiver.receive frame).2 = some received) :
    l.handle frame
      = ({ receiver := (l.receiver.receive frame).1
           playout := (l.playout.push received).1
           tally := l.tally.count (some received)
           stats := l.stats.afterAll (l.playout.push received).2 },
          { events := (l.playout.push received).2, report := received.report }) := by
  rw [handle, play]
  split
  next next received' events heq =>
    simp only [h, Prod.mk.injEq] at heq
    rcases heq with ⟨rfl, rfl, rfl⟩
    rfl

/-- The counters behind one input are those before it and what it made happen. -/
theorem stats_step (l : Listener) (input : Input) :
    (l.step input).1.stats = l.stats.afterAll (l.step input).2.events := by
  cases input with
  | flush => rfl
  | frame frame =>
      rw [step]
      cases h : (l.receiver.receive frame).2 with
      | none =>
          rw [handle_dropped l frame h]
          rfl
      | some received => rw [handle_received l frame received h]

/-- The counters of playout are those of everything that happened, by induction on the
    inputs. So whatever is shown of the events can be read off the counters. -/
theorem stats_run (inputs : List Input) :
    ∀ l : Listener,
      (l.run inputs).1.stats = l.stats.afterAll ((l.run inputs).2.flatMap (·.events)) := by
  induction inputs with
  | nil =>
      intro l
      rfl
  | cons input inputs ih =>
      intro l
      -- The first input is taken off, and the rest starts from its counters.
      rw [run, List.flatMap_cons, afterAll_append, ← stats_step]
      exact ih (l.step input).1

/-- Playing slots is not what the counters of trouble count. -/
theorem afterAll_played (slots : List Played) :
    ∀ stats : PlayoutStats,
      (stats.afterAll (slots.map .played)).late = stats.late ∧
      (stats.afterAll (slots.map .played)).duplicates = stats.duplicates ∧
      (stats.afterAll (slots.map .played)).resyncs = stats.resyncs ∧
      (stats.afterAll (slots.map .played)).decodeErrors = stats.decodeErrors := by
  induction slots with
  | nil =>
      intro stats
      exact ⟨rfl, rfl, rfl, rfl⟩
  | cons slot slots ih =>
      intro stats
      rcases ih (stats.after (.played slot)) with ⟨hlate, hduplicates, hresyncs, herrors⟩
      -- A slot counts by its origin, which is none of the four.
      rw [List.map_cons, afterAll_cons, hlate, hduplicates, hresyncs, herrors, PlayoutStats.after]
      cases slot.origin <;> exact ⟨rfl, rfl, rfl, rfl⟩

end Listener

end Reception

end RedundantAudio
