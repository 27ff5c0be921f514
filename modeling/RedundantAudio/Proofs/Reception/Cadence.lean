import RedundantAudio.Proofs.Loss.Entries
import RedundantAudio.Proofs.Reception.Accounting

/-!
# The Cadence of Reports

A report is due when an interval has passed since the last one. How much has passed is
the difference of two media times, and a difference of words has no sign: a packet from
just before the last one that reported seems to be almost the whole range of the clock
ahead of it. So such a packet reports at once. From then on the interval is measured from
this packet, which is a little too early, until the next report.

Seen from the last packet that reported, it depends on the side where a packet is whether
it reports, and `DueAfter` says when. The state of the tracker comes into it with a single
field, the time of the last report, and that is the time of the last packet on the list
of those that did.

## Main definitions

* `DueAfter`: Whether a packet reports, by the last one that did.
* `Paced`: How far apart two packets are that report one after the other.
* `Within`: Packets that arrive in any order, but not too late.
* `Carries`: A frame that brings a packet.
* `Receiver.reporters`: The packets that bring a report.
* `Receiver.OnTime`: What is known of the last report.

## Theorems

* `due_packetTime_iff`: What the difference of two media times says.
* `onTime_concat`, `onTime`: What is known stays known.
* `handed_iff_of_onTime`: When a packet brings a report.
* `report_cadence`: How far apart reports are.
* `late_packet_reports`: A report that comes too soon.
-/

namespace RedundantAudio

namespace Reception

/-- Whether the packet `n` reports when the packet `last` was the last one that did: it is
    ahead by an interval, up to whole turns of the clock, or it is behind and the
    interval does not reach around the clock. -/
def DueAfter (interval : UInt32) (last n : Nat) : Prop :=
  last ≤ n ∧ interval.toNat ≤ 960 * (n - last) % 2 ^ 32 ∨
    n < last ∧ interval.toNat + 960 * (last - n) ≤ 2 ^ 32

/-- Packets that arrive in any order, none of them more than `distance` numbers behind the
    newest before it. -/
def Within (distance : Nat) (arrivals : List Nat) : Prop :=
  ∀ before n after, arrivals = before ++ n :: after → Loss.newestOf before ≤ n + distance

/-- A frame brings the packet `n` of a stream, as far as a receiver is concerned: it is a
    redundant packet that can be taken apart, at the media time of the packet, and it
    is not too large. -/
structure Carries (r : Receiver) (ssrc start : UInt32) (n : Nat) (frame : Rtp.Frame) : Prop where
  ssrc_eq : frame.ssrc = ssrc
  decodes : r.decodes frame = true
  timestamp_eq : frame.timestamp = Red.packetTime start n
  size_le : frame.payload.length ≤ Red.payloadLimit

/-- How far apart the packets `last` and `n` are when the one reports right after the other:
    an interval, or the second is up to sixteen packets older. -/
def Paced (interval : UInt32) (last n : Nat) : Prop :=
  last ≤ n ∧ interval.toNat ≤ 960 * (n - last) ∨
    n < last ∧ last ≤ n + 16 ∧ interval.toNat + 960 * (last - n) ≤ 2 ^ 32

/-- A packet that is due and not far behind is an interval later, or it is older. The clock
    may have turned meanwhile, which makes the distance only larger. -/
theorem DueAfter.paced {interval : UInt32} {last n : Nat} (h : DueAfter interval last n)
    (hnear : last ≤ n + 16) : Paced interval last n := by
  rcases h with ⟨hle, hinterval⟩ | ⟨hlt, hinterval⟩
  · exact Or.inl ⟨hle, hinterval.trans (Nat.mod_le _ _)⟩
  · exact Or.inr ⟨hlt, hnear, hinterval⟩

theorem within_nil (distance : Nat) : Within distance [] :=
  fun before n after h => absurd h.symm (by simp)

theorem within_concat_iff {distance : Nat} {arrivals : List Nat} {n : Nat} :
    Within distance (arrivals ++ [n]) ↔
      Within distance arrivals ∧ Loss.newestOf arrivals ≤ n + distance :=
  Red.forall_split_concat_iff

/-- Whether an interval has passed is computed from the difference of two media times. That
    is `DueAfter`, as long as the second packet is not far behind the first. -/
theorem due_packetTime_iff (interval start : UInt32) (last n : Nat) (hnear : last ≤ n + 16) :
    interval ≤ Red.packetTime start n - Red.packetTime start last ↔ DueAfter interval last n := by
  rw [UInt32.le_iff_toNat_le, DueAfter]
  by_cases hle : last ≤ n
  · -- What is left of the difference is the distance up to whole turns of the clock.
    rw [Red.packetTime_sub start last n hle, UInt32.toNat_ofNat']
    omega
  · -- The difference has wrapped.
    rw [Red.toNat_packetTime_sub_ahead start n last (by omega) (by omega)]
    omega

/-- A tracker whose last report was that of a packet reports as `DueAfter` says, and always
    when it never did. -/
theorem reportDue_iff {t : Loss.Tracker} {last : Option Nat} {start : UInt32} {n : Nat}
    (hlast : t.lastReport = last.map (Red.packetTime start))
    (hnear : ∀ m ∈ last, m ≤ n + 16) :
    t.reportDue (Red.packetTime start n) = true ↔
      ∀ m ∈ last, DueAfter t.config.reportInterval m n := by
  rw [Loss.Tracker.reportDue, hlast]
  cases last with
  | none => simp
  | some m =>
      simp only [Option.map_some, Option.mem_some_iff, forall_eq', ge_iff_le, decide_eq_true_eq]
      exact due_packetTime_iff _ start m n (hnear m rfl)

namespace Receiver

/-- The packets that bring a report, in order. -/
def reporters (r : Receiver) : List (Nat × Rtp.Frame) → List Nat
  | [] => []
  | (n, frame) :: arrivals =>
    if (r.turn frame).handed.isSome then n :: reporters (r.receive frame).1 arrivals
    else reporters (r.receive frame).1 arrivals

/-- One more frame brings a report or not, depending on the receiver behind the others. So a
    run can be followed from its end, where the last report is known. -/
theorem reporters_concat (n : Nat) (frame : Rtp.Frame) (arrivals : List (Nat × Rtp.Frame)) :
    ∀ r : Receiver, r.reporters (arrivals ++ [(n, frame)])
      = r.reporters arrivals
        ++ if ((r.receiveAll (arrivals.map Prod.snd)).turn frame).handed.isSome then [n]
          else [] := by
  induction arrivals with
  | nil =>
      intro r
      rfl
  | cons a arrivals ih =>
      intro r
      have hrest := ih (r.receive a.2).1
      rw [List.cons_append, reporters, reporters, hrest]
      split <;> rfl

/-- Only packets that arrive bring reports. -/
theorem mem_of_mem_reporters {m : Nat} (arrivals : List (Nat × Rtp.Frame)) :
    ∀ r : Receiver, m ∈ r.reporters arrivals → m ∈ arrivals.map Prod.fst := by
  induction arrivals with
  | nil =>
      intro r h
      cases h
  | cons a arrivals ih =>
      intro r h
      rw [reporters] at h
      split at h
      · rcases List.mem_cons.mp h with rfl | h
        · exact List.mem_cons_self
        · exact List.mem_cons_of_mem _ (ih _ h)
      · exact List.mem_cons_of_mem _ (ih _ h)

theorem reachable_receiveAll {r : Receiver} (h : r.Reachable) (frames : List Rtp.Frame) :
    (r.receiveAll frames).Reachable := by
  induction frames using List.reverseRecOn with
  | nil => exact h
  | append_singleton frames frame ih =>
      rw [receiveAll_concat]
      exact .receive _ frame ih

section Stream

variable {opusType redType : UInt8} {config : Loss.TrackerConfig} {ssrc start : UInt32}
  {arrivals : List (Nat × Rtp.Frame)} {n : Nat} {frame : Rtp.Frame}

/-- The time of the last report is that of the last packet that brought one. -/
def OnTime (opusType redType : UInt8) (config : Loss.TrackerConfig) (ssrc start : UInt32)
    (arrivals : List (Nat × Rtp.Frame)) : Prop :=
  let r := new opusType redType config
  ((r.receiveAll (arrivals.map Prod.snd)).trackerFor ssrc).lastReport
    = (r.reporters arrivals).getLast?.map (Red.packetTime start)

/-- Whatever arrives, the trackers of a receiver are tuned as it was made. -/
theorem config_receiveAll (frames : List Rtp.Frame) :
    (((new opusType redType config).receiveAll frames).trackerFor ssrc).config = config := by
  have hreachable := reachable_receiveAll (.new opusType redType config) frames
  rw [hreachable.tuned ssrc]
  induction frames using List.reverseRecOn with
  | nil => rfl
  | append_singleton frames frame ih =>
      rw [receiveAll_concat, config_receive]
      exact ih (reachable_receiveAll (.new opusType redType config) frames)

theorem reporter_near (hnear : Loss.newestOf (arrivals.map Prod.fst) ≤ n + 16) :
    ∀ last ∈ ((new opusType redType config).reporters arrivals).getLast?, last ≤ n + 16 := by
  intro last hlast
  have hmem := mem_of_mem_reporters arrivals _ (List.mem_of_getLast? hlast)
  exact (Loss.le_newestOf _ last hmem).trans hnear

/-- Whether a packet brings a report, when the last report is known to be on time. It is
    compared with the last packet that brought one, by its number and not by its media time. -/
theorem handed_iff_of_onTime (hreports : OnTime opusType redType config ssrc start arrivals)
    (hframe : Carries (new opusType redType config) ssrc start n frame)
    (hnear : Loss.newestOf (arrivals.map Prod.fst) ≤ n + 16) :
    (((new opusType redType config).receiveAll (arrivals.map Prod.snd)).turn frame).handed.isSome
        = true ↔
      ∀ last ∈ ((new opusType redType config).reporters arrivals).getLast?,
        DueAfter config.reportInterval last n := by
  have hsize : isOversize frame = false := decide_eq_false (Nat.not_lt.mpr hframe.size_le)
  -- When the last report was is known by its packet, so it is compared packet by packet.
  have hdue := reportDue_iff (n := n) hreports (reporter_near hnear)
  rw [config_receiveAll] at hdue
  rw [handed_eq_closed hsize, closed_isSome_iff, decodes_receiveAll, hframe.decodes,
    hframe.ssrc_eq, hframe.timestamp_eq, hdue, and_iff_right rfl]

/-- One more packet keeps the last report on time. Either the packet brings it, or the time
    of the last one stays. The first packet of all brings one, so there is a time to count
    from ever after. -/
theorem onTime_concat (hreports : OnTime opusType redType config ssrc start arrivals)
    (hframe : Carries (new opusType redType config) ssrc start n frame) :
    OnTime opusType redType config ssrc start (arrivals ++ [(n, frame)]) := by
  have hsize : isOversize frame = false := decide_eq_false (Nat.not_lt.mpr hframe.size_le)
  have hdecodes : ((new opusType redType config).receiveAll (arrivals.map Prod.snd)).decodes frame
      = true := by
    rw [decodes_receiveAll]
    exact hframe.decodes
  -- The tracker notes a report when it is closed; it is handed on as the frame is not too
  -- large.
  have htracker := trackerFor_receive hdecodes
  have hclosed : (((new opusType redType config).receiveAll (arrivals.map Prod.snd)).turn
      frame).closed.isSome = true ↔ _ := closed_isSome_iff
  rw [hframe.ssrc_eq] at htracker
  rw [hdecodes, hframe.ssrc_eq, and_iff_right rfl] at hclosed
  simp only [OnTime, List.map_append, List.map_cons, List.map_nil, receiveAll_concat,
    reporters_concat, handed_eq_closed hsize, htracker, Loss.Tracker.reported, hclosed]
    at hreports ⊢
  split
  · rw [List.getLast?_concat, Option.map_some, hframe.timestamp_eq]
  · rw [List.append_nil]
    exact hreports

/-- However packets arrive, the time of the last report is that of the last packet that
    brought one. -/
theorem onTime (hframes : ∀ a ∈ arrivals,
    Carries (new opusType redType config) ssrc start a.1 a.2) :
    OnTime opusType redType config ssrc start arrivals := by
  induction arrivals using List.reverseRecOn with
  | nil => rfl
  | append_singleton arrivals a ih =>
      have hbefore := ih fun b hb => hframes b (List.mem_append_left _ hb)
      exact onTime_concat hbefore (hframes a (List.mem_append_right _ List.mem_cons_self))

/-- Packets that report one right after the other are `Paced`, by induction from the back:
    the last two are compared by `handed_iff_of_onTime`. Those between them did not report,
    or they would be the ones right after another. -/
theorem isChain_reporters (hframes : ∀ a ∈ arrivals,
    Carries (new opusType redType config) ssrc start a.1 a.2)
    (horder : Within 16 (arrivals.map Prod.fst)) :
    ((new opusType redType config).reporters arrivals).IsChain
      (Paced config.reportInterval) := by
  induction arrivals using List.reverseRecOn with
  | nil => exact List.isChain_nil
  | append_singleton arrivals a ih =>
      have hbefore := fun b hb => hframes b (List.mem_append_left _ hb)
      rw [List.map_append, List.map_cons, List.map_nil] at horder
      rcases within_concat_iff.mp horder with ⟨horder, hnear⟩
      have hhanded := handed_iff_of_onTime (onTime hbefore)
        (hframes a (List.mem_append_right _ List.mem_cons_self)) hnear
      rw [reporters_concat, List.isChain_append]
      -- What is new is the step from the last packet that reported to this one.
      refine ⟨ih hbefore horder, ?_⟩
      split
      case isTrue h =>
        refine ⟨List.isChain_singleton _, fun last hlast n hn => ?_⟩
        cases hn
        exact (hhanded.mp h last hlast).paced (reporter_near hnear last hlast)
      case isFalse =>
        exact ⟨List.isChain_nil, fun _ _ n hn => absurd hn (Option.not_mem_none n)⟩

end Stream

/-- How reports follow each other when the packets of a stream arrive in any order, none of
    them more than sixteen numbers behind the newest. The first packet brings a report.
    From then on a packet brings one exactly if `DueAfter` has it due after the last one
    that did. So the packets of two reports in a row are an interval apart, unless the
    second is older than the first; then there need be no time between the two, and the
    interval that comes next is measured from the older one. -/
theorem report_cadence (opusType redType : UInt8) (config : Loss.TrackerConfig)
    (ssrc start : UInt32) (arrivals : List (Nat × Rtp.Frame))
    (hframes : ∀ a ∈ arrivals, Carries (new opusType redType config) ssrc start a.1 a.2)
    (horder : Within 16 (arrivals.map Prod.fst)) :
    let r := new opusType redType config
    (r.reporters arrivals).head? = (arrivals.map Prod.fst).head? ∧
      (∀ before n frame after, arrivals = before ++ (n, frame) :: after →
        (((r.receiveAll (before.map Prod.snd)).turn frame).handed.isSome = true ↔
          ∀ last ∈ (r.reporters before).getLast?, DueAfter config.reportInterval last n)) ∧
      (r.reporters arrivals).IsChain (Paced config.reportInterval) := by
  intro r
  have hhanded : ∀ before n frame after, arrivals = before ++ (n, frame) :: after →
      (((r.receiveAll (before.map Prod.snd)).turn frame).handed.isSome = true ↔
        ∀ last ∈ (r.reporters before).getLast?, DueAfter config.reportInterval last n) := by
    rintro before n frame after rfl
    have hbefore := fun b hb => hframes b (List.mem_append_left _ hb)
    refine handed_iff_of_onTime (onTime hbefore)
      (hframes (n, frame) (List.mem_append_right _ List.mem_cons_self)) ?_
    exact horder _ n (after.map Prod.fst) List.map_append
  refine ⟨?_, hhanded, isChain_reporters hframes horder⟩
  cases arrivals with
  | nil => rfl
  | cons a arrivals =>
      -- Nothing was reported before the first packet.
      have hfirst := (hhanded [] a.1 a.2 arrivals rfl).mpr fun last hlast =>
        absurd hlast (Option.not_mem_none last)
      have hturn : (r.turn a.2).handed.isSome = true := hfirst
      rw [reporters, if_pos hturn]
      rfl

/-- The packet before the one that reports comes after it, and reports too, though there is
    one packet between the two. The packet behind both, for which no report is due,
    does not. -/
theorem late_packet_reports :
    let arrivals := [(0, plainFrame 9 0 [111, 8]), (250, plainFrame 9 250 [111, 8]),
      (249, plainFrame 9 249 [111, 8]), (251, plainFrame 9 251 [111, 8])]
    let r := new 111 63 {}
    (∀ a ∈ arrivals, Carries r 9 0 a.1 a.2) ∧
      Within 16 (arrivals.map Prod.fst) ∧
      r.reporters arrivals = [0, 250, 249] ∧
      (r.reporters arrivals).IsChain (Paced 240000) := by
  intro arrivals r
  have hframes : ∀ a ∈ arrivals, Carries r 9 0 a.1 a.2 := by
    simp only [arrivals, List.forall_mem_cons]
    refine ⟨?_, ?_, ?_, ?_, fun a ha => absurd ha List.not_mem_nil⟩ <;>
      exact ⟨rfl, by decide, by decide, by decide⟩
  have horder : Within 16 ((([] ++ [0]) ++ [250]) ++ [249] ++ [251]) := by
    simp only [within_concat_iff]
    exact ⟨⟨⟨⟨within_nil 16, by decide⟩, by decide⟩, by decide⟩, by decide⟩
  exact ⟨hframes, horder, by decide +kernel,
    (report_cadence 111 63 {} 9 0 arrivals hframes horder).2.2⟩

end Receiver

end Reception

end RedundantAudio
