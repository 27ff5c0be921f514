import Mathlib.Data.List.Chain
import Mathlib.Data.List.Find
import Mathlib.Data.List.Induction
import Mathlib.Tactic.SplitIfs
import RedundantAudio.Proofs.Redundancy.Selection

/-!
# What a History Keeps

A history drops entries from the front, by an age that is a difference of two
media times on a clock of 32 bits. That is not the same as keeping what is
young. An entry behind one that stays is not looked at, and an age that has
gone round the clock looks small again.

Both are a matter of media time running forward in steps that are not too
large. An `Update` has its media time as a number that does not wrap, and only
the number is asked to grow. Then the entries stand in the order of their ages,
and no age reaches the length of the clock before it is looked at, because what
was kept at one update is young there and the next one is not far. Dropping
from the front is then filtering by age (`youngEnough_eq`), and the rest is what
an update adds.

The cap is the other thing that takes entries away, all at once. `sinceClear` is
what a run has seen since that last happened, with unimportant updates and old
ones among it. So what is kept at any time is what is young and important in
there. Where media time jumps or runs backwards, less is certain: there are
never more entries than the cap allows, and what there is stands in the order in
which it came.

## Main definitions

* `Update`: What a history is told, at a media time that does not wrap.
* `behind`: The history behind some updates.
* `clears`: Whether an update starts the history afresh.
* `sinceClear`: The updates since that last happened.
* `young`: The important ones that have not reached an age.
* `Paced`: Media time runs forward, in steps that are not too large.

## Theorems

* `length_entries_le`, `entries_sublist`: What holds at any pace.
* `toNat_sub_ofNat`: Ages are told on the clock.
* `youngEnough_eq`: What is dropped at an update.
* `entries_concat`: What an update leaves.
* `youngEnough_behind`, `entries_behind`: The same for a run.
* `clears_behind`: When a history starts afresh.
* `find_behind`, `of_find_behind`: What a history gives for a media time.
* `content_behind`: What a history holds, finds and forgets.
-/

namespace RedundantAudio

namespace Redundancy

namespace History

/-- What a history is told, at a media time that does not wrap. -/
structure Update where
  /-- The media time. -/
  time : Nat
  /-- The encoding. -/
  payload : Bytes
  /-- Whether it is worth repeating. -/
  important : Bool
  deriving DecidableEq, Repr

namespace Update

/-- The media time on the clock. -/
def timestamp (u : Update) : UInt32 :=
  .ofNat u.time

/-- What is stored of an update. -/
def entry (u : Update) : Entry :=
  ⟨u.timestamp, u.payload⟩

end Update

/-- The history behind an update. -/
def told (h : History) (u : Update) : History :=
  h.update u.timestamp u.payload u.important

/-- The history behind some updates. -/
def behind (h : History) (updates : List Update) : History :=
  updates.foldl told h

/-- Whether an update starts the history afresh. -/
def clears (h : History) (u : Update) : Bool :=
  u.important && h.isFull u.timestamp

/-- The updates since the last one that started the history afresh, and that one
    as well. What came before the first of them is given. -/
def since (h : History) (earlier : List Update) : List Update → List Update
  | [] => earlier
  | u :: updates => since (h.told u) (if h.clears u then [u] else earlier ++ [u]) updates

/-- The same from the beginning. -/
def sinceClear (h : History) (updates : List Update) : List Update :=
  since h [] updates

/-- The important updates that have not reached an age at a media time. -/
def young (maxAge : UInt32) (time : Nat) (updates : List Update) : List Update :=
  updates.filter fun u => u.important && time < u.time + maxAge.toNat

/-- Media time runs forward, in steps that do not reach around the clock with the
    age of what is kept. -/
def Paced (maxAge : UInt32) (updates : List Update) : Prop :=
  updates.IsChain fun a b => a.time ≤ b.time ∧ b.time < a.time + (2 ^ 32 - maxAge.toNat)

variable (h : History) (updates : List Update) (u : Update)

/-- The last update is told to the history that the others have left. Runs are taken apart
    at their end, where the newest update decides what is young. -/
@[simp]
theorem behind_concat : h.behind (updates ++ [u]) = (h.behind updates).told u := by
  rw [behind, List.foldl_append]
  rfl

theorem behind_params :
    (h.behind updates).maxSize = h.maxSize ∧ (h.behind updates).maxAge = h.maxAge := by
  induction updates using List.reverseRecOn with
  | nil => exact ⟨rfl, rfl⟩
  | append_singleton updates u ih =>
      rw [behind_concat]
      exact ih

/-- The last update clears the list, or joins it at the end. What was given to start with
    plays no part in this. -/
theorem since_concat (earlier : List Update) :
    since h earlier (updates ++ [u])
      = if (h.behind updates).clears u then [u] else since h earlier updates ++ [u] := by
  induction updates generalizing h earlier with
  | nil => rfl
  | cons first updates ih => exact ih _ _

theorem sinceClear_concat :
    h.sinceClear (updates ++ [u])
      = if (h.behind updates).clears u then [u] else h.sinceClear updates ++ [u] :=
  h.since_concat updates u []

/-- What was seen since the history was cleared came last. -/
theorem sinceClear_suffix : h.sinceClear updates <:+ updates := by
  induction updates using List.reverseRecOn with
  | nil => exact List.suffix_rfl
  | append_singleton updates u ih =>
      rw [sinceClear_concat]
      split
      · exact List.suffix_append updates [u]
      · obtain ⟨front, hfront⟩ := ih
        exact ⟨front, by rw [← List.append_assoc, hfront]⟩

theorem Paced.pairwise {maxAge : UInt32} {updates : List Update} (hpaced : Paced maxAge updates) :
    updates.Pairwise fun a b => a.time ≤ b.time :=
  (List.isChain_iff_pairwise (R := fun a b : Update => a.time ≤ b.time)).mp
    (hpaced.imp fun _ _ hab => hab.1)

theorem Paced.le_last {maxAge : UInt32} {before : List Update} {u v : Update}
    (hpaced : Paced maxAge (before ++ [u])) (hv : v ∈ before ++ [u]) : v.time ≤ u.time := by
  rcases List.mem_append.mp hv with hv | hv
  · exact (List.pairwise_append.mp hpaced.pairwise).2.2 v hv u (List.mem_singleton_self u)
  · exact (List.mem_singleton.mp hv) ▸ le_rfl

/-! ### At any pace -/

theorem length_youngEnough_le (timestamp : UInt32) :
    (h.youngEnough timestamp).length ≤ h.entries.length :=
  (List.dropWhile_sublist _).length_le

/-- There are no more entries than the cap allows, and one at least if there is no cap to
    speak of. An entry is added only where the others leave room, or else it is alone. -/
theorem length_entries_le (hstart : h.entries = []) :
    (h.behind updates).entries.length ≤ max h.maxSize 1 := by
  induction updates using List.reverseRecOn with
  | nil =>
      rw [behind, List.foldl_nil, hstart]
      exact Nat.zero_le _
  | append_singleton updates u ih =>
      have hsize := (h.behind_params updates).1
      have hyoung := length_youngEnough_le (h.behind updates) u.timestamp
      rw [behind_concat, told, update]
      dsimp only
      -- The update is of no importance, or clears the history, or is added to it.
      split_ifs with hskip hfull
      · exact hyoung.trans ih
      · exact Nat.le_max_right _ _
      · simp only [isFull, hsize, decide_eq_true_eq, not_lt] at hfull
        rw [List.length_append, List.length_singleton]
        omega

/-- What is stored was important, and stands in the order in which it came. Whatever happens
    to the clock, the history only drops entries, clears them all, or adds one at the end. -/
theorem entries_sublist (hstart : h.entries = []) :
    (h.behind updates).entries.Sublist
      ((updates.filter fun u => u.important).map Update.entry) := by
  induction updates using List.reverseRecOn with
  | nil =>
      rw [behind, List.foldl_nil, hstart]
      exact List.nil_sublist _
  | append_singleton updates u ih =>
      have hyoung : ((h.behind updates).youngEnough u.timestamp).Sublist _ :=
        (List.dropWhile_sublist _).trans ih
      rw [List.filter_append, List.map_append, behind_concat, told, update]
      dsimp only
      split_ifs with hskip hfull
      · exact hyoung.trans (List.sublist_append_left _ _)
      · -- Of a history that was cleared, only the last update is left.
        rw [Bool.not_eq_true', Bool.not_eq_false] at hskip
        rw [List.filter_cons_of_pos hskip]
        exact List.sublist_append_right _ _
      · rw [Bool.not_eq_true', Bool.not_eq_false] at hskip
        rw [List.filter_cons_of_pos hskip]
        exact hyoung.append_right _

/-! ### At a steady pace -/

theorem toNat_sub_ofNat {earlier later : Nat} (hle : earlier ≤ later)
    (hlt : later < earlier + 2 ^ 32) :
    (UInt32.ofNat later - .ofNat earlier).toNat = later - earlier := by
  rw [← UInt32.ofNat_sub hle]
  exact UInt32.toNat_ofNat_of_lt' (by change _ < 2 ^ 32; omega)

theorem mem_young {maxAge : UInt32} {time : Nat} {v : Update} :
    v ∈ young maxAge time updates ↔
      v ∈ updates ∧ v.important = true ∧ time < v.time + maxAge.toNat := by
  rw [young, List.mem_filter, Bool.and_eq_true, decide_eq_true_eq]

/-- What is young later on is young already. -/
theorem young_young (maxAge : UInt32) {earlier later : Nat} (hle : earlier ≤ later) :
    young maxAge later (young maxAge earlier updates) = young maxAge later updates := by
  rw [young, young, List.filter_filter]
  refine List.filter_congr fun v _ => ?_
  rw [Bool.eq_iff_iff]
  simp only [Bool.and_eq_true, decide_eq_true_eq]
  exact ⟨fun hv => hv.1, fun hv => ⟨hv, hv.1, by omega⟩⟩

theorem young_concat (maxAge : UInt32) (time : Nat) :
    young maxAge time (updates ++ [u])
      = young maxAge time updates ++ young maxAge time [u] :=
  List.filter_append _ _

theorem young_singleton {maxAge : UInt32} (hage : 0 < maxAge.toNat) :
    young maxAge u.time [u] = if u.important then [u] else [] := by
  have hnow : u.time < u.time + maxAge.toNat := by omega
  rw [young, List.filter_singleton, decide_eq_true hnow, Bool.and_true]
  exact Bool.cond_eq_ite _ _ _

variable {h u}

/-- Where the entries are those that were young at the update before, and this one is not
    far, what is dropped is what is not young any more. The history stops at the first entry
    that is young enough, which is right because time has run forward, and it computes ages
    that wrap, which is right because none of the entries is a turn of the clock away. -/
theorem youngEnough_eq {v : Update} (hage : 0 < h.maxAge.toNat)
    (hentries : h.entries = (young h.maxAge v.time updates).map Update.entry)
    (hsorted : updates.Pairwise fun a b => a.time ≤ b.time) (hlast : ∀ w ∈ updates, w.time ≤ v.time)
    (hle : v.time ≤ u.time) (hlt : u.time < v.time + (2 ^ 32 - h.maxAge.toNat)) :
    h.youngEnough u.timestamp = (young h.maxAge u.time updates).map Update.entry := by
  have hclock := h.maxAge.toNat_lt
  rw [youngEnough_map h u.timestamp Update.entry _
    (fun w => w.time + h.maxAge.toNat ≤ u.time) hentries, ← young_young updates _ hle]
  · rw [young.eq_def _ u.time]
    congr 1
    refine List.filter_congr fun w hw => ?_
    rw [← decide_not, ((mem_young _).mp hw).2.1, Bool.true_and, decide_eq_decide, Nat.not_le]
  · -- Nothing that was kept has gone round the clock, so it is old exactly if it looks old.
    intro w hw
    rw [mem_young] at hw
    have hback := hlast w hw.1
    rw [decide_eq_decide, ge_iff_le, UInt32.le_iff_toNat_le, Update.entry,
      Update.timestamp, Update.timestamp, toNat_sub_ofNat (by omega) (by omega)]
    omega
  · -- Time runs forward, so nothing old stands behind something young.
    refine (hsorted.filter _).imp fun {a b} hab hb => ?_
    rw [decide_eq_true_eq] at hb ⊢
    omega

/-- What an update leaves is what was young before it, and what it adds. If it finds the
    history full and is important, it is alone; the list since the last clearing says the
    same. -/
theorem entries_concat {before : List Update} (hage : 0 < h.maxAge.toNat)
    (hyoung : (h.behind before).youngEnough u.timestamp
      = (young h.maxAge u.time (h.sinceClear before)).map Update.entry) :
    (h.behind (before ++ [u])).entries
      = (young h.maxAge u.time (h.sinceClear (before ++ [u]))).map Update.entry := by
  rw [behind_concat, sinceClear_concat, told, update, clears]
  dsimp only
  -- What is of no importance neither clears the history nor adds to it.
  cases himportant : u.important with
  | false =>
      simp only [Bool.not_false, if_true, Bool.false_and, Bool.false_eq_true, if_false]
      rw [hyoung, young_concat, young_singleton u hage, himportant]
      simp only [Bool.false_eq_true, if_false, List.append_nil]
  | true =>
      simp only [Bool.not_true, Bool.false_eq_true, if_false, Bool.true_and]
      by_cases hfull : (h.behind before).isFull u.timestamp = true
      · rw [if_pos hfull, if_pos hfull, young_singleton u hage, himportant]
        rfl
      · rw [if_neg hfull, if_neg hfull, hyoung, young_concat, young_singleton u hage, himportant,
          List.map_append]
        rfl

/-- At a steady pace, what is young enough at an update is what is young and was
    seen since the history was cleared. By induction on what came before: the
    last of it has left what was young then. -/
theorem youngEnough_behind (hage : 0 < h.maxAge.toNat) (before : List Update) (u : Update)
    (hpaced : Paced h.maxAge (before ++ [u])) (hstart : h.entries = []) :
    (h.behind before).youngEnough u.timestamp
      = (young h.maxAge u.time (h.sinceClear before)).map Update.entry := by
  induction before using List.reverseRecOn generalizing u with
  | nil =>
      rw [behind, List.foldl_nil, youngEnough, hstart]
      rfl
  | append_singleton before v ih =>
      have hclock : (h.behind (before ++ [v])).maxAge = h.maxAge := (h.behind_params _).2
      rcases List.isChain_append.mp hpaced with ⟨hbefore, _, hnext⟩
      have hstep := hnext v List.getLast?_concat u rfl
      have hseen := h.sinceClear_suffix (before ++ [v])
      -- What the update before has left is known by the induction.
      have hentries := entries_concat hage (ih v hbefore)
      rw [← hclock] at hage hstep hentries ⊢
      exact youngEnough_eq _ hage hentries ((Paced.pairwise hbefore).sublist hseen.sublist)
        (fun w hw => Paced.le_last hbefore (hseen.mem hw)) hstep.1 hstep.2

section AtPace

variable {before : List Update} (hage : 0 < h.maxAge.toNat)
  (hpaced : Paced h.maxAge (before ++ [u])) (hstart : h.entries = [])

include hage hpaced hstart

/-- What is left is what is young and important among what was seen since the
    history was cleared. -/
theorem entries_behind :
    (h.behind (before ++ [u])).entries
      = (young h.maxAge u.time (h.sinceClear (before ++ [u]))).map Update.entry :=
  entries_concat hage (youngEnough_behind hage before u hpaced hstart)

/-- A history is cleared by something important that finds it full. -/
theorem clears_behind :
    (h.behind before).clears u = true ↔
      u.important = true ∧ h.maxSize ≤ (young h.maxAge u.time (h.sinceClear before)).length := by
  rw [clears, Bool.and_eq_true, isFull, youngEnough_behind hage before u hpaced hstart,
    List.length_map, (h.behind_params before).1, decide_eq_true_eq, gt_iff_lt, Nat.lt_succ_iff]

/-- A search of the history is a search among what is young. -/
theorem find_behind (timestamp : UInt32) :
    (h.behind (before ++ [u])).find timestamp
      = ((young h.maxAge u.time (h.sinceClear (before ++ [u]))).find? fun v =>
          v.timestamp = timestamp).map Update.entry := by
  rw [find, entries_behind hage hpaced hstart, List.find?_map]
  rfl

/-- A media time on the clock stands for one that does not wrap, up to a turn of
    the clock back. -/
theorem find_behind_ofNat (time : Nat) (hle : time ≤ u.time) (hlt : u.time < time + 2 ^ 32) :
    (h.behind (before ++ [u])).find (.ofNat time)
      = ((young h.maxAge u.time (h.sinceClear (before ++ [u]))).find? fun v =>
          v.time = time).map Update.entry := by
  rw [find_behind hage hpaced hstart]
  congr 1
  refine List.find?_congr fun v hv => ?_
  rcases (mem_young _).mp hv with ⟨hseen, _, hyoung⟩
  have hclock := h.maxAge.toNat_lt
  have hle' := hpaced.le_last ((h.sinceClear_suffix _).mem hseen)
  -- Both times are no further than a turn of the clock behind the update.
  rw [decide_eq_decide, Update.timestamp, ← UInt32.sub_right_inj (.ofNat u.time),
    ← UInt32.toNat_inj, toNat_sub_ofNat hle' (by omega), toNat_sub_ofNat hle hlt]
  omega

/-- What is found was worth repeating, and has not reached the age at which it leaves. Both
    in numbers that do not wrap and on the clock, so that a caller who computes with media
    times has the bound in the form in which it is needed. -/
theorem of_find_behind {timestamp : UInt32} {e : Entry}
    (hfind : (h.behind (before ++ [u])).find timestamp = some e) :
    ∃ v ∈ young h.maxAge u.time (h.sinceClear (before ++ [u])),
      v.entry = e ∧ e.timestamp = timestamp ∧ v.important = true ∧ v.time ≤ u.time ∧
        u.time < v.time + h.maxAge.toNat ∧ u.timestamp - e.timestamp < h.maxAge := by
  rw [find_behind hage hpaced hstart] at hfind
  rcases Option.map_eq_some_iff.mp hfind with ⟨v, hv, rfl⟩
  have hmem := List.mem_of_find?_eq_some hv
  have htime := List.find?_some hv
  -- The rest is what it means to be young, told once in plain numbers and once on the
  -- clock.
  rcases (mem_young _).mp hmem with ⟨hseen, himportant, hage'⟩
  have hle := hpaced.le_last ((h.sinceClear_suffix _).mem hseen)
  have hclock := h.maxAge.toNat_lt
  refine ⟨v, hmem, rfl, of_decide_eq_true htime, himportant, hle, hage', ?_⟩
  rw [UInt32.lt_iff_toNat_lt, Update.entry, Update.timestamp, Update.timestamp,
    toNat_sub_ofNat hle (by omega)]
  omega

end AtPace

/-- What a history holds, finds and forgets. At any pace there are no more
    entries than the cap allows, all of them important and in the order in which
    they came. At a steady pace the entries are the important updates since the
    history was last cleared that have not reached the age, and it is cleared
    when something important finds as many of these as the cap. -/
theorem content_behind (maxSize : Nat) (maxAge : UInt32) (hage : 1 ≤ maxAge.toNat)
    (updates : List Update) :
    let h : History := { maxSize, maxAge }
    (h.behind updates).entries.length ≤ max maxSize 1 ∧
    (h.behind updates).entries.Sublist
      ((updates.filter fun v => v.important).map Update.entry) ∧
    (Paced maxAge updates → ∀ before u, updates = before ++ [u] →
      let kept := young maxAge u.time (h.sinceClear updates)
      (h.behind updates).entries = kept.map Update.entry ∧
      ((h.behind before).clears u = true ↔
        u.important = true ∧ maxSize ≤ (young maxAge u.time (h.sinceClear before)).length) ∧
      (∀ timestamp, (h.behind updates).find timestamp
        = (kept.find? fun v => v.timestamp = timestamp).map Update.entry) ∧
      (∀ time, time ≤ u.time → u.time < time + 2 ^ 32 →
        (h.behind updates).find (.ofNat time)
          = (kept.find? fun v => v.time = time).map Update.entry) ∧
      ∀ timestamp e, (h.behind updates).find timestamp = some e →
        ∃ v ∈ kept, v.entry = e ∧ e.timestamp = timestamp ∧ v.important = true ∧
          v.time ≤ u.time ∧ u.time < v.time + maxAge.toNat ∧
          u.timestamp - e.timestamp < maxAge) := by
  intro h
  refine ⟨h.length_entries_le updates rfl, h.entries_sublist updates rfl, ?_⟩
  -- The size and the order hold of any updates; the contents are known when they are paced.
  rintro hpaced before u rfl
  exact ⟨entries_behind hage hpaced rfl, clears_behind hage hpaced rfl,
    find_behind hage hpaced rfl, find_behind_ofNat hage hpaced rfl,
    fun _ _ => of_find_behind (h := h) hage hpaced rfl⟩

/-- Five packets on the way around the clock, the second of them of no
    importance, where there is room for two. -/
def crossing : List Update :=
  [⟨2 ^ 32 - 1920, [1], true⟩, ⟨2 ^ 32 - 960, [2], false⟩, ⟨2 ^ 32, [3], true⟩,
    ⟨2 ^ 32 + 960, [4], true⟩, ⟨2 ^ 32 + 1920, [5], true⟩]

/-- The fourth packet finds no room and the fifth one beside it does. Media time wraps
    between the second packet and the third, and nothing is lost or kept too long because of
    it. -/
theorem content_behind_crossing :
    1 ≤ (4800 : UInt32).toNat ∧ Paced 4800 crossing ∧
    (behind { maxSize := 2, maxAge := 4800 } crossing).entries = [⟨960, [4]⟩, ⟨1920, [5]⟩] := by
  have hpaced : Paced 4800 crossing := by
    rw [Paced, crossing]
    decide
  have hcontent := content_behind 2 4800 (by decide) crossing
  refine ⟨by decide, hpaced, ?_⟩
  rw [(hcontent.2.2 hpaced (crossing.take 4) ⟨2 ^ 32 + 1920, [5], true⟩ rfl).1]
  rfl

end History

end Redundancy

end RedundantAudio
