import Mathlib.Algebra.Group.Nat.Defs
import Mathlib.Data.List.Chain
import Mathlib.Data.List.Perm.Subperm
import RedundantAudio.Red.Block

/-!
# The Media Time of a Numbered Packet

A stream that sends one packet in every interval numbers its packets from
zero, and everything worth saying about such a stream is said about numbers.
The code knows nothing of them: it compares and subtracts media times, which
wrap. `packetTime` is the way from one to the other, and each law below says
what a computation on media times means for the numbers.

Two media times are equal when the numbers differ by a multiple of `2 ^ 26`,
since an interval is `15 * 2 ^ 6` samples. So within any window of that many
packets a media time names one packet, and no law asks for more.

## Main definitions

* `packetTime`: The media time of the packet with a number.
* `InOrder`: Packets that arrive in order.

## Theorems

* `packetTime_eq_iff`: When two packets have the same media time.
* `toNat_packetTime_sub`: How far apart two packets are.
* `length_le_of_within`: How many packets there are in a stretch.
* `InOrder.split`: What has arrived before a packet, and what is to come.
-/

namespace RedundantAudio

namespace Red

/-- The media time of the packet with a number, in a stream that begins at
    `start`. -/
def packetTime (start : UInt32) (n : Nat) : UInt32 :=
  start + .ofNat (960 * n)

theorem packetTime_succ (start : UInt32) (n : Nat) :
    packetTime start (n + 1) = packetTime start n + packetInterval := by
  have hinterval : (packetInterval : UInt32) = .ofNat 960 := rfl
  rw [packetTime, packetTime, Nat.mul_succ, UInt32.ofNat_add, hinterval]
  grind

/-- Between two packets lie as many intervals as between their numbers. Media times may
    wrap, and the difference wraps with them. -/
theorem packetTime_sub (start : UInt32) (m n : Nat) (h : m ≤ n) :
    packetTime start n - packetTime start m = .ofNat (960 * (n - m)) := by
  have hsum : 960 * n = 960 * m + 960 * (n - m) := by omega
  rw [packetTime, packetTime, hsum, UInt32.ofNat_add]
  grind

/-- Up to four million packets apart, the distance is a number that did not wrap. This is
    the reach over which a receiver can tell how far packets are from each other. -/
theorem toNat_packetTime_sub (start : UInt32) (m n : Nat) (h : m ≤ n) (hn : n < m + 2 ^ 22) :
    (packetTime start n - packetTime start m).toNat = 960 * (n - m) := by
  have hlt : 960 * (n - m) < 2 ^ 32 := by omega
  rw [packetTime_sub start m n h]
  exact UInt32.toNat_ofNat_of_lt' hlt

/-- The distance to a packet that is ahead, seen from behind. -/
theorem toNat_packetTime_sub_ahead (start : UInt32) (m n : Nat) (h : m < n)
    (hn : n < m + 2 ^ 22) :
    (packetTime start m - packetTime start n).toNat = 2 ^ 32 - 960 * (n - m) := by
  have hback : packetTime start m - packetTime start n = -.ofNat (960 * (n - m)) := by
    rw [← packetTime_sub start m n (by omega)]
    grind
  have hlt : 960 * (n - m) < 2 ^ 32 := by omega
  have hpos : 2 ^ 32 - 960 * (n - m) < 2 ^ 32 := by omega
  rw [hback, UInt32.toNat_neg, UInt32.toNat_ofNat_of_lt' hlt]
  exact Nat.mod_eq_of_lt hpos

/-- Media times repeat after 2 ^ 26 packets, since 960 has six factors of two. -/
theorem packetTime_eq_iff (start : UInt32) (m n : Nat) :
    packetTime start m = packetTime start n ↔ m % 2 ^ 26 = n % 2 ^ 26 := by
  rw [packetTime, packetTime, UInt32.add_right_inj, ← UInt32.toNat_inj, UInt32.toNat_ofNat',
    UInt32.toNat_ofNat']
  omega

/-- Within one turn of the clock, a media time names its packet. -/
theorem packetTime_inj (start : UInt32) (m n : Nat) (h : m < n + 2 ^ 26) (h' : n < m + 2 ^ 26) :
    packetTime start m = packetTime start n ↔ m = n := by
  rw [packetTime_eq_iff]
  omega

/-- What holds of every packet behind those that came before it holds with one packet more
    if it holds of that one. -/
theorem forall_split_concat_iff {α : Type} {P : List α → α → Prop} {l : List α} {x : α} :
    (∀ before y after, l ++ [x] = before ++ y :: after → P before y) ↔
      (∀ before y after, l = before ++ y :: after → P before y) ∧ P l x := by
  constructor
  · refine fun h => ⟨fun before y after heq => h before y (after ++ [x]) ?_, h l x [] rfl⟩
    rw [heq, List.append_assoc, List.cons_append]
  · rintro ⟨h, hlast⟩ before y after heq
    -- The packet in question is the last one, or it stands before that.
    rcases List.eq_nil_or_concat after with rfl | ⟨after, last, rfl⟩
    · rcases List.append_inj' heq rfl with ⟨rfl, hsame⟩
      cases hsame
      exact hlast
    · rw [List.concat_eq_append, ← List.cons_append, ← List.append_assoc] at heq
      exact h before y after (List.append_inj' heq rfl).1

/-- No more packets fit into a stretch of the stream than it is long. -/
theorem length_le_of_within (l : List Nat) (first count : Nat) (hnodup : l.Nodup)
    (h : ∀ n ∈ l, first ≤ n ∧ n < first + count) : l.length ≤ count := by
  -- All of them are in the range, and none is there twice.
  have hsub : l ⊆ List.range' first count := by
    intro n hn
    rw [List.mem_range'_1]
    exact h n hn
  have hle := (List.subperm_of_subset hnodup hsub).length_le
  rw [List.length_range'] at hle
  exact hle

/-- A list without repetitions is as long as there are packets on it. -/
theorem length_eq_countP (l packets : List Nat) (p : Nat → Bool) (hl : l.Nodup)
    (hpackets : packets.Nodup) (h : ∀ m, m ∈ l ↔ m ∈ packets ∧ p m = true) :
    l.length = packets.countP p := by
  have hperm : l.Perm (packets.filter p) := by
    refine (List.perm_ext_iff_of_nodup hl (hpackets.filter p)).mpr fun m => ?_
    rw [h m, List.mem_filter]
  rw [List.countP_eq_length_filter, hperm.length_eq]

/-- The first packet to arrive is known as soon as one has arrived. -/
theorem head?_append_cons (before after : List Nat) (n : Nat) :
    (before ++ n :: after).head? = (before ++ [n]).head? := by
  cases before with
  | nil => rfl
  | cons m before => rfl

theorem head?_of_concat {before : List Nat} {first m n : Nat}
    (hhead : (before ++ [n]).head? = some first) (hm : before.getLast? = some m) :
    before.head? = some first := by
  cases before with
  | nil => cases hm
  | cons k before => exact hhead

/-- Packets that arrive in order, none more than `gap` numbers behind the one
    before it. -/
def InOrder (gap : Nat) (arrivals : List Nat) : Prop :=
  arrivals.IsChain fun m n => m < n ∧ n ≤ m + gap

theorem InOrder.mono {gap gap' : Nat} {arrivals : List Nat} (h : InOrder gap arrivals)
    (hle : gap ≤ gap') : InOrder gap' arrivals :=
  h.imp fun _ _ hstep => ⟨hstep.1, by omega⟩

theorem InOrder.pairwise {gap : Nat} {arrivals : List Nat} (h : InOrder gap arrivals) :
    arrivals.Pairwise (· < ·) :=
  List.isChain_iff_pairwise.mp (h.imp fun _ _ hstep => hstep.1)

/-- What has arrived before a packet is older, and what is to come is newer. -/
theorem InOrder.split {gap : Nat} {before after : List Nat} {n : Nat}
    (h : InOrder gap (before ++ n :: after)) : (∀ m ∈ before, m < n) ∧ ∀ m ∈ after, n < m := by
  have hpair := List.pairwise_append.mp h.pairwise
  exact ⟨fun m hm => hpair.2.2 m hm n List.mem_cons_self,
    fun m hm => (List.pairwise_cons.mp hpair.2.1).1 m hm⟩

theorem InOrder.le_newest {gap : Nat} {before after : List Nat} {n : Nat}
    (h : InOrder gap (before ++ n :: after)) : ∀ m ∈ before ++ [n], m ≤ n := by
  intro m hm
  rcases List.mem_append.mp hm with hold | hnew
  · exact le_of_lt (h.split.1 m hold)
  · exact le_of_eq (List.mem_singleton.mp hnew)

theorem InOrder.le_last {gap : Nat} {arrivals : List Nat} {last : Nat} (h : InOrder gap arrivals)
    (hlast : arrivals.getLast? = some last) : ∀ n ∈ arrivals, n ≤ last := by
  rcases List.getLast?_eq_some_iff.mp hlast with ⟨before, rfl⟩
  exact h.le_newest

theorem InOrder.first_le {gap : Nat} {arrivals : List Nat} {first : Nat} (h : InOrder gap arrivals)
    (hhead : arrivals.head? = some first) : ∀ n ∈ arrivals, first ≤ n := by
  rcases List.head?_eq_some_iff.mp hhead with ⟨after, rfl⟩
  intro n hn
  rcases List.mem_cons.mp hn with rfl | hin
  · exact le_refl n
  · exact le_of_lt ((List.pairwise_cons.mp h.pairwise).1 n hin)

/-- A stream in order has an order without its last packet, which is a step ahead of the one
    before. -/
theorem InOrder.init {gap : Nat} {before : List Nat} {m n : Nat} (h : InOrder gap (before ++ [n]))
    (hlast : before.getLast? = some m) : InOrder gap before ∧ m < n ∧ n ≤ m + gap :=
  ⟨List.IsChain.left_of_append h, (List.isChain_append.mp h).2.2 m hlast n rfl⟩

/-- The last packet is at most so many gaps ahead of one that has arrived. So a few packets
    span only a short stretch of the stream. -/
theorem InOrder.last_le {gap : Nat} {last : Nat} (after : List Nat) :
    ∀ {before : List Nat} {n : Nat}, InOrder gap (before ++ n :: after) →
      (n :: after).getLast? = some last → last ≤ n + gap * after.length := by
  induction after with
  | nil =>
      intro before n _ hlast
      rw [List.getLast?_singleton, Option.some.injEq] at hlast
      omega
  | cons m after ih =>
      intro before n h hlast
      rw [List.getLast?_cons_cons] at hlast
      have hstep := (List.isChain_append_cons_cons.mp h).2.1
      rw [← List.singleton_append, ← List.append_assoc] at h
      -- From the next packet on there is one gap less to go.
      have hrest := ih h hlast
      rw [List.length_cons, Nat.mul_succ]
      omega

/-- Nothing arrives between two packets that follow each other. So a packet that was jumped
    over is lost for good when packets arrive in order. -/
theorem InOrder.between {gap : Nat} {before after : List Nat} {m n : Nat}
    (h : InOrder gap (before ++ m :: n :: after)) :
    ∀ k ∈ before ++ m :: n :: after, k < n → k < m + 1 := by
  intro k hk hlt
  have hrest := (List.pairwise_append.mp h.pairwise).2.1
  rcases List.mem_append.mp hk with hold | hnew
  · have hgt := h.split.1 k hold
    omega
  · rcases List.mem_cons.mp hnew with rfl | hin
    · omega
    · rcases List.mem_cons.mp hin with rfl | hin
      · omega
      · have hgt := (List.pairwise_cons.mp (List.pairwise_cons.mp hrest).2).1 k hin
        omega

theorem InOrder.next {gap : Nat} {before after : List Nat} {m n : Nat}
    (h : InOrder gap (before ++ m :: n :: after)) : m < n ∧ n ≤ m + gap :=
  (List.isChain_append_cons_cons.mp h).2.1

end Red

end RedundantAudio
