import Mathlib.Algebra.Order.Floor.Div
import RedundantAudio.Audio.Pcm

/-!
# Mixing Down Within a Word

An average is a sum divided by a count, and each of the two is asked to fit into
a word of 32 bits. The sum of 16-bit samples does as long as there are at most
65535 of them, which is as many channels as a file can have: 65535 times -32768
is just short of the least word. It does so after every sample on the way, for
what is summed up by then is the sum of a shorter group.

The average is cut towards zero. It lies between the least and the greatest
sample all the same, because cutting is monotone and changes no whole multiple of
the count, and the sum lies between the multiples of the least and of the
greatest sample. So it is a sample itself, and the last cut from 32 to 16 bits
changes nothing.

## Main definitions

* `groupAt`: The samples of a number that are averaged together.
* `wordTotal`, `wordAverage`: Sum and average in words of 32 bits.
* `ExactAverage`: A sample is the average of a group, with nothing lost on the way.

## Theorems

* `total_bounds`, `tdiv_bounds`: Sum and average between bounds of the samples.
* `toInt_wordTotal`: The sum in words is the sum.
* `averages_eq`: The averages by their number.
* `exactAverage_of_length_le`: The average of one group.
* `downmix_exact`: The average of every group.
-/

namespace RedundantAudio

namespace Audio

/-- The samples that the average of a number is taken of. The last group may be
    shorter than the others. -/
def groupAt (channels : Nat) (samples : List Int16) (n : Nat) : List Int16 :=
  (samples.drop (channels * n)).take channels

/-- The sum in a word of 32 bits, sample by sample. -/
def wordTotal (samples : List Int16) : Int32 :=
  samples.foldl (fun sum sample => sum + sample.toInt32) 0

/-- The average in words: the sum divided by the number of samples, then cut to
    16 bits. -/
def wordAverage (samples : List Int16) : Int16 :=
  (wordTotal samples / .ofNat samples.length).toInt16

/-- A word of 32 bits holds this number. -/
def FitsWord (n : Int) : Prop :=
  Int32.minValue.toInt ≤ n ∧ n ≤ Int32.maxValue.toInt

/-- A sample is the average of a group, and computing it in words of 32 bits loses
    nothing. -/
structure ExactAverage (group : List Int16) (sample : Int16) : Prop where
  /-- There is something to divide by. -/
  length_pos : 0 < group.length
  /-- A word holds the divisor. -/
  length_fits : FitsWord group.length
  /-- A word holds the sum after every sample. -/
  sum_fits : ∀ count, FitsWord (total (group.take count))
  /-- So the sum in words is the sum. -/
  sum_exact : (wordTotal group).toInt = total group
  /-- The quotient is at most the greatest sample and at least the least. -/
  quotient_between : ∃ least greatest,
    (group.map Int16.toInt).min? = some least ∧ (group.map Int16.toInt).max? = some greatest ∧
    least ≤ (total group).tdiv group.length ∧ (total group).tdiv group.length ≤ greatest
  /-- The sample is the quotient, so that the last cut lost nothing. -/
  quotient_exact : sample.toInt = (total group).tdiv group.length
  /-- The sample is what words compute. -/
  sample_eq : sample = wordAverage group

/-! ### Sums -/

theorem total_append (front back : List Int16) :
    total (front ++ back) = total front + total back := by
  induction front with
  | nil => exact (Int.zero_add _).symm
  | cons sample front ih => rw [List.cons_append, total, total, ih, Int.add_assoc]

theorem sample_bounds (sample : Int16) : -32768 ≤ sample.toInt ∧ sample.toInt ≤ 32767 :=
  ⟨sample.le_toInt, Int.le_of_lt_add_one sample.toInt_lt⟩

/-- A sum lies between the multiples of any bounds of the samples. -/
theorem total_bounds (least greatest : Int) (samples : List Int16)
    (h : ∀ sample ∈ samples, least ≤ sample.toInt ∧ sample.toInt ≤ greatest) :
    samples.length * least ≤ total samples ∧ total samples ≤ samples.length * greatest := by
  induction samples with
  | nil => simp only [List.length_nil, total, Nat.cast_zero, Int.zero_mul, le_refl, and_self]
  | cons sample samples ih =>
      have hfirst := h sample List.mem_cons_self
      have hrest := ih fun s hs => h s (List.mem_cons_of_mem sample hs)
      rw [total, List.length_cons, Nat.cast_succ, Int.add_mul, Int.add_mul, Int.one_mul,
        Int.one_mul]
      -- One more sample adds itself, which is between the bounds.
      omega

/-- So many samples cannot leave a word, whatever they are. -/
theorem fitsWord_total (samples : List Int16) (h : samples.length ≤ 65535) :
    FitsWord (total samples) := by
  have hbounds := total_bounds (-32768) 32767 samples fun sample _ => sample_bounds sample
  change (-2147483648 : Int) ≤ total samples ∧ total samples ≤ 2147483647
  omega

theorem toInt_add_of_fits {a b : Int32} (h : FitsWord (a.toInt + b.toInt)) :
    (a + b).toInt = a.toInt + b.toInt := by
  change (-2147483648 : Int) ≤ a.toInt + b.toInt ∧ a.toInt + b.toInt ≤ 2147483647 at h
  rw [Int32.toInt_add]
  exact Int.bmod_eq_of_le (by omega) (by omega)

/-- The sum in words is the sum, as long as a word holds it after every sample. It is not
    enough that a word holds it in the end: a sum that wraps on the way and comes back would
    be right by accident, and no checked addition would accept it. -/
theorem toInt_wordTotal (samples : List Int16)
    (h : ∀ count, FitsWord (total (samples.take count))) :
    (wordTotal samples).toInt = total samples := by
  -- The induction is from the back, where the sum so far is that of a shorter group.
  induction samples using List.reverseRecOn with
  | nil => rfl
  | append_singleton front sample ih =>
      -- What holds after every sample of the group holds after those of its front.
      have hfront := ih fun count => by
        have hcount := h (min count front.length)
        rwa [List.take_append_of_le_length (Nat.min_le_right _ _), ← List.take_eq_take_min]
          at hcount
      have hall := h (front ++ [sample]).length
      rw [List.take_length, total_append] at hall
      have hstep : wordTotal (front ++ [sample]) = wordTotal front + sample.toInt32 :=
        List.foldl_concat _ _ _ _
      have hsum : (wordTotal front).toInt + sample.toInt32.toInt
          = total front + total [sample] := by
        rw [hfront, Int16.toInt_toInt32, total, total, Int.add_zero]
      rw [hstep, total_append, ← hsum]
      rw [← hsum] at hall
      exact toInt_add_of_fits hall

/-! ### Averages -/

/-- An average, cut towards zero, lies between any bounds of the samples. The bounds are
    brought to the form of a quotient as well, since cutting keeps the order of quotients by
    the same number. -/
theorem tdiv_bounds (least greatest : Int) (samples : List Int16) (hpos : 0 < samples.length)
    (h : ∀ sample ∈ samples, least ≤ sample.toInt ∧ sample.toInt ≤ greatest) :
    least ≤ (total samples).tdiv samples.length ∧
      (total samples).tdiv samples.length ≤ greatest := by
  have hbounds := total_bounds least greatest samples h
  have hcount : (0 : Int) < samples.length := Int.natCast_pos.mpr hpos
  constructor
  · calc least = (samples.length * least).tdiv samples.length :=
          (Int.mul_tdiv_cancel_left least hcount.ne').symm
      _ ≤ (total samples).tdiv samples.length := Int.tdiv_le_tdiv hcount hbounds.1
  · calc (total samples).tdiv samples.length
        ≤ (samples.length * greatest).tdiv samples.length := Int.tdiv_le_tdiv hcount hbounds.2
      _ = greatest := Int.mul_tdiv_cancel_left greatest hcount.ne'

/-- The average is the quotient, since no average leaves the range of its samples. -/
theorem toInt_average (samples : List Int16) (hpos : 0 < samples.length) :
    (average samples).toInt = (total samples).tdiv samples.length := by
  have hbounds := tdiv_bounds (-32768) 32767 samples hpos fun sample _ => sample_bounds sample
  exact Int16.toInt_ofInt_of_le hbounds.1 (Int.lt_add_one_of_le hbounds.2)

/-- In words the average is the same quotient: sum, divisor and result all fit. -/
theorem toInt_wordAverage (samples : List Int16) (hpos : 0 < samples.length)
    (hlength : samples.length ≤ 65535) (hsum : (wordTotal samples).toInt = total samples) :
    (wordAverage samples).toInt = (total samples).tdiv samples.length := by
  have hbounds := tdiv_bounds (-32768) 32767 samples hpos fun sample _ => sample_bounds sample
  have hcount : (Int32.ofNat samples.length).toInt = samples.length :=
    Int32.toInt_ofNat_of_lt (by omega)
  -- A quotient between two samples is cut neither by the division nor behind it.
  rw [wordAverage, Int32.toInt_toInt16, Int32.toInt_div, hsum, hcount,
    Int.bmod_eq_of_le (m := 2 ^ 32) (by omega) (by omega),
    Int.bmod_eq_of_le (m := 2 ^ 16) (by omega) (by omega)]

/-- A group of up to 65535 samples has an exact average. That many samples of 16 bits cannot
    leave a word of 32, so the sum is exact; and a quotient that lies between two samples
    can leave neither the word nor the sample that it is cut to. -/
theorem exactAverage_of_length_le (group : List Int16) (hpos : 0 < group.length)
    (hlength : group.length ≤ 65535) : ExactAverage group (average group) := by
  have hfits : ∀ count, FitsWord (total (group.take count)) := fun count =>
    fitsWord_total _ (le_trans (List.length_take_le' count group) hlength)
  have hsum := toInt_wordTotal group hfits
  -- A group that is not empty has a least and a greatest sample.
  have hne : group.map Int16.toInt ≠ [] :=
    mt List.map_eq_nil_iff.mp (List.ne_nil_of_length_pos hpos)
  rcases Option.ne_none_iff_exists'.mp (mt List.min?_eq_none_iff.mp hne) with ⟨least, hleast⟩
  rcases Option.ne_none_iff_exists'.mp (mt List.max?_eq_none_iff.mp hne) with ⟨greatest, hgreatest⟩
  have hbetween := tdiv_bounds least greatest group hpos fun sample hsample =>
    ⟨(List.min?_eq_some_iff.mp hleast).2 _ (List.mem_map_of_mem hsample),
      (List.max?_eq_some_iff.mp hgreatest).2 _ (List.mem_map_of_mem hsample)⟩
  exact {
    length_pos := hpos
    length_fits := by
      change (-2147483648 : Int) ≤ group.length ∧ (group.length : Int) ≤ 2147483647
      omega
    sum_fits := hfits
    sum_exact := hsum
    quotient_between := ⟨least, greatest, hleast, hgreatest, hbetween⟩
    quotient_exact := toInt_average group hpos
    sample_eq := by
      rw [← Int16.toInt_inj, toInt_average group hpos, toInt_wordAverage group hpos hlength hsum] }

theorem average_singleton (sample : Int16) : average [sample] = sample := by
  rw [← Int16.toInt_inj, toInt_average [sample] Nat.one_pos]
  change (sample.toInt + 0).tdiv 1 = sample.toInt
  rw [Int.tdiv_one, Int.add_zero]

/-! ### Groups -/

theorem groupAt_zero (channels : Nat) (samples : List Int16) :
    groupAt channels samples 0 = samples.take channels := by
  rw [groupAt, Nat.mul_zero, List.drop_zero]

theorem groupAt_succ (channels : Nat) (samples : List Int16) (n : Nat) :
    groupAt channels samples (n + 1) = groupAt channels (samples.drop channels) n := by
  rw [groupAt, groupAt, List.drop_drop, Nat.mul_succ, Nat.add_comm]

theorem length_groupAt_le (channels : Nat) (samples : List Int16) (n : Nat) :
    (groupAt channels samples n).length ≤ channels :=
  List.length_take_le _ _

/-- A group that is counted has samples. -/
theorem length_groupAt_pos (channels : Nat) (samples : List Int16) (n : Nat)
    (h : n < samples.length ⌈/⌉ channels) : 0 < (groupAt channels samples n).length := by
  rw [groupAt, List.length_take, List.length_drop]
  rw [Nat.ceilDiv_eq_add_pred_div] at h
  rcases Nat.eq_zero_or_pos channels with rfl | hpos
  · rw [Nat.div_zero] at h
    omega
  · have hmul := (Nat.lt_div_iff_mul_lt hpos).mp h
    rw [Nat.mul_comm] at hmul
    omega

/-- The first group takes one off the count, whether it is whole or not. -/
theorem ceilDiv_succ (count channels : Nat) (hpos : 0 < channels) (h : 0 < count) :
    count ⌈/⌉ channels = (count - channels) ⌈/⌉ channels + 1 := by
  have hfirst : count + channels - 1 = (count - 1) + channels := by omega
  rw [Nat.ceilDiv_eq_add_pred_div, Nat.ceilDiv_eq_add_pred_div, hfirst, Nat.add_div_right _ hpos]
  rcases Nat.le_total channels count with hle | hle
  · rw [Nat.sub_add_cancel hle]
  · -- The first group is the last one as well.
    rw [Nat.sub_eq_zero_of_le hle, Nat.div_eq_of_lt (by omega), Nat.div_eq_of_lt (by omega)]

theorem averages_one (samples : List Int16) : averages 1 samples = samples := by
  induction samples with
  | nil => rw [averages]
  | cons sample samples ih =>
      rw [averages]
      change average [sample] :: averages 1 samples = sample :: samples
      rw [average_singleton, ih]

/-- Averages are taken one group after the other. The number of groups is rounded up,
    because the last of them may be short and is averaged all the same. -/
theorem averages_eq (channels : Nat) (hpos : 0 < channels) (samples : List Int16) :
    averages channels samples
      = (List.range (samples.length ⌈/⌉ channels)).map fun n =>
          average (groupAt channels samples n) := by
  induction samples using averages.induct channels with
  | case1 => rw [averages, List.length_nil, zero_ceilDiv]; rfl
  -- The function cuts a group off and goes on with the rest, as the numbers do.
  | case2 first rest ih =>
      rcases Nat.exists_eq_succ_of_ne_zero hpos.ne' with ⟨more, rfl⟩
      have hcount := ceilDiv_succ (first :: rest).length (more + 1) hpos (Nat.succ_pos _)
      rw [Nat.succ_sub_one, List.length_drop] at ih
      rw [averages, hcount, List.range_succ_eq_map, List.map_cons, List.map_map, groupAt_zero,
        Nat.succ_sub_one, ih, List.length_cons, Nat.add_sub_add_right, List.take_succ_cons]
      congr 1
      exact List.map_congr_left fun n _ => by
        rw [Function.comp_apply, groupAt_succ, List.drop_succ_cons]

/-- The mix is the average of each group. One channel is not averaged, which makes no
    difference. -/
theorem downmix_eq (channels : Nat) (hpos : 0 < channels) (samples : List Int16) :
    downmix channels samples
      = (List.range (samples.length ⌈/⌉ channels)).map fun n =>
          average (groupAt channels samples n) := by
  rw [← averages_eq channels hpos samples, downmix]
  split
  · -- With one channel every sample is its own average.
    rename_i hle
    obtain rfl : channels = 1 := Nat.le_antisymm hle hpos
    exact (averages_one samples).symm
  · rfl

/-- One channel out of up to 65535: there is an average for every group, and none of the
    steps towards it leaves its word. The last group may be shorter than the others, which
    is why its own length divides it, and the number of groups is rounded up. -/
theorem downmix_exact (channels : Nat) (samples : List Int16) (hpos : 1 ≤ channels)
    (hmax : channels ≤ 65535) :
    (downmix channels samples).length = samples.length ⌈/⌉ channels ∧
      ∀ n (h : n < (downmix channels samples).length),
        ExactAverage (groupAt channels samples n) (downmix channels samples)[n] := by
  have hlength : (downmix channels samples).length = samples.length ⌈/⌉ channels := by
    rw [downmix_eq channels hpos, List.length_map, List.length_range]
  refine ⟨hlength, fun n h => ?_⟩
  -- A group in range has samples, and no more than there are channels.
  have hgroup := exactAverage_of_length_le (groupAt channels samples n)
    (length_groupAt_pos channels samples n (hlength ▸ h))
    (le_trans (length_groupAt_le channels samples n) hmax)
  simpa only [downmix_eq channels hpos, List.getElem_map, List.getElem_range] using hgroup

/-- Two instants of three channels, the second cut short. The division is towards zero, so
    -65534 through three is cut upwards and 32763 through two is cut downwards. -/
theorem downmix_exact_three :
    1 ≤ 3 ∧ 3 ≤ 65535 ∧ downmix 3 [-32768, -32767, 1, 32767, -4] = [-21844, 16381] ∧
      ((downmix 3 [-32768, -32767, 1, 32767, -4]).length
          = [(-32768 : Int16), -32767, 1, 32767, -4].length ⌈/⌉ 3 ∧
        ∀ n (h : n < (downmix 3 [-32768, -32767, 1, 32767, -4]).length),
          ExactAverage (groupAt 3 [-32768, -32767, 1, 32767, -4] n)
            (downmix 3 [-32768, -32767, 1, 32767, -4])[n]) :=
  ⟨by decide, by decide, by cbv,
    downmix_exact 3 [-32768, -32767, 1, 32767, -4] (by decide) (by decide)⟩

end Audio

end RedundantAudio
