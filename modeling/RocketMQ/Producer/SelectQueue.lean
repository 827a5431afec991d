import RocketMQ.Base.Search
import RocketMQ.Producer.TopicPublishInfo

/-!
# The search for a queue on another broker

`selectOneMessageQueue` of `src/producer/TopicPublishInfo.h` with a last broker's name: as many
probes as there are queues, at `abs(index++)` reduced modulo their number. Here every access is
checked. The probes are at all positions unless the counter crosses zero or overflows.
-/

namespace RocketMQ
namespace TopicPublishInfo

/-- `int pos = abs(index) % size`, the remainder of a `size_t`. -/
def probePos (size : Nat) (index : Int) : Int := toInt32 ((abs32 index % 2 ^ 64) % size)

/-- `m_messageQueueList.at(pos)`; `none` when it throws. -/
def probeAt (info : TopicPublishInfo) (index : Int) : Option MessageQueue :=
  let pos := probePos info.messageQueueList.length index
  if 0 ≤ pos then info.messageQueueList[pos.toNat]? else none

/-- `index++`. -/
def nextIndex (index : Int) : Int := toInt32 (index + 1)

/-- `src/producer/TopicPublishInfo.h:78–101`; `none` when `at` throws. -/
def selectOneMessageQueueChecked (info : TopicPublishInfo) (lastBrokerName : StdString) :
    Option (Option MessageQueue × TopicPublishInfo) :=
  let index := toInt32 info.sendWhichQueue
  let counted := { info with sendWhichQueue := nextIndex index }
  let selected :=
    if !lastBrokerName.isEmpty then
      Base.search nextIndex info.probeAt (fun mq ↦ mq.brokerName ≠ lastBrokerName)
        info.messageQueueList.length index
    else (info.probeAt index).map some
  selected.map (·, counted)

/-- The queue at a position is on another broker. -/
def OtherAt (info : TopicPublishInfo) (lastBrokerName : StdString) (p : Nat) : Prop :=
  ∃ mq, info.messageQueueList[p]? = some mq ∧ mq.brokerName ≠ lastBrokerName

/-- All queues are on one broker. -/
def AllOn (info : TopicPublishInfo) (lastBrokerName : StdString) : Prop :=
  ∀ mq ∈ info.messageQueueList, mq.brokerName = lastBrokerName

/-- The call stays inside the list, and returns a queue of the list on another broker; it
returns none only when all queues are on the last one. -/
def FindsAnother (info : TopicPublishInfo) (lastBrokerName : StdString) : Prop :=
  ∃ mq counted, info.selectOneMessageQueueChecked lastBrokerName = some (mq, counted) ∧
    match mq with
    | none => info.AllOn lastBrokerName
    | some mq => mq ∈ info.messageQueueList ∧ mq.brokerName ≠ lastBrokerName

/-- The position of the least `int`, which `abs` leaves negative. -/
def leastPos (size : Nat) : Int := toInt32 ((2 ^ 64 - 2 ^ 31) % size)

/-- When the search is right. Counting up without an overflow, it passes every position, unless
it starts below zero and ends above: then no position is larger than both ends. Otherwise `k`
probes come before the least `int` and the remaining ones after it, both from the largest `int`
downwards. -/
def SearchCovers (info : TopicPublishInfo) (lastBrokerName : StdString) : Prop :=
  let n := info.messageQueueList.length
  let c := toInt32 info.sendWhichQueue
  if -2 ^ 31 < c ∧ c + n ≤ 2 ^ 31 then
    info.AllOn lastBrokerName ∨
      ∃ p, info.OtherAt lastBrokerName p ∧ (0 ≤ c ∨ c + n ≤ 1 ∨ p ≤ max (-c) (c + n - 1))
  else
    let k : Int := if c = -2 ^ 31 then 0 else 2 ^ 31 - c
    (∃ p < 2 ^ 31, info.OtherAt lastBrokerName p ∧ ((2 ^ 31 - 1 - p) % n : Nat) < k) ∨
      0 ≤ leastPos n ∧
        (info.AllOn lastBrokerName ∨ info.OtherAt lastBrokerName (leastPos n).toNat ∨
          ∃ p < 2 ^ 31, info.OtherAt lastBrokerName p ∧
            ((2 ^ 31 - 1 - p) % n : Nat) < n - 1 - k)

section Indices

theorem toInt32_add_two_pow (n : Int) : toInt32 (n + 2 ^ 32) = toInt32 n :=
  Int.add_bmod_right n (2 ^ 32)

theorem iterate_nextIndex (index : Int) (i : Nat) :
    nextIndex^[i] (toInt32 index) = toInt32 (index + i) := by
  induction i with
  | zero => rw [Function.iterate_zero_apply, Int.natCast_zero, add_zero]
  | succ i ih =>
    rw [Function.iterate_succ_apply', ih, nextIndex, toInt32, toInt32, toInt32,
      Int.bmod_add_bmod, Int.natCast_succ, add_assoc]

theorem toInt32_toInt32_add (counter : Int) (i : Nat) :
    toInt32 (counter + i) = toInt32 (toInt32 counter + i) := Int.bmod_add_bmod.symm

/-- Counting up by `n` without an overflow, what the absolute values pass modulo `n`. -/
theorem exists_natAbs_mod_iff {n p : Nat} {c : Int} (hp : p < n) :
    (∃ i < n, (c + (i : Nat)).natAbs % n = p) ↔
      0 ≤ c ∨ c + n ≤ 1 ∨ p ≤ max (-c) (c + n - 1) := by
  constructor
  · rintro ⟨i, hi, rfl⟩
    have hle := Nat.mod_le (c + i).natAbs n
    omega
  · have hn : (0 : Int) < n := by omega
    have hpn : (p : Int) % n = p := Int.emod_eq_of_lt (by omega) (by omega)
    intro h
    by_cases hup : 0 ≤ c
    · obtain ⟨i, hi⟩ := Int.eq_ofNat_of_zero_le (Int.emod_nonneg (p - c) (Int.ne_of_gt hn))
      have hlt := Int.emod_lt_of_pos (p - c) hn
      have hmod : (c + i) % n = p := by
        rw [← hi, Int.add_emod_emod, show c + (p - c) = p by omega, hpn]
      refine ⟨i, by omega, ?_⟩
      rw [← Int.natAbs_of_nonneg (show 0 ≤ c + i by omega)] at hmod
      exact_mod_cast hmod
    · by_cases hdown : c + n ≤ 1
      · obtain ⟨i, hi⟩ := Int.eq_ofNat_of_zero_le (Int.emod_nonneg (-c - p) (Int.ne_of_gt hn))
        have hlt := Int.emod_lt_of_pos (-c - p) hn
        have hmod : (-(c + i)) % n = p := by
          rw [show -(c + (i : Int)) = -c - i by omega, ← hi, Int.sub_emod_emod,
            show -c - (-c - p) = (p : Int) by omega, hpn]
        refine ⟨i, by omega, ?_⟩
        rw [← Int.natAbs_of_nonneg (show 0 ≤ -(c + i) by omega), Int.natAbs_neg] at hmod
        exact_mod_cast hmod
      · by_cases hbelow : (p : Int) ≤ -c
        · obtain ⟨i, hi⟩ := Int.eq_ofNat_of_zero_le (show 0 ≤ -c - p by omega)
          refine ⟨i, by omega, ?_⟩
          rw [show c + i = -p by omega, Int.natAbs_neg, Int.natAbs_natCast, Nat.mod_eq_of_lt hp]
        · obtain ⟨i, hi⟩ := Int.eq_ofNat_of_zero_le (show 0 ≤ p - c by omega)
          refine ⟨i, by omega, ?_⟩
          rw [show c + i = p by omega, Int.natAbs_natCast, Nat.mod_eq_of_lt hp]

/-- From the largest `int` downwards: the step at which a position is passed. -/
theorem down_mod {n p : Nat} (hp : p < n) (hmax : p < 2 ^ 31) :
    (2 ^ 31 - 1 - (2 ^ 31 - 1 - p) % n) % n = p := by
  have hdiv := Nat.div_add_mod (2 ^ 31 - 1 - p) n
  have hvalue : 2 ^ 31 - 1 - (2 ^ 31 - 1 - p) % n = p + n * ((2 ^ 31 - 1 - p) / n) := by omega
  rw [hvalue, Nat.add_mul_mod_self_left, Nat.mod_eq_of_lt hp]

/-- It is passed by then when a value is reduced to it. -/
theorem down_mod_le {n a : Nat} (hmax : a < 2 ^ 31) :
    (2 ^ 31 - 1 - a % n) % n ≤ 2 ^ 31 - 1 - a := by
  have hdiv := Nat.div_add_mod a n
  have hvalue : 2 ^ 31 - 1 - a % n = 2 ^ 31 - 1 - a + n * (a / n) := by omega
  rw [hvalue, Nat.add_mul_mod_self_left]
  exact Nat.mod_le _ n

/-- Before an overflow, what the last `k` values pass. -/
theorem exists_before_iff {n p k : Nat} {c : Int} (hp : p < n) (hlow : -2 ^ 31 < c)
    (hk : c + k = 2 ^ 31) :
    (∃ i < k, (c + (i : Nat)).natAbs % n = p) ↔ p < 2 ^ 31 ∧ (2 ^ 31 - 1 - p) % n < k := by
  constructor
  · rintro ⟨i, hi, rfl⟩
    have hle := Nat.mod_le (c + i).natAbs n
    have hpassed := down_mod_le (n := n) (show (c + i).natAbs < 2 ^ 31 by omega)
    omega
  · rintro ⟨hmax, hpassed⟩
    have hle := Nat.mod_le (2 ^ 31 - 1 - p) n
    refine ⟨k - 1 - (2 ^ 31 - 1 - p) % n, by omega, ?_⟩
    rw [show (c + (k - 1 - (2 ^ 31 - 1 - p) % n : Nat)).natAbs =
      2 ^ 31 - 1 - (2 ^ 31 - 1 - p) % n by omega, down_mod hp hmax]

/-- After an overflow, what the next `r` values pass. -/
theorem exists_after_iff {n p r : Nat} (hp : p < n) :
    (∃ j < r, toInt32 (2 ^ 31 + 1 + (j : Nat)) ≠ -2 ^ 31 ∧
      (toInt32 (2 ^ 31 + 1 + (j : Nat))).natAbs % n = p) ↔
        p < 2 ^ 31 ∧ (2 ^ 31 - 1 - p) % n < r := by
  have hindex {j : Nat} (hj : j < 2 ^ 31) : toInt32 (2 ^ 31 + 1 + j) = 1 + j - 2 ^ 31 := by
    rw [show (2 ^ 31 + 1 + j : Int) = 1 + j - 2 ^ 31 + 2 ^ 32 by omega, toInt32_add_two_pow,
      toInt32_of_range (by omega) (by omega)]
  constructor
  · rintro ⟨j, hj, hleast, rfl⟩
    obtain ⟨hlow, hhigh⟩ := toInt32_range (2 ^ 31 + 1 + j)
    have hle := Nat.mod_le (toInt32 (2 ^ 31 + 1 + j)).natAbs n
    have hpassed := down_mod_le (n := n)
      (show (toInt32 (2 ^ 31 + 1 + j)).natAbs < 2 ^ 31 by omega)
    refine ⟨by omega, ?_⟩
    by_cases hdown : j < 2 ^ 31
    · rw [hindex hdown] at hpassed ⊢
      omega
    · omega
  · rintro ⟨hmax, hpassed⟩
    have hle := Nat.mod_le (2 ^ 31 - 1 - p) n
    refine ⟨(2 ^ 31 - 1 - p) % n, hpassed, ?_⟩
    rw [hindex (by omega)]
    refine ⟨by omega, ?_⟩
    rw [show (1 + ((2 ^ 31 - 1 - p) % n : Nat) - 2 ^ 31 : Int).natAbs =
      2 ^ 31 - 1 - (2 ^ 31 - 1 - p) % n by omega, down_mod hp hmax]

/-- A run of indices that meets the least `int`: the `k` before it, itself, and the others. -/
theorem overflow_indices {n : Nat} {c : Int} (hn : 0 < n) (hlow : -2 ^ 31 ≤ c) (hhigh : c < 2 ^ 31)
    (hover : ¬ (-2 ^ 31 < c ∧ c + n ≤ 2 ^ 31)) :
    ∃ k < n, ((k : Nat) : Int) = (if c = -2 ^ 31 then 0 else 2 ^ 31 - c) ∧
      (k = 0 ∨ -2 ^ 31 < c ∧ c + k = 2 ^ 31) ∧
      ∀ j : Nat, toInt32 (c + (k + j : Nat)) = toInt32 (2 ^ 31 + j) := by
  by_cases hleast : c = -2 ^ 31
  · refine ⟨0, hn, by rw [if_pos hleast]; rfl, Or.inl rfl, fun j ↦ ?_⟩
    rw [← toInt32_add_two_pow, hleast]
    congr 1
    omega
  · obtain ⟨k, hk⟩ := Int.eq_ofNat_of_zero_le (show 0 ≤ 2 ^ 31 - c by omega)
    refine ⟨k, by omega, by rw [if_neg hleast, hk], Or.inr (by omega), fun j ↦ ?_⟩
    congr 1
    omega

end Indices

section Search

variable {info : TopicPublishInfo} {lastBrokerName : StdString}

theorem mem_of_probeAt {index : Int} {mq : MessageQueue} (h : info.probeAt index = some mq) :
    mq ∈ info.messageQueueList := by
  rw [probeAt] at h
  split_ifs at h
  exact List.mem_of_getElem? h

/-- An index that has an absolute value is inside. -/
theorem probeAt_of_range {index : Int} (hlow : -2 ^ 31 < index) (hhigh : index < 2 ^ 31) :
    info.probeAt index = info.messageQueueList[index.natAbs % info.messageQueueList.length]? := by
  have habs : abs32 index % 2 ^ 64 = index.natAbs := by
    rw [abs32, toInt32_of_range (by omega) (by omega)]
    omega
  have hle := Nat.mod_le index.natAbs info.messageQueueList.length
  have hpos : probePos info.messageQueueList.length index =
      (index.natAbs % info.messageQueueList.length : Nat) := by
    rw [probePos, habs, ← Int.natCast_emod, toInt32_of_range (by omega) (by omega)]
  rw [probeAt, hpos, if_pos (Int.natCast_nonneg _), Int.toNat_natCast]

/-- The least index is inside when its position is not negative. -/
theorem probeAt_least :
    info.probeAt (-2 ^ 31) = if 0 ≤ leastPos info.messageQueueList.length then
      info.messageQueueList[(leastPos info.messageQueueList.length).toNat]? else none := by
  have habs : abs32 (-2 ^ 31) % 2 ^ 64 = 2 ^ 64 - 2 ^ 31 := by decide
  rw [probeAt, probePos, habs]
  rfl

/-- The probe at an index finds a queue on another broker. -/
def OtherProbe (info : TopicPublishInfo) (lastBrokerName : StdString) (index : Int) : Prop :=
  ∃ mq, info.probeAt index = some mq ∧ mq.brokerName ≠ lastBrokerName

/-- In a list that an `int` can index, the checked access is the plain one. -/
theorem probeAt_eq_queueAt (hsize : info.messageQueueList.length ≤ 2 ^ 31) (index : Int) :
    info.probeAt index = info.queueAt index := by
  obtain ⟨r, hr⟩ := Int.eq_ofNat_of_zero_le (Int.emod_nonneg (abs32 index)
    (show (2 ^ 64 : Int) ≠ 0 by decide))
  rw [probeAt, probePos, queueAt, hr, Int.toNat_natCast, ← Int.natCast_emod]
  rcases Nat.eq_zero_or_pos info.messageQueueList.length with hzero | hpos
  · rw [List.length_eq_zero_iff.mp hzero]
    simp
  · have hlt := Nat.mod_lt r hpos
    rw [toInt32_of_range (by omega) (by omega), if_pos (Int.natCast_nonneg _), Int.toNat_natCast]

/-- There the call is `selectOneMessageQueue`. -/
theorem selectOneMessageQueueChecked_eq (hne : info.messageQueueList ≠ [])
    (hsize : info.messageQueueList.length ≤ 2 ^ 31)
    (hcounter : toInt32 info.sendWhichQueue = info.sendWhichQueue) :
    info.selectOneMessageQueueChecked lastBrokerName =
      some (info.selectOneMessageQueue lastBrokerName) := by
  have hinside (index : Int) : info.probeAt index ≠ none := by
    rw [probeAt_eq_queueAt hsize, queueAt, ne_eq, List.getElem?_eq_none_iff, Nat.not_le]
    exact Nat.mod_lt _ (List.length_pos_iff.mpr hne)
  have hprobe : info.probeAt = info.queueAt := funext (probeAt_eq_queueAt hsize)
  rw [selectOneMessageQueueChecked, selectOneMessageQueue, hcounter]
  split_ifs with hempty
  · have hiterate (i : Nat) : nextIndex^[i] info.sendWhichQueue =
        toInt32 (info.sendWhichQueue + i) := by
      rw [← iterate_nextIndex, hcounter]
    rw [Base.search_eq_find? fun i _ ↦ hinside _, hprobe]
    simp only [hiterate, Option.map_some, nextIndex]
  · obtain ⟨mq, hmq⟩ := Option.ne_none_iff_exists'.mp (hinside info.sendWhichQueue)
    rw [hmq, ← hprobe, hmq]
    rfl

/-- The call is right when its search runs out with all queues on the last broker, or finds a
queue. -/
theorem findsAnother_iff_search (hlast : lastBrokerName ≠ []) :
    info.FindsAnother lastBrokerName ↔
      (info.AllOn lastBrokerName ∧ Base.search nextIndex info.probeAt
        (fun mq ↦ mq.brokerName ≠ lastBrokerName) info.messageQueueList.length
        (toInt32 info.sendWhichQueue) = some none) ∨
      ∃ mq, Base.search nextIndex info.probeAt (fun mq ↦ mq.brokerName ≠ lastBrokerName)
        info.messageQueueList.length (toInt32 info.sendWhichQueue) = some (some mq) := by
  have hempty : (!lastBrokerName.isEmpty) = true := by simpa using hlast
  simp only [FindsAnother, selectOneMessageQueueChecked, hempty, if_true]
  constructor
  · rintro ⟨mq, counted, hcall, hanswer⟩
    obtain ⟨selected, hsearch, hselected⟩ := Option.map_eq_some_iff.mp hcall
    obtain rfl : selected = mq := congrArg Prod.fst hselected
    cases selected with
    | none => exact Or.inl ⟨hanswer, hsearch⟩
    | some mq => exact Or.inr ⟨mq, hsearch⟩
  · rintro (⟨hall, hsearch⟩ | ⟨mq, hsearch⟩)
    · exact ⟨none, _, by rw [hsearch]; rfl, hall⟩
    · obtain ⟨hother, index, hprobe⟩ := Base.wanted_of_search hsearch
      exact ⟨some mq, _, by rw [hsearch]; rfl, mem_of_probeAt hprobe, by simpa using hother⟩

/-- The search is right when no probe is outside and all queues are on the last broker, or when
a probe finds another one before any is outside. -/
theorem findsAnother_iff_probes (hlast : lastBrokerName ≠ []) :
    info.FindsAnother lastBrokerName ↔
      (info.AllOn lastBrokerName ∧ ∀ i < info.messageQueueList.length,
        info.probeAt (toInt32 (info.sendWhichQueue + i)) ≠ none) ∨
      ∃ i < info.messageQueueList.length,
        info.OtherProbe lastBrokerName (toInt32 (info.sendWhichQueue + i)) ∧
        ∀ j ≤ i, info.probeAt (toInt32 (info.sendWhichQueue + j)) ≠ none := by
  rw [findsAnother_iff_search hlast, Base.search_eq_some_none_iff,
    Base.exists_search_eq_some_iff]
  simp only [iterate_nextIndex]
  refine or_congr (and_congr_right fun hall ↦ forall₂_congr fun i _ ↦ ?_) ?_
  · constructor
    · rintro ⟨mq, hprobe, -⟩
      rw [hprobe]
      exact Option.some_ne_none mq
    · intro hinside
      obtain ⟨mq, hprobe⟩ := Option.ne_none_iff_exists'.mp hinside
      exact ⟨mq, hprobe, by simpa using hall mq (mem_of_probeAt hprobe)⟩
  · simp only [OtherProbe, decide_eq_true_eq]

theorem lt_of_otherAt {p : Nat} (h : info.OtherAt lastBrokerName p) :
    p < info.messageQueueList.length := by
  obtain ⟨mq, hmq, -⟩ := h
  exact (List.getElem?_eq_some_iff.mp hmq).1

theorem leastPos_lt {size : Nat} (hsize : 0 < size) : leastPos size < size := by
  have hlow := Int.emod_nonneg (2 ^ 64 - 2 ^ 31) (show (size : Int) ≠ 0 by omega)
  have hhigh := Int.emod_lt_of_pos (2 ^ 64 - 2 ^ 31) (show (0 : Int) < size by omega)
  rw [leastPos, toInt32, Int.bmod_def]
  split_ifs <;> omega

theorem probeAt_ne_none_of_range {index : Int} (hne : info.messageQueueList ≠ [])
    (hlow : -2 ^ 31 < index) (hhigh : index < 2 ^ 31) : info.probeAt index ≠ none := by
  rw [probeAt_of_range hlow hhigh, ne_eq, List.getElem?_eq_none_iff, Nat.not_le]
  exact Nat.mod_lt _ (List.length_pos_iff.mpr hne)

theorem otherProbe_of_range {index : Int} (hlow : -2 ^ 31 < index) (hhigh : index < 2 ^ 31) :
    info.OtherProbe lastBrokerName index ↔
      info.OtherAt lastBrokerName (index.natAbs % info.messageQueueList.length) := by
  rw [OtherProbe, probeAt_of_range hlow hhigh, OtherAt]

theorem probeAt_least_ne_none_iff (hne : info.messageQueueList ≠ []) :
    info.probeAt (-2 ^ 31) ≠ none ↔ 0 ≤ leastPos info.messageQueueList.length := by
  have hlt := leastPos_lt (List.length_pos_iff.mpr hne)
  rw [probeAt_least]
  split_ifs with hpos
  · rw [ne_eq, List.getElem?_eq_none_iff, Nat.not_le]
    exact iff_of_true (by omega) hpos
  · exact iff_of_false (fun h ↦ h rfl) hpos

theorem otherProbe_least (hpos : 0 ≤ leastPos info.messageQueueList.length) :
    info.OtherProbe lastBrokerName (-2 ^ 31) ↔
      info.OtherAt lastBrokerName (leastPos info.messageQueueList.length).toNat := by
  rw [OtherProbe, probeAt_least, if_pos hpos, OtherAt]

/-- Counting up without an overflow. -/
theorem findsAnother_iff_of_straight (hne : info.messageQueueList ≠ [])
    (hlast : lastBrokerName ≠ []) (hlow : -2 ^ 31 < toInt32 info.sendWhichQueue)
    (hhigh : toInt32 info.sendWhichQueue + info.messageQueueList.length ≤ 2 ^ 31) :
    info.FindsAnother lastBrokerName ↔ info.AllOn lastBrokerName ∨
      ∃ p, info.OtherAt lastBrokerName p ∧ (0 ≤ toInt32 info.sendWhichQueue ∨
        toInt32 info.sendWhichQueue + info.messageQueueList.length ≤ 1 ∨
        p ≤ max (-toInt32 info.sendWhichQueue)
          (toInt32 info.sendWhichQueue + info.messageQueueList.length - 1)) := by
  rw [findsAnother_iff_probes hlast]
  simp only [toInt32_toInt32_add info.sendWhichQueue]
  generalize toInt32 info.sendWhichQueue = c at hlow hhigh ⊢
  have hindex {i : Nat} (hi : i < info.messageQueueList.length) : toInt32 (c + i) = c + i :=
    toInt32_of_range (by omega) (by omega)
  have hinside {i : Nat} (hi : i < info.messageQueueList.length) :
      info.probeAt (toInt32 (c + i)) ≠ none := by
    rw [hindex hi]
    exact probeAt_ne_none_of_range hne (by omega) (by omega)
  have hother {i : Nat} (hi : i < info.messageQueueList.length) :
      info.OtherProbe lastBrokerName (toInt32 (c + i)) ↔
        info.OtherAt lastBrokerName ((c + i).natAbs % info.messageQueueList.length) := by
    rw [hindex hi]
    exact otherProbe_of_range (by omega) (by omega)
  apply or_congr (and_iff_left fun i hi ↦ hinside hi)
  constructor
  · rintro ⟨i, hi, hfound, -⟩
    have hat := (hother hi).mp hfound
    exact ⟨_, hat, (exists_natAbs_mod_iff (lt_of_otherAt hat)).mp ⟨i, hi, rfl⟩⟩
  · rintro ⟨p, hat, hpassed⟩
    obtain ⟨i, hi, rfl⟩ := (exists_natAbs_mod_iff (lt_of_otherAt hat)).mpr hpassed
    exact ⟨i, hi, (hother hi).mpr hat, fun j hj ↦ hinside (by omega)⟩

/-- Where the least index is inside, every probe is. -/
theorem probeAt_ne_none_of_leastPos (hne : info.messageQueueList ≠ [])
    (hpos : 0 ≤ leastPos info.messageQueueList.length) (n : Int) :
    info.probeAt (toInt32 n) ≠ none := by
  obtain ⟨hlow, hhigh⟩ := toInt32_range n
  by_cases hn : toInt32 n = -2 ^ 31
  · rw [hn]
    exact (probeAt_least_ne_none_iff hne).mpr hpos
  · exact probeAt_ne_none_of_range hne (by omega) hhigh

/-- A run of probes that meets the least `int`: it is right when a probe before it finds a queue,
or the least index is inside and the rest is right. -/
theorem findsAnother_iff_of_overflow {k : Nat} (hne : info.messageQueueList ≠ [])
    (hlast : lastBrokerName ≠ []) (hk : k < info.messageQueueList.length)
    (hbefore : k = 0 ∨ -2 ^ 31 < toInt32 info.sendWhichQueue ∧
      toInt32 info.sendWhichQueue + k = 2 ^ 31)
    (hlater : ∀ j : Nat, toInt32 (toInt32 info.sendWhichQueue + (k + j : Nat)) =
      toInt32 (2 ^ 31 + j)) :
    info.FindsAnother lastBrokerName ↔
      (∃ i < k, info.OtherAt lastBrokerName
        ((toInt32 info.sendWhichQueue + (i : Nat)).natAbs % info.messageQueueList.length)) ∨
      0 ≤ leastPos info.messageQueueList.length ∧ (info.AllOn lastBrokerName ∨
        ∃ j < info.messageQueueList.length - k,
          info.OtherProbe lastBrokerName (toInt32 (2 ^ 31 + (j : Nat)))) := by
  rw [findsAnother_iff_probes hlast]
  simp only [toInt32_toInt32_add info.sendWhichQueue]
  generalize toInt32 info.sendWhichQueue = c at hbefore hlater ⊢
  have hleast : toInt32 (c + k) = -2 ^ 31 := (hlater 0).trans rfl
  have hindex {i : Nat} (hi : i < k) : toInt32 (c + i) = c + i :=
    toInt32_of_range (by omega) (by omega)
  have hinside {i : Nat} (hi : i < k) : info.probeAt (toInt32 (c + i)) ≠ none := by
    rw [hindex hi]
    exact probeAt_ne_none_of_range hne (by omega) (by omega)
  have hother {i : Nat} (hi : i < k) : info.OtherProbe lastBrokerName (toInt32 (c + i)) ↔
      info.OtherAt lastBrokerName ((c + i).natAbs % info.messageQueueList.length) := by
    rw [hindex hi]
    exact otherProbe_of_range (by omega) (by omega)
  have hleastInside (h : info.probeAt (toInt32 (c + k)) ≠ none) :
      0 ≤ leastPos info.messageQueueList.length := by
    rw [hleast] at h
    exact (probeAt_least_ne_none_iff hne).mp h
  constructor
  · rintro (⟨hsame, hprobes⟩ | ⟨i, hi, hfound, hprobes⟩)
    · exact Or.inr ⟨hleastInside (hprobes k hk), Or.inl hsame⟩
    · by_cases hik : i < k
      · exact Or.inl ⟨i, hik, (hother hik).mp hfound⟩
      · refine Or.inr ⟨hleastInside (hprobes k (by omega)), Or.inr ⟨i - k, by omega, ?_⟩⟩
        rw [← hlater, Nat.add_sub_cancel' (by omega)]
        exact hfound
  · rintro (⟨i, hi, hat⟩ | ⟨hpos, hsame | ⟨j, hj, hfound⟩⟩)
    · exact Or.inr ⟨i, by omega, (hother hi).mpr hat, fun j hj ↦ hinside (by omega)⟩
    · exact Or.inl ⟨hsame, fun i _ ↦ probeAt_ne_none_of_leastPos hne hpos _⟩
    · rw [← hlater] at hfound
      exact Or.inr ⟨k + j, by omega, hfound, fun i _ ↦ probeAt_ne_none_of_leastPos hne hpos _⟩

/-- The probes after an overflow, by the positions they pass. -/
theorem exists_otherProbe_iff {r : Nat} (hpos : 0 ≤ leastPos info.messageQueueList.length)
    (hr : 0 < r) :
    (∃ j < r, info.OtherProbe lastBrokerName (toInt32 (2 ^ 31 + (j : Nat)))) ↔
      info.OtherAt lastBrokerName (leastPos info.messageQueueList.length).toNat ∨
        ∃ p < 2 ^ 31, info.OtherAt lastBrokerName p ∧
          (2 ^ 31 - 1 - p) % info.messageQueueList.length < r - 1 := by
  obtain ⟨r, rfl⟩ := Nat.exists_eq_succ_of_ne_zero (Nat.ne_of_gt hr)
  have hfirst : toInt32 (2 ^ 31 + (0 : Nat)) = -2 ^ 31 := rfl
  have hsucc (j : Nat) : (2 ^ 31 + (j + 1 : Nat) : Int) = 2 ^ 31 + 1 + j := by omega
  rw [Nat.exists_lt_succ_left, hfirst, otherProbe_least hpos, Nat.succ_sub_one]
  simp only [hsucc]
  constructor
  · rintro (hat | ⟨j, hj, hfound⟩)
    · exact Or.inl hat
    · by_cases hleast : toInt32 (2 ^ 31 + 1 + j) = -2 ^ 31
      · rw [hleast, otherProbe_least hpos] at hfound
        exact Or.inl hfound
      · obtain ⟨hlow, hhigh⟩ := toInt32_range (2 ^ 31 + 1 + j)
        have hat := (otherProbe_of_range (by omega) hhigh).mp hfound
        obtain ⟨hmax, hpassed⟩ :=
          (exists_after_iff (lt_of_otherAt hat)).mp ⟨j, hj, hleast, rfl⟩
        exact Or.inr ⟨_, hmax, hat, hpassed⟩
  · rintro (hat | ⟨p, hmax, hat, hpassed⟩)
    · exact Or.inl hat
    · obtain ⟨j, hj, hleast, rfl⟩ := (exists_after_iff (lt_of_otherAt hat)).mpr ⟨hmax, hpassed⟩
      obtain ⟨hlow, hhigh⟩ := toInt32_range (2 ^ 31 + 1 + j)
      exact Or.inr ⟨j, hj, (otherProbe_of_range (by omega) hhigh).mpr hat⟩

/-- The probes before an overflow, by the positions they pass. -/
theorem exists_otherAt_before_iff {k : Nat} {c : Int}
    (hbefore : k = 0 ∨ -2 ^ 31 < c ∧ c + k = 2 ^ 31) :
    (∃ i < k, info.OtherAt lastBrokerName
        ((c + (i : Nat)).natAbs % info.messageQueueList.length)) ↔
      ∃ p < 2 ^ 31, info.OtherAt lastBrokerName p ∧
        (2 ^ 31 - 1 - p) % info.messageQueueList.length < k := by
  obtain rfl | ⟨hlow, hk⟩ := hbefore
  · simp only [Nat.not_lt_zero, false_and, and_false, exists_false]
  · constructor
    · rintro ⟨i, hi, hat⟩
      obtain ⟨hmax, hpassed⟩ := (exists_before_iff (lt_of_otherAt hat) hlow hk).mp ⟨i, hi, rfl⟩
      exact ⟨_, hmax, hat, hpassed⟩
    · rintro ⟨p, hmax, hat, hpassed⟩
      obtain ⟨i, hi, rfl⟩ :=
        (exists_before_iff (lt_of_otherAt hat) hlow hk).mpr ⟨hmax, hpassed⟩
      exact ⟨i, hi, hat⟩

/-- **A retry finds another broker**: the search is right exactly when its probes cover a queue
on another broker. -/
theorem findsAnother_iff (info : TopicPublishInfo) (lastBrokerName : StdString)
    (hne : info.messageQueueList ≠ []) (hlast : lastBrokerName ≠ []) :
    info.FindsAnother lastBrokerName ↔ info.SearchCovers lastBrokerName := by
  obtain ⟨hlow, hhigh⟩ := toInt32_range info.sendWhichQueue
  have hn := List.length_pos_iff.mpr hne
  simp only [SearchCovers]
  by_cases hstraight : -2 ^ 31 < toInt32 info.sendWhichQueue ∧
      toInt32 info.sendWhichQueue + info.messageQueueList.length ≤ 2 ^ 31
  · rw [if_pos hstraight]
    exact findsAnother_iff_of_straight hne hlast hstraight.1 hstraight.2
  · obtain ⟨k, hk, hcast, hbefore, hlater⟩ := overflow_indices hn hlow hhigh hstraight
    have hrest (m : Nat) : (m : Int) < info.messageQueueList.length - 1 - k ↔
        m < info.messageQueueList.length - k - 1 := by omega
    rw [if_neg hstraight, ← hcast, findsAnother_iff_of_overflow hne hlast hk hbefore hlater,
      exists_otherAt_before_iff hbefore]
    simp only [hrest, Int.ofNat_lt]
    refine or_congr_right (and_congr_right fun hpos ↦ or_congr_right ?_)
    exact exists_otherProbe_iff hpos (by omega)

end Search

/-- A broker with two queues, one with a single queue, and the counter one before zero. -/
def crossing : TopicPublishInfo :=
  ⟨[⟨str "t", str "b", 0⟩, ⟨str "t", str "b", 1⟩, ⟨str "t", str "c", 0⟩], -1⟩

/-- The search passes the positions 1, 0 and 1, and returns none. -/
theorem crossing_finds_none : ¬ crossing.FindsAnother (str "b") := by
  rintro ⟨mq, counted, hcall, hanswer⟩
  have hnone : (crossing.selectOneMessageQueueChecked (str "b")).map Prod.fst = some none := by
    decide +kernel
  rw [hcall, Option.map_some, Option.some.injEq] at hnone
  subst hnone
  exact absurd (hanswer ⟨str "t", str "c", 0⟩ (by decide)) (by decide)

/-- From zero on, the third probe finds the other broker. -/
theorem findsAnother_from_zero :
    ({ crossing with sendWhichQueue := 0 }).FindsAnother (str "b") := by
  refine (findsAnother_iff { crossing with sendWhichQueue := 0 } (str "b") (by decide)
    (by decide)).mpr ?_
  dsimp only [SearchCovers]
  rw [if_pos (by decide)]
  exact Or.inr ⟨2, ⟨⟨str "t", str "c", 0⟩, rfl, by decide⟩, Or.inl (by decide)⟩

end TopicPublishInfo
end RocketMQ
