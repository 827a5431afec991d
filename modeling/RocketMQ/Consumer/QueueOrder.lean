import RocketMQ.Base.SerialOrder
import RocketMQ.Consumer.Allocate
import RocketMQ.Protocol.RemotingCommand

/-!
# Which queues the order of the tables sorts

`MessageQueue::operator==` and `MessageQueue::operator<`, `src/message/MessageQueue.cpp:83–132`.
The first compares whole strings; the second compares them up to the first `NUL`, and ids by the
sign of their difference in an `int` that wraps around.
-/

namespace RocketMQ.MessageQueue

open Protocol.RemotingCommand (cString)

/-- `MessageQueue::operator==`, `src/message/MessageQueue.cpp:83–106`. An object compared with
itself passes the other tests too. -/
def operatorEq (a b : MessageQueue) : Bool :=
  if a.brokerName ≠ b.brokerName then false
  else if a.queueId ≠ b.queueId then false
  else if a.topic ≠ b.topic then false
  else true

/-- The names of two queues look alike as C strings. -/
def SameCNames (a b : MessageQueue) : Prop :=
  cString a.topic = cString b.topic ∧ cString a.brokerName = cString b.brokerName

/-- No two different queues of a set have names that look alike and the same id, and ids of queues
whose names look alike are all among `2 ^ 31` successive ones, where the largest `int` is followed
by the least. -/
structure Sortable (S : Set MessageQueue) : Prop where
  names : ∀ a ∈ S, ∀ b ∈ S, a.SameCNames b → a.queueId = b.queueId →
    a.topic = b.topic ∧ a.brokerName = b.brokerName
  ids : ∀ a ∈ S, ∃ first : Int, ∀ b ∈ S, a.SameCNames b → (b.queueId - first) % 2 ^ 32 < 2 ^ 31

section Comparison

variable {a b : MessageQueue}

theorem operatorEq_iff : a.operatorEq b = true ↔
    a.topic = b.topic ∧ a.brokerName = b.brokerName ∧ a.queueId = b.queueId := by
  rw [operatorEq]
  split_ifs
  all_goals simp_all

/-- The two calls of `strcmp` in `compareTo`. -/
def compareNames : MessageQueue → MessageQueue → Ordering :=
  compareLex (compareOn fun mq ↦ cString mq.topic) (compareOn fun mq ↦ cString mq.brokerName)

instance : Std.TransCmp compareNames :=
  inferInstanceAs (Std.TransCmp (compareLex (compareOn fun mq : MessageQueue ↦ cString mq.topic)
    (compareOn fun mq ↦ cString mq.brokerName)))

theorem compareNames_eq_iff : compareNames a b = .eq ↔ a.SameCNames b := by
  rw [compareNames, compareLex, Ordering.then_eq_eq]
  exact and_congr Std.LawfulEqOrd.compare_eq_iff_eq Std.LawfulEqOrd.compare_eq_iff_eq

/-- The ids are serial numbers. -/
theorem operatorLess_iff_compareFirst : a.operatorLess b = true ↔
    Base.compareFirst compareNames (fun a b ↦ Base.serialLt (2 ^ 31) a.queueId b.queueId) a b := by
  have hnames : compareNames a b =
      (strcmp a.topic b.topic).then (strcmp a.brokerName b.brokerName) := rfl
  rw [operatorLess, Base.compareFirst, hnames]
  cases strcmp a.topic b.topic with
  | lt => simp
  | gt => simp
  | eq =>
    cases strcmp a.brokerName b.brokerName with
    | lt => simp
    | gt => simp
    | eq =>
      have hless : toInt32 (a.queueId - b.queueId) < 0 ↔
          Base.serialLt (2 ^ 31) a.queueId b.queueId := Iff.rfl
      simp [hless]

end Comparison

section Sets

variable {S : Set MessageQueue} {a b : MessageQueue}

theorem mem_alike_iff : b ∈ Base.alike compareNames S a ↔ b ∈ S ∧ a.SameCNames b := by
  rw [Base.alike, Set.mem_ofPred_eq, compareNames_eq_iff]

/-- The order sorts a set of queues exactly when the ids sort the queues that look alike. -/
theorem strictlyOrders_operatorLess :
    Base.StrictlyOrders (fun a b ↦ a.operatorLess b = true) (fun a b ↦ a.operatorEq b = true) S ↔
      ∀ a ∈ S, Base.StrictlyOrders
        (fun a b ↦ Base.serialLt (2 ^ 31) a.queueId b.queueId)
        (fun a b ↦ a.operatorEq b = true) (Base.alike compareNames S a) := by
  simp only [operatorLess_iff_compareFirst]
  apply Base.strictlyOrders_compareFirst
  intro a _ b _ he
  obtain ⟨htopic, hbroker, -⟩ := operatorEq_iff.mp he
  exact compareNames_eq_iff.mpr ⟨congrArg cString htopic, congrArg cString hbroker⟩

/-- The ids of queues that look alike are sorted as serial numbers are. -/
theorem strictlyOrders_alike (hint : ∀ mq ∈ S, -2 ^ 31 ≤ mq.queueId ∧ mq.queueId < 2 ^ 31) :
    Base.StrictlyOrders (fun a b ↦ Base.serialLt (2 ^ 31) a.queueId b.queueId)
        (fun a b ↦ a.operatorEq b = true) (Base.alike compareNames S a) ↔
      (∀ b ∈ Base.alike compareNames S a, ∀ c ∈ Base.alike compareNames S a,
        b.queueId = c.queueId → b.operatorEq c = true) ∧
      Base.OnArc (2 ^ 31) (queueId '' Base.alike compareNames S a) := by
  apply Base.strictlyOrders_serialLt (by decide)
  · intro b hb c hc
    have hib := hint b hb.1
    have hic := hint c hc.1
    push_cast
    omega
  · intro b _ c _ he
    exact (operatorEq_iff.mp he).2.2

theorem sortable_of_strictlyOrders
    (hint : ∀ mq ∈ S, -2 ^ 31 ≤ mq.queueId ∧ mq.queueId < 2 ^ 31)
    (hord : Base.StrictlyOrders (fun a b ↦ a.operatorLess b = true)
      (fun a b ↦ a.operatorEq b = true) S) : Sortable S := by
  rw [strictlyOrders_operatorLess] at hord
  have hself : ∀ a : MessageQueue, a.SameCNames a := fun a ↦ ⟨rfl, rfl⟩
  constructor
  · intro a ha b hb hsame hid
    have heq := ((strictlyOrders_alike hint).mp (hord a ha)).1 a (mem_alike_iff.mpr ⟨ha, hself a⟩)
      b (mem_alike_iff.mpr ⟨hb, hsame⟩) hid
    obtain ⟨htopic, hbroker, -⟩ := operatorEq_iff.mp heq
    exact ⟨htopic, hbroker⟩
  · intro a ha
    obtain ⟨first, hfirst⟩ := ((strictlyOrders_alike hint).mp (hord a ha)).2
    exact ⟨first, fun b hb hsame ↦ hfirst _ ⟨b, mem_alike_iff.mpr ⟨hb, hsame⟩, rfl⟩⟩

theorem Sortable.strictlyOrders (hsort : Sortable S)
    (hint : ∀ mq ∈ S, -2 ^ 31 ≤ mq.queueId ∧ mq.queueId < 2 ^ 31) :
    Base.StrictlyOrders (fun a b ↦ a.operatorLess b = true)
      (fun a b ↦ a.operatorEq b = true) S := by
  rw [strictlyOrders_operatorLess]
  intro a ha
  rw [strictlyOrders_alike hint]
  constructor
  · intro b hb c hc hid
    obtain ⟨hbS, hab⟩ := mem_alike_iff.mp hb
    obtain ⟨hcS, hac⟩ := mem_alike_iff.mp hc
    have hbc : b.SameCNames c := ⟨hab.1.symm.trans hac.1, hab.2.symm.trans hac.2⟩
    obtain ⟨htopic, hbroker⟩ := hsort.names b hbS c hcS hbc hid
    exact operatorEq_iff.mpr ⟨htopic, hbroker, hid⟩
  · obtain ⟨first, hfirst⟩ := hsort.ids a ha
    refine ⟨first, ?_⟩
    rintro - ⟨b, hb, rfl⟩
    obtain ⟨hbS, hab⟩ := mem_alike_iff.mp hb
    exact hfirst b hbS hab

/-- Between queues with `int` ids the order is a strict one that agrees with `==` exactly on the
sets of queues that are sortable. -/
theorem operatorLess_orders_iff_sortable
    (hint : ∀ mq ∈ S, -2 ^ 31 ≤ mq.queueId ∧ mq.queueId < 2 ^ 31) :
    Base.StrictlyOrders (fun a b ↦ a.operatorLess b = true) (fun a b ↦ a.operatorEq b = true) S ↔
      Sortable S :=
  ⟨sortable_of_strictlyOrders hint, fun hsort ↦ hsort.strictlyOrders hint⟩

/-- Ids on both sides of zero do no harm. -/
theorem operatorLess_orders_around_zero :
    Base.StrictlyOrders (fun a b : MessageQueue ↦ a.operatorLess b = true)
      (fun a b ↦ a.operatorEq b = true) {⟨str "t", str "b", -1⟩, ⟨str "t", str "b", 0⟩} := by
  apply (operatorLess_orders_iff_sortable (by simp)).mpr
  constructor
  · simp
  · intro a _
    exact ⟨-1, by simp⟩

/-- Two topics that differ only behind a `NUL` are neither less, greater nor equal; of two ids
`2 ^ 31` apart each is less than the other; and of three ids further apart, in turn, each is less
than the next and the last less than the first. -/
theorem operatorLess_not_order :
    ¬ Base.ExactlyOne (operatorLess ⟨[116, 0, 97], str "b", 0⟩ ⟨[116, 0, 98], str "b", 0⟩ = true)
      (operatorLess ⟨[116, 0, 98], str "b", 0⟩ ⟨[116, 0, 97], str "b", 0⟩ = true)
      (operatorEq ⟨[116, 0, 97], str "b", 0⟩ ⟨[116, 0, 98], str "b", 0⟩ = true) ∧
    ¬ Base.ExactlyOne
      (operatorLess ⟨str "t", str "b", 2147483647⟩ ⟨str "t", str "b", -1⟩ = true)
      (operatorLess ⟨str "t", str "b", -1⟩ ⟨str "t", str "b", 2147483647⟩ = true)
      (operatorEq ⟨str "t", str "b", 2147483647⟩ ⟨str "t", str "b", -1⟩ = true) ∧
    operatorLess ⟨str "t", str "b", -1500000000⟩ ⟨str "t", str "b", 0⟩ = true ∧
    operatorLess ⟨str "t", str "b", 0⟩ ⟨str "t", str "b", 1500000000⟩ = true ∧
    operatorLess ⟨str "t", str "b", 1500000000⟩ ⟨str "t", str "b", -1500000000⟩ = true := by
  simp only [Base.ExactlyOne]
  decide

/-- Queues whose names have no `NUL` and whose ids are not negative can be sorted. -/
theorem sortable_of_plain (hplain : ∀ mq ∈ S, mq.Plain) : Sortable S where
  names a ha b hb hsame _ := by
    have htopic : strcmp a.topic b.topic = .eq := Std.LawfulEqOrd.compare_eq_iff_eq.mpr hsame.1
    have hbroker : strcmp a.brokerName b.brokerName = .eq :=
      Std.LawfulEqOrd.compare_eq_iff_eq.mpr hsame.2
    rw [strcmp_eq_compare (hplain a ha).topic (hplain b hb).topic] at htopic
    rw [strcmp_eq_compare (hplain a ha).brokerName (hplain b hb).brokerName] at hbroker
    exact ⟨Std.LawfulEqOrd.eq_of_compare htopic, Std.LawfulEqOrd.eq_of_compare hbroker⟩
  ids a _ := by
    refine ⟨0, fun b hb _ ↦ ?_⟩
    have hnonneg := (hplain b hb).nonneg
    have hint := (hplain b hb).isInt
    omega

/-- All clients put the queues of a sortable set into the same order. -/
theorem Sortable.eq_of_mem_iff (hsort : Sortable S)
    (hint : ∀ mq ∈ S, -2 ^ 31 ≤ mq.queueId ∧ mq.queueId < 2 ^ 31) {mqs mqs' : List MessageQueue}
    (hS : ∀ mq ∈ mqs, mq ∈ S) (hsorted : mqs.Pairwise fun a b ↦ a.operatorLess b = true)
    (hsorted' : mqs'.Pairwise fun a b ↦ a.operatorLess b = true)
    (hmem : ∀ mq, mq ∈ mqs ↔ mq ∈ mqs') : mqs = mqs' :=
  (hsort.strictlyOrders hint).eq_of_mem_iff hS hsorted hsorted' hmem

end Sets

end RocketMQ.MessageQueue
