import RocketMQ.Base.Run
import RocketMQ.Consumer.OffsetStore

/-!
# Handing over the offset of a queue that leaves

A clustering consumer loses queues in `RebalanceImpl::updateProcessQueueTableInRebalance` and
in `truncateMessageQueueNotMyTopic` (`src/consumer/RebalanceImpl.cpp:458–594`), while consume
threads update the offset store and a timer runs `persistAll` over a snapshot of the process
queue table. A step below is one locked section or one request of any of them. A log
remembers with which offset a queue left, what was sent and which addresses the brokers had
then, and when an entry was discarded.
-/

namespace RocketMQ

/-- What the log of a run remembers, oldest entry first. A request stands with the brokers
and their addresses in the table that it was addressed by. -/
inductive HandOverLog where
  | left (mq : MessageQueue) (offset : Int)
  | sent (request : UpdateConsumerOffsetRequest) (brokerAddrs : List (StdString × StdString))
  | discarded (mq : MessageQueue)
deriving DecidableEq

/-- A `removeUnnecessaryMessageQueue` in progress, before or after its `persist`,
`src/consumer/RebalancePushImpl.cpp:123–131`. -/
structure Removal where
  mq : MessageQueue
  persisted : Bool
deriving DecidableEq

/-- A `persistAll` in progress: it has its queues, or it has collected what to send. -/
inductive PersistAllPc where
  | collecting (mqs : List MessageQueue)
  | sending (tmp : List (MessageQueue × Int))
deriving DecidableEq

/-- The keys of `m_processQueueTable`, the offset store, the broker addresses, the calls in
progress and the log. -/
structure HandOverState where
  table : List MessageQueue
  store : RemoteBrokerOffsetStore
  brokers : BrokerAddrTable
  removals : List Removal
  persistAlls : List PersistAllPc
  log : List HandOverLog

/-- What can happen next. A request that finds no address asks the name server first, which
leaves the addresses as given. -/
inductive HandOverEvent where
  | updateOffset (mq : MessageQueue) (offset : Int) (increaseOnly : Bool)
  | updateProcessQueueTableInRebalance (topic : StdString) (mqSet : List MessageQueue)
  | persist (i : Nat) (refreshed : BrokerAddrTable)
  | removeOffset (i : Nat)
  | addQueue (mq : MessageQueue)
  | truncateMessageQueueNotMyTopic (topics : List StdString)
  | persistAll
  | persistAllCollect (j : Nat)
  | persistAllSend (j : Nat) (refreshed : BrokerAddrTable)
  | route (brokers : BrokerAddrTable)

namespace HandOverState

/-- A consumer without queues, with whatever its offset store and the routes hold. -/
def start (store : RemoteBrokerOffsetStore) (brokers : BrokerAddrTable) : HandOverState :=
  ⟨[], store, brokers, [], [], []⟩

/-- The queues a rebalance takes out of the table, `src/consumer/RebalanceImpl.cpp:463–496`. -/
def leavingInRebalance (s : HandOverState) (topic : StdString) (mqSet : List MessageQueue) :
    List MessageQueue :=
  s.table.filter fun mq ↦ mq.topic = topic ∧ mq ∉ mqSet

/-- The queues whose topic is not subscribed, `src/consumer/RebalanceImpl.cpp:571–576`. -/
def leavingInTruncate (s : HandOverState) (topics : List StdString) : List MessageQueue :=
  s.table.filter fun mq ↦ mq.topic ∉ topics

/-- The address of the queue's broker is known. -/
def Known (s : HandOverState) (mq : MessageQueue) : Prop :=
  (s.brokers.findBrokerAddressInAdmin mq.brokerName).brokerAddr ≠ []

instance (s : HandOverState) (mq : MessageQueue) : Decidable (s.Known mq) :=
  inferInstanceAs (Decidable (_ ≠ _))

/-- What a queue has to hand over when it leaves. -/
def owed (s : HandOverState) (mq : MessageQueue) : Option Int :=
  if s.Known mq then s.store.offsetTable[mq]? else none

/-- The table and the log after queues left. -/
def leave (s : HandOverState) (mqs : List MessageQueue) : HandOverState :=
  { s with
    table := s.table.filter (· ∉ mqs)
    log := s.log ++ mqs.filterMap fun mq ↦ (s.owed mq).map (.left mq) }

/-- What a request for a queue of this broker adds to the log, if it is sent. -/
def sentEntry (lookup : BrokerLookup) (brokerName : StdString)
    (request : Option UpdateConsumerOffsetRequest) : List HandOverLog :=
  (request.map (.sent · (lookup.tableInAdmin brokerName).brokerAddrs)).toList

/-- One step. -/
def step (projectGroupPrefix : StdString) (s : HandOverState) :
    HandOverEvent → Option HandOverState
  | .updateOffset mq offset increaseOnly =>
    some { s with store := s.store.updateOffset mq offset increaseOnly }
  | .updateProcessQueueTableInRebalance topic mqSet =>
    let leaving := s.leavingInRebalance topic mqSet
    let left := s.leave leaving
    some { left with removals := left.removals ++ leaving.map fun mq ↦ ⟨mq, false⟩ }
  | .persist i refreshed =>
    match s.removals[i]? with
    | some ⟨mq, false⟩ =>
      let lookup : BrokerLookup := ⟨s.brokers, refreshed⟩
      let request := s.store.persist lookup projectGroupPrefix mq
      some { s with
        removals := s.removals.set i ⟨mq, true⟩
        log := s.log ++ sentEntry lookup mq.brokerName request }
    | _ => none
  | .removeOffset i =>
    match s.removals[i]? with
    | some ⟨mq, true⟩ =>
      some { s with
        store := s.store.removeOffset mq
        removals := s.removals.eraseIdx i
        log := s.log ++ if (s.store.offsetTable[mq]?).isSome then [.discarded mq] else [] }
    | _ => none
  | .addQueue mq => some { s with table := if mq ∈ s.table then s.table else s.table ++ [mq] }
  | .truncateMessageQueueNotMyTopic topics => some (s.leave (s.leavingInTruncate topics))
  | .persistAll => some { s with persistAlls := s.persistAlls ++ [.collecting s.table] }
  | .persistAllCollect j =>
    match s.persistAlls[j]? with
    | some (.collecting mqs) =>
      let (store, tmp) := s.store.persistAllCollect mqs
      let pruned := s.store.offsetTable.keys.filter fun mq ↦ (store.offsetTable[mq]?).isNone
      some { s with
        store
        persistAlls := s.persistAlls.set j (.sending tmp)
        log := s.log ++ pruned.map .discarded }
    | _ => none
  | .persistAllSend j refreshed =>
    match s.persistAlls[j]? with
    | some (.sending ((mq, offset) :: tmp)) =>
      let lookup : BrokerLookup := ⟨s.brokers, refreshed⟩
      let request := s.store.updateConsumeOffsetToBroker lookup projectGroupPrefix mq offset
      some { s with
        persistAlls := s.persistAlls.set j (.sending tmp)
        log := s.log ++ sentEntry lookup mq.brokerName request }
    | some (.sending []) => some { s with persistAlls := s.persistAlls.eraseIdx j }
    | _ => none
  | .route brokers => some { s with brokers }

/-- The entry is the request that the code builds for this offset of the queue in this group,
sent to an address of the queue's broker. -/
def IsRequest (projectGroupPrefix groupName : StdString) (mq : MessageQueue) (offset : Int) :
    HandOverLog → Prop
  | .sent request brokerAddrs =>
    request = MQClientAPIImpl.updateConsumerOffsetOneway projectGroupPrefix request.addr
        { consumerGroup := groupName, topic := mq.topic, queueId := mq.queueId,
          commitOffset := offset } ∧
      request.addr ≠ [] ∧ (mq.brokerName, request.addr) ∈ brokerAddrs
  | .left _ _ | .discarded _ => False

instance (projectGroupPrefix groupName : StdString) (mq : MessageQueue) (offset : Int) :
    ∀ entry, Decidable (IsRequest projectGroupPrefix groupName mq offset entry)
  | .sent _ _ => inferInstanceAs (Decidable (_ ∧ _ ≠ _ ∧ _))
  | .left _ _ | .discarded _ => inferInstanceAs (Decidable False)

/-- The log has a request for this offset of the queue, sent to the queue's broker. -/
def SentIn (projectGroupPrefix groupName : StdString) (log : List HandOverLog)
    (mq : MessageQueue) (offset : Int) : Prop :=
  ∃ entry ∈ log, IsRequest projectGroupPrefix groupName mq offset entry

instance (projectGroupPrefix groupName : StdString) (log : List HandOverLog)
    (mq : MessageQueue) (offset : Int) :
    Decidable (SentIn projectGroupPrefix groupName log mq offset) :=
  inferInstanceAs (Decidable (∃ entry ∈ log, _))

/-- Whenever the entry of a queue was discarded, every offset with which the queue had left
before, its broker being known, had been sent to that broker. -/
def HandedOver (projectGroupPrefix : StdString) (s : HandOverState) : Prop :=
  ∀ pre mq, pre ++ [.discarded mq] <+: s.log → ∀ offset, .left mq offset ∈ pre →
    SentIn projectGroupPrefix s.store.groupName pre mq offset

/-- Every queue that leaves in this step has nothing to hand over that was not sent before. -/
def NothingOwed (projectGroupPrefix : StdString) (s : HandOverState) : HandOverEvent → Prop
  | .updateProcessQueueTableInRebalance topic mqSet =>
    ∀ mq ∈ s.leavingInRebalance topic mqSet, ∀ offset ∈ s.owed mq,
      SentIn projectGroupPrefix s.store.groupName s.log mq offset
  | .truncateMessageQueueNotMyTopic topics =>
    ∀ mq ∈ s.leavingInTruncate topics, ∀ offset ∈ s.owed mq,
      SentIn projectGroupPrefix s.store.groupName s.log mq offset
  | _ => True

instance (projectGroupPrefix : StdString) :
    ∀ s e, Decidable (NothingOwed projectGroupPrefix s e)
  | _, .updateProcessQueueTableInRebalance _ _ | _, .truncateMessageQueueNotMyTopic _ =>
    inferInstanceAs (Decidable (∀ mq ∈ _, ∀ offset ∈ _, _))
  | _, .updateOffset _ _ _ | _, .persist _ _ | _, .removeOffset _ | _, .addQueue _
  | _, .persistAll | _, .persistAllCollect _ | _, .persistAllSend _ _ | _, .route _ =>
    inferInstanceAs (Decidable True)

/-- Every queue in the log left after its offset had been sent. -/
def SentBeforeLeft (projectGroupPrefix : StdString) (s : HandOverState) : Prop :=
  ∀ pre mq offset, pre ++ [.left mq offset] <+: s.log →
    SentIn projectGroupPrefix s.store.groupName pre mq offset

/-! ### What was sent -/

section

variable {projectGroupPrefix groupName : StdString} {mq : MessageQueue} {offset : Int}

/-- What was sent stays sent. -/
theorem SentIn.mono {log log' : List HandOverLog}
    (h : SentIn projectGroupPrefix groupName log mq offset) (hpre : log <+: log') :
    SentIn projectGroupPrefix groupName log' mq offset := by
  obtain ⟨entry, hm, hrequest⟩ := h
  exact ⟨entry, hpre.subset hm, hrequest⟩

/-- Entries that are no requests send nothing. -/
theorem not_sentIn_append {log new : List HandOverLog}
    (h : ¬ SentIn projectGroupPrefix groupName log mq offset)
    (hnew : ∀ entry ∈ new, ¬ IsRequest projectGroupPrefix groupName mq offset entry) :
    ¬ SentIn projectGroupPrefix groupName (log ++ new) mq offset := by
  rintro ⟨entry, hm, hrequest⟩
  rcases List.mem_append.mp hm with hold | hmem
  · exact h ⟨entry, hold, hrequest⟩
  · exact hnew entry hmem hrequest

/-- What `updateConsumeOffsetToBroker` sends is a request for the offset to the queue's
broker. -/
theorem isRequest_of_mem_sentEntry {store : RemoteBrokerOffsetStore} {lookup : BrokerLookup}
    {entry : HandOverLog}
    (hm : entry ∈ sentEntry lookup mq.brokerName
      (store.updateConsumeOffsetToBroker lookup projectGroupPrefix mq offset)) :
    IsRequest projectGroupPrefix store.groupName mq offset entry := by
  simp only [sentEntry, Option.mem_toList, Option.map_eq_some_iff] at hm
  obtain ⟨request, hsent, rfl⟩ := hm
  simp only [RemoteBrokerOffsetStore.updateConsumeOffsetToBroker] at hsent
  split at hsent
  · exact absurd hsent (by simp)
  · next hne =>
    obtain rfl := Option.some.inj hsent
    have haddr : (lookup.inAdmin mq.brokerName).brokerAddr ≠ [] := by simpa using hne
    refine ⟨rfl, haddr, ?_⟩
    rw [lookup.inAdmin_eq] at haddr
    simp only [MQClientAPIImpl.updateConsumerOffsetOneway, lookup.inAdmin_eq]
    exact BrokerAddrTable.mem_brokerAddrs_of_findBrokerAddressInAdmin haddr

/-- A `persistAll` that finds an address hands the offset over. -/
theorem sentIn_of_persistAllSend {s t : HandOverState} {j : Nat} {refreshed : BrokerAddrTable}
    {tmp : List (MessageQueue × Int)}
    (hpc : s.persistAlls[j]? = some (.sending ((mq, offset) :: tmp)))
    (hfound : (BrokerLookup.inAdmin ⟨s.brokers, refreshed⟩ mq.brokerName).brokerAddr ≠ [])
    (hstep : s.step projectGroupPrefix (.persistAllSend j refreshed) = some t) :
    SentIn projectGroupPrefix s.store.groupName t.log mq offset := by
  simp only [step, hpc] at hstep
  obtain rfl := Option.some.inj hstep
  have hrequest : (sentEntry ⟨s.brokers, refreshed⟩ mq.brokerName
      (s.store.updateConsumeOffsetToBroker ⟨s.brokers, refreshed⟩ projectGroupPrefix mq
        offset)) ≠ [] := by
    simp [sentEntry, RemoteBrokerOffsetStore.updateConsumeOffsetToBroker, hfound]
  obtain ⟨entry, hm⟩ := List.exists_mem_of_ne_nil _ hrequest
  exact ⟨entry, List.mem_append_right _ hm, isRequest_of_mem_sentEntry hm⟩

/-- No step changes the group. -/
theorem groupName_step {s t : HandOverState} {e : HandOverEvent}
    (hstep : s.step projectGroupPrefix e = some t) :
    t.store.groupName = s.store.groupName := by
  cases e with
  | updateOffset mq offset increaseOnly =>
    obtain rfl := Option.some.inj hstep
    exact s.store.groupName_updateOffset mq offset increaseOnly
  | persistAllCollect j =>
    simp only [step] at hstep
    split at hstep
    · obtain rfl := Option.some.inj hstep
      exact s.store.groupName_persistAllCollect _
    · exact absurd hstep (by simp)
  | persist i refreshed | removeOffset i | persistAllSend j refreshed =>
    simp only [step] at hstep
    split at hstep <;> simp at hstep <;> exact hstep ▸ rfl
  | updateProcessQueueTableInRebalance topic mqSet | addQueue mq
  | truncateMessageQueueNotMyTopic topics | persistAll | route brokers =>
    obtain rfl := Option.some.inj hstep
    rfl

end

/-! ### Runs in which nothing is owed -/

section

variable {projectGroupPrefix : StdString}

/-- Offsets sent before the queue left were sent before its entry was discarded. -/
theorem handedOver_of_sentBeforeLeft {s : HandOverState}
    (h : s.SentBeforeLeft projectGroupPrefix) : s.HandedOver projectGroupPrefix := by
  intro pre mq hpre offset hleft
  obtain ⟨before, after, rfl⟩ := List.append_of_mem hleft
  have hbefore : before ++ [.left mq offset] <+: before ++ .left mq offset :: after :=
    ⟨after, by simp⟩
  have hsent := h before mq offset
    (hbefore.trans ((List.prefix_append _ _).trans hpre))
  exact hsent.mono (List.prefix_append _ _)

/-- Where an entry of a longer log is: in the old part, or in what was added. -/
private theorem concat_prefix_append {α : Type} {pre log new : List α} {a : α}
    (h : pre ++ [a] <+: log ++ new) : pre ++ [a] <+: log ∨ log <+: pre ∧ a ∈ new := by
  rcases List.prefix_or_prefix_of_prefix h (List.prefix_append log new) with hl | hr
  · exact Or.inl hl
  · rcases List.prefix_concat_iff.mp hr with heq | hpre
    · exact Or.inl (heq ▸ List.prefix_refl _)
    · obtain ⟨rest, rfl⟩ := hpre
      rw [List.append_assoc, List.prefix_append_right_inj] at h
      exact Or.inr ⟨List.prefix_append _ _, h.subset (by simp)⟩

/-- A step whose departures were all sent keeps it that way. -/
theorem sentBeforeLeft_append {s t : HandOverState} {new : List HandOverLog}
    (h : s.SentBeforeLeft projectGroupPrefix) (hlog : t.log = s.log ++ new)
    (hgroup : t.store.groupName = s.store.groupName)
    (hnew : ∀ mq offset, .left mq offset ∈ new →
      SentIn projectGroupPrefix s.store.groupName s.log mq offset) :
    t.SentBeforeLeft projectGroupPrefix := by
  intro pre mq offset hpre
  rw [hlog] at hpre
  rw [hgroup]
  rcases concat_prefix_append hpre with hold | ⟨hlogpre, hmem⟩
  · exact h pre mq offset hold
  · exact (hnew mq offset hmem).mono hlogpre

/-- The departures of a step are those of the queues that owe something. -/
theorem sentBeforeLeft_leave {s : HandOverState} {mqs : List MessageQueue}
    (h : s.SentBeforeLeft projectGroupPrefix)
    (hgood : ∀ mq ∈ mqs, ∀ offset ∈ s.owed mq,
      SentIn projectGroupPrefix s.store.groupName s.log mq offset) :
    (s.leave mqs).SentBeforeLeft projectGroupPrefix := by
  apply sentBeforeLeft_append (t := s.leave mqs) h rfl rfl
  intro mq offset hm
  obtain ⟨mq', hmq', hmap⟩ := List.mem_filterMap.mp hm
  obtain ⟨offset', howed, heq⟩ := Option.map_eq_some_iff.mp hmap
  obtain ⟨rfl, rfl⟩ := HandOverLog.left.inj heq
  exact hgood mq' hmq' offset' howed

/-- A request is no departure. -/
private theorem not_left_sentEntry {mq : MessageQueue} {offset : Int} {lookup : BrokerLookup}
    {brokerName : StdString} {request : Option UpdateConsumerOffsetRequest} :
    HandOverLog.left mq offset ∉ sentEntry lookup brokerName request := by
  cases request <;> simp [sentEntry]

/-- Steps in which no queue leaves with something to hand over keep the order of the log. -/
theorem sentBeforeLeft_step (s : HandOverState) (e : HandOverEvent) (t : HandOverState)
    (h : s.SentBeforeLeft projectGroupPrefix) (hgood : s.NothingOwed projectGroupPrefix e)
    (hstep : s.step projectGroupPrefix e = some t) : t.SentBeforeLeft projectGroupPrefix := by
  have hgroup := groupName_step hstep
  have hsame (hlog : t.log = s.log) : t.SentBeforeLeft projectGroupPrefix :=
    @sentBeforeLeft_append _ s t [] h (by rw [hlog, List.append_nil]) hgroup (by simp)
  cases e with
  | updateOffset mq offset increaseOnly =>
    obtain rfl := Option.some.inj hstep
    exact hsame rfl
  | updateProcessQueueTableInRebalance topic mqSet =>
    obtain rfl := Option.some.inj hstep
    exact sentBeforeLeft_leave h hgood
  | persist i refreshed =>
    simp only [step] at hstep
    split at hstep
    · obtain rfl := Option.some.inj hstep
      exact sentBeforeLeft_append h rfl hgroup fun _ _ hm ↦ absurd hm not_left_sentEntry
    · exact absurd hstep (by simp)
  | removeOffset i =>
    simp only [step] at hstep
    split at hstep
    · obtain rfl := Option.some.inj hstep
      apply sentBeforeLeft_append h rfl hgroup
      intro mq offset hm
      split at hm <;> simp at hm
    · exact absurd hstep (by simp)
  | addQueue mq =>
    obtain rfl := Option.some.inj hstep
    exact hsame rfl
  | truncateMessageQueueNotMyTopic topics =>
    obtain rfl := Option.some.inj hstep
    exact sentBeforeLeft_leave h hgood
  | persistAll =>
    obtain rfl := Option.some.inj hstep
    exact hsame rfl
  | persistAllCollect j =>
    simp only [step] at hstep
    split at hstep
    · obtain rfl := Option.some.inj hstep
      exact sentBeforeLeft_append h rfl hgroup fun mq offset hm ↦ by simp at hm
    · exact absurd hstep (by simp)
  | persistAllSend j refreshed =>
    simp only [step] at hstep
    split at hstep
    · obtain rfl := Option.some.inj hstep
      exact sentBeforeLeft_append h rfl hgroup fun _ _ hm ↦ absurd hm not_left_sentEntry
    · obtain rfl := Option.some.inj hstep
      exact hsame rfl
    · exact absurd hstep (by simp)
  | route brokers =>
    obtain rfl := Option.some.inj hstep
    exact hsame rfl

end

/-- In a run in which every queue leaves with no offset, with its broker unknown, or with an
offset that some earlier `persistAll` sent, every offset is handed over. -/
theorem handedOver_of_nothingOwed (projectGroupPrefix : StdString)
    (store : RemoteBrokerOffsetStore) (brokers : BrokerAddrTable) (es : List HandOverEvent)
    (hgood : Base.Along (step projectGroupPrefix) (NothingOwed projectGroupPrefix)
      (start store brokers) es) :
    ∀ t, Base.Visits (step projectGroupPrefix) (start store brokers) es t →
      t.HandedOver projectGroupPrefix := by
  intro t ht
  have hstart : (start store brokers).SentBeforeLeft projectGroupPrefix := by
    intro pre mq offset hpre
    simp [start] at hpre
  exact handedOver_of_sentBeforeLeft (Base.inv_of_visits sentBeforeLeft_step hstart hgood ht)

/-- A consumer with one queue, whose broker is known. -/
def oneBroker : BrokerAddrTable := {(str "b", {(0, str "a:1")})}

/-- The offset `8` is sent by `persistAll` before the queue leaves with it. -/
def persistedFirst : List HandOverEvent :=
  [.addQueue ⟨str "t", str "b", 0⟩, .updateOffset ⟨str "t", str "b", 0⟩ 8 true,
    .persistAll, .persistAllCollect 0, .persistAllSend 0 ∅,
    .updateProcessQueueTableInRebalance (str "t") [], .persist 0 ∅, .removeOffset 0]

/-- The queue leaves with its offset and keeps the promise. -/
theorem handedOver_of_nothingOwed_persisted :
    (Base.runFrom (step []) (start ⟨str "g", ∅⟩ oneBroker) persistedFirst).map
        (fun s ↦ s.log) =
      some [.sent ⟨str "a:1", ⟨str "g", str "t", 0, 8⟩⟩ [(str "b", str "a:1")],
        .left ⟨str "t", str "b", 0⟩ 8, .discarded ⟨str "t", str "b", 0⟩] ∧
      ∀ t, Base.Visits (step []) (start ⟨str "g", ∅⟩ oneBroker) persistedFirst t →
        t.HandedOver [] :=
  ⟨by decide +kernel, handedOver_of_nothingOwed [] _ _ _ (by decide +kernel)⟩

/-- The offset `8` is only in memory when the queue leaves: nothing is sent at all. -/
theorem removed_queue_not_handedOver :
    ∃ s, Base.runFrom (step []) (start ⟨str "g", ∅⟩ oneBroker)
        [.addQueue ⟨str "t", str "b", 0⟩, .updateOffset ⟨str "t", str "b", 0⟩ 8 true,
          .updateProcessQueueTableInRebalance (str "t") [], .persist 0 ∅, .removeOffset 0] =
          some s ∧
      s.log = [.left ⟨str "t", str "b", 0⟩ 8, .discarded ⟨str "t", str "b", 0⟩] ∧
      ¬ s.HandedOver [] := by
  refine ⟨_, rfl, by decide, fun h ↦ ?_⟩
  obtain ⟨entry, hm, hrequest⟩ := h [.left ⟨str "t", str "b", 0⟩ 8] ⟨str "t", str "b", 0⟩
    (by decide) 8 List.mem_cons_self
  obtain rfl := List.mem_singleton.mp hm
  exact hrequest

/-! ### What happens to an offset that is owed -/

section

variable {projectGroupPrefix : StdString} {s : HandOverState} {mq : MessageQueue} {offset : Int}

/-- An entry that a queue left with unsent is not handed over when it is discarded. -/
theorem not_handedOver_of_discarded {pre : List HandOverLog}
    (hpre : pre ++ [.discarded mq] <+: s.log) (hleft : .left mq offset ∈ pre)
    (hunsent : ¬ SentIn projectGroupPrefix s.store.groupName pre mq offset) :
    ¬ s.HandedOver projectGroupPrefix :=
  fun h ↦ hunsent (h pre mq hpre offset hleft)

/-- A departure adds no request. -/
theorem not_sentIn_leave {groupName : StdString} {mqs : List MessageQueue}
    (h : ¬ SentIn projectGroupPrefix groupName s.log mq offset) :
    ¬ SentIn projectGroupPrefix groupName (s.leave mqs).log mq offset := by
  apply not_sentIn_append h
  intro entry hm hrequest
  obtain ⟨mq', -, hmap⟩ := List.mem_filterMap.mp hm
  obtain ⟨offset', -, rfl⟩ := Option.map_eq_some_iff.mp hmap
  exact hrequest

/-- A queue that leaves is in the log with what it owes. -/
theorem left_mem_leave {mqs : List MessageQueue} (hmq : mq ∈ mqs)
    (howed : s.owed mq = some offset) :
    .left mq offset ∈ (s.leave mqs).log :=
  List.mem_append_right _ (List.mem_filterMap.mpr ⟨mq, hmq, by rw [howed]; rfl⟩)

/-- What is owed is in the store. -/
theorem getElem?_of_owed (howed : s.owed mq = some offset) :
    s.store.offsetTable[mq]? = some offset := by
  unfold owed at howed
  split at howed
  · exact howed
  · exact absurd howed (by simp)

/-- A rebalance that takes away one queue and completes its removal undisturbed loses an
offset that was not sent before, since `persist` sends nothing. -/
theorem undisturbed_removal_loses {topic : StdString} {mqSet : List MessageQueue}
    (refreshed : BrokerAddrTable) (hleaving : s.leavingInRebalance topic mqSet = [mq])
    (howed : s.owed mq = some offset)
    (hunsent : ¬ SentIn projectGroupPrefix s.store.groupName s.log mq offset) :
    ∃ t, Base.runFrom (step projectGroupPrefix) s
        [.updateProcessQueueTableInRebalance topic mqSet, .persist s.removals.length refreshed,
          .removeOffset s.removals.length] = some t ∧
      ¬ t.HandedOver projectGroupPrefix := by
  have hmem : mq ∈ s.store.offsetTable := by
    rw [Std.ExtTreeMap.mem_iff_isSome_getElem?, getElem?_of_owed howed]
    rfl
  refine ⟨{ s.leave [mq] with
    store := s.store.removeOffset mq
    removals := s.removals
    log := (s.leave [mq]).log ++ [.discarded mq] }, ?_, ?_⟩
  · have hlast : (s.removals ++ [(⟨mq, true⟩ : Removal)]).eraseIdx s.removals.length =
        s.removals := by
      rw [List.eraseIdx_append_of_length_le (Nat.le_refl _)]
      simp
    simp [Base.runFrom, step, hleaving, leave, sentEntry, hmem, hlast]
  · exact not_handedOver_of_discarded (List.prefix_refl _)
      (left_mem_leave (List.mem_singleton_self mq) howed) (not_sentIn_leave hunsent)

/-- A truncation that takes away a queue loses its offset at the next `persistAll`, if that
still has a queue to work on, unless the offset was sent before. -/
theorem truncated_queue_loses {topics : List StdString} {kept : MessageQueue}
    (hmq : mq ∈ s.leavingInTruncate topics) (hkept : kept ∈ s.table)
    (hsubscribed : kept.topic ∈ topics) (howed : s.owed mq = some offset)
    (hunsent : ¬ SentIn projectGroupPrefix s.store.groupName s.log mq offset) :
    ∃ t, Base.runFrom (step projectGroupPrefix) s
        [.truncateMessageQueueNotMyTopic topics, .persistAll,
          .persistAllCollect s.persistAlls.length] = some t ∧
      ¬ t.HandedOver projectGroupPrefix := by
  have hleft : mq ∉ (s.leave (s.leavingInTruncate topics)).table := by
    simp [leave, hmq]
  have hne : (s.leave (s.leavingInTruncate topics)).table ≠ [] := by
    apply List.ne_nil_of_mem (a := kept)
    simp [leave, leavingInTruncate, hkept, hsubscribed]
  have hpruned : mq ∈ s.store.offsetTable.keys.filter fun k ↦
      ((s.store.persistAllCollect (s.leave (s.leavingInTruncate topics)).table).1.offsetTable[k]?
        ).isNone := by
    rw [List.mem_filter, Std.ExtTreeMap.mem_keys, Std.ExtTreeMap.mem_iff_isSome_getElem?,
      getElem?_of_owed howed, s.store.getElem?_persistAllCollect _ hne, if_neg hleft]
    exact ⟨rfl, rfl⟩
  obtain ⟨before, after, hsplit⟩ := List.append_of_mem hpruned
  refine ⟨{ s.leave (s.leavingInTruncate topics) with
    store := (s.store.persistAllCollect (s.leave (s.leavingInTruncate topics)).table).1
    persistAlls := s.persistAlls ++ [.sending
      (s.store.persistAllCollect (s.leave (s.leavingInTruncate topics)).table).2]
    log := (s.leave (s.leavingInTruncate topics)).log ++
      (before ++ mq :: after).map .discarded }, ?_, ?_⟩
  · rw [← hsplit]
    simp [Base.runFrom, step, leave]
  · refine @not_handedOver_of_discarded _ _ mq offset
      ((s.leave (s.leavingInTruncate topics)).log ++ before.map .discarded) ?_ ?_ ?_
    · simp
    · exact List.mem_append_left _ (left_mem_leave hmq howed)
    · rw [show RemoteBrokerOffsetStore.groupName _ = s.store.groupName from
        s.store.groupName_persistAllCollect _]
      apply not_sentIn_append (not_sentIn_leave hunsent)
      intro entry hm hrequest
      obtain ⟨mq', -, rfl⟩ := List.mem_map.mp hm
      exact hrequest

end

end HandOverState
end RocketMQ
