import RocketMQ.Base.Custody
import RocketMQ.Base.Run
import RocketMQ.Consumer.PullMessage

/-!
# The pull loop of a push consumer

`src/consumer/PullMessageService.cpp` with the components that hold a `PullRequest` in turn:
the queue of the service, its timers, the response table of the remoting client and the
callbacks. A `PullRequest` is named by its position among all that were dispatched. The
timer thread is created by the constructor of the service and started by nobody, while the
consume services start theirs.
-/

namespace RocketMQ

/-- What `PullMessageService::Run` is at: waiting, pulling, or in the `SendCmd` of
`invokeAsyncImpl` with the entry of the response table already made. -/
inductive PullThread where
  | idle
  | pulling (id : Nat)
  | sending (opaqueId : Int)
deriving DecidableEq

/-- A started push consumer. -/
structure PullLoopState where
  requests : List PullRequest
  processQueueTable : List (MessageQueue × Nat)
  client : PullClient
  pullRequestQueue : List Nat
  serviceThread : PullThread
  timers : List (Nat × Int)
  timeThreadStarted : Bool
  responseTable : List (Int × Nat)
  nextOpaque : Int
  callbacks : List (Nat × RemotingCommand PullMessageResponseHeader)

/-- What can happen next. A rebalance comes with the queues allocated for a topic and what
`computePullFromWhere` says about each. -/
inductive PullLoopEvent where
  | updateProcessQueueTableInRebalance (topic : StdString) (mqSet : List MessageQueue)
      (nextOffset : MessageQueue → Int)
  | truncateMessageQueueNotMyTopic (topics : List StdString)
  | setPause (pause : Bool)
  | takeRequest
  | pullMessage (input : PullInput)
  | sendCmd (ret : Int)
  | processResponseCommand (opaqueId : Int)
      (response : RemotingCommand PullMessageResponseHeader)
  | operationComplete (n : Nat) (msgCount : Int)
  | onTimeOut (n : Nat)

namespace PullLoopState

/-- After `DefaultMQPushConsumerImpl::start`, before the first rebalance. -/
def start (consumer : PushConsumer) (offsetStore : RemoteBrokerOffsetStore) : PullLoopState where
  requests := []
  processQueueTable := []
  client := ⟨[consumer.consumerGroup], .running, false, offsetStore, ∅⟩
  pullRequestQueue := []
  serviceThread := .idle
  timers := []
  timeThreadStarted := false
  responseTable := []
  nextOpaque := 0
  callbacks := []

/-- `setDropped(true)` on the `ProcessQueue`s of some requests. -/
def setDropped (requests : List PullRequest) (ids : List Nat) : List PullRequest :=
  requests.mapIdx fun id request ↦
    if id ∈ ids then { request with dropped := true } else request

/-- `src/consumer/RebalancePushImpl.cpp:35–43`. -/
def dispatchPullRequest (s : PullLoopState) (pullRequestList : List PullRequest) :
    PullLoopState :=
  { s with
    requests := s.requests ++ pullRequestList
    pullRequestQueue :=
      s.pullRequestQueue ++ List.range' s.requests.length pullRequestList.length }

/-- Both loops of the table that take queues out, `src/consumer/RebalanceImpl.cpp:463–514` and
`571–594`. -/
def removeQueues (s : PullLoopState) (leaves : MessageQueue → Bool) : PullLoopState :=
  { s with
    requests :=
      setDropped s.requests ((s.processQueueTable.filter (leaves ·.1)).map Prod.snd)
    processQueueTable := s.processQueueTable.filter (!leaves ·.1) }

/-- `src/consumer/RebalanceImpl.cpp:458–563`; `mqSet` is a set. -/
def updateProcessQueueTableInRebalance (s : PullLoopState) (consumerGroup topic : StdString)
    (mqSet : List MessageQueue) (nextOffset : MessageQueue → Int) : PullLoopState :=
  let left := s.removeQueues fun mq ↦ mq.topic = topic ∧ mq ∉ mqSet
  let joining := mqSet.filter fun mq ↦
    mq ∉ left.processQueueTable.map Prod.fst ∧ nextOffset mq ≥ 0
  let joined := { left with
    processQueueTable :=
      left.processQueueTable ++ joining.zip (List.range' s.requests.length joining.length) }
  joined.dispatchPullRequest (joining.map fun mq ↦ ⟨consumerGroup, mq, nextOffset mq, false⟩)

/-- `executePullRequestImmediately` and `executePullRequestLater`,
`src/consumer/PullMessageService.cpp:42–68`. -/
def execute (s : PullLoopState) (id : Nat) : ExecutePullRequest → PullLoopState
  | .immediately => { s with pullRequestQueue := s.pullRequestQueue ++ [id] }
  | .later timeDelay => { s with timers := s.timers ++ [(id, timeDelay)] }

/-- The service thread after a pull of the request `id`. -/
def afterPull (s : PullLoopState) (id : Nat) : PullOutcome → PullLoopState
  | .dropped | .noConsumer | .notConnected => { s with serviceThread := .idle }
  | .later timeDelay => { s with serviceThread := .idle }.execute id (.later timeDelay)
  | .invoked =>
    { s with
      serviceThread := .sending s.nextOpaque
      responseTable := s.responseTable ++ [(s.nextOpaque, id)]
      nextOpaque := s.nextOpaque + 1 }

/-- The entry of the response table under a request's number. -/
def responseFuture (s : PullLoopState) (opaqueId : Int) : Option (Int × Nat) :=
  s.responseTable.find? (·.1 = opaqueId)

/-- The response table without that entry. -/
def eraseFuture (s : PullLoopState) (opaqueId : Int) : PullLoopState :=
  { s with responseTable := s.responseTable.eraseP (·.1 = opaqueId) }

/-- One step. -/
def step (consumer : PushConsumer) (s : PullLoopState) : PullLoopEvent → Option PullLoopState
  | .updateProcessQueueTableInRebalance topic mqSet nextOffset =>
    if mqSet.Nodup then
      some (s.updateProcessQueueTableInRebalance consumer.consumerGroup topic mqSet nextOffset)
    else none
  | .truncateMessageQueueNotMyTopic topics => some (s.removeQueues fun mq ↦ mq.topic ∉ topics)
  | .setPause pause => some { s with client := { s.client with pause } }
  | .takeRequest =>
    match s.serviceThread, s.pullRequestQueue with
    | .idle, id :: rest => some { s with serviceThread := .pulling id, pullRequestQueue := rest }
    | _, _ => none
  | .pullMessage input =>
    match s.serviceThread with
    | .pulling id =>
      (s.requests[id]?).map fun request ↦
        s.afterPull id (consumer.pullMessage s.client input request)
    | _ => none
  | .sendCmd ret =>
    match s.serviceThread with
    | .sending opaqueId =>
      let done := { s with serviceThread := .idle }
      some (if ret = 0 then done else done.eraseFuture opaqueId)
    | _ => none
  | .processResponseCommand opaqueId response =>
    match s.responseFuture opaqueId with
    | some (_, id) =>
      some { s.eraseFuture opaqueId with callbacks := s.callbacks ++ [(id, response)] }
    | none => some s
  | .operationComplete n msgCount =>
    match s.callbacks[n]? with
    | some (id, response) =>
      match s.requests[id]? with
      | some request =>
        (RocketMQ.operationComplete consumer s.client request msgCount response).map
          fun (client, request, how) ↦
            { s with
              client
              requests := s.requests.set id request
              callbacks := s.callbacks.eraseIdx n }.execute id how
      | none => none
    | none => none
  | .onTimeOut n =>
    match s.timers[n]? with
    | some (id, _) =>
      if s.timeThreadStarted then
        some ({ s with timers := s.timers.eraseIdx n }.execute id .immediately)
      else none
    | none => none

/-! ### The holders -/

/-- The requests a pull step executes for: at most one. -/
def pulling (s : PullLoopState) : List Nat :=
  match s.serviceThread with
  | .pulling id => [id]
  | _ => []

/-- The requests of the timers, when somebody is there to fire them. -/
def pendingTimers (s : PullLoopState) : List Nat :=
  match s.timeThreadStarted with
  | true => s.timers.map Prod.fst
  | false => []

/-- Every request as often as it is held. -/
def holders (s : PullLoopState) : List Nat :=
  s.pullRequestQueue ++ s.pulling ++ s.pendingTimers ++ s.responseTable.map Prod.snd ++
    s.callbacks.map Prod.fst

/-- The request was dispatched and its `ProcessQueue` is not dropped. -/
def InUse (s : PullLoopState) (id : Nat) : Prop :=
  (s.requests[id]?).map (·.dropped) = some false

instance (s : PullLoopState) (id : Nat) : Decidable (s.InUse id) :=
  inferInstanceAs (Decidable (_ = _))

/-- Every request in use has exactly one live holder. -/
def HeldOnce (s : PullLoopState) : Prop := Base.HeldOnce s.InUse s.holders

/-- The request whose entry a failed `SendCmd` would erase. -/
def awaited (s : PullLoopState) : Option Nat :=
  match s.serviceThread with
  | .sending opaqueId => (s.responseFuture opaqueId).map Prod.snd
  | _ => none

/-- The request the service thread is to pull for. -/
def pulled (s : PullLoopState) : Option PullRequest :=
  match s.serviceThread with
  | .pulling id => s.requests[id]?
  | _ => none

/-- The step does not have to retry later, and does not fail to send: a pull goes through to
the response table, a `SendCmd` succeeds unless the reply is there already, a reply sends its
request straight back. Requests that are dropped may go. -/
def GoesOn (consumer : PushConsumer) (s : PullLoopState) : PullLoopEvent → Prop
  | .pullMessage input =>
    ∀ request ∈ s.pulled, request.dropped = true ∨ CanPull consumer s.client input request
  | .sendCmd ret => ret = 0 ∨ ∀ id ∈ s.awaited, ¬ s.InUse id
  | .operationComplete n _ =>
    ∀ callback ∈ s.callbacks[n]?, ¬ s.InUse callback.1 ∨ SentBack consumer callback.2.code
  | _ => True

/-- The invariant of the steps that go on. -/
structure Inv (s : PullLoopState) : Prop where
  heldOnce : s.HeldOnce
  dispatched : ∀ id ∈ s.holders, id < s.requests.length
  notStarted : s.timeThreadStarted = false

instance (consumer : PushConsumer) (s : PullLoopState) :
    (e : PullLoopEvent) → Decidable (GoesOn consumer s e)
  | .pullMessage _ => inferInstanceAs (Decidable (∀ _ ∈ s.pulled, _))
  | .sendCmd _ => inferInstanceAs (Decidable (_ ∨ ∀ _ ∈ s.awaited, _))
  | .operationComplete _ _ => inferInstanceAs (Decidable (∀ _ ∈ _, _))
  | .updateProcessQueueTableInRebalance _ _ _ | .truncateMessageQueueNotMyTopic _
  | .setPause _ | .takeRequest | .processResponseCommand _ _ | .onTimeOut _ =>
    inferInstanceAs (Decidable True)

/-! ### What one step does to the holders -/

section Holders

variable {s t : PullLoopState} {id : Nat}

/-- The front of the queue goes to the service thread. -/
theorem holders_takeRequest {rest : List Nat} (hthread : s.serviceThread = .idle)
    (hqueue : s.pullRequestQueue = id :: rest) :
    ({ s with serviceThread := .pulling id, pullRequestQueue := rest } :
      PullLoopState).holders.Perm s.holders := by
  rw [List.perm_iff_count]
  intro j
  simp only [holders, pulling, pendingTimers, hthread, hqueue, List.count_append,
    List.count_cons, List.count_nil]
  omega

/-- A pull that is invoked hands its request to the response table. -/
theorem holders_afterPull_invoked (hthread : s.serviceThread = .pulling id) :
    (s.afterPull id .invoked).holders.Perm s.holders := by
  rw [List.perm_iff_count]
  intro j
  simp only [holders, afterPull, pulling, pendingTimers, hthread, List.count_append,
    List.map_append, List.map_cons, List.map_nil, List.count_cons, List.count_nil]
  omega

/-- Any other pull leaves its request without a live holder. -/
theorem holders_afterPull_lost (hthread : s.serviceThread = .pulling id)
    (hstart : s.timeThreadStarted = false) {outcome : PullOutcome} (h : outcome ≠ .invoked) :
    s.holders.Perm (id :: (s.afterPull id outcome).holders) := by
  rw [List.perm_iff_count]
  intro j
  cases outcome with
  | invoked => exact absurd rfl h
  | dropped | noConsumer | notConnected | later =>
    simp only [holders, afterPull, execute, pulling, pendingTimers, hthread, hstart,
      List.count_append, List.count_cons, List.count_nil]
    simp
    omega

/-- Erasing an entry of the response table takes its request away. -/
theorem holders_eraseFuture {opaqueId : Int} {entry : Int × Nat}
    (h : s.responseFuture opaqueId = some entry) :
    s.holders.Perm (entry.2 :: (s.eraseFuture opaqueId).holders) := by
  rw [List.perm_iff_count]
  intro j
  have hcount := (Base.map_perm_eraseP Prod.snd h).count_eq j
  rw [List.count_cons] at hcount
  simp only [holders, eraseFuture, pulling, pendingTimers, List.count_append, List.count_cons]
  omega

/-- Sending a request back at once makes the queue hold it. -/
theorem holders_execute_immediately :
    (s.execute id .immediately).holders.Perm (id :: s.holders) := by
  rw [List.perm_iff_count]
  intro j
  simp only [holders, execute, pulling, pendingTimers, List.count_append, List.count_cons,
    List.count_nil]
  omega

/-- A timer that nobody fires holds nothing. -/
theorem holders_execute_later (hstart : s.timeThreadStarted = false) (timeDelay : Int) :
    (s.execute id (.later timeDelay)).holders = s.holders := by
  simp [holders, execute, pulling, pendingTimers, hstart]

end Holders

/-! ### What one step does to the requests -/

section Requests

variable {s : PullLoopState} {id : Nat}

private theorem length_setDropped (requests : List PullRequest) (ids : List Nat) :
    (setDropped requests ids).length = requests.length := by
  simp [setDropped]

/-- Dropping leaves fewer requests in use. -/
theorem getElem?_setDropped (requests : List PullRequest) (ids : List Nat) :
    ((setDropped requests ids)[id]?).map (·.dropped) =
      (requests[id]?).map fun request ↦ decide (id ∈ ids) || request.dropped := by
  rw [setDropped, List.getElem?_mapIdx]
  cases requests[id]? with
  | none => rfl
  | some request => by_cases hid : id ∈ ids <;> simp [hid]

private theorem inUse_of_setDropped {requests : List PullRequest} {ids : List Nat}
    (h : ((setDropped requests ids)[id]?).map (·.dropped) = some false) :
    (requests[id]?).map (·.dropped) = some false := by
  rw [getElem?_setDropped] at h
  cases hr : requests[id]? with
  | none => simp [hr] at h
  | some request =>
    simp only [hr, Option.map_some, Option.some.injEq, Bool.or_eq_false_iff] at h ⊢
    exact h.2

/-- A callback leaves the same requests in use. -/
theorem inUse_set_iff {n : Nat} {request request' : PullRequest} (h : s.requests[n]? = some request)
    (hd : request'.dropped = request.dropped) :
    (((s.requests.set n request')[id]?).map (·.dropped) = some false) ↔ s.InUse id := by
  rw [InUse, List.getElem?_set]
  split
  · next hn =>
    subst hn
    have hlt := (List.getElem?_eq_some_iff.mp h).1
    rw [if_pos hlt, h, Option.map_some, Option.map_some, hd]
  · rfl

end Requests

/-! ### The invariant -/

section Invariant

variable {consumer : PushConsumer} {s t : PullLoopState} {id : Nat}

/-- A step that hands a request over, or does nothing with it, keeps the invariant. -/
theorem Inv.of_handover (hi : Inv s) (hperm : t.holders.Perm s.holders)
    (huse : ∀ id, t.InUse id → s.InUse id) (hlen : t.requests.length = s.requests.length)
    (hstart : t.timeThreadStarted = false) : Inv t where
  heldOnce := hi.heldOnce.of_handover hperm huse
  dispatched id hid := hlen ▸ hi.dispatched id (hperm.mem_iff.mp hid)
  notStarted := hstart

/-- A step that loses a request which is not in use keeps the invariant. -/
theorem Inv.of_loss (hi : Inv s) (hperm : s.holders.Perm (id :: t.holders))
    (huse : ∀ id, t.InUse id → s.InUse id) (hid : ¬ t.InUse id)
    (hlen : t.requests.length = s.requests.length) (hstart : t.timeThreadStarted = false) :
    Inv t where
  heldOnce := hi.heldOnce.of_loss hperm huse hid
  dispatched j hj := hlen ▸ hi.dispatched j (hperm.mem_iff.mpr (List.mem_cons_of_mem _ hj))
  notStarted := hstart

/-- A consumer without queues holds nothing. -/
theorem inv_start (consumer : PushConsumer) (offsetStore : RemoteBrokerOffsetStore) :
    Inv (start consumer offsetStore) where
  heldOnce id hid := by simp [InUse, start] at hid
  dispatched id hid := by simp [holders, pulling, pendingTimers, start] at hid
  notStarted := rfl

/-- Taking queues out of the table only drops requests. -/
theorem inv_removeQueues (hi : Inv s) (leaves : MessageQueue → Bool) :
    Inv (s.removeQueues leaves) :=
  hi.of_handover (List.Perm.refl _) (fun _ ↦ inUse_of_setDropped) (length_setDropped _ _)
    hi.notStarted

/-- A dispatch puts every new request into the queue once. -/
theorem inv_dispatchPullRequest (hi : Inv s) (pullRequestList : List PullRequest) :
    Inv (s.dispatchPullRequest pullRequestList) := by
  have hperm : (s.dispatchPullRequest pullRequestList).holders.Perm
      (s.holders ++ List.range' s.requests.length pullRequestList.length) := by
    rw [List.perm_iff_count]
    intro j
    simp only [holders, dispatchPullRequest, pulling, pendingTimers, List.count_append]
    omega
  refine ⟨hi.heldOnce.of_fresh hperm List.nodup_range' ?_ ?_, ?_, hi.notStarted⟩
  · intro id hid hheld
    have hlt := hi.dispatched id hheld
    have hle := (List.mem_range'_1.mp hid).1
    omega
  · intro id hid
    rw [InUse, dispatchPullRequest] at hid
    by_cases hlt : id < s.requests.length
    · rw [List.getElem?_append_left hlt] at hid
      refine .inr ⟨hid, fun hmem ↦ ?_⟩
      have hle := (List.mem_range'_1.mp hmem).1
      omega
    · left
      cases hr : (s.requests ++ pullRequestList)[id]? with
      | none => simp [hr] at hid
      | some request =>
        have hlen := (List.getElem?_eq_some_iff.mp hr).1
        rw [List.length_append] at hlen
        exact List.mem_range'_1.mpr ⟨Nat.not_lt.mp hlt, hlen⟩
  · intro id hid
    rw [dispatchPullRequest, List.length_append]
    rcases List.mem_append.mp (hperm.mem_iff.mp hid) with hold | hnew
    · have hlt := hi.dispatched id hold
      omega
    · exact (List.mem_range'_1.mp hnew).2

/-- A rebalance keeps the invariant. -/
theorem inv_updateProcessQueueTableInRebalance (hi : Inv s) (consumerGroup topic : StdString)
    (mqSet : List MessageQueue) (nextOffset : MessageQueue → Int) :
    Inv (s.updateProcessQueueTableInRebalance consumerGroup topic mqSet nextOffset) := by
  apply inv_dispatchPullRequest
  have hleft := inv_removeQueues hi fun mq ↦ decide (mq.topic = topic ∧ mq ∉ mqSet)
  exact hleft.of_handover (List.Perm.refl _) (fun _ h ↦ h) rfl hi.notStarted

/-! ### Which steps go on -/

/-- A step that leaves a request without a live holder does harm exactly when the request is
in use. -/
theorem loss_cases (hi : Inv s) (hperm : s.holders.Perm (id :: t.holders))
    (huse : ∀ id, t.InUse id ↔ s.InUse id) (hlen : t.requests.length = s.requests.length)
    (hstart : t.timeThreadStarted = false) :
    Inv t ∧ ¬ s.InUse id ∨ ¬ t.HeldOnce ∧ s.InUse id := by
  by_cases hid : s.InUse id
  · exact .inr ⟨hi.heldOnce.not_of_loss hperm hid ((huse id).mpr hid), hid⟩
  · have hid' : ¬ t.InUse id := fun h ↦ hid ((huse id).mp h)
    exact .inl ⟨hi.of_loss hperm (fun j ↦ (huse j).mp) hid' hlen hstart, hid⟩

private theorem inUse_iff_not_dropped {request : PullRequest}
    (hreq : s.requests[id]? = some request) : s.InUse id ↔ request.dropped = false := by
  simp [InUse, hreq]

private theorem afterPull_requests (s : PullLoopState) (id : Nat) (outcome : PullOutcome) :
    (s.afterPull id outcome).requests = s.requests := by
  cases outcome <;> rfl

private theorem afterPull_timeThreadStarted (s : PullLoopState) (id : Nat)
    (outcome : PullOutcome) :
    (s.afterPull id outcome).timeThreadStarted = s.timeThreadStarted := by
  cases outcome <;> rfl

/-- A pull keeps the invariant exactly when it can reach the response table. -/
theorem pullMessage_cases (hi : Inv s) {request : PullRequest} {input : PullInput}
    (hthread : s.serviceThread = .pulling id) (hreq : s.requests[id]? = some request)
    (ht : s.afterPull id (consumer.pullMessage s.client input request) = t) :
    Inv t ∧ (request.dropped = true ∨ CanPull consumer s.client input request) ∨
      ¬ t.HeldOnce ∧ ¬ (request.dropped = true ∨ CanPull consumer s.client input request) := by
  have hrequests : t.requests = s.requests := ht ▸ afterPull_requests _ _ _
  have hstart : t.timeThreadStarted = false :=
    ht ▸ (afterPull_timeThreadStarted _ _ _).trans hi.notStarted
  have huse : ∀ j, t.InUse j ↔ s.InUse j := fun j ↦ by rw [InUse, InUse, hrequests]
  by_cases hinvoked : consumer.pullMessage s.client input request = .invoked
  · rw [hinvoked] at ht
    refine .inl ⟨hi.of_handover (ht ▸ holders_afterPull_invoked hthread)
      (fun j ↦ (huse j).mp) (by rw [hrequests]) hstart, ?_⟩
    cases hd : request.dropped
    · exact .inr ((pullMessage_eq_invoked_iff hd).mp hinvoked)
    · exact .inl rfl
  · have hlost := holders_afterPull_lost hthread hi.notStarted hinvoked
    rw [ht] at hlost
    rcases loss_cases hi hlost huse (by rw [hrequests]) hstart with ⟨hinv, hnot⟩ | ⟨hnot, hid⟩
    · rw [inUse_iff_not_dropped hreq, Bool.not_eq_false] at hnot
      exact .inl ⟨hinv, .inl hnot⟩
    · rw [inUse_iff_not_dropped hreq] at hid
      refine .inr ⟨hnot, ?_⟩
      rintro (hd | hcan)
      · rw [hid] at hd
        cases hd
      · exact hinvoked ((pullMessage_eq_invoked_iff hid).mpr hcan)

/-- A failed `SendCmd` does harm exactly when its entry is still there. -/
theorem sendCmd_cases (hi : Inv s) {opaqueId : Int} (hthread : s.serviceThread = .sending opaqueId)
    (ht : ({ s with serviceThread := .idle } : PullLoopState).eraseFuture opaqueId = t) :
    Inv t ∧ (∀ id ∈ s.awaited, ¬ s.InUse id) ∨ ¬ t.HeldOnce ∧ ¬ ∀ id ∈ s.awaited, ¬ s.InUse id := by
  have hidle : ({ s with serviceThread := .idle } : PullLoopState).holders = s.holders := by
    simp [holders, pulling, pendingTimers, hthread]
  have hawaited : s.awaited = (s.responseFuture opaqueId).map Prod.snd := by
    simp [awaited, hthread]
  subst ht
  cases hentry : s.responseFuture opaqueId with
  | none =>
    have hall : ∀ entry ∈ s.responseTable, ¬ (decide (entry.1 = opaqueId)) = true :=
      List.find?_eq_none.mp hentry
    rw [eraseFuture, List.eraseP_of_forall_not hall]
    refine .inl ⟨hi.of_handover (hidle ▸ List.Perm.refl _) (fun _ h ↦ h) rfl hi.notStarted, ?_⟩
    simp [hawaited, hentry]
  | some entry =>
    have hlost := holders_eraseFuture (s := { s with serviceThread := .idle }) hentry
    rw [hidle] at hlost
    rcases loss_cases hi hlost (fun _ ↦ Iff.rfl) rfl hi.notStarted with ⟨hinv, hnot⟩ | ⟨hnot, hid⟩
    · refine .inl ⟨hinv, ?_⟩
      simpa [hawaited, hentry] using hnot
    · refine .inr ⟨hnot, fun hall ↦ hall entry.2 ?_ hid⟩
      simp [hawaited, hentry]

/-- A callback does harm exactly when it does not send its request straight back. -/
theorem operationComplete_cases (hi : Inv s) {n : Nat} {msgCount : Int}
    {response : RemotingCommand PullMessageResponseHeader} {request request' : PullRequest}
    {client : PullClient} {how : ExecutePullRequest}
    (hcallback : s.callbacks[n]? = some (id, response))
    (hreq : s.requests[id]? = some request)
    (hcomplete : RocketMQ.operationComplete consumer s.client request msgCount response =
      some (client, request', how))
    (ht : ({ s with
      client
      requests := s.requests.set id request'
      callbacks := s.callbacks.eraseIdx n } : PullLoopState).execute id how = t) :
    Inv t ∧ (¬ s.InUse id ∨ SentBack consumer response.code) ∨
      ¬ t.HeldOnce ∧ ¬ (¬ s.InUse id ∨ SentBack consumer response.code) := by
  have hrequests : t.requests = s.requests.set id request' := by
    rw [← ht]
    cases how <;> rfl
  have hstart : t.timeThreadStarted = false := by
    rw [← ht]
    cases how <;> exact hi.notStarted
  have huse : ∀ j, t.InUse j ↔ s.InUse j := fun j ↦ by
    rw [InUse, hrequests]
    exact inUse_set_iff hreq (operationComplete_dropped hcomplete)
  have hlen : t.requests.length = s.requests.length := by rw [hrequests, List.length_set]
  have htaken : s.holders.Perm (id :: ({ s with
      client
      requests := s.requests.set id request'
      callbacks := s.callbacks.eraseIdx n } : PullLoopState).holders) := by
    rw [List.perm_iff_count]
    intro j
    have hcount : (s.callbacks.map Prod.fst).count j =
        (id :: (s.callbacks.eraseIdx n).map Prod.fst).count j :=
      (Base.map_perm_eraseIdx Prod.fst hcallback).count_eq j
    rw [List.count_cons] at hcount
    simp only [holders, pulling, pendingTimers, List.count_append, List.count_cons]
    omega
  have hback := operationComplete_immediately_iff hcomplete
  cases how with
  | immediately =>
    rw [← ht]
    refine .inl ⟨?_, .inr (hback.mp rfl)⟩
    refine hi.of_handover (holders_execute_immediately.trans htaken.symm) ?_ ?_ hi.notStarted
    · exact fun j hj ↦ (huse j).mp (by rwa [← ht])
    · exact List.length_set
  | later timeDelay =>
    have hnot : ¬ SentBack consumer response.code := by
      rw [← hback]
      simp
    have hlost : s.holders.Perm (id :: t.holders) := by
      rw [← ht, holders_execute_later (by exact hi.notStarted)]
      exact htaken
    rcases loss_cases hi hlost huse hlen hstart with ⟨hinv, hid⟩ | ⟨hheld, hid⟩
    · exact .inl ⟨hinv, .inl hid⟩
    · exact .inr ⟨hheld, fun hor ↦ hor.elim (fun h ↦ h hid) hnot⟩

/-- Step lemma: a step keeps the invariant when it goes on, and leaves some request in use
without a holder when it does not. -/
theorem step_cases (hi : Inv s) {e : PullLoopEvent} (h : step consumer s e = some t) :
    Inv t ∧ GoesOn consumer s e ∨ ¬ t.HeldOnce ∧ ¬ GoesOn consumer s e := by
  cases e with
  | updateProcessQueueTableInRebalance topic mqSet nextOffset =>
    simp only [step, Option.ite_none_right_eq_some, Option.some.injEq] at h
    exact .inl ⟨h.2 ▸ inv_updateProcessQueueTableInRebalance hi _ _ _ _, trivial⟩
  | truncateMessageQueueNotMyTopic topics =>
    cases h
    exact .inl ⟨inv_removeQueues hi _, trivial⟩
  | setPause pause =>
    cases h
    exact .inl ⟨hi.of_handover (List.Perm.refl _) (fun _ h ↦ h) rfl hi.notStarted, trivial⟩
  | takeRequest =>
    simp only [step] at h
    split at h
    · next id rest hthread hqueue =>
      cases h
      exact .inl ⟨hi.of_handover (holders_takeRequest hthread hqueue) (fun _ h ↦ h) rfl
        hi.notStarted, trivial⟩
    · cases h
  | pullMessage input =>
    simp only [step] at h
    split at h
    · next id hthread =>
      obtain ⟨request, hreq, ht⟩ := Option.map_eq_some_iff.mp h
      simpa [GoesOn, pulled, hthread, hreq] using pullMessage_cases hi hthread hreq ht
    · cases h
  | sendCmd ret =>
    simp only [step] at h
    split at h
    · next opaqueId hthread =>
      rw [Option.some.injEq] at h
      split at h
      · next hret =>
        subst h
        refine .inl ⟨hi.of_handover ?_ (fun _ h ↦ h) rfl hi.notStarted, .inl hret⟩
        simp [holders, pulling, pendingTimers, hthread]
      · next hret =>
        simpa only [GoesOn, hret, false_or] using sendCmd_cases hi hthread h
    · cases h
  | processResponseCommand opaqueId response =>
    simp only [step] at h
    split at h
    · next o id hentry =>
      cases h
      refine .inl ⟨hi.of_handover ?_ (fun _ h ↦ h) rfl hi.notStarted, trivial⟩
      have hlost := holders_eraseFuture hentry
      refine List.Perm.trans ?_ hlost.symm
      rw [List.perm_iff_count]
      intro j
      simp only [holders, eraseFuture, pulling, pendingTimers, List.count_append,
        List.map_append, List.map_cons, List.map_nil, List.count_cons, List.count_nil]
      omega
    · cases h
      exact .inl ⟨hi, trivial⟩
  | operationComplete n msgCount =>
    simp only [step] at h
    split at h
    · next id response hcallback =>
      split at h
      · next request hreq =>
        obtain ⟨⟨client, request', how⟩, hcomplete, ht⟩ := Option.map_eq_some_iff.mp h
        simpa [GoesOn, hcallback] using
          operationComplete_cases hi hcallback hreq hcomplete ht
      · cases h
    · cases h
  | onTimeOut n =>
    simp only [step, hi.notStarted] at h
    split at h <;> simp at h

/-- **A queue's pull loop**: along every run of a started push consumer each request whose
`ProcessQueue` is not dropped has exactly one live holder, exactly when every step of the run
goes on. -/
theorem heldOnce_iff_goesOn (consumer : PushConsumer) (offsetStore : RemoteBrokerOffsetStore)
    (events : List PullLoopEvent) (s : PullLoopState)
    (hrun : Base.runFrom (step consumer) (start consumer offsetStore) events = some s) :
    (∀ t, Base.Visits (step consumer) (start consumer offsetStore) events t → t.HeldOnce) ↔
      Base.Along (step consumer) (GoesOn consumer) (start consumer offsetStore) events := by
  have hsafe : ∀ x, Inv x → x.HeldOnce := fun _ hi ↦ hi.heldOnce
  refine Base.safe_iff_along hsafe ?_ ?_ (inv_start consumer offsetStore) hrun
  · intro x e y hi hgood hstep
    exact (step_cases hi hstep).elim And.left fun h ↦ absurd hgood h.2
  · intro x e y hi hbad hstep
    exact (step_cases hi hstep).elim (fun h ↦ absurd h.2 hbad) And.left

end Invariant

/-! ### Two runs -/

/-- A concurrent consumer with the defaults of `src/consumer/DefaultMQPushConsumer.cpp:40–42`. -/
def defaultConsumer : PushConsumer := ⟨str "g", [], false, 1000, 2000, 0⟩

/-- A pull that finds `msgCount` messages buffered, and everything else in order. -/
def inputWith (msgCount : Int) : PullInput :=
  ⟨msgCount, 0, [str "t"], ⟨{(str "b", {(0, str "a:1")})}, ∅⟩, fun _ ↦ true⟩

/-- The queue is pulled once, a reply without messages comes while `SendCmd` is not back, and
the queue leaves before the second pull. -/
def pulledOnce : List PullLoopEvent :=
  [.updateProcessQueueTableInRebalance (str "t") [⟨str "t", str "b", 0⟩] (fun _ ↦ 5),
    .takeRequest, .pullMessage (inputWith 1000),
    .processResponseCommand 0 ⟨pullNotFoundValue, [], some ⟨0, 5, 0, 5⟩⟩,
    .operationComplete 0 0, .sendCmd (-1), .takeRequest,
    .updateProcessQueueTableInRebalance (str "t") [] (fun _ ↦ 5), .pullMessage (inputWith 1001)]

/-- Its request has one holder as long as it is in use. -/
theorem heldOnce_iff_goesOn_pulled_once :
    (Base.runFrom (step defaultConsumer) (start defaultConsumer ⟨str "g", ∅⟩) pulledOnce).isSome ∧
      ∀ t, Base.Visits (step defaultConsumer) (start defaultConsumer ⟨str "g", ∅⟩) pulledOnce t →
        t.HeldOnce := by
  have hrun : (Base.runFrom (step defaultConsumer) (start defaultConsumer ⟨str "g", ∅⟩)
      pulledOnce).isSome := by
    decide +kernel
  obtain ⟨s, hs⟩ := Option.isSome_iff_exists.mp hrun
  exact ⟨hrun, (heldOnce_iff_goesOn defaultConsumer ⟨str "g", ∅⟩ _ s hs).mpr (by decide +kernel)⟩

/-- The queue holds 1001 messages when it is to be pulled: the request goes to a timer that
nobody fires. -/
theorem flow_control_loses_request :
    ∃ s, Base.runFrom (step defaultConsumer) (start defaultConsumer ⟨str "g", ∅⟩)
        [.updateProcessQueueTableInRebalance (str "t") [⟨str "t", str "b", 0⟩] (fun _ ↦ 5),
          .takeRequest, .pullMessage (inputWith 1001)] = some s ∧
      s.timers = [(0, 100)] ∧ s.InUse 0 ∧ s.holders.count 0 = 0 ∧ ¬ s.HeldOnce := by
  refine ⟨_, rfl, by decide, by decide, by decide, fun h ↦ ?_⟩
  have hone := h 0 (by decide)
  revert hone
  decide

end PullLoopState
end RocketMQ
