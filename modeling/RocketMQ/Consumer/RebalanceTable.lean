import Mathlib.Data.List.Nodup
import RocketMQ.Message.MessageQueue

/-!
# Reconciling the process queue table

`RebalanceImpl::updateProcessQueueTableInRebalance`, `src/consumer/RebalanceImpl.cpp:458–563`,
with `dispatchPullRequest` and `removeUnnecessaryMessageQueue` of `RebalancePushImpl`. Objects
are named by their addresses. What `computePullFromWhere` says about a queue is a parameter: it
is asked at most once about each. The calls of `removeUnnecessaryMessageQueue` are kept in a log.
-/

namespace RocketMQ

/-- A `PullRequest` as it is dispatched, with the address of its `ProcessQueue`. -/
structure DispatchedPullRequest where
  consumerGroup : StdString
  messageQueue : MessageQueue
  processQueue : Nat
  nextOffset : Int
deriving DecidableEq

/-- What a rebalance reads and writes. A pointer of the table may be `NULL`. -/
structure RebalanceImpl where
  consumerGroup : StdString
  processQueueTable : Std.ExtTreeMap MessageQueue (Option Nat)
  dropped : Std.ExtTreeSet Nat
  removed : List (MessageQueue × Nat)
  pullRequestQueue : List DispatchedPullRequest
  nextAddress : Nat

namespace RebalanceImpl

/-! ### The three loops -/

/-- What the first loop leaves: the table, `tmp` and `changed`. -/
structure Leaving where
  processQueueTable : Std.ExtTreeMap MessageQueue (Option Nat)
  tmp : Std.ExtTreeMap MessageQueue Nat
  changed : Bool

/-- The body of the first loop, `src/consumer/RebalanceImpl.cpp:468–497`. -/
def leave (topic : StdString) (mqSet : Std.ExtTreeSet MessageQueue) (l : Leaving)
    (entry : MessageQueue × Option Nat) : Leaving :=
  let (mq, pq) := entry
  if mq.topic = topic then
    if mq ∈ mqSet then l
    else
      { processQueueTable := l.processQueueTable.erase mq
        tmp := match pq with
          | some pq => l.tmp.insert mq pq
          | none => l.tmp
        changed := true }
  else l

/-- `src/consumer/RebalancePushImpl.cpp:123–131`: that the offset store and the broker hear of
the queue is what the log says. -/
def removeUnnecessaryMessageQueue (s : RebalanceImpl) (mq : MessageQueue) (pq : Nat) :
    RebalanceImpl :=
  { s with removed := s.removed ++ [(mq, pq)] }

/-- The body of the second loop, `src/consumer/RebalanceImpl.cpp:502–512`. -/
def drop (s : RebalanceImpl) (entry : MessageQueue × Nat) : RebalanceImpl :=
  { s with dropped := s.dropped.insert entry.2 }.removeUnnecessaryMessageQueue entry.1 entry.2

/-- What the third loop works on; `nextAddress` is where the next object goes. -/
structure Joining where
  processQueueTable : Std.ExtTreeMap MessageQueue (Option Nat)
  pullRequestList : List DispatchedPullRequest
  nextAddress : Nat
  changed : Bool

/-- The body of the third loop, `src/consumer/RebalanceImpl.cpp:520–558`. -/
def join (consumerGroup : StdString) (computePullFromWhere : MessageQueue → Int) (j : Joining)
    (mq : MessageQueue) : Joining :=
  if mq ∈ j.processQueueTable then j
  else
    let nextOffset := computePullFromWhere mq
    if nextOffset ≥ 0 then
      { processQueueTable := j.processQueueTable.insert mq (some j.nextAddress)
        pullRequestList :=
          j.pullRequestList ++ [⟨consumerGroup, mq, j.nextAddress, nextOffset⟩]
        nextAddress := j.nextAddress + 1
        changed := true }
    else { j with nextAddress := j.nextAddress + 1 }

/-- `PullMessageService::executePullRequestImmediately`,
`src/consumer/PullMessageService.cpp:53–67`. -/
def executePullRequestImmediately (s : RebalanceImpl) (request : DispatchedPullRequest) :
    RebalanceImpl :=
  { s with pullRequestQueue := s.pullRequestQueue ++ [request] }

/-- `src/consumer/RebalancePushImpl.cpp:35–43`. -/
def dispatchPullRequest (s : RebalanceImpl) (pullRequestList : List DispatchedPullRequest) :
    RebalanceImpl :=
  pullRequestList.foldl executePullRequestImmediately s

/-- `src/consumer/RebalanceImpl.cpp:458–563`: the state afterwards, and what is returned. -/
def updateProcessQueueTableInRebalance (s : RebalanceImpl) (topic : StdString)
    (mqSet : Std.ExtTreeSet MessageQueue) (computePullFromWhere : MessageQueue → Int) :
    RebalanceImpl × Bool :=
  let left := s.processQueueTable.toList.foldl (leave topic mqSet) ⟨s.processQueueTable, ∅, false⟩
  let s := left.tmp.toList.foldl drop s
  let joined := mqSet.toList.foldl (join s.consumerGroup computePullFromWhere)
    ⟨left.processQueueTable, [], s.nextAddress, left.changed⟩
  let s := { s with
    processQueueTable := joined.processQueueTable
    nextAddress := joined.nextAddress }
  (s.dispatchPullRequest joined.pullRequestList, joined.changed)

/-! ### The queues that leave -/

section Leave

variable {topic : StdString} {mqSet : Std.ExtTreeSet MessageQueue}

/-- The queues of the topic that are not in the set. -/
def Leaves (topic : StdString) (mqSet : Std.ExtTreeSet MessageQueue) (mq : MessageQueue) : Prop :=
  mq.topic = topic ∧ mq ∉ mqSet

instance (mq : MessageQueue) : Decidable (Leaves topic mqSet mq) :=
  inferInstanceAs (Decidable (_ ∧ _))

theorem leave_eq_self {mq : MessageQueue} (h : ¬ Leaves topic mqSet mq) (l : Leaving)
    (pq : Option Nat) : leave topic mqSet l (mq, pq) = l := by
  simp only [leave]
  split_ifs with htopic hmem
  · rfl
  · exact absurd ⟨htopic, hmem⟩ h
  · rfl

theorem leave_of_leaves {mq : MessageQueue} (h : Leaves topic mqSet mq) (l : Leaving)
    (pq : Option Nat) :
    leave topic mqSet l (mq, pq) =
      ⟨l.processQueueTable.erase mq, pq.elim l.tmp (l.tmp.insert mq), true⟩ := by
  simp only [leave, if_pos h.1, if_neg h.2]
  cases pq with
  | none => rfl
  | some pq => rfl

/-- The first loop erases the queues it visits that leave. -/
theorem getElem?_leave (entries : List (MessageQueue × Option Nat)) (l : Leaving)
    (mq : MessageQueue) :
    (entries.foldl (leave topic mqSet) l).processQueueTable[mq]? =
      if Leaves topic mqSet mq ∧ mq ∈ entries.map Prod.fst then none
      else l.processQueueTable[mq]? := by
  induction entries generalizing l with
  | nil => simp
  | cons entry rest ih =>
    obtain ⟨k, pq⟩ := entry
    rw [List.foldl_cons, ih]
    by_cases heq : mq = k
    · subst heq
      by_cases hk : Leaves topic mqSet mq
      · rw [leave_of_leaves hk, Std.ExtTreeMap.getElem?_erase_self, ite_self]
        exact (if_pos ⟨hk, List.mem_cons_self⟩).symm
      · rw [leave_eq_self hk, if_neg fun h ↦ hk h.1, if_neg fun h ↦ hk h.1]
    · have hmem : Leaves topic mqSet mq ∧ mq ∈ rest.map Prod.fst ↔
          Leaves topic mqSet mq ∧ mq ∈ ((k, pq) :: rest).map Prod.fst := by
        rw [List.map_cons, List.mem_cons, or_iff_right heq]
      have hkept : (leave topic mqSet l (k, pq)).processQueueTable[mq]? =
          l.processQueueTable[mq]? := by
        by_cases hk : Leaves topic mqSet k
        · have hne : compare k mq ≠ .eq := fun h ↦ heq (Std.LawfulEqCmp.eq_of_compare h).symm
          rw [leave_of_leaves hk, Std.ExtTreeMap.getElem?_erase, if_neg hne]
        · rw [leave_eq_self hk]
      rw [hkept]
      exact if_congr hmem rfl rfl

/-- What the first loop collects. -/
theorem tmp_leave {entries : List (MessageQueue × Option Nat)}
    (hdistinct : entries.Pairwise fun a b ↦ a.1 ≠ b.1) {l : Leaving}
    (hfresh : ∀ e ∈ entries, l.tmp[e.1]? = none) (mq : MessageQueue) (pq : Nat) :
    (entries.foldl (leave topic mqSet) l).tmp[mq]? = some pq ↔
      Leaves topic mqSet mq ∧ (mq, some pq) ∈ entries ∨ l.tmp[mq]? = some pq := by
  induction entries generalizing l with
  | nil => simp
  | cons entry rest ih =>
    obtain ⟨k, v⟩ := entry
    obtain ⟨hne, hrest⟩ := List.pairwise_cons.mp hdistinct
    have hk : l.tmp[k]? = none := hfresh (k, v) List.mem_cons_self
    have hfresh' : ∀ e ∈ rest, l.tmp[e.1]? = none := fun e he ↦
      hfresh e (List.mem_cons_of_mem _ he)
    rw [List.foldl_cons]
    by_cases hleaves : Leaves topic mqSet k
    · rw [leave_of_leaves hleaves]
      cases v with
      | none =>
        have hrest' := ih hrest (l := ⟨l.processQueueTable.erase k, l.tmp, true⟩) hfresh'
        rw [Option.elim_none, hrest']
        simp
      | some v =>
        simp only [Option.elim_some]
        rw [ih hrest]
        · rw [Std.ExtTreeMap.getElem?_insert]
          by_cases heq : k = mq
          · subst heq
            have hnot : (k, some pq) ∉ rest := fun hmem ↦ hne _ hmem rfl
            simp [hleaves, hk, hnot, eq_comm]
          · have hcompare : compare k mq ≠ .eq := fun h ↦ heq (Std.LawfulEqCmp.eq_of_compare h)
            simp [hcompare, Ne.symm heq]
        · intro e he
          have hcompare : compare k e.1 ≠ .eq := fun h ↦
            hne e he (Std.LawfulEqCmp.eq_of_compare h)
          rw [Std.ExtTreeMap.getElem?_insert, if_neg hcompare]
          exact hfresh' e he
    · rw [leave_eq_self hleaves, ih hrest hfresh']
      by_cases heq : mq = k
      · subst heq
        simp [hleaves]
      · simp [heq]

/-- The first loop reports whether a queue leaves. -/
theorem changed_leave (entries : List (MessageQueue × Option Nat)) (l : Leaving) :
    (entries.foldl (leave topic mqSet) l).changed = true ↔
      l.changed = true ∨ ∃ e ∈ entries, Leaves topic mqSet e.1 := by
  induction entries generalizing l with
  | nil => simp
  | cons entry rest ih =>
    obtain ⟨k, pq⟩ := entry
    rw [List.foldl_cons, ih]
    by_cases hk : Leaves topic mqSet k
    · simp [leave_of_leaves hk, hk]
    · simp [leave_eq_self hk, hk]

end Leave

/-! ### The queues that join -/

section Join

variable {consumerGroup : StdString} {computePullFromWhere : MessageQueue → Int}

/-- What the third loop has done: the new requests, for the queues that are not in the table and
have an offset, each with the `ProcessQueue` that is now in the table. -/
structure Joined (consumerGroup : StdString) (computePullFromWhere : MessageQueue → Int)
    (queues : List MessageQueue) (j j' : Joining) (requests : List DispatchedPullRequest) :
    Prop where
  pullRequestList : j'.pullRequestList = j.pullRequestList ++ requests
  queues : requests.map DispatchedPullRequest.messageQueue =
    queues.filter fun mq ↦ mq ∉ j.processQueueTable ∧ computePullFromWhere mq ≥ 0
  request : ∀ r ∈ requests, r.consumerGroup = consumerGroup ∧
    r.nextOffset = computePullFromWhere r.messageQueue ∧
    j'.processQueueTable[r.messageQueue]? = some (some r.processQueue)
  others : ∀ mq, (∀ r ∈ requests, r.messageQueue ≠ mq) →
    j'.processQueueTable[mq]? = j.processQueueTable[mq]?
  changed : j'.changed = true ↔ j.changed = true ∨ requests ≠ []

/-- One queue that does not join: it is there, or has no offset. -/
theorem join_of_not {j : Joining} {mq : MessageQueue}
    (h : ¬ (mq ∉ j.processQueueTable ∧ computePullFromWhere mq ≥ 0)) :
    ∃ nextAddress, join consumerGroup computePullFromWhere j mq = { j with nextAddress } := by
  rw [join]
  by_cases hmem : mq ∈ j.processQueueTable
  · exact ⟨j.nextAddress, if_pos hmem⟩
  · have hoffset : ¬ computePullFromWhere mq ≥ 0 := fun hoffset ↦ h ⟨hmem, hoffset⟩
    exact ⟨j.nextAddress + 1, by rw [if_neg hmem]; exact if_neg hoffset⟩

/-- One queue that joins. -/
theorem join_of_joins {j : Joining} {mq : MessageQueue} (hmem : mq ∉ j.processQueueTable)
    (hoffset : computePullFromWhere mq ≥ 0) :
    join consumerGroup computePullFromWhere j mq =
      ⟨j.processQueueTable.insert mq (some j.nextAddress),
        j.pullRequestList ++ [⟨consumerGroup, mq, j.nextAddress, computePullFromWhere mq⟩],
        j.nextAddress + 1, true⟩ := by
  rw [join, if_neg hmem]
  exact if_pos hoffset

/-- The third loop. -/
theorem joined_join {queues : List MessageQueue} (hnodup : queues.Nodup) (j : Joining) :
    ∃ requests, Joined consumerGroup computePullFromWhere queues j
      (queues.foldl (join consumerGroup computePullFromWhere) j) requests := by
  induction queues generalizing j with
  | nil => exact ⟨[], by simp, rfl, by simp, fun _ _ ↦ rfl, by simp⟩
  | cons mq rest ih =>
    obtain ⟨hnot, hrest⟩ := List.nodup_cons.mp hnodup
    rw [List.foldl_cons]
    by_cases hjoins : mq ∉ j.processQueueTable ∧ computePullFromWhere mq ≥ 0
    · rw [join_of_joins hjoins.1 hjoins.2]
      obtain ⟨requests, hlist, hqueues, hrequest, hothers, hchanged⟩ := ih hrest
        ⟨j.processQueueTable.insert mq (some j.nextAddress),
          j.pullRequestList ++ [⟨consumerGroup, mq, j.nextAddress, computePullFromWhere mq⟩],
          j.nextAddress + 1, true⟩
      have hkept : rest.filter (fun k ↦ k ∉ j.processQueueTable.insert mq (some j.nextAddress) ∧
          computePullFromWhere k ≥ 0) =
            rest.filter fun k ↦ k ∉ j.processQueueTable ∧ computePullFromWhere k ≥ 0 := by
        apply List.filter_congr
        intro k hk
        have hne : mq ≠ k := fun h ↦ hnot (h ▸ hk)
        simp [Std.ExtTreeMap.mem_insert, hne]
      have hnew : ∀ r ∈ requests, r.messageQueue ≠ mq := by
        intro r hr heq
        have hmem : r.messageQueue ∈ requests.map DispatchedPullRequest.messageQueue :=
          List.mem_map_of_mem hr
        rw [hqueues, heq] at hmem
        exact hnot (List.mem_of_mem_filter hmem)
      refine ⟨⟨consumerGroup, mq, j.nextAddress, computePullFromWhere mq⟩ :: requests,
        ?_, ?_, ?_, ?_, ?_⟩
      · rw [hlist, List.append_assoc, List.singleton_append]
      · rw [List.map_cons, hqueues, List.filter_cons_of_pos (by simpa using hjoins), hkept]
      · intro r hr
        rcases List.mem_cons.mp hr with rfl | hr
        · refine ⟨rfl, rfl, ?_⟩
          rw [hothers mq hnew, Std.ExtTreeMap.getElem?_insert_self]
        · exact hrequest r hr
      · intro k hk
        have hne : compare mq k ≠ .eq := fun h ↦
          hk _ List.mem_cons_self (Std.LawfulEqCmp.eq_of_compare h)
        rw [hothers k fun r hr ↦ hk r (List.mem_cons_of_mem _ hr), Std.ExtTreeMap.getElem?_insert,
          if_neg hne]
      · rw [hchanged]
        simp
    · obtain ⟨nextAddress, hjoin⟩ : ∃ nextAddress,
          join consumerGroup computePullFromWhere j mq = { j with nextAddress } :=
        join_of_not hjoins
      rw [hjoin]
      obtain ⟨requests, hlist, hqueues, hrequest, hothers, hchanged⟩ :=
        ih hrest { j with nextAddress }
      refine ⟨requests, hlist, ?_, hrequest, hothers, hchanged⟩
      rw [hqueues, List.filter_cons_of_neg (by simpa using hjoins)]

end Join

/-! ### The whole call -/

section Update

/-- The set lists every queue once. -/
theorem nodup_toList (mqSet : Std.ExtTreeSet MessageQueue) : mqSet.toList.Nodup := by
  apply Std.ExtTreeSet.distinct_toList.imp
  intro a b hne heq
  exact hne (heq ▸ Std.ReflCmp.compare_self)

theorem drop_foldl (entries : List (MessageQueue × Nat)) (s : RebalanceImpl) :
    entries.foldl drop s =
      { s with
        dropped := (entries.map Prod.snd).foldl (·.insert ·) s.dropped
        removed := s.removed ++ entries } := by
  induction entries generalizing s with
  | nil => simp
  | cons entry rest ih =>
    rw [List.foldl_cons, ih]
    simp [drop, removeUnnecessaryMessageQueue]

theorem dispatchPullRequest_eq (s : RebalanceImpl) (requests : List DispatchedPullRequest) :
    s.dispatchPullRequest requests =
      { s with pullRequestQueue := s.pullRequestQueue ++ requests } := by
  rw [dispatchPullRequest]
  induction requests generalizing s with
  | nil => simp
  | cons request rest ih =>
    rw [List.foldl_cons, ih]
    simp [executePullRequestImmediately]

/-- No two queues of the table have the same `ProcessQueue`. -/
def Unshared (s : RebalanceImpl) : Prop :=
  ∀ (mq mq' : MessageQueue) (pq : Nat), s.processQueueTable[mq]? = some (some pq) →
    s.processQueueTable[mq']? = some (some pq) → mq = mq'

/-- What a rebalance of a topic makes of the table: `s` before, `t` and `changed` afterwards. -/
structure Reconciled (s : RebalanceImpl) (topic : StdString) (mqSet : Std.ExtTreeSet MessageQueue)
    (computePullFromWhere : MessageQueue → Int) (t : RebalanceImpl) (changed : Bool) : Prop where
  keys : ∀ mq : MessageQueue, mq.topic = topic → (mq ∈ t.processQueueTable ↔
    mq ∈ mqSet ∧ (mq ∈ s.processQueueTable ∨ computePullFromWhere mq ≥ 0))
  others : ∀ mq : MessageQueue, mq.topic ≠ topic →
    t.processQueueTable[mq]? = s.processQueueTable[mq]?
  kept : ∀ mq ∈ mqSet, mq ∈ s.processQueueTable →
    t.processQueueTable[mq]? = s.processQueueTable[mq]?
  dispatched : ∃ requests, t.pullRequestQueue = s.pullRequestQueue ++ requests ∧
    (∀ mq, (requests.map DispatchedPullRequest.messageQueue).count mq =
      if mq ∈ mqSet ∧ mq ∉ s.processQueueTable ∧ computePullFromWhere mq ≥ 0 then 1 else 0) ∧
    ∀ r ∈ requests, r.consumerGroup = s.consumerGroup ∧
      r.nextOffset = computePullFromWhere r.messageQueue ∧
      t.processQueueTable[r.messageQueue]? = some (some r.processQueue)
  removed : ∃ calls, t.removed = s.removed ++ calls ∧ calls.Nodup ∧
    (∀ (mq : MessageQueue) (pq : Nat), (mq, pq) ∈ calls ↔
      s.processQueueTable[mq]? = some (some pq) ∧ mq ∉ t.processQueueTable) ∧
    (s.Unshared → (calls.map Prod.snd).Nodup) ∧
    ∀ pq, pq ∈ t.dropped ↔ pq ∈ s.dropped ∨ pq ∈ calls.map Prod.snd
  returned : changed = true ↔
    ∃ mq, ¬ (mq ∈ t.processQueueTable ↔ mq ∈ s.processQueueTable)

variable {topic : StdString} {mqSet : Std.ExtTreeSet MessageQueue}
  {computePullFromWhere : MessageQueue → Int} {s : RebalanceImpl}

/-- What the first loop leaves: the rest of the table, the calls of the second loop, and whether
there are any queues that leave. -/
structure Left (s : RebalanceImpl) (topic : StdString) (mqSet : Std.ExtTreeSet MessageQueue)
    (left : Leaving) : Prop where
  table : ∀ mq : MessageQueue, left.processQueueTable[mq]? =
    if Leaves topic mqSet mq then none else s.processQueueTable[mq]?
  calls : ∀ (mq : MessageQueue) (pq : Nat), (mq, pq) ∈ left.tmp.toList ↔
    s.processQueueTable[mq]? = some (some pq) ∧ Leaves topic mqSet mq
  changed : left.changed = true ↔
    ∃ mq : MessageQueue, mq ∈ s.processQueueTable ∧ Leaves topic mqSet mq

/-- The first loop, over the whole table. -/
theorem left_foldl (s : RebalanceImpl) (topic : StdString) (mqSet : Std.ExtTreeSet MessageQueue) :
    Left s topic mqSet
      (s.processQueueTable.toList.foldl (leave topic mqSet) ⟨s.processQueueTable, ∅, false⟩) := by
  have hkeys : ∀ mq : MessageQueue,
      mq ∈ s.processQueueTable.toList.map Prod.fst ↔ mq ∈ s.processQueueTable := by
    intro mq
    rw [Std.ExtTreeMap.map_fst_toList_eq_keys, Std.ExtTreeMap.mem_keys]
  constructor
  · intro mq
    rw [getElem?_leave]
    by_cases hmem : mq ∈ s.processQueueTable
    · exact if_congr (and_iff_left ((hkeys mq).mpr hmem)) rfl rfl
    · rw [if_neg fun h ↦ hmem ((hkeys mq).mp h.2), Std.ExtTreeMap.getElem?_eq_none hmem, ite_self]
  · intro mq pq
    have hentries : s.processQueueTable.toList.Pairwise fun a b ↦ a.1 ≠ b.1 := by
      apply Std.ExtTreeMap.distinct_keys_toList.imp
      intro a b hne heq
      exact hne (heq ▸ Std.ReflCmp.compare_self)
    rw [Std.ExtTreeMap.mem_toList_iff_getElem?_eq_some,
      tmp_leave hentries fun _ _ ↦ Std.ExtTreeMap.getElem?_empty,
      Std.ExtTreeMap.mem_toList_iff_getElem?_eq_some, or_iff_left (by simp), and_comm]
  · rw [changed_leave, or_iff_right (by simp)]
    constructor
    · rintro ⟨entry, hentry, hleaves⟩
      exact ⟨entry.1, (hkeys entry.1).mp (List.mem_map_of_mem hentry), hleaves⟩
    · rintro ⟨mq, hthere, hleaves⟩
      obtain ⟨entry, hentry, rfl⟩ := List.mem_map.mp ((hkeys mq).mpr hthere)
      exact ⟨entry, hentry, hleaves⟩

/-- The queues that stay in the table. -/
theorem Left.mem_table {left : Leaving} (h : Left s topic mqSet left) (mq : MessageQueue) :
    mq ∈ left.processQueueTable ↔ mq ∈ s.processQueueTable ∧ ¬ Leaves topic mqSet mq := by
  rw [Std.ExtTreeMap.mem_iff_isSome_getElem?, h.table, Std.ExtTreeMap.mem_iff_isSome_getElem?]
  by_cases hleaves : Leaves topic mqSet mq <;> simp [hleaves]

/-- The second loop makes one call for each queue that left. -/
theorem nodup_calls (left : Leaving) : left.tmp.toList.Nodup := by
  apply Std.ExtTreeMap.distinct_keys_toList.imp
  rintro a b hne rfl
  exact hne Std.ReflCmp.compare_self

theorem mem_dropped_foldl {pqs : List Nat} (dropped : Std.ExtTreeSet Nat) (pq : Nat) :
    pq ∈ pqs.foldl (·.insert ·) dropped ↔ pq ∈ dropped ∨ pq ∈ pqs := by
  induction pqs generalizing dropped with
  | nil => simp
  | cons a rest ih =>
    rw [List.foldl_cons, ih, Std.ExtTreeSet.mem_insert, List.mem_cons,
      Std.LawfulEqCmp.compare_eq_iff_eq]
    grind

theorem mem_of_joined {queues : List MessageQueue} {j j' : Joining}
    {requests : List DispatchedPullRequest} {consumerGroup : StdString}
    (h : Joined consumerGroup computePullFromWhere queues j j' requests) (mq : MessageQueue) :
    mq ∈ j'.processQueueTable ↔
      mq ∈ j.processQueueTable ∨ mq ∈ requests.map DispatchedPullRequest.messageQueue := by
  by_cases hnew : mq ∈ requests.map DispatchedPullRequest.messageQueue
  · obtain ⟨r, hr, rfl⟩ := List.mem_map.mp hnew
    refine iff_of_true ?_ (.inr hnew)
    rw [Std.ExtTreeMap.mem_iff_isSome_getElem?, (h.request r hr).2.2, Option.isSome_some]
  · rw [or_iff_left hnew, Std.ExtTreeMap.mem_iff_isSome_getElem?,
      Std.ExtTreeMap.mem_iff_isSome_getElem?,
      h.others mq fun r hr heq ↦ hnew (heq ▸ List.mem_map_of_mem hr)]

section Loops

variable {left : Leaving} {joined : Joining} {requests : List DispatchedPullRequest}
  (hleft : Left s topic mqSet left)
  (hjoined : Joined s.consumerGroup computePullFromWhere mqSet.toList
    ⟨left.processQueueTable, [], s.nextAddress, left.changed⟩ joined requests)

include hleft hjoined

/-- Who joins: the allocated queues that are not there and have an offset. -/
theorem mem_requests (mq : MessageQueue) :
    mq ∈ requests.map DispatchedPullRequest.messageQueue ↔
      mq ∈ mqSet ∧ mq ∉ s.processQueueTable ∧ computePullFromWhere mq ≥ 0 := by
  rw [hjoined.queues, List.mem_filter, Std.ExtTreeSet.mem_toList, decide_eq_true_eq]
  refine and_congr_right fun hmq ↦ and_congr_left fun _ ↦ not_congr ?_
  rw [hleft.mem_table, and_iff_left fun h : Leaves topic mqSet mq ↦ h.2 hmq]

/-- The queues of the table after all loops. -/
theorem mem_joined (mq : MessageQueue) :
    mq ∈ joined.processQueueTable ↔
      mq ∈ s.processQueueTable ∧ ¬ Leaves topic mqSet mq ∨
        mq ∈ mqSet ∧ mq ∉ s.processQueueTable ∧ computePullFromWhere mq ≥ 0 := by
  rw [mem_of_joined hjoined, mem_requests hleft hjoined, hleft.mem_table]

/-- A queue that neither leaves nor joins keeps its entry. -/
theorem getElem?_joined {mq : MessageQueue} (hstays : ¬ Leaves topic mqSet mq)
    (hmq : ¬ (mq ∈ mqSet ∧ mq ∉ s.processQueueTable ∧ computePullFromWhere mq ≥ 0)) :
    joined.processQueueTable[mq]? = s.processQueueTable[mq]? := by
  have hnew := mt (mem_requests hleft hjoined mq).mp hmq
  have hold := hjoined.others mq fun r hr heq ↦ hnew (heq ▸ List.mem_map_of_mem hr)
  exact hold.trans ((hleft.table mq).trans (if_neg hstays))

/-- Every queue that joins has one request. -/
theorem count_requests (mq : MessageQueue) :
    (requests.map DispatchedPullRequest.messageQueue).count mq =
      if mq ∈ mqSet ∧ mq ∉ s.processQueueTable ∧ computePullFromWhere mq ≥ 0 then 1 else 0 := by
  have hnodup : (requests.map DispatchedPullRequest.messageQueue).Nodup := by
    rw [hjoined.queues]
    exact (nodup_toList mqSet).filter _
  rw [hnodup.count]
  exact if_congr (mem_requests hleft hjoined mq) rfl rfl

/-- A call is made for a queue exactly when it was in the table and is not afterwards. -/
theorem mem_calls (mq : MessageQueue) (pq : Nat) :
    (mq, pq) ∈ left.tmp.toList ↔
      s.processQueueTable[mq]? = some (some pq) ∧ mq ∉ joined.processQueueTable := by
  rw [hleft.calls]
  apply and_congr_right
  intro hget
  have hthere : mq ∈ s.processQueueTable := by
    rw [Std.ExtTreeMap.mem_iff_isSome_getElem?, hget, Option.isSome_some]
  rw [mem_joined hleft hjoined]
  simp [hthere]

/-- The flag says whether a queue left or joined. -/
theorem changed_joined : joined.changed = true ↔
    ∃ mq : MessageQueue, ¬ (mq ∈ joined.processQueueTable ↔ mq ∈ s.processQueueTable) := by
  have hrequests : requests ≠ [] ↔
      ∃ mq, mq ∈ mqSet ∧ mq ∉ s.processQueueTable ∧ computePullFromWhere mq ≥ 0 := by
    rw [ne_eq, ← List.map_eq_nil_iff, List.eq_nil_iff_forall_not_mem, not_forall]
    exact exists_congr fun mq ↦ not_not.trans (mem_requests hleft hjoined mq)
  rw [hjoined.changed, hleft.changed, hrequests, ← exists_or]
  apply exists_congr
  intro mq
  rw [mem_joined hleft hjoined]
  by_cases hthere : mq ∈ s.processQueueTable <;> simp [hthere]

end Loops

/-- **Rebalance reconciles the table**: the queues of the topic become the ones that were
allocated, as far as they were there or have an offset; everything else stays, and every change
is announced exactly once. -/
theorem reconciled_update (s : RebalanceImpl) (topic : StdString)
    (mqSet : Std.ExtTreeSet MessageQueue)
    (hset : ∀ mq : MessageQueue, mq ∈ mqSet → mq.topic = topic)
    (computePullFromWhere : MessageQueue → Int) :
    Reconciled s topic mqSet computePullFromWhere
      (s.updateProcessQueueTableInRebalance topic mqSet computePullFromWhere).1
      (s.updateProcessQueueTableInRebalance topic mqSet computePullFromWhere).2 := by
  have hleft := left_foldl s topic mqSet
  rw [updateProcessQueueTableInRebalance]
  simp only [drop_foldl, dispatchPullRequest_eq]
  generalize s.processQueueTable.toList.foldl (leave topic mqSet)
    ⟨s.processQueueTable, ∅, false⟩ = left at hleft ⊢
  have hjoin : ∃ requests, Joined s.consumerGroup computePullFromWhere mqSet.toList
      ⟨left.processQueueTable, [], s.nextAddress, left.changed⟩ _ requests :=
    joined_join (nodup_toList mqSet) _
  generalize mqSet.toList.foldl (join s.consumerGroup computePullFromWhere)
    ⟨left.processQueueTable, [], s.nextAddress, left.changed⟩ = joined at hjoin ⊢
  obtain ⟨requests, hjoined⟩ := hjoin
  constructor
  · intro mq htopic
    rw [mem_joined hleft hjoined, Leaves, and_iff_right htopic, not_not]
    by_cases hthere : mq ∈ s.processQueueTable <;> simp [hthere]
  · intro mq htopic
    have hnotset : mq ∉ mqSet := fun hmq ↦ htopic (hset mq hmq)
    exact getElem?_joined hleft hjoined (fun h ↦ htopic h.1) fun h ↦ hnotset h.1
  · intro mq hmq hthere
    exact getElem?_joined hleft hjoined (fun h ↦ h.2 hmq) fun h ↦ h.2.1 hthere
  · refine ⟨requests, by rw [hjoined.pullRequestList, List.nil_append], ?_, hjoined.request⟩
    exact count_requests hleft hjoined
  · refine ⟨left.tmp.toList, rfl, nodup_calls left, mem_calls hleft hjoined, ?_, ?_⟩
    · intro hunshared
      refine List.Nodup.map_on (fun a ha b hb heq ↦ Prod.ext ?_ heq) (nodup_calls left)
      have hthere := ((hleft.calls a.1 a.2).mp ha).1
      exact hunshared a.1 b.1 a.2 hthere (heq ▸ ((hleft.calls b.1 b.2).mp hb).1)
    · intro pq
      rw [mem_dropped_foldl]
  · exact changed_joined hleft hjoined

/-- A table with a queue of the topic `t` and one of another topic. -/
def sampleTable : RebalanceImpl where
  consumerGroup := str "g"
  processQueueTable := {(⟨str "t", str "b", 0⟩, some 0), (⟨str "u", str "b", 0⟩, some 1)}
  dropped := ∅
  removed := []
  pullRequestQueue := []
  nextAddress := 2

/-- One queue of the topic is replaced by another one. -/
theorem sample_reconciled :
    Reconciled sampleTable (str "t") {⟨str "t", str "b", 1⟩} (fun _ ↦ 5)
      (sampleTable.updateProcessQueueTableInRebalance (str "t") {⟨str "t", str "b", 1⟩}
        fun _ ↦ 5).1
      (sampleTable.updateProcessQueueTableInRebalance (str "t") {⟨str "t", str "b", 1⟩}
        fun _ ↦ 5).2 := by
  refine reconciled_update sampleTable (str "t") {⟨str "t", str "b", 1⟩} (fun mq hmq ↦ ?_) fun _ ↦ 5
  change mq ∈ (∅ : Std.ExtTreeSet MessageQueue).insert _ at hmq
  rw [Std.ExtTreeSet.mem_insert, Std.LawfulEqCmp.compare_eq_iff_eq] at hmq
  rcases hmq with rfl | hmq
  · rfl
  · exact absurd hmq Std.ExtTreeSet.not_mem_empty

end Update
end RebalanceImpl
end RocketMQ
