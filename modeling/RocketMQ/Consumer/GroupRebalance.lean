import Mathlib.Logic.Function.Basic
import RocketMQ.Base.Run
import RocketMQ.Consumer.RebalanceByTopic

/-!
# The rebalancing of a group

`RebalanceImpl::doRebalance`, `src/consumer/RebalanceImpl.cpp:243–265` and `565–594`. Every member
of a group rebalances by itself, over its own table, from what it is told of the ids of the group
and of the queues of the topics. Members agree on nothing; once they are told the same, their tables
come to deal the queues out.
-/

namespace RocketMQ

/-! ### A round of one member -/

namespace RebalanceImpl

/-- The body of the loop of `truncateMessageQueueNotMyTopic`. -/
def truncate (subTable : Std.ExtTreeSet StdString) (s : RebalanceImpl)
    (entry : MessageQueue × Option Nat) : RebalanceImpl :=
  if entry.1.topic ∈ subTable then s
  else
    { s with
      processQueueTable := s.processQueueTable.erase entry.1
      dropped := match entry.2 with
        | some pq => s.dropped.insert pq
        | none => s.dropped }

/-- `src/consumer/RebalanceImpl.cpp:565–594`. -/
def truncateMessageQueueNotMyTopic (s : RebalanceImpl) (subTable : Std.ExtTreeSet StdString) :
    RebalanceImpl :=
  s.processQueueTable.toList.foldl (truncate subTable) s

/-- `src/consumer/RebalanceImpl.cpp:243–265`, with the topics of `getSubscriptionInner` and what the
stack holds where `rebalanceByTopic` is called for each. -/
def doRebalance (s : RebalanceImpl) (input : RebalanceInput)
    (stack : StdString → Option (List MessageQueue)) (subTable : Std.ExtTreeSet StdString) :
    RebalanceImpl :=
  (subTable.toList.foldl (fun s topic ↦ (rebalanceByTopic input (stack topic) s topic).1)
    s).truncateMessageQueueNotMyTopic subTable

end RebalanceImpl

/-! ### A group -/

/-- What the members are to be told: their ids, the topics that they subscribe to, and the queues of
those topics that have a route. -/
structure GroupView where
  ids : List StdString
  subTable : Std.ExtTreeSet StdString
  queues : Std.ExtTreeMap StdString (Std.ExtTreeSet MessageQueue)
  ids_ne : ids ≠ []
  ids_nodup : ids.Nodup
  ids_plain : ∀ cid ∈ ids, cid ≠ []
  queues_subscribed : ∀ topic ∈ queues, topic ∈ subTable
  queues_ne : ∀ (topic : StdString) (mqSet : Std.ExtTreeSet MessageQueue),
    queues[topic]? = some mqSet → mqSet.isEmpty = false
  queues_topic : ∀ (topic : StdString) (mqSet : Std.ExtTreeSet MessageQueue),
    queues[topic]? = some mqSet → ∀ mq : MessageQueue, mq ∈ mqSet → mq.topic = topic

namespace GroupView

/-- Who is to have which queues of a topic. -/
def share (view : GroupView) (topic cid : StdString) : List MessageQueue :=
  match view.queues[topic]? with
  | none => []
  | some mqSet =>
    if cid ∈ view.ids then
      Base.shareRun mqSet.toList view.ids.length
        ((AllocateMessageQueueAveragely.sortIds view.ids).idxOf cid)
    else []

end GroupView

/-- A round of the member with the id `input.clientId`. -/
structure GroupRound where
  input : RebalanceInput
  stack : StdString → Option (List MessageQueue)
  subTable : Std.ExtTreeSet StdString

namespace GroupRound

/-- A round in which the member is told of the view, or of nothing where a request has failed. -/
structure Sees (view : GroupView) (group : StdString) (r : GroupRound) : Prop where
  messageModel : r.input.messageModel = .clustering
  strategy : r.input.allocateMessageQueueStrategy = .averagely
  clientId : r.input.clientId ≠ []
  subTable : r.subTable = view.subTable
  ids : ∀ topic ∈ view.subTable, r.input.findConsumerIdList topic group = [] ∨
    (r.input.findConsumerIdList topic group).Perm view.ids
  queues : ∀ topic : StdString, topic ∈ view.subTable →
    r.input.topicSubscribeInfoTable[topic]? = none ∨
      r.input.topicSubscribeInfoTable[topic]? = view.queues[topic]?

/-- The member is told of both for a topic. -/
def Reaches (r : GroupRound) (group topic : StdString) : Prop :=
  r.input.findConsumerIdList topic group ≠ [] ∧ topic ∈ r.input.topicSubscribeInfoTable

instance (r : GroupRound) (group topic : StdString) : Decidable (r.Reaches group topic) :=
  inferInstanceAs (Decidable (_ ∧ _))

end GroupRound

/-- The members of a group, by their ids. -/
abbrev Group := StdString → RebalanceImpl

namespace Group

def step (g : Group) (r : GroupRound) : Option Group :=
  some (Function.update g r.input.clientId
    ((g r.input.clientId).doRebalance r.input r.stack r.subTable))

/-- The member that takes the turn sees the view. -/
def Sees (view : GroupView) (g : Group) (r : GroupRound) : Prop :=
  r.Sees view (g r.input.clientId).consumerGroup

/-- It is this member's turn, and it is told of the topic. -/
def Reaches (cid topic : StdString) (g : Group) (r : GroupRound) : Prop :=
  r.input.clientId = cid ∧ r.Reaches (g cid).consumerGroup topic

end Group

/-! ### Where the queues of a topic go -/

namespace RebalanceImpl

section Update

variable {s : RebalanceImpl} {topic : StdString} {mqSet : Std.ExtTreeSet MessageQueue}
  {computePullFromWhere : MessageQueue → Int} {mq : MessageQueue}

/-- The loops of `updateProcessQueueTableInRebalance`. -/
theorem loops_update (s : RebalanceImpl) (topic : StdString) (mqSet : Std.ExtTreeSet MessageQueue)
    (computePullFromWhere : MessageQueue → Int) : ∃ left joined requests,
      Left s topic mqSet left ∧
      Joined s.consumerGroup computePullFromWhere mqSet.toList
        ⟨left.processQueueTable, [], s.nextAddress, left.changed⟩ joined requests ∧
      (s.updateProcessQueueTableInRebalance topic mqSet computePullFromWhere).1.processQueueTable =
        joined.processQueueTable := by
  have hleft := left_foldl s topic mqSet
  obtain ⟨requests, hjoined⟩ : ∃ requests, Joined s.consumerGroup computePullFromWhere mqSet.toList
      _ _ requests := joined_join (nodup_toList mqSet) _
  refine ⟨_, _, requests, hleft, hjoined, ?_⟩
  simp only [updateProcessQueueTableInRebalance, drop_foldl, dispatchPullRequest_eq]

theorem mem_update : mq ∈
      (s.updateProcessQueueTableInRebalance topic mqSet computePullFromWhere).1.processQueueTable ↔
    mq ∈ s.processQueueTable ∧ ¬ Leaves topic mqSet mq ∨
      mq ∈ mqSet ∧ mq ∉ s.processQueueTable ∧ computePullFromWhere mq ≥ 0 := by
  obtain ⟨left, joined, requests, hleft, hjoined, htable⟩ :=
    loops_update s topic mqSet computePullFromWhere
  rw [htable, mem_joined hleft hjoined]

@[simp] theorem consumerGroup_update :
    (s.updateProcessQueueTableInRebalance topic mqSet computePullFromWhere).1.consumerGroup =
      s.consumerGroup := by
  simp only [updateProcessQueueTableInRebalance, drop_foldl, dispatchPullRequest_eq]

end Update

/-! ### A turn for one topic -/

section ByTopic

variable {view : GroupView} {r : GroupRound} {s : RebalanceImpl} {topic : StdString}

theorem mem_foldl_insert (queues : List MessageQueue) (mqSet : Std.ExtTreeSet MessageQueue)
    (mq : MessageQueue) : mq ∈ queues.foldl (fun mqs mq ↦ mqs.insert mq) mqSet ↔
      mq ∈ mqSet ∨ mq ∈ queues := by
  induction queues generalizing mqSet with
  | nil => simp
  | cons a rest ih =>
    rw [List.foldl_cons, ih, Std.ExtTreeSet.mem_insert, List.mem_cons,
      Std.LawfulEqCmp.compare_eq_iff_eq]
    grind

/-- Every member is dealt its share of the view, and who is not among the ids gets a `NULL`. -/
theorem allocate_share {cid : StdString} {received : List StdString}
    {mqSet : Std.ExtTreeSet MessageQueue} (hview : view.queues[topic]? = some mqSet)
    (hcid : cid ≠ []) (hreceived : received.Perm view.ids) :
    ∃ result, AllocateMessageQueueAveragely.allocate cid mqSet.toList
        (AllocateMessageQueueAveragely.sortIds received) = .ok result ∧
      result.getD [] = view.share topic cid := by
  have hperm : (AllocateMessageQueueAveragely.sortIds view.ids).Perm view.ids :=
    List.mergeSort_perm _ _
  have hqueues : mqSet.toList ≠ [] := by
    have hne := view.queues_ne topic mqSet hview
    rwa [← Std.ExtTreeSet.isEmpty_toList, List.isEmpty_eq_false_iff] at hne
  rw [AllocateMessageQueueAveragely.sortIds_eq_of_perm hreceived, GroupView.share, hview]
  by_cases hmem : cid ∈ view.ids
  · refine ⟨_, AllocateMessageQueueAveragely.allocate_of_getElem? hqueues
      (hperm.nodup_iff.mpr view.ids_nodup) hcid
      (List.getElem?_idxOf (hperm.mem_iff.mpr hmem)), ?_⟩
    rw [Option.getD_some, hperm.length_eq]
    exact (if_pos hmem).symm
  · refine ⟨none, ?_, (if_neg hmem).symm⟩
    have hfind : (AllocateMessageQueueAveragely.sortIds view.ids).findIdx? (· == cid) = none := by
      rw [List.findIdx?_eq_none_iff]
      intro x hx
      have hne : x ≠ cid := fun heq ↦ hmem (hperm.mem_iff.mp (heq ▸ hx))
      simpa using hne
    have hids : AllocateMessageQueueAveragely.sortIds view.ids ≠ [] := fun hnil ↦
      view.ids_ne (hnil ▸ hperm).nil_eq.symm
    rw [AllocateMessageQueueAveragely.allocate, if_neg (by simpa using hcid), dif_neg hqueues,
      if_neg (by simpa using hids), hfind]

/-- A turn that is told of the topic reconciles the table with the share. -/
theorem rebalanceByTopic_of_reaches (hsees : r.Sees view s.consumerGroup)
    (hreaches : r.Reaches s.consumerGroup topic) (htopic : topic ∈ view.subTable) :
    (rebalanceByTopic r.input (r.stack topic) s topic).1 =
      (s.updateProcessQueueTableInRebalance topic
        ((view.share topic r.input.clientId).foldl (fun mqs mq ↦ mqs.insert mq) ∅)
        r.input.computePullFromWhere).1 := by
  obtain ⟨hids, hqueues⟩ := hreaches
  have hreceived := (hsees.ids topic htopic).resolve_left hids
  rw [Std.ExtTreeMap.mem_iff_isSome_getElem?] at hqueues
  obtain ⟨mqSet, hmqSet⟩ := Option.isSome_iff_exists.mp hqueues
  have hview : view.queues[topic]? = some mqSet := by
    rcases hsees.queues topic htopic with hnone | hsame
    · rw [hmqSet] at hnone
      cases hnone
    · rw [← hsame, hmqSet]
  obtain ⟨result, hallocate, hshare⟩ := allocate_share hview hsees.clientId hreceived
  have hisEmpty : (r.input.findConsumerIdList topic s.consumerGroup).isEmpty = false :=
    List.isEmpty_eq_false_iff.mpr hids
  simp only [rebalanceByTopic, hsees.messageModel, hmqSet, hisEmpty, Bool.false_eq_true, if_false,
    hsees.strategy, AllocateMessageQueueStrategy.allocate, hallocate, AllocateResult.read, hshare]

/-- Any other one leaves all as it is. -/
theorem rebalanceByTopic_of_not_reaches (hsees : r.Sees view s.consumerGroup)
    (hreaches : ¬ r.Reaches s.consumerGroup topic) :
    (rebalanceByTopic r.input (r.stack topic) s topic).1 = s := by
  simp only [rebalanceByTopic, hsees.messageModel]
  split
  · rfl
  · rename_i mqSet hmqSet
    have hids : r.input.findConsumerIdList topic s.consumerGroup = [] := by
      by_contra hids
      apply hreaches ⟨hids, _⟩
      rw [Std.ExtTreeMap.mem_iff_isSome_getElem?, hmqSet]
      rfl
    rw [if_pos (List.isEmpty_iff.mpr hids)]

/-- The queues of a share are queues of the topic. -/
theorem topic_of_mem_share {cid : StdString} {mq : MessageQueue}
    (hmq : mq ∈ view.share topic cid) : mq.topic = topic := by
  rw [GroupView.share] at hmq
  split at hmq
  · cases hmq
  · rename_i mqSet hview
    split_ifs at hmq
    · apply view.queues_topic topic mqSet hview
      rw [Base.shareRun] at hmq
      exact Std.ExtTreeSet.mem_toList.mp (List.mem_of_mem_drop (List.mem_of_mem_take hmq))
    · cases hmq

/-- What is in the table after a turn. -/
theorem mem_rebalanceByTopic (hsees : r.Sees view s.consumerGroup) (htopic : topic ∈ view.subTable)
    (mq : MessageQueue) :
    mq ∈ (rebalanceByTopic r.input (r.stack topic) s topic).1.processQueueTable ↔
      if mq.topic = topic ∧ r.Reaches s.consumerGroup topic then
        mq ∈ view.share topic r.input.clientId ∧
          (mq ∈ s.processQueueTable ∨ 0 ≤ r.input.computePullFromWhere mq)
      else mq ∈ s.processQueueTable := by
  by_cases hreaches : r.Reaches s.consumerGroup topic
  · have hmem : mq ∈ (view.share topic r.input.clientId).foldl
        (fun (mqs : Std.ExtTreeSet MessageQueue) mq ↦ mqs.insert mq) ∅ ↔
          mq ∈ view.share topic r.input.clientId := by
      rw [mem_foldl_insert, or_iff_right Std.ExtTreeSet.not_mem_empty]
    rw [rebalanceByTopic_of_reaches hsees hreaches htopic, mem_update, Leaves, hmem]
    by_cases hown : mq.topic = topic
    · simp only [hown, hreaches, and_self, if_true, true_and, not_not]
      by_cases hthere : mq ∈ s.processQueueTable <;> simp [hthere]
    · have hnot : mq ∉ view.share topic r.input.clientId := fun h ↦ hown (topic_of_mem_share h)
      simp [hown, hnot]
  · rw [rebalanceByTopic_of_not_reaches hsees hreaches, if_neg fun h ↦ hreaches h.2]

theorem consumerGroup_rebalanceByTopic (hsees : r.Sees view s.consumerGroup)
    (htopic : topic ∈ view.subTable) :
    (rebalanceByTopic r.input (r.stack topic) s topic).1.consumerGroup = s.consumerGroup := by
  by_cases hreaches : r.Reaches s.consumerGroup topic
  · rw [rebalanceByTopic_of_reaches hsees hreaches htopic, consumerGroup_update]
  · rw [rebalanceByTopic_of_not_reaches hsees hreaches]

end ByTopic

/-! ### A whole round -/

section Round

variable {view : GroupView} {r : GroupRound} {s : RebalanceImpl}

/-- The turns for some topics, each of them once. -/
theorem turns_spec {topics : List StdString} (hnodup : topics.Nodup)
    (htopics : ∀ topic ∈ topics, topic ∈ view.subTable) (hsees : r.Sees view s.consumerGroup) :
    (topics.foldl (fun s topic ↦ (rebalanceByTopic r.input (r.stack topic) s topic).1)
        s).consumerGroup = s.consumerGroup ∧
    ∀ mq, mq ∈ (topics.foldl (fun s topic ↦ (rebalanceByTopic r.input (r.stack topic) s topic).1)
        s).processQueueTable ↔
      if mq.topic ∈ topics ∧ r.Reaches s.consumerGroup mq.topic then
        mq ∈ view.share mq.topic r.input.clientId ∧
          (mq ∈ s.processQueueTable ∨ 0 ≤ r.input.computePullFromWhere mq)
      else mq ∈ s.processQueueTable := by
  induction topics generalizing s with
  | nil => simp
  | cons topic rest ih =>
    obtain ⟨hnew, hrest⟩ := List.nodup_cons.mp hnodup
    have htopic := htopics topic List.mem_cons_self
    have hgroup := consumerGroup_rebalanceByTopic hsees htopic
    have hmem := mem_rebalanceByTopic hsees htopic
    obtain ⟨hgroup', hmem'⟩ := ih hrest (fun t ht ↦ htopics t (List.mem_cons_of_mem _ ht))
      (s := (rebalanceByTopic r.input (r.stack topic) s topic).1) (hgroup ▸ hsees)
    rw [hgroup] at hgroup' hmem'
    refine ⟨hgroup', fun mq ↦ ?_⟩
    rw [List.foldl_cons, hmem', hmem]
    by_cases hown : mq.topic = topic
    · subst hown
      simp [hnew]
    · simp [hown]

theorem getElem?_truncate (subTable : Std.ExtTreeSet StdString)
    (entries : List (MessageQueue × Option Nat)) (s : RebalanceImpl) (mq : MessageQueue) :
    (entries.foldl (truncate subTable) s).processQueueTable[mq]? =
      if mq.topic ∉ subTable ∧ mq ∈ entries.map Prod.fst then none
      else s.processQueueTable[mq]? := by
  induction entries generalizing s with
  | nil => simp
  | cons entry rest ih =>
    rw [List.foldl_cons, ih, truncate]
    by_cases heq : mq = entry.1
    · subst heq
      by_cases hsub : entry.1.topic ∈ subTable <;> simp [hsub]
    · have hmem : mq ∈ (entry :: rest).map Prod.fst ↔ mq ∈ rest.map Prod.fst := by
        rw [List.map_cons, List.mem_cons, or_iff_right heq]
      have hne : compare entry.1 mq ≠ .eq := fun h ↦ heq (Std.LawfulEqCmp.eq_of_compare h).symm
      simp only [hmem]
      by_cases hsub : entry.1.topic ∈ subTable
      · rw [if_pos hsub]
      · rw [if_neg hsub]
        simp only [Std.ExtTreeMap.getElem?_erase, hne, if_false]

theorem mem_truncateMessageQueueNotMyTopic (s : RebalanceImpl)
    (subTable : Std.ExtTreeSet StdString) (mq : MessageQueue) :
    mq ∈ (s.truncateMessageQueueNotMyTopic subTable).processQueueTable ↔
      mq ∈ s.processQueueTable ∧ mq.topic ∈ subTable := by
  rw [truncateMessageQueueNotMyTopic, Std.ExtTreeMap.mem_iff_isSome_getElem?, getElem?_truncate]
  by_cases hsub : mq.topic ∈ subTable
  · simp [hsub]
  · by_cases hmem : mq ∈ s.processQueueTable <;> simp [hsub, hmem]

/-- What is in the table after a round. -/
theorem mem_doRebalance (hsees : r.Sees view s.consumerGroup) (mq : MessageQueue) :
    mq ∈ (s.doRebalance r.input r.stack r.subTable).processQueueTable ↔
      mq.topic ∈ view.subTable ∧
        if r.Reaches s.consumerGroup mq.topic then
          mq ∈ view.share mq.topic r.input.clientId ∧
            (mq ∈ s.processQueueTable ∨ 0 ≤ r.input.computePullFromWhere mq)
        else mq ∈ s.processQueueTable := by
  have hnodup : r.subTable.toList.Nodup := by
    apply Std.ExtTreeSet.distinct_toList.imp
    intro a b hne heq
    exact hne (heq ▸ Std.ReflCmp.compare_self)
  have htopics : ∀ topic ∈ r.subTable.toList, topic ∈ view.subTable := fun topic htopic ↦
    hsees.subTable ▸ Std.ExtTreeSet.mem_toList.mp htopic
  rw [doRebalance, mem_truncateMessageQueueNotMyTopic, (turns_spec hnodup htopics hsees).2 mq,
    hsees.subTable, and_comm]
  by_cases hsub : mq.topic ∈ view.subTable <;> simp [hsub]

end Round

/-! ### A round that changes nothing -/

section Settled

variable {view : GroupView} {r : GroupRound} {s : RebalanceImpl}

theorem foldl_eq_self {σ ε : Type} {f : σ → ε → σ} {s : σ} {es : List ε}
    (h : ∀ e ∈ es, f s e = s) : es.foldl f s = s := by
  induction es with
  | nil => rfl
  | cons e es ih =>
    rw [List.foldl_cons, h e List.mem_cons_self]
    exact ih fun e' he' ↦ h e' (List.mem_cons_of_mem e he')

theorem mem_of_mem_toList {entry : MessageQueue × Option Nat}
    (hentry : entry ∈ s.processQueueTable.toList) : entry.1 ∈ s.processQueueTable := by
  rw [Std.ExtTreeMap.mem_iff_isSome_getElem?,
    Std.ExtTreeMap.mem_toList_iff_getElem?_eq_some.mp hentry]
  rfl

/-- The table has the queues of the topic that it is to have. -/
theorem update_eq_self {topic : StdString} {mqSet : Std.ExtTreeSet MessageQueue}
    (h : ∀ mq : MessageQueue, mq.topic = topic → (mq ∈ s.processQueueTable ↔ mq ∈ mqSet))
    (hset : ∀ mq : MessageQueue, mq ∈ mqSet → mq.topic = topic)
    (computePullFromWhere : MessageQueue → Int) :
    (s.updateProcessQueueTableInRebalance topic mqSet computePullFromWhere).1 = s := by
  have hleave : s.processQueueTable.toList.foldl (leave topic mqSet)
      ⟨s.processQueueTable, ∅, false⟩ = ⟨s.processQueueTable, ∅, false⟩ := by
    refine foldl_eq_self fun entry hentry ↦ leave_eq_self (fun hleaves ↦ ?_) _ _
    exact hleaves.2 ((h entry.1 hleaves.1).mp (mem_of_mem_toList hentry))
  have hjoin : mqSet.toList.foldl (join s.consumerGroup computePullFromWhere)
      ⟨s.processQueueTable, [], s.nextAddress, false⟩ =
        ⟨s.processQueueTable, [], s.nextAddress, false⟩ := by
    refine foldl_eq_self fun mq hmq ↦ ?_
    have hmem := Std.ExtTreeSet.mem_toList.mp hmq
    exact if_pos ((h mq (hset mq hmem)).mpr hmem)
  have hdrop : (∅ : Std.ExtTreeMap MessageQueue Nat).toList.foldl drop s = s := rfl
  simp only [updateProcessQueueTableInRebalance, hleave, hdrop, hjoin]
  rfl

/-- The member has exactly its shares of the topics with a route. -/
structure Settled (view : GroupView) (cid : StdString) (s : RebalanceImpl) : Prop where
  queues : ∀ mq : MessageQueue, mq.topic ∈ view.queues →
    (mq ∈ s.processQueueTable ↔ mq ∈ view.share mq.topic cid)
  subscribed : ∀ mq ∈ s.processQueueTable, mq.topic ∈ view.subTable

/-- For such a member a round changes nothing at all. -/
theorem Settled.doRebalance (h : s.Settled view r.input.clientId)
    (hsees : r.Sees view s.consumerGroup) : s.doRebalance r.input r.stack r.subTable = s := by
  have hturns : r.subTable.toList.foldl
      (fun s topic ↦ (rebalanceByTopic r.input (r.stack topic) s topic).1) s = s := by
    refine foldl_eq_self fun topic htopic ↦ ?_
    have hsub : topic ∈ view.subTable := hsees.subTable ▸ Std.ExtTreeSet.mem_toList.mp htopic
    by_cases hreaches : r.Reaches s.consumerGroup topic
    · have hview : topic ∈ view.queues := by
        have hthere := hreaches.2
        rw [Std.ExtTreeMap.mem_iff_isSome_getElem?] at hthere ⊢
        rcases hsees.queues topic hsub with hnone | hsame
        · rw [hnone] at hthere
          cases hthere
        · rwa [← hsame]
      rw [rebalanceByTopic_of_reaches hsees hreaches hsub]
      apply update_eq_self
      · rintro mq rfl
        rw [h.queues mq hview, mem_foldl_insert, or_iff_right Std.ExtTreeSet.not_mem_empty]
      · intro mq hmq
        rw [mem_foldl_insert, or_iff_right Std.ExtTreeSet.not_mem_empty] at hmq
        exact topic_of_mem_share hmq
    · exact rebalanceByTopic_of_not_reaches hsees hreaches
  rw [RebalanceImpl.doRebalance, hturns, truncateMessageQueueNotMyTopic]
  refine foldl_eq_self fun entry hentry ↦ if_pos ?_
  rw [hsees.subTable]
  exact h.subscribed entry.1 (mem_of_mem_toList hentry)

/-- After a round in which it is told of all topics and finds out all offsets it has them. -/
theorem settled_doRebalance (hsees : r.Sees view s.consumerGroup)
    (hreaches : ∀ topic ∈ view.queues, r.Reaches s.consumerGroup topic)
    (hoffset : ∀ mq ∈ view.share mq.topic r.input.clientId, 0 ≤ r.input.computePullFromWhere mq) :
    (s.doRebalance r.input r.stack r.subTable).Settled view r.input.clientId := by
  constructor
  · intro mq hmq
    rw [mem_doRebalance hsees, if_pos (hreaches _ hmq),
      and_iff_right (view.queues_subscribed _ hmq)]
    exact and_iff_left_of_imp fun hshare ↦ .inr (hoffset mq hshare)
  · intro mq hmq
    exact ((mem_doRebalance hsees mq).mp hmq).1

end Settled

end RebalanceImpl

/-! ### The whole group -/

namespace Group

section Converges

variable {view : GroupView} {g g' : Group} {r : GroupRound} {cid topic : StdString}
  {mq : MessageQueue}

/-- What is in a table after a round of any member. -/
theorem mem_step (hsees : g.Sees view r) (hstep : g.step r = some g') (cid : StdString)
    (mq : MessageQueue) : mq ∈ (g' cid).processQueueTable ↔
      if r.input.clientId = cid then
        mq.topic ∈ view.subTable ∧
          if r.Reaches (g cid).consumerGroup mq.topic then
            mq ∈ view.share mq.topic cid ∧
              (mq ∈ (g cid).processQueueTable ∨ 0 ≤ r.input.computePullFromWhere mq)
          else mq ∈ (g cid).processQueueTable
      else mq ∈ (g cid).processQueueTable := by
  obtain rfl := Option.some.inj hstep
  split_ifs with hcid
  · subst hcid
    rw [Function.update_self, RebalanceImpl.mem_doRebalance hsees]
    simp [*]
  · subst hcid
    rw [Function.update_self, RebalanceImpl.mem_doRebalance hsees]
    simp [*]
  · rw [Function.update_of_ne (Ne.symm hcid)]

/-- The shares of a topic deal its queues out in the order of the ids. -/
theorem fairPartition_share {mqSet : Std.ExtTreeSet MessageQueue}
    (hview : view.queues[topic]? = some mqSet) :
    Base.FairPartition (AllocateMessageQueueAveragely.sortIds view.ids) mqSet.toList
      (view.share topic) := by
  have hperm : (AllocateMessageQueueAveragely.sortIds view.ids).Perm view.ids :=
    List.mergeSort_perm _ _
  refine Base.fairPartition_of_shareRun ?_ (RebalanceImpl.nodup_toList mqSet) fun i cid hi ↦ ?_
  · intro hnil
    rw [hnil] at hperm
    exact view.ids_ne hperm.nil_eq.symm
  · obtain ⟨hlt, hget⟩ := List.getElem?_eq_some_iff.mp hi
    have hmem : cid ∈ view.ids := hperm.mem_iff.mp (List.mem_of_getElem? hi)
    have hindex : (AllocateMessageQueueAveragely.sortIds view.ids).idxOf cid = i := by
      rw [← hget]
      exact (hperm.nodup_iff.mpr view.ids_nodup).idxOf_getElem i hlt
    rw [GroupView.share, hview, hperm.length_eq]
    simp only [if_pos hmem, hindex]

/-- **A group converges**: however the rounds of the members interleave and whatever their tables
held before, once a member has had a round in which it was told of a topic it has no queues of the
topic but those of its share, and has those of them whose offset it could find out; and the shares
deal the queues of the topic out. -/
theorem converges {es : List GroupRound} {mqSet : Std.ExtTreeSet MessageQueue}
    (hview : view.queues[topic]? = some mqSet) (hsees : Base.Along step (Sees view) g es)
    (hrun : Base.runFrom step g es = some g') :
    Base.FairPartition (AllocateMessageQueueAveragely.sortIds view.ids) mqSet.toList
        (view.share topic) ∧
      (∀ cid ∉ view.ids, view.share topic cid = []) ∧
      ∀ cid, Base.Happens step (Reaches cid topic) g es → ∀ mq, mq.topic = topic →
        (mq ∈ (g' cid).processQueueTable → mq ∈ view.share topic cid) ∧
        (mq ∈ view.share topic cid →
          Base.Happens step (fun g r ↦ Reaches cid topic g r ∧
            0 ≤ r.input.computePullFromWhere mq) g es →
              mq ∈ (g' cid).processQueueTable) := by
  have hsubscribed : topic ∈ view.subTable := by
    apply view.queues_subscribed
    rw [Std.ExtTreeMap.mem_iff_isSome_getElem?, hview]
    rfl
  refine ⟨fairPartition_share hview, fun cid hcid ↦ ?_, fun cid hreached mq hmq ↦ ⟨?_, ?_⟩⟩
  · rw [GroupView.share, hview]
    exact if_neg hcid
  · subst hmq
    have hset : ∀ g r g', Sees view g r → Reaches cid mq.topic g r → step g r = some g' →
        (mq ∈ (g' cid).processQueueTable → mq ∈ view.share mq.topic cid) := by
      rintro g r g' hsees ⟨rfl, hreaches⟩ hstep hmem
      rw [mem_step hsees hstep, if_pos rfl, if_pos hreaches] at hmem
      exact hmem.2.1
    refine Base.inv_of_happens hset ?_ hsees hreached hrun
    intro g r g' hkept hsees hstep hmem
    rw [mem_step hsees hstep] at hmem
    split_ifs at hmem with hturn hreaches
    · exact hmem.2.1
    · exact hkept hmem.2
    · exact hkept hmem
  · intro hshare hserved
    subst hmq
    have hset : ∀ g r g', Sees view g r →
        Reaches cid mq.topic g r ∧ 0 ≤ r.input.computePullFromWhere mq → step g r = some g' →
          mq ∈ (g' cid).processQueueTable := by
      rintro g r g' hsees ⟨⟨rfl, hreaches⟩, hoffset⟩ hstep
      rw [mem_step hsees hstep, if_pos rfl, if_pos hreaches]
      exact ⟨hsubscribed, hshare, .inr hoffset⟩
    refine Base.inv_of_happens hset ?_ hsees hserved hrun
    intro g r g' hkept hsees hstep
    rw [mem_step hsees hstep]
    split_ifs with hturn hreaches
    · exact ⟨hsubscribed, hshare, .inl hkept⟩
    · exact ⟨hsubscribed, hkept⟩
    · exact hkept

end Converges

/-- Two members, a topic with two queues. -/
def pairQueues : Std.ExtTreeSet MessageQueue :=
  {⟨str "t", str "b", 0⟩, ⟨str "t", str "b", 1⟩}

theorem getElem?_pairQueues {topic : StdString} {mqSet : Std.ExtTreeSet MessageQueue}
    (h : ({(str "t", pairQueues)} : Std.ExtTreeMap StdString _)[topic]? = some mqSet) :
    topic = str "t" ∧ mqSet = pairQueues := by
  change ((∅ : Std.ExtTreeMap StdString _).insert (str "t") pairQueues)[topic]? = _ at h
  rw [Std.ExtTreeMap.getElem?_insert] at h
  split_ifs at h with heq
  · exact ⟨(Std.LawfulEqCmp.eq_of_compare heq).symm, (Option.some.inj h).symm⟩
  · cases h

def pairView : GroupView where
  ids := [str "d", str "c"]
  subTable := {str "t"}
  queues := {(str "t", pairQueues)}
  ids_ne := by simp
  ids_nodup := by decide
  ids_plain := by simp [str]
  queues_subscribed topic htopic := by
    simpa [Std.ExtTreeSet.mem_iff_contains, Std.ExtTreeMap.mem_iff_contains] using htopic
  queues_ne topic mqSet hview := by
    rw [(getElem?_pairQueues hview).2]
    rfl
  queues_topic topic mqSet hview mq hmq := by
    obtain ⟨rfl, rfl⟩ := getElem?_pairQueues hview
    have hall : ∀ mq ∈ pairQueues.toList, mq.topic = str "t" := by decide
    exact hall mq (Std.ExtTreeSet.mem_toList.mpr hmq)

/-- A round that is told of both. -/
def pairRound (cid : StdString) : GroupRound where
  input := {
    messageModel := .clustering
    topicSubscribeInfoTable := pairView.queues
    allocateMessageQueueStrategy := .averagely
    clientId := cid
    findConsumerIdList := fun _ _ ↦ [str "c", str "d"]
    computePullFromWhere := fun _ ↦ 0 }
  stack _ := none
  subTable := {str "t"}

theorem sees_pairRound {cid : StdString} (hcid : cid ≠ []) (group : StdString) :
    (pairRound cid).Sees pairView group where
  messageModel := rfl
  strategy := rfl
  clientId := hcid
  subTable := rfl
  ids _ _ := .inr (List.Perm.swap (str "d") (str "c") [])
  queues _ _ := .inr rfl

/-- `c` has had both queues when `d` joins. -/
def joining : Group := fun cid ↦
  { consumerGroup := str "g"
    processQueueTable :=
      if cid = str "c" then {(⟨str "t", str "b", 0⟩, some 0), (⟨str "t", str "b", 1⟩, some 1)}
      else ∅
    dropped := ∅
    removed := []
    pullRequestQueue := []
    nextAddress := 2 }

def joiningRun : List GroupRound := [pairRound (str "d"), pairRound (str "c")]

/-- The group after a round of each. -/
def joined : Group := (Base.runFrom step joining joiningRun).get rfl

theorem sees_joiningRun (g : Group) : Base.Along step (Sees pairView) g joiningRun := by
  refine Base.along_of_forall_mem (fun r hr g ↦ ?_) g
  rw [joiningRun, List.mem_pair] at hr
  rcases hr with rfl | rfl <;> exact sees_pairRound (by decide) _

theorem converges_joined :
    Base.FairPartition (AllocateMessageQueueAveragely.sortIds pairView.ids) pairQueues.toList
        (pairView.share (str "t")) ∧
      (⟨str "t", str "b", 1⟩ : MessageQueue) ∉ (joined (str "c")).processQueueTable := by
  have hview : pairView.queues[str "t"]? = some pairQueues := rfl
  obtain ⟨hfair, -, hconverges⟩ :=
    converges hview (sees_joiningRun _) (Option.some_get rfl).symm
  have hreached : Base.Happens step (Reaches (str "c") (str "t")) joining joiningRun :=
    ⟨[pairRound (str "d")], pairRound (str "c"), _, List.prefix_rfl, rfl, rfl, by decide⟩
  have hids : AllocateMessageQueueAveragely.sortIds pairView.ids = [str "c", str "d"] :=
    (AllocateMessageQueueAveragely.sortIds_eq_of_perm (List.Perm.swap ..)).trans
      (List.mergeSort_of_pairwise (by decide))
  have hshare : pairView.share (str "t") (str "c") = [⟨str "t", str "b", 0⟩] := by
    simp only [GroupView.share, hview, hids]
    decide
  refine ⟨hfair, fun hmem ↦ ?_⟩
  have hdealt := (hconverges (str "c") hreached ⟨str "t", str "b", 1⟩ rfl).1 hmem
  rw [hshare] at hdealt
  exact absurd hdealt (by decide)

/-! ### Once it has converged -/

/-- A member that has its shares stays as it is, through all rounds of all members: it keeps the
`ProcessQueue`s, drops none, and starts no pull loop. -/
theorem settled_stays {view : GroupView} {g g' : Group} {es : List GroupRound} {cid : StdString}
    (hsettled : (g cid).Settled view cid) (hsees : Base.Along step (Sees view) g es)
    (hrun : Base.runFrom step g es = some g') : g' cid = g cid := by
  have hkeep : ∀ t r t', t cid = g cid → Sees view t r → step t r = some t' →
      t' cid = g cid := by
    intro t r t' hsame hsees hstep
    obtain rfl := Option.some.inj hstep
    by_cases hturn : r.input.clientId = cid
    · subst hturn
      rw [Function.update_self, hsame]
      rw [Sees, hsame] at hsees
      exact hsettled.doRebalance hsees
    · rw [Function.update_of_ne (Ne.symm hturn), hsame]
  exact Base.inv_of_along hkeep rfl hsees hrun

/-- `c` has its share by then. -/
theorem settled_joined : (joined (str "c")).Settled pairView (str "c") := by
  have hround : joined (str "c") = (joining (str "c")).doRebalance (pairRound (str "c")).input
      (pairRound (str "c")).stack (pairRound (str "c")).subTable := rfl
  rw [hround]
  refine RebalanceImpl.settled_doRebalance (sees_pairRound (by decide) _) (fun topic htopic ↦ ?_)
    fun mq _ ↦ le_rfl
  exact ⟨List.cons_ne_nil _ _, htopic⟩

theorem settled_stays_joined :
    ((Base.runFrom step joined joiningRun).get rfl) (str "c") = joined (str "c") :=
  settled_stays settled_joined (sees_joiningRun joined) (Option.some_get rfl).symm

end Group

end RocketMQ
