import RocketMQ.Factory.PublishQueues
import RocketMQ.Producer.SendRotation

/-!
# Looking up where to send a topic to

`DefaultMQProducerImpl::tryToFindTopicPublishInfo` with its iterators. The two route updates in it
call back into the producer and may put an entry for the topic into the table that is searched.
The last iterator is dereferenced without a test, as `m_topicPublishInfoTable[topic]` is assigned
before the first update.
-/

namespace RocketMQ

/-- What a route update does to the entry of its topic in the table of one producer: nothing, or
`updateTopicPublishInfo` with what the route gives. -/
inductive RouteOutcome where
  | leftAlone
  | published (info : TopicPublishInfo)

namespace RouteOutcome

/-- The table after the update. -/
def apply (topic : StdString) : RouteOutcome → TopicPublishInfoTable → TopicPublishInfoTable
  | leftAlone, table => table
  | published info, table => (updateTopicPublishInfo topic info table).2

end RouteOutcome

namespace DefaultMQProducerImpl

/-- `m_topicPublishInfoTable.find(topic)`: an iterator at the entry, or `end()`. -/
def find (table : TopicPublishInfoTable) (topic : StdString) : Option StdString :=
  if topic ∈ table then some topic else none

/-- `it->second`; `none` when the iterator does not point at an entry. -/
def deref (table : TopicPublishInfoTable) (it : Option StdString) : Option TopicPublishInfo :=
  it.bind fun topic ↦ table[topic]?

/-- `it == end() || !it->second.ok()`. -/
def lacksQueues (table : TopicPublishInfoTable) (it : Option StdString) : Option Bool :=
  match it with
  | none => some true
  | some topic => (deref table (some topic)).map fun info ↦ !info.ok

/-- Change the table and search it again, if the condition asks for it. -/
def lookAgain (table : TopicPublishInfoTable) (topic : StdString) (it : Option StdString)
    (change : TopicPublishInfoTable → TopicPublishInfoTable) :
    Option (TopicPublishInfoTable × Option StdString) :=
  (lacksQueues table it).map fun lacks ↦
    if lacks then (change table, find (change table) topic) else (table, it)

/-- `src/producer/DefaultMQProducerImpl.cpp:665–684`: the table afterwards, and what is returned;
`none` when an iterator is dereferenced that points at no entry. -/
def tryToFindTopicPublishInfo (table : TopicPublishInfoTable) (topic : StdString)
    (update updateDefault : RouteOutcome) : Option (TopicPublishInfoTable × TopicPublishInfo) := do
  let it := find table topic
  let (table, it) ← lookAgain table topic it fun table ↦
    update.apply topic (table.insert topic ⟨[], 0⟩)
  let (table, it) ← lookAgain table topic it fun table ↦ updateDefault.apply topic table
  let info ← deref table it
  return (table, info)

section Find

variable {table : TopicPublishInfoTable} {topic : StdString}

/-- An iterator from a search points at the entry if there is one. -/
theorem deref_find (table : TopicPublishInfoTable) (topic : StdString) :
    deref table (find table topic) = table[topic]? := by
  rw [find]
  split_ifs with hmem
  · rfl
  · exact (Std.ExtTreeMap.getElem?_eq_none hmem).symm

/-- The condition tests only an iterator that points at an entry. -/
theorem lacksQueues_find (table : TopicPublishInfoTable) (topic : StdString) :
    lacksQueues table (find table topic) = some !(table[topic]?.any TopicPublishInfo.ok) := by
  have hderef := deref_find table topic
  by_cases hmem : topic ∈ table
  · rw [find, if_pos hmem] at hderef ⊢
    rw [lacksQueues, hderef, Std.ExtTreeMap.getElem?_eq_some_getElem hmem]
    rfl
  · rw [find, if_neg hmem, Std.ExtTreeMap.getElem?_eq_none hmem]
    rfl

/-- What is known after one of the two tests: the table, and an iterator at the entry of it. -/
theorem lookAgain_find (table : TopicPublishInfoTable) (topic : StdString)
    (change : TopicPublishInfoTable → TopicPublishInfoTable) :
    lookAgain table topic (find table topic) change =
      some (if table[topic]?.any TopicPublishInfo.ok then (table, find table topic)
        else (change table, find (change table) topic)) := by
  rw [lookAgain, lacksQueues_find]
  cases table[topic]?.any TopicPublishInfo.ok <;> rfl

/-- An update does not remove the entry of its topic. -/
theorem mem_apply (outcome : RouteOutcome) (hmem : topic ∈ table) :
    topic ∈ outcome.apply topic table := by
  cases outcome with
  | leftAlone => exact hmem
  | published info => exact Std.ExtTreeMap.mem_insert_self

/-- Every route update does one of these things to the table of a registered producer. -/
theorem outcome_of_update {f g : MQClientFactory} {call : MQClientFactory.RouteCall} {r : Bool}
    (h : f.updateTopicRouteInfoFromNameServer call = some (g, r)) {group : StdString}
    (htable : f.producerTable[group]? = some table) :
    ∃ outcome : RouteOutcome, g.producerTable[group]? = some (outcome.apply call.topic table) := by
  rcases MQClientFactory.update_returned h with ⟨-, route, -, hinstall⟩ | ⟨-, rfl⟩
  · obtain ⟨derived, info, -, hget, -⟩ :=
      MQClientFactory.getElem?_producerTable_install hinstall htable
    exact ⟨.published info, hget⟩
  · exact ⟨.leftAlone, htable⟩

/-- What the producer finds is what a search of the table finds that does without iterators. -/
theorem tryToFindTopicPublishInfo_eq (table : TopicPublishInfoTable) (topic : StdString)
    (update updateDefault : RouteOutcome) :
    tryToFindTopicPublishInfo table topic update updateDefault =
      (table.tryToFindTopicPublishInfo topic (update.apply topic)
        (updateDefault.apply topic)).2.map fun info ↦
          ((table.tryToFindTopicPublishInfo topic (update.apply topic)
            (updateDefault.apply topic)).1, info) := by
  simp only [tryToFindTopicPublishInfo, TopicPublishInfoTable.tryToFindTopicPublishInfo,
    lookAgain_find, Option.bind_eq_bind, Option.bind_some]
  split_ifs <;> simp only [lookAgain_find, Option.bind_some] <;> split_ifs
  all_goals
    simp only [deref_find]
    rw [Option.map_eq_bind]
    rfl

/-- The entry is there after the updates: it was found, or it was assigned before the first
update. -/
theorem mem_tryToFindTopicPublishInfo (table : TopicPublishInfoTable) (topic : StdString)
    (update updateDefault : RouteOutcome) :
    topic ∈ (table.tryToFindTopicPublishInfo topic (update.apply topic)
      (updateDefault.apply topic)).1 := by
  have hfirst : topic ∈ if table[topic]?.any TopicPublishInfo.ok then table
      else update.apply topic (table.insert topic ⟨[], 0⟩) := by
    split_ifs with hfound
    · by_contra hmem
      rw [Std.ExtTreeMap.getElem?_eq_none hmem] at hfound
      cases hfound
    · exact mem_apply update Std.ExtTreeMap.mem_insert_self
  simp only [TopicPublishInfoTable.tryToFindTopicPublishInfo]
  generalize (if table[topic]?.any TopicPublishInfo.ok then table else
    update.apply topic (table.insert topic ⟨[], 0⟩)) = first at hfirst ⊢
  split_ifs
  · exact hfirst
  · exact mem_apply updateDefault hfirst

/-- **Looking up a topic**: whatever the table has for the topic and the two updates do, only
iterators that point at an entry are dereferenced, and what is returned is the entry that the table
has for the topic after the updates. -/
theorem tryToFindTopicPublishInfo_safe (table : TopicPublishInfoTable) (topic : StdString)
    (update updateDefault : RouteOutcome) :
    ∃ table' info, tryToFindTopicPublishInfo table topic update updateDefault =
        some (table', info) ∧
      table' = (table.tryToFindTopicPublishInfo topic (update.apply topic)
        (updateDefault.apply topic)).1 ∧ table'[topic]? = some info := by
  have hmem := mem_tryToFindTopicPublishInfo table topic update updateDefault
  refine ⟨_, _, ?_, rfl, Std.ExtTreeMap.getElem?_eq_some_getElem hmem⟩
  rw [tryToFindTopicPublishInfo_eq]
  have hentry : (table.tryToFindTopicPublishInfo topic (update.apply topic)
      (updateDefault.apply topic)).2 = (table.tryToFindTopicPublishInfo topic (update.apply topic)
        (updateDefault.apply topic)).1[topic]? := rfl
  rw [hentry, Std.ExtTreeMap.getElem?_eq_some_getElem hmem, Option.map_some]

end Find
end DefaultMQProducerImpl
end RocketMQ
