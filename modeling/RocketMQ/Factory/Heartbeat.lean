import RocketMQ.Common.VirtualEnv
import RocketMQ.Consumer.Concurrently
import RocketMQ.Consumer.PullFromWhere
import RocketMQ.Consumer.SubscriptionData
import RocketMQ.Factory.BrokerTable

/-!
# Heartbeats

`src/MQClientFactory.cpp:799–897`, `src/MQClientAPIImpl.cpp:456–524` and
`src/protocol/HeartbeatData.cpp`. A factory tells every broker which producers and consumers it
has. One `HeartbeatData` is made for all brokers, and each send puts the project group into it
again, before it can fail; what it throws is caught.
-/

namespace RocketMQ

open Base (Json)
open VirtualEnvUtil (buildWithProjectGroup buildWithProjectGroup_idem)

/-- `ConsumeType`. -/
inductive ConsumeType where
  | consumeActively
  | consumePassively

/-- `getConsumeTypeString`, `src/consumer/ConsumeType.cpp:19–26`. -/
def ConsumeType.text : ConsumeType → String
  | .consumeActively => "CONSUME_ACTIVELY"
  | .consumePassively => "CONSUME_PASSIVELY"

/-- `getConsumeFromWhereString`, `src/consumer/ConsumeType.cpp:28–37`. -/
def ConsumeFromWhere.text : ConsumeFromWhere → String
  | .consumeFromLastOffset => "CONSUME_FROM_LAST_OFFSET"
  | .consumeFromLastOffsetAndFromMinWhenBootFirst =>
    "CONSUME_FROM_LAST_OFFSET_AND_FROM_MIN_WHEN_BOOT_FIRST"
  | .consumeFromMaxOffset => "CONSUME_FROM_MAX_OFFSET"
  | .consumeFromMinOffset => "CONSUME_FROM_MIN_OFFSET"

/-- `getMessageModelString`, `src/consumer/ConsumeType.cpp:39–46`. -/
def MessageModel.text : MessageModel → String
  | .clustering => "CLUSTERING"
  | .broadcasting => "BROADCASTING"

/-- `src/protocol/HeartbeatData.h:26–37`, with the subscriptions in the order of their set. -/
structure ConsumerData where
  groupName : StdString
  consumeType : ConsumeType
  messageModel : MessageModel
  consumeFromWhere : ConsumeFromWhere
  subscriptionDataSet : List SubscriptionData

/-- `HeartbeatData`, with both sets in the order of their group names. `addProjectGroup` changes
the names, but not the order. -/
structure HeartbeatData where
  clientID : StdString
  consumerDataSet : List ConsumerData
  producerDataSet : List StdString

namespace ConsumerData

/-- The stream of a consumer, `src/protocol/HeartbeatData.cpp:38–64`, without the last comma. -/
def encode (d : ConsumerData) : StdString :=
  let subscriptionDataSet :=
    (d.subscriptionDataSet.flatMap fun sub ↦ sub.encode ++ str ",").dropLast
  str "\x7b" ++ fieldName "consumeFromWhere" ++ str "\"" ++ str d.consumeFromWhere.text ++
    str "\"," ++ fieldName "consumeType" ++ str "\"" ++ str d.consumeType.text ++ str "\"," ++
    fieldName "groupName" ++ str "\"" ++ d.groupName ++ str "\"," ++
    fieldName "messageModel" ++ str "\"" ++ str d.messageModel.text ++ str "\"," ++
    fieldName "subscriptionDataSet" ++ str "[" ++ subscriptionDataSet ++ str "]\x7d"

/-- The object that the text is meant to be. -/
def json (d : ConsumerData) : Json :=
  .object [(str "consumeFromWhere", .string (str d.consumeFromWhere.text)),
    (str "consumeType", .string (str d.consumeType.text)),
    (str "groupName", .string d.groupName),
    (str "messageModel", .string (str d.messageModel.text)),
    (str "subscriptionDataSet", .array (d.subscriptionDataSet.map SubscriptionData.json))]

/-- The strings that a consumer brings in. -/
def strings (d : ConsumerData) : List StdString :=
  d.groupName :: d.subscriptionDataSet.flatMap SubscriptionData.strings

/-- `src/MQClientAPIImpl.cpp:464–479`. -/
def addProjectGroup (projectGroup : StdString) (d : ConsumerData) : ConsumerData :=
  { d with
    groupName := buildWithProjectGroup d.groupName projectGroup
    subscriptionDataSet := d.subscriptionDataSet.map fun sub ↦
      { sub with topic := buildWithProjectGroup sub.topic projectGroup } }

theorem addProjectGroup_idem (projectGroup : StdString) (d : ConsumerData) :
    (d.addProjectGroup projectGroup).addProjectGroup projectGroup =
      d.addProjectGroup projectGroup := by
  simp [addProjectGroup, buildWithProjectGroup_idem]

/-- The text around the subscriptions. -/
theorem write_members {subs : Json} {subscriptionDataSet : StdString} (d : ConsumerData)
    (hsubs : Json.write subs = Json.openBracket :: (subscriptionDataSet ++ [Json.closeBracket])) :
    str "\x7b" ++ fieldName "consumeFromWhere" ++ str "\"" ++ str d.consumeFromWhere.text ++
      str "\"," ++ fieldName "consumeType" ++ str "\"" ++ str d.consumeType.text ++ str "\"," ++
      fieldName "groupName" ++ str "\"" ++ d.groupName ++ str "\"," ++
      fieldName "messageModel" ++ str "\"" ++ str d.messageModel.text ++ str "\"," ++
      fieldName "subscriptionDataSet" ++ str "[" ++ subscriptionDataSet ++ str "]\x7d" =
    Json.write (.object [(str "consumeFromWhere", .string (str d.consumeFromWhere.text)),
      (str "consumeType", .string (str d.consumeType.text)),
      (str "groupName", .string d.groupName),
      (str "messageModel", .string (str d.messageModel.text)),
      (str "subscriptionDataSet", subs)]) := by
  simp only [show str "\x7b" = [Json.openBrace] from rfl,
    show str "[" = [Json.openBracket] from rfl,
    show str "]\x7d" = [Json.closeBracket, Json.closeBrace] from rfl,
    show str "\"" = [Json.quote] from rfl, show str "\"," = [Json.quote, Json.comma] from rfl]
  simp only [Json.write, Json.writeMembers, hsubs, fieldName_eq, Json.quoted,
    List.append_assoc, List.cons_append, List.nil_append]

/-- A consumer is written as its object. -/
theorem encode_eq_write (d : ConsumerData) : d.encode = Json.write d.json := by
  have hsubs : (d.subscriptionDataSet.flatMap fun sub ↦ sub.encode ++ str ",") =
      (d.subscriptionDataSet.map SubscriptionData.json).flatMap
        fun v ↦ Json.write v ++ [Json.comma] := by
    rw [List.flatMap_map]
    apply List.flatMap_congr
    intro sub _
    rw [SubscriptionData.encode_eq_write]
    rfl
  have htext := d.write_members (Json.write_array (d.subscriptionDataSet.map SubscriptionData.json))
  rw [← hsubs] at htext
  exact htext

theorem plainString_text (d : ConsumerData) :
    Json.PlainString (str d.consumeFromWhere.text) ∧ Json.PlainString (str d.consumeType.text) ∧
      Json.PlainString (str d.messageModel.text) := by
  refine ⟨?_, ?_, ?_⟩
  · cases d.consumeFromWhere <;> decide
  · cases d.consumeType <;> decide
  · cases d.messageModel <;> decide

theorem plain_json_iff (d : ConsumerData) :
    Json.Plain d.json.atoms ↔ ∀ s ∈ d.strings, Json.PlainString s := by
  have hconsumeFromWhere : PlainName "consumeFromWhere" := by decide
  have hconsumeType : PlainName "consumeType" := by decide
  have hgroupName : PlainName "groupName" := by decide
  have hmessageModel : PlainName "messageModel" := by decide
  have hsubscriptionDataSet : PlainName "subscriptionDataSet" := by decide
  obtain ⟨hfrom, htype, hmodel⟩ := d.plainString_text
  simp only [json, strings, Json.atoms, Json.memberAtoms, Json.plain_append,
    Json.plain_string_cons, hconsumeFromWhere, hconsumeType, hgroupName, hmessageModel,
    hsubscriptionDataSet, hfrom, htype, hmodel, Json.plain_nil, List.forall_mem_cons, true_and,
    and_true]
  rw [Json.plain_elements_iff]
  simp only [List.forall_mem_map, SubscriptionData.plain_json_iff, List.forall_mem_flatMap]

theorem integral_json (d : ConsumerData) : Json.Integral d.json.atoms := by
  simp only [json, Json.atoms, Json.memberAtoms, Json.integral_append, Json.integral_string_cons,
    Json.integral_nil, true_and, and_true]
  apply Json.integral_elements
  intro v hv
  obtain ⟨sub, -, rfl⟩ := List.mem_map.mp hv
  exact sub.integral_json

end ConsumerData

namespace HeartbeatData

/-- `src/protocol/HeartbeatData.cpp:28–88`. -/
def encode (h : HeartbeatData) : StdString :=
  let consumerDataSet := (h.consumerDataSet.flatMap fun d ↦ d.encode ++ str ",").dropLast
  let producerDataSet := (h.producerDataSet.flatMap fun groupName ↦
    str "\x7b" ++ fieldName "groupName" ++ str "\"" ++ groupName ++ str "\"\x7d,").dropLast
  str "\x7b" ++ fieldName "clientID" ++ str "\"" ++ h.clientID ++ str "\"," ++
    fieldName "consumerDataSet" ++ str "[" ++ consumerDataSet ++ str "]," ++
    fieldName "producerDataSet" ++ str "[" ++ producerDataSet ++ str "]\x7d"

/-- The object of a producer. -/
def producerJson (groupName : StdString) : Json := .object [(str "groupName", .string groupName)]

/-- The object that the text is meant to be. -/
def json (h : HeartbeatData) : Json :=
  .object [(str "clientID", .string h.clientID),
    (str "consumerDataSet", .array (h.consumerDataSet.map ConsumerData.json)),
    (str "producerDataSet", .array (h.producerDataSet.map producerJson))]

/-- The strings that the factory brings in. -/
def strings (h : HeartbeatData) : List StdString :=
  h.clientID :: h.consumerDataSet.flatMap ConsumerData.strings ++ h.producerDataSet

/-- What a send makes of the data, `src/MQClientAPIImpl.cpp:458–489`. -/
def addProjectGroup (projectGroupPrefix : StdString) (h : HeartbeatData) : HeartbeatData :=
  if !isBlank projectGroupPrefix then
    { h with
      consumerDataSet := h.consumerDataSet.map (·.addProjectGroup projectGroupPrefix)
      producerDataSet := h.producerDataSet.map (buildWithProjectGroup · projectGroupPrefix) }
  else h

theorem addProjectGroup_idem (projectGroupPrefix : StdString) (h : HeartbeatData) :
    (h.addProjectGroup projectGroupPrefix).addProjectGroup projectGroupPrefix =
      h.addProjectGroup projectGroupPrefix := by
  rw [addProjectGroup, addProjectGroup]
  split_ifs
  · simp [ConsumerData.addProjectGroup_idem, buildWithProjectGroup_idem]
  · rfl

/-- The text around the two arrays. -/
theorem write_members {consumers producers : Json} {consumerDataSet producerDataSet : StdString}
    (clientID : StdString)
    (hconsumers : Json.write consumers =
      Json.openBracket :: (consumerDataSet ++ [Json.closeBracket]))
    (hproducers : Json.write producers =
      Json.openBracket :: (producerDataSet ++ [Json.closeBracket])) :
    str "\x7b" ++ fieldName "clientID" ++ str "\"" ++ clientID ++ str "\"," ++
      fieldName "consumerDataSet" ++ str "[" ++ consumerDataSet ++ str "]," ++
      fieldName "producerDataSet" ++ str "[" ++ producerDataSet ++ str "]\x7d" =
    Json.write (.object [(str "clientID", .string clientID), (str "consumerDataSet", consumers),
      (str "producerDataSet", producers)]) := by
  simp only [show str "\x7b" = [Json.openBrace] from rfl,
    show str "[" = [Json.openBracket] from rfl,
    show str "]," = [Json.closeBracket, Json.comma] from rfl,
    show str "]\x7d" = [Json.closeBracket, Json.closeBrace] from rfl,
    show str "\"" = [Json.quote] from rfl, show str "\"," = [Json.quote, Json.comma] from rfl]
  simp only [Json.write, Json.writeMembers, hconsumers, hproducers, fieldName_eq, Json.quoted,
    List.append_assoc, List.cons_append, List.nil_append]

theorem write_producerJson (groupName : StdString) :
    str "\x7b" ++ fieldName "groupName" ++ str "\"" ++ groupName ++ str "\"\x7d," =
      Json.write (producerJson groupName) ++ [Json.comma] := by
  simp only [show str "\x7b" = [Json.openBrace] from rfl,
    show str "\"" = [Json.quote] from rfl,
    show str "\"\x7d," = [Json.quote, Json.closeBrace, Json.comma] from rfl]
  simp only [producerJson, Json.write, Json.writeMembers, fieldName_eq, Json.quoted,
    List.append_assoc, List.cons_append, List.nil_append]

/-- A heartbeat is written as its object. -/
theorem encode_eq_write (h : HeartbeatData) : h.encode = Json.write h.json := by
  have hconsumers : (h.consumerDataSet.flatMap fun d ↦ d.encode ++ str ",") =
      (h.consumerDataSet.map ConsumerData.json).flatMap fun v ↦ Json.write v ++ [Json.comma] := by
    rw [List.flatMap_map]
    apply List.flatMap_congr
    intro d _
    rw [ConsumerData.encode_eq_write]
    rfl
  have hproducers : (h.producerDataSet.flatMap fun groupName ↦
      str "\x7b" ++ fieldName "groupName" ++ str "\"" ++ groupName ++ str "\"\x7d,") =
      (h.producerDataSet.map producerJson).flatMap fun v ↦ Json.write v ++ [Json.comma] := by
    rw [List.flatMap_map]
    apply List.flatMap_congr
    intro groupName _
    exact write_producerJson groupName
  have htext := write_members h.clientID
    (Json.write_array (h.consumerDataSet.map ConsumerData.json))
    (Json.write_array (h.producerDataSet.map producerJson))
  rw [← hconsumers, ← hproducers] at htext
  exact htext

theorem plain_producerJson_iff (groupName : StdString) :
    Json.Plain (producerJson groupName).atoms ↔ Json.PlainString groupName := by
  have hgroupName : PlainName "groupName" := by decide
  simp only [producerJson, Json.atoms, Json.memberAtoms, Json.plain_append,
    Json.plain_string_cons, hgroupName, Json.plain_nil, true_and, and_true]

theorem plain_json_iff (h : HeartbeatData) :
    Json.Plain h.json.atoms ↔ ∀ s ∈ h.strings, Json.PlainString s := by
  have hclientID : PlainName "clientID" := by decide
  have hconsumerDataSet : PlainName "consumerDataSet" := by decide
  have hproducerDataSet : PlainName "producerDataSet" := by decide
  simp only [json, strings, Json.atoms, Json.memberAtoms, Json.plain_append,
    Json.plain_string_cons, hclientID, hconsumerDataSet, hproducerDataSet, Json.plain_nil,
    true_and, and_true, Json.plain_elements_iff, List.forall_mem_map,
    ConsumerData.plain_json_iff, plain_producerJson_iff, List.cons_append, List.forall_mem_cons,
    List.forall_mem_append, List.forall_mem_flatMap]

theorem integral_json (h : HeartbeatData) : Json.Integral h.json.atoms := by
  simp only [json, Json.atoms, Json.memberAtoms, Json.integral_append, Json.integral_string_cons,
    Json.integral_nil, true_and, and_true]
  constructor
  · apply Json.integral_elements
    intro v hv
    obtain ⟨d, -, rfl⟩ := List.mem_map.mp hv
    exact d.integral_json
  · apply Json.integral_elements
    intro v hv
    obtain ⟨groupName, -, rfl⟩ := List.mem_map.mp hv
    simp [producerJson, Json.atoms, Json.memberAtoms, Json.Integral]

/-- A heartbeat reads back exactly when all its strings are plain. -/
theorem read_encode_iff (h : HeartbeatData) :
    Json.read h.encode = some h.json ↔ ∀ s ∈ h.strings, Json.PlainString s := by
  rw [encode_eq_write, Json.read_write_iff h.integral_json, plain_json_iff]

end HeartbeatData

/-! ### The sends -/

/-- What a heartbeat asks an `MQConsumerInner` for; the subscriptions in the order of their set. -/
structure HeartbeatConsumer where
  groupName : StdString
  consumeType : ConsumeType
  messageModel : MessageModel
  consumeFromWhere : ConsumeFromWhere
  subscriptions : List SubscriptionData

/-- The fields of an `MQClientFactory` that a heartbeat is made of. `none` is a `NULL` in the table
of the consumers, `false` one in the table of the producers. -/
structure HeartbeatSource where
  clientId : StdString
  projectGroupPrefix : StdString
  consumerTable : Std.ExtTreeMap StdString (Option HeartbeatConsumer)
  producerTable : Std.ExtTreeMap StdString Bool
  brokerAddrTable : BrokerAddrTable

/-- The copy of what a consumer says, `src/MQClientFactory.cpp:866–871`. -/
def HeartbeatConsumer.data (inner : HeartbeatConsumer) : ConsumerData :=
  ⟨inner.groupName, inner.consumeType, inner.messageModel, inner.consumeFromWhere,
    inner.subscriptions⟩

namespace HeartbeatSource

/-- The consumers that are registered. -/
def consumers (f : HeartbeatSource) : List HeartbeatConsumer :=
  f.consumerTable.toList.filterMap Prod.snd

/-- The producer groups that are registered. -/
def producers (f : HeartbeatSource) : List StdString :=
  (f.producerTable.toList.filter Prod.snd).map Prod.fst

/-- `std::set<ConsumerData>::insert`, which keeps an element of the same group. -/
def insertConsumer (set : Std.ExtTreeMap StdString ConsumerData) (inner : HeartbeatConsumer) :
    Std.ExtTreeMap StdString ConsumerData :=
  set.insertIfNew inner.groupName inner.data

/-- `src/MQClientFactory.cpp:850–897`. -/
def prepareHeartbeatData (f : HeartbeatSource) : HeartbeatData where
  clientID := f.clientId
  consumerDataSet := (f.consumers.foldl insertConsumer ∅).toList.map Prod.snd
  producerDataSet := (Std.ExtTreeSet.ofList f.producers).toList

/-- One address, `src/MQClientFactory.cpp:828–845`: the data, and what was sent to whom so far. -/
def sendPass (projectGroupPrefix : StdString) (consumerEmpty : Bool)
    (st : HeartbeatData × List (StdString × StdString)) (entry : Int × StdString) :
    HeartbeatData × List (StdString × StdString) :=
  if entry.2.isEmpty then st
  else if consumerEmpty && decide (entry.1 ≠ masterId) then st
  else
    let h := st.1.addProjectGroup projectGroupPrefix
    (h, st.2 ++ [(entry.2, h.encode)])

/-- `src/MQClientFactory.cpp:799–848`: the requests, each with its address and its body. -/
def sendHeartbeatToAllBroker (f : HeartbeatSource) : List (StdString × StdString) :=
  let heartbeatData := f.prepareHeartbeatData
  let producerEmpty := heartbeatData.producerDataSet.isEmpty
  let consumerEmpty := heartbeatData.consumerDataSet.isEmpty
  if producerEmpty && consumerEmpty then []
  else
    let addrlist := f.brokerAddrTable.toList.map Prod.snd
    (addrlist.foldl (fun st addrs ↦
      addrs.toList.foldl (sendPass f.projectGroupPrefix consumerEmpty) st) (heartbeatData, [])).2

/-- What a heartbeat says: each group that is registered, once and in order, with what one of its
consumers says of itself, and each producer group. -/
structure Told (f : HeartbeatSource) (h : HeartbeatData) : Prop where
  clientID : h.clientID = f.clientId
  consumers_ordered : (h.consumerDataSet.map ConsumerData.groupName).Pairwise (compare · · = .lt)
  consumer_registered : ∀ d ∈ h.consumerDataSet, ∃ inner ∈ f.consumers, inner.data = d
  consumer_told : ∀ inner ∈ f.consumers,
    ∃ d ∈ h.consumerDataSet, d.groupName = inner.groupName
  producers_ordered : h.producerDataSet.Pairwise (compare · · = .lt)
  mem_producers : ∀ groupName, groupName ∈ h.producerDataSet ↔ groupName ∈ f.producers

/-- The addresses that get a heartbeat: all that are not empty, but only those of masters when
there is no consumer, and none when nothing is registered. -/
def addressees (f : HeartbeatSource) : List StdString :=
  if f.producers.isEmpty && f.consumers.isEmpty then []
  else
    ((f.brokerAddrTable.toList.flatMap fun broker ↦ broker.2.toList).filter fun entry ↦
      decide (entry.2 ≠ [] ∧ (f.consumers = [] → entry.1 = masterId))).map Prod.snd

/-- The heartbeat as it is sent. -/
def heartbeat (f : HeartbeatSource) : HeartbeatData :=
  f.prepareHeartbeatData.addProjectGroup f.projectGroupPrefix

section Sets

variable {set : Std.ExtTreeMap StdString ConsumerData} {inners : List HeartbeatConsumer}
  {groupName : StdString}

theorem mem_foldl_insertConsumer : groupName ∈ inners.foldl insertConsumer set ↔
    groupName ∈ set ∨ ∃ inner ∈ inners, inner.groupName = groupName := by
  induction inners generalizing set with
  | nil => simp
  | cons inner inners ih =>
    rw [List.foldl_cons, ih, insertConsumer, Std.ExtTreeMap.mem_insertIfNew,
      Std.LawfulEqCmp.compare_eq_iff_eq, List.exists_mem_cons_iff, or_assoc, or_left_comm]

theorem of_foldl_insertConsumer {d : ConsumerData}
    (h : (inners.foldl insertConsumer set)[groupName]? = some d) :
    set[groupName]? = some d ∨
      ∃ inner ∈ inners, inner.groupName = groupName ∧ inner.data = d := by
  induction inners generalizing set with
  | nil => exact .inl h
  | cons inner inners ih =>
    rcases ih h with hset | ⟨inner', hmem, hinner⟩
    · rw [insertConsumer, Std.ExtTreeMap.getElem?_insertIfNew] at hset
      split_ifs at hset with hnew
      · exact .inr ⟨inner, List.mem_cons_self,
          Std.LawfulEqCmp.eq_of_compare hnew.1, Option.some.inj hset⟩
      · exact .inl hset
    · exact .inr ⟨inner', List.mem_cons_of_mem _ hmem, hinner⟩

/-- What the set of the consumers holds is what one of them says, under its own group. -/
theorem of_mem_toList {entry : StdString × ConsumerData}
    (h : entry ∈ (inners.foldl insertConsumer ∅).toList) :
    ∃ inner ∈ inners, inner.groupName = entry.1 ∧ inner.data = entry.2 := by
  rw [Std.ExtTreeMap.mem_toList_iff_getElem?_eq_some] at h
  rcases of_foldl_insertConsumer h with hempty | hinner
  · simp at hempty
  · exact hinner

end Sets

theorem told_prepareHeartbeatData (f : HeartbeatSource) : f.Told f.prepareHeartbeatData := by
  constructor
  · rfl
  · rw [prepareHeartbeatData, List.map_map, List.pairwise_map]
    apply List.Pairwise.imp_of_mem _ Std.ExtTreeMap.ordered_keys_toList
    intro a b ha hb hlt
    obtain ⟨inner, -, hname, hdata⟩ := of_mem_toList ha
    obtain ⟨inner', -, hname', hdata'⟩ := of_mem_toList hb
    rw [Function.comp_apply, Function.comp_apply, ← hdata, ← hdata']
    rw [← hname, ← hname'] at hlt
    exact hlt
  · intro d hd
    obtain ⟨entry, hentry, rfl⟩ := List.mem_map.mp hd
    obtain ⟨inner, hinner, -, hdata⟩ := of_mem_toList hentry
    exact ⟨inner, hinner, hdata⟩
  · intro inner hinner
    have hmem : inner.groupName ∈ f.consumers.foldl insertConsumer ∅ :=
      mem_foldl_insertConsumer.mpr (.inr ⟨inner, hinner, rfl⟩)
    have hentry := Std.ExtTreeMap.mem_toList_iff_getElem?_eq_some.mpr
      (Std.ExtTreeMap.getElem?_eq_some_getElem hmem)
    obtain ⟨inner', -, hname, hdata⟩ := of_mem_toList hentry
    refine ⟨_, List.mem_map_of_mem hentry, ?_⟩
    rw [← hdata]
    exact hname
  · change (Std.ExtTreeSet.ofList f.producers).toList.Pairwise _
    exact Std.ExtTreeSet.ordered_toList
  · intro groupName
    rw [prepareHeartbeatData, Std.ExtTreeSet.mem_toList, Std.ExtTreeSet.mem_ofList,
      List.contains_iff_mem]

theorem Told.consumerDataSet_eq_nil_iff {f : HeartbeatSource} {h : HeartbeatData}
    (htold : f.Told h) : h.consumerDataSet = [] ↔ f.consumers = [] := by
  constructor
  · intro hnil
    apply List.eq_nil_iff_forall_not_mem.mpr
    intro inner hinner
    obtain ⟨d, hd, -⟩ := htold.consumer_told inner hinner
    rw [hnil] at hd
    cases hd
  · intro hnil
    apply List.eq_nil_iff_forall_not_mem.mpr
    intro d hd
    obtain ⟨inner, hinner, -⟩ := htold.consumer_registered d hd
    rw [hnil] at hinner
    cases hinner

theorem Told.producerDataSet_eq_nil_iff {f : HeartbeatSource} {h : HeartbeatData}
    (htold : f.Told h) : h.producerDataSet = [] ↔ f.producers = [] := by
  simp only [List.eq_nil_iff_forall_not_mem, htold.mem_producers]

/-- The addresses in a row all get the heartbeat that one more project group leaves as it is. -/
theorem foldl_sendPass {projectGroupPrefix : StdString} {consumerEmpty : Bool} {h : HeartbeatData}
    {st : HeartbeatData × List (StdString × StdString)}
    (hst : st.1.addProjectGroup projectGroupPrefix = h) (entries : List (Int × StdString)) :
    (entries.foldl (sendPass projectGroupPrefix consumerEmpty) st).2 =
      st.2 ++ ((entries.filter fun entry ↦
        decide (entry.2 ≠ [] ∧ (consumerEmpty = true → entry.1 = masterId))).map
          fun entry ↦ (entry.2, h.encode)) := by
  induction entries generalizing st with
  | nil => simp
  | cons entry entries ih =>
    rw [List.foldl_cons]
    by_cases hasked : entry.2 ≠ [] ∧ (consumerEmpty = true → entry.1 = masterId)
    · have hpass : sendPass projectGroupPrefix consumerEmpty st entry =
          (h, st.2 ++ [(entry.2, h.encode)]) := by
        rw [sendPass, if_neg (by simpa using hasked.1), if_neg (by simpa using hasked.2), hst]
      have hagain : h.addProjectGroup projectGroupPrefix = h := by
        rw [← hst, HeartbeatData.addProjectGroup_idem]
      rw [hpass, ih hagain, List.filter_cons, if_pos (decide_eq_true hasked), List.map_cons,
        List.append_assoc, List.singleton_append]
    · have hpass : sendPass projectGroupPrefix consumerEmpty st entry = st := by
        rw [sendPass]
        split_ifs with hempty hmaster
        · rfl
        · rfl
        · exact absurd ⟨by simpa using hempty, by simpa using hmaster⟩ hasked
      rw [hpass, ih hst, List.filter_cons_of_neg (by simpa using hasked)]

/-- A heartbeat tells every broker the same: it goes once to each address that is to get one, in
the order of the table, with the project group put in once however many sends there are, and its
text reads back as what is registered exactly when all names and expressions are plain. -/
theorem sendHeartbeatToAllBroker_tells (f : HeartbeatSource) :
    f.Told f.prepareHeartbeatData ∧
      f.sendHeartbeatToAllBroker = f.addressees.map (·, f.heartbeat.encode) ∧
      (Json.read f.heartbeat.encode = some f.heartbeat.json ↔
        ∀ s ∈ f.heartbeat.strings, Json.PlainString s) := by
  have htold := f.told_prepareHeartbeatData
  refine ⟨htold, ?_, HeartbeatData.read_encode_iff _⟩
  rw [sendHeartbeatToAllBroker, addressees]
  simp only [Bool.and_eq_true, List.isEmpty_iff, htold.consumerDataSet_eq_nil_iff,
    htold.producerDataSet_eq_nil_iff]
  split_ifs with hnothing
  · rfl
  · rw [← List.foldl_flatMap, List.flatMap_map, foldl_sendPass rfl, List.nil_append, List.map_map]
    simp only [List.isEmpty_iff, htold.consumerDataSet_eq_nil_iff]
    rfl

end HeartbeatSource
end RocketMQ
