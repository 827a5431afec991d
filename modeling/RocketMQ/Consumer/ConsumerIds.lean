import RocketMQ.Common.VirtualEnv
import RocketMQ.Consumer.GroupRebalance
import RocketMQ.Factory.BrokerTable
import RocketMQ.Protocol.RouteBody
import RocketMQ.Transport.RemotingCommand

/-!
# The ids of a group as they are received

`MQClientFactory::findConsumerIdList`, `src/MQClientFactory.cpp:710–753`: the way from the reply of
a broker to the ids that a rebalance works with. No route, no address, no reply, another code and no
body come to no ids; a body that does not parse is used as `NULL`.
-/

namespace RocketMQ

open Base (Json)
open Protocol Protocol.RemotingCommand

/-- `v != Json::Value::null`. -/
def notNull : Json → Bool
  | .null => false
  | .bool _ | .int _ | .decimal _ | .string _ | .array _ | .object _ => true

/-- `src/protocol/GetConsumerListByGroupResponseBody.h:44–71`. -/
def GetConsumerListByGroupResponseBody.decode (lib : JsonLibrary) (pData : StdString) :
    Except Fault (Option (List StdString)) :=
  match lib.parse pData with
  | none => .ok none
  | some object => do
    let ext ← require .aborted (elementsOf (← memberAt object "consumerIdList"))
    return some (← (ext.filter notNull).mapM fun v ↦ require .raised (asString v))

/-- What `getConsumerIdListByGroup` reads of a reply, with what the memory has behind the body. -/
structure ConsumerIdsReply where
  code : Int
  remark : StdString
  body : Option StdString
  behind : StdString

/-- `src/MQClientAPIImpl.cpp:308–362`, from the reply on. -/
def MQClientAPIImpl.getConsumerIdListByGroup (lib : JsonLibrary) :
    Option ConsumerIdsReply → Except Fault (Except MQException (List StdString))
  | none => .ok (.error (.client (str "getConsumerIdListByGroup failed") (-1)))
  | some response =>
    if response.code = successValue then
      match response.body with
      | some body => do
        let decoded ← GetConsumerListByGroupResponseBody.decode lib (bodyText body response.behind)
        return .ok (← require .nullPointer decoded)
      | none => .ok (.error (.client response.remark response.code))
    else .ok (.error (.client response.remark response.code))

/-- `src/protocol/TopicRouteData.h:151–169`. -/
def TopicRouteData.selectBrokerAddr (data : BrokerData) : StdString :=
  match data.brokerAddrs[masterId]? with
  | some addr => addr
  | none =>
    match data.brokerAddrs.toList.head? with
    | some (_, addr) => addr
    | none => []

namespace MQClientFactory

/-- `src/MQClientFactory.cpp:737–753`. -/
def findBrokerAddrByTopic (topicRouteTable : Std.ExtTreeMap StdString TopicRouteData)
    (topic : StdString) : StdString :=
  match topicRouteTable[topic]? with
  | some route =>
    match route.brokerDatas with
    | bd :: _ => TopicRouteData.selectBrokerAddr bd
    | [] => []
  | none => []

/-- What a call meets: the routes before and after the update that it may make, and the replies to
the group's name with the prefix. -/
structure ConsumerIdQuery where
  topicRouteTable : Std.ExtTreeMap StdString TopicRouteData
  updated : Std.ExtTreeMap StdString TopicRouteData
  projectGroupPrefix : StdString
  invokeSync : StdString → StdString → Option ConsumerIdsReply

/-- The address that is asked, if any. -/
def ConsumerIdQuery.brokerAddr (query : ConsumerIdQuery) (topic : StdString) : StdString :=
  let brokerAddr := findBrokerAddrByTopic query.topicRouteTable topic
  if brokerAddr.isEmpty then findBrokerAddrByTopic query.updated topic else brokerAddr

/-- What comes of the request, `src/MQClientAPIImpl.cpp:312–327`. -/
def ConsumerIdQuery.reply (query : ConsumerIdQuery) (topic group : StdString) :
    Option ConsumerIdsReply :=
  query.invokeSync (query.brokerAddr topic) (if isBlank query.projectGroupPrefix then group
    else VirtualEnvUtil.buildWithProjectGroup group query.projectGroupPrefix)

/-- `src/MQClientFactory.cpp:710–735`. The exceptions are caught, those of the JSON library, too. -/
def findConsumerIdList (lib : JsonLibrary) (query : ConsumerIdQuery) (topic group : StdString) :
    Except Fault (List StdString) :=
  if (query.brokerAddr topic).isEmpty then .ok []
  else
    match MQClientAPIImpl.getConsumerIdListByGroup lib (query.reply topic group) with
    | .ok (.ok ids) => .ok ids
    | .ok (.error _) | .error .raised => .ok []
    | .error fault => .error fault

end MQClientFactory

/-! ### Bodies -/

/-- An object with these ids, among other members, and with `null`s among them. -/
structure IsConsumerIds (object : Json) (ids : List StdString) : Prop where
  consumerIdList : ∃ elements, member object (str "consumerIdList") = some (.array elements) ∧
    elements.filter notNull = ids.map .string
  plain : ∀ id ∈ ids, 0 ∉ id

/-- The ids come out of a text in their order, whatever stands behind it in memory. -/
theorem decode_of_isConsumerIds {lib : JsonLibrary} (hlib : lib.ReadsFirst)
    {members : List (StdString × Json)} (hplain : Json.Plain (Json.memberAtoms members))
    (hintegral : Json.Integral (Json.memberAtoms members)) {ids : List StdString}
    (h : IsConsumerIds (.object members) ids) (behind : StdString) :
    GetConsumerListByGroupResponseBody.decode lib (bodyText (Json.write (.object members)) behind) =
      .ok (some ids) := by
  obtain ⟨elements, helements, hids⟩ := h.consumerIdList
  have hloop : ((ids.map Json.string).mapM fun v ↦ require .raised (asString v)) = .ok ids := by
    have hforall : List.Forall₂ (fun v id ↦ v = Json.string id ∧ 0 ∉ id) (ids.map .string) ids := by
      rw [List.forall₂_map_left_iff, List.forall₂_same]
      exact fun id hid ↦ ⟨rfl, h.plain id hid⟩
    apply mapM_of_forall₂ hforall
    rintro v id ⟨rfl, hid⟩
    rw [asString_string hid, require_some]
  rw [bodyText_write hplain hintegral, GetConsumerListByGroupResponseBody.decode,
    hlib members _ hplain hintegral]
  simp only [memberAt, helements, require_some, bind_ok, elementsOf, hids, hloop]
  rfl

/-! ### Replies -/

namespace MQClientFactory

/-- A body that brokers send: the ids of the view in any order. -/
def IsIdsBody (view : GroupView) (body : StdString) : Prop :=
  ∃ members ids, body = Json.write (.object members) ∧ Json.Plain (Json.memberAtoms members) ∧
    Json.Integral (Json.memberAtoms members) ∧ IsConsumerIds (.object members) ids ∧
      ids.Perm view.ids

/-- The broker of the topic is known and replies with a body. -/
def ConsumerIdQuery.Answered (query : ConsumerIdQuery) (topic group body : StdString) : Prop :=
  query.brokerAddr topic ≠ [] ∧ ∃ response, query.reply topic group = some response ∧
    response.code = successValue ∧ response.body = some body

/-- A reply with success and a body that does not parse ends the process. -/
theorem findConsumerIdList_unparsed {lib : JsonLibrary} {query : ConsumerIdQuery}
    {topic group body : StdString} {response : ConsumerIdsReply}
    (haddr : query.brokerAddr topic ≠ []) (hreply : query.reply topic group = some response)
    (hcode : response.code = successValue) (hbody : response.body = some body)
    (hparse : lib.parse (bodyText body response.behind) = none) :
    findConsumerIdList lib query topic group = .error .nullPointer := by
  have hdecoded : MQClientAPIImpl.getConsumerIdListByGroup lib (some response) =
      .error .nullPointer := by
    simp only [MQClientAPIImpl.getConsumerIdListByGroup, hcode, if_true, hbody,
      GetConsumerListByGroupResponseBody.decode, hparse]
    rfl
  rw [findConsumerIdList, List.isEmpty_eq_false_iff.mpr haddr, if_neg Bool.false_ne_true, hreply,
    hdecoded]

/-- When a broker that replies with success writes the ids of the view, a member is told of no ids
or of the ids of the view, as a round is to see them, whatever else fails on the way; and of these
exactly when the broker of the topic is known and replies with a body. -/
theorem findConsumerIdList_sees {lib : JsonLibrary} (hlib : lib.ReadsFirst) {view : GroupView}
    {query : ConsumerIdQuery} {topic group : StdString}
    (hbody : ∀ body, query.Answered topic group body → IsIdsBody view body) :
    ∃ ids, findConsumerIdList lib query topic group = .ok ids ∧
      (ids.Perm view.ids ∧ (∃ body, query.Answered topic group body) ∨
        ids = [] ∧ ¬ ∃ body, query.Answered topic group body) := by
  by_cases haddr : query.brokerAddr topic = []
  · refine ⟨[], if_pos (List.isEmpty_iff.mpr haddr), .inr ⟨rfl, ?_⟩⟩
    rintro ⟨body, hknown, -⟩
    exact hknown haddr
  have hisEmpty : (query.brokerAddr topic).isEmpty = false := List.isEmpty_eq_false_iff.mpr haddr
  rw [findConsumerIdList, hisEmpty, if_neg Bool.false_ne_true]
  cases hreply : query.reply topic group with
  | none =>
    refine ⟨[], rfl, .inr ⟨rfl, ?_⟩⟩
    rintro ⟨body, -, response, hsome, -⟩
    rw [hreply] at hsome
    cases hsome
  | some response =>
    by_cases hcode : response.code = successValue
    · cases hbodyOf : response.body with
      | none =>
        refine ⟨[], by simp [MQClientAPIImpl.getConsumerIdListByGroup, hcode, hbodyOf],
          .inr ⟨rfl, ?_⟩⟩
        rintro ⟨body, -, response', hsome, -, hbody'⟩
        obtain rfl := Option.some.inj (hreply.symm.trans hsome)
        rw [hbodyOf] at hbody'
        cases hbody'
      | some body =>
        have hanswered : query.Answered topic group body :=
          ⟨haddr, response, hreply, hcode, hbodyOf⟩
        obtain ⟨members, ids, rfl, hplain, hintegral, hids, hperm⟩ := hbody body hanswered
        refine ⟨ids, ?_, .inl ⟨hperm, _, hanswered⟩⟩
        simp only [MQClientAPIImpl.getConsumerIdListByGroup, hcode, hbodyOf, if_true,
          decode_of_isConsumerIds hlib hplain hintegral hids, bind_ok, require_some]
        rfl
    · refine ⟨[], by simp [MQClientAPIImpl.getConsumerIdListByGroup, hcode], .inr ⟨rfl, ?_⟩⟩
      rintro ⟨body, -, response', hsome, hcode', -⟩
      obtain rfl := Option.some.inj (hreply.symm.trans hsome)
      exact hcode hcode'

/-- A broker that replies with the two ids of a group, in an order of its own. -/
def pairMembers : List (StdString × Json) :=
  [(str "consumerIdList", .array [.string (str "c"), .null, .string (str "d")])]

def pairQuery : ConsumerIdQuery where
  topicRouteTable := {(str "t", ⟨[], [], [⟨str "b", {((0 : Int), str "10.0.0.1:10911")}⟩]⟩)}
  updated := ∅
  projectGroupPrefix := []
  invokeSync _ _ := some ⟨0, [], some (Json.write (.object pairMembers)), str "\x7d"⟩

theorem findConsumerIdList_sees_pair :
    ∃ ids, findConsumerIdList integerLibrary pairQuery (str "t") (str "g") = .ok ids ∧
      (ids.Perm Group.pairView.ids ∧ (∃ body, pairQuery.Answered (str "t") (str "g") body) ∨
        ids = [] ∧ ¬ ∃ body, pairQuery.Answered (str "t") (str "g") body) := by
  apply findConsumerIdList_sees readsFirst_integerLibrary
  rintro body ⟨-, response, hreply, -, hbody⟩
  obtain rfl := Option.some.inj hreply
  obtain rfl := Option.some.inj hbody
  refine ⟨pairMembers, [str "c", str "d"], rfl, ?_, ?_, ⟨⟨_, rfl, rfl⟩, by decide⟩,
    List.Perm.swap (str "d") (str "c") []⟩
  · simp only [pairMembers, Json.memberAtoms, Json.atoms, Json.elementAtoms, List.nil_append,
      List.append_nil, List.cons_append, Json.plain_string_cons, Json.plain_nil, and_true]
    decide
  · intro token
    simp [pairMembers, Json.memberAtoms, Json.atoms, Json.elementAtoms]

end MQClientFactory

end RocketMQ
