import Mathlib.Data.List.Dedup
import RocketMQ.Base.KeySort
import RocketMQ.Factory.OrderTopicConf
import RocketMQ.Protocol.DecodeHeader

/-!
# Routes as they are received

`TopicRouteData::Decode`, `src/protocol/TopicRouteData.h:88–146`. The body of a response is copied
without a zero byte behind it, so that the JSON library is given what stands behind it in memory,
too, and relies on stopping at the end of the first value.
-/

namespace RocketMQ

open Base (Json)
open Protocol Protocol.RemotingCommand

/-! ### Arrays and names -/

namespace Protocol

/-- The elements from `0` to `size()`, `Value::size` and `Value::operator[]` at an index. -/
def elementsOf : Json → Option (List Json)
  | .array elements => some elements
  | .object members => if members.isEmpty then some [] else none
  | .null | .bool _ | .int _ | .decimal _ | .string _ => some []

/-- `Value::getMemberNames`: the names in the order of the map. -/
def memberNames : Json → Option (List StdString)
  | .null => some []
  | .object members => some ((members.map Prod.fst).dedup.mergeSort (Base.keyLE id))
  | .bool _ | .int _ | .decimal _ | .string _ | .array _ => none

/-- `value[name].asString()`. -/
def stringAt (value : Json) (name : StdString) : Except Fault StdString := do
  require .raised (asString (← require .aborted (member value name)))

/-- `value[name].asInt()`. -/
def intAt (lib : JsonLibrary) (value : Json) (name : StdString) : Except Fault Int := do
  return (← require .raised (lib.asInt (← require .aborted (member value name)))).toInt

end Protocol

/-- What a pointer to a body shows of it, `src/protocol/RemotingCommand.cpp:127–142`: the text runs
on into what the memory has behind it. -/
def bodyText (body behind : StdString) : StdString := cString (body ++ behind)

/-- `src/protocol/TopicRouteData.h:114–125`. -/
def QueueData.decode (lib : JsonLibrary) (qd : Json) : Except Fault QueueData := do
  let brokerName ← stringAt qd (str "brokerName")
  let readQueueNums ← intAt lib qd (str "readQueueNums")
  let writeQueueNums ← intAt lib qd (str "writeQueueNums")
  let perm ← intAt lib qd (str "perm")
  return ⟨brokerName, readQueueNums, writeQueueNums, perm⟩

/-- `src/protocol/TopicRouteData.h:127–143`. -/
def BrokerData.decode (bd : Json) : Except Fault BrokerData := do
  let brokerName ← stringAt bd (str "brokerName")
  let bas ← memberAt bd "brokerAddrs"
  let brokerAddrs ← (← require .aborted (memberNames bas)).mapM fun key ↦ do
    return (atoi key, ← stringAt bas key)
  return ⟨brokerName, .ofList brokerAddrs⟩

/-- `src/protocol/TopicRouteData.h:88–146`. -/
def TopicRouteData.decode (lib : JsonLibrary) (pData : StdString) :
    Except Fault (Option TopicRouteData) :=
  match lib.parse pData with
  | none => .ok none
  | some object => do
    let orderTopicConf ← stringAt object (str "orderTopicConf")
    let qds ← require .aborted (elementsOf (← memberAt object "queueDatas"))
    let queueDatas ← qds.mapM (QueueData.decode lib)
    let bds ← require .aborted (elementsOf (← memberAt object "brokerDatas"))
    let brokerDatas ← bds.mapM BrokerData.decode
    return some ⟨orderTopicConf, queueDatas, brokerDatas⟩

/-! ### What a value describes -/

/-- The member of a value with this name is this string, without a zero byte; none, or `null`, is
the empty one. -/
def IsString (value : Json) (name s : StdString) : Prop :=
  member value name = some (.string s) ∧ 0 ∉ s ∨ member value name = some .null ∧ s = []

/-- The member of a value with this name is this number, which is an `int`; none, or `null`, is
zero. -/
def IsInt (value : Json) (name : StdString) (n : Int) : Prop :=
  member value name = some (.int n) ∧ -2 ^ 31 ≤ n ∧ n < 2 ^ 31 ∨
    member value name = some .null ∧ n = 0

/-- An object for a `QueueData`: its members in any order, among others. -/
structure IsQueueData (qd : Json) (d : QueueData) : Prop where
  brokerName : IsString qd (str "brokerName") d.brokerName
  readQueueNums : IsInt qd (str "readQueueNums") d.readQueueNums
  writeQueueNums : IsInt qd (str "writeQueueNums") d.writeQueueNums
  perm : IsInt qd (str "perm") d.perm

/-- The addresses as members, by their broker ids. -/
def addrMembers (brokerAddrs : Std.ExtTreeMap Int StdString) : List (StdString × Json) :=
  brokerAddrs.toList.map fun entry ↦ (Base.intDigits entry.1, .string entry.2)

/-- An object for a `BrokerData`, with the addresses in any order. -/
structure IsBrokerData (bd : Json) (d : BrokerData) : Prop where
  brokerName : IsString bd (str "brokerName") d.brokerName
  brokerAddrs : ∃ members, member bd (str "brokerAddrs") = some (.object members) ∧
    members.Perm (addrMembers d.brokerAddrs)
  ids : ∀ (id : Int) (addr : StdString), d.brokerAddrs[id]? = some addr →
    -2 ^ 31 ≤ id ∧ id < 2 ^ 31 ∧ 0 ∉ addr

/-- An object for a route, with the queues and the brokers in the order of the route. -/
structure IsRoute (object : Json) (route : TopicRouteData) : Prop where
  orderTopicConf : IsString object (str "orderTopicConf") route.orderTopicConf
  queueDatas : ∃ qds, member object (str "queueDatas") = some (.array qds) ∧
    List.Forall₂ IsQueueData qds route.queueDatas
  brokerDatas : ∃ bds, member object (str "brokerDatas") = some (.array bds) ∧
    List.Forall₂ IsBrokerData bds route.brokerDatas

/-! ### Numbers, names and lists -/

/-- A number behind a minus sign is read, too. -/
theorem leadingNumber_intDigits (n : Int) : leadingNumber (Base.intDigits n) = n := by
  cases n with
  | ofNat n => exact leadingNumber_natDigits n
  | negSucc n =>
    have hdigits : (Base.natDigits (n + 1)).takeWhile Base.isDigit = Base.natDigits (n + 1) :=
      List.takeWhile_eq_self_iff.mpr fun b hb ↦ Base.isDigit_of_mem_natDigits hb
    have hspace : (45 :: Base.natDigits (n + 1)).dropWhile
        (fun b ↦ decide (b = 32 ∨ (9 ≤ b ∧ b ≤ 13))) = 45 :: Base.natDigits (n + 1) := rfl
    simp only [Base.intDigits, leadingNumber, hspace, hdigits, Base.digitsValue_natDigits]
    exact (Int.negSucc_eq n).symm

theorem atoi_intDigits {n : Int} (hlow : -2 ^ 31 ≤ n) (hhigh : n < 2 ^ 31) :
    atoi (Base.intDigits n) = n := by
  rw [atoi, leadingNumber_intDigits, toInt32, Int.bmod_def]
  split_ifs <;> omega

theorem mapM_of_forall_mem {α β : Type} {f : α → Except Fault β} {g : α → β} {as : List α}
    (h : ∀ a ∈ as, f a = .ok (g a)) : as.mapM f = .ok (as.map g) := by
  induction as with
  | nil => rfl
  | cons a as ih =>
    rw [List.forall_mem_cons] at h
    rw [List.mapM_cons, h.1, bind_ok, ih h.2, bind_ok]
    rfl

theorem mapM_of_forall₂ {α β : Type} {f : α → Except Fault β} {R : α → β → Prop} {as : List α}
    {bs : List β} (h : List.Forall₂ R as bs) (hf : ∀ a b, R a b → f a = .ok b) :
    as.mapM f = .ok bs := by
  induction h with
  | nil => rfl
  | cons hab _ ih =>
    rw [List.mapM_cons, hf _ _ hab, bind_ok, ih, bind_ok]
    rfl

/-- A member with a name of its own is found. -/
theorem member_of_mem {members : List (StdString × Json)} (hnodup : (members.map Prod.fst).Nodup)
    {name : StdString} {value : Json} (hmem : (name, value) ∈ members) :
    member (.object members) name = some value := by
  obtain ⟨found, hfound⟩ : ∃ found, members.reverse.find? (fun m ↦ m.1 = name) = some found := by
    rw [← Option.isSome_iff_exists, List.find?_isSome]
    exact ⟨_, List.mem_reverse.mpr hmem, decide_eq_true rfl⟩
  have hname : found.1 = name := by
    have hfits := List.find?_some hfound
    exact of_decide_eq_true hfits
  have hin : found ∈ members := List.mem_reverse.mp (List.mem_of_find?_eq_some hfound)
  have heq : found = (name, value) := List.inj_on_of_nodup_map hnodup hin hmem hname
  rw [member, hfound, heq]
  rfl

/-! ### Fields -/

section Fields

variable {value : Json} {name : StdString}

theorem stringAt_of_isString {s : StdString} (h : IsString value name s) :
    stringAt value name = .ok s := by
  rcases h with ⟨hmember, hs⟩ | ⟨hmember, rfl⟩
  · rw [stringAt, hmember, require_some, bind_ok, asString_string hs, require_some]
  · rw [stringAt, hmember]
    rfl

theorem intAt_of_isInt (lib : JsonLibrary) {n : Int} (h : IsInt value name n) :
    intAt lib value name = .ok n := by
  rcases h with ⟨hmember, hint⟩ | ⟨hmember, rfl⟩
  · rw [intAt, hmember, require_some, bind_ok, JsonLibrary.asInt, if_pos hint, require_some,
      bind_ok, Int32.toInt_ofInt_of_le hint.1 hint.2]
    rfl
  · rw [intAt, hmember]
    rfl

theorem decode_of_isQueueData (lib : JsonLibrary) {d : QueueData} (h : IsQueueData value d) :
    QueueData.decode lib value = .ok d := by
  rw [QueueData.decode, stringAt_of_isString h.brokerName, bind_ok,
    intAt_of_isInt lib h.readQueueNums, bind_ok, intAt_of_isInt lib h.writeQueueNums, bind_ok,
    intAt_of_isInt lib h.perm, bind_ok]
  rfl

end Fields

/-! ### Addresses -/

section Addresses

variable {brokerAddrs : Std.ExtTreeMap Int StdString} {members : List (StdString × Json)}

theorem mem_addrMembers {member : StdString × Json} : member ∈ addrMembers brokerAddrs ↔
    ∃ (id : Int) (addr : StdString), brokerAddrs[id]? = some addr ∧
      member = (Base.intDigits id, .string addr) := by
  simp only [addrMembers, List.mem_map, Prod.exists,
    Std.ExtTreeMap.mem_toList_iff_getElem?_eq_some, eq_comm]

/-- The ids of `int`s have names of their own. -/
theorem nodup_addrMembers (hids : ∀ (id : Int) (addr : StdString), brokerAddrs[id]? = some addr →
    -2 ^ 31 ≤ id ∧ id < 2 ^ 31 ∧ 0 ∉ addr) : ((addrMembers brokerAddrs).map Prod.fst).Nodup := by
  rw [addrMembers, List.map_map, List.Nodup, List.pairwise_map]
  apply Std.ExtTreeMap.distinct_keys_toList.imp_of_mem
  rintro ⟨id, addr⟩ ⟨id', addr'⟩ hmem hmem' hkeys hnames
  rw [Std.ExtTreeMap.mem_toList_iff_getElem?_eq_some] at hmem hmem'
  have hatoi := congrArg atoi hnames
  simp only [Function.comp_apply] at hatoi
  rw [atoi_intDigits (hids _ _ hmem).1 (hids _ _ hmem).2.1,
    atoi_intDigits (hids _ _ hmem').1 (hids _ _ hmem').2.1] at hatoi
  exact hkeys (by rw [hatoi]; exact Std.ReflCmp.compare_self)

/-- What the loop puts into the map for a name. -/
def addrEntry (brokerAddrs : Std.ExtTreeMap Int StdString) (key : StdString) : Int × StdString :=
  (atoi key, brokerAddrs[atoi key]?.getD [])

theorem addrEntry_intDigits {id : Int} {addr : StdString} (hid : brokerAddrs[id]? = some addr)
    (hlow : -2 ^ 31 ≤ id) (hhigh : id < 2 ^ 31) :
    addrEntry brokerAddrs (Base.intDigits id) = (id, addr) := by
  rw [addrEntry, atoi_intDigits hlow hhigh, hid]
  rfl

/-- The map that has the entries of all names is the map they are the names of. -/
theorem ofList_addrEntries {names : List StdString} (hnodup : names.Nodup)
    (hname : ∀ key, key ∈ names ↔ ∃ (id : Int) (addr : StdString),
      brokerAddrs[id]? = some addr ∧ key = Base.intDigits id)
    (hids : ∀ (id : Int) (addr : StdString), brokerAddrs[id]? = some addr →
      -2 ^ 31 ≤ id ∧ id < 2 ^ 31 ∧ 0 ∉ addr) :
    Std.ExtTreeMap.ofList (names.map (addrEntry brokerAddrs)) = brokerAddrs := by
  have hentry : ∀ (id : Int) (addr : StdString), brokerAddrs[id]? = some addr →
      addrEntry brokerAddrs (Base.intDigits id) = (id, addr) :=
    fun id addr hid ↦ addrEntry_intDigits hid (hids id addr hid).1 (hids id addr hid).2.1
  have hdistinct : (names.map (addrEntry brokerAddrs)).Pairwise
      fun a b ↦ ¬ compare a.1 b.1 = .eq := by
    rw [List.pairwise_map]
    apply hnodup.imp_of_mem
    intro key key' hkey hkey' hne hsame
    obtain ⟨id, addr, hid, rfl⟩ := (hname key).mp hkey
    obtain ⟨id', addr', hid', rfl⟩ := (hname key').mp hkey'
    rw [hentry id addr hid, hentry id' addr' hid'] at hsame
    have heq : id = id' := Std.LawfulEqCmp.eq_of_compare hsame
    exact hne (by rw [heq])
  apply Std.ExtTreeMap.ext_getElem?
  intro id
  cases hid : brokerAddrs[id]? with
  | some addr =>
    apply Std.ExtTreeMap.getElem?_ofList_of_mem Std.ReflCmp.compare_self hdistinct
    exact List.mem_map.mpr ⟨_, (hname _).mpr ⟨id, addr, hid, rfl⟩, hentry id addr hid⟩
  | none =>
    apply Std.ExtTreeMap.getElem?_ofList_of_contains_eq_false
    rw [← Bool.not_eq_true, List.contains_iff_mem]
    intro hmem
    obtain ⟨_, hpair, rfl⟩ := List.mem_map.mp hmem
    obtain ⟨key, hkey, rfl⟩ := List.mem_map.mp hpair
    obtain ⟨id', addr', hid', rfl⟩ := (hname key).mp hkey
    rw [hentry id' addr' hid', hid'] at hid
    cases hid

/-- The loop over the names finds every address under its id. -/
theorem decode_of_isBrokerData {bd : Json} {d : BrokerData} (h : IsBrokerData bd d) :
    BrokerData.decode bd = .ok d := by
  obtain ⟨members, hmembers, hperm⟩ := h.brokerAddrs
  have hnodup : (members.map Prod.fst).Nodup :=
    (hperm.map Prod.fst).nodup_iff.mpr (nodup_addrMembers h.ids)
  obtain ⟨names, hnames⟩ : ∃ names, memberNames (.object members) = some names := ⟨_, rfl⟩
  have hsorted : names.Perm (members.map Prod.fst) := by
    cases hnames
    rw [hnodup.dedup]
    exact List.mergeSort_perm _ _
  have hname : ∀ key, key ∈ names ↔ ∃ (id : Int) (addr : StdString),
      d.brokerAddrs[id]? = some addr ∧ key = Base.intDigits id := by
    intro key
    rw [hsorted.mem_iff, (hperm.map Prod.fst).mem_iff]
    simp only [List.mem_map, mem_addrMembers]
    constructor
    · rintro ⟨_, ⟨id, addr, hid, rfl⟩, rfl⟩
      exact ⟨id, addr, hid, rfl⟩
    · rintro ⟨id, addr, hid, rfl⟩
      exact ⟨_, ⟨id, addr, hid, rfl⟩, rfl⟩
  have hloop : (names.mapM fun key ↦ do
      return (atoi key, ← stringAt (.object members) key)) =
        .ok (names.map (addrEntry d.brokerAddrs)) := by
    apply mapM_of_forall_mem
    intro key hkey
    obtain ⟨id, addr, hid, rfl⟩ := (hname key).mp hkey
    obtain ⟨hlow, hhigh, hzero⟩ := h.ids id addr hid
    have hmem : (Base.intDigits id, .string addr) ∈ members :=
      hperm.mem_iff.mpr (mem_addrMembers.mpr ⟨id, addr, hid, rfl⟩)
    rw [stringAt_of_isString (.inl ⟨member_of_mem hnodup hmem, hzero⟩), bind_ok,
      addrEntry_intDigits hid hlow hhigh, atoi_intDigits hlow hhigh]
    rfl
  rw [BrokerData.decode, stringAt_of_isString h.brokerName, bind_ok, memberAt, hmembers,
    require_some, bind_ok, hnames, require_some, bind_ok, hloop, bind_ok,
    ofList_addrEntries (hsorted.nodup_iff.mpr hnodup) hname h.ids]
  rfl

end Addresses

/-- A text has no zero byte of its own. -/
theorem bodyText_write {members : List (StdString × Json)}
    (hplain : Json.Plain (Json.memberAtoms members))
    (hintegral : Json.Integral (Json.memberAtoms members)) (behind : StdString) :
    bodyText (Json.write (.object members)) behind =
      Json.write (.object members) ++ cString behind := by
  have htext : ∀ b ∈ Json.write (.object members), decide (b ≠ 0) = true := by
    intro b hb
    have hle := Json.le_of_mem_write (.object members) hplain hintegral b hb
    apply decide_eq_true
    rintro rfl
    exact absurd hle (by decide)
  rw [bodyText, cString, List.takeWhile_append_of_pos htext, cString]

/-! ### Routes -/

namespace TopicRouteData

variable {lib : JsonLibrary} {object : Json} {route : TopicRouteData}

theorem decode_of_isRoute {pData : StdString} (hparse : lib.parse pData = some object)
    (h : IsRoute object route) : decode lib pData = .ok (some route) := by
  obtain ⟨qds, hqds, hqueueDatas⟩ := h.queueDatas
  obtain ⟨bds, hbds, hbrokerDatas⟩ := h.brokerDatas
  rw [decode, hparse]
  simp only [stringAt_of_isString h.orderTopicConf, bind_ok, memberAt, hqds, hbds, require_some,
    elementsOf, mapM_of_forall₂ hqueueDatas fun _ _ ↦ decode_of_isQueueData lib,
    mapM_of_forall₂ hbrokerDatas fun _ _ ↦ decode_of_isBrokerData]
  rfl

/-- A route comes out of its text as it went in, whatever order its members are in, whatever other
members there are, and whatever stands behind the body in memory. -/
theorem decode_write (hlib : lib.ReadsFirst) {members : List (StdString × Json)}
    (hplain : Json.Plain (Json.memberAtoms members))
    (hintegral : Json.Integral (Json.memberAtoms members))
    (h : IsRoute (.object members) route) (behind : StdString) :
    decode lib (bodyText (Json.write (.object members)) behind) = .ok (some route) := by
  rw [bodyText_write hplain hintegral]
  exact decode_of_isRoute (hlib members _ hplain hintegral) h

/-- A route as a name server sends it: the members in the order of their names, with others among
them, the addresses in any order, and no order configuration. -/
def clusterMembers : List (StdString × Json) :=
  [(str "brokerDatas", .array [.object
      [(str "brokerAddrs", .object [(str "1", .string (str "10.0.0.2:10911")),
        (str "0", .string (str "10.0.0.1:10911"))]),
      (str "brokerName", .string (str "broker-a")), (str "cluster", .string (str "c"))]]),
    (str "filterServerTable", .object []),
    (str "queueDatas", .array [.object
      [(str "brokerName", .string (str "broker-a")), (str "perm", .int 6),
      (str "readQueueNums", .int 8), (str "topicSynFlag", .int 0),
      (str "writeQueueNums", .int 4)]])]

/-- The route. -/
def clusterRoute : TopicRouteData :=
  ⟨[], [⟨str "broker-a", 8, 4, 6⟩], [⟨str "broker-a",
    .ofList [((0 : Int), str "10.0.0.1:10911"), (1, str "10.0.0.2:10911")]⟩]⟩

theorem isRoute_cluster : IsRoute (.object clusterMembers) clusterRoute where
  orderTopicConf := .inr ⟨rfl, rfl⟩
  queueDatas := by
    refine ⟨_, rfl, .cons ⟨.inl ⟨rfl, ?_⟩, .inl ⟨rfl, ?_⟩, .inl ⟨rfl, ?_⟩, .inl ⟨rfl, ?_⟩⟩ .nil⟩
    all_goals decide
  brokerDatas := by
    refine ⟨_, rfl, .cons ⟨.inl ⟨rfl, by decide⟩, ⟨_, rfl, ?_⟩, fun id addr hid ↦ ?_⟩ .nil⟩
    · have haddrs : addrMembers (Std.ExtTreeMap.ofList
          [((0 : Int), str "10.0.0.1:10911"), (1, str "10.0.0.2:10911")]) =
          [(str "0", .string (str "10.0.0.1:10911")), (str "1", .string (str "10.0.0.2:10911"))] :=
        rfl
      rw [haddrs]
      exact .swap ..
    · rw [← Std.ExtTreeMap.mem_toList_iff_getElem?_eq_some] at hid
      have hentries : (Std.ExtTreeMap.ofList
          [((0 : Int), str "10.0.0.1:10911"), (1, str "10.0.0.2:10911")]).toList =
            [(0, str "10.0.0.1:10911"), (1, str "10.0.0.2:10911")] := rfl
      simp only [hentries, List.mem_cons, Prod.mk.injEq, List.not_mem_nil, or_false] at hid
      rcases hid with ⟨rfl, rfl⟩ | ⟨rfl, rfl⟩ <;> decide

theorem plain_clusterMembers : Json.Plain (Json.memberAtoms clusterMembers) := by
  simp only [clusterMembers, Json.memberAtoms, Json.atoms, Json.elementAtoms, List.nil_append,
    List.append_nil, List.cons_append, Json.plain_string_cons, Json.plain_nil, and_true]
  decide

theorem integral_clusterMembers : Json.Integral (Json.memberAtoms clusterMembers) := by
  intro token
  simp [clusterMembers, Json.memberAtoms, Json.atoms, Json.elementAtoms]

theorem decode_write_cluster : decode integerLibrary
    (bodyText (Json.write (.object clusterMembers)) (str "\x7d garbage")) =
      .ok (some clusterRoute) :=
  decode_write readsFirst_integerLibrary plain_clusterMembers integral_clusterMembers
    isRoute_cluster _

end TopicRouteData

end RocketMQ
