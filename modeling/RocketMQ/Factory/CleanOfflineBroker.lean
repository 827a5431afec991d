import Mathlib.Data.List.Infix
import RocketMQ.Factory.RouteUpdate

/-!
# Cleaning the broker addresses during a route update

`cleanOfflineBroker` copies `m_brokerAddrTable`, drops from the copy what no stored route mentions,
and puts the rest in place of the table. A route update puts the brokers of its route into the same
table and stores the route only later (`src/MQClientFactory.cpp:263–311,1004–1074`). What it does
in between touches neither table.
-/

namespace RocketMQ

/-- `m_topicRouteTable`. -/
abbrev TopicRouteTable := Std.ExtTreeMap StdString TopicRouteData

/-! ### The two calls -/

/-- `src/MQClientFactory.cpp:268–277`. -/
def BrokerAddrTable.install (table : BrokerAddrTable) (route : TopicRouteData) : BrokerAddrTable :=
  route.brokerDatas.foldl (fun table bd ↦ table.insert bd.brokerName bd.brokerAddrs) table

/-- `src/MQClientFactory.cpp:1050–1074`; `std::string::find` looks for a part of the address. -/
def TopicRouteTable.isBrokerAddrExistInTopicRouteTable (routes : TopicRouteTable)
    (addr : StdString) : Bool :=
  routes.toList.any fun (_, route) ↦ route.brokerDatas.any fun bd ↦
    bd.brokerAddrs.toList.any fun (_, known) ↦ decide (addr <:+: known)

/-- The loop of `cleanOfflineBroker` over its copy, `src/MQClientFactory.cpp:1014–1041`. -/
def BrokerAddrTable.rebuild (tmpTable : BrokerAddrTable) (routes : TopicRouteTable) :
    BrokerAddrTable :=
  tmpTable.filterMap fun _ addrs ↦
    let cloneTable := addrs.filter fun _ addr ↦ routes.isBrokerAddrExistInTopicRouteTable addr
    if cloneTable.isEmpty then none else some cloneTable

/-- Where `updateTopicRouteInfoFromNameServer` is. -/
inductive UpdatePc where
  | called
  | installed
  | returned
deriving DecidableEq

/-- Where `cleanOfflineBroker` is. What it has rebuilt comes with the copy and the routes that it
was rebuilt from. -/
inductive CleanPc where
  | called
  | copied (tmpTable : BrokerAddrTable)
  | rebuilt (tmpTable : BrokerAddrTable) (routes : TopicRouteTable) (updatedTable : BrokerAddrTable)
  | returned

/-- A factory with one call of each. -/
structure CleaningState where
  factory : MQClientFactory
  update : UpdatePc
  clean : CleanPc

/-- The steps of the two calls. -/
inductive CleaningEvent where
  | installBrokers
  | storeRoute
  | copyTable
  | rebuildTable
  | writeBack
deriving DecidableEq

namespace CleaningState

/-- Both calls are about to start. -/
def start (f : MQClientFactory) : CleaningState := ⟨f, .called, .called⟩

/-- One step, where the update has got this route for the topic. It installs a new route only. -/
def step (topic : StdString) (route : TopicRouteData) (s : CleaningState) :
    CleaningEvent → Option CleaningState
  | .installBrokers =>
    if s.update = .called ∧ s.factory.changed topic route = true then
      some { s with
        factory :=
          { s.factory with brokerAddrTable := s.factory.brokerAddrTable.install route }
        update := .installed }
    else none
  | .storeRoute =>
    if s.update = .installed then
      some { s with
        factory :=
          { s.factory with topicRouteTable := s.factory.topicRouteTable.insert topic route }
        update := .returned }
    else none
  | .copyTable =>
    match s.clean with
    | .called => some { s with clean := .copied s.factory.brokerAddrTable }
    | .copied _ | .rebuilt _ _ _ | .returned => none
  | .rebuildTable =>
    match s.clean with
    | .copied tmpTable =>
      some { s with
        clean := .rebuilt tmpTable s.factory.topicRouteTable
          (tmpTable.rebuild s.factory.topicRouteTable) }
    | .called | .rebuilt _ _ _ | .returned => none
  | .writeBack =>
    match s.clean with
    | .rebuilt _ _ updatedTable =>
      some { s with
        factory := { s.factory with brokerAddrTable := updatedTable }
        clean := .returned }
    | .called | .copied _ | .returned => none

end CleaningState

/-! ### What a table has of a route -/

/-- The name and all addresses of a broker are in the table. -/
def BrokerAddrTable.Lists (table : BrokerAddrTable) (bd : BrokerData) : Prop :=
  ∃ addrs, table[bd.brokerName]? = some addrs ∧
    ∀ (id : Int) (addr : StdString), bd.brokerAddrs[id]? = some addr → addrs[id]? = some addr

/-- Every broker name and address of the route is in the table. -/
def BrokerAddrTable.ListsAll (table : BrokerAddrTable) (route : TopicRouteData) : Prop :=
  ∀ bd ∈ route.brokerDatas, table.Lists bd

/-- A broker comes through cleaning: the copy has its addresses and all of them are in stored
routes, and so is at least one address of its entry. -/
def BrokerAddrTable.Survives (tmpTable : BrokerAddrTable) (routes : TopicRouteTable)
    (bd : BrokerData) : Prop :=
  ∃ addrs, tmpTable[bd.brokerName]? = some addrs ∧
    (∃ (id : Int) (addr : StdString), addrs[id]? = some addr ∧
      routes.isBrokerAddrExistInTopicRouteTable addr = true) ∧
    ∀ (id : Int) (addr : StdString), bd.brokerAddrs[id]? = some addr →
      addrs[id]? = some addr ∧ routes.isBrokerAddrExistInTopicRouteTable addr = true

/-- The route alone fills an empty table with all it has: it lists no broker twice with different
addresses. -/
def TopicRouteData.Unambiguous (route : TopicRouteData) : Prop :=
  BrokerAddrTable.ListsAll (BrokerAddrTable.install ∅ route) route

section Tables

variable {table : BrokerAddrTable} {routes : TopicRouteTable} {route : TopicRouteData}
  {bd : BrokerData}

/-- Installing brokers under an entry of a name, the last one counts. -/
theorem getElem?_install (table : BrokerAddrTable) (route : TopicRouteData) (name : StdString) :
    (table.install route)[name]? =
      ((BrokerAddrTable.install ∅ route)[name]?).or table[name]? := by
  have hfold : ∀ (bds : List BrokerData) (a b : BrokerAddrTable),
      (a[name]? = b[name]?.or table[name]?) →
      (bds.foldl (fun table bd ↦ table.insert bd.brokerName bd.brokerAddrs) a)[name]? =
        ((bds.foldl (fun table bd ↦ table.insert bd.brokerName bd.brokerAddrs) b)[name]?).or
          table[name]? := by
    intro bds
    induction bds with
    | nil => exact fun a b h ↦ h
    | cons bd bds ih =>
      intro a b h
      rw [List.foldl_cons, List.foldl_cons]
      apply ih
      rw [Std.ExtTreeMap.getElem?_insert, Std.ExtTreeMap.getElem?_insert]
      split_ifs
      · rfl
      · exact h
  apply hfold route.brokerDatas table ∅
  rw [Std.ExtTreeMap.getElem?_empty, Option.none_or]

theorem isSome_install (hmem : bd ∈ route.brokerDatas) :
    ((BrokerAddrTable.install ∅ route)[bd.brokerName]?).isSome = true := by
  have hfold : ∀ (bds : List BrokerData) (a : BrokerAddrTable),
      bd ∈ bds ∨ a[bd.brokerName]?.isSome = true →
      ((bds.foldl (fun table bd ↦ table.insert bd.brokerName bd.brokerAddrs) a)[
        bd.brokerName]?).isSome = true := by
    intro bds
    induction bds with
    | nil => exact fun a h ↦ h.resolve_left List.not_mem_nil
    | cons bd' bds ih =>
      intro a h
      rw [List.foldl_cons]
      apply ih
      rw [Std.ExtTreeMap.getElem?_insert]
      by_cases hname : compare bd'.brokerName bd.brokerName = .eq
      · rw [if_pos hname]
        exact .inr rfl
      · rw [if_neg hname]
        rcases h with hbd | hsome
        · rcases List.mem_cons.mp hbd with rfl | hrest
          · exact absurd Std.ReflCmp.compare_self hname
          · exact .inl hrest
        · exact .inr hsome
  exact hfold route.brokerDatas ∅ (.inl hmem)

/-- A table has all of a route right after its install when the route is unambiguous. -/
theorem listsAll_install_iff : (table.install route).ListsAll route ↔ route.Unambiguous := by
  have hsame : ∀ bd ∈ route.brokerDatas,
      (table.install route)[bd.brokerName]? =
        (BrokerAddrTable.install ∅ route)[bd.brokerName]? := by
    intro bd hmem
    obtain ⟨addrs, haddrs⟩ := Option.isSome_iff_exists.mp (isSome_install hmem)
    rw [getElem?_install, haddrs, Option.some_or]
  constructor
  · intro h bd hmem
    rw [BrokerAddrTable.Lists, ← hsame bd hmem]
    exact h bd hmem
  · intro h bd hmem
    rw [BrokerAddrTable.Lists, hsame bd hmem]
    exact h bd hmem

/-- What is left of an entry after cleaning. -/
theorem getElem?_rebuild (tmpTable : BrokerAddrTable) (routes : TopicRouteTable)
    (name : StdString) (addrs : Std.ExtTreeMap Int StdString) :
    (tmpTable.rebuild routes)[name]? = some addrs ↔ ∃ old, tmpTable[name]? = some old ∧
      addrs = (old.filter fun _ addr ↦ routes.isBrokerAddrExistInTopicRouteTable addr) ∧
      addrs ≠ ∅ := by
  rw [BrokerAddrTable.rebuild, Std.ExtTreeMap.getElem?_filterMap', Option.bind_eq_some_iff]
  refine exists_congr fun old ↦ and_congr_right fun _ ↦ ?_
  simp only [Option.ite_none_left_eq_some, Std.ExtTreeMap.isEmpty_iff, Option.some.injEq]
  constructor
  · rintro ⟨hne, rfl⟩
    exact ⟨rfl, hne⟩
  · rintro ⟨rfl, hne⟩
    exact ⟨hne, rfl⟩

theorem getElem?_filter_eq_some {old : Std.ExtTreeMap Int StdString} {p : StdString → Bool}
    {id : Int} {addr : StdString} :
    (old.filter fun _ addr ↦ p addr)[id]? = some addr ↔ old[id]? = some addr ∧ p addr = true := by
  rw [Std.ExtTreeMap.getElem?_filter', Option.filter_eq_some_iff]

theorem exists_getElem?_of_ne_empty {addrs : Std.ExtTreeMap Int StdString} (hne : addrs ≠ ∅) :
    ∃ (id : Int) (addr : StdString), addrs[id]? = some addr := by
  by_contra hnone
  push Not at hnone
  apply hne
  apply Std.ExtTreeMap.ext_getElem?
  intro id
  rw [Std.ExtTreeMap.getElem?_empty, Option.eq_none_iff_forall_not_mem]
  exact hnone id

/-- A broker is in the cleaned table exactly when it comes through. -/
theorem lists_rebuild_iff {tmpTable : BrokerAddrTable} :
    (tmpTable.rebuild routes).Lists bd ↔ tmpTable.Survives routes bd := by
  constructor
  · rintro ⟨addrs, haddrs, hall⟩
    obtain ⟨old, hold, rfl, hne⟩ := (getElem?_rebuild tmpTable routes _ addrs).mp haddrs
    obtain ⟨id, addr, hkept⟩ := exists_getElem?_of_ne_empty hne
    exact ⟨old, hold, ⟨id, addr, getElem?_filter_eq_some.mp hkept⟩,
      fun id addr haddr ↦ getElem?_filter_eq_some.mp (hall id addr haddr)⟩
  · rintro ⟨old, hold, ⟨id, addr, hid, hexists⟩, hall⟩
    have hne : (old.filter fun _ addr ↦ routes.isBrokerAddrExistInTopicRouteTable addr) ≠ ∅ := by
      intro hempty
      have hkept := getElem?_filter_eq_some.mpr ⟨hid, hexists⟩
      rw [hempty, Std.ExtTreeMap.getElem?_empty] at hkept
      cases hkept
    exact ⟨_, (getElem?_rebuild tmpTable routes _ _).mpr ⟨old, hold, rfl, hne⟩,
      fun id addr haddr ↦ getElem?_filter_eq_some.mpr (hall id addr haddr)⟩

/-- An address of a stored route is in the stored routes. -/
theorem exists_of_stored {topic : StdString} (hstored : routes[topic]? = some route)
    (hmem : bd ∈ route.brokerDatas) {id : Int} {addr : StdString}
    (haddr : bd.brokerAddrs[id]? = some addr) :
    routes.isBrokerAddrExistInTopicRouteTable addr = true := by
  rw [TopicRouteTable.isBrokerAddrExistInTopicRouteTable, List.any_eq_true]
  refine ⟨(topic, route), Std.ExtTreeMap.mem_toList_iff_getElem?_eq_some.mpr hstored, ?_⟩
  rw [List.any_eq_true]
  refine ⟨bd, hmem, ?_⟩
  rw [List.any_eq_true]
  exact ⟨(id, addr), Std.ExtTreeMap.mem_toList_iff_getElem?_eq_some.mpr haddr,
    decide_eq_true (List.infix_refl addr)⟩

/-- A broker that is copied after its install comes through when its route is stored before the
rebuild, if it has an address at all. -/
theorem survives_of_stored {tmpTable : BrokerAddrTable} {topic : StdString}
    (hlists : tmpTable.Lists bd) (hstored : routes[topic]? = some route)
    (hmem : bd ∈ route.brokerDatas) (hne : bd.brokerAddrs ≠ ∅) :
    tmpTable.Survives routes bd := by
  obtain ⟨addrs, haddrs, hall⟩ := hlists
  obtain ⟨id, addr, haddr⟩ := exists_getElem?_of_ne_empty hne
  exact ⟨addrs, haddrs, ⟨id, addr, hall id addr haddr, exists_of_stored hstored hmem haddr⟩,
    fun id addr haddr ↦ ⟨hall id addr haddr, exists_of_stored hstored hmem haddr⟩⟩

end Tables

namespace CleaningState

/-! ### Runs of both calls -/

section Run

variable {topic : StdString} {route : TopicRouteData} {f : MQClientFactory}
  {s t : CleaningState} {e : CleaningEvent} {es : List CleaningEvent}

/-- Both calls have returned. -/
def Returned (s : CleaningState) : Prop := s.update = .returned ∧ s.clean = .returned

/-- Brokers that are installed after the write-back are unambiguous, and those installed before it
come through what is written back. -/
def KeepsRoute (route : TopicRouteData) (s : CleaningState) : CleaningEvent → Prop
  | .installBrokers => s.clean = .returned → route.Unambiguous
  | .writeBack => s.update ≠ .called → ∀ tmpTable routes updatedTable,
      s.clean = .rebuilt tmpTable routes updatedTable →
      ∀ bd ∈ route.brokerDatas, tmpTable.Survives routes bd
  | .storeRoute | .copyTable | .rebuildTable => True

/-- What is rebuilt is the rest of the copy. -/
def Rebuilt (s : CleaningState) : Prop :=
  ∀ tmpTable routes updatedTable, s.clean = .rebuilt tmpTable routes updatedTable →
    updatedTable = tmpTable.rebuild routes

/-- Once both calls have written the broker table, it has all of the route. -/
def Complete (route : TopicRouteData) (s : CleaningState) : Prop :=
  s.update ≠ .called → s.clean = .returned → s.factory.brokerAddrTable.ListsAll route

/-- What a step can do, one case for each way it can go. -/
inductive Stepped (topic : StdString) (route : TopicRouteData) (s : CleaningState) :
    CleaningEvent → CleaningState → Prop where
  | installBrokers (hcalled : s.update = .called) :
    Stepped topic route s .installBrokers { s with
      factory := { s.factory with brokerAddrTable := s.factory.brokerAddrTable.install route }
      update := .installed }
  | storeRoute (hinstalled : s.update = .installed) :
    Stepped topic route s .storeRoute { s with
      factory := { s.factory with topicRouteTable := s.factory.topicRouteTable.insert topic route }
      update := .returned }
  | copyTable (hclean : s.clean = .called) :
    Stepped topic route s .copyTable { s with clean := .copied s.factory.brokerAddrTable }
  | rebuildTable {tmpTable : BrokerAddrTable} (hclean : s.clean = .copied tmpTable) :
    Stepped topic route s .rebuildTable { s with
      clean := .rebuilt tmpTable s.factory.topicRouteTable
        (tmpTable.rebuild s.factory.topicRouteTable) }
  | writeBack {tmpTable : BrokerAddrTable} {routes : TopicRouteTable}
      {updatedTable : BrokerAddrTable} (hclean : s.clean = .rebuilt tmpTable routes updatedTable) :
    Stepped topic route s .writeBack { s with
      factory := { s.factory with brokerAddrTable := updatedTable }
      clean := .returned }

/-- Every step goes one of these ways. -/
theorem stepped_of_step (hstep : s.step topic route e = some t) : Stepped topic route s e t := by
  cases e with
  | installBrokers =>
    simp only [step, Option.ite_none_right_eq_some, Option.some.injEq] at hstep
    obtain ⟨⟨hcalled, -⟩, rfl⟩ := hstep
    exact .installBrokers hcalled
  | storeRoute =>
    simp only [step, Option.ite_none_right_eq_some, Option.some.injEq] at hstep
    obtain ⟨hinstalled, rfl⟩ := hstep
    exact .storeRoute hinstalled
  | copyTable =>
    simp only [step] at hstep
    split at hstep
    · next hclean =>
      cases hstep
      exact .copyTable hclean
    all_goals cases hstep
  | rebuildTable =>
    simp only [step] at hstep
    split at hstep
    · next tmpTable hclean =>
      cases hstep
      exact .rebuildTable hclean
    all_goals cases hstep
  | writeBack =>
    simp only [step] at hstep
    split at hstep
    · next tmpTable routes updatedTable hclean =>
      cases hstep
      exact .writeBack hclean
    all_goals cases hstep

theorem rebuilt_step (h : s.Rebuilt) (hstep : s.step topic route e = some t) : t.Rebuilt := by
  cases stepped_of_step hstep with
  | installBrokers | storeRoute => exact h
  | rebuildTable =>
    intro tmpTable routes updatedTable hclean
    cases hclean
    rfl
  | copyTable | writeBack =>
    intro tmpTable routes updatedTable hclean
    cases hclean

/-- Before both calls have written the broker table there is nothing to lose. -/
theorem complete_of_clean (h : s.clean ≠ .returned) : s.Complete route :=
  fun _ hreturned ↦ absurd hreturned h

/-- A step leaves the table complete exactly when it was and the step keeps the route. -/
theorem complete_step (h : s.Rebuilt) (hstep : s.step topic route e = some t) :
    t.Complete route ↔ s.Complete route ∧ s.KeepsRoute route e := by
  cases stepped_of_step hstep with
  | installBrokers hcalled =>
    have hs : s.Complete route := fun hne ↦ absurd hcalled hne
    rw [and_iff_right hs, Complete, KeepsRoute, listsAll_install_iff]
    simp
  | storeRoute hinstalled =>
    have hne : s.update ≠ .called := by rw [hinstalled]; simp
    rw [KeepsRoute, and_true]
    exact ⟨fun h _ ↦ h (by simp), fun h _ ↦ h hne⟩
  | copyTable hclean | rebuildTable hclean =>
    refine iff_of_true (complete_of_clean (by simp)) ⟨complete_of_clean ?_, trivial⟩
    rw [hclean]
    simp
  | @writeBack tmpTable routes updatedTable hclean =>
    have hs : s.Complete route := by
      apply complete_of_clean
      rw [hclean]
      simp
    have hlists : updatedTable.ListsAll route ↔
        ∀ bd ∈ route.brokerDatas, tmpTable.Survives routes bd := by
      rw [h tmpTable routes updatedTable hclean]
      exact forall₂_congr fun bd _ ↦ lists_rebuild_iff
    rw [and_iff_right hs, Complete, KeepsRoute, hlists]
    constructor
    · intro hall hne tmpTable' routes' updatedTable' hclean'
      rw [hclean] at hclean'
      cases hclean'
      exact hall hne rfl
    · exact fun hall hne _ ↦ hall hne tmpTable routes updatedTable hclean

theorem rebuilt_start (f : MQClientFactory) : (start f).Rebuilt := by
  intro tmpTable routes updatedTable hclean
  cases hclean

/-- Once both calls have returned, the table has every broker name and address of the route exactly
when the install and the write-back kept them. -/
theorem listsAll_iff_keepsRoute (hrun : Base.runFrom (step topic route) (start f) es = some s)
    (hreturned : s.Returned) :
    s.factory.brokerAddrTable.ListsAll route ↔
      Base.Along (step topic route) (KeepsRoute route) (start f) es := by
  have hcomplete : s.Complete route ↔ s.factory.brokerAddrTable.ListsAll route := by
    rw [Complete, hreturned.1, hreturned.2]
    simp
  rw [← hcomplete, Base.recorded_iff_along (fun _ _ _ h hstep ↦ rebuilt_step h hstep)
    (fun _ _ _ h hstep ↦ complete_step h hstep) (rebuilt_start f) hrun]
  exact and_iff_right (complete_of_clean (by simp [start]))

/-! ### Orders that keep the route -/

/-- The table is copied after the install and rebuilt after the route was stored. -/
def InOrder (s : CleaningState) : CleaningEvent → Prop
  | .copyTable => s.update ≠ .called
  | .rebuildTable => s.update = .returned
  | .installBrokers | .storeRoute | .writeBack => True

instance : ∀ s e, Decidable (InOrder s e)
  | _, .copyTable => inferInstanceAs (Decidable (_ ≠ _))
  | _, .rebuildTable => inferInstanceAs (Decidable (_ = _))
  | _, .installBrokers | _, .storeRoute | _, .writeBack => inferInstanceAs (Decidable True)

/-- Whatever table is in use or was copied has the route, and it is stored when the table is
rebuilt. -/
structure Ordered (topic : StdString) (route : TopicRouteData) (s : CleaningState) : Prop where
  first : s.clean ≠ .called → s.update ≠ .called
  table : s.update ≠ .called → s.clean ≠ .returned → s.factory.brokerAddrTable.ListsAll route
  stored : s.update = .returned → s.factory.topicRouteTable[topic]? = some route
  copied : ∀ tmpTable, s.clean = .copied tmpTable → tmpTable.ListsAll route
  rebuilt : ∀ tmpTable routes updatedTable, s.clean = .rebuilt tmpTable routes updatedTable →
    tmpTable.ListsAll route ∧ routes[topic]? = some route

theorem ordered_step (hroute : route.Unambiguous) (h : s.Ordered topic route)
    (hgood : s.InOrder e) (hstep : s.step topic route e = some t) : t.Ordered topic route := by
  cases stepped_of_step hstep with
  | installBrokers hcalled =>
    have hclean : s.clean = .called := by
      by_contra hne
      exact h.first hne hcalled
    refine ⟨fun _ ↦ by simp, fun _ _ ↦ listsAll_install_iff.mpr hroute, fun hr ↦ (by cases hr),
      fun tmpTable hc ↦ ?_, fun tmpTable routes updatedTable hc ↦ ?_⟩
    · rw [hclean] at hc
      cases hc
    · rw [hclean] at hc
      cases hc
  | storeRoute hinstalled =>
    have hne : s.update ≠ .called := by rw [hinstalled]; simp
    exact ⟨fun _ ↦ by simp, fun _ ↦ h.table hne, fun _ ↦ Std.ExtTreeMap.getElem?_insert_self,
      h.copied, h.rebuilt⟩
  | copyTable hclean =>
    have htable := h.table hgood (by rw [hclean]; simp)
    refine ⟨fun _ ↦ hgood, fun _ _ ↦ htable, h.stored, fun tmpTable hc ↦ ?_,
      fun tmpTable routes updatedTable hc ↦ (by cases hc)⟩
    cases hc
    exact htable
  | rebuildTable hclean =>
    have hreturned : s.update = .returned := hgood
    have hne : s.update ≠ .called := by rw [hreturned]; simp
    refine ⟨fun _ ↦ hne, fun _ _ ↦ h.table hne (by rw [hclean]; simp), h.stored,
      fun tmpTable' hc ↦ (by cases hc), fun tmpTable' routes updatedTable hc ↦ ?_⟩
    cases hc
    exact ⟨h.copied _ hclean, h.stored hreturned⟩
  | writeBack hclean =>
    exact ⟨fun _ ↦ h.first (by rw [hclean]; simp), fun _ hne ↦ absurd rfl hne, h.stored,
      fun tmpTable' hc ↦ (by cases hc), fun tmpTable' routes' updatedTable' hc ↦ (by cases hc)⟩

/-- These orders keep an unambiguous route whose brokers have addresses. -/
theorem keepsRoute_of_inOrder (hroute : route.Unambiguous)
    (haddrs : ∀ bd ∈ route.brokerDatas, bd.brokerAddrs ≠ ∅)
    (h : Base.Along (step topic route) InOrder (start f) es) :
    Base.Along (step topic route) (KeepsRoute route) (start f) es := by
  refine Base.along_of_along
    (fun _ _ _ (hinv : Ordered topic route _) hgood hstep ↦ ordered_step hroute hinv hgood hstep)
    (fun s e hinv _ ↦ ?_) ?_ h
  · cases e with
    | installBrokers => exact fun _ ↦ hroute
    | writeBack =>
      intro _ tmpTable routes updatedTable hclean bd hmem
      obtain ⟨hlists, hstored⟩ := hinv.rebuilt tmpTable routes updatedTable hclean
      exact survives_of_stored (hlists bd hmem) hstored hmem (haddrs bd hmem)
    | storeRoute | copyTable | rebuildTable => exact trivial
  · exact ⟨fun hne ↦ absurd rfl hne, fun hne ↦ absurd rfl hne, fun hr ↦ (by cases hr),
      fun tmpTable hc ↦ (by cases hc), fun tmpTable routes updatedTable hc ↦ (by cases hc)⟩

/-- A route with one broker. -/
def oneBroker : TopicRouteData :=
  ⟨[], [⟨str "b", 1, 1, 6⟩], [⟨str "b", {(0, str "a:10911")}⟩]⟩

theorem oneBroker_unambiguous : oneBroker.Unambiguous := by
  intro bd hmem
  rw [List.mem_singleton.mp hmem]
  exact ⟨{(0, str "a:10911")}, by decide +kernel, fun _ _ h ↦ h⟩

/-- The table is copied and rebuilt after the update. -/
theorem updateFirst_keeps : ∃ s, Base.runFrom (step (str "t") oneBroker)
      (start ⟨∅, ∅, ∅, ∅⟩) [.installBrokers, .storeRoute, .copyTable, .rebuildTable, .writeBack] =
        some s ∧ s.Returned ∧ s.factory.brokerAddrTable.ListsAll oneBroker := by
  have hrun : ∃ s, Base.runFrom (step (str "t") oneBroker) (start ⟨∅, ∅, ∅, ∅⟩)
      [.installBrokers, .storeRoute, .copyTable, .rebuildTable, .writeBack] = some s ∧
        s.Returned :=
    ⟨_, rfl, rfl, rfl⟩
  obtain ⟨s, hs, hreturned⟩ := hrun
  refine ⟨s, hs, hreturned, (listsAll_iff_keepsRoute hs hreturned).mpr
    (keepsRoute_of_inOrder oneBroker_unambiguous ?_ (by decide +kernel))⟩
  intro bd hmem
  rw [List.mem_singleton.mp hmem]
  decide +kernel

/-- The table is copied before the install and written back after it. -/
theorem copyFirst_loses : ∃ s, Base.runFrom (step (str "t") oneBroker)
      (start ⟨∅, ∅, ∅, ∅⟩) [.copyTable, .installBrokers, .storeRoute, .rebuildTable, .writeBack] =
        some s ∧ s.Returned ∧ s.factory.brokerAddrTable[str "b"]? = none ∧
      ¬ s.factory.brokerAddrTable.ListsAll oneBroker := by
  have hrun : ∃ s, Base.runFrom (step (str "t") oneBroker) (start ⟨∅, ∅, ∅, ∅⟩)
      [.copyTable, .installBrokers, .storeRoute, .rebuildTable, .writeBack] = some s ∧
        s.Returned ∧ s.factory.brokerAddrTable[str "b"]? = none :=
    ⟨_, rfl, ⟨rfl, rfl⟩, by decide +kernel⟩
  obtain ⟨s, hs, hreturned, hnone⟩ := hrun
  refine ⟨s, hs, hreturned, hnone, fun hall ↦ ?_⟩
  obtain ⟨addrs, haddrs, -⟩ := hall ⟨str "b", {(0, str "a:10911")}⟩ (List.mem_singleton_self _)
  rw [hnone] at haddrs
  cases haddrs

end Run
end CleaningState
end RocketMQ
