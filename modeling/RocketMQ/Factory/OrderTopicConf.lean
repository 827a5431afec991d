import Mathlib.Algebra.Order.BigOperators.Group.List
import RocketMQ.Factory.TopicRoute
import RocketMQ.Message.PropertyBlock

/-!
# The order configuration of a topic

`topicRouteData2TopicPublishInfo` of `src/MQClientFactory.cpp` for a route with an
`orderTopicConf`: items `name:number`, separated by `;`. `UtilAll::Split` gives what a split at
every delimiter gives, unless the string is made of delimiters only.
-/

namespace RocketMQ

/-! ### Splits -/

namespace UtilAll

section Split

variable {delimiter : UInt8} {s : StdString}

/-- With a pass for each delimiter, the loop splits at all of them. -/
theorem splitLoop_eq_splitOn {passes : Nat} (h : s.count delimiter ≤ passes) :
    splitLoop delimiter passes s = s.splitOn delimiter := by
  induction passes generalizing s with
  | zero =>
    have hnot : delimiter ∉ s := List.count_eq_zero.mp (Nat.le_zero.mp h)
    rw [splitLoop_of_notMem 0 hnot, List.splitOn_eq_singleton hnot]
  | succ passes ih =>
    by_cases hmem : delimiter ∈ s
    · obtain ⟨part, rest, rfl, hpart⟩ := List.eq_append_cons_of_mem hmem
      rw [List.count_append, List.count_cons_self] at h
      rw [splitLoop_append passes rest hpart, ih (by omega),
        List.splitOn_append_cons_self_of_not_mem hpart]
    · rw [splitLoop_of_notMem _ hmem, List.splitOn_eq_singleton hmem]

/-- A byte that is no delimiter leaves a pass for each delimiter. -/
theorem split_eq_splitOn (h : ∃ b ∈ s, b ≠ delimiter) :
    split s delimiter = s.splitOn delimiter := by
  have hlt := List.count_lt_length_iff.mpr h
  exact splitLoop_eq_splitOn (by omega)

/-- The pieces are parts of the string. -/
theorem subset_of_mem_splitOn {piece : StdString} (h : piece ∈ s.splitOn delimiter) :
    piece ⊆ s := by
  rw [← splitLoop_eq_splitOn le_rfl] at h
  exact subset_of_mem_splitLoop h

/-- A delimiter and another byte are enough for a pass. -/
theorem exists_pass (hmem : delimiter ∈ s) (hne : s ≠ [delimiter]) :
    ∃ passes, s.length - 1 = passes + 1 := by
  match s with
  | [] => cases hmem
  | [b] => exact absurd (congrArg (fun d ↦ [d]) (List.mem_singleton.mp hmem).symm) hne
  | _ :: _ :: rest => exact ⟨rest.length, rfl⟩

/-- A string with one delimiter is taken apart there, if it has another byte. -/
theorem split_pair {part rest : StdString} (hpart : delimiter ∉ part) (hrest : delimiter ∉ rest)
    (hne : part ++ delimiter :: rest ≠ [delimiter]) :
    split (part ++ delimiter :: rest) delimiter = [part, rest] := by
  obtain ⟨passes, hpasses⟩ :=
    exists_pass (List.mem_append_right part List.mem_cons_self) hne
  rw [split, hpasses, splitLoop_append passes rest hpart, splitLoop_of_notMem passes hrest]

/-- Two pieces take a delimiter, and another byte. -/
theorem two_le_length_split_iff :
    2 ≤ (split s delimiter).length ↔ delimiter ∈ s ∧ s ≠ [delimiter] := by
  constructor
  · intro hlen
    refine ⟨?_, ?_⟩
    · by_contra hnot
      rw [split, splitLoop_of_notMem _ hnot, List.length_singleton] at hlen
      omega
    · rintro rfl
      simp [split, splitLoop] at hlen
  · rintro ⟨hmem, hne⟩
    obtain ⟨passes, hpasses⟩ := exists_pass hmem hne
    obtain ⟨part, rest, rfl, hpart⟩ := List.eq_append_cons_of_mem hmem
    rw [split, hpasses, splitLoop_append passes rest hpart, List.length_cons]
    have hpos := List.length_pos_of_ne_nil (splitLoop_ne_nil delimiter passes rest)
    omega

end Split
end UtilAll

/-! ### The configuration -/

/-- The text `name:number` of an item. -/
def orderItem (pair : StdString × Nat) : StdString := pair.1 ++ 58 :: Base.natDigits pair.2

/-- Items joined by `;`. -/
def orderConfOf (pairs : List (StdString × Nat)) : StdString :=
  [59].intercalate (pairs.map orderItem)

/-- The broker names have neither `:` nor `;`. -/
def PlainNames (pairs : List (StdString × Nat)) : Prop := ∀ pair ∈ pairs, 58 ∉ pair.1 ∧ 59 ∉ pair.1

/-- A route is converted without a read behind the pieces of a split, and an order configuration
made of pairs gives exactly their queues, in order. -/
def ParsesOrder (topic : StdString) (route : TopicRouteData) : Prop :=
  ∃ info, topicRouteData2TopicPublishInfo topic route = some info ∧
    ∀ pairs, PlainNames pairs → route.orderTopicConf = orderConfOf pairs →
      info.messageQueueList = pairs.flatMap fun pair ↦ queuesOf topic pair.1 pair.2

/-- Every piece between two `;` is an item with a `:` and more. -/
def ItemsOK (orderTopicConf : StdString) : Prop :=
  ∀ item ∈ orderTopicConf.splitOn 59, 58 ∈ item ∧ item ≠ [58]

/-- All items can be read, and the numbers of a configuration made of pairs fit an `int`. Without a
configuration no entry of the queue data has a queue to write to. -/
def OrderConfOK (route : TopicRouteData) : Prop :=
  if route.orderTopicConf = [] then ∀ qd ∈ route.queueDatas, route.listedNums qd = 0
  else
    ItemsOK route.orderTopicConf ∧
      ∀ pairs, PlainNames pairs → route.orderTopicConf = orderConfOf pairs →
        ∀ pair ∈ pairs, pair.2 < 2 ^ 31

/-! ### Items -/

section Items

variable {topic : StdString} {conf : StdString}

/-- The queues of an item; `none` when it is read behind its pieces. -/
def itemQueues (topic item : StdString) : Option (List MessageQueue) :=
  match UtilAll.split item 58 with
  | name :: nums :: _ => some (queuesOf topic name (atoi nums))
  | _ => none

theorem orderQueues_eq (topic conf : StdString) :
    orderQueues topic conf =
      ((UtilAll.split conf 59).mapM (itemQueues topic)).map List.flatten := by
  rw [Option.map_eq_bind]
  rfl

theorem isSome_itemQueues_iff {item : StdString} :
    (itemQueues topic item).isSome ↔ 58 ∈ item ∧ item ≠ [58] := by
  rw [← UtilAll.two_le_length_split_iff, itemQueues]
  split
  · next name nums rest hsplit => simp [hsplit]
  · next hsplit =>
    apply iff_of_false Bool.false_ne_true
    intro hlen
    match hpieces : UtilAll.split item 58 with
    | [] => rw [hpieces] at hlen; simp at hlen
    | [_] => rw [hpieces] at hlen; simp at hlen
    | name :: nums :: rest => exact hsplit name nums rest hpieces

/-- A map that can fail succeeds when it succeeds on every element. -/
theorem isSome_mapM_iff {α β : Type} {f : α → Option β} {l : List α} :
    (l.mapM f).isSome ↔ ∀ a ∈ l, (f a).isSome := by
  induction l with
  | nil => simp
  | cons a l ih =>
    rw [List.mapM_cons, List.forall_mem_cons, ← ih]
    cases f a <;> cases l.mapM f <;> simp

theorem mapM_eq_some_map {α β : Type} {f : α → Option β} {g : α → β} {l : List α}
    (h : ∀ a ∈ l, f a = some (g a)) : l.mapM f = some (l.map g) := by
  induction l with
  | nil => rfl
  | cons a l ih =>
    obtain ⟨ha, hl⟩ := List.forall_mem_cons.mp h
    rw [List.mapM_cons, ha, ih hl]
    rfl

/-- A configuration with a `:` in each of its pieces is not made of `;` only. -/
theorem exists_ne_semicolon {pieces : List StdString} (hne : pieces ≠ [])
    (hsub : ∀ item ∈ pieces, item ⊆ conf) (h : ∀ item ∈ pieces, 58 ∈ item ∧ item ≠ [58]) :
    ∃ b ∈ conf, b ≠ 59 := by
  obtain ⟨item, hitem⟩ := List.exists_mem_of_ne_nil _ hne
  exact ⟨58, hsub item hitem (h item hitem).1, by decide⟩

/-- Nor is one that can be read. -/
theorem ItemsOK.exists_ne_semicolon (h : ItemsOK conf) : ∃ b ∈ conf, b ≠ 59 :=
  RocketMQ.exists_ne_semicolon (List.splitOn_ne_nil _ _)
    (fun _ ↦ UtilAll.subset_of_mem_splitOn) h

/-- An order configuration is read inside its pieces when every item is. -/
theorem isSome_orderQueues_iff : (orderQueues topic conf).isSome ↔ ItemsOK conf := by
  rw [orderQueues_eq, Option.isSome_map, isSome_mapM_iff]
  simp only [isSome_itemQueues_iff]
  by_cases hother : ∃ b ∈ conf, b ≠ 59
  · rw [UtilAll.split_eq_splitOn hother, ItemsOK]
  · exact iff_of_false (hother ∘ exists_ne_semicolon (UtilAll.splitLoop_ne_nil _ _ _)
      fun _ ↦ UtilAll.subset_of_mem_splitLoop) (mt ItemsOK.exists_ne_semicolon hother)

/-- The broker name and the number of an item that can be read. -/
def orderItemNums (item : StdString) : StdString × Nat :=
  match UtilAll.split item 58 with
  | name :: nums :: _ => (name, (atoi nums).toNat)
  | _ => ([], 0)

theorem itemQueues_of_readable {item : StdString} (h : 58 ∈ item ∧ item ≠ [58]) :
    itemQueues topic item =
      some (queuesOf topic (orderItemNums item).1 (orderItemNums item).2) := by
  have hsome : (itemQueues topic item).isSome := isSome_itemQueues_iff.mpr h
  rw [itemQueues] at hsome ⊢
  rw [orderItemNums]
  split at hsome
  · simp [queuesOf, -Int.ofNat_toNat]
  · cases hsome

/-- A configuration that can be read is split at every `;`. -/
theorem split_of_itemsOK (h : ItemsOK conf) : UtilAll.split conf 59 = conf.splitOn 59 :=
  UtilAll.split_eq_splitOn h.exists_ne_semicolon

/-- It gives the queues of its items, in order. -/
theorem orderQueues_of_itemsOK (h : ItemsOK conf) :
    orderQueues topic conf = some ((conf.splitOn 59).flatMap fun item ↦
      queuesOf topic (orderItemNums item).1 (orderItemNums item).2) := by
  rw [orderQueues_eq, split_of_itemsOK h,
    mapM_eq_some_map fun item hitem ↦ itemQueues_of_readable (h item hitem)]
  rfl

/-! ### Configurations made of pairs -/

/-- The digits of a number are read as that number. -/
theorem leadingNumber_natDigits (n : Nat) : leadingNumber (Base.natDigits n) = n := by
  have hdigits : ∀ b ∈ Base.natDigits n, Base.isDigit b = true :=
    fun b hb ↦ Base.isDigit_of_mem_natDigits hb
  have hall : (Base.natDigits n).takeWhile Base.isDigit = Base.natDigits n :=
    List.takeWhile_eq_self_iff.mpr hdigits
  obtain ⟨d, ds, hcons⟩ := List.exists_cons_of_ne_nil (Base.natDigits_ne_nil n)
  have hd : Base.isDigit d = true := hdigits d (by rw [hcons]; exact List.mem_cons_self)
  have hspace : decide (d = 32 ∨ (9 ≤ d ∧ d ≤ 13)) = false := by
    have hlow : 48 ≤ d := by
      rw [Base.isDigit, Bool.and_eq_true, decide_eq_true_eq] at hd
      exact hd.1
    apply decide_eq_false
    rintro (rfl | ⟨-, hhigh⟩)
    · exact absurd hlow (by decide)
    · exact absurd (UInt8.le_trans hlow hhigh) (by decide)
  have hdrop : (Base.natDigits n).dropWhile (fun b ↦ decide (b = 32 ∨ (9 ≤ b ∧ b ≤ 13))) =
      Base.natDigits n := by
    rw [hcons, List.dropWhile_cons, hspace]
    rfl
  simp only [leadingNumber, hdrop]
  split
  · next digits h =>
    rw [hcons] at h
    cases h
    cases hd
  · next digits h =>
    rw [hcons] at h
    cases h
    cases hd
  · rw [hall, Base.digitsValue_natDigits]

/-- A number is never read as a larger one, and as a smaller one from `2 ^ 31` on. -/
theorem toNat_atoi_natDigits (n : Nat) :
    (atoi (Base.natDigits n)).toNat ≤ n ∧
      ((atoi (Base.natDigits n)).toNat = n ↔ n < 2 ^ 31) := by
  rw [atoi, leadingNumber_natDigits, toInt32, Int.bmod_def]
  split_ifs <;> omega

theorem notMem_natDigits {n : Nat} {b : UInt8} (hb : Base.isDigit b = false) :
    b ∉ Base.natDigits n := by
  intro hmem
  rw [Base.isDigit_of_mem_natDigits hmem] at hb
  cases hb

variable {pair : StdString × Nat} {pairs : List (StdString × Nat)}

theorem itemQueues_orderItem (hname : 58 ∉ pair.1) :
    itemQueues topic (orderItem pair) =
      some (queuesOf topic pair.1 (atoi (Base.natDigits pair.2))) := by
  have hne : orderItem pair ≠ [58] := by
    intro heq
    have hlen := congrArg List.length heq
    have hpos := List.length_pos_of_ne_nil (Base.natDigits_ne_nil pair.2)
    rw [orderItem, List.length_append, List.length_cons, List.length_singleton] at hlen
    omega
  rw [itemQueues, orderItem, UtilAll.split_pair hname (notMem_natDigits rfl) hne]

theorem semicolon_notMem_orderItem (hname : 59 ∉ pair.1) : 59 ∉ orderItem pair := by
  rw [orderItem, List.mem_append, List.mem_cons, not_or, not_or]
  exact ⟨hname, by decide, notMem_natDigits rfl⟩

/-- A configuration made of pairs is split into their items. -/
theorem split_orderConfOf (hne : pairs ≠ []) (hplain : PlainNames pairs) :
    (orderConfOf pairs).splitOn 59 = pairs.map orderItem := by
  refine List.splitOn_intercalate 59 ?_ (mt List.map_eq_nil_iff.mp hne)
  intro item hitem
  obtain ⟨pair, hpair, rfl⟩ := List.mem_map.mp hitem
  exact semicolon_notMem_orderItem (hplain pair hpair).2

theorem orderConfOf_ne_nil (hne : pairs ≠ []) (hplain : PlainNames pairs) :
    orderConfOf pairs ≠ [] := by
  intro hnil
  have hsplit := split_orderConfOf hne hplain
  obtain ⟨pair, rest, rfl⟩ := List.exists_cons_of_ne_nil hne
  rw [hnil, List.splitOn_nil, List.map_cons, List.cons.injEq, orderItem] at hsplit
  exact List.append_ne_nil_of_right_ne_nil _ (List.cons_ne_nil _ _) hsplit.1.symm

/-- The queues of a configuration made of pairs, with the numbers as they are read. -/
theorem orderQueues_orderConfOf (hne : pairs ≠ []) (hplain : PlainNames pairs) :
    orderQueues topic (orderConfOf pairs) = some (pairs.flatMap fun pair ↦
      queuesOf topic pair.1 (atoi (Base.natDigits pair.2))) := by
  have hsplit := split_orderConfOf hne hplain
  have hitems : ItemsOK (orderConfOf pairs) := by
    intro item hitem
    rw [hsplit] at hitem
    obtain ⟨pair, hpair, rfl⟩ := List.mem_map.mp hitem
    have hread : itemQueues topic (orderItem pair) = _ :=
      itemQueues_orderItem (hplain pair hpair).1
    exact isSome_itemQueues_iff.mp (Option.isSome_of_eq_some hread)
  rw [orderQueues_eq, split_of_itemsOK hitems, hsplit, List.mapM_map,
    mapM_eq_some_map (f := itemQueues topic ∘ orderItem)
      fun pair hpair ↦ itemQueues_orderItem (hplain pair hpair).1]
  rfl

/-- They are the queues of the pairs when all numbers fit an `int`, and fewer otherwise. -/
theorem queues_as_read_iff (topic : StdString) (pairs : List (StdString × Nat)) :
    (pairs.flatMap fun pair ↦ queuesOf topic pair.1 (atoi (Base.natDigits pair.2))) =
        (pairs.flatMap fun pair ↦ queuesOf topic pair.1 pair.2) ↔
      ∀ pair ∈ pairs, pair.2 < 2 ^ 31 := by
  constructor
  · intro heq
    by_contra hnot
    push Not at hnot
    obtain ⟨pair, hpair, hlarge⟩ := hnot
    have hlen := congrArg List.length heq
    simp only [List.length_flatMap, queuesOf, List.length_map, List.length_range,
      Int.toNat_natCast] at hlen
    have hlt := List.sum_lt_sum (l := pairs)
      (fun pair ↦ (atoi (Base.natDigits pair.2)).toNat) (fun pair ↦ pair.2)
      (fun pair _ ↦ (toNat_atoi_natDigits pair.2).1) ⟨pair, hpair, ?_⟩
    · omega
    · have hread := toNat_atoi_natDigits pair.2
      omega
  · intro hsmall
    apply List.flatMap_congr
    intro pair hpair
    rw [queuesOf, (toNat_atoi_natDigits pair.2).2.mpr (hsmall pair hpair), queuesOf,
      Int.toNat_natCast]

end Items

/-- A route without a queue to write to lists none. -/
theorem writableQueues_eq_nil_iff (topic : StdString) (route : TopicRouteData) :
    writableQueues topic route = [] ↔ ∀ qd ∈ route.queueDatas, route.listedNums qd = 0 := by
  rw [writableQueues_eq_listed, List.flatMap_eq_nil_iff]
  simp [TopicRouteData.sorted, queuesOf]

/-- **The order configuration is parsed safely** exactly when it is made of items. -/
theorem parsesOrder_iff (topic : StdString) (route : TopicRouteData) :
    ParsesOrder topic route ↔ OrderConfOK route := by
  by_cases hconf : route.orderTopicConf = []
  · have hinfo : topicRouteData2TopicPublishInfo topic route =
        some ⟨writableQueues topic route, 0⟩ := by
      rw [topicRouteData2TopicPublishInfo, hconf]
      rfl
    rw [OrderConfOK, if_pos hconf, ← writableQueues_eq_nil_iff topic, ParsesOrder]
    simp only [hinfo, Option.some.injEq, exists_eq_left', hconf]
    constructor
    · intro h
      exact h [] (fun _ hmem ↦ absurd hmem List.not_mem_nil) rfl
    · intro hnone pairs hplain hpairs
      have hnil : pairs = [] := by
        by_contra hne
        exact orderConfOf_ne_nil hne hplain hpairs.symm
      rw [hnone, hnil, List.flatMap_nil]
  · have hinfo : topicRouteData2TopicPublishInfo topic route =
        (orderQueues topic route.orderTopicConf).map fun queues ↦ ⟨queues, 0⟩ := by
      rw [topicRouteData2TopicPublishInfo, if_pos (by simpa using hconf)]
    have hpairs {pairs : List (StdString × Nat)} (h : route.orderTopicConf = orderConfOf pairs) :
        pairs ≠ [] := by
      rintro rfl
      exact hconf h
    have hsome_iff : (orderQueues topic route.orderTopicConf).isSome ↔ _ := isSome_orderQueues_iff
    rw [OrderConfOK, if_neg hconf, ← hsome_iff, ParsesOrder, hinfo]
    constructor
    · rintro ⟨info, hsome, hlist⟩
      obtain ⟨queues, hqueues, rfl⟩ := Option.map_eq_some_iff.mp hsome
      refine ⟨by rw [hqueues]; rfl, fun pairs hplain heq ↦ ?_⟩
      rw [heq, orderQueues_orderConfOf (hpairs heq) hplain, Option.some.injEq] at hqueues
      rw [← queues_as_read_iff topic, hqueues]
      exact hlist pairs hplain heq
    · rintro ⟨hsome, hsmall⟩
      obtain ⟨queues, hqueues⟩ := Option.isSome_iff_exists.mp hsome
      refine ⟨⟨queues, 0⟩, by rw [hqueues]; rfl, fun pairs hplain heq ↦ ?_⟩
      rw [heq, orderQueues_orderConfOf (hpairs heq) hplain, Option.some.injEq] at hqueues
      rw [← hqueues]
      exact (queues_as_read_iff topic pairs).mpr (hsmall pairs hplain heq)

/-- A configuration with a `;` at its end: the second piece of the item behind it is read. -/
theorem trailing_semicolon_reads_behind :
    ¬ ParsesOrder (str "t") ⟨str "b:1;", [], []⟩ := by
  rintro ⟨info, hinfo, -⟩
  have hnone : topicRouteData2TopicPublishInfo (str "t") ⟨str "b:1;", [], []⟩ = none := by
    decide
  rw [hnone] at hinfo
  cases hinfo

end RocketMQ
