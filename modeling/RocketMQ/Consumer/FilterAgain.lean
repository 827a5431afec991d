import RocketMQ.Base.Decimal
import RocketMQ.Consumer.PullMessage
import RocketMQ.Consumer.SubscriptionData
import RocketMQ.Message.MessageDecoder

/-!
# The messages of a pull, filtered again

What `PullAPIWrapper::processPullResult`, `src/consumer/PullAPIWrapper.cpp:56–160`, does to the
messages that were decoded from a pull with the status `FOUND`: those whose tag is not subscribed
are left out and deleted, the others get the offsets of the pull as properties.
-/

namespace RocketMQ

/-- A message with all its fields. -/
abbrev DecodedMessage := MessageDecoder.MessageExt

/-- What is left of a pull: the messages for the consumer, those that were deleted, and the
subscription. -/
structure PulledMessages where
  msgFoundList : List DecodedMessage
  deleted : List DecodedMessage
  subscriptionData : SubscriptionData

namespace PullAPIWrapper

/-- Where the filter stands: the messages it went past and left in `msgList`, those ahead of `it`,
and `msgListFilterAgain`. -/
structure FilterState where
  passed : List DecodedMessage
  ahead : List DecodedMessage
  filterAgain : List DecodedMessage

/-- One pass of the loop of the filter, `src/consumer/PullAPIWrapper.cpp:78–96`. A message without
a tag neither is taken out of the list nor moves the iterator. -/
def filterPass (tagsSet : Std.ExtTreeSet StdString) (s : FilterState) :
    Base.Pass FilterState FilterState :=
  match s.ahead with
  | [] => .leave s
  | msg :: ahead =>
    if !msg.getTags.isEmpty then
      if tagsSet.contains msg.getTags then
        .again { s with ahead, filterAgain := s.filterAgain ++ [msg] }
      else .again { s with passed := s.passed ++ [msg], ahead }
    else .again s

/-- The filter comes back with `s`: it goes through the messages only if there are tags. -/
def FiltersAgain (tagsSet : Std.ExtTreeSet StdString) (msgList : List DecodedMessage)
    (s : FilterState) : Prop :=
  if tagsSet.isEmpty then s = ⟨[], [], msgList⟩
  else Base.Yields (filterPass tagsSet) ⟨[], msgList, []⟩ s

/-- What a selected message gets, `src/consumer/PullAPIWrapper.cpp:112–143`. -/
def finishMessage (projectGroupPrefix : StdString) (pullResult : PullResult)
    (msg : DecodedMessage) : DecodedMessage :=
  let topic := if !isBlank projectGroupPrefix then
    VirtualEnvUtil.clearProjectGroup msg.topic projectGroupPrefix else msg.topic
  { msg with
    toMessage := (({ msg.toMessage with topic }).putProperty Message.propertyMinOffset
      (Base.intDigits pullResult.minOffset)).putProperty Message.propertyMaxOffset
      (Base.intDigits pullResult.maxOffset) }

/-- `processPullResult` on a pull with the status `FOUND`, from the decoded messages on, comes back
with `out`. -/
def ProcessesPullResult (projectGroupPrefix : StdString) (pullResult : PullResult)
    (subscriptionData : SubscriptionData) (msgFoundList msgList : List DecodedMessage)
    (out : PulledMessages) : Prop :=
  ∃ s, FiltersAgain subscriptionData.tagsSet msgList s ∧
    out.msgFoundList =
      msgFoundList ++ s.filterAgain.map (finishMessage projectGroupPrefix pullResult) ∧
    out.deleted = s.passed ++ s.ahead ∧
    out.subscriptionData = { subscriptionData with
      topic := if !isBlank projectGroupPrefix then
        VirtualEnvUtil.clearProjectGroup subscriptionData.topic projectGroupPrefix
        else subscriptionData.topic }

/-! ### What is selected -/

/-- A message is selected when there are no tags, or when it has one of them. -/
def Selected (tagsSet : Std.ExtTreeSet StdString) (msg : DecodedMessage) : Prop :=
  tagsSet.isEmpty = true ∨ msg.getTags ≠ [] ∧ msg.getTags ∈ tagsSet

instance (tagsSet : Std.ExtTreeSet StdString) (msg : DecodedMessage) :
    Decidable (Selected tagsSet msg) :=
  inferInstanceAs (Decidable (_ ∨ _ ≠ _ ∧ _))

/-- A message as it is handed over: with the offsets of the pull, and otherwise as it was pulled, up
to the project group of its topic. -/
structure HandedOver (projectGroupPrefix : StdString) (pullResult : PullResult)
    (msg found : DecodedMessage) : Prop where
  minOffset : found.getProperty Message.propertyMinOffset = Base.intDigits pullResult.minOffset
  maxOffset : found.getProperty Message.propertyMaxOffset = Base.intDigits pullResult.maxOffset
  properties : ∀ name, name ≠ Message.propertyMinOffset → name ≠ Message.propertyMaxOffset →
    found.getProperty name = msg.getProperty name
  topic : isBlank projectGroupPrefix → found.topic = msg.topic
  rest : found = { msg with topic := found.topic, properties := found.properties }

/-- `processPullResult` comes back, the selected messages are handed over in order and the others
are deleted once. -/
def SelectsExactly (projectGroupPrefix : StdString) (pullResult : PullResult)
    (subscriptionData : SubscriptionData) (msgFoundList msgList : List DecodedMessage) : Prop :=
  ∃ out found, ProcessesPullResult projectGroupPrefix pullResult subscriptionData msgFoundList
      msgList out ∧
    out.msgFoundList = msgFoundList ++ found ∧
    List.Forall₂ (HandedOver projectGroupPrefix pullResult)
      (msgList.filter (Selected subscriptionData.tagsSet ·)) found ∧
    out.deleted = msgList.filter (¬ Selected subscriptionData.tagsSet ·)

section Filter

variable {tagsSet : Std.ExtTreeSet StdString}

/-- A message with a tag, when there are tags, is selected by its tag. -/
theorem selected_iff_contains (hempty : tagsSet.isEmpty = false) {msg : DecodedMessage}
    (htag : msg.getTags ≠ []) : Selected tagsSet msg ↔ tagsSet.contains msg.getTags = true := by
  unfold Selected
  rw [hempty, ← Std.ExtTreeSet.mem_iff_contains]
  simp [htag]

/-- The loop sorts the messages ahead of it when each has a tag. -/
theorem yields_filterPass (hempty : tagsSet.isEmpty = false) (ahead : List DecodedMessage)
    (htags : ∀ msg ∈ ahead, msg.getTags ≠ []) (passed filterAgain : List DecodedMessage) :
    Base.Yields (filterPass tagsSet) ⟨passed, ahead, filterAgain⟩
      ⟨passed ++ ahead.filter (¬ Selected tagsSet ·), [],
        filterAgain ++ ahead.filter (Selected tagsSet ·)⟩ := by
  induction ahead generalizing passed filterAgain with
  | nil =>
    apply Base.yields_of_leave
    simp [filterPass]
  | cons msg ahead ih =>
    have htag := htags msg List.mem_cons_self
    have hrest : ∀ m ∈ ahead, m.getTags ≠ [] := fun m hm ↦ htags m (List.mem_cons_of_mem _ hm)
    have hselected := selected_iff_contains hempty htag
    by_cases hcontains : tagsSet.contains msg.getTags
    · have hpass : filterPass tagsSet ⟨passed, msg :: ahead, filterAgain⟩ =
          .again ⟨passed, ahead, filterAgain ++ [msg]⟩ := by
        simp [filterPass, htag, hcontains]
      have hsel : Selected tagsSet msg := hselected.mpr hcontains
      rw [Base.yields_iff_of_again hpass]
      simpa [hsel] using ih hrest passed (filterAgain ++ [msg])
    · have hpass : filterPass tagsSet ⟨passed, msg :: ahead, filterAgain⟩ =
          .again ⟨passed ++ [msg], ahead, filterAgain⟩ := by
        simp [filterPass, htag, hcontains]
      have hsel : ¬ Selected tagsSet msg := fun h ↦ hcontains (hselected.mp h)
      rw [Base.yields_iff_of_again hpass]
      simpa [hsel] using ih hrest (passed ++ [msg]) filterAgain

/-- What the filter leaves when it meets only messages with a tag. -/
theorem filtersAgain_of_tagged {msgList : List DecodedMessage}
    (htags : tagsSet.isEmpty = true ∨ ∀ msg ∈ msgList, msg.getTags ≠ []) :
    FiltersAgain tagsSet msgList ⟨msgList.filter (¬ Selected tagsSet ·), [],
      msgList.filter (Selected tagsSet ·)⟩ := by
  unfold FiltersAgain
  cases hempty : tagsSet.isEmpty with
  | true =>
    have hall : ∀ msg, Selected tagsSet msg := fun _ ↦ Or.inl hempty
    simp [hall]
  | false =>
    rw [hempty] at htags
    exact yields_filterPass hempty msgList (htags.resolve_left Bool.false_ne_true) [] []

/-- A message without a tag holds the filter up for ever. -/
theorem not_ends_of_untagged {msgList : List DecodedMessage} {msg : DecodedMessage}
    (hmsg : msg ∈ msgList) (htag : msg.getTags = []) :
    ¬ Base.Ends (filterPass tagsSet) ⟨[], msgList, []⟩ := by
  -- the message stays ahead of the iterator
  apply Base.not_ends_of_stuck (fun s ↦ msg ∈ s.ahead) _ hmsg
  rintro ⟨passed, ahead, filterAgain⟩ hahead
  cases ahead with
  | nil => exact absurd hahead List.not_mem_nil
  | cons first ahead =>
    by_cases hfirst : first.getTags = []
    · exact ⟨⟨passed, first :: ahead, filterAgain⟩, by simp [filterPass, hfirst], hahead⟩
    · have hrest : msg ∈ ahead := by
        apply (List.mem_cons.mp hahead).resolve_left
        rintro rfl
        exact hfirst htag
      by_cases hcontains : tagsSet.contains first.getTags
      · exact ⟨_, by simp [filterPass, hfirst, hcontains]; rfl, hrest⟩
      · exact ⟨_, by simp [filterPass, hfirst, hcontains]; rfl, hrest⟩

end Filter

section Messages

variable {projectGroupPrefix : StdString} {pullResult : PullResult}
  {subscriptionData : SubscriptionData} {msgFoundList msgList : List DecodedMessage}

/-- What is done to a selected message. -/
theorem handedOver_finishMessage (msg : DecodedMessage) :
    HandedOver projectGroupPrefix pullResult msg
      (finishMessage projectGroupPrefix pullResult msg) := by
  have hne : Message.propertyMaxOffset ≠ Message.propertyMinOffset := by decide
  constructor
  case minOffset =>
    simp [finishMessage, Message.getProperty_putProperty, hne]
  case maxOffset =>
    simp [finishMessage, Message.getProperty_putProperty]
  case properties =>
    intro name hmin hmax
    simp [finishMessage, Message.getProperty_putProperty, hmin.symm, hmax.symm]
    rfl
  case topic =>
    intro hblank
    simp [finishMessage, hblank, Message.putProperty]
  case rest => rfl

/-- A subscription with tags and a message without one: the pull is not processed. -/
theorem not_processes_of_untagged (hempty : subscriptionData.tagsSet.isEmpty ≠ true)
    {msg : DecodedMessage} (hmsg : msg ∈ msgList) (htag : msg.getTags = []) (out : PulledMessages) :
    ¬ ProcessesPullResult projectGroupPrefix pullResult subscriptionData msgFoundList msgList
      out := by
  rintro ⟨s, hfilters, -⟩
  rw [FiltersAgain, if_neg hempty] at hfilters
  exact not_ends_of_untagged hmsg htag ⟨s, hfilters⟩

/-- A pull is processed as it should be exactly when no message without a tag meets a subscription
with tags. -/
theorem selectsExactly_iff (projectGroupPrefix : StdString) (pullResult : PullResult)
    (subscriptionData : SubscriptionData) (msgFoundList msgList : List DecodedMessage) :
    SelectsExactly projectGroupPrefix pullResult subscriptionData msgFoundList msgList ↔
      subscriptionData.tagsSet.isEmpty = true ∨ ∀ msg ∈ msgList, msg.getTags ≠ [] := by
  constructor
  · rintro ⟨out, found, hprocesses, -⟩
    by_contra hnot
    rw [not_or] at hnot
    apply hnot.2
    intro msg hmsg htag
    exact not_processes_of_untagged hnot.1 hmsg htag out hprocesses
  · intro htags
    refine ⟨⟨msgFoundList ++ _, _, _⟩, _,
      ⟨_, filtersAgain_of_tagged htags, rfl, rfl, rfl⟩, rfl, ?_, List.append_nil _⟩
    rw [List.forall₂_map_right_iff]
    exact List.forall₂_same.mpr fun msg _ ↦ handedOver_finishMessage msg

end Messages

/-- A message of topic `t` that was sent without a tag. -/
def untagged : DecodedMessage where
  topic := str "t"
  flag := 0
  properties := MessageDecoder.defaultProperties
  body := some (str "x")
  queueOffset := 0
  commitLogOffset := 0
  bornTimestamp := 0
  storeTimestamp := 0
  preparedTransactionOffset := 0
  queueId := 0
  storeSize := 0
  sysFlag := 0
  bodyCRC := 0
  reconsumeTimes := 0
  bornHost := ⟨[10, 0, 0, 1], 1⟩
  storeHost := ⟨[10, 0, 0, 2], 2⟩
  msgId := []

/-- It is pulled for a subscription to one tag, and the pull is never done with. -/
theorem untagged_not_selected :
    ¬ SelectsExactly [] ⟨.found, 1, 0, 1, 0⟩ ⟨str "t", str "a", {str "a"}, ∅, 0⟩ []
      [untagged] := by
  rintro ⟨out, found, hprocesses, -⟩
  exact not_processes_of_untagged (by decide) (List.mem_singleton_self _) (by decide) out
    hprocesses

end PullAPIWrapper
end RocketMQ
