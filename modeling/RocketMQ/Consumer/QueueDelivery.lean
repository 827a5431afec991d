import RocketMQ.Consumer.AtLeastOnce
import RocketMQ.Consumer.FilterAgain

/-!
# From the broker's queue to the stored offset

The one `PullRequest` of a queue goes from reply to reply,
`src/consumer/DefaultMQPushConsumerImpl.cpp:803–882`; what a reply brings is filtered again and
consumed as `BatchConsumption` says, while the broker appends to the queue and deletes from its
front. A message of the subscription that is still on the broker is consumed before the offset
that is stored goes past it.
-/

namespace RocketMQ

/-- A queue on its broker: the messages ever appended, in the order of their offsets, the lowest
offset that has not been deleted and the next one to be given. -/
structure BrokerQueue where
  log : List DecodedMessage
  minOffset : Int
  maxOffset : Int
  sorted : log.Pairwise (·.queueOffset < ·.queueOffset)
  log_lt : ∀ msg ∈ log, msg.queueOffset < maxOffset
  min_le : minOffset ≤ maxOffset

namespace BrokerQueue

/-- A message goes to the end. -/
def append (q : BrokerQueue) (msg : DecodedMessage) (hmsg : msg.queueOffset = q.maxOffset) :
    BrokerQueue where
  log := q.log ++ [msg]
  minOffset := q.minOffset
  maxOffset := q.maxOffset + 1
  sorted := by
    refine List.pairwise_append.mpr ⟨q.sorted, List.pairwise_singleton _ _, ?_⟩
    intro a ha b hb
    rw [List.mem_singleton.mp hb, hmsg]
    exact q.log_lt a ha
  log_lt a ha := by
    rcases List.mem_append.mp ha with ha | ha
    · have := q.log_lt a ha
      omega
    · rw [List.mem_singleton.mp ha]
      omega
  min_le := by
    have := q.min_le
    omega

/-- Everything below an offset is deleted. -/
def expire (q : BrokerQueue) (minOffset : Int) (hmin : minOffset ≤ q.maxOffset) : BrokerQueue :=
  { q with minOffset, min_le := hmin }

/-- The messages between two offsets. -/
def segment (q : BrokerQueue) (first last : Int) : List DecodedMessage :=
  q.log.filter fun msg ↦ first ≤ msg.queueOffset ∧ msg.queueOffset < last

end BrokerQueue

/-- The queue on its broker, the `PullRequest`, and the consumption. -/
structure QueueDelivery where
  broker : BrokerQueue
  pullRequest : PullRequest
  consumption : BatchConsumption

/-- The broker appends or deletes, a reply arrives, or the service takes a step. A reply has the
messages that the broker chose, and the objects made of those that the filter leaves. -/
inductive DeliveryEvent where
  | append (msg : DecodedMessage)
  | expire (minOffset : Int)
  | found (nextBeginOffset : Int) (chosen : DecodedMessage → Bool) (msgs : List MessageExt)
  | noNewMsg (nextBeginOffset : Int)
  | noMatchedMsg (nextBeginOffset : Int)
  | offsetIllegal (minOffset maxOffset : Int)
  | consume (e : BatchEvent)

namespace QueueDelivery

/-- The broker answers for the offsets from the one asked for up to `nextBeginOffset`, with at
least the messages of the subscription. -/
def Answers (tagsSet : Std.ExtTreeSet StdString) (s : QueueDelivery) (nextBeginOffset : Int)
    (chosen : DecodedMessage → Bool) : Prop :=
  s.pullRequest.nextOffset ≤ nextBeginOffset ∧ nextBeginOffset ≤ s.broker.maxOffset ∧
    ∀ msg ∈ s.broker.segment s.pullRequest.nextOffset nextBeginOffset,
      PullAPIWrapper.Selected tagsSet msg → chosen msg = true

instance (tagsSet : Std.ExtTreeSet StdString) (s : QueueDelivery) (nextBeginOffset : Int)
    (chosen : DecodedMessage → Bool) : Decidable (s.Answers tagsSet nextBeginOffset chosen) :=
  inferInstanceAs (Decidable (_ ∧ _ ∧ _))

/-- The messages of a reply. -/
def replied (s : QueueDelivery) (nextBeginOffset : Int) (chosen : DecodedMessage → Bool) :
    List DecodedMessage :=
  (s.broker.segment s.pullRequest.nextOffset nextBeginOffset).filter chosen

/-- The filter of `processPullResult` comes to its end, and has these objects to put. -/
def Filters (tagsSet : Std.ExtTreeSet StdString) (msgList : List DecodedMessage)
    (msgs : List MessageExt) : Prop :=
  (tagsSet.isEmpty = true ∨ ∀ msg ∈ msgList, msg.getTags ≠ []) ∧
    offsets msgs =
      (msgList.filter (PullAPIWrapper.Selected tagsSet ·)).map MessageDecoder.MessageExt.queueOffset

instance (tagsSet : Std.ExtTreeSet StdString) (msgList : List DecodedMessage)
    (msgs : List MessageExt) : Decidable (Filters tagsSet msgList msgs) :=
  inferInstanceAs (Decidable ((_ ∨ _) ∧ _))

/-- The offset store, with an entry written by a reply. -/
def withStore (s : QueueDelivery) (store : RemoteBrokerOffsetStore) : QueueDelivery :=
  { s with consumption := { s.consumption with queue := { s.consumption.queue with store } } }

/-- One step. A pull that fails leaves everything as it is. An offset is illegal only when it has
been deleted. -/
def step (config : BatchConfig) (tagsSet : Std.ExtTreeSet StdString) (s : QueueDelivery) :
    DeliveryEvent → Option QueueDelivery
  | .append msg =>
    if h : msg.queueOffset = s.broker.maxOffset then
      some { s with broker := s.broker.append msg h }
    else none
  | .expire minOffset =>
    if h : s.broker.minOffset ≤ minOffset ∧ minOffset ≤ s.broker.maxOffset then
      some { s with broker := s.broker.expire minOffset h.2 }
    else none
  | .found nextBeginOffset chosen msgs =>
    if s.Answers tagsSet nextBeginOffset chosen ∧
        Filters tagsSet (s.replied nextBeginOffset chosen) msgs ∧
        ((s.consumption.held ++ msgs).map MessageExt.address).Nodup then
      some { s with
        pullRequest := { s.pullRequest with nextOffset := nextBeginOffset }
        consumption := s.consumption.received msgs }
    else none
  | .noNewMsg nextBeginOffset =>
    if s.Answers tagsSet nextBeginOffset fun _ ↦ false then
      let pullRequest := { s.pullRequest with nextOffset := nextBeginOffset }
      some ({ s with pullRequest }.withStore (correctTagsOffset s.consumption.queue.store
        pullRequest s.consumption.queue.pq.msgCount))
    else none
  | .noMatchedMsg nextBeginOffset =>
    if s.Answers tagsSet nextBeginOffset fun _ ↦ false then
      some { s with pullRequest := { s.pullRequest with nextOffset := nextBeginOffset } }
    else none
  | .offsetIllegal minOffset maxOffset =>
    if s.pullRequest.nextOffset < minOffset ∧ minOffset ≤ s.broker.minOffset then
      let nextOffset := fixNextOffset s.pullRequest.nextOffset minOffset maxOffset
      some ({ s with pullRequest := { s.pullRequest with nextOffset } }.withStore
        (s.consumption.queue.store.updateOffset s.pullRequest.messageQueue nextOffset false))
    else none
  | .consume (.putMessage _) => none
  | .consume e =>
    (s.consumption.step config s.pullRequest.messageQueue e).map fun consumption ↦
      { s with consumption }

/-- The entry of the queue in the offset table, and the offsets on their way to it. -/
def register (s : QueueDelivery) : Base.MaxRegister Int :=
  s.consumption.queue.register s.pullRequest.messageQueue

/-- What has been pulled of the subscription is in the hands of the consumption, and no offset to be
stored goes past a message it still has, unless the broker has deleted the message. -/
structure Sound (tagsSet : Std.ExtTreeSet StdString) (first : Int) (s : QueueDelivery) :
    Prop where
  kept : s.consumption.Kept
  next_le : s.pullRequest.nextOffset ≤ s.broker.maxOffset
  put_sorted : s.consumption.queue.put.Pairwise (· < ·)
  put_lt : ∀ o ∈ s.consumption.queue.put, o < s.pullRequest.nextOffset
  put_selected : ∀ o ∈ s.consumption.queue.put, ∃ msg ∈ s.broker.log,
    msg.queueOffset = o ∧ PullAPIWrapper.Selected tagsSet msg
  pulled : ∀ msg ∈ s.broker.log, first ≤ msg.queueOffset →
    msg.queueOffset < s.pullRequest.nextOffset → PullAPIWrapper.Selected tagsSet msg →
      msg.queueOffset ∈ s.consumption.queue.put ∨ msg.queueOffset < s.broker.minOffset
  queueOffsetMax : s.consumption.queue.put ≠ [] →
    s.consumption.queue.pq.queueOffsetMax < s.pullRequest.nextOffset
  below_next : s.register.Below s.pullRequest.nextOffset
  below_waiting : ∀ o ∈ s.consumption.queue.pq.waiting,
    o < s.broker.minOffset ∨ s.register.Below o

/-- The consumption of a queue begins. -/
def start (broker : BrokerQueue) (pullRequest : PullRequest) (now : Nat)
    (store : RemoteBrokerOffsetStore) : QueueDelivery :=
  ⟨broker, pullRequest, .start pullRequest.messageQueue now store⟩

section Rules

variable {config : BatchConfig} {tagsSet : Std.ExtTreeSet StdString} {first : Int}
  {s s' : QueueDelivery}

theorem sound_start {broker : BrokerQueue} {pullRequest : PullRequest} {now : Nat}
    {store : RemoteBrokerOffsetStore} (hnext : pullRequest.nextOffset ≤ broker.maxOffset)
    (hstored : ∀ v, store.offsetTable[pullRequest.messageQueue]? = some v →
      v ≤ pullRequest.nextOffset) :
    (start broker pullRequest now store).Sound tagsSet pullRequest.nextOffset where
  kept := BatchConsumption.kept_start now store
  next_le := hnext
  put_sorted := List.Pairwise.nil
  put_lt o ho := absurd ho List.not_mem_nil
  put_selected o ho := absurd ho List.not_mem_nil
  pulled msg _ hle hlt := absurd hlt (not_lt.mpr hle)
  queueOffsetMax h := absurd rfl h
  below_next := ⟨hstored, fun v hv ↦ absurd hv List.not_mem_nil⟩
  below_waiting o ho := by
    simp [start, BatchConsumption.start, ConcurrentState.start, ProcessQueue.waiting,
      ProcessQueue.new] at ho

/-- A reply that leaves nothing out. -/
theorem Sound.pulled_of_answers (h : s.Sound tagsSet first) {nextBeginOffset : Int}
    {chosen : DecodedMessage → Bool} (hanswers : s.Answers tagsSet nextBeginOffset chosen)
    {msg : DecodedMessage} (hmsg : msg ∈ s.broker.log) (hfirst : first ≤ msg.queueOffset)
    (hlt : msg.queueOffset < nextBeginOffset) (hselected : PullAPIWrapper.Selected tagsSet msg) :
    (msg.queueOffset ∈ s.consumption.queue.put ∨ msg.queueOffset < s.broker.minOffset) ∨
      msg ∈ (s.replied nextBeginOffset chosen).filter (PullAPIWrapper.Selected tagsSet ·) := by
  by_cases hold : msg.queueOffset < s.pullRequest.nextOffset
  · exact .inl (h.pulled msg hmsg hfirst hold hselected)
  · have hsegment : msg ∈ s.broker.segment s.pullRequest.nextOffset nextBeginOffset := by
      rw [BrokerQueue.segment, List.mem_filter, decide_eq_true_eq]
      exact ⟨hmsg, not_lt.mp hold, hlt⟩
    refine .inr (List.mem_filter.mpr ⟨List.mem_filter.mpr ⟨hsegment, ?_⟩, ?_⟩)
    · exact hanswers.2.2 msg hsegment hselected
    · exact decide_eq_true hselected

/-- The highest offset of a buffer after a put. -/
theorem foldl_queueOffset_lt {msgs : List MessageExt} {init bound : Int}
    (hmsgs : ∀ o ∈ offsets msgs, o < bound) (hinit : msgs = [] → init < bound) :
    msgs.foldl (fun _ msg ↦ msg.queueOffset) init < bound := by
  induction msgs generalizing init with
  | nil => exact hinit rfl
  | cons msg msgs ih =>
    rw [offsets_cons] at hmsgs
    exact ih (fun o ho ↦ hmsgs o (List.mem_cons_of_mem _ ho))
      fun _ ↦ hmsgs _ List.mem_cons_self

theorem Sound.found (h : s.Sound tagsSet first) {nextBeginOffset : Int}
    {chosen : DecodedMessage → Bool} {msgs : List MessageExt}
    (hanswers : s.Answers tagsSet nextBeginOffset chosen)
    (hfilters : Filters tagsSet (s.replied nextBeginOffset chosen) msgs)
    (haddresses : ((s.consumption.held ++ msgs).map MessageExt.address).Nodup) :
    ({ s with
      pullRequest := { s.pullRequest with nextOffset := nextBeginOffset }
      consumption := s.consumption.received msgs } : QueueDelivery).Sound tagsSet first := by
  obtain ⟨hrange, hmax, -⟩ := id hanswers
  have hoffsets := hfilters.2
  have hsub : ((s.replied nextBeginOffset chosen).filter
      (PullAPIWrapper.Selected tagsSet ·)).Sublist s.broker.log :=
    List.filter_sublist.trans (List.filter_sublist.trans List.filter_sublist)
  have hsorted : (offsets msgs).Pairwise (· < ·) := by
    rw [hoffsets, List.pairwise_map]
    exact s.broker.sorted.sublist hsub
  have hmem : ∀ o ∈ offsets msgs, s.pullRequest.nextOffset ≤ o ∧ o < nextBeginOffset ∧
      ∃ msg ∈ s.broker.log, msg.queueOffset = o ∧ PullAPIWrapper.Selected tagsSet msg := by
    intro o ho
    rw [hoffsets] at ho
    obtain ⟨msg, hmsg, rfl⟩ := List.mem_map.mp ho
    obtain ⟨hreplied, hselected⟩ := List.mem_filter.mp hmsg
    have hsegment := (List.mem_filter.mp hreplied).1
    rw [BrokerQueue.segment, List.mem_filter, decide_eq_true_eq] at hsegment
    exact ⟨hsegment.2.1, hsegment.2.2, msg, hsegment.1, rfl, of_decide_eq_true hselected⟩
  have hwaiting (o : Int) : o ∈ (s.consumption.received msgs).queue.pq.waiting ↔
      o ∈ offsets msgs ∨ o ∈ s.consumption.queue.pq.waiting :=
    ProcessQueue.mem_waiting_putMessage _ _
  constructor
  case kept =>
    refine h.kept.received hsorted (fun o ho p hp ↦ ?_) haddresses
    exact (h.put_lt p hp).trans_le (hmem o ho).1
  case next_le => exact hmax
  case put_sorted =>
    refine List.pairwise_append.mpr ⟨h.put_sorted, hsorted, fun p hp o ho ↦ ?_⟩
    exact (h.put_lt p hp).trans_le (hmem o ho).1
  case put_lt =>
    intro o ho
    rcases List.mem_append.mp ho with hold | hnew
    · exact (h.put_lt o hold).trans_le hrange
    · exact (hmem o hnew).2.1
  case put_selected =>
    intro o ho
    rcases List.mem_append.mp ho with hold | hnew
    · exact h.put_selected o hold
    · exact (hmem o hnew).2.2
  case pulled =>
    intro msg hmsg hfirst hlt hselected
    rcases h.pulled_of_answers hanswers hmsg hfirst hlt hselected with (hput | hexpired) | hnew
    · exact .inl (List.mem_append_left _ hput)
    · exact .inr hexpired
    · refine .inl (List.mem_append_right _ ?_)
      rw [hoffsets]
      exact List.mem_map_of_mem hnew
  case queueOffsetMax =>
    intro hput
    refine (ProcessQueue.queueOffsetMax_putMessage _ _).trans_lt
      (foldl_queueOffset_lt (fun o ho ↦ (hmem o ho).2.1) fun hnil ↦ ?_)
    subst hnil
    have hold : s.consumption.queue.put ≠ [] := by
      rintro hnone
      exact hput (by rw [BatchConsumption.received, hnone]; rfl)
    exact (h.queueOffsetMax hold).trans_le hrange
  case below_next => exact h.below_next.mono hrange
  case below_waiting =>
    intro o ho
    rcases (hwaiting o).mp ho with hnew | hold
    · exact .inr (h.below_next.mono (hmem o hnew).1)
    · exact h.below_waiting o hold

/-- The request moves on over offsets without messages that are still to be pulled. -/
theorem Sound.moveTo (h : s.Sound tagsSet first) {nextOffset : Int}
    (hle : s.pullRequest.nextOffset ≤ nextOffset) (hmax : nextOffset ≤ s.broker.maxOffset)
    (hpulled : ∀ msg ∈ s.broker.log, first ≤ msg.queueOffset → msg.queueOffset < nextOffset →
      PullAPIWrapper.Selected tagsSet msg →
        msg.queueOffset ∈ s.consumption.queue.put ∨ msg.queueOffset < s.broker.minOffset) :
    ({ s with pullRequest := { s.pullRequest with nextOffset } } : QueueDelivery).Sound tagsSet
      first :=
  ⟨h.kept, hmax, h.put_sorted, fun o ho ↦ (h.put_lt o ho).trans_le hle, h.put_selected, hpulled,
    fun hput ↦ (h.queueOffsetMax hput).trans_le hle, h.below_next.mono hle, h.below_waiting⟩

/-- A reply without messages has none of the subscription. -/
theorem Sound.moveOn (h : s.Sound tagsSet first) {nextBeginOffset : Int}
    (hanswers : s.Answers tagsSet nextBeginOffset fun _ ↦ false) :
    ({ s with pullRequest := { s.pullRequest with nextOffset := nextBeginOffset } } :
      QueueDelivery).Sound tagsSet first := by
  refine h.moveTo hanswers.1 hanswers.2.1 fun msg hmsg hfirst hlt hselected ↦ ?_
  refine (h.pulled_of_answers hanswers hmsg hfirst hlt hselected).resolve_right fun hnew ↦ ?_
  have hreplied := (List.mem_filter.mp hnew).1
  exact absurd (List.mem_filter.mp hreplied).2 Bool.false_ne_true

/-- An entry that goes past nothing. -/
theorem Sound.withStore (h : s.Sound tagsSet first) {store : RemoteBrokerOffsetStore}
    (hstore : ∀ v, store.offsetTable[s.pullRequest.messageQueue]? = some v →
      v ≤ s.pullRequest.nextOffset ∧
        ∀ o ∈ s.consumption.queue.pq.waiting, o < s.broker.minOffset ∨ v ≤ o) :
    (s.withStore store).Sound tagsSet first where
  kept := ⟨h.kept.accounted, h.kept.buffered, h.kept.buffered_put, h.kept.counted,
    h.kept.offsets_nodup, h.kept.addresses_nodup⟩
  next_le := h.next_le
  put_sorted := h.put_sorted
  put_lt := h.put_lt
  put_selected := h.put_selected
  pulled := h.pulled
  queueOffsetMax := h.queueOffsetMax
  below_next := ⟨fun v hv ↦ (hstore v hv).1, h.below_next.pending⟩
  below_waiting o ho := by
    rcases h.below_waiting o ho with hexpired | hbelow
    · exact .inl hexpired
    · by_cases hexpired : o < s.broker.minOffset
      · exact .inl hexpired
      · exact .inr ⟨fun v hv ↦ ((hstore v hv).2 o ho).resolve_left hexpired, hbelow.pending⟩

/-- What the store holds goes past nothing. -/
theorem Sound.stored_le (h : s.Sound tagsSet first) {v : Int}
    (hv : s.consumption.queue.store.offsetTable[s.pullRequest.messageQueue]? = some v) :
    v ≤ s.pullRequest.nextOffset ∧
      ∀ o ∈ s.consumption.queue.pq.waiting, o < s.broker.minOffset ∨ v ≤ o :=
  ⟨h.below_next.value v hv, fun o ho ↦ (h.below_waiting o ho).imp_right fun hb ↦ hb.value v hv⟩

/-- An empty buffer is what `correctTagsOffset` looks for. -/
theorem Sound.correctTagsOffset (h : s.Sound tagsSet first) :
    (s.withStore (correctTagsOffset s.consumption.queue.store s.pullRequest
      s.consumption.queue.pq.msgCount)).Sound tagsSet first := by
  refine h.withStore fun v hv ↦ ?_
  rw [RocketMQ.correctTagsOffset] at hv
  split at hv
  · next hcount =>
    have hheld : s.consumption.held = [] := by
      have hcounted := h.kept.counted
      exact List.length_eq_zero_iff.mp (by omega)
    have hwaiting : ∀ o, o ∉ s.consumption.queue.pq.waiting := by
      intro o ho
      rw [h.kept.buffered, hheld] at ho
      exact List.not_mem_nil ho
    refine ⟨?_, fun o ho ↦ absurd ho (hwaiting o)⟩
    rw [RemoteBrokerOffsetStore.getElem?_updateOffset, if_pos rfl] at hv
    obtain rfl := Option.some.inj hv
    split
    · next current hcurrent => exact max_le (h.stored_le hcurrent).1 le_rfl
    · exact le_rfl
  · exact h.stored_le hv

/-- The request goes on where the queue still has messages. -/
theorem Sound.offsetIllegal (h : s.Sound tagsSet first) {minOffset : Int}
    (hlt : s.pullRequest.nextOffset < minOffset) (hmin : minOffset ≤ s.broker.minOffset) :
    ({ s with pullRequest := { s.pullRequest with nextOffset := minOffset } }.withStore
      (s.consumption.queue.store.updateOffset s.pullRequest.messageQueue minOffset false)).Sound
        tagsSet first := by
  have hmoved := h.moveTo hlt.le (hmin.trans s.broker.min_le) fun msg hmsg hfirst hbelow hsel ↦ by
    by_cases hold : msg.queueOffset < s.pullRequest.nextOffset
    · exact h.pulled msg hmsg hfirst hold hsel
    · exact .inr (hbelow.trans_le hmin)
  refine hmoved.withStore fun v hv ↦ ?_
  rw [RemoteBrokerOffsetStore.getElem?_updateOffset, if_pos rfl] at hv
  obtain rfl := Option.some.inj hv
  refine ⟨by split <;> exact le_rfl, fun o ho ↦ .inl ?_⟩
  exact ((h.put_lt o (h.kept.buffered_put o ho)).trans hlt).trans_le hmin

/-- A consumption that puts nothing, and whose offsets go past nothing. -/
theorem Sound.of_consumption (h : s.Sound tagsSet first) {consumption : BatchConsumption}
    (hkept : consumption.Kept) (hput : consumption.queue.put = s.consumption.queue.put)
    (hwaiting : ∀ o ∈ consumption.queue.pq.waiting, o ∈ s.consumption.queue.pq.waiting)
    (hmax : consumption.queue.pq.queueOffsetMax = s.consumption.queue.pq.queueOffsetMax)
    (hbelow : ∀ b, b = s.pullRequest.nextOffset ∨ b ∈ consumption.queue.pq.waiting →
      s.register.Below b → (consumption.queue.register s.pullRequest.messageQueue).Below b) :
    ({ s with consumption } : QueueDelivery).Sound tagsSet first where
  kept := hkept
  next_le := h.next_le
  put_sorted := hput ▸ h.put_sorted
  put_lt := hput ▸ h.put_lt
  put_selected := hput ▸ h.put_selected
  pulled := hput ▸ h.pulled
  queueOffsetMax hne := hmax ▸ h.queueOffsetMax (hput ▸ hne)
  below_next := hbelow _ (.inl rfl) h.below_next
  below_waiting o ho := (h.below_waiting o (hwaiting o ho)).imp_right (hbelow o (.inr ho))

/-- The offset that a removal computes goes past nothing. -/
theorem Sound.removeMessage_le (h : s.Sound tagsSet first) {msgs : List MessageExt} {b : Int}
    (hb : b = s.pullRequest.nextOffset ∨
      b ∈ (s.consumption.queue.pq.removeMessage msgs).1.waiting)
    (hpos : 0 ≤ (s.consumption.queue.pq.removeMessage msgs).2) :
    (s.consumption.queue.pq.removeMessage msgs).2 ≤ b := by
  have hv := s.consumption.queue.pq.removeMessage_snd msgs
  have hsorted := (s.consumption.queue.pq.removeMessage msgs).1.waiting_sorted
  cases hw : (s.consumption.queue.pq.removeMessage msgs).1.waiting with
  | nil =>
    rw [hw, List.head?_nil] at hv
    rw [hw] at hb
    obtain rfl := hb.resolve_right List.not_mem_nil
    by_cases hempty : s.consumption.queue.pq.waiting = []
    · simp only [hempty, if_true] at hv
      omega
    · simp only [hempty, if_false] at hv
      obtain ⟨o, ho⟩ := List.exists_mem_of_ne_nil _ hempty
      have hmax := h.queueOffsetMax (List.ne_nil_of_mem (h.kept.buffered_put o ho))
      omega
  | cons lowest rest =>
    rw [hw, List.head?_cons] at hv
    rw [hw] at hb hsorted
    have hlowest : lowest ∈ s.consumption.queue.pq.waiting := by
      refine ((s.consumption.queue.pq.mem_waiting_removeMessage msgs).mp ?_).2
      rw [hw]
      exact List.mem_cons_self
    have hlt := h.put_lt lowest (h.kept.buffered_put lowest hlowest)
    rw [hv]
    rcases hb with rfl | hmem
    · exact hlt.le
    · rcases List.mem_cons.mp hmem with rfl | hrest
      · exact le_rfl
      · exact ((List.pairwise_cons.mp hsorted).1 b hrest).le

/-- A step of the service other than a put. -/
theorem Sound.consume (h : s.Sound tagsSet first) {e : BatchEvent}
    (hput : ∀ msgs, e ≠ .putMessage msgs) {consumption : BatchConsumption}
    (hstep : s.consumption.step config s.pullRequest.messageQueue e = some consumption) :
    ({ s with consumption } : QueueDelivery).Sound tagsSet first := by
  have hkept := BatchConsumption.kept_step _ e _ h.kept hstep
  rcases BatchConsumption.queue_step hstep with ⟨msgs, he, -⟩ | hsame | ⟨msgs, hremoved⟩ |
    ⟨v, hupdate⟩
  · exact absurd he (hput msgs)
  · exact h.of_consumption hkept (by rw [hsame]) (by simp [hsame]) (by rw [hsame])
      fun b _ hb ↦ hsame ▸ hb
  · refine h.of_consumption hkept (by rw [hremoved]) ?_ ?_ ?_
    · rw [hremoved]
      exact fun o ho ↦ ((s.consumption.queue.pq.mem_waiting_removeMessage msgs).mp ho).2
    · rw [hremoved]
      exact s.consumption.queue.pq.queueOffsetMax_removeMessage msgs
    · rw [hremoved]
      intro b hb hbelow
      refine ⟨hbelow.value, fun w hw ↦ ?_⟩
      rcases List.mem_append.mp hw with hnew | hold
      · split at hnew
        · next hpos =>
          obtain rfl := (List.mem_singleton.mp hnew)
          exact h.removeMessage_le hb hpos
        · exact absurd hnew List.not_mem_nil
      · exact hbelow.pending w hold
  · simp only [ConcurrentState.step, Option.ite_none_right_eq_some, Option.some.injEq] at hupdate
    obtain ⟨hv, hqueue⟩ := hupdate
    refine h.of_consumption hkept (by rw [← hqueue]) (by simp [← hqueue]) (by rw [← hqueue]) ?_
    intro b _ hbelow
    rw [← hqueue, ConcurrentState.register_updateOffset]
    exact hbelow.deliver hv

theorem sound_step (s : QueueDelivery) (e : DeliveryEvent) (s' : QueueDelivery)
    (h : s.Sound tagsSet first) (hstep : s.step config tagsSet e = some s') :
    s'.Sound tagsSet first := by
  cases e with
  | append msg =>
    simp only [step, Option.dite_none_right_eq_some, Option.some.injEq] at hstep
    obtain ⟨hmsg, rfl⟩ := hstep
    refine ⟨h.kept, ?_, h.put_sorted, h.put_lt, fun o ho ↦ ?_, ?_, h.queueOffsetMax,
      h.below_next, h.below_waiting⟩
    · exact h.next_le.trans (Int.le_add_one le_rfl)
    · obtain ⟨found, hfound, hselected⟩ := h.put_selected o ho
      exact ⟨found, List.mem_append_left _ hfound, hselected⟩
    · intro found hfound hfirst hlt hselected
      rcases List.mem_append.mp hfound with hold | hnew
      · exact h.pulled found hold hfirst hlt hselected
      · obtain rfl := List.mem_singleton.mp hnew
        exact absurd (hlt.trans_le (h.next_le.trans_eq hmsg.symm)) (lt_irrefl _)
  | expire minOffset =>
    simp only [step, Option.dite_none_right_eq_some, Option.some.injEq] at hstep
    obtain ⟨⟨hmin, hmax⟩, rfl⟩ := hstep
    refine ⟨h.kept, h.next_le, h.put_sorted, h.put_lt, h.put_selected, ?_, h.queueOffsetMax,
      h.below_next, fun o ho ↦ ?_⟩
    · intro found hfound hfirst hlt hselected
      exact (h.pulled found hfound hfirst hlt hselected).imp_right fun hexpired ↦
        hexpired.trans_le hmin
    · exact (h.below_waiting o ho).imp_left fun hexpired ↦ hexpired.trans_le hmin
  | found nextBeginOffset chosen msgs =>
    simp only [step, Option.ite_none_right_eq_some, Option.some.injEq] at hstep
    obtain ⟨⟨hanswers, hfilters, haddresses⟩, rfl⟩ := hstep
    exact h.found hanswers hfilters haddresses
  | noNewMsg nextBeginOffset =>
    simp only [step, Option.ite_none_right_eq_some, Option.some.injEq] at hstep
    obtain ⟨hanswers, rfl⟩ := hstep
    exact (h.moveOn hanswers).correctTagsOffset
  | noMatchedMsg nextBeginOffset =>
    simp only [step, Option.ite_none_right_eq_some, Option.some.injEq] at hstep
    obtain ⟨hanswers, rfl⟩ := hstep
    exact h.moveOn hanswers
  | offsetIllegal minOffset maxOffset =>
    simp only [step, Option.ite_none_right_eq_some, Option.some.injEq] at hstep
    obtain ⟨⟨hlt, hmin⟩, rfl⟩ := hstep
    rw [fixNextOffset, if_pos hlt]
    exact h.offsetIllegal hlt hmin
  | consume e =>
    cases e with
    | putMessage msgs => cases hstep
    | _ =>
      simp only [step, Option.map_eq_some_iff] at hstep
      obtain ⟨consumption, hconsume, rfl⟩ := hstep
      refine h.consume ?_ hconsume
      exact fun _ ↦ nofun

/-- The `PullRequest` stays with its queue. -/
theorem messageQueue_step (s : QueueDelivery) (e : DeliveryEvent) (s' : QueueDelivery)
    {mq : MessageQueue} (h : s.pullRequest.messageQueue = mq)
    (hstep : s.step config tagsSet e = some s') : s'.pullRequest.messageQueue = mq := by
  cases e with
  | append msg | expire minOffset =>
    simp only [step, Option.dite_none_right_eq_some, Option.some.injEq] at hstep
    obtain ⟨-, rfl⟩ := hstep
    exact h
  | consume e =>
    cases e with
    | putMessage msgs => cases hstep
    | _ =>
      simp only [step, Option.map_eq_some_iff] at hstep
      obtain ⟨consumption, -, rfl⟩ := hstep
      exact h
  | _ =>
    simp only [step, Option.ite_none_right_eq_some, Option.some.injEq] at hstep
    obtain ⟨-, rfl⟩ := hstep
    exact h

/-- What is put is what the filter of `processPullResult` hands over. -/
theorem filtersAgain_of_filters {msgList : List DecodedMessage} {msgs : List MessageExt}
    (h : Filters tagsSet msgList msgs) : ∃ filtered,
      PullAPIWrapper.FiltersAgain tagsSet msgList filtered ∧
        offsets msgs = filtered.filterAgain.map MessageDecoder.MessageExt.queueOffset :=
  ⟨_, PullAPIWrapper.filtersAgain_of_tagged h.1, h.2⟩

/-- **Delivery**: in every interleaving of the broker, the replies and the service, the offsets put
are ascending and belong to messages of the subscription, each message put is settled or
outstanding, once, and of the messages of the subscription that the broker still has and that
are not below the first offset, all those below the stored offset are settled. -/
theorem delivers {broker : BrokerQueue} {pullRequest : PullRequest} {now : Nat}
    {store : RemoteBrokerOffsetStore} {es : List DeliveryEvent}
    (hnext : pullRequest.nextOffset ≤ broker.maxOffset)
    (hstored : ∀ v, store.offsetTable[pullRequest.messageQueue]? = some v →
      v ≤ pullRequest.nextOffset)
    (hrun : Base.runFrom (step config tagsSet) (start broker pullRequest now store) es = some s) :
    s.consumption.queue.put.Pairwise (· < ·) ∧
      (∀ o ∈ s.consumption.queue.put, ∃ msg ∈ s.broker.log,
        msg.queueOffset = o ∧ PullAPIWrapper.Selected tagsSet msg) ∧
      s.consumption.queue.put.Perm
        (offsets (s.consumption.settled ++ s.consumption.outstanding)) ∧
      ∀ v, s.consumption.queue.store.offsetTable[pullRequest.messageQueue]? = some v →
        ∀ msg ∈ s.broker.log, PullAPIWrapper.Selected tagsSet msg →
          s.broker.minOffset ≤ msg.queueOffset → pullRequest.nextOffset ≤ msg.queueOffset →
            msg.queueOffset < v → msg.queueOffset ∈ offsets s.consumption.settled := by
  have h : s.Sound tagsSet pullRequest.nextOffset :=
    Base.inv_of_runFrom sound_step (sound_start hnext hstored) hrun
  have hkeep : ∀ s e t, s.pullRequest.messageQueue = pullRequest.messageQueue →
      step config tagsSet s e = some t → t.pullRequest.messageQueue = pullRequest.messageQueue :=
    fun s e t ↦ messageQueue_step s e t
  have hmq := Base.inv_of_runFrom hkeep rfl hrun
  refine ⟨h.put_sorted, h.put_selected, h.kept.accounted, ?_⟩
  intro v hv msg hmsg hselected hmin hfirst hlt
  rw [← hmq] at hv
  obtain ⟨hnext, hwaiting⟩ := h.stored_le hv
  have hput := (h.pulled msg hmsg hfirst (hlt.trans_le hnext) hselected).resolve_right
    (not_lt.mpr hmin)
  have hmem := h.kept.accounted.mem_iff.mp hput
  rw [offsets, List.map_append, List.mem_append] at hmem
  refine hmem.resolve_right fun hout ↦ ?_
  have hbuffered : msg.queueOffset ∈ s.consumption.queue.pq.waiting := by
    rw [h.kept.buffered, offsets, BatchConsumption.held, List.map_append, List.mem_append]
    exact .inl hout
  rcases hwaiting _ hbuffered with hexpired | hle
  · exact absurd hexpired (not_lt.mpr hmin)
  · exact absurd hle (not_le.mpr hlt)

end Rules

/-- A message with a tag. -/
def tagged (offset : Int) (tags : StdString) : DecodedMessage :=
  { PullAPIWrapper.untagged with
    toMessage := PullAPIWrapper.untagged.toMessage.putProperty Message.propertyTags tags
    queueOffset := offset }

/-- Three messages, the second one with another tag. -/
def mixed : BrokerQueue where
  log := [tagged 0 (str "a"), tagged 1 (str "b"), tagged 2 (str "a")]
  minOffset := 0
  maxOffset := 3
  sorted := by decide
  log_lt := by decide
  min_le := by decide

/-- All three are pulled; of the two left the first is acknowledged and the second sent back. -/
def delivering : List DeliveryEvent :=
  [.found 3 (fun _ ↦ true) [.at 0, .at 2], .consume (.submitConsumeRequest 0),
    .consume (.isDropped 0), .consume (.consumeMessage 0 .consumeSuccess 0 fun _ ↦ true),
    .consume (.removeMessage 0), .consume (.updateOffset 3), .noNewMsg 3]

/-- The request before the first pull. -/
def firstRequest : PullRequest := ⟨str "g", ⟨str "t", str "b", 0⟩, 0, false⟩

/-- The state after that. -/
def delivered : QueueDelivery :=
  (Base.runFrom (step BatchConsumption.pairs {str "a"}) (start mixed firstRequest 0 ⟨str "g", ∅⟩)
    delivering).get (by decide +kernel)

theorem delivers_delivered : delivered.consumption.queue.put = [0, 2] ∧
    2 ∈ offsets delivered.consumption.settled := by
  have hrun : Base.runFrom (step BatchConsumption.pairs {str "a"})
      (start mixed firstRequest 0 ⟨str "g", ∅⟩) delivering = some delivered :=
    (Option.some_get (by decide +kernel)).symm
  obtain ⟨-, -, -, hsettled⟩ := delivers (by decide) (by simp) hrun
  refine ⟨by decide +kernel, ?_⟩
  have hmsg : tagged 2 (str "a") ∈ delivered.broker.log := List.mem_of_getElem? (i := 2) rfl
  exact hsettled 3 (by decide +kernel) _ hmsg (by decide +kernel) (by decide +kernel) (by decide)
    (by decide)

end QueueDelivery
end RocketMQ
