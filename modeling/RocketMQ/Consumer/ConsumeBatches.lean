import RocketMQ.Consumer.FlowControl

/-!
# Batches of pulled messages

`ConsumeMessageConcurrentlyService::submitConsumeRequest` cuts the messages of a pull into
requests, each of which calls the listener once with its messages,
`src/consumer/ConsumeMessageConcurrentlyService.cpp:112–146` and `303–360`. The contract of the
listener promises at least one message.
-/

namespace RocketMQ.ConsumeMessageConcurrentlyService

/-- The messages that `ConsumeConcurrentlyRequest::Do` hands to the listener, if it calls it,
`src/consumer/ConsumeMessageConcurrentlyService.cpp:305–343`. -/
def consumeMessage (dropped : Bool) (request : List MessageExt) : Option (List MessageExt) :=
  if dropped then none else some request

/-- The requests are the messages cut into pieces, none of which is empty or too long, and the
listener gets at least one message. -/
structure ExactBatches (consumeMessageBatchMaxSize : Nat) (msgs : List MessageExt)
    (requests : List (List MessageExt)) : Prop where
  nonempty : ∀ request ∈ requests, request ≠ []
  bounded : ∀ request ∈ requests, request.length ≤ consumeMessageBatchMaxSize
  flatten : requests.flatten = msgs
  contract : ∀ request ∈ requests, ∀ dropped, ∀ called ∈ consumeMessage dropped request,
    called.length ≥ 1

section Batches

variable {consumeBatchSize : Nat}

theorem mem_submitLoop (hsize : 1 ≤ consumeBatchSize) (n : Nat) (msgs : List MessageExt) :
    ∀ request ∈ submitLoop consumeBatchSize n msgs,
      request ≠ [] ∧ request.length ≤ consumeBatchSize := by
  induction n generalizing msgs with
  | zero => simp [submitLoop]
  | succ n ih =>
    unfold submitLoop
    by_cases hempty : msgs = []
    · simp [hempty]
    · have hpos : 0 < msgs.length := List.length_pos_of_ne_nil hempty
      intro request hrequest
      rw [if_neg (by simpa using hempty), List.mem_cons] at hrequest
      rcases hrequest with rfl | hrest
      · constructor
        · apply List.ne_nil_of_length_pos
          rw [List.length_take]
          omega
        · exact List.length_take_le _ _
      · exact ih _ request hrest

/-- Enough passes take all messages. -/
theorem flatten_submitLoop (hsize : 1 ≤ consumeBatchSize) (n : Nat) (msgs : List MessageExt)
    (hn : msgs.length ≤ n) : (submitLoop consumeBatchSize n msgs).flatten = msgs := by
  induction n generalizing msgs with
  | zero =>
    rw [List.length_eq_zero_iff.mp (Nat.le_zero.mp hn)]
    rfl
  | succ n ih =>
    unfold submitLoop
    by_cases hempty : msgs = []
    · simp [hempty]
    · have hrest : (msgs.drop consumeBatchSize).length ≤ n := by
        rw [List.length_drop]
        omega
      rw [if_neg (by simpa using hempty), List.flatten_cons, ih _ hrest, List.take_append_drop]

/-- Without messages there is one request, and it has none. -/
theorem submitConsumeRequest_nil : submitConsumeRequest consumeBatchSize [] = [[]] := by
  unfold submitConsumeRequest
  exact if_pos (Nat.zero_le _)

/-- The requests of a pull that brought messages. -/
theorem exactBatches_of_ne_nil (hsize : 1 ≤ consumeBatchSize) {msgs : List MessageExt}
    (hmsgs : msgs ≠ []) :
    ExactBatches consumeBatchSize msgs (submitConsumeRequest consumeBatchSize msgs) := by
  have hrequests : (∀ request ∈ submitConsumeRequest consumeBatchSize msgs,
      request ≠ [] ∧ request.length ≤ consumeBatchSize) ∧
      (submitConsumeRequest consumeBatchSize msgs).flatten = msgs := by
    unfold submitConsumeRequest
    by_cases hshort : msgs.length ≤ consumeBatchSize
    · rw [if_pos hshort]
      simp [hmsgs, hshort]
    · rw [if_neg hshort]
      exact ⟨mem_submitLoop hsize _ _, flatten_submitLoop hsize _ _ (Nat.le_refl _)⟩
  constructor
  · exact fun request hrequest ↦ (hrequests.1 request hrequest).1
  · exact fun request hrequest ↦ (hrequests.1 request hrequest).2
  · exact hrequests.2
  · intro request hrequest dropped called hcalled
    unfold consumeMessage at hcalled
    split at hcalled
    · cases hcalled
    · cases hcalled
      exact List.length_pos_of_ne_nil (hrequests.1 request hrequest).1

/-- The batches are exact whenever the pull brought a message. -/
theorem exactBatches_iff (hsize : 1 ≤ consumeBatchSize) (msgs : List MessageExt) :
    ExactBatches consumeBatchSize msgs (submitConsumeRequest consumeBatchSize msgs) ↔
      msgs ≠ [] := by
  constructor
  · rintro h rfl
    rw [submitConsumeRequest_nil] at h
    exact h.nonempty [] (List.mem_singleton_self []) rfl
  · exact exactBatches_of_ne_nil hsize

/-- Five messages, at most two in a batch. -/
theorem exactBatches_five :
    submitConsumeRequest 2 [.at 1, .at 2, .at 3, .at 4, .at 5] =
        [[.at 1, .at 2], [.at 3, .at 4], [.at 5]] ∧
      ExactBatches 2 [.at 1, .at 2, .at 3, .at 4, .at 5]
        (submitConsumeRequest 2 [.at 1, .at 2, .at 3, .at 4, .at 5]) :=
  ⟨by decide, (exactBatches_iff (by decide) _).mpr (by decide)⟩

/-- When the tag filter left nothing, the listener is called with an empty list. -/
theorem nothing_left_consumed :
    submitConsumeRequest 1 [] = [[]] ∧ consumeMessage false [] = some [] ∧
      ¬ ExactBatches 1 [] (submitConsumeRequest 1 []) := by
  refine ⟨rfl, rfl, fun h ↦ ?_⟩
  exact h.nonempty [] (by decide) rfl

end Batches
end RocketMQ.ConsumeMessageConcurrentlyService
