import Mathlib.Data.List.Perm.Basic
import RocketMQ.Base.Run
import RocketMQ.Common.RefCount
import RocketMQ.Message.MessageQueue
import Std.Data.ExtTreeMap.Lemmas

/-!
# The response table

`m_responseTable` of `src/transport/TcpRemotingClient.cpp`, the calls that wait for a response
and the responses that are being delivered. A step is one section under
`m_responseTableMutex`, or one thing that a call or a delivery does in between. The `k`-th call
creates the `k`-th `ResponseFuture`, so a pointer is the number of its call.
-/

namespace RocketMQ

/-! ### Calls and deliveries -/

/-- A response command, as far as it is told apart here. -/
structure Response where
  opaqueId : Int
  body : StdString
deriving DecidableEq

/-- `src/transport/ResponseFuture.h`. The responses that were put are kept in order;
`m_pResponseCommand` is the last one. -/
structure ResponseFuture extends RefCount where
  sendRequestOK : Bool
  responses : List Response
deriving DecidableEq

/-- A run of `operationComplete`, with what it finds in the future. -/
structure Completion where
  response : Option Response
  sendRequestOK : Bool
deriving DecidableEq

/-- `invokeSync`, or `invokeAsync` with a callback or without. -/
inductive InvokeKind where
  | sync
  | async (callback : Bool)
deriving DecidableEq

/-- Where a call is: its request is being written, it waits for the response, it is about to
look for its opaque in the table, or about to give its reference back. -/
inductive CallStage where
  | sending
  | waiting
  | removing
  | releasing
  | returned
deriving DecidableEq

/-- A call, its future unless there was no connection, what `SendCmd` and `waitResponse`
returned, and the completions of its callback. -/
structure Invocation where
  kind : InvokeKind
  opaqueId : Int
  stage : CallStage
  future : Option ResponseFuture
  sendRet : Option Int
  response : Option Response
  completions : List Completion
deriving DecidableEq

/-- Where `processResponseCommand` is with a response it found a future for. -/
inductive DeliveryStage where
  | taken
  | put
  | completed
deriving DecidableEq

/-- A response that is being delivered, with the pointer that was in the table. -/
structure Delivery where
  response : Response
  future : Nat
  stage : DeliveryStage
deriving DecidableEq

/-- The table, all calls so far, the deliveries under way, and whether a future was used that
is not there. -/
structure ResponseTable where
  table : Std.ExtTreeMap Int Nat
  calls : List Invocation
  deliveries : List Delivery
  usedAfterDelete : Bool

/-- What happens next. -/
inductive RemotingEvent where
  | unconnected (kind : InvokeKind) (opaqueId : Int)
  | invoke (kind : InvokeKind) (opaqueId : Int)
  | sendCmd (call : Nat) (ret : Int)
  | waitResponse (call : Nat)
  | remove (call : Nat)
  | release (call : Nat)
  | take (response : Response)
  | putResponse (delivery : Nat)
  | executeInvokeCallback (delivery : Nat)
  | decRef (delivery : Nat)
deriving DecidableEq

/-- The steps of a call after its request was registered, and the end of a delivery. -/
def RemotingEvent.IsQuiet : RemotingEvent → Prop
  | .sendCmd .. | .waitResponse _ | .remove _ | .release _ | .decRef _ => True
  | .unconnected .. | .invoke .. | .take _ | .putResponse _ | .executeInvokeCallback _ => False

namespace ResponseTable

/-- No calls yet. -/
def empty : ResponseTable := ⟨∅, [], [], false⟩

/-! ### Steps -/

/-- Use a future through a pointer. -/
def use (s : ResponseTable) (pointer : Nat) (f : Invocation → ResponseFuture → Invocation) :
    ResponseTable :=
  match s.calls[pointer]? with
  | some call =>
    match call.future with
    | some future =>
      { s with
        calls := s.calls.set pointer (f call future)
        usedAfterDelete := s.usedAfterDelete || decide (future.deletions ≠ 0) }
    | none => { s with usedAfterDelete := true }
  | none => { s with usedAfterDelete := true }

/-- `DecRef` on the future of a call. -/
def decRefOf (call : Invocation) (future : ResponseFuture) : Invocation :=
  { call with future := some { future with toRefCount := future.decRef } }

/-- A call in a stage. -/
def callIn (s : ResponseTable) (i : Nat) (stage : CallStage) : Option Invocation :=
  (s.calls[i]?).filter fun call ↦ call.stage = stage

/-- A delivery in a stage. -/
def deliveryIn (s : ResponseTable) (n : Nat) (stage : DeliveryStage) : Option Delivery :=
  (s.deliveries[n]?).filter fun delivery ↦ delivery.stage = stage

/-- `invokeSyncImpl`, `invokeAsyncImpl` and `processResponseCommand`,
`src/transport/TcpRemotingClient.cpp:86–119,294–399,431–455`, step by step. -/
def step (s : ResponseTable) : RemotingEvent → Option ResponseTable
  | .unconnected kind opaqueId =>
    some { s with
      calls := s.calls ++ [⟨kind, opaqueId, .returned, none, none, none, []⟩] }
  | .invoke kind opaqueId =>
    let future : ResponseFuture := ⟨RefCount.create.incRef, false, []⟩
    some { s with
      calls := s.calls ++ [⟨kind, opaqueId, .sending, some future, none, none, []⟩]
      table := s.table.insertIfNew opaqueId s.calls.length }
  | .sendCmd i ret => do
    let call ← s.callIn i .sending
    if ret = 0 then
      return s.use i fun call future ↦ { call with
        stage := if call.kind = .sync then .waiting else .releasing
        sendRet := some ret
        future := some { future with sendRequestOK := true } }
    else
      return { s with calls := s.calls.set i { call with stage := .removing, sendRet := some ret } }
  | .waitResponse i => do
    let _ ← s.callIn i .waiting
    return s.use i fun call future ↦ { call with
      stage := .removing
      response := future.responses.getLast? }
  | .remove i => do
    let call ← s.callIn i .removing
    let s := { s with calls := s.calls.set i { call with stage := .releasing } }
    match s.table[call.opaqueId]? with
    | some pointer => return { s with table := s.table.erase call.opaqueId }.use pointer decRefOf
    | none => return s
  | .release i => do
    let _ ← s.callIn i .releasing
    return s.use i fun call future ↦ { decRefOf call future with stage := .returned }
  | .take response =>
    match s.table[response.opaqueId]? with
    | some pointer =>
      some { s with
        table := s.table.erase response.opaqueId
        deliveries := s.deliveries ++ [⟨response, pointer, .taken⟩] }
    | none => some s
  | .putResponse n => do
    let delivery ← s.deliveryIn n .taken
    let s := { s with deliveries := s.deliveries.eraseIdx n ++ [{ delivery with stage := .put }] }
    return s.use delivery.future fun call future ↦ { call with
      future := some { future with responses := future.responses ++ [delivery.response] } }
  | .executeInvokeCallback n => do
    let delivery ← s.deliveryIn n .put
    let s := { s with
      deliveries := s.deliveries.eraseIdx n ++ [{ delivery with stage := .completed }] }
    return s.use delivery.future fun call future ↦
      if call.kind = .async true then
        { call with
          completions := call.completions ++ [⟨future.responses.getLast?, future.sendRequestOK⟩] }
      else call
  | .decRef n => do
    let delivery ← s.deliveryIn n .completed
    return { s with deliveries := s.deliveries.eraseIdx n }.use delivery.future decRefOf

/-- The opaque of a new request is that of no request that is in the table or whose call has
not returned. -/
def FreshOpaque (s : ResponseTable) : RemotingEvent → Prop
  | .invoke _ opaqueId =>
    opaqueId ∉ s.table ∧ ∀ call ∈ s.calls, call.stage ≠ .returned → call.opaqueId ≠ opaqueId
  | _ => True

instance (s : ResponseTable) (e : RemotingEvent) : Decidable (s.FreshOpaque e) :=
  match e with
  | .invoke _ _ => inferInstanceAs (Decidable (_ ∧ _))
  | .unconnected .. | .sendCmd .. | .waitResponse _ | .remove _ | .release _ | .take _
  | .putResponse _ | .executeInvokeCallback _ | .decRef _ => .isTrue trivial

/-! ### Who holds a future -/

/-- The table holds the future of a call when it has its pointer under its opaque. -/
def tabled (s : ResponseTable) (i : Nat) (call : Invocation) : Nat :=
  if s.table[call.opaqueId]? = some i then 1 else 0

/-- The deliveries of a future that are in a stage. -/
def delivering (s : ResponseTable) (i : Nat) (stage : DeliveryStage) : Nat :=
  s.deliveries.countP fun delivery ↦ delivery.future = i ∧ delivery.stage = stage

/-- The holders of a future: the table, the call until it returns, the deliveries. -/
def holders (s : ResponseTable) (i : Nat) (call : Invocation) : Nat :=
  s.tabled i call + (if call.stage = .returned then 0 else 1) +
    (s.delivering i .taken + s.delivering i .put + s.delivering i .completed)

/-! ### Counting deliveries -/

section Delivering

variable {s t : ResponseTable} {n : Nat} {delivery : Delivery}

theorem countP_eraseIdx {α : Type} {l : List α} {x : α} (h : l[n]? = some x) (p : α → Bool) :
    l.countP p = (l.eraseIdx n).countP p + if p x then 1 else 0 := by
  obtain ⟨hn, rfl⟩ := List.getElem?_eq_some_iff.mp h
  rw [← (List.getElem_cons_eraseIdx_perm hn).countP_eq, List.countP_cons]

/-- A delivery goes from one stage to another. -/
theorem delivering_advance {stage : DeliveryStage} (h : s.deliveries[n]? = some delivery)
    (ht : t.deliveries = s.deliveries.eraseIdx n ++ [{ delivery with stage }]) (i : Nat)
    (stage' : DeliveryStage) :
    t.delivering i stage' + (if delivery.future = i ∧ delivery.stage = stage' then 1 else 0) =
      s.delivering i stage' + if delivery.future = i ∧ stage = stage' then 1 else 0 := by
  rw [delivering, delivering, ht, List.countP_append, List.countP_singleton,
    countP_eraseIdx h]
  simp only [decide_eq_true_eq]
  omega

/-- What that changes for the future of the delivery. -/
theorem delivering_move {stage : DeliveryStage} (h : s.deliveries[n]? = some delivery)
    (ht : t.deliveries = s.deliveries.eraseIdx n ++ [{ delivery with stage }])
    (hne : delivery.stage ≠ stage) :
    t.delivering delivery.future delivery.stage + 1 =
        s.delivering delivery.future delivery.stage ∧
      t.delivering delivery.future stage = s.delivering delivery.future stage + 1 ∧
      ∀ stage', delivery.stage ≠ stage' → stage ≠ stage' →
        t.delivering delivery.future stage' = s.delivering delivery.future stage' := by
  refine ⟨?_, ?_, fun stage' hfrom hto ↦ ?_⟩
  · simpa [Ne.symm hne] using delivering_advance h ht delivery.future delivery.stage
  · simpa [hne] using delivering_advance h ht delivery.future stage
  · simpa [hfrom, hto] using delivering_advance h ht delivery.future stage'

/-- A delivery ends. -/
theorem delivering_done (h : s.deliveries[n]? = some delivery)
    (ht : t.deliveries = s.deliveries.eraseIdx n) (i : Nat) (stage' : DeliveryStage) :
    t.delivering i stage' + (if delivery.future = i ∧ delivery.stage = stage' then 1 else 0) =
      s.delivering i stage' := by
  rw [delivering, delivering, ht, countP_eraseIdx h]
  simp only [decide_eq_true_eq]

/-- A delivery begins. -/
theorem delivering_take (ht : t.deliveries = s.deliveries ++ [delivery]) (i : Nat)
    (stage' : DeliveryStage) : t.delivering i stage' =
      s.delivering i stage' + if delivery.future = i ∧ delivery.stage = stage' then 1 else 0 := by
  rw [delivering, delivering, ht, List.countP_append, List.countP_singleton]
  simp only [decide_eq_true_eq]

theorem delivering_congr (ht : t.deliveries = s.deliveries) (i : Nat) (stage' : DeliveryStage) :
    t.delivering i stage' = s.delivering i stage' := by
  rw [delivering, delivering, ht]

/-- A delivery under way is counted. -/
theorem delivering_pos (h : s.deliveries[n]? = some delivery) :
    0 < s.delivering delivery.future delivery.stage := by
  rw [delivering, List.countP_pos_iff]
  exact ⟨delivery, List.mem_of_getElem? h, by simp⟩

end Delivering

/-! ### What a step leaves alone -/

section Step

variable {s t u : ResponseTable} {i n : Nat} {call call' : Invocation} {future : ResponseFuture}

theorem callIn_eq_some {stage : CallStage} :
    s.callIn i stage = some call ↔ s.calls[i]? = some call ∧ call.stage = stage := by
  simp [callIn]

theorem deliveryIn_eq_some {stage : DeliveryStage} {delivery : Delivery} :
    s.deliveryIn n stage = some delivery ↔
      s.deliveries[n]? = some delivery ∧ delivery.stage = stage := by
  simp [deliveryIn]

/-- A future that is there is used without harm. -/
theorem use_eq (f : Invocation → ResponseFuture → Invocation) (hi : s.calls[i]? = some call)
    (hfuture : call.future = some future) (halive : future.deletions = 0) :
    s.use i f = { s with calls := s.calls.set i (f call future) } := by
  simp [use, hi, hfuture, halive]

theorem use_eq_of_deliveries (f : Invocation → ResponseFuture → Invocation)
    (deliveries : List Delivery) (hi : s.calls[i]? = some call)
    (hfuture : call.future = some future) (halive : future.deletions = 0) :
    use { s with deliveries } i f = { s with calls := s.calls.set i (f call future), deliveries } :=
  use_eq (s := { s with deliveries }) f hi hfuture halive

/-- The calls of a state are those of another one, each changed within `R`. -/
def CallsWithin (R : Invocation → Invocation → Prop) (s t : ResponseTable) : Prop :=
  t.calls.length = s.calls.length ∧
    ∀ (i : Nat) (call call' : Invocation), s.calls[i]? = some call → t.calls[i]? = some call' →
      R call call'

section CallsWithin

variable {R : Invocation → Invocation → Prop}

theorem CallsWithin.forth (h : CallsWithin R s t) (hi : s.calls[i]? = some call) :
    ∃ call', t.calls[i]? = some call' ∧ R call call' := by
  obtain ⟨hlt, -⟩ := List.getElem?_eq_some_iff.mp hi
  have hi' := List.getElem?_eq_getElem (h.1.symm ▸ hlt)
  exact ⟨_, hi', h.2 i _ _ hi hi'⟩

theorem CallsWithin.back (h : CallsWithin R s t) (hi : t.calls[i]? = some call') :
    ∃ call, s.calls[i]? = some call ∧ R call call' := by
  obtain ⟨hlt, -⟩ := List.getElem?_eq_some_iff.mp hi
  have hi' := List.getElem?_eq_getElem (h.1 ▸ hlt)
  exact ⟨_, hi', h.2 i _ _ hi' hi⟩

theorem CallsWithin.refl (hrefl : ∀ call, R call call) (h : t.calls = s.calls) :
    CallsWithin R s t := by
  refine ⟨by rw [h], fun i call call' hi hi' ↦ ?_⟩
  rw [h, hi] at hi'
  rw [← Option.some.inj hi']
  exact hrefl call

theorem CallsWithin.trans {R' R'' : Invocation → Invocation → Prop}
    (h : CallsWithin R s t) (h' : CallsWithin R' t u)
    (htrans : ∀ call call' call'', R call call' → R' call' call'' → R'' call call'') :
    CallsWithin R'' s u := by
  refine ⟨h'.1.trans h.1, fun i call call'' hi hi'' ↦ ?_⟩
  obtain ⟨call', hi', hR⟩ := h.forth hi
  exact htrans _ _ _ hR (h'.2 i _ _ hi' hi'')

theorem CallsWithin.mono {R' : Invocation → Invocation → Prop} (h : CallsWithin R s t)
    (hR : ∀ call call', R call call' → R' call call') : CallsWithin R' s t :=
  ⟨h.1, fun i call call' hi hi' ↦ hR call call' (h.2 i call call' hi hi')⟩

theorem CallsWithin.set (hrefl : ∀ call, R call call) (hi : s.calls[i]? = some call)
    (ht : t.calls = s.calls.set i call') (hR : R call call') : CallsWithin R s t := by
  refine ⟨by rw [ht, List.length_set], fun j callj callj' hj hj' ↦ ?_⟩
  rw [ht, List.getElem?_set] at hj'
  split_ifs at hj' with hij hlt
  · subst hij
    rw [← Option.some.inj (hi.symm.trans hj), ← Option.some.inj hj']
    exact hR
  · rw [← Option.some.inj (hj.symm.trans hj')]
    exact hrefl callj

/-- Using a future changes one call at most. -/
theorem CallsWithin.use {f : Invocation → ResponseFuture → Invocation}
    (hrefl : ∀ call, R call call) (hR : ∀ call future, s.calls[i]? = some call →
      call.future = some future → R call (f call future)) :
    CallsWithin R s (s.use i f) := by
  rw [ResponseTable.use]
  split
  next call hi =>
    split
    next future hf => exact .set hrefl hi rfl (hR call future hi hf)
    next => exact .refl hrefl rfl
  next => exact .refl hrefl rfl

end CallsWithin

/-- The table holds the future of a call no more often when it has no new entry for it. -/
theorem tabled_of_absent (h : s.table[call.opaqueId]? = none) : s.tabled i call = 0 := by
  rw [tabled, h]
  rfl

theorem tabled_le (hsameId : call'.opaqueId = call.opaqueId)
    (hentry : t.table[call.opaqueId]? = some i → s.table[call.opaqueId]? = some i) :
    t.tabled i call' ≤ s.tabled i call := by
  rw [tabled, tabled, hsameId]
  split_ifs with hnew hold hold
  · exact Nat.le_refl 1
  · exact absurd (hentry hnew) hold
  · exact Nat.zero_le 1
  · exact Nat.le_refl 0

@[simp] theorem use_table (f : Invocation → ResponseFuture → Invocation) :
    (s.use i f).table = s.table := by
  rw [use]
  split <;> [split; skip] <;> rfl

@[simp] theorem use_deliveries (f : Invocation → ResponseFuture → Invocation) :
    (s.use i f).deliveries = s.deliveries := by
  rw [use]
  split <;> [split; skip] <;> rfl

/-- What a step does to a call that is there. -/
inductive CallStep : RemotingEvent → Invocation → Invocation → Prop
  | refl (e : RemotingEvent) (call : Invocation) : CallStep e call call
  | sent {i : Nat} {call : Invocation} {future : ResponseFuture} {stage : CallStage} :
    call.stage = .sending → stage ≠ .sending → call.future = some future →
    CallStep (.sendCmd i 0) call { call with
      stage, sendRet := some 0, future := some { future with sendRequestOK := true } }
  | unsent {i : Nat} {ret : Int} {call : Invocation} : call.stage = .sending → ret ≠ 0 →
    CallStep (.sendCmd i ret) call { call with stage := .removing, sendRet := some ret }
  | waited {i : Nat} {call : Invocation} {response : Option Response} :
    CallStep (.waitResponse i) call { call with stage := .removing, response }
  | removed {i : Nat} {call : Invocation} :
    CallStep (.remove i) call { call with stage := .releasing }
  | dropped {i : Nat} {call : Invocation} {future : ResponseFuture} :
    call.future = some future → CallStep (.remove i) call (decRefOf call future)
  | removedAndDropped {i : Nat} {call : Invocation} {future : ResponseFuture} :
    call.future = some future →
    CallStep (.remove i) call (decRefOf { call with stage := .releasing } future)
  | released {i : Nat} {call : Invocation} {future : ResponseFuture} :
    call.future = some future →
    CallStep (.release i) call { decRefOf call future with stage := .returned }
  | put {n : Nat} {call : Invocation} {future : ResponseFuture} {response : Response} :
    call.future = some future → CallStep (.putResponse n) call { call with
      future := some { future with responses := future.responses ++ [response] } }
  | completed {n : Nat} {call : Invocation} {completion : Completion} :
    call.kind = .async true → CallStep (.executeInvokeCallback n) call { call with
      completions := call.completions ++ [completion] }
  | finished {n : Nat} {call : Invocation} {future : ResponseFuture} :
    call.future = some future → CallStep (.decRef n) call (decRefOf call future)

/-- The call itself goes on, and the one of the pointer it erases loses a reference. -/
theorem callStep_remove (hstep : s.step (.remove i) = some t) :
    CallsWithin (CallStep (.remove i)) s t := by
  simp only [step, Option.bind_eq_bind, Option.bind_eq_some_iff, callIn_eq_some] at hstep
  obtain ⟨call, ⟨hi, -⟩, hstep⟩ := hstep
  split at hstep
  next pointer _ =>
    obtain rfl := Option.some.inj hstep
    have hset : CallsWithin (fun call call' ↦ call' = call ∨
        call' = { call with stage := .releasing }) s
        { s with calls := s.calls.set i { call with stage := .releasing } } :=
      .set (fun _ ↦ .inl rfl) hi rfl (.inr rfl)
    have huse : CallsWithin (fun call call' ↦ call' = call ∨
        ∃ future, call.future = some future ∧ call' = decRefOf call future)
        { s with
          calls := s.calls.set i { call with stage := .releasing }
          table := s.table.erase call.opaqueId } _ :=
      .use (i := pointer) (f := decRefOf) (fun _ ↦ .inl rfl)
        fun _ future _ hf ↦ .inr ⟨future, hf, rfl⟩
    apply hset.trans huse
    rintro call _ _ (rfl | rfl) (rfl | ⟨future, hf, rfl⟩)
    · exact .refl _ _
    · exact .dropped hf
    · exact .removed
    · exact .removedAndDropped hf
  next =>
    obtain rfl := Option.some.inj hstep
    exact .set (CallStep.refl _) hi rfl .removed

/-- Only `invoke` and `unconnected` add a call. -/
theorem callStep {e : RemotingEvent} (hstep : s.step e = some t)
    (hinvoke : ∀ kind o, e ≠ .invoke kind o) (hunconnected : ∀ kind o, e ≠ .unconnected kind o) :
    CallsWithin (CallStep e) s t := by
  cases e with
  | unconnected kind o => exact absurd rfl (hunconnected kind o)
  | invoke kind o => exact absurd rfl (hinvoke kind o)
  | sendCmd i ret =>
    simp only [step, Option.bind_eq_bind, Option.bind_eq_some_iff, callIn_eq_some] at hstep
    obtain ⟨call, ⟨hi, hstage⟩, hstep⟩ := hstep
    split_ifs at hstep with hret
    · obtain rfl := Option.some.inj hstep
      subst hret
      refine .use (CallStep.refl _) fun call' future hi' hf ↦ ?_
      obtain rfl := Option.some.inj (hi.symm.trans hi')
      refine .sent hstage ?_ hf
      split_ifs <;> decide
    · obtain rfl := Option.some.inj hstep
      exact .set (CallStep.refl _) hi rfl (.unsent hstage hret)
  | waitResponse i =>
    simp only [step, Option.bind_eq_bind, Option.bind_eq_some_iff, callIn_eq_some] at hstep
    obtain ⟨call, -, hstep⟩ := hstep
    obtain rfl := Option.some.inj hstep
    exact .use (CallStep.refl _) fun _ _ _ _ ↦ .waited
  | remove i => exact callStep_remove hstep
  | release i =>
    simp only [step, Option.bind_eq_bind, Option.bind_eq_some_iff, callIn_eq_some] at hstep
    obtain ⟨call, -, hstep⟩ := hstep
    obtain rfl := Option.some.inj hstep
    exact .use (CallStep.refl _) fun _ _ _ hf ↦ .released hf
  | take response =>
    simp only [step] at hstep
    split at hstep <;>
    · obtain rfl := Option.some.inj hstep
      exact .refl (CallStep.refl _) rfl
  | putResponse n =>
    simp only [step, Option.bind_eq_bind, Option.bind_eq_some_iff, deliveryIn_eq_some] at hstep
    obtain ⟨delivery, -, hstep⟩ := hstep
    obtain rfl := Option.some.inj hstep
    exact CallsWithin.use (s := { s with deliveries := _ }) (CallStep.refl _)
      fun _ _ _ hf ↦ .put hf
  | executeInvokeCallback n =>
    simp only [step, Option.bind_eq_bind, Option.bind_eq_some_iff, deliveryIn_eq_some] at hstep
    obtain ⟨delivery, -, hstep⟩ := hstep
    obtain rfl := Option.some.inj hstep
    refine CallsWithin.use (s := { s with deliveries := _ }) (CallStep.refl _)
      fun call _ _ _ ↦ ?_
    split_ifs with hcallback
    · exact .completed hcallback
    · exact .refl _ _
  | decRef n =>
    simp only [step, Option.bind_eq_bind, Option.bind_eq_some_iff, deliveryIn_eq_some] at hstep
    obtain ⟨delivery, -, hstep⟩ := hstep
    obtain rfl := Option.some.inj hstep
    exact CallsWithin.use (s := { s with deliveries := _ }) (CallStep.refl _)
      fun _ _ _ hf ↦ .finished hf

/-- A call goes on, or gives a reference back: what it asked for, its completions and the
responses of its future stay. -/
structure Quiet (call call' : Invocation) : Prop where
  opaqueId : call'.opaqueId = call.opaqueId
  completions : call'.completions = call.completions
  responses : call'.future.map ResponseFuture.responses = call.future.map ResponseFuture.responses

theorem CallStep.quiet {e : RemotingEvent} (hquiet : e.IsQuiet) (h : CallStep e call call') :
    Quiet call call' := by
  cases h with
  | refl => exact ⟨rfl, rfl, rfl⟩
  | unsent | waited | removed => exact ⟨rfl, rfl, rfl⟩
  | sent _ _ hf | dropped hf | removedAndDropped hf | released hf | finished hf =>
    exact ⟨rfl, rfl, by rw [hf]; rfl⟩
  | put | completed => exact hquiet.elim

/-- A step of the calls only, but for an entry that leaves the table or a delivery that ends. -/
structure QuietStep (s t : ResponseTable) : Prop where
  calls : CallsWithin Quiet s t
  table : ∀ (o : Int) (j : Nat), t.table[o]? = some j → s.table[o]? = some j
  deliveries : t.deliveries.Sublist s.deliveries

/-- What is in a table without an entry is in the whole table. -/
theorem getElem?_of_erase {table : Std.ExtTreeMap Int Nat} {k o : Int} {j : Nat}
    (hj : (table.erase k)[o]? = some j) : table[o]? = some j := by
  rw [Std.ExtTreeMap.getElem?_erase] at hj
  split_ifs at hj
  exact hj

theorem quietStep {e : RemotingEvent} (hquiet : e.IsQuiet) (hstep : s.step e = some t) :
    QuietStep s t := by
  have hcalls : CallsWithin Quiet s t :=
    (callStep hstep (by rintro _ _ rfl; exact hquiet) (by rintro _ _ rfl; exact hquiet)).mono
      fun _ _ ↦ CallStep.quiet hquiet
  cases e with
  | sendCmd i ret =>
    simp only [step, Option.bind_eq_bind, Option.bind_eq_some_iff] at hstep
    obtain ⟨call, -, hstep⟩ := hstep
    split_ifs at hstep
    · obtain rfl := Option.some.inj hstep
      exact ⟨hcalls, by rw [use_table]; exact fun _ _ ↦ id, by rw [use_deliveries]⟩
    · obtain rfl := Option.some.inj hstep
      exact ⟨hcalls, fun _ _ ↦ id, .refl _⟩
  | waitResponse i | release i =>
    simp only [step, Option.bind_eq_bind, Option.bind_eq_some_iff] at hstep
    obtain ⟨call, -, hstep⟩ := hstep
    obtain rfl := Option.some.inj hstep
    exact ⟨hcalls, by rw [use_table]; exact fun _ _ ↦ id, by rw [use_deliveries]⟩
  | remove i =>
    simp only [step, Option.bind_eq_bind, Option.bind_eq_some_iff] at hstep
    obtain ⟨call, -, hstep⟩ := hstep
    split at hstep
    next =>
      obtain rfl := Option.some.inj hstep
      exact ⟨hcalls, by rw [use_table]; exact fun _ _ ↦ getElem?_of_erase, by rw [use_deliveries]⟩
    next =>
      obtain rfl := Option.some.inj hstep
      exact ⟨hcalls, fun _ _ ↦ id, .refl _⟩
  | decRef n =>
    simp only [step, Option.bind_eq_bind, Option.bind_eq_some_iff] at hstep
    obtain ⟨delivery, -, hstep⟩ := hstep
    obtain rfl := Option.some.inj hstep
    refine ⟨hcalls, by rw [use_table]; exact fun _ _ ↦ id, ?_⟩
    rw [use_deliveries]
    exact List.eraseIdx_sublist ..
  | unconnected | invoke | take | putResponse | executeInvokeCallback => exact hquiet.elim

/-! ### Pointers lead to futures -/

/-- Pointers in the table lead to futures of their opaques, and deliveries to futures of the
opaques of their responses. -/
structure Pointers (s : ResponseTable) : Prop where
  table : ∀ (opaqueId : Int) (i : Nat), s.table[opaqueId]? = some i →
    ∃ call, s.calls[i]? = some call ∧ call.future.isSome ∧ call.opaqueId = opaqueId
  deliveries : ∀ delivery ∈ s.deliveries, ∃ call, s.calls[delivery.future]? = some call ∧
    call.future.isSome ∧ delivery.response.opaqueId = call.opaqueId

/-- A call keeps what it was made with. -/
structure Kept (call call' : Invocation) : Prop where
  kind : call'.kind = call.kind
  opaqueId : call'.opaqueId = call.opaqueId
  future : call'.future.isSome = call.future.isSome

theorem CallStep.kept {e : RemotingEvent} (h : CallStep e call call') : Kept call call' := by
  cases h with
  | refl | unsent | waited | removed | completed => exact ⟨rfl, rfl, rfl⟩
  | sent _ _ hf | dropped hf | removedAndDropped hf | released hf | put hf | finished hf =>
    exact ⟨rfl, rfl, by rw [hf]; rfl⟩

/-- Pointers that a step keeps still lead to futures. -/
theorem Pointers.keep (h : s.Pointers) (hcalls : CallsWithin Kept s t)
    (htable : ∀ (o : Int) (j : Nat), t.table[o]? = some j → s.table[o]? = some j)
    (hdeliveries : ∀ delivery ∈ t.deliveries, ∃ delivery' ∈ s.deliveries,
      delivery.future = delivery'.future ∧ delivery.response = delivery'.response) :
    t.Pointers where
  table o i hi := by
    obtain ⟨call, hcall, hsome, hsameId⟩ := h.table o i (htable o i hi)
    obtain ⟨call', hcall', hkept⟩ := hcalls.forth hcall
    exact ⟨call', hcall', hkept.future.trans hsome, hkept.opaqueId.trans hsameId⟩
  deliveries delivery hmem := by
    obtain ⟨delivery', hmem', hfuture, hresponse⟩ := hdeliveries delivery hmem
    obtain ⟨call, hcall, hsome, hsameId⟩ := h.deliveries delivery' hmem'
    obtain ⟨call', hcall', hkept⟩ := hcalls.forth hcall
    exact ⟨call', hfuture ▸ hcall', hkept.future.trans hsome,
      by rw [hresponse, hsameId, hkept.opaqueId]⟩

/-- They still do after a new call, whose entry may be new. -/
theorem Pointers.append (h : s.Pointers) (hcalls : t.calls = s.calls ++ [call])
    (hdeliveries : t.deliveries = s.deliveries)
    (htable : ∀ (o : Int) (j : Nat), t.table[o]? = some j →
      s.table[o]? = some j ∨ j = s.calls.length ∧ o = call.opaqueId ∧ call.future.isSome) :
    t.Pointers := by
  have hold : ∀ (j : Nat) (callj : Invocation), s.calls[j]? = some callj →
      t.calls[j]? = some callj := by
    intro j callj hj
    obtain ⟨hlt, -⟩ := List.getElem?_eq_some_iff.mp hj
    rw [hcalls, List.getElem?_append_left hlt, hj]
  refine ⟨fun o j hj ↦ ?_, fun delivery hmem ↦ ?_⟩
  · rcases htable o j hj with hj | ⟨rfl, rfl, hsome⟩
    · obtain ⟨callj, hcallj, hkept⟩ := h.table o j hj
      exact ⟨callj, hold j callj hcallj, hkept⟩
    · exact ⟨call, by rw [hcalls, List.getElem?_concat_length], hsome, rfl⟩
  · rw [hdeliveries] at hmem
    obtain ⟨callj, hcallj, hkept⟩ := h.deliveries delivery hmem
    exact ⟨callj, hold _ callj hcallj, hkept⟩

/-- An entry after a request was registered. -/
theorem getElem?_of_insertIfNew {table : Std.ExtTreeMap Int Nat} {k o : Int} {i j : Nat}
    (hj : (table.insertIfNew k i)[o]? = some j) : table[o]? = some j ∨ j = i ∧ o = k := by
  rw [Std.ExtTreeMap.getElem?_insertIfNew] at hj
  split_ifs at hj with hnew
  · exact .inr ⟨(Option.some.inj hj).symm, (Std.LawfulEqCmp.eq_of_compare hnew.1).symm⟩
  · exact .inl hj

/-- A delivery that goes on is a delivery of the same response to the same future. -/
theorem mem_advanced {delivery delivery' : Delivery} {stage : DeliveryStage}
    (hn : s.deliveries[n]? = some delivery)
    (hmem : delivery' ∈ s.deliveries.eraseIdx n ++ [{ delivery with stage }]) :
    ∃ delivery'' ∈ s.deliveries, delivery'.future = delivery''.future ∧
      delivery'.response = delivery''.response := by
  rcases List.mem_append.mp hmem with hmem | hmem
  · exact ⟨delivery', List.mem_of_mem_eraseIdx hmem, rfl, rfl⟩
  · rw [List.mem_singleton.mp hmem]
    exact ⟨delivery, List.mem_of_getElem? hn, rfl, rfl⟩

/-- Every step keeps its pointers right. -/
theorem pointers_step (h : s.Pointers) {e : RemotingEvent} (hstep : s.step e = some t) :
    t.Pointers := by
  have hkept := fun hinvoke hunconnected ↦
    (callStep hstep hinvoke hunconnected).mono fun _ _ ↦ CallStep.kept
  by_cases hquiet : e.IsQuiet
  · have hquietStep := quietStep hquiet hstep
    exact h.keep (hkept (by rintro _ _ rfl; exact hquiet) (by rintro _ _ rfl; exact hquiet))
      hquietStep.table fun delivery hmem ↦
        ⟨delivery, hquietStep.deliveries.subset hmem, rfl, rfl⟩
  cases e with
  | unconnected kind o =>
    obtain rfl := Option.some.inj hstep
    exact h.append rfl rfl fun _ _ ↦ .inl
  | invoke kind o =>
    obtain rfl := Option.some.inj hstep
    refine h.append rfl rfl fun o' j hj ↦ ?_
    rcases getElem?_of_insertIfNew hj with hj | ⟨rfl, rfl⟩
    · exact .inl hj
    · exact .inr ⟨rfl, rfl, rfl⟩
  | take response =>
    simp only [step] at hstep
    split at hstep
    next pointer hentry =>
      obtain rfl := Option.some.inj hstep
      refine ⟨fun o j hj ↦ h.table o j (getElem?_of_erase hj), fun delivery hmem ↦ ?_⟩
      rcases List.mem_append.mp hmem with hmem | hmem
      · exact h.deliveries delivery hmem
      · obtain ⟨call, hi, hsome, hsameId⟩ := h.table _ _ hentry
        rw [List.mem_singleton.mp hmem]
        exact ⟨call, hi, hsome, hsameId.symm⟩
    next =>
      obtain rfl := Option.some.inj hstep
      exact h
  | putResponse n | executeInvokeCallback n =>
    replace hkept := hkept nofun nofun
    simp only [step, Option.bind_eq_bind, Option.bind_eq_some_iff, deliveryIn_eq_some] at hstep
    obtain ⟨delivery, ⟨hn, -⟩, hstep⟩ := hstep
    obtain rfl := Option.some.inj hstep
    apply h.keep hkept (by rw [use_table]; exact fun _ _ ↦ id)
    rw [use_deliveries]
    exact fun _ hmem ↦ mem_advanced hn hmem
  | sendCmd | waitResponse | remove | release | decRef => exact absurd trivial hquiet

theorem pointers_empty : empty.Pointers where
  table o i h := by simp [empty] at h
  deliveries delivery hmem := by simp [empty] at hmem

/-- A call after a new one was added. -/
theorem getElem?_concat {calls : List Invocation} {j : Nat} {callj : Invocation}
    (hj : (calls ++ [call])[j]? = some callj) :
    calls[j]? = some callj ∨ j = calls.length ∧ callj = call := by
  rw [List.getElem?_append] at hj
  split_ifs at hj with hlt
  · exact .inl hj
  · rw [List.getElem?_singleton] at hj
    split_ifs at hj with hzero
    exact .inr ⟨by omega, (Option.some.inj hj).symm⟩

/-- No call has this number yet. -/
theorem Pointers.fresh_index (h : s.Pointers) :
    (∀ o : Int, s.table[o]? ≠ some s.calls.length) ∧
      ∀ stage, s.delivering s.calls.length stage = 0 := by
  refine ⟨fun o ho ↦ ?_, fun stage ↦ ?_⟩
  · obtain ⟨call, hi, -⟩ := h.table o _ ho
    rw [List.getElem?_length] at hi
    cases hi
  · rw [delivering, List.countP_eq_zero]
    intro delivery hmem hsame
    obtain ⟨call, hi, -⟩ := h.deliveries delivery hmem
    rw [(of_decide_eq_true hsame).1, List.getElem?_length] at hi
    cases hi

end Step
end ResponseTable
end RocketMQ
