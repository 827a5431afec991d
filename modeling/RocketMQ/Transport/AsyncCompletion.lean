import RocketMQ.Consumer.PullMessage
import RocketMQ.Producer.Send
import RocketMQ.Transport.ResponseTable

/-!
# The completion of asynchronous calls

The callback of `invokeAsync` runs once at most, since only an entry of the table leads a
response to it. It never runs without a response: without a connection, and after a failed
write, `invokeAsync` returns non-zero with its future given back, so the user hears nothing.
-/

namespace RocketMQ

/-! ### What the user's callback hears -/

/-- `src/producer/ProducerInvokeCallback.cpp:40–93` and
`src/consumer/ConsumerInvokeCallback.cpp:35–89`: what the user's callback gets, `onSuccess` or
`onException`, or nothing if it is `NULL`. -/
def InvokeCallback.operationComplete {R : Type}
    (processResponse : Response → Option (Except MQException R)) (userCallback isTimeout : Bool)
    (completion : Completion) : Option (Except MQException R) :=
  if userCallback then
    match completion.response with
    | some response => processResponse response
    | none =>
      if !completion.sendRequestOK then some (.error (.client (str "send request failed") (-1)))
      else if isTimeout then some (.error (.client (str "wait response timeout") (-1)))
      else some (.error (.client (str "unknow reseaon") (-1)))
  else none

/-- The response is given to `processSendResponse`. -/
def ProducerInvokeCallback.operationComplete (projectGroupPrefix brokerName topic : StdString)
    (decode : Response → RemotingCommand SendMessageResponseHeader) :
    Bool → Bool → Completion → Option (Except MQException (Option SendResult)) :=
  InvokeCallback.operationComplete fun response ↦
    MQClientAPIImpl.processSendResponse projectGroupPrefix brokerName topic (some (decode response))

/-- The response is given to `processPullResponse`. -/
def ConsumerInvokeCallback.operationComplete
    (decode : Response → RemotingCommand PullMessageResponseHeader) :
    Bool → Bool → Completion → Option (Except MQException PullResult) :=
  InvokeCallback.operationComplete fun response ↦
    MQClientAPIImpl.processPullResponse (decode response)

/-- The user's callback hears that the request was not sent. -/
def Completion.SendFailed (completion : Completion) : Prop :=
  completion.response = none ∧
    ∀ (R : Type) (processResponse : Response → Option (Except MQException R)) (isTimeout : Bool),
      InvokeCallback.operationComplete processResponse true isTimeout completion =
        some (.error (.client (str "send request failed") (-1)))

/-- That is the branch for a null response and a request that was not sent. -/
theorem Completion.sendFailed_iff (completion : Completion) :
    completion.SendFailed ↔ completion.response = none ∧ completion.sendRequestOK = false := by
  refine and_congr_right fun hnull ↦ ⟨fun h ↦ ?_, fun h R processResponse isTimeout ↦ ?_⟩
  · cases hsent : completion.sendRequestOK with
    | false => rfl
    | true =>
      have htext := h Unit (fun _ ↦ none) true
      simp only [InvokeCallback.operationComplete, hnull, hsent] at htext
      exact absurd htext (by decide)
  · simp only [InvokeCallback.operationComplete, hnull, h, Bool.not_false, if_true]

/-! ### What `invokeAsync` promises -/

/-- What `invokeAsync` has returned. -/
def Invocation.invokeAsyncRet (call : Invocation) : Option Int :=
  if call.stage = .returned then
    match call.future with
    | some _ => call.sendRet
    | none => some (-1)
  else none

/-- The callback ran once at most, and once with a null response if `invokeAsync` returned
non-zero. -/
structure Invocation.Reported (call : Invocation) : Prop where
  once : call.completions.length ≤ 1
  failure : ∀ ret, call.invokeAsyncRet = some ret → ret ≠ 0 →
    ∃ completion, call.completions = [completion] ∧ completion.SendFailed

namespace ResponseTable

/-- Every asynchronous call with a callback is reported. -/
def AllReported (s : ResponseTable) : Prop :=
  ∀ call ∈ s.calls, call.kind = .async true → call.Reported

/-- An asynchronous call with a callback finds a connection, and its request is written. -/
def Sends (s : ResponseTable) : RemotingEvent → Prop
  | .unconnected kind _ => kind ≠ .async true
  | .sendCmd i ret => ∀ call ∈ s.calls[i]?, call.kind = .async true → ret = 0
  | _ => True

/-! ### The callback runs once at most, with a response -/

/-- What is right about the completions of a call: there is one at most, each has a response,
and no other one is to come once there is one. -/
structure CompletedOnce (call : Invocation) (tabled taken put : Nat) : Prop where
  length : call.completions.length + tabled + taken + put ≤ 1
  response : ∀ completion ∈ call.completions, completion.response.isSome
  answered : 0 < put → ∀ responses ∈ call.future.map ResponseFuture.responses, responses ≠ []

/-- The invariant: pointers lead to futures, completions are right, and a call has no return
value of `SendCmd` while its request is being written. -/
structure Once (s : ResponseTable) : Prop extends s.Pointers where
  calls : ∀ (i : Nat) (call : Invocation), s.calls[i]? = some call →
    CompletedOnce call (s.tabled i call) (s.delivering i .taken) (s.delivering i .put)
  sending : ∀ (i : Nat) (call : Invocation), s.calls[i]? = some call → call.stage = .sending →
    call.sendRet = none

section Step

variable {s t : ResponseTable} {i n : Nat} {call call' : Invocation} {future : ResponseFuture}

theorem CompletedOnce.quiet {tabled taken put tabled' taken' put' : Nat}
    (h : CompletedOnce call tabled taken put) (hquiet : Quiet call call')
    (htabled : tabled' ≤ tabled) (htaken : taken' ≤ taken) (hput : put' ≤ put) :
    CompletedOnce call' tabled' taken' put' where
  length := by
    have hlength := h.length
    rw [hquiet.completions]
    omega
  response := by rw [hquiet.completions]; exact h.response
  answered hpos := by rw [hquiet.responses]; exact h.answered (by omega)

/-- A call that is still sending was sending before. -/
theorem CallStep.sending {e : RemotingEvent} (h : CallStep e call call')
    (hsending : call'.stage = .sending) : call.stage = .sending ∧ call'.sendRet = call.sendRet := by
  cases h with
  | refl | put | dropped | finished | completed => exact ⟨hsending, rfl⟩
  | sent _ hstage => exact absurd hsending hstage
  | unsent | waited | removed | removedAndDropped | released => cases hsending

theorem once_quiet (h : s.Once) {e : RemotingEvent} (hquiet : e.IsQuiet)
    (hstep : s.step e = some t) : t.Once := by
  have hcalls := callStep hstep (by rintro _ _ rfl; exact hquiet) (by rintro _ _ rfl; exact hquiet)
  have hquietStep := quietStep hquiet hstep
  refine ⟨pointers_step h.toPointers hstep, fun i call' hi' ↦ ?_, fun i call' hi' hsending ↦ ?_⟩
  · obtain ⟨call, hi, hR⟩ := hquietStep.calls.back hi'
    exact (h.calls i call hi).quiet hR (tabled_le hR.opaqueId (hquietStep.table _ _))
      hquietStep.deliveries.countP_le hquietStep.deliveries.countP_le
  · obtain ⟨call, hi, hR⟩ := hcalls.back hi'
    obtain ⟨hold, hret⟩ := hR.sending hsending
    rw [hret]
    exact h.sending i call hi hold

/-- Frame rule for a new call. -/
theorem Once.append (h : s.Once) (hpointers : t.Pointers) (hcalls : t.calls = s.calls ++ [call])
    (hdeliveries : t.deliveries = s.deliveries)
    (htable : ∀ (o : Int) (j : Nat), t.table[o]? = some j → s.table[o]? = some j ∨
      j = s.calls.length)
    (hcompletions : call.completions = []) (hret : call.sendRet = none) : t.Once := by
  refine ⟨hpointers, fun j callj hj ↦ ?_, fun j callj hj hsending ↦ ?_⟩
  · rw [hcalls] at hj
    rw [delivering_congr hdeliveries, delivering_congr hdeliveries]
    rcases getElem?_concat hj with hj | ⟨rfl, rfl⟩
    · refine (h.calls j callj hj).quiet ⟨rfl, rfl, rfl⟩ (tabled_le rfl fun hnew ↦ ?_)
        (Nat.le_refl _) (Nat.le_refl _)
      rcases htable _ _ hnew with hentry | rfl
      · exact hentry
      · rw [List.getElem?_length] at hj
        cases hj
    · rw [h.fresh_index.2, h.fresh_index.2]
      refine ⟨?_, by rw [hcompletions]; nofun, nofun⟩
      rw [hcompletions, tabled]
      split_ifs
      · exact Nat.le_refl 1
      · exact Nat.zero_le 1
  · rw [hcalls] at hj
    rcases getElem?_concat hj with hj | ⟨rfl, rfl⟩
    · exact h.sending j callj hj hsending
    · exact hret

/-- Frame rule for a delivery that goes on: only the call it is for has to be looked at. -/
theorem Once.deliver (h : s.Once) (hpointers : t.Pointers) {delivery : Delivery}
    {stage : DeliveryStage} (hn : s.deliveries[n]? = some delivery)
    (hi : s.calls[delivery.future]? = some call)
    (hcalls : t.calls = s.calls.set delivery.future call') (htable : t.table = s.table)
    (hdeliveries : t.deliveries = s.deliveries.eraseIdx n ++ [{ delivery with stage }])
    (hsending : call'.stage = .sending → call.stage = .sending ∧ call'.sendRet = call.sendRet)
    (honce : CompletedOnce call' (t.tabled delivery.future call')
      (t.delivering delivery.future .taken) (t.delivering delivery.future .put)) : t.Once := by
  obtain ⟨hlt, -⟩ := List.getElem?_eq_some_iff.mp hi
  refine ⟨hpointers, fun j callj hj ↦ ?_, fun j callj hj hsend ↦ ?_⟩
  · rw [hcalls, List.getElem?_set, if_pos hlt] at hj
    split_ifs at hj with hij
    · obtain rfl := Option.some.inj hj
      rw [← hij]
      exact honce
    · have hcount : ∀ stage', t.delivering j stage' = s.delivering j stage' := by
        intro stage'
        have hadvance := delivering_advance hn hdeliveries j stage'
        rw [if_neg fun hsame ↦ hij hsame.1, if_neg fun hsame ↦ hij hsame.1] at hadvance
        exact hadvance
      rw [hcount, hcount, tabled, htable]
      exact h.calls j callj hj
  · rw [hcalls, List.getElem?_set, if_pos hlt] at hj
    split_ifs at hj with hij
    · obtain rfl := Option.some.inj hj
      obtain ⟨hold, hret⟩ := hsending hsend
      rw [hret]
      exact h.sending _ call hi hold
    · exact h.sending j callj hj hsend

theorem use_calls (f : Invocation → ResponseFuture → Invocation) (hi : s.calls[i]? = some call)
    (hf : call.future = some future) : (s.use i f).calls = s.calls.set i (f call future) := by
  rw [use, hi]
  simp only [hf]

theorem once_take (h : s.Once) {response : Response} (hstep : s.step (.take response) = some t) :
    t.Once := by
  have hpointers := pointers_step h.toPointers hstep
  simp only [step] at hstep
  split at hstep
  next pointer hentry =>
    obtain ⟨call, hi, hsome, hsameId⟩ := h.table _ _ hentry
    have ht := Option.some.inj hstep
    have hcalls : t.calls = s.calls := by rw [← ht]
    have hdeliveries : t.deliveries = s.deliveries ++ [⟨response, pointer, .taken⟩] := by rw [← ht]
    refine ⟨hpointers, fun j callj hj ↦ ?_, by rw [hcalls]; exact h.sending⟩
    rw [hcalls] at hj
    have honce := h.calls j callj hj
    rw [delivering_take hdeliveries, delivering_take hdeliveries]
    by_cases hij : pointer = j
    · -- the entry of this call goes to the delivery
      subst hij
      obtain rfl := Option.some.inj (hi.symm.trans hj)
      have htabled : s.tabled pointer call = 1 := by rw [tabled, if_pos (hsameId ▸ hentry)]
      have hgone : t.tabled pointer call = 0 := by
        apply tabled_of_absent
        rw [← ht, hsameId]
        exact Std.ExtTreeMap.getElem?_erase_self
      rw [htabled] at honce
      rw [hgone]
      simp only [and_self, reduceCtorEq, and_false, if_true, if_false, Nat.add_zero]
      have hlength := honce.length
      exact ⟨by omega, honce.response, honce.answered⟩
    · rw [if_neg fun hsame ↦ hij hsame.1, if_neg fun hsame ↦ hij hsame.1]
      refine honce.quiet ⟨rfl, rfl, rfl⟩ (tabled_le rfl fun hnew ↦ ?_) (Nat.le_refl _)
        (Nat.le_refl _)
      rw [← ht] at hnew
      exact getElem?_of_erase hnew
  next =>
    obtain rfl := Option.some.inj hstep
    exact h

theorem once_putResponse (h : s.Once) (hstep : s.step (.putResponse n) = some t) : t.Once := by
  have hpointers := pointers_step h.toPointers hstep
  simp only [step, Option.bind_eq_bind, Option.bind_eq_some_iff, deliveryIn_eq_some] at hstep
  obtain ⟨delivery, ⟨hn, hstage⟩, hstep⟩ := hstep
  obtain ⟨call, hi, hsome, hsameId⟩ := h.deliveries delivery (List.mem_of_getElem? hn)
  obtain ⟨future, hf⟩ := Option.isSome_iff_exists.mp hsome
  have ht := Option.some.inj hstep
  have hcalls : t.calls = s.calls.set delivery.future { call with
      future := some { future with responses := future.responses ++ [delivery.response] } } := by
    rw [← ht]
    exact use_calls _ hi hf
  have htable : t.table = s.table := by rw [← ht, use_table]
  have hdeliveries :
      t.deliveries = s.deliveries.eraseIdx n ++ [{ delivery with stage := .put }] := by
    rw [← ht, use_deliveries]
  refine h.deliver hpointers hn hi hcalls htable hdeliveries (fun hsending ↦ ⟨hsending, rfl⟩) ?_
  have honce := h.calls _ call hi
  have hlength := honce.length
  obtain ⟨htaken, hput, -⟩ := delivering_move hn hdeliveries (by rw [hstage]; decide)
  rw [hstage] at htaken
  refine ⟨?_, honce.response, fun _ responses hmem ↦ ?_⟩
  · simp only [tabled, htable] at hlength ⊢
    omega
  · obtain rfl := Option.some.inj hmem
    exact List.append_ne_nil_of_right_ne_nil _ (List.cons_ne_nil _ _)

theorem once_executeInvokeCallback (h : s.Once)
    (hstep : s.step (.executeInvokeCallback n) = some t) : t.Once := by
  have hpointers := pointers_step h.toPointers hstep
  simp only [step, Option.bind_eq_bind, Option.bind_eq_some_iff, deliveryIn_eq_some] at hstep
  obtain ⟨delivery, ⟨hn, hstage⟩, hstep⟩ := hstep
  obtain ⟨call, hi, hsome, hsameId⟩ := h.deliveries delivery (List.mem_of_getElem? hn)
  obtain ⟨future, hf⟩ := Option.isSome_iff_exists.mp hsome
  have ht := Option.some.inj hstep
  have htable : t.table = s.table := by rw [← ht, use_table]
  have hdeliveries :
      t.deliveries = s.deliveries.eraseIdx n ++ [{ delivery with stage := .completed }] := by
    rw [← ht, use_deliveries]
  have honce := h.calls _ call hi
  have hlength := honce.length
  have hpos := delivering_pos hn
  obtain ⟨hput, -, hother⟩ := delivering_move hn hdeliveries (by rw [hstage]; decide)
  rw [hstage] at hpos hput hother
  have htaken := hother .taken (by decide) (by decide)
  have hcalls : t.calls = s.calls.set delivery.future (if call.kind = .async true then
      { call with
        completions := call.completions ++ [⟨future.responses.getLast?, future.sendRequestOK⟩] }
      else call) := by
    rw [← ht]
    exact use_calls _ hi hf
  split_ifs at hcalls with hcallback
  · -- the response was put, so the callback finds it
    refine h.deliver hpointers hn hi hcalls htable hdeliveries (fun hsending ↦ ⟨hsending, rfl⟩) ?_
    refine ⟨?_, fun completion hmem ↦ ?_, fun _ ↦ honce.answered hpos⟩
    · rw [List.length_append, List.length_singleton]
      simp only [tabled, htable] at hlength ⊢
      omega
    · rcases List.mem_append.mp hmem with hmem | hmem
      · exact honce.response completion hmem
      · rw [List.mem_singleton.mp hmem]
        exact List.getLast?_isSome.mpr (honce.answered hpos _ (by rw [hf]; rfl))
  · refine h.deliver hpointers hn hi hcalls htable hdeliveries (fun hsending ↦ ⟨hsending, rfl⟩) ?_
    refine honce.quiet ⟨rfl, rfl, rfl⟩ ?_ (by omega) (by omega)
    rw [tabled, tabled, htable]

/-- Every step keeps the invariant. -/
theorem once_step (h : s.Once) {e : RemotingEvent} (hstep : s.step e = some t) : t.Once := by
  by_cases hquiet : e.IsQuiet
  · exact once_quiet h hquiet hstep
  cases e with
  | unconnected kind o =>
    have hpointers := pointers_step h.toPointers hstep
    obtain rfl := Option.some.inj hstep
    exact h.append hpointers rfl rfl (fun _ _ ↦ .inl) rfl rfl
  | invoke kind o =>
    have hpointers := pointers_step h.toPointers hstep
    obtain rfl := Option.some.inj hstep
    exact h.append hpointers rfl rfl
      (fun _ _ hj ↦ (getElem?_of_insertIfNew hj).imp_right And.left) rfl rfl
  | take => exact once_take h hstep
  | putResponse => exact once_putResponse h hstep
  | executeInvokeCallback => exact once_executeInvokeCallback h hstep
  | sendCmd | waitResponse | remove | release | decRef => exact absurd trivial hquiet

theorem once_empty : empty.Once where
  toPointers := pointers_empty
  calls i call h := by simp [empty] at h
  sending i call h := by simp [empty] at h

/-! ### Calls whose requests were written -/

/-- An asynchronous call with a callback has found a connection, and `SendCmd` has not failed. -/
def Sent (call : Invocation) : Prop :=
  call.kind = .async true → call.future.isSome ∧ ∀ ret ∈ call.sendRet, ret = 0

/-- All calls are such. -/
def AllSent (s : ResponseTable) : Prop := ∀ (i : Nat) (call : Invocation),
  s.calls[i]? = some call → Sent call

/-- Only a failed write changes whether a call was sent. -/
theorem CallStep.sent_iff {e : RemotingEvent} (h : CallStep e call call')
    (hsending : call.stage = .sending → call.sendRet = none)
    (hwrite : ∀ i ret, e = .sendCmd i ret → ret = 0) : Sent call' ↔ Sent call := by
  cases h with
  | refl | waited | removed | completed => exact Iff.rfl
  | sent hstage _ hf => simp [Sent, hsending hstage, hf]
  | unsent _ hret => exact absurd (hwrite _ _ rfl) hret
  | dropped hf | removedAndDropped hf | released hf | put hf | finished hf =>
    simp [Sent, decRefOf, hf]

theorem allSent_within (h : CallsWithin (fun call call' ↦ Sent call' ↔ Sent call) s t) :
    t.AllSent ↔ s.AllSent := by
  constructor
  · intro hall i call hi
    obtain ⟨call', hi', hiff⟩ := h.forth hi
    exact hiff.mp (hall i call' hi')
  · intro hall i call' hi'
    obtain ⟨call, hi, hiff⟩ := h.back hi'
    exact hiff.mpr (hall i call hi)

theorem allSent_append (hcalls : t.calls = s.calls ++ [call]) :
    t.AllSent ↔ s.AllSent ∧ Sent call := by
  constructor
  · intro hall
    refine ⟨fun i call' hi ↦ hall i call' ?_, hall s.calls.length call ?_⟩
    · obtain ⟨hlt, -⟩ := List.getElem?_eq_some_iff.mp hi
      rw [hcalls, List.getElem?_append_left hlt, hi]
    · rw [hcalls, List.getElem?_concat_length]
  · rintro ⟨hall, hnew⟩ i call' hi
    rw [hcalls] at hi
    rcases getElem?_concat hi with hi | ⟨-, rfl⟩
    · exact hall i call' hi
    · exact hnew

theorem allSent_failedWrite {ret : Int} (hret : ret ≠ 0)
    (hstep : s.step (.sendCmd i ret) = some t) :
    t.AllSent ↔ s.AllSent ∧ s.Sends (.sendCmd i ret) := by
  simp only [step, Option.bind_eq_bind, Option.bind_eq_some_iff, callIn_eq_some, if_neg hret]
    at hstep
  obtain ⟨call, ⟨hi, -⟩, hstep⟩ := hstep
  obtain ⟨hlt, -⟩ := List.getElem?_eq_some_iff.mp hi
  obtain rfl := Option.some.inj hstep
  have hsent : Sent { call with stage := .removing, sendRet := some ret } ↔
      call.kind ≠ .async true := by
    simp [Sent, hret]
  have hsends : s.Sends (.sendCmd i ret) ↔ call.kind ≠ .async true := by
    simp [Sends, hi, hret]
  rw [hsends]
  constructor
  · intro hall
    have hkind := hsent.mp (hall i _ (List.getElem?_set_self hlt))
    refine ⟨fun j callj hj ↦ ?_, hkind⟩
    by_cases hij : i = j
    · subst hij
      rw [← Option.some.inj (hi.symm.trans hj)]
      exact fun h ↦ absurd h hkind
    · exact hall j callj (by rw [List.getElem?_set_ne hij]; exact hj)
  · rintro ⟨hall, hkind⟩ j callj hj
    rw [List.getElem?_set, if_pos hlt] at hj
    split_ifs at hj with hij
    · rw [← Option.some.inj hj]
      exact hsent.mpr hkind
    · exact hall j callj hj

/-- All calls stay sent as long as connections are found and writes succeed. -/
theorem allSent_step (h : s.Once) {e : RemotingEvent} (hstep : s.step e = some t) :
    t.AllSent ↔ s.AllSent ∧ s.Sends e := by
  -- all steps of calls that are there, but for a failed write
  have hwithin : (∀ kind o, e ≠ .invoke kind o) → (∀ kind o, e ≠ .unconnected kind o) →
      (∀ i ret, e = .sendCmd i ret → ret = 0) → (t.AllSent ↔ s.AllSent) := by
    intro hinvoke hunconnected hwrite
    have hcalls := callStep hstep hinvoke hunconnected
    exact allSent_within ⟨hcalls.1, fun i call call' hi hi' ↦
      (hcalls.2 i call call' hi hi').sent_iff (h.sending i call hi) hwrite⟩
  cases e with
  | unconnected kind o =>
    obtain rfl := Option.some.inj hstep
    rw [allSent_append rfl]
    simp [Sent, Sends]
  | invoke kind o =>
    obtain rfl := Option.some.inj hstep
    rw [allSent_append rfl]
    simp [Sent, Sends]
  | sendCmd i ret =>
    by_cases hret : ret = 0
    · rw [hwithin nofun nofun (by rintro _ _ ⟨⟩; exact hret)]
      exact (and_iff_left fun _ _ _ ↦ hret).symm
    · exact allSent_failedWrite hret hstep
  | waitResponse | remove | release | take | putResponse | executeInvokeCallback | decRef =>
    rw [hwithin nofun nofun nofun]
    exact (and_iff_left trivial).symm

end Step

/-! ### Whole runs -/

section Run

variable {s t : ResponseTable} {es : List RemotingEvent}

theorem once_of_run (hrun : Base.runFrom step empty es = some s) : s.Once :=
  Base.inv_of_runFrom (fun _ _ _ h hstep ↦ once_step h hstep) once_empty hrun

theorem Once.completions_le_one (h : s.Once) {call : Invocation} (hmem : call ∈ s.calls) :
    call.completions.length ≤ 1 := by
  obtain ⟨i, hi⟩ := List.mem_iff_getElem?.mp hmem
  have hlength := (h.calls i call hi).length
  omega

/-- The runs that end with all calls sent are those in which every call was. -/
theorem allSent_iff (hrun : Base.runFrom step empty es = some s) :
    s.AllSent ↔ Base.Along step Sends empty es := by
  rw [Base.recorded_iff_along (fun _ _ _ h hstep ↦ once_step h hstep)
    (fun _ _ _ h hstep ↦ allSent_step h hstep) once_empty hrun]
  exact and_iff_right fun i call hi ↦ by simp [empty] at hi

/-- A call that was sent is reported: `invokeAsync` returns zero. -/
theorem Once.allReported (h : s.Once) (hsent : s.AllSent) : s.AllReported := by
  intro call hmem hkind
  refine ⟨h.completions_le_one hmem, fun ret hret hne ↦ ?_⟩
  obtain ⟨i, hi⟩ := List.mem_iff_getElem?.mp hmem
  obtain ⟨hsome, hzero⟩ := hsent i call hi hkind
  obtain ⟨future, hf⟩ := Option.isSome_iff_exists.mp hsome
  rw [Invocation.invokeAsyncRet, hf] at hret
  split_ifs at hret
  exact absurd (hzero ret hret) hne

/-- A call that returned and is reported was sent: its callback never runs without a
response. -/
theorem Once.allSent (h : s.Once) (hreturned : ∀ call ∈ s.calls, call.stage = .returned)
    (hreported : s.AllReported) : s.AllSent := by
  intro i call hi hkind
  have hmem := List.mem_of_getElem? hi
  have hzero : ∀ ret, call.invokeAsyncRet = some ret → ret = 0 := by
    intro ret hret
    by_contra hne
    obtain ⟨completion, hcompletions, hnull, -⟩ := (hreported call hmem hkind).failure ret hret hne
    have hresponse := (h.calls i call hi).response completion (by rw [hcompletions]; simp)
    rw [hnull] at hresponse
    cases hresponse
  rw [Invocation.invokeAsyncRet, if_pos (hreturned call hmem)] at hzero
  cases hf : call.future with
  | none => exact absurd (hzero (-1) (by rw [hf])) (by decide)
  | some future =>
    rw [hf] at hzero
    exact ⟨rfl, hzero⟩

/-- No callback runs twice; every call is reported throughout a run whose requests are all
written, and the other runs leave a call unreported when all calls have returned. -/
theorem reported_iff_sends (hrun : Base.runFrom step empty es = some s) :
    (∀ t, Base.Visits step empty es t → ∀ call ∈ t.calls, call.completions.length ≤ 1) ∧
    (Base.Along step Sends empty es → ∀ t, Base.Visits step empty es t → t.AllReported) ∧
    ((∀ call ∈ s.calls, call.stage = .returned) → s.AllReported →
      Base.Along step Sends empty es) := by
  refine ⟨?_, ?_, fun hreturned hreported ↦ ?_⟩
  · rintro t ⟨pre, -, hpre⟩ call hmem
    exact (once_of_run hpre).completions_le_one hmem
  · rintro hsends t ⟨pre, hprefix, hpre⟩
    exact (once_of_run hpre).allReported
      ((allSent_iff hpre).mpr (Base.along_initial hprefix hsends))
  · exact (allSent_iff hrun).mp ((once_of_run hrun).allSent hreturned hreported)

/-- A request that is written and answered. -/
def answered : List RemotingEvent :=
  [.invoke (.async true) 7, .sendCmd 0 0, .take ⟨7, []⟩, .putResponse 0,
    .executeInvokeCallback 0, .release 0, .decRef 0]

theorem answered_reported : (Base.runFrom step empty answered).isSome ∧
    ∀ s, Base.runFrom step empty answered = some s →
      (∀ t, Base.Visits step empty answered t →
        ∀ call ∈ t.calls, call.completions.length ≤ 1) ∧
      (Base.Along step Sends empty answered →
        ∀ t, Base.Visits step empty answered t → t.AllReported) ∧
      ((∀ call ∈ s.calls, call.stage = .returned) → s.AllReported →
        Base.Along step Sends empty answered) :=
  ⟨by decide +kernel, fun _ ↦ reported_iff_sends⟩

/-- Without a connection, and after a failed write, `invokeAsync` returns non-zero and the
callback has not run. -/
theorem failures_not_reported :
    (∃ s, Base.runFrom step empty [.unconnected (.async true) 7] = some s ∧ ¬ s.AllReported) ∧
    ∃ s, Base.runFrom step empty
      [.invoke (.async true) 7, .sendCmd 0 (-1), .remove 0, .release 0] = some s ∧
        ¬ s.AllReported := by
  refine ⟨⟨_, rfl, fun hall ↦ ?_⟩, ⟨_, rfl, fun hall ↦ ?_⟩⟩
  · obtain ⟨completion, hnone, -⟩ := (hall _ (.head _) rfl).failure (-1) rfl (by decide)
    cases hnone
  · obtain ⟨completion, hnone, -⟩ := (hall _ (.head _) rfl).failure (-1) rfl (by decide)
    cases hnone

end Run
end ResponseTable
end RocketMQ
