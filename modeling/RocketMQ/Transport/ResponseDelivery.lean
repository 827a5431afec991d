import RocketMQ.Transport.ResponseTable

/-!
# Each response reaches its own call once

The reference count of a future is the number of its holders (the table, its call until it
returns, the deliveries of its response), whatever the order of requests, responses, timeouts
and failures. So a future is deleted once, after its last use, and gets one response at most,
which has its opaque.
-/

namespace RocketMQ
namespace ResponseTable

/-! ### What is right -/

/-- What is right about the future of a call: its count, its responses (one at most, with its
opaque) and what the call got from it, given how often the table and the deliveries hold it. -/
structure FutureRight (call : Invocation) (future : ResponseFuture)
    (tabled taken put completed : Nat) : Prop where
  agrees : future.Agrees (tabled + (if call.stage = .returned then 0 else 1) +
    (taken + put + completed))
  responses_length : future.responses.length + taken + tabled ≤ 1
  responses_opaque : ∀ response ∈ future.responses, response.opaqueId = call.opaqueId
  response_mem : ∀ response ∈ call.response, response ∈ future.responses

/-- What is right about a call: it has a future until it returns, a synchronous one has left the
table when it is about to return, and its future is right. -/
def CallRight (s : ResponseTable) (i : Nat) (call : Invocation) : Prop :=
  (call.future = none → call.stage = .returned) ∧
    (call.kind = .sync → call.stage = .releasing → s.table[call.opaqueId]? = none) ∧
    ∀ future, call.future = some future → FutureRight call future (s.tabled i call)
      (s.delivering i .taken) (s.delivering i .put) (s.delivering i .completed)

/-- The invariant: pointers lead to futures, calls that have not returned have opaques of their
own, and everything is right about each call. -/
structure Inv (s : ResponseTable) : Prop extends s.Pointers where
  apart : ∀ (i j : Nat) (call call' : Invocation), s.calls[i]? = some call →
    s.calls[j]? = some call' → call.stage ≠ .returned → call'.stage ≠ .returned →
    call.opaqueId = call'.opaqueId → i = j
  own : ∀ (i j : Nat) (call : Invocation), s.calls[i]? = some call → call.stage ≠ .returned →
    s.table[call.opaqueId]? = some j → j = i
  calls : ∀ (i : Nat) (call : Invocation), s.calls[i]? = some call → s.CallRight i call
  unused : s.usedAfterDelete = false

/-! ### One step -/

section Step

variable {s t : ResponseTable} {i n : Nat} {call call' : Invocation} {future : ResponseFuture}

/-- A future that somebody holds is there. -/
theorem FutureRight.deletions_eq_zero {tabled taken put completed : Nat}
    (h : FutureRight call future tabled taken put completed)
    (hpos : 0 < tabled + (if call.stage = .returned then 0 else 1) + (taken + put + completed)) :
    future.deletions = 0 :=
  h.agrees.deletions_eq_zero hpos

/-- Frame rule: a step changes one call, keeps its opaque, takes at most its own entry from the
table, and advances only deliveries of its future. Then only this call has to be looked at. -/
theorem Inv.set (h : s.Inv) (hpointers : t.Pointers) (hi : s.calls[i]? = some call)
    (hcalls : t.calls = s.calls.set i call') (hsameId : call'.opaqueId = call.opaqueId)
    (hstage : call'.stage ≠ .returned → call.stage ≠ .returned)
    (htable : ∀ (o : Int) (j : Nat), t.table[o]? = some j → s.table[o]? = some j)
    (hothers : ∀ (o : Int) (j : Nat), j ≠ i → s.table[o]? = some j → t.table[o]? = some j)
    (hcounts : ∀ j, j ≠ i → ∀ stage, t.delivering j stage = s.delivering j stage)
    (hright : t.CallRight i call') (hunused : t.usedAfterDelete = false) : t.Inv := by
  -- what a call of the new state was before
  have hback : ∀ (j : Nat) (callj : Invocation), t.calls[j]? = some callj →
      ∃ callj' : Invocation, s.calls[j]? = some callj' ∧
      callj.opaqueId = callj'.opaqueId ∧ (callj.stage ≠ .returned → callj'.stage ≠ .returned) ∧
      (j ≠ i → callj = callj') := by
    intro j callj hj
    rw [hcalls, List.getElem?_set] at hj
    split_ifs at hj with hij hlt
    · obtain rfl := Option.some.inj hj
      exact ⟨call, hij ▸ hi, hsameId, hstage, fun hne ↦ absurd hij.symm hne⟩
    · exact ⟨callj, hj, rfl, id, fun _ ↦ rfl⟩
  refine ⟨hpointers, ?_, ?_, ?_, hunused⟩
  · intro j k callj callk hj hk hsj hsk hsame
    obtain ⟨callj', hj', hoj, hsj', -⟩ := hback j callj hj
    obtain ⟨callk', hk', hok, hsk', -⟩ := hback k callk hk
    exact h.apart j k callj' callk' hj' hk' (hsj' hsj) (hsk' hsk) (by rw [← hoj, ← hok, hsame])
  · intro j k callj hj hsj hk
    obtain ⟨callj', hj', hoj, hsj', -⟩ := hback j callj hj
    exact h.own j k callj' hj' (hsj' hsj) (hoj ▸ htable _ _ hk)
  · intro j callj hj
    by_cases hij : i = j
    · subst hij
      obtain ⟨hlt, -⟩ := List.getElem?_eq_some_iff.mp hi
      rw [hcalls, List.getElem?_set_self hlt] at hj
      obtain rfl := Option.some.inj hj
      exact hright
    · obtain ⟨callj', hj', -, -, hsame⟩ := hback j callj hj
      obtain rfl := hsame (Ne.symm hij)
      obtain ⟨hnone, hleft, hfut⟩ := h.calls j callj hj'
      refine ⟨hnone, fun hsync hrel ↦ ?_, fun future hfuture' ↦ ?_⟩
      · cases hentry : t.table[callj.opaqueId]? with
        | none => rfl
        | some k =>
          have hold := htable _ _ hentry
          rw [hleft hsync hrel] at hold
          cases hold
      · have htabled : t.tabled j callj = s.tabled j callj := by
          rw [tabled, tabled]
          exact if_congr ⟨htable _ _, hothers _ _ (Ne.symm hij)⟩ rfl rfl
        rw [htabled, hcounts j (Ne.symm hij), hcounts j (Ne.symm hij), hcounts j (Ne.symm hij)]
        exact hfut future hfuture'

/-- Another pointer is still there. -/
theorem getElem?_erase_of_ne {table : Std.ExtTreeMap Int Nat} {k o : Int} {i j : Nat}
    (hi : table[k]? = some i) (hne : j ≠ i) (hj : table[o]? = some j) :
    (table.erase k)[o]? = some j := by
  rw [Std.ExtTreeMap.getElem?_erase, if_neg]
  · exact hj
  · intro hsame
    rw [Std.LawfulEqCmp.eq_of_compare hsame, hj] at hi
    exact hne (Option.some.inj hi)

/-- A call that has not returned has a future, which is right and not deleted. -/
theorem Inv.future_of_stage (h : s.Inv) (hi : s.calls[i]? = some call)
    (hstage : call.stage ≠ .returned) : ∃ future, call.future = some future ∧
      FutureRight call future (s.tabled i call) (s.delivering i .taken) (s.delivering i .put)
        (s.delivering i .completed) ∧ future.deletions = 0 := by
  obtain ⟨hnone, -, hright⟩ := h.calls i call hi
  cases hf : call.future with
  | none => exact absurd (hnone hf) hstage
  | some future =>
    refine ⟨future, rfl, hright future hf, (hright future hf).deletions_eq_zero ?_⟩
    rw [if_neg hstage]
    omega

/-- A call at a step of its own has one, too. -/
theorem Inv.future_of_callIn (h : s.Inv) {stage : CallStage} (hreturned : stage ≠ .returned)
    (hcall : s.callIn i stage = some call) : s.calls[i]? = some call ∧ call.stage ≠ .returned ∧
      ∃ future, call.future = some future ∧
        FutureRight call future (s.tabled i call) (s.delivering i .taken) (s.delivering i .put)
          (s.delivering i .completed) ∧ future.deletions = 0 := by
  obtain ⟨hi, rfl⟩ := callIn_eq_some.mp hcall
  exact ⟨hi, hreturned, h.future_of_stage hi hreturned⟩

/-- The future of a delivery is right and not deleted. -/
theorem Inv.future_of_delivery (h : s.Inv) {delivery : Delivery}
    (hn : s.deliveries[n]? = some delivery) : ∃ call future,
      s.calls[delivery.future]? = some call ∧ call.future = some future ∧
      delivery.response.opaqueId = call.opaqueId ∧
      FutureRight call future (s.tabled delivery.future call) (s.delivering delivery.future .taken)
        (s.delivering delivery.future .put) (s.delivering delivery.future .completed) ∧
      future.deletions = 0 := by
  obtain ⟨call, hcall, hsome, hsameId⟩ := h.deliveries delivery (List.mem_of_getElem? hn)
  obtain ⟨future, hf⟩ := Option.isSome_iff_exists.mp hsome
  have hright := (h.calls _ call hcall).2.2 future hf
  have hpos := delivering_pos hn
  refine ⟨call, future, hcall, hf, hsameId, hright, hright.deletions_eq_zero ?_⟩
  cases hstage : delivery.stage with
  | taken =>
    rw [hstage] at hpos
    omega
  | put =>
    rw [hstage] at hpos
    omega
  | completed =>
    rw [hstage] at hpos
    omega

/-- A step inside one call that keeps the table and the deliveries. -/
theorem Inv.set_call (h : s.Inv)
    (hpointers : Pointers { s with calls := s.calls.set i call' }) (hi : s.calls[i]? = some call)
    (hsameId : call'.opaqueId = call.opaqueId) (hsome : call'.future.isSome)
    (hstage : call'.stage ≠ .returned → call.stage ≠ .returned)
    (hleft : call'.kind = .sync → call'.stage = .releasing → s.table[call.opaqueId]? = none)
    (hright : ∀ future', call'.future = some future' → FutureRight call' future'
      (s.tabled i call) (s.delivering i .taken) (s.delivering i .put)
      (s.delivering i .completed)) :
    Inv { s with calls := s.calls.set i call' } := by
  refine h.set hpointers hi rfl hsameId hstage (fun _ _ ↦ id) (fun _ _ _ ↦ id)
    (fun _ _ _ ↦ rfl) ⟨?_, ?_, ?_⟩ h.unused
  · intro hnone
    rw [hnone] at hsome
    cases hsome
  · rw [hsameId]
    exact hleft
  · intro future' hf
    have htabled : tabled { s with calls := s.calls.set i call' } i call' = s.tabled i call := by
      rw [tabled, tabled, hsameId]
    rw [htabled]
    exact hright future' hf

/-- A future stays right when its call goes on without giving its reference back. -/
theorem FutureRight.restage {future' : ResponseFuture} {tabled taken put completed : Nat}
    (h : FutureRight call future tabled taken put completed)
    (hsameId : call'.opaqueId = call.opaqueId)
    (hstage' : call'.stage ≠ .returned) (hstage : call.stage ≠ .returned)
    (hresponse : ∀ response ∈ call'.response, response ∈ future.responses)
    (hcount : future'.toRefCount = future.toRefCount)
    (hresponses : future'.responses = future.responses) :
    FutureRight call' future' tabled taken put completed where
  agrees := by
    have hagrees := h.agrees
    rw [if_neg hstage] at hagrees
    rw [hcount, if_neg hstage']
    exact hagrees
  responses_length := by rw [hresponses]; exact h.responses_length
  responses_opaque := by rw [hresponses, hsameId]; exact h.responses_opaque
  response_mem := by rw [hresponses]; exact hresponse

/-- It does when a holder gives its reference back, too. -/
theorem FutureRight.release {tabled taken put completed tabled' completed' : Nat}
    (h : FutureRight call future tabled taken put completed)
    (hsameId : call'.opaqueId = call.opaqueId)
    (hresponse : call'.response = call.response)
    (hholders : tabled + (if call.stage = .returned then 0 else 1) + completed =
      tabled' + (if call'.stage = .returned then 0 else 1) + completed' + 1)
    (htabled : tabled' ≤ tabled) :
    FutureRight call' { future with toRefCount := future.decRef } tabled' taken put
      completed' where
  agrees := by
    have hagrees := h.agrees
    rw [show tabled + (if call.stage = .returned then 0 else 1) + (taken + put + completed) =
      tabled' + (if call'.stage = .returned then 0 else 1) + (taken + put + completed') + 1 by
        omega] at hagrees
    exact hagrees.decRef
  responses_length := by
    have hlength := h.responses_length
    simp only
    omega
  responses_opaque := by rw [hsameId]; exact h.responses_opaque
  response_mem := by rw [hresponse]; exact h.response_mem

theorem inv_sendCmd (h : s.Inv) {ret : Int} (hstep : s.step (.sendCmd i ret) = some t) :
    t.Inv := by
  have hpointers := pointers_step h.toPointers hstep
  simp only [step, Option.bind_eq_bind, Option.bind_eq_some_iff] at hstep
  obtain ⟨call, hcall, hstep⟩ := hstep
  obtain ⟨hi, hnot, future, hf, hright, halive⟩ := h.future_of_callIn (by decide) hcall
  split_ifs at hstep with hret
  · rw [use_eq _ hi hf halive] at hstep
    obtain rfl := Option.some.inj hstep
    apply h.set_call hpointers hi rfl rfl (fun _ ↦ hnot)
    · intro hsync hrel
      simp only at hsync
      rw [if_pos hsync] at hrel
      cases hrel
    · intro future' hf'
      obtain rfl := Option.some.inj hf'
      refine hright.restage rfl ?_ hnot hright.response_mem rfl rfl
      simp only
      split_ifs
      · decide
      · decide
  · obtain rfl := Option.some.inj hstep
    apply h.set_call hpointers hi rfl (by rw [hf]; rfl) (fun _ ↦ hnot) (by simp)
    intro future' hf'
    obtain rfl := Option.some.inj (hf.symm.trans hf')
    exact hright.restage rfl (by simp) hnot hright.response_mem rfl rfl

theorem inv_waitResponse (h : s.Inv) (hstep : s.step (.waitResponse i) = some t) : t.Inv := by
  have hpointers := pointers_step h.toPointers hstep
  simp only [step, Option.bind_eq_bind, Option.bind_eq_some_iff] at hstep
  obtain ⟨call, hcall, hstep⟩ := hstep
  obtain ⟨hi, hnot, future, hf, hright, halive⟩ := h.future_of_callIn (by decide) hcall
  rw [use_eq _ hi hf halive] at hstep
  obtain rfl := Option.some.inj hstep
  apply h.set_call hpointers hi rfl (by rw [hf]; rfl) (fun _ ↦ hnot) (by simp)
  intro future' hf'
  obtain rfl := Option.some.inj (hf.symm.trans hf')
  exact hright.restage rfl (by simp) hnot
    (fun response hmem ↦ List.mem_of_getLast? hmem) rfl rfl

theorem inv_remove (h : s.Inv) (hstep : s.step (.remove i) = some t) : t.Inv := by
  have hpointers := pointers_step h.toPointers hstep
  simp only [step, Option.bind_eq_bind, Option.bind_eq_some_iff] at hstep
  obtain ⟨call, hcall, hstep⟩ := hstep
  obtain ⟨hi, hnot, future, hf, hright, halive⟩ := h.future_of_callIn (by decide) hcall
  cases hentry : s.table[call.opaqueId]? with
  | none =>
    -- the response was taken already
    rw [hentry] at hstep
    obtain rfl := Option.some.inj hstep
    apply h.set_call hpointers hi rfl (by rw [hf]; rfl) (fun _ ↦ hnot) (fun _ _ ↦ hentry)
    intro future' hf'
    obtain rfl := Option.some.inj (hf.symm.trans hf')
    exact hright.restage rfl (by simp) hnot hright.response_mem rfl rfl
  | some pointer =>
    -- the entry is the call's own, as no other request has its opaque
    obtain rfl := h.own i pointer call hi hnot hentry
    obtain ⟨hlt, -⟩ := List.getElem?_eq_some_iff.mp hi
    have hset : (s.calls.set pointer { call with stage := .releasing })[pointer]? =
        some { call with stage := .releasing } := by
      rw [List.getElem?_set_self hlt]
    rw [hentry] at hstep
    simp only at hstep
    rw [use_eq (s := { s with
      calls := s.calls.set pointer { call with stage := .releasing }
      table := s.table.erase call.opaqueId }) decRefOf hset hf halive, List.set_set] at hstep
    obtain rfl := Option.some.inj hstep
    have htabled : s.tabled pointer call = 1 := by rw [tabled, if_pos hentry]
    refine h.set hpointers hi rfl rfl (fun _ ↦ hnot) (fun _ _ ↦ getElem?_of_erase)
      (fun _ _ ↦ getElem?_erase_of_ne hentry) (fun _ _ _ ↦ rfl)
      ⟨by simp [decRefOf], fun _ _ ↦ Std.ExtTreeMap.getElem?_erase_self, ?_⟩ h.unused
    intro future' hf'
    obtain rfl := Option.some.inj hf'
    have hgone : tabled { s with
        calls := s.calls.set pointer (decRefOf { call with stage := .releasing } future)
        table := s.table.erase call.opaqueId }
        pointer (decRefOf { call with stage := .releasing } future) = 0 := by
      exact tabled_of_absent Std.ExtTreeMap.getElem?_erase_self
    rw [hgone]
    rw [htabled] at hright
    show FutureRight _ _ 0 (s.delivering pointer .taken) (s.delivering pointer .put)
      (s.delivering pointer .completed)
    have hnot' : (decRefOf { call with stage := .releasing } future).stage ≠ .returned := by
      simp [decRefOf]
    exact hright.release rfl rfl (by rw [if_neg hnot, if_neg hnot']; omega) (Nat.zero_le 1)

theorem inv_release (h : s.Inv) (hstep : s.step (.release i) = some t) : t.Inv := by
  have hpointers := pointers_step h.toPointers hstep
  simp only [step, Option.bind_eq_bind, Option.bind_eq_some_iff] at hstep
  obtain ⟨call, hcall, hstep⟩ := hstep
  obtain ⟨hi, hnot, future, hf, hright, halive⟩ := h.future_of_callIn (by decide) hcall
  rw [use_eq _ hi hf halive] at hstep
  obtain rfl := Option.some.inj hstep
  apply h.set_call hpointers hi rfl rfl (fun _ ↦ hnot) (fun _ hrel ↦ by cases hrel)
  intro future' hf'
  obtain rfl := Option.some.inj hf'
  exact hright.release rfl rfl (by rw [if_neg hnot, if_pos rfl]; omega) (Nat.le_refl _)

/-- The table's reference goes to a delivery. -/
theorem FutureRight.take {taken put completed : Nat}
    (h : FutureRight call future 1 taken put completed) :
    FutureRight call future 0 (taken + 1) put completed where
  agrees := by
    have hagrees := h.agrees
    rw [show 1 + (if call.stage = .returned then 0 else 1) + (taken + put + completed) =
      0 + (if call.stage = .returned then 0 else 1) + (taken + 1 + put + completed) by
        omega] at hagrees
    exact hagrees
  responses_length := h.responses_length
  responses_opaque := h.responses_opaque
  response_mem := h.response_mem

/-- A response that was taken is put. -/
theorem FutureRight.put {response : Response} {tabled taken put completed : Nat}
    (h : FutureRight call future tabled (taken + 1) put completed)
    (hsameId : response.opaqueId = call.opaqueId) (future' : Option ResponseFuture) :
    FutureRight { call with future := future' }
      { future with responses := future.responses ++ [response] } tabled taken (put + 1)
      completed where
  agrees := by
    have hagrees := h.agrees
    rw [show taken + 1 + put + completed = taken + (put + 1) + completed by omega] at hagrees
    exact hagrees
  responses_length := by
    have hlength := h.responses_length
    rw [List.length_append, List.length_singleton]
    omega
  responses_opaque := by
    intro response' hmem
    rcases List.mem_append.mp hmem with hmem | hmem
    · exact h.responses_opaque response' hmem
    · rw [List.mem_singleton.mp hmem]
      exact hsameId
  response_mem := fun response' hmem ↦ List.mem_append_left _ (h.response_mem response' hmem)

/-- A delivery goes on, and a callback may have run. -/
theorem FutureRight.complete {completions : List Completion} {tabled taken put completed : Nat}
    (h : FutureRight call future tabled taken (put + 1) completed) :
    FutureRight { call with completions } future tabled taken put (completed + 1) where
  agrees := by
    have hagrees := h.agrees
    rw [show taken + (put + 1) + completed = taken + put + (completed + 1) by omega] at hagrees
    exact hagrees
  responses_length := h.responses_length
  responses_opaque := h.responses_opaque
  response_mem := h.response_mem

theorem inv_take (h : s.Inv) {response : Response} (hstep : s.step (.take response) = some t) :
    t.Inv := by
  have hpointers := pointers_step h.toPointers hstep
  simp only [step] at hstep
  cases hentry : s.table[response.opaqueId]? with
  | none =>
    rw [hentry] at hstep
    obtain rfl := Option.some.inj hstep
    exact h
  | some pointer =>
    rw [hentry] at hstep
    obtain ⟨call, hi, hsome, hsameId⟩ := h.table _ _ hentry
    rw [← hsameId] at hentry
    obtain ⟨hlt, hget⟩ := List.getElem?_eq_some_iff.mp hi
    obtain ⟨hnone, hleft, hright⟩ := h.calls pointer call hi
    have ht := Option.some.inj hstep
    have hcalls : t.calls = s.calls.set pointer call := by
      rw [← ht, ← hget, List.set_getElem_self]
    have htable : t.table = s.table.erase call.opaqueId := by rw [← ht, hsameId]
    have hdeliveries : t.deliveries = s.deliveries ++ [⟨response, pointer, .taken⟩] := by
      rw [← ht]
    have hgone : t.table[call.opaqueId]? = none := by
      rw [htable]
      exact Std.ExtTreeMap.getElem?_erase_self
    refine h.set hpointers hi hcalls rfl id (by rw [htable]; exact fun _ _ ↦ getElem?_of_erase)
      (by rw [htable]; exact fun _ _ ↦ getElem?_erase_of_ne hentry) ?_
      ⟨hnone, fun _ _ ↦ hgone, ?_⟩ (by rw [← ht]; exact h.unused)
    · intro j hne stage
      rw [delivering_take hdeliveries, if_neg fun hsame ↦ hne hsame.1.symm, Nat.add_zero]
    · intro future hf
      have hfuture := hright future hf
      rw [tabled, if_pos hentry] at hfuture
      rw [tabled_of_absent hgone, delivering_take hdeliveries, delivering_take hdeliveries,
        delivering_take hdeliveries]
      simp only [and_self, reduceCtorEq, and_false, if_true, if_false, Nat.add_zero]
      exact hfuture.take

/-- A step of a delivery, which keeps the table and the stage of the call. -/
theorem Inv.set_delivered (h : s.Inv) (hpointers : t.Pointers) {delivery : Delivery}
    (hn : s.deliveries[n]? = some delivery) (hi : s.calls[delivery.future]? = some call)
    (hcalls : t.calls = s.calls.set delivery.future call') (htable : t.table = s.table)
    (hsameId : call'.opaqueId = call.opaqueId) (hkind : call'.kind = call.kind)
    (hstage : call'.stage = call.stage) (hsome : call'.future.isSome)
    (hdeliveries : t.deliveries = s.deliveries.eraseIdx n ∨
      ∃ stage, t.deliveries = s.deliveries.eraseIdx n ++ [{ delivery with stage }])
    (hright : ∀ future', call'.future = some future' → FutureRight call' future'
      (s.tabled delivery.future call) (t.delivering delivery.future .taken)
      (t.delivering delivery.future .put) (t.delivering delivery.future .completed))
    (hunused : t.usedAfterDelete = false) : t.Inv := by
  refine h.set hpointers hi hcalls hsameId (by rw [hstage]; exact id)
    (by rw [htable]; exact fun _ _ ↦ id) (by rw [htable]; exact fun _ _ _ ↦ id) ?_
    ⟨?_, ?_, ?_⟩ hunused
  · intro j hne stage'
    rcases hdeliveries with hd | ⟨stage, hd⟩
    · have hcount := delivering_done hn hd j stage'
      rw [if_neg fun hsame ↦ hne hsame.1.symm] at hcount
      exact hcount
    · have hcount := delivering_advance hn hd j stage'
      rw [if_neg fun hsame ↦ hne hsame.1.symm, if_neg fun hsame ↦ hne hsame.1.symm] at hcount
      exact hcount
  · intro hnone
    rw [hnone] at hsome
    cases hsome
  · rw [hkind, hstage, hsameId, htable]
    exact (h.calls _ call hi).2.1
  · intro future' hf
    rw [tabled, hsameId, htable]
    exact hright future' hf

theorem inv_putResponse (h : s.Inv) (hstep : s.step (.putResponse n) = some t) : t.Inv := by
  have hpointers := pointers_step h.toPointers hstep
  simp only [step, Option.bind_eq_bind, Option.bind_eq_some_iff, deliveryIn_eq_some] at hstep
  obtain ⟨delivery, ⟨hn, hstage⟩, hstep⟩ := hstep
  obtain ⟨call, future, hi, hf, hsameId, hright, halive⟩ := h.future_of_delivery hn
  rw [use_eq_of_deliveries _ _ hi hf halive] at hstep
  have ht := Option.some.inj hstep
  have hdeliveries :
      t.deliveries = s.deliveries.eraseIdx n ++ [{ delivery with stage := .put }] := by
    rw [← ht]
  obtain ⟨htaken, hput, hother⟩ := delivering_move hn hdeliveries (by rw [hstage]; decide)
  rw [hstage] at htaken hother
  have hcompleted := hother .completed (by decide) (by decide)
  rw [← htaken] at hright
  have hcalls : t.calls = s.calls.set delivery.future { call with
      future := some { future with responses := future.responses ++ [delivery.response] } } := by
    rw [← ht]
  refine h.set_delivered hpointers hn hi hcalls (by rw [← ht]) rfl rfl rfl rfl
    (.inr ⟨.put, hdeliveries⟩) ?_ (by rw [← ht]; exact h.unused)
  intro future' hf'
  obtain rfl := Option.some.inj hf'
  rw [hput, hcompleted]
  exact hright.put hsameId _

theorem inv_executeInvokeCallback (h : s.Inv)
    (hstep : s.step (.executeInvokeCallback n) = some t) : t.Inv := by
  have hpointers := pointers_step h.toPointers hstep
  simp only [step, Option.bind_eq_bind, Option.bind_eq_some_iff, deliveryIn_eq_some] at hstep
  obtain ⟨delivery, ⟨hn, hstage⟩, hstep⟩ := hstep
  obtain ⟨call, future, hi, hf, hsameId, hright, halive⟩ := h.future_of_delivery hn
  rw [use_eq_of_deliveries _ _ hi hf halive] at hstep
  have ht := Option.some.inj hstep
  have hdeliveries :
      t.deliveries = s.deliveries.eraseIdx n ++ [{ delivery with stage := .completed }] := by
    rw [← ht]
  obtain ⟨hput, hcompleted, hother⟩ := delivering_move hn hdeliveries (by rw [hstage]; decide)
  rw [hstage] at hput hother
  have htaken := hother .taken (by decide) (by decide)
  rw [← hput] at hright
  have hcomplete : ∀ completions : List Completion,
      t.calls = s.calls.set delivery.future { call with completions } → t.Inv := by
    intro completions hcalls
    refine h.set_delivered hpointers hn hi hcalls (by rw [← ht]) rfl rfl rfl
      (by simp only [hf]; rfl) (.inr ⟨.completed, hdeliveries⟩) ?_ (by rw [← ht]; exact h.unused)
    intro future' hf'
    obtain rfl := Option.some.inj (hf.symm.trans hf')
    rw [htaken, hcompleted]
    exact hright.complete
  by_cases hcallback : call.kind = .async true
  · exact hcomplete (call.completions ++ [⟨future.responses.getLast?, future.sendRequestOK⟩])
      (by rw [← ht]; simp only [if_pos hcallback])
  · exact hcomplete call.completions (by rw [← ht]; simp only [if_neg hcallback])

theorem inv_decRef (h : s.Inv) (hstep : s.step (.decRef n) = some t) : t.Inv := by
  have hpointers := pointers_step h.toPointers hstep
  simp only [step, Option.bind_eq_bind, Option.bind_eq_some_iff, deliveryIn_eq_some] at hstep
  obtain ⟨delivery, ⟨hn, hstage⟩, hstep⟩ := hstep
  obtain ⟨call, future, hi, hf, hsameId, hright, halive⟩ := h.future_of_delivery hn
  rw [use_eq_of_deliveries _ _ hi hf halive] at hstep
  have ht := Option.some.inj hstep
  have hdeliveries : t.deliveries = s.deliveries.eraseIdx n := by rw [← ht]
  have htaken := delivering_done hn hdeliveries delivery.future .taken
  have hput := delivering_done hn hdeliveries delivery.future .put
  have hcompleted := delivering_done hn hdeliveries delivery.future .completed
  simp only [hstage, true_and, reduceCtorEq, if_true, if_false, Nat.add_zero]
    at htaken hput hcompleted
  have hcalls : t.calls = s.calls.set delivery.future (decRefOf call future) := by rw [← ht]
  refine h.set_delivered hpointers hn hi hcalls (by rw [← ht]) rfl rfl rfl rfl
    (.inl hdeliveries) ?_ (by rw [← ht]; exact h.unused)
  intro future' hf'
  obtain rfl := Option.some.inj hf'
  rw [htaken, hput]
  have hsame : (decRefOf call future).stage = call.stage := rfl
  exact hright.release rfl rfl (by rw [hsame]; omega) (Nat.le_refl _)

/-- Frame rule for a new call: the table keeps its entries and may get one for it. -/
theorem Inv.append (h : s.Inv) (hpointers : t.Pointers) (hcalls : t.calls = s.calls ++ [call])
    (hdeliveries : t.deliveries = s.deliveries)
    (htable : ∀ (o : Int) (j : Nat), t.table[o]? = some j ↔
      s.table[o]? = some j ∨ j = s.calls.length ∧ o = call.opaqueId ∧ call.future.isSome)
    (hstage : call.future.isSome → call.stage ≠ .returned)
    (hapart : call.stage ≠ .returned → s.table[call.opaqueId]? = none ∧
      ∀ call' ∈ s.calls, call'.stage ≠ .returned → call'.opaqueId ≠ call.opaqueId)
    (hright : t.CallRight s.calls.length call) (hunused : t.usedAfterDelete = false) : t.Inv := by
  have hcases : ∀ (j : Nat) (callj : Invocation), t.calls[j]? = some callj →
      s.calls[j]? = some callj ∨ j = s.calls.length ∧ callj = call := by
    intro j callj hj
    rw [hcalls] at hj
    exact getElem?_concat hj
  refine ⟨hpointers, ?_, ?_, ?_, hunused⟩
  · intro j k callj callk hj hk hsj hsk hsame
    rcases hcases j callj hj with hj | ⟨rfl, rfl⟩
    · rcases hcases k callk hk with hk | ⟨rfl, rfl⟩
      · exact h.apart j k callj callk hj hk hsj hsk hsame
      · exact absurd hsame ((hapart hsk).2 callj (List.mem_of_getElem? hj) hsj)
    · rcases hcases k callk hk with hk | ⟨rfl, rfl⟩
      · exact absurd hsame.symm ((hapart hsj).2 callk (List.mem_of_getElem? hk) hsk)
      · rfl
  · intro j k callj hj hsj hk
    rcases (htable _ k).mp hk with hk | ⟨rfl, hsame, hsome⟩
    · rcases hcases j callj hj with hj | ⟨rfl, rfl⟩
      · exact h.own j k callj hj hsj hk
      · rw [(hapart hsj).1] at hk
        cases hk
    · rcases hcases j callj hj with hj | ⟨rfl, -⟩
      · exact absurd hsame ((hapart (hstage hsome)).2 callj (List.mem_of_getElem? hj) hsj)
      · rfl
  · intro j callj hj
    rcases hcases j callj hj with hj | ⟨rfl, rfl⟩
    · obtain ⟨hnone, hleft, hfuture⟩ := h.calls j callj hj
      refine ⟨hnone, fun hsync hrel ↦ ?_, fun future hf ↦ ?_⟩
      · cases hentry : t.table[callj.opaqueId]? with
        | none => rfl
        | some k =>
          rcases (htable _ k).mp hentry with hk | ⟨-, hsame, hsome⟩
          · rw [hleft hsync hrel] at hk
            cases hk
          · refine absurd hsame ((hapart (hstage hsome)).2 callj (List.mem_of_getElem? hj) ?_)
            rw [hrel]
            decide
      · have htabled : t.tabled j callj = s.tabled j callj := by
          rw [tabled, tabled]
          refine if_congr ⟨fun hk ↦ ?_, fun hk ↦ (htable _ j).mpr (.inl hk)⟩ rfl rfl
          rcases (htable _ j).mp hk with hk | ⟨rfl, -⟩
          · exact hk
          · rw [List.getElem?_length] at hj
            cases hj
        rw [htabled, delivering_congr hdeliveries, delivering_congr hdeliveries,
          delivering_congr hdeliveries]
        exact hfuture future hf
    · exact hright

theorem inv_unconnected (h : s.Inv) {kind : InvokeKind} {o : Int}
    (hstep : s.step (.unconnected kind o) = some t) : t.Inv := by
  have hpointers := pointers_step h.toPointers hstep
  obtain rfl := Option.some.inj hstep
  refine h.append hpointers rfl rfl (fun o' j ↦ ⟨.inl, ?_⟩) nofun (absurd rfl)
    ⟨fun _ ↦ rfl, nofun, nofun⟩ h.unused
  rintro (hj | ⟨-, -, hsome⟩)
  · exact hj
  · cases hsome

theorem inv_invoke (h : s.Inv) {kind : InvokeKind} {o : Int}
    (hfresh : s.FreshOpaque (.invoke kind o)) (hstep : s.step (.invoke kind o) = some t) :
    t.Inv := by
  have hpointers := pointers_step h.toPointers hstep
  obtain ⟨hnew, hapart⟩ := hfresh
  have ht := Option.some.inj hstep
  have hdeliveries : t.deliveries = s.deliveries := by rw [← ht]
  have habsent : s.table[o]? = none := Std.ExtTreeMap.getElem?_eq_none hnew
  have htable : ∀ (o' : Int) (j : Nat), t.table[o']? = some j ↔
      s.table[o']? = some j ∨ j = s.calls.length ∧ o' = o ∧ True := by
    intro o' j
    rw [← ht]
    simp only [Std.ExtTreeMap.getElem?_insertIfNew]
    split_ifs with hsame
    · obtain rfl := Std.LawfulEqCmp.eq_of_compare hsame.1
      rw [habsent]
      simp [eq_comm]
    · refine ⟨.inl, ?_⟩
      rintro (hj | ⟨-, rfl, -⟩)
      · exact hj
      · exact absurd ⟨Std.ReflCmp.compare_self, hnew⟩ hsame
  have hcalls : t.calls = s.calls ++
      [⟨kind, o, .sending, some ⟨RefCount.create.incRef, false, []⟩, none, none, []⟩] := by
    rw [← ht]
  refine h.append hpointers hcalls hdeliveries ?_ (by simp) (fun _ ↦ ⟨habsent, hapart⟩)
    ⟨by simp, by simp, ?_⟩ (by rw [← ht]; exact h.unused)
  · intro o' j
    rw [htable]
    simp
  · intro future hf
    obtain rfl := Option.some.inj hf
    have htabled : t.tabled s.calls.length ⟨kind, o, .sending,
        some ⟨RefCount.create.incRef, false, []⟩, none, none, []⟩ = 1 := by
      rw [tabled, if_pos ((htable o _).mpr (.inr ⟨rfl, rfl, trivial⟩))]
    rw [htabled, delivering_congr hdeliveries, delivering_congr hdeliveries,
      delivering_congr hdeliveries, h.fresh_index.2, h.fresh_index.2, h.fresh_index.2]
    exact ⟨RefCount.agrees_create.incRef Nat.one_pos, Nat.le_refl _, by simp, by simp⟩

/-- Every step keeps the invariant, if new requests have fresh opaques. -/
theorem inv_step (h : s.Inv) {e : RemotingEvent} (hfresh : s.FreshOpaque e)
    (hstep : s.step e = some t) : t.Inv := by
  cases e with
  | unconnected kind o => exact inv_unconnected h hstep
  | invoke kind o => exact inv_invoke h hfresh hstep
  | sendCmd => exact inv_sendCmd h hstep
  | waitResponse => exact inv_waitResponse h hstep
  | remove => exact inv_remove h hstep
  | release => exact inv_release h hstep
  | take => exact inv_take h hstep
  | putResponse => exact inv_putResponse h hstep
  | executeInvokeCallback => exact inv_executeInvokeCallback h hstep
  | decRef => exact inv_decRef h hstep

theorem inv_empty : empty.Inv where
  toPointers := pointers_empty
  apart i j call call' h := by simp [empty] at h
  own i j call h := by simp [empty] at h
  calls i call h := by simp [empty] at h
  unused := rfl

end Step

/-! ### Whole runs -/

section Run

variable {s t : ResponseTable} {i : Nat} {call : Invocation}

/-- The invariant holds after every run. -/
theorem inv_of_run {es : List RemotingEvent}
    (hfresh : Base.Along step FreshOpaque empty es) (hrun : Base.runFrom step empty es = some t) :
    t.Inv :=
  Base.inv_of_along (fun _ _ _ hs hgood hstep ↦ inv_step hs hgood hstep) inv_empty hfresh hrun

/-- `invokeSyncImpl` returns with its opaque gone from the table. -/
theorem Inv.returned (h : s.Inv) (hi : s.calls[i]? = some call) (hsync : call.kind = .sync)
    (hstep : s.step (.release i) = some t) : t.table[call.opaqueId]? = none := by
  simp only [step, Option.bind_eq_bind, Option.bind_eq_some_iff, callIn_eq_some] at hstep
  obtain ⟨call', ⟨hi', hstage⟩, hstep⟩ := hstep
  obtain rfl := Option.some.inj (hi.symm.trans hi')
  have hnot : call.stage ≠ .returned := by rw [hstage]; decide
  obtain ⟨future, hf, hright, halive⟩ := h.future_of_stage hi hnot
  rw [use_eq _ hi hf halive] at hstep
  obtain rfl := Option.some.inj hstep
  exact (h.calls i call hi).2.1 hsync hstage

/-- Two synchronous calls and an asynchronous one with a callback; the second call gives up
before its response comes, the third response comes twice and a fourth answers nobody. -/
def interleaved : List RemotingEvent :=
  [.invoke .sync 1, .invoke .sync 2, .sendCmd 0 0, .invoke (.async true) 3, .sendCmd 1 0,
    .sendCmd 2 0, .take ⟨3, []⟩, .release 2, .waitResponse 1, .take ⟨1, []⟩, .putResponse 0,
    .putResponse 0, .executeInvokeCallback 0, .waitResponse 0, .take ⟨2, []⟩, .remove 0,
    .remove 1, .release 0, .putResponse 2, .executeInvokeCallback 0, .take ⟨3, []⟩, .decRef 0,
    .take ⟨4, []⟩, .decRef 1, .executeInvokeCallback 0, .decRef 0]

/-- The response table delivers each response once, to the call that registered its opaque;
each future counts its holders and is deleted with the last of them; and a synchronous call
returns with its opaque gone from the table. -/
theorem delivers_to_own_caller {es : List RemotingEvent}
    (hfresh : Base.Along step FreshOpaque empty es) (hrun : Base.runFrom step empty es = some s) :
    (∀ (opaqueId : Int) (i : Nat), s.table[opaqueId]? = some i →
      ∃ call, s.calls[i]? = some call ∧ call.future.isSome ∧ call.opaqueId = opaqueId) ∧
    (∀ delivery ∈ s.deliveries, ∃ call, s.calls[delivery.future]? = some call ∧
      call.future.isSome ∧ delivery.response.opaqueId = call.opaqueId) ∧
    (∀ (i : Nat) (call : Invocation) (future : ResponseFuture), s.calls[i]? = some call →
      call.future = some future →
      future.responses.length ≤ 1 ∧
      (∀ response ∈ future.responses, response.opaqueId = call.opaqueId) ∧
      (∀ response ∈ call.response, response ∈ future.responses) ∧
      future.refCount = s.holders i call ∧
      future.deletions = if s.holders i call = 0 then 1 else 0) ∧
    s.usedAfterDelete = false ∧
    ∀ (i : Nat) (call : Invocation) (t : ResponseTable), s.calls[i]? = some call →
      call.kind = .sync → s.step (.release i) = some t → t.table[call.opaqueId]? = none := by
  have h := inv_of_run hfresh hrun
  refine ⟨h.table, h.deliveries, ?_, h.unused, fun i call t hi hsync ↦ h.returned hi hsync⟩
  intro i call future hi hf
  have hright := (h.calls i call hi).2.2 future hf
  have hlength := hright.responses_length
  exact ⟨by omega, hright.responses_opaque, hright.response_mem, hright.agrees⟩

theorem interleaved_delivered : (Base.runFrom step empty interleaved).isSome ∧
    ∀ s, Base.runFrom step empty interleaved = some s →
      (∀ (opaqueId : Int) (i : Nat), s.table[opaqueId]? = some i →
        ∃ call, s.calls[i]? = some call ∧ call.future.isSome ∧ call.opaqueId = opaqueId) ∧
      (∀ delivery ∈ s.deliveries, ∃ call, s.calls[delivery.future]? = some call ∧
        call.future.isSome ∧ delivery.response.opaqueId = call.opaqueId) ∧
      (∀ (i : Nat) (call : Invocation) (future : ResponseFuture), s.calls[i]? = some call →
        call.future = some future →
        future.responses.length ≤ 1 ∧
        (∀ response ∈ future.responses, response.opaqueId = call.opaqueId) ∧
        (∀ response ∈ call.response, response ∈ future.responses) ∧
        future.refCount = s.holders i call ∧
        future.deletions = if s.holders i call = 0 then 1 else 0) ∧
      s.usedAfterDelete = false ∧
      ∀ (i : Nat) (call : Invocation) (t : ResponseTable), s.calls[i]? = some call →
        call.kind = .sync → s.step (.release i) = some t → t.table[call.opaqueId]? = none :=
  ⟨by decide +kernel, fun _ ↦ delivers_to_own_caller (by decide +kernel)⟩

end Run
end ResponseTable
end RocketMQ
