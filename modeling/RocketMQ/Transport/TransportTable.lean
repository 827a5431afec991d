import Mathlib.Data.List.Perm.Basic
import Std.Data.ExtTreeMap.Lemmas
import RocketMQ.Transport.SendCmd

/-!
# Who releases a transport

`m_tcpTransportTable` keeps one `TcpTransport` for each address and hands out bare pointers. A call
of `invokeSync`, `invokeAsync` or `invokeOneway` gets one under the lock, tests it and writes to it
outside, and releases it when it finds it disconnected
(`src/transport/TcpRemotingClient.cpp:86–136,225–252,457–484`). The three differ only in what
follows the write. What a released transport is read as is what it held last.
-/

namespace RocketMQ

/-- A `TcpTransport`, as far as the table is concerned. -/
structure LiveTransport where
  serverURL : StdString
  connected : Bool

/-- Where a call is that has got its transport. -/
inductive TransportPc where
  | isConnected
  | sendHead
  | sendBody
  | removeTTS
deriving DecidableEq

/-- A call, with the number of the transport it holds a pointer to. -/
structure TransportCall where
  transport : Nat
  cmd : OutCommand
  timeoutMillis : Int
  pc : TransportPc

/-- The table, all transports that were ever connected, the calls that hold one, and what happened
so far: each `RemoveTTS` with its transport and the entry it found for the address, and each
`SendData` on a transport that had been released. -/
structure TransportState where
  table : Std.ExtTreeMap StdString Nat
  transports : List LiveTransport
  calls : List TransportCall
  removals : List (Nat × Option Nat)
  lateSends : List Nat

/-- What can happen next. A call starts, and `Connect` succeeds or not if it has to; a call goes on;
the event thread receives from the transport of an address, and the peer may have closed it. -/
inductive TransportEvent where
  | invoke (addr : StdString) (cmd : OutCommand) (timeoutMillis : Int) (connects : Bool)
  | run (i : Nat) (outcomes : List SocketOutcome)
  | recvData (addr : StdString) (closes : Bool)

namespace TransportState

/-- No connection yet. -/
def empty : TransportState := ⟨∅, [], [], [], []⟩

/-- The transports released so far. -/
def released (s : TransportState) : List Nat := s.removals.map (·.1)

/-- Another state of one connection. -/
def setConnected (s : TransportState) (k : Nat) (connected : Bool) : TransportState :=
  { s with transports := s.transports.modify k fun tts ↦ { tts with connected } }

/-- A call goes on or ends. -/
def goOn (s : TransportState) (i : Nat) (call : TransportCall) (next : Option TransportPc) :
    TransportState :=
  { s with
    calls :=
      match next with
      | some pc => s.calls.set i { call with pc }
      | none => s.calls.eraseIdx i }

/-- `src/transport/TcpRemotingClient.cpp:225–252`. A call that gets no transport is over. -/
def getAndCreateTransport (s : TransportState) (addr : StdString) (cmd : OutCommand)
    (timeoutMillis : Int) (connects : Bool) : TransportState :=
  match s.table[addr]? with
  | some k => { s with calls := s.calls ++ [⟨k, cmd, timeoutMillis, .isConnected⟩] }
  | none =>
    if connects then
      { s with
        table := s.table.insert addr s.transports.length
        transports := s.transports ++ [⟨addr, true⟩]
        calls := s.calls ++ [⟨s.transports.length, cmd, timeoutMillis, .isConnected⟩] }
    else s

/-- One `SendData` of `SendCmd`, `src/transport/TcpRemotingClient.cpp:457–466`. -/
def sendData (s : TransportState) (i : Nat) (call : TransportCall) (tts : LiveTransport)
    (buffer : List UInt8) (outcomes : List SocketOutcome) (next : Option TransportPc) :
    Option TransportState :=
  (TcpTransport.sendOneMsg call.timeoutMillis tts.connected buffer outcomes).map fun r ↦
    { s.goOn i call (if r.ret = 0 then next else none) with
      transports := (s.setConnected call.transport r.connected).transports
      lateSends := s.lateSends ++ if call.transport ∈ s.released then [call.transport] else [] }

/-- `src/transport/TcpRemotingClient.cpp:473–484`. -/
def removeTTS (s : TransportState) (i : Nat) (call : TransportCall) (tts : LiveTransport) :
    TransportState :=
  { s.goOn i call none with
    table := s.table.erase tts.serverURL
    removals := s.removals ++ [(call.transport, s.table[tts.serverURL]?)] }

/-- One step. -/
def step (s : TransportState) : TransportEvent → Option TransportState
  | .invoke addr cmd timeoutMillis connects =>
    some (s.getAndCreateTransport addr cmd timeoutMillis connects)
  | .run i outcomes =>
    match s.calls[i]? with
    | none => none
    | some call =>
      match s.transports[call.transport]? with
      | none => none
      | some tts =>
        match call.pc with
        | .isConnected =>
          some (s.goOn i call (some (if tts.connected then .sendHead else .removeTTS)))
        | .sendHead =>
          s.sendData i call tts call.cmd.head outcomes (call.cmd.body.map fun _ ↦ .sendBody)
        | .sendBody => s.sendData i call tts (call.cmd.body.getD []) outcomes none
        | .removeTTS => some (s.removeTTS i call tts)
  | .recvData addr closes =>
    s.table[addr]?.map fun k ↦ if closes then s.setConnected k false else s

/-- Every transport is released at most once, with its own entry, and not written to after that. -/
structure ReleasedOnce (s : TransportState) : Prop where
  once : s.released.Nodup
  own : ∀ removal ∈ s.removals, removal.2 = some removal.1
  unused : s.lateSends = []

/-- A transport is released only when no other call holds it. -/
def AloneAtRemoval (s : TransportState) : TransportEvent → Prop
  | .run i _ => ∀ call ∈ s.calls[i]?, call.pc = .removeTTS →
      ∀ other ∈ s.calls.eraseIdx i, other.transport ≠ call.transport
  | .invoke _ _ _ _ | .recvData _ _ => True

instance : ∀ s e, Decidable (AloneAtRemoval s e)
  | _, .run _ _ => inferInstanceAs (Decidable (∀ _ ∈ _, _ → ∀ _ ∈ _, _))
  | _, .invoke _ _ _ _ | _, .recvData _ _ => inferInstanceAs (Decidable True)

/-- Nothing went wrong, and nobody holds a transport that was released. -/
structure Owned (s : TransportState) : Prop where
  releasedOnce : s.ReleasedOnce
  held : ∀ call ∈ s.calls, call.transport ∉ s.released

/-- The address of a transport. -/
def serverURL (s : TransportState) (k : Nat) : Option StdString :=
  s.transports[k]?.map (·.serverURL)

/-- The table lists transports under their own addresses and none that was released, and all the
others as long as every removal found its own entry. -/
structure Kept (s : TransportState) : Prop where
  entry : ∀ addr k, s.table[addr]? = some k → s.serverURL k = some addr ∧ k ∉ s.released
  listed : (∀ removal ∈ s.removals, removal.2 = some removal.1) →
    ∀ k addr, s.serverURL k = some addr → k ∉ s.released → s.table[addr]? = some k
  known : ∀ k ∈ s.released, k < s.transports.length

/-! ### One step -/

section Step

variable {s t : TransportState} {e : TransportEvent}

@[simp] theorem released_goOn (i : Nat) (call : TransportCall) (next : Option TransportPc) :
    (s.goOn i call next).released = s.released := rfl

/-- The calls after one of them has gone on or ended. -/
theorem calls_goOn {i : Nat} {call : TransportCall} (hi : s.calls[i]? = some call)
    (next : Option TransportPc) : (s.goOn i call next).calls.Perm
      ((next.map fun pc ↦ { call with pc }).toList ++ s.calls.eraseIdx i) := by
  have hlt := (List.getElem?_eq_some_iff.mp hi).1
  cases next with
  | none => exact .refl _
  | some pc => exact List.set_perm_cons_eraseIdx hlt _

theorem calls_perm {i : Nat} {call : TransportCall} (hi : s.calls[i]? = some call) :
    s.calls.Perm (call :: s.calls.eraseIdx i) := by
  obtain ⟨hlt, rfl⟩ := List.getElem?_eq_some_iff.mp hi
  exact (List.getElem_cons_eraseIdx_perm hlt).symm

/-- The transports that calls hold afterwards were held before. -/
theorem held_goOn {i : Nat} {call : TransportCall} (hi : s.calls[i]? = some call)
    {next : Option TransportPc} {c : TransportCall} (hc : c ∈ (s.goOn i call next).calls) :
    ∃ old ∈ s.calls, old.transport = c.transport := by
  rcases List.mem_append.mp ((calls_goOn hi next).mem_iff.mp hc) with hnew | hrest
  · obtain ⟨pc, -, rfl⟩ := Option.map_eq_some_iff.mp (Option.mem_toList.mp hnew)
    exact ⟨call, List.mem_of_getElem? hi, rfl⟩
  · exact ⟨c, List.mem_of_mem_eraseIdx hrest, rfl⟩

/-- A connection changes, and its address does not. -/
@[simp] theorem serverURL_setConnected (k j : Nat) (connected : Bool) :
    (s.setConnected k connected).serverURL j = s.serverURL j := by
  rw [serverURL, serverURL, setConnected, List.getElem?_modify]
  cases s.transports[j]? with
  | none => rfl
  | some tts =>
    by_cases hkj : k = j
    · simp [hkj]
    · simp [hkj]

/-- The table, the addresses and the removals are all that matters. -/
theorem Kept.of_same (h : s.Kept) (htable : t.table = s.table)
    (hremovals : t.removals = s.removals) (hserverURL : ∀ k, t.serverURL k = s.serverURL k)
    (hlength : t.transports.length = s.transports.length) : t.Kept := by
  have hreleased : t.released = s.released := by rw [released, hremovals, released]
  refine ⟨fun addr k hk ↦ ?_, fun hown k addr hk hfree ↦ ?_, fun k hk ↦ ?_⟩
  · rw [hserverURL, hreleased]
    exact h.entry addr k (htable ▸ hk)
  · rw [htable]
    rw [hremovals] at hown
    rw [hserverURL] at hk
    rw [hreleased] at hfree
    exact h.listed hown k addr hk hfree
  · rw [hlength]
    exact h.known k (hreleased ▸ hk)

theorem Kept.setConnected (h : s.Kept) (k : Nat) (connected : Bool) :
    (s.setConnected k connected).Kept :=
  h.of_same rfl rfl (fun j ↦ serverURL_setConnected k j connected) (List.length_modify ..)

/-- What a step of a call does: it tests, it writes, or it releases. -/
theorem step_run {i : Nat} {outcomes : List SocketOutcome}
    (hstep : s.step (.run i outcomes) = some t) :
    ∃ call tts, s.calls[i]? = some call ∧ s.transports[call.transport]? = some tts ∧
      ((call.pc ≠ .removeTTS ∧ ∃ next, t = s.goOn i call (some next)) ∨
        (call.pc ≠ .removeTTS ∧ ∃ next connected, t = { s.goOn i call next with
          transports := (s.setConnected call.transport connected).transports
          lateSends :=
            s.lateSends ++ if call.transport ∈ s.released then [call.transport] else [] }) ∨
        call.pc = .removeTTS ∧ t = s.removeTTS i call tts) := by
  simp only [step] at hstep
  split at hstep
  · cases hstep
  next call hi =>
  split at hstep
  · cases hstep
  next tts htts =>
  refine ⟨call, tts, hi, htts, ?_⟩
  cases hpc : call.pc with
  | isConnected =>
    simp only [hpc, Option.some.injEq] at hstep
    subst hstep
    exact .inl ⟨by simp, _, rfl⟩
  | sendHead =>
    simp only [hpc, sendData, Option.map_eq_some_iff] at hstep
    obtain ⟨r, -, rfl⟩ := hstep
    exact .inr (.inl ⟨by simp, _, _, rfl⟩)
  | sendBody =>
    simp only [hpc, sendData, Option.map_eq_some_iff] at hstep
    obtain ⟨r, -, rfl⟩ := hstep
    exact .inr (.inl ⟨by simp, _, _, rfl⟩)
  | removeTTS =>
    simp only [hpc, Option.some.injEq] at hstep
    exact .inr (.inr ⟨rfl, hstep.symm⟩)

theorem kept_empty : empty.Kept := by
  refine ⟨fun addr k hk ↦ ?_, fun _ k addr hk _ ↦ ?_, fun k hk ↦ absurd hk List.not_mem_nil⟩
  · simp [empty] at hk
  · simp [empty, serverURL] at hk

/-- A new transport is listed under its address. -/
theorem kept_invoke (h : s.Kept) (addr : StdString) (cmd : OutCommand) (timeoutMillis : Int)
    (connects : Bool) : (s.getAndCreateTransport addr cmd timeoutMillis connects).Kept := by
  rw [getAndCreateTransport]
  split
  · exact h.of_same rfl rfl (fun _ ↦ rfl) rfl
  next hnone =>
  split_ifs
  · have hnew : ∀ k, serverURL { s with transports := s.transports ++ [⟨addr, true⟩] } k =
        if k = s.transports.length then some addr else s.serverURL k := by
      intro k
      rw [serverURL, serverURL, List.getElem?_append]
      by_cases hk : k < s.transports.length
      · rw [if_pos hk, if_neg (by omega)]
      · rw [if_neg hk, List.getElem?_eq_none (by omega : s.transports.length ≤ k)]
        by_cases hlast : k = s.transports.length
        · simp [hlast]
        · have hout : [(⟨addr, true⟩ : LiveTransport)].length ≤ k - s.transports.length := by
            rw [List.length_singleton]
            omega
          rw [List.getElem?_eq_none hout, if_neg hlast]
    refine ⟨fun addr' k hk ↦ ?_, fun hown k addr' hk hfree ↦ ?_, fun k hk ↦ ?_⟩
    · have hk' : (s.table.insert addr s.transports.length)[addr']? = some k := hk
      rw [Std.ExtTreeMap.getElem?_insert] at hk'
      refine ⟨(hnew k).trans ?_, ?_⟩
      · split_ifs at hk' with haddr
        · rw [if_pos (Option.some.inj hk').symm, Std.LawfulEqCmp.eq_of_compare haddr]
        · have hold := (h.entry addr' k hk').1
          have hlt : k < s.transports.length := by
            rw [serverURL, Option.map_eq_some_iff] at hold
            obtain ⟨tts, htts, -⟩ := hold
            exact (List.getElem?_eq_some_iff.mp htts).1
          rw [if_neg (by omega), hold]
      · split_ifs at hk' with haddr
        · rw [← Option.some.inj hk']
          exact fun hmem ↦ absurd (h.known _ hmem) (Nat.lt_irrefl _)
        · exact (h.entry addr' k hk').2
    · change (s.table.insert addr s.transports.length)[addr']? = some k
      have hk' := (hnew k).symm.trans hk
      rw [Std.ExtTreeMap.getElem?_insert]
      by_cases hlast : k = s.transports.length
      · rw [if_pos hlast] at hk'
        rw [Option.some.inj hk', if_pos Std.ReflCmp.compare_self, hlast]
      · rw [if_neg hlast] at hk'
        have hold := h.listed hown k addr' hk' hfree
        have hne : compare addr addr' ≠ .eq := by
          intro heq
          rw [← Std.LawfulEqCmp.eq_of_compare heq, hnone] at hold
          cases hold
        rw [if_neg hne, hold]
    · have hold := h.known k hk
      change k < (s.transports ++ [_]).length
      rw [List.length_append]
      omega
  · exact h

/-- A removal erases its own entry, unless it is recorded that it did not. -/
theorem kept_removeTTS (h : s.Kept) {i : Nat} {call : TransportCall} {tts : LiveTransport}
    (htts : s.transports[call.transport]? = some tts) : (s.removeTTS i call tts).Kept := by
  have hserverURL : s.serverURL call.transport = some tts.serverURL := by
    rw [serverURL, htts]
    rfl
  have hreleased : (s.removeTTS i call tts).released = s.released ++ [call.transport] := by
    rw [removeTTS, released, List.map_append]
    rfl
  refine ⟨fun addr k hk ↦ ?_, fun hown k addr hk hfree ↦ ?_, fun k hk ↦ ?_⟩
  · have hk' : (s.table.erase tts.serverURL)[addr]? = some k := hk
    rw [Std.ExtTreeMap.getElem?_erase] at hk'
    split_ifs at hk' with haddr
    obtain ⟨hold, hfree⟩ := h.entry addr k hk'
    refine ⟨hold, ?_⟩
    rw [hreleased, List.mem_append, List.mem_singleton, not_or]
    refine ⟨hfree, ?_⟩
    rintro rfl
    rw [hserverURL] at hold
    rw [Option.some.inj hold] at haddr
    exact haddr Std.ReflCmp.compare_self
  · rw [hreleased, List.mem_append, List.mem_singleton, not_or] at hfree
    have hold := h.listed (fun removal hmem ↦ hown removal (List.mem_append_left _ hmem)) k addr hk
      hfree.1
    have hentry : s.table[tts.serverURL]? = some call.transport :=
      hown _ (List.mem_append_right _ (List.mem_singleton_self _))
    change (s.table.erase tts.serverURL)[addr]? = some k
    rw [Std.ExtTreeMap.getElem?_erase, if_neg, hold]
    intro haddr
    rw [← Std.LawfulEqCmp.eq_of_compare haddr, hentry] at hold
    exact hfree.2 (Option.some.inj hold).symm
  · rw [hreleased, List.mem_append, List.mem_singleton] at hk
    rcases hk with hold | rfl
    · exact h.known k hold
    · exact (List.getElem?_eq_some_iff.mp htts).1

theorem kept_step (h : s.Kept) (hstep : s.step e = some t) : t.Kept := by
  cases e with
  | invoke addr cmd timeoutMillis connects =>
    cases hstep
    exact kept_invoke h addr cmd timeoutMillis connects
  | run i outcomes =>
    obtain ⟨call, tts, hi, htts, ⟨-, next, rfl⟩ | ⟨-, next, connected, rfl⟩ | ⟨-, rfl⟩⟩ :=
      step_run hstep
    · exact h.of_same rfl rfl (fun _ ↦ rfl) rfl
    · have hconnected := h.setConnected call.transport connected
      exact hconnected.of_same rfl rfl (fun _ ↦ rfl) rfl
    · exact kept_removeTTS h htts
  | recvData addr closes =>
    obtain ⟨k, -, rfl⟩ := Option.map_eq_some_iff.mp hstep
    split_ifs
    · exact h.setConnected k false
    · exact h

/-- A step that releases and writes nothing late, and has the same transports held. -/
theorem owned_of_same (hremovals : t.removals = s.removals) (hlate : t.lateSends = s.lateSends)
    (hheld : (∀ call ∈ t.calls, call.transport ∉ s.released) ↔
      ∀ call ∈ s.calls, call.transport ∉ s.released)
    (hgood : s.AloneAtRemoval e) : t.Owned ↔ s.Owned ∧ s.AloneAtRemoval e := by
  have hreleased : t.released = s.released := by rw [released, hremovals, released]
  rw [and_iff_left hgood]
  constructor
  · rintro ⟨⟨honce, hown, hunused⟩, hfree⟩
    rw [hreleased] at honce hfree
    rw [hremovals] at hown
    exact ⟨⟨honce, hown, hlate ▸ hunused⟩, hheld.mp hfree⟩
  · rintro ⟨⟨honce, hown, hunused⟩, hfree⟩
    refine ⟨⟨hreleased ▸ honce, hremovals ▸ hown, hlate ▸ hunused⟩, ?_⟩
    rw [hreleased]
    exact hheld.mpr hfree

/-- A new call holds a transport that was not released. -/
theorem owned_invoke (h : s.Kept) (addr : StdString) (cmd : OutCommand) (timeoutMillis : Int)
    (connects : Bool) : (s.getAndCreateTransport addr cmd timeoutMillis connects).Owned ↔
      s.Owned ∧ s.AloneAtRemoval (.invoke addr cmd timeoutMillis connects) := by
  have hadd : ∀ k pc, k ∉ s.released →
      ((∀ call ∈ s.calls ++ [⟨k, cmd, timeoutMillis, pc⟩], call.transport ∉ s.released) ↔
        ∀ call ∈ s.calls, call.transport ∉ s.released) := by
    intro k pc hk
    simp only [List.mem_append, List.mem_singleton, or_imp, forall_and, forall_eq]
    exact and_iff_left hk
  rw [getAndCreateTransport]
  split
  · next k hk => exact owned_of_same rfl rfl (hadd k _ (h.entry addr k hk).2) trivial
  · split_ifs
    · exact owned_of_same rfl rfl
        (hadd _ _ fun hmem ↦ absurd (h.known _ hmem) (Nat.lt_irrefl _)) trivial
    · exact owned_of_same rfl rfl Iff.rfl trivial

/-- A write is late when its transport was released. -/
theorem owned_sendData {i : Nat} {call : TransportCall} (hi : s.calls[i]? = some call)
    (next : Option TransportPc) (connected : Bool) :
    Owned { s.goOn i call next with
      transports := (s.setConnected call.transport connected).transports
      lateSends := s.lateSends ++ if call.transport ∈ s.released then [call.transport] else [] } ↔
    s.Owned := by
  constructor
  · rintro ⟨⟨honce, hown, hunused⟩, hfree⟩
    rw [List.append_eq_nil_iff] at hunused
    refine ⟨⟨honce, hown, hunused.1⟩, fun c hc ↦ ?_⟩
    rcases List.mem_cons.mp ((calls_perm hi).mem_iff.mp hc) with rfl | hrest
    · intro hmem
      rw [if_pos hmem] at hunused
      cases hunused.2
    · exact hfree c ((calls_goOn hi next).mem_iff.mpr (List.mem_append_right _ hrest))
  · rintro ⟨⟨honce, hown, hunused⟩, hfree⟩
    refine ⟨⟨honce, hown, ?_⟩, fun c hc ↦ ?_⟩
    · rw [if_neg (hfree call (List.mem_of_getElem? hi)), List.append_nil]
      exact hunused
    · obtain ⟨old, hold, htransport⟩ := held_goOn hi hc
      rw [← htransport]
      exact hfree old hold

/-- A removal releases a transport for the first time and takes its entry, and leaves nobody with
it when no other call holds it. -/
theorem owned_removeTTS (h : s.Kept) {i : Nat} {call : TransportCall} {tts : LiveTransport}
    (hi : s.calls[i]? = some call) (htts : s.transports[call.transport]? = some tts) :
    (s.removeTTS i call tts).Owned ↔
      s.Owned ∧ ∀ other ∈ s.calls.eraseIdx i, other.transport ≠ call.transport := by
  have hreleased : (s.removeTTS i call tts).released = s.released ++ [call.transport] := by
    rw [removeTTS, released, List.map_append]
    rfl
  constructor
  · rintro ⟨⟨honce, hown, hunused⟩, hfree⟩
    rw [hreleased, List.nodup_append] at honce
    have hrest : ∀ c ∈ s.calls.eraseIdx i, c.transport ∉ s.released ++ [call.transport] :=
      fun c hc ↦ hreleased ▸ hfree c hc
    simp only [List.mem_append, List.mem_singleton, not_or] at hrest
    refine ⟨⟨⟨honce.1, fun removal hmem ↦ hown removal (List.mem_append_left _ hmem), hunused⟩,
      fun c hc ↦ ?_⟩, fun other hother ↦ (hrest other hother).2⟩
    rcases List.mem_cons.mp ((calls_perm hi).mem_iff.mp hc) with rfl | hold
    · exact fun hmem ↦ honce.2.2 _ hmem _ (List.mem_singleton_self _) rfl
    · exact (hrest c hold).1
  · rintro ⟨⟨⟨honce, hown, hunused⟩, hfree⟩, halone⟩
    have hheld := hfree call (List.mem_of_getElem? hi)
    have hentry : s.table[tts.serverURL]? = some call.transport :=
      h.listed hown _ _ (by rw [serverURL, htts]; rfl) hheld
    refine ⟨⟨?_, fun removal hmem ↦ ?_, hunused⟩, fun c hc ↦ ?_⟩
    · rw [hreleased, List.nodup_append]
      refine ⟨honce, List.pairwise_singleton _ _, fun k hk j hj ↦ ?_⟩
      rw [List.mem_singleton.mp hj]
      rintro rfl
      exact hheld hk
    · rcases List.mem_append.mp hmem with hold | hnew
      · exact hown removal hold
      · rw [List.mem_singleton.mp hnew]
        exact hentry
    · rw [hreleased, List.mem_append, List.mem_singleton, not_or]
      exact ⟨hfree c (List.mem_of_mem_eraseIdx hc), halone c hc⟩

/-- A step leaves everything in order exactly when it was and the step does not release a transport
that another call holds. -/
theorem owned_step (h : s.Kept) (hstep : s.step e = some t) :
    t.Owned ↔ s.Owned ∧ s.AloneAtRemoval e := by
  cases e with
  | invoke addr cmd timeoutMillis connects =>
    cases hstep
    exact owned_invoke h addr cmd timeoutMillis connects
  | run i outcomes =>
    obtain ⟨call, tts, hi, htts, hcases⟩ := step_run hstep
    have hgood : call.pc ≠ .removeTTS → s.AloneAtRemoval (.run i outcomes) := by
      intro hpc call' hi' hremove
      rw [hi, Option.mem_some_iff] at hi'
      exact absurd (hi' ▸ hremove) hpc
    rcases hcases with ⟨hpc, next, rfl⟩ | ⟨hpc, next, connected, rfl⟩ | ⟨hpc, rfl⟩
    · refine owned_of_same (t := s.goOn i call (some next)) rfl rfl ?_ (hgood hpc)
      simp only [(calls_goOn hi (some next)).mem_iff, (calls_perm hi).mem_iff, List.mem_append,
        List.mem_cons, or_imp, forall_and, Option.map_some, Option.toList_some,
        List.not_mem_nil, or_false, forall_eq]
    · rw [owned_sendData hi, and_iff_left (hgood hpc)]
    · rw [owned_removeTTS h hi htts, AloneAtRemoval, hi]
      simp [hpc]
  | recvData addr closes =>
    obtain ⟨k, -, rfl⟩ := Option.map_eq_some_iff.mp hstep
    split_ifs
    · exact owned_of_same rfl rfl Iff.rfl trivial
    · exact owned_of_same rfl rfl Iff.rfl trivial

end Step

/-! ### Whole runs -/

section Run

variable {s t : TransportState} {es : List TransportEvent}

theorem owned_empty : empty.Owned :=
  ⟨⟨List.nodup_nil, fun _ h ↦ absurd h List.not_mem_nil, rfl⟩,
    fun _ h ↦ absurd h List.not_mem_nil⟩

/-- The runs that end in order are those in which nobody releases a transport that another call
holds. -/
theorem owned_iff (hrun : Base.runFrom step empty es = some s) :
    s.Owned ↔ Base.Along step AloneAtRemoval empty es := by
  rw [Base.recorded_iff_along (fun _ _ _ h hstep ↦ kept_step h hstep)
    (fun _ _ _ h hstep ↦ owned_step h hstep) kept_empty hrun]
  exact and_iff_right owned_empty

/-- In a run in which a transport is only released while no other call holds it, every transport is
released once and not used after that, and every other run breaks this once its calls are over. -/
theorem releasedOnce_iff_aloneAtRemoval (hrun : Base.runFrom step empty es = some s) :
    (Base.Along step AloneAtRemoval empty es →
      ∀ t, Base.Visits step empty es t → t.ReleasedOnce) ∧
    (s.calls = [] → (∀ t, Base.Visits step empty es t → t.ReleasedOnce) →
      Base.Along step AloneAtRemoval empty es) := by
  constructor
  · rintro halone t ⟨pre, hprefix, hpre⟩
    exact ((owned_iff hpre).mpr (Base.along_initial hprefix halone)).releasedOnce
  · intro hover hall
    refine (owned_iff hrun).mp ⟨hall s ⟨es, List.prefix_refl es, hrun⟩, fun call hcall ↦ ?_⟩
    rw [hover] at hcall
    cases hcall

/-- A call finds its connection closed by the peer and releases it; the next call connects again. -/
def reconnected : List TransportEvent :=
  [.invoke (str "a:1") ⟨[0], none⟩ 3000 true, .run 0 [], .run 0 [.accepted 1],
    .recvData (str "a:1") true, .invoke (str "a:1") ⟨[0], none⟩ 3000 true, .run 0 [], .run 0 [],
    .invoke (str "a:1") ⟨[0], none⟩ 3000 true, .run 0 [], .run 0 [.accepted 1]]

theorem reconnected_releasedOnce : (Base.runFrom step empty reconnected).isSome ∧
    ∀ t, Base.Visits step empty reconnected t → t.ReleasedOnce := by
  have hrun : (Base.runFrom step empty reconnected).isSome := by decide +kernel
  obtain ⟨s, hs⟩ := Option.isSome_iff_exists.mp hrun
  exact ⟨hrun, (releasedOnce_iff_aloneAtRemoval hs).1 (by decide +kernel)⟩

/-- Two calls find the connection closed, and a third one connects again before the second of them
releases what it holds. -/
def releasedTwice : List TransportEvent :=
  [.invoke (str "a:1") ⟨[0], none⟩ 3000 true, .invoke (str "a:1") ⟨[0], none⟩ 3000 true,
    .recvData (str "a:1") true, .run 0 [], .run 1 [], .run 0 [],
    .invoke (str "a:1") ⟨[0], none⟩ 3000 true, .run 0 []]

/-- The transport is released twice, and the second time with the entry of the new one. -/
theorem releasedTwice_not_once : ∃ s, Base.runFrom step empty releasedTwice = some s ∧
    s.removals = [(0, some 0), (0, some 1)] ∧ ¬ s.ReleasedOnce := by
  have hremovals : ∃ s, Base.runFrom step empty releasedTwice = some s ∧
      s.removals = [(0, some 0), (0, some 1)] :=
    ⟨_, (Option.some_get (by decide +kernel)).symm, by decide +kernel⟩
  obtain ⟨s, hs, hremovals⟩ := hremovals
  refine ⟨s, hs, hremovals, fun h ↦ ?_⟩
  have hown := h.own (0, some 1) (by rw [hremovals]; decide)
  revert hown
  decide

end Run
end TransportState
end RocketMQ
