import RocketMQ.Base.WriteLog
import RocketMQ.Transport.SendCmd

/-!
# What a torn write leaves on a connection

`TcpTransport::SendData` holds `m_sendLock` while `SendOneMsg` runs its loop, and the receiving side
may close the transport between any two of its steps. A loop that leaves with bytes to send finds
the transport closed or closes it, and a transport that is closed stays so.
-/

namespace RocketMQ

open Base (Write)

/-! ### The sending side -/

/-- Where a `SendOneMsg` stands: before the test of its loop, or behind it. -/
inductive SendPc where
  | test
  | send
deriving DecidableEq

/-- A `SendOneMsg` with the bytes that it has handed over. -/
structure OneMsg where
  buffer : StdString
  pos : Nat
  nTimeOut : Int
  pc : SendPc
deriving DecidableEq

/-- A `SendData` that came back, with what it returned. -/
structure ReturnedSend extends Write UInt8 where
  ret : Int

/-- The sending side of a `TcpTransport` and its socket. -/
structure SendSide where
  connected : Bool
  accepted : StdString
  returned : List ReturnedSend
  current : Option OneMsg

/-- What can happen next; a `close` comes from the receiving side. -/
inductive SendSideEvent where
  | sendData (buffer : StdString) (nTimeOut : Int)
  | test
  | send (outcome : SocketOutcome)
  | close

namespace SendSide

/-- A new connection. -/
def start : SendSide := ⟨true, [], [], none⟩

/-- `return (len == 0) ? 0 : -1`. -/
def leave (s : SendSide) (call : OneMsg) (connected : Bool) : SendSide :=
  { s with
    connected
    returned := s.returned ++
      [⟨⟨call.buffer, call.pos⟩, if call.buffer.length ≤ call.pos then 0 else -1⟩]
    current := none }

/-- The body of the loop, `src/transport/TcpTransport.cpp:254–302`. -/
def sendPass (s : SendSide) (call : OneMsg) : SocketOutcome → SendSide
  | .accepted n =>
    let bytes := (call.buffer.drop call.pos).take n
    { s with
      accepted := s.accepted ++ bytes
      current := some { call with pos := call.pos + bytes.length, pc := .test } }
  | .zero | .error => s.leave call false
  | .wouldBlock select =>
    if select = .failed ∨ (call.nTimeOut > 0 ∧ select = .notReady) then s.leave call false
    else { s with current := some { call with pc := .test } }

/-- One step, `src/transport/TcpTransport.cpp:229–306`. The position is an `int`. -/
def step (s : SendSide) : SendSideEvent → Option SendSide
  | .sendData buffer nTimeOut =>
    if s.current = none ∧ buffer.length < 2 ^ 31 then
      some { s with current := some ⟨buffer, 0, nTimeOut, .test⟩ }
    else none
  | .test =>
    match s.current with
    | some call =>
      if call.pc = .test then
        some (if call.pos < call.buffer.length ∧ s.connected then
          { s with current := some { call with pc := .send } } else s.leave call s.connected)
      else none
    | none => none
  | .send outcome =>
    match s.current with
    | some call => if call.pc = .send then some (s.sendPass call outcome) else none
    | none => none
  | .close => some { s with connected := false }

/-- The buffers whose calls returned 0, one behind the other. -/
def successful (s : SendSide) : StdString := (s.returned.filter (·.ret = 0)).flatMap (·.data)

/-- What the call that holds the lock has handed over. -/
def underway (s : SendSide) : StdString :=
  match s.current with
  | some call => call.buffer.take call.pos
  | none => []

/-- The front of a buffer whose call returned -1, and not all of it. -/
def TornPart (s : SendSide) (torn : StdString) : Prop :=
  ∃ call ∈ s.returned, call.ret = -1 ∧ torn <+: call.data ∧ torn.length < call.data.length

/-- The socket has got the buffers of the successful calls, and behind them a part of at most one
other buffer, or of the one that is being sent. -/
def Ordered (s : SendSide) : Prop :=
  ∃ torn, s.accepted = s.successful ++ torn ++ s.underway ∧
    (torn = [] ∨ s.TornPart torn ∧ s.underway = [])

/-- A call returned -1 that had handed over some of its buffer. -/
def Torn (s : SendSide) : Prop := ∃ call ∈ s.returned, call.ret = -1 ∧ call.taken ≠ 0

/-! ### One call alone -/

section Alone

variable {s : SendSide} {call : OneMsg}

theorem drop_isEmpty_iff : (call.buffer.drop call.pos).isEmpty = true ↔
    call.buffer.length ≤ call.pos := by
  rw [List.isEmpty_iff, List.drop_eq_nil_iff]

/-- A loop whose condition fails. -/
theorem sendOneMsg_of_stop {nTimeOut : Int} {connected : Bool}
    (hstop : ¬ (call.pos < call.buffer.length ∧ connected)) (outcomes : List SocketOutcome) :
    TcpTransport.sendOneMsg nTimeOut connected (call.buffer.drop call.pos) outcomes =
      some ⟨connected, [], if call.buffer.length ≤ call.pos then 0 else -1⟩ := by
  unfold TcpTransport.sendOneMsg
  by_cases hdone : call.buffer.length ≤ call.pos
  · rw [if_pos (drop_isEmpty_iff.mpr hdone), if_pos hdone]
  · have hclosed : (!connected) = true := by
      rw [Bool.not_eq_true']
      by_contra hconnected
      exact hstop ⟨Nat.not_le.mp hdone, Bool.not_eq_false _ ▸ hconnected⟩
    rw [if_neg (mt drop_isEmpty_iff.mp hdone), if_pos hclosed, if_neg hdone]

theorem drop_length_take (l : StdString) (n : Nat) : l.drop (l.take n).length = l.drop n := by
  rw [List.length_take]
  rcases Nat.le_total n l.length with hle | hle
  · rw [Nat.min_eq_left hle]
  · rw [Nat.min_eq_right hle, List.drop_of_length_le (Nat.le_refl _), List.drop_of_length_le hle]

theorem step_test (hcurrent : s.current = some call) (hpc : call.pc = .test) :
    s.step .test = some (if call.pos < call.buffer.length ∧ s.connected then
      { s with current := some { call with pc := .send } } else s.leave call s.connected) := by
  rw [step, hcurrent]
  exact if_pos hpc

theorem run_stop {outcomes : List SocketOutcome} {r : SendOutcome}
    (hcurrent : s.current = some call) (hpc : call.pc = .test)
    (hstop : ¬ (call.pos < call.buffer.length ∧ s.connected))
    (hr : TcpTransport.sendOneMsg call.nTimeOut s.connected (call.buffer.drop call.pos) outcomes =
      some r) :
    ∃ events, Base.runFrom step s events = some
      ⟨r.connected, s.accepted ++ r.accepted, s.returned ++
        [⟨⟨call.buffer, call.pos + r.accepted.length⟩, r.ret⟩], none⟩ := by
  rw [sendOneMsg_of_stop hstop, Option.some.injEq] at hr
  refine ⟨[.test], ?_⟩
  rw [Base.runFrom, step_test hcurrent hpc, if_neg hstop, ← hr, List.append_nil]
  rfl

/-- A pass of the loop in two steps. -/
theorem runFrom_pass (hcurrent : s.current = some call) (hpc : call.pc = .test)
    (hgo : call.pos < call.buffer.length ∧ s.connected) (outcome : SocketOutcome)
    (events : List SendSideEvent) :
    Base.runFrom step s (.test :: .send outcome :: events) =
      Base.runFrom step (s.sendPass call outcome) events := by
  rw [Base.runFrom, step_test hcurrent hpc, if_pos hgo]
  cases outcome <;> rfl

/-- A pass that closes the transport. -/
theorem run_break (hcurrent : s.current = some call) (hpc : call.pc = .test)
    (hgo : call.pos < call.buffer.length ∧ s.connected) (outcome : SocketOutcome)
    (hbreak : s.sendPass call outcome = s.leave call false) :
    ∃ events, Base.runFrom step s events = some
      ⟨false, s.accepted ++ [], s.returned ++ [⟨⟨call.buffer, call.pos⟩, -1⟩], none⟩ := by
  refine ⟨[.test, .send outcome], ?_⟩
  rw [runFrom_pass hcurrent hpc hgo, hbreak, Base.runFrom_nil, SendSide.leave,
    if_neg (Nat.not_le.mpr hgo.1), List.append_nil]

/-- Without a `close` in between, the steps of a call come to what `sendOneMsg` says. -/
theorem run_sendOneMsg {outcomes : List SocketOutcome} {r : SendOutcome}
    (hcurrent : s.current = some call) (hpc : call.pc = .test)
    (hr : TcpTransport.sendOneMsg call.nTimeOut s.connected (call.buffer.drop call.pos) outcomes =
      some r) :
    ∃ events, Base.runFrom step s events = some
      ⟨r.connected, s.accepted ++ r.accepted, s.returned ++
        [⟨⟨call.buffer, call.pos + r.accepted.length⟩, r.ret⟩], none⟩ := by
  induction outcomes generalizing s call r with
  | nil =>
    by_cases hgo : call.pos < call.buffer.length ∧ s.connected
    · unfold TcpTransport.sendOneMsg at hr
      rw [if_neg (mt drop_isEmpty_iff.mp (Nat.not_le.mpr hgo.1)), if_neg (by simp [hgo.2])] at hr
      cases hr
    · exact run_stop hcurrent hpc hgo hr
  | cons outcome rest ih =>
    by_cases hgo : call.pos < call.buffer.length ∧ s.connected
    · unfold TcpTransport.sendOneMsg at hr
      rw [if_neg (mt drop_isEmpty_iff.mp (Nat.not_le.mpr hgo.1)), if_neg (by simp [hgo.2])] at hr
      cases outcome with
      | accepted n =>
        obtain ⟨r', hr', rfl⟩ := Option.map_eq_some_iff.mp hr
        rw [← drop_length_take, List.drop_drop] at hr'
        obtain ⟨events, hevents⟩ := ih (s := s.sendPass call (.accepted n)) rfl rfl hr'
        refine ⟨.test :: .send (.accepted n) :: events, ?_⟩
        rw [runFrom_pass hcurrent hpc hgo, hevents]
        simp only [sendPass, List.append_assoc, List.length_append, Nat.add_assoc]
      | zero =>
        obtain rfl := Option.some.inj hr
        exact run_break hcurrent hpc hgo .zero rfl
      | error =>
        obtain rfl := Option.some.inj hr
        exact run_break hcurrent hpc hgo .error rfl
      | wouldBlock select =>
        simp only at hr
        split at hr
        · next hleave =>
          obtain rfl := Option.some.inj hr
          exact run_break hcurrent hpc hgo (.wouldBlock select) (if_pos hleave)
        · next hagain =>
          have hpass : s.sendPass call (.wouldBlock select) =
              { s with current := some { call with pc := .test } } := if_neg hagain
          obtain ⟨events, hevents⟩ := ih (s := { s with current := some { call with pc := .test } })
            rfl rfl hr
          refine ⟨.test :: .send (.wouldBlock select) :: events, ?_⟩
          rw [runFrom_pass hcurrent hpc hgo, hpass, hevents]
    · exact run_stop hcurrent hpc hgo hr

end Alone

/-! ### The invariant -/

/-- The calls that came back, as writes. -/
def log (s : SendSide) : List (Write UInt8) := s.returned.map ReturnedSend.toWrite

/-- No byte is handed over any more. -/
def Dead (s : SendSide) : Prop :=
  s.connected = false ∧ ∀ call ∈ s.current, call.pos = 0 ∧ call.pc = .test

/-- What holds in every state. -/
structure Inv (s : SendSide) : Prop where
  accepted : s.accepted = Base.taken s.log ++ s.underway
  told : ∀ call ∈ s.returned, call.ret = if call.Whole then 0 else -1
  stops : Base.StopsWhenCut s.log
  dead : (∃ w ∈ s.log, ¬ w.Whole) → s.Dead
  sending : ∀ call ∈ s.current, call.pc = .send → call.pos < call.buffer.length

section Steps

variable {s t : SendSide} {call : OneMsg}

theorem underway_of_current (h : s.current = some call) :
    s.underway = call.buffer.take call.pos := by
  rw [underway, h]

theorem underway_of_none (h : s.current = none) : s.underway = [] := by
  rw [underway, h]

theorem Inv.accepted_of_current (h : s.Inv) (hcurrent : s.current = some call) :
    s.accepted = Base.taken s.log ++ call.buffer.take call.pos := by
  rw [h.accepted, underway_of_current hcurrent]

/-- A call that comes back puts its part behind the others. -/
theorem Inv.leave (h : s.Inv) (hcurrent : s.current = some call) {connected : Bool}
    (hstays : s.connected = false → connected = false)
    (hcut : call.pos < call.buffer.length → connected = false) :
    (s.leave call connected).Inv := by
  have hlog : (s.leave call connected).log = s.log ++ [⟨call.buffer, call.pos⟩] := by
    rw [log, log, SendSide.leave, List.map_append]
    rfl
  constructor
  · rw [hlog, Base.taken_concat, underway_of_none rfl, List.append_nil]
    exact h.accepted_of_current hcurrent
  · intro c hc
    rcases List.mem_append.mp hc with hold | hnew
    · exact h.told c hold
    · rw [List.mem_singleton.mp hnew]
      rfl
  · rw [hlog]
    exact h.stops.concat fun hexists ↦ ((h.dead hexists).2 call hcurrent).1
  · rintro ⟨w, hw, hnot⟩
    refine ⟨?_, nofun⟩
    rw [hlog] at hw
    rcases List.mem_append.mp hw with hold | hnew
    · exact hstays (h.dead ⟨w, hold, hnot⟩).1
    · rw [List.mem_singleton.mp hnew] at hnot
      exact hcut (Nat.not_le.mp hnot)
  · exact nofun

/-- A call behind the test finds all earlier calls whole. -/
theorem Inv.whole_of_sending (h : s.Inv) (hcurrent : s.current = some call)
    (hpc : call.pc = .send) : ¬ ∃ w ∈ s.log, ¬ w.Whole := by
  intro hexists
  have htest := ((h.dead hexists).2 call hcurrent).2
  rw [hpc] at htest
  cases htest

theorem Inv.sendPass (h : s.Inv) (hcurrent : s.current = some call) (hpc : call.pc = .send)
    (outcome : SocketOutcome) : (s.sendPass call outcome).Inv := by
  have hwhole := h.whole_of_sending hcurrent hpc
  cases outcome with
  | accepted n =>
    refine ⟨?_, h.told, h.stops, fun hexists ↦ absurd hexists hwhole, ?_⟩
    · have hbytes : call.buffer.take call.pos ++ (call.buffer.drop call.pos).take n =
          call.buffer.take (call.pos + ((call.buffer.drop call.pos).take n).length) := by
        rw [List.take_add, List.length_take]
        exact congrArg (call.buffer.take call.pos ++ ·) (List.take_eq_take_min ..)
      have haccepted := h.accepted_of_current hcurrent
      rw [SendSide.sendPass, haccepted, List.append_assoc, hbytes]
      rfl
    · rintro call' hcall' hpc'
      cases hcall'
      cases hpc'
  | zero | error => exact h.leave hcurrent (fun _ ↦ rfl) fun _ ↦ rfl
  | wouldBlock select =>
    rw [SendSide.sendPass]
    split_ifs
    · exact h.leave hcurrent (fun _ ↦ rfl) fun _ ↦ rfl
    · refine ⟨?_, h.told, h.stops, fun hexists ↦ absurd hexists hwhole, ?_⟩
      · have haccepted := h.accepted_of_current hcurrent
        exact haccepted
      · rintro call' hcall' hpc'
        cases hcall'
        cases hpc'

/-- Step lemma. -/
theorem inv_step (s : SendSide) (e : SendSideEvent) (t : SendSide) (h : s.Inv)
    (hstep : s.step e = some t) : t.Inv := by
  cases e with
  | sendData buffer nTimeOut =>
    simp only [step, Option.ite_none_right_eq_some, Option.some.injEq] at hstep
    obtain ⟨⟨hnone, -⟩, rfl⟩ := hstep
    refine ⟨?_, h.told, h.stops, fun hexists ↦ ⟨(h.dead hexists).1, ?_⟩, ?_⟩
    · rw [h.accepted, underway_of_none hnone]
      rfl
    · rintro call hcall
      cases hcall
      exact ⟨rfl, rfl⟩
    · rintro call hcall hpc
      cases hcall
      cases hpc
  | test =>
    simp only [step] at hstep
    split at hstep
    · next call hcurrent =>
      rw [Option.ite_none_right_eq_some, Option.some.injEq] at hstep
      obtain ⟨hpc, rfl⟩ := hstep
      split_ifs with hgo
      · refine ⟨?_, h.told, h.stops, fun hexists ↦ ?_, ?_⟩
        · have haccepted := h.accepted_of_current hcurrent
          exact haccepted
        · have hclosed := (h.dead hexists).1
          rw [hgo.2] at hclosed
          cases hclosed
        · rintro call' hcall' -
          cases hcall'
          exact hgo.1
      · apply h.leave hcurrent id
        intro hlt
        rw [← Bool.not_eq_true]
        exact fun hconnected ↦ hgo ⟨hlt, hconnected⟩
    · cases hstep
  | send outcome =>
    simp only [step] at hstep
    split at hstep
    · next call hcurrent =>
      rw [Option.ite_none_right_eq_some, Option.some.injEq] at hstep
      obtain ⟨hpc, rfl⟩ := hstep
      exact h.sendPass hcurrent hpc outcome
    · cases hstep
  | close =>
    cases hstep
    exact ⟨h.accepted, h.told, h.stops, fun hexists ↦ ⟨rfl, (h.dead hexists).2⟩, h.sending⟩

/-- Nothing has happened yet. -/
theorem inv_start : start.Inv := ⟨rfl, nofun, List.Pairwise.nil, nofun, nofun⟩

/-! ### Runs -/

theorem Inv.successful_eq (h : s.Inv) : s.successful = Base.whole s.log := by
  rw [successful, Base.whole, log, List.filter_map, List.flatMap_map]
  congr 1
  apply List.filter_congr
  intro call hcall
  rw [h.told call hcall]
  split_ifs with hwhole <;> simp [hwhole]

theorem Inv.ret_of_not_whole (h : s.Inv) {w : Write UInt8} (hw : w ∈ s.log) (hnot : ¬ w.Whole) :
    ∃ call ∈ s.returned, call.toWrite = w ∧ call.ret = -1 := by
  obtain ⟨call, hcall, rfl⟩ := List.mem_map.mp hw
  exact ⟨call, hcall, rfl, by rw [h.told call hcall, if_neg hnot]⟩

/-- In every state the socket has got whole buffers and a part of one. -/
theorem Inv.ordered (h : s.Inv) : s.Ordered := by
  obtain ⟨torn, htaken, htorn⟩ := Base.taken_eq_whole_append h.stops
  refine ⟨torn, by rw [h.accepted, htaken, h.successful_eq], htorn.imp_right ?_⟩
  rintro ⟨w, hw, hnot, rfl⟩
  obtain ⟨call, hcall, rfl, hret⟩ := h.ret_of_not_whole hw hnot
  refine ⟨⟨call, hcall, hret, List.take_prefix _ _, ?_⟩, ?_⟩
  · rw [Write.part, List.length_take]
    exact Nat.lt_of_le_of_lt (Nat.min_le_left _ _) (Nat.not_le.mp hnot)
  · cases hcurrent : s.current with
    | none => exact underway_of_none hcurrent
    | some current =>
      rw [underway_of_current hcurrent, ((h.dead ⟨_, hw, hnot⟩).2 current hcurrent).1,
        List.take_zero]

/-- After a torn write nothing is handed over. -/
theorem Inv.dead_of_torn (h : s.Inv) (htorn : s.Torn) : s.Dead := by
  obtain ⟨call, hcall, hret, -⟩ := htorn
  refine h.dead ⟨call.toWrite, List.mem_map_of_mem hcall, fun hwhole ↦ ?_⟩
  rw [h.told call hcall, if_pos hwhole] at hret
  cases hret

theorem dead_step (stream : StdString) (s : SendSide) (e : SendSideEvent) (t : SendSide)
    (h : s.Dead ∧ s.accepted = stream) (hstep : s.step e = some t) :
    t.Dead ∧ t.accepted = stream := by
  obtain ⟨⟨hclosed, hcalls⟩, hstream⟩ := h
  cases e with
  | sendData buffer nTimeOut =>
    simp only [step, Option.ite_none_right_eq_some, Option.some.injEq] at hstep
    obtain ⟨-, rfl⟩ := hstep
    refine ⟨⟨hclosed, ?_⟩, hstream⟩
    rintro call hcall
    cases hcall
    exact ⟨rfl, rfl⟩
  | test =>
    simp only [step, hclosed] at hstep
    split at hstep
    · next call hcurrent =>
      rw [Option.ite_none_right_eq_some, Option.some.injEq] at hstep
      obtain ⟨-, rfl⟩ := hstep
      rw [if_neg (by simp)]
      exact ⟨⟨rfl, nofun⟩, hstream⟩
    · cases hstep
  | send outcome =>
    simp only [step] at hstep
    split at hstep
    · next call hcurrent =>
      rw [Option.ite_none_right_eq_some, (hcalls call hcurrent).2] at hstep
      cases hstep.1
    · cases hstep
  | close =>
    cases hstep
    exact ⟨⟨rfl, hcalls⟩, hstream⟩

/-- **A torn write ends the stream**: in every state of every run the socket has got the buffers
whose calls returned 0, in order, and behind them a part of at most one other; once a call that
returned -1 has handed over some of its buffer, the socket gets nothing more. -/
theorem torn_write_ends_stream (events : List SendSideEvent) (s : SendSide)
    (hrun : Base.runFrom step start events = some s) :
    s.Ordered ∧ (s.Torn → ∀ later t, Base.runFrom step s later = some t →
      t.accepted = s.accepted) := by
  have hinv := Base.inv_of_runFrom inv_step inv_start hrun
  refine ⟨hinv.ordered, fun htorn later t hlater ↦ ?_⟩
  exact (Base.inv_of_runFrom (dead_step s.accepted) ⟨hinv.dead_of_torn htorn, rfl⟩ hlater).2

end Steps

/-- A buffer that is handed over in two pieces, one that is torn by a timeout, and one behind
it. -/
def tornRun : List SendSideEvent :=
  [.sendData [1, 2] 0, .test, .send (.accepted 1), .test, .send (.wouldBlock .notReady), .test,
    .send (.accepted 1), .test,
    .sendData [3, 4] 100, .test, .send (.accepted 1), .test, .send (.wouldBlock .notReady),
    .sendData [5] 100, .test]

/-- The socket has got the first buffer and the first byte of the second. -/
theorem torn_write_ends_stream_tornRun :
    ∃ s, Base.runFrom step start tornRun = some s ∧ s.accepted = [1, 2, 3] ∧ s.Ordered ∧
      ∀ later t, Base.runFrom step s later = some t → t.accepted = s.accepted := by
  obtain ⟨hordered, hends⟩ := torn_write_ends_stream tornRun _ rfl
  have htorn : ReturnedSend.mk ⟨[3, 4], 1⟩ (-1) ∈
      [ReturnedSend.mk ⟨[1, 2], 2⟩ 0, ⟨⟨[3, 4], 1⟩, -1⟩, ⟨⟨[5], 0⟩, -1⟩] :=
    List.mem_cons_of_mem _ List.mem_cons_self
  exact ⟨_, rfl, rfl, hordered, hends ⟨_, htorn, rfl, by decide⟩⟩

end SendSide
end RocketMQ
