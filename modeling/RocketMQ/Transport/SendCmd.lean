import RocketMQ.Base.Run
import RocketMQ.Message.MessageQueue

/-!
# Commands on a shared connection

`TcpRemotingClient::SendCmd` writes a command in two calls of `TcpTransport::SendData`, and
each call holds the transport's send mutex only for itself. All senders to one broker share
the transport that `GetAndCreateTransport` keeps for its address
(`src/transport/TcpRemotingClient.cpp:225–252,457–466`,
`src/transport/TcpTransport.cpp:243–306`). A step below is one `SendData` of one sender.
-/

namespace RocketMQ

/-! ### One `SendData` -/

/-- How `select` ends while a socket is full. -/
inductive SelectResult where
  | failed
  | notReady
  | ready
deriving DecidableEq

/-- What one `send` on the socket comes to; it never accepts more than it was offered. -/
inductive SocketOutcome where
  | accepted (n : Nat)
  | zero
  | wouldBlock (select : SelectResult)
  | error
deriving DecidableEq

/-- What a `SendOneMsg` leaves: whether the transport is connected, the bytes the socket
took and the value returned. -/
structure SendOutcome where
  connected : Bool
  accepted : List UInt8
  ret : Int

namespace TcpTransport

/-- `src/transport/TcpTransport.cpp:249–306`, with the outcomes of the `send` calls; `none`
when they do not suffice. -/
def sendOneMsg (nTimeOut : Int) (connected : Bool) (buffer : List UInt8)
    (outcomes : List SocketOutcome) : Option SendOutcome :=
  if buffer.isEmpty then some ⟨connected, [], 0⟩
  else if !connected then some ⟨connected, [], -1⟩
  else
    match outcomes with
    | [] => none
    | .accepted n :: rest =>
      (sendOneMsg nTimeOut connected (buffer.drop n) rest).map fun r ↦
        { r with accepted := buffer.take n ++ r.accepted }
    | .zero :: _ => some ⟨false, [], -1⟩
    | .wouldBlock select :: rest =>
      if select = .failed ∨ (nTimeOut > 0 ∧ select = .notReady) then some ⟨false, [], -1⟩
      else sendOneMsg nTimeOut connected buffer rest
    | .error :: _ => some ⟨false, [], -1⟩

/-- A write that succeeds hands over the whole buffer and keeps the connection. -/
theorem sendOneMsg_of_ret_zero {nTimeOut : Int} {connected : Bool} {buffer : List UInt8}
    {outcomes : List SocketOutcome} {r : SendOutcome}
    (h : sendOneMsg nTimeOut connected buffer outcomes = some r) (hret : r.ret = 0) :
    r.accepted = buffer ∧ r.connected = connected := by
  induction outcomes generalizing buffer r with
  | nil =>
    unfold sendOneMsg at h
    split at h
    · next he =>
      obtain rfl := Option.some.inj h
      exact ⟨(List.isEmpty_iff.mp he).symm, rfl⟩
    · split at h
      · obtain rfl := Option.some.inj h
        exact absurd hret (by simp)
      · exact absurd h (by simp)
  | cons outcome rest ih =>
    unfold sendOneMsg at h
    split at h
    · next he =>
      obtain rfl := Option.some.inj h
      exact ⟨(List.isEmpty_iff.mp he).symm, rfl⟩
    split at h
    · obtain rfl := Option.some.inj h
      exact absurd hret (by simp)
    cases outcome with
    | accepted n =>
      obtain ⟨r', hr', rfl⟩ := Option.map_eq_some_iff.mp h
      obtain ⟨hacc, hconn⟩ := ih hr' hret
      exact ⟨by simp [hacc], hconn⟩
    | zero | error =>
      obtain rfl := Option.some.inj h
      exact absurd hret (by simp)
    | wouldBlock select =>
      simp only at h
      split at h
      · obtain rfl := Option.some.inj h
        exact absurd hret (by simp)
      · exact ih h hret

end TcpTransport

/-! ### Many senders -/

/-- A `RemotingCommand` as `SendCmd` reads it; `GetBody` may be `NULL`. -/
structure OutCommand where
  head : List UInt8
  body : Option (List UInt8)
deriving DecidableEq

/-- The bytes of a whole command. -/
def OutCommand.bytes (cmd : OutCommand) : List UInt8 := cmd.head ++ cmd.body.getD []

/-- A thread: the command whose head it has written and whose body is still due, and the
commands it has not started. -/
structure Sender where
  todo : List OutCommand
  bodyDue : Option OutCommand
deriving DecidableEq

/-- What one `SendData` puts on the socket, with the thread it comes from. -/
inductive Segment where
  | head (sender : Nat) (cmd : OutCommand)
  | body (sender : Nat) (cmd : OutCommand)
deriving DecidableEq

/-- The buffer of the `SendData`. -/
def Segment.bytes : Segment → List UInt8
  | .head _ cmd => cmd.head
  | .body _ cmd => cmd.body.getD []

/-- One transport with its threads, the segments written so far and the bytes of the socket. -/
structure Connection where
  connected : Bool
  senders : List Sender
  wire : List Segment
  stream : List UInt8
deriving DecidableEq

/-- A thread runs its next `SendData`, and the socket behaves in some way. -/
structure SendStep where
  sender : Nat
  outcomes : List SocketOutcome

namespace Connection

/-- Fresh threads on a fresh connection. -/
def start (todos : List (List OutCommand)) : Connection :=
  ⟨true, todos.map fun todo ↦ ⟨todo, none⟩, [], []⟩

/-- A `SendData` that succeeds, `src/transport/TcpTransport.cpp:243–247`. -/
def sendData (timeoutMillis : Int) (s : Connection) (e : SendStep) (segment : Segment)
    (next : Sender) : Option Connection :=
  match TcpTransport.sendOneMsg timeoutMillis s.connected segment.bytes e.outcomes with
  | none => none
  | some r =>
    if r.ret = 0 then
      some ⟨r.connected, s.senders.set e.sender next, s.wire ++ [segment],
        s.stream ++ r.accepted⟩
    else none

/-- The next `SendData` of a thread, `src/transport/TcpRemotingClient.cpp:457–466`. -/
def step (timeoutMillis : Int) (s : Connection) (e : SendStep) : Option Connection :=
  match s.senders[e.sender]? with
  | none => none
  | some ⟨todo, some cmd⟩ => s.sendData timeoutMillis e (.body e.sender cmd) ⟨todo, none⟩
  | some ⟨cmd :: todo, none⟩ =>
    s.sendData timeoutMillis e (.head e.sender cmd)
      ⟨todo, if cmd.body.isSome then some cmd else none⟩
  | some ⟨[], none⟩ => none

/-- The segments of a command that is written in one piece. -/
def wholeCommand : Nat × OutCommand → List Segment
  | (i, cmd) =>
    if cmd.body.isSome then [.head i cmd, .body i cmd] else [.head i cmd]

/-- Whole commands, one after the other. -/
def wholeCommands (cmds : List (Nat × OutCommand)) : List Segment := cmds.flatMap wholeCommand

/-- The socket has got whole commands, and after them at most the head of one whose body is
still due. -/
def Framed (s : Connection) : Prop :=
  ∃ cmds : List (Nat × OutCommand),
    (s.wire = wholeCommands cmds ∧ s.stream = cmds.flatMap (·.2.bytes)) ∨
    ∃ i cmd todo, s.senders[i]? = some ⟨todo, some cmd⟩ ∧
      s.wire = wholeCommands cmds ++ [.head i cmd] ∧
      s.stream = cmds.flatMap (·.2.bytes) ++ cmd.head

/-- A thread begins a command only while no body is due. -/
def StartsAlone (s : Connection) (e : SendStep) : Prop :=
  (s.senders[e.sender]?).any (·.bodyDue.isSome) = true ∨ ∀ p ∈ s.senders, p.bodyDue = none

instance (s : Connection) (e : SendStep) : Decidable (s.StartsAlone e) :=
  inferInstanceAs (Decidable (_ ∨ _))

/-- The segments of a whole command are its bytes. -/
@[simp] theorem bytes_wholeCommands (cmds : List (Nat × OutCommand)) :
    (wholeCommands cmds).flatMap Segment.bytes = cmds.flatMap (·.2.bytes) := by
  induction cmds with
  | nil => rfl
  | cons c rest ih =>
    obtain ⟨i, head, body⟩ := c
    rw [wholeCommands, List.flatMap_cons, List.flatMap_append]
    rw [wholeCommands] at ih
    rw [ih, List.flatMap_cons]
    cases body <;> simp [wholeCommand, Segment.bytes, OutCommand.bytes]

/-- What a step can be: a due body is written, or a new command is begun. -/
theorem step_cases {timeoutMillis : Int} {s t : Connection} {e : SendStep}
    (h : s.step timeoutMillis e = some t) :
    (∃ todo cmd, s.senders[e.sender]? = some ⟨todo, some cmd⟩ ∧
      t = { s with
        senders := s.senders.set e.sender ⟨todo, none⟩
        wire := s.wire ++ [.body e.sender cmd]
        stream := s.stream ++ cmd.body.getD [] }) ∨
    ∃ todo cmd, s.senders[e.sender]? = some ⟨cmd :: todo, none⟩ ∧
      t = { s with
        senders := s.senders.set e.sender ⟨todo, if cmd.body.isSome then some cmd else none⟩
        wire := s.wire ++ [.head e.sender cmd]
        stream := s.stream ++ cmd.head } := by
  have hsend {segment : Segment} {next : Sender}
      (hs : s.sendData timeoutMillis e segment next = some t) :
      t = { s with
        senders := s.senders.set e.sender next
        wire := s.wire ++ [segment]
        stream := s.stream ++ segment.bytes } := by
    unfold sendData at hs
    split at hs
    · exact absurd hs (by simp)
    · next r hr =>
      split at hs
      · next hret =>
        obtain ⟨hacc, hconn⟩ := TcpTransport.sendOneMsg_of_ret_zero hr hret
        rw [← Option.some.inj hs, hacc, hconn]
      · exact absurd hs (by simp)
  unfold step at h
  split at h
  · exact absurd h (by simp)
  · next todo cmd hsender => exact Or.inl ⟨todo, cmd, hsender, hsend h⟩
  · next cmd todo hsender => exact Or.inr ⟨todo, cmd, hsender, hsend h⟩
  · exact absurd h (by simp)

/-- The invariant of runs that begin commands one at a time: either no body is due and the
wire has whole commands, or one is due and its head is the last thing on the wire. -/
inductive Aligned (s : Connection) : Prop where
  | closed (cmds : List (Nat × OutCommand)) (hwire : s.wire = wholeCommands cmds)
      (hdue : ∀ p ∈ s.senders, p.bodyDue = none)
  | opened (cmds : List (Nat × OutCommand)) (i : Nat) (cmd : OutCommand)
      (todo : List OutCommand) (hwire : s.wire = wholeCommands cmds ++ [.head i cmd])
      (hbody : cmd.body.isSome) (hi : s.senders[i]? = some ⟨todo, some cmd⟩)
      (hothers : ∀ j p, s.senders[j]? = some p → j ≠ i → p.bodyDue = none)

/-- The bytes of the socket are those of the segments, and the segments are aligned. -/
structure Ordered (s : Connection) : Prop where
  stream : s.stream = s.wire.flatMap Segment.bytes
  aligned : s.Aligned

/-- Nothing is due and nothing is written at the start. -/
theorem ordered_start (todos : List (List OutCommand)) : (start todos).Ordered := by
  refine ⟨rfl, .closed [] rfl ?_⟩
  intro p hp
  obtain ⟨todo, -, rfl⟩ := List.mem_map.mp hp
  rfl

/-- An aligned wire is framed. -/
theorem framed_of_ordered {s : Connection} (h : s.Ordered) : s.Framed := by
  obtain ⟨hstream, haligned⟩ := h
  cases haligned with
  | closed cmds hwire hdue =>
    rw [hwire, bytes_wholeCommands] at hstream
    exact ⟨cmds, Or.inl ⟨hwire, hstream⟩⟩
  | opened cmds i cmd todo hwire hbody hi hothers =>
    rw [hwire, List.flatMap_append, bytes_wholeCommands] at hstream
    exact ⟨cmds, Or.inr ⟨i, cmd, todo, hi, hwire, by rw [hstream]; simp [Segment.bytes]⟩⟩

private theorem bodyDue_set {senders : List Sender} {i j : Nat} {next p : Sender}
    (h : (senders.set i next)[j]? = some p) :
    (j = i ∧ p = next) ∨ (j ≠ i ∧ senders[j]? = some p) := by
  rw [List.getElem?_set] at h
  by_cases hij : i = j
  · subst hij
    simp only [if_true] at h
    split at h
    · exact Or.inl ⟨rfl, (Option.some.inj h).symm⟩
    · exact absurd h (by simp)
  · rw [if_neg hij] at h
    exact Or.inr ⟨fun hji ↦ hij hji.symm, h⟩

/-- Steps that begin commands one at a time keep the invariant. -/
theorem ordered_step (timeoutMillis : Int) (s : Connection) (e : SendStep) (t : Connection)
    (h : s.Ordered) (hgood : s.StartsAlone e) (hstep : s.step timeoutMillis e = some t) :
    t.Ordered := by
  obtain ⟨hstream, haligned⟩ := h
  rcases step_cases hstep with ⟨todo, cmd, hsender, rfl⟩ | ⟨todo, cmd, hsender, rfl⟩
  · -- the body that is due is the one whose head is last on the wire
    refine ⟨by simp [hstream, Segment.bytes], ?_⟩
    cases haligned with
    | closed cmds hwire hdue =>
      exact absurd (hdue _ (List.mem_of_getElem? hsender)) (by simp)
    | opened cmds i cmd' todo' hwire hbody hi hothers =>
      have hei : e.sender = i := by
        by_contra hne
        exact absurd (hothers e.sender _ hsender hne) (by simp)
      rw [hei, hi] at hsender
      obtain ⟨rfl, rfl⟩ : todo' = todo ∧ cmd' = cmd := by simpa using hsender
      refine .closed (cmds ++ [(i, cmd')]) ?_ ?_
      · simp [hwire, hei, wholeCommands, wholeCommand, hbody]
      · intro p hp
        obtain ⟨j, hj⟩ := List.mem_iff_getElem?.mp hp
        rcases bodyDue_set hj with ⟨-, rfl⟩ | ⟨hne, hj'⟩
        · rfl
        · exact hothers j p hj' (hei ▸ hne)
  · refine ⟨by simp [hstream, Segment.bytes], ?_⟩
    have hnone : ∀ p ∈ s.senders, p.bodyDue = none := by
      rcases hgood with hdue | hnone
      · rw [hsender] at hdue
        exact absurd hdue (by simp)
      · exact hnone
    have hlt : e.sender < s.senders.length := (List.getElem?_eq_some_iff.mp hsender).1
    cases haligned with
    | opened cmds i cmd' todo' hwire hbody hi hothers =>
      exact absurd (hnone _ (List.mem_of_getElem? hi)) (by simp)
    | closed cmds hwire hdue =>
      cases hbody : cmd.body with
      | none =>
        refine .closed (cmds ++ [(e.sender, cmd)]) ?_ ?_
        · simp [hwire, wholeCommands, wholeCommand, hbody]
        · intro p hp
          rcases List.mem_or_eq_of_mem_set hp with hp' | rfl
          · exact hnone p hp'
          · simp
      | some body =>
        refine .opened cmds e.sender cmd todo ?_ ?_ ?_ ?_
        · simp [hwire]
        · simp [hbody]
        · simp [hlt]
        · intro j p hj hne
          rcases bodyDue_set hj with ⟨hje, -⟩ | ⟨-, hj'⟩
          · exact absurd hje hne
          · exact hnone p (List.mem_of_getElem? hj')

/-- Reads the segments from the left, remembering the command whose body has to come next. -/
def readable : Option (Nat × OutCommand) → List Segment → Bool
  | _, [] => true
  | none, .head i cmd :: rest => readable (if cmd.body.isSome then some (i, cmd) else none) rest
  | none, .body _ _ :: _ => false
  | some (i, cmd), .body j cmd' :: rest => (i, cmd) == (j, cmd') && readable none rest
  | some _, .head _ _ :: _ => false

private theorem readable_whole (cmds : List (Nat × OutCommand)) (rest : List Segment) :
    readable none (wholeCommands cmds ++ rest) = readable none rest := by
  induction cmds with
  | nil => rfl
  | cons c cmds ih =>
    obtain ⟨i, cmd⟩ := c
    rw [wholeCommands, List.flatMap_cons, List.append_assoc]
    rw [wholeCommands] at ih
    by_cases hb : cmd.body.isSome <;> simp [wholeCommand, hb, readable, ih]

/-- A framed wire can be read from the left. -/
theorem readable_of_framed {s : Connection} (h : s.Framed) : readable none s.wire = true := by
  obtain ⟨cmds, ⟨hwire, -⟩ | ⟨i, cmd, todo, -, hwire, -⟩⟩ := h
  · rw [hwire, ← List.append_nil (wholeCommands cmds), readable_whole]
    rfl
  · rw [hwire, readable_whole]
    rfl

/-- A command begun while a body is due ends the framing. -/
theorem not_framed_step (timeoutMillis : Int) (s : Connection) (e : SendStep) (t : Connection)
    (h : s.Ordered) (hbad : ¬ s.StartsAlone e) (hstep : s.step timeoutMillis e = some t) :
    ¬ t.Framed := by
  unfold StartsAlone at hbad
  rw [not_or] at hbad
  intro hframed
  have hread := readable_of_framed hframed
  cases h.aligned with
  | closed cmds hwire hdue => exact hbad.2 hdue
  | opened cmds i cmd todo hwire hbody hi hothers =>
    rcases step_cases hstep with ⟨todo', cmd', hsender, rfl⟩ | ⟨todo', cmd', hsender, rfl⟩
    · rw [hsender] at hbad
      simp at hbad
    · rw [hwire, List.append_assoc, readable_whole] at hread
      simp [readable, hbody] at hread

/-- For any number of threads, any commands and any interleaving of their writes: every
state of the run has whole commands on the socket exactly when the run never begins a
command while the body of another one is due. -/
theorem framed_iff_startsAlone (timeoutMillis : Int) (todos : List (List OutCommand))
    (es : List SendStep) (s : Connection)
    (hrun : Base.runFrom (step timeoutMillis) (start todos) es = some s) :
    (∀ t, Base.Visits (step timeoutMillis) (start todos) es t → t.Framed) ↔
      Base.Along (step timeoutMillis) StartsAlone (start todos) es :=
  Base.safe_iff_along (fun _ ↦ framed_of_ordered) (ordered_step timeoutMillis)
    (not_framed_step timeoutMillis) (ordered_start todos) hrun

/-- Two threads send one command each, the second after the first, in partial writes. -/
def inTurn : List SendStep :=
  [⟨0, [.accepted 1, .wouldBlock .ready, .accepted 1]⟩, ⟨0, [.accepted 1]⟩, ⟨1, [.accepted 1]⟩]

/-- Both commands are whole on the socket all the way. -/
theorem framed_iff_startsAlone_in_turn :
    (Base.runFrom (step 3000) (start [[⟨[1, 2], some [3]⟩], [⟨[4], none⟩]]) inTurn).map
        (·.stream) = some [1, 2, 3, 4] ∧
      ∀ t, Base.Visits (step 3000) (start [[⟨[1, 2], some [3]⟩], [⟨[4], none⟩]]) inTurn t →
        t.Framed :=
  ⟨rfl, (framed_iff_startsAlone 3000 _ inTurn _ rfl).mpr (by decide)⟩

/-- Two threads whose two writes alternate: the head of the second command comes between the
head and the body of the first. -/
theorem interleaved_commands :
    ∃ s, Base.runFrom (step 3000) (start [[⟨[1], some [2]⟩], [⟨[3], some [4]⟩]])
        [⟨0, [.accepted 1]⟩, ⟨1, [.accepted 1]⟩, ⟨0, [.accepted 1]⟩, ⟨1, [.accepted 1]⟩] =
          some s ∧
      s.senders = [⟨[], none⟩, ⟨[], none⟩] ∧ s.stream = [1, 3, 2, 4] ∧ ¬ s.Framed := by
  refine ⟨_, rfl, by decide, by decide, fun h ↦ ?_⟩
  have := readable_of_framed h
  revert this
  decide

end Connection
end RocketMQ
