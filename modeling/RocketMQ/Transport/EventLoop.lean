import Mathlib.Data.List.Nodup
import RocketMQ.Transport.TransportTable

/-!
# Which sockets the event thread listens to

`TcpRemotingClient::Run` copies `m_rset`, waits in `select` and receives from what is ready
(`src/transport/TcpRemotingClient.cpp:138–223`). Only `UpdateEvent` writes `m_rset`, and only
`GetAndCreateTransport` calls it, after a new connection: a transport that is released stays in the
set. Here a call may go on before the `UpdateEvent` of the connection that it made, so that there
are more runs than the program has.
-/

namespace RocketMQ

/-- Where the event thread is in `Run`, with the `rset` it works on. -/
inductive LoopPc where
  | copy
  | select (rset : List Nat)
  | handle (rset : List Nat)
deriving DecidableEq

/-- The calls with their transports, the socket of each transport, the descriptors that are open in
the process, what `select` is called with, the `UpdateEvent`s that are still to come, and the
transports that `RecvData` was called for. -/
structure EventLoop where
  clients : TransportState
  sockets : List Nat
  openFds : List Nat
  rset : List Nat
  maxFd : Nat
  updating : Nat
  pc : LoopPc
  received : List Nat

/-- What can happen next. A new socket is any descriptor that is not open; `ready` has something to
read and the peers of `closes` are gone; other parts of the process open and close files. -/
inductive LoopEvent where
  | invoke (addr : StdString) (cmd : OutCommand) (timeoutMillis : Int) (connects : Bool)
      (sfd : Nat)
  | updateEvent
  | run (i : Nat) (outcomes : List SocketOutcome)
  | copy
  | select (ready : List Nat)
  | handle (closes : List Nat)
  | openFd (fd : Nat)
  | closeFd (fd : Nat)

namespace EventLoop

/-- `src/transport/TcpRemotingClient.cpp:49–57`. -/
def new : EventLoop := ⟨.empty, [], [], [], 0, 0, .copy, []⟩

/-- The sockets of the transports in the table. -/
def tableSockets (s : EventLoop) : List Nat :=
  s.clients.table.toList.filterMap fun entry ↦ s.sockets[entry.2]?

/-- `src/transport/TcpRemotingClient.cpp:163–179`. -/
def update (s : EventLoop) : EventLoop :=
  { s with
    rset := s.tableSockets
    maxFd := s.tableSockets.foldl max 0
    updating := s.updating - 1 }

/-- The socket that `delete` closes, `src/transport/TcpTransport.cpp:80–85`: afterwards the
transport has none. -/
def closesocket (s : EventLoop) (i : Nat) : Option Nat :=
  match s.clients.calls[i]? with
  | some call =>
    if call.pc = .removeTTS ∧ call.transport ∉ s.clients.released then s.sockets[call.transport]?
    else none
  | none => none

/-- The transports with a socket in `rset`, as `HandleSocketEvent` goes through them. -/
def readable (s : EventLoop) (rset : List Nat) : List Nat :=
  (s.clients.table.toList.map (·.2)).filter fun k ↦ s.sockets[k]?.any (· ∈ rset)

/-- `src/transport/TcpRemotingClient.cpp:138–151`. -/
def handleSocketEvent (s : EventLoop) (rset closes : List Nat) : EventLoop :=
  { s with
    clients := (s.readable rset).foldl
      (fun clients k ↦ if k ∈ closes then clients.setConnected k false else clients) s.clients
    received := s.received ++ s.readable rset
    pc := .copy }

/-- What `select` makes of `rset`, `src/transport/TcpRemotingClient.cpp:200–213`: it fails when one
of the descriptors below `m_maxFd+1` is not open, and `Run` begins again. -/
def selected (s : EventLoop) (rset ready : List Nat) : LoopPc :=
  if ∀ fd ∈ rset, fd < s.maxFd + 1 → fd ∈ s.openFds then
    match rset.filter fun fd ↦ fd < s.maxFd + 1 ∧ fd ∈ ready with
    | [] => .copy
    | fd :: fds => .handle (fd :: fds)
  else .copy

/-- A transport that was not released has this socket. -/
def Owns (s : EventLoop) (k fd : Nat) : Prop := s.sockets[k]? = some fd ∧ k ∉ s.clients.released

instance (s : EventLoop) (k fd : Nat) : Decidable (s.Owns k fd) :=
  inferInstanceAs (Decidable (_ ∧ _))

/-- One step. -/
def step (s : EventLoop) : LoopEvent → Option EventLoop
  | .invoke addr cmd timeoutMillis connects sfd =>
    let clients := s.clients.getAndCreateTransport addr cmd timeoutMillis connects
    if s.clients.table[addr]? = none ∧ connects then
      if sfd ∈ s.openFds then none
      else
        some { s with
          clients
          sockets := s.sockets ++ [sfd]
          openFds := sfd :: s.openFds
          updating := s.updating + 1 }
    else some { s with clients }
  | .updateEvent => if 0 < s.updating then some s.update else none
  | .run i outcomes =>
    (s.clients.step (.run i outcomes)).map fun clients ↦
      { s with clients, openFds := s.openFds.filter fun fd ↦ s.closesocket i ≠ some fd }
  | .copy => if s.pc = .copy then some { s with pc := .select s.rset } else none
  | .select ready =>
    match s.pc with
    | .select rset => some { s with pc := s.selected rset ready }
    | .copy | .handle _ => none
  | .handle closes =>
    match s.pc with
    | .handle rset => some (s.handleSocketEvent rset closes)
    | .copy | .select _ => none
  | .openFd fd => if fd ∈ s.openFds then none else some { s with openFds := fd :: s.openFds }
  | .closeFd fd =>
    if ∃ k ∈ List.range s.sockets.length, s.Owns k fd then none
    else some { s with openFds := s.openFds.filter (· ≠ fd) }

/-- One turn of the loop of `Run`. -/
def pass (s : EventLoop) (ready closes : List Nat) : Option EventLoop := do
  let s ← s.step .copy
  let s ← s.step (.select ready)
  if s.pc = .copy then some s else s.step (.handle closes)

/-- The descriptors are in order: `m_rset` has the sockets of all transports in the table, unless an
`UpdateEvent` is to come, and no two transports that were not released share an open socket. -/
structure Sound (s : EventLoop) : Prop where
  kept : s.clients.Kept
  length : s.sockets.length = s.clients.transports.length
  bounded : ∀ fd ∈ s.rset, fd < s.maxFd + 1
  watched : ∀ (addr : StdString) (k fd : Nat), s.clients.table[addr]? = some k →
    s.sockets[k]? = some fd → fd ∈ s.rset ∨ 0 < s.updating
  opened : ∀ k fd, s.Owns k fd → fd ∈ s.openFds
  apart : ∀ j k fd, s.Owns j fd → s.Owns k fd → j = k

/-! ### One step -/

section Step

variable {s t : EventLoop}

theorem sound_new : new.Sound where
  kept := TransportState.kept_empty
  length := rfl
  bounded := nofun
  watched addr k fd h := by simp [new, TransportState.empty] at h
  opened k fd h := by simp [Owns, new] at h
  apart j k fd h := by simp [Owns, new] at h

theorem le_foldl_max (fds : List Nat) (m : Nat) :
    m ≤ fds.foldl max m ∧ ∀ fd ∈ fds, fd ≤ fds.foldl max m := by
  induction fds generalizing m with
  | nil => exact ⟨le_rfl, nofun⟩
  | cons fd fds ih =>
    obtain ⟨hstart, hrest⟩ := ih (max m fd)
    rw [List.foldl_cons, List.forall_mem_cons]
    exact ⟨le_trans (le_max_left m fd) hstart, le_trans (le_max_right m fd) hstart, hrest⟩

theorem mem_tableSockets {fd : Nat} : fd ∈ s.tableSockets ↔
    ∃ (addr : StdString) (k : Nat), s.clients.table[addr]? = some k ∧ s.sockets[k]? = some fd := by
  simp [tableSockets, Std.ExtTreeMap.mem_toList_iff_getElem?_eq_some]

/-- Only the table, what was released and what is open matter, as long as no `UpdateEvent` runs and
no connection is made. -/
theorem Sound.of_same (h : s.Sound) {clients : TransportState} {openFds received : List Nat}
    {pc : LoopPc} (hkept : clients.Kept)
    (hlength : clients.transports.length = s.clients.transports.length)
    (htable : ∀ (addr : StdString) (k : Nat), clients.table[addr]? = some k →
      s.clients.table[addr]? = some k)
    (hreleased : ∀ k ∈ s.clients.released, k ∈ clients.released)
    (hopenFds : ∀ k fd, s.Owns k fd → k ∉ clients.released → fd ∈ openFds) :
    Sound { s with clients, openFds, pc, received } := by
  have howns : ∀ k fd, Owns { s with clients, openFds, pc, received } k fd → s.Owns k fd := by
    rintro k fd ⟨hk, hfree⟩
    exact ⟨hk, fun hold ↦ hfree (hreleased k hold)⟩
  constructor
  · exact hkept
  · exact h.length.trans hlength.symm
  · exact h.bounded
  · exact fun addr k fd hk hfd ↦ h.watched addr k fd (htable addr k hk) hfd
  · exact fun k fd hk ↦ hopenFds k fd (howns k fd hk) hk.2
  · exact fun j k fd hj hk ↦ h.apart j k fd (howns j fd hj) (howns k fd hk)

/-- Nor does it matter where the event thread is. -/
theorem Sound.at (h : s.Sound) (pc : LoopPc) : Sound { s with pc } :=
  h.of_same h.kept rfl (fun _ _ hk ↦ hk) (fun _ hk ↦ hk) fun k fd hk _ ↦ h.opened k fd hk

/-- A call that does not connect changes nothing but the calls. -/
theorem getAndCreateTransport_same {clients : TransportState} {addr : StdString} {connects : Bool}
    (hnot : ¬ (clients.table[addr]? = none ∧ connects)) (cmd : OutCommand) (timeoutMillis : Int) :
    let clients' := clients.getAndCreateTransport addr cmd timeoutMillis connects
    clients'.table = clients.table ∧ clients'.transports = clients.transports ∧
      clients'.removals = clients.removals := by
  unfold TransportState.getAndCreateTransport
  split
  · exact ⟨rfl, rfl, rfl⟩
  · next hnone =>
    rw [if_neg fun hconnects ↦ hnot ⟨hnone, hconnects⟩]
    exact ⟨rfl, rfl, rfl⟩

/-- A call that connects has a new transport. -/
theorem getAndCreateTransport_new {clients : TransportState} {addr : StdString}
    (hnone : clients.table[addr]? = none) (cmd : OutCommand) (timeoutMillis : Int) :
    let clients' := clients.getAndCreateTransport addr cmd timeoutMillis true
    clients'.table = clients.table.insert addr clients.transports.length ∧
      clients'.transports = clients.transports ++ [⟨addr, true⟩] ∧
      clients'.removals = clients.removals := by
  unfold TransportState.getAndCreateTransport
  rw [hnone]
  exact ⟨rfl, rfl, rfl⟩

theorem Sound.invoke (h : s.Sound) {addr : StdString} {cmd : OutCommand} {timeoutMillis : Int}
    {connects : Bool} {sfd : Nat} (hstep : s.step (.invoke addr cmd timeoutMillis connects sfd) =
      some t) : t.Sound := by
  have hkept := TransportState.kept_invoke h.kept addr cmd timeoutMillis connects
  simp only [step] at hstep
  split_ifs at hstep with hconnects hsfd
  · obtain ⟨hnone, rfl⟩ := hconnects
    obtain ⟨htable, htransports, hremovals⟩ :=
      getAndCreateTransport_new hnone cmd timeoutMillis
    obtain rfl := Option.some.inj hstep
    have howns : ∀ {k fd}, Owns { s with
        clients := s.clients.getAndCreateTransport addr cmd timeoutMillis true
        sockets := s.sockets ++ [sfd]
        openFds := sfd :: s.openFds
        updating := s.updating + 1 } k fd → s.Owns k fd ∨ k = s.sockets.length ∧ fd = sfd := by
      rintro k fd ⟨hk, hfree⟩
      rw [TransportState.released, hremovals] at hfree
      rcases lt_or_ge k s.sockets.length with hlt | hge
      · rw [List.getElem?_append_left hlt] at hk
        exact .inl ⟨hk, hfree⟩
      · rw [List.getElem?_append_right hge] at hk
        obtain ⟨hzero, rfl⟩ := List.getElem?_eq_some_iff.mp hk
        rw [List.length_singleton] at hzero
        exact .inr ⟨by omega, by simp⟩
    constructor
    · exact hkept
    · simp only [htransports, List.length_append, h.length, List.length_singleton]
    · exact h.bounded
    · exact fun _ _ _ _ _ ↦ .inr (Nat.succ_pos _)
    · intro k fd hk
      rcases howns hk with hold | ⟨-, rfl⟩
      · exact List.mem_cons_of_mem _ (h.opened k fd hold)
      · exact List.mem_cons_self
    · intro j k fd hj hk
      rcases howns hj with hj | ⟨rfl, rfl⟩ <;> rcases howns hk with hk | ⟨rfl, hfd⟩
      · exact h.apart j k fd hj hk
      · exact absurd (h.opened j fd hj) (hfd ▸ hsfd)
      · exact absurd (h.opened k _ hk) hsfd
      · rfl
  · obtain ⟨htable, htransports, hremovals⟩ :=
      getAndCreateTransport_same hconnects cmd timeoutMillis
    obtain rfl := Option.some.inj hstep
    apply h.of_same hkept (by rw [htransports])
    · intro addr k hk
      rwa [htable] at hk
    · intro k hk
      rwa [TransportState.released, hremovals]
    · exact fun k fd hk _ ↦ h.opened k fd hk

theorem Sound.update (h : s.Sound) : s.update.Sound := by
  constructor
  · exact h.kept
  · exact h.length
  · exact fun fd hfd ↦ Nat.lt_succ_of_le ((le_foldl_max _ 0).2 fd hfd)
  · exact fun addr k fd hk hfd ↦ .inl (mem_tableSockets.mpr ⟨addr, k, hk, hfd⟩)
  · exact h.opened
  · exact h.apart

/-- A call goes on: nothing is closed, or the socket of the transport that it releases. -/
theorem Sound.run (h : s.Sound) {i : Nat} {outcomes : List SocketOutcome}
    (hstep : s.step (.run i outcomes) = some t) : t.Sound := by
  simp only [step, Option.map_eq_some_iff] at hstep
  obtain ⟨clients, hrun, rfl⟩ := hstep
  have hkept := TransportState.kept_step h.kept hrun
  obtain ⟨call, tts, hi, htts, ⟨hpc, next, rfl⟩ | ⟨hpc, next, connected, rfl⟩ | ⟨hpc, rfl⟩⟩ :=
    TransportState.step_run hrun
  · apply h.of_same hkept rfl (fun _ _ hk ↦ hk) (fun _ hk ↦ hk)
    intro k fd hk _
    simp [closesocket, hi, hpc, h.opened k fd hk]
  · apply h.of_same hkept (List.length_modify ..) (fun _ _ hk ↦ hk) (fun _ hk ↦ hk)
    intro k fd hk _
    simp [closesocket, hi, hpc, h.opened k fd hk]
  · have hreleased : (s.clients.removeTTS i call tts).released =
        s.clients.released ++ [call.transport] := by
      rw [TransportState.removeTTS, TransportState.released, List.map_append]
      rfl
    apply h.of_same hkept rfl
    · intro addr k hk
      have hk' : (s.clients.table.erase tts.serverURL)[addr]? = some k := hk
      rw [Std.ExtTreeMap.getElem?_erase] at hk'
      split_ifs at hk'
      exact hk'
    · intro k hk
      rw [hreleased]
      exact List.mem_append_left _ hk
    · intro k fd hk hfree
      rw [hreleased, List.mem_append, List.mem_singleton, not_or] at hfree
      simp only [closesocket, hi, hpc, true_and, List.mem_filter, decide_eq_true_eq, ne_eq]
      refine ⟨h.opened k fd hk, fun hclose ↦ ?_⟩
      split_ifs at hclose with hfirst
      exact hfree.2 (h.apart k call.transport fd hk ⟨hclose, hfirst⟩)

/-- What `RecvData` does to the transports of a list. -/
theorem foldl_setConnected (closes ks : List Nat) {clients : TransportState} (h : clients.Kept) :
    let clients' := ks.foldl
      (fun clients k ↦ if k ∈ closes then clients.setConnected k false else clients) clients
    clients'.Kept ∧ clients'.table = clients.table ∧ clients'.removals = clients.removals ∧
      clients'.transports.length = clients.transports.length := by
  induction ks generalizing clients with
  | nil => exact ⟨h, rfl, rfl, rfl⟩
  | cons k ks ih =>
    rw [List.foldl_cons]
    split_ifs
    · obtain ⟨hkept, htable, hremovals, hlength⟩ := ih (h.setConnected k false)
      exact ⟨hkept, htable, hremovals, hlength.trans (List.length_modify ..)⟩
    · exact ih h

theorem Sound.handleSocketEvent (h : s.Sound) (rset closes : List Nat) :
    (s.handleSocketEvent rset closes).Sound := by
  obtain ⟨hkept, htable, hremovals, hlength⟩ :=
    foldl_setConnected closes (s.readable rset) h.kept
  apply h.of_same hkept hlength
  · intro addr k hk
    rwa [htable] at hk
  · intro k hk
    rwa [TransportState.released, hremovals]
  · exact fun k fd hk _ ↦ h.opened k fd hk

theorem sound_step (s : EventLoop) (e : LoopEvent) (t : EventLoop) (h : s.Sound)
    (hstep : s.step e = some t) : t.Sound := by
  cases e with
  | invoke addr cmd timeoutMillis connects sfd => exact h.invoke hstep
  | updateEvent =>
    simp only [step] at hstep
    split_ifs at hstep
    exact Option.some.inj hstep ▸ h.update
  | run i outcomes => exact h.run hstep
  | copy =>
    simp only [step] at hstep
    split_ifs at hstep
    exact Option.some.inj hstep ▸ h.at _
  | select ready =>
    simp only [step] at hstep
    split at hstep <;> cases hstep
    exact h.at _
  | handle closes =>
    simp only [step] at hstep
    split at hstep <;> cases hstep
    exact h.handleSocketEvent _ closes
  | openFd fd =>
    simp only [step] at hstep
    split_ifs at hstep
    obtain rfl := Option.some.inj hstep
    exact h.of_same h.kept rfl (fun _ _ hk ↦ hk) (fun _ hk ↦ hk)
      fun k fd hk _ ↦ List.mem_cons_of_mem _ (h.opened k fd hk)
  | closeFd fd =>
    simp only [step] at hstep
    split_ifs at hstep with hnone
    obtain rfl := Option.some.inj hstep
    apply h.of_same h.kept rfl (fun _ _ hk ↦ hk) (fun _ hk ↦ hk)
    intro k fd' hk _
    refine List.mem_filter.mpr ⟨h.opened k fd' hk, decide_eq_true ?_⟩
    rintro rfl
    exact hnone ⟨k, List.mem_range.mpr (List.getElem?_eq_some_iff.mp hk.1).1, hk⟩

end Step

/-! ### One turn -/

section Pass

variable {s t : EventLoop}

theorem mem_readable {rset : List Nat} {k : Nat} : k ∈ s.readable rset ↔
    (∃ addr : StdString, s.clients.table[addr]? = some k) ∧
      ∃ fd ∈ rset, s.sockets[k]? = some fd := by
  have hany : s.sockets[k]?.any (· ∈ rset) = true ↔ ∃ fd ∈ rset, s.sockets[k]? = some fd := by
    cases s.sockets[k]? with
    | none => simp
    | some fd => simp
  rw [readable, List.mem_filter, hany]
  simp [Std.ExtTreeMap.mem_toList_iff_getElem?_eq_some]

/-- No transport is gone through twice: each has one address. -/
theorem nodup_readable (h : s.clients.Kept) (rset : List Nat) : (s.readable rset).Nodup := by
  apply List.Nodup.filter
  rw [List.Nodup, List.pairwise_map]
  apply Std.ExtTreeMap.distinct_keys_toList.imp_of_mem
  intro entry entry' hmem hmem' hkeys hsame
  rw [Std.ExtTreeMap.mem_toList_iff_getElem?_eq_some] at hmem hmem'
  have haddr := (h.entry _ _ hmem).1
  rw [hsame, (h.entry _ _ hmem').1] at haddr
  rw [Option.some.inj haddr] at hkeys
  exact hkeys Std.ReflCmp.compare_self

/-- What comes of a turn. -/
theorem pass_eq (hpc : s.pc = .copy) (ready closes : List Nat) :
    s.pass ready closes = some
      (match s.selected s.rset ready with
        | .handle rset => handleSocketEvent { s with pc := .handle rset } rset closes
        | _ => s) := by
  have hcopy : s.step .copy = some { s with pc := .select s.rset } := if_pos hpc
  have hs : { s with pc := .copy } = s := by rw [← hpc]
  rw [pass, hcopy]
  simp only [Option.bind_eq_bind, Option.bind_some, step]
  have hselected : selected { s with pc := .select s.rset } s.rset ready =
    s.selected s.rset ready := rfl
  rw [hselected]
  cases hnext : s.selected s.rset ready with
  | copy => simpa using hs
  | handle rset => simp
  | select rset =>
    rw [selected] at hnext
    split_ifs at hnext
    split at hnext <;> cases hnext

/-- In every state that can be reached and has no `UpdateEvent` to come, a turn of the loop calls
`RecvData` once for each transport of the table that has something to read when all that is watched
is open, and for none when it is not. -/
theorem pass_receives {es : List LoopEvent} (hrun : Base.runFrom step new es = some s)
    (hupdated : s.updating = 0) (hpc : s.pc = .copy) (ready closes : List Nat) :
    ∃ ks t, s.pass ready closes = some t ∧ t.received = s.received ++ ks ∧ ks.Nodup ∧
      ∀ k, k ∈ ks ↔ (∀ fd ∈ s.rset, fd ∈ s.openFds) ∧
        (∃ addr : StdString, s.clients.table[addr]? = some k) ∧
          ∃ fd ∈ ready, s.sockets[k]? = some fd := by
  have h : s.Sound := Base.inv_of_runFrom sound_step sound_new hrun
  rw [pass_eq hpc]
  have hbound : (∀ fd ∈ s.rset, fd < s.maxFd + 1 → fd ∈ s.openFds) ↔
      ∀ fd ∈ s.rset, fd ∈ s.openFds :=
    forall₂_congr fun fd hfd ↦ forall_prop_of_true (h.bounded fd hfd)
  by_cases hopen : ∀ fd ∈ s.rset, fd ∈ s.openFds
  · have hserves : ∀ k, k ∈ s.readable (s.rset.filter fun fd ↦ fd < s.maxFd + 1 ∧ fd ∈ ready) ↔
        (∀ fd ∈ s.rset, fd ∈ s.openFds) ∧
          (∃ addr : StdString, s.clients.table[addr]? = some k) ∧
            ∃ fd ∈ ready, s.sockets[k]? = some fd := by
      intro k
      rw [mem_readable, and_iff_right hopen]
      apply and_congr_right
      rintro ⟨addr, hk⟩
      constructor
      · rintro ⟨fd, hfd, hsocket⟩
        exact ⟨fd, (of_decide_eq_true (List.mem_filter.mp hfd).2).2, hsocket⟩
      · rintro ⟨fd, hready, hsocket⟩
        have hwatched : fd ∈ s.rset :=
          (h.watched addr k fd hk hsocket).resolve_right (by omega)
        exact ⟨fd, List.mem_filter.mpr ⟨hwatched, decide_eq_true ⟨h.bounded fd hwatched, hready⟩⟩,
          hsocket⟩
    rw [selected, if_pos (hbound.mpr hopen)]
    split
    · next rset hnext =>
      split at hnext
      · cases hnext
      · next fd fds hfds =>
        cases hnext
        rw [← hfds]
        exact ⟨_, _, rfl, rfl, nodup_readable h.kept _, hserves⟩
    · next hnone =>
      split at hnone
      · next hempty =>
        refine ⟨[], s, rfl, (List.append_nil _).symm, List.nodup_nil, fun k ↦ ?_⟩
        rw [← hserves, hempty, mem_readable]
        simp
      · next fd fds _ => exact absurd rfl (hnone (fd :: fds))
  · rw [selected, if_neg fun hall ↦ hopen (hbound.mp hall)]
    exact ⟨[], s, rfl, (List.append_nil _).symm, List.nodup_nil, fun k ↦ by simp [hopen]⟩

/-- Two connections. -/
def connected : List LoopEvent :=
  [.invoke (str "a:1") ⟨[0], none⟩ 3000 true 5, .updateEvent, .run 0 [], .run 0 [.accepted 1],
    .invoke (str "b:1") ⟨[0], none⟩ 3000 true 6, .updateEvent, .run 0 [], .run 0 [.accepted 1]]

/-- The state after them. -/
def connectedState : EventLoop := (Base.runFrom step new connected).get (by decide +kernel)

theorem pass_receives_connected : ∃ ks t, connectedState.pass [6] [] = some t ∧
    t.received = connectedState.received ++ ks ∧ ks.Nodup ∧
      ∀ k, k ∈ ks ↔ (∀ fd ∈ connectedState.rset, fd ∈ connectedState.openFds) ∧
        (∃ addr : StdString, connectedState.clients.table[addr]? = some k) ∧
          ∃ fd ∈ [6], connectedState.sockets[k]? = some fd :=
  pass_receives (Option.some_get (by decide +kernel)).symm (by decide +kernel) (by decide +kernel)
    [6] []

end Pass

/-! ### After a release -/

section Deaf

variable {s s' t : EventLoop} {fd : Nat}

/-- Whether an event is an `UpdateEvent`. -/
def isUpdate : LoopEvent → Bool
  | .updateEvent => true
  | .invoke .. | .run .. | .copy | .select _ | .handle _ | .openFd _ | .closeFd _ => false

/-- No `UpdateEvent` runs, and nothing opens the descriptor. -/
def StaysClosed (fd : Nat) (s : EventLoop) (e : LoopEvent) : Prop :=
  isUpdate e = false ∧ ∀ t ∈ s.step e, fd ∉ t.openFds

/-- The event thread waits, or is about to, for a descriptor that was closed. -/
structure Deaf (fd : Nat) (s : EventLoop) : Prop where
  watched : fd ∈ s.rset
  bounded : fd < s.maxFd + 1
  closed : fd ∉ s.openFds
  selecting : s.pc = .copy ∨ ∃ rset, s.pc = .select rset ∧ fd ∈ rset

/-- Nothing but an `UpdateEvent` changes what is watched. -/
theorem watches_step {e : LoopEvent} (hnone : isUpdate e = false) (hstep : s.step e = some t) :
    t.rset = s.rset ∧ t.maxFd = s.maxFd := by
  cases e with
  | updateEvent => cases hnone
  | run i outcomes =>
    obtain ⟨clients, -, rfl⟩ := Option.map_eq_some_iff.mp hstep
    exact ⟨rfl, rfl⟩
  | invoke | copy | openFd | closeFd =>
    simp only [step] at hstep
    split_ifs at hstep <;> cases hstep <;> exact ⟨rfl, rfl⟩
  | select | handle =>
    simp only [step] at hstep
    split at hstep <;> cases hstep
    exact ⟨rfl, rfl⟩

/-- Only the event thread moves in `Run` and receives. -/
theorem loop_step {e : LoopEvent} (hstep : s.step e = some t) :
    (t.pc = s.pc ∧ t.received = s.received) ∨
      (t.received = s.received ∧ s.pc = .copy ∧ t.pc = .select s.rset) ∨
      (t.received = s.received ∧ ∃ rset ready, s.pc = .select rset ∧
        t.pc = s.selected rset ready) ∨ ∃ rset, s.pc = .handle rset := by
  cases e with
  | run i outcomes =>
    obtain ⟨clients, -, rfl⟩ := Option.map_eq_some_iff.mp hstep
    exact .inl ⟨rfl, rfl⟩
  | invoke | updateEvent | openFd | closeFd =>
    simp only [step] at hstep
    split_ifs at hstep <;> cases hstep <;> exact .inl ⟨rfl, rfl⟩
  | copy =>
    simp only [step] at hstep
    split_ifs at hstep with hpc
    cases hstep
    exact .inr (.inl ⟨rfl, hpc, rfl⟩)
  | select ready =>
    simp only [step] at hstep
    split at hstep <;> cases hstep
    next rset hpc => exact .inr (.inr (.inl ⟨rfl, rset, ready, hpc, rfl⟩))
  | handle closes =>
    simp only [step] at hstep
    split at hstep <;> cases hstep
    next rset hpc => exact .inr (.inr (.inr ⟨rset, hpc⟩))

theorem deaf_step {e : LoopEvent} (hdeaf : s.Deaf fd) (hclosed : StaysClosed fd s e)
    (hstep : s.step e = some t) : t.Deaf fd ∧ t.received = s.received := by
  obtain ⟨hrset, hmaxFd⟩ := watches_step hclosed.1 hstep
  have hkept : t.pc = .copy ∨ (∃ rset, t.pc = .select rset ∧ fd ∈ rset) → t.Deaf fd := fun hpc ↦
    ⟨hrset ▸ hdeaf.watched, hmaxFd ▸ hdeaf.bounded, hclosed.2 t hstep, hpc⟩
  rcases loop_step hstep with ⟨hpc, hreceived⟩ | ⟨hreceived, -, hpc⟩ |
    ⟨hreceived, rset, ready, hold, hpc⟩ | ⟨rset, hold⟩
  · exact ⟨hkept (hpc ▸ hdeaf.selecting), hreceived⟩
  · exact ⟨hkept (.inr ⟨s.rset, hpc, hdeaf.watched⟩), hreceived⟩
  · -- `select` fails
    have hfd : fd ∈ rset := by
      rcases hdeaf.selecting with hcopy | ⟨rset', hselect, hfd⟩
      · rw [hcopy] at hold
        cases hold
      · rw [hselect] at hold
        cases hold
        exact hfd
    have hbad : s.selected rset ready = .copy :=
      if_neg fun hall ↦ hdeaf.closed (hall fd hfd hdeaf.bounded)
    exact ⟨hkept (.inl (hpc.trans hbad)), hreceived⟩
  · rcases hdeaf.selecting with hcopy | ⟨rset', hselect, -⟩
    · rw [hcopy] at hold
      cases hold
    · rw [hselect] at hold
      cases hold

theorem deaf_run {es : List LoopEvent} (hdeaf : s.Deaf fd)
    (hclosed : Base.Along step (StaysClosed fd) s es) (hrun : Base.runFrom step s es = some t) :
    t.Deaf fd ∧ t.received = s.received := by
  have hkeeps : ∀ u e v, u.Deaf fd ∧ u.received = s.received → StaysClosed fd u e →
      step u e = some v → v.Deaf fd ∧ v.received = s.received := by
    intro u e v hu hgood hstep
    have hv := deaf_step hu.1 hgood hstep
    exact ⟨hv.1, hv.2.trans hu.2⟩
  exact Base.inv_of_along hkeeps ⟨hdeaf, rfl⟩ hclosed hrun

/-- After an `UpdateEvent` everything that is watched is open. -/
theorem Sound.opened_update (h : s.Sound) : ∀ fd ∈ s.update.rset, fd ∈ s.update.openFds := by
  intro fd hfd
  obtain ⟨addr, k, hk, hsocket⟩ := mem_tableSockets.mp hfd
  exact h.opened k fd ⟨hsocket, (h.kept.entry addr k hk).2⟩

/-- The first connection is closed by its peer, and the next call releases it. -/
def closing : List LoopEvent :=
  connected ++ [.copy, .select [5], .handle [0], .invoke (str "a:1") ⟨[0], none⟩ 3000 true 7,
    .run 0 []]

/-- The state before the release. -/
def closingState : EventLoop := (Base.runFrom step new closing).get (by decide +kernel)

/-- The state after it. -/
def closedState : EventLoop := (closingState.step (.run 0 [])).get (by decide +kernel)

/-- The state after a turn in which the other connection has something to read. -/
def deafState : EventLoop :=
  (Base.runFrom step closedState [.copy, .select [6]]).get (by decide +kernel)

instance (fd : Nat) (s : EventLoop) (e : LoopEvent) : Decidable (StaysClosed fd s e) :=
  inferInstanceAs (Decidable (_ ∧ _))

end Deaf

end EventLoop
end RocketMQ
