import RocketMQ.Base.Run
import RocketMQ.Factory.FactoryMoves

/-!
# A factory lives as long as its clients

The clients of one id share a factory. Its tables hold exactly the clients that run on it, next to
its inner producer, so it is shut down with the last of them.
-/

namespace RocketMQ
namespace ClientWorld

/-! ### What holds between calls -/

/-- The client runs on the factory. -/
def Uses (w : ClientWorld) (i f : Nat) : Prop := w.clients (.client i) = ⟨.running, some f⟩

/-- Who is in the tables of a factory: its inner producer while it runs, and its clients. -/
def Registered (settings : Nat → ClientSettings) (w : ClientWorld) (f : Nat) (kind : ClientKind)
    (group : StdString) (ref : ClientRef) : Prop :=
  (ref = .inner f ∧ kind = .producer ∧ group = clientInnerProducerGroup ∧
    (w.factories f).serviceState = .running) ∨
  ∃ i, ref = .client i ∧ (settings i).kind = kind ∧ (settings i).group = group ∧ w.Uses i f

/-- Groups of one kind and one id differ, none is empty and none is the inner producer's. -/
structure DistinctGroups (settings : Nat → ClientSettings) : Prop where
  ne_nil : ∀ i, (settings i).group ≠ []
  ne_inner : ∀ i, (settings i).group ≠ clientInnerProducerGroup
  inj : ∀ i j, (settings i).clientId = (settings j).clientId →
    (settings i).kind = (settings j).kind → (settings i).group = (settings j).group → i = j

/-- The manager, the factories and the clients agree. -/
structure Consistent (settings : Nat → ClientSettings) (w : ClientWorld) : Prop where
  manager : ∀ clientId f, w.factoryTable[clientId]? = some f ↔ f < w.factoryIndexGenerator ∧
    (w.factories f).clientId = clientId ∧ (w.factories f).serviceState = .running
  settled : ∀ f < w.factoryIndexGenerator, (w.factories f).serviceState = .running ∨
    (w.factories f).serviceState = .shutdownAlready
  inner : ∀ f < w.factoryIndexGenerator,
    w.clients (.inner f) = ⟨(w.factories f).serviceState, some f⟩
  tables : ∀ f < w.factoryIndexGenerator, ∀ kind group ref,
    ((w.factories f).table kind)[group]? = some ref ↔ w.Registered settings f kind group ref
  adminExtTable : ∀ f < w.factoryIndexGenerator, (w.factories f).adminExtTable = ∅
  client : ∀ i, (w.clients (.client i)).serviceState = .createJust ∨
    ∃ f < w.factoryIndexGenerator, (w.factories f).clientId = (settings i).clientId ∧
      (w.Uses i f ∧ (w.factories f).serviceState = .running ∨
        w.clients (.client i) = ⟨.shutdownAlready, some f⟩)

/-- Every factory that runs is used. -/
def InUse (w : ClientWorld) : Prop :=
  ∀ f < w.factoryIndexGenerator, (w.factories f).serviceState = .running → ∃ i, w.Uses i f

section Invariant

variable {settings : Nat → ClientSettings} {w : ClientWorld} {i f : Nat}

theorem consistent_initial : initial.Consistent settings := by
  constructor <;> simp [initial]

/-- A client that runs on a factory has its id, and the factory runs. -/
theorem Consistent.of_uses (h : w.Consistent settings) (hi : w.Uses i f) :
    f < w.factoryIndexGenerator ∧ (w.factories f).clientId = (settings i).clientId ∧
      (w.factories f).serviceState = .running := by
  unfold Uses at hi
  rcases h.client i with hjust | ⟨g, hg, hid, ⟨huses, hrunning⟩ | hshut⟩
  · rw [hi] at hjust
    cases hjust
  · cases hi.symm.trans huses
    exact ⟨hg, hid, hrunning⟩
  · cases hi.symm.trans hshut

/-- The tables of a factory speak of its state and its clients only. -/
theorem registered_congr {w' : ClientWorld}
    (hstate : (w'.factories f).serviceState = (w.factories f).serviceState)
    (huses : ∀ i, w'.Uses i f ↔ w.Uses i f) (kind : ClientKind) (group : StdString)
    (ref : ClientRef) :
    w'.Registered settings f kind group ref ↔ w.Registered settings f kind group ref := by
  simp only [Registered, hstate, huses]

theorem uses_opened {clientId : StdString} : (w.opened clientId).Uses i f ↔ w.Uses i f := by
  simp [Uses, opened]

theorem uses_closed {g : Nat} : (w.closed f).Uses i g ↔ w.Uses i g := by
  simp [Uses, closed]

theorem factories_opened_of_ne {clientId : StdString} (hf : f ≠ w.factoryIndexGenerator) :
    (w.opened clientId).factories f = w.factories f :=
  Function.update_of_ne hf _ _

theorem factories_closed_of_ne {g : Nat} (hg : g ≠ f) :
    (w.closed f).factories g = w.factories g :=
  Function.update_of_ne hg _ _

/-- The factory that is opened runs, with its inner producer alone. -/
theorem factories_opened_self {clientId : StdString} :
    (w.opened clientId).factories w.factoryIndexGenerator = ⟨clientId, .running,
      (∅ : ClientTable).insert clientInnerProducerGroup (.inner w.factoryIndexGenerator), ∅, ∅⟩ :=
  Function.update_self _ _ _

theorem getElem?_factoryTable_opened {clientId id : StdString} :
    (w.opened clientId).factoryTable[id]? =
      if clientId = id then some w.factoryIndexGenerator else w.factoryTable[id]? := by
  simp only [opened, Std.ExtTreeMap.getElem?_insert, Std.LawfulEqCmp.compare_eq_iff_eq]

/-- The manager still has the factories that run when one is opened for an id without one. -/
theorem manager_opened (h : w.Consistent settings) {clientId : StdString}
    (hid : w.factoryTable[clientId]? = none) (id : StdString) (f : Nat) :
    (w.opened clientId).factoryTable[id]? = some f ↔
      f < (w.opened clientId).factoryIndexGenerator ∧
        ((w.opened clientId).factories f).clientId = id ∧
        ((w.opened clientId).factories f).serviceState = .running := by
  rw [getElem?_factoryTable_opened]
  by_cases hf : f = w.factoryIndexGenerator
  · subst hf
    rw [factories_opened_self]
    split_ifs with heq
    · simp [heq, opened]
    · simp [heq, h.manager]
  · have hlt : f < (w.opened clientId).factoryIndexGenerator ↔ f < w.factoryIndexGenerator := by
      change f < w.factoryIndexGenerator + 1 ↔ _
      omega
    rw [hlt, factories_opened_of_ne hf, ← h.manager]
    split_ifs with heq
    · rw [← heq, hid]
      simp [Ne.symm hf]
    · rfl

/-- Nobody but its inner producer is in the tables of the factory that is opened. -/
theorem tables_opened_self (hnone : ∀ i, ¬ w.Uses i w.factoryIndexGenerator)
    {clientId : StdString} (kind : ClientKind) (group : StdString) (ref : ClientRef) :
    (((w.opened clientId).factories w.factoryIndexGenerator).table kind)[group]? = some ref ↔
      (w.opened clientId).Registered settings w.factoryIndexGenerator kind group ref := by
  have hregistered : (w.opened clientId).Registered settings w.factoryIndexGenerator kind group
      ref ↔ ref = .inner w.factoryIndexGenerator ∧ kind = .producer ∧
        group = clientInnerProducerGroup := by
    simp [Registered, uses_opened, hnone, factories_opened_self]
  rw [hregistered, factories_opened_self]
  cases kind with
  | producer =>
    simp only [ClientFactory.table, Std.ExtTreeMap.getElem?_insert,
      Std.LawfulEqCmp.compare_eq_iff_eq]
    split_ifs with heq
    · simp [heq, eq_comm]
    · simp [Ne.symm heq]
  | pushConsumer => simp [ClientFactory.table]

/-- Opening a factory for an id without one keeps the agreement. -/
theorem consistent_opened (h : w.Consistent settings) {clientId : StdString}
    (hid : w.factoryTable[clientId]? = none) : (w.opened clientId).Consistent settings := by
  have hold {f : Nat} (hf : f < w.factoryIndexGenerator) :
      (w.opened clientId).factories f = w.factories f :=
    factories_opened_of_ne hf.ne
  have hsplit {f : Nat} (hf : f < (w.opened clientId).factoryIndexGenerator) :
      f < w.factoryIndexGenerator ∨ f = w.factoryIndexGenerator := Nat.lt_succ_iff_lt_or_eq.mp hf
  constructor
  case manager => exact manager_opened h hid
  case settled =>
    intro f hf
    rcases hsplit hf with hlt | rfl
    · rw [hold hlt]
      exact h.settled f hlt
    · rw [factories_opened_self]
      exact Or.inl rfl
  case inner =>
    intro f hf
    rcases hsplit hf with hlt | rfl
    · have hne : ClientRef.inner f ≠ .inner w.factoryIndexGenerator := by
        simpa using hlt.ne
      rw [hold hlt, ← h.inner f hlt]
      exact Function.update_of_ne hne _ _
    · rw [factories_opened_self]
      exact Function.update_self _ _ _
  case tables =>
    intro f hf kind group ref
    rcases hsplit hf with hlt | rfl
    · rw [registered_congr (congrArg ClientFactory.serviceState (hold hlt)) (fun _ ↦ uses_opened),
        hold hlt]
      exact h.tables f hlt kind group ref
    · have hnone (i : Nat) : ¬ w.Uses i w.factoryIndexGenerator :=
        fun hi ↦ (h.of_uses hi).1.false
      exact tables_opened_self hnone kind group ref
  case adminExtTable =>
    intro f hf
    rcases hsplit hf with hlt | rfl
    · rw [hold hlt]
      exact h.adminExtTable f hlt
    · rw [factories_opened_self]
  case client =>
    intro i
    have hclient : (w.opened clientId).clients (.client i) = w.clients (.client i) := by
      simp [opened]
    rw [hclient]
    apply (h.client i).imp_right
    rintro ⟨f, hf, hstate⟩
    refine ⟨f, Nat.lt_succ_of_lt hf, ?_⟩
    rw [hold hf, uses_opened]
    exact hstate

/-- One client gets a new state on a factory, with its entry in the factory's table. -/
structure Reassigned (settings : Nat → ClientSettings) (w : ClientWorld) (i f : Nat)
    (state : ServiceState) (w' : ClientWorld) : Prop where
  manager : w'.factoryTable = w.factoryTable
  index : w'.factoryIndexGenerator = w.factoryIndexGenerator
  factory : ∀ g, (w'.factories g).clientId = (w.factories g).clientId ∧
    (w'.factories g).serviceState = (w.factories g).serviceState ∧
    (w'.factories g).adminExtTable = (w.factories g).adminExtTable
  tables : ∀ g kind group, ((w'.factories g).table kind)[group]? =
    if g = f ∧ kind = (settings i).kind ∧ group = (settings i).group then
      if state = .running then some (.client i) else none
    else ((w.factories g).table kind)[group]?
  clients : ∀ ref, w'.clients ref =
    if ref = .client i then ⟨state, some f⟩ else w.clients ref

theorem Reassigned.uses_iff {state : ServiceState} {w' : ClientWorld}
    (hmove : w.Reassigned settings i f state w') (j g : Nat) :
    w'.Uses j g ↔ if j = i then state = .running ∧ f = g else w.Uses j g := by
  rw [Uses, hmove.clients]
  by_cases hj : j = i
  · simp [hj]
  · simp [hj, Uses]

/-- The entry that changes is the client's, if it runs. -/
theorem Reassigned.registered_iff_self {state : ServiceState} {w' : ClientWorld}
    (hmove : w.Reassigned settings i f state w') (h : w.Consistent settings)
    (hgroups : DistinctGroups settings) (hid : (w.factories f).clientId = (settings i).clientId)
    (ref : ClientRef) :
    w'.Registered settings f (settings i).kind (settings i).group ref ↔
      state = .running ∧ ref = .client i := by
  constructor
  · rintro (⟨-, -, hinner, -⟩ | ⟨j, rfl, hkind, hgroup, huses⟩)
    · exact absurd hinner (hgroups.ne_inner i)
    · rw [hmove.uses_iff] at huses
      by_cases hj : j = i
      · subst hj
        rw [if_pos rfl] at huses
        exact ⟨huses.1, rfl⟩
      · -- another client with the same kind and group has another id
        rw [if_neg hj] at huses
        have hclientId := (h.of_uses huses).2.1.symm.trans hid
        exact absurd (hgroups.inj j i hclientId hkind hgroup) hj
  · rintro ⟨hstate, rfl⟩
    refine Or.inr ⟨i, rfl, rfl, rfl, ?_⟩
    rw [hmove.uses_iff, if_pos rfl]
    exact ⟨hstate, rfl⟩

/-- The other entries are as they were. -/
theorem Reassigned.registered_iff_other {state : ServiceState} {w' : ClientWorld}
    (hmove : w.Reassigned settings i f state w')
    (hbefore : (w.clients (.client i)).serviceState = .createJust ∨ w.Uses i f)
    {g : Nat} {kind : ClientKind} {group : StdString}
    (hkey : ¬ (g = f ∧ kind = (settings i).kind ∧ group = (settings i).group)) (ref : ClientRef) :
    w'.Registered settings g kind group ref ↔ w.Registered settings g kind group ref := by
  have huses (j : Nat) (hkind : (settings j).kind = kind) (hgroup : (settings j).group = group) :
      w'.Uses j g ↔ w.Uses j g := by
    rw [hmove.uses_iff]
    by_cases hj : j = i
    · subst hj
      have hg : f ≠ g := fun heq ↦ hkey ⟨heq.symm, hkind.symm, hgroup.symm⟩
      have hnot : ¬ w.Uses j g := by
        rintro huses
        rcases hbefore with hjust | hf
        · rw [huses] at hjust
          cases hjust
        · cases hf.symm.trans huses
          exact hg rfl
      simp [hg, hnot]
    · rw [if_neg hj]
  unfold Registered
  rw [(hmove.factory g).2.1]
  apply or_congr_right
  apply exists_congr
  intro j
  constructor
  · rintro ⟨href, hkind, hgroup, hu⟩
    exact ⟨href, hkind, hgroup, (huses j hkind hgroup).mp hu⟩
  · rintro ⟨href, hkind, hgroup, hu⟩
    exact ⟨href, hkind, hgroup, (huses j hkind hgroup).mpr hu⟩

/-- A client of a factory that runs may be reassigned to run on it or to be shut down. -/
theorem Reassigned.consistent {state : ServiceState} {w' : ClientWorld}
    (hmove : w.Reassigned settings i f state w') (h : w.Consistent settings)
    (hgroups : DistinctGroups settings) (hf : f < w.factoryIndexGenerator)
    (hid : (w.factories f).clientId = (settings i).clientId)
    (hrunning : (w.factories f).serviceState = .running)
    (hbefore : (w.clients (.client i)).serviceState = .createJust ∨ w.Uses i f)
    (hstate : state = .running ∨ state = .shutdownAlready) : w'.Consistent settings := by
  constructor
  case manager =>
    intro clientId g
    rw [hmove.manager, hmove.index, (hmove.factory g).1, (hmove.factory g).2.1]
    exact h.manager clientId g
  case settled =>
    intro g hg
    rw [(hmove.factory g).2.1]
    exact h.settled g (hmove.index ▸ hg)
  case inner =>
    intro g hg
    rw [(hmove.factory g).2.1, hmove.clients, if_neg (fun heq ↦ by cases heq)]
    exact h.inner g (hmove.index ▸ hg)
  case tables =>
    intro g hg kind group ref
    rw [hmove.tables]
    by_cases hkey : g = f ∧ kind = (settings i).kind ∧ group = (settings i).group
    · rw [if_pos hkey]
      obtain ⟨rfl, rfl, rfl⟩ := hkey
      rw [hmove.registered_iff_self h hgroups hid]
      rcases hstate with rfl | rfl
      · simp [eq_comm]
      · simp
    · rw [if_neg hkey, hmove.registered_iff_other hbefore hkey]
      exact h.tables g (hmove.index ▸ hg) kind group ref
  case adminExtTable =>
    intro g hg
    rw [(hmove.factory g).2.2]
    exact h.adminExtTable g (hmove.index ▸ hg)
  case client =>
    intro j
    by_cases hj : j = i
    · subst hj
      refine Or.inr ⟨f, hmove.index ▸ hf, (hmove.factory f).1.trans hid, ?_⟩
      rw [hmove.uses_iff, hmove.clients, (hmove.factory f).2.1]
      rcases hstate with rfl | rfl
      · simp [hrunning]
      · simp
    · rw [hmove.clients, if_neg (fun heq ↦ hj (by cases heq; rfl))]
      apply (h.client j).imp_right
      rintro ⟨g, hg, hfactory⟩
      refine ⟨g, hmove.index ▸ hg, ?_⟩
      rw [hmove.uses_iff, if_neg hj, (hmove.factory g).1, (hmove.factory g).2.1]
      exact hfactory

theorem reassigned_joined (settings : Nat → ClientSettings) (w : ClientWorld) (i f : Nat) :
    w.Reassigned settings i f .running (w.joined settings i f) := by
  constructor
  case manager => rfl
  case index => rfl
  case factory =>
    intro g
    by_cases hg : g = f
    · subst hg
      simp [joined, setFactory, setClient]
    · simp [joined, setFactory, setClient, hg]
  case tables =>
    intro g kind group
    by_cases hg : g = f
    · subst hg
      by_cases hkind : kind = (settings i).kind
      · subst hkind
        simp [joined, setFactory, setClient, Std.ExtTreeMap.getElem?_insert,
          eq_comm (a := group)]
      · simp [joined, setFactory, setClient, ClientFactory.table_setTable_of_ne _ _ hkind, hkind]
    · simp [joined, setFactory, setClient, hg]
  case clients =>
    intro ref
    simp [joined, setClient, setFactory, Function.update_apply]

theorem reassigned_left (settings : Nat → ClientSettings) (w : ClientWorld) (i f : Nat) :
    w.Reassigned settings i f .shutdownAlready (w.left settings i f) := by
  constructor
  case manager => rfl
  case index => rfl
  case factory =>
    intro g
    by_cases hg : g = f
    · subst hg
      simp [left, setFactory, setClient, ClientFactory.unregister]
    · simp [left, setFactory, setClient, hg]
  case tables =>
    intro g kind group
    by_cases hg : g = f
    · subst hg
      by_cases hkind : kind = (settings i).kind
      · subst hkind
        simp [left, setFactory, setClient, ClientFactory.unregister,
          Std.ExtTreeMap.getElem?_erase, eq_comm (a := group)]
      · simp [left, setFactory, setClient, ClientFactory.unregister,
          ClientFactory.table_setTable_of_ne _ _ hkind, hkind]
    · simp [left, setFactory, setClient, hg]
  case clients =>
    intro ref
    simp [left, setClient, setFactory, Function.update_apply]

/-- The factory that is closed has lost its inner producer. -/
theorem factories_closed_self : (w.closed f).factories f = { w.factories f with
    serviceState := .shutdownAlready
    producerTable := (w.factories f).producerTable.erase clientInnerProducerGroup } :=
  Function.update_self _ _ _

theorem getElem?_factoryTable_closed {id : StdString} : (w.closed f).factoryTable[id]? =
    if (w.factories f).clientId = id then none else w.factoryTable[id]? := by
  simp only [closed, Std.ExtTreeMap.getElem?_erase, Std.LawfulEqCmp.compare_eq_iff_eq]

/-- The manager still has the factories that run when one of them is closed. -/
theorem manager_closed (h : w.Consistent settings) (hf : f < w.factoryIndexGenerator)
    (hrunning : (w.factories f).serviceState = .running) (id : StdString) (g : Nat) :
    (w.closed f).factoryTable[id]? = some g ↔ g < (w.closed f).factoryIndexGenerator ∧
      ((w.closed f).factories g).clientId = id ∧
      ((w.closed f).factories g).serviceState = .running := by
  have hid : w.factoryTable[(w.factories f).clientId]? = some f :=
    (h.manager _ f).mpr ⟨hf, rfl, hrunning⟩
  rw [getElem?_factoryTable_closed]
  change _ ↔ g < w.factoryIndexGenerator ∧ _
  by_cases hg : g = f
  · subst hg
    rw [factories_closed_self]
    have hgone (hother : (w.factories g).clientId ≠ id) : w.factoryTable[id]? ≠ some g :=
      fun hget ↦ hother ((h.manager id g).mp hget).2.1
    split_ifs with heq
    · simp
    · simp [hgone heq]
  · rw [factories_closed_of_ne hg, ← h.manager]
    split_ifs with heq
    · -- the id has one factory only
      rw [← heq, hid]
      simp [Ne.symm hg]
    · rfl

/-- The tables of a closed factory are empty when no client ran on it. -/
theorem tables_closed_self (h : w.Consistent settings) (hf : f < w.factoryIndexGenerator)
    (hnone : ∀ i, ¬ w.Uses i f) (kind : ClientKind) (group : StdString) (ref : ClientRef) :
    (((w.closed f).factories f).table kind)[group]? = some ref ↔
      (w.closed f).Registered settings f kind group ref := by
  have hregistered : ¬ (w.closed f).Registered settings f kind group ref := by
    simp [Registered, uses_closed, hnone, factories_closed_self]
  have hbefore := h.tables f hf kind group ref
  simp only [Registered, hnone, and_false, exists_false, or_false] at hbefore
  simp only [hregistered, iff_false, factories_closed_self]
  cases kind with
  | producer =>
    change ¬ ((w.factories f).producerTable.erase clientInnerProducerGroup)[group]? = some ref
    simp only [Std.ExtTreeMap.getElem?_erase, Std.LawfulEqCmp.compare_eq_iff_eq]
    split_ifs with heq
    · simp
    · exact fun hget ↦ heq (hbefore.mp hget).2.2.1.symm
  | pushConsumer =>
    intro hget
    cases (hbefore.mp hget).2.1

/-- Closing a factory that nobody uses keeps the agreement. -/
theorem consistent_closed (h : w.Consistent settings) (hf : f < w.factoryIndexGenerator)
    (hrunning : (w.factories f).serviceState = .running) (hnone : ∀ i, ¬ w.Uses i f) :
    (w.closed f).Consistent settings := by
  constructor
  case manager => exact manager_closed h hf hrunning
  case settled =>
    intro g hg
    by_cases hgf : g = f
    · subst hgf
      rw [factories_closed_self]
      exact Or.inr rfl
    · rw [factories_closed_of_ne hgf]
      exact h.settled g hg
  case inner =>
    intro g hg
    by_cases hgf : g = f
    · subst hgf
      rw [factories_closed_self]
      exact Function.update_self _ _ _
    · have hne : ClientRef.inner g ≠ .inner f := by simpa using hgf
      rw [factories_closed_of_ne hgf, ← h.inner g hg]
      exact Function.update_of_ne hne _ _
  case tables =>
    intro g hg kind group ref
    by_cases hgf : g = f
    · subst hgf
      exact tables_closed_self h hf hnone kind group ref
    · rw [registered_congr (congrArg ClientFactory.serviceState (factories_closed_of_ne hgf))
        (fun _ ↦ uses_closed), factories_closed_of_ne hgf]
      exact h.tables g hg kind group ref
  case adminExtTable =>
    intro g hg
    by_cases hgf : g = f
    · subst hgf
      rw [factories_closed_self]
      exact h.adminExtTable g hg
    · rw [factories_closed_of_ne hgf]
      exact h.adminExtTable g hg
  case client =>
    intro i
    have hclient : (w.closed f).clients (.client i) = w.clients (.client i) := by simp [closed]
    rw [hclient]
    apply (h.client i).imp_right
    rintro ⟨g, hg, hclientId, hstate⟩
    refine ⟨g, hg, ?_⟩
    rw [uses_closed]
    by_cases hgf : g = f
    · subst hgf
      rw [factories_closed_self]
      exact ⟨hclientId, hstate.imp_left fun hu ↦ absurd hu.1 (hnone i)⟩
    · rw [factories_closed_of_ne hgf]
      exact ⟨hclientId, hstate⟩

private theorem size_le_one_iff {table : ClientTable} {group : StdString} (hmem : group ∈ table) :
    table.size ≤ 1 ↔ table.erase group = ∅ := by
  have hpos : table.size ≠ 0 := by
    intro hzero
    rw [Std.ExtTreeMap.eq_empty_iff_size_eq_zero.mpr hzero] at hmem
    simp at hmem
  rw [Std.ExtTreeMap.eq_empty_iff_size_eq_zero, Std.ExtTreeMap.size_erase,
    if_pos (Std.ExtTreeMap.mem_iff_contains.mp hmem)]
  omega

private theorem table_eq_empty_iff {table : ClientTable} :
    table = ∅ ↔ ∀ (group : StdString) (ref : ClientRef), table[group]? ≠ some ref := by
  constructor
  · rintro rfl
    simp
  · intro h
    apply Std.ExtTreeMap.ext_getElem?
    intro group
    rw [Option.eq_none_iff_forall_ne_some.mpr (h group)]
    simp

/-- A factory that runs is shut down exactly when no client runs on it any more. -/
theorem Consistent.stillUsed_iff (h : w.Consistent settings) (hgroups : DistinctGroups settings)
    (hf : f < w.factoryIndexGenerator) (hrunning : (w.factories f).serviceState = .running) :
    (w.factories f).stillUsed = true ↔ ∃ i, w.Uses i f := by
  have hproducer := h.tables f hf .producer
  have hconsumer := h.tables f hf .pushConsumer
  have hinner : clientInnerProducerGroup ∈ (w.factories f).producerTable := by
    have hget := (hproducer clientInnerProducerGroup (.inner f)).mpr
      (Or.inl ⟨rfl, rfl, rfl, hrunning⟩)
    rw [Std.ExtTreeMap.mem_iff_isSome_getElem?]
    exact Option.isSome_of_eq_some hget
  have hunused : (w.factories f).stillUsed = false ↔ (w.factories f).consumerTable = ∅ ∧
      (w.factories f).producerTable.erase clientInnerProducerGroup = ∅ := by
    simp [ClientFactory.stillUsed, h.adminExtTable f hf, ← size_le_one_iff hinner]
  rw [← not_iff_not, Bool.not_eq_true, hunused, table_eq_empty_iff, table_eq_empty_iff]
  constructor
  · rintro ⟨hconsumers, hproducers⟩ ⟨i, hi⟩
    cases hkind : (settings i).kind with
    | producer =>
      have hget := (hproducer (settings i).group (.client i)).mpr (Or.inr ⟨i, rfl, hkind, rfl, hi⟩)
      apply hproducers (settings i).group (.client i)
      simp only [Std.ExtTreeMap.getElem?_erase, Std.LawfulEqCmp.compare_eq_iff_eq]
      rw [if_neg (hgroups.ne_inner i).symm]
      exact hget
    | pushConsumer =>
      have hget := (hconsumer (settings i).group (.client i)).mpr (Or.inr ⟨i, rfl, hkind, rfl, hi⟩)
      exact hconsumers (settings i).group (.client i) hget
  · intro hnone
    constructor
    · intro group ref hget
      rcases (hconsumer group ref).mp hget with ⟨-, hkind, -⟩ | ⟨i, -, -, -, hi⟩
      · cases hkind
      · exact hnone ⟨i, hi⟩
    · intro group ref
      simp only [Std.ExtTreeMap.getElem?_erase, Std.LawfulEqCmp.compare_eq_iff_eq]
      split_ifs with heq
      · simp
      · intro hget
        rcases (hproducer group ref).mp hget with ⟨-, -, hgroup, -⟩ | ⟨i, -, -, -, hi⟩
        · exact heq hgroup.symm
        · exact hnone ⟨i, hi⟩

end Invariant

/-! ### Calls -/

/-- A call of a program. -/
inductive ClientCall where
  | start (i : Nat)
  | shutdown (i : Nat)

/-- The process after a call. -/
def call (settings : Nat → ClientSettings) (w : ClientWorld) : ClientCall → ClientWorld
  | .start i => (w.start settings i).1
  | .shutdown i => w.shutdown settings i

/-- Every factory that runs, up to one, is used. -/
def InUseExcept (w : ClientWorld) (f : Nat) : Prop :=
  ∀ g < w.factoryIndexGenerator, g ≠ f → (w.factories g).serviceState = .running →
    ∃ i, w.Uses i g

section Calls

variable {settings : Nat → ClientSettings} {w : ClientWorld} {i f : Nat}

theorem start_of_started (h : (w.clients (.client i)).serviceState ≠ .createJust) :
    (w.start settings i).1 = w := by
  unfold start
  cases (settings i).kind <;> cases hstate : (w.clients (.client i)).serviceState <;>
    first
    | exact absurd hstate h
    | simp [startProducer, startPushConsumer, startClient, hstate]

theorem shutdown_of_not_running (h : (w.clients (.client i)).serviceState ≠ .running) :
    w.shutdown settings i = w := by
  unfold shutdown
  cases (settings i).kind <;> cases hstate : (w.clients (.client i)).serviceState <;>
    first
    | exact absurd hstate h
    | simp [shutdownProducer, shutdownPushConsumer, shutdownClient, hstate]

/-- The clients of the other factories are where they were. -/
theorem Reassigned.inUseExcept {state : ServiceState} {w' : ClientWorld}
    (hmove : w.Reassigned settings i f state w') (hused : w.InUseExcept f)
    (hbefore : (w.clients (.client i)).serviceState = .createJust ∨ w.Uses i f) :
    w'.InUseExcept f := by
  intro g hg hgf hrunning
  obtain ⟨j, hj⟩ := hused g (hmove.index ▸ hg) hgf ((hmove.factory g).2.1 ▸ hrunning)
  have hji : j ≠ i := by
    rintro rfl
    rcases hbefore with hjust | hf
    · rw [hj] at hjust
      cases hjust
    · cases hj.symm.trans hf
      exact hgf rfl
  refine ⟨j, ?_⟩
  rw [hmove.uses_iff, if_neg hji]
  exact hj

theorem joined_spec (h : w.Consistent settings) (hused : w.InUseExcept f)
    (hgroups : DistinctGroups settings) (hf : f < w.factoryIndexGenerator)
    (hid : (w.factories f).clientId = (settings i).clientId)
    (hrunning : (w.factories f).serviceState = .running)
    (hjust : (w.clients (.client i)).serviceState = .createJust) :
    (w.joined settings i f).Uses i f ∧ (w.joined settings i f).Consistent settings ∧
      (w.joined settings i f).InUse := by
  have hmove := reassigned_joined settings w i f
  have huses : (w.joined settings i f).Uses i f := by
    rw [hmove.uses_iff, if_pos rfl]
    exact ⟨rfl, rfl⟩
  refine ⟨huses, hmove.consistent h hgroups hf hid hrunning (Or.inl hjust) (Or.inl rfl), ?_⟩
  intro g hg hg'
  by_cases hgf : g = f
  · rw [hgf]
    exact ⟨i, huses⟩
  · exact hmove.inUseExcept hused (Or.inl hjust) g hg hgf hg'

/-- The kind and the group of a client that was not started are free. -/
theorem Consistent.group_notMem (h : w.Consistent settings) (hgroups : DistinctGroups settings)
    (hf : f < w.factoryIndexGenerator)
    (hid : (w.factories f).clientId = (settings i).clientId)
    (hjust : (w.clients (.client i)).serviceState = .createJust) :
    (settings i).group ∉ (w.factories f).table (settings i).kind := by
  intro hmem
  rw [Std.ExtTreeMap.mem_iff_isSome_getElem?] at hmem
  obtain ⟨ref, hget⟩ := Option.isSome_iff_exists.mp hmem
  rcases (h.tables f hf _ _ ref).mp hget with ⟨-, -, hinner, -⟩ | ⟨j, -, hkind, hgroup, hj⟩
  · exact hgroups.ne_inner i hinner
  · have hji := hgroups.inj j i ((h.of_uses hj).2.1.symm.trans hid) hkind hgroup
    rw [← hji, hj] at hjust
    cases hjust

/-- The first start of a client succeeds: it runs on the factory of its id, a new one if there
is none. -/
theorem start_spec (h : w.Consistent settings) (hused : w.InUse) (hgroups : DistinctGroups settings)
    (hjust : (w.clients (.client i)).serviceState = .createJust) :
    ∃ f, (w.factoryTable[(settings i).clientId]? = some f ∨
        w.factoryTable[(settings i).clientId]? = none ∧ f = w.factoryIndexGenerator) ∧
      (w.start settings i).2 = .ok () ∧ (w.start settings i).1.Uses i f ∧
      (w.start settings i).1.Consistent settings ∧ (w.start settings i).1.InUse := by
  have hgroup := hgroups.ne_nil i
  cases hid : w.factoryTable[(settings i).clientId]? with
  | some f =>
    obtain ⟨hf, hclientId, hrunning⟩ := (h.manager _ f).mp hid
    have hfree := h.group_notMem hgroups hf hclientId hjust
    rw [start_of_registered hjust hid hrunning hgroup hfree]
    exact ⟨f, Or.inl rfl, rfl, joined_spec h (fun g hg _ hrun ↦ hused g hg hrun) hgroups hf
      hclientId hrunning hjust⟩
  | none =>
    rw [start_of_absent hjust hid hgroup (hgroups.ne_inner i)]
    refine ⟨w.factoryIndexGenerator, Or.inr ⟨rfl, rfl⟩, rfl, ?_⟩
    have hnew : (w.opened (settings i).clientId).factories w.factoryIndexGenerator =
        ⟨_, _, _, _, _⟩ := Function.update_self _ _ _
    have hjust' : ((w.opened (settings i).clientId).clients (.client i)).serviceState =
        .createJust := by
      rw [← hjust]
      simp [opened]
    apply joined_spec (consistent_opened h hid) _ hgroups (Nat.lt_succ_self _) _ _ hjust'
    · intro g hg hgf hrun
      have hlt : g < w.factoryIndexGenerator := lt_of_le_of_ne (Nat.lt_succ_iff.mp hg) hgf
      rw [factories_opened_of_ne hgf] at hrun
      obtain ⟨j, hj⟩ := hused g hlt hrun
      exact ⟨j, uses_opened.mpr hj⟩
    · rw [hnew]
    · rw [hnew]

/-- A shutdown keeps the agreement and leaves no factory running without a client. -/
theorem shutdown_spec (h : w.Consistent settings) (hused : w.InUse)
    (hgroups : DistinctGroups settings) (i : Nat) :
    (w.shutdown settings i).Consistent settings ∧ (w.shutdown settings i).InUse := by
  by_cases hrunning : (w.clients (.client i)).serviceState = .running
  · rcases h.client i with hjust | ⟨f, hf, hid, ⟨huses, hfactory⟩ | hshut⟩
    · rw [hrunning] at hjust
      cases hjust
    · have hmove := reassigned_left settings w i f
      have hleft := hmove.consistent h hgroups hf hid hfactory (Or.inr huses) (Or.inr rfl)
      have hexcept := hmove.inUseExcept (fun g hg _ hrun ↦ hused g hg hrun) (Or.inr huses)
      have hstate : ((w.left settings i f).factories f).serviceState = .running :=
        (hmove.factory f).2.1.trans hfactory
      have hstill := hleft.stillUsed_iff hgroups hf hstate
      by_cases hstillUsed : ((w.left settings i f).factories f).stillUsed
      · rw [shutdown_of_used huses hstillUsed]
        refine ⟨hleft, fun g hg hrun ↦ ?_⟩
        by_cases hgf : g = f
        · rw [hgf]
          exact hstill.mp hstillUsed
        · exact hexcept g hg hgf hrun
      · have hinner := h.inner f hf
        rw [hfactory] at hinner
        rw [shutdown_of_unused huses hfactory hinner hstillUsed]
        refine ⟨consistent_closed hleft hf hstate (fun j hj ↦ hstillUsed (hstill.mpr ⟨j, hj⟩)),
          fun g hg hrun ↦ ?_⟩
        by_cases hgf : g = f
        · -- the factory that was closed does not run
          subst hgf
          simp [closed] at hrun
        · rw [factories_closed_of_ne hgf] at hrun
          obtain ⟨j, hj⟩ := hexcept g hg hgf hrun
          exact ⟨j, uses_closed.mpr hj⟩
    · rw [hshut] at hrunning
      cases hrunning
  · rw [shutdown_of_not_running hrunning]
    exact ⟨h, hused⟩

/-- Every call keeps the agreement and leaves no factory running without a client. -/
theorem call_spec (hgroups : DistinctGroups settings) (w : ClientWorld) (c : ClientCall)
    (w' : ClientWorld) (h : w.Consistent settings ∧ w.InUse)
    (hcall : some (w.call settings c) = some w') : w'.Consistent settings ∧ w'.InUse := by
  cases hcall
  cases c with
  | start i =>
    by_cases hjust : (w.clients (.client i)).serviceState = .createJust
    · obtain ⟨-, -, -, -, hafter⟩ := start_spec h.1 h.2 hgroups hjust
      exact hafter
    · rw [call, start_of_started hjust]
      exact h
  | shutdown i => exact shutdown_spec h.1 h.2 hgroups i

/-- A factory lives as long as its clients. -/
structure FactoryLifetime (settings : Nat → ClientSettings) (w : ClientWorld) : Prop where
  running : ∀ i, (w.clients (.client i)).serviceState = .running →
    ∃ f, (w.clients (.client i)).factory = some f ∧ (w.factories f).serviceState = .running ∧
      w.factoryTable[(settings i).clientId]? = some f
  ended : ∀ i, (w.clients (.client i)).serviceState = .shutdownAlready →
    (∀ j, (settings j).clientId = (settings i).clientId →
      (w.clients (.client j)).serviceState ≠ .running) →
    w.factoryTable[(settings i).clientId]? = none ∧
      ∃ f, (w.clients (.client i)).factory = some f ∧
        (w.factories f).serviceState = .shutdownAlready
  fresh : ∀ i, (w.clients (.client i)).serviceState = .createJust →
    (w.start settings i).2 = .ok () ∧
      ((∀ j, (settings j).clientId = (settings i).clientId →
          (w.clients (.client j)).serviceState ≠ .running) →
        ((w.start settings i).1.clients (.client i)).factory = some w.factoryIndexGenerator ∧
          ∀ j f, (w.clients (.client j)).serviceState ≠ .createJust →
            (w.clients (.client j)).factory = some f → f < w.factoryIndexGenerator)

/-- An id without clients that run has no factory. -/
theorem factoryTable_eq_none (h : w.Consistent settings) (hused : w.InUse) {clientId : StdString}
    (hnone : ∀ j, (settings j).clientId = clientId →
      (w.clients (.client j)).serviceState ≠ .running) : w.factoryTable[clientId]? = none := by
  apply Option.eq_none_iff_forall_ne_some.mpr
  intro f hf
  obtain ⟨hlt, hclientId, hrunning⟩ := (h.manager _ f).mp hf
  obtain ⟨j, hj⟩ := hused f hlt hrunning
  apply hnone j ((h.of_uses hj).2.1.symm.trans hclientId)
  rw [hj]

theorem Consistent.factory_of_running (h : w.Consistent settings) {i : Nat}
    (hi : (w.clients (.client i)).serviceState = .running) :
    ∃ f, (w.clients (.client i)).factory = some f ∧ (w.factories f).serviceState = .running ∧
      w.factoryTable[(settings i).clientId]? = some f := by
  rcases h.client i with hjust | ⟨f, hf, hid, ⟨huses, hfactory⟩ | hshut⟩
  · rw [hi] at hjust
    cases hjust
  · refine ⟨f, by rw [huses], hfactory, ?_⟩
    exact (h.manager _ f).mpr ⟨hf, hid, hfactory⟩
  · rw [hshut] at hi
    cases hi

/-- The factory of a client that was shut down is shut down, too, when its id has none. -/
theorem Consistent.factory_of_shutdown (h : w.Consistent settings) {i : Nat}
    (hi : (w.clients (.client i)).serviceState = .shutdownAlready)
    (hgone : w.factoryTable[(settings i).clientId]? = none) :
    ∃ f, (w.clients (.client i)).factory = some f ∧
      (w.factories f).serviceState = .shutdownAlready := by
  rcases h.client i with hjust | ⟨f, hf, hid, ⟨huses, -⟩ | hshut⟩
  · rw [hi] at hjust
    cases hjust
  · rw [huses] at hi
    cases hi
  · refine ⟨f, by rw [hshut], (h.settled f hf).resolve_left fun hrunning ↦ ?_⟩
    -- a factory of the id that runs would be in the manager's table
    have hget := (h.manager _ f).mpr ⟨hf, hid, hrunning⟩
    rw [hgone] at hget
    cases hget

/-- The factories of clients were made before. -/
theorem Consistent.factory_lt (h : w.Consistent settings) {j f : Nat}
    (hj : (w.clients (.client j)).serviceState ≠ .createJust)
    (hfactory : (w.clients (.client j)).factory = some f) : f < w.factoryIndexGenerator := by
  rcases h.client j with hjust | ⟨g, hg, -, ⟨huses, -⟩ | hshut⟩
  · exact absurd hjust hj
  · rw [huses] at hfactory
    cases hfactory
    exact hg
  · rw [hshut] at hfactory
    cases hfactory
    exact hg

/-- After every sequence of starts and shutdowns of clients with different groups, whatever their
ids and kinds, each client that runs has a factory that runs and is the one the manager knows,
and an id without clients that run has no factory. -/
theorem factory_lives_with_clients (hgroups : DistinctGroups settings) {calls : List ClientCall}
    (hrun : Base.runFrom (fun w c ↦ some (w.call settings c)) initial calls = some w) :
    w.FactoryLifetime settings := by
  have hstart : initial.Consistent settings ∧ initial.InUse :=
    ⟨consistent_initial, fun f hf ↦ absurd hf (Nat.not_lt_zero f)⟩
  obtain ⟨h, hused⟩ := Base.inv_of_runFrom (call_spec hgroups) hstart hrun
  constructor
  case running => exact fun i hi ↦ h.factory_of_running hi
  case ended =>
    intro i hi hnone
    have hgone := factoryTable_eq_none h hused hnone
    exact ⟨hgone, h.factory_of_shutdown hi hgone⟩
  case fresh =>
    intro i hi
    obtain ⟨f, hf, hok, huses, -⟩ := start_spec h hused hgroups hi
    refine ⟨hok, fun hnone ↦ ?_⟩
    rw [factoryTable_eq_none h hused hnone] at hf
    rcases hf with hf | ⟨-, rfl⟩
    · cases hf
    · exact ⟨by rw [huses], fun j f hj hfactory ↦ h.factory_lt hj hfactory⟩

end Calls

/-- Clients of one id, every other one a producer. -/
def sampleSettings (i : Nat) : ClientSettings where
  kind := if i % 2 = 0 then .producer else .pushConsumer
  group := 103 :: List.replicate i 103
  clientId := str "id"

/-- A producer and a consumer start, and shut down in the same order. -/
theorem factory_lives_with_two_clients :
    let calls := [.start 0, .start 1, .shutdown 0, .shutdown 1]
    ∃ w, Base.runFrom (fun w c ↦ some (w.call sampleSettings c)) initial calls = some w ∧
      w.FactoryLifetime sampleSettings ∧
      (w.clients (.client 1)).serviceState = .shutdownAlready ∧
      (w.factories 0).serviceState = .shutdownAlready := by
  intro calls
  have hgroups : DistinctGroups sampleSettings := by
    constructor
    · intro i
      simp [sampleSettings]
    · intro i h
      have hhead := congrArg List.head? h
      simp [sampleSettings, clientInnerProducerGroup, str] at hhead
    · intro i j _ _ hgroup
      have hlength := congrArg List.length hgroup
      simpa [sampleSettings] using hlength
  refine ⟨_, rfl, ?_, by decide, by decide⟩
  exact factory_lives_with_clients hgroups (show Base.runFrom _ initial calls = _ from rfl)

end ClientWorld
end RocketMQ
