import RocketMQ.Factory.Lifecycle

/-!
# The moves of a start and a shutdown

A start and a shutdown, with the nested calls for the inner producer, come down to four moves: a
factory is opened, a client joins it, a client leaves it, and a factory that nobody uses is closed.
-/

namespace RocketMQ

namespace ClientFactory

@[simp] theorem table_setTable (factory : ClientFactory) (kind : ClientKind) (table : ClientTable) :
    (factory.setTable kind table).table kind = table := by
  cases kind <;> rfl

theorem table_setTable_of_ne (factory : ClientFactory) {kind other : ClientKind}
    (table : ClientTable) (h : other ≠ kind) :
    (factory.setTable kind table).table other = factory.table other := by
  cases kind <;> cases other <;> first | rfl | exact absurd rfl h

@[simp] theorem clientId_setTable (factory : ClientFactory) (kind : ClientKind)
    (table : ClientTable) : (factory.setTable kind table).clientId = factory.clientId := by
  cases kind <;> rfl

@[simp] theorem serviceState_setTable (factory : ClientFactory) (kind : ClientKind)
    (table : ClientTable) :
    (factory.setTable kind table).serviceState = factory.serviceState := by
  cases kind <;> rfl

@[simp] theorem adminExtTable_setTable (factory : ClientFactory) (kind : ClientKind)
    (table : ClientTable) :
    (factory.setTable kind table).adminExtTable = factory.adminExtTable := by
  cases kind <;> rfl

theorem table_producer (factory : ClientFactory) :
    factory.table .producer = factory.producerTable := rfl

@[simp] theorem producerTable_setTable_producer (factory : ClientFactory) (table : ClientTable) :
    (factory.setTable .producer table).producerTable = table := rfl

@[simp] theorem consumerTable_setTable_producer (factory : ClientFactory) (table : ClientTable) :
    (factory.setTable .producer table).consumerTable = factory.consumerTable := rfl

end ClientFactory

namespace ClientWorld

/-! ### The four moves -/

/-- A new factory that runs, for an id without one. -/
def opened (w : ClientWorld) (clientId : StdString) : ClientWorld where
  factoryTable := w.factoryTable.insert clientId w.factoryIndexGenerator
  factoryIndexGenerator := w.factoryIndexGenerator + 1
  factories := Function.update w.factories w.factoryIndexGenerator
    ⟨clientId, .running, (∅ : ClientTable).insert clientInnerProducerGroup
      (.inner w.factoryIndexGenerator), ∅, ∅⟩
  clients := Function.update w.clients (.inner w.factoryIndexGenerator)
    ⟨.running, some w.factoryIndexGenerator⟩

/-- A client runs on a factory. -/
def joined (settings : Nat → ClientSettings) (w : ClientWorld) (i f : Nat) : ClientWorld :=
  (w.setFactory f ((w.factories f).setTable (settings i).kind
    (((w.factories f).table (settings i).kind).insert (settings i).group (.client i)))).setClient
    (.client i) ⟨.running, some f⟩

/-- A client runs no longer. -/
def left (settings : Nat → ClientSettings) (w : ClientWorld) (i f : Nat) : ClientWorld :=
  (w.setFactory f ((w.factories f).unregister (settings i).kind (settings i).group)).setClient
    (.client i) ⟨.shutdownAlready, some f⟩

/-- A factory with its inner producer runs no longer. -/
def closed (w : ClientWorld) (f : Nat) : ClientWorld where
  factoryTable := w.factoryTable.erase (w.factories f).clientId
  factoryIndexGenerator := w.factoryIndexGenerator
  factories := Function.update w.factories f
    { w.factories f with
      serviceState := .shutdownAlready
      producerTable := (w.factories f).producerTable.erase clientInnerProducerGroup }
  clients := Function.update w.clients (.inner f) ⟨.shutdownAlready, some f⟩

section Moves

variable {settings : Nat → ClientSettings} {w : ClientWorld} {i f : Nat}

/-- A first start for an id with a factory that runs. -/
theorem start_of_registered (hstate : (w.clients (.client i)).serviceState = .createJust)
    (hid : w.factoryTable[(settings i).clientId]? = some f)
    (hrunning : (w.factories f).serviceState = .running) (hgroup : (settings i).group ≠ [])
    (hfree : (settings i).group ∉ (w.factories f).table (settings i).kind) :
    w.start settings i = (w.joined settings i f, .ok ()) := by
  unfold start
  cases hkind : (settings i).kind with
  | producer =>
    rw [hkind] at hfree
    simp [startProducer, startClient, hstate, getAndCreateMQClientFactory, setClient, hid,
      ClientFactory.registerProducer, ClientFactory.register, hgroup, hfree, setFactory,
      startFactory, hrunning, joined, hkind]
  | pushConsumer =>
    rw [hkind] at hfree
    simp [startPushConsumer, startClient, hstate, getAndCreateMQClientFactory, setClient, hid,
      ClientFactory.registerConsumer, ClientFactory.register, hgroup, hfree, setFactory,
      startFactory, hrunning, joined, hkind]

theorem clientInnerProducerGroup_ne_nil : clientInnerProducerGroup ≠ [] := by decide

/-- The last writes to two places are those that count. -/
private theorem update_last_writes {clients : ClientRef → ClientService} {a b : ClientRef}
    (x₁ x₂ x₃ y z : ClientService) :
    Function.update (Function.update (Function.update (Function.update (Function.update clients
      a x₁) b x₂) a x₃) b y) a z = Function.update (Function.update clients b y) a z := by
  funext ref
  simp only [Function.update_apply]
  split_ifs <;> rfl

private theorem insert_comm {table : ClientTable} {g h : StdString} (hne : g ≠ h)
    (a b : ClientRef) : (table.insert g a).insert h b = (table.insert h b).insert g a := by
  apply Std.ExtTreeMap.ext_getElem?
  intro k
  simp only [Std.ExtTreeMap.getElem?_insert, Std.LawfulEqCmp.compare_eq_iff_eq]
  split_ifs with hh hg
  · exact absurd (hg.trans hh.symm) hne
  all_goals rfl

/-- A first start for an id without a factory. -/
theorem start_of_absent (hstate : (w.clients (.client i)).serviceState = .createJust)
    (hid : w.factoryTable[(settings i).clientId]? = none) (hgroup : (settings i).group ≠ [])
    (hinner : (settings i).group ≠ clientInnerProducerGroup) :
    w.start settings i = ((w.opened (settings i).clientId).joined settings i
      w.factoryIndexGenerator, .ok ()) := by
  unfold start
  cases hkind : (settings i).kind with
  | producer =>
    simp [startProducer, startClient, hstate, getAndCreateMQClientFactory, setClient, hid,
      ClientFactory.registerProducer, ClientFactory.register, hgroup, setFactory, startFactory,
      joined, hkind, ClientFactory.new, ClientFactory.table, ClientFactory.setTable, opened, hinner,
      clientInnerProducerGroup_ne_nil, insert_comm hinner, update_last_writes]
  | pushConsumer =>
    simp [startPushConsumer, startProducer, startClient, hstate, getAndCreateMQClientFactory,
      setClient, hid, ClientFactory.registerConsumer, ClientFactory.registerProducer,
      ClientFactory.register, hgroup, setFactory, startFactory, joined, hkind, ClientFactory.new,
      ClientFactory.table, ClientFactory.setTable, opened, clientInnerProducerGroup_ne_nil,
      update_last_writes]

/-- A client that runs unregisters and then asks its factory to shut down. -/
theorem shutdown_eq (hstate : w.clients (.client i) = ⟨.running, some f⟩) :
    w.shutdown settings i = ((w.setFactory f ((w.factories f).unregister (settings i).kind
      (settings i).group)).shutdownFactory f).setClient (.client i) ⟨.shutdownAlready, some f⟩ := by
  unfold shutdown
  cases hkind : (settings i).kind <;>
    simp [shutdownProducer, shutdownPushConsumer, shutdownClient, hstate,
      ClientFactory.unregisterProducer, ClientFactory.unregisterConsumer]

/-- A shutdown of a client whose factory others use. -/
theorem shutdown_of_used (hstate : w.clients (.client i) = ⟨.running, some f⟩)
    (hused : ((w.left settings i f).factories f).stillUsed) :
    w.shutdown settings i = w.left settings i f := by
  change ((w.setFactory f _).factories f).stillUsed = true at hused
  rw [shutdown_eq hstate, shutdownFactory, if_pos hused]
  rfl

/-- A shutdown of the last client of a factory. -/
theorem shutdown_of_unused (hstate : w.clients (.client i) = ⟨.running, some f⟩)
    (hrunning : (w.factories f).serviceState = .running)
    (hinner : w.clients (.inner f) = ⟨.running, some f⟩)
    (hunused : ¬ ((w.left settings i f).factories f).stillUsed) :
    w.shutdown settings i = (w.left settings i f).closed f := by
  have hne : ClientRef.client i ≠ .inner f := by simp
  change ¬ ((w.setFactory f _).factories f).stillUsed = true at hunused
  rw [shutdown_eq hstate, shutdownFactory, if_neg hunused]
  simp [setFactory, ClientFactory.unregister, hrunning, shutdownProducer, shutdownClient, hinner,
    removeClientFactory, ClientFactory.unregisterProducer, setClient, closed, left,
    ClientFactory.table_producer, Function.update_comm hne]

end Moves

end ClientWorld
end RocketMQ
