import ValueChannels.Exchange.Config
import ValueChannels.Exchange.Event
import ValueChannels.Exchange.Handle
import ValueChannels.Exchange.Table
import ValueChannels.Expr.Inspect
import ValueChannels.Message.Basic
import ValueChannels.Queue.Slot

/-!
Channels and the registry that holds the open ones. A channel has one queue for each
direction; a registry knows its channels by slot and by key, and keeps the events of its
operations for an observer if there is one.
-/

namespace ValueChannels

structure Channel where
  slot : Nat
  key : Int
  toWorker : Slot Message
  toMaster : Slot Message

namespace Channel

def opened (slot : Nat) (key : Int) : Channel :=
  { slot, key, toWorker := Slot.empty, toMaster := Slot.empty }

def queue (channel : Channel) : Side → Slot Message
  | .worker => channel.toWorker
  | .master => channel.toMaster

def setQueue (channel : Channel) (side : Side) (slot : Slot Message) : Channel :=
  match side with
  | .worker => { channel with toWorker := slot }
  | .master => { channel with toMaster := slot }

def closeQueue (channel : Channel) (side : Side) : Channel :=
  channel.setQueue side (channel.queue side).close

def inspect (channel : Channel) : String :=
  Text.record "Channel"
    [("slot", toString channel.slot), ("key", toString channel.key),
      ("to_worker_empty", Text.inspectBool channel.toWorker.isEmpty),
      ("to_master_empty", Text.inspectBool channel.toMaster.isEmpty)]

@[simp] theorem queue_setQueue_same (channel : Channel) (side : Side) (slot : Slot Message) :
    (channel.setQueue side slot).queue side = slot := by
  cases side <;> rfl

@[simp] theorem queue_setQueue_other (channel : Channel) (side : Side) (slot : Slot Message) :
    (channel.setQueue side slot).queue side.other = channel.queue side.other := by
  cases side <;> rfl

end Channel

structure Registry where
  config : RegistryConfig
  table : Table
  /-- The events since the last look, the latest first; absent without an observer. -/
  log : Option (List Event)

namespace Registry

def ofConfig (config : RegistryConfig) : Registry :=
  { config, table := Table.ofCapacity config.initialCapacity, log := none }

def create (config : RegistryConfig) : Except ChannelError Registry :=
  match config.validate with
  | .ok () => .ok (ofConfig config)
  | .error err => .error err

def record (registry : Registry) (event : Event) : Registry :=
  { registry with log := registry.log.map fun events => event :: events }

def inspect (registry : Registry) : String :=
  Text.record "ChannelRegistry"
    [("config", registry.config.inspect), ("capacity", toString registry.table.capacity),
      ("live_channels", toString registry.table.liveCount)]

end Registry

end ValueChannels
