import GimbalLink.Engine.Tick
/-
  A rig: an engine with everything around it.

  The rig has the clock, the vehicle's reading, the ground station's presence, and
  the listener registry through which broadcasts reach the bus inbox. A serial port
  is there whether or not the engine is wired to it; while it is not, the port
  stands by idle.

  An `Operation` is one thing done with the engine or to its surroundings, and every
  history of an engine is a run of them.
-/
namespace GimbalLink

structure Rig where
  engine : Engine
  clock : Clock
  vehicle : Vehicle
  /-- A ground station is listening. -/
  connected : Bool
  /-- The bus inbox is the only listener. -/
  registry : Registry Unit BusStatus
  /-- The serial port while the engine is not wired to it. -/
  idlePort : Port

namespace Rig

/-- Ids and bindings that the registry has room for. -/
def registryRoom : Nat := 4

/-- A rig at its start. The inbox is bound to the gimbal's node; the answer is that of
the binding. -/
def new (kind : Option ChannelKind) (settings : Settings) (vehicle : Vehicle)
    (connected ready : Bool) (start : Millis) : Rig × Except RegistryError Nat :=
  let channel := kind.map fun k =>
    match k with
    | .serial => Channel.serial .new
    | .bus => Channel.bus (.new settings.busNode ready)
  let (registry, bound) := (Registry.new registryRoom registryRoom).register () settings.busNode
  ({ engine := .new channel settings, clock := ⟨start⟩, vehicle, connected, registry,
     idlePort := .new }, bound)

/-! ## The surroundings -/

/-- The serial port. -/
def port (r : Rig) : Port :=
  match r.engine.link with
  | some ⟨.serial port, _⟩ => port
  | _ => r.idlePort

/-- Changes the serial port, wherever it stands. -/
def setPort (r : Rig) (port : Port) : Rig :=
  match r.engine.link with
  | some ⟨.serial _, _⟩ => { r with engine := r.engine.mapChannel fun _ => .serial port }
  | _ => { r with idlePort := port }

/-- Bytes arrive at the serial port; tells how many fit. -/
def inject (r : Rig) (bs : Bytes) : Rig × Nat :=
  let (port, n) := r.port.inject bs
  (r.setPort port, n)

/-- Takes what was written to the serial port. -/
def takeTx (r : Rig) (room : Nat) : Rig × Bytes :=
  let (port, bs) := r.port.takeTx room
  (r.setPort port, bs)

/-- Takes what was sent on the bus. -/
def takeSent (r : Rig) : Rig × List BusSend :=
  ({ r with engine := r.engine.mapChannel fun c => c.takeSent.1 },
    (r.engine.link.map fun l => l.channel.takeSent.2).getD [])

/-- What the inbox does as a listener. -/
def handle (_ : Unit) (s : BusStatus) : Callback Unit BusStatus Engine Unit := fun registry e =>
  (registry, e.mapChannel (·.deliver s), ())

/-- A status from a node arrives on the bus. -/
def publish (r : Rig) (node : UInt8) (s : BusStatus) : Rig × Except RegistryError Nat :=
  let (registry, engine, result) := r.registry.publish r.engine node s handle
  ({ r with registry, engine }, result)

/-- The engine ticks at the clock's time. -/
def tick (r : Rig) : Rig × Report :=
  let (engine, report) := r.engine.tick r.clock.now r.vehicle r.connected
  ({ r with engine }, report)

/-! ## Operations -/

inductive Operation where
  | advance (d : Millis)
  | setClock (now : Millis)
  | setVehicle (v : Vehicle)
  | setConnected (connected : Bool)
  | inject (bs : Bytes)
  | setLimit (limit : Nat)
  | takeTx (room : Nat)
  | setReady (ready : Bool)
  | setAccepting (accepting : Bool)
  | takeSent
  | publish (node : UInt8) (s : BusStatus)
  | tick
  | setMode (mode : Mode)
  | setExternal (a : Angles)
  | setInterest (l : Location)
  | triggerCamera
  | requestBanner
  | sendHome
  | sendTarget (l : Location)
  | takeUpdate

inductive Outcome where
  | done
  /-- How many bytes fit. -/
  | count (n : Nat)
  | bytes (bs : Bytes)
  | sends (xs : List BusSend)
  | published (result : Except RegistryError Nat)
  | ticked (report : Report)
  | sent (result : Except SendError Nat)
  | update (o : Option Orientation)

/-- What is done to the channel. -/
def onChannel (r : Rig) (f : Channel → Channel) : Rig × Outcome :=
  ({ r with engine := r.engine.mapChannel f }, .done)

/-- What is done to the engine. -/
def onEngine (r : Rig) (f : Engine → Engine) : Rig × Outcome :=
  ({ r with engine := f r.engine }, .done)

def perform (r : Rig) : Operation → Rig × Outcome
  | .advance d => ({ r with clock := r.clock.advance d }, .done)
  | .setClock now => ({ r with clock := ⟨now⟩ }, .done)
  | .setVehicle vehicle => ({ r with vehicle }, .done)
  | .setConnected connected => ({ r with connected }, .done)
  | .inject bs =>
    let (r, n) := r.inject bs
    (r, .count n)
  | .setLimit limit => (r.setPort (r.port.setLimit limit), .done)
  | .takeTx room =>
    let (r, bs) := r.takeTx room
    (r, .bytes bs)
  | .setReady ready => r.onChannel (·.setReady ready)
  | .setAccepting accepting => r.onChannel (·.setAccepting accepting)
  | .takeSent =>
    let (r, xs) := r.takeSent
    (r, .sends xs)
  | .publish node s =>
    let (r, result) := r.publish node s
    (r, .published result)
  | .tick =>
    let (r, report) := r.tick
    (r, .ticked report)
  | .setMode mode => r.onEngine (·.setMode mode)
  | .setExternal a => r.onEngine (·.setExternal a)
  | .setInterest l => r.onEngine (·.setInterest l)
  | .triggerCamera => r.onEngine (·.triggerCamera)
  | .requestBanner => r.onEngine (·.requestBanner)
  | .sendHome =>
    let (engine, result) := r.engine.sendHome r.vehicle.location
    ({ r with engine }, .sent result)
  | .sendTarget l =>
    let (engine, result) := r.engine.sendTarget l
    ({ r with engine }, .sent result)
  | .takeUpdate =>
    let (engine, o) := r.engine.takeUpdate
    ({ r with engine }, .update o)

end Rig

end GimbalLink
