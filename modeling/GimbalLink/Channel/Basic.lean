import GimbalLink.Channel.Port
import GimbalLink.Listeners.Inboxes
/-
  The two channels to the gimbal.

  A serial port, or frames sent over a bus that other devices share. The bus has no
  way to say that it is full: a driver that drops a payload does so silently, and
  every write counts as taken. It brings no bytes back either; what the gimbal
  broadcasts goes through the listener registry into an inbox.

  Neither channel ever waits.
-/
namespace GimbalLink

inductive ChannelKind where
  | serial
  | bus
  deriving DecidableEq, Repr

/-- How urgent a transmission is. A serial port has no use for it. -/
inductive Priority where
  | normal
  | highest
  deriving DecidableEq, Repr

/-- A payload handed to the bus driver. -/
structure BusSend where
  node : UInt8
  priority : Priority
  payload : Bytes
  deriving DecidableEq

/-- The bus as the engine sees it. -/
structure BusLink where
  /-- The gimbal's node. -/
  node : UInt8
  /-- The bus is up. -/
  ready : Bool
  /-- The driver keeps what it is given. -/
  accepting : Bool
  /-- What the driver kept. -/
  sent : List BusSend
  inbox : Inbox
  deriving DecidableEq

namespace BusLink

/-- The transmit space that is told to the writer; the bus has no real figure. -/
def space : Nat := 1000

def new (node : UInt8) (ready : Bool) : BusLink := ⟨node, ready, true, [], none⟩

def write (l : BusLink) (bs : Bytes) (priority : Priority) : BusLink :=
  if l.accepting then { l with sent := l.sent ++ [⟨l.node, priority, bs⟩] } else l

/-- A broadcast arrives in the inbox. -/
def deliver (l : BusLink) (s : BusStatus) : BusLink := { l with inbox := some s }

end BusLink

inductive Channel where
  | serial (port : Port)
  | bus (link : BusLink)
  deriving DecidableEq

namespace Channel

def kind : Channel → ChannelKind
  | serial _ => .serial
  | bus _ => .bus

/-- Queues bytes and tells how many were taken. -/
def write (c : Channel) (bs : Bytes) (priority : Priority) : Channel × Nat :=
  match c with
  | serial port =>
    let (port, n) := port.write bs
    (serial port, n)
  | bus link => (bus (link.write bs priority), bs.length)

/-- Free transmit space. -/
def space : Channel → Nat
  | serial port => port.txSpace
  | bus _ => BusLink.space

/-- Received bytes waiting to be read. -/
def available : Channel → Nat
  | serial port => port.available
  | bus _ => 0

/-- The next received byte. -/
def read : Channel → Channel × Option UInt8
  | serial port =>
    let (port, b) := port.read
    (serial port, b)
  | bus link => (bus link, none)

/-- Whether the channel can be used yet. -/
def isReady : Channel → Bool
  | serial _ => true
  | bus link => link.ready

/-- Takes the latest broadcast. -/
def takeStatus : Channel → Channel × Option BusStatus
  | serial port => (serial port, none)
  | bus link => (bus { link with inbox := none }, link.inbox)

/-! ## The far side

What happens at the far side of a channel while nobody looks. What is meant for the
other kind of channel changes nothing. -/

/-- Bytes arrive at the serial port; tells how many fit. -/
def inject (c : Channel) (bs : Bytes) : Channel × Nat :=
  match c with
  | serial port =>
    let (port, n) := port.inject bs
    (serial port, n)
  | bus link => (bus link, 0)

/-- Limits the serial port's transmit space. -/
def setLimit (c : Channel) (limit : Nat) : Channel :=
  match c with
  | serial port => serial (port.setLimit limit)
  | bus link => bus link

/-- Takes what was written to the serial port. -/
def takeTx (c : Channel) (room : Nat) : Channel × Bytes :=
  match c with
  | serial port =>
    let (port, bs) := port.takeTx room
    (serial port, bs)
  | bus link => (bus link, [])

/-- Changes the bus. -/
def mapBus (c : Channel) (f : BusLink → BusLink) : Channel :=
  match c with
  | serial port => serial port
  | bus link => bus (f link)

/-- The bus goes up or down. -/
def setReady (c : Channel) (ready : Bool) : Channel := c.mapBus ({ · with ready })

/-- The bus driver begins or ceases to keep what it is given. -/
def setAccepting (c : Channel) (accepting : Bool) : Channel := c.mapBus ({ · with accepting })

/-- A broadcast arrives in the inbox. -/
def deliver (c : Channel) (s : BusStatus) : Channel := c.mapBus (·.deliver s)

/-- Takes what the bus driver kept. -/
def takeSent (c : Channel) : Channel × List BusSend :=
  match c with
  | serial port => (serial port, [])
  | bus link => (bus { link with sent := [] }, link.sent)

end Channel

end GimbalLink
