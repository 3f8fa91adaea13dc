import GimbalLink.Channel.Basic
import GimbalLink.Frame.Receiver
import GimbalLink.Message.CommandLayout
/-
  A link: a channel with the receiver of the frames that arrive on it.

  A frame is sent whole or not at all: it is written only if the channel has room
  for it and a small margin. Receiving reads a bounded number of bytes at a time.

  What is proved: encoding never fails on the way out, so a frame is refused for
  want of space alone (`sendFrame_eq`).
-/
namespace GimbalLink

/-- Why a frame was not sent. -/
inductive SendError where
  /-- There is no channel to send on. -/
  | unavailable
  /-- The channel has too little room; the frame is dropped. -/
  | insufficientSpace
  /-- The frame could not be encoded. -/
  | encode (error : FrameError)
  deriving DecidableEq, Repr

structure Link where
  channel : Channel
  receiver : Receiver
  deriving DecidableEq

namespace Link

/-- Bytes read in one pass. -/
def drainLimit : Nat := 128

/-- Room a frame needs beyond its own bytes. -/
def sendMargin : Nat := 2

def new (channel : Channel) : Link := ⟨channel, .new⟩

/-- Sends a frame and tells how many bytes the channel took. -/
def sendFrame (l : Link) (f : Frame) (priority : Priority) : Link × Except SendError Nat :=
  match f.writeTo (List.replicate maxFrame 0) with
  | (_, .error e) => (l, .error (.encode e))
  | (buffer, .ok size) =>
    if l.channel.space < size + sendMargin then (l, .error .insufficientSpace)
    else
      let (channel, n) := l.channel.write (buffer.take size) priority
      ({ l with channel }, .ok n)

def send (l : Link) (c : Command) (priority : Priority) : Link × Except SendError Nat :=
  match c.toFrame .noAck with
  | .error e => (l, .error (.encode e))
  | .ok f => l.sendFrame f priority

/-- Feeds up to `n` waiting bytes to the receiver. What it rejects is dropped. -/
def drain : Nat → Link → Link
  | 0, l => l
  | n + 1, l =>
    match l.channel.read with
    | (_, none) => l
    | (channel, some b) => drain n ⟨channel, (l.receiver.feed b).1⟩

/-- Reads what arrived, up to the limit, and takes the frame that is complete. -/
def receive (l : Link) : Link × Option Frame :=
  let l := drain drainLimit l
  let (receiver, frame) := l.receiver.take
  ({ l with receiver }, frame)

/-- Reads and drops up to `n` bytes. -/
def discard : Nat → Channel → Channel
  | 0, c => c
  | n + 1, c =>
    match c.read with
    | (c, none) => c
    | (c, some _) => discard n c

/-- Drops everything that arrived and starts the receiver over. -/
def flush (l : Link) : Link := ⟨discard l.channel.available l.channel, l.receiver.reset⟩

/-! ## Operations -/

/-- A use of a link, or something that happens at the far side of its channel. -/
inductive Operation where
  | send (c : Command) (priority : Priority)
  | sendFrame (f : Frame) (priority : Priority)
  /-- Writes to the channel past the codec. -/
  | write (bs : Bytes) (priority : Priority)
  /-- Reads from the channel past the receiver. -/
  | read
  | receive
  | flush
  | takeStatus
  | inject (bs : Bytes)
  | setLimit (limit : Nat)
  | takeTx (room : Nat)
  | setReady (ready : Bool)
  | setAccepting (accepting : Bool)
  | deliver (s : BusStatus)
  | takeSent

inductive Outcome where
  | sent (result : Except SendError Nat)
  /-- How many bytes were taken. -/
  | count (n : Nat)
  | byte (b : Option UInt8)
  | frame (f : Option Frame)
  | status (s : Option BusStatus)
  | bytes (bs : Bytes)
  | sends (xs : List BusSend)
  | done

def perform (l : Link) : Operation → Link × Outcome
  | .send c priority =>
    let (l, result) := l.send c priority
    (l, .sent result)
  | .sendFrame f priority =>
    let (l, result) := l.sendFrame f priority
    (l, .sent result)
  | .write bs priority =>
    let (channel, n) := l.channel.write bs priority
    ({ l with channel }, .count n)
  | .read =>
    let (channel, b) := l.channel.read
    ({ l with channel }, .byte b)
  | .receive =>
    let (l, f) := l.receive
    (l, .frame f)
  | .flush => (l.flush, .done)
  | .takeStatus =>
    let (channel, s) := l.channel.takeStatus
    ({ l with channel }, .status s)
  | .inject bs =>
    let (channel, n) := l.channel.inject bs
    ({ l with channel }, .count n)
  | .setLimit limit => ({ l with channel := l.channel.setLimit limit }, .done)
  | .takeTx room =>
    let (channel, bs) := l.channel.takeTx room
    ({ l with channel }, .bytes bs)
  | .setReady ready => ({ l with channel := l.channel.setReady ready }, .done)
  | .setAccepting accepting => ({ l with channel := l.channel.setAccepting accepting }, .done)
  | .deliver s => ({ l with channel := l.channel.deliver s }, .done)
  | .takeSent =>
    let (channel, xs) := l.channel.takeSent
    ({ l with channel }, .sends xs)

theorem sendFrame_eq (l : Link) (f : Frame) (priority : Priority) :
    l.sendFrame f priority =
      if l.channel.space < f.size + sendMargin then (l, .error .insufficientSpace)
      else ({ l with channel := (l.channel.write f.toBytes priority).1 },
        .ok (l.channel.write f.toBytes priority).2) := by
  simp only [sendFrame, Frame.writeTo_maxFrame, Frame.take_size]

end Link

end GimbalLink
