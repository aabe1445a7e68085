import Toolsmith.Transport.Basic

/-! # Channels

A channel has two ends; what is sent at one is received at the other, in order. Closing an end only
stops sending: what was sent before is still received. Dropping an end also stops receiving.
-/

namespace Toolsmith

/-- One direction of a channel. -/
structure Pipe where
  /-- What was sent and not yet received. -/
  queue : List String := []
  /-- The sending end is open. -/
  canSend : Bool := true
  /-- The receiving end is there. -/
  canReceive : Bool := true
deriving DecidableEq, Repr, Inhabited

namespace Pipe

/-- Send a message. -/
def send (pipe : Pipe) (text : String) : Except ProtocolError Unit × Pipe :=
  if pipe.canSend && pipe.canReceive then
    (.ok (), { pipe with queue := pipe.queue ++ [text] })
  else (.error .closed, pipe)

/-- Receive the message sent first. -/
def receive (pipe : Pipe) : Reception × Pipe :=
  match pipe.queue with
  | text :: rest => (.message text, { pipe with queue := rest })
  | [] => (if pipe.canSend then .waiting else .gone, pipe)

/-- Close the sending end. -/
def close (pipe : Pipe) : Pipe := { pipe with canSend := false }

/-- Drop the receiving end. -/
def abandon (pipe : Pipe) : Pipe := { pipe with canReceive := false }

end Pipe

/-- The two ends of a channel. -/
inductive Side where
  | left
  | right
deriving DecidableEq, Repr

/-- A channel: a pipe out of each end. -/
structure Channel where
  fromLeft : Pipe := {}
  fromRight : Pipe := {}
deriving DecidableEq, Repr, Inhabited

namespace Channel

/-- The pipe out of an end. -/
def outgoing (channel : Channel) : Side → Pipe
  | .left => channel.fromLeft
  | .right => channel.fromRight

/-- The pipe into an end. -/
def incoming (channel : Channel) : Side → Pipe
  | .left => channel.fromRight
  | .right => channel.fromLeft

/-- Replace the pipe out of an end. -/
def setOutgoing (channel : Channel) (side : Side) (pipe : Pipe) : Channel :=
  match side with
  | .left => { channel with fromLeft := pipe }
  | .right => { channel with fromRight := pipe }

/-- Replace the pipe into an end. -/
def setIncoming (channel : Channel) (side : Side) (pipe : Pipe) : Channel :=
  match side with
  | .left => { channel with fromRight := pipe }
  | .right => { channel with fromLeft := pipe }

/-- Send a message at an end. -/
def send (channel : Channel) (side : Side) (text : String) :
    Except ProtocolError Unit × Channel :=
  let (result, pipe) := (channel.outgoing side).send text
  (result, channel.setOutgoing side pipe)

/-- Receive a message at an end. -/
def receive (channel : Channel) (side : Side) : Reception × Channel :=
  let (reception, pipe) := (channel.incoming side).receive
  (reception, channel.setIncoming side pipe)

/-- Close an end. -/
def close (channel : Channel) (side : Side) : Channel :=
  channel.setOutgoing side (channel.outgoing side).close

/-- Drop an end. -/
def drop (channel : Channel) (side : Side) : Channel :=
  (channel.close side).setIncoming side (channel.incoming side).abandon

/-- Whether an end was dropped. -/
def isDropped (channel : Channel) (side : Side) : Bool := !(channel.incoming side).canReceive

/-- An end of a channel as a transport. -/
def transport (side : Side) : Transport Channel where
  receive channel := channel.receive side
  send channel text := channel.send side text
  close channel := (.ok (), channel.close side)

end Channel

end Toolsmith
