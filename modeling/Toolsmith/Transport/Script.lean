import Toolsmith.Transport.Basic

/-! # Scripted transports

A transport that plays back what a client does and logs what the server sends. It can be told to
fail.
-/

namespace Toolsmith

/-- What a client does. -/
inductive ScriptEvent where
  | message (text : String)
  | failure (error : ProtocolError)
  /-- It goes away. -/
  | leave
deriving DecidableEq, Repr

/-- What is received when an event happens. -/
def ScriptEvent.reception : ScriptEvent → Reception
  | .message text => .message text
  | .failure error => .failed error
  | .leave => .gone

/-- A transport that plays back events. After the last one it waits. -/
structure Script where
  events : List ScriptEvent
  /-- Sending fails when the log has this length. -/
  failSend : Option Nat := none
  /-- Closing fails. -/
  failClose : Bool := false
  /-- What was sent, and a mark when it was closed. -/
  log : List String := []
deriving DecidableEq, Repr, Inhabited

namespace Script

/-- The mark that a log gets when its script is closed. -/
def closedMark : String := "<closed>"

/-- The next event. -/
def receive (script : Script) : Reception × Script :=
  match script.events with
  | [] => (.waiting, script)
  | event :: rest => (event.reception, { script with events := rest })

/-- Log a message. -/
def send (script : Script) (text : String) : Except ProtocolError Unit × Script :=
  if script.failSend = some script.log.length then (.error (.transport "send failed"), script)
  else (.ok (), { script with log := script.log ++ [text] })

/-- Log that the script was closed. -/
def close (script : Script) : Except ProtocolError Unit × Script :=
  if script.failClose then (.error (.transport "close failed"), script)
  else (.ok (), { script with log := script.log ++ [closedMark] })

/-- A script as a transport. -/
def transport : Transport Script where
  receive := receive
  send := send
  close := close

end Script

end Toolsmith
