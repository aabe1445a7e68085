import Toolsmith.Protocol.Error

/-! # The life of a server

A server is started once. Whoever waits for it is told when its loop has ended; the error that
ended it is told to the first only.
-/

namespace Toolsmith

/-- How far the life of a server has come. -/
structure Lifecycle where
  started : Bool := false
  /-- It was asked to stop. -/
  stopping : Bool := false
  /-- Its loop has ended. -/
  ended : Bool := false
  /-- How its loop ended, until someone was told. -/
  outcome : Option (Except ProtocolError Unit) := none

/-- What someone who waits for a server learns. -/
inductive WaitResult where
  | pending
  | done (result : Except ProtocolError Unit)

namespace Lifecycle

/-- The error of a second start. -/
def alreadyStarted : ProtocolError := .internal "server already started"

/-- Start, unless that was done before. -/
def start (life : Lifecycle) : Except ProtocolError Unit × Lifecycle :=
  if life.started then (.error alreadyStarted, life) else (.ok (), { life with started := true })

/-- Ask to stop. -/
def stop (life : Lifecycle) : Lifecycle := { life with stopping := true }

/-- The loop has ended. -/
def finish (life : Lifecycle) (result : Except ProtocolError Unit) : Lifecycle :=
  { life with ended := true, outcome := some result }

/-- Wait for the end of the loop. A server that was never started is not waited for. -/
def wait (life : Lifecycle) : WaitResult × Lifecycle :=
  if !life.started then (.done (.ok ()), life)
  else if !life.ended then (.pending, life)
  else (.done (life.outcome.getD (.ok ())), { life with outcome := none })

/-- Whether the loop is running. -/
def isRunning (life : Lifecycle) : Bool := life.started && !life.ended

end Lifecycle

end Toolsmith
