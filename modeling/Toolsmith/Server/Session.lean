import Toolsmith.Server.Lifecycle
import Toolsmith.Server.Loop
import Toolsmith.Transport.Channel
import Toolsmith.Transport.Lines
import Toolsmith.Transport.Script

/-! # Sessions

A server together with its life and the transport it was started on. After every operation the
loop runs until it has nothing to do (`Session.settle`).
-/

namespace Toolsmith

/-- What a server is started on. -/
inductive Link where
  | unlinked
  /-- The server has the right end, its client the left one. -/
  | channel (channel : Channel)
  | script (script : Script)

/-- A server with its life and its transport. -/
structure Session where
  server : Server
  life : Lifecycle := {}
  link : Link := .unlinked
  /-- What was sent to a script. -/
  log : List String := []

namespace Session

/-- Run the loop until it waits or ends; close it when the server was asked to stop. -/
def advance {σ : Type} (transport : Transport σ) (fuel : Nat) (session : Session) (link : σ) :
    LoopState σ :=
  if session.life.stopping then Loop.finish transport session.server link
  else Loop.run transport fuel session.server link

/-- The life of a server after its loop ran. -/
def lifeAfter (life : Lifecycle) : LoopStatus → Lifecycle
  | .waiting => life
  | .ended result => life.finish result

/-- Let the loop run until it has nothing to do. When it ends, the server's end is dropped. -/
def settle (session : Session) : Session :=
  if !session.life.isRunning then session
  else
    match session.link with
    | .unlinked => session
    | .channel channel =>
      let state := session.advance (Channel.transport .right)
        ((channel.incoming .right).queue.length + 1) channel
      let life := lifeAfter session.life state.status
      let channel := if life.ended then state.link.drop .right else state.link
      { session with server := state.server, life := life, link := .channel channel }
    | .script script =>
      let state := session.advance Script.transport (script.events.length + 1) script
      { session with
        server := state.server
        life := lifeAfter session.life state.status
        link := .script state.link
        log := state.link.log }

/-- Start the server on a link. A hook is kept even when the server was already started. -/
def startOn (session : Session) (hook : Option Hook) (link : Link) :
    Except ProtocolError Unit × Session :=
  let server := match hook with
    | some hook => { session.server with hook := some hook }
    | none => session.server
  match session.life.start with
  | (.error error, life) => (.error error, { session with server := server, life := life })
  | (.ok (), life) =>
    (.ok (), { session with server := server, life := life, link := link }.settle)

/-- Start the server on a channel whose other end is the client's. Some messages were sent
before. -/
def start (session : Session) (hook : Option Hook) (queued : List String) :
    Except ProtocolError Unit × Session :=
  session.startOn hook (.channel { fromLeft := { queue := queued } })

/-- Start the server on a script. -/
def startScript (session : Session) (hook : Option Hook) (script : Script) :
    Except ProtocolError Unit × Session :=
  session.startOn hook (.script { script with log := session.log })

/-- Ask the server to stop. -/
def stop (session : Session) : Session := { session with life := session.life.stop }.settle

/-- Wait for the server. -/
def wait (session : Session) : WaitResult × Session :=
  let (result, life) := session.life.wait
  (result, { session with life := life })

/-- Hand a message to the server, past its transport. -/
def deliver (session : Session) (message : String) : Server.Reaction × Session :=
  let (reaction, server) := session.server.handle message
  (reaction, { session with server := server })

/-- Use the client's end of the channel, if there is one that was not dropped. -/
def onClient {α : Type} (session : Session) (use : Channel → α × Channel) : Option (α × Session) :=
  match session.link with
  | .channel channel =>
    if channel.isDropped .left then none
    else
      let (value, channel) := use channel
      some (value, { session with link := .channel channel }.settle)
  | _ => none

/-- The client sends a message. -/
def clientSend (session : Session) (text : String) : Option (Except ProtocolError Unit × Session) :=
  session.onClient fun channel => channel.send .left text

/-- The client receives a message. -/
def clientReceive (session : Session) : Option (Reception × Session) :=
  session.onClient fun channel => channel.receive .left

/-- The client closes its end. -/
def clientClose (session : Session) : Option (Unit × Session) :=
  session.onClient fun channel => ((), channel.close .left)

/-- The client drops its end. -/
def clientDrop (session : Session) : Option (Unit × Session) :=
  session.onClient fun channel => ((), channel.drop .left)

end Session

/-- What a program that serves over the standard streams leaves behind. -/
structure ProgramResult where
  output : List String
  /-- It ended with an error. -/
  failed : Bool
deriving DecidableEq, Repr

/-- Serve a client over the standard streams until its messages end. -/
def Server.runOnLines (server : Server) (input : List UInt8) : ProgramResult :=
  let stream := LineStream.ofBytes input
  let state := Loop.run LineStream.transport (stream.input.length + 1) server stream
  match state.status with
  | .ended (.ok ()) | .waiting => ⟨state.link.output, false⟩
  | .ended (.error _) => ⟨state.link.output, true⟩

end Toolsmith
