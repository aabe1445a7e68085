import Toolsmith.Server.Basic
import Toolsmith.Transport.Basic

/-! # Serving a client

The loop receives a message, answers it, and goes on until the client goes away, the server is
asked to stop, or something fails. Only the first two close the transport.
-/

namespace Toolsmith

/-- Where a loop stands. -/
inductive LoopStatus where
  /-- Nothing more to receive for now. -/
  | waiting
  | ended (result : Except ProtocolError Unit)

/-- A server and its transport while a loop runs. -/
structure LoopState (σ : Type) where
  status : LoopStatus
  server : Server
  link : σ

namespace Loop

variable {σ : Type} (transport : Transport σ)

/-- The error of a loop in which user code crashed. -/
def crashError : ProtocolError := .internal "server task panicked"

/-- End a loop by closing its transport. -/
def finish (server : Server) (link : σ) : LoopState σ :=
  let (result, link) := transport.close link
  ⟨.ended result, server, link⟩

/-- Receive and answer at most `fuel` messages. -/
def run : Nat → Server → σ → LoopState σ
  | 0, server, link => ⟨.waiting, server, link⟩
  | fuel + 1, server, link =>
    match transport.receive link with
    | (.waiting, link) => ⟨.waiting, server, link⟩
    | (.failed error, link) => ⟨.ended (.error error), server, link⟩
    | (.gone, link) => finish transport server link
    | (.message text, link) =>
      match server.handle text with
      | (.crash, server) => ⟨.ended (.error crashError), server, link⟩
      | (.silence, server) => run fuel server link
      | (.answer response, server) =>
        match transport.send link response.text with
        | (.error error, link) => ⟨.ended (.error error), server, link⟩
        | (.ok (), link) => run fuel server link

end Loop

end Toolsmith
