import Toolsmith.Protocol.Error

/-! # Transports

A transport carries messages between a server and its client. Its state changes with every use;
receiving may find that nothing has arrived yet.
-/

namespace Toolsmith

/-- What is received. -/
inductive Reception where
  | message (text : String)
  /-- The client has gone away. -/
  | gone
  | failed (error : ProtocolError)
  /-- Nothing has arrived yet. -/
  | waiting
deriving DecidableEq, Repr

/-- A transport whose state is a `σ`. -/
structure Transport (σ : Type) where
  receive : σ → Reception × σ
  send : σ → String → Except ProtocolError Unit × σ
  /-- Stop sending. -/
  close : σ → Except ProtocolError Unit × σ

end Toolsmith
