import Toolsmith.Json.Scan

/-! # Errors of the protocol

An error is answered to the client under a code, or ends the loop that serves it. User code fails
with an error or crashes; a crash is not an answer.
-/

namespace Toolsmith

/-- An error while serving a client. -/
inductive ProtocolError where
  | parse (text : String)
  | invalidRequest (text : String)
  /-- The text is told as it is. -/
  | methodNotFound (text : String)
  | invalidParams (text : String)
  | internal (text : String)
  | transport (text : String)
  | closed
  | json (error : Json.TextError)
deriving DecidableEq, Repr

namespace ProtocolError

/-- The text of the error. -/
def message : ProtocolError → String
  | .parse text => "Parse error: " ++ text
  | .invalidRequest text => "Invalid request: " ++ text
  | .methodNotFound text => text
  | .invalidParams text => "Invalid params: " ++ text
  | .internal text => "Internal error: " ++ text
  | .transport text => "Transport error: " ++ text
  | .closed => "Connection closed"
  | .json error => error.message

/-- The code under which the error is answered. -/
def code : ProtocolError → Int
  | .parse _ | .json _ => -32700
  | .invalidRequest _ => -32600
  | .methodNotFound _ => -32601
  | .invalidParams _ => -32602
  | .internal _ | .transport _ | .closed => -32603

/-- A tool was called that no one registered. -/
def toolNotFound (name : String) : ProtocolError := .methodNotFound ("Tool not found: " ++ name)

/-- A tool is known and has no handler. -/
def toolImplementationRequired (name : String) : ProtocolError :=
  .methodNotFound ("Tool implementation required: " ++ name)

/-- The error as it is answered. -/
def encode (error : ProtocolError) : Json :=
  .object [("code", .integer error.code), ("message", .string error.message)]

end ProtocolError

/-- How user code may fail. -/
inductive Failure where
  | error (error : ProtocolError)
  | crash
deriving DecidableEq, Repr

end Toolsmith
