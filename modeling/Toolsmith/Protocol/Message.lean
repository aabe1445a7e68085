import Toolsmith.Json.Shape
import Toolsmith.Protocol.Error

/-! # Messages

A request asks for a method; without an identifier it is a notification, which is not answered. A
response carries a result or an error. Requests are read from text in one pass, so that a fault is
reported at the place where it shows, whether it is one of the text or of the shape.
-/

namespace Toolsmith

open Json

/-- The version of the message format. -/
def messageVersion : String := "2.0"

/-- A request or notification. -/
structure Request where
  jsonrpc : String
  id : Option Json
  method : String
  params : Option Json
deriving Repr, Inhabited

namespace Request

/-- A request. -/
def call (id : Json) (method : String) (params : Option Json) : Request :=
  ⟨messageVersion, some id, method, params⟩

/-- A notification. -/
def notification (method : String) : Request := ⟨messageVersion, none, method, none⟩

/-- How a request is called in messages. -/
def title : String := "struct Request"

/-- Read a request from a value. -/
def decoder : Decoder Request :=
  (Request.mk <$> Record.required "jsonrpc" .string <*> Record.omissible "id" .any <*>
    Record.required "method" .string <*> Record.omissible "params" .any).decoder title

/-- A request as it is sent. -/
def encode (request : Request) : Json :=
  .object <| [("jsonrpc", .string request.jsonrpc)] ++ memberIf "id" request.id ++
    [("method", .string request.method)] ++ memberIf "params" request.params

end Request

namespace Json.Scan

variable {α : Type}

/-- Stop at a value of the wrong type. A value without parts is read first. -/
def wrongType (expected : String) : Scan α := do
  let refuse (found : Found) : Scan α := stop (.shape (.wrongType found expected))
  match ← peek with
  | some 'n' => word "null".toList; refuse .null
  | some 't' => word "true".toList; refuse (.bool true)
  | some 'f' => word "false".toList; refuse (.bool false)
  | some '"' => skip; refuse (.string (← string))
  | some '[' => refuse .sequence
  | some '\x7b' => refuse .map
  | some '-' => skip; refuse (.number (← number true))
  | some c =>
    if isDigit c then refuse (.number (← number false)) else stopAt .noValue
  | none => stopAt .noValue

/-- A string. -/
def text : Scan String := do
  match ← peek with
  | none => stopAt .valueEnded
  | some '"' => skip; string
  | some _ => wrongType "a string"

/-- A value inside a request; `null` stands for none. -/
def optionalValue : Scan (Option Json) := do
  match ← value (depthLimit - 1) with
  | .null => return none
  | found => return some found

/-- Stop with an error of shape inside an object or list, past its closing mark when that stands
next. -/
def stopInside (closing : Char) (error : ShapeError) : Scan α := do
  if (← peek) = some closing then skip
  stop (.shape error)

/-- The members of a request that were read so far. -/
structure RequestParts where
  jsonrpc : Option String := none
  id : Option (Option Json) := none
  method : Option String := none
  params : Option (Option Json) := none

/-- The next member of a request. Members of other names are skipped. -/
def requestMember (name : String) (parts : RequestParts) : Scan RequestParts := do
  let once {β : Type} (found : Option β) (read : Scan β) : Scan β :=
    if found.isSome then stopInside '\x7d' (.duplicateField name)
    else do
      colon
      read
  match name with
  | "jsonrpc" => return { parts with jsonrpc := some (← once parts.jsonrpc text) }
  | "id" => return { parts with id := some (← once parts.id optionalValue) }
  | "method" => return { parts with method := some (← once parts.method text) }
  | "params" => return { parts with params := some (← once parts.params optionalValue) }
  | _ =>
    colon
    skipValue
    return parts

/-- The next member of a request, or the end of its object. -/
def requestStep : Bool × RequestParts → Scan ((Bool × RequestParts) ⊕ RequestParts)
  | (first, parts) => do
    match ← nextName first with
    | some name => return .inl (false, ← requestMember name parts)
    | none =>
      skip
      return .inr parts

/-- A request as an object, after its opening brace. -/
def requestObject : Scan Request := do
  let parts ← loop requestStep (true, {})
  let some jsonrpc := parts.jsonrpc | stop (.shape (.missingField "jsonrpc"))
  let some method := parts.method | stop (.shape (.missingField "method"))
  return ⟨jsonrpc, parts.id.join, method, parts.params.join⟩

/-- The next item of a list, or what stands in for it where the list ends. -/
def itemOr (first : Bool) (item other : Scan α) : Scan α := do
  if ← moreItems first then item else other

/-- The end of a request as a list. -/
def requestListEnd : Scan Unit := do
  match ← peek with
  | some ']' => skip
  | some ',' =>
    skip
    stopAt (if (← peek) = some ']' then .trailingComma else .trailingCharacters)
  | some _ => stopAt .trailingCharacters
  | none => stopAt .listEnded

/-- A request as a list of its members in order, after its opening bracket. The identifier and the
parameters may be left out at the end. -/
def requestList : Scan Request := do
  let tooShort {β : Type} (count : Nat) : Scan β :=
    stopInside ']' (.wrongLength count (Request.title ++ " with 4 elements"))
  let jsonrpc ← itemOr true text (tooShort 0)
  let id ← itemOr false optionalValue (pure none)
  let method ← itemOr false text (tooShort 2)
  let params ← itemOr false optionalValue (pure none)
  requestListEnd
  return ⟨jsonrpc, id, method, params⟩

/-- A request. -/
def request : Scan Request := do
  match ← peek with
  | none => stopAt .valueEnded
  | some '[' => skip; requestList
  | some '\x7b' => skip; requestObject
  | some _ => wrongType Request.title

end Json.Scan

/-- The request that a text writes. -/
def Request.read (text : String) : Except TextError Request := Scan.request.run text

/-- A response: a result or an error under the identifier of the request. -/
structure Response where
  id : Json
  outcome : Except ProtocolError Json

namespace Response

/-- A response with a result. -/
def success (id result : Json) : Response := ⟨id, .ok result⟩

/-- A response with an error. -/
def failure (id : Json) (error : ProtocolError) : Response := ⟨id, .error error⟩

/-- A response as it is sent. -/
def encode (response : Response) : Json :=
  .object [("jsonrpc", .string messageVersion), ("id", response.id),
    match response.outcome with
    | .ok result => ("result", result)
    | .error error => ("error", error.encode)]

/-- The text of a response. -/
def text (response : Response) : String := response.encode.text

end Response

end Toolsmith
