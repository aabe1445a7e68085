import Toolsmith.Protocol.Peer
import Toolsmith.Protocol.Resource
import Toolsmith.Protocol.Tool

/-! # The methods that a server answers

Each method has a name, and types of parameters and results.
-/

namespace Toolsmith

open Json

/-- The revision of the protocol that is spoken. -/
def protocolVersion : String := "2024-11-05"

/-- The parameters of the handshake. -/
structure HandshakeParams where
  protocolVersion : String
  capabilities : ClientCapabilities
  clientInfo : Implementation
deriving Repr, Inhabited

namespace HandshakeParams

/-- Read the parameters of the handshake. -/
def decoder : Decoder HandshakeParams :=
  (HandshakeParams.mk <$> Record.required "protocolVersion" .string <*>
    Record.withDefault "capabilities" ClientCapabilities.decoder {} <*>
    Record.required "clientInfo" Implementation.decoder).decoder "struct InitializeParams"

/-- The parameters of the handshake as they are sent. -/
def encode (params : HandshakeParams) : Json :=
  .object [("protocolVersion", .string params.protocolVersion),
    ("capabilities", params.capabilities.encode), ("clientInfo", params.clientInfo.encode)]

end HandshakeParams

/-- The result of the handshake. -/
structure HandshakeResult where
  protocolVersion : String
  capabilities : ServerCapabilities
  serverInfo : Implementation
deriving DecidableEq, Repr, Inhabited

namespace HandshakeResult

/-- Read the result of the handshake. -/
def decoder : Decoder HandshakeResult :=
  (HandshakeResult.mk <$> Record.required "protocolVersion" .string <*>
    Record.required "capabilities" ServerCapabilities.decoder <*>
    Record.required "serverInfo" Implementation.decoder).decoder "struct InitializeResult"

/-- The result of the handshake as it is sent. -/
def encode (result : HandshakeResult) : Json :=
  .object [("protocolVersion", .string result.protocolVersion),
    ("capabilities", result.capabilities.encode), ("serverInfo", result.serverInfo.encode)]

end HandshakeResult

/-- The parameters of the methods that list something. Lists are never divided, so the cursor is
ignored. -/
structure ListParams where
  cursor : Option String := none
deriving DecidableEq, Repr, Inhabited

namespace ListParams

/-- Read the parameters of a list. -/
def decoder : Decoder ListParams :=
  (ListParams.mk <$> Record.omissible "cursor" .string).decoder "struct ListParams"

/-- The parameters of a list as they are sent. -/
def encode (params : ListParams) : Json := .object (memberIf "cursor" (params.cursor.map .string))

end ListParams

/-- A list of tools. -/
structure ListToolsResult where
  tools : List Tool
deriving Repr, Inhabited

namespace ListToolsResult

/-- Read a list of tools. -/
def decoder : Decoder ListToolsResult :=
  (ListToolsResult.mk <$> Record.required "tools" (.list Tool.decoder)).decoder
    "struct ListToolsResult"

/-- A list of tools as it is sent. -/
def encode (result : ListToolsResult) : Json :=
  .object [("tools", .array (result.tools.map Tool.encode))]

end ListToolsResult

/-- A list of resources. -/
structure ListResourcesResult where
  resources : List Resource
deriving DecidableEq, Repr, Inhabited

namespace ListResourcesResult

/-- Read a list of resources. -/
def decoder : Decoder ListResourcesResult :=
  (ListResourcesResult.mk <$> Record.required "resources" (.list Resource.decoder)).decoder
    "struct ListResourcesResult"

/-- A list of resources as it is sent. -/
def encode (result : ListResourcesResult) : Json :=
  .object [("resources", .array (result.resources.map Resource.encode))]

end ListResourcesResult

/-- The call of a tool. -/
structure CallToolParams where
  name : String
  arguments : Arguments
deriving Repr, Inhabited

namespace CallToolParams

/-- Read the call of a tool. -/
def decoder : Decoder CallToolParams :=
  (CallToolParams.mk <$> Record.required "name" .string <*>
    Record.withDefault "arguments" .members []).decoder "struct CallToolParams"

/-- The call of a tool as it is sent. -/
def encode (params : CallToolParams) : Json :=
  .object [("name", .string params.name), ("arguments", .object params.arguments)]

end CallToolParams

/-- What a tool answered. -/
structure CallToolResult where
  content : List Content
  /-- The tool ran and failed. -/
  isError : Bool
deriving DecidableEq, Repr, Inhabited

namespace CallToolResult

/-- A tool succeeded. -/
def success (content : List Content) : CallToolResult := ⟨content, false⟩

/-- A tool failed. The failure is told as content, so that the client can show it. -/
def failure (message : String) : CallToolResult := ⟨[.text message], true⟩

/-- Read what a tool answered. -/
def decoder : Decoder CallToolResult :=
  (CallToolResult.mk <$> Record.required "content" (.list Content.decoder) <*>
    Record.withDefault "isError" .boolean false).decoder "struct CallToolResult"

/-- What a tool answered as it is sent. -/
def encode (result : CallToolResult) : Json :=
  .object [("content", .array (result.content.map Content.encode)),
    ("isError", .bool result.isError)]

end CallToolResult

/-- A method with parameters `π` and results `ρ`. -/
structure Method (π ρ : Type) where
  name : String
  params : Decoder π
  encode : ρ → Json

namespace Method

/-- The handshake by which a client introduces itself. -/
def handshake : Method HandshakeParams HandshakeResult :=
  ⟨"initialize", HandshakeParams.decoder, HandshakeResult.encode⟩

/-- A sign of life. -/
def ping : Method Json Json := ⟨"ping", .any, id⟩

/-- List the tools. -/
def listTools : Method ListParams ListToolsResult :=
  ⟨"tools/list", ListParams.decoder, ListToolsResult.encode⟩

/-- Call a tool. -/
def callTool : Method CallToolParams CallToolResult :=
  ⟨"tools/call", CallToolParams.decoder, CallToolResult.encode⟩

/-- List the resources. -/
def listResources : Method ListParams ListResourcesResult :=
  ⟨"resources/list", ListParams.decoder, ListResourcesResult.encode⟩

end Method

end Toolsmith
