import Toolsmith.Json.Shape

/-! # The two sides of a connection

Who a peer is, what it offers, and how a server treats its client.
-/

namespace Toolsmith

open Json

/-- The name and version of a peer. -/
structure Implementation where
  name : String
  version : String
deriving DecidableEq, Repr, Inhabited

namespace Implementation

/-- Read the name and version of a peer. -/
def decoder : Decoder Implementation :=
  (Implementation.mk <$> Record.required "name" .string <*>
    Record.required "version" .string).decoder "struct Implementation"

/-- The name and version of a peer as they are sent. -/
def encode (peer : Implementation) : Json :=
  .object [("name", .string peer.name), ("version", .string peer.version)]

end Implementation

/-- Lists of a kind are offered. -/
structure ListCapability where
  listChanged : Bool := false
deriving DecidableEq, Repr, Inhabited

namespace ListCapability

/-- Read what is offered about lists, called by its title. -/
def decoder (title : String) : Decoder ListCapability :=
  (ListCapability.mk <$> Record.withDefault "listChanged" .boolean false).decoder title

/-- What is offered about lists as it is sent. -/
def encode (capability : ListCapability) : Json :=
  .object [("listChanged", .bool capability.listChanged)]

end ListCapability

/-- Resources are offered. -/
structure ResourcesCapability where
  subscribe : Bool := false
  listChanged : Bool := false
deriving DecidableEq, Repr, Inhabited

namespace ResourcesCapability

/-- Read what is offered about resources. -/
def decoder : Decoder ResourcesCapability :=
  (ResourcesCapability.mk <$> Record.withDefault "subscribe" .boolean false <*>
    Record.withDefault "listChanged" .boolean false).decoder "struct ResourcesCapability"

/-- What is offered about resources as it is sent. -/
def encode (capability : ResourcesCapability) : Json :=
  .object [("subscribe", .bool capability.subscribe),
    ("listChanged", .bool capability.listChanged)]

end ResourcesCapability

/-- Logging is offered. -/
structure LoggingCapability where
deriving DecidableEq, Repr, Inhabited

namespace LoggingCapability

/-- Read that logging is offered. -/
def decoder : Decoder LoggingCapability :=
  (pure LoggingCapability.mk : Record LoggingCapability).decoder "struct LoggingCapability"

/-- The offer of logging as it is sent. -/
def encode (_ : LoggingCapability) : Json := .empty

end LoggingCapability

/-- What a server offers. By default that is tools alone. -/
structure ServerCapabilities where
  tools : Option ListCapability := some {}
  resources : Option ResourcesCapability := none
  prompts : Option ListCapability := none
  logging : Option LoggingCapability := none
deriving DecidableEq, Repr, Inhabited

namespace ServerCapabilities

/-- Read what a server offers. -/
def decoder : Decoder ServerCapabilities :=
  (ServerCapabilities.mk <$>
    Record.omissible "tools" (ListCapability.decoder "struct ToolsCapability") <*>
    Record.omissible "resources" ResourcesCapability.decoder <*>
    Record.omissible "prompts" (ListCapability.decoder "struct PromptsCapability") <*>
    Record.omissible "logging" LoggingCapability.decoder).decoder "struct ServerCapabilities"

/-- What a server offers as it is sent. -/
def encode (capabilities : ServerCapabilities) : Json :=
  .object <|
    memberIf "tools" (capabilities.tools.map ListCapability.encode) ++
    memberIf "resources" (capabilities.resources.map ResourcesCapability.encode) ++
    memberIf "prompts" (capabilities.prompts.map ListCapability.encode) ++
    memberIf "logging" (capabilities.logging.map LoggingCapability.encode)

end ServerCapabilities

/-- What a client offers, as it was written. -/
structure ClientCapabilities where
  experimental : Option Json := none
  roots : Option Json := none
  sampling : Option Json := none
deriving Repr, Inhabited

namespace ClientCapabilities

/-- Read what a client offers. -/
def decoder : Decoder ClientCapabilities :=
  (ClientCapabilities.mk <$> Record.omissible "experimental" .any <*>
    Record.omissible "roots" .any <*>
    Record.omissible "sampling" .any).decoder "struct ClientCapabilities"

/-- What a client offers as it is sent. -/
def encode (capabilities : ClientCapabilities) : Json :=
  .object <| memberIf "experimental" capabilities.experimental ++
    memberIf "roots" capabilities.roots ++ memberIf "sampling" capabilities.sampling

end ClientCapabilities

/-- How a server treats its client. -/
structure Configuration where
  /-- Refuse all requests but the handshake and pings until the handshake is done. -/
  strict : Bool := false
deriving DecidableEq, Repr, Inhabited

namespace Configuration

/-- Read how a server treats its client. -/
def decoder : Decoder Configuration :=
  (Configuration.mk <$> Record.withDefault "strict" .boolean false).decoder "struct Configuration"

/-- How a server treats its client as it is sent. -/
def encode (configuration : Configuration) : Json :=
  .object [("strict", .bool configuration.strict)]

end Configuration

end Toolsmith
