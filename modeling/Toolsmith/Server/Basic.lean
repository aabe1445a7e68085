import Toolsmith.Protocol.Message
import Toolsmith.Protocol.Method

/-! # Servers

A server holds tools, resources and handlers of methods, and answers messages. Handlers are
functions of their arguments, so that answering a message is a function of the server and the
message; all that a message may change is whether the handshake was done.
-/

namespace Toolsmith

open Json

/-- A tool with the function that runs it, if there is one. -/
structure RegisteredTool where
  tool : Tool
  handler : Option Handler

/-- What answers a method in place of the server itself. -/
abbrev Responder := Option Json → Except Failure Json

/-- What runs when a client introduces itself. -/
abbrev Hook := Implementation → ClientCapabilities → Except Failure Unit

/-- A server. -/
structure Server where
  info : Implementation
  capabilities : ServerCapabilities
  configuration : Configuration
  registered : List RegisteredTool := []
  resources : List Resource := []
  /-- The responders by the names of their methods. -/
  responders : List (String × Responder) := []
  hook : Option Hook := none
  /-- A client has introduced itself. -/
  initialized : Bool := false

namespace Server

/-- A server without tools. -/
def make (name version : String) (capabilities : ServerCapabilities)
    (configuration : Configuration) : Server where
  info := ⟨name, version⟩
  capabilities := capabilities
  configuration := configuration

/-- The tools, in the order of their first registration. -/
def tools (server : Server) : List Tool := server.registered.map (·.tool)

/-- Put a tool in the place of the one with its name, or at the end. -/
def place (entry : RegisteredTool) : List RegisteredTool → List RegisteredTool
  | [] => [entry]
  | other :: rest =>
    if other.tool.name = entry.tool.name then entry :: rest else other :: place entry rest

/-- Register a tool. One without a handler is listed and fails when it is called. -/
def registerTool (server : Server) (tool : Tool) (handler : Option Handler) : Server :=
  { server with registered := place ⟨tool, handler⟩ server.registered }

/-- Register a resource. -/
def registerResource (server : Server) (resource : Resource) : Server :=
  { server with resources := server.resources ++ [resource] }

/-- Register every tool of a toolbox, to be run by it. -/
def registerToolbox (server : Server) (toolbox : Toolbox) : Server :=
  toolbox.tools.foldl (fun server tool =>
    server.registerTool tool (some (toolbox.call tool.name))) server

/-- Read the parameters of a method. Absent ones are read as an empty object. -/
def readParams {π : Type} (decoder : Decoder π) (params : Option Json) : Except Failure π :=
  (decoder.decode (params.getD .empty)).mapError fun error =>
    .error (.invalidParams error.message)

/-- A handler of a method as a responder. -/
def responder {π ρ : Type} (method : Method π ρ) (handler : π → Except Failure ρ) : Responder :=
  fun params => do
    let result ← handler (← readParams method.params params)
    return (method.encode result).sorted

/-- Set the value of a name in a list of pairs. -/
def assign {α : Type} (name : String) (value : α) (pairs : List (String × α)) : List (String × α) :=
  (name, value) :: pairs.filter (·.1 ≠ name)

/-- Answer a method with a handler in place of the server itself. -/
def handleMethod {π ρ : Type} (server : Server) (method : Method π ρ)
    (handler : π → Except Failure ρ) : Server :=
  { server with responders := assign method.name (responder method handler) server.responders }

/-- Run the hook for a client and introduce the server. -/
def greet (server : Server) (params : HandshakeParams) : Except Failure HandshakeResult := do
  if let some hook := server.hook then hook params.clientInfo params.capabilities
  return ⟨protocolVersion, server.capabilities, server.info⟩

/-- Run the tool with a name. A tool that fails is answered with a result that says so. -/
def callTool (server : Server) (params : CallToolParams) : Except Failure CallToolResult :=
  match server.registered.find? (·.tool.name == params.name) with
  | none => .error (.error (.toolNotFound params.name))
  | some ⟨_, none⟩ => .error (.error (.toolImplementationRequired params.name))
  | some ⟨_, some handler⟩ =>
    match handler params.arguments with
    | .ok content => .ok (.success content)
    | .error (.error error) => .ok (.failure error.message)
    | .error .crash => .error .crash

/-- The answer of the server itself to a method. -/
def builtIn (server : Server) (method : String) : Responder :=
  if method = Method.handshake.name then responder Method.handshake server.greet
  else if method = Method.ping.name then fun _ => .ok .empty
  else if method = Method.listTools.name then
    responder Method.listTools fun _ => .ok ⟨server.tools⟩
  else if method = Method.callTool.name then responder Method.callTool server.callTool
  else if method = Method.listResources.name then
    responder Method.listResources fun _ => .ok ⟨server.resources⟩
  else fun _ => .error (.error (.methodNotFound ("Method not found: " ++ method)))

/-- Whether a strict server refuses a method until the handshake is done. -/
def isGated (method : String) : Bool :=
  method ≠ Method.handshake.name && method ≠ Method.ping.name

/-- The result of a method. -/
def dispatch (server : Server) (method : String) (params : Option Json) : Except Failure Json :=
  if server.configuration.strict && !server.initialized && isGated method then
    .error (.error (.invalidRequest ("`" ++ method ++ "` received before initialization")))
  else
    match server.responders.lookup method with
    | some responder => responder params
    | none => server.builtIn method params

/-- What becomes of a message. -/
inductive Reaction where
  | silence
  | answer (response : Response)
  /-- User code crashed. -/
  | crash

/-- A successful handshake leaves its mark. -/
def afterMethod (server : Server) (method : String) (result : Except Failure Json) : Server :=
  { server with
    initialized := server.initialized || (method == Method.handshake.name && result.isOk) }

/-- Answer a request, or do nothing about a notification. -/
def handleRequest (server : Server) (request : Request) : Reaction × Server :=
  match request.id with
  | none => (.silence, server)
  | some id =>
    if request.jsonrpc ≠ messageVersion then
      (.answer (.failure id (.invalidRequest ("unsupported version `" ++ request.jsonrpc ++ "`"))),
        server)
    else
      let result := server.dispatch request.method request.params
      let reaction := match result with
        | .ok value => Reaction.answer (.success id value)
        | .error (.error error) => .answer (.failure id error)
        | .error .crash => .crash
      (reaction, server.afterMethod request.method result)

/-- Answer a message. -/
def handle (server : Server) (message : String) : Reaction × Server :=
  match Request.read message with
  | .ok request => server.handleRequest request
  | .error error => (.answer (.failure .null (.parse error.message)), server)

end Server

end Toolsmith
