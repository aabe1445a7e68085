import Toolsmith.Samples.Basic

/-! # Sample handlers of tools and methods -/

namespace Toolsmith
namespace Samples

/-- Answers with the argument `text`. -/
def echoHandler : Handler := fun arguments =>
  .ok [.text (((arguments.lookup "text").bind Json.string?).getD "")]

/-- Answers with the number of arguments. -/
def countHandler : Handler := fun arguments => .ok (integerContent arguments.length)

/-- Answers with the arguments as JSON. -/
def dumpHandler : Handler := fun arguments => .ok [.text (Json.object arguments).text]

/-- Answers with the parameters of the handshake. -/
def reflectHandshake (params : HandshakeParams) : Except Failure HandshakeResult :=
  .ok ⟨params.protocolVersion, {}, params.clientInfo⟩

/-- Answers with the cursor as the name of a tool. -/
def reflectTools (params : ListParams) : Except Failure ListToolsResult :=
  .ok ⟨[simpleTool (params.cursor.getD "") "cursor"]⟩

/-- Answers with the name and the arguments of a call. -/
def reflectCall (params : CallToolParams) : Except Failure CallToolResult :=
  .ok (.success [.text params.name, .text (Json.object params.arguments).text])

/-- Answers with the cursor as the place of a resource. -/
def reflectResources (params : ListParams) : Except Failure ListResourcesResult :=
  .ok ⟨[{ name := "cursor", uri := params.cursor.getD "" }]⟩

/-- Refuses a client by name, telling all that is known of it. -/
def refuseClient (refused : Option String) : Hook := fun client capabilities =>
  if refused = some client.name then
    .error <| .error <| .invalidRequest
      (client.name ++ " " ++ client.version ++ " " ++ capabilities.encode.text)
  else .ok ()

end Samples
end Toolsmith
