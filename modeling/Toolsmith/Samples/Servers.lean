import Toolsmith.Samples.Handlers
import Toolsmith.Server.Session

/-! # Sample servers -/

namespace Toolsmith
namespace Samples

/-- The members of a calculator. -/
def calculatorOutline : Outline where
  typeName := "Calculator"
  entryPoint := false
  members :=
    [toolProperty "add" false none, toolProperty "negate" false none,
     toolProperty "divide" false none, plainFunction "add_handler" false true,
     plainFunction "negate_handler" false false, plainFunction "on_initialize" false true]

/-- What the functions of the calculator do. -/
def calculatorProgram : Program where
  accessor := accessorOf
    [("add", simpleTool "add" "Add two numbers"), ("negate", simpleTool "negate" "Negate a number"),
     ("divide", simpleTool "divide" "Not implemented yet")]
  handler := handlerOf
    [("add_handler", fun arguments => do
        let a ← integerArgument arguments "a"
        let b ← integerArgument arguments "b"
        return integerContent (wrap (a + b))),
     ("negate_handler", fun arguments => do
        return integerContent (wrap (-(← integerArgument arguments "value"))))]
  setup := fun _ => { name := "calculator", version := "2.0.0" }

/-- The settings of the calculator. -/
def calculatorSettings : Settings where
  name := stringExpression "calculator"
  version := stringExpression "2.0.0"
  capabilities := defaultExpression "ServerCapabilities"
  configuration := defaultExpression "Configuration"

/-- The hook of the calculator refuses one client. -/
def calculatorHook : Hook := fun client _ =>
  if client.name = "rejected" then .error (.error (.invalidRequest "client not allowed"))
  else .ok ()

/-- The calculator. -/
def calculator : Server :=
  calculatorProgram.createServer calculatorSettings calculatorOutline

/-- A server outside any type, without tools. -/
def loose : Server := Setup.server { name := "loose", version := "0.0.1" }

/-- A server whose tools and handlers are members of a type. -/
structure MemberServer where
  setup : Setup
  tools : List Tool
  register : Server → List Tool → Server

/-- The server, ready to be started. -/
def MemberServer.server (member : MemberServer) : Server :=
  member.register member.setup.server member.tools

/-- A server with two tools that have no handlers. -/
def echo : MemberServer where
  setup := { name := "echo", version := "0.3.0" }
  tools :=
    [simpleTool "echo" "Echo the given text", simpleTool "shout" "Echo the given text in capitals"]
  register := Server.registerHandlers

/-- A server with all defaults and no tools. -/
def silent : MemberServer where
  setup := { name := "MCPServer", version := "1.0.0" }
  tools := []
  register := Server.registerHandlers

/-- A strict server that registers its tools itself. -/
def strict : MemberServer where
  setup := { name := "strict", version := "0.9", capabilities := { tools := none },
             configuration := { strict := true } }
  tools := [simpleTool "count" "Counts its arguments"]
  register server tools :=
    (tools.foldl (fun server tool => server.registerTool tool (some countHandler))
      server).registerResource { name := "log", uri := "file:///log" }

end Samples
end Toolsmith
