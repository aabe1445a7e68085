import Toolsmith.Expansion.Evaluation
import Toolsmith.Expansion.MemberSet
import Toolsmith.Expansion.PeerSet
import Toolsmith.Expansion.Toolbox

/-! # What expansions make at run time

Given what the functions of a block do (`Program`), the functions that an expansion made are run to
give a toolbox or a server. A function that the block declares itself is run in place of a made one
of the same name.
-/

namespace Toolsmith

open Source

/-- What the code of a user does. -/
structure Program where
  /-- The tool that a property describes. -/
  accessor : String → Tool
  /-- What a function does with the arguments of a tool. -/
  handler : String → Handler
  /-- What the block's own function that describes the toolbox returns. -/
  info : ToolboxInfo := default
  /-- What the block's own function that lists the tools returns. -/
  listing : List Tool := []
  /-- What the block's own function that runs tools by name does. -/
  dispatch : String → Handler := fun name _ => .error (.error (.toolNotFound name))
  /-- What the code of the arguments that a server is made from comes to. -/
  setup : List Tree → Setup := fun _ => { name := "", version := "" }

namespace Source

/-- The first function with a name. -/
def Function.named? (functions : List Function) (name : String) : Option Function :=
  functions.find? (·.sig.ident.name == name)

/-- The functions of a block that have a body. -/
def ImplBlock.functions (block : ImplBlock) : List Function :=
  block.members.filterMap fun
    | .function item => some item
    | _ => none

end Source

namespace Program

/-- What a function that the block declares does. -/
def own (program : Program) (outline : Outline) (function : String) :
    List Value → Option Value
  | [] =>
    if outline.members.any fun member => member.kind == .property && member.name == function then
      some (.tool (program.accessor function))
    else if function = "get_toolbox_info" then some (.info program.info)
    else if function = "get_tools" then some (.list (program.listing.map .tool))
    else none
  | [.arguments arguments] => Value.ofOutcome (program.handler function arguments)
  | [.text name, .arguments arguments] => Value.ofOutcome (program.dispatch name arguments)
  | _ => none

/-- The functions that the block declares. -/
def ownScope (program : Program) (outline : Outline) : Scope where
  call function arguments :=
    if outline.declares function then program.own outline function arguments else none
  awaits function := outline.members.any fun member => member.name == function && member.isAsync
  setup := program.setup

/-- The functions that the block declares, and beside them some that were made. -/
def scope (program : Program) (outline : Outline) (made : List Function) : Scope :=
  let own := program.ownScope outline
  { own with
    call := fun function arguments =>
      if outline.declares function then own.call function arguments
      else do
        let item ← Function.named? made function
        item.result? own ((if item.sig.hasReceiver then [.self] else []) ++ arguments) }

end Program

/-- The toolbox that the expansion of a block makes, with the literals that name and describe
it. -/
def Program.toolbox (program : Program) (outline : Outline) (name description : String) : Toolbox :=
  let made := admitted outline (outline.bindings.map executionOf)
  let interface := (conformanceFunctions outline name description).map Generated.function
  let run (function : String) (arguments : List Value) : Option Value := do
    (← Function.named? interface function).result?
      (program.scope outline (made.map Generated.function))
      (.self :: arguments)
  { info := match run "get_toolbox_info" [] with
      | some (.info info) => info
      | _ => default
    tools := ((run "get_tools" []).bind Value.tools?).getD []
    call := fun name arguments => Value.outcome Value.contents?
      (run "handle_tool_call" [.text name, .arguments arguments]) }

/-- The server that the generated factory of a block makes. -/
def Program.createServer (program : Program) (settings : Settings) (outline : Outline) : Server :=
  let factory := Generated.createServer settings (outline.bindings.map registrationOf)
  ((factory.function.result? (program.ownScope outline) []).bind Value.server?).getD
    (Setup.server { name := "", version := "" })

/-- What the generated function that answers the methods about tools makes of a server. It calls no
function of the type. -/
def Server.registerHandlers (server : Server) (tools : List Tool) : Server :=
  (Generated.registerHandlers.function.effect?
    ⟨fun _ _ => none, fun _ => false, fun _ => { name := "", version := "" }⟩
    [.server server, .list (tools.map .tool)] "server").getD server

end Toolsmith
