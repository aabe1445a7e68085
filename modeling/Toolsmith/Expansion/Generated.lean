import Toolsmith.Marking.Schema
import Toolsmith.Expansion.Draft

/-! # Generated functions

The functions that expansions add to a type, as data: `Generated` says what a function does, and
`Generated.function` writes it as code. How generated code calls a function of the annotated block
is a `Call`.
-/

namespace Toolsmith

open Source

/-- How a function of the block is called. -/
inductive CallStyle where
  /-- `self.f(..)` -/
  | method
  /-- `Self::f(..)` -/
  | associated
  /-- `Self::f(self, ..)` -/
  | associatedWithSelf
deriving DecidableEq, Repr

/-- A call of a function of the block. -/
structure Call where
  style : CallStyle
  callee : Ident
deriving DecidableEq, Repr

/-- The code of a call. -/
def Call.print (target : Call) (arguments : List (List Tree)) : List Tree :=
  match target.style with
  | .method => [name "self"] ++ op "." ++ call [.ident target.callee] arguments
  | .associated => call ([name "Self"] ++ op "::" ++ [.ident target.callee]) arguments
  | .associatedWithSelf =>
    call ([name "Self"] ++ op "::" ++ [.ident target.callee]) ([name "self"] :: arguments)

/-- What running a tool does. -/
inductive Execution where
  | handler (call : Call)
  /-- Answers with a text that names the tool and its arguments. -/
  | placeholder (toolName : String)
deriving DecidableEq, Repr

/-- The settings a server is made from. -/
structure Settings where
  name : Expression
  version : Expression
  capabilities : Expression
  configuration : Expression

/-- The handler that a tool is registered with. -/
inductive HandlerReference where
  | none
  | synchronous (handler : Ident)
  | asynchronous (handler : Ident)
deriving DecidableEq, Repr

/-- The registration of a tool with a server. -/
structure Registration where
  property : Ident
  handler : HandlerReference
deriving DecidableEq, Repr

/-- A function made by an expansion. -/
inductive Generated where
  /-- The entry point of a program. -/
  | main
  /-- Makes a server, registers its handlers and starts it. -/
  | setupServer (settings : Settings)
  /-- Lists the tools by their accessors. -/
  | listTools (accessors : List Ident)
  /-- Answers the methods about tools. -/
  | registerHandlers
  /-- Runs the tool of a property. -/
  | execute (property : String) (execution : Execution)
  /-- Describes the toolbox, itself or through the block. -/
  | toolboxInfo (delegate : Option Call) (name description : String)
  /-- Lists the tools of a toolbox, itself or through the block. -/
  | toolboxTools (delegate : Option Call) (accessors : List Call)
  /-- Runs the tool with a name, itself or through the block. -/
  | toolboxDispatch (delegate : Option Call) (arms : List (String × String)) (idle : Bool)
  /-- Makes a server with its tools. -/
  | createServer (settings : Settings) (registrations : List Registration)
  /-- Makes a server and starts it, possibly with a hook. -/
  | startServer (hook : Bool)
  /-- Starts a server for a value of the type. -/
  | createAndStart
  /-- Makes a server outside any type. -/
  | freeCreateServer (settings : Settings)
  /-- Makes and starts a server outside any type. -/
  | freeStartServer
  /-- The handlers of a server outside any type, none. -/
  | setupHandlers

namespace Generated

/-- The name of the function. -/
def functionName : Generated → String
  | .main => "main"
  | .setupServer _ => "setup_server"
  | .listTools _ => "initialize_tools"
  | .registerHandlers => "register_handlers"
  | .execute property _ => "execute_" ++ property
  | .toolboxInfo .. => "get_toolbox_info"
  | .toolboxTools .. => "get_tools"
  | .toolboxDispatch .. => "handle_tool_call"
  | .createServer .. => "create_server"
  | .startServer _ => "start_server"
  | .createAndStart => "create_and_start_server"
  | .freeCreateServer _ => "create_server"
  | .freeStartServer => "start_server"
  | .setupHandlers => "setup_handlers"

/-- `::core::result::Result` followed by more segments. -/
def resultPath (segments : List String) : List Tree :=
  rooted (["core", "result", "Result"] ++ segments)

/-- `::core::option::Option` followed by a constructor. -/
def optionPath (constructor : String) : List Tree :=
  rooted ["core", "option", "Option", constructor]

/-- A path into the private part of the runtime. -/
def privatePath (segments : List String) : List Tree := runtimePath ("__private" :: segments)

/-- A list type. -/
def listType (element : List Tree) : List Tree := applied (rooted ["std", "vec", "Vec"]) [element]

/-- A list expression. -/
def listOf (elements : List (List Tree)) : List Tree :=
  rooted ["std", "vec"] ++ op "!" ++ [bracket (commas elements)]

/-- `Result<Server, McpError>` -/
def serverResult : List Tree :=
  applied (resultPath []) [runtimePath ["Server"], runtimePath ["McpError"]]

/-- A log statement. -/
def logStatement (level message : String) : List Tree :=
  statement (privatePath ["tracing", level] ++ op "!" ++ [paren [string message]])

/-- `code.await` -/
def awaited (code : List Tree) : List Tree := code ++ op "." ++ [name "await"]

/-- `code.await?;` -/
def awaitStatement (code : List Tree) : List Tree := statement (awaited code ++ op "?")

/-- A closure with one parameter and a block. -/
def moveClosure (parameter : String) (body : List Tree) : List Tree :=
  [name "move"] ++ op "|" ++ [name parameter] ++ op "|" ++ [brace body]

/-- The statement that ends a program in failure. -/
def exitStatement : List Tree :=
  statement (call (rooted ["std", "process", "exit"]) [[.literal "1"]])

/-- The body of the entry point. -/
def mainBody : List Tree :=
  let builder :=
    method (method (call (privatePath ["tokio", "runtime", "Builder", "new_multi_thread"]) [])
      "enable_all" []) "build" []
  statement (call (runtimePath ["logging", "init"]) []) ++
  letBind "runtime" ([name "match"] ++ builder ++
    [brace (
      call (resultPath ["Ok"]) [[name "runtime"]] ++ op "=>" ++ [name "runtime"] ++ op "," ++
      call (resultPath ["Err"]) [[name "error"]] ++ op "=>" ++
        [brace (logStatement "error" "failed to start the runtime: \x7berror\x7d" ++
          exitStatement)])]) ++
  letBind "result" (method [name "runtime"] "block_on"
    [[name "async", brace (
      logStatement "info" "starting server" ++
      letBind "server" (awaited (call (relative ["Self", "setup_server"]) []) ++ op "?") ++
      logStatement "info" "server started, waiting for completion" ++
      awaited (method [name "server"] "wait_until_completed" []))]]) ++
  [name "if", name "let"] ++ call (resultPath ["Err"]) [[name "error"]] ++ op "=" ++
    [name "result", brace (
      logStatement "error" "server setup or run failed: \x7berror\x7d" ++ exitStatement)] ++
  logStatement "info" "server stopped"

/-- The statement that makes a server. -/
def newServer (settings : Settings) : List Tree :=
  letBind "server" (call (runtimePath ["Server", "new"])
    [settings.name.print, settings.version.print, settings.capabilities.print,
      settings.configuration.print])

/-- The statements that answer the methods about tools. -/
def registerHandlersBody : List Tree :=
  let anyType := [name "_"]
  let annotatedResult (types : List (List Tree)) (constructor : String) (value : List Tree) :=
    resultPath [] ++ op "::" ++ op "<" ++ commas types ++ op ">" ++ op "::" ++
      [name constructor, paren value]
  let handler (marker : String) (closure : List Tree) :=
    statement
      (method [name "server"] "with_method_handler" [runtimePath ["methods", marker], closure])
  let nameOf := method [name "tool", .punct '.' false, name "name"] "clone" []
  let collected := op "." ++ [name "collect"] ++ op "::" ++ op "<" ++ listType anyType ++ op ">" ++
    [paren []]
  letBind "names"
    (method (method [name "tools"] "iter" []) "map"
      [op "|" ++ [name "tool"] ++ op "|" ++ nameOf] ++ collected) ++
  handler "ListTools" (moveClosure "_" (
    letBind "tools" (method [name "tools"] "clone" []) ++
    [name "async", name "move", brace (
      annotatedResult [anyType, runtimePath ["McpError"]] "Ok"
        (runtimePath ["methods", "ListToolsResult"] ++ [brace [name "tools"]] ++ op ","))])) ++
  handler "CallTool" (moveClosure "params" (
    letBind "known" (method [name "names"] "contains"
      [op "&" ++ [name "params"] ++ op "." ++ [name "name"]]) ++
    [name "async", name "move", brace (
      let failure (constructor : String) :=
        call (runtimePath ["McpError", constructor])
          [op "&" ++ [name "params"] ++ op "." ++ [name "name"]]
      annotatedResult [runtimePath ["methods", "CallToolResult"], anyType] "Err"
        ([name "if", name "known", brace (failure "tool_implementation_required"), name "else",
          brace (failure "tool_not_found")]))]))

/-- The body of the function that runs a tool. -/
def executionBody : Execution → List Tree
  | .handler target => target.print [[name "arguments"]]
  | .placeholder toolName =>
    let format := rooted ["std", "format"] ++ op "!" ++
      [paren (commas
        [[string "Tool '\x7b\x7d' executed (arguments: \x7b\x7d)"], [.literal toolName],
          call (privatePath ["serde_json", "Value", "Object"]) [[name "arguments"]]])]
    call (resultPath ["Ok"]) [listOf [call (runtimePath ["Content", "text"]) [format]]]

/-- The body that runs the tool with a name. -/
def dispatchBody (arms : List (String × String)) : List Tree :=
  [name "match", name "name", brace (
    (arms.flatMap fun (tool, property) =>
      [.literal tool] ++ op "=>" ++
        method [name "self"] ("execute_" ++ property) [[name "arguments"]] ++ op ",") ++
    [name "_"] ++ op "=>" ++
      call (resultPath ["Err"])
        [call (runtimePath ["McpError", "tool_not_found"]) [[name "name"]]] ++
      op ",")]

/-- The statement that registers a tool. -/
def registerStatement (registration : Registration) : List Tree :=
  let ofSelf (ident : Ident) := [name "Self"] ++ op "::" ++ [.ident ident]
  let wrapped (constructor : String) (handler : Ident) :=
    call (optionPath "Some") [call (runtimePath ["ToolHandler", constructor]) [ofSelf handler]]
  let handler := match registration.handler with
    | .none => optionPath "None"
    | .synchronous handler => wrapped "from_fn" handler
    | .asynchronous handler => wrapped "new" handler
  statement (method [name "server"] "register_tool"
    [call (ofSelf registration.property) [], handler])

/-- The generic parameter of functions that take a transport. -/
def transportGenerics : Generics where
  params :=
    [{ isLifetime := false
       head := [name "McpTransport"] ++ op ":" ++ runtimePath ["Transport"] ++ op "+" ++
         [.lifetime ⟨false, "static"⟩]
       fallback := []
       comma := false }]

/-- `Result::Ok(server)` -/
def okServer : List Tree := call (resultPath ["Ok"]) [[name "server"]]

/-- A function that takes a transport and yields a server. -/
def takesTransport (draft : Draft) : Draft :=
  ((draft.makeAsync.withGenerics transportGenerics).typed
    "transport" [name "McpTransport"]).returning
    serverResult

/-- The attribute `#[allow(unused_variables)]`. -/
def allowUnused : Attribute :=
  ⟨false, ⟨false, [⟨false, "allow"⟩]⟩, .list .paren [name "unused_variables"]⟩

/-- The function as a draft. -/
def draft (generated : Generated) : Draft :=
  let start := Draft.named generated.functionName
  match generated with
  | .main => start.makePublic.code mainBody
  | .setupServer settings =>
    (start.makePublic.makeAsync.returning serverResult).code (
      letBind "tools" (call (relative ["Self", "initialize_tools"]) []) ++
      newServer settings ++
      statement (call (relative ["Self", "register_handlers"])
        [op "&" ++ [name "server"], [name "tools"]]) ++
      awaitStatement
        (method [name "server"] "start" [call (runtimePath ["StdioTransport", "new"]) []]) ++
      okServer)
  | .listTools accessors =>
    (start.makePublic.returning (listType (runtimePath ["Tool"]))).code
      (listOf (accessors.map fun ident => Call.print ⟨.associated, ident⟩ []))
  | .registerHandlers =>
    ((start.makePublic.typed "server" (op "&" ++ runtimePath ["Server"])).typed "tools"
      (listType (runtimePath ["Tool"]))).code registerHandlersBody
  | .execute _ execution =>
    ((start.withSelf.typed "arguments" (runtimePath ["Arguments"])).returning
      (runtimePath ["ToolResult"])).code (executionBody execution)
  | .toolboxInfo delegate toolbox description =>
    (start.withSelf.returning (runtimePath ["ToolboxInfo"])).code <|
      match delegate with
      | some target => target.print []
      | none =>
        call (runtimePath ["ToolboxInfo", "new"]) [[.literal toolbox], [.literal description]]
  | .toolboxTools delegate accessors =>
    (start.withSelf.returning (listType (runtimePath ["Tool"]))).code <|
      match delegate with
      | some target => target.print []
      | none => listOf (accessors.map fun accessor => accessor.print [])
  | .toolboxDispatch delegate arms idle =>
    let drafted :=
      (((start.withSelf.typed "name" (op "&" ++ [name "str"])).typed "arguments"
        (runtimePath ["Arguments"])).returning (runtimePath ["ToolResult"])).code <|
        match delegate with
        | some target => target.print [[name "name"], [name "arguments"]]
        | none => dispatchBody arms
    if idle then drafted.withAttr allowUnused else drafted
  | .createServer settings registrations =>
    (start.makePublic.returning (runtimePath ["Server"])).code
      (newServer settings ++ registrations.flatMap registerStatement ++ [name "server"])
  | .startServer hook =>
    (takesTransport start.makePublic).code (
      letBind "server" (call (relative ["Self", "create_server"]) []) ++
      awaitStatement (
        if hook then
          method [name "server"] "start_with_hook"
            [[name "transport"], relative ["Self", "on_initialize"]]
        else method [name "server"] "start" [[name "transport"]]) ++
      okServer)
  | .createAndStart =>
    (takesTransport start).withSelf.code
      (awaited (call (relative ["Self", "start_server"]) [[name "transport"]]))
  | .freeCreateServer settings =>
    (start.makePublic.returning (runtimePath ["Server"])).code
      (newServer settings ++ statement (call [name "setup_handlers"] [op "&" ++ [name "server"]]) ++
        [name "server"])
  | .freeStartServer =>
    (takesTransport start.makePublic).code (
      letBind "server" (call [name "create_server"] []) ++
      awaitStatement (method [name "server"] "start" [[name "transport"]]) ++ okServer)
  | .setupHandlers => start.makePublic.typed "_server" (op "&" ++ runtimePath ["Server"])

/-- The function as code. -/
def function (generated : Generated) : Function := generated.draft.function

end Generated

end Toolsmith
