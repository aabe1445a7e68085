import Toolsmith.Expansion.Routine
import Toolsmith.Server.Basic

/-! # Running generated code

What a function that was made does is what its printed body does. The parameters are read off the
printed signature, the statements are run one after another, and the functions of the type that the
body calls are those of a `Scope`. Code that makes no sense here, and code of the user that crashes,
does not come to a value.
-/

namespace Toolsmith

open Source

/-- A value that generated code handles. -/
inductive Value where
  /-- The value that a method belongs to. -/
  | self
  | text (value : String)
  | flag (value : Bool)
  | list (values : List Value)
  | json (value : Json)
  | arguments (arguments : Arguments)
  | tool (tool : Tool)
  | content (content : Content)
  | info (info : ToolboxInfo)
  | error (error : ProtocolError)
  /-- `Ok(value)` -/
  | success (value : Value)
  /-- `Err(error)` -/
  | refusal (error : ProtocolError)
  /-- `None` -/
  | absent
  /-- `Some(value)` -/
  | present (value : Value)
  /-- A function of the type that is not called. -/
  | function (name : String)
  | handler (run : Handler)
  | listing (params : ListParams)
  | calling (params : CallToolParams)
  | listed (result : ListToolsResult)
  | called (result : CallToolResult)
  | server (server : Server)

/-- The values of the settings of a server. -/
structure Setup where
  name : String
  version : String
  capabilities : ServerCapabilities := {}
  configuration : Configuration := {}

/-- The server with these settings. -/
def Setup.server (setup : Setup) : Server :=
  Server.make setup.name setup.version setup.capabilities setup.configuration

/-- What generated code refers to. -/
structure Scope where
  /-- What a function of the type does. -/
  call : String → List Value → Option Value
  /-- Whether a function of the type is asynchronous. -/
  awaits : String → Bool
  /-- What the code of the arguments that a server is made from comes to. -/
  setup : List Tree → Setup

/-- The variables of running code, the latest first. -/
abbrev Locals := List (String × Value)

namespace Value

def text? : Value → Option String
  | .text value => some value
  | _ => none

def tool? : Value → Option Tool
  | .tool found => some found
  | _ => none

def content? : Value → Option Content
  | .content found => some found
  | _ => none

def contents? : Value → Option (List Content)
  | .list values => values.mapM content?
  | _ => none

def tools? : Value → Option (List Tool)
  | .list values => values.mapM tool?
  | _ => none

def listed? : Value → Option ListToolsResult
  | .listed result => some result
  | _ => none

def called? : Value → Option CallToolResult
  | .called result => some result
  | _ => none

def server? : Value → Option Server
  | .server found => some found
  | _ => none

def isSelf : Value → Bool
  | .self => true
  | _ => false

/-- How a value is shown in a text. -/
def shown? : Value → Option String
  | .text value => some value
  | .json value => some value.text
  | _ => none

/-- What user code came to, as a value. -/
def ofOutcome : Except Failure (List Content) → Option Value
  | .ok contents => some (.success (.list (contents.map .content)))
  | .error (.error problem) => some (.refusal problem)
  | .error .crash => none

/-- What a value tells about success, where successes are read. -/
def outcome {α : Type} (read : Value → Option α) : Option Value → Except Failure α
  | some (.success value) =>
    match read value with
    | some result => .ok result
    | none => .error .crash
  | some (.refusal problem) => .error (.error problem)
  | _ => .error .crash

/-- A field of a value. -/
def field? : Value → String → Option Value
  | .tool found, "name" => some (.text found.name)
  | .calling params, "name" => some (.text params.name)
  | _, _ => none

/-- A method of a value. Lists are iterated over, and collected from, as they are. -/
def method? : Value → String → List Value → Option Value
  | value, "clone", [] => some value
  | .list values, "iter", [] => some (.list values)
  | .list values, "collect", [] => some (.list values)
  | .list values, "contains", [.text sought] => do
    return .flag ((← values.mapM text?).contains sought)
  | _, _, _ => none

end Value

/-- The handler that runs a function of the type. -/
def Scope.handler (scope : Scope) (function : String) : Handler := fun arguments =>
  Value.outcome Value.contents? (scope.call function [.arguments arguments])

/-- A text with its holes filled in order. -/
def fill : List Char → List String → Option (List Char)
  | '\x7b' :: '\x7d' :: rest, shown :: others => do return shown.toList ++ (← fill rest others)
  | '\x7b' :: '\x7d' :: _, [] => none
  | c :: rest, shown => do return c :: (← fill rest shown)
  | [], [] => some []
  | [], _ :: _ => none

/-- What is made by a function of the runtime, or of the standard library. -/
def Scope.build? (scope : Scope) : List String → List Value → Option Value
  | ["core", "result", "Result", "Ok"], [value] => some (.success value)
  | ["core", "result", "Result", "Err"], [.error error] => some (.refusal error)
  | ["core", "option", "Option", "Some"], [value] => some (.present value)
  | ["mcpgen", "McpError", "tool_not_found"], [.text name] => some (.error (.toolNotFound name))
  | ["mcpgen", "McpError", "tool_implementation_required"], [.text name] =>
    some (.error (.toolImplementationRequired name))
  | ["mcpgen", "Content", "text"], [.text value] => some (.content (.text value))
  | ["mcpgen", "ToolboxInfo", "new"], [.text name, .text description] =>
    some (.info ⟨name, description⟩)
  | ["mcpgen", "ToolHandler", "new"], [.function function] =>
    if scope.awaits function then some (.handler (scope.handler function)) else none
  | ["mcpgen", "ToolHandler", "from_fn"], [.function function] =>
    if scope.awaits function then none else some (.handler (scope.handler function))
  | ["mcpgen", "__private", "serde_json", "Value", "Object"], [.arguments arguments] =>
    some (.json (.object arguments))
  | _, _ => none

/-- What is made from the values of named fields. -/
def Locals.build? (locals : Locals) : List String → List String → Option Value
  | ["mcpgen", "methods", "ListToolsResult"], ["tools"] => do
    return .listed ⟨← (← locals.lookup "tools").tools?⟩
  | _, _ => none

mutual

/-- What an expression comes to. -/
def Term.eval (scope : Scope) : Term → Locals → Option Value
  | .literal text, _ => (stringValue? text).map .text
  | .named name, locals => locals.lookup name
  | .own function, _ => some (.function function)
  | .ownCall function arguments, locals => do
    -- A receiver is passed along in either way of calling a method.
    scope.call function ((← Term.evalAll scope arguments locals).filter (!·.isSelf))
  | .item ["core", "option", "Option", "None"], _ => some .absent
  | .item _, _ => none
  | .call path arguments, locals => do
    scope.build? path (← Term.evalAll scope arguments locals)
  | .newServer code, _ => some (.server (scope.setup code).server)
  | .list elements, locals => do return .list (← Term.evalAll scope elements locals)
  | .format arguments, locals => do
    match ← Term.evalAll scope arguments locals with
    | .text shape :: values => do
      return .text (String.ofList (← fill shape.toList (← values.mapM Value.shown?)))
    | _ => none
  | .record path fields, locals => locals.build? path fields
  | .field receiver name, locals => do (← receiver.eval scope locals).field? name
  | .method receiver name arguments, locals => do
    (← receiver.eval scope locals).method? name (← Term.evalAll scope arguments locals)
  | .mapped receiver parameter body, locals => do
    match ← receiver.eval scope locals with
    | .list values =>
      .list <$> values.mapM fun value => body.eval scope ((parameter, value) :: locals)
    | _ => none
  | .choice condition positive negative, locals => do
    match ← locals.lookup condition with
    | .flag true => positive.eval scope locals
    | .flag false => negative.eval scope locals
    | _ => none
  | .arm subject pattern positive negative, locals => do
    match ← locals.lookup subject with
    | .text value =>
      if stringValue? pattern = some value then positive.eval scope locals
      else negative.eval scope locals
    | _ => none
  | .bound name value body, locals => do
    body.eval scope ((name, ← value.eval scope locals) :: locals)

/-- What some expressions come to, in order. -/
def Term.evalAll (scope : Scope) : List Term → Locals → Option (List Value)
  | [], _ => some []
  | term :: rest, locals => do
    return (← term.eval scope locals) :: (← Term.evalAll scope rest locals)

end

/-- The variables after a statement. What changes a server makes it the latest one of its name. -/
def Statement.run (scope : Scope) : Statement → Locals → Option Locals
  | .bind name value, locals => do return (name, ← value.eval scope locals) :: locals
  | .register name tool handler, locals => do
    let server ← (← locals.lookup name).server?
    let tool ← (← tool.eval scope locals).tool?
    match ← handler.eval scope locals with
    | .absent => return (name, .server (server.registerTool tool none)) :: locals
    | .present (.handler run) =>
      return (name, .server (server.registerTool tool (some run))) :: locals
    | _ => none
  | .respond name path parameter answer, locals => do
    let server ← (← locals.lookup name).server?
    match path with
    | ["mcpgen", "methods", "ListTools"] =>
      return (name, .server (server.handleMethod Method.listTools fun params =>
        Value.outcome Value.listed?
          (answer.eval scope ((parameter, .listing params) :: locals)))) :: locals
    | ["mcpgen", "methods", "CallTool"] =>
      return (name, .server (server.handleMethod Method.callTool fun params =>
        Value.outcome Value.called?
          (answer.eval scope ((parameter, .calling params) :: locals)))) :: locals
    | _ => none

/-- The variables after some statements. -/
def Statement.runAll (scope : Scope) : List Statement → Locals → Option Locals
  | [], locals => some locals
  | statement :: rest, locals => do Statement.runAll scope rest (← statement.run scope locals)

namespace Source

/-- The name under which a parameter is known in the body. -/
def Input.variable? (input : Input) : Option String :=
  if input.receiver then some "self"
  else
    match input.code with
    | .ident found :: .punct ':' _ :: _ => some found.name
    | _ => none

namespace Function

/-- The variables that the body of a function starts with. -/
def start? (item : Function) (arguments : List Value) : Option Locals := do
  let names ← item.sig.inputs.mapM Input.variable?
  if names.length = arguments.length then return names.zip arguments else none

/-- The variables when the statements of a function were run. -/
def after? (item : Function) (scope : Scope) (arguments : List Value) : Option Locals := do
  let routine ← Routine.read item.body
  Statement.runAll scope routine.statements (← item.start? arguments)

/-- What a function returns. -/
def result? (item : Function) (scope : Scope) (arguments : List Value) : Option Value := do
  let routine ← Routine.read item.body
  let result ← routine.result
  result.eval scope (← item.after? scope arguments)

/-- What becomes of the server that a function takes under a name. -/
def effect? (item : Function) (scope : Scope) (arguments : List Value) (name : String) :
    Option Server := do
  (← (← item.after? scope arguments).lookup name).server?

end Function

end Source

end Toolsmith
