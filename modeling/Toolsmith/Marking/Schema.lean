import Toolsmith.Marking.Argument
import Toolsmith.Source.Literal

/-! # Argument schemas

Each tag accepts certain labelled arguments. A `Schema` lists them in order; `Schema.resolve` maps
the arguments of a marking onto them, filling in defaults, or reports the first argument that
does not fit.
-/

namespace Toolsmith

open Source

/-- What happens when a parameter is not written. -/
inductive Requirement where
  | required
  | optional
  | fallback (value : Expression)

/-- A parameter of a marking. -/
structure Parameter where
  label : String
  /-- Other labels by which it may be written. -/
  aliases : List String := []
  requirement : Requirement

/-- Whether the parameter may be written with this label. -/
def Parameter.accepts (parameter : Parameter) (label : String) : Bool :=
  parameter.label == label || parameter.aliases.contains label

/-- The parameters a marking accepts, in order. -/
structure Schema where
  site : Site
  parameters : List Parameter

/-- The kinds of literal a parameter may insist on. -/
inductive LiteralKind where
  | string
  | boolean
deriving DecidableEq, Repr

/-- The name of a kind of literal. -/
def LiteralKind.name : LiteralKind → String
  | .string => "string"
  | .boolean => "boolean"

/-- Why arguments do not fit a schema. -/
inductive ArgumentError where
  | missing (site : Site) (label : String)
  | unknown (site : Site) (label : String)
  | duplicate (site : Site) (label : String)
  | positional (site : Site)
  | expectedLiteral (site : Site) (label : String) (kind : LiteralKind)
deriving DecidableEq, Repr

/-- The text of the error. -/
def ArgumentError.message : ArgumentError → String
  | .missing site label => site.text ++ " requires a `" ++ label ++ "` argument"
  | .unknown site label => site.text ++ " does not accept a `" ++ label ++ "` argument"
  | .duplicate site label =>
    site.text ++ " was given the `" ++ label ++ "` argument more than once"
  | .positional site => site.text ++ " arguments must be written as `label = value`"
  | .expectedLiteral site label kind =>
    "the `" ++ label ++ "` argument of " ++ site.text ++ " must be a " ++ kind.name ++ " literal"

/-- The value of a parameter, and whether it was written. -/
structure Resolved where
  value : Expression
  explicit : Bool

/-- The values of the parameters that have one, in the order of the schema. -/
structure ResolvedArguments where
  site : Site
  values : List (String × Resolved)

namespace Schema

/-- The parameter written with a label. -/
def parameter? (schema : Schema) (label : String) : Option Parameter :=
  schema.parameters.find? (·.accepts label)

/-- Collect the written arguments under the labels of their parameters, in order, or report the
first that is positional, unknown or repeated. -/
def collect (schema : Schema) :
    List (String × Expression) → List Argument → Except ArgumentError (List (String × Expression))
  | written, [] => .ok written
  | written, argument :: rest =>
    match argument.label with
    | none => .error (.positional schema.site)
    | some label =>
      match schema.parameter? label.name with
      | none => .error (.unknown schema.site label.name)
      | some parameter =>
        if (written.lookup parameter.label).isSome then
          .error (.duplicate schema.site parameter.label)
        else schema.collect (written ++ [(parameter.label, argument.value)]) rest

/-- Give every parameter its written value or its default, or report the first required one that
is not written. -/
def complete (site : Site) (written : List (String × Expression)) :
    List Parameter → Except ArgumentError (List (String × Resolved))
  | [] => .ok []
  | parameter :: rest =>
    match written.lookup parameter.label, parameter.requirement with
    | some value, _ => do
      return (parameter.label, ⟨value, true⟩) :: (← complete site written rest)
    | none, .fallback value => do
      return (parameter.label, ⟨value, false⟩) :: (← complete site written rest)
    | none, .optional => complete site written rest
    | none, .required => .error (.missing site parameter.label)

/-- The values of the parameters for a marking. -/
def resolve (schema : Schema) (arguments : List Argument) :
    Except ArgumentError ResolvedArguments := do
  let written ← schema.collect [] arguments
  let values ← complete schema.site written schema.parameters
  return ⟨schema.site, values⟩

end Schema

/-- A string literal as an expression. -/
def stringExpression (value : String) : Expression :=
  let text := Text.literal value
  .ofTrees (.literal text) [.literal text]

/-- The crate that generated code refers to. -/
def runtimeCrate : String := "mcpgen"

/-- A path into the crate that generated code refers to. -/
def runtimePath (segments : List String) : List Tree := rooted (runtimeCrate :: segments)

/-- The default value of a type of the runtime. -/
def defaultExpression (type : String) : Expression :=
  .ofTrees .other <|
    op "<" ++ runtimePath [type] ++ [name "as"] ++ rooted ["core", "default", "Default"] ++
      op ">" ++ op "::" ++ call [name "default"] []

namespace Schema

/-- The capabilities and configuration of a server, which have defaults. -/
def serverSettings : List Parameter :=
  [{ label := "capabilities", requirement := .fallback (defaultExpression "ServerCapabilities") },
   { label := "configuration", requirement := .fallback (defaultExpression "Configuration") }]

/-- A tool: its name is that of the property unless written. -/
def tool (property : Ident) : Schema where
  site := ⟨.tool, false⟩
  parameters :=
    [{ label := "name", requirement := .fallback (stringExpression property.name) },
     { label := "description", requirement := .required },
     { label := "input_schema", aliases := ["schema"], requirement := .optional }]

/-- A resource: its name is that of the property unless written. -/
def resource (property : Ident) : Schema where
  site := ⟨.resource, false⟩
  parameters :=
    [{ label := "name", requirement := .fallback (stringExpression property.name) },
     { label := "description", requirement := .optional },
     { label := "uri", requirement := .required },
     { label := "mime_type", requirement := .optional },
     { label := "metadata", requirement := .optional }]

/-- A server, all of whose settings have defaults. -/
def server : Schema where
  site := ⟨.server, false⟩
  parameters :=
    [{ label := "name", requirement := .fallback (stringExpression "MCPServer") },
     { label := "version", requirement := .fallback (stringExpression "1.0.0") }] ++
    serverSettings ++
    [{ label := "generate_main",
       requirement := .fallback (.ofTrees (.boolean true) [name "true"]) }]

/-- A global server, attached or freestanding. -/
def globalServer (freestanding : Bool) : Schema where
  site := ⟨.globalServer, freestanding⟩
  parameters :=
    [{ label := "name", requirement := .required },
     { label := "version", requirement := .required }] ++ serverSettings

/-- A toolbox. -/
def toolbox : Schema where
  site := ⟨.toolbox, false⟩
  parameters :=
    [{ label := "name", requirement := .required },
     { label := "description", requirement := .required }]

/-- The description of a parameter. -/
def param : Schema where
  site := ⟨.param, false⟩
  parameters := [{ label := "description", requirement := .required }]

end Schema

namespace ResolvedArguments

/-- The value of a parameter, if it has one. -/
def get? (arguments : ResolvedArguments) (label : String) : Option Expression :=
  (arguments.values.lookup label).map (·.value)

/-- The value of a parameter that must have one. -/
def required (arguments : ResolvedArguments) (label : String) : Except ArgumentError Expression :=
  match arguments.get? label with
  | some value => .ok value
  | none => .error (.missing arguments.site label)

/-- Whether a parameter was written. -/
def isExplicit (arguments : ResolvedArguments) (label : String) : Bool :=
  (arguments.values.lookup label).any (·.explicit)

/-- The text of a parameter that must be a string literal. -/
def string? (arguments : ResolvedArguments) (label : String) :
    Except ArgumentError (Option String) :=
  match arguments.get? label with
  | none => .ok none
  | some value =>
    match value.kind with
    | .literal text =>
      if (stringValue? text).isSome then .ok (some text)
      else .error (.expectedLiteral arguments.site label .string)
    | _ => .error (.expectedLiteral arguments.site label .string)

/-- The text of a string literal that must be there. -/
def requiredString (arguments : ResolvedArguments) (label : String) :
    Except ArgumentError String := do
  match ← arguments.string? label with
  | some text => return text
  | none => .error (.missing arguments.site label)

/-- The value of a parameter that must be a truth value. -/
def boolean? (arguments : ResolvedArguments) (label : String) :
    Except ArgumentError (Option Bool) :=
  match arguments.get? label with
  | none => .ok none
  | some value =>
    match value.kind with
    | .boolean truth => .ok (some truth)
    | _ => .error (.expectedLiteral arguments.site label .boolean)

end ResolvedArguments

end Toolsmith
