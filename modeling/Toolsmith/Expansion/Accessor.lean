import Toolsmith.Expansion.Basic

/-! # Accessors

A property annotated as a tool or a resource is completed with a body that builds its descriptor.
-/

namespace Toolsmith

open Source

/-- The descriptor of a tool, as code. -/
structure ToolDescriptor where
  /-- The literal that names the tool. -/
  name : String
  description : Expression
  inputSchema : Option Expression

/-- The descriptor of a resource, as code. -/
structure ResourceDescriptor where
  name : Expression
  uri : Expression
  description : Option Expression
  mimeType : Option Expression
  metadata : Option Expression

namespace ToolDescriptor

/-- The descriptor that a marking gives a property. -/
def resolve (property : Declaration) (marking : Marking) :
    Except Diagnostic ToolDescriptor := liftArguments do
  let arguments ← (Schema.tool property.sig.ident).resolve marking.arguments
  return {
    name := ← arguments.requiredString "name"
    description := ← arguments.required "description"
    inputSchema := arguments.get? "input_schema" }

/-- The expression that builds the descriptor. -/
def construct (descriptor : ToolDescriptor) : List Tree :=
  let schema := match descriptor.inputSchema with
    | some schema =>
      call (Generated.optionPath "Some")
        [call (rooted ["core", "convert", "Into", "into"]) [schema.print]]
    | none => Generated.optionPath "None"
  call (runtimePath ["Tool", "new"])
    [[.literal descriptor.name], descriptor.description.print, schema]

end ToolDescriptor

namespace ResourceDescriptor

/-- The descriptor that a marking gives a property. -/
def resolve (property : Declaration) (marking : Marking) :
    Except Diagnostic ResourceDescriptor := liftArguments do
  let arguments ← (Schema.resource property.sig.ident).resolve marking.arguments
  return {
    name := ← arguments.required "name"
    uri := ← arguments.required "uri"
    description := arguments.get? "description"
    mimeType := arguments.get? "mime_type"
    metadata := arguments.get? "metadata" }

/-- A further setting of a resource, if it is given. -/
def withSetting (code : List Tree) (setter : String) (value : Option Expression) : List Tree :=
  match value with
  | some value => method code setter [value.print]
  | none => code

/-- The expression that builds the descriptor. -/
def construct (descriptor : ResourceDescriptor) : List Tree :=
  let code := call (runtimePath ["Resource", "new"]) [descriptor.name.print, descriptor.uri.print]
  let code := withSetting code "with_description" descriptor.description
  let code := withSetting code "with_mime_type" descriptor.mimeType
  withSetting code "with_metadata" descriptor.metadata

end ResourceDescriptor

/-- A property replaced by an accessor with the given body. -/
def completed (property : Declaration) (body : List Tree) : Expansion :=
  ({ host := .property property } : Expansion).adding .accessor
    [.function (property.complete body)]

/-- Expand a tool marking. -/
def expandTool (marking : Marking) (property : Declaration) :
    Except Diagnostic Expansion := do
  if !property.isProperty then throw (.propertyTarget marking.site)
  let descriptor ← ToolDescriptor.resolve property marking
  return completed property descriptor.construct

/-- Expand a resource marking. -/
def expandResource (marking : Marking) (property : Declaration) :
    Except Diagnostic Expansion := do
  if !property.isProperty then throw (.propertyTarget marking.site)
  let descriptor ← ResourceDescriptor.resolve property marking
  return completed property descriptor.construct

end Toolsmith
