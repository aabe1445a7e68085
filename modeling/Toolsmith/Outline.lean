import Toolsmith.Diagnostic

/-! # Outlines of annotated blocks

The outline of an `impl` block lists the functions it declares, in order, with their markings.
From it follow the tools of the type, the handlers bound to them, and the hook that runs when a
client connects.
-/

namespace Toolsmith

open Source

/-- The kinds of member that an outline lists. -/
inductive MemberKind where
  /-- A declaration that stands for a value. -/
  | property
  | function (hasBody : Bool)
deriving DecidableEq, Repr

/-- A member of an annotated block. -/
structure Member where
  kind : MemberKind
  ident : Ident
  markings : List Marking
  /-- It takes `self`. -/
  receiver : Bool
  isAsync : Bool

/-- The name of a member, without a raw mark. -/
def Member.name (member : Member) : String := member.ident.name

/-- The first marking with a tag. -/
def Member.marking? (member : Member) (tag : Tag) : Option Marking :=
  member.markings.find? (·.tag == tag)

/-- Whether the member is a function, with or without a body. -/
def Member.isFunction (member : Member) : Bool := member.kind != .property

/-- The outline of an annotated block. -/
structure Outline where
  typeName : String
  /-- The block is marked as the entry point of a program. -/
  entryPoint : Bool
  members : List Member

/-- The attribute `#[main]`, which marks an entry point. -/
def isEntryPoint (attr : Attribute) : Bool := attr.path.isIdent "main"

/-- The markings among attributes, in order. One that cannot be read has no arguments here; its
own expansion reports it. -/
def markingsOf (attrs : List Attribute) : List Marking :=
  attrs.filterMap fun attr =>
    match Marking.ofAttribute? attr with
    | some (.ok marking) => some marking
    | some (.error _) => (Tag.ofPath? attr.path).map fun tag => ⟨⟨tag, false⟩, []⟩
    | none => none

/-- The member of an outline that a member of a block makes. -/
def Member.ofImplMember? : ImplMember → Option Member
  | .function item => some
    { kind := .function true
      ident := item.sig.ident
      markings := markingsOf item.attrs
      receiver := item.sig.hasReceiver
      isAsync := item.sig.isAsync }
  | .declaration item => some
    { kind := if item.isProperty then .property else .function false
      ident := item.sig.ident
      markings := markingsOf item.attrs
      receiver := item.sig.hasReceiver
      isAsync := item.sig.isAsync }
  | .other _ => none

/-- The name of a type: the last identifier of a path, or else its text. -/
def typeName (type : TypeExpr) : String :=
  match type.kind with
  | .path last _ _ => last.text
  | .other => display type.print

/-- The outline of a block. -/
def Outline.ofBlock (block : ImplBlock) : Outline where
  typeName := Toolsmith.typeName block.selfType
  entryPoint := block.attrs.any isEntryPoint
  members := block.members.filterMap Member.ofImplMember?

namespace Outline

/-- The properties with a tag, each with its first marking of that tag. -/
def tagged (outline : Outline) (tag : Tag) : List (Member × Marking) :=
  (outline.members.filter (·.kind == .property)).filterMap fun member =>
    (member.marking? tag).map (member, ·)

/-- The ending by which a function is known as a handler. -/
def handlerSuffix : String := "_handler"

/-- The functions with a body whose name ends as a handler's does. -/
def candidateHandlers (outline : Outline) : List Member :=
  outline.members.filter fun member =>
    member.kind == .function true && member.name.endsWith handlerSuffix

/-- The first function with a name. -/
def function? (outline : Outline) (name : String) : Option Member :=
  outline.members.find? fun member => member.isFunction && member.name == name

/-- Whether a member has this name. -/
def declares (outline : Outline) (name : String) : Bool :=
  outline.members.any (·.name == name)

/-- The function that runs when a client connects. -/
def connectHook? (outline : Outline) : Option Member := outline.function? "on_initialize"

end Outline

/-- The literal that names the tool of a property. When the marking does not resolve, the name
is that of the property. -/
def toolName (member : Member) (marking : Marking) : String :=
  match (Schema.tool member.ident).resolve marking.arguments with
  | .ok arguments =>
    match arguments.string? "name" with
    | .ok (some text) => text
    | _ => Text.literal member.name
  | .error _ => Text.literal member.name

/-- A tool property with the handler bound to it. -/
structure Binding where
  property : Member
  /-- The literal that names the tool. -/
  name : String
  handler : Option Member

namespace Binding

/-- The name that the handler of a property must have. -/
def handlerName (property : Member) : String := property.name ++ Outline.handlerSuffix

/-- The name of the function that runs the tool of a property. -/
def executionName (property : Member) : String := "execute_" ++ property.name

/-- The value of the name of the tool. -/
def toolValue (binding : Binding) : String := (stringValue? binding.name).getD ""

end Binding

/-- The tool properties of an outline with their handlers, in order of declaration. -/
def Outline.bindings (outline : Outline) : List Binding :=
  (outline.tagged .tool).map fun (property, marking) =>
    { property := property
      name := toolName property marking
      handler := outline.candidateHandlers.find? (·.name == Binding.handlerName property) }

namespace Outline

/-- The first tool name that repeats an earlier one. -/
def repeatedTool? : List String → List String → Option String
  | _, [] => none
  | seen, name :: rest =>
    if seen.contains name then some name else repeatedTool? (name :: seen) rest

/-- Fails when two tools have the same name. -/
def checkUniqueTools (outline : Outline) : Except Diagnostic Unit :=
  match repeatedTool? [] (outline.bindings.map (·.toolValue)) with
  | some name => .error (.duplicateTool name outline.typeName)
  | none => .ok ()

/-- Fails when a tool property takes `self`. -/
def checkStaticTools (outline : Outline) (site : Site) : Except Diagnostic Unit :=
  match (outline.tagged .tool).find? (·.1.receiver) with
  | some (member, _) => .error (.receiver member.name outline.typeName site)
  | none => .ok ()

end Outline

end Toolsmith
