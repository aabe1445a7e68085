import Toolsmith.Outline

/-! # Re-emitting annotated blocks

A block is emitted again without the marks that only an expansion understands: the entry point
mark and the descriptions of parameters go, and nested markings get absolute paths, so that
they expand without being imported. `ImplBlock.prepared` checks the descriptions on the way;
`ImplBlock.stripped` does not.
-/

namespace Toolsmith
namespace Source

/-- The attribute with its path made absolute when it is of the vocabulary. -/
def Attribute.qualified (attr : Attribute) : Attribute :=
  match Tag.ofPath? attr.path with
  | some tag => { attr with path := ⟨true, [⟨false, runtimeCrate⟩, ⟨false, tag.name⟩]⟩ }
  | none => attr

/-- Whether an attribute describes a parameter. -/
def Attribute.isParam (attr : Attribute) : Bool := Tag.ofPath? attr.path == some .param

/-- A parameter without its description. A receiver keeps its attributes. -/
def Input.stripped (input : Input) : Input :=
  if input.receiver then input else { input with attrs := input.attrs.filter (!·.isParam) }

/-- A signature without the descriptions of its parameters. -/
def Signature.stripped (sig : Signature) : Signature :=
  { sig with inputs := sig.inputs.map Input.stripped }

/-- A member without the marks that only an expansion understands. -/
def ImplMember.stripped : ImplMember → ImplMember
  | .function item =>
    .function { item with attrs := item.attrs.map Attribute.qualified, sig := item.sig.stripped }
  | .declaration item =>
    .declaration { item with attrs := item.attrs.map Attribute.qualified, sig := item.sig.stripped }
  | .other code => .other code

/-- A block without the marks that only an expansion understands. -/
def ImplBlock.stripped (block : ImplBlock) : ImplBlock :=
  { block with
    attrs := block.attrs.filter (!isEntryPoint ·)
    members := block.members.map ImplMember.stripped }

/-- Whether an attribute of a parameter is kept, judged on the way through a block: a marking must
be readable, and a description, which is not kept, must resolve. -/
def Attribute.isKept (attr : Attribute) : Except Diagnostic Bool :=
  match Marking.ofAttribute? attr with
  | none => .ok true
  | some (.error error) => .error (.ofMarkingError error)
  | some (.ok marking) =>
    if marking.tag = .param then
      match Schema.param.resolve marking.arguments with
      | .ok _ => .ok false
      | .error error => .error (.argument error)
    else .ok true

/-- The attributes of a parameter that are kept, or the first problem with one. -/
def keptAttributes : List Attribute → Except Diagnostic (List Attribute)
  | [] => .ok []
  | attr :: rest => do
    if ← attr.isKept then return attr :: (← keptAttributes rest) else keptAttributes rest

/-- A parameter without its description, which is checked. A receiver is not looked at. -/
def Input.prepared (input : Input) : Except Diagnostic Input := do
  if input.receiver then return input
  else return { input with attrs := ← keptAttributes input.attrs }

/-- A signature without the descriptions of its parameters, which are checked in order. -/
def Signature.prepared (sig : Signature) : Except Diagnostic Signature := do
  return { sig with inputs := ← sig.inputs.mapM Input.prepared }

/-- A member ready to be emitted again. -/
def ImplMember.prepared : ImplMember → Except Diagnostic ImplMember
  | .function item => do
    return .function
      { item with attrs := item.attrs.map Attribute.qualified, sig := ← item.sig.prepared }
  | .declaration item => do
    return .declaration
      { item with attrs := item.attrs.map Attribute.qualified, sig := ← item.sig.prepared }
  | .other code => return .other code

/-- The block ready to be emitted again, or the first problem with the description of a
parameter. -/
def ImplBlock.prepared (block : ImplBlock) : Except Diagnostic ImplBlock := do
  return { block with
    attrs := block.attrs.filter (!isEntryPoint ·)
    members := ← block.members.mapM ImplMember.prepared }

end Source
end Toolsmith
