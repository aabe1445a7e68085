import Toolsmith.Expansion.Basic

/-! # Toolboxes

A block annotated as a toolbox gets a function that runs each of its tools, and an implementation
of the toolbox interface that lists the tools and dispatches on their names. A function of that
interface that the block declares itself is called instead.
-/

namespace Toolsmith

open Source

/-- How a declared function of the block is called with `self` passed along when it takes it. -/
def delegateTo? (outline : Outline) (function : String) : Option Call :=
  (outline.function? function).map fun member =>
    ⟨if member.receiver then .associatedWithSelf else .associated, member.ident⟩

/-- How a member is called from a method. -/
def callOf (member : Member) : Call :=
  ⟨if member.receiver then .method else .associated, member.ident⟩

/-- What running the tool of a binding does. -/
def Binding.execution (binding : Binding) : Execution :=
  match binding.handler with
  | some handler => .handler (callOf handler)
  | none => .placeholder binding.name

/-- The function that runs the tool of a binding. -/
def executionOf (binding : Binding) : Generated :=
  .execute binding.property.name binding.execution

/-- The functions of the toolbox interface. -/
def conformanceFunctions (outline : Outline) (toolbox description : String) : List Generated :=
  let bindings := outline.bindings
  [.toolboxInfo (delegateTo? outline "get_toolbox_info") toolbox description,
   .toolboxTools (delegateTo? outline "get_tools")
     ((outline.tagged .tool).map fun (property, _) => callOf property),
   .toolboxDispatch (delegateTo? outline "handle_tool_call")
     (bindings.map fun binding => (binding.name, binding.property.name))
     (bindings.isEmpty && !outline.declares "handle_tool_call")]

/-- Fails when a bound handler is asynchronous. -/
def checkSynchronous (outline : Outline) (site : Site) : Except Diagnostic Unit :=
  match (outline.bindings.filterMap (·.handler)).find? (·.isAsync) with
  | some handler => .error (.asynchronous handler.name outline.typeName site)
  | none => .ok ()

/-- Expand a toolbox marking. -/
def expandToolbox (marking : Marking) (block : ImplBlock) : Except Diagnostic Expansion := do
  checkInherent marking.site block
  let arguments ← liftArguments (Schema.toolbox.resolve marking.arguments)
  let toolbox ← liftArguments (arguments.requiredString "name")
  let description ← liftArguments (arguments.requiredString "description")
  let outline := Outline.ofBlock block
  outline.checkUniqueTools
  checkSynchronous outline marking.site
  let executions := admitted outline (outline.bindings.map executionOf)
  let prepared ← block.prepared
  let conformance := beside block (some (runtimePath ["Toolbox"]))
    (conformanceFunctions outline toolbox description)
  return ({ host := .block (withFunctions prepared executions) : Expansion }.adding
    .memberSet (executions.map fun item => .function item.function)).adding
    .conformance [.block conformance]

end Toolsmith
