import Toolsmith.Expansion.Basic

/-! # Servers beside a type

A block annotated as a global server is followed by a block with the functions that make and start
a server with its tools, and by an implementation of the provider interface. The freestanding form
makes such functions outside any type.
-/

namespace Toolsmith

open Source

/-- The registration of the tool of a binding. -/
def registrationOf (binding : Binding) : Registration where
  property := binding.property.ident
  handler := match binding.handler with
    | some handler =>
      if handler.isAsync then .asynchronous handler.ident else .synchronous handler.ident
    | none => .none

/-- Fails when a bound handler takes `self`. -/
def checkStaticHandlers (outline : Outline) (site : Site) : Except Diagnostic Unit :=
  match (outline.bindings.filterMap (·.handler)).find? (·.receiver) with
  | some handler => .error (.receiver handler.name outline.typeName site)
  | none => .ok ()

/-- Fails when the hook takes `self` or is not asynchronous. -/
def checkHook (outline : Outline) (site : Site) : Except Diagnostic Unit :=
  match outline.connectHook? with
  | some hook =>
    if hook.receiver then .error (.receiver hook.name outline.typeName site)
    else if !hook.isAsync then .error (.synchronous hook.name outline.typeName site)
    else .ok ()
  | none => .ok ()

/-- Expand a global server marking. -/
def expandGlobalServer (marking : Marking) (block : ImplBlock) :
    Except Diagnostic Expansion := do
  checkInherent marking.site block
  let arguments ← liftArguments ((Schema.globalServer false).resolve marking.arguments)
  let outline := Outline.ofBlock block
  outline.checkUniqueTools
  outline.checkStaticTools marking.site
  checkStaticHandlers outline marking.site
  checkHook outline marking.site
  let settings ← settingsOf arguments
  let factory := admitted outline
    [.createServer settings (outline.bindings.map registrationOf),
     .startServer outline.connectHook?.isSome]
  let prepared ← block.prepared
  let sibling := if factory.isEmpty then [] else [.block (beside block none factory)]
  let provider :=
    if outline.declares "create_and_start_server" then []
    else [.block (beside block (some (runtimePath ["ServerProvider"])) [.createAndStart])]
  return { host := .block prepared : Expansion }.adding .peerSet (sibling ++ provider)

/-- Expand the freestanding form. -/
def expandFreestanding (marking : Marking) : Except Diagnostic Expansion := do
  let arguments ← liftArguments ((Schema.globalServer true).resolve marking.arguments)
  let settings ← settingsOf arguments
  return { host := .nothing : Expansion }.adding .freestandingSet
    ([.freeCreateServer settings, .freeStartServer, .setupHandlers].map fun item =>
      .function (Generated.function item))

end Toolsmith
