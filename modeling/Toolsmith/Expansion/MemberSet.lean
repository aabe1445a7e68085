import Toolsmith.Expansion.Basic

/-! # Servers as members of a type

A block annotated as a server gets the functions that make, start and run it, except those it
declares itself.
-/

namespace Toolsmith

open Source

/-- Expand a server marking. -/
def expandServer (marking : Marking) (block : ImplBlock) : Except Diagnostic Expansion := do
  checkInherent marking.site block
  let arguments ← liftArguments (Schema.server.resolve marking.arguments)
  let wantsMain := (← liftArguments (arguments.boolean? "generate_main")).getD true
  let outline := Outline.ofBlock block
  outline.checkUniqueTools
  outline.checkStaticTools marking.site
  -- A marked entry point stands for the default, so `main` is then only made when asked for.
  let makesMain := wantsMain && (!outline.entryPoint || arguments.isExplicit "generate_main")
  let settings ← settingsOf arguments
  let functions := admitted outline <|
    (if makesMain then [.main] else []) ++
      [.setupServer settings, .listTools ((outline.tagged .tool).map (·.1.ident)),
        .registerHandlers]
  let prepared ← block.prepared
  let expansion := { host := .block (withFunctions prepared functions) : Expansion }.adding
    .memberSet (functions.map fun item => .function item.function)
  return { expansion with
    warnings := if outline.entryPoint then [.entryPointConflict outline.typeName] else [] }

end Toolsmith
