import Toolsmith.Expansion.Accessor
import Toolsmith.Expansion.MemberSet
import Toolsmith.Expansion.PeerSet
import Toolsmith.Expansion.Toolbox

/-! # Expanding an annotated item

What a marking is attached to decides how it expands, before its arguments are looked at. When
an expansion fails, the item is emitted with the error after it.
-/

namespace Toolsmith

open Source

/-- What a marking is attached to. -/
inductive Target where
  /-- A function declared without a body. -/
  | property (declaration : Declaration)
  | type (block : ImplBlock)
  | function
  | other

/-- The kind of an item. -/
def Target.classify (item : List Tree) : Target :=
  match read? Grammar.declaration item with
  | some declaration => .property declaration
  | none =>
    match read? Grammar.implBlock item with
    | some block => .type block
    | none =>
      match read? Grammar.freeFunction item with
      | some _ => .function
      | none => .other

/-- The marking at a site, as part of an expansion. -/
def parseMarking (site : Site) (tokens : List Tree) : Except Diagnostic Marking :=
  (Marking.parse site tokens).mapError .ofMarkingError

/-- Expand a marking with the given argument tokens on an item. -/
def expandOn (tag : Tag) (tokens item : List Tree) : Except Diagnostic Expansion := do
  let site : Site := ⟨tag, false⟩
  match tag, Target.classify item with
  | .tool, .property declaration => expandTool (← parseMarking site tokens) declaration
  | .resource, .property declaration => expandResource (← parseMarking site tokens) declaration
  | .tool, _ | .resource, _ => .error (.propertyTarget site)
  | .server, .type block => expandServer (← parseMarking site tokens) block
  | .toolbox, .type block => expandToolbox (← parseMarking site tokens) block
  | .globalServer, .type block => expandGlobalServer (← parseMarking site tokens) block
  | .server, _ | .toolbox, _ | .globalServer, _ => .error (.typeTarget site)
  | .param, _ =>
    let marking ← parseMarking site tokens
    discard <| liftArguments (Schema.param.resolve marking.arguments)
    return { host := .verbatim item }

/-- An item as it is emitted beside an error: a block loses the marks that only an expansion
understands. -/
def salvage (item : List Tree) : List Tree :=
  match read? Grammar.implBlock item with
  | some block => block.stripped.print
  | none => item

/-- The code that an annotated item expands to. -/
def expandAttribute (tag : Tag) (tokens item : List Tree) : List Tree :=
  match expandOn tag tokens item with
  | .ok expansion => expansion.render
  | .error diagnostic => salvage item ++ diagnostic.emit

/-- The code that a freestanding use expands to. -/
def expandStandalone (tokens : List Tree) : List Tree :=
  let result := do
    let marking ← parseMarking ⟨.globalServer, true⟩ tokens
    expandFreestanding marking
  match result with
  | .ok expansion => expansion.render
  | .error diagnostic => diagnostic.emit

end Toolsmith
