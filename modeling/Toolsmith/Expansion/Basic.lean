import Toolsmith.Expansion.Generated
import Toolsmith.Expansion.Stripped

/-! # Expansions

What the expansion of a marking yields: the annotated item after it was adjusted, the
declarations made beside it, and warnings. `Expansion.render` is the code handed to the compiler.
-/

namespace Toolsmith

open Source

/-- Where made declarations are placed. -/
inductive Form where
  /-- Completes the annotated property. -/
  | accessor
  /-- Added to the annotated block. -/
  | memberSet
  /-- A trait implementation after the annotated item. -/
  | conformance
  /-- Items after the annotated item. -/
  | peerSet
  /-- Items where a freestanding use stands. -/
  | freestandingSet
deriving DecidableEq, Repr

/-- A declaration that was made. -/
inductive MadeItem where
  | function (item : Function)
  | block (item : ImplBlock)

/-- The trees of a made declaration. -/
def MadeItem.print : MadeItem → List Tree
  | .function item => item.print
  | .block item => item.print

/-- Declarations of one form. -/
structure Declarations where
  form : Form
  items : List MadeItem

/-- The item a marking was attached to. -/
inductive Host where
  /-- A property, which its accessor replaces. -/
  | property (declaration : Declaration)
  /-- A block, with any members added to it. -/
  | block (block : ImplBlock)
  /-- Any other item, unchanged. -/
  | verbatim (code : List Tree)
  /-- A freestanding use has none. -/
  | nothing

/-- The result of an expansion. -/
structure Expansion where
  host : Host
  declarations : List Declarations := []
  warnings : List Diagnostic := []

namespace Expansion

/-- Add declarations, unless there are none. -/
def adding (expansion : Expansion) (form : Form) (items : List MadeItem) : Expansion :=
  if items.isEmpty then expansion
  else { expansion with declarations := expansion.declarations ++ [⟨form, items⟩] }

/-- The code of the host. A property that an accessor completes is not repeated. -/
def hostCode (expansion : Expansion) : List Tree :=
  match expansion.host with
  | .property declaration =>
    if expansion.declarations.any (·.form == .accessor) then [] else declaration.print
  | .block block => block.print
  | .verbatim code => code
  | .nothing => []

/-- The code placed outside the host. Members were already added to it. -/
def declarationCode (declarations : Declarations) : List Tree :=
  match declarations.form with
  | .memberSet => []
  | _ => declarations.items.flatMap MadeItem.print

/-- The code of an expansion: host, declarations, then warnings. -/
def render (expansion : Expansion) : List Tree :=
  expansion.hostCode ++ expansion.declarations.flatMap declarationCode ++
    expansion.warnings.flatMap Diagnostic.emit

end Expansion

/-- The result of a check on arguments as that of an expansion. -/
def liftArguments {α : Type} (result : Except ArgumentError α) : Except Diagnostic α :=
  result.mapError .argument

/-- Fails unless the block is inherent. -/
def checkInherent (site : Site) (block : ImplBlock) : Except Diagnostic Unit :=
  if block.trait.isSome then .error (.typeTarget site) else .ok ()

/-- The settings of a server among resolved arguments. -/
def settingsOf (arguments : ResolvedArguments) : Except Diagnostic Settings := do
  return {
    name := ← liftArguments (arguments.required "name")
    version := ← liftArguments (arguments.required "version")
    capabilities := ← liftArguments (arguments.required "capabilities")
    configuration := ← liftArguments (arguments.required "configuration") }

/-- The functions that the block does not declare itself. -/
def admitted (outline : Outline) (generated : List Generated) : List Generated :=
  generated.filter fun function => !outline.declares function.functionName

/-- A block with functions added at its end. -/
def withFunctions (block : ImplBlock) (functions : List Generated) : ImplBlock :=
  { block with members := block.members ++ functions.map fun item => .function item.function }

/-- A block beside another one, for the same type under the same parameters. -/
def beside (block : ImplBlock) (trait : Option (List Tree)) (functions : List Generated) :
    ImplBlock where
  generics := { block.generics with
    params := block.generics.params.map fun param => { param with fallback := [] } }
  trait := trait
  selfType := block.selfType
  members := functions.map fun item => .function item.function

end Toolsmith
