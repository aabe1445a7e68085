import Toolsmith.Source.Generics
import Toolsmith.Source.Grammar.Pattern

/-! # Function signatures -/

namespace Toolsmith
namespace Source

open Reader

/-- A parameter of a function: `self` in one of its forms, or a pattern with a type. -/
structure Input where
  attrs : List Attribute
  receiver : Bool
  /-- The trees after the attributes. -/
  code : List Tree
  /-- A comma follows. -/
  comma : Bool

/-- The signature of a function, from its qualifiers to its `where` clause. -/
structure Signature where
  isConst : Bool := false
  isAsync : Bool := false
  isUnsafe : Bool := false
  /-- The calling convention, `extern` included. -/
  abi : List Tree := []
  ident : Ident
  generics : Generics := {}
  inputs : List Input := []
  /-- A final `...` parameter. -/
  variadic : List Tree := []
  /-- The result type, if one is written. -/
  output : Option (List Tree) := none

/-- The trees of a parameter. -/
def Input.print (input : Input) : List Tree :=
  printOuter input.attrs ++ input.code ++ if input.comma then op "," else []

/-- The keyword when the qualifier is set. -/
def qualifier (set : Bool) (text : String) : List Tree := if set then [name text] else []

/-- The trees of a signature. -/
def Signature.print (sig : Signature) : List Tree :=
  qualifier sig.isConst "const" ++ qualifier sig.isAsync "async" ++
    qualifier sig.isUnsafe "unsafe" ++ sig.abi ++ [name "fn", .ident sig.ident] ++
    sig.generics.print ++ [paren (sig.inputs.flatMap Input.print ++ sig.variadic)] ++
    (match sig.output with
      | some type => op "->" ++ type
      | none => []) ++
    sig.generics.clause

/-- Whether the function takes `self`. -/
def Signature.hasReceiver (sig : Signature) : Bool := sig.inputs.head?.any (·.receiver)

namespace Grammar

variable (g : Grammar)

/-- `self` in one of its forms. -/
def receiver : Reader Unit := do
  let reference ← operator? "&"
  if reference then discard lifetime?
  discard (keyword? "mut")
  keyword "self"
  if !reference then
    if ← operator? ":" then discard (g.type true)

/-- A parameter after its attributes; a type with arguments alone gets a blank pattern. A `...`
type is allowed when `variadic`. -/
def inputBody (variadic : Bool) : Reader (Bool × Bool) := do
  if ← succeeds g.receiver then
    g.receiver
    return (true, false)
  let trees ← ahead
  if atIdent trees && atOperator "<" (trees.drop 1) then
    printingAs (pure ()) (fun _ => name "_" :: op ":")
    discard (g.type true)
    return (false, false)
  g.pattern
  operator ":"
  if variadic && (← operator? "...") then return (false, true)
  discard (g.type true)
  return (false, false)

/-- A parameter outside a list. -/
def input : Reader Input := do
  let attrs ← g.outerAttributes
  let body ← phrase (g.inputBody false)
  return ⟨attrs, body.kind.1, body.print, false⟩

/-- What one step through a parameter list has read. -/
structure Inputs where
  inputs : List Input := []
  variadic : List Tree := []

/-- The parameters between the parentheses. A receiver may only come first. -/
def inputs : Reader Inputs :=
  loop (fun found : Inputs => do
    if (← ahead).isEmpty then return .inr found
    let attrs ← g.outerAttributes
    let body ← phrase do
      if ← operator? "..." then return (false, true) else g.inputBody true
    if body.kind.2 then
      let comma ← phrase (do if !(← ahead).isEmpty then operator ",")
      return .inr { found with variadic := printOuter attrs ++ body.print ++ comma.print }
    if body.kind.1 && !found.inputs.isEmpty then
      fail (.refused "unexpected method receiver")
    let comma := !(← ahead).isEmpty
    if comma then operator ","
    let found := { found with
      inputs := found.inputs ++ [⟨attrs, body.kind.1, body.print, comma⟩] }
    if comma then return .inl found else return .inr found) {}

/-- A signature. -/
def signature : Reader Signature := do
  let isConst ← keyword? "const"
  let isAsync ← keyword? "async"
  let isUnsafe ← keyword? "unsafe"
  let abi ← phrase abi
  keyword "fn"
  let ident ← Reader.ident
  let params ← g.genericParams
  let inputs ← group .paren g.inputs
  let arrow ← operator? "->"
  let output ← if arrow then some <$> phrase (g.type true) else pure none
  let clause ← g.whereClause
  return { isConst, isAsync, isUnsafe, abi := abi.print, ident, generics := ⟨params, clause⟩,
           inputs := inputs.inputs, variadic := inputs.variadic,
           output := output.map Phrase.print }

/-- A signature stands next, after any visibility. -/
def atSignature (trees : List Tree) : Bool :=
  let skip (text : String) (trees : List Tree) : List Tree :=
    if atKeyword text trees then trees.drop 1 else trees
  let trees := skip "unsafe" (skip "async" (skip "const" trees))
  let trees := if atKeyword "extern" trees then
      match trees.drop 1 with
      | .literal _ :: rest => rest
      | rest => rest
    else trees
  atKeyword "fn" trees

/-- A visibility: `pub`, possibly restricted in parentheses. -/
def visibility : Reader Bool := do
  if ← keyword? "pub" then
    match (← ahead) with
    | .group .paren [.ident scope] :: _ =>
      if ["crate", "self", "super"].contains scope.text then discard tree
    | .group .paren (.ident scope :: _) :: _ =>
      if scope.text == "in" then
        group .paren do
          keyword "in"
          discard modulePath
    | _ => pure ()
    return true
  else return false

end Grammar

end Source
end Toolsmith
