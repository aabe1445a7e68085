import Toolsmith.Source.Signature

/-! # Functions and declarations of functions -/

namespace Toolsmith
namespace Source

open Reader

/-- A function with a body. -/
structure Function where
  attrs : List Attribute := []
  /-- The visibility, nothing when it is inherited. -/
  vis : List Tree := []
  isDefault : Bool := false
  sig : Signature
  /-- The statements of the body. -/
  body : List Tree := []

/-- A function declared without a body. -/
structure Declaration where
  attrs : List Attribute := []
  vis : List Tree := []
  sig : Signature

/-- The trees of a function. -/
def Function.print (function : Function) : List Tree :=
  printOuter function.attrs ++ function.vis ++ qualifier function.isDefault "default" ++
    function.sig.print ++ [brace (printInner function.attrs ++ function.body)]

/-- The trees of a declaration. -/
def Declaration.print (declaration : Declaration) : List Tree :=
  declaration.attrs.flatMap Attribute.print ++ declaration.vis ++ declaration.sig.print ++ op ";"

/-- Whether the declaration stands for a value: it is not asynchronous, has no parameters besides
`self` and no generic ones, and names its result. -/
def Declaration.isProperty (declaration : Declaration) : Bool :=
  let sig := declaration.sig
  !sig.isAsync && sig.generics.params.isEmpty && sig.variadic.isEmpty && sig.output.isSome &&
    sig.inputs.all (·.receiver)

/-- The function that completes a declaration with a body. -/
def Declaration.complete (declaration : Declaration) (body : List Tree) : Function :=
  { attrs := declaration.attrs, vis := declaration.vis, sig := declaration.sig, body := body }

namespace Grammar

variable (g : Grammar)

/-- The body of a function: its inner attributes and its statements. -/
def functionBody : Reader (List Attribute × List Tree) := group .brace do
  let attrs ← g.innerAttributes
  let statements ← phrase g.statements
  return (attrs, statements.print)

/-- A function without a body, with its semicolon. -/
def declaration : Reader Declaration := do
  let attrs ← g.outerAttributes
  let vis ← phrase visibility
  let sig ← g.signature
  operator ";"
  return ⟨attrs, vis.print, sig⟩

/-- A free function. -/
def freeFunction : Reader Function := do
  let attrs ← g.outerAttributes
  let vis ← phrase visibility
  let sig ← g.signature
  let (inner, body) ← g.functionBody
  return { attrs := attrs ++ inner, vis := vis.print, sig := sig, body := body }

end Grammar

end Source
end Toolsmith
