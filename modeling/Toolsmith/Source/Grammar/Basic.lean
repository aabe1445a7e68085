import Toolsmith.Source.Lookahead
import Toolsmith.Source.Quote

/-! # The recursive phrases of the grammar

Types, patterns, expressions and items contain one another. `Grammar` holds a reader for each
phrase that others recur to; the productions of a phrase are functions of a `Grammar`, and
`Grammar.within` (in `Toolsmith.Source.Grammar`) unfolds them to a given depth.
-/

namespace Toolsmith
namespace Source

/-- What is known of an expression once it was read. -/
inductive ExprKind where
  /-- A literal token, with its text. -/
  | literal (text : String)
  /-- A truth value. -/
  | boolean (value : Bool)
  /-- A comparison, which cannot be compared again. -/
  | comparison
  /-- A range, which cannot be the left side of an operator. -/
  | range
  /-- An expression that ends with its block, such as `if` or `loop`. -/
  | block
  /-- A call of a macro with braces. -/
  | bracedCall
  | other
deriving DecidableEq, Repr, Inhabited

/-- What is known of a type once it was read. -/
inductive TypeKind where
  /-- A path ending in an identifier; `qualified` when it starts with `<T as Trait>`, and
  `single` when it is one segment without parentheses. -/
  | path (last : Ident) (qualified single : Bool)
  | other
deriving DecidableEq, Repr, Inhabited

/-- What is known of a path once it was read. -/
structure PathKind where
  last : Ident
  segments : Nat
  /-- It starts with `::`. -/
  rooted : Bool
  /-- It starts with a qualified type. -/
  qualified : Bool
  /-- Some segment has arguments. -/
  arguments : Bool
  /-- The last segment has arguments. -/
  applied : Bool

/-- A path of identifiers alone, which may name a macro. -/
def PathKind.isModulePath (path : PathKind) : Bool := !path.qualified && !path.arguments

/-- The recursive phrases. -/
structure Grammar where
  /-- A path without a qualified type in front; in `expression` style arguments need `::`. -/
  path : (expression : Bool) → Reader PathKind
  /-- An expression; `structs` allows a struct literal to start it. -/
  expression : (structs : Bool) → Reader ExprKind
  /-- An expression that stands as a statement or as the body of a match arm: one that ends with a
  block is complete there. -/
  early : Reader ExprKind
  /-- An operand of binary operators. -/
  operand : (structs : Bool) → Reader ExprKind
  /-- The operators that bind at least as tightly as `base`, after a left side. -/
  operators : (structs : Bool) → (base : Nat) → ExprKind → Reader ExprKind
  /-- A type; `plus` allows several bounds. -/
  type : (plus : Bool) → Reader TypeKind
  /-- A pattern without alternatives. -/
  pattern : Reader Unit
  /-- The statements between the braces of a block. -/
  statements : Reader Unit
  /-- An item after its attributes. -/
  item : Reader Unit

/-- The grammar in which every phrase fails. -/
def Grammar.empty : Grammar where
  path _ := Reader.missing "identifier"
  expression _ := Reader.missing "an expression"
  early := Reader.missing "an expression"
  operand _ := Reader.missing "an expression"
  operators _ _ _ := Reader.missing "an expression"
  type _ := Reader.missing "a type"
  pattern := Reader.missing "a pattern"
  statements := Reader.missing "a statement"
  item := Reader.missing "an item"

instance : Inhabited Grammar := ⟨Grammar.empty⟩

/-- A parsed expression. -/
abbrev Expression := Phrase ExprKind

/-- A parsed type. -/
abbrev TypeExpr := Phrase TypeKind

namespace Grammar

open Reader

variable (g : Grammar)

/-- A block: statements in braces. -/
def block : Reader Unit := group .brace g.statements

/-- A generic argument that is a constant: a literal, an identifier or a block. -/
def constArgument : Reader Unit := do
  let trees ← ahead
  if atLiteral trees then
    if atOperator "-" trees then operator "-"
    discard tree
  else if atIdent trees then discard word
  else g.block

/-- Elements of a list in angle brackets printed with the lifetimes first. Each element is its
trees, whether it is a lifetime, and whether a comma follows; a lifetime printed without a comma
gains one when another element follows. -/
def lifetimesFirst (elements : List (List Tree × Bool × Bool)) : List Tree :=
  let print (element : List Tree × Bool × Bool) : List Tree :=
    element.1 ++ if element.2.2 then op "," else []
  let lifetimes := elements.filter (·.2.1)
  let others := elements.filter (!·.2.1)
  let gap := match lifetimes.getLast? with
    | some last => if last.2.2 || others.isEmpty then [] else op ","
    | none => []
  lifetimes.flatMap print ++ gap ++ others.flatMap print

/-- Elements up to a closing angle bracket, separated by commas. Each says whether a comma follows
it. -/
def untilAngle {α : Type} (reader : Reader α) : Reader (List (α × Bool)) :=
  (·.reverse) <$> loop (fun values : List (α × Bool) => do
    if atOperator ">" (← ahead) then return .inr values
    let value ← reader
    if atOperator ">" (← ahead) then return .inr ((value, false) :: values)
    operator ","
    return .inl ((value, true) :: values)) []

end Grammar

end Source
end Toolsmith
