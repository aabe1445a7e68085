import Toolsmith.Source.Grammar.Item
import Toolsmith.Source.Grammar.Statement

/-! # The grammar

The productions tied together. `Grammar.within depth` reads phrases whose nesting stays within
`depth`. Every level of nesting takes a token, so that the limit which `read?` and `readAll` unfold
to is more than any text needs. It is the same limit for all texts: what a phrase is read as does
not depend on the text around it.
-/

namespace Toolsmith
namespace Source

open Reader

/-- The phrases whose parts are read by `g`. -/
def Grammar.unfold (g : Grammar) : Grammar where
  path := g.plainPath
  expression := g.expressionProduction
  early := g.earlyProduction
  operand := g.operandProduction
  operators := g.operatorsProduction
  type := g.typeProduction
  pattern := g.patternProduction
  statements := g.statementsProduction
  item := g.itemProduction

/-- A reader that is made only once there are trees to look at. -/
def Reader.delayed {α : Type} (made : Unit → Reader α) : Reader α
  | [] => made () []
  | tree :: rest => made () (tree :: rest)

/-- A grammar that is made when something is read with it. -/
def Grammar.delayed (made : Unit → Grammar) : Grammar where
  path expression := .delayed fun _ => (made ()).path expression
  expression structs := .delayed fun _ => (made ()).expression structs
  early := .delayed fun _ => (made ()).early
  operand structs := .delayed fun _ => (made ()).operand structs
  operators structs base left := .delayed fun _ => (made ()).operators structs base left
  type plus := .delayed fun _ => (made ()).type plus
  pattern := .delayed fun _ => (made ()).pattern
  statements := .delayed fun _ => (made ()).statements
  item := .delayed fun _ => (made ()).item

/-- The phrases nested at most `depth` deep. -/
def Grammar.within : Nat → Grammar
  | 0 => .empty
  | depth + 1 => .delayed fun _ => (Grammar.within depth).unfold

/-- A depth that no phrase exceeds, the power of two with exponent 62. -/
def nestingLimit : Nat := 4611686018427387904

/-- Read all of `trees` as the phrase that `reader` reads. -/
def readAll {α : Type} (reader : Grammar → Reader α) (trees : List Tree) : Except Mismatch α :=
  run (reader (Grammar.within nestingLimit)) trees

/-- Read all of `trees`, if they are such a phrase. -/
def read? {α : Type} (reader : Grammar → Reader α) (trees : List Tree) : Option α :=
  (readAll reader trees).toOption

end Source
end Toolsmith
