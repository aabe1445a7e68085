import Toolsmith.Source.Grammar.Type

/-! # Generic parameters

The parameters of a declaration and its `where` clause. Parameters are printed with the lifetimes
first, an empty list and an empty clause not at all.
-/

namespace Toolsmith
namespace Source

open Reader

/-- A generic parameter: its trees up to a default, the default with its `=`, whether it is a
lifetime, and whether a comma follows it. -/
structure GenericParam where
  isLifetime : Bool
  head : List Tree
  fallback : List Tree
  comma : Bool

/-- Generic parameters and the trees of a `where` clause. -/
structure Generics where
  params : List GenericParam := []
  clause : List Tree := []

/-- A parameter list in angle brackets, or nothing when it is empty. -/
def Generics.angle (params : List GenericParam) (print : GenericParam → List Tree) : List Tree :=
  if params.isEmpty then []
  else
    op "<" ++
      Grammar.lifetimesFirst (params.map fun param =>
        (print param, param.isLifetime, param.comma)) ++
      op ">"

/-- The parameter list of a declaration. -/
def Generics.print (generics : Generics) : List Tree :=
  Generics.angle generics.params fun param => param.head ++ param.fallback

namespace Grammar

variable (g : Grammar)

/-- A head with bounds: a colon with no bounds after it is not printed. -/
def headWithBounds (attrs : List Attribute) (subject : Tree) (colon : Bool) (count : Nat)
    (bounds : List Tree) : List Tree :=
  printOuter attrs ++ [subject] ++ if colon && 0 < count then op ":" ++ bounds else []

/-- Bounds of a lifetime. -/
def lifetimeBounds (stop : List Tree → Bool) : Reader Nat :=
  loop (fun count : Nat => do
    if stop (← ahead) then return .inr count
    discard lifetime
    if ← operator? "+" then return .inl (count + 1) else return .inr (count + 1)) 0

/-- A default of a generic parameter, with its `=`. -/
def parameterDefault {α : Type} (value : Reader α) : Reader (List Tree) := do
  let read ← phrase do
    if ← operator? "=" then discard value
  return read.print

/-- A generic parameter. -/
def genericParam : Reader GenericParam := do
  let attrs ← g.outerAttributes
  let trees ← ahead
  if atLifetime trees then
    let subject ← lifetime
    let colon ← operator? ":"
    let bounds ← if colon then phrase (lifetimeBounds (atAnyOperator [",", ">"]))
      else pure ⟨0, []⟩
    return ⟨true, headWithBounds attrs (.lifetime subject) colon bounds.kind bounds.print, [],
      false⟩
  else if atIdent trees then
    let subject ← word
    let colon ← operator? ":"
    let bounds ← if colon then phrase (g.boundsUntil (atAnyOperator [",", ">", "="]))
      else pure ⟨0, []⟩
    let fallback ← parameterDefault (g.type true)
    return ⟨false, headWithBounds attrs (.ident subject) colon bounds.kind bounds.print, fallback,
      false⟩
  else if atKeyword "const" trees then
    let head ← phrase do
      keyword "const"
      discard Reader.ident
      operator ":"
      discard (g.type true)
    let fallback ← parameterDefault g.constArgument
    return ⟨false, printOuter attrs ++ head.print, fallback, false⟩
  else if atKeyword "_" trees then
    keyword "_"
    return ⟨false, printOuter attrs ++ [name "_"], [], false⟩
  else missing "identifier"

/-- A generic parameter list, if one stands next. -/
def genericParams : Reader (List GenericParam) := do
  if atOperator "<" (← ahead) then
    printingAs
      (do
        operator "<"
        let params ← untilAngle g.genericParam
        operator ">"
        return params.map fun (param, comma) => { param with comma := comma })
      (fun params => Generics.print ⟨params, []⟩)
  else return []

/-- No further condition of a `where` clause stands next. -/
def atClauseEnd (trees : List Tree) : Bool :=
  trees.isEmpty || atGroup .brace trees || atAnyOperator [",", ";", "="] trees ||
    (atOperator ":" trees && !atOperator "::" trees)

/-- A condition of a `where` clause. -/
def wherePredicate : Reader Unit := do
  let trees ← ahead
  if atLifetime trees && atOperator ":" (trees.drop 1) then
    discard lifetime
    operator ":"
    discard <| lifetimeBounds atClauseEnd
  else
    discard g.boundLifetimes
    discard (g.type true)
    operator ":"
    discard <| g.boundsUntil atClauseEnd

/-- A `where` clause, if one stands next, as it is printed: not at all when it is empty. -/
def whereClause : Reader (List Tree) := do
  if atKeyword "where" (← ahead) then
    printingAs
      (do
        let clause ← phrase do
          keyword "where"
          loop (fun count : Nat => do
            if atClauseEnd (← ahead) then return .inr count
            g.wherePredicate
            if ← operator? "," then return .inl (count + 1) else return .inr (count + 1)) 0
        return if clause.kind == 0 then [] else clause.print)
      id
  else return []

end Grammar

end Source
end Toolsmith
