import Toolsmith.Source.Grammar.Path

/-! # Types -/

namespace Toolsmith
namespace Source

open Reader

namespace Grammar

variable (g : Grammar)

/-- The calling convention of a function, `extern "C"`; absent when there is no `extern`. -/
def abi : Reader Bool := do
  if ← keyword? "extern" then
    match (← ahead) with
    | .literal text :: _ =>
      if text.startsWith "\"" || text.startsWith "r" then discard literalText
    | _ => pure ()
    return true
  else return false

/-- A parameter of a function type: a type, possibly with a name in front. -/
def functionTypeParameter : Reader Unit := do
  discard g.outerAttributes
  let trees ← ahead
  if atOperator "..." trees then operator "..."
  else
    if atKeyword "mut" trees && atKeyword "self" (trees.drop 1) then keyword "mut"
    let trees ← ahead
    let second := trees.drop 1
    if (atIdent trees || atAnyKeyword ["_", "self"] trees) && atOperator ":" second &&
        !atOperator "::" second then
      discard word
      operator ":"
      if ← operator? "..." then return ()
    discard (g.type true)

/-- A function type, after any bound lifetimes. -/
def functionType : Reader Unit := do
  discard (keyword? "unsafe")
  discard abi
  keyword "fn"
  discard <| group .paren (commaSeparated g.functionTypeParameter)
  discard (g.returnType false)

/-- More bounds after a first one, each after a `+`. -/
def furtherBounds : Reader Unit :=
  loop (fun (_ : Unit) => do
    if ← operator? "+" then
      if atBound (← ahead) then
        g.bound
        return .inl ()
      else return .inr ()
    else return .inr ()) ()

/-- A type in parentheses, a tuple, or a bound in parentheses. -/
def parenthesizedType (plus : Bool) : Reader TypeKind := do
  let isBound ← group .paren do
    let trees ← ahead
    if trees.isEmpty then return false
    else if atLifetime trees then
      g.bounds true
      return false
    else if atOperator "?" trees then
      g.bounds false
      return true
    else
      let first ← g.type true
      if atOperator "," (← ahead) then
        operator ","
        discard <| commaSeparated (g.type true)
        return false
      else
        return match first with
          | .path _ qualified _ => !qualified
          | .other => false
  if isBound && plus then g.furtherBounds
  return .other

/-- A path type, a macro call, or the first of several bounds. -/
def pathType (plus bound : Bool) : Reader TypeKind := do
  let path ← g.anyPath false
  let parenthesized := !path.applied && atParenthesized (← ahead)
  if parenthesized then
    discard (operator? "::")
    g.parenthesizedArguments
  let trees ← ahead
  let kind := TypeKind.path path.last path.qualified
    (path.segments == 1 && !path.rooted && !parenthesized)
  if path.qualified then return kind
  else if atOperator "!" trees && !atOperator "!=" trees && !path.arguments && !parenthesized then
    operator "!"
    discard <| anyGroup "arguments"
    return .other
  else if bound || (plus && atOperator "+" trees) then
    if plus then g.furtherBounds
    return .other
  else return kind

/-- A type. -/
def typeProduction (plus : Bool) : Reader TypeKind := do
  let bound ← g.boundLifetimes
  let trees ← ahead
  if bound && !(atPath trees || atAnyKeyword ["fn", "unsafe", "extern", "dyn"] trees) then
    missing "identifier"
  else if atGroup .paren trees then g.parenthesizedType plus
  else if atAnyKeyword ["fn", "unsafe", "extern"] trees then
    g.functionType
    return .other
  else if atPath trees || atOperator "<" trees then g.pathType plus bound
  else if atKeyword "dyn" trees then
    keyword "dyn"
    discard (operator? "*")
    g.bounds plus
    return .other
  else if atGroup .bracket trees then
    group .bracket do
      discard (g.type true)
      if ← operator? ";" then discard (g.expression true)
    return .other
  else if atOperator "*" trees then
    operator "*"
    if atKeyword "const" (← ahead) then keyword "const" else keyword "mut"
    discard (g.type false)
    return .other
  else if atOperator "&" trees then
    operator "&"
    discard lifetime?
    discard (keyword? "mut")
    discard (g.type false)
    return .other
  else if atOperator "!" trees && !atOperator "!=" trees then
    operator "!"
    return .other
  else if atKeyword "impl" trees then
    keyword "impl"
    g.bounds plus
    return .other
  else if atKeyword "_" trees then
    keyword "_"
    return .other
  else if atLifetime trees then
    g.bounds plus
    return .other
  else missing "a type"

end Grammar

end Source
end Toolsmith
