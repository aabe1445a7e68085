import Toolsmith.Source.Attribute

/-! # Paths, generic arguments and bounds -/

namespace Toolsmith
namespace Source

open Reader

namespace Grammar

variable (g : Grammar)

/-- The lifetimes bound by `for<...>`. -/
def boundLifetimes : Reader Bool := do
  if ← keyword? "for" then
    operator "<"
    discard <| untilAngle do
      discard g.outerAttributes
      discard lifetime
      if ← operator? ":" then
        discard <| loop (fun (_ : Unit) => do
          if atLifetime (← ahead) then
            discard lifetime
            if ← operator? "+" then return .inl () else return .inr ()
          else return .inr ()) ()
    operator ">"
    return true
  else return false

/-- A return type `-> T`; absent when there is no arrow. -/
def returnType (plus : Bool) : Reader Bool := do
  if ← operator? "->" then
    discard (g.type plus)
    return true
  else return false

/-- Types in parentheses after a trait, and its result. -/
def parenthesizedArguments : Reader Unit := do
  discard <| group .paren (commaSeparated (g.type true))
  discard (g.returnType false)

/-- Arguments in parentheses stand next, possibly after `::`. -/
def atParenthesized (trees : List Tree) : Bool :=
  atGroup .paren trees || (atOperator "::" trees && atGroup .paren (trees.drop 2))

/-- A single bound: a lifetime or a trait. -/
def bound : Reader Unit := do
  let trees ← ahead
  if atLifetime trees then discard lifetime
  else if atKeyword "use" trees then
    keyword "use"
    operator "<"
    discard <| untilAngle (do if atLifetime (← ahead) then discard lifetime else discard word)
    operator ">"
  else
    let traitBound : Reader Unit := do
      let bound ← g.boundLifetimes
      if ← operator? "~" then keyword "const"
      if (← operator? "?") && !bound then discard g.boundLifetimes
      let found ← g.path false
      if !found.applied && atParenthesized (← ahead) then
        discard (operator? "::")
        g.parenthesizedArguments
    if atGroup .paren trees then group .paren traitBound else traitBound

/-- Bounds joined by `+` until one of the stopping tests holds. -/
def boundsUntil (stop : List Tree → Bool) : Reader Nat :=
  loop (fun count : Nat => do
    if stop (← ahead) then return .inr count
    g.bound
    if ← operator? "+" then return .inl (count + 1) else return .inr (count + 1)) 0

/-- A further bound may follow a `+`. -/
def atBound (trees : List Tree) : Bool :=
  atWord trees || atAnyOperator ["::", "?"] trees || atLifetime trees || atGroup .paren trees

/-- One or more bounds; only one unless `plus`. -/
def bounds (plus : Bool) : Reader Unit :=
  loop (fun (_ : Unit) => do
    g.bound
    if plus && atOperator "+" (← ahead) then
      operator "+"
      if atBound (← ahead) then return .inl () else return .inr ()
    else return .inr ()) ()

/-- A generic argument: whether it is a lifetime. -/
def genericArgument : Reader Bool := do
  let trees ← ahead
  if atLifetime trees && !atOperator "+" (trees.drop 1) then
    discard lifetime
    return true
  else if atLiteral trees || atGroup .brace trees then
    g.constArgument
    return false
  else
    match ← g.type true with
    | .path _ false true =>
      if ← operator? "=" then
        let trees ← ahead
        if atLiteral trees || atGroup .brace trees then g.constArgument
        else discard (g.type true)
      else if ← operator? ":" then
        discard <| g.boundsUntil (atAnyOperator [",", ">"])
    | _ => pure ()
    return false

/-- Generic arguments in angle brackets, printed with the lifetimes first. -/
def angleArguments : Reader Unit := do
  discard (operator? "::")
  operator "<"
  discard <| (untilAngle (phrase g.genericArgument)).printingAs fun arguments =>
    lifetimesFirst (arguments.map fun (argument, comma) =>
      (argument.print, argument.kind, comma))
  operator ">"

/-- A segment of a path: its identifier, and whether it has arguments. In `expression` style
arguments need `::` in front. -/
def pathSegment (expression : Bool) : Reader (Ident × Bool) := do
  let trees ← ahead
  if atAnyKeyword ["super", "self", "crate", "try"] trees then return (← word, false)
  let ident ← if atKeyword "Self" trees then word else Reader.ident
  let trees ← ahead
  if (!expression && atOperator "<" trees && !atOperator "<=" trees) ||
      (atOperator "::" trees && atOperator "<" (trees.drop 2)) then
    g.angleArguments
    return (ident, true)
  else return (ident, false)

/-- The segments of a path after its first. -/
def pathRest (expression parens : Bool) (start : PathKind) : Reader PathKind :=
  loop (fun found : PathKind => do
    let trees ← ahead
    if atOperator "::" trees && (parens || !atGroup .paren (trees.drop 2)) then
      operator "::"
      let (ident, applied) ← g.pathSegment expression
      return .inl { found with
        last := ident, segments := found.segments + 1,
        arguments := found.arguments || applied, applied := applied }
    else return .inr found) start

/-- A path without a qualified type in front. -/
def plainPath (expression : Bool) : Reader PathKind := do
  let rooted ← operator? "::"
  let (ident, applied) ← g.pathSegment expression
  g.pathRest expression false
    { last := ident, segments := 1, rooted := rooted, qualified := false, arguments := applied,
      applied := applied }

/-- A path, possibly starting with a qualified type `<T as Trait>::`. -/
def anyPath (expression : Bool) : Reader PathKind := do
  if atOperator "<" (← ahead) then
    operator "<"
    discard (g.type true)
    if ← keyword? "as" then discard (g.path false)
    operator ">"
    operator "::"
    let (ident, applied) ← g.pathSegment expression
    g.pathRest expression true
      { last := ident, segments := 1, rooted := false, qualified := true, arguments := applied,
        applied := applied }
  else g.plainPath expression

end Grammar

end Source
end Toolsmith
