import Toolsmith.Source.Grammar.Type

/-! # Patterns -/

namespace Toolsmith
namespace Source

open Reader

namespace Grammar

variable (g : Grammar)

/-- A pattern with alternatives, possibly with a leading `|`. -/
def patternAlternatives : Reader Unit := do
  discard (operator? "|")
  loop (fun (_ : Unit) => do
    g.pattern
    let trees ← ahead
    if atOperator "|" trees && !atOperator "||" trees && !atOperator "|=" trees then
      operator "|"
      return .inl ()
    else return .inr ()) ()

/-- The index of a field that a number stands for, in decimal without leading zeros. An index fits
32 bits. -/
def fieldIndex? (text : String) : Option String :=
  let digits := text.toList.filter (· != '_')
  let value := digits.foldl (fun value c => 10 * value + (c.toNat - '0'.toNat)) 0
  if isNumber text && digits.all Char.isDigit && value < 4294967296 then some (toString value)
  else none

/-- The name of a field: an identifier or an index. True when it is an identifier. -/
def memberName : Reader Bool := do
  match (← ahead) with
  | .literal text :: _ =>
    match fieldIndex? text with
    | some index =>
      discard <| treeAs [.literal index]
      return false
    | none => missing "identifier or integer"
  | _ =>
    discard Reader.ident
    return true

/-- A field of a struct pattern. -/
def fieldPattern : Reader Unit := do
  discard g.outerAttributes
  if atOperator ".." (← ahead) then operator ".."
  else
    let boxed ← keyword? "box"
    let byRef ← keyword? "ref"
    let mutable ← keyword? "mut"
    let named ← memberName
    let trees ← ahead
    if !named || (!boxed && !byRef && !mutable && atOperator ":" trees) then
      operator ":"
      g.patternAlternatives

/-- An end of a range pattern may be left out here. -/
def atRangeEnd (trees : List Tree) : Bool :=
  trees.isEmpty || atAnyOperator ["|", "=", ",", ";"] trees ||
    (atOperator ":" trees && !atOperator "::" trees) || atKeyword "if" trees

/-- An end of a range pattern: whether one is there. -/
def rangeBound : Reader Bool := do
  let trees ← ahead
  if atRangeEnd trees then return false
  else if atLiteral trees then
    if atOperator "-" trees then operator "-"
    discard tree
    return true
  else if atPath trees || atOperator "<" trees then
    discard (g.anyPath true)
    return true
  else if atKeyword "const" trees then
    keyword "const"
    g.block
    return true
  else missing "a literal or path"

/-- The rest of a range pattern whose `..` stands next. -/
def rangePattern : Reader Unit := do
  let closed := atAnyOperator ["..=", "..."] (← ahead)
  operator (if atOperator "..=" (← ahead) then "..=" else if closed then "..." else "..")
  if !(← g.rangeBound) && closed then missing "range upper bound"

/-- A pattern starting with a path. -/
def pathPattern : Reader Unit := do
  let path ← g.anyPath true
  let trees ← ahead
  if path.isModulePath && atOperator "!" trees && !atOperator "!=" trees then
    operator "!"
    discard <| anyGroup "arguments"
  else if atGroup .brace trees then discard <| group .brace (commaSeparated g.fieldPattern)
  else if atGroup .paren trees then
    discard <| group .paren (commaSeparated g.patternAlternatives)
  else if atOperator ".." trees then g.rangePattern

/-- A pattern without alternatives. -/
def patternProduction : Reader Unit := do
  let trees ← ahead
  let second := trees.drop 1
  if (atIdent trees && (atAnyOperator ["::", "!", ".."] second || atGroup .brace second ||
        atGroup .paren second)) ||
      (atKeyword "self" trees && atOperator "::" second) ||
      atAnyOperator ["::", "<"] trees || atAnyKeyword ["Self", "super", "crate"] trees then
    g.pathPattern
  else if atKeyword "_" trees then
    keyword "_"
  else if atKeyword "box" trees then
    keyword "box"
    g.pattern
  else if atOperator "-" trees || atLiteral trees || atKeyword "const" trees then
    discard g.rangeBound
    if atOperator ".." (← ahead) then g.rangePattern
  else if atAnyKeyword ["ref", "mut", "self"] trees || atIdent trees then
    discard (keyword? "ref")
    discard (keyword? "mut")
    if atKeyword "self" (← ahead) then keyword "self" else discard Reader.ident
    if ← operator? "@" then g.pattern
  else if atOperator "&" trees then
    operator "&"
    discard (keyword? "mut")
    g.pattern
  else if atGroup .paren trees then
    discard <| group .paren (commaSeparated g.patternAlternatives)
  else if atGroup .bracket trees then
    discard <| group .bracket (commaSeparated g.patternAlternatives)
  else if atOperator ".." trees && !atOperator "..." trees then
    g.rangePattern
  else missing "a pattern"

end Grammar

end Source
end Toolsmith
