import Toolsmith.Source.Grammar.Expression

/-! # Statements -/

namespace Toolsmith
namespace Source

open Reader

/-- A statement that declares an item starts here. -/
def atItemStatement (trees : List Tree) : Bool :=
  let second := trees.drop 1
  let third := trees.drop 2
  let closureAfterAsync :=
    atKeyword "async" second && (atKeyword "move" third || atOperator "|" third)
  let functionAfter (trees : List Tree) := atAnyKeyword ["unsafe", "extern", "fn"] trees
  atAnyKeyword ["pub", "extern", "use", "fn", "mod", "type", "struct", "enum", "trait", "impl",
      "macro"] trees ||
    (atKeyword "crate" trees && !atOperator "::" second) ||
    (atKeyword "static" trees &&
      (atKeyword "mut" second || (atIdent second && !closureAfterAsync))) ||
    (atKeyword "const" trees &&
      !(atGroup .brace second || atKeyword "static" second ||
        (atKeyword "async" second && !functionAfter third) || atKeyword "move" second ||
        atOperator "|" second)) ||
    (atKeyword "unsafe" trees && !atGroup .brace second) ||
    (atKeyword "async" trees && functionAfter second) ||
    (atKeyword "union" trees && atIdent second) ||
    (atKeyword "auto" trees && atKeyword "trait" second) ||
    (atKeyword "default" trees && atAnyKeyword ["unsafe", "impl"] second)

/-- The last tree is a group in braces. -/
def endsWithBrace (pieces : List Piece) : Bool :=
  match (Piece.printAll pieces).getLast? with
  | some (.group .brace _) => true
  | _ => false

namespace Grammar

variable (g : Grammar)

/-- A variable binding, from `let` to its semicolon. -/
def letStatement : Reader Unit := do
  keyword "let"
  g.pattern
  if ← operator? ":" then discard (g.type true)
  if ← operator? "=" then
    let value ← phrase (g.expression true)
    if !endsWithBrace value.pieces && atKeyword "else" (← ahead) then
      keyword "else"
      g.block
  operator ";"

/-- How a statement that starts with a macro path continues. -/
inductive MacroStatement where
  /-- The macro declares an item. -/
  | item
  /-- The macro has braces and is complete. -/
  | braced
  | none

/-- Look past a path and an exclamation mark. -/
def macroStatement : Reader MacroStatement := do
  match ← beyond modulePath with
  | some rest =>
    let second := rest.drop 1
    let third := rest.drop 2
    if atOperator "!" rest then
      if atIdent second || atKeyword "try" second then return .item
      else if atGroup .brace second &&
          !((atOperator "." third && !atOperator ".." third) || atOperator "?" third) then
        return .braced
      else return .none
    else return .none
  | none => return .none

/-- A statement. True when a semicolon must follow before another statement. -/
def statementProduction : Reader Bool := do
  discard g.outerAttributes
  match ← macroStatement with
  | .braced =>
    discard modulePath
    operator "!"
    discard <| anyGroup "arguments"
    discard (operator? ";")
    return false
  | .item =>
    g.item
    return false
  | .none =>
    let trees ← ahead
    if atKeyword "let" trees then
      g.letStatement
      return false
    else if atItemStatement trees then
      g.item
      return false
    else
      let kind ← g.early
      if ← operator? ";" then return false
      else return !(kind == .block || kind == .bracedCall)

/-- The statements between the braces of a block. -/
def statementsProduction : Reader Unit :=
  loop (fun (_ : Unit) => do
    discard <| many (atOperator ";") (operator ";")
    if (← ahead).isEmpty then return .inr ()
    let unfinished ← g.statementProduction
    if (← ahead).isEmpty then return .inr ()
    else if unfinished then fail (.refused "unexpected token, expected `;`")
    else return .inl ()) ()

end Grammar

end Source
end Toolsmith
