import Toolsmith.Source.Grammar.Pattern

/-! # Expressions

Operators are read by precedence climbing: an operand, then the operators that bind at least as
tightly as a base, each with a right side that takes what binds tighter still.
-/

namespace Toolsmith
namespace Source

open Reader

namespace Precedence

/-- Every operator. -/
def any : Nat := 0
/-- Assignment. -/
def assign : Nat := 1
/-- Ranges. -/
def range : Nat := 2
/-- Comparisons. -/
def compare : Nat := 6
/-- Casts. -/
def cast : Nat := 13

end Precedence

/-- The binary operators with their precedence, those that begin with another one first. -/
def binaryOperators : List (String × Nat) :=
  [("+=", 1), ("-=", 1), ("*=", 1), ("/=", 1), ("%=", 1), ("^=", 1), ("&=", 1), ("|=", 1),
   ("<<=", 1), (">>=", 1), ("&&", 4), ("||", 3), ("<<", 10), (">>", 10), ("==", 6), ("<=", 6),
   ("!=", 6), (">=", 6), ("+", 11), ("-", 11), ("*", 12), ("/", 12), ("%", 12), ("^", 8),
   ("&", 9), ("|", 7), ("<", 6), (">", 6)]

/-- The binary operator that stands next. -/
def binaryOperator? (trees : List Tree) : Option (String × Nat) :=
  binaryOperators.find? fun (text, _) => atOperator text trees

/-- The precedence of the operator that stands next, the lowest when there is none. -/
def nextPrecedence (trees : List Tree) : Nat :=
  match binaryOperator? trees with
  | some (_, precedence) => precedence
  | none =>
    if atOperator "=" trees && !atOperator "=>" trees then Precedence.assign
    else if atOperator ".." trees then Precedence.range
    else if atKeyword "as" trees then Precedence.cast
    else Precedence.any

/-- An expression may start here. -/
def atExpression (trees : List Tree) : Bool :=
  atWord trees || atGroup .paren trees || atGroup .bracket trees || atGroup .brace trees ||
    atLiteral trees || (atOperator "!" trees && !atOperator "!=" trees) ||
    (atOperator "-" trees && !atAnyOperator ["-=", "->"] trees) ||
    (atOperator "*" trees && !atOperator "*=" trees) ||
    (atOperator "|" trees && !atOperator "|=" trees) ||
    (atOperator "&" trees && !atOperator "&=" trees) || atOperator ".." trees ||
    (atOperator "<" trees && !atAnyOperator ["<=", "<<="] trees) || atOperator "::" trees ||
    atLifetime trees || atOperator "#" trees

namespace Grammar

variable (g : Grammar)

/-- The expression a tail of operators and calls starts from. -/
def expressionAttributes : Reader Bool := do
  return !(← many (atOperator "#") g.outerAttribute).isEmpty

/-- The right side of a binary operator. -/
def rightSide (structs : Bool) (precedence : Nat) : Reader ExprKind := do
  let first ← g.operand structs
  loop (fun kind : ExprKind => do
    let trees ← ahead
    let next := nextPrecedence trees
    if precedence < next || (next == precedence && precedence == Precedence.assign) then
      let kind ← g.operators structs next kind
      if (← ahead).length == trees.length then return .inr kind else return .inl kind
    else return .inr kind) first

/-- The marks of a range: true when its end is included. -/
def rangeLimits : Reader Bool := do
  let trees ← ahead
  if atOperator "..=" trees then
    operator "..="
    return true
  else if atOperator "..." trees then missing "`..` or `..=`"
  else
    operator ".."
    return false

/-- No end follows a half-open range. -/
def atOpenEnd (structs : Bool) (trees : List Tree) : Bool :=
  trees.isEmpty || (atOperator "." trees && !atOperator ".." trees) ||
    (!structs && atGroup .brace trees) || atKeyword "as" trees ||
    atAnyOperator [",", ";", "?", "=>", "=", "+", "/", "%", "^", ">", "<=", "!=", "-=", "*=", "&=",
      "|=", "<<="] trees

/-- A range from its marks on. -/
def rangeTail (structs : Bool) : Reader Unit := do
  let closed ← rangeLimits
  if closed || !atOpenEnd structs (← ahead) then
    discard <| g.rightSide structs Precedence.range

/-- What may not follow a cast. -/
def checkCast : Reader Unit := do
  let trees ← ahead
  if (atOperator "." trees && !atOperator ".." trees) || atOperator "?" trees ||
      atGroup .bracket trees || atGroup .paren trees then
    fail (.refused "casts cannot be followed by a postfix operator")

/-- The operators after a left side. -/
def operatorsProduction (structs : Bool) (base : Nat) (left : ExprKind) : Reader ExprKind :=
  loop (fun left : ExprKind => do
    let trees ← ahead
    if left == .range then return .inr left
    match binaryOperator? trees with
    | some (text, precedence) =>
      if precedence < base then return .inr left
      else if precedence == Precedence.compare && left == .comparison then
        fail (.refused "comparison operators cannot be chained")
      else
        operator text
        discard <| g.rightSide structs precedence
        return .inl (if precedence == Precedence.compare then .comparison else .other)
    | none =>
      if base ≤ Precedence.assign && atOperator "=" trees && !atOperator "=>" trees then
        operator "="
        discard <| g.rightSide structs Precedence.assign
        return .inl .other
      else if base ≤ Precedence.range && atOperator ".." trees then
        g.rangeTail structs
        return .inl .range
      else if base ≤ Precedence.cast && atKeyword "as" trees then
        keyword "as"
        discard (g.type false)
        checkCast
        return .inl .other
      else return .inr left) left

/-- An expression. -/
def expressionProduction (structs : Bool) : Reader ExprKind := do
  let left ← g.operand structs
  g.operators structs Precedence.any left

/-- A block whose braces may hold inner attributes. -/
def attributedBlock : Reader Unit := group .brace do
  discard g.innerAttributes
  g.statements

/-- The cases of a conditional. -/
def conditional : Reader Unit :=
  loop (fun (_ : Unit) => do
    discard g.outerAttributes
    keyword "if"
    discard (g.expression false)
    g.block
    if ← keyword? "else" then
      let trees ← ahead
      if atKeyword "if" trees then return .inl ()
      else if atGroup .brace trees then
        g.block
        return .inr ()
      else missing "`if` or curly braces"
    else return .inr ()) ()

/-- A loop, from its keyword on. -/
def loopExpression : Reader Unit := do
  let trees ← ahead
  if atKeyword "while" trees then
    keyword "while"
    discard (g.expression false)
    g.attributedBlock
  else if atKeyword "for" trees then
    keyword "for"
    g.patternAlternatives
    keyword "in"
    discard (g.expression false)
    g.attributedBlock
  else
    keyword "loop"
    g.attributedBlock

/-- A loop or block after its label. -/
def labelled : Reader Unit := do
  discard lifetime
  operator ":"
  let trees ← ahead
  if atAnyKeyword ["while", "for", "loop"] trees then g.loopExpression
  else if atGroup .brace trees then g.attributedBlock
  else missing "loop or block expression"

/-- A parameter of a closure. -/
def closureParameter : Reader Unit := do
  discard g.outerAttributes
  g.pattern
  if ← operator? ":" then discard (g.type true)

/-- A closure. -/
def closure (structs : Bool) : Reader Unit := do
  discard g.boundLifetimes
  for text in ["const", "static", "async", "move"] do
    discard (keyword? text)
  operator "|"
  loop (fun (_ : Unit) => do
    if atOperator "|" (← ahead) then return .inr ()
    g.closureParameter
    if atOperator "|" (← ahead) then return .inr ()
    operator ","
    return .inl ()) ()
  operator "|"
  if ← operator? "->" then
    discard (g.type true)
    g.block
  else discard (g.expression structs)

/-- A field of a struct literal. -/
def fieldValue : Reader Unit := do
  if atOperator ".." (← ahead) then
    operator ".."
    if !(← ahead).isEmpty then discard (g.expression true)
  else
    discard g.outerAttributes
    let named ← memberName
    if !named || atOperator ":" (← ahead) then
      operator ":"
      discard (g.expression true)

/-- A path, a macro call or a struct literal. -/
def pathExpression (structs : Bool) : Reader ExprKind := do
  let path ← g.anyPath true
  let trees ← ahead
  if path.isModulePath && atOperator "!" trees && !atOperator "!=" trees then
    operator "!"
    let (delimiter, _) ← anyGroup "arguments"
    return if delimiter = .brace then .bracedCall else .other
  else if structs && atGroup .brace trees then
    discard <| group .brace (commaSeparated g.fieldValue)
    return .other
  else return .other

/-- An arm of a match. -/
def matchArm : Reader Unit := do
  discard g.outerAttributes
  g.patternAlternatives
  if ← keyword? "if" then discard (g.expression true)
  operator "=>"
  let body ← g.early
  if body == .block || (← ahead).isEmpty then discard (operator? ",") else operator ","

/-- A match. -/
def matchExpression : Reader Unit := do
  keyword "match"
  discard (g.expression false)
  group .brace do
    discard g.innerAttributes
    discard <| many (!·.isEmpty) g.matchArm

/-- An array, or an element and a length. -/
def arrayExpression : Reader Unit := group .bracket do
  if (← ahead).isEmpty then return ()
  discard (g.expression true)
  let trees ← ahead
  if trees.isEmpty then return ()
  else if atOperator "," trees then
    operator ","
    discard <| commaSeparated (g.expression true)
  else if atOperator ";" trees then
    operator ";"
    discard (g.expression true)
  else missing "`,` or `;`"

/-- The value after `return`, `break` or `yield`. -/
def optionalValue (structs : Bool) : Reader Unit := do
  let trees ← ahead
  if atExpression trees && (structs || !atGroup .brace trees) then discard (g.expression true)

/-- An expression that no operator, call or field access is part of. -/
def atom (structs : Bool) : Reader ExprKind := do
  let trees ← ahead
  let second := trees.drop 1
  let third := trees.drop 2
  if atLiteral trees then
    match (← tree) with
    | .literal text => return .literal text
    | .ident name => return .boolean (name.name == "true")
    | _ => return .other
  else if atKeyword "async" trees &&
      (atGroup .brace second || (atKeyword "move" second && atGroup .brace third)) then
    keyword "async"
    discard (keyword? "move")
    g.block
    return .other
  else if atKeyword "try" trees && atGroup .brace second then
    keyword "try"
    g.block
    return .block
  else if atOperator "|" trees || atAnyKeyword ["move", "static"] trees ||
      (atKeyword "for" trees && atGenericsAfterKeyword trees) ||
      (atKeyword "const" trees && !atGroup .brace second) ||
      (atKeyword "async" trees && (atOperator "|" second || atKeyword "move" second)) then
    g.closure structs
    return .other
  else if atKeyword "builtin" trees && atOperator "#" second then
    keyword "builtin"
    operator "#"
    discard ident
    discard <| group .paren (many (!·.isEmpty) tree)
    return .other
  else if atPath trees || atOperator "<" trees ||
      (atKeyword "try" trees && atAnyOperator ["!", "::"] second) then
    g.pathExpression structs
  else if atGroup .paren trees then
    discard <| group .paren (commaSeparated (g.expression true))
    return .other
  else if atKeyword "break" trees then
    keyword "break"
    if atLifetime (← ahead) && !atOperator ":" ((← ahead).drop 1) then discard lifetime
    g.optionalValue structs
    return .other
  else if atKeyword "continue" trees then
    keyword "continue"
    discard lifetime?
    return .other
  else if atAnyKeyword ["return", "yield", "become"] trees then
    discard word
    g.optionalValue true
    return .other
  else if atGroup .bracket trees then
    g.arrayExpression
    return .other
  else if atKeyword "let" trees then
    keyword "let"
    g.patternAlternatives
    operator "="
    let left ← g.operand false
    discard <| g.operators false Precedence.compare left
    return .other
  else if atKeyword "if" trees then
    g.conditional
    return .block
  else if atAnyKeyword ["while", "for", "loop"] trees then
    g.loopExpression
    return .block
  else if atKeyword "match" trees then
    g.matchExpression
    return .block
  else if atAnyKeyword ["unsafe", "const"] trees then
    discard word
    g.attributedBlock
    return .block
  else if atGroup .brace trees then
    g.attributedBlock
    return .block
  else if atOperator ".." trees then
    g.rangeTail structs
    return .range
  else if atKeyword "_" trees then
    keyword "_"
    return .other
  else if atLifetime trees then
    g.labelled
    return .block
  else missing "an expression"

/-- The indices that a number written after a point stands for: `0.1` in `pair.0.1` is the index
`0`, a point and the index `1`. True when the number ends with its own point, after which a field
is still to come. -/
def tupleIndices? (text : String) : Option (List Tree × Bool) :=
  if isNumber text && text.toList.contains '.' then
    let parts := text.splitOn "."
    let dangling := parts.getLast?.any String.isEmpty
    let indices := if dangling then parts.dropLast else parts
    (indices.mapM fieldIndex?).map fun indices =>
      let trees := separated (op ".") (indices.map fun index => [.literal index])
      (if dangling then trees ++ op "." else trees, dangling)
  else none

/-- A field access or method call from its point on. -/
def fieldAccess : Reader Unit := do
  operator "."
  let dangling ← match (← ahead) with
    | .literal text :: _ =>
      match tupleIndices? text with
      | some (printed, dangling) => do
        discard (treeAs printed)
        if dangling then pure true else return ()
      | none => pure true
    | _ => pure true
  if dangling then
    if ← keyword? "await" then return ()
    let named ← memberName
    let turbofish := named && atOperator "::" (← ahead)
    if turbofish then g.angleArguments
    if turbofish || (named && atGroup .paren (← ahead)) then
      discard <| group .paren (commaSeparated (g.expression true))

/-- The calls, accesses and question marks after an expression. -/
def accesses (start : ExprKind) : Reader ExprKind :=
  loop (fun kind : ExprKind => do
    let trees ← ahead
    if atGroup .paren trees then
      discard <| group .paren (commaSeparated (g.expression true))
      return .inl .other
    else if atOperator "." trees && !atOperator ".." trees && kind != .range then
      g.fieldAccess
      return .inl .other
    else if atGroup .bracket trees then
      group .bracket (discard (g.expression true))
      return .inl .other
    else if atOperator "?" trees && kind != .range then
      operator "?"
      return .inl .other
    else return .inr kind) start

/-- An operand of binary operators: unary operators, then an expression with its calls. -/
def operandProduction (structs : Bool) : Reader ExprKind := do
  let attributed ← g.expressionAttributes
  let trees ← ahead
  if atOperator "&" trees then
    operator "&"
    let trees ← ahead
    if atKeyword "raw" trees && atAnyKeyword ["mut", "const"] (trees.drop 1) then
      discard word
      discard word
    else discard (keyword? "mut")
    discard (g.operand structs)
    return .other
  else if let some text := ["*", "!", "-"].find? (atOperator · trees) then
    operator text
    discard (g.operand structs)
    return .other
  else
    let kind ← g.accesses (← g.atom structs)
    if attributed && kind == .range then
      fail (.refused "attributes are not allowed on range expressions starting with `..`")
    return kind

/-- An expression that stands as a statement or as the body of a match arm: one that ends with a
block is complete there, unless a field access or a question mark follows. -/
def earlyProduction : Reader ExprKind := do
  discard g.expressionAttributes
  let trees ← ahead
  let second := trees.drop 1
  let kind ←
    if atAnyKeyword ["if", "while", "loop", "match", "unsafe"] trees || atGroup .brace trees ||
        atLifetime trees || (atKeyword "for" trees && !atGenericsAfterKeyword trees) ||
        (atAnyKeyword ["try", "const"] trees && atGroup .brace second) then
      g.atom true
    else g.operandProduction true
  let trees ← ahead
  if kind != .block then g.operators true Precedence.any kind
  else if (atOperator "." trees && !atOperator ".." trees) || atOperator "?" trees then
    let kind ← g.accesses kind
    g.operators true Precedence.any kind
  else return kind

end Grammar

end Source
end Toolsmith
