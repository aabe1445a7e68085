import Toolsmith.Source.ImplBlock

/-! # Items

The declarations that may stand among the statements of a block. -/

namespace Toolsmith
namespace Source

open Reader

namespace Grammar

variable (g : Grammar)

/-- A named field. -/
def namedField : Reader Unit := do
  discard g.outerAttributes
  discard visibility
  discard Reader.ident
  operator ":"
  discard (g.type true)

/-- A field known by its position. -/
def positionalField : Reader Unit := do
  discard g.outerAttributes
  discard visibility
  discard (g.type true)

/-- A struct or union, from its keyword on. -/
def structItem : Reader Unit := do
  discard word
  discard Reader.ident
  discard g.genericParams
  discard g.whereClause
  let trees ← ahead
  if atGroup .paren trees then
    discard <| group .paren (commaSeparated g.positionalField)
    discard g.whereClause
    operator ";"
  else if atGroup .brace trees then discard <| group .brace (commaSeparated g.namedField)
  else operator ";"

/-- A variant of an enumeration. -/
def variant : Reader Unit := do
  discard g.outerAttributes
  discard visibility
  discard Reader.ident
  let trees ← ahead
  if atGroup .brace trees then discard <| group .brace (commaSeparated g.namedField)
  else if atGroup .paren trees then discard <| group .paren (commaSeparated g.positionalField)
  if ← operator? "=" then discard (g.expression true)

/-- An enumeration. -/
def enumItem : Reader Unit := do
  keyword "enum"
  discard Reader.ident
  discard g.genericParams
  discard g.whereClause
  discard <| group .brace (commaSeparated g.variant)

/-- A tree of imported names, nested to at most the given depth. -/
def useTree : Nat → Reader Unit
  | 0 => missing "identifier"
  | depth + 1 =>
    loop (fun (_ : Unit) => do
      let trees ← ahead
      if atOperator "*" trees then
        operator "*"
        return .inr ()
      else if atGroup .brace trees then
        discard <| group .brace (commaSeparated (do
          discard (operator? "::")
          useTree depth))
        return .inr ()
      else if atIdent trees || atAnyKeyword ["self", "super", "crate", "try"] trees then
        discard word
        if ← operator? "::" then return .inl ()
        else
          if ← keyword? "as" then
            if atKeyword "_" (← ahead) then keyword "_" else discard Reader.ident
          return .inr ()
      else missing "identifier") ()

/-- An import. -/
def useItem : Reader Unit := do
  keyword "use"
  discard (operator? "::")
  useTree (Tree.sizeAll (← ahead) + 1)
  operator ";"

/-- A static variable. -/
def staticItem : Reader Unit := do
  keyword "static"
  discard (keyword? "mut")
  discard Reader.ident
  if ← operator? ":" then discard (g.type true)
  if ← operator? "=" then discard (g.expression true)
  operator ";"

/-- A trait, from its name on. -/
def traitItem : Reader Unit := do
  discard (keyword? "unsafe")
  discard (keyword? "auto")
  keyword "trait"
  discard Reader.ident
  discard g.genericParams
  if ← operator? "=" then
    discard <| g.boundsUntil fun trees => atKeyword "where" trees || atOperator ";" trees
    discard g.whereClause
    operator ";"
  else
    if ← operator? ":" then
      discard <| g.boundsUntil fun trees => atKeyword "where" trees || atGroup .brace trees
    discard g.whereClause
    group .brace do
      discard g.innerAttributes
      discard <| many (!·.isEmpty) g.memberForm

/-- A module, from its keyword on. -/
def moduleItem : Reader Unit := do
  discard (keyword? "unsafe")
  keyword "mod"
  discard Reader.ident
  if !(← operator? ";") then
    group .brace do
      discard g.innerAttributes
      discard <| many (!·.isEmpty) (do
        discard g.outerAttributes
        g.item)

/-- A foreign item: a declaration, a static variable, a type or a macro call. -/
def foreignItem : Reader Unit := do
  discard g.outerAttributes
  discard visibility
  let trees ← ahead
  if atSignature trees then
    discard g.signature
    operator ";"
  else if atKeyword "static" trees then g.staticItem
  else if atKeyword "type" trees then discard g.typeItem
  else macroItem

/-- An external crate or a block of foreign items. -/
def externItem : Reader Unit := do
  discard (keyword? "unsafe")
  let trees ← ahead
  if atKeyword "crate" (trees.drop 1) then
    keyword "extern"
    keyword "crate"
    discard word
    if ← keyword? "as" then discard word
    operator ";"
  else
    discard abi
    group .brace do
      discard g.innerAttributes
      discard <| many (!·.isEmpty) g.foreignItem

/-- A declarative macro. -/
def macroDefinition : Reader Unit := do
  keyword "macro"
  discard Reader.ident
  if atGroup .paren (← ahead) then discard <| anyGroup "arguments"
  if atGroup .brace (← ahead) then discard <| anyGroup "arguments" else missing "curly braces"

/-- An item after its attributes. A constant or a type alias in a form that only later stages accept
is printed as it is written. -/
def itemProduction : Reader Unit := do
  let vis ← beyond visibility
  let trees := vis.getD []
  let second := trees.drop 1
  if atSignature trees then
    discard visibility
    discard g.signature
    if !(← operator? ";") then discard g.functionBody
  else if atKeyword "impl" trees || (atKeyword "unsafe" trees && atKeyword "impl" second) ||
      (atKeyword "default" trees && !atOperator "!" second) then
    discard <| g.implAfterAttributes []
  else
    discard visibility
    if atKeyword "extern" trees || (atKeyword "unsafe" trees && atKeyword "extern" second) then
      g.externItem
    else if atKeyword "use" trees then useItem
    else if atKeyword "static" trees then g.staticItem
    else if atKeyword "const" trees then discard <| asWrittenIf (!·) g.constItem
    else if atKeyword "mod" trees || (atKeyword "unsafe" trees && atKeyword "mod" second) then
      g.moduleItem
    else if atKeyword "type" trees then discard <| asWrittenIf (!·) g.typeItem
    else if atKeyword "struct" trees || (atKeyword "union" trees && atIdent second) then
      g.structItem
    else if atKeyword "enum" trees then g.enumItem
    else if atKeyword "trait" trees || (atAnyKeyword ["unsafe", "auto"] trees) then g.traitItem
    else if atKeyword "macro" trees then macroDefinition
    else macroItem

end Grammar

end Source
end Toolsmith
