import Toolsmith.Source.Function

/-! # Implementation blocks

An `impl` block and its members. A member is a function, a declaration of a function without a
body, or anything else, of which only the trees are kept.
-/

namespace Toolsmith
namespace Source

open Reader

/-- A member of an implementation block. -/
inductive ImplMember where
  | function (item : Function)
  | declaration (item : Declaration)
  | other (code : List Tree)

/-- The trees of a member. -/
def ImplMember.print : ImplMember → List Tree
  | .function item => item.print
  | .declaration item => item.print
  | .other code => code

/-- An implementation block. -/
structure ImplBlock where
  attrs : List Attribute := []
  isDefault : Bool := false
  isUnsafe : Bool := false
  generics : Generics := {}
  /-- The trait implemented, with a `!` in front when it is refused. -/
  trait : Option (List Tree) := none
  selfType : TypeExpr
  members : List ImplMember := []

/-- The trees of a block: inner attributes at the start of its braces. -/
def ImplBlock.print (block : ImplBlock) : List Tree :=
  printOuter block.attrs ++ qualifier block.isDefault "default" ++
    qualifier block.isUnsafe "unsafe" ++ [name "impl"] ++ block.generics.print ++
    (match block.trait with
      | some path => path ++ [name "for"]
      | none => []) ++
    block.selfType.print ++ block.generics.clause ++
    [brace (printInner block.attrs ++ block.members.flatMap ImplMember.print)]

/-- What a member was read as. The trees of a `raw` one are kept as written. -/
inductive MemberForm where
  | function (item : Function)
  | declaration (item : Declaration)
  | printed
  | raw

/-- Whether the member's trees are kept as written. -/
def MemberForm.isRaw : MemberForm → Bool
  | .declaration _ | .raw => true
  | _ => false

namespace Grammar

variable (g : Grammar)

/-- A macro call as a member or item: braces end it, other delimiters need a semicolon. -/
def macroItem : Reader Unit := do
  discard modulePath
  operator "!"
  discard <| if atIdent (← ahead) || atKeyword "try" (← ahead) then some <$> word else pure none
  let (delimiter, _) ← anyGroup "arguments"
  if delimiter != .brace then operator ";"

/-- A constant from `const` on: whether it has a value, and neither generic parameters nor a
`where` clause. -/
def constItem : Reader Bool := do
  keyword "const"
  if atKeyword "_" (← ahead) then keyword "_" else discard Reader.ident
  let angle := atOperator "<" (← ahead)
  discard g.genericParams
  operator ":"
  discard (g.type true)
  let value ← operator? "="
  if value then discard (g.expression true)
  let clause := atKeyword "where" (← ahead)
  discard g.whereClause
  operator ";"
  return value && !angle && !clause

/-- A type alias from `type` on: whether it has a value and no bounds. -/
def typeItem : Reader Bool := do
  keyword "type"
  discard Reader.ident
  discard g.genericParams
  let bounded ← operator? ":"
  if bounded then
    discard <| g.boundsUntil fun trees =>
      atKeyword "where" trees || atAnyOperator ["=", ";"] trees
  discard g.whereClause
  let value ← operator? "="
  if value then discard (g.type true)
  discard g.whereClause
  operator ";"
  return value && !bounded

/-- A member of an implementation block. -/
def memberForm : Reader MemberForm := asWrittenIf MemberForm.isRaw do
  let attrs ← g.outerAttributes
  let vis ← phrase visibility
  let trees ← ahead
  let isDefault := atKeyword "default" trees && !atOperator "!" (trees.drop 1)
  if isDefault then keyword "default"
  let trees ← ahead
  if atSignature trees then
    let sig ← g.signature
    if ← operator? ";" then
      return if isDefault then .raw else .declaration ⟨attrs, vis.print, sig⟩
    else
      let (inner, body) ← g.functionBody
      return .function
        { attrs := attrs ++ inner, vis := vis.print, isDefault := isDefault, sig := sig,
          body := body }
  else if atKeyword "const" trees then
    return if ← g.constItem then .printed else .raw
  else if atKeyword "type" trees then
    return if ← g.typeItem then .printed else .raw
  else if !vis.kind && !isDefault && atPath trees && !atKeyword "Self" trees then
    discard modulePath
    operator "!"
    let (delimiter, _) ← anyGroup "arguments"
    if delimiter != .brace then operator ";"
    return .printed
  else missing "an associated item"

/-- A member with its trees. -/
def member : Reader ImplMember := do
  let read ← phrase g.memberForm
  return match read.kind with
    | .function item => .function item
    | .declaration item => .declaration item
    | .printed | .raw => .other read.print

/-- An implementation block after its outer attributes. -/
def implAfterAttributes (attrs : List Attribute) : Reader ImplBlock := do
  let isDefault ← keyword? "default"
  let isUnsafe ← keyword? "unsafe"
  keyword "impl"
  let params ← if atGenerics (← ahead) then g.genericParams else pure []
  let trees ← ahead
  let negative := atOperator "!" trees && !atGroup .brace (trees.drop 1)
  let mark ← phrase (if negative then operator "!" else pure ())
  let first ← phrase (g.type true)
  let forTrait ← keyword? "for"
  if negative && !forTrait then fail (.refused "inherent impls cannot be negative")
  let isTraitPath := match first.kind with
    | .path _ qualified _ => !qualified
    | .other => false
  if forTrait && !isTraitPath then missing "trait path"
  let selfType ← if forTrait then phrase (g.type true) else pure first
  let clause ← g.whereClause
  let (inner, members) ← group .brace do
    let inner ← g.innerAttributes
    let members ← many (!·.isEmpty) g.member
    return (inner, members)
  return { attrs := attrs ++ inner, isDefault, isUnsafe, generics := ⟨params, clause⟩,
           trait := if forTrait then some (mark.print ++ first.print) else none,
           selfType, members }

/-- An implementation block. -/
def implBlock : Reader ImplBlock := do
  let attrs ← g.outerAttributes
  g.implAfterAttributes attrs

end Grammar

end Source
end Toolsmith
