import Toolsmith.Source.Grammar.Basic

/-! # Attributes

An attribute `#[path]`, `#[path(tokens)]` or `#[path = value]` before a declaration, or the same
after `#!` inside one.
-/

namespace Toolsmith
namespace Source

open Reader

/-- The path of an attribute: identifiers joined by `::`, possibly from the root. -/
structure AttributePath where
  rooted : Bool
  segments : List Ident
deriving DecidableEq, Repr, Inhabited

/-- The trees of a path. -/
def AttributePath.print (path : AttributePath) : List Tree :=
  (if path.rooted then op "::" else []) ++
    separated (op "::") (path.segments.map fun segment => [.ident segment])

/-- Whether the path is just this identifier. -/
def AttributePath.isIdent (path : AttributePath) (name : String) : Bool :=
  !path.rooted && path.segments == [⟨false, name⟩]

/-- What follows the path of an attribute. -/
inductive AttributeArguments where
  | none
  | list (delimiter : Delimiter) (tokens : List Tree)
  | value (expression : Expression)

/-- An attribute, outer or inner. -/
structure Attribute where
  inner : Bool
  path : AttributePath
  arguments : AttributeArguments

/-- The trees of the arguments. -/
def AttributeArguments.print : AttributeArguments → List Tree
  | .none => []
  | .list delimiter tokens => [.group delimiter tokens]
  | .value expression => op "=" ++ expression.print

/-- The trees of an attribute. -/
def Attribute.print (attr : Attribute) : List Tree :=
  op "#" ++ (if attr.inner then op "!" else []) ++
    [bracket (attr.path.print ++ attr.arguments.print)]

/-- The trees of the outer attributes among these. -/
def printOuter (attributes : List Attribute) : List Tree :=
  (attributes.filter (!·.inner)).flatMap Attribute.print

/-- The trees of the inner attributes among these. -/
def printInner (attributes : List Attribute) : List Tree :=
  (attributes.filter (·.inner)).flatMap Attribute.print

/-- Identifiers joined by `::`, none with generic arguments. -/
def modulePath : Reader AttributePath := do
  let rooted ← operator? "::"
  let segments ← loop (fun segments : List Ident => do
    let trees ← ahead
    if atIdent trees || atAnyKeyword ["super", "self", "Self", "crate"] trees then
      let segments := (← word) :: segments
      if ← operator? "::" then return .inl segments else return .inr segments
    else missing "identifier") []
  return ⟨rooted, segments.reverse⟩

namespace Grammar

variable (g : Grammar)

/-- The content of an attribute's brackets. -/
def attributeContent (inner : Bool) : Reader Attribute := do
  let path ←
    if ← keyword? "unsafe" then pure ⟨false, [⟨false, "unsafe"⟩]⟩ else modulePath
  let trees ← ahead
  if atGroup .paren trees || atGroup .bracket trees || atGroup .brace trees then
    let (delimiter, tokens) ← anyGroup "arguments"
    return ⟨inner, path, .list delimiter tokens⟩
  else if atOperator "=" trees then
    operator "="
    let trees ← ahead
    if atOperator "#" trees && atGroup .bracket (trees.drop 1) then
      fail (.refused "unexpected attribute inside of attribute")
    else return ⟨inner, path, .value (← phrase (g.expression true))⟩
  else return ⟨inner, path, .none⟩

/-- One outer attribute. -/
def outerAttribute : Reader Attribute := do
  operator "#"
  group .bracket (g.attributeContent false)

/-- One inner attribute. -/
def innerAttribute : Reader Attribute := do
  operator "#"
  operator "!"
  group .bracket (g.attributeContent true)

/-- The outer attributes in front of something. -/
def outerAttributes : Reader (List Attribute) :=
  many (atOperator "#") g.outerAttribute

/-- The inner attributes at the front of something's content. -/
def innerAttributes : Reader (List Attribute) :=
  many (fun trees => atOperator "#" trees && atOperator "!" (trees.drop 1)) g.innerAttribute

end Grammar

end Source
end Toolsmith
