import Toolsmith.Text.Quoted

/-! # Token trees

Source text is read as token trees: identifiers, punctuation marks, lifetimes, literals, and
groups between matching delimiters. Two written forms are given. `render` puts one space between
all tokens, a delimiter being a token; `display` is the compact form used when a type is named in a
message.
-/

namespace Toolsmith
namespace Source

/-- An identifier or keyword. A raw identifier is written with `r#` and is never a keyword. -/
structure Ident where
  raw : Bool := false
  name : String
deriving DecidableEq, Repr, Inhabited

/-- The identifier as written. -/
def Ident.text (ident : Ident) : String :=
  if ident.raw then "r#" ++ ident.name else ident.name

/-- The pairs of delimiters around a group. -/
inductive Delimiter where
  | paren
  | bracket
  | brace
deriving DecidableEq, Repr, Inhabited

/-- The opening mark. -/
def Delimiter.opening : Delimiter → String
  | .paren => "("
  | .bracket => "["
  | .brace => "\x7b"

/-- The closing mark. -/
def Delimiter.closing : Delimiter → String
  | .paren => ")"
  | .bracket => "]"
  | .brace => "\x7d"

/-- A token tree. A punctuation mark is `joint` when another mark follows it immediately; a
literal is kept as its source text. -/
inductive Tree where
  | ident (name : Ident)
  | punct (mark : Char) (joint : Bool)
  | lifetime (name : Ident)
  | literal (text : String)
  | group (delimiter : Delimiter) (content : List Tree)
deriving Repr, Inhabited

mutual

/-- The tokens of a tree, delimiters included. -/
def Tree.words : Tree → List String
  | .ident name => [name.text]
  | .punct mark _ => [mark.toString]
  | .lifetime name => ["'" ++ name.text]
  | .literal text => [text]
  | .group delimiter content =>
    delimiter.opening :: (Tree.wordsAll content ++ [delimiter.closing])

/-- The tokens of a sequence of trees. -/
def Tree.wordsAll : List Tree → List String
  | [] => []
  | tree :: rest => tree.words ++ Tree.wordsAll rest

end

/-- All tokens with single spaces between them. -/
def render (trees : List Tree) : String :=
  " ".intercalate (Tree.wordsAll trees)

mutual

/-- The compact form of one tree. -/
def Tree.display : Tree → String
  | .ident name => name.text
  | .punct mark _ => mark.toString
  | .lifetime name => "'" ++ name.text
  | .literal text => text
  | .group .paren content => "(" ++ Tree.displayAll content ++ ")"
  | .group .bracket content => "[" ++ Tree.displayAll content ++ "]"
  | .group .brace [] => "\x7b \x7d"
  | .group .brace content => "\x7b " ++ Tree.displayAll content ++ " \x7d"

/-- The compact form of a sequence: a space after every tree but the last and the joint marks. -/
def Tree.displayAll : List Tree → String
  | [] => ""
  | [tree] => tree.display
  | .punct mark true :: rest => mark.toString ++ Tree.displayAll rest
  | tree :: rest => tree.display ++ " " ++ Tree.displayAll rest

end

/-- The compact form of a sequence of trees. -/
def display (trees : List Tree) : String := Tree.displayAll trees

mutual

/-- The number of tokens in a tree, a group counting two for its delimiters. -/
def Tree.size : Tree → Nat
  | .group _ content => Tree.sizeAll content + 2
  | _ => 1

/-- The number of tokens in a sequence of trees. -/
def Tree.sizeAll : List Tree → Nat
  | [] => 0
  | tree :: rest => tree.size + Tree.sizeAll rest

end

mutual

/-- Whether two trees are the same. -/
def Tree.same : Tree → Tree → Bool
  | .ident one, .ident two => one == two
  | .punct one joint, .punct two other => one == two && joint == other
  | .lifetime one, .lifetime two => one == two
  | .literal one, .literal two => one == two
  | .group one first, .group two second => one == two && Tree.sameAll first second
  | _, _ => false

/-- Whether two sequences of trees are the same. -/
def Tree.sameAll : List Tree → List Tree → Bool
  | [], [] => true
  | one :: first, two :: second => one.same two && Tree.sameAll first second
  | _, _ => false

end

mutual

theorem Tree.same_iff : ∀ {one two : Tree}, one.same two = true ↔ one = two
  | .ident _, two => by cases two <;> simp [Tree.same]
  | .punct _ _, two => by cases two <;> simp [Tree.same]
  | .lifetime _, two => by cases two <;> simp [Tree.same]
  | .literal _, two => by cases two <;> simp [Tree.same]
  | .group _ _, two => by cases two <;> simp [Tree.same, Tree.sameAll_iff]

theorem Tree.sameAll_iff : ∀ {one two : List Tree}, Tree.sameAll one two = true ↔ one = two
  | [], two => by cases two <;> simp [Tree.sameAll]
  | _ :: _, two => by cases two <;> simp [Tree.sameAll, Tree.same_iff, Tree.sameAll_iff]

end

instance : DecidableEq Tree := fun _ _ => decidable_of_iff _ Tree.same_iff

theorem Tree.wordsAll_append (first second : List Tree) :
    Tree.wordsAll (first ++ second) = Tree.wordsAll first ++ Tree.wordsAll second := by
  induction first with
  | nil => rfl
  | cons tree rest ih => simp [Tree.wordsAll, ih]

end Source
end Toolsmith
