import Toolsmith.Source.Tree

/-! # Writing token trees

Short names for the trees that generated code and printed declarations are made of.
-/

namespace Toolsmith
namespace Source

/-- The marks of an operator, spaced as one operator. -/
def marks : List Char → List Tree
  | [] => []
  | [mark] => [.punct mark false]
  | mark :: rest => .punct mark true :: marks rest

/-- An operator. -/
def op (text : String) : List Tree := marks text.toList

/-- A keyword, or an identifier that needs no raw mark. -/
def name (text : String) : Tree := .ident ⟨false, text⟩

/-- A string literal with the given value. -/
def string (value : String) : Tree := .literal (Text.literal value)

/-- A group in parentheses. -/
def paren (content : List Tree) : Tree := .group .paren content

/-- A group in square brackets. -/
def bracket (content : List Tree) : Tree := .group .bracket content

/-- A group in braces. -/
def brace (content : List Tree) : Tree := .group .brace content

/-- Sequences of trees with a separator between them. -/
def separated (separator : List Tree) : List (List Tree) → List Tree
  | [] => []
  | [only] => only
  | first :: rest => first ++ separator ++ separated separator rest

/-- Sequences of trees with commas between them. -/
def commas (items : List (List Tree)) : List Tree := separated (op ",") items

/-- A path from the root, such as `::core::option::Option`. -/
def rooted (segments : List String) : List Tree :=
  segments.flatMap fun segment => op "::" ++ [name segment]

/-- A path relative to its first segment, such as `Self::create`. -/
def relative (segments : List String) : List Tree :=
  separated (op "::") (segments.map fun segment => [name segment])

/-- A call of what the first trees name. -/
def call (callee : List Tree) (arguments : List (List Tree)) : List Tree :=
  callee ++ [paren (commas arguments)]

/-- A method call on what the first trees denote. -/
def method (receiver : List Tree) (callee : String) (arguments : List (List Tree)) : List Tree :=
  receiver ++ op "." ++ call [name callee] arguments

/-- A type applied to arguments. -/
def applied (head : List Tree) (arguments : List (List Tree)) : List Tree :=
  head ++ op "<" ++ commas arguments ++ op ">"

/-- A statement ended by a semicolon. -/
def statement (code : List Tree) : List Tree := code ++ op ";"

/-- The statement that binds a variable. -/
def letBind (binder : String) (value : List Tree) : List Tree :=
  statement ([name "let", name binder] ++ op "=" ++ value)

end Source
end Toolsmith
