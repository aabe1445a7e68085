import Toolsmith.Source.Reader

/-! # Looking ahead

Tests on the trees still to be read, by which the grammar chooses between forms.
-/

namespace Toolsmith
namespace Source

/-- The keywords, which are no identifiers. -/
def keywords : List String :=
  ["_", "abstract", "as", "async", "await", "become", "box", "break", "const", "continue",
   "crate", "do", "dyn", "else", "enum", "extern", "false", "final", "fn", "for", "if", "impl",
   "in", "let", "loop", "macro", "match", "mod", "move", "mut", "override", "priv", "pub", "ref",
   "return", "Self", "self", "static", "struct", "super", "trait", "true", "try", "type", "typeof",
   "unsafe", "unsized", "use", "virtual", "where", "while", "yield"]

/-- An identifier that is no keyword. -/
def Ident.isPlain (ident : Ident) : Bool := ident.raw || !keywords.contains ident.name

/-- The marks of an operator stand next, all but the last joint. -/
def startsMarks : List Char → List Tree → Bool
  | [], _ => true
  | [mark], .punct found _ :: _ => found == mark
  | mark :: next :: marks, .punct found joint :: rest =>
    found == mark && joint && startsMarks (next :: marks) rest
  | _, _ => false

/-- The operator stands next. A longer operator that begins with it counts too. -/
def atOperator (text : String) (trees : List Tree) : Bool := startsMarks text.toList trees

/-- One of the operators stands next. -/
def atAnyOperator (texts : List String) (trees : List Tree) : Bool :=
  texts.any (atOperator · trees)

/-- The keyword stands next. -/
def atKeyword (text : String) : List Tree → Bool
  | .ident name :: _ => name == ⟨false, text⟩
  | _ => false

/-- One of the keywords stands next. -/
def atAnyKeyword (texts : List String) (trees : List Tree) : Bool :=
  texts.any (atKeyword · trees)

/-- An identifier or keyword stands next. -/
def atWord : List Tree → Bool
  | .ident _ :: _ => true
  | _ => false

/-- An identifier stands next. -/
def atIdent : List Tree → Bool
  | .ident name :: _ => name.isPlain
  | _ => false

/-- A lifetime stands next. -/
def atLifetime : List Tree → Bool
  | .lifetime _ :: _ => true
  | _ => false

/-- A group with the given delimiter stands next. -/
def atGroup (delimiter : Delimiter) : List Tree → Bool
  | .group found _ :: _ => found == delimiter
  | _ => false

/-- A literal whose text starts with a digit. -/
def isNumber (text : String) : Bool := text.toList.head?.any Char.isDigit

/-- A literal stands next: a literal token, a truth value, or a number with a minus sign. -/
def atLiteral : List Tree → Bool
  | .literal _ :: _ => true
  | .ident name :: _ => name == ⟨false, "true"⟩ || name == ⟨false, "false"⟩
  | .punct '-' _ :: .literal text :: _ => isNumber text
  | _ => false

/-- A path may start here, other than with a qualified type. -/
def atPath (trees : List Tree) : Bool :=
  atIdent trees || atOperator "::" trees || atAnyKeyword ["self", "Self", "super", "crate"] trees

/-- A generic parameter list, and not a qualified path, stands next. -/
def atGenerics (trees : List Tree) : Bool :=
  let second := trees.drop 1
  let third := trees.drop 2
  atOperator "<" trees &&
    (atAnyOperator [">", "#"] second || atKeyword "const" second ||
      ((atLifetime second || atIdent second) &&
        (atAnyOperator [">", ",", "="] third ||
          (atOperator ":" third && !atOperator "::" third))))

/-- After a keyword, a generic parameter list and not a qualified path stands next. -/
def atGenericsAfterKeyword (trees : List Tree) : Bool := atGenerics (trees.drop 1)

namespace Reader

/-- Take a keyword if it stands next. -/
def keyword? (text : String) : Reader Bool := do
  if atKeyword text (← ahead) then
    keyword text
    return true
  else return false

/-- Take an operator if it stands next. -/
def operator? (text : String) : Reader Bool := do
  if atOperator text (← ahead) then
    operator text
    return true
  else return false

/-- Take a lifetime if one stands next. -/
def lifetime? : Reader (Option Ident) := do
  if atLifetime (← ahead) then return some (← lifetime) else return none

/-- Take an identifier that is no keyword. -/
def ident : Reader Ident := do
  if atIdent (← ahead) then word else missing "identifier"

/-- Take one tree as it is written, the literal at the front. -/
def literalText : Reader String
  | .literal text :: rest => .ok ⟨text, [.tree (.literal text)], rest, rfl⟩
  | trees => .error (.expected "literal" trees.isEmpty)

/-- Fail unless nothing is left. -/
def done : Reader Unit := do
  if (← ahead).isEmpty then return () else fail .leftover

end Reader

end Source
end Toolsmith
