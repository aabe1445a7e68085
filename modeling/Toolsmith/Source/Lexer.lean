import Toolsmith.Source.Literal
import Toolsmith.Source.Tree
import Toolsmith.Text.Blank

/-! # Reading text into token trees

`lex?` reads a whole text. Blanks and comments separate tokens; a documentation comment becomes a
`doc` attribute; every delimiter must be closed by its partner.
-/

namespace Toolsmith
namespace Source

open Text

/-- A character that separates tokens: blank, or one of the two direction marks. -/
def isSeparator (c : Char) : Bool :=
  isBlank c || c.toNat == 0x200e || c.toNat == 0x200f

/-- The punctuation marks. -/
def punctuationMarks : List Char := "~!@#$%^&*-=+|;:,<.>/?".toList

/-- Whether the text starts with a comment, whose slash is no punctuation. -/
def startsComment : List Char → Bool
  | '/' :: '/' :: _ => true
  | '/' :: '*' :: _ => true
  | _ => false

/-- Whether the text starts with a punctuation mark, an apostrophe counting as one. -/
def startsMark (chars : List Char) : Bool :=
  match chars with
  | c :: _ => (punctuationMarks.contains c || c == '\'') && !startsComment chars
  | [] => false

/-- What follows the block comment in which the text stands at the given depth. -/
def skipBlock (depth : Nat) : List Char → Option (List Char)
  | '/' :: '*' :: rest => skipBlock (depth + 1) rest
  | '*' :: '/' :: rest => if depth ≤ 1 then some rest else skipBlock (depth - 1) rest
  | _ :: rest => skipBlock depth rest
  | [] => none

/-- The text up to the end of the line, and what follows from its line feed on. -/
def splitLine : List Char → List Char × List Char
  | [] => ([], [])
  | '\r' :: '\n' :: rest => ([], '\n' :: rest)
  | c :: rest =>
    if c == '\n' then ([], c :: rest)
    else
      let (line, tail) := splitLine rest
      (c :: line, tail)

/-- A documentation comment: its content, whether it documents the enclosing item, and what
follows. -/
def scanDoc (chars : List Char) : Option (List Char × Bool × List Char) :=
  let block (inner : Bool) : Option (List Char × Bool × List Char) :=
    (skipBlock 0 chars).map fun rest =>
      let comment := chars.take (chars.length - rest.length)
      ((comment.drop 3).take (comment.length - 5), inner, rest)
  match chars with
  | '/' :: '/' :: '!' :: rest =>
    let (line, tail) := splitLine rest
    some (line, true, tail)
  | '/' :: '*' :: '!' :: _ => block true
  | '/' :: '/' :: '/' :: '/' :: _ => none
  | '/' :: '/' :: '/' :: rest =>
    let (line, tail) := splitLine rest
    some (line, false, tail)
  | '/' :: '*' :: '*' :: '*' :: _ => none
  | '/' :: '*' :: '*' :: _ => block false
  | _ => none

/-- Whether every carriage return is followed by a line feed. -/
def pairedReturns : List Char → Bool
  | [] => true
  | '\r' :: '\n' :: rest => pairedReturns rest
  | c :: rest => c != '\r' && pairedReturns rest

/-- The attribute that a documentation comment stands for. -/
def docAttribute (inner : Bool) (content : List Char) : List Tree :=
  let value := literal (String.ofList content)
  let body := Tree.group .bracket [.ident ⟨false, "doc"⟩, .punct '=' false, .literal value]
  if inner then [.punct '#' false, .punct '!' false, body] else [.punct '#' false, body]

/-- What follows a comment that is not documentation. An unclosed one is none. -/
def skipComment (chars : List Char) : Option (List Char) :=
  match chars with
  | '/' :: '/' :: '/' :: '/' :: _ => some (splitLine chars).2
  | '/' :: '/' :: '/' :: _ => none
  | '/' :: '/' :: '!' :: _ => none
  | '/' :: '/' :: _ => some (splitLine chars).2
  | '/' :: '*' :: '*' :: '/' :: rest => some rest
  | '/' :: '*' :: '*' :: '*' :: _ => skipBlock 0 chars
  | '/' :: '*' :: '*' :: _ => none
  | '/' :: '*' :: '!' :: _ => none
  | '/' :: '*' :: _ => skipBlock 0 chars
  | _ => none

/-- The names that have no raw form. -/
def neverRaw : List String := ["_", "super", "self", "Self", "crate"]

/-- The identifier at the front of a text, raw or not. -/
def scanIdent (chars : List Char) : Option (Ident × List Char) :=
  match chars with
  | 'r' :: '#' :: rest =>
    (scanName rest).bind fun (name, tail) =>
      let name := String.ofList name
      if neverRaw.contains name then none else some (⟨true, name⟩, tail)
  | _ => (scanName chars).map fun (name, tail) => (⟨false, String.ofList name⟩, tail)

/-- Whether the text starts like a quoted literal, and so not with an identifier. -/
def startsQuoted : List Char → Bool
  | 'r' :: '"' :: _ | 'r' :: '#' :: '"' :: _ | 'r' :: '#' :: '#' :: _ => true
  | 'b' :: '"' :: _ | 'b' :: '\'' :: _ | 'b' :: 'r' :: '"' :: _ | 'b' :: 'r' :: '#' :: _ => true
  | 'c' :: '"' :: _ | 'c' :: 'r' :: '"' :: _ | 'c' :: 'r' :: '#' :: _ => true
  | _ => false

/-- A lifetime: an apostrophe and an identifier that no second apostrophe closes. -/
def scanLifetime (chars : List Char) : Option (Ident × List Char) :=
  match chars with
  | '\'' :: rest =>
    (scanIdent rest).bind fun (name, tail) =>
      match tail with
      | '\'' :: _ => none
      | '#' :: _ => if name.raw then some (name, tail) else none
      | _ => some (name, tail)
  | _ => none

/-- The token at the front of a text that is no delimiter. -/
def scanLeaf (chars : List Char) : Option (Tree × List Char) :=
  match scanLiteral chars with
  | some rest => some (.literal (String.ofList (chars.take (chars.length - rest.length))), rest)
  | none =>
    match chars with
    | '\'' :: _ => (scanLifetime chars).map fun (name, rest) => (.lifetime name, rest)
    | c :: rest =>
      if startsMark chars then some (.punct c (startsMark rest), rest)
      else if startsQuoted chars then none
      else (scanIdent chars).map fun (name, rest) => (.ident name, rest)
    | [] => none

/-- The groups still open while a text is read, innermost first, each with the trees before it in
reverse, and the trees read since the last opening in reverse. -/
structure OpenGroups where
  outer : List (Delimiter × List Tree) := []
  current : List Tree := []

/-- Open a group. -/
def OpenGroups.push (groups : OpenGroups) (delimiter : Delimiter) : OpenGroups :=
  ⟨(delimiter, groups.current) :: groups.outer, []⟩

/-- Close the innermost group, which must have the same delimiter. -/
def OpenGroups.pop? (groups : OpenGroups) (delimiter : Delimiter) : Option OpenGroups :=
  match groups.outer with
  | (opened, before) :: outer =>
    if opened = delimiter then
      some ⟨outer, .group delimiter groups.current.reverse :: before⟩
    else none
  | [] => none

/-- The delimiter that a character opens. -/
def opens? (c : Char) : Option Delimiter :=
  if c == '(' then some .paren
  else if c == '[' then some .bracket
  else if c == '\x7b' then some .brace
  else none

/-- The delimiter that a character closes. -/
def closes? (c : Char) : Option Delimiter :=
  if c == ')' then some .paren
  else if c == ']' then some .bracket
  else if c == '\x7d' then some .brace
  else none

/-- Read one blank, comment, delimiter or token off the front of a text that is not empty. -/
def lexStep (groups : OpenGroups) (chars : List Char) : Option (OpenGroups × List Char) :=
  match chars with
  | [] => none
  | c :: rest =>
    if isSeparator c then some (groups, rest)
    else match skipComment chars with
      | some tail => some (groups, tail)
      | none =>
        match scanDoc chars with
        | some (content, inner, tail) =>
          if pairedReturns content then
            some ({ groups with current := (docAttribute inner content).reverse ++ groups.current },
              tail)
          else none
        | none =>
          match opens? c with
          | some delimiter => some (groups.push delimiter, rest)
          | none =>
            match closes? c with
            | some delimiter => (groups.pop? delimiter).map fun groups => (groups, rest)
            | none =>
              (scanLeaf chars).map fun (tree, tail) =>
                ({ groups with current := tree :: groups.current }, tail)

/-- Read a text to its end in at most `steps` steps. -/
def lexLoop : Nat → OpenGroups → List Char → Option (List Tree)
  | _, groups, [] => if groups.outer.isEmpty then some groups.current.reverse else none
  | 0, _, _ :: _ => none
  | steps + 1, groups, chars =>
    match lexStep groups chars with
    | some (groups, rest) => lexLoop steps groups rest
    | none => none

/-- The token trees of a text, or nothing when it is no sequence of tokens. A byte order mark in
front is skipped. Every step reads at least one character, so its length bounds the steps. -/
def lex? (text : String) : Option (List Tree) :=
  let chars := match text.toList with
    | c :: rest => if c.toNat == 0xfeff then rest else c :: rest
    | [] => []
  lexLoop chars.length {} chars

end Source
end Toolsmith
