import Toolsmith.Text.Escaped

/-! # Double-quoted text

Two written forms of a text between double quotes: `shown`, used inside messages, and `literal`,
used for string literals placed in generated code. They differ only in how a null character is
written when an octal digit follows it.
-/

namespace Toolsmith
namespace Text

/-- The escape of a code point by its number, `\u` and lower-case hexadecimal digits in braces. -/
def codeEscape (c : Char) : List Char :=
  ['\\', 'u', '\x7b'] ++ Nat.toDigits 16 c.toNat ++ ['\x7d']

/-- How one character is written between double quotes. A single quote stands for itself. -/
def quotedChar (c : Char) : List Char :=
  if c == '\n' then ['\\', 'n']
  else if c == '\r' then ['\\', 'r']
  else if c == '\t' then ['\\', 't']
  else if c == '"' then ['\\', '"']
  else if c == '\\' then ['\\', '\\']
  else if c.toNat == 0 then ['\\', '0']
  else if isEscaped c then codeEscape c
  else [c]

/-- An octal digit, which a preceding `\0` would seem to absorb. -/
def isOctal (c : Char) : Bool := '0' ≤ c && c ≤ '7'

/-- The inside of a string literal. -/
def literalBody : List Char → List Char
  | [] => []
  | c :: rest =>
    if c.toNat == 0 && rest.head?.any isOctal then ['\\', 'x', '0', '0'] ++ literalBody rest
    else quotedChar c ++ literalBody rest

/-- A text as a message shows it. -/
def shown (text : String) : String :=
  String.ofList ('"' :: (text.toList.flatMap quotedChar ++ ['"']))

/-- A text as a string literal of generated code. -/
def literal (text : String) : String :=
  String.ofList ('"' :: (literalBody text.toList ++ ['"']))

end Text
end Toolsmith
