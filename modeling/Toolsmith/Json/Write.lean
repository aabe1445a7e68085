import Toolsmith.Json.Value
import Toolsmith.Number.Shortest

/-! # Writing JSON

The text of a value, without blanks. Numbers are written with the fewest digits that identify
them; characters below the space are escaped and all others stand for themselves.
-/

namespace Toolsmith
namespace Json

/-- The digits of a number. -/
def natText (n : Nat) : List Char := Nat.toDigits 10 n

/-- The text of an integer. -/
def integerText (n : Int) : List Char :=
  if n < 0 then '-' :: natText n.natAbs else natText n.natAbs

/-- The smallest power of ten that is written without an exponent. -/
def leastPlainPower : Int := -5

/-- The smallest power of ten that is written with an exponent again. -/
def leastLargePower : Int := 16

/-- A positive decimal with its point in place, or with an exponent when it is very large or very
small. There is always a point or an exponent. -/
def decimalText (decimal : Decimal) : List Char :=
  let digits := natText decimal.digits
  let point := digits.length + decimal.exponent
  let power := point - 1
  if leastPlainPower ≤ power ∧ power < leastLargePower then
    if 0 ≤ decimal.exponent then
      digits ++ List.replicate decimal.exponent.toNat '0' ++ ['.', '0']
    else if 0 < point then
      digits.take point.toNat ++ '.' :: digits.drop point.toNat
    else '0' :: '.' :: (List.replicate (-point).toNat '0' ++ digits)
  else
    let fraction := digits.drop 1
    digits.take 1 ++ (if fraction.isEmpty then [] else '.' :: fraction) ++
      'e' :: ((if 0 ≤ power then ['+'] else ['-']) ++ natText power.natAbs)

/-- The text of a binary number. -/
def floatText (x : Binary64) : List Char :=
  (if x.negative then ['-'] else []) ++
    if x.significand = 0 then ['0', '.', '0'] else decimalText x.shortest

/-- The text of a number. -/
def numberText : Number → List Char
  | .integer value => integerText value
  | .float value => floatText value

/-- A character inside a string. -/
def escapeChar (c : Char) : List Char :=
  if c = '"' then ['\\', '"']
  else if c = '\\' then ['\\', '\\']
  else if c = '\n' then ['\\', 'n']
  else if c = '\r' then ['\\', 'r']
  else if c = '\t' then ['\\', 't']
  else if c = '\x08' then ['\\', 'b']
  else if c = '\x0c' then ['\\', 'f']
  else if c.toNat < 0x20 then
    ['\\', 'u', '0', '0', Nat.digitChar (c.toNat / 16), Nat.digitChar (c.toNat % 16)]
  else [c]

/-- The text of a string. -/
def stringText (text : String) : List Char :=
  '"' :: (text.toList.flatMap escapeChar ++ ['"'])

mutual

/-- The characters of a value. -/
def write : Json → List Char
  | .null => ['n', 'u', 'l', 'l']
  | .bool true => ['t', 'r', 'u', 'e']
  | .bool false => ['f', 'a', 'l', 's', 'e']
  | .number value => numberText value
  | .string text => stringText text
  | .array [] => ['[', ']']
  | .array (item :: rest) => '[' :: (item.write ++ writeItems rest ++ [']'])
  | .object [] => ['\x7b', '\x7d']
  | .object ((name, value) :: rest) =>
    '\x7b' :: (stringText name ++ ':' :: value.write ++ writeMembers rest ++ ['\x7d'])

/-- Further items, each after a comma. -/
def writeItems : List Json → List Char
  | [] => []
  | item :: rest => ',' :: (item.write ++ writeItems rest)

/-- Further members, each after a comma. -/
def writeMembers : List (String × Json) → List Char
  | [] => []
  | (name, value) :: rest =>
    ',' :: (stringText name ++ ':' :: value.write ++ writeMembers rest)

end

/-- The text of a value. -/
def text (json : Json) : String := String.ofList json.write

end Json
end Toolsmith
