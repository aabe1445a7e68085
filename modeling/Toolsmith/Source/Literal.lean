import Toolsmith.Text.Identifier

/-! # Literals

Recognising string, byte, character and number literals at the front of a text, and the value of
a string literal. A quoted literal is read by one automaton, `QuotedState.next`, which at each
character rejects, ends the literal, or goes on, possibly having denoted a character; so what is
accepted and what it denotes cannot drift apart.
-/

namespace Toolsmith
namespace Source

open Text

/-- The three kinds of quoted literal. -/
inductive QuotedKind where
  /-- Unicode text. -/
  | text
  /-- Bytes: only ASCII may stand for itself. -/
  | bytes
  /-- Null-terminated text: no null character may be denoted. -/
  | terminated
deriving DecidableEq, Repr

/-- Whether a character may stand for itself. -/
def QuotedKind.admits : QuotedKind → Char → Bool
  | .text, _ => true
  | .bytes, c => c.toNat < 0x80
  | .terminated, c => c.toNat != 0

/-- The value of a hexadecimal digit. -/
def hexDigit? (c : Char) : Option Nat :=
  if '0' ≤ c && c ≤ '9' then some (c.toNat - '0'.toNat)
  else if 'a' ≤ c && c ≤ 'f' then some (c.toNat - 'a'.toNat + 10)
  else if 'A' ≤ c && c ≤ 'F' then some (c.toNat - 'A'.toNat + 10)
  else none

/-- Whether a two-digit hexadecimal escape of this value is allowed. -/
def QuotedKind.admitsHex : QuotedKind → Nat → Bool
  | .text, value => value < 0x80
  | .bytes, _ => true
  | .terminated, value => value != 0

/-- What a single-letter escape denotes. -/
def QuotedKind.escape? (kind : QuotedKind) (c : Char) : Option Char :=
  if c == 'n' then some '\n'
  else if c == 'r' then some '\r'
  else if c == 't' then some '\t'
  else if c == '\\' || c == '\'' || c == '"' then some c
  else if c == '0' && kind != .terminated then some (Char.ofNat 0)
  else none

/-- Where the reader of a quoted literal stands. -/
inductive QuotedState where
  | plain
  /-- After a carriage return, which a line feed must follow. -/
  | carriageReturn
  /-- After a backslash. -/
  | escape
  | hexFirst
  | hexSecond (first : Nat)
  | unicodeOpen
  | unicodeDigits (count value : Nat)
  /-- After a backslash at the end of a line: blanks are skipped. -/
  | skipping
  | skippingReturn
deriving DecidableEq, Repr

/-- One move of the reader. -/
inductive QuotedMove where
  | reject
  | finish
  | advance (state : QuotedState) (denoted : Option Char)
deriving Repr

/-- A code point that is a character. -/
def scalar? (value : Nat) : Option Char :=
  if value < 0xd800 || (0xdfff < value && value < 0x110000) then some (Char.ofNat value) else none

/-- The move at a character that is not part of an escape. -/
def QuotedState.plainMove (kind : QuotedKind) (close : Char) (c : Char) : QuotedMove :=
  if c == close then .finish
  else if c == '\r' then .advance .carriageReturn none
  else if c == '\\' then .advance .escape none
  else if kind.admits c then .advance .plain (some c)
  else .reject

/-- The move from each state at each character. -/
def QuotedState.next (kind : QuotedKind) (close : Char) (state : QuotedState) (c : Char) :
    QuotedMove :=
  match state with
  | .plain => plainMove kind close c
  | .carriageReturn => if c == '\n' then .advance .plain (some '\n') else .reject
  | .escape =>
    if c == 'x' then .advance .hexFirst none
    else if c == 'u' && kind != .bytes then .advance .unicodeOpen none
    else if c == '\n' then .advance .skipping none
    else if c == '\r' then .advance .skippingReturn none
    else match kind.escape? c with
      | some denoted => .advance .plain (some denoted)
      | none => .reject
  | .hexFirst =>
    match hexDigit? c with
    | some value => .advance (.hexSecond value) none
    | none => .reject
  | .hexSecond first =>
    match hexDigit? c with
    | some second =>
      let value := 16 * first + second
      if kind.admitsHex value then .advance .plain (some (Char.ofNat value)) else .reject
    | none => .reject
  | .unicodeOpen => if c == '\x7b' then .advance (.unicodeDigits 0 0) none else .reject
  | .unicodeDigits count value =>
    match hexDigit? c with
    | some digit =>
      if count == 6 then .reject
      else .advance (.unicodeDigits (count + 1) (16 * value + digit)) none
    | none =>
      if c == '_' && 0 < count then .advance (.unicodeDigits count value) none
      else if c == '\x7d' && 0 < count then
        match scalar? value with
        | some denoted =>
          if kind == .terminated && value == 0 then .reject
          else .advance .plain (some denoted)
        | none => .reject
      else .reject
  | .skipping =>
    if c == ' ' || c == '\t' || c == '\n' then .advance .skipping none
    else if c == '\r' then .advance .skippingReturn none
    else plainMove kind close c
  | .skippingReturn => if c == '\n' then .advance .skipping none else .reject

/-- Read the inside of a quoted literal up to its closing quote: the characters denoted, and what
follows the quote. -/
def scanQuoted (kind : QuotedKind) : QuotedState → List Char → Option (List Char × List Char)
  | _, [] => none
  | state, c :: rest =>
    match state.next kind '"' c with
    | .reject => none
    | .finish => some ([], rest)
    | .advance state denoted =>
      (scanQuoted kind state rest).map fun (value, tail) => (denoted.toList ++ value, tail)

/-- Read the inside of a raw literal that ends with a quote and `hashes` number signs. -/
def scanRaw (kind : QuotedKind) (hashes : Nat) : List Char → Option (List Char × List Char)
  | [] => none
  | '\r' :: '\n' :: rest =>
    (scanRaw kind hashes rest).map fun (value, tail) => ('\r' :: '\n' :: value, tail)
  | c :: rest =>
    if c == '"' && rest.take hashes == List.replicate hashes '#' then
      some ([], rest.drop hashes)
    else if c == '\r' || !kind.admits c then none
    else (scanRaw kind hashes rest).map fun (value, tail) => (c :: value, tail)

/-- Read a raw literal after its letters: number signs, a quote, and the text. -/
def scanRawFrom (kind : QuotedKind) (chars : List Char) : Option (List Char × List Char) :=
  let hashes := (chars.takeWhile (· == '#')).length
  match chars.drop hashes with
  | '"' :: rest => if hashes ≤ 255 then scanRaw kind hashes rest else none
  | _ => none

/-- The identifier at the front of a text, without a raw mark, and what follows it. -/
def scanName (chars : List Char) : Option (List Char × List Char) :=
  match chars with
  | c :: rest =>
    if isIdentStart c then
      some (c :: rest.takeWhile isIdentContinue, rest.dropWhile isIdentContinue)
    else none
  | [] => none

/-- What follows the optional suffix of a literal. -/
def dropSuffix (chars : List Char) : List Char :=
  match scanName chars with
  | some (_, rest) => rest
  | none => chars

/-- The value of the string literal at the front of a text, and what follows its closing quote. -/
def scanString (chars : List Char) : Option (List Char × List Char) :=
  match chars with
  | '"' :: rest => scanQuoted .text .plain rest
  | 'r' :: rest => scanRawFrom .text rest
  | _ => none

/-- What follows a string, byte-string or null-terminated string literal, suffix excluded. -/
def scanAnyString (chars : List Char) : Option (List Char) :=
  match chars with
  | 'b' :: '"' :: rest => (scanQuoted .bytes .plain rest).map (·.2)
  | 'b' :: 'r' :: rest => (scanRawFrom .bytes rest).map (·.2)
  | 'c' :: '"' :: rest => (scanQuoted .terminated .plain rest).map (·.2)
  | 'c' :: 'r' :: rest => (scanRawFrom .terminated rest).map (·.2)
  | _ => (scanString chars).map (·.2)

/-- Read an escape after its backslash, up to the point where it has denoted a character. -/
def scanEscape (kind : QuotedKind) : QuotedState → List Char → Option (List Char)
  | _, [] => none
  | state, c :: rest =>
    match state.next kind '\'' c with
    | .advance .plain _ => some rest
    | .advance .skipping _ => none
    | .advance .skippingReturn _ => none
    | .advance state _ => scanEscape kind state rest
    | _ => none

/-- What follows a quoted single character or byte, opening quote already read. -/
def scanSingle (kind : QuotedKind) (chars : List Char) : Option (List Char) :=
  let after := match chars with
    | '\\' :: rest => scanEscape kind .escape rest
    | c :: rest => if kind.admits c then some rest else none
    | [] => none
  match after with
  | some ('\'' :: rest) => some rest
  | _ => none

/-- A decimal digit. -/
def isDigit (c : Char) : Bool := '0' ≤ c && c ≤ '9'

/-- The digits of a float up to its exponent: whether a point was seen, what follows, and, when an
exponent mark comes next, what follows the mark. -/
def scanMantissa (point : Bool) : List Char → Option (Bool × List Char × Option (List Char))
  | [] => some (point, [], none)
  | c :: rest =>
    if isDigit c || c == '_' then scanMantissa point rest
    else if c == '.' && !point then
      if rest.head?.any (fun d => d == '.' || isIdentStart d) then none
      else scanMantissa true rest
    else if c == 'e' || c == 'E' then some (point, c :: rest, some rest)
    else some (point, c :: rest, none)

/-- What follows an exponent, or nothing when it has no digits. -/
def scanExponent (sign digits : Bool) : List Char → Option (List Char)
  | [] => if digits then some [] else none
  | c :: rest =>
    if (c == '+' || c == '-') && !digits then
      if sign then none else scanExponent true digits rest
    else if isDigit c then scanExponent sign true rest
    else if c == '_' then scanExponent sign digits rest
    else if digits then some (c :: rest) else none

/-- What follows the digits of a float literal. Without a point there must be an exponent; an
exponent mark with no digits after a point begins a suffix. -/
def scanFloatDigits (chars : List Char) : Option (List Char) :=
  match chars with
  | c :: rest =>
    if isDigit c then
      match scanMantissa false rest with
      | some (point, before, some after) =>
        match scanExponent false false after with
        | some tail => some tail
        | none => if point then some before else none
      | some (true, tail, none) => some tail
      | _ => none
    else none
  | [] => none

/-- The digits of an integer in a base up to the first character that is none; a decimal digit too
large for the base rejects. -/
def scanBaseDigits (base : Nat) (empty : Bool) : List Char → Option (List Char)
  | [] => if empty then none else some []
  | c :: rest =>
    let stop := if empty then none else some (c :: rest)
    if c == '_' then
      if empty && base == 10 then none else scanBaseDigits base empty rest
    else match hexDigit? c with
      | some digit =>
        if digit < base then scanBaseDigits base false rest
        else if isDigit c then none
        else stop
      | none => stop

/-- What follows the digits of an integer literal. -/
def scanIntDigits (chars : List Char) : Option (List Char) :=
  match chars with
  | '0' :: 'x' :: rest => scanBaseDigits 16 true rest
  | '0' :: 'o' :: rest => scanBaseDigits 8 true rest
  | '0' :: 'b' :: rest => scanBaseDigits 2 true rest
  | _ => scanBaseDigits 10 true chars

/-- After a number and its suffix no identifier character may follow. -/
def endNumber (chars : List Char) : Option (List Char) :=
  let rest := dropSuffix chars
  if rest.head?.any isIdentContinue then none else some rest

/-- What follows the literal at the front of a text. -/
def scanLiteral (chars : List Char) : Option (List Char) :=
  (scanAnyString chars).map dropSuffix
  <|> (match chars with
    | 'b' :: '\'' :: rest => (scanSingle .bytes rest).map dropSuffix
    | '\'' :: rest => (scanSingle .text rest).map dropSuffix
    | _ => none)
  <|> (scanFloatDigits chars).bind endNumber
  <|> (scanIntDigits chars).bind endNumber

/-- The value of a string literal, when the literal is one. -/
def stringValue? (literal : String) : Option String :=
  (scanString literal.toList).map fun (value, _) => String.ofList value

end Source
end Toolsmith
