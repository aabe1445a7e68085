import Toolsmith.Json.Mismatch
import Toolsmith.Number.Estimate

/-! # Reading JSON

A `Scan α` reads an `α` off the front of a text, or stops with a fault at a place in it. Places are
counted in bytes, because that is how columns are reported. Lists and objects may be nested to a
limit; a value that is only skipped has none.
-/

namespace Toolsmith
namespace Json

/-- Why a text is not what was to be read. -/
inductive Fault where
  | valueEnded
  | objectEnded
  | listEnded
  | stringEnded
  | noValue
  | noWord
  | noColon
  | noCommaOrBracket
  | noCommaOrBrace
  | keyNotString
  | trailingComma
  | trailingCharacters
  | invalidNumber
  | numberTooLarge
  | invalidEscape
  | halfSurrogate
  | loneSurrogate
  | controlCharacter
  | tooDeep
  /-- The text is JSON so far, of the wrong shape. -/
  | shape (error : ShapeError)
deriving DecidableEq, Repr

/-- The text of a fault. -/
def Fault.message : Fault → String
  | .valueEnded => "EOF while parsing a value"
  | .objectEnded => "EOF while parsing an object"
  | .listEnded => "EOF while parsing a list"
  | .stringEnded => "EOF while parsing a string"
  | .noValue => "expected value"
  | .noWord => "expected ident"
  | .noColon => "expected `:`"
  | .noCommaOrBracket => "expected `,` or `]`"
  | .noCommaOrBrace => "expected `,` or `\x7d`"
  | .keyNotString => "key must be a string"
  | .trailingComma => "trailing comma"
  | .trailingCharacters => "trailing characters"
  | .invalidNumber => "invalid number"
  | .numberTooLarge => "number out of range"
  | .invalidEscape => "invalid escape"
  | .halfSurrogate => "unexpected end of hex escape"
  | .loneSurrogate => "lone leading surrogate in hex escape"
  | .controlCharacter => "control character (\\u0000-\\u001F) found while parsing a string"
  | .tooDeep => "recursion limit exceeded"
  | .shape error => error.message

/-- A fault before `rest`, with `extra` bytes of that already looked at. -/
structure Stop where
  fault : Fault
  rest : List Char
  extra : Nat := 0

/-- A reader of an `α` off the front of a text. -/
abbrev Scan (α : Type) := StateT (List Char) (Except Stop) α

namespace Scan

variable {α σ : Type}

/-- Stop where the text stands. -/
def stop (fault : Fault) : Scan α := fun rest => .error { fault, rest }

/-- Stop at the next byte. -/
def stopAt (fault : Fault) : Scan α := fun rest => .error { fault, rest, extra := 1 }

/-- Stop with one fault at the end of the text and another before it. -/
def stopUnless (ended other : Fault) : Scan α := fun rest =>
  if rest.isEmpty then .error { fault := ended, rest }
  else .error { fault := other, rest, extra := 1 }

/-- Take one character. -/
def skip : Scan Unit := modify (·.drop 1)

/-- A blank between tokens. -/
def isSpace (c : Char) : Bool := c == ' ' || c == '\n' || c == '\t' || c == '\r'

/-- The next character after blanks, which is not taken. -/
def peek : Scan (Option Char) := do
  modify (·.dropWhile isSpace)
  return (← get).head?

/-- Repeat a step at most `fuel` times until it finishes. -/
def loopWithin (step : σ → Scan (σ ⊕ α)) : Nat → σ → Scan α
  | 0, _ => stop .valueEnded
  | fuel + 1, state => do
    match ← step state with
    | .inl state => loopWithin step fuel state
    | .inr value => pure value

/-- Repeat a step until it finishes. A step that goes on takes at least one character. -/
def loop (step : σ → Scan (σ ⊕ α)) (state : σ) : Scan α := fun rest =>
  loopWithin step (rest.length + 1) state rest

/-- Take the given characters. -/
def word : List Char → Scan Unit
  | [] => pure ()
  | expected :: more => do
    match ← get with
    | [] => stop .valueEnded
    | c :: rest => if c = expected then do set rest; word more else stopAt .noWord

/-- A decimal digit. -/
def isDigit (c : Char) : Bool := '0' ≤ c && c ≤ '9'

/-- Take all digits that stand next. -/
def digits : Scan (List Char) := do
  let rest ← get
  set (rest.dropWhile isDigit)
  return rest.takeWhile isDigit

/-- The number that digits write. -/
def digitsValue (chars : List Char) : Nat :=
  chars.foldl (fun value c => 10 * value + (c.toNat - '0'.toNat)) 0

/-- The digits before the point: a zero alone, or others that start with none. -/
def wholeDigits : Scan (List Char) := do
  match ← get with
  | '0' :: rest =>
    set rest
    if rest.head?.any isDigit then stopAt .invalidNumber else return ['0']
  | c :: _ => if isDigit c then digits else stopAt .invalidNumber
  | [] => stop .valueEnded

/-- The digits after the point, if there is one. -/
def fractionDigits : Scan (Option (List Char)) := do
  match ← get with
  | '.' :: rest =>
    set rest
    let found ← digits
    if found.isEmpty then stopUnless .valueEnded .invalidNumber else return some found
  | _ => return none

/-- The sign and digits of the exponent, if there is one. -/
def exponentDigits : Scan (Option (Bool × List Char)) := do
  match (← get).head? with
  | some mark =>
    if mark = 'e' ∨ mark = 'E' then
      skip
      let sign := (← get).head?
      if sign = some '+' ∨ sign = some '-' then skip
      if (← get).head?.any isDigit then
        return some (sign = some '-', ← digits)
      else stopUnless .valueEnded .invalidNumber
    else return none
  | none => return none

/-- The largest exponent that is kept as a number. -/
def exponentLimit : Nat := 2147483647

/-- The digits after which an exponent exceeds the limit, and those that follow. -/
def splitLimit : List Char → List Char → Option (List Char × List Char)
  | _, [] => none
  | taken, c :: rest =>
    if exponentLimit < digitsValue (taken ++ [c]) then some (taken ++ [c], rest)
    else splitLimit (taken ++ [c]) rest

/-- The number that digits write behind another one, as far as it fits 64 bits, and the digits that
are left. -/
def fitDigits (value : Nat) : List Char → Nat × List Char
  | [] => (value, [])
  | c :: rest =>
    let next := 10 * value + (c.toNat - '0'.toNat)
    if next < 0x10000000000000000 then fitDigits next rest else (value, c :: rest)

/-- The decimal of the digits around a point that fit 64 bits. Digits that are left count as places
before the point, and for nothing behind it. -/
def fitDecimal (whole fraction : List Char) : Decimal :=
  let (value, left) := fitDigits 0 whole
  let (value, unused) := fitDigits value fraction
  ⟨value, left.length - (fraction.length - unused.length : Nat)⟩

/-- A binary number close to what digits around a point write. A positive exponent beyond the limit
stops at the digit that exceeds it. -/
def float (negative : Bool) (whole fraction : List Char) (exponent : Option (Bool × List Char)) :
    Scan Number := do
  let decimal := fitDecimal whole fraction
  let (down, found) := exponent.getD (false, [])
  if decimal.digits ≠ 0 ∧ !down then
    if let some (_, after) := splitLimit [] found then
      modify (after ++ ·)
      stop .numberTooLarge
  let power : Int := digitsValue found
  let power := decimal.exponent + if down then -power else power
  match Binary64.estimate? negative ⟨decimal.digits, power⟩ with
  | some float => return .float float
  | none => stop .numberTooLarge

/-- A number after its sign: an integer when it has neither point nor exponent and fits 64 bits. -/
def number (negative : Bool) : Scan Number := do
  let whole ← wholeDigits
  let fraction ← fractionDigits
  let exponent ← exponentDigits
  let value := digitsValue whole
  if fraction.isNone ∧ exponent.isNone then
    if negative then
      if 0 < value ∧ value ≤ 0x8000000000000000 then return .integer (-value)
    else if value < 0x10000000000000000 then return .integer value
  float negative whole (fraction.getD []) exponent

/-- The digits before the point, only skipped. -/
def skipWhole : Scan Unit := do
  match ← get with
  | '0' :: rest =>
    set rest
    if rest.head?.any isDigit then stopAt .invalidNumber
  | c :: _ => if isDigit c then discard digits else stopAt .invalidNumber
  | [] => stop .invalidNumber

/-- The point and the digits after it, if there is one, only skipped. -/
def skipFraction : Scan Unit := do
  if (← get).head? = some '.' then
    skip
    if (← digits).isEmpty then stopAt .invalidNumber

/-- The exponent, if there is one, only skipped. -/
def skipExponent : Scan Unit := do
  let mark := (← get).head?
  if mark = some 'e' ∨ mark = some 'E' then
    skip
    let sign := (← get).head?
    if sign = some '+' ∨ sign = some '-' then skip
    if (← digits).isEmpty then stopAt .invalidNumber

/-- A number after its sign, only skipped: it may end where a digit is needed. -/
def skipNumber : Scan Unit := do
  skipWhole
  skipFraction
  skipExponent

/-- The value of a hexadecimal digit. -/
def hexValue? (c : Char) : Option Nat :=
  if isDigit c then some (c.toNat - '0'.toNat)
  else if 'a' ≤ c ∧ c ≤ 'f' then some (c.toNat - 'a'.toNat + 10)
  else if 'A' ≤ c ∧ c ≤ 'F' then some (c.toNat - 'A'.toNat + 10)
  else none

/-- The number of bytes of characters. -/
def byteCount (chars : List Char) : Nat := chars.foldr (·.utf8Size + ·) 0

/-- Four hexadecimal digits. -/
def hexEscape : Scan Nat := do
  let rest ← get
  if byteCount rest < 4 then
    set ([] : List Char)
    stop .stringEnded
  match (rest.take 4).mapM hexValue? with
  | some [a, b, c, d] =>
    set (rest.drop 4)
    return ((a * 16 + b) * 16 + c) * 16 + d
  | _ => fun rest => .error { fault := .invalidEscape, rest, extra := 4 }

/-- Take a character that must stand next inside a surrogate pair. -/
def pairMark (mark : Char) : Scan Unit := do
  match ← get with
  | [] => stop .stringEnded
  | c :: rest => if c = mark then set rest else stopAt .halfSurrogate

/-- The character of an escape by code: two escapes make one beyond the basic plane. -/
def codeEscape : Scan Char := do
  let first ← hexEscape
  if 0xdc00 ≤ first ∧ first ≤ 0xdfff then stop .loneSurrogate
  else if 0xd800 ≤ first ∧ first ≤ 0xdbff then
    pairMark '\\'
    pairMark 'u'
    let second ← hexEscape
    if 0xdc00 ≤ second ∧ second ≤ 0xdfff then
      return Char.ofNat (0x10000 + (first - 0xd800) * 0x400 + (second - 0xdc00))
    else stop .loneSurrogate
  else return Char.ofNat first

/-- The character that a letter after a backslash stands for. -/
def letterEscape? : Char → Option Char
  | '"' => some '"'
  | '\\' => some '\\'
  | '/' => some '/'
  | 'b' => some '\x08'
  | 'f' => some '\x0c'
  | 'n' => some '\n'
  | 'r' => some '\r'
  | 't' => some '\t'
  | _ => none

/-- The character of an escape after its backslash. -/
def escape : Scan Char := do
  match ← get with
  | [] => stop .stringEnded
  | 'u' :: rest =>
    set rest
    codeEscape
  | c :: rest =>
    match letterEscape? c with
    | some meant =>
      set rest
      return meant
    | none => stopAt .invalidEscape

/-- A character that stands for itself in a string. -/
def isPlain (c : Char) : Bool := c ≠ '"' && c ≠ '\\' && 0x20 ≤ c.toNat

/-- The next characters of a string that stand for themselves, and the quote or escape after
them. -/
def stringStep (found : List Char) : Scan (List Char ⊕ List Char) := do
  let rest ← get
  let found := found ++ rest.takeWhile isPlain
  match rest.dropWhile isPlain with
  | [] =>
    set ([] : List Char)
    stop .stringEnded
  | '"' :: rest =>
    set rest
    return .inr found
  | '\\' :: rest =>
    set rest
    return .inl (found ++ [← escape])
  | rest =>
    set rest
    stopAt .controlCharacter

/-- The characters of a string after its opening quote. -/
def stringChars : Scan (List Char) := loop stringStep []

/-- A string after its opening quote. -/
def string : Scan String := String.ofList <$> stringChars

/-- An escape after its backslash, only skipped: each code of a pair is one of its own. -/
def skipEscape : Scan Unit := do
  match ← get with
  | 'u' :: rest =>
    set rest
    discard hexEscape
  | _ => discard escape

/-- The next characters of a string that is only skipped, and the quote or escape after them. -/
def skipStringStep (_ : Unit) : Scan (Unit ⊕ Unit) := do
  let rest ← get
  match rest.dropWhile isPlain with
  | [] =>
    set ([] : List Char)
    stop .stringEnded
  | '"' :: rest =>
    set rest
    return .inr ()
  | '\\' :: rest =>
    set rest
    skipEscape
    return .inl ()
  | rest =>
    set rest
    stop .controlCharacter

/-- A string after its opening quote, only skipped: surrogates need not come in pairs. -/
def skipString : Scan Unit := loop skipStringStep ()

/-- Whether another item of a list stands next, after its opening bracket or an item. The closing
bracket is left. -/
def moreItems (first : Bool) : Scan Bool := do
  match ← peek with
  | none => stopAt .listEnded
  | some ']' => return false
  | some c =>
    if first then return true
    if c ≠ ',' then stopAt .noCommaOrBracket
    skip
    match ← peek with
    | none => stopAt .valueEnded
    | some ']' => stopAt .trailingComma
    | some _ => return true

/-- The name of the next member of an object, after its opening brace or a member. The closing
brace is left. -/
def nextName (first : Bool) : Scan (Option String) := do
  match ← peek with
  | none => stopAt .objectEnded
  | some '\x7d' => return none
  | some c =>
    if first then
      if c ≠ '"' then stopAt .keyNotString
    else
      if c ≠ ',' then stopAt .noCommaOrBrace
      skip
      match ← peek with
      | none => stopAt .valueEnded
      | some '"' => pure ()
      | some '\x7d' => stopAt .trailingComma
      | some _ => stopAt .keyNotString
    skip
    some <$> string

/-- The colon after the name of a member. -/
def colon : Scan Unit := do
  match ← peek with
  | none => stopAt .objectEnded
  | some ':' => skip
  | some _ => stopAt .noColon

/-- The next item of a list, or its end. The items found so far are in reverse. -/
def itemsStep (item : Scan Json) (found : List Json) : Scan (List Json ⊕ List Json) := do
  if ← moreItems found.isEmpty then return .inl ((← item) :: found)
  else
    skip
    return .inr found.reverse

/-- The items of a list after its opening bracket. -/
def items (item : Scan Json) : Scan (List Json) := loop (itemsStep item) []

/-- The next member of an object, or its end. -/
def membersStep (value : Scan Json) :
    Bool × List (String × Json) → Scan ((Bool × List (String × Json)) ⊕ List (String × Json))
  | (first, found) => do
    match ← nextName first with
    | some name =>
      colon
      return .inl (false, put name (← value) found)
    | none =>
      skip
      return .inr found

/-- The members of an object after its opening brace. -/
def members (value : Scan Json) : Scan (List (String × Json)) :=
  loop (membersStep value) (true, [])

/-- A value whose lists and objects are nested at most `depth` deep. -/
def value (depth : Nat) : Scan Json := do
  match ← peek with
  | none => stopAt .valueEnded
  | some 'n' => word "null".toList; return .null
  | some 't' => word "true".toList; return .bool true
  | some 'f' => word "false".toList; return .bool false
  | some '"' => skip; .string <$> string
  | some '[' =>
    match depth with
    | 0 => stopAt .tooDeep
    | depth + 1 => skip; .array <$> items (value depth)
  | some '\x7b' =>
    match depth with
    | 0 => stopAt .tooDeep
    | depth + 1 => skip; .object <$> members (value depth)
  | some '-' => skip; .number <$> number true
  | some c => if isDigit c then .number <$> number false else stopAt .noValue

/-- Nothing but blanks is left. -/
def finish : Scan Unit := do
  if (← peek).isSome then stopAt .trailingCharacters

/-- What is open around a value that is skipped. -/
inductive Frame where
  | list
  | object
deriving DecidableEq, Repr

/-- Where the skipping of a value stands. -/
inductive SkipState where
  /-- A value stands next. -/
  | value
  /-- The innermost frame was just opened. -/
  | opened
  /-- A value of the innermost frame was just skipped. -/
  | after

/-- The name of a member and its colon, skipped. -/
def skipName : Scan Unit := do
  match ← peek with
  | none => stopAt .objectEnded
  | some '"' => skip
  | some _ => stopAt .keyNotString
  skipString
  colon

/-- A value without parts, skipped. -/
def skipScalar (c : Char) : Scan Unit :=
  match c with
  | 'n' => word "null".toList
  | 't' => word "true".toList
  | 'f' => word "false".toList
  | '"' => do skip; skipString
  | '-' => do skip; skipNumber
  | c => if isDigit c then skipNumber else stopAt .noValue

/-- A value inside these frames was skipped. -/
def skipped (frames : List Frame) : (List Frame × SkipState) ⊕ Unit :=
  if frames.isEmpty then .inr () else .inl (frames, .after)

/-- The start of a value inside these frames: a list or object is opened, any other value
skipped. -/
def skipStart (frames : List Frame) (c : Char) : Scan ((List Frame × SkipState) ⊕ Unit) := do
  if c = '[' then
    skip
    return .inl (.list :: frames, .opened)
  else if c = '\x7b' then
    skip
    return .inl (.object :: frames, .opened)
  else
    skipScalar c
    return skipped frames

/-- The next step in skipping a value. -/
def skipStep : List Frame × SkipState → Scan ((List Frame × SkipState) ⊕ Unit)
  | (frames, state) => do
    match state, frames, ← peek with
    | .value, _, none => stopAt .valueEnded
    | .value, _, some c => skipStart frames c
    | _, [], _ => return .inr ()
    | _, .list :: _, none => stopAt .listEnded
    | _, .object :: _, none => stopAt .objectEnded
    | _, .list :: outer, some ']' =>
      skip
      return skipped outer
    | _, .object :: outer, some '\x7d' =>
      skip
      return skipped outer
    | .after, frame :: _, some c =>
      if c ≠ ',' then
        stopAt (if frame = .list then .noCommaOrBracket else .noCommaOrBrace)
      skip
      if frame = .object then skipName
      return .inl (frames, .value)
    | .opened, .list :: _, some c => skipStart frames c
    | .opened, .object :: _, some _ =>
      skipName
      return .inl (frames, .value)

/-- A value, skipped. Frames are kept in a list, so nesting has no limit. -/
def skipValue : Scan Unit := loop skipStep ([], .value)

end Scan

/-- A fault with its place: a line, and the bytes of that line before the place. -/
structure TextError where
  fault : Fault
  line : Nat
  column : Nat
deriving DecidableEq, Repr

/-- The text of the error. -/
def TextError.message (error : TextError) : String :=
  error.fault.message ++ " at line " ++ String.ofList (natText error.line) ++ " column " ++
    String.ofList (natText error.column)

/-- The line and column after `bytes` bytes of a text. -/
def place : List Char → Nat → Nat → Nat → Nat × Nat
  | [], line, column, _ => (line, column)
  | c :: rest, line, column, bytes =>
    if bytes < c.utf8Size then (line, column + bytes)
    else if c = '\n' then place rest (line + 1) 0 (bytes - 1)
    else place rest line (column + c.utf8Size) (bytes - c.utf8Size)

/-- The error that a stop in a text makes. -/
def Stop.locate (stop : Stop) (text : List Char) : TextError :=
  let (line, column) :=
    place text 1 0 (Scan.byteCount text - Scan.byteCount stop.rest + stop.extra)
  ⟨stop.fault, line, column⟩

/-- Read a whole text. -/
def Scan.run {α : Type} (scan : Scan α) (text : String) : Except TextError α :=
  match (do let value ← scan; finish; return value : Scan α) text.toList with
  | .ok (value, _) => .ok value
  | .error stop => .error (stop.locate text.toList)

/-- How deep lists and objects may be nested. -/
def depthLimit : Nat := 127

/-- The value that a text writes. -/
def read (text : String) : Except TextError Json := (Scan.value depthLimit).run text

end Json
end Toolsmith
