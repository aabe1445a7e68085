import Toolsmith.Text.Blank
import Toolsmith.Transport.Basic

/-! # Messages as lines

Over byte streams every message is a line. Blanks around a message and blank lines are skipped, and
a line that is no text ends the stream with an error.
-/

namespace Toolsmith

/-- The byte that ends a line. -/
def lineEnd : UInt8 := 10

/-- The lines of a stream of bytes, without their ends. A last line need not have one. -/
def splitLines : List UInt8 → List (List UInt8)
  | [] => []
  | byte :: rest =>
    if byte = lineEnd then [] :: splitLines rest
    else
      match splitLines rest with
      | [] => [[byte]]
      | line :: lines => (byte :: line) :: lines

/-- The text that bytes encode, if they do. -/
def decodeText? (bytes : List UInt8) : Option String := String.fromUTF8? ⟨bytes.toArray⟩

/-- A stream of bytes to read, and what was written so far, one line for each message. -/
structure LineStream where
  input : List (List UInt8)
  output : List String := []
deriving DecidableEq, Repr, Inhabited

namespace LineStream

/-- The stream of some bytes. -/
def ofBytes (bytes : List UInt8) : LineStream := { input := splitLines bytes }

/-- The bytes that were written. -/
def written (stream : LineStream) : List UInt8 :=
  stream.output.flatMap fun line => line.toUTF8.toList ++ [lineEnd]

/-- The next message among lines, with the lines after it. -/
def next : List (List UInt8) → Reception × List (List UInt8)
  | [] => (.gone, [])
  | line :: rest =>
    match decodeText? line with
    | none => (.failed (.transport "stream did not contain valid UTF-8"), rest)
    | some text =>
      let message := Text.trimBlank text.toList
      if message.isEmpty then next rest else (.message (String.ofList message), rest)

/-- A stream as a transport. -/
def transport : Transport LineStream where
  receive stream :=
    let (reception, rest) := next stream.input
    (reception, { stream with input := rest })
  send stream text := (.ok (), { stream with output := stream.output ++ [text] })
  close stream := (.ok (), stream)

end LineStream

end Toolsmith
