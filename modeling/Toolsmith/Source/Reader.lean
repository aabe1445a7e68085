import Toolsmith.Source.Piece

/-! # Readers of token trees

A `Reader α` reads an `α` off the front of a sequence of trees, or says what it missed. What it
returns carries the pieces it took and the proof that these, as written, and the rest make up the
input: no reader can lose, invent or reorder a tree. Readers form a monad, so grammars are written
in `do` notation and inherit the law.
-/

namespace Toolsmith
namespace Source

/-- Why a reader failed. -/
inductive Mismatch where
  /-- Something else was needed; `atEnd` when nothing was left. -/
  | expected (what : String) (atEnd : Bool)
  /-- A punctuation mark was needed. -/
  | punctuation (text : String)
  /-- Trees were left over. -/
  | leftover
  /-- The form is refused for the reason given. -/
  | refused (reason : String)
deriving DecidableEq, Repr

/-- The text of a mismatch. -/
def Mismatch.message : Mismatch → String
  | .expected what true => "unexpected end of input, expected " ++ what
  | .expected what false => "expected " ++ what
  | .punctuation text => "expected `" ++ text ++ "`"
  | .leftover => "unexpected token"
  | .refused reason => reason

/-- An `α` read off the front of `trees`. -/
structure Reading (α : Type) (trees : List Tree) where
  value : α
  taken : List Piece
  rest : List Tree
  conserved : Piece.sourceAll taken ++ rest = trees

/-- A reader of an `α`. -/
def Reader (α : Type) : Type := (trees : List Tree) → Except Mismatch (Reading α trees)

namespace Reader

variable {α β σ : Type}

/-- Read nothing. -/
protected def pure (value : α) : Reader α := fun trees => .ok ⟨value, [], trees, rfl⟩

/-- Read one thing after another. -/
protected def bind (first : Reader α) (next : α → Reader β) : Reader β := fun trees =>
  match first trees with
  | .error mismatch => .error mismatch
  | .ok one =>
    match next one.value one.rest with
    | .error mismatch => .error mismatch
    | .ok two =>
      .ok ⟨two.value, one.taken ++ two.taken, two.rest, by
        simp [List.append_assoc, two.conserved, one.conserved]⟩

instance : Monad Reader where
  pure := Reader.pure
  bind := Reader.bind

instance : Inhabited (Reader α) := ⟨fun _ => .error .leftover⟩

/-- Fail. -/
def fail (mismatch : Mismatch) : Reader α := fun _ => .error mismatch

/-- The trees still to be read, none of which is taken. -/
def ahead : Reader (List Tree) := fun trees => .ok ⟨trees, [], trees, rfl⟩

/-- Fail because something was needed that is not there. -/
def missing (what : String) : Reader α := fun trees =>
  .error (.expected what trees.isEmpty)

/-- Take one tree as it is written. -/
def tree : Reader Tree
  | [] => .error (.expected "a token" true)
  | head :: rest => .ok ⟨head, [.tree head], rest, rfl⟩

/-- Take one tree, printing it as something else. -/
def treeAs (printed : List Tree) : Reader Tree
  | [] => .error (.expected "a token" true)
  | head :: rest => .ok ⟨head, [.reprinted [.tree head] printed], rest, by simp [Piece.source]⟩

/-- The marks of an operator at the front of a sequence, all but the last joint. -/
def takeMarks : List Char → (trees : List Tree) → Option (Reading Unit trees)
  | [], trees => some ⟨(), [], trees, rfl⟩
  | [mark], .punct found joint :: rest =>
    if same : found = mark then
      some ⟨(), [.mark mark joint false], rest, by simp [Piece.source, same]⟩
    else none
  | mark :: next :: marks, .punct found joint :: rest =>
    if same : found = mark ∧ joint = true then
      (takeMarks (next :: marks) rest).map fun reading =>
        ⟨(), .mark mark true true :: reading.taken, reading.rest, by
          simp [Piece.source, reading.conserved, same.1, same.2]⟩
    else none
  | _, _ => none

/-- Take an operator such as `->`, printing it with its own spacing. -/
def operator (text : String) : Reader Unit := fun trees =>
  match takeMarks text.toList trees with
  | some reading => .ok reading
  | none => .error (.punctuation text)

/-- Take any identifier or keyword. -/
def word : Reader Ident
  | .ident name :: rest => .ok ⟨name, [.tree (.ident name)], rest, rfl⟩
  | trees => .error (.expected "identifier" trees.isEmpty)

/-- Take the given keyword. -/
def keyword (text : String) : Reader Unit
  | .ident name :: rest =>
    if name = ⟨false, text⟩ then .ok ⟨(), [.tree (.ident name)], rest, rfl⟩
    else .error (.expected ("`" ++ text ++ "`") false)
  | trees => .error (.expected ("`" ++ text ++ "`") trees.isEmpty)

/-- Take a lifetime. -/
def lifetime : Reader Ident
  | .lifetime name :: rest => .ok ⟨name, [.tree (.lifetime name)], rest, rfl⟩
  | trees => .error (.expected "lifetime" trees.isEmpty)

/-- How a group is called in a message. -/
def delimiterName : Delimiter → String
  | .paren => "parentheses"
  | .bracket => "square brackets"
  | .brace => "curly braces"

/-- Take a group whose whole content is read by `inner`. -/
def group (delimiter : Delimiter) (inner : Reader α) : Reader α
  | .group found content :: rest =>
    if same : found = delimiter then
      match inner content with
      | .error mismatch => .error mismatch
      | .ok ⟨value, taken, left, conserved⟩ =>
        match left, conserved with
        | [], conserved =>
          .ok ⟨value, [.group delimiter taken], rest, by
            have whole : Piece.sourceAll taken = content := by simpa using conserved
            simp [Piece.source, whole, same]⟩
        | _ :: _, _ => .error .leftover
    else .error (.expected (delimiterName delimiter) false)
  | trees => .error (.expected (delimiterName delimiter) trees.isEmpty)

/-- Take a group as it is written and return its content. -/
def anyGroup (what : String) : Reader (Delimiter × List Tree)
  | .group delimiter content :: rest =>
    .ok ⟨(delimiter, content), [.tree (.group delimiter content)], rest, rfl⟩
  | trees => .error (.expected what trees.isEmpty)

/-- Whether `reader` would succeed here. Nothing is taken. -/
def succeeds (reader : Reader α) : Reader Bool := fun trees =>
  .ok ⟨match reader trees with | .ok _ => true | .error _ => false, [], trees, rfl⟩

/-- Read a phrase, keeping its pieces. -/
def phrase (reader : Reader α) : Reader (Phrase α) := fun trees =>
  match reader trees with
  | .ok reading =>
    .ok ⟨⟨reading.value, reading.taken⟩, reading.taken, reading.rest, reading.conserved⟩
  | .error mismatch => .error mismatch

/-- Read, printing what was taken as something else. -/
def printingAs (reader : Reader α) (printed : α → List Tree) : Reader α := fun trees =>
  match reader trees with
  | .ok reading =>
    .ok ⟨reading.value, [.reprinted reading.taken (printed reading.value)], reading.rest, by
      simp [Piece.source, reading.conserved]⟩
  | .error mismatch => .error mismatch

/-- Read, printing what was taken as it was written. -/
def asWritten (reader : Reader α) : Reader α := fun trees =>
  match reader trees with
  | .ok reading =>
    .ok ⟨reading.value, Piece.ofTrees (Piece.sourceAll reading.taken), reading.rest, by
      simp [reading.conserved]⟩
  | .error mismatch => .error mismatch

/-- Read, printing what was taken as it was written when the value asks for it. -/
def asWrittenIf (raw : α → Bool) (reader : Reader α) : Reader α := fun trees =>
  match reader trees with
  | .ok reading => if raw reading.value then asWritten reader trees else .ok reading
  | .error mismatch => .error mismatch

/-- What would be left after `reader`, if it succeeds here. Nothing is taken. -/
def beyond (reader : Reader α) : Reader (Option (List Tree)) := fun trees =>
  .ok ⟨match reader trees with
    | .ok reading => some reading.rest
    | .error _ => none, [], trees, rfl⟩

/-- Repeat a step until it finishes, at most `steps` times. -/
def loopWithin (step : σ → Reader (σ ⊕ α)) : Nat → σ → Reader α
  | 0, _ => fail .leftover
  | steps + 1, state => do
    match ← step state with
    | .inl state => loopWithin step steps state
    | .inr value => pure value

/-- Repeat a step until it finishes. A step that goes on takes at least one tree. -/
def loop (step : σ → Reader (σ ⊕ α)) (state : σ) : Reader α := fun trees =>
  loopWithin step (trees.length + 1) state trees

/-- Read while a condition on the trees ahead holds. -/
def many (more : List Tree → Bool) (reader : Reader α) : Reader (List α) :=
  (·.reverse) <$> loop (fun values : List α => do
    if more (← ahead) then return .inl ((← reader) :: values)
    else return .inr values) []

/-- Read to the end, separated by commas. Each element says whether a comma follows it. -/
def commaSeparated (reader : Reader α) : Reader (List (α × Bool)) :=
  (·.reverse) <$> loop (fun values : List (α × Bool) => do
    if (← ahead).isEmpty then return .inr values
    let value ← reader
    if (← ahead).isEmpty then return .inr ((value, false) :: values)
    operator ","
    return .inl ((value, true) :: values)) []

/-- Read a whole sequence. -/
def run (reader : Reader α) (trees : List Tree) : Except Mismatch α :=
  match reader trees with
  | .ok reading => if reading.rest.isEmpty then .ok reading.value else .error .leftover
  | .error mismatch => .error mismatch

end Reader

end Source
end Toolsmith
