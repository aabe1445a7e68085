import Toolsmith.Json.Mismatch

/-! # Shapes of JSON values

A `Decoder α` reads an `α` from a value. A `Record α` does so field by field, from an object or from
a list of the fields in order; records are put together with `<$>` and `<*>`. Of an object, the
fields that are there are read in its order, and only then is the first missing one reported.
-/

namespace Toolsmith
namespace Json

/-- Where a value comes from, which shows in one message: a list that is too long is told to have
`fewer` elements when it stands by itself, and how many it should have once it was set aside to
look at a tag first. -/
inductive Setting where
  | direct
  | setAside
deriving DecidableEq, Repr

/-- A reader of an `α` from a value. -/
def Decoder (α : Type) : Type := Setting → Json → Except ShapeError α

namespace Decoder

variable {α β : Type}

/-- Any value. -/
def any : Decoder Json := fun _ json => .ok json

/-- A string. -/
def string : Decoder String := fun _ json =>
  match json with
  | .string text => .ok text
  | other => .error (.wrongType other.found "a string")

/-- A truth value. -/
def boolean : Decoder Bool := fun _ json =>
  match json with
  | .bool value => .ok value
  | other => .error (.wrongType other.found "a boolean")

/-- The members of an object. -/
def members : Decoder (List (String × Json)) := fun _ json =>
  match json with
  | .object members => .ok members
  | other => .error (.wrongType other.found "a map")

/-- The elements of a list, each read. -/
def list (decoder : Decoder α) : Decoder (List α) := fun setting json =>
  match json with
  | .array items => items.mapM (decoder setting)
  | other => .error (.wrongType other.found "a sequence")

/-- The members of an object, the value of each read. -/
def table (decoder : Decoder α) : Decoder (List (String × α)) := fun setting json =>
  match json with
  | .object members => members.mapM fun (name, value) => do return (name, ← decoder setting value)
  | other => .error (.wrongType other.found "a map")

/-- Nothing for `null`, and otherwise what is read. -/
def optional (decoder : Decoder α) : Decoder (Option α) := fun setting json =>
  match json with
  | .null => .ok none
  | other => some <$> decoder setting other

/-- A list of two elements. -/
def pair (first : Decoder α) (second : Decoder β) : Decoder (α × β) := fun setting json =>
  match json with
  | .array (one :: two :: rest) => do
    let one ← first setting one
    let two ← second setting two
    if rest.isEmpty then return (one, two)
    else .error (.wrongLength (rest.length + 2) "fewer elements in array")
  | .array items => do
    discard <| items.mapM (first setting)
    .error (.wrongLength items.length "a tuple of size 2")
  | other => .error (.wrongType other.found "a tuple of size 2")

/-- What is read from a value that stands by itself. -/
def decode (decoder : Decoder α) (json : Json) : Except ShapeError α := decoder .direct json

end Decoder

/-- What stands for a field that is not written. -/
inductive Absent (α : Type) where
  /-- Nothing: the field is required. -/
  | refused
  /-- A value when the field is missing from an object; in a list it is required. -/
  | inObject (value : α)
  /-- A value. -/
  | always (value : α)

/-- A reader of an `α` from named fields in a given order. -/
structure Record (α : Type) where
  /-- The fields with what they must be. -/
  fields : List (String × Decoder Unit)
  /-- Read from the members of an object. -/
  ofMembers : Setting → (String → Option Json) → Except ShapeError α
  /-- Read from the front of a list. The error tells how many elements there were. -/
  ofItems : Setting → (Nat → ShapeError) → Nat → List Json → Except ShapeError (α × List Json)

namespace Record

variable {α β : Type}

/-- No field. -/
protected def pure (value : α) : Record α where
  fields := []
  ofMembers _ _ := .ok value
  ofItems _ _ _ items := .ok (value, items)

/-- The fields of one record and then those of another. -/
protected def seq (first : Record (α → β)) (second : Record α) : Record β where
  fields := first.fields ++ second.fields
  ofMembers setting find := do
    let f ← first.ofMembers setting find
    let value ← second.ofMembers setting find
    return f value
  ofItems setting tooShort index items := do
    let (f, items) ← first.ofItems setting tooShort index items
    let (value, items) ← second.ofItems setting tooShort (index + first.fields.length) items
    return (f value, items)

instance : Applicative Record where
  pure := Record.pure
  seq first second := Record.seq first (second ())

/-- One field. -/
def field (name : String) (decoder : Decoder α) (absent : Absent α) : Record α where
  fields := [(name, fun setting json => do discard (decoder setting json))]
  ofMembers setting find :=
    match find name, absent with
    | some json, _ => decoder setting json
    | none, .refused => .error (.missingField name)
    | none, .inObject value | none, .always value => .ok value
  ofItems setting tooShort index items :=
    match items, absent with
    | item :: rest, _ => do return (← decoder setting item, rest)
    | [], .always value => .ok (value, [])
    | [], _ => .error (tooShort index)

/-- A field that must be there. -/
def required (name : String) (decoder : Decoder α) : Record α := field name decoder .refused

/-- A field that may be missing from an object. -/
def optional (name : String) (decoder : Decoder α) : Record (Option α) :=
  field name decoder.optional (.inObject none)

/-- A field that may be missing. -/
def withDefault (name : String) (decoder : Decoder α) (value : α) : Record α :=
  field name decoder (.always value)

/-- A field that may be missing or `null`. -/
def omissible (name : String) (decoder : Decoder α) : Record (Option α) :=
  field name decoder.optional (.always none)

/-- A number of elements, in words. -/
def elements (count : Nat) : String :=
  String.ofList (natText count) ++ if count = 1 then " element" else " elements"

/-- Read a record that messages call by its title. -/
def decoder (record : Record α) (title : String) : Decoder α := fun setting json =>
  let size := record.fields.length
  match json with
  | .object members => do
    members.forM fun (name, value) =>
      match record.fields.lookup name with
      | some check => check setting value
      | none => .ok ()
    record.ofMembers setting fun name => members.lookup name
  | .array items => do
    let tooShort (count : Nat) := ShapeError.wrongLength count (title ++ " with " ++ elements size)
    let (value, rest) ← record.ofItems setting tooShort 0 items
    if rest.isEmpty then return value
    else match setting with
      | .direct => .error (.wrongLength items.length "fewer elements in array")
      | .setAside => .error (.wrongLength items.length (elements size ++ " in sequence"))
  | other => .error (.wrongType other.found title)

end Record

/-- A member that is written only when it has a value. -/
def memberIf (name : String) (value : Option Json) : List (String × Json) :=
  match value with
  | some value => [(name, value)]
  | none => []

end Json
end Toolsmith
