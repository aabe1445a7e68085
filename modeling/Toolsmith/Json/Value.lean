import Toolsmith.Number.Binary64

/-! # JSON values

An object lists its members. `Json.put` keeps them in the order of their names and lets the last
value of a name win; `Json.sorted` brings all objects of a value into that order.
-/

namespace Toolsmith

/-- A number: an integer of at most 64 bits, or else a binary number. -/
inductive Number where
  | integer (value : Int)
  | float (value : Binary64)
deriving DecidableEq, Repr, Inhabited

/-- A JSON value. -/
inductive Json where
  | null
  | bool (value : Bool)
  | number (value : Number)
  | string (value : String)
  | array (items : List Json)
  | object (members : List (String × Json))
deriving Repr, Inhabited

namespace Json

/-- An integer. -/
def integer (value : Int) : Json := .number (.integer value)

/-- The empty object. -/
def empty : Json := .object []

/-- Set a member, keeping the members in the order of their names. -/
def put {α : Type} (name : String) (value : α) : List (String × α) → List (String × α)
  | [] => [(name, value)]
  | (other, found) :: rest =>
    if name < other then (name, value) :: (other, found) :: rest
    else if name = other then (name, value) :: rest
    else (other, found) :: put name value rest

/-- Members in the order of their names. -/
def ofMembers {α : Type} (members : List (String × α)) : List (String × α) :=
  members.foldl (fun sorted (name, value) => put name value sorted) []

mutual

/-- The value with the members of all objects in the order of their names. -/
def sorted : Json → Json
  | .array items => .array (sortedItems items)
  | .object members => .object (ofMembers (sortedMembers members))
  | other => other

/-- Items, each sorted. -/
def sortedItems : List Json → List Json
  | [] => []
  | item :: rest => item.sorted :: sortedItems rest

/-- Members, the value of each sorted. -/
def sortedMembers : List (String × Json) → List (String × Json)
  | [] => []
  | (name, value) :: rest => (name, value.sorted) :: sortedMembers rest

end

/-- The value of a member of an object. -/
def get? (json : Json) (name : String) : Option Json :=
  match json with
  | .object members => members.lookup name
  | _ => none

/-- The text of a string. -/
def string? : Json → Option String
  | .string text => some text
  | _ => none

end Json

end Toolsmith
