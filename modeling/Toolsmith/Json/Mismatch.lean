import Toolsmith.Json.Write
import Toolsmith.Text.Quoted

/-! # Values that do not have the expected shape -/

namespace Toolsmith
namespace Json

/-- What was found in place of something else. Of lists and objects only the kind is told. -/
inductive Found where
  | null
  | bool (value : Bool)
  | number (value : Number)
  | string (value : String)
  | sequence
  | map
deriving DecidableEq, Repr

/-- What a value is found as. -/
def found : Json → Found
  | .null => .null
  | .bool value => .bool value
  | .number value => .number value
  | .string value => .string value
  | .array _ => .sequence
  | .object _ => .map

/-- How what was found is named. -/
def Found.text : Found → String
  | .null => "null"
  | .bool true => "boolean `true`"
  | .bool false => "boolean `false`"
  | .number (.integer value) => "integer `" ++ String.ofList (integerText value) ++ "`"
  | .number (.float value) => "floating point `" ++ String.ofList (floatText value) ++ "`"
  | .string value => "string " ++ Text.shown value
  | .sequence => "sequence"
  | .map => "map"

/-- Why a value does not have the expected shape. -/
inductive ShapeError where
  | missingField (name : String)
  | duplicateField (name : String)
  | wrongType (found : Found) (expected : String)
  | wrongLength (found : Nat) (expected : String)
  | unknownVariant (found : String) (known : List String)
deriving DecidableEq, Repr

/-- The text of the error. -/
def ShapeError.message : ShapeError → String
  | .missingField name => "missing field `" ++ name ++ "`"
  | .duplicateField name => "duplicate field `" ++ name ++ "`"
  | .wrongType found expected => "invalid type: " ++ found.text ++ ", expected " ++ expected
  | .wrongLength found expected =>
    "invalid length " ++ String.ofList (natText found) ++ ", expected " ++ expected
  | .unknownVariant found known =>
    "unknown variant `" ++ found ++ "`, expected one of " ++
      ", ".intercalate (known.map fun name => "`" ++ name ++ "`")

end Json
end Toolsmith
