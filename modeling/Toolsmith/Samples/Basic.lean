import Toolsmith.Expansion.Meaning

/-! # Building blocks of the samples -/

namespace Toolsmith
namespace Samples

open Source

/-- A property described as a tool, under another name when one is given. -/
def toolProperty (name : String) (receiver : Bool) (renamed : Option String) : Member where
  kind := .property
  ident := ⟨false, name⟩
  markings :=
    [⟨⟨.tool, false⟩,
      (renamed.toList.map fun text => ⟨some ⟨false, "name"⟩, stringExpression text⟩) ++
        [⟨some ⟨false, "description"⟩, stringExpression ""⟩]⟩]
  receiver := receiver
  isAsync := false

/-- A function with a body. -/
def plainFunction (name : String) (receiver isAsync : Bool) : Member where
  kind := .function true
  ident := ⟨false, name⟩
  markings := []
  receiver := receiver
  isAsync := isAsync

/-- A tool without a schema. -/
def simpleTool (name description : String) : Tool := ⟨name, description, none⟩

/-- The tool of a property among those listed with their properties. -/
def accessorOf (tools : List (String × Tool)) (property : String) : Tool :=
  (tools.lookup property).getD default

/-- The function with a name among those listed. -/
def handlerOf (handlers : List (String × Handler)) (name : String) : Handler :=
  (handlers.lookup name).getD fun _ => .error .crash

/-- An argument that must be an integer of 64 bits with a sign. -/
def integerArgument (arguments : Arguments) (name : String) : Except Failure Int :=
  match arguments.lookup name with
  | some (.number (.integer value)) =>
    if -0x8000000000000000 ≤ value ∧ value < 0x8000000000000000 then .ok value
    else .error (.error (.invalidParams ("`" ++ name ++ "` must be an integer")))
  | _ => .error (.error (.invalidParams ("`" ++ name ++ "` must be an integer")))

/-- An integer brought into 64 bits with a sign. -/
def wrap (value : Int) : Int := value.bmod 0x10000000000000000

/-- An integer as the content of an answer. -/
def integerContent (value : Int) : List Content := [.text (Json.integer value).shown]

end Samples
end Toolsmith
