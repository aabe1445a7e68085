import Toolsmith.Json.Shape

/-! # Resources -/

namespace Toolsmith

open Json

/-- The description of a resource. Metadata are kept in the order of their names. -/
structure Resource where
  name : String
  uri : String
  description : Option String := none
  mimeType : Option String := none
  metadata : Option (List (String × String)) := none
deriving DecidableEq, Repr, Inhabited

namespace Resource

/-- The resource with a description. -/
def describe (resource : Resource) (description : String) : Resource :=
  { resource with description := some description }

/-- The resource with a media type. -/
def typed (resource : Resource) (mimeType : String) : Resource :=
  { resource with mimeType := some mimeType }

/-- The resource with metadata added to any it has. -/
def annotate (resource : Resource) (metadata : List (String × String)) : Resource :=
  { resource with
    metadata := some <| metadata.foldl (fun found (name, value) => put name value found)
      (resource.metadata.getD []) }

/-- Read the description of a resource. -/
def decoder : Decoder Resource :=
  (Resource.mk <$> Record.required "name" .string <*> Record.required "uri" .string <*>
    Record.optional "description" .string <*> Record.optional "mimeType" .string <*>
    Record.optional "metadata" (.table .string)).decoder "struct Resource"

/-- The description of a resource as it is sent. -/
def encode (resource : Resource) : Json :=
  .object <| [("name", .string resource.name), ("uri", .string resource.uri)] ++
    memberIf "description" (resource.description.map .string) ++
    memberIf "mimeType" (resource.mimeType.map .string) ++
    memberIf "metadata" (resource.metadata.map fun metadata =>
      .object (metadata.map fun (name, value) => (name, .string value)))

end Resource

end Toolsmith
