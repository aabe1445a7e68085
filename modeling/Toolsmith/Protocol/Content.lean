import Toolsmith.Json.Shape

/-! # Content that tools answer with -/

namespace Toolsmith

open Json

/-- The content of a resource inside an answer. -/
structure ResourceContent where
  uri : String
  mimeType : Option String
  text : Option String
deriving DecidableEq, Repr, Inhabited

namespace ResourceContent

/-- Plain text. -/
def plain (text uri : String) : ResourceContent := ⟨uri, some "text/plain", some text⟩

/-- Read the content of a resource. -/
def decoder : Decoder ResourceContent :=
  (ResourceContent.mk <$> Record.required "uri" .string <*> Record.optional "mimeType" .string <*>
    Record.optional "text" .string).decoder "struct ResourceContent"

/-- The content of a resource as it is sent. -/
def encode (content : ResourceContent) : Json :=
  .object <| [("uri", .string content.uri)] ++
    memberIf "mimeType" (content.mimeType.map .string) ++
    memberIf "text" (content.text.map .string)

end ResourceContent

/-- A piece of content. -/
inductive Content where
  | text (text : String)
  | image (data mimeType : String)
  | resource (resource : ResourceContent)
deriving DecidableEq, Repr, Inhabited

namespace Content

/-- The tags of the kinds of content. -/
inductive Kind where
  | text
  | image
  | resource
deriving DecidableEq, Repr

/-- All kinds. -/
def Kind.all : List Kind := [.text, .image, .resource]

/-- How a kind is written. -/
def Kind.name : Kind → String
  | .text => "text"
  | .image => "image"
  | .resource => "resource"

/-- Read the tag of a kind. -/
def Kind.decoder : Decoder Kind := fun _ json =>
  match json with
  | .string tag =>
    match Kind.all.find? (·.name == tag) with
    | some kind => .ok kind
    | none => .error (.unknownVariant tag (Kind.all.map Kind.name))
  | other => .error (.wrongType other.found "variant identifier")

/-- Read the rest of a piece of content of a known kind. -/
def ofKind : Kind → Decoder Content
  | .text =>
    (Content.text <$> Record.required "text" .string).decoder "struct variant Content::Text"
  | .image =>
    (Content.image <$> Record.required "data" .string <*>
      Record.required "mimeType" .string).decoder "struct variant Content::Image"
  | .resource =>
    (Content.resource <$> Record.required "resource" ResourceContent.decoder).decoder
      "struct variant Content::Resource"

/-- Read a piece of content: its kind is the member `type`, or the first element of a list. -/
def decoder : Decoder Content := fun setting json =>
  match json with
  | .object members =>
    match members.lookup "type" with
    | none => .error (.missingField "type")
    | some tag => do
      let kind ← Kind.decoder setting tag
      ofKind kind .setAside (.object (members.filter (·.1 ≠ "type")))
  | .array [] => .error (.missingField "type")
  | .array (tag :: rest) => do
    let kind ← Kind.decoder setting tag
    ofKind kind .setAside (.array rest)
  | other => .error (.wrongType other.found "internally tagged enum Content")

/-- A piece of content as it is sent. -/
def encode : Content → Json
  | .text body => .object [("type", .string "text"), ("text", .string body)]
  | .image data mimeType =>
    .object [("type", .string "image"), ("data", .string data), ("mimeType", .string mimeType)]
  | .resource body => .object [("type", .string "resource"), ("resource", body.encode)]

/-- Content as plain text. What has none is described. -/
def plainText : Content → String
  | .text body => body
  | .image _ mimeType => "[Image: " ++ mimeType ++ "]"
  | .resource body => body.text.getD ("[Resource: " ++ body.uri ++ "]")

end Content

/-- The arguments a tool is called with. -/
abbrev Arguments := List (String × Json)

/-- The text by which a value is shown: a string as it is, all else as JSON. -/
def Json.shown : Json → String
  | .string text => text
  | other => other.text

end Toolsmith
