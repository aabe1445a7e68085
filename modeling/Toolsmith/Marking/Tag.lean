import Toolsmith.Source.Attribute

/-! # The vocabulary of markings

The tags by which declarations are annotated, and the places where a tag is used.
-/

namespace Toolsmith

/-- A tag of the vocabulary. -/
inductive Tag where
  | tool
  | resource
  | server
  | toolbox
  | param
  | globalServer
deriving DecidableEq, Repr, Inhabited

namespace Tag

/-- All tags. -/
def all : List Tag := [.tool, .resource, .server, .toolbox, .param, .globalServer]

/-- The name of a tag. -/
def name : Tag → String
  | .tool => "tool"
  | .resource => "resource"
  | .server => "server"
  | .toolbox => "toolbox"
  | .param => "param"
  | .globalServer => "global_server"

/-- The tag with a given name. -/
def ofName? (text : String) : Option Tag := all.find? (·.name == text)

/-- The tag that a path names by its last segment. A raw identifier names none. -/
def ofIdent? (ident : Source.Ident) : Option Tag := if ident.raw then none else ofName? ident.name

/-- The tag that the path of an attribute names. -/
def ofPath? (path : Source.AttributePath) : Option Tag := path.segments.getLast?.bind ofIdent?

theorem ofName?_name (tag : Tag) : ofName? tag.name = some tag := by cases tag <;> decide

end Tag

/-- A use of a tag: attached to a declaration, or standing on its own. -/
structure Site where
  tag : Tag
  freestanding : Bool := false
deriving DecidableEq, Repr, Inhabited

/-- How a use is named in messages. -/
def Site.text (site : Site) : String :=
  if site.freestanding then site.tag.name ++ "_fns!" else "#[" ++ site.tag.name ++ "]"

end Toolsmith
