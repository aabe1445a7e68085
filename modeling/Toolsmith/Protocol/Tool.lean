import Toolsmith.Protocol.Content
import Toolsmith.Protocol.Error

/-! # Tools and toolboxes -/

namespace Toolsmith

open Json

/-- The description of a tool. -/
structure Tool where
  name : String
  description : String
  /-- The schema of its arguments. -/
  inputSchema : Option Json
deriving Repr, Inhabited

namespace Tool

/-- The schema that stands for none: any object. -/
def anySchema : Json := .object [("type", .string "object")]

/-- Read the description of a tool. -/
def decoder : Decoder Tool :=
  (Tool.mk <$> Record.required "name" .string <*> Record.required "description" .string <*>
    Record.omissible "inputSchema" .any).decoder "struct Tool"

/-- The description of a tool as it is sent. -/
def encode (tool : Tool) : Json :=
  .object [("name", .string tool.name), ("description", .string tool.description),
    ("inputSchema", tool.inputSchema.getD anySchema)]

end Tool

/-- The name and description of a toolbox. -/
structure ToolboxInfo where
  name : String
  description : String
deriving DecidableEq, Repr, Inhabited

namespace ToolboxInfo

/-- Read the description of a toolbox. -/
def decoder : Decoder ToolboxInfo :=
  (ToolboxInfo.mk <$> Record.required "name" .string <*>
    Record.required "description" .string).decoder "struct ToolboxInfo"

/-- The description of a toolbox as it is sent. -/
def encode (info : ToolboxInfo) : Json :=
  .object [("name", .string info.name), ("description", .string info.description)]

end ToolboxInfo

/-- What a tool does with its arguments. -/
abbrev Handler := Arguments → Except Failure (List Content)

/-- A group of tools that are called by name. -/
structure Toolbox where
  info : ToolboxInfo
  tools : List Tool
  call : String → Handler

end Toolsmith
