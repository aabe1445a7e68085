import Toolsmith.Samples.Basic

/-! # Sample toolboxes -/

namespace Toolsmith
namespace Samples

/-- The members of the arithmetic toolbox. -/
def mathOutline : Outline where
  typeName := "Math"
  entryPoint := false
  members :=
    [toolProperty "scale" true none, toolProperty "absolute" false (some "abs"),
     toolProperty "sqrt" false none, toolProperty "manual" false none,
     plainFunction "scale_handler" true false, plainFunction "absolute_handler" false false,
     plainFunction "execute_manual" true false]

/-- What the functions of the arithmetic toolbox do, under a configured factor. -/
def mathProgram (factor : Int) : Program where
  accessor := accessorOf
    [("scale", simpleTool "scale" "Multiply by the configured factor"),
     ("absolute", simpleTool "abs" "Absolute value"),
     ("sqrt", simpleTool "sqrt" "Not implemented yet"),
     ("manual", simpleTool "manual" "Executed by hand")]
  handler := handlerOf
    [("scale_handler", fun arguments => do
        return integerContent (wrap (factor * (← integerArgument arguments "value")))),
     ("absolute_handler", fun arguments => do
        return integerContent (wrap (← integerArgument arguments "value").natAbs)),
     ("execute_manual", fun arguments =>
        .ok [.text "manual", .text (",".intercalate (arguments.map (·.1)))])]

/-- The arithmetic toolbox. -/
def math (factor : Int) : Toolbox :=
  (mathProgram factor).toolbox mathOutline (Text.literal "math")
    (Text.literal "Arithmetic on integers")

/-- A toolbox with nothing in it. -/
def emptyBox : Toolbox :=
  ({ accessor := fun _ => default, handler := handlerOf [] } : Program).toolbox
    { typeName := "Empty", entryPoint := false, members := [] } (Text.literal "empty")
    (Text.literal "Nothing in here")

/-- The members of a toolbox that declares the whole interface itself. -/
def delegatingOutline : Outline where
  typeName := "Delegating"
  entryPoint := false
  members :=
    [toolProperty "hidden" false none, plainFunction "get_toolbox_info" false false,
     plainFunction "get_tools" true false, plainFunction "handle_tool_call" true false]

/-- What those members do. -/
def delegatingProgram : Program where
  accessor := accessorOf [("hidden", simpleTool "hidden" "Never listed")]
  handler := handlerOf []
  info := ⟨"delegating", "by hand"⟩
  listing := [⟨"visible", "by hand", some (.bool true)⟩]
  dispatch := fun name arguments =>
    .ok [.text (name ++ "/" ++ (Json.integer arguments.length).shown)]

/-- A toolbox that declares the whole interface itself. -/
def delegating : Toolbox :=
  delegatingProgram.toolbox delegatingOutline (Text.literal "ignored") (Text.literal "ignored")

/-- A toolbox that runs one handler for all its tools and puts the name of the tool in front. -/
def uniform (info : ToolboxInfo) (tools : List Tool) (handler : Handler) : Toolbox where
  info := info
  tools := tools
  call name arguments :=
    if tools.any (·.name == name) then do return .text name :: (← handler arguments)
    else .error (.error (.toolNotFound name))

end Samples
end Toolsmith
