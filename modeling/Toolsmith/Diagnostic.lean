import Toolsmith.Marking.Schema

/-! # Diagnostics

Every problem that an expansion can report, its text, and the code that makes a compiler report
it: an error becomes a `compile_error!`, a warning the use of a deprecated constant.
-/

namespace Toolsmith

open Source

/-- How grave a problem is. -/
inductive Severity where
  | error
  | warning
deriving DecidableEq, Repr

/-- A problem with an annotated declaration. -/
inductive Diagnostic where
  /-- The tag belongs on a property declaration. -/
  | propertyTarget (site : Site)
  /-- The tag belongs on an inherent `impl` block. -/
  | typeTarget (site : Site)
  | argument (error : ArgumentError)
  /-- The arguments could not be read, with the text of the reason. -/
  | malformed (text : String)
  | duplicateTool (tool type : String)
  /-- The member takes `self` and must not. -/
  | receiver (member type : String) (site : Site)
  /-- The member is asynchronous and must not be. -/
  | asynchronous (member type : String) (site : Site)
  /-- The member is not asynchronous and must be. -/
  | synchronous (member type : String) (site : Site)
  /-- The type already is the entry point of a program. -/
  | entryPointConflict (type : String)
deriving DecidableEq, Repr

namespace Diagnostic

/-- The gravity of a problem. -/
def severity : Diagnostic → Severity
  | .entryPointConflict _ => .warning
  | _ => .error

/-- The type that a property with this tag returns. -/
def propertyType (site : Site) : String :=
  match site.tag with
  | .resource => "Resource"
  | _ => "Tool"

/-- The text of a problem. -/
def message : Diagnostic → String
  | .propertyTarget site =>
    site.text ++ " can only be applied to a property declaration such as `fn name(&self) -> " ++
      propertyType site ++ ";`"
  | .typeTarget site => site.text ++ " can only be applied to an inherent `impl` block"
  | .argument error => error.message
  | .malformed text => text
  | .duplicateTool tool type => "duplicate tool name `" ++ tool ++ "` in `" ++ type ++ "`"
  | .receiver member type site =>
    "`" ++ member ++ "` in `" ++ type ++
      "` must be an associated function without `self` to be used by " ++ site.text
  | .asynchronous member type site =>
    "`" ++ member ++ "` in `" ++ type ++ "` must not be `async` to be used by " ++ site.text
  | .synchronous member type site =>
    "`" ++ member ++ "` in `" ++ type ++ "` must be `async` to be used by " ++ site.text
  | .entryPointConflict type =>
    "`" ++ type ++ "` is marked `#[main]`; #[server] will not generate a second `main` " ++
      "(pass `generate_main = true` to generate it anyway)"

/-- The code that makes a compiler report the problem. -/
def emit (diagnostic : Diagnostic) : List Tree :=
  match diagnostic.severity with
  | .error =>
    rooted ["core", "compile_error"] ++ op "!" ++ [brace [string diagnostic.message]]
  | .warning =>
    let unit := [paren []]
    [name "const", name "_"] ++ op ":" ++ unit ++ op "=" ++
      [brace (op "#" ++
        [bracket [name "deprecated",
          paren ([name "note"] ++ op "=" ++ [string diagnostic.message])]] ++
        op "#" ++ [bracket [name "allow", paren [name "non_upper_case_globals"]]] ++
        statement ([name "const", name "warning"] ++ op ":" ++ unit ++ op "=" ++ unit) ++
        [name "warning"])] ++ op ";"

/-- The problem that a marking could not be read. -/
def ofMarkingError (error : MarkingError) : Diagnostic := .malformed error.message

end Diagnostic

end Toolsmith
