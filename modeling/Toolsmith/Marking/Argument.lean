import Toolsmith.Marking.Tag
import Toolsmith.Source.Grammar

/-! # Markings and their arguments

A marking is a use of a tag with a list of arguments, `label = value` or a value alone.
-/

namespace Toolsmith

open Source Source.Reader

/-- An argument of a marking. -/
structure Argument where
  label : Option Ident
  value : Expression

/-- A use of a tag with its arguments. -/
structure Marking where
  site : Site
  arguments : List Argument

/-- The tag of a marking. -/
def Marking.tag (marking : Marking) : Tag := marking.site.tag

/-- Why a marking could not be read. -/
inductive MarkingError where
  | malformed (mismatch : Mismatch)
  /-- The attribute assigns a value instead of listing arguments. -/
  | assigned (site : Site)
deriving DecidableEq, Repr

/-- The text of the error. -/
def MarkingError.message : MarkingError → String
  | .malformed mismatch => mismatch.message
  | .assigned site => site.text ++ " arguments must be written as `label = value`"

/-- An argument starts with a label: a word and a `=` that does not begin `==`. -/
def atLabel (trees : List Tree) : Bool :=
  atWord trees && atOperator "=" (trees.drop 1) && !atOperator "==" (trees.drop 1)

/-- Read one argument. -/
def Argument.reader (g : Grammar) : Reader Argument := do
  if atLabel (← ahead) then
    let label ← word
    operator "="
    return ⟨some label, ← phrase (g.expression true)⟩
  else return ⟨none, ← phrase (g.expression true)⟩

/-- Read arguments separated by commas, with an optional one at the end. -/
def Argument.listReader (g : Grammar) : Reader (List Argument) :=
  List.map (·.1) <$> commaSeparated (Argument.reader g)

/-- The trees an argument was written as. -/
def Argument.source (argument : Argument) : List Tree :=
  (match argument.label with
    | some label => .ident label :: op "="
    | none => []) ++ argument.value.source

/-- The marking at a site whose arguments are the given trees. -/
def Marking.parse (site : Site) (tokens : List Tree) : Except MarkingError Marking :=
  match readAll Argument.listReader tokens with
  | .ok arguments => .ok ⟨site, arguments⟩
  | .error mismatch => .error (.malformed mismatch)

/-- The marking that an attribute makes, when it is of the vocabulary. -/
def Marking.ofAttribute? (attr : Attribute) : Option (Except MarkingError Marking) :=
  (Tag.ofPath? attr.path).map fun tag =>
    match attr.arguments with
    | .none => .ok ⟨⟨tag, false⟩, []⟩
    | .list _ tokens => Marking.parse ⟨tag, false⟩ tokens
    | .value _ => .error (.assigned ⟨tag, false⟩)

end Toolsmith
