import Toolsmith.Source.Function

/-! # Drafts of functions

A function under construction. Parameters are joined by commas when the function is finished.
-/

namespace Toolsmith

open Source

/-- A function under construction. -/
structure Draft where
  attrs : List Attribute := []
  isPublic : Bool := false
  isAsync : Bool := false
  ident : Ident
  generics : Generics := {}
  inputs : List Input := []
  output : Option (List Tree) := none
  body : List Tree := []

namespace Draft

/-- A function with a name and nothing else. -/
def named (text : String) : Draft := { ident := ⟨false, text⟩ }

/-- Make the function public. -/
def makePublic (draft : Draft) : Draft := { draft with isPublic := true }

/-- Make the function asynchronous. -/
def makeAsync (draft : Draft) : Draft := { draft with isAsync := true }

/-- Add an attribute. -/
def withAttr (draft : Draft) (attr : Attribute) : Draft :=
  { draft with attrs := draft.attrs ++ [attr] }

/-- Set the generic parameters. -/
def withGenerics (draft : Draft) (generics : Generics) : Draft :=
  { draft with generics := generics }

/-- Take `&self` as the first parameter. -/
def withSelf (draft : Draft) : Draft :=
  { draft with inputs := ⟨[], true, op "&" ++ [name "self"], false⟩ :: draft.inputs }

/-- Add a parameter. -/
def input (draft : Draft) (input : Input) : Draft :=
  { draft with inputs := draft.inputs ++ [input] }

/-- Add a parameter with a name and a type. -/
def typed (draft : Draft) (parameter : String) (type : List Tree) : Draft :=
  draft.input ⟨[], false, name parameter :: op ":" ++ type, false⟩

/-- Set the result type. -/
def returning (draft : Draft) (type : List Tree) : Draft := { draft with output := some type }

/-- Add statements, or a final expression, to the body. -/
def code (draft : Draft) (code : List Tree) : Draft := { draft with body := draft.body ++ code }

/-- Commas after all parameters but the last. -/
def joined : List Input → List Input
  | [] => []
  | [last] => [{ last with comma := false }]
  | first :: rest => { first with comma := true } :: joined rest

/-- The finished function. -/
def function (draft : Draft) : Function where
  attrs := draft.attrs
  vis := qualifier draft.isPublic "pub"
  sig :=
    { isAsync := draft.isAsync, ident := draft.ident, generics := draft.generics,
      inputs := joined draft.inputs, output := draft.output }
  body := draft.body

end Draft

end Toolsmith
