import Toolsmith.Source.Tree

/-! # What a phrase was written as, and what it is printed as

Reading a phrase of source code yields pieces. Each remembers the trees it was written as
(`source`) and gives the trees it is printed as (`print`). The two agree but for the spacing of
punctuation and for the few forms that print differently, such as a generic parameter list, whose
lifetimes are printed first.
-/

namespace Toolsmith
namespace Source

/-- A piece of a phrase that was read. -/
inductive Piece where
  /-- Printed as written. -/
  | tree (written : Tree)
  /-- A mark of an operator: its spacing as written and as printed. -/
  | mark (symbol : Char) (written printed : Bool)
  /-- A group whose content was read. -/
  | group (delimiter : Delimiter) (content : List Piece)
  /-- Pieces that print as something else. -/
  | reprinted (written : List Piece) (printed : List Tree)
deriving Inhabited

namespace Piece

mutual

/-- The trees a piece was written as. -/
def source : Piece → List Tree
  | .tree written => [written]
  | .mark symbol written _ => [.punct symbol written]
  | .group delimiter content => [.group delimiter (sourceAll content)]
  | .reprinted written _ => sourceAll written

/-- The trees a sequence of pieces was written as. -/
def sourceAll : List Piece → List Tree
  | [] => []
  | piece :: rest => piece.source ++ sourceAll rest

end

mutual

/-- The trees a piece is printed as. -/
def print : Piece → List Tree
  | .tree written => [written]
  | .mark symbol _ printed => [.punct symbol printed]
  | .group delimiter content => [.group delimiter (printAll content)]
  | .reprinted _ printed => printed

/-- The trees a sequence of pieces is printed as. -/
def printAll : List Piece → List Tree
  | [] => []
  | piece :: rest => piece.print ++ printAll rest

end

@[simp] theorem sourceAll_nil : sourceAll [] = [] := rfl

@[simp] theorem sourceAll_cons (piece : Piece) (rest : List Piece) :
    sourceAll (piece :: rest) = piece.source ++ sourceAll rest := rfl

@[simp] theorem sourceAll_append (first second : List Piece) :
    sourceAll (first ++ second) = sourceAll first ++ sourceAll second := by
  induction first with
  | nil => rfl
  | cons piece rest ih => simp [ih]

@[simp] theorem printAll_nil : printAll [] = [] := rfl

@[simp] theorem printAll_cons (piece : Piece) (rest : List Piece) :
    printAll (piece :: rest) = piece.print ++ printAll rest := rfl

@[simp] theorem printAll_append (first second : List Piece) :
    printAll (first ++ second) = printAll first ++ printAll second := by
  induction first with
  | nil => rfl
  | cons piece rest ih => simp [ih]

/-- Trees that print as they are written. -/
def ofTrees (trees : List Tree) : List Piece := trees.map .tree

@[simp] theorem sourceAll_ofTrees (trees : List Tree) : sourceAll (ofTrees trees) = trees := by
  induction trees with
  | nil => rfl
  | cons head rest ih =>
    simp only [ofTrees, List.map_cons, sourceAll_cons, source] at ih ⊢
    simp [ih]

@[simp] theorem printAll_ofTrees (trees : List Tree) : printAll (ofTrees trees) = trees := by
  induction trees with
  | nil => rfl
  | cons head rest ih =>
    simp only [ofTrees, List.map_cons, printAll_cons, print] at ih ⊢
    simp [ih]

end Piece

/-- A phrase that was read: what kind of phrase it is, and its pieces. -/
structure Phrase (κ : Type) where
  kind : κ
  pieces : List Piece

/-- The trees the phrase was written as. -/
def Phrase.source {κ : Type} (phrase : Phrase κ) : List Tree := Piece.sourceAll phrase.pieces

/-- The trees the phrase is printed as. -/
def Phrase.print {κ : Type} (phrase : Phrase κ) : List Tree := Piece.printAll phrase.pieces

/-- A phrase that prints as it is written. -/
def Phrase.ofTrees {κ : Type} (kind : κ) (trees : List Tree) : Phrase κ :=
  ⟨kind, Piece.ofTrees trees⟩

@[simp] theorem Phrase.print_ofTrees {κ : Type} (kind : κ) (trees : List Tree) :
    (Phrase.ofTrees kind trees).print = trees := Piece.printAll_ofTrees trees

@[simp] theorem Phrase.source_ofTrees {κ : Type} (kind : κ) (trees : List Tree) :
    (Phrase.ofTrees kind trees).source = trees := Piece.sourceAll_ofTrees trees

end Source
end Toolsmith
