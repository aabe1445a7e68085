import Mathlib
import Toolsmith.Source.Lookahead
import Toolsmith.Source.Quote

/-! # The functions that code refers to

Code refers to functions of its type through `Self::` and `self.`, and to others by calling them by
their bare names. `references` lists these names in order. Which name a tree refers to depends on
its neighbours only, and not beyond a mark that separates phrases; with this, what code refers to is
found phrase by phrase.
-/

namespace Toolsmith
namespace Source

/-- The trees after some marks, if these stand next. -/
def past? : List Char → List Tree → Option (List Tree)
  | [], rest => some rest
  | mark :: marks, .punct found _ :: rest => if found = mark then past? marks rest else none
  | _ :: _, _ => none

def nameAfter (marks : List Char) (code : List Tree) : List String :=
  match past? marks code with
  | some (.ident callee :: _) => [callee.name]
  | _ => []

/-- Arguments stand next, possibly after types. -/
def isCalled (rest : List Tree) : Bool :=
  atGroup .paren rest || (past? [':', ':', '<'] rest).isSome

/-- A name after these marks, given backwards, continues what stands before them, as in `a.name` and
`a::name`. -/
def continues : List Char → Bool
  | [] => false
  | last :: earlier =>
    last == '.' && earlier.head? != some '.' || last == ':' && earlier.head? == some ':'

/-- The function that a tree refers to, given the marks before it and the trees after it. -/
def referenceAt (before : List Char) (rest : List Tree) : Tree → List String
  | .ident ident =>
    if ident = ⟨false, "Self"⟩ then nameAfter [':', ':'] rest
    else if ident = ⟨false, "self"⟩ then nameAfter ['.'] rest
    else if isCalled rest && !continues before then [ident.name] else []
  | _ => []

def marksAfter (before : List Char) : Tree → List Char
  | .punct mark _ => mark :: before
  | _ => []

mutual

def Tree.references : Tree → List String
  | .group _ content => Tree.referencesAfter [] content
  | _ => []

def Tree.referencesAfter (before : List Char) : List Tree → List String
  | [] => []
  | tree :: rest =>
    referenceAt before rest tree ++ tree.references ++
      Tree.referencesAfter (marksAfter before tree) rest

end

/-- The functions that code refers to: what it names after `Self::` or `self.`, and what it calls by
a bare name. -/
def references (code : List Tree) : List String := Tree.referencesAfter [] code

section Separators

/-- A mark that ends the phrase before it. -/
def Separates (mark : Char) : Prop := mark ∉ [':', '.', '<']

instance (mark : Char) : Decidable (Separates mark) := inferInstanceAs (Decidable (mark ∉ _))

variable {mark : Char}

/-- Whether code begins with some marks is seen before a mark that is none of them. -/
theorem past?_separated {marks : List Char} (foreign : mark ∉ marks) (joint : Bool)
    (code rest : List Tree) :
    past? marks (code ++ .punct mark joint :: rest) =
      (past? marks code).map (· ++ .punct mark joint :: rest) := by
  induction marks generalizing code with
  | nil => rfl
  | cons first marks ih =>
      rw [List.mem_cons, not_or] at foreign
      cases code with
      | nil => simp [past?, foreign.1]
      | cons tree code =>
          cases tree with
          | punct found _ =>
              by_cases same : found = first
              · simp [past?, same, ih foreign.2]
              · simp [past?, same]
          | _ => rfl

theorem nameAfter_separated {marks : List Char} (foreign : mark ∉ marks) (joint : Bool)
    (code rest : List Tree) :
    nameAfter marks (code ++ .punct mark joint :: rest) = nameAfter marks code := by
  unfold nameAfter
  rw [past?_separated foreign]
  cases past? marks code with
  | none => rfl
  | some found =>
      cases found with
      | nil => rfl
      | cons tree _ => cases tree <;> rfl

theorem isCalled_separated (separates : Separates mark) (joint : Bool) (code rest : List Tree) :
    isCalled (code ++ .punct mark joint :: rest) = isCalled code := by
  have foreign : mark ∉ [':', ':', '<'] := by
    unfold Separates at separates
    grind
  unfold isCalled
  rw [past?_separated foreign, Option.isSome_map]
  cases code with
  | nil => rfl
  | cons tree _ => cases tree <;> rfl

theorem continues_separated (separates : Separates mark) (before beyond : List Char) :
    continues (before ++ mark :: beyond) = continues before := by
  unfold Separates at separates
  -- Only the last two marks matter.
  rcases before with _ | ⟨last, _ | ⟨earlier, before⟩⟩
  · change _ = false
    unfold continues
    grind
  · simp only [List.cons_append, List.nil_append]
    unfold continues
    grind
  · rfl

theorem referenceAt_separated (separates : Separates mark) (joint : Bool) (before : List Char)
    (code rest : List Tree) (tree : Tree) :
    referenceAt before (code ++ .punct mark joint :: rest) tree = referenceAt before code tree := by
  have foreign : mark ∉ [':', ':'] ∧ mark ∉ ['.'] := by
    unfold Separates at separates
    grind
  unfold referenceAt
  rw [nameAfter_separated foreign.1, nameAfter_separated foreign.2, isCalled_separated separates]

/-- What stands before a mark that separates does not matter for the code after it. -/
theorem referencesAfter_beyond (separates : Separates mark) (before beyond : List Char)
    (code : List Tree) :
    Tree.referencesAfter (before ++ mark :: beyond) code = Tree.referencesAfter before code := by
  induction code generalizing before beyond with
  | nil => rfl
  | cons tree code ih =>
      have here : referenceAt (before ++ mark :: beyond) code tree =
          referenceAt before code tree := by
        unfold referenceAt
        rw [continues_separated separates]
      unfold Tree.referencesAfter
      rw [here]
      congr 1
      cases tree with
      | punct found _ => exact ih (found :: before) beyond
      | _ => rfl

/-- Code with a mark that separates refers to what its two parts refer to. -/
theorem referencesAfter_separated (separates : Separates mark) (joint : Bool) (before : List Char)
    (code rest : List Tree) :
    Tree.referencesAfter before (code ++ .punct mark joint :: rest) =
      Tree.referencesAfter before code ++ references rest := by
  induction code generalizing before with
  | nil => exact referencesAfter_beyond separates [] before rest
  | cons tree code ih =>
      change referenceAt before (code ++ .punct mark joint :: rest) tree ++ tree.references ++
        Tree.referencesAfter (marksAfter before tree) (code ++ .punct mark joint :: rest) = _
      rw [ih, referenceAt_separated separates, ← List.append_assoc]
      rfl

/-- The two sides of a separator refer to functions independently. -/
theorem references_separated (separates : Separates mark) (joint : Bool) (code rest : List Tree) :
    references (code ++ .punct mark joint :: rest) = references code ++ references rest :=
  referencesAfter_separated separates joint [] code rest

end Separators

section Phrases

theorem references_group (delimiter : Delimiter) (content : List Tree) :
    references [.group delimiter content] = references content := List.append_nil _

/-- A list between commas refers to what its items refer to. -/
theorem references_commas (items : List (List Tree)) :
    references (commas items) = items.flatMap references := by
  unfold commas
  induction items with
  | nil => rfl
  | cons first rest ih =>
      cases rest with
      | nil => simp [separated]
      | cons second rest =>
          change references (first ++ op "," ++ separated (op ",") (second :: rest)) = _
          rw [List.append_assoc, List.flatMap_cons, ← ih]
          exact references_separated (by decide) false _ _

theorem references_statement (code rest : List Tree) :
    references (statement code ++ rest) = references code ++ references rest := by
  unfold statement
  rw [List.append_assoc]
  exact references_separated (by decide) false _ _

theorem references_letBind (binder : String) (value rest : List Tree) :
    references (letBind binder value ++ rest) = references value ++ references rest := by
  have bound : references [name "let", name binder] = [] := by
    change [] ++ [] ++ (referenceAt [] [] (name binder) ++ [] ++ []) = []
    simp [referenceAt, name, nameAfter, past?, isCalled, atGroup]
  have split := references_separated (show Separates '=' by decide) false
    [name "let", name binder] value
  rw [bound, List.nil_append] at split
  unfold letBind
  rw [references_statement, List.append_assoc]
  exact congrArg (· ++ references rest) split

/-- What is called after a mark that continues something is not called by a bare name. -/
theorem referencesAfter_call {before : List Char} (continued : continues before = true)
    (callee : Ident) (arguments : List (List Tree)) :
    Tree.referencesAfter before (call [.ident callee] arguments) =
      arguments.flatMap references := by
  have unnamed : referenceAt before [paren (commas arguments)] (.ident callee) = [] := by
    simp [referenceAt, nameAfter, past?, paren, continued]
  change referenceAt before [paren (commas arguments)] (.ident callee) ++ [] ++
    references [paren (commas arguments)] = _
  rw [unnamed, paren, references_group, references_commas]
  rfl

/-- A path from the root refers to nothing of the type, and its arguments to what they do. -/
theorem referencesAfter_rooted {segments : List String} (plain : "Self" ∉ segments)
    (before : List Char) (content : List Tree) :
    Tree.referencesAfter before (rooted segments ++ [paren content]) = references content := by
  induction segments generalizing before with
  | nil => exact List.append_nil _
  | cons segment rest ih =>
      rw [List.mem_cons, not_or] at plain
      have following : nameAfter ['.'] (rooted rest ++ [paren content]) = [] := by
        cases rest <;> rfl
      have unnamed : referenceAt (':' :: ':' :: before) (rooted rest ++ [paren content])
          (name segment) = [] := by
        simp [referenceAt, name, Ne.symm plain.1, following, continues]
      change referenceAt (':' :: ':' :: before) (rooted rest ++ [paren content]) (name segment) ++
        [] ++ Tree.referencesAfter [] (rooted rest ++ [paren content]) = _
      rw [unnamed, ih plain.2]
      rfl

theorem references_call_rooted {segments : List String} (plain : "Self" ∉ segments)
    (arguments : List (List Tree)) :
    references (call (rooted segments) arguments) = arguments.flatMap references := by
  rw [← references_commas]
  exact referencesAfter_rooted plain [] _

/-- A method of another value than `self` refers to what its arguments refer to. -/
theorem references_method {receiver : String} (plain : receiver ≠ "self") (callee : String)
    (arguments : List (List Tree)) :
    references (method [name receiver] callee arguments) = arguments.flatMap references := by
  have unnamed : referenceAt [] (op "." ++ call [name callee] arguments) (name receiver) = [] := by
    simp [referenceAt, name, plain, nameAfter, past?, isCalled, atGroup, op, marks]
  change referenceAt [] (op "." ++ call [name callee] arguments) (name receiver) ++ [] ++
    Tree.referencesAfter ['.'] (call [name callee] arguments) = _
  rw [unnamed]
  exact referencesAfter_call rfl _ _

example : references (method [name "other"] "run"
    [method [name "self"] "own" [], call (relative ["Self", "make"]) [call [name "bare"] []]]) =
      ["own", "make", "bare"] := by decide +kernel

theorem references_ofSelf (ident : Ident) :
    references ([name "Self"] ++ op "::" ++ [.ident ident]) = [ident.name] := by
  have unnamed : referenceAt [':', ':'] [] (.ident ident) = [] := by
    simp [referenceAt, nameAfter, past?, continues]
  change ident.name :: (referenceAt [':', ':'] [] (.ident ident) ++ [] ++ []) = _
  rw [unnamed]
  rfl

end Phrases

end Source
end Toolsmith
