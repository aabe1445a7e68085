import Mathlib
import Toolsmith.Proofs.Source.Follow.Generics
import Toolsmith.Proofs.Source.Follow.Parameter

/-! # Declarations are read again

What a declaration prints is read again, as one that is written alike (`Declaration.Alike`): the
values that attributes assign and the parameters in angle brackets keep the pieces they were read
from, and these may differ. Of the declarations that were read all are read again whose expressions
are written as they are printed (`Declaration.readsBack_of_settled`), whatever the spacing of the
marks, the order of the generic parameters, and empty lists and clauses.
-/

namespace Toolsmith
namespace Source

open Piece Reader

/-! ### Written alike -/

/-- Attributes that are written alike. -/
structure Attribute.Alike (one two : Attribute) : Prop where
  inner : one.inner = two.inner
  path : one.path = two.path
  arguments : one.arguments.print = two.arguments.print

/-- Parameters that are written alike. -/
structure Input.Alike (one two : Input) : Prop where
  attrs : List.Forall₂ Attribute.Alike one.attrs two.attrs
  receiver : one.receiver = two.receiver
  code : one.code = two.code
  comma : one.comma = two.comma

/-- Signatures that are written alike. -/
structure Signature.Alike (one two : Signature) : Prop where
  own : one = { two with inputs := one.inputs, generics := one.generics }
  none : one.generics.params.isEmpty = two.generics.params.isEmpty
  params : one.generics.print = two.generics.print
  clause : one.generics.clause = two.generics.clause
  inputs : List.Forall₂ Input.Alike one.inputs two.inputs

/-- Declarations that are written alike. -/
structure Declaration.Alike (one two : Declaration) : Prop where
  attrs : List.Forall₂ Attribute.Alike one.attrs two.attrs
  vis : one.vis = two.vis
  sig : one.sig.Alike two.sig

theorem Attribute.Alike.refl (attr : Attribute) : attr.Alike attr := ⟨rfl, rfl, rfl⟩

theorem Attribute.Alike.of_self (attrs : List Attribute) :
    List.Forall₂ Attribute.Alike attrs attrs :=
  List.forall₂_same.mpr fun attr _ => .refl attr

/-- From what the declaration prints, one is read that is written alike, and it is printed as it was
written. -/
def Declaration.ReadsBack (declaration : Declaration) : Prop :=
  ∃ again taken, (Grammar.within nestingLimit).declaration.Reads declaration.print again taken [] ∧
    PlainAll taken ∧ declaration.Alike again

namespace Grammar

variable {g : Grammar} {depth : Nat}

/-! ### Signatures -/

/-- Both begin with the same word of a signature. -/
def Qualified : Sight :=
  Ahead
    (fun tree => ∃ text ∈ ["const", "async", "unsafe", "extern", "fn"], tree = .ident ⟨false, text⟩)
    fun _ _ => True

theorem Qualified.of_ahead {text : String} {behind : Sight} {x y : List Tree}
    (ahead : Ahead (· = name text) behind x y)
    (known : ["const", "async", "unsafe", "extern", "fn"].contains text = true) :
    Qualified x y := by
  obtain ⟨tree, rest, other, rfl, written, printed, _⟩ := ahead
  exact ⟨_, rest, other, ⟨text, List.contains_iff_mem.mp known, rfl⟩, written, printed, trivial⟩

theorem Qualified.head {x y : List Tree} (qualified : Qualified x y) : Head x y := by
  obtain ⟨_, _, _, ⟨_, _, rfl⟩, rfl, rfl, _⟩ := qualified
  exact .of_quiet rfl rfl

/-- The keyword of a qualifier is read again, and none where there was none. -/
theorem follows_qualifier (text : String)
    (known : ["const", "async", "unsafe", "extern", "fn"].contains text = true) :
    Again (keyword? text) Qualified Qualified :=
  Follows.keyword? text (fun _ _ ahead => .of_ahead ahead known) fun _ _ absent qualified =>
    ⟨(Seen.keyword _ qualified.head).symm.trans absent, qualified⟩

/-- The fronts of signatures differ at most in how the parameters are kept. -/
structure SignatureFront.Alike (one two : SignatureFront) : Prop where
  own : one = { two with params := one.params }
  params : Generics.print ⟨one.params, []⟩ = Generics.print ⟨two.params, []⟩
  none : one.params.isEmpty = two.params.isEmpty

/-- The front of a signature is read again up to its parameters in angle brackets, which may have
another order. -/
theorem follows_signatureFront (own : g.Repeats) : Follows g.signatureFront g.signatureFront
    SignatureFront.Alike Qualified fun _ => Grouped .paren (fun _ _ => True) fun _ _ => True := by
  let word : Sight := Ahead (· = name "fn") fun _ _ => True
  refine Follows.bind _ (follows_qualifier "const" rfl) fun isConst =>
    Follows.bind _ (follows_qualifier "async" rfl) fun isAsync =>
    Follows.bind _ (follows_qualifier "unsafe" rfl) fun isUnsafe =>
    Follows.bindLike (fun _ => word) (Follows.phrase (follows_abi (fun x y ahead => ?_)
      (fun x y ahead => .of_ahead ahead rfl) fun x y ahead => .of_ahead ahead rfl))
      (fun value => ⟨value, rfl, rfl⟩) fun abi shown same =>
    Follows.bind (fun _ _ _ => True) ((copies_keyword "fn").follows fun _ _ _ => id) fun _ =>
    Follows.bind (fun _ _ _ => True) (copies_ident.follows fun _ _ _ _ => trivial) fun ident =>
    Follows.bindLike _ (follows_genericParams own fun x y grouped => ?_)
      (fun value => ⟨value, rfl, rfl⟩) fun params others alike => .pure ?_
  · obtain ⟨_, _, _, rfl, rfl, rfl, _⟩ := ahead
    exact ⟨.of_quiet rfl rfl, fun _ => nofun⟩
  · obtain ⟨_, _, _, _, _, rfl, _⟩ := grouped
    rfl
  · refine ⟨?_, alike.1, alike.2⟩
    rw [same.2]

/-- What follows the parameters of a signature. -/
theorem follows_signatureBack (own : g.Repeats) : Follows g.signatureBack g.signatureBack
    (fun one two => one.1.map Phrase.print = two.1.map Phrase.print ∧ one.2 = two.2)
    (fun _ _ => True) fun _ => Semicolon := by
  have last (value found : Option (Phrase TypeKind))
      (same : value.map Phrase.print = found.map Phrase.print) :
      Follows
        (do
          let clause ← g.whereClause
          return (value, clause))
        (do
          let clause ← g.whereClause
          return (found, clause))
        (fun one two => one.1.map Phrase.print = two.1.map Phrase.print ∧ one.2 = two.2)
        Beyond fun _ => Semicolon :=
    (follows_whereClause own).bind _ fun _ => .pure ⟨same, rfl⟩
  have typed : Follows (phrase (g.type true) >>= fun found => pure (some found))
      (phrase (g.type true) >>= fun found => pure (some found))
      (fun one two => one.map Phrase.print = two.map Phrase.print) (Leads Beyond) fun _ => Beyond :=
    Follows.bindLike _ (own.type true fun _ _ => id).phrase
      (fun value => ⟨value, rfl, rfl⟩) fun _ _ same => .pure (congrArg some same.2.symm)
  refine .operatorIf "->" (Leads Beyond) Beyond (typed.bindLike _ (fun value => ⟨value, rfl⟩) last)
    (Follows.bind _ (Follows.pure rfl) fun value => last _ _ rfl) (fun _ _ _ => trivial)
    fun x y absent beyond => ⟨beyond.firm rfl (by decide) rfl absent, trivial⟩

/-- A signature is read again as one that is written alike. -/
theorem follows_signature : Follows (Grammar.within (depth + 1)).signature
    (Grammar.within (depth + 1)).signature Signature.Alike Qualified fun _ => Semicolon := by
  have own := repeats_within (depth + 1)
  intro trees rest other sig taken read settled semicolon
  obtain ⟨front, inputs, back, content, middle, one, pieces, two, begins, inside, ends, rfl, rfl⟩ :=
    reads_signature.mp read
  rw [settledAll_append] at settled
  obtain ⟨before, ⟨⟨within, _⟩, behind⟩⟩ := settled
  obtain ⟨_, back', again₂, ⟨output, clause⟩, reads₂, plain₂⟩ :=
    follows_signatureBack own ends behind semicolon
  obtain ⟨_, _, again, rfl, reads, plain⟩ := follows_inputs inside within ⟨rfl, rfl⟩
  obtain ⟨qualified, front', again₁, alike, reads₁, plain₁⟩ :=
    follows_signatureFront own begins before
      ⟨content, printAll pieces, middle, printAll two ++ other, rfl, rfl, trivial, trivial⟩
  rw [List.append_nil] at reads
  rw [printAll_append, printAll_cons, List.append_assoc]
  refine ⟨qualified, front'.signature inputs back', again₁ ++ .group .paren again :: again₂, ?_,
    reads_signature.mpr ⟨front', inputs, back', printAll pieces, _, again₁, again, again₂, reads₁,
      reads, reads₂, rfl, rfl⟩, plainAll_append.mpr ⟨plain₁, plain, plain₂⟩⟩
  refine ⟨?_, alike.none, ?_, clause, List.forall₂_same.mpr fun input _ =>
    ⟨Attribute.Alike.of_self _, rfl, rfl, rfl⟩⟩
  · rw [SignatureFront.signature, SignatureFront.signature, output, alike.own]
  · exact alike.params

/-! ### Visibility -/

/-- Both begin with a word. -/
def Worded : Sight := fun x y => atWord x = true ∧ atWord y = true

theorem Qualified.worded {x y : List Tree} (qualified : Qualified x y) : Worded x y := by
  obtain ⟨_, _, _, ⟨_, _, rfl⟩, rfl, rfl, _⟩ := qualified
  exact ⟨rfl, rfl⟩

/-- What may restrict a visibility. -/
def scope : Reader Bool := do
  match (← ahead) with
  | .group .paren [.ident scope] :: _ =>
    if ["crate", "self", "super"].contains scope.text then discard tree
  | .group .paren (.ident scope :: _) :: _ =>
    if scope.text == "in" then
      group .paren do
        keyword "in"
        discard modulePath
  | _ => pure ()
  return true

/-- Before a word there is none. -/
theorem scope_of_word {trees : List Tree} (word : atWord trees = true) :
    scope.Reads trees true [] trees := by
  refine reads_ahead_bind.mpr ?_
  rcases trees with _ | ⟨head, trees⟩
  · cases word
  cases head with
  | ident => exact reads_pure.mpr ⟨rfl, rfl, rfl⟩
  | _ => cases word

/-- The path of a scope in parentheses. -/
def scopePath : Reader Unit := group .paren do
  keyword "in"
  discard modulePath

theorem follows_scopePath :
    Again scopePath (Grouped .paren (Ahead (· = name "in") (Leads AtEnd)) Qualified) Qualified :=
  .group <| Follows.bind _ ((copies_keyword "in").follows fun _ _ _ => id) fun _ =>
    (follows_modulePath fun _ _ ended => Head.at_end ended).dropped

theorem reads_scopePath {content behind rest : List Tree} {second : Tree} {value : Unit}
    {taken : List Piece}
    (read : scopePath.Reads (.group .paren (name "in" :: second :: content) :: behind) value taken
      rest) :
    scope.Reads (.group .paren (name "in" :: second :: content) :: behind) true taken rest := by
  refine reads_ahead_bind.mpr (reads_bind.mpr ⟨value, taken, [], rest, ?_,
    reads_pure.mpr ⟨rfl, rfl, rfl⟩, (List.append_nil _).symm⟩)
  exact read

/-- One of the words that stand for a scope by themselves. -/
theorem reads_scopeName {word : Ident}
    (known : ["crate", "self", "super"].contains word.text = true)
    (rest : List Tree) : scope.Reads (.group .paren [.ident word] :: rest) true
      [.tree (.group .paren [.ident word])] rest := by
  refine reads_ahead_bind.mpr ?_
  dsimp only
  rw [if_pos known]
  exact reads_bind.mpr ⟨(), _, [], rest, reads_discard.mpr ⟨_, rfl, rfl⟩,
    reads_pure.mpr ⟨rfl, rfl, rfl⟩, rfl⟩

/-- A visibility is restricted to a word, to a path behind `in`, or not at all. -/
theorem follows_scope : Again scope (fun _ _ => True) Qualified := by
  intro trees rest other value taken read settled qualified
  refine ⟨trivial, ?_⟩
  have unrestricted (read : (pure true : Reader Bool).Reads trees value taken rest) :
      ∃ found again, value = found ∧ scope.Reads (printAll taken ++ other) found again other ∧
        PlainAll again := by
    obtain ⟨rfl, rfl, rfl⟩ := reads_pure.mp read
    exact ⟨true, [], rfl, scope_of_word qualified.worded.2, trivial⟩
  have read := reads_ahead_bind.mp read
  split at read
  · split at read
    · rename_i known
      obtain ⟨_, _, _, _, first, last, rfl⟩ := reads_bind.mp read
      obtain ⟨rfl, rfl, rfl⟩ := reads_pure.mp last
      obtain ⟨found, first⟩ := reads_discard.mp first
      obtain ⟨_, rfl, whole, rfl, _⟩ := copies_tree first
      cases whole
      exact ⟨true, _, rfl, reads_scopeName known other, trivial, trivial⟩
    · exact unrestricted read
  · rename_i more _
    split at read
    · obtain ⟨_, one, _, _, path, last, rfl⟩ := reads_bind.mp read
      obtain ⟨rfl, rfl, rfl⟩ := reads_pure.mp last
      rw [List.append_nil] at settled ⊢
      obtain ⟨⟨_, _, _, _, whole, printed, ⟨_, behind, shown, rfl, rfl, rfl, leads⟩, _⟩, _, again,
        _, reads, plain⟩ := follows_scopePath path settled qualified
      cases whole
      obtain ⟨second, shown, rfl⟩ : ∃ second others, shown = second :: others := by
        refine List.exists_cons_of_ne_nil fun none => more ?_
        exact headKind_eq_none.mp (leads.head.kind.trans (headKind_eq_none.mpr none))
      rw [printed] at reads ⊢
      exact ⟨true, again, rfl, reads_scopePath reads, plain⟩
    · exact unrestricted read
  · exact unrestricted read

theorem follows_visibility : Again visibility Worded Qualified := by
  refine .keywordIf "pub" (fun _ _ => True) Qualified follows_scope
    (.pure rfl) (fun x y ahead => ?_) fun x y absent qualified =>
      ⟨(Seen.keyword _ qualified.head).symm.trans absent, qualified.worded⟩
  obtain ⟨_, _, _, rfl, rfl, rfl, _⟩ := ahead
  exact ⟨rfl, rfl⟩

/-! ### Declarations -/

/-- A declaration is read again as one that is written alike. -/
theorem reads_alike {trees rest : List Tree} {declaration : Declaration} {taken : List Piece}
    (read : (Grammar.within (depth + 1)).declaration.Reads trees declaration taken rest)
    (settled : SettledAll taken) : ∃ again pieces,
      (Grammar.within (depth + 1)).declaration.Reads declaration.print again pieces [] ∧
        PlainAll pieces ∧ declaration.Alike again := by
  have print := print_of_declaration read
  obtain ⟨vis, _, _, _, one, two, three, joint, attributes, visible, signed, rfl, same, rfl⟩ :=
    reads_declaration.mp read
  simp only [settledAll_append] at settled
  have semicolon : Semicolon (.punct ';' joint :: rest) [.punct ';' false] := ⟨rfl, rfl⟩
  obtain ⟨qualified, sig, third, alike, again₃, plain₃⟩ :=
    follows_signature signed settled.2.2.1 semicolon
  obtain ⟨worded, shown, second, ⟨_, written⟩, again₂, plain₂⟩ :=
    follows_visibility.phrase visible settled.2.1 qualified
  have unmarked (x y : List Tree) (worded : Worded x y) : atOperator "#" x = atOperator "#" y :=
    (unmarked_of_word worded.1).trans (unmarked_of_word worded.2).symm
  have attributed : Again (Grammar.within (depth + 1)).outerAttributes (fun _ _ => True) Worded :=
    follows_outerAttributes unmarked fun _ _ _ => trivial
  obtain ⟨_, _, first, rfl, again₁, plain₁⟩ := attributed attributes settled.1 worded
  simp only [printAll_append] at print
  refine ⟨⟨declaration.attrs, shown.print, sig⟩,
    first ++ (second ++ (third ++ [.mark ';' false false])),
    reads_declaration.mpr ⟨shown, _, _, _, first, second, third, false, ?_, again₂, again₃, rfl,
      rfl, rfl⟩, ?_, Attribute.Alike.of_self _, same.trans written.symm, alike⟩
  · rw [← print]
    exact again₁
  · simp only [plainAll_append]
    exact ⟨plain₁, plain₂, plain₃, rfl, trivial⟩

end Grammar

/-- **Reading again.** A declaration that was read is read again from what it prints, when its
expressions are written as they are printed. -/
theorem Declaration.readsBack_of_settled {trees rest : List Tree} {declaration : Declaration}
    {taken : List Piece}
    (read : (Grammar.within nestingLimit).declaration.Reads trees declaration taken rest)
    (settled : SettledAll taken) : declaration.ReadsBack := by
  have deep : nestingLimit = 4611686018427387903 + 1 := rfl
  rw [deep] at read
  rw [ReadsBack, deep]
  exact Grammar.reads_alike read settled

/-- Generic parameters out of order, joint marks and an empty clause are not printed as they are
written, and are settled. -/
example : (match (Grammar.within nestingLimit).declaration
    (name "fn" :: name "echo" :: op "<" ++ name "T" :: op "," ++ .lifetime ⟨false, "a"⟩ :: op ">" ++
      .group .paren [name "text", .punct ':' true, .punct '&' false, name "str"] ::
        name "where" :: op ";") with
    | .ok reading => decide (SettledAll reading.taken ∧ ¬ PlainAll reading.taken)
    | .error _ => false) = true := by
  decide +kernel

end Source
end Toolsmith
