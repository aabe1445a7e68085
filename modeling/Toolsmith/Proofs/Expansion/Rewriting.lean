import Mathlib
import Toolsmith.Proofs.Expansion.Stripping
import Toolsmith.Proofs.Source.Follow.Declaration
import Toolsmith.Proofs.Source.Layout
import Toolsmith.Proofs.Source.Rereading

/-! # Rewriting a block is invisible

A block is rewritten by stripping or by preparing it. Whoever lists the members of the rewritten
block finds what was there before but the entry point, and rewriting it again changes nothing. That
is so of the block as it stands, and also of the block whose members without a body were written out
as code and read again (`Source.ImplBlock.rewriting_invisible`).

What was read again need not be the same declaration: the value assigned to an attribute keeps the
pieces it was read from. It is one that is written alike (`Source.Declaration.Alike`), and nothing
but what is written is looked at.
-/

namespace Toolsmith
namespace Source

open Piece Reader

/-! ### Written alike -/

theorem flatMap_of_forall₂ {α : Type} {related : α → α → Prop} {print : α → List Tree}
    {one two : List α} (each : List.Forall₂ related one two)
    (same : ∀ first second, related first second → print first = print second) :
    one.flatMap print = two.flatMap print := by
  induction each with
  | nil => rfl
  | cons first _ ih => rw [List.flatMap_cons, List.flatMap_cons, same _ _ first, ih]

theorem filterMap_of_forall₂ {α β : Type} {related : α → α → Prop} {seen : α → Option β}
    {one two : List α} (each : List.Forall₂ related one two)
    (same : ∀ first second, related first second → seen first = seen second) :
    one.filterMap seen = two.filterMap seen := by
  induction each with
  | nil => rfl
  | cons first _ ih => rw [List.filterMap_cons, List.filterMap_cons, same _ _ first, ih]

namespace Attribute

variable {one two : Attribute}

theorem Alike.print (alike : one.Alike two) : one.print = two.print := by
  rw [Attribute.print, Attribute.print, alike.inner, alike.path, alike.arguments]

theorem Alike.isParam (alike : one.Alike two) : one.isParam = two.isParam := by
  rw [Attribute.isParam, Attribute.isParam, alike.path]

theorem Alike.qualified (alike : one.Alike two) : one.qualified.Alike two.qualified := by
  unfold Attribute.qualified
  rw [alike.path]
  split
  · exact ⟨alike.inner, rfl, alike.arguments⟩
  · exact alike

/-- Attributes that are written alike make the same marking. -/
theorem Alike.ofAttribute? (alike : one.Alike two) :
    Marking.ofAttribute? one = Marking.ofAttribute? two := by
  obtain ⟨_, path, first⟩ := one
  obtain ⟨_, _, second⟩ := two
  obtain ⟨_, same, written⟩ := alike
  obtain rfl : path = _ := same
  unfold Marking.ofAttribute?
  cases first with
  | none => cases second <;> first | rfl | cases written
  | list delimiter tokens => cases second <;> first | rfl | (cases written; rfl) | cases written
  | value expression => cases second <;> first | rfl | cases written

theorem Alike.problem? (alike : one.Alike two) : one.problem? = two.problem? := by
  rw [Attribute.problem?, Attribute.problem?, alike.ofAttribute?]

end Attribute

theorem markingsOf_of_alike {one two : List Attribute}
    (alike : List.Forall₂ Attribute.Alike one two) : markingsOf one = markingsOf two :=
  filterMap_of_forall₂ alike fun _ _ same => by rw [same.ofAttribute?, same.path]

theorem filter_of_alike {test : Attribute → Bool}
    (same : ∀ one two : Attribute, one.Alike two → test one = test two) {one two : List Attribute}
    (alike : List.Forall₂ Attribute.Alike one two) :
    List.Forall₂ Attribute.Alike (one.filter test) (two.filter test) := by
  refine List.rel_filter (fun first second alike => ?_) alike
  simp only [same _ _ alike]

theorem printOuter_of_alike {one two : List Attribute}
    (alike : List.Forall₂ Attribute.Alike one two) : printOuter one = printOuter two :=
  flatMap_of_forall₂ (filter_of_alike (fun _ _ same => by rw [same.inner]) alike)
    fun _ _ same => same.print

namespace Input

variable {one two : Input}

theorem Alike.print (alike : one.Alike two) : one.print = two.print := by
  rw [Input.print, Input.print, printOuter_of_alike alike.attrs, alike.code, alike.comma]

theorem Alike.stripped (alike : one.Alike two) : one.stripped.Alike two.stripped := by
  unfold Input.stripped
  rw [alike.receiver]
  split
  · exact alike
  · exact ⟨filter_of_alike (fun _ _ same => by rw [same.isParam]) alike.attrs, rfl, alike.code,
      alike.comma⟩

end Input

namespace Signature

variable {one two : Signature}

theorem Alike.print (alike : one.Alike two) : one.print = two.print := by
  have inputs := flatMap_of_forall₂ alike.inputs fun _ _ same => same.print
  rw [Signature.print, inputs, alike.params, alike.clause, alike.own]
  rfl

theorem Alike.stripped (alike : one.Alike two) : one.stripped.Alike two.stripped where
  own := by
    unfold Signature.stripped
    rw [alike.own]
  none := alike.none
  params := alike.params
  clause := alike.clause
  inputs := List.rel_map (fun _ _ same => same.stripped) alike.inputs

theorem Alike.receivers (alike : one.Alike two) :
    one.inputs.map (·.receiver) = two.inputs.map (·.receiver) := by
  rw [← List.forall₂_eq_eq_eq]
  exact List.rel_map (fun _ _ same => same.receiver) alike.inputs

theorem Alike.hasReceiver (alike : one.Alike two) : one.hasReceiver = two.hasReceiver := by
  have first (sig : Signature) :
      sig.hasReceiver = (sig.inputs.map (·.receiver)).head?.any id := by
    rw [List.head?_map, Option.any_map]
    rfl
  rw [first, first, alike.receivers]

end Signature

namespace Declaration

variable {one two : Declaration}

/-- A declaration without the marks that only an expansion understands. -/
def stripped (declaration : Declaration) : Declaration :=
  { declaration with
    attrs := declaration.attrs.map Attribute.qualified, sig := declaration.sig.stripped }

theorem Alike.print (alike : one.Alike two) : one.print = two.print := by
  rw [Declaration.print, Declaration.print, alike.vis, alike.sig.print,
    flatMap_of_forall₂ alike.attrs fun _ _ same => same.print]

theorem Alike.stripped (alike : one.Alike two) : one.stripped.Alike two.stripped :=
  ⟨List.rel_map (fun _ _ same => same.qualified) alike.attrs, alike.vis, alike.sig.stripped⟩

theorem Alike.isProperty (alike : one.Alike two) : one.isProperty = two.isProperty := by
  have all (sig : Signature) :
      sig.inputs.all (·.receiver) = (sig.inputs.map (·.receiver)).all id := by
    rw [List.all_map]
    rfl
  simp only [Declaration.isProperty, all, alike.sig.receivers, alike.sig.none]
  rw [alike.sig.own]

/-- Declarations that are written alike are listed alike. -/
theorem Alike.ofImplMember? (alike : one.Alike two) :
    Member.ofImplMember? (.declaration one) = Member.ofImplMember? (.declaration two) := by
  simp only [Member.ofImplMember?, alike.isProperty, alike.sig.hasReceiver,
    markingsOf_of_alike alike.attrs]
  rw [alike.sig.own]

theorem stripped_stripped (declaration : Declaration) :
    declaration.stripped.stripped = declaration.stripped :=
  ImplMember.declaration.inj (ImplMember.stripped_stripped (.declaration declaration))

end Declaration

/-! ### Reading again -/

/-- The names in the absolute path of a marking are no keywords. -/
theorem isPlain_of_tag (tag : Tag) :
    ∀ segment ∈ ([⟨false, runtimeCrate⟩, ⟨false, tag.name⟩] : List Ident),
      segment.isPlain = true := by
  cases tag <;> decide

/-- An attribute with an absolute path is read from what it prints where the attribute itself is. -/
theorem Attribute.readsBack_qualified {g : Grammar} {attr : Attribute}
    (own : g.AttributeReadsBack attr) : g.AttributeReadsBack attr.qualified := by
  unfold Attribute.qualified
  split
  · exact own.rooted (List.cons_ne_nil _ _) (isPlain_of_tag _)
  · exact own

/-- **Rewriting and reading.** A declaration that is read from what it prints is so when it is
stripped, and what is read then is stripped already. -/
theorem Declaration.ReadsBack.stripped {declaration : Declaration} (back : declaration.ReadsBack) :
    ∃ again, read? Grammar.declaration declaration.stripped.print = some again ∧
      declaration.stripped.Alike again ∧ again.stripped = again := by
  obtain ⟨again, taken, read, plain, alike⟩ := back
  have stripped := alike.stripped
  refine ⟨again.stripped, ?_, stripped, again.stripped_stripped⟩
  obtain ⟨attributes, parameters⟩ := Grammar.attributesReadBack_of_declaration read plain
  have each : ∀ attr ∈ again.attrs.map Attribute.qualified,
      (Grammar.within nestingLimit).AttributeReadsBack attr := by
    intro attr inside
    obtain ⟨original, listed, rfl⟩ := List.mem_map.mp inside
    exact Attribute.readsBack_qualified (attributes original listed)
  have changed : List.Forall₂ (Grammar.within nestingLimit).Reattributed again.sig.inputs
      (again.sig.inputs.map Input.stripped) := by
    rw [List.forall₂_map_right_iff, List.forall₂_same]
    intro input inside
    unfold Input.stripped
    split
    · exact ⟨input.attrs, parameters input inside, rfl⟩
    · exact ⟨_, fun attr kept => parameters input inside attr (List.mem_filter.mp kept).1, rfl⟩
  obtain ⟨_, read⟩ := Grammar.reads_changed read plain each changed
  rw [stripped.print, read?_eq_some_iff, found_eq_some]
  exact ⟨_, read⟩

/-- The declarations of a block that was read were read, and each is read again from what it prints
when its expressions are written as they are printed. -/
theorem ImplBlock.readsBack_of_read {trees rest : List Tree} {block : ImplBlock}
    {taken : List Piece}
    (read : (Grammar.within nestingLimit).implBlock.Reads trees block taken rest)
    {item : Declaration} (inside : .declaration item ∈ block.members) :
    ∃ trees taken rest, (Grammar.within nestingLimit).declaration.Reads trees item taken rest ∧
      (SettledAll taken → item.ReadsBack) := by
  obtain ⟨_, _, _, member⟩ := Grammar.members_of_implBlock read _ inside
  obtain ⟨_, own⟩ := Grammar.declaration_of_member member
  exact ⟨_, _, _, own, Declaration.readsBack_of_settled own⟩

/-! ### Members and blocks -/

/-- The attributes of parameters of signatures that are written alike. -/
theorem Signature.Alike.parameterAttributes {one two : Signature} (alike : one.Alike two) :
    List.Forall₂ Attribute.Alike one.parameterAttributes two.parameterAttributes := by
  refine List.rel_flatMap (List.rel_filter (fun _ _ same => ?_) alike.inputs)
    fun _ _ same => same.attrs
  simp only [same.receiver]

/-- Members that are written alike: the same one, or declarations that are. -/
inductive ImplMember.Alike : ImplMember → ImplMember → Prop
  | same (member : ImplMember) : Alike member member
  | declaration {one two : Declaration} (alike : one.Alike two) :
      Alike (.declaration one) (.declaration two)

namespace ImplMember

variable {one two : ImplMember}

theorem Alike.print (alike : one.Alike two) : one.print = two.print := by
  cases alike with
  | same => rfl
  | declaration alike => exact alike.print

theorem Alike.ofImplMember? (alike : one.Alike two) :
    Member.ofImplMember? one = Member.ofImplMember? two := by
  cases alike with
  | same => rfl
  | declaration alike => exact alike.ofImplMember?

theorem Alike.parameterAttributes (alike : one.Alike two) :
    List.Forall₂ Attribute.Alike one.parameterAttributes two.parameterAttributes := by
  cases alike with
  | same => exact Attribute.Alike.of_self _
  | declaration alike => exact alike.sig.parameterAttributes

/-- The member when a declaration is written out as code and read again. Code that is no declaration
is kept as it is. -/
def reread : ImplMember → ImplMember
  | .declaration item =>
    match read? Grammar.declaration item.print with
    | some again => .declaration again
    | none => .other item.print
  | member => member

/-- A stripped member is read again as one that is written alike and is stripped already. -/
theorem reread_stripped {member : ImplMember}
    (back : ∀ item, member = .declaration item → item.ReadsBack) :
    member.stripped.Alike member.stripped.reread ∧
      member.stripped.reread.stripped = member.stripped.reread := by
  cases member with
  | function item => exact ⟨.same _, stripped_stripped (.function item)⟩
  | declaration item =>
      obtain ⟨again, read, alike, stripped⟩ := (back item rfl).stripped
      have written : (ImplMember.declaration item).stripped.reread = .declaration again := by
        change reread (.declaration item.stripped) = _
        simp only [reread, read]
      rw [written]
      exact ⟨.declaration alike, congrArg ImplMember.declaration stripped⟩
  | other code => exact ⟨.same _, rfl⟩

end ImplMember

/-- The block when its members without a body are written out as code and read again. -/
def ImplBlock.reread (block : ImplBlock) : ImplBlock :=
  { block with members := block.members.map ImplMember.reread }

/-- Blocks that differ in members that are written alike. -/
structure ImplBlock.Alike (one two : ImplBlock) : Prop where
  own : two = { one with members := two.members }
  members : List.Forall₂ ImplMember.Alike one.members two.members

namespace ImplBlock

variable {one two : ImplBlock}

theorem Alike.print (alike : one.Alike two) : one.print = two.print := by
  have members := flatMap_of_forall₂ alike.members fun _ _ same => same.print
  rw [alike.own, ImplBlock.print, ImplBlock.print, members]

theorem Alike.outline (alike : one.Alike two) : Outline.ofBlock one = Outline.ofBlock two := by
  have members : one.members.filterMap Member.ofImplMember? =
      two.members.filterMap Member.ofImplMember? :=
    filterMap_of_forall₂ alike.members fun _ _ same => same.ofImplMember?
  rw [alike.own, Outline.ofBlock, Outline.ofBlock, members]

theorem Alike.parameterProblem? (alike : one.Alike two) :
    one.parameterProblem? = two.parameterProblem? := by
  have attributes :
    List.Forall₂ Attribute.Alike (one.members.flatMap ImplMember.parameterAttributes)
      (two.members.flatMap ImplMember.parameterAttributes) :=
    List.rel_flatMap alike.members fun _ _ same => same.parameterAttributes
  rw [ImplBlock.parameterProblem?, ImplBlock.parameterProblem?, ← List.head?_filterMap,
    ← List.head?_filterMap, filterMap_of_forall₂ attributes fun _ _ same => same.problem?]

/-- A stripped block whose members without a body are read again is written alike and stripped
already. -/
theorem reread_stripped {block : ImplBlock}
    (back : ∀ item, .declaration item ∈ block.members → item.ReadsBack) :
    block.stripped.Alike block.stripped.reread ∧
      block.stripped.reread.stripped = block.stripped.reread := by
  have each : ∀ member ∈ block.members, member.stripped.Alike member.stripped.reread ∧
      member.stripped.reread.stripped = member.stripped.reread := by
    intro member inside
    refine ImplMember.reread_stripped fun item same => back item ?_
    rw [← same]
    exact inside
  constructor
  · refine ⟨rfl, ?_⟩
    simp only [ImplBlock.stripped, ImplBlock.reread, List.forall₂_map_right_iff, List.forall₂_same]
    intro member inside
    obtain ⟨original, listed, rfl⟩ := List.mem_map.mp inside
    exact (each original listed).1
  · have members : ((block.members.map ImplMember.stripped).map ImplMember.reread).map
        ImplMember.stripped = (block.members.map ImplMember.stripped).map ImplMember.reread := by
      simp only [List.map_map]
      exact List.map_congr_left fun member inside => (each member inside).2
    simp only [ImplBlock.stripped, ImplBlock.reread, members, List.filter_filter, Bool.and_self]

/-- The block rewritten: prepared, where the descriptions of parameters are checked, or stripped. -/
def rewritten (checked : Bool) (block : ImplBlock) : Except Diagnostic ImplBlock :=
  if checked then block.prepared else .ok block.stripped

theorem rewritten_eq_ok {checked : Bool} {block result : ImplBlock} :
    block.rewritten checked = .ok result ↔
      (checked = true → block.parameterProblem? = none) ∧ result = block.stripped := by
  cases checked with
  | true => simpa [rewritten] using block.prepared_eq_ok
  | false => simp [rewritten, eq_comm]

/-- **Rewriting is invisible.** A block can be stripped, and whether it is stripped or prepared, the
outline of the result is that of the block without the entry point, and rewriting the result once
more succeeds and changes nothing. Where the declarations of the block are read from what they
print, this is so as well when the members of the result without a body are read again from their
code. -/
theorem rewriting_invisible (block : ImplBlock) :
    (∃ result, block.rewritten false = .ok result) ∧
      ∀ checked result, block.rewritten checked = .ok result →
        Outline.ofBlock result = { Outline.ofBlock block with entryPoint := false } ∧
          result.rewritten checked = .ok result ∧
            ((∀ item, .declaration item ∈ block.members → item.ReadsBack) →
              Outline.ofBlock result.reread = { Outline.ofBlock block with entryPoint := false } ∧
                ∃ again, result.reread.rewritten checked = .ok again ∧
                  again.print = result.print) := by
  refine ⟨⟨_, rfl⟩, fun checked result rewritten => ?_⟩
  obtain ⟨clear, rfl⟩ := rewritten_eq_ok.mp rewritten
  have still : checked = true → block.stripped.parameterProblem? = none := fun checks =>
    parameterProblem?_stripped (clear checks)
  refine ⟨Outline.ofBlock_stripped block, rewritten_eq_ok.mpr ⟨still, block.stripped_stripped.symm⟩,
    fun back => ?_⟩
  obtain ⟨alike, stripped⟩ := reread_stripped back
  refine ⟨alike.outline.symm.trans (Outline.ofBlock_stripped block), block.stripped.reread, ?_,
    alike.print.symm⟩
  exact rewritten_eq_ok.mpr ⟨fun checks => alike.parameterProblem?.symm.trans (still checks),
    stripped.symm⟩

/-- A tool property with an attribute of another tool. -/
def markedCode : List Tree :=
  op "#" ++ [bracket [name "inline"]] ++
    op "#" ++
      [bracket [name "tool", paren ([name "description"] ++ op "=" ++ [.literal "\"s\""])]] ++
    [name "fn", name "echo", paren (op "#" ++ [bracket [name "param"]] ++ [name "text"] ++ op ":" ++
      [name "String"])] ++ op "->" ++ [name "Tool"] ++ op ";"

/-- The declaration that the code reads as. -/
def marked : Declaration where
  attrs := [⟨false, ⟨false, [⟨false, "inline"⟩]⟩, .none⟩,
    ⟨false, ⟨false, [⟨false, "tool"⟩]⟩,
      .list .paren ([name "description"] ++ op "=" ++ [.literal "\"s\""])⟩]
  sig :=
    { ident := ⟨false, "echo"⟩
      inputs := [⟨[⟨false, ⟨false, [⟨false, "param"⟩]⟩, .none⟩], false,
        [name "text"] ++ op ":" ++ [name "String"], false⟩]
      output := some [name "Tool"] }

/-- A block with the declaration that is marked as the entry point. -/
def markedKit : ImplBlock where
  attrs := [⟨false, ⟨false, [⟨false, "main"⟩]⟩, .none⟩]
  selfType := .ofTrees (.path ⟨false, "Kit"⟩ false true) [name "Kit"]
  members := [.declaration marked]

theorem readsBack_marked : marked.ReadsBack := by
  have settled : (match (Grammar.within nestingLimit).declaration markedCode with
      | .ok reading => decide (SettledAll reading.taken)
      | .error _ => false) = true := by decide +kernel
  have value : read? Grammar.declaration markedCode = some marked := by cbv
  rw [read?_eq_some_iff, found_eq_some] at value
  obtain ⟨taken, _, same⟩ := value
  rw [same] at settled
  exact Declaration.readsBack_of_settled ⟨_, same⟩ (of_decide_eq_true settled)

/-- The block is stripped and its declaration is read again. -/
theorem rewriting_invisible_of_marked :
    markedKit.rewritten false = .ok markedKit.stripped ∧
      (∀ item, .declaration item ∈ markedKit.members → item.ReadsBack) ∧
        Outline.ofBlock markedKit.stripped.reread =
          { Outline.ofBlock markedKit with entryPoint := false } := by
  have back : ∀ item, .declaration item ∈ markedKit.members → item.ReadsBack := by
    intro item inside
    obtain rfl : item = marked := by simpa [markedKit] using inside
    exact readsBack_marked
  refine ⟨rfl, back, ?_⟩
  exact (((rewriting_invisible markedKit).2 false _ rfl).2.2 back).1

end ImplBlock

end Source
end Toolsmith
