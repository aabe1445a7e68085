import Mathlib
import Toolsmith.Proofs.Source.FaithfulGrammar

/-! # How a block stands in trees

`ImplBlock.StandsIn` says which trees a block is written with, part by part: its outer attributes,
its head, and in braces its inner attributes and its members; a function in the same way, with its
parameters in parentheses. It leaves open how the trees of a single part show it. A block is printed
as trees that show every part as it is (`ImplBlock.standsIn_print`), and the trees that it was read
from show every part by the rules of reprinting (`Grammar.standsIn_of_implBlock`).
-/

namespace Toolsmith
namespace Source

open Piece Reader

/-- The parts stand in the trees one after another. -/
def InOrder {α : Type} (stands : α → List Tree → Prop) (parts : List α) (trees : List Tree) :
    Prop :=
  ∃ pieces, List.Forall₂ stands parts pieces ∧ trees = pieces.flatten

namespace InOrder

variable {α : Type} {stands : α → List Tree → Prop}

theorem nil : InOrder stands [] [] := ⟨[], .nil, rfl⟩

theorem cons {part : α} {parts : List α} {first others : List Tree} (head : stands part first)
    (rest : InOrder stands parts others) : InOrder stands (part :: parts) (first ++ others) := by
  obtain ⟨pieces, each, rfl⟩ := rest
  exact ⟨first :: pieces, .cons head each, rfl⟩

theorem append {parts others : List α} {first second : List Tree}
    (before : InOrder stands parts first) (after : InOrder stands others second) :
    InOrder stands (parts ++ others) (first ++ second) := by
  obtain ⟨one, each, rfl⟩ := before
  obtain ⟨two, all, rfl⟩ := after
  exact ⟨one ++ two, List.rel_append each all, by simp⟩

theorem map {β : Type} {part : β → α} {trees : β → List Tree} {parts : List β}
    (each : ∀ own ∈ parts, stands (part own) (trees own)) :
    InOrder stands (parts.map part) (parts.flatMap trees) := by
  induction parts with
  | nil => exact nil
  | cons own rest ih =>
      obtain ⟨head, others⟩ := List.forall_mem_cons.mp each
      exact cons head (ih others)

theorem flatMap {print : α → List Tree} (each : ∀ part, stands part (print part))
    (parts : List α) : InOrder stands parts (parts.flatMap print) := by
  rw [← List.map_id parts, List.flatMap_map]
  exact map fun part _ => each part

end InOrder

section StandsIn

/-- What stands in front of the parameters of a signature. -/
def Signature.front (sig : Signature) : List Tree :=
  qualifier sig.isConst "const" ++ qualifier sig.isAsync "async" ++
    qualifier sig.isUnsafe "unsafe" ++ sig.abi ++ [name "fn", .ident sig.ident] ++
    sig.generics.print

/-- What stands behind the parameters of a signature. -/
def Signature.back (sig : Signature) : List Tree :=
  (match sig.output with
    | some type => op "->" ++ type
    | none => []) ++ sig.generics.clause

/-- What stands between the outer attributes of a block and its braces. -/
def ImplBlock.front (block : ImplBlock) : List Tree :=
  qualifier block.isDefault "default" ++ qualifier block.isUnsafe "unsafe" ++ [name "impl"] ++
    block.generics.print ++
    (match block.trait with
      | some path => path ++ [name "for"]
      | none => []) ++
    block.selfType.print ++ block.generics.clause

variable (shown : List Tree → List Tree → Prop)

/-- The trees on the left show the attribute. -/
def Attribute.StandsIn (attr : Attribute) (trees : List Tree) : Prop := shown trees attr.print

/-- A parameter is its attributes and its code. -/
inductive Input.StandsIn : Input → List Tree → Prop
  | parts {input : Input} {attrs code : List Tree}
      (outer : InOrder (Attribute.StandsIn shown) (input.attrs.filter (!·.inner)) attrs)
      (own : shown code (input.code ++ if input.comma then op "," else [])) :
      StandsIn input (attrs ++ code)

/-- A signature has its parameters in parentheses. -/
inductive Signature.StandsIn : Signature → List Tree → Prop
  | parts {sig : Signature} {front inputs variadic back : List Tree}
      (begins : shown front sig.front)
      (parameters : InOrder (Input.StandsIn shown) sig.inputs inputs)
      (dots : shown variadic sig.variadic) (ends : shown back sig.back) :
      StandsIn sig (front ++ [paren (inputs ++ variadic)] ++ back)

/-- A function has its inner attributes and its statements in braces. -/
inductive Function.StandsIn : Function → List Tree → Prop
  | parts {function : Function} {attrs front sig inside body : List Tree}
      (outer : InOrder (Attribute.StandsIn shown) (function.attrs.filter (!·.inner)) attrs)
      (begins : shown front (function.vis ++ qualifier function.isDefault "default"))
      (signed : function.sig.StandsIn shown sig)
      (inner : InOrder (Attribute.StandsIn shown) (function.attrs.filter (·.inner)) inside)
      (statements : shown body function.body) :
      StandsIn function (attrs ++ front ++ sig ++ [brace (inside ++ body)])

/-- A declaration ends with a semicolon. -/
inductive Declaration.StandsIn : Declaration → List Tree → Prop
  | parts {declaration : Declaration} {attrs vis sig semicolon : List Tree}
      (outer : InOrder (Attribute.StandsIn shown) declaration.attrs attrs)
      (visible : shown vis declaration.vis) (signed : declaration.sig.StandsIn shown sig)
      (ends : shown semicolon (op ";")) :
      StandsIn declaration (attrs ++ vis ++ sig ++ semicolon)

inductive ImplMember.StandsIn : ImplMember → List Tree → Prop
  | function {item : Function} {trees : List Tree} (own : item.StandsIn shown trees) :
      StandsIn (.function item) trees
  | declaration {item : Declaration} {trees : List Tree} (own : item.StandsIn shown trees) :
      StandsIn (.declaration item) trees
  | other {code trees : List Tree} (own : shown trees code) : StandsIn (.other code) trees

/-- A block has its inner attributes and its members in braces. -/
inductive ImplBlock.StandsIn : ImplBlock → List Tree → Prop
  | parts {block : ImplBlock} {attrs front inside members : List Tree}
      (outer : InOrder (Attribute.StandsIn shown) (block.attrs.filter (!·.inner)) attrs)
      (begins : shown front block.front)
      (inner : InOrder (Attribute.StandsIn shown) (block.attrs.filter (·.inner)) inside)
      (content : InOrder (ImplMember.StandsIn shown) block.members members) :
      StandsIn block (attrs ++ front ++ [brace (inside ++ members)])

end StandsIn

/-! ### Printing -/

section Print

variable {shown : List Tree → List Tree → Prop} (refl : ∀ trees, shown trees trees)

include refl

theorem Attribute.inOrder_print (attrs : List Attribute) :
    InOrder (Attribute.StandsIn shown) attrs (attrs.flatMap Attribute.print) := by
  refine InOrder.flatMap (fun attr => ?_) attrs
  exact refl attr.print

theorem Input.standsIn_print (input : Input) : input.StandsIn shown input.print := by
  rw [Input.print, List.append_assoc]
  exact .parts (Attribute.inOrder_print refl _) (refl _)

theorem Signature.standsIn_print (sig : Signature) : sig.StandsIn shown sig.print := by
  have inputs := InOrder.flatMap (fun input => Input.standsIn_print refl input) sig.inputs
  have parts := Signature.StandsIn.parts (refl sig.front) inputs (refl _) (refl sig.back)
  cases output : sig.output <;>
    simpa [Signature.front, Signature.back, Signature.print, output] using parts

theorem Function.standsIn_print (function : Function) :
    function.StandsIn shown function.print := by
  have parts := Function.StandsIn.parts (Attribute.inOrder_print refl _) (refl _)
    (function.sig.standsIn_print refl) (Attribute.inOrder_print refl _) (refl function.body)
  simpa only [Function.print, printOuter, printInner, List.append_assoc] using parts

theorem Declaration.standsIn_print (declaration : Declaration) :
    declaration.StandsIn shown declaration.print :=
  .parts (Attribute.inOrder_print refl _) (refl _) (declaration.sig.standsIn_print refl) (refl _)

theorem ImplMember.standsIn_print (member : ImplMember) : member.StandsIn shown member.print := by
  cases member with
  | function item => exact .function (item.standsIn_print refl)
  | declaration item => exact .declaration (item.standsIn_print refl)
  | other code => exact .other (refl code)

/-- A block is printed as trees that show its parts as they are. -/
theorem ImplBlock.standsIn_print (block : ImplBlock) : block.StandsIn shown block.print := by
  have members := InOrder.flatMap (fun member => ImplMember.standsIn_print refl member)
    block.members
  have parts := ImplBlock.StandsIn.parts (Attribute.inOrder_print refl _) (refl block.front)
    (Attribute.inOrder_print refl _) members
  cases trait : block.trait <;>
    simpa [ImplBlock.front, ImplBlock.print, printOuter, printInner, trait] using parts

end Print

/-! ### Reading -/

namespace Grammar

variable {g : Grammar} [g.IsFaithful]

theorem filter_outer {attrs : List Attribute} (outer : ∀ attr ∈ attrs, attr.inner = false) :
    attrs.filter (!·.inner) = attrs :=
  List.filter_eq_self.mpr fun attr member => by rw [outer attr member]; rfl

omit [g.IsFaithful] in
/-- What was read again and again stands so in the trees it was read from. -/
theorem inOrder_of_many {α : Type} {stands : α → List Tree → Prop} {more : List Tree → Bool}
    {reader : Reader α}
    (each : ∀ {trees rest value taken}, reader.Reads trees value taken rest →
      stands value (sourceAll taken))
    {trees rest : List Tree} {values : List α} {taken : List Piece}
    (read : (many more reader).Reads trees values taken rest) :
    InOrder stands values (sourceAll taken) := by
  obtain ⟨_, parts, rfl, rfl, single⟩ := parts_of_many read
  rw [sourceAll_flatMap]
  refine InOrder.map fun part member => ?_
  obtain ⟨_, _, own⟩ := single part member
  exact each own

theorem inOrder_of_outerAttributes {trees rest : List Tree} {attrs : List Attribute}
    {taken : List Piece} (read : g.outerAttributes.Reads trees attrs taken rest) :
    InOrder (Attribute.StandsIn Reprints) attrs (sourceAll taken) := by
  refine inOrder_of_many (fun single => ?_) read
  rw [Attribute.StandsIn, ← print_of_outerAttribute single]
  exact Faithful.reprints single

theorem inOrder_of_innerAttributes {trees rest : List Tree} {attrs : List Attribute}
    {taken : List Piece} (read : g.innerAttributes.Reads trees attrs taken rest) :
    InOrder (Attribute.StandsIn Reprints) attrs (sourceAll taken) := by
  refine inOrder_of_many (fun single => ?_) read
  rw [Attribute.StandsIn, ← print_of_innerAttribute single]
  exact Faithful.reprints single

omit [g.IsFaithful] in
theorem inner_of_innerAttributes {trees rest : List Tree} {attrs : List Attribute}
    {taken : List Piece} (read : g.innerAttributes.Reads trees attrs taken rest) :
    ∀ attr ∈ attrs, attr.inner = true := by
  obtain ⟨_, parts, rfl, rfl, each⟩ := parts_of_many read
  intro attr member
  obtain ⟨part, inside, rfl⟩ := List.mem_map.mp member
  obtain ⟨_, _, single⟩ := each part inside
  obtain ⟨_, _, _, _, _, content⟩ := of_innerAttribute single
  obtain ⟨_, _, _, _, _, inner, _⟩ := reads_attributeContent.mp content
  exact inner

/-! ### Signatures -/

instance faithful_parameterBody : Faithful g.parameterBody := by
  unfold parameterBody
  infer_instance

instance faithful_finalComma : Faithful finalComma := by
  unfold finalComma
  infer_instance

/-- A round of a parameter list that reads a parameter. -/
theorem standsIn_of_parameter {trees middle rest : List Tree} {attrs : List Attribute}
    {body : Phrase (Bool × Bool)} {one two : List Piece} (comma : Bool) {behind : List Tree}
    (attributes : g.outerAttributes.Reads trees attrs one middle)
    (read : (phrase g.parameterBody).Reads middle body two rest)
    (ends : Reprints behind (if comma then op "," else [])) :
    Input.StandsIn Reprints ⟨attrs, body.kind.1, body.print, comma⟩
      (sourceAll one ++ (sourceAll two ++ behind)) := by
  have outer := inOrder_of_outerAttributes attributes
  rw [← filter_outer (outer_of_outerAttributes attributes)] at outer
  refine .parts outer (.append ?_ ends)
  rw [← print_of_phrase read]
  exact Faithful.reprints read

/-- The parameters that were read, and the final `...`. -/
theorem inOrder_of_inputs {trees rest : List Tree} {value : Inputs} {taken : List Piece}
    (read : g.inputs.Reads trees value taken rest) :
    ∃ inputs variadic, sourceAll taken = inputs ++ variadic ∧
      InOrder (Input.StandsIn Reprints) value.inputs inputs ∧
        Reprints variadic value.variadic := by
  rw [inputs_eq] at read
  have run := Reads.loop_induction
    (motive := fun found _ value taken _ => found.variadic = [] →
      ∃ inputs variadic others, sourceAll taken = inputs ++ variadic ∧
        value.inputs = found.inputs ++ others ∧
        InOrder (Input.StandsIn Reprints) others inputs ∧ Reprints variadic value.variadic)
    ?_ ?_ read rfl
  · obtain ⟨inputs, variadic, others, whole, same, stands, dots⟩ := run
    rw [List.nil_append] at same
    exact ⟨inputs, variadic, whole, same ▸ stands, dots⟩
  · intro found trees value taken rest round none
    cases reads_inputsStep.mp round with
    | done => exact ⟨[], [], [], rfl, (List.append_nil _).symm, .nil, none ▸ .nil⟩
    | variadic some attributes parameter dots ends =>
        refine ⟨[], _, [], (List.nil_append _).symm, (List.append_nil _).symm, .nil, ?_⟩
        have outer := reprints_outerAttributes attributes
        have body : Reprints _ _ := Faithful.reprints parameter
        have comma : Reprints _ _ := Faithful.reprints ends
        rw [print_of_phrase parameter] at body
        rw [print_of_phrase ends] at comma
        simpa using outer.append (body.append comma)
    | last some attributes parameter plain first =>
        have single := standsIn_of_parameter false attributes parameter .nil
        exact ⟨_, [], [_], by simp, rfl, .cons single .nil, none ▸ .nil⟩
  · intro found next trees between rest value one two round later none
    cases reads_inputsStep.mp round with
    | more some attributes parameter plain first =>
        rename_i joint _ _
        obtain ⟨inputs, variadic, others, whole, same, stands, dots⟩ := later none
        have single := standsIn_of_parameter true attributes parameter (.mark ',' joint false)
        refine ⟨_ ++ inputs, variadic, _ :: others, ?_, ?_, .cons single stands, dots⟩
        · simp [whole, Piece.source]
        · simp [same]

instance faithful_signatureFront : Faithful g.signatureFront := by
  unfold signatureFront
  infer_instance

instance faithful_signatureBack : Faithful g.signatureBack := by
  unfold signatureBack
  infer_instance

/-- A signature that was read stands in the trees it was read from. -/
theorem standsIn_of_signature {trees rest : List Tree} {sig : Signature} {taken : List Piece}
    (read : g.signature.Reads trees sig taken rest) :
    sig.StandsIn Reprints (sourceAll taken) := by
  obtain ⟨front, inputs, back, content, middle, one, pieces, two, begins, inside, ends, rfl, rfl⟩ :=
    reads_signature.mp read
  obtain ⟨listed, variadic, whole, parameters, dots⟩ := inOrder_of_inputs inside
  have before : Reprints _ _ := Faithful.reprints begins
  have behind : Reprints _ _ := Faithful.reprints ends
  rw [print_of_signatureFront begins] at before
  rw [print_of_signatureBack ends] at behind
  have result : Reprints (sourceAll two) (front.signature inputs back).back := by
    cases output : back.1 <;>
      simpa [SignatureFront.signature, Signature.back, output] using behind
  have parts : (front.signature inputs back).StandsIn Reprints _ :=
    .parts before parameters dots result
  simpa [Piece.source, whole, paren] using parts

/-! ### Members -/

/-- What stands between the braces of a function. -/
theorem of_functionBody {trees rest : List Tree} {value : List Attribute × List Tree}
    {taken : List Piece} (read : g.functionBody.Reads trees value taken rest) :
    ∃ inside body, sourceAll taken = [brace (inside ++ body)] ∧
      InOrder (Attribute.StandsIn Reprints) value.1 inside ∧
        (∀ attr ∈ value.1, attr.inner = true) ∧ Reprints body value.2 := by
  obtain ⟨content, pieces, _, rfl, inside⟩ := reads_group.mp read
  obtain ⟨attrs, one, two, _, attributes, last, rfl⟩ := reads_bind.mp inside
  obtain ⟨statements, written, rfl⟩ := reads_bind_pure.mp last
  refine ⟨sourceAll one, sourceAll two,
    by simp [Piece.source, brace], inOrder_of_innerAttributes attributes,
    inner_of_innerAttributes attributes, ?_⟩
  rw [← print_of_phrase written]
  exact Faithful.reprints written

omit [g.IsFaithful] in
/-- What is kept as written when the value asks for it is read like the rest. -/
theorem of_asWrittenIf {α : Type} {raw : α → Bool} {reader : Reader α} {trees rest : List Tree}
    {value : α} {taken : List Piece}
    (read : (asWrittenIf raw reader).Reads trees value taken rest) :
    ∃ pieces, reader.Reads trees value pieces rest ∧ sourceAll taken = sourceAll pieces := by
  obtain ⟨conserved, read⟩ := read
  unfold asWrittenIf at read
  split at read
  · rename_i reading found
    split at read
    · unfold asWritten at read
      rw [found] at read
      cases read
      exact ⟨reading.taken, ⟨reading.conserved, found⟩, sourceAll_ofTrees _⟩
    · cases read
      exact ⟨taken, ⟨conserved, found⟩, rfl⟩
  · cases read

/-- Attributes that stand before a block and inside it are told apart. -/
theorem filter_attributes {before inside : List Attribute}
    (outer : ∀ attr ∈ before, attr.inner = false) (inner : ∀ attr ∈ inside, attr.inner = true) :
    (before ++ inside).filter (!·.inner) = before ∧
      (before ++ inside).filter (·.inner) = inside := by
  rw [List.filter_append, List.filter_append]
  constructor
  · rw [filter_outer outer, List.filter_eq_nil_iff.mpr, List.append_nil]
    intro attr member
    simp [inner attr member]
  · rw [List.filter_eq_nil_iff.mpr, List.nil_append, List.filter_eq_self.mpr inner]
    intro attr member
    simp [outer attr member]

omit [g.IsFaithful] in
/-- A keyword that is read where a condition holds, and what is read behind it. -/
theorem of_sometimes {β : Type} {c : Bool} {text : String} {next : Unit → Reader β}
    {trees rest : List Tree} {result : β} {taken : List Piece}
    (read : (if c = true then keyword text >>= next else next ()).Reads trees result taken rest) :
    ∃ one two between, sourceAll one = qualifier c text ∧ (c = false → one = [] ∧ between = trees) ∧
      (next ()).Reads between result two rest ∧ taken = one ++ two := by
  cases c with
  | true =>
      obtain ⟨_, one, two, between, word, behind, rfl⟩ := reads_bind.mp read
      exact ⟨one, two, between, (reads_keyword.mp word).2 ▸ rfl, nofun, behind, rfl⟩
  | false => exact ⟨[], taken, trees, rfl, fun _ => ⟨rfl, rfl⟩, read, rfl⟩

omit [g.IsFaithful] in
theorem untaken_of_operator? {text : String} {trees rest : List Tree} {value : Bool}
    {taken : List Piece} (read : (operator? text).Reads trees value taken rest)
    (not : ¬ value = true) : taken = [] := by
  rcases reads_operator?.mp read with ⟨found, _⟩ | ⟨_, _, _, none⟩
  · exact absurd found not
  · exact none

/-- What a member was read as stands in the trees. -/
def standsAs (trees : List Tree) : MemberForm → Prop
  | .function item => item.StandsIn Reprints trees
  | .declaration item => item.StandsIn Reprints trees
  | .printed | .raw => True

/-- A member that was read as a function or a declaration. -/
theorem standsAs_of_memberForm {trees rest : List Tree} {form : MemberForm} {taken : List Piece}
    (read : g.memberForm.Reads trees form taken rest) : standsAs (sourceAll taken) form := by
  obtain ⟨pieces, written, same⟩ := of_asWrittenIf read
  rw [same]
  obtain ⟨attrs, _, _, _, attributes, read₂, rfl⟩ := reads_bind.mp written
  obtain ⟨vis, _, _, _, visible, read₃, rfl⟩ := reads_bind.mp read₂
  have read₃ := reads_ahead_bind.mp read₃
  extract_lets isDefault at read₃
  clear_value isDefault
  obtain ⟨one, two, between, default, _, read₄, rfl⟩ := of_sometimes read₃
  have read₄ := reads_ahead_bind.mp read₄
  have outer := inOrder_of_outerAttributes attributes
  have vision : Reprints _ _ := Faithful.reprints visible
  rw [print_of_phrase visible] at vision
  split at read₄
  · obtain ⟨sig, _, _, _, signed, read₅, rfl⟩ := reads_bind.mp read₄
    obtain ⟨semicolon, _, _, _, mark, read₆, rfl⟩ := reads_bind.mp read₅
    have signature := standsIn_of_signature signed
    split at read₆
    · rename_i ended
      obtain ⟨rfl, rfl, _⟩ := reads_pure.mp read₆
      split
      · trivial
      · rename_i plain
        have ends : Reprints _ _ := Faithful.reprints mark
        rw [print_of_operator? mark, if_pos ended] at ends
        have none : sourceAll one = [] := by rw [default, Bool.eq_false_iff.mpr plain]; rfl
        have parts : Declaration.StandsIn Reprints ⟨attrs, vis.print, sig⟩ _ :=
          .parts outer vision signature ends
        simpa [standsAs, none] using parts
    · rename_i continues
      obtain ⟨⟨inner, body⟩, own, rfl⟩ := reads_bind_pure.mp read₆
      obtain ⟨inside, statements, braces, innermost, each, reprinted⟩ := of_functionBody own
      have unmarked : sourceAll _ = [] := congrArg sourceAll (untaken_of_operator? mark continues)
      obtain ⟨before, behind⟩ := filter_attributes (outer_of_outerAttributes attributes) each
      rw [← before] at outer
      rw [← behind] at innermost
      have front := vision.append (Reprints.refl (sourceAll one))
      rw [default] at front
      have parts : Function.StandsIn Reprints ⟨attrs ++ inner, vis.print, _, sig, body⟩ _ :=
        .parts outer front signature innermost reprinted
      simpa [standsAs, unmarked, braces, default] using parts
  split at read₄
  · obtain ⟨value, _, rfl⟩ := reads_bind_pure.mp read₄
    cases value <;> trivial
  split at read₄
  · obtain ⟨value, _, rfl⟩ := reads_bind_pure.mp read₄
    cases value <;> trivial
  split at read₄
  · obtain ⟨_, _, _, _, _, read₅, rfl⟩ := reads_bind.mp read₄
    obtain ⟨_, _, _, _, _, read₆, rfl⟩ := reads_bind.mp read₅
    obtain ⟨_, _, _, _, _, read₇, rfl⟩ := reads_bind.mp read₆
    dsimp only at read₇
    split at read₇
    · obtain ⟨_, _, rfl⟩ := reads_bind_pure.mp read₇
      trivial
    · obtain ⟨rfl, _⟩ := reads_pure.mp read₇
      trivial
  · cases read₄.2

/-- A member that was read stands in the trees it was read from. -/
theorem standsIn_of_member {trees rest : List Tree} {member : ImplMember} {taken : List Piece}
    (read : g.member.Reads trees member taken rest) :
    member.StandsIn Reprints (sourceAll taken) := by
  obtain ⟨found, written, rfl⟩ := reads_bind_pure.mp read
  have stands := standsAs_of_memberForm (reads_phrase.mp written).2
  have whole : Reprints (sourceAll taken) found.print := by
    rw [← print_of_phrase written]
    exact Faithful.reprints written
  cases form : found.kind with
  | function item =>
      rw [form] at stands
      exact .function stands
  | declaration item =>
      rw [form] at stands
      exact .declaration stands
  | printed => exact .other whole
  | raw => exact .other whole

omit [g.IsFaithful] in
/-- A member without a body was read as a declaration. -/
theorem declaration_of_member {trees rest : List Tree} {item : Declaration} {taken : List Piece}
    (read : g.member.Reads trees (.declaration item) taken rest) :
    ∃ pieces, g.declaration.Reads trees item pieces rest := by
  obtain ⟨found, written, same⟩ := reads_bind_pure.mp read
  obtain ⟨pieces, inner, _⟩ := of_asWrittenIf (reads_phrase.mp written).2
  have kind : found.kind = .declaration item := by
    cases form : found.kind with
    | declaration own =>
        rw [form] at same
        cases same
        rfl
    | _ =>
        rw [form] at same
        cases same
  rw [kind] at inner
  obtain ⟨attrs, one, _, _, attributes, read₂, rfl⟩ := reads_bind.mp inner
  obtain ⟨vis, two, _, _, visible, read₃, rfl⟩ := reads_bind.mp read₂
  have read₃ := reads_ahead_bind.mp read₃
  extract_lets isDefault at read₃
  clear_value isDefault
  obtain ⟨_, _, _, _, nothing, read₄, rfl⟩ := of_sometimes read₃
  have read₄ := reads_ahead_bind.mp read₄
  split at read₄
  · obtain ⟨sig, three, _, _, signed, read₅, rfl⟩ := reads_bind.mp read₄
    obtain ⟨semicolon, four, _, _, mark, read₆, rfl⟩ := reads_bind.mp read₅
    split at read₆
    · rename_i ended
      obtain ⟨made, rfl, rfl⟩ := reads_pure.mp read₆
      split at made
      · cases made
      · rename_i plain
        cases made
        obtain ⟨rfl, rfl⟩ := nothing (Bool.eq_false_iff.mpr plain)
        rcases reads_operator?.mp mark with ⟨_, _, mark⟩ | ⟨unmarked, _⟩
        · exact ⟨_, reads_bind.mpr ⟨attrs, one, _, _, attributes, reads_bind.mpr ⟨vis, two, _, _,
            visible, reads_bind.mpr ⟨sig, three, _, _, signed,
              reads_bind_pure.mpr ⟨(), mark, rfl⟩, rfl⟩, rfl⟩, rfl⟩⟩
        · rw [unmarked] at ended
          cases ended
    · obtain ⟨_, _, made⟩ := reads_bind_pure.mp read₆
      cases made
  split at read₄
  · obtain ⟨value, _, made⟩ := reads_bind_pure.mp read₄
    cases value <;> cases made
  split at read₄
  · obtain ⟨value, _, made⟩ := reads_bind_pure.mp read₄
    cases value <;> cases made
  split at read₄
  · obtain ⟨_, _, _, _, _, read₅, _⟩ := reads_bind.mp read₄
    obtain ⟨_, _, _, _, _, read₆, _⟩ := reads_bind.mp read₅
    obtain ⟨_, _, _, _, _, read₇, _⟩ := reads_bind.mp read₆
    dsimp only at read₇
    split at read₇
    · obtain ⟨_, _, made⟩ := reads_bind_pure.mp read₇
      cases made
    · cases (reads_pure.mp read₇).1
  · cases read₄.2

/-! ### Blocks -/

omit [g.IsFaithful] in
/-- Nothing is read by a reader that refuses everything. -/
theorem not_reads_error {mismatch : List Tree → Mismatch} {trees rest : List Tree} {value : Unit}
    {taken : List Piece} :
    ¬ Reader.Reads (fun trees => .error (mismatch trees)) trees value taken rest := by
  rintro ⟨_, refused⟩
  cases refused

omit [g.IsFaithful] in
/-- What is read behind a refusal that did not happen. -/
theorem reads_unless {β : Type} {c : Prop} [Decidable c] {refusal : Reader Unit}
    {next : Unit → Reader β} {trees rest : List Tree} {result : β} {taken : List Piece}
    (refuses : ∀ {trees value taken rest}, ¬ refusal.Reads trees value taken rest)
    (read : (if c then refusal >>= next else next ()).Reads trees result taken rest) :
    ¬ c ∧ (next ()).Reads trees result taken rest := by
  split at read
  · obtain ⟨_, _, _, _, refused, _⟩ := reads_bind.mp read
    exact absurd refused refuses
  · rename_i not
    exact ⟨not, read⟩

/-- **Reading a block.** The trees that a block was read from show its parts by the rules of
reprinting. -/
theorem standsIn_of_implBlock {trees rest : List Tree} {block : ImplBlock} {taken : List Piece}
    (read : g.implBlock.Reads trees block taken rest) :
    block.StandsIn Reprints (sourceAll taken) := by
  obtain ⟨attrs, p₁, _, _, attributes, read₂, rfl⟩ := reads_bind.mp read
  obtain ⟨isDefault, p₂, _, _, default, read₃, rfl⟩ := reads_bind.mp read₂
  obtain ⟨isUnsafe, p₃, _, _, unsafety, read₄, rfl⟩ := reads_bind.mp read₃
  obtain ⟨_, p₄, _, _, word, read₅, rfl⟩ := reads_bind.mp read₄
  obtain ⟨params, p₅, _, _, generic, read₆, rfl⟩ := reads_ite_bind.mp (reads_ahead_bind.mp read₅)
  obtain ⟨mark, p₆, _, _, negation, read₇, rfl⟩ := reads_bind.mp (reads_ahead_bind.mp read₆)
  obtain ⟨first, p₇, _, _, type, read₈, rfl⟩ := reads_bind.mp read₇
  obtain ⟨forTrait, p₈, _, _, follows, read₉, rfl⟩ := reads_bind.mp read₈
  obtain ⟨positive, read₉⟩ := reads_unless not_reads_error read₉
  obtain ⟨_, read₉⟩ := reads_unless not_reads_error read₉
  obtain ⟨selfType, p₉, _, _, own, read₁₀, rfl⟩ := reads_ite_bind.mp read₉
  obtain ⟨clause, p₁₀, _, _, conditions, read₁₁, rfl⟩ := reads_bind.mp read₁₀
  obtain ⟨⟨inner, members⟩, grouped, rfl⟩ := reads_bind_pure.mp read₁₁
  obtain ⟨content, pieces, _, rfl, inside⟩ := reads_group.mp grouped
  obtain ⟨inner, q₁, q₂, _, innermost, last, rfl⟩ := reads_bind.mp inside
  obtain ⟨members, listed, same⟩ := reads_bind_pure.mp last
  cases same
  have parameters : printAll p₅ = Generics.print ⟨params, []⟩ := by
    split at generic
    · exact print_of_genericParams generic
    · obtain ⟨rfl, rfl, _⟩ := reads_pure.mp generic
      rfl
  have subject : printAll (p₆ ++ (p₇ ++ (p₈ ++ p₉))) =
      (if forTrait = true then mark.print ++ first.print ++ [name "for"] else []) ++
        selfType.print := by
    simp only [printAll_append, print_of_phrase negation, print_of_phrase type,
      print_of_keyword? follows]
    cases forTrait with
    | true =>
        rw [print_of_phrase own]
        simp [qualifier]
    | false =>
        obtain ⟨rfl, rfl, _⟩ := reads_pure.mp own
        have plain : mark.print = [] := by
          rw [Bool.not_false, Bool.and_true, Bool.not_eq_true] at positive
          rw [positive, if_neg Bool.false_ne_true] at negation
          obtain ⟨_, rfl, _⟩ := reads_pure.mp (reads_phrase.mp negation).2
          rw [← print_of_phrase negation]
          rfl
        simp [qualifier, plain]
  have front :
    Reprints (sourceAll (p₂ ++ (p₃ ++ (p₄ ++ (p₅ ++ ((p₆ ++ (p₇ ++ (p₈ ++ p₉))) ++ p₁₀))))))
      (printAll (p₂ ++ (p₃ ++ (p₄ ++ (p₅ ++ ((p₆ ++ (p₇ ++ (p₈ ++ p₉))) ++ p₁₀)))))) := by
    simp only [sourceAll_append, printAll_append]
    refine .append (Faithful.reprints default) (.append (Faithful.reprints unsafety) ?_)
    refine .append (Faithful.reprints word) (.append (Faithful.reprints generic) (.append ?_ ?_))
    · refine .append (Faithful.reprints negation) (.append (Faithful.reprints type) ?_)
      exact .append (Faithful.reprints follows) (Faithful.reprints own)
    · exact Faithful.reprints conditions
  obtain ⟨outer, others⟩ := filter_attributes (outer_of_outerAttributes attributes)
    (inner_of_innerAttributes innermost)
  have before := inOrder_of_outerAttributes attributes
  have between := inOrder_of_innerAttributes innermost
  have content := inOrder_of_many standsIn_of_member listed
  rw [← outer] at before
  rw [← others] at between
  rw [printAll_append, printAll_append, printAll_append, printAll_append, printAll_append, subject,
    print_of_keyword? default, print_of_keyword? unsafety, print_of_keyword word, parameters,
    print_of_whereClause conditions] at front
  have whole : sourceAll (p₁ ++ (p₂ ++ (p₃ ++ (p₄ ++ (p₅ ++ (p₆ ++ (p₇ ++ (p₈ ++ (p₉ ++ (p₁₀ ++
      [.group .brace (q₁ ++ q₂)])))))))))) =
      sourceAll p₁ ++
        sourceAll (p₂ ++ (p₃ ++ (p₄ ++ (p₅ ++ ((p₆ ++ (p₇ ++ (p₈ ++ p₉))) ++ p₁₀))))) ++
        [brace (sourceAll q₁ ++ sourceAll q₂)] := by
    simp [Piece.source, brace]
  rw [whole]
  refine .parts before ?_ between content
  cases forTrait <;> simpa [ImplBlock.front, Generics.print] using front

omit [g.IsFaithful] in
/-- A block reads its members one by one. -/
theorem members_of_implBlock {trees rest : List Tree} {block : ImplBlock} {taken : List Piece}
    (read : g.implBlock.Reads trees block taken rest) :
    ∀ member ∈ block.members, ∃ trees taken rest, g.member.Reads trees member taken rest := by
  obtain ⟨_, _, _, _, _, read₂, _⟩ := reads_bind.mp read
  obtain ⟨_, _, _, _, _, read₃, _⟩ := reads_bind.mp read₂
  obtain ⟨_, _, _, _, _, read₄, _⟩ := reads_bind.mp read₃
  obtain ⟨_, _, _, _, _, read₅, _⟩ := reads_bind.mp read₄
  obtain ⟨_, _, _, _, _, read₆, _⟩ := reads_ite_bind.mp (reads_ahead_bind.mp read₅)
  obtain ⟨_, _, _, _, _, read₇, _⟩ := reads_bind.mp (reads_ahead_bind.mp read₆)
  obtain ⟨_, _, _, _, _, read₈, _⟩ := reads_bind.mp read₇
  obtain ⟨_, _, _, _, _, read₉, _⟩ := reads_bind.mp read₈
  obtain ⟨_, read₉⟩ := reads_unless not_reads_error read₉
  obtain ⟨_, read₉⟩ := reads_unless not_reads_error read₉
  obtain ⟨_, _, _, _, _, read₁₀, _⟩ := reads_ite_bind.mp read₉
  obtain ⟨_, _, _, _, _, read₁₁, _⟩ := reads_bind.mp read₁₀
  obtain ⟨⟨_, members⟩, grouped, rfl⟩ := reads_bind_pure.mp read₁₁
  obtain ⟨_, _, _, _, inside⟩ := reads_group.mp grouped
  obtain ⟨_, _, _, _, _, last, _⟩ := reads_bind.mp inside
  obtain ⟨_, listed, same⟩ := reads_bind_pure.mp last
  cases same
  obtain ⟨_, parts, rfl, _, each⟩ := parts_of_many listed
  intro member inside
  obtain ⟨part, among, rfl⟩ := List.mem_map.mp inside
  obtain ⟨_, _, single⟩ := each part among
  exact ⟨_, _, _, single⟩

end Grammar

end Source
end Toolsmith
