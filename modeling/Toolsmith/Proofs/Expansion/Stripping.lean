import Mathlib
import Toolsmith.Expansion.Basic
import Toolsmith.Proofs.Marking.Resolution

/-! # What stripping keeps

Stripping a block removes the entry point mark and the descriptions of parameters, and makes the
paths of markings absolute. The outline of the block loses its entry point and nothing else
(`Outline.ofBlock_stripped`), a second stripping changes nothing
(`Source.ImplBlock.stripped_stripped`), and the parameters that are left have no problem that the
block did not have (`Source.ImplBlock.parameterProblem?_stripped`). Preparing a block, which checks
and drops in one pass, is stripping it, barring the first problem with a parameter
(`Source.ImplBlock.prepared_eq`). Generated functions carry none of these marks, so that they are
stripped already (`Generated.stripped_function`).
-/

namespace Toolsmith
namespace Source

/-- Making a path absolute keeps the tag it names. -/
theorem Attribute.ofPath?_qualified (attr : Attribute) :
    Tag.ofPath? attr.qualified.path = Tag.ofPath? attr.path := by
  unfold Attribute.qualified
  cases tagged : Tag.ofPath? attr.path with
  | none => exact tagged
  | some tag => exact Tag.ofName?_name tag

@[simp] theorem Attribute.qualified_arguments (attr : Attribute) :
    attr.qualified.arguments = attr.arguments := by
  unfold Attribute.qualified
  split <;> rfl

theorem Attribute.qualified_of_tag {attr : Attribute} {tag : Tag}
    (tagged : Tag.ofPath? attr.path = some tag) :
    attr.qualified =
      { attr with path := ⟨true, [⟨false, runtimeCrate⟩, ⟨false, tag.name⟩]⟩ } := by
  simp only [Attribute.qualified, tagged]

/-- An absolute path stays as it is. -/
theorem Attribute.qualified_qualified (attr : Attribute) :
    attr.qualified.qualified = attr.qualified := by
  cases tagged : Tag.ofPath? attr.path with
  | none =>
      have plain : attr.qualified = attr := by simp only [Attribute.qualified, tagged]
      rw [plain, plain]
  | some tag =>
      have absolute := attr.ofPath?_qualified.trans tagged
      rw [Attribute.qualified_of_tag absolute, Attribute.qualified_of_tag tagged]

/-- A marking is read alike from the attribute with an absolute path. -/
theorem Attribute.ofAttribute?_qualified (attr : Attribute) :
    Marking.ofAttribute? attr.qualified = Marking.ofAttribute? attr := by
  unfold Marking.ofAttribute?
  rw [attr.ofPath?_qualified, attr.qualified_arguments]

theorem markingsOf_qualified (attrs : List Attribute) :
    markingsOf (attrs.map Attribute.qualified) = markingsOf attrs := by
  unfold markingsOf
  rw [List.filterMap_map]
  congr 1
  funext attr
  simp only [Function.comp_apply, attr.ofAttribute?_qualified, attr.ofPath?_qualified]

@[simp] theorem Input.stripped_receiver (input : Input) :
    input.stripped.receiver = input.receiver := by
  unfold Input.stripped
  split <;> rfl

theorem Input.stripped_stripped (input : Input) : input.stripped.stripped = input.stripped := by
  by_cases receives : input.receiver
  · simp only [Input.stripped, receives, ↓reduceIte]
  · simp only [Input.stripped, receives, Bool.false_eq_true, ↓reduceIte, List.filter_filter,
      Bool.and_self]

theorem Signature.stripped_stripped (sig : Signature) : sig.stripped.stripped = sig.stripped := by
  simp only [Signature.stripped, List.map_map]
  congr 1
  exact List.map_congr_left fun input _ => input.stripped_stripped

@[simp] theorem Signature.hasReceiver_stripped (sig : Signature) :
    sig.stripped.hasReceiver = sig.hasReceiver := by
  unfold Signature.hasReceiver Signature.stripped
  cases sig.inputs with
  | nil => rfl
  | cons first rest => simp only [List.map_cons, List.head?_cons, Option.any_some,
      Input.stripped_receiver]

/-- Whether a declaration stands for a value does not depend on its marks. -/
theorem Declaration.isProperty_stripped (declaration : Declaration) (attrs : List Attribute) :
    Declaration.isProperty
        { declaration with attrs := attrs, sig := declaration.sig.stripped } =
      declaration.isProperty := by
  have receivers : (declaration.sig.inputs.map Input.stripped).all (·.receiver) =
      declaration.sig.inputs.all (·.receiver) := by
    rw [List.all_map]
    congr 1
    funext input
    exact input.stripped_receiver
  simp only [Declaration.isProperty, Signature.stripped, receivers]

/-- A stripped member stays as it is. -/
theorem ImplMember.stripped_stripped (member : ImplMember) :
    member.stripped.stripped = member.stripped := by
  have attrs (given : List Attribute) :
      (given.map Attribute.qualified).map Attribute.qualified = given.map Attribute.qualified := by
    rw [List.map_map]
    exact List.map_congr_left fun attr _ => attr.qualified_qualified
  cases member with
  | function item => simp only [ImplMember.stripped, attrs, Signature.stripped_stripped]
  | declaration item => simp only [ImplMember.stripped, attrs, Signature.stripped_stripped]
  | other code => rfl

/-- A stripped block stays as it is. -/
theorem ImplBlock.stripped_stripped (block : ImplBlock) :
    block.stripped.stripped = block.stripped := by
  simp only [ImplBlock.stripped, List.filter_filter, Bool.and_self, List.map_map]
  congr 1
  exact List.map_congr_left fun member _ => member.stripped_stripped

/-- The outline lists a stripped member as it lists the member. -/
theorem ImplMember.ofImplMember?_stripped (member : ImplMember) :
    Member.ofImplMember? member.stripped = Member.ofImplMember? member := by
  cases member with
  | function item =>
      simp only [ImplMember.stripped, Member.ofImplMember?, markingsOf_qualified,
        Signature.hasReceiver_stripped]
      rfl
  | declaration item =>
      simp only [ImplMember.stripped, Member.ofImplMember?, markingsOf_qualified,
        Signature.hasReceiver_stripped, Declaration.isProperty_stripped]
      rfl
  | other code => rfl

end Source

open Source

/-- **Stripping and outlines.** The outline of a stripped block is that of the block without the
entry point. -/
theorem Outline.ofBlock_stripped (block : ImplBlock) :
    Outline.ofBlock block.stripped = { Outline.ofBlock block with entryPoint := false } := by
  have members : block.stripped.members.filterMap Member.ofImplMember? =
      block.members.filterMap Member.ofImplMember? := by
    simp only [ImplBlock.stripped, List.filterMap_map]
    congr 1
    funext member
    exact member.ofImplMember?_stripped
  have unmarked : block.stripped.attrs.any isEntryPoint = false := by
    rw [List.any_eq_false]
    intro attr member
    simpa using (List.mem_filter.mp member).2
  simp only [Outline.ofBlock, members, unmarked]
  rfl

namespace Source

/-- The problem with an attribute of a parameter: a marking that cannot be read, or a
description that does not resolve. -/
def Attribute.problem? (attr : Attribute) : Option Diagnostic :=
  match Marking.ofAttribute? attr with
  | none => none
  | some (.error error) => some (.ofMarkingError error)
  | some (.ok marking) =>
    if marking.tag = .param then
      match Schema.param.resolve marking.arguments with
      | .ok _ => none
      | .error error => some (.argument error)
    else none

/-- The attributes of the parameters of a signature, receivers apart. -/
def Signature.parameterAttributes (sig : Signature) : List Attribute :=
  (sig.inputs.filter (!·.receiver)).flatMap (·.attrs)

/-- The attributes of the parameters of a member. -/
def ImplMember.parameterAttributes : ImplMember → List Attribute
  | .function item => item.sig.parameterAttributes
  | .declaration item => item.sig.parameterAttributes
  | .other _ => []

/-- The first problem with the description of a parameter, in source order. -/
def ImplBlock.parameterProblem? (block : ImplBlock) : Option Diagnostic :=
  (block.members.flatMap ImplMember.parameterAttributes).findSome? Attribute.problem?

/-- What is left of the attributes of parameters was there before. -/
theorem Signature.parameterAttributes_stripped_subset (sig : Signature) :
    sig.stripped.parameterAttributes ⊆ sig.parameterAttributes := by
  intro attr member
  obtain ⟨input, inside, own⟩ := List.mem_flatMap.mp member
  obtain ⟨inside, typed⟩ := List.mem_filter.mp inside
  obtain ⟨original, listed, rfl⟩ := List.mem_map.mp inside
  rw [Input.stripped_receiver] at typed
  refine List.mem_flatMap.mpr ⟨original, List.mem_filter.mpr ⟨listed, typed⟩, ?_⟩
  unfold Input.stripped at own
  split at own
  · exact own
  · exact (List.mem_filter.mp own).1

theorem ImplMember.parameterAttributes_stripped_subset (member : ImplMember) :
    member.stripped.parameterAttributes ⊆ member.parameterAttributes := by
  cases member with
  | function item => exact item.sig.parameterAttributes_stripped_subset
  | declaration item => exact item.sig.parameterAttributes_stripped_subset
  | other code => exact List.Subset.refl _

/-- A block has no problem with its parameters when none of their attributes has one. -/
theorem ImplBlock.parameterProblem?_eq_none {block : ImplBlock} :
    block.parameterProblem? = none ↔
      ∀ member ∈ block.members, ∀ attr ∈ member.parameterAttributes, attr.problem? = none := by
  unfold ImplBlock.parameterProblem?
  simp only [List.findSome?_eq_none_iff, List.mem_flatMap, forall_exists_index, and_imp]
  constructor
  · intro clear member inside attr own
    exact clear attr member inside own
  · intro clear attr member inside own
    exact clear member inside attr own

/-- Stripping makes no problem with a parameter. -/
theorem ImplBlock.parameterProblem?_stripped {block : ImplBlock}
    (clear : block.parameterProblem? = none) : block.stripped.parameterProblem? = none := by
  rw [ImplBlock.parameterProblem?_eq_none] at clear ⊢
  intro member inside attr own
  obtain ⟨original, listed, rfl⟩ := List.mem_map.mp inside
  exact clear original listed attr (original.parameterAttributes_stripped_subset own)

/-- A value, barring a problem. -/
def barring {α : Type} (problem : Option Diagnostic) (value : α) : Except Diagnostic α :=
  match problem with
  | some problem => .error problem
  | none => .ok value

theorem barring_bind_pure {α β : Type} (problem : Option Diagnostic) (value : α) (next : α → β) :
    (barring problem value >>= fun input => pure (next input)) = barring problem (next value) := by
  cases problem with
  | none => rfl
  | some problem => rfl

/-- Where each element is replaced barring the problems of its own attributes, a list is replaced
barring those of all of them, in order. -/
theorem mapM_eq_barring {α : Type} {step : α → Except Diagnostic α}
    {attributes : α → List Attribute} {next : α → α} {elements : List α}
    (each : ∀ element ∈ elements,
      step element = barring ((attributes element).findSome? Attribute.problem?) (next element)) :
    elements.mapM step =
      barring ((elements.flatMap attributes).findSome? Attribute.problem?) (elements.map next) := by
  induction elements with
  | nil => rfl
  | cons element rest ih =>
      rw [List.forall_mem_cons] at each
      rw [List.mapM_cons, each.1, ih each.2, List.flatMap_cons, List.findSome?_append]
      cases (attributes element).findSome? Attribute.problem? with
      | some problem => rfl
      | none => exact barring_bind_pure _ _ _

/-- Of the attributes that have no problem all are kept but the descriptions. -/
theorem Attribute.isKept_eq (attr : Attribute) :
    attr.isKept = barring attr.problem? (!attr.isParam) := by
  unfold Attribute.isKept Attribute.problem?
  cases read : Marking.ofAttribute? attr with
  | none =>
      have untagged : Tag.ofPath? attr.path = none := by simpa [Marking.ofAttribute?] using read
      rw [Attribute.isParam, untagged]
      rfl
  | some result =>
      cases result with
      | error error => rfl
      | ok marking =>
          rw [Attribute.isParam, Marking.tag_of_ofAttribute? read]
          by_cases describes : marking.tag = .param
          · simp only [describes, ↓reduceIte]
            cases Schema.param.resolve marking.arguments with
            | ok resolved => rfl
            | error error => rfl
          · simp [describes, barring]

/-- Attributes are kept but for those of parameters, unless one of these is at fault. -/
theorem keptAttributes_eq (attrs : List Attribute) :
    keptAttributes attrs =
      barring (attrs.findSome? Attribute.problem?) (attrs.filter (!·.isParam)) := by
  induction attrs with
  | nil => rfl
  | cons attr rest ih =>
      rw [keptAttributes, attr.isKept_eq, ih, List.findSome?_cons]
      cases attr.problem? with
      | some problem => rfl
      | none =>
          change (if (!attr.isParam) = true then _ else _) = _
          by_cases describes : attr.isParam
          · simp [describes]
          · simp only [describes, Bool.not_false, ↓reduceIte, List.filter_cons]
            exact barring_bind_pure _ _ _

/-- The attributes that preparing a parameter looks at. -/
def Input.checkedAttributes (input : Input) : List Attribute :=
  if input.receiver then [] else input.attrs

theorem Signature.parameterAttributes_eq (sig : Signature) :
    sig.parameterAttributes = sig.inputs.flatMap Input.checkedAttributes := by
  unfold Signature.parameterAttributes
  induction sig.inputs with
  | nil => rfl
  | cons input rest ih =>
      rw [List.flatMap_cons, ← ih, List.filter_cons, Input.checkedAttributes]
      by_cases receives : input.receiver
      · simp [receives]
      · simp [receives]

theorem Input.prepared_eq (input : Input) :
    input.prepared =
      barring (input.checkedAttributes.findSome? Attribute.problem?) input.stripped := by
  unfold Input.prepared Input.checkedAttributes Input.stripped
  by_cases receives : input.receiver
  · simp only [receives, ↓reduceIte]
    rfl
  · simp only [receives, Bool.false_eq_true, ↓reduceIte, keptAttributes_eq]
    exact barring_bind_pure _ _ _

theorem Signature.prepared_eq (sig : Signature) :
    sig.prepared =
      barring (sig.parameterAttributes.findSome? Attribute.problem?) sig.stripped := by
  unfold Signature.prepared
  rw [mapM_eq_barring fun input _ => input.prepared_eq, sig.parameterAttributes_eq]
  exact barring_bind_pure _ _ _

/-- Preparing a member strips it, unless an attribute of a parameter is at fault. -/
theorem ImplMember.prepared_eq (member : ImplMember) :
    member.prepared =
      barring (member.parameterAttributes.findSome? Attribute.problem?) member.stripped := by
  cases member with
  | function item =>
      rw [ImplMember.prepared, item.sig.prepared_eq]
      exact barring_bind_pure _ _ _
  | declaration item =>
      rw [ImplMember.prepared, item.sig.prepared_eq]
      exact barring_bind_pure _ _ _
  | other code => rfl

/-- **Preparing and stripping.** A block is prepared by stripping it, barring the first problem with
a parameter. -/
theorem ImplBlock.prepared_eq (block : ImplBlock) :
    block.prepared = barring block.parameterProblem? block.stripped := by
  unfold ImplBlock.prepared
  rw [mapM_eq_barring fun member _ => member.prepared_eq]
  exact barring_bind_pure _ _ _

/-- A block is prepared by stripping it when its parameters have no problem. -/
theorem ImplBlock.prepared_eq_ok {block prepared : ImplBlock} :
    block.prepared = .ok prepared ↔
      block.parameterProblem? = none ∧ prepared = block.stripped := by
  rw [block.prepared_eq]
  cases block.parameterProblem? with
  | none => simp [barring, eq_comm]
  | some problem => simp [barring]

end Source

/-- A generated function takes no part in stripping. -/
theorem Generated.stripped_function (generated : Generated) :
    ImplMember.stripped (.function generated.function) = .function generated.function := by
  cases generated with
  | toolboxDispatch delegate arms idle => cases idle <;> rfl
  | _ => rfl

/-- The parameters of a generated function have no attributes. -/
theorem Generated.parameterAttributes_function (generated : Generated) :
    ImplMember.parameterAttributes (.function generated.function) = [] := by
  cases generated with
  | toolboxDispatch delegate arms idle => cases idle <;> rfl
  | _ => rfl

end Toolsmith
