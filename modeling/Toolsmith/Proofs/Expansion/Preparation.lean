import Mathlib
import Toolsmith.Proofs.Expansion.Conservation

/-! # Preparing a block

A block that expands is prepared: one pass over its members drops the descriptions of parameters and
checks them on the way, and stops at the first that is at fault. A block that does not expand is
stripped instead, by a pass that judges attributes by their paths alone and cannot fail. `FirstOf`
says which of several faults is reported, without the pass; the two passes leave the same block
whenever both leave one (`prepared_exact`).
-/

namespace Toolsmith

open Source

/-- The problem of the first item that is at fault. -/
def FirstOf {α : Type} (faulty : α → Diagnostic → Prop) (items : List α) (problem : Diagnostic) :
    Prop :=
  ∃ before item after, items = before ++ item :: after ∧
    (∀ other ∈ before, ∀ problem, ¬ faulty other problem) ∧ faulty item problem

section FirstOf

variable {α : Type} {faulty : α → Diagnostic → Prop} {fault? : α → Option Diagnostic}

/-- A search for a problem finds that of the first item at fault. -/
theorem findSome?_eq_some_iff_firstOf
    (exact : ∀ item problem, fault? item = some problem ↔ faulty item problem) (items : List α)
    (problem : Diagnostic) :
    items.findSome? fault? = some problem ↔ FirstOf faulty items problem := by
  have clear (item : α) : fault? item = none ↔ ∀ problem, ¬ faulty item problem := by
    rw [Option.eq_none_iff_forall_ne_some]
    exact forall_congr' fun problem => not_congr (exact item problem)
  rw [List.findSome?_eq_some_iff]
  constructor
  · rintro ⟨before, item, after, split, found, passed⟩
    exact ⟨before, item, after, split, fun other inside => (clear other).mp (passed other inside),
      (exact item problem).mp found⟩
  · rintro ⟨before, item, after, split, passed, found⟩
    exact ⟨before, item, after, split, (exact item problem).mpr found,
      fun other inside => (clear other).mpr (passed other inside)⟩

theorem not_firstOf_nil {problem : Diagnostic} : ¬ FirstOf faulty [] problem := by
  rintro ⟨before, item, after, split, _⟩
  simp at split

/-- The first item is the one to report when it is at fault, and is passed over when it is not. -/
theorem firstOf_cons {item : α} {items : List α} {problem : Diagnostic} :
    FirstOf faulty (item :: items) problem ↔
      faulty item problem ∨ (∀ problem, ¬ faulty item problem) ∧ FirstOf faulty items problem := by
  constructor
  · rintro ⟨before, found, after, split, passed, fault⟩
    cases before with
    | nil =>
        cases split
        exact .inl fault
    | cons first rest =>
        cases split
        rw [List.forall_mem_cons] at passed
        exact .inr ⟨passed.1, rest, found, after, rfl, passed.2, fault⟩
  · rintro (fault | ⟨clear, before, found, after, rfl, passed, fault⟩)
    · exact ⟨[], item, items, rfl, by simp, fault⟩
    · exact ⟨item :: before, found, after, rfl, List.forall_mem_cons.mpr ⟨clear, passed⟩, fault⟩

/-- Some item is the first at fault when one is at fault. -/
theorem exists_firstOf_iff {items : List α} :
    (∃ problem, FirstOf faulty items problem) ↔ ∃ item ∈ items, ∃ problem, faulty item problem := by
  induction items with
  | nil => simp [not_firstOf_nil]
  | cons item rest ih =>
      simp only [firstOf_cons, exists_or, exists_and_left, ih, List.exists_mem_cons_iff]
      by_cases here : ∃ problem, faulty item problem
      · exact iff_of_true (.inl here) (.inl here)
      · simp [not_exists.mp here]

end FirstOf

namespace Source

/-- What is wrong with an attribute of a parameter: it is of the vocabulary and its arguments cannot
be read, or it is a description and its arguments do not resolve. -/
inductive Attribute.Faulty (attr : Attribute) : Diagnostic → Prop
  | unreadable {error : MarkingError} (unread : Marking.ofAttribute? attr = some (.error error)) :
      Faulty attr (.malformed error.message)
  | unresolved {marking : Marking} {error : ArgumentError}
      (read : Marking.ofAttribute? attr = some (.ok marking)) (describes : marking.tag = .param)
      (misfits : Schema.param.resolve marking.arguments = .error error) :
      Faulty attr (.argument error)

theorem Attribute.problem?_eq_some_iff (attr : Attribute) (problem : Diagnostic) :
    attr.problem? = some problem ↔ attr.Faulty problem := by
  constructor
  · intro found
    unfold Attribute.problem? at found
    split at found
    · cases found
    · rename_i error unread
      cases found
      exact .unreadable unread
    · rename_i marking read
      split at found
      · rename_i describes
        split at found
        · cases found
        · rename_i error misfits
          cases found
          exact .unresolved read describes misfits
      · cases found
  · intro fault
    unfold Attribute.problem?
    cases fault with
    | unreadable unread =>
        rw [unread]
        rfl
    | unresolved read describes misfits => simp only [read, describes, misfits, ↓reduceIte]

/-- The parameters of a member, a receiver included. -/
def ImplMember.inputs : ImplMember → List Input
  | .function item => item.sig.inputs
  | .declaration item => item.sig.inputs
  | .other _ => []

/-- The attributes of parameters are those that stand on a parameter with a type, of a function that
the outline lists. -/
theorem ImplMember.mem_parameterAttributes {member : ImplMember} {attr : Attribute} :
    attr ∈ member.parameterAttributes ↔ (Member.ofImplMember? member).isSome = true ∧
      ∃ input ∈ member.inputs, input.receiver = false ∧ attr ∈ input.attrs := by
  have typed (sig : Signature) : attr ∈ sig.parameterAttributes ↔
      ∃ input ∈ sig.inputs, input.receiver = false ∧ attr ∈ input.attrs := by
    simp [Signature.parameterAttributes, and_assoc]
  cases member with
  | function item =>
      rw [ImplMember.parameterAttributes, typed item.sig]
      simp [Member.ofImplMember?, ImplMember.inputs]
  | declaration item =>
      rw [ImplMember.parameterAttributes, typed item.sig]
      simp [Member.ofImplMember?, ImplMember.inputs]
  | other code => simp [ImplMember.parameterAttributes, Member.ofImplMember?]

theorem ImplMember.forall₂_inputs_stripped (member : ImplMember) :
    List.Forall₂ Input.ReemittedAs member.inputs member.stripped.inputs := by
  cases member with
  | function item => exact item.sig.reemittedAs_stripped.inputs
  | declaration item => exact item.sig.reemittedAs_stripped.inputs
  | other code => exact .nil

theorem ImplBlock.prepared_eq_error_iff (block : ImplBlock) (problem : Diagnostic) :
    block.prepared = .error problem ↔
      FirstOf Attribute.Faulty (block.members.flatMap ImplMember.parameterAttributes) problem := by
  rw [← findSome?_eq_some_iff_firstOf Attribute.problem?_eq_some_iff, block.prepared_eq,
    ← ImplBlock.parameterProblem?]
  cases block.parameterProblem? with
  | none => simp [barring]
  | some found => simp [barring]

end Source

/-- **Preparing a block is exact.** Preparing fails exactly when a parameter with a type, of a
function that the outline lists, has an attribute at fault, and it reports the first such attribute
in the order of the source. When it succeeds, it leaves what stripping leaves. Both leave the
parameters of every member as they were, but that each with a type has lost its descriptions; its
other attributes are kept in their order, and so are all those of a receiver. -/
theorem prepared_exact (block : ImplBlock) :
    ((∃ problem, block.prepared = .error problem) ↔
      ∃ member ∈ block.members, (Member.ofImplMember? member).isSome = true ∧
        ∃ input ∈ member.inputs, input.receiver = false ∧
          ∃ attr ∈ input.attrs, ∃ problem, attr.Faulty problem) ∧
    (∀ problem, block.prepared = .error problem ↔
      FirstOf Attribute.Faulty (block.members.flatMap ImplMember.parameterAttributes) problem) ∧
    (∀ result, block.prepared = .ok result → result = block.stripped) ∧
    ∀ result, block.prepared = .ok result ∨ result = block.stripped →
      List.Forall₂ (fun before after => List.Forall₂ Input.ReemittedAs before.inputs after.inputs)
        block.members result.members := by
  refine ⟨?_, block.prepared_eq_error_iff, ?_, ?_⟩
  · simp only [block.prepared_eq_error_iff, exists_firstOf_iff, List.mem_flatMap,
      ImplMember.mem_parameterAttributes]
    constructor
    · rintro ⟨attr, ⟨member, inside, listed, input, own, typed, carried⟩, fault⟩
      exact ⟨member, inside, listed, input, own, typed, attr, carried, fault⟩
    · rintro ⟨member, inside, listed, input, own, typed, attr, carried, fault⟩
      exact ⟨attr, ⟨member, inside, listed, input, own, typed, carried⟩, fault⟩
  · intro result succeeds
    exact (ImplBlock.prepared_eq_ok.mp succeeds).2
  · intro result left
    have same : result = block.stripped := by
      rcases left with succeeds | same
      · exact (ImplBlock.prepared_eq_ok.mp succeeds).2
      · exact same
    rw [same]
    exact List.forall₂_map_right_iff.mpr
      (List.forall₂_same.mpr fun member _ => member.forall₂_inputs_stripped)

/-- An attribute that is just a name. -/
def bareAttribute (path : String) : Attribute := ⟨false, ⟨false, [⟨false, path⟩]⟩, .none⟩

/-- A block with a receiver that is described, which nothing looks at, and a declaration with two
attributes at fault: a description without arguments and a tag with a value. -/
def undescribedBlock : ImplBlock where
  selfType := .ofTrees (.path ⟨false, "Kit"⟩ false true) [name "Kit"]
  members := [
    .function {
      sig := {
        ident := ⟨false, "echo_handler"⟩
        inputs := [⟨[bareAttribute "param"], true, [name "self"], true⟩,
          ⟨[bareAttribute "allow", bareAttribute "tool"], false,
            name "text" :: op ":" ++ [name "String"], false⟩] } },
    .declaration {
      sig := {
        ident := ⟨false, "declared"⟩
        inputs := [⟨[bareAttribute "allow", bareAttribute "param",
          { bareAttribute "tool" with arguments := .value (stringExpression "t") }], false,
          name "value" :: op ":" ++ [name "u8"], false⟩] } }]

/-- The first of the two faults is reported. -/
theorem prepared_exact_of_undescribed :
    let problem := Diagnostic.argument (.missing ⟨.param, false⟩ "description")
    undescribedBlock.prepared = .error problem ∧
      FirstOf Attribute.Faulty (undescribedBlock.members.flatMap ImplMember.parameterAttributes)
        problem := by
  intro problem
  have failed : undescribedBlock.prepared = .error problem := rfl
  exact ⟨failed, ((prepared_exact undescribedBlock).2.1 problem).mp failed⟩

end Toolsmith
