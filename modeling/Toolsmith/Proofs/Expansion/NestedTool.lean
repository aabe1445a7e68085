import Mathlib
import Toolsmith.Expansion.Accessor
import Toolsmith.Proofs.Marking.Resolution

/-! # Tools marked inside a block

A property of a block that is marked as a tool expands on its own, to an accessor that constructs
the tool. When that succeeds, the name which the accessor gives to the tool is the one by which the
outline of the block knows it (`Source.Declaration.nestedName?_eq`).
-/

namespace Toolsmith

open Source

/-- The function that completes a property, if the expansion made one. -/
def Expansion.accessor? (expansion : Expansion) : Option Function :=
  match expansion.declarations with
  | [⟨.accessor, [.function item]⟩] => some item
  | _ => none

namespace Source

/-- The name that a function gives to a tool: the value of the literal that comes first when all
that it does is to construct one. -/
def Function.constructedName? (function : Function) : Option String :=
  match function.body.getLast? with
  | some (.group .paren (.literal text :: _)) =>
    if render function.body.dropLast = render (runtimePath ["Tool", "new"]) then stringValue? text
    else none
  | _ => none

/-- Whether an attribute marks a tool. -/
def Attribute.isTool (attr : Attribute) : Bool := Tag.ofPath? attr.path == some .tool

/-- Whether a declaration is a property that is marked as a tool. -/
def Declaration.isTool (declaration : Declaration) : Bool :=
  declaration.isProperty && declaration.attrs.any Attribute.isTool

/-- The expansion of the first tool marking of a declaration, for the declaration without it. -/
def Declaration.expandNested? (declaration : Declaration) :
    Option (Except Diagnostic Expansion) :=
  (declaration.attrs.find? Attribute.isTool).bind fun attr =>
    (Marking.ofAttribute? attr).map fun marking => do
      expandTool (← marking.mapError .ofMarkingError)
        { declaration with attrs := declaration.attrs.eraseP Attribute.isTool }

/-- Whether the first tool marking of a declaration expands. -/
def Declaration.expands (declaration : Declaration) : Bool :=
  declaration.expandNested?.any Except.isOk

/-- The name that the accessor of a tool property gives to the tool. -/
def Declaration.nestedName? (declaration : Declaration) : Option String :=
  match declaration.expandNested? with
  | some (.ok expansion) => expansion.accessor?.bind Function.constructedName?
  | _ => none

end Source

/-- The marking that an outline takes from an attribute: one that cannot be read has no
arguments. -/
def Source.Attribute.marking? (attr : Attribute) : Option Marking :=
  match Marking.ofAttribute? attr with
  | some (.ok marking) => some marking
  | some (.error _) => (Tag.ofPath? attr.path).map fun tag => ⟨⟨tag, false⟩, []⟩
  | none => none

theorem markingsOf_eq (attrs : List Attribute) :
    markingsOf attrs = attrs.filterMap Attribute.marking? := rfl

/-- The marking taken from an attribute is for a tool when the attribute is. -/
theorem Source.Attribute.any_marking? (attr : Attribute) :
    attr.marking?.any (·.tag == .tool) = attr.isTool := by
  unfold Attribute.marking? Attribute.isTool
  cases read : Marking.ofAttribute? attr with
  | none =>
      have untagged := Option.map_eq_none_iff.mp read
      simp [untagged]
  | some result =>
      cases result with
      | ok marking => simp [Marking.tag_of_ofAttribute? read]
      | error error =>
          obtain ⟨tag, named, _⟩ := Option.map_eq_some_iff.mp read
          simp [named, Marking.tag]

/-- The first tool marking of an outline is the one taken from the first attribute for a tool. -/
theorem find?_markingsOf (attrs : List Attribute) :
    (markingsOf attrs).find? (·.tag == .tool) =
      (attrs.find? Attribute.isTool).bind Attribute.marking? := by
  rw [markingsOf_eq, List.find?_filterMap]
  simp only [Attribute.any_marking?]

/-- A required string was written as a literal that stands for one. -/
theorem requiredString_eq_ok {arguments : ResolvedArguments} {label text : String}
    (found : arguments.requiredString label = .ok text) :
    arguments.string? label = .ok (some text) ∧ (stringValue? text).isSome := by
  unfold ResolvedArguments.requiredString at found
  obtain ⟨given, read, found⟩ := bind_eq_ok.mp found
  cases given with
  | none => cases found
  | some literal =>
      obtain rfl : literal = text := Except.ok.inj found
      refine ⟨read, ?_⟩
      unfold ResolvedArguments.string? at read
      split at read
      · cases read
      · split at read
        · split at read
          · rename_i valued
            cases read
            exact valued
          · cases read
        · cases read

/-- The descriptor of a tool names it as the outline does. -/
theorem toolName_of_resolve {property : Declaration} {marking : Marking}
    {descriptor : ToolDescriptor} {member : Member} (same : member.ident = property.sig.ident)
    (resolved : ToolDescriptor.resolve property marking = .ok descriptor) :
    toolName member marking = descriptor.name ∧ (stringValue? descriptor.name).isSome := by
  unfold ToolDescriptor.resolve liftArguments at resolved
  rw [mapError_eq_ok] at resolved
  obtain ⟨arguments, accepted, resolved⟩ := bind_eq_ok.mp resolved
  obtain ⟨text, named, resolved⟩ := bind_eq_ok.mp resolved
  obtain ⟨description, _, made⟩ := bind_eq_ok.mp resolved
  obtain rfl := Except.ok.inj made
  obtain ⟨given, valued⟩ := requiredString_eq_ok named
  refine ⟨?_, valued⟩
  simp only [toolName, same, accepted, given]

/-- Expanding a tool marking completes a property with what constructs its descriptor. -/
theorem expandTool_eq_ok {marking : Marking} {property : Declaration} {expansion : Expansion}
    (expanded : expandTool marking property = .ok expansion) :
    ∃ descriptor, ToolDescriptor.resolve property marking = .ok descriptor ∧
      expansion = completed property descriptor.construct := by
  unfold expandTool at expanded
  by_cases stands : property.isProperty
  · simp only [stands, Bool.not_true, Bool.false_eq_true, ↓reduceIte] at expanded
    obtain ⟨descriptor, resolved, made⟩ := bind_eq_ok.mp expanded
    exact ⟨descriptor, resolved, (Except.ok.inj made).symm⟩
  · simp only [stands, Bool.not_false, ↓reduceIte] at expanded
    cases expanded

theorem accessor?_completed (property : Declaration) (body : List Tree) :
    (completed property body).accessor? = some (property.complete body) := rfl

/-- The accessor made from a descriptor gives the tool the name of the descriptor. -/
theorem constructedName?_complete (property : Declaration) (descriptor : ToolDescriptor) :
    (property.complete descriptor.construct).constructedName? = stringValue? descriptor.name := by
  simp only [Function.constructedName?, Declaration.complete, ToolDescriptor.construct, call,
    commas, separated, paren, List.getLast?_concat, List.cons_append, List.nil_append,
    List.dropLast_concat, ↓reduceIte]

theorem Source.Declaration.exists_of_expands {declaration : Declaration}
    (expands : declaration.expands) : ∃ made, declaration.expandNested? = some (.ok made) := by
  unfold Declaration.expands at expands
  cases result : declaration.expandNested? with
  | none => simp [result] at expands
  | some outcome =>
      cases outcome with
      | error diagnostic => simp [result, Except.isOk, Except.toBool] at expands
      | ok made => exact ⟨made, rfl⟩

/-- **Nested names.** When the first tool marking of a property expands, its accessor gives the tool
the name by which the outline knows it, the value of a string literal. -/
theorem Source.Declaration.nestedName?_eq {declaration : Declaration} {member : Member}
    (listed : Member.ofImplMember? (.declaration declaration) = some member)
    (expands : declaration.expands) :
    ∃ marking, member.marking? .tool = some marking ∧
      declaration.nestedName? = stringValue? (toolName member marking) ∧
      (stringValue? (toolName member marking)).isSome := by
  obtain ⟨made, expanded⟩ := declaration.exists_of_expands expands
  have nested : declaration.nestedName? = made.accessor?.bind Function.constructedName? := by
    simp only [Declaration.nestedName?, expanded]
  obtain ⟨attr, first, expanded⟩ := Option.bind_eq_some_iff.mp expanded
  obtain ⟨reading, read, expanded⟩ := Option.map_eq_some_iff.mp expanded
  obtain ⟨marking, readable, expanded⟩ := bind_eq_ok.mp expanded
  rw [mapError_eq_ok] at readable
  rw [readable] at read
  obtain ⟨descriptor, resolved, rfl⟩ := expandTool_eq_ok expanded
  have same : member.ident = declaration.sig.ident ∧
      member.markings = markingsOf declaration.attrs := by
    cases listed
    exact ⟨rfl, rfl⟩
  obtain ⟨named, valued⟩ := toolName_of_resolve same.1 resolved
  refine ⟨marking, ?_, ?_, ?_⟩
  · simp only [Member.marking?, same.2, find?_markingsOf, first, Option.bind_some,
      Attribute.marking?, read]
  · rw [nested, named, accessor?_completed, Option.bind_some, constructedName?_complete]
  · rwa [named]

end Toolsmith
