import Mathlib
import Toolsmith.Expansion.Dispatch
import Toolsmith.Proofs.Expansion.NestedTool
import Toolsmith.Proofs.Marking.Exactness
import Toolsmith.Proofs.Source.Attributes
import Toolsmith.Proofs.Source.StringLiteral

/-! # Two ways to the name of a tool

A tool property is read twice: as a member of its block, whose outline takes the name of the tool
from the attribute, and on its own, when the attribute is expanded for the code that it is taken
off. The outline passes over an attribute that cannot be read and leaves it to the expansion to
report it. So the two agree where the expansion succeeds, and where it fails the outline has no
other name for the tool than that of the property (`accessor_names_listed_tool`).
-/

namespace Toolsmith

open Source

theorem Schema.distinct_tool (property : Ident) : (Schema.tool property).Distinct := by
  change ["name", "description", "input_schema", "schema"].Nodup
  decide

/-- The trees that an expansion is handed as the arguments of an attribute. -/
def Source.AttributeArguments.handed? : AttributeArguments → Option (List Tree)
  | .none => some []
  | .list _ tokens => some tokens
  | .value _ => Option.none

section Attribute

variable {attr : Attribute} {tokens : List Tree}

/-- An attribute is read in a block as its arguments are read on their own. -/
theorem ofAttribute?_of_handed {tag : Tag} (tagged : Tag.ofPath? attr.path = some tag)
    (handed : attr.arguments.handed? = some tokens) :
    Marking.ofAttribute? attr = some (Marking.parse ⟨tag, false⟩ tokens) := by
  unfold Marking.ofAttribute?
  rw [tagged, Option.map_some]
  cases given : attr.arguments with
  | none =>
      rw [given] at handed
      cases handed
      rfl
  | list delimiter written =>
      rw [given] at handed
      cases handed
      rfl
  | value expression =>
      rw [given] at handed
      cases handed

variable (tagged : Tag.ofPath? attr.path = some .tool)
  (handed : attr.arguments.handed? = some tokens)

include tagged handed

/-- The outline takes the marking that the expansion reads, and one without arguments where it reads
none. -/
theorem marking?_of_handed : ∃ marking, attr.marking? = some marking ∧
    (parseMarking ⟨.tool, false⟩ tokens = .ok marking ∨
      (∃ problem, parseMarking ⟨.tool, false⟩ tokens = .error problem) ∧
        marking = ⟨⟨.tool, false⟩, []⟩) := by
  unfold Attribute.marking? parseMarking
  rw [ofAttribute?_of_handed tagged handed]
  cases Marking.parse ⟨.tool, false⟩ tokens with
  | ok marking => exact ⟨marking, rfl, .inl rfl⟩
  | error error =>
      dsimp only
      rw [tagged, Option.map_some]
      exact ⟨_, rfl, .inr ⟨⟨_, rfl⟩, rfl⟩⟩

end Attribute

section Names

variable {member : Member} {marking : Marking} {property : Declaration}
  (same : member.ident = property.sig.ident)

include same

/-- Where the expansion of a property succeeds, its accessor names the tool as the outline does. -/
theorem constructedName?_of_expandTool {expansion : Expansion}
    (expanded : expandTool marking property = .ok expansion) :
    ∃ accessor tool, expansion.accessor? = some accessor ∧ accessor.constructedName? = some tool ∧
      stringValue? (toolName member marking) = some tool := by
  obtain ⟨descriptor, resolved, rfl⟩ := expandTool_eq_ok expanded
  obtain ⟨named, valued⟩ := toolName_of_resolve same resolved
  obtain ⟨tool, value⟩ := Option.isSome_iff_exists.mp valued
  refine ⟨_, tool, accessor?_completed property _, ?_, ?_⟩
  · rw [constructedName?_complete, value]
  · rw [named, value]

/-- Where the expansion of a property fails, the outline names the tool after the property. -/
theorem toolName_of_expandTool_error (stands : property.isProperty = true) {problem : Diagnostic}
    (failed : expandTool marking property = .error problem) :
    toolName member marking = Text.literal member.name := by
  unfold toolName
  rw [same]
  cases accepted : (Schema.tool property.sig.ident).resolve marking.arguments with
  | error error => rfl
  | ok arguments =>
      dsimp only
      cases named : arguments.string? "name" with
      | error error => rfl
      | ok given =>
          cases given with
          | none => rfl
          | some text =>
              -- Nothing else can fail, since the description is there.
              have required : (arguments.get? "description").isSome = true :=
                Schema.isSome_get?_of_required accepted (Schema.distinct_tool _)
                  (List.mem_cons_of_mem _ List.mem_cons_self) rfl
              obtain ⟨description, described⟩ := Option.isSome_iff_exists.mp required
              have first : arguments.requiredString "name" = .ok text := by
                rw [ResolvedArguments.requiredString, named]
                rfl
              have second : arguments.required "description" = .ok description := by
                rw [ResolvedArguments.required, described]
              have resolved : ToolDescriptor.resolve property marking =
                  .ok ⟨text, description, arguments.get? "input_schema"⟩ := by
                unfold ToolDescriptor.resolve liftArguments
                rw [mapError_eq_ok]
                simp only [bind_eq_ok]
                exact ⟨arguments, accepted, text, first, description, second, rfl⟩
              rw [expandTool, stands, resolved] at failed
              cases failed

end Names

section Listing

variable {declaration : Declaration} {member : Member}
  (listed : Member.ofImplMember? (.declaration declaration) = some member)

include listed

/-- A marked declaration is listed under the tag exactly when it stands for a value. -/
theorem mem_tagged_iff {block : ImplBlock} (inside : .declaration declaration ∈ block.members)
    {tag : Tag} {marking : Marking} (marked : member.marking? tag = some marking) :
    (member, marking) ∈ (Outline.ofBlock block).tagged tag ↔ declaration.isProperty = true := by
  have kind : (member.kind == .property) = declaration.isProperty := by
    cases listed
    cases stands : declaration.isProperty <;> simp
  unfold Outline.tagged
  rw [List.mem_filterMap]
  constructor
  · intro ⟨other, among, same⟩
    obtain ⟨_, _, pair⟩ := Option.map_eq_some_iff.mp same
    obtain ⟨rfl, rfl⟩ := Prod.mk.inj pair
    rw [← kind]
    exact (List.mem_filter.mp among).2
  · intro stands
    refine ⟨member, List.mem_filter.mpr ⟨?_, kind.trans stands⟩, ?_⟩
    · exact List.mem_filterMap.mpr ⟨_, inside, listed⟩
    · rw [marked, Option.map_some]

/-- The outline takes the marking of a tool from the attribute that marks it. -/
theorem marking?_of_attached {before after : List Attribute} {attr : Attribute}
    (attached : declaration.attrs = before ++ attr :: after)
    (first : ∀ other ∈ before, Tag.ofPath? other.path = none)
    (tagged : Tag.ofPath? attr.path = some .tool) : member.marking? .tool = attr.marking? := by
  have found : declaration.attrs.find? Attribute.isTool = some attr := by
    have others : before.find? Attribute.isTool = none := by
      rw [List.find?_eq_none]
      intro other inside
      rw [Attribute.isTool, first other inside]
      decide
    rw [attached, List.find?_append, others, Option.none_or, List.find?_cons_of_pos]
    rw [Attribute.isTool, tagged]
    decide
  cases listed
  unfold Member.marking?
  dsimp only
  rw [find?_markingsOf, found, Option.bind_some]

end Listing

theorem expandOn_tool {item : List Tree} {property : Declaration}
    (read : read? Grammar.declaration item = some property) (tokens : List Tree) :
    expandOn .tool tokens item =
      (parseMarking ⟨.tool, false⟩ tokens >>= fun marking => expandTool marking property) := by
  have kind : Target.classify item = .property property := by rw [Target.classify, read]
  unfold expandOn
  rw [kind]

/-- **The name of a tool.** Take a declaration among the members of a block whose only attribute of
the vocabulary marks a tool. It is among the tools that the outline of the block lists exactly when
it is a property. If expanding the attribute for the code that it is taken off succeeds, the
accessor gives the tool the name that the outline has for it; and if it fails for a property, the
outline names the tool after the property. -/
theorem accessor_names_listed_tool {block : ImplBlock} {code tokens : List Tree}
    {declaration : Declaration} {before after : List Attribute} {attr : Attribute}
    (inside : .declaration declaration ∈ block.members)
    (written : read? Grammar.declaration code = some declaration)
    (attached : declaration.attrs = before ++ attr :: after)
    (only : ∀ other ∈ before ++ after, Tag.ofPath? other.path = none)
    (tagged : Tag.ofPath? attr.path = some .tool)
    (handed : attr.arguments.handed? = some tokens) :
    ∃ member marking, Member.ofImplMember? (.declaration declaration) = some member ∧
      member.marking? .tool = some marking ∧
      ((member, marking) ∈ (Outline.ofBlock block).tagged .tool ↔ declaration.isProperty = true) ∧
      (∀ expansion, expandOn .tool tokens (withoutAttribute before.length code) = .ok expansion →
        ∃ accessor tool, expansion.accessor? = some accessor ∧
          accessor.constructedName? = some tool ∧
          stringValue? (toolName member marking) = some tool) ∧
      (declaration.isProperty = true → ∀ problem,
        expandOn .tool tokens (withoutAttribute before.length code) = .error problem →
        toolName member marking = Text.literal declaration.sig.ident.name ∧
          stringValue? (toolName member marking) = some declaration.sig.ident.name) := by
  obtain ⟨member, listed⟩ : ∃ member,
      Member.ofImplMember? (.declaration declaration) = some member := ⟨_, rfl⟩
  have same : member.ident = declaration.sig.ident := by
    cases listed
    rfl
  obtain ⟨marking, taken, reading⟩ := marking?_of_handed tagged handed
  have marked : member.marking? .tool = some marking := by
    rw [← taken]
    refine marking?_of_attached listed attached (fun other earlier => ?_) tagged
    exact only other (List.mem_append_left _ earlier)
  have rest := read?_withoutAttribute written attached
  refine ⟨member, marking, listed, marked, mem_tagged_iff listed inside marked, ?_, ?_⟩
  · intro expansion expanded
    rw [expandOn_tool rest] at expanded
    obtain ⟨other, read, expanded⟩ := bind_eq_ok.mp expanded
    rcases reading with found | ⟨⟨problem, failed⟩, _⟩
    · cases found.symm.trans read
      refine constructedName?_of_expandTool ?_ expanded
      exact same
    · rw [failed] at read
      cases read
  · intro stands problem failed
    have named : toolName member marking = Text.literal member.name := by
      rcases reading with found | ⟨_, rfl⟩
      · rw [expandOn_tool rest, found] at failed
        refine toolName_of_expandTool_error ?_ ?_ failed
        · exact same
        · exact stands
      · -- The description is required, so that a marking without arguments does not resolve.
        rfl
    rw [named, stringValue?_literal, Member.name, same]
    exact ⟨rfl, rfl⟩

/-- The arguments of a tool that is named by a raw literal. -/
def namedByRaw : List Tree :=
  [name "name"] ++ op "=" ++ [.literal "r\"echo\""] ++ op "," ++
    [name "description"] ++ op "=" ++ [.literal "\"s\""]

/-- A property with a raw name, marked as a tool after another attribute. -/
def annotatedCode : List Tree :=
  op "#" ++ [bracket [name "inline"]] ++ op "#" ++ [bracket [name "tool", paren namedByRaw]] ++
    [name "fn", .ident ⟨true, "type"⟩, paren (op "&" ++ [name "self"])] ++ op "->" ++
    [name "Tool"] ++ op ";"

/-- The declaration that the code reads as. -/
def annotated : Declaration where
  attrs := [⟨false, ⟨false, [⟨false, "inline"⟩]⟩, .none⟩,
    ⟨false, ⟨false, [⟨false, "tool"⟩]⟩, .list .paren namedByRaw⟩]
  sig :=
    { ident := ⟨true, "type"⟩
      inputs := [⟨[], true, op "&" ++ [name "self"], false⟩]
      output := some [name "Tool"] }

theorem read_annotatedCode : read? Grammar.declaration annotatedCode = some annotated := by
  cbv

def annotatedKit : ImplBlock where
  selfType := .ofTrees (.path ⟨false, "Kit"⟩ false true) [name "Kit"]
  members := [.declaration annotated]

/-- Its tool is listed and named as its accessor names it, though not after the property. -/
theorem accessor_names_listed_tool_of_annotated :
    read? Grammar.declaration annotatedCode = some annotated ∧
      ∃ member marking expansion accessor,
        (member, marking) ∈ (Outline.ofBlock annotatedKit).tagged .tool ∧
        expandOn .tool namedByRaw (withoutAttribute 1 annotatedCode) = .ok expansion ∧
        expansion.accessor? = some accessor ∧ accessor.constructedName? = some "echo" ∧
        stringValue? (toolName member marking) = some "echo" := by
  have succeeds : (expandOn .tool namedByRaw (withoutAttribute 1 annotatedCode)).toOption.map
      (fun expansion => expansion.accessor?.bind Function.constructedName?) =
        some (some "echo") := by decide +kernel
  have inside : ImplMember.declaration annotated ∈ annotatedKit.members := List.mem_cons_self
  have attached : annotated.attrs = [⟨false, ⟨false, [⟨false, "inline"⟩]⟩, .none⟩] ++
      ⟨false, ⟨false, [⟨false, "tool"⟩]⟩, .list .paren namedByRaw⟩ :: [] := rfl
  obtain ⟨member, marking, _, _, listed, names, _⟩ :=
    accessor_names_listed_tool inside read_annotatedCode attached (by decide) rfl rfl
  cases expanded : expandOn .tool namedByRaw (withoutAttribute 1 annotatedCode) with
  | error problem =>
      rw [expanded] at succeeds
      cases succeeds
  | ok expansion =>
      obtain ⟨accessor, tool, made, constructed, named⟩ := names expansion expanded
      have same : tool = "echo" := by
        rw [expanded] at succeeds
        change some (expansion.accessor?.bind _) = _ at succeeds
        rw [made, Option.bind_some, constructed] at succeeds
        exact Option.some.inj (Option.some.inj succeeds)
      subst same
      exact ⟨read_annotatedCode, member, marking, expansion, accessor, listed.mpr rfl, rfl, made,
        constructed, named⟩

end Toolsmith
