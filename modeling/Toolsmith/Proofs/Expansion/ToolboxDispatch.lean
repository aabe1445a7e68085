import Mathlib
import Toolsmith.Proofs.Expansion.NestedTool
import Toolsmith.Proofs.Expansion.Repetition
import Toolsmith.Proofs.Expansion.Routines

/-! # What a toolbox lists and what it dispatches

The generated toolbox lists the accessors of its tools, each of which names its tool when it is
expanded, and chooses among the names that the outline of the block gives them. Both are the same
names in the same order (`givenName?_of_tagged`), without repetition (`nodup_tool_names`), so that a
call by name runs the tool that is listed under it (`result?_of_tagged`, `call_of_tagged`).
-/

namespace Toolsmith

open Source

/-- Where keys are not repeated, the first item with a key is the item with it. -/
theorem find?_of_nodup_filterMap {α β : Type} [DecidableEq β] {key : α → Option β} {items : List α}
    (distinct : (items.filterMap key).Nodup) {item : α} (inside : item ∈ items) {value : β}
    (keyed : key item = some value) : items.find? (fun other => key other == some value) =
      some item := by
  induction items with
  | nil => cases inside
  | cons first rest ih =>
      by_cases same : key first = some value
      · rw [List.filterMap_cons_some same, List.nodup_cons] at distinct
        rcases List.mem_cons.mp inside with rfl | later
        · rw [List.find?_cons_of_pos (by simp [same])]
        · exact absurd (List.mem_filterMap.mpr ⟨item, later, keyed⟩) distinct.1
      · rcases List.mem_cons.mp inside with rfl | later
        · exact absurd keyed same
        · rw [List.find?_cons_of_neg (by simpa using same)]
          refine ih (distinct.sublist ?_) later
          exact List.Sublist.filterMap key (List.sublist_cons_self first rest)

theorem eq_of_nodup_filterMap {α β : Type} [DecidableEq β] {key : α → Option β} {items : List α}
    (distinct : (items.filterMap key).Nodup) {one other : α} (first : one ∈ items)
    (second : other ∈ items) {value : β} (keyed : key one = some value)
    (same : key other = some value) : one = other :=
  Option.some.inj ((find?_of_nodup_filterMap distinct first keyed).symm.trans
    (find?_of_nodup_filterMap distinct second same))

/-- No tool name is found to repeat one seen before exactly when there is no repetition. -/
theorem repeatedTool?_eq_none {seen names : List String} :
    Outline.repeatedTool? seen names = none ↔ names.Nodup ∧ ∀ name ∈ names, name ∉ seen := by
  induction names generalizing seen with
  | nil => simp [Outline.repeatedTool?]
  | cons name rest ih =>
      by_cases known : name ∈ seen
      · simp [Outline.repeatedTool?, known]
      · simp only [Outline.repeatedTool?, List.contains_iff_mem, known, ↓reduceIte, ih,
          List.nodup_cons, List.mem_cons, forall_eq_or_imp, not_or, not_false_eq_true, true_and]
        constructor
        · rintro ⟨distinct, fresh⟩
          exact ⟨⟨fun inside => (fresh name inside).1 rfl, distinct⟩,
            fun other inside => (fresh other inside).2⟩
        · rintro ⟨⟨absent, distinct⟩, fresh⟩
          exact ⟨distinct, fun other inside =>
            ⟨fun same => absent (same ▸ inside), fresh other inside⟩⟩

namespace Source

/-- The name of a function of a block, without a raw mark. -/
def ImplMember.name? : ImplMember → Option String
  | .function item => some item.sig.ident.name
  | .declaration item => some item.sig.ident.name
  | .other _ => none

/-- The name that a member gives to a tool once it is expanded. -/
def ImplMember.nestedName? : ImplMember → Option String
  | .declaration item => item.nestedName?
  | _ => none

/-- The name given to a tool by what a call inside a block refers to. -/
def ImplBlock.givenName? (block : ImplBlock) (callee : String) : Option String :=
  (block.members.find? (·.name? == some callee)).bind ImplMember.nestedName?

theorem ImplMember.name?_eq (member : ImplMember) :
    member.name? = (Member.ofImplMember? member).map Member.name := by
  cases member with
  | _ => rfl

/-- The names of the functions of a block are those that its outline lists. -/
theorem ImplBlock.filterMap_name? (block : ImplBlock) :
    block.members.filterMap ImplMember.name? = (Outline.ofBlock block).members.map Member.name := by
  unfold Outline.ofBlock
  rw [List.map_filterMap]
  congr 1
  funext member
  exact member.name?_eq

end Source

/-- A declaration is marked as a tool when the outline finds a tool marking. -/
theorem isSome_marking?_tool {declaration : Declaration} {member : Member}
    (listed : Member.ofImplMember? (.declaration declaration) = some member) :
    (member.marking? .tool).isSome = declaration.attrs.any Attribute.isTool := by
  cases listed
  simp only [Member.marking?, find?_markingsOf]
  cases first : declaration.attrs.find? Attribute.isTool with
  | none =>
      have unmarked : declaration.attrs.any Attribute.isTool = false := by
        rw [List.any_eq_false]
        exact List.find?_eq_none.mp first
      rw [unmarked]
      rfl
  | some attr =>
      have marked := List.find?_some first
      have taken := attr.any_marking?
      rw [marked] at taken
      have found : declaration.attrs.any Attribute.isTool = true :=
        List.any_eq_true.mpr ⟨attr, List.mem_of_find?_eq_some first, marked⟩
      rw [Option.bind_some, found]
      cases made : attr.marking? with
      | none => simp [made] at taken
      | some marking => rfl

/-- The tools of an outline come from the declarations marked as tools. -/
theorem exists_declaration_of_tagged {block : ImplBlock} {property : Member} {marking : Marking}
    (tagged : (property, marking) ∈ (Outline.ofBlock block).tagged .tool) :
    ∃ declaration, ImplMember.declaration declaration ∈ block.members ∧ declaration.isTool ∧
      Member.ofImplMember? (.declaration declaration) = some property ∧
      property.marking? .tool = some marking := by
  obtain ⟨member, stands, marked⟩ := List.mem_filterMap.mp tagged
  obtain ⟨inside, kind⟩ := List.mem_filter.mp stands
  obtain ⟨_, found, same⟩ := Option.map_eq_some_iff.mp marked
  obtain ⟨rfl, rfl⟩ := Prod.mk.inj same
  obtain ⟨item, own, listed⟩ := List.mem_filterMap.mp inside
  cases item with
  | function item =>
      cases listed
      simp at kind
  | declaration declaration =>
      have marks := isSome_marking?_tool listed
      rw [found, Option.isSome_some] at marks
      have property : declaration.isProperty = true := by
        cases listed
        by_cases stands : declaration.isProperty
        · exact stands
        · simp [stands] at kind
      refine ⟨declaration, own, ?_, listed, found⟩
      simp only [Declaration.isTool, property, ← marks, Bool.and_self]
  | other code => cases listed

/-- A declaration marked as a tool is among the tools of the outline. -/
theorem exists_tagged_of_declaration {block : ImplBlock} {declaration : Declaration}
    (inside : ImplMember.declaration declaration ∈ block.members) (marked : declaration.isTool) :
    ∃ property marking, Member.ofImplMember? (.declaration declaration) = some property ∧
      (property, marking) ∈ (Outline.ofBlock block).tagged .tool := by
  obtain ⟨stands, tagged⟩ := Bool.and_eq_true_iff.mp marked
  obtain ⟨property, listed⟩ : ∃ property,
      Member.ofImplMember? (.declaration declaration) = some property := ⟨_, rfl⟩
  have found := isSome_marking?_tool listed
  rw [tagged] at found
  obtain ⟨marking, found⟩ := Option.isSome_iff_exists.mp found
  have kind : (property.kind == .property) = true := by
    cases listed
    simp [stands]
  refine ⟨property, marking, listed, List.mem_filterMap.mpr ⟨property, ?_, ?_⟩⟩
  · exact List.mem_filter.mpr ⟨List.mem_filterMap.mpr ⟨_, inside, listed⟩, kind⟩
  · rw [found, Option.map_some]

/-- The members under a tag are members of the outline, in their order. -/
theorem tagged_sublist (outline : Outline) (tag : Tag) :
    (outline.tagged tag).map Prod.fst |>.Sublist outline.members := by
  refine List.Sublist.trans ?_ (List.filter_sublist (p := fun member => member.kind == .property))
  unfold Outline.tagged
  induction outline.members.filter (·.kind == .property) with
  | nil => exact List.Sublist.refl _
  | cons member rest ih =>
      cases found : member.marking? tag with
      | none =>
          rw [List.filterMap_cons_none (by rw [found]; rfl)]
          exact ih.cons member
      | some marking =>
          rw [List.filterMap_cons_some (by rw [found]; rfl)]
          exact ih.cons_cons member

theorem nodup_tagged_names {outline : Outline} (distinct : (outline.members.map Member.name).Nodup)
    (tag : Tag) : ((outline.tagged tag).filterMap fun entry => some entry.1.name).Nodup := by
  have names : ((outline.tagged tag).filterMap fun entry => some entry.1.name) =
      ((outline.tagged tag).map Prod.fst).map Member.name := by
    rw [List.map_map, List.filterMap_eq_map']
    rfl
  rw [names]
  exact distinct.sublist ((tagged_sublist outline tag).map Member.name)

/-- Whether a function with a body has this name. -/
def Outline.defines (outline : Outline) (function : String) : Bool :=
  outline.members.any fun member => member.kind == .function true && member.name == function

/-- The handler bound to a property is the function with a body that has the name of its
handler. -/
theorem handler_of_candidates (outline : Outline) (property : Member) :
    match outline.candidateHandlers.find? (·.name == Binding.handlerName property) with
    | some handler => handler.name = property.name ++ "_handler" ∧
        outline.defines (property.name ++ "_handler") = true
    | none => outline.defines (property.name ++ "_handler") = false := by
  -- Handlers are looked for among the functions named as such, which loses none of this name.
  have ends : (Binding.handlerName property).endsWith Outline.handlerSuffix = true := by
    simp only [String.endsWith, String.Slice.endsWith_string_iff, String.copy_toSlice,
      Binding.handlerName, String.toList_append]
    exact List.suffix_append _ _
  unfold Outline.candidateHandlers
  rw [List.find?_filter]
  split
  · rename_i handler found
    have fits := List.find?_some found
    have inside := List.mem_of_find?_eq_some found
    simp only [Bool.and_eq_true, decide_eq_true_eq, beq_iff_eq] at fits
    refine ⟨fits.2, List.any_eq_true.mpr ⟨handler, inside, ?_⟩⟩
    simp only [Bool.and_eq_true, beq_iff_eq]
    exact ⟨fits.1.1, fits.2⟩
  · rename_i missing
    refine List.any_eq_false.mpr fun member inside fits => ?_
    simp only [Bool.and_eq_true, beq_iff_eq] at fits
    have named : member.name = Binding.handlerName property := fits.2
    have refused := List.find?_eq_none.mp missing member inside
    simp only [fits.1, named, ends, BEq.rfl, Bool.and_self, and_self, decide_true,
      not_true_eq_false] at refused

/-- What running the tool of a property comes to: the function of the block that runs it, else the
function with a body that handles it, else a text that names the tool and its arguments. -/
def Program.runTool (program : Program) (outline : Outline) (property tool : String) : Handler :=
  if outline.declares ("execute_" ++ property) then program.handler ("execute_" ++ property)
  else if outline.defines (property ++ "_handler") then program.handler (property ++ "_handler")
  else fun arguments => .ok [.text (placeholderText tool arguments)]

/-- The binding of a tool property. -/
def Outline.binding (outline : Outline) (entry : Member × Marking) : Binding where
  property := entry.1
  name := toolName entry.1 entry.2
  handler := outline.candidateHandlers.find? (·.name == Binding.handlerName entry.1)

theorem Outline.bindings_eq (outline : Outline) :
    outline.bindings = (outline.tagged .tool).map outline.binding := rfl

/-- The conditions under which a block expands as a toolbox with the literals that name and describe
it. -/
structure CollectsAs (marking : Marking) (block : ImplBlock) (toolbox description : String) :
    Prop where
  inherent : block.trait = none
  arguments : ∃ resolved, Schema.toolbox.resolve marking.arguments = .ok resolved ∧
    resolved.requiredString "name" = .ok toolbox ∧
    resolved.requiredString "description" = .ok description
  unique : (Outline.ofBlock block).checkUniqueTools = .ok ()
  synchronous : checkSynchronous (Outline.ofBlock block) marking.site = .ok ()
  clear : block.parameterProblem? = none

/-- The functions added to a block that expands as a toolbox. -/
def addedToToolbox (block : ImplBlock) : List Generated :=
  let outline := Outline.ofBlock block
  admitted outline (outline.bindings.map executionOf)

/-- The implementation of the toolbox interface by some functions. -/
def toolboxBlock (block : ImplBlock) (functions : List Generated) : ImplBlock :=
  beside block (some (runtimePath ["Toolbox"])) functions

/-- **What expanding a toolbox does.** -/
theorem expandToolbox_eq_ok {marking : Marking} {block : ImplBlock} {expansion : Expansion} :
    expandToolbox marking block = .ok expansion ↔
      ∃ toolbox description, CollectsAs marking block toolbox description ∧
        expansion = ({ host := .block (emitted block (addedToToolbox block)) : Expansion }.adding
          .memberSet ((addedToToolbox block).map fun item => .function item.function)).adding
          .conformance [.block (toolboxBlock block
            (conformanceFunctions (Outline.ofBlock block) toolbox description))] := by
  unfold expandToolbox liftArguments
  simp only [bind_eq_ok, mapError_eq_ok, ImplBlock.prepared_eq_ok]
  constructor
  · rintro ⟨⟨⟩, inherent, resolved, arguments, toolbox, named, description, described, ⟨⟩, unique,
      ⟨⟩, synchronous, prepared, ⟨clear, rfl⟩, result⟩
    exact ⟨toolbox, description, ⟨checkInherent_eq_ok.mp inherent,
      ⟨resolved, arguments, named, described⟩, unique, synchronous, clear⟩,
      (Except.ok.inj result).symm⟩
  · rintro ⟨toolbox, description, collects, rfl⟩
    obtain ⟨resolved, arguments, named, described⟩ := collects.arguments
    exact ⟨(), checkInherent_eq_ok.mpr collects.inherent, resolved, arguments, toolbox, named,
      description, described, (), collects.unique, (), collects.synchronous, _,
      ⟨collects.clear, rfl⟩, rfl⟩

/-- A declaration of the block is a tool property whose accessor gives its tool this name. -/
def Source.ImplBlock.NamesTool (block : ImplBlock) (declaration : Declaration) (tool : String) :
    Prop :=
  ImplMember.declaration declaration ∈ block.members ∧ declaration.isTool ∧
    declaration.nestedName? = some tool

/-- The functions added to a block are no declarations. -/
theorem mem_stripped_of_emitted {block : ImplBlock} {functions : List Generated}
    {declaration : Declaration}
    (inside : ImplMember.declaration declaration ∈ (emitted block functions).members) :
    ImplMember.declaration declaration ∈ block.stripped.members := by
  rcases List.mem_append.mp inside with before | added
  · exact before
  · obtain ⟨generated, _, made⟩ := List.mem_map.mp added
    cases made

theorem nodup_stripped_names {block : ImplBlock}
    (distinct : ((Outline.ofBlock block).members.map Member.name).Nodup) :
    (block.stripped.members.filterMap ImplMember.name?).Nodup := by
  rw [block.stripped.filterMap_name?, Outline.ofBlock_stripped]
  exact distinct

/-- A call of a declared function refers to it also after functions were added. -/
theorem givenName?_emitted {block : ImplBlock} {functions : List Generated}
    {declaration : Declaration}
    (distinct : ((Outline.ofBlock block).members.map Member.name).Nodup)
    (inside : ImplMember.declaration declaration ∈ (emitted block functions).members) :
    (emitted block functions).givenName? declaration.sig.ident.name = declaration.nestedName? := by
  have found := find?_of_nodup_filterMap (nodup_stripped_names distinct)
    (mem_stripped_of_emitted inside) rfl
  unfold ImplBlock.givenName? emitted withFunctions
  rw [List.find?_append, found]
  rfl

/-- Where every tool has a name, the names are those of the outline. -/
theorem nodup_tool_names {outline : Outline} (unique : outline.checkUniqueTools = .ok ())
    (valued : ∀ entry ∈ outline.tagged .tool, (stringValue? (toolName entry.1 entry.2)).isSome) :
    ∃ names : List String, names.Nodup ∧
      ((outline.tagged .tool).map fun entry => stringValue? (toolName entry.1 entry.2)) =
        names.map some := by
  rw [checkUniqueTools_eq_ok, toolValues_eq, repeatedTool?_eq_none] at unique
  refine ⟨_, unique.1, ?_⟩
  rw [List.map_map]
  refine List.map_congr_left fun entry inside => ?_
  obtain ⟨value, named⟩ := Option.isSome_iff_exists.mp (valued entry inside)
  simp only [Function.comp_apply, named, Option.getD_some]

/-- A tool property of an outline and the declaration it was listed from, whose accessor gives the
tool the name that the outline has for it. -/
structure ListedFrom (entry : Member × Marking) (declaration : Declaration) : Prop where
  ident : entry.1.ident = declaration.sig.ident
  named : declaration.nestedName? = stringValue? (toolName entry.1 entry.2)
  valued : (stringValue? (toolName entry.1 entry.2)).isSome

/-- A tool whose nested attribute expands is listed under the name that the accessor has. -/
theorem ListedFrom.of_expands {property : Member} {marking : Marking} {declaration : Declaration}
    (listed : Member.ofImplMember? (.declaration declaration) = some property)
    (found : property.marking? .tool = some marking) (expands : declaration.expands) :
    ListedFrom (property, marking) declaration := by
  obtain ⟨first, same, named, valued⟩ := Declaration.nestedName?_eq listed expands
  obtain rfl := Option.some.inj (found.symm.trans same)
  refine ⟨?_, named, valued⟩
  cases listed
  rfl

section Agreement

variable {block : ImplBlock} {functions : List Generated}
  (accessible : ∀ declaration, .declaration declaration ∈ (emitted block functions).members →
    declaration.isTool → declaration.expands)

include accessible

/-- Every tool that the outline lists is declared in the block left behind. -/
theorem exists_listedFrom_of_tagged {entry : Member × Marking}
    (tagged : entry ∈ (Outline.ofBlock block).tagged .tool) :
    ∃ declaration, .declaration declaration ∈ (emitted block functions).members ∧
      declaration.isTool ∧ ListedFrom entry declaration := by
  rw [← tagged_emitted block functions] at tagged
  obtain ⟨declaration, inside, marked, listed, found⟩ := exists_declaration_of_tagged tagged
  exact ⟨declaration, inside, marked,
    .of_expands listed found (accessible declaration inside marked)⟩

/-- Every tool declared in the block left behind is listed by the outline. -/
theorem exists_listedFrom_of_declaration {declaration : Declaration}
    (inside : .declaration declaration ∈ (emitted block functions).members)
    (marked : declaration.isTool) :
    ∃ entry ∈ (Outline.ofBlock block).tagged .tool, ListedFrom entry declaration := by
  obtain ⟨property, marking, listed, tagged⟩ := exists_tagged_of_declaration inside marked
  obtain ⟨_, _, _, _, found⟩ := exists_declaration_of_tagged tagged
  rw [tagged_emitted] at tagged
  exact ⟨(property, marking), tagged,
    .of_expands listed found (accessible declaration inside marked)⟩

/-- The accessors that are listed name the tools as the outline does. -/
theorem givenName?_of_tagged
    (distinct : ((Outline.ofBlock block).members.map Member.name).Nodup)
    {entry : Member × Marking} (tagged : entry ∈ (Outline.ofBlock block).tagged .tool) :
    (emitted block functions).givenName? entry.1.name =
      stringValue? (toolName entry.1 entry.2) := by
  obtain ⟨declaration, inside, _, listed⟩ := exists_listedFrom_of_tagged accessible tagged
  rw [Member.name, listed.ident, givenName?_emitted distinct inside, listed.named]

/-- A name that is not repeated belongs to one tool property. -/
theorem eq_of_namesTool (distinct : ((Outline.ofBlock block).members.map Member.name).Nodup)
    (unrepeated : (((Outline.ofBlock block).tagged .tool).filterMap fun entry =>
      stringValue? (toolName entry.1 entry.2)).Nodup)
    {one other : Declaration} {tool : String}
    (first : (emitted block functions).NamesTool one tool)
    (second : (emitted block functions).NamesTool other tool) : other = one := by
  obtain ⟨inside, marked, named⟩ := first
  obtain ⟨within, tagged, called⟩ := second
  obtain ⟨entry, among, listed⟩ := exists_listedFrom_of_declaration accessible inside marked
  obtain ⟨another, present, recorded⟩ := exists_listedFrom_of_declaration accessible within tagged
  -- One name belongs to one entry, and the name of that property to one declaration.
  have same : entry = another := eq_of_nodup_filterMap unrepeated among present
    (listed.named ▸ named) (recorded.named ▸ called)
  have ident : one.sig.ident = other.sig.ident := by rw [← listed.ident, same, recorded.ident]
  have equal := eq_of_nodup_filterMap (nodup_stripped_names distinct)
    (mem_stripped_of_emitted within) (mem_stripped_of_emitted inside) rfl
    (by rw [ImplMember.name?, ident])
  exact ImplMember.declaration.inj equal

end Agreement

/-- The arms of the generated dispatch: the literal that names each tool, with its property. -/
def Outline.arms (outline : Outline) : List (String × String) :=
  (outline.tagged .tool).map fun entry => (toolName entry.1 entry.2, entry.1.name)

/-- The calls by which the generated toolbox lists its tools. -/
def Outline.accessors (outline : Outline) : List Call :=
  (outline.tagged .tool).map fun entry => callOf entry.1

theorem Outline.map_bindings (outline : Outline) :
    outline.bindings.map (fun binding => (binding.name, binding.property.name)) =
      outline.arms := by
  rw [Outline.bindings_eq, List.map_map]
  rfl

/-- The functions of a toolbox that does not leave listing and dispatch to the block. -/
theorem conformanceFunctions_eq {outline : Outline} (toolbox description : String)
    (unlisted : outline.function? "get_tools" = none)
    (undispatched : outline.function? "handle_tool_call" = none) :
    conformanceFunctions outline toolbox description =
      [.toolboxInfo (delegateTo? outline "get_toolbox_info") toolbox description,
        .toolboxTools none outline.accessors,
        .toolboxDispatch none outline.arms
          (outline.bindings.isEmpty && !outline.declares "handle_tool_call")] := by
  simp only [conformanceFunctions, delegateTo?, unlisted, undispatched, Option.map_none,
    Outline.map_bindings]
  rfl

/-- The arm of a name that is not repeated is chosen for it. -/
theorem find?_arm_of_tagged {outline : Outline}
    (unrepeated : ((outline.tagged .tool).filterMap fun entry =>
      stringValue? (toolName entry.1 entry.2)).Nodup)
    {entry : Member × Marking} (tagged : entry ∈ outline.tagged .tool) {tool : String}
    (valued : stringValue? (toolName entry.1 entry.2) = some tool) :
    outline.arms.find? (fun arm => stringValue? arm.1 == some tool) =
      some (toolName entry.1 entry.2, entry.1.name) := by
  unfold Outline.arms
  rw [List.find?_map]
  exact congrArg (Option.map _) (find?_of_nodup_filterMap unrepeated tagged valued)

theorem find?_arm_of_absent {outline : Outline} {tool : String}
    (absent : ∀ entry ∈ outline.tagged .tool,
      stringValue? (toolName entry.1 entry.2) ≠ some tool) :
    outline.arms.find? (fun arm => stringValue? arm.1 == some tool) = none := by
  rw [List.find?_eq_none]
  intro arm inside
  obtain ⟨entry, tagged, rfl⟩ := List.mem_map.mp inside
  simpa using absent entry tagged

/-! ### Running the functions of a block -/

theorem sig_function (generated : Generated) :
    generated.function.sig.ident.name = generated.functionName := by
  cases generated with
  | toolboxDispatch delegate arms idle => cases idle <;> rfl
  | _ => rfl

/-- A made function is found under its name. -/
theorem named?_map_function (made : List Generated) (name : String) :
    Function.named? (made.map Generated.function) name =
      (made.find? (·.functionName == name)).map Generated.function := by
  rw [Function.named?, List.find?_map]
  congr 2
  funext generated
  exact congrArg (· == name) (sig_function generated)

theorem ImplBlock.functions_beside (block : ImplBlock) (trait : Option (List Tree))
    (made : List Generated) :
    (beside block trait made).functions = made.map Generated.function := by
  unfold ImplBlock.functions beside
  rw [List.filterMap_map, ← List.filterMap_eq_map]
  rfl

theorem declares_of_mem {outline : Outline} {member : Member} (inside : member ∈ outline.members) :
    outline.declares member.name = true :=
  List.any_eq_true.mpr ⟨member, inside, beq_iff_eq.mpr rfl⟩

theorem declares_of_tagged {outline : Outline} {entry : Member × Marking}
    (tagged : entry ∈ outline.tagged .tool) : outline.declares entry.1.name = true :=
  declares_of_mem ((tagged_sublist outline .tool).subset (List.mem_map_of_mem tagged))

namespace Program

variable (program : Program) {outline : Outline}

theorem call_of_declared {function : String} (declared : outline.declares function = true)
    (made : List Function) (arguments : List Value) :
    (program.scope outline made).call function arguments =
      (program.ownScope outline).call function arguments := by
  simp only [scope, declared, ↓reduceIte]

/-- Calling a tool property gives the tool that it describes. -/
theorem call_accessor {entry : Member × Marking} (tagged : entry ∈ outline.tagged .tool) :
    (program.ownScope outline).call entry.1.name [] =
      some (.tool (program.accessor entry.1.name)) := by
  obtain ⟨member, stands, marked⟩ := List.mem_filterMap.mp tagged
  obtain ⟨inside, kind⟩ := List.mem_filter.mp stands
  obtain ⟨_, _, rfl⟩ := Option.map_eq_some_iff.mp marked
  have listed : (outline.members.any fun other =>
      other.kind == .property && other.name == member.name) = true :=
    List.any_eq_true.mpr ⟨member, inside, by simp [kind]⟩
  simp only [ownScope, declares_of_mem inside, own, listed, ↓reduceIte]

theorem call_handler {function : String} (declared : outline.declares function = true)
    (arguments : Arguments) :
    (program.ownScope outline).call function [.arguments arguments] =
      Value.ofOutcome (program.handler function arguments) := by
  simp only [ownScope, declared, ↓reduceIte]
  rfl

end Program

/-- What the function that was made for a tool comes to: the handler that the block defines for it,
or else the text that stands for one. -/
theorem result?_executionOf (program : Program) {outline : Outline} {entry : Member × Marking}
    {tool : String} (valued : stringValue? (toolName entry.1 entry.2) = some tool)
    (undeclared : outline.declares ("execute_" ++ entry.1.name) = false)
    (arguments : Arguments) :
    (executionOf (outline.binding entry)).function.result? (program.ownScope outline)
        [.self, .arguments arguments] =
      Value.ofOutcome (program.runTool outline entry.1.name tool arguments) := by
  have bound := handler_of_candidates outline entry.1
  unfold Program.runTool executionOf Outline.binding Binding.execution
  simp only [undeclared, Bool.false_eq_true, ↓reduceIte]
  cases found : outline.candidateHandlers.find? (·.name == Binding.handlerName entry.1) with
  | none =>
      simp only [found] at bound
      simp only [bound, Bool.false_eq_true, ↓reduceIte]
      exact result?_execute_placeholder _ _ valued arguments
  | some handler =>
      simp only [found] at bound
      have inside := (List.mem_filter.mp (List.mem_of_find?_eq_some found)).1
      have ran := program.call_handler (declares_of_mem inside) arguments
      simp only [bound.2, ↓reduceIte]
      rw [result?_execute_handler, ← bound.1]
      exact ran

/-- The functions of the block left behind: those of the block, and the ones that were made. -/
theorem functions_emitted (block : ImplBlock) (functions : List Generated) :
    (emitted block functions).functions =
      block.stripped.functions ++ functions.map Generated.function := by
  unfold ImplBlock.functions emitted withFunctions
  rw [List.filterMap_append, List.filterMap_map, ← List.filterMap_eq_map]
  rfl

theorem declares_of_mem_functions {block : ImplBlock} {item : Function}
    (inside : item ∈ block.functions) :
    (Outline.ofBlock block).declares item.sig.ident.name = true := by
  obtain ⟨member, among, same⟩ := List.mem_filterMap.mp inside
  cases member with
  | function other =>
      cases same
      obtain ⟨listed, made, named⟩ : ∃ listed, Member.ofImplMember? (.function item) =
          some listed ∧ listed.name = item.sig.ident.name := ⟨_, rfl, rfl⟩
      rw [← named]
      exact declares_of_mem (List.mem_filterMap.mpr ⟨_, among, made⟩)
  | declaration other => cases same
  | other code => cases same

/-- A function that was made for a tool is found under its name. -/
theorem named?_executionOf {block : ImplBlock}
    (distinct : ((Outline.ofBlock block).members.map Member.name).Nodup)
    {entry : Member × Marking} (tagged : entry ∈ (Outline.ofBlock block).tagged .tool)
    (undeclared : (Outline.ofBlock block).declares ("execute_" ++ entry.1.name) = false) :
    Function.named? (emitted block (addedToToolbox block)).functions ("execute_" ++ entry.1.name) =
      some (executionOf ((Outline.ofBlock block).binding entry)).function := by
  have absent : block.stripped.functions.find? (fun item =>
      item.sig.ident.name == "execute_" ++ entry.1.name) = none := by
    rw [List.find?_eq_none]
    intro item inside same
    have declared := declares_of_mem_functions inside
    rw [Outline.ofBlock_stripped, beq_iff_eq.mp same] at declared
    change (Outline.ofBlock block).declares _ = true at declared
    rw [undeclared] at declared
    cases declared
  have names : ((addedToToolbox block).map Generated.function).map (fun item =>
      item.sig.ident.name) = (addedToToolbox block).map Generated.functionName := by
    rw [List.map_map]
    exact List.map_congr_left fun generated _ => sig_function generated
  have unrepeated : (((addedToToolbox block).map Generated.function).filterMap fun item =>
      some item.sig.ident.name).Nodup := by
    rw [List.filterMap_eq_map', names]
    have listed := nodup_tagged_names distinct .tool
    rw [List.filterMap_eq_map'] at listed
    have executions : ((Outline.ofBlock block).bindings.map executionOf).map
        Generated.functionName = (((Outline.ofBlock block).tagged .tool).map fun entry =>
          entry.1.name).map ("execute_" ++ ·) := by
      rw [Outline.bindings_eq, List.map_map, List.map_map, List.map_map]
      rfl
    refine List.Nodup.sublist (List.filter_sublist.map _) ?_
    rw [executions]
    exact listed.map fun first second same => String.append_right_inj _ |>.mp same
  have made : (executionOf ((Outline.ofBlock block).binding entry)).function ∈
      (addedToToolbox block).map Generated.function := by
    refine List.mem_map_of_mem (List.mem_filter.mpr ⟨?_, ?_⟩)
    · exact List.mem_map_of_mem (List.mem_map_of_mem tagged)
    · change (!(Outline.ofBlock block).declares ("execute_" ++ entry.1.name)) = true
      rw [undeclared]
      rfl
  have found := find?_of_nodup_filterMap unrepeated made rfl
  simp only [Option.some_beq_some] at found
  rw [Function.named?, functions_emitted, List.find?_append, absent, Option.none_or]
  exact found

/-- **Running a tool.** What runs the tool of a property is the block's own function for it, or else
one that was made: it runs the handler that the block defines, or answers with the text that stands
for one. -/
theorem call_of_tagged (program : Program) {block : ImplBlock}
    (distinct : ((Outline.ofBlock block).members.map Member.name).Nodup)
    {entry : Member × Marking} (tagged : entry ∈ (Outline.ofBlock block).tagged .tool)
    {tool : String} (valued : stringValue? (toolName entry.1 entry.2) = some tool)
    (arguments : Arguments) :
    (program.scope (Outline.ofBlock block) (emitted block (addedToToolbox block)).functions).call
        ("execute_" ++ entry.1.name) [.arguments arguments] =
      Value.ofOutcome (program.runTool (Outline.ofBlock block) entry.1.name tool arguments) := by
  by_cases declared : (Outline.ofBlock block).declares ("execute_" ++ entry.1.name) = true
  · rw [program.call_of_declared declared, program.call_handler declared]
    simp only [Program.runTool, declared, ↓reduceIte]
  · rw [Bool.not_eq_true] at declared
    have found := named?_executionOf distinct tagged declared
    have ran := result?_executionOf program valued declared arguments
    simp only [Program.scope, declared, Bool.false_eq_true, ↓reduceIte, found, Option.bind_eq_bind,
      Option.bind_some]
    exact ran

/-- The printed functions that list the tools and run them by name. -/
theorem named?_toolboxBlock {block : ImplBlock} (toolbox description : String)
    (unlisted : (Outline.ofBlock block).function? "get_tools" = none)
    (undispatched : (Outline.ofBlock block).function? "handle_tool_call" = none) :
    let outline := Outline.ofBlock block
    let conformance := toolboxBlock block (conformanceFunctions outline toolbox description)
    Function.named? conformance.functions "get_tools" =
        some (Generated.toolboxTools none outline.accessors).function ∧
      Function.named? conformance.functions "handle_tool_call" =
        some (Generated.toolboxDispatch none outline.arms
          (outline.bindings.isEmpty && !outline.declares "handle_tool_call")).function := by
  intro outline conformance
  have made : conformance.functions =
      (conformanceFunctions outline toolbox description).map Generated.function :=
    ImplBlock.functions_beside block _ _
  rw [made, conformanceFunctions_eq toolbox description unlisted undispatched,
    named?_map_function, named?_map_function]
  exact ⟨rfl, rfl⟩

theorem nodup_filterMap_of_map_some {α β : Type} {key : α → Option β} {items : List α}
    {keys : List β} (unrepeated : keys.Nodup) (keyed : items.map key = keys.map some) :
    (items.filterMap key).Nodup := by
  have same : items.filterMap key = (items.map key).filterMap id := by
    rw [List.filterMap_map]
    rfl
  rw [same, keyed, List.filterMap_map]
  simpa using unrepeated

/-- The accessors that the generated toolbox calls, in order. -/
def Outline.callees (outline : Outline) : List String :=
  (outline.tagged .tool).map fun entry => entry.1.name

theorem terms_accessors (outline : Outline) :
    outline.accessors.map (Call.term · []) = outline.callees.map (.ownCall · []) := by
  rw [Outline.accessors, Outline.callees, List.map_map, List.map_map]
  refine List.map_congr_left fun entry _ => ?_
  change (callOf entry.1).term [] = _
  unfold callOf
  cases entry.1.receiver <;> rfl

/-- Calling all accessors gives the tools of the program, in the order of the properties. -/
theorem mapM_accessors (program : Program) (outline : Outline) (made : List Function) :
    outline.accessors.mapM (fun accessor =>
      (program.scope outline made).call accessor.callee.name []) =
        some (outline.callees.map fun callee => .tool (program.accessor callee)) := by
  have each (entries : List (Member × Marking)) (among : entries ⊆ outline.tagged .tool) :
      (entries.map fun entry => callOf entry.1).mapM (fun accessor =>
        (program.scope outline made).call accessor.callee.name []) =
          some ((entries.map fun entry => entry.1.name).map fun callee =>
            .tool (program.accessor callee)) := by
    induction entries with
    | nil => rfl
    | cons entry rest ih =>
        rw [List.cons_subset] at among
        have called : (program.scope outline made).call (callOf entry.1).callee.name [] = _ :=
          (program.call_of_declared (declares_of_tagged among.1) made []).trans
            (program.call_accessor among.1)
        rw [List.map_cons, List.mapM_cons, called, ih among.2]
        rfl
  exact each _ (List.Subset.refl _)

/-- The literals of the arms of a choice, in order. -/
def Term.literals : Term → List String
  | .arm _ first _ negative => first :: negative.literals
  | _ => []

theorem literals_dispatchTerm (arms : List (String × String)) :
    (Generated.dispatchTerm arms).literals = arms.map (·.1) := by
  induction arms with
  | nil => rfl
  | cons arm rest ih => exact congrArg (arm.1 :: ·) ih

/-- **Listing and dispatch agree.** Let a block expand as a toolbox, with functions of different
names, none of which lists or runs tools by name, and let the tool properties of the block left
behind expand. Then the printed function that lists the tools calls accessors, and the one that runs
tools by name chooses among literals, such that the accessors give the tools the names that the
literals stand for, in the same order and without repetition. Run with the name of a tool, the
second calls the function of the one property that has it with the same arguments: the block's own
function, or else the printed one beside it, which calls the handler of the property or names the
tool and its arguments. Any other name is not found. -/
theorem toolbox_dispatch {marking : Marking} {block host : ImplBlock} {expansion : Expansion}
    (expanded : expandToolbox marking block = .ok expansion)
    (hosted : expansion.host = .block host)
    (distinct : ((Outline.ofBlock block).members.map Member.name).Nodup)
    (unlisted : (Outline.ofBlock block).function? "get_tools" = none)
    (undispatched : (Outline.ofBlock block).function? "handle_tool_call" = none)
    (accessible : ∀ declaration, .declaration declaration ∈ host.members → declaration.isTool →
      declaration.expands) :
    ∃ conformance lister dispatcher, ∃ (callees names : List String) (choice : Term),
      expansion.declarations.getLast? = some ⟨.conformance, [.block conformance]⟩ ∧
      conformance.trait = some (runtimePath ["Toolbox"]) ∧
      Function.named? conformance.functions "get_tools" = some lister ∧
      Function.named? conformance.functions "handle_tool_call" = some dispatcher ∧
      Routine.read lister.body = some ⟨[], some (.list (callees.map (.ownCall · [])))⟩ ∧
      callees.map host.givenName? = names.map some ∧
      Routine.read dispatcher.body = some ⟨[], some choice⟩ ∧
      choice.literals.map stringValue? = names.map some ∧
      names.Nodup ∧
      ∀ program : Program,
        let outline := Outline.ofBlock block
        let scope := program.scope outline host.functions
        lister.result? scope [.self] =
          some (.list (callees.map fun callee => .tool (program.accessor callee))) ∧
        ∀ (name : String) (arguments : Arguments),
          let result := dispatcher.result? scope [.self, .text name, .arguments arguments]
          (∀ declaration, host.NamesTool declaration name →
            let property := declaration.sig.ident.name
            (∀ other, host.NamesTool other name → other = declaration) ∧
            (outline.declares ("execute_" ++ property) = false →
              (Function.named? host.functions ("execute_" ++ property)).isSome) ∧
            result = scope.call ("execute_" ++ property) [.arguments arguments] ∧
            result = Value.ofOutcome (program.runTool outline property name arguments)) ∧
          ((∀ declaration, ¬ host.NamesTool declaration name) →
            result = some (.refusal (.toolNotFound name))) := by
  obtain ⟨toolbox, description, collects, rfl⟩ := expandToolbox_eq_ok.mp expanded
  rw [Expansion.host_adding, Expansion.host_adding] at hosted
  obtain rfl := Host.block.inj hosted
  have valued : ∀ entry ∈ (Outline.ofBlock block).tagged .tool,
      (stringValue? (toolName entry.1 entry.2)).isSome := by
    intro entry tagged
    obtain ⟨_, _, _, listed⟩ := exists_listedFrom_of_tagged accessible tagged
    exact listed.valued
  obtain ⟨names, unrepeated, named⟩ := nodup_tool_names collects.unique valued
  have keyed := nodup_filterMap_of_map_some unrepeated named
  obtain ⟨lists, dispatches⟩ := named?_toolboxBlock toolbox description unlisted undispatched
  refine ⟨_, _, _, (Outline.ofBlock block).callees, names,
    Generated.dispatchTerm (Outline.ofBlock block).arms, List.getLast?_concat, rfl, lists,
    dispatches, ?_, ?_, read_toolboxDispatch _ _, ?_, unrepeated, ?_⟩
  · rw [← terms_accessors]
    exact read_listOf _
  · rw [← named, Outline.callees, List.map_map]
    exact List.map_congr_left fun entry tagged => givenName?_of_tagged accessible distinct tagged
  · rw [← named, literals_dispatchTerm, Outline.arms, List.map_map, List.map_map]
    rfl
  intro program outline scope
  refine ⟨?_, ?_⟩
  · exact (result?_tools scope _).trans (congrArg _ (mapM_accessors program outline _))
  intro name arguments result
  refine ⟨?_, ?_⟩
  · rintro declaration ⟨inside, marked, called⟩
    obtain ⟨entry, tagged, listed⟩ := exists_listedFrom_of_declaration accessible inside marked
    have value : stringValue? (toolName entry.1 entry.2) = some name := listed.named ▸ called
    have property : declaration.sig.ident.name = entry.1.name :=
      congrArg Ident.name listed.ident.symm
    rw [property]
    have chosen : result = scope.call ("execute_" ++ entry.1.name) [.arguments arguments] := by
      refine (result?_dispatch scope _ _ name arguments).trans ?_
      rw [find?_arm_of_tagged keyed tagged value]
    refine ⟨?_, ?_, chosen, ?_⟩
    · intro other second
      exact eq_of_namesTool accessible distinct keyed ⟨inside, marked, called⟩ second
    · intro undeclared
      rw [named?_executionOf distinct tagged undeclared]
      rfl
    · rw [chosen]
      exact call_of_tagged program distinct tagged value arguments
  · intro absent
    have missing := find?_arm_of_absent fun entry tagged value => by
      obtain ⟨declaration, inside, marked, listed⟩ := exists_listedFrom_of_tagged accessible tagged
      exact absent declaration ⟨inside, marked, listed.named.trans value⟩
    refine (result?_dispatch scope _ _ name arguments).trans ?_
    rw [missing]

/-- A property marked as a tool with these arguments. -/
def markedProperty (ident : Ident) (arguments : List Tree) : Declaration where
  attrs := [⟨false, ⟨false, [⟨false, "tool"⟩]⟩, .list .paren arguments⟩]
  sig := { ident := ident, output := some [name "Tool"] }

/-- A property with a raw name, after which its tool is named. -/
def rawProperty : Declaration :=
  markedProperty ⟨true, "type"⟩ ([name "description"] ++ op "=" ++ [.literal "\"t\""])

/-- A property whose tool is named by a raw literal. -/
def namedProperty : Declaration :=
  markedProperty ⟨false, "say"⟩
    ([name "name"] ++ op "=" ++ [.literal "r\"echo\""] ++ op "," ++
      [name "description"] ++ op "=" ++ [.literal "\"s\""])

/-- A block with both, and with a handler for the second. -/
def kit : ImplBlock where
  selfType := .ofTrees (.path ⟨false, "Kit"⟩ false true) [name "Kit"]
  members := [.declaration rawProperty, .declaration namedProperty,
    .function { sig := { ident := ⟨false, "say_handler"⟩ } }]

/-- The marking of a toolbox. -/
def kitMarking : Marking :=
  ⟨⟨.toolbox, false⟩, [⟨some ⟨false, "name"⟩, stringExpression "kit"⟩,
    ⟨some ⟨false, "description"⟩, stringExpression "k"⟩]⟩

/-- The toolbox of a block with a raw name, a raw literal and one handler. -/
theorem toolbox_dispatch_of_kit :
    ∃ expansion host conformance lister dispatcher, ∃ (callees names : List String) (choice : Term),
      expandToolbox kitMarking kit = .ok expansion ∧ expansion.host = .block host ∧
      expansion.declarations.getLast? = some ⟨.conformance, [.block conformance]⟩ ∧
      Function.named? conformance.functions "get_tools" = some lister ∧
      Function.named? conformance.functions "handle_tool_call" = some dispatcher ∧
      Routine.read lister.body = some ⟨[], some (.list (callees.map (.ownCall · [])))⟩ ∧
      callees.map host.givenName? = names.map some ∧
      Routine.read dispatcher.body = some ⟨[], some choice⟩ ∧
      choice.literals.map stringValue? = names.map some ∧ names.Nodup ∧
      ∀ (program : Program) (arguments : Arguments),
        dispatcher.result? (program.scope (Outline.ofBlock kit) host.functions)
            [.self, .text "echo", .arguments arguments] =
          Value.ofOutcome (program.runTool (Outline.ofBlock kit) "say" "echo" arguments) := by
  have succeeds : (expandToolbox kitMarking kit).isOk = true := by decide +kernel
  have unlisted : ((Outline.ofBlock kit).function? "get_tools").isNone = true := by decide +kernel
  have undispatched : ((Outline.ofBlock kit).function? "handle_tool_call").isNone = true := by
    decide +kernel
  have expanding : kit.stripped.members.all (fun
      | .declaration declaration => declaration.expands
      | _ => true) = true := by decide +kernel
  cases expanded : expandToolbox kitMarking kit with
  | error diagnostic =>
      rw [expanded] at succeeds
      cases succeeds
  | ok expansion =>
      obtain ⟨_, _, _, made⟩ := expandToolbox_eq_ok.mp expanded
      have hosted : expansion.host = .block (emitted kit (addedToToolbox kit)) := by
        rw [made, Expansion.host_adding, Expansion.host_adding]
      obtain ⟨conformance, lister, dispatcher, callees, names, choice, placed, _, lists, dispatches,
          listing, given, choosing, chosen, unrepeated, runs⟩ :=
        toolbox_dispatch expanded hosted (by decide +kernel) (Option.isNone_iff_eq_none.mp unlisted)
          (Option.isNone_iff_eq_none.mp undispatched) fun declaration inside _ =>
            List.all_eq_true.mp expanding _ (mem_stripped_of_emitted inside)
      refine ⟨expansion, _, conformance, lister, dispatcher, callees, names, choice, rfl, hosted,
        placed, lists, dispatches, listing, given, choosing, chosen, unrepeated,
        fun program arguments => ?_⟩
      refine (((runs program).2 "echo" arguments).1 { namedProperty with
        attrs := namedProperty.attrs.map Attribute.qualified
        sig := namedProperty.sig.stripped } ⟨?_, ?_, ?_⟩).2.2.2
      · exact List.mem_append_left _ (List.mem_cons_of_mem _ List.mem_cons_self)
      · decide +kernel
      · decide +kernel

end Toolsmith
