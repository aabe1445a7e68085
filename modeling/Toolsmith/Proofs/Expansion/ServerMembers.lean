import Mathlib
import Toolsmith.Proofs.Expansion.Guard
import Toolsmith.Proofs.Marking.Exactness

/-! # The members of a server

A server gets up to four functions. Three of them it gets unless the block declares them. Whether it
gets `main` depends on more: on the argument `generate_main`, which is true unless it is written,
and on the mark of an entry point, which wins over that default but not over an argument.
`GetsFunction` says which functions a server gets, from the marking and the block as they stand;
`server_members_exact` says that these are made, with one warning if the block has the mark.
-/

namespace Toolsmith
namespace Source

/-- The block is marked as an entry point, by an attribute whose path is just `main`. -/
def ImplBlock.MarksEntryPoint (block : ImplBlock) : Prop :=
  ∃ attr ∈ block.attrs, attr.path = ⟨false, [⟨false, "main"⟩]⟩

instance (block : ImplBlock) : Decidable block.MarksEntryPoint :=
  inferInstanceAs (Decidable (∃ attr ∈ block.attrs, _))

end Source

open Source

/-- The argument `generate_main` is true: if it is written, it is written as `true`. -/
def Marking.GeneratesMain (marking : Marking) : Prop :=
  ∀ argument ∈ marking.arguments,
    argument.isLabelled "generate_main" = true → argument.value.kind = .boolean true

instance (marking : Marking) : Decidable marking.GeneratesMain :=
  inferInstanceAs (Decidable (∀ argument ∈ marking.arguments, _))

/-- A server gets a function of this name. -/
def GetsFunction (marking : Marking) (block : ImplBlock) (function : String) : Prop :=
  function ∉ block.functionNames ∧
    (function = "main" →
      marking.GeneratesMain ∧ (¬ block.MarksEntryPoint ∨ marking.decidesMain = true))

instance (marking : Marking) (block : ImplBlock) (function : String) :
    Decidable (GetsFunction marking block function) :=
  inferInstanceAs (Decidable (_ ∧ _))

/-- The functions that a server gets, in order. -/
def serverMembers (marking : Marking) (block : ImplBlock) (settings : Settings) : List Generated :=
  [.main, .setupServer settings, .listTools (block.toolProperties.map (·.sig.ident)),
    .registerHandlers].filter fun generated =>
      decide (GetsFunction marking block generated.functionName)

theorem entryPoint_iff {block : ImplBlock} :
    (Outline.ofBlock block).entryPoint = true ↔ block.MarksEntryPoint := by
  have marks (attr : Attribute) :
      isEntryPoint attr = true ↔ attr.path = ⟨false, [⟨false, "main"⟩]⟩ := by
    obtain ⟨_, ⟨rooted, segments⟩, _⟩ := attr
    cases rooted <;> simp [isEntryPoint, AttributePath.isIdent]
  simp only [Outline.ofBlock, List.any_eq_true, marks, ImplBlock.MarksEntryPoint]

/-- A member that makes an entry among the tools is the declaration of one. -/
theorem ident_toolPair? (member : ImplMember) :
    (toolPair? member).map (·.1.ident) = member.tool?.map (·.sig.ident) := by
  cases member with
  | function item => rfl
  | other code => rfl
  | declaration item =>
      obtain ⟨listed, made⟩ : ∃ listed, Member.ofImplMember? (.declaration item) = some listed :=
        ⟨_, rfl⟩
      have marks := isSome_marking?_tool made
      have ident : listed.ident = item.sig.ident := by
        cases made
        rfl
      have kind : listed.kind = .property ↔ item.isProperty = true := by
        cases made
        by_cases stands : item.isProperty <;> simp [stands]
      have pair : toolPair? (.declaration item) =
          if listed.kind = .property then (listed.marking? .tool).map (listed, ·) else none := by
        rw [toolPair?, made, Option.bind_some]
      have tool : ImplMember.tool? (.declaration item) =
          if item.isProperty && (listed.marking? .tool).isSome then some item else none := by
        rw [ImplMember.tool?, Declaration.isTool, marks]
      rw [pair, tool]
      cases stands : item.isProperty with
      | false => simp [kind, stands]
      | true =>
          cases listed.marking? .tool with
          | none => simp
          | some marking => simp [kind, stands, ident]

/-- The tools of an outline are the tool properties of the block, in order. -/
theorem idents_tagged (block : ImplBlock) :
    ((Outline.ofBlock block).tagged .tool).map (·.1.ident) =
      block.toolProperties.map (·.sig.ident) := by
  rw [tagged_eq_filterMap, ImplBlock.toolProperties, List.map_filterMap, List.map_filterMap]
  simp only [ident_toolPair?]

section Arguments

variable {marking : Marking} {block : ImplBlock} {resolved : ResolvedArguments}
  {wanted : Option Bool}

/-- The resolved argument asks for a main function exactly when the written arguments do. -/
theorem wanted_iff (accepted : Schema.server.resolve marking.arguments = .ok resolved)
    (wants : resolved.boolean? "generate_main" = .ok wanted) :
    wanted.getD true = true ↔ marking.GeneratesMain := by
  obtain ⟨value, given, written⟩ :=
    Schema.plain_server.get?_of_resolve accepted Schema.generateMain_mem
  have decided : value.kind = .boolean true ↔ marking.GeneratesMain := by
    apply written (·.kind = .boolean true)
    intro fallback default
    cases default
    rfl
  rw [← decided]
  unfold ResolvedArguments.boolean? at wants
  rw [given] at wants
  dsimp only at wants
  split at wants
  · rename_i truth kind
    cases wants
    simp [kind]
  · cases wants

theorem serverFunctions_eq_filter (makesMain : Bool) (settings : Settings) (outline : Outline) :
    serverFunctions makesMain settings outline =
      [.main, .setupServer settings, .listTools ((outline.tagged .tool).map (·.1.ident)),
        .registerHandlers].filter fun generated =>
          makesMain || generated.functionName != "main" := by
  cases makesMain <;> rfl

/-- What is considered for a server and passes the guard. -/
theorem ServesWith.added_eq_members {settings : Settings}
    (serves : ServesWith marking block resolved wanted settings) :
    addedToServer block resolved wanted settings = serverMembers marking block settings := by
  rw [serves.added_eq, serverFunctions_eq_filter, idents_tagged]
  unfold admitted serverMembers
  rw [List.filter_filter]
  refine List.filter_congr fun generated _ => ?_
  rw [Bool.eq_iff_iff, decide_eq_true_iff, GetsFunction, ← declares_iff,
    ← wanted_iff serves.arguments serves.wants, ← entryPoint_iff]
  simp [imp_iff_not_or, or_comm]

end Arguments

theorem serverExpansion_inside (block : ImplBlock) (functions : List Generated) :
    (serverExpansion block functions).inside =
      functions.map fun item => .function item.function := by
  change ({ host := .block (emitted block functions) : Expansion }.adding .memberSet _).inside = _
  rw [Expansion.inside_adding]
  rfl

theorem serverExpansion_outside (block : ImplBlock) (functions : List Generated) :
    (serverExpansion block functions).outside = [] := by
  change ({ host := .block (emitted block functions) : Expansion }.adding .memberSet _).outside = _
  rw [Expansion.outside_adding]
  rfl

theorem serverExpansion_warnings (block : ImplBlock) (functions : List Generated) :
    (serverExpansion block functions).warnings =
      if block.MarksEntryPoint then [.entryPointConflict (typeName block.selfType)] else [] := by
  simp only [← entryPoint_iff]
  rfl

/-- The function that lists the tools is the only member of its name. -/
theorem body_of_serverMembers {marking : Marking} {block : ImplBlock} {settings : Settings}
    {generated : Generated} (listed : generated ∈ serverMembers marking block settings)
    (named : generated.functionName = "initialize_tools") :
    generated.function.body = Generated.listOf (block.toolProperties.map fun property =>
      Call.print ⟨.associated, property.sig.ident⟩ []) := by
  have among := (List.mem_filter.mp listed).1
  simp only [List.mem_cons, List.not_mem_nil, or_false] at among
  rcases among with rfl | rfl | rfl | rfl
  · simp [Generated.functionName] at named
  · simp [Generated.functionName] at named
  · change Generated.listOf ((block.toolProperties.map (·.sig.ident)).map _) = _
    rw [List.map_map]
    rfl
  · simp [Generated.functionName] at named

/-- **The members of a server.** An accepted server gets, of `main`, `setup_server`,
`initialize_tools` and `register_handlers`, in this order, those functions whose name no function or
property of the block has; for `main`, moreover, `generate_main` must be true, and written where the
block has the mark of an entry point. There is one warning, which names the type, if the block has
the mark, however often, and none otherwise. If `initialize_tools` is made, it lists the accessors
of the tool properties, in the order of their declaration. -/
theorem server_members_exact {marking : Marking} {block : ImplBlock} {expansion : Expansion}
    (expanded : expandServer marking block = .ok expansion) :
    (∃ resolved settings, Schema.server.resolve marking.arguments = .ok resolved ∧
      settingsOf resolved = .ok settings ∧
      let made := serverMembers marking block settings
      expansion.inside = (made.map fun item => .function item.function) ∧
        expansion.host = .block (withFunctions block.stripped made)) ∧
    expansion.outside = [] ∧
    expansion.inside.flatMap MadeItem.inherentNames =
      ["main", "setup_server", "initialize_tools", "register_handlers"].filter
        (fun function => decide (GetsFunction marking block function)) ∧
    (expansion.warnings =
      if block.MarksEntryPoint then [.entryPointConflict (typeName block.selfType)] else []) ∧
    ∀ function, .function function ∈ expansion.inside →
      function.sig.ident.name = "initialize_tools" →
        function.body = Generated.listOf (block.toolProperties.map fun property =>
          Call.print ⟨.associated, property.sig.ident⟩ []) := by
  obtain ⟨resolved, wanted, settings, serves, rfl⟩ := expandServer_eq_ok.mp expanded
  rw [serves.added_eq_members]
  refine ⟨⟨resolved, settings, serves.arguments, serves.settled, serverExpansion_inside block _,
    serverExpansion_host block _⟩, serverExpansion_outside block _, ?_,
    serverExpansion_warnings block _, ?_⟩
  · have names : ["main", "setup_server", "initialize_tools", "register_handlers"] =
        [.main, .setupServer settings, .listTools (block.toolProperties.map (·.sig.ident)),
          .registerHandlers].map Generated.functionName := rfl
    rw [serverExpansion_inside, inherentNames_functions, names, List.filter_map]
    rfl
  · intro function listed named
    rw [serverExpansion_inside] at listed
    obtain ⟨generated, inside, made⟩ := List.mem_map.mp listed
    cases made
    exact body_of_serverMembers inside (generated.asMember_name.symm.trans named)

/-- A block with a tool and a function of its own by a raw name. It is marked as an entry point
twice, with arguments, after two attributes that only look like the mark. -/
def twiceMarkedBlock : ImplBlock where
  attrs := [⟨false, ⟨false, [⟨false, "tokio"⟩, ⟨false, "main"⟩]⟩, .none⟩,
    ⟨false, ⟨false, [⟨true, "main"⟩]⟩, .none⟩,
    ⟨false, ⟨false, [⟨false, "main"⟩]⟩, .list .paren [name "x"]⟩,
    ⟨false, ⟨false, [⟨false, "main"⟩]⟩, .list .paren [name "y"]⟩]
  selfType := .ofTrees (.path ⟨false, "EchoServer"⟩ false true) [name "EchoServer"]
  members := [.declaration namedProperty,
    .function { sig := { ident := ⟨true, "register_handlers"⟩ } }]

/-- The marking of a server that asks for `main`. -/
def mainServer : Marking :=
  ⟨⟨.server, false⟩, [⟨some ⟨false, "generate_main"⟩, .ofTrees (.boolean true) [name "true"]⟩]⟩

/-- The block gets `main`, since the marking asks for it, and one warning. -/
theorem server_members_exact_of_twiceMarked :
    ∃ expansion, expandServer mainServer twiceMarkedBlock = .ok expansion ∧
      expansion.inside.flatMap MadeItem.inherentNames =
        ["main", "setup_server", "initialize_tools"] ∧
      expansion.warnings = [.entryPointConflict "EchoServer"] := by
  have succeeds : (expandServer mainServer twiceMarkedBlock).isOk = true := by decide +kernel
  obtain ⟨expansion, expanded⟩ := exists_of_isOk succeeds
  obtain ⟨_, _, names, warnings, _⟩ := server_members_exact expanded
  have gets : ["main", "setup_server", "initialize_tools", "register_handlers"].filter
      (fun function => decide (GetsFunction mainServer twiceMarkedBlock function)) =
        ["main", "setup_server", "initialize_tools"] := by decide +kernel
  have marked : twiceMarkedBlock.MarksEntryPoint := by decide +kernel
  rw [if_pos marked] at warnings
  exact ⟨expansion, expanded, names.trans gets, warnings⟩

end Toolsmith
