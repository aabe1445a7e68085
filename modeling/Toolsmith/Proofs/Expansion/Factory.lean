import Mathlib
import Toolsmith.Proofs.Expansion.ToolboxDispatch
import Toolsmith.Proofs.Server.Handshake

/-! # The factory of a global server

A block that expands as a global server gets a factory beside it, which makes a server and registers
the tools of the block one after another (`expandGlobalServer_eq_ok`). Registering replaces a tool
of the same name, so that a tool could be lost; the names are told apart when the block is expanded,
and every registration therefore adds a tool at the end (`foldl_run_of_distinct`). A call of a tool
finds its registration, and with it the handler that the block declares for the property.
-/

namespace Toolsmith

open Source Json

namespace Server

/-- A tool under a new name is put at the end. -/
theorem place_of_fresh {entry : RegisteredTool} {entries : List RegisteredTool}
    (fresh : ∀ other ∈ entries, other.tool.name ≠ entry.tool.name) :
    place entry entries = entries ++ [entry] := by
  induction entries with
  | nil => rfl
  | cons first rest ih =>
      have different := fresh first List.mem_cons_self
      have later : ∀ other ∈ rest, other.tool.name ≠ entry.tool.name :=
        fun other inside => fresh other (List.mem_cons_of_mem first inside)
      simp only [place, different, ↓reduceIte, ih later, List.cons_append]

/-- What a call of a tool comes to, given what its handler does. -/
def outcomeOf : Except Failure (List Content) → Except Failure CallToolResult
  | .ok content => .ok (.success content)
  | .error (.error error) => .ok (.failure error.message)
  | .error .crash => .error .crash

/-- What a call of a registered tool comes to. -/
def callOutcome (entry : RegisteredTool) (params : CallToolParams) :
    Except Failure CallToolResult :=
  match entry.handler with
  | some handler => outcomeOf (handler params.arguments)
  | none => .error (.error (.toolImplementationRequired params.name))

/-- A call comes to what the first tool of that name gives. -/
theorem callTool_of_found {server : Server} {params : CallToolParams} {entry : RegisteredTool}
    (found : server.registered.find? (·.tool.name == params.name) = some entry) :
    server.callTool params = callOutcome entry params := by
  obtain ⟨tool, handler⟩ := entry
  unfold callTool
  rw [found]
  cases handler with
  | none => rfl
  | some handler => rfl

/-- A responder whose parameters can be read answers with the encoded result of its handler. -/
theorem responder_of_read {π ρ : Type} (method : Method π ρ) (handler : π → Except Failure ρ)
    {raw : Option Json} {params : π} (readable : readParams method.params raw = .ok params) :
    responder method handler raw =
      (handler params).map fun result => (method.encode result).sorted := by
  unfold responder
  rw [readable]
  cases called : handler params with
  | error failure => simp only [bind, Except.bind, called, Except.map]
  | ok result => simp only [bind, Except.bind, called, Except.map, pure, Except.pure]

/-- A text is a request of the current version that calls a tool. -/
def IsToolCall (text : String) (id : Json) (params : CallToolParams) : Prop :=
  ∃ request, Request.read text = .ok request ∧ request.id = some id ∧
    request.jsonrpc = messageVersion ∧ request.method = Method.callTool.name ∧
    readParams Method.callTool.params request.params = .ok params

/-- A request that passes the gate, for a method that nothing answers in place of the server, is
answered by the server itself. -/
theorem handle_of_passing {server : Server} {text : String} {request : Request} {id : Json}
    (read : Request.read text = .ok request) (identified : request.id = some id)
    (current : request.jsonrpc = messageVersion)
    (passes : server.configuration.strict = false ∨ server.initialized = true)
    (own : server.responders.lookup request.method = none) :
    (server.handle text).1 = Reaction.of id (server.builtIn request.method request.params) := by
  have admits : (server.configuration.strict && !server.initialized) = false := by
    rcases passes with lax | done
    · simp [lax]
    · simp [done]
  have answered : server.dispatch request.method request.params =
      server.builtIn request.method request.params := by
    simp only [dispatch, admits, Bool.false_and, Bool.false_eq_true, ↓reduceIte, own]
  rw [handle_of_read read, handleRequest_of_current identified current, answered]

theorem builtIn_callTool (server : Server) :
    server.builtIn Method.callTool.name = responder Method.callTool server.callTool := by
  have handshake : Method.callTool.name ≠ Method.handshake.name := by decide
  have ping : Method.callTool.name ≠ Method.ping.name := by decide
  have listing : Method.callTool.name ≠ Method.listTools.name := by decide
  simp only [builtIn, handshake, ping, listing, ↓reduceIte]

/-- A call of a tool that passes the gate is answered with what calling the tool comes to. -/
theorem handle_of_isToolCall {server : Server} {text : String} {id : Json}
    {params : CallToolParams} (call : IsToolCall text id params)
    (passes : server.configuration.strict = false ∨ server.initialized = true)
    (own : server.responders.lookup Method.callTool.name = none) :
    (server.handle text).1 = Reaction.of id
      ((server.callTool params).map fun result => result.encode.sorted) := by
  obtain ⟨request, read, identified, current, asks, readable⟩ := call
  rw [handle_of_passing read identified current passes (asks ▸ own), asks, builtIn_callTool,
    responder_of_read Method.callTool server.callTool readable]
  rfl

end Server

/-- **Registering in a row.** Where no tool has the name of another, every registration adds its
tool at the end. -/
theorem Server.filed_of_distinct {server : Server} {entries : List RegisteredTool}
    (distinct : ((server.registered ++ entries).map fun entry => entry.tool.name).Nodup) :
    server.filed entries = { server with registered := server.registered ++ entries } := by
  unfold filed
  congr 1
  generalize server.registered = known at distinct ⊢
  induction entries generalizing known with
  | nil => exact (List.append_nil known).symm
  | cons entry rest ih =>
      rw [List.append_cons] at distinct ⊢
      have fresh : ∀ other ∈ known, other.tool.name ≠ entry.tool.name := by
        intro other inside same
        rw [List.append_assoc, List.map_append, List.nodup_append] at distinct
        exact distinct.2.2 _ (List.mem_map_of_mem inside) _ List.mem_cons_self same
      rw [List.foldl_cons, place_of_fresh fresh]
      exact ih _ distinct

/-- The conditions under which a block expands as a global server with these settings. -/
structure FoundsWith (marking : Marking) (block : ImplBlock) (settings : Settings) : Prop where
  inherent : block.trait = none
  arguments : ∃ resolved, (Schema.globalServer false).resolve marking.arguments = .ok resolved ∧
    settingsOf resolved = .ok settings
  unique : (Outline.ofBlock block).checkUniqueTools = .ok ()
  static : (Outline.ofBlock block).checkStaticTools marking.site = .ok ()
  handlers : checkStaticHandlers (Outline.ofBlock block) marking.site = .ok ()
  hook : checkHook (Outline.ofBlock block) marking.site = .ok ()
  clear : block.parameterProblem? = none

/-- The functions that make and start the server of a block, unless the block has them. -/
def factoryFunctions (block : ImplBlock) (settings : Settings) : List Generated :=
  let outline := Outline.ofBlock block
  admitted outline
    [.createServer settings (outline.bindings.map registrationOf),
      .startServer outline.connectHook?.isSome]

/-- The blocks that stand beside a global server. -/
def peerBlocks (block : ImplBlock) (settings : Settings) : List ImplBlock :=
  let factory := factoryFunctions block settings
  (if factory.isEmpty then [] else [beside block none factory]) ++
    if (Outline.ofBlock block).declares "create_and_start_server" then []
    else [beside block (some (runtimePath ["ServerProvider"])) [.createAndStart]]

/-- **What expanding a global server does.** -/
theorem expandGlobalServer_eq_ok {marking : Marking} {block : ImplBlock} {expansion : Expansion} :
    expandGlobalServer marking block = .ok expansion ↔
      ∃ settings, FoundsWith marking block settings ∧
        expansion = { host := .block block.stripped : Expansion }.adding .peerSet
          ((peerBlocks block settings).map .block) := by
  have items (settings : Settings) : (peerBlocks block settings).map MadeItem.block =
      (if (factoryFunctions block settings).isEmpty then []
        else [.block (beside block none (factoryFunctions block settings))]) ++
      if (Outline.ofBlock block).declares "create_and_start_server" then []
      else [.block (beside block (some (runtimePath ["ServerProvider"])) [.createAndStart])] := by
    unfold peerBlocks
    rw [List.map_append]
    congr 1 <;> split <;> rfl
  unfold expandGlobalServer liftArguments
  simp only [bind_eq_ok, mapError_eq_ok, ImplBlock.prepared_eq_ok, items]
  constructor
  · rintro ⟨⟨⟩, inherent, resolved, arguments, ⟨⟩, unique, ⟨⟩, static, ⟨⟩, handlers, ⟨⟩, hook,
      settings, settled, prepared, ⟨clear, rfl⟩, result⟩
    exact ⟨settings, ⟨checkInherent_eq_ok.mp inherent, ⟨resolved, arguments, settled⟩, unique,
      static, handlers, hook, clear⟩, (Except.ok.inj result).symm⟩
  · rintro ⟨settings, founds, rfl⟩
    obtain ⟨resolved, arguments, settled⟩ := founds.arguments
    exact ⟨(), checkInherent_eq_ok.mpr founds.inherent, resolved, arguments, (), founds.unique, (),
      founds.static, (), founds.handlers, (), founds.hook, settings, settled, _,
      ⟨founds.clear, rfl⟩, rfl⟩

namespace Source

/-- The declaration of a tool property. -/
def ImplMember.tool? : ImplMember → Option Declaration
  | .declaration item => if item.isTool then some item else none
  | _ => none

/-- The tool properties of a block, in order of declaration. -/
def ImplBlock.toolProperties (block : ImplBlock) : List Declaration :=
  block.members.filterMap ImplMember.tool?

theorem ImplBlock.mem_toolProperties {block : ImplBlock} {declaration : Declaration} :
    declaration ∈ block.toolProperties ↔
      .declaration declaration ∈ block.members ∧ declaration.isTool := by
  unfold ImplBlock.toolProperties
  rw [List.mem_filterMap]
  constructor
  · rintro ⟨member, inside, found⟩
    cases member with
    | declaration item =>
        obtain ⟨marked, ⟨⟩⟩ := Option.ite_none_right_eq_some.mp found
        exact ⟨inside, marked⟩
    | function item => cases found
    | other code => cases found
  · rintro ⟨inside, marked⟩
    exact ⟨_, inside, by simp only [ImplMember.tool?, marked, ↓reduceIte]⟩

end Source

/-- The entry that a member makes among the tools of an outline. -/
def toolPair? (member : ImplMember) : Option (Member × Marking) :=
  (Member.ofImplMember? member).bind fun listed =>
    if listed.kind = .property then (listed.marking? .tool).map (listed, ·) else none

/-- The tools of an outline are read off the members one by one. -/
theorem tagged_eq_filterMap (block : ImplBlock) :
    (Outline.ofBlock block).tagged .tool = block.members.filterMap toolPair? := by
  unfold Outline.tagged Outline.ofBlock
  rw [← List.filterMap_eq_filter, List.filterMap_filterMap, List.filterMap_filterMap]
  congr 1
  funext member
  unfold toolPair?
  cases Member.ofImplMember? member with
  | none => rfl
  | some listed =>
      by_cases stands : listed.kind = .property
      · simp [stands, Option.guard]
      · simp [stands, Option.guard]

/-- A member makes an entry among the tools when it declares one, and the entry is listed from that
declaration. -/
theorem rel_toolPair? {member : ImplMember}
    (accessible : ∀ declaration, member = .declaration declaration → declaration.isTool →
      declaration.expands) :
    Option.Rel ListedFrom (toolPair? member) member.tool? := by
  cases member with
  | function item => exact Option.Rel.none
  | other code => exact Option.Rel.none
  | declaration item =>
      obtain ⟨listed, made⟩ : ∃ listed, Member.ofImplMember? (.declaration item) = some listed :=
        ⟨_, rfl⟩
      have kind : listed.kind = .property ↔ item.isProperty = true := by
        cases made
        by_cases stands : item.isProperty <;> simp [stands]
      have marks := isSome_marking?_tool made
      unfold toolPair? ImplMember.tool? Declaration.isTool
      rw [made, Option.bind_some]
      by_cases stands : item.isProperty = true
      · cases found : listed.marking? .tool with
        | none =>
            rw [found, Option.isSome_none] at marks
            simp only [kind.mpr stands, ↓reduceIte, ← marks, Bool.and_false, Bool.false_eq_true,
              Option.map_none]
            exact Option.Rel.none
        | some marking =>
            rw [found, Option.isSome_some] at marks
            have marked : item.isTool = true := by
              rw [Declaration.isTool, stands, ← marks, Bool.and_self]
            simp only [kind.mpr stands, ↓reduceIte, stands, ← marks, Bool.and_self,
              Option.map_some]
            exact Option.Rel.some (.of_expands made found (accessible item rfl marked))
      · have other : listed.kind ≠ .property := fun same => stands (kind.mp same)
        simp only [other, ↓reduceIte, eq_false_of_ne_true stands, Bool.false_and,
          Bool.false_eq_true]
        exact Option.Rel.none

/-- **Listed tools.** The tools of the outline are, in order, the tool properties of the block left
behind. -/
theorem forall₂_tagged_toolProperties {block : ImplBlock} {functions : List Generated}
    (accessible : ∀ declaration, .declaration declaration ∈ (emitted block functions).members →
      declaration.isTool → declaration.expands) :
    List.Forall₂ ListedFrom ((Outline.ofBlock block).tagged .tool)
      (emitted block functions).toolProperties := by
  rw [← tagged_emitted block functions, tagged_eq_filterMap]
  unfold ImplBlock.toolProperties
  generalize (emitted block functions).members = members at accessible
  induction members with
  | nil => exact List.Forall₂.nil
  | cons member rest ih =>
      have later := ih fun declaration inside => accessible declaration (.tail member inside)
      have here : Option.Rel ListedFrom (toolPair? member) member.tool? := by
        apply rel_toolPair?
        rintro declaration rfl
        exact accessible declaration (.head rest)
      rw [List.filterMap_cons, List.filterMap_cons]
      generalize toolPair? member = entry, member.tool? = declared at here ⊢
      cases here with
      | none => exact later
      | some listed => exact List.Forall₂.cons listed later

/-- What registering a tool property comes to: its tool, with the function that the block declares
as its handler. -/
def Program.entryFor (program : Program) (outline : Outline) (property : String) :
    RegisteredTool where
  tool := program.accessor property
  handler :=
    if outline.defines (property ++ "_handler") then some (program.handler (property ++ "_handler"))
    else none

section Handlers

variable (program : Program) {outline : Outline}
  (distinct : (outline.members.map Member.name).Nodup)

include distinct in
theorem awaits_of_mem {member : Member} (inside : member ∈ outline.members) :
    (program.ownScope outline).awaits member.name = member.isAsync := by
  change (outline.members.any fun other => other.name == member.name && other.isAsync) = _
  rw [Bool.eq_iff_iff, List.any_eq_true]
  constructor
  · rintro ⟨other, within, both⟩
    obtain ⟨same, awaits⟩ := Bool.and_eq_true_iff.mp both
    obtain rfl := List.inj_on_of_nodup_map distinct within inside (beq_iff_eq.mp same)
    exact awaits
  · exact fun awaits => ⟨member, inside, by simp [awaits]⟩

theorem handler_of_mem {member : Member} (inside : member ∈ outline.members) :
    (program.ownScope outline).handler member.name = program.handler member.name := by
  funext arguments
  rw [Scope.handler, program.call_handler (declares_of_mem inside), Value.outcome_ofOutcome]

include distinct in
/-- The registration of a tool property puts its tool into the server, with the function that the
block defines as its handler. -/
theorem yields_registrationOf {entry : Member × Marking} (tagged : entry ∈ outline.tagged .tool) :
    (registrationOf (outline.binding entry)).Yields (program.ownScope outline)
      (program.entryFor outline entry.1.name) := by
  refine ⟨program.call_accessor tagged, ?_⟩
  have bound := handler_of_candidates outline entry.1
  unfold registrationOf Outline.binding Program.entryFor
  cases found : outline.candidateHandlers.find? (·.name == Binding.handlerName entry.1) with
  | none =>
      simp only [found] at bound
      simp only [bound, Bool.false_eq_true, ↓reduceIte]
  | some handler =>
      simp only [found] at bound
      have inside := (List.mem_filter.mp (List.mem_of_find?_eq_some found)).1
      have awaits := awaits_of_mem program distinct inside
      have runs := handler_of_mem program inside
      have defined : (if outline.defines (entry.1.name ++ "_handler") then
          some (program.handler (entry.1.name ++ "_handler")) else none) =
            some ((program.ownScope outline).handler handler.ident.name) := by
        rw [if_pos bound.2, ← bound.1]
        exact congrArg some runs.symm
      by_cases kind : handler.isAsync = true
      · simp only [kind, ↓reduceIte]
        exact ⟨awaits.trans kind, defined⟩
      · simp only [kind, Bool.false_eq_true, ↓reduceIte]
        exact ⟨awaits.trans (eq_false_of_ne_true kind), defined⟩

end Handlers

/-- A call by the name of a property that was registered runs the handler that is defined for it. -/
theorem reaction_of_property {server : Server} {program : Program} {outline : Outline}
    {property text : String} {id : Json} {params : CallToolParams}
    (unrepeated : (server.registered.map fun entry => entry.tool.name).Nodup)
    (registered : program.entryFor outline property ∈ server.registered)
    (named : (program.accessor property).name = params.name)
    (call : Server.IsToolCall text id params)
    (passes : server.configuration.strict = false ∨ server.initialized = true)
    (own : server.responders.lookup Method.callTool.name = none) :
    let handler := property ++ "_handler"
    (outline.defines handler = true →
      (server.handle text).1 = .of id
        ((Server.outcomeOf (program.handler handler params.arguments)).map
          fun result => result.encode.sorted)) ∧
    (outline.defines handler = false → ∃ error : ProtocolError,
      (server.handle text).1 = .answer (.failure id error) ∧
      error.message = "Tool implementation required: " ++ params.name) := by
  intro handler
  have keyed : (server.registered.filterMap fun entry => some entry.tool.name).Nodup := by
    rw [List.filterMap_eq_map']
    exact unrepeated
  have found := find?_of_nodup_filterMap keyed registered (congrArg some named)
  simp only [Option.some_beq_some] at found
  have answered := Server.handle_of_isToolCall call passes own
  rw [Server.callTool_of_found found] at answered
  refine ⟨?_, ?_⟩
  · intro defined
    rw [answered, Server.callOutcome, Program.entryFor, if_pos defined]
  · intro missing
    refine ⟨.toolImplementationRequired params.name, ?_, rfl⟩
    rw [answered, Server.callOutcome, Program.entryFor, if_neg (ne_true_of_eq_false missing)]
    rfl

/-- The accessors of a block, run by a program, construct tools with the names that are written in
them. -/
def Program.RunsAccessors (program : Program) (block : ImplBlock) : Prop :=
  ∀ callee tool, block.givenName? callee = some tool → (program.accessor callee).name = tool

theorem map_eq_map_of_forall₂ {α β γ : Type} {R : α → β → Prop} {first : α → γ} {second : β → γ}
    {left : List α} {right : List β} (related : List.Forall₂ R left right)
    (same : ∀ a b, R a b → first a = second b) : left.map first = right.map second := by
  induction related with
  | nil => rfl
  | cons here _ ih => rw [List.map_cons, List.map_cons, same _ _ here, ih]

section Registering

variable {block : ImplBlock} {functions : List Generated}
  (accessible : ∀ declaration, .declaration declaration ∈ (emitted block functions).members →
    declaration.isTool → declaration.expands)

include accessible

/-- Every registration of the factory puts the tool of a property into the server, in order. -/
theorem forall₂_yields (program : Program)
    (distinct : ((Outline.ofBlock block).members.map Member.name).Nodup) :
    List.Forall₂ (Registration.Yields (program.ownScope (Outline.ofBlock block)))
      ((Outline.ofBlock block).bindings.map registrationOf)
      ((emitted block functions).toolProperties.map fun property =>
        program.entryFor (Outline.ofBlock block) property.sig.ident.name) := by
  have listed := forall₂_tagged_toolProperties accessible
  rw [Outline.bindings_eq, List.map_map, List.forall₂_map_left_iff, List.forall₂_map_right_iff]
  refine (List.forall₂_iff_get.mpr ⟨listed.length_eq, ?_⟩)
  intro index left right
  have related := listed.get left right
  have ident := congrArg Ident.name related.ident
  have yields := yields_registrationOf program distinct (List.get_mem _ ⟨index, left⟩)
  change Registration.Yields _ (registrationOf ((Outline.ofBlock block).binding _))
    (program.entryFor _ _)
  rw [← ident]
  exact yields

/-- The accessors of tool properties give the tools different names. -/
theorem exists_nodup_nestedNames (unique : (Outline.ofBlock block).checkUniqueTools = .ok ()) :
    ∃ names : List String, names.Nodup ∧
      (emitted block functions).toolProperties.map Declaration.nestedName? = names.map some := by
  have listed := forall₂_tagged_toolProperties accessible
  have valued : ∀ entry ∈ (Outline.ofBlock block).tagged .tool,
      (stringValue? (toolName entry.1 entry.2)).isSome := by
    intro entry tagged
    obtain ⟨_, _, _, found⟩ := exists_listedFrom_of_tagged accessible tagged
    exact found.valued
  obtain ⟨names, unrepeated, named⟩ := nodup_tool_names unique valued
  refine ⟨names, unrepeated, ?_⟩
  rw [← named]
  exact (map_eq_map_of_forall₂ listed fun entry property found => found.named.symm).symm

/-- Where a program runs the accessors, the tool of a property has the name that its printed
accessor gives it. -/
theorem name_accessor {program : Program}
    (runs : program.RunsAccessors (emitted block functions))
    (distinct : ((Outline.ofBlock block).members.map Member.name).Nodup)
    {property : Declaration} (inside : property ∈ (emitted block functions).toolProperties) :
    some (program.accessor property.sig.ident.name).name = property.nestedName? := by
  obtain ⟨declared, marked⟩ := ImplBlock.mem_toolProperties.mp inside
  obtain ⟨entry, _, listed⟩ := exists_listedFrom_of_declaration accessible declared marked
  obtain ⟨tool, valued⟩ := Option.isSome_iff_exists.mp listed.valued
  have named : property.nestedName? = some tool := listed.named.trans valued
  have given := (givenName?_emitted distinct declared).trans named
  rw [named, runs _ _ given]

/-- **The tools that are registered.** No two of them have the same name. -/
theorem nodup_entries {program : Program} (runs : program.RunsAccessors (emitted block functions))
    (distinct : ((Outline.ofBlock block).members.map Member.name).Nodup)
    (unique : (Outline.ofBlock block).checkUniqueTools = .ok ()) :
    (((emitted block functions).toolProperties.map fun property =>
      program.entryFor (Outline.ofBlock block) property.sig.ident.name).map fun entry =>
        entry.tool.name).Nodup := by
  obtain ⟨names, unrepeated, named⟩ := exists_nodup_nestedNames accessible unique
  have given : (((emitted block functions).toolProperties.map fun property =>
      program.entryFor (Outline.ofBlock block) property.sig.ident.name).map fun entry =>
        entry.tool.name) = names := by
    apply List.map_injective_iff.mpr (Option.some_injective String)
    rw [← named, List.map_map, List.map_map]
    exact List.map_congr_left fun property inside =>
      name_accessor accessible runs distinct inside
  exact given ▸ unrepeated

end Registering

/-- The sibling of a block has the printed factory. -/
theorem peerBlocks_of_undeclared {block : ImplBlock} (settings : Settings)
    (undeclared : (Outline.ofBlock block).declares "create_server" = false) :
    ∃ sibling blocks, peerBlocks block settings = sibling :: blocks ∧ sibling.trait = none ∧
      sibling.selfType = block.selfType ∧
      Function.named? sibling.functions "create_server" =
        some (Generated.createServer settings
          ((Outline.ofBlock block).bindings.map registrationOf)).function := by
  have kept : factoryFunctions block settings =
      .createServer settings ((Outline.ofBlock block).bindings.map registrationOf) ::
        admitted (Outline.ofBlock block)
          [.startServer (Outline.ofBlock block).connectHook?.isSome] := by
    unfold factoryFunctions admitted
    rw [List.filter_cons_of_pos]
    simp only [Generated.functionName, undeclared, Bool.not_false]
  unfold peerBlocks
  rw [kept]
  refine ⟨_, _, rfl, rfl, rfl, ?_⟩
  rw [ImplBlock.functions_beside, named?_map_function]
  rfl

/-- **The factory loses no tool.** Let a block expand as a global server, with functions of
different names, none of which is `create_server`, and let the tool properties of the block left
behind expand. Then the printed factory beside it makes a server from the settings of the marking,
as the program evaluates their code, and registers the tools of the block one statement after
another. The server that it returns has one tool for each tool property, in order of declaration and
named as its accessor names it, where every statement adds a tool and replaces none. Once it answers
calls of tools, a call by the name of a property runs the handler that the block defines for the
property, and fails when there is none. -/
theorem factory_registers_tools {marking : Marking} {block host : ImplBlock}
    {expansion : Expansion} (expanded : expandGlobalServer marking block = .ok expansion)
    (hosted : expansion.host = .block host)
    (distinct : ((Outline.ofBlock block).members.map Member.name).Nodup)
    (undeclared : (Outline.ofBlock block).declares "create_server" = false)
    (accessible : ∀ declaration, .declaration declaration ∈ host.members → declaration.isTool →
      declaration.expands) :
    ∃ resolved settings sibling blocks factory routine,
      (Schema.globalServer false).resolve marking.arguments = .ok resolved ∧
      settingsOf resolved = .ok settings ∧
      expansion.declarations = [⟨.peerSet, (sibling :: blocks).map .block⟩] ∧
      sibling.trait = none ∧ sibling.selfType = block.selfType ∧
      Function.named? sibling.functions "create_server" = some factory ∧
      Routine.read factory.body = some routine ∧
      routine.statements.length = host.toolProperties.length + 1 ∧
      ∀ program : Program, program.RunsAccessors host →
        let scope := program.ownScope (Outline.ofBlock block)
        ∃ server, factory.result? scope [] = some (.server server) ∧
          server =
            { (program.setup settings.code).server with registered := server.registered } ∧
          server.tools = host.toolProperties.map (fun property =>
            program.accessor property.sig.ident.name) ∧
          (server.tools.map fun tool => some tool.name) =
            host.toolProperties.map Declaration.nestedName? ∧
          (server.tools.map (·.name)).Nodup ∧
          (∀ count, ∃ later earlier,
            Statement.runAll scope (routine.statements.take (count + 1)) [] = some later ∧
            later.lookup "server" = some (.server earlier) ∧
            earlier.tools = server.tools.take count) ∧
          ∀ property ∈ host.toolProperties, ∀ hook initialized text id params,
            let handler := property.sig.ident.name ++ "_handler"
            let reaction := ({ server with hook := hook, initialized := initialized }.handle text).1
            server.configuration.strict = false ∨ initialized = true →
            Server.IsToolCall text id params → property.nestedName? = some params.name →
              ((Outline.ofBlock block).defines handler = true →
                reaction = .of id
                  ((Server.outcomeOf (program.handler handler params.arguments)).map
                    fun result => result.encode.sorted)) ∧
              ((Outline.ofBlock block).defines handler = false → ∃ error : ProtocolError,
                reaction = .answer (.failure id error) ∧
                error.message = "Tool implementation required: " ++ params.name) := by
  obtain ⟨settings, founds, rfl⟩ := expandGlobalServer_eq_ok.mp expanded
  rw [Expansion.host_adding] at hosted
  have left : host = emitted block [] := by
    rw [emitted, withFunctions_nil]
    exact (Host.block.inj hosted).symm
  subst left
  obtain ⟨resolved, arguments, settled⟩ := founds.arguments
  obtain ⟨sibling, blocks, placed, inherent, same, found⟩ :=
    peerBlocks_of_undeclared settings undeclared
  have counted : ((Outline.ofBlock block).bindings.map registrationOf).length =
      (emitted block []).toolProperties.length := by
    have listed := (forall₂_tagged_toolProperties accessible).length_eq
    rw [Outline.bindings_eq, List.length_map, List.length_map, listed]
  refine ⟨resolved, settings, sibling, blocks, _, _, arguments, settled, ?_, inherent, same, found,
    read_createServer settings _, ?_, ?_⟩
  · rw [placed]
    rfl
  · rw [← counted, factoryStatements, List.length_cons, List.length_map]
  intro program runs scope
  have yields := forall₂_yields accessible program distinct
  have unrepeated := nodup_entries accessible runs distinct founds.unique
  let start := (program.setup settings.code).server
  let entries := (emitted block []).toolProperties.map fun property =>
    program.entryFor (Outline.ofBlock block) property.sig.ident.name
  -- The server starts without tools, so that any first registrations fill it in order.
  have filed (count : Nat) : start.filed (entries.take count) =
      { start with registered := entries.take count } := by
    refine Server.filed_of_distinct ?_
    change ((entries.take count).map fun entry => entry.tool.name).Nodup
    rw [List.map_take]
    exact unrepeated.sublist (List.take_sublist count _)
  have whole := filed entries.length
  rw [List.take_length] at whole
  have tools : Server.tools { start with registered := entries } =
      (emitted block []).toolProperties.map fun property =>
        program.accessor property.sig.ident.name := by
    rw [Server.tools, List.map_map]
    rfl
  refine ⟨{ start with registered := entries },
    (result?_createServer yields settings).trans (congrArg (some ∘ Value.server) whole), rfl,
    tools, ?_, ?_, ?_, ?_⟩
  · rw [tools, List.map_map]
    exact List.map_congr_left fun property inside => name_accessor accessible runs distinct inside
  · rw [List.map_map] at unrepeated
    rw [tools, List.map_map]
    exact unrepeated
  · intro count
    obtain ⟨later, ran, holds⟩ := runAll_factory yields settings count
    refine ⟨later, _, ran, holds, ?_⟩
    change (start.filed (entries.take count)).tools = _
    rw [filed count, Server.tools, Server.tools, List.map_take]
  intro property inside hook initialized text id params handler reaction passes call named
  exact reaction_of_property unrepeated (List.mem_map_of_mem inside)
    (Option.some.inj ((name_accessor accessible runs distinct inside).trans named)) call passes rfl

/-- The marking of a global server. -/
def founding : Marking :=
  ⟨⟨.globalServer, false⟩, [⟨some ⟨false, "name"⟩, stringExpression "kit"⟩,
    ⟨some ⟨false, "version"⟩, stringExpression "1"⟩]⟩

/-- A program for a kit, in which every function answers with its name. -/
def kitProgram : Program where
  accessor callee := ⟨(kit.stripped.givenName? callee).getD "", "", none⟩
  handler function := fun _ => .ok [.text function]
  setup _ := { name := "kit", version := "1" }

def echoCall : String :=
  "\x7b\"jsonrpc\":\"2.0\",\"id\":1,\"method\":\"tools/call\",\"params\":[\"echo\"]\x7d"

def typeCall : String :=
  "\x7b\"jsonrpc\":\"2.0\",\"id\":1,\"method\":\"tools/call\",\"params\":[\"type\"]\x7d"

theorem isToolCall_echoCall : Server.IsToolCall echoCall (.integer 1) ⟨"echo", []⟩ := by
  have read : Request.read echoCall = .ok ⟨"2.0", some (.integer 1), "tools/call",
      some (.array [.string "echo"])⟩ := by cbv
  exact ⟨_, read, rfl, rfl, rfl, rfl⟩

theorem isToolCall_typeCall : Server.IsToolCall typeCall (.integer 1) ⟨"type", []⟩ := by
  have read : Request.read typeCall = .ok ⟨"2.0", some (.integer 1), "tools/call",
      some (.array [.string "type"])⟩ := by cbv
  exact ⟨_, read, rfl, rfl, rfl, rfl⟩

/-- The server of a kit with two tools, of which one has a handler. -/
theorem factory_registers_tools_of_kit :
    ∃ expansion sibling blocks factory server,
      expandGlobalServer founding kit = .ok expansion ∧
      expansion.declarations = [⟨.peerSet, (sibling :: blocks).map .block⟩] ∧
      Function.named? sibling.functions "create_server" = some factory ∧
      factory.result? (kitProgram.ownScope (Outline.ofBlock kit)) [] = some (.server server) ∧
      server.info = ⟨"kit", "1"⟩ ∧
      (server.tools.map fun tool => some tool.name) = [some "type", some "echo"] ∧
      (server.handle echoCall).1 = .of (.integer 1)
        ((Server.outcomeOf (.ok [.text "say_handler"])).map fun result => result.encode.sorted) ∧
      ∃ error : ProtocolError, (server.handle typeCall).1 = .answer (.failure (.integer 1) error) ∧
        error.message = "Tool implementation required: type" := by
  have succeeds : (expandGlobalServer founding kit).isOk = true := by decide +kernel
  have expanding : kit.stripped.members.all (fun
      | .declaration declaration => declaration.expands
      | _ => true) = true := by decide +kernel
  have runs : kitProgram.RunsAccessors kit.stripped := by
    intro callee tool given
    change (kit.stripped.givenName? callee).getD "" = tool
    rw [given, Option.getD_some]
  cases expanded : expandGlobalServer founding kit with
  | error diagnostic =>
      rw [expanded] at succeeds
      cases succeeds
  | ok expansion =>
      obtain ⟨_, _, rfl⟩ := expandGlobalServer_eq_ok.mp expanded
      obtain ⟨_, settings, sibling, blocks, factory, _, _, _, placed, _, _, found, _, _, serves⟩ :=
        factory_registers_tools expanded (Expansion.host_adding _ _ _) (by decide +kernel)
          (by decide +kernel) fun declaration inside _ => List.all_eq_true.mp expanding _ inside
      obtain ⟨server, returned, made, _, named, _, _, calls⟩ := serves kitProgram runs
      have properties : kit.stripped.toolProperties.map Declaration.nestedName? =
          [some "type", some "echo"] := by decide +kernel
      have lax : server.configuration.strict = false := by
        rw [made]
        rfl
      -- The hook and the phase of the server are those that it has.
      refine ⟨_, sibling, blocks, factory, server, rfl, placed, found, returned, ?_,
        named.trans properties, ?_, ?_⟩
      · rw [made]
        rfl
      · refine (calls { namedProperty with
          attrs := namedProperty.attrs.map Attribute.qualified
          sig := namedProperty.sig.stripped } ?_ _ _ _ _ _ (.inl lax) isToolCall_echoCall ?_).1 ?_
        · exact ImplBlock.mem_toolProperties.mpr
            ⟨List.mem_cons_of_mem _ List.mem_cons_self, by decide +kernel⟩
        · decide +kernel
        · decide +kernel
      · refine (calls { rawProperty with
          attrs := rawProperty.attrs.map Attribute.qualified
          sig := rawProperty.sig.stripped } ?_ _ _ _ _ _ (.inl lax) isToolCall_typeCall ?_).2 ?_
        · exact ImplBlock.mem_toolProperties.mpr ⟨List.mem_cons_self, by decide +kernel⟩
        · decide +kernel
        · decide +kernel

end Toolsmith
