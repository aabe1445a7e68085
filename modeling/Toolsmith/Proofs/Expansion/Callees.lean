import Mathlib
import Toolsmith.Proofs.Expansion.Guard
import Toolsmith.Proofs.Source.References

/-! # What made functions refer to

The body of a made function refers to its `callees`, and besides to what the values that it was
given refer to (`Generated.references_body`). The callees are named before the guard has dropped any
function, so that each of them has to be found again: among the functions of the block, where the
function was looked up or is what the guard respected, or among those that were made. The functions
considered for a block are `Closed` in this sense, and no made function refers to one that is not
there (`functions_resolve`).
-/

namespace Toolsmith

open Source

/-- The code of a call refers to the function that is called, and to what the arguments refer to. -/
theorem Call.references_print (target : Call) (arguments : List (List Tree)) :
    references (target.print arguments) =
      target.callee.name :: arguments.flatMap references := by
  obtain ⟨style, callee⟩ := target
  cases style with
  | method => exact congrArg (callee.name :: ·) (referencesAfter_call rfl callee arguments)
  | associated => exact congrArg (callee.name :: ·) (referencesAfter_call rfl callee arguments)
  | associatedWithSelf =>
      exact congrArg (callee.name :: ·)
        (referencesAfter_call rfl callee ([name "self"] :: arguments))

def Settings.values (settings : Settings) : List Expression :=
  [settings.name, settings.version, settings.capabilities, settings.configuration]

def HandlerReference.names : HandlerReference → List String
  | .none => []
  | .synchronous handler | .asynchronous handler => [handler.name]

/-- The functions that the registration of a tool refers to. -/
def Registration.callees (registration : Registration) : List String :=
  registration.property.name :: registration.handler.names

namespace Generated

/-- The values that a function was given, which are written out in its body. -/
def values : Generated → List Expression
  | .setupServer settings | .createServer settings _ | .freeCreateServer settings => settings.values
  | _ => []

/-- A declared function is called instead of doing something else. -/
def delegated (otherwise : List String) : Option Call → List String
  | some delegate => [delegate.callee.name]
  | none => otherwise

/-- The functions that a function refers to, but for its values. -/
def callees : Generated → List String
  | .main => ["setup_server"]
  | .setupServer _ => ["initialize_tools", "register_handlers"]
  | .listTools accessors => accessors.map (·.name)
  | .execute _ (.handler call) => [call.callee.name]
  | .toolboxInfo delegate _ _ => delegated [] delegate
  | .toolboxTools delegate accessors => delegated (accessors.map (·.callee.name)) delegate
  | .toolboxDispatch delegate arms _ => delegated (arms.map ("execute_" ++ ·.2)) delegate
  | .createServer _ registrations => registrations.flatMap Registration.callees
  | .startServer hook => "create_server" :: if hook then ["on_initialize"] else []
  | .createAndStart => ["start_server"]
  | .freeCreateServer _ => ["setup_handlers"]
  | .freeStartServer => ["create_server"]
  | .registerHandlers | .execute _ (.placeholder _) | .setupHandlers => []

theorem references_listOf (elements : List (List Tree)) :
    references (listOf elements) = elements.flatMap references := by
  rw [← references_commas]
  exact references_group .bracket _

theorem references_accessors (accessors : List Call) :
    references (listOf (accessors.map fun accessor => accessor.print [])) =
      accessors.map (·.callee.name) := by
  rw [references_listOf, List.flatMap_map, List.map_eq_flatMap]
  congr 1
  funext accessor
  exact accessor.references_print []

theorem references_newServer (settings : Settings) (rest : List Tree) :
    references (newServer settings ++ rest) =
      settings.values.flatMap (references ·.print) ++ references rest := by
  have plain : "Self" ∉ [runtimeCrate, "Server", "new"] := by decide
  unfold newServer runtimePath
  rw [references_letBind, references_call_rooted plain]
  rfl

theorem references_placeholder (tool : String) :
    references (executionBody (.placeholder tool)) = [] := by
  have plain : "Self" ∉ ["core", "result", "Result"] ++ ["Ok"] := by decide
  have text : "Self" ∉ [runtimeCrate, "Content", "text"] := by decide
  unfold executionBody resultPath runtimePath
  rw [references_call_rooted plain, List.flatMap_singleton, references_listOf,
    List.flatMap_singleton, references_call_rooted text]
  rfl

theorem references_registerStatement (registration : Registration) (rest : List Tree) :
    references (registerStatement registration ++ rest) =
      registration.callees ++ references rest := by
  obtain ⟨property, handler⟩ := registration
  have accessor := Call.references_print ⟨.associated, property⟩ []
  have wrapped (constructor : String) (plain : "Self" ≠ constructor) (handler : Ident) :
      references (call (optionPath "Some") [call (runtimePath ["ToolHandler", constructor])
        [[name "Self"] ++ op "::" ++ [.ident handler]]]) = [handler.name] := by
    have absent : "Self" ∉ [runtimeCrate, "ToolHandler", constructor] := by
      simp [runtimeCrate, plain]
    unfold optionPath runtimePath
    rw [references_call_rooted (by decide), List.flatMap_singleton, references_call_rooted absent,
      List.flatMap_singleton, references_ofSelf]
  unfold registerStatement
  rw [references_statement, references_method (by decide), List.flatMap_cons,
    List.flatMap_singleton]
  congr 1
  refine congrArg₂ (· ++ ·) accessor ?_
  cases handler with
  | none =>
      change references (optionPath "None") = []
      decide +kernel
  | synchronous handler => exact wrapped "from_fn" (by decide) handler
  | asynchronous handler => exact wrapped "new" (by decide) handler

theorem references_registrations (registrations : List Registration) (rest : List Tree) :
    references (registrations.flatMap registerStatement ++ rest) =
      registrations.flatMap Registration.callees ++ references rest := by
  induction registrations with
  | nil => rfl
  | cons first others ih =>
      rw [List.flatMap_cons, List.append_assoc, references_registerStatement, ih,
        List.flatMap_cons, List.append_assoc]

/-- An arm of the choice among the tools refers to the function that runs the tool. -/
theorem references_arm (tool property : String) (rest : List Tree) :
    references ([.literal tool] ++ op "=>" ++
        method [name "self"] ("execute_" ++ property) [[name "arguments"]] ++ op "," ++ rest) =
      ("execute_" ++ property) :: references rest := by
  have run := Call.references_print ⟨.method, ⟨false, "execute_" ++ property⟩⟩ [[name "arguments"]]
  have arrow := references_separated (show Separates '>' by decide) false
    [.literal tool, .punct '=' true]
    (method [name "self"] ("execute_" ++ property) [[name "arguments"]])
  rw [List.append_assoc]
  refine (references_separated (by decide) false _ rest).trans ?_
  exact congrArg (· ++ references rest) (arrow.trans run)

/-- The choice among the tools refers to the functions that run them, in order. -/
theorem references_dispatchBody (arms : List (String × String)) :
    references (dispatchBody arms) = arms.map ("execute_" ++ ·.2) := by
  unfold dispatchBody
  change references [brace _] = _
  rw [brace, references_group]
  simp only [List.append_assoc]
  induction arms with
  | nil => decide +kernel
  | cons arm arms ih =>
      have first := references_arm arm.1 arm.2
      simp only [List.append_assoc] at first
      rw [List.flatMap_cons]
      simp only [List.append_assoc]
      rw [first, ih, List.map_cons]

/-- **What a made function refers to**, in order: its callees, with what its values refer to in one
place among them. -/
theorem references_body (generated : Generated) :
    ∃ before after, references generated.function.body =
        before ++ generated.values.flatMap (references ·.print) ++ after ∧
      before ++ after = generated.callees := by
  have plain {generated : Generated} (free : generated.values = [])
      (same : references generated.function.body = generated.callees) :
      ∃ before after, references generated.function.body =
          before ++ generated.values.flatMap (references ·.print) ++ after ∧
        before ++ after = generated.callees :=
    ⟨generated.callees, [], by simp [free, same], List.append_nil _⟩
  cases generated with
  | main => exact plain rfl (by decide +kernel)
  | setupServer settings =>
      refine ⟨["initialize_tools"], ["register_handlers"], ?_, rfl⟩
      change references (letBind "tools" _ ++ newServer settings ++ _ ++ _ ++ _) = _
      simp only [List.append_assoc]
      rw [references_letBind, references_newServer]
      rfl
  | listTools accessors =>
      refine plain rfl ?_
      have listed := references_accessors (accessors.map fun ident => ⟨.associated, ident⟩)
      rw [List.map_map, List.map_map] at listed
      exact listed
  | registerHandlers => exact plain rfl (by decide +kernel)
  | execute property execution =>
      refine plain rfl ?_
      cases execution with
      | handler call => exact call.references_print [[name "arguments"]]
      | placeholder tool => exact references_placeholder tool
  | toolboxInfo delegate toolbox description =>
      refine plain rfl ?_
      cases delegate with
      | some target => exact target.references_print []
      | none => rfl
  | toolboxTools delegate accessors =>
      refine plain rfl ?_
      cases delegate with
      | some target => exact target.references_print []
      | none => exact references_accessors accessors
  | toolboxDispatch delegate arms idle =>
      refine plain rfl ?_
      cases delegate with
      | some target =>
          cases idle <;> exact target.references_print [[name "name"], [name "arguments"]]
      | none => cases idle <;> exact references_dispatchBody arms
  | createServer settings registrations =>
      refine ⟨[], _, ?_, List.nil_append _⟩
      change references
        (newServer settings ++ registrations.flatMap registerStatement ++ [name "server"]) = _
      rw [List.append_assoc, references_newServer, references_registrations]
      exact congrArg (_ ++ ·) (List.append_nil _)
  | startServer hook =>
      refine plain rfl ?_
      cases hook <;> decide +kernel
  | createAndStart => exact plain rfl (by decide +kernel)
  | freeCreateServer settings =>
      refine ⟨[], ["setup_handlers"], ?_, rfl⟩
      change references (newServer settings ++ _ ++ _) = _
      rw [List.append_assoc, references_newServer]
      rfl
  | freeStartServer => exact plain rfl (by decide +kernel)
  | setupHandlers => exact plain rfl (by decide +kernel)

end Generated

section Closure

variable {block : ImplBlock}

theorem name_mem_functionNames {member : Member}
    (inside : member ∈ (Outline.ofBlock block).members) : member.name ∈ block.functionNames := by
  unfold ImplBlock.functionNames
  rw [ImplBlock.filterMap_name?]
  exact List.mem_map_of_mem inside

theorem tagged_mem_functionNames {tag : Tag} {entry : Member × Marking}
    (tagged : entry ∈ (Outline.ofBlock block).tagged tag) :
    entry.1.name ∈ block.functionNames :=
  name_mem_functionNames ((tagged_sublist _ tag).subset (List.mem_map_of_mem tagged))

theorem handler_mem_functionNames {binding : Binding} {handler : Member}
    (bound : binding ∈ (Outline.ofBlock block).bindings)
    (handles : binding.handler = some handler) :
    handler.name ∈ block.functionNames := by
  obtain ⟨entry, _, rfl⟩ := List.mem_map.mp bound
  have candidate := List.mem_of_find?_eq_some handles
  exact name_mem_functionNames (List.mem_filter.mp candidate).1

theorem hook_mem_functionNames {hook : Member}
    (found : (Outline.ofBlock block).connectHook? = some hook) :
    "on_initialize" ∈ block.functionNames := by
  have fits := List.find?_some found
  rw [Bool.and_eq_true, beq_iff_eq] at fits
  rw [← fits.2]
  exact name_mem_functionNames (List.mem_of_find?_eq_some found)

/-- A body that hands over to the block calls a function of the block, or what it calls otherwise.
-/
theorem mem_delegated {function callee : String} {otherwise : List String}
    (called : callee ∈
      Generated.delegated otherwise (delegateTo? (Outline.ofBlock block) function)) :
    callee ∈ block.functionNames ∨ callee ∈ otherwise := by
  cases found : (Outline.ofBlock block).function? function with
  | none =>
      rw [delegateTo?, found] at called
      exact .inr called
  | some member =>
      rw [delegateTo?, found] at called
      cases List.mem_singleton.mp called
      exact .inl (name_mem_functionNames (List.mem_of_find?_eq_some found))

/-- What some functions refer to is declared by a block or considered for it. -/
def Closed (block : ImplBlock) (considered functions : List Generated) : Prop :=
  ∀ generated ∈ functions, ∀ callee ∈ generated.callees,
    callee ∈ block.functionNames ∨ callee ∈ considered.map (·.functionName)

/-- All that the members of a server call is declared by the block or considered for it. -/
theorem closed_server (block : ImplBlock) (makesMain : Bool) (settings : Settings) :
    let considered := serverFunctions makesMain settings (Outline.ofBlock block)
    Closed block considered considered := by
  intro considered generated inside callee called
  have listed : ["setup_server", "initialize_tools", "register_handlers"] ⊆
      considered.map (·.functionName) := by
    cases makesMain with
    | false => exact List.Subset.refl _
    | true => exact List.subset_cons_self _ _
  rcases List.mem_append.mp inside with entry | member
  · have isMain : generated = .main := by
      cases makesMain with
      | false => cases entry
      | true => exact List.mem_singleton.mp entry
    subst isMain
    cases List.mem_singleton.mp called
    exact .inr (listed List.mem_cons_self)
  · simp only [List.mem_cons, List.not_mem_nil, or_false] at member
    rcases member with rfl | rfl | rfl
    · exact .inr (listed (List.mem_cons_of_mem _ called))
    · obtain ⟨_, among, rfl⟩ := List.mem_map.mp called
      obtain ⟨entry, tagged, rfl⟩ := List.mem_map.mp among
      exact .inl (tagged_mem_functionNames tagged)
    · cases called

/-- All that a toolbox calls is declared by the block or considered for it. -/
theorem closed_toolbox (block : ImplBlock) (toolbox description : String) :
    let considered := (Outline.ofBlock block).bindings.map executionOf
    Closed block considered
      (considered ++ conformanceFunctions (Outline.ofBlock block) toolbox description) := by
  intro considered generated inside callee called
  rcases List.mem_append.mp inside with execution | interface
  · obtain ⟨binding, bound, rfl⟩ := List.mem_map.mp execution
    unfold executionOf Binding.execution at called
    cases handles : binding.handler with
    | none =>
        rw [handles] at called
        cases called
    | some handler =>
        rw [handles] at called
        cases List.mem_singleton.mp called
        exact .inl (handler_mem_functionNames bound handles)
  · simp only [conformanceFunctions, List.mem_cons, List.not_mem_nil, or_false] at interface
    rcases interface with rfl | rfl | rfl
    · exact .inl ((mem_delegated called).resolve_right List.not_mem_nil)
    · refine .inl ((mem_delegated called).elim id fun listed => ?_)
      obtain ⟨_, among, rfl⟩ := List.mem_map.mp listed
      obtain ⟨entry, tagged, rfl⟩ := List.mem_map.mp among
      exact tagged_mem_functionNames tagged
    · -- The functions that run tools are considered, for every tool that is dispatched to.
      refine (mem_delegated called).imp_right fun chosen => ?_
      obtain ⟨_, among, rfl⟩ := List.mem_map.mp chosen
      obtain ⟨binding, bound, rfl⟩ := List.mem_map.mp among
      exact List.mem_map.mpr ⟨_, List.mem_map_of_mem bound, rfl⟩

/-- A registration calls the accessor of a property and its handler, which the block declares. -/
theorem callees_registrationOf {binding : Binding}
    (bound : binding ∈ (Outline.ofBlock block).bindings) :
    ∀ callee ∈ (registrationOf binding).callees, callee ∈ block.functionNames := by
  intro callee called
  rcases List.mem_cons.mp called with rfl | called
  · obtain ⟨entry, tagged, rfl⟩ := List.mem_map.mp bound
    exact tagged_mem_functionNames tagged
  · cases handles : binding.handler with
    | none =>
        simp only [registrationOf, handles] at called
        cases called
    | some handler =>
        have same : callee = handler.name := by
          simp only [registrationOf, handles] at called
          split at called <;> exact List.mem_singleton.mp called
        rw [same]
        exact handler_mem_functionNames bound handles

/-- All that a factory and a provider call is declared by the block or considered for it. -/
theorem closed_globalServer (block : ImplBlock) (settings : Settings) :
    let considered : List Generated :=
      [.createServer settings ((Outline.ofBlock block).bindings.map registrationOf),
        .startServer (Outline.ofBlock block).connectHook?.isSome]
    Closed block considered (considered ++ providerFunctions block) := by
  intro considered generated inside callee called
  rcases List.mem_append.mp inside with factory | provider
  · simp only [considered, List.mem_cons, List.not_mem_nil, or_false] at factory
    rcases factory with rfl | rfl
    · obtain ⟨_, among, called⟩ := List.mem_flatMap.mp called
      obtain ⟨binding, bound, rfl⟩ := List.mem_map.mp among
      exact .inl (callees_registrationOf bound callee called)
    · rcases List.mem_cons.mp called with rfl | called
      · exact .inr List.mem_cons_self
      · cases found : (Outline.ofBlock block).connectHook? with
        | none =>
            rw [found] at called
            cases called
        | some hook =>
            rw [found] at called
            cases List.mem_singleton.mp called
            exact .inl (hook_mem_functionNames found)
  · have isProvider : generated = .createAndStart := by
      unfold providerFunctions at provider
      split at provider
      · cases provider
      · exact List.mem_singleton.mp provider
    subst isProvider
    cases List.mem_singleton.mp called
    exact .inr (List.mem_cons_of_mem _ List.mem_cons_self)

end Closure

section Values

/-- Values were written as arguments of a marking, or refer to nothing. -/
def Written (marking : Marking) (values : List Expression) : Prop :=
  ∀ value ∈ values,
    (∃ argument ∈ marking.arguments, argument.value = value) ∨ references value.print = []

/-- The settings of a server are values that are written in the marking, or refer to nothing. -/
theorem written_settings {marking : Marking} {schema : Schema} {resolved : ResolvedArguments}
    {settings : Settings} (accepted : schema.resolve marking.arguments = .ok resolved)
    (inert : schema.defaults.flatMap (references ·.print) = [])
    (settled : settingsOf resolved = .ok settings) : Written marking settings.values := by
  unfold settingsOf liftArguments at settled
  simp only [bind_eq_ok, mapError_eq_ok] at settled
  obtain ⟨title, first, version, second, capabilities, third, configuration, fourth, result⟩ :=
    settled
  cases result
  have given {label : String} {value : Expression}
      (required : resolved.required label = .ok value) :
      (∃ argument ∈ marking.arguments, argument.value = value) ∨ references value.print = [] := by
    have found : resolved.get? label = some value := by
      unfold ResolvedArguments.required at required
      split at required
      · rename_i found
        cases required
        exact found
      · cases required
    exact (Schema.get?_resolve accepted found).imp_right (List.flatMap_eq_nil_iff.mp inert value)
  intro value inside
  simp only [Settings.values, List.mem_cons, List.not_mem_nil, or_false] at inside
  rcases inside with rfl | rfl | rfl | rfl
  · exact given first
  · exact given second
  · exact given third
  · exact given fourth

theorem values_serverFunctions (makesMain : Bool) (settings : Settings) (outline : Outline) :
    (serverFunctions makesMain settings outline).flatMap Generated.values = settings.values := by
  cases makesMain <;> rfl

theorem values_toolbox (outline : Outline) (toolbox description : String) :
    (outline.bindings.map executionOf ++
      conformanceFunctions outline toolbox description).flatMap Generated.values = [] := by
  rw [List.flatMap_append, List.flatMap_map]
  simp [executionOf, conformanceFunctions, Generated.values]

theorem values_globalServer (block : ImplBlock) (settings : Settings)
    (registrations : List Registration) (hook : Bool) :
    ([Generated.createServer settings registrations, .startServer hook] ++
      providerFunctions block).flatMap Generated.values = settings.values := by
  unfold providerFunctions
  split <;> rfl

end Values

/-- The expansions of a marking that succeed, with the names of the functions that the marked item
declares: on a block, and on its own. -/
inductive Accepted (marking : Marking) : List String → Expansion → Prop
  | attached (tag : Tag) (block : ImplBlock) {expansion : Expansion}
      (blocks : tag.expandsBlocks = true)
      (expanded : expandBlock tag marking block = .ok expansion) :
      Accepted marking block.functionNames expansion
  | freestanding {expansion : Expansion} (expanded : expandFreestanding marking = .ok expansion) :
      Accepted marking [] expansion

/-- A made function refers to functions that are there. -/
structure Resolves (marking : Marking) (own : List String) (expansion : Expansion)
    (generated : Generated) : Prop where
  /-- What it was given comes from the marking. -/
  written : Written marking generated.values
  refers : ∃ before after, references generated.function.body =
      before ++ generated.values.flatMap (references ·.print) ++ after ∧
    before ++ after = generated.callees
  /-- Each callee is declared, and either by the marked item or by the expansion. -/
  declared : ∀ callee ∈ generated.callees, callee ∈ expansion.declaredNames ∧
    (callee ∈ own ↔ callee ∉ expansion.inherentNames)

/-- Where all callees are declared before or among what was made, all references are resolved. -/
theorem resolves_of_closed {marking : Marking} {own : List String} {expansion : Expansion}
    {functions : List Generated} (made : expansion.functions = functions.map (·.function))
    (written : Written marking (functions.flatMap Generated.values))
    (declared : expansion.declaredNames = own ++ expansion.inherentNames)
    (apart : ∀ function ∈ expansion.inherentNames, function ∉ own)
    (closed : ∀ generated ∈ functions, ∀ callee ∈ generated.callees,
      callee ∈ own ∨ callee ∈ expansion.inherentNames) :
    ∀ function ∈ expansion.functions, ∃ generated, function = Generated.function generated ∧
      Resolves marking own expansion generated := by
  intro function listed
  rw [made] at listed
  obtain ⟨generated, inside, rfl⟩ := List.mem_map.mp listed
  refine ⟨generated, rfl, ?_, generated.references_body, ?_⟩
  · intro value valued
    exact written value (List.mem_flatMap.mpr ⟨generated, inside, valued⟩)
  · intro callee called
    have found := closed generated inside callee called
    refine ⟨?_, fun owned made => apart callee made owned, found.resolve_right⟩
    rw [declared]
    exact List.mem_append.mpr found

/-- What an expansion makes of a block resolves, if what was considered for it is closed. -/
theorem Makes.resolves {marking : Marking} {block : ImplBlock} {expansion : Expansion}
    {considered implemented : List Generated} (makes : Makes block expansion considered implemented)
    (closed : Closed block considered (considered ++ implemented))
    (written : Written marking ((considered ++ implemented).flatMap Generated.values)) :
    ∀ function ∈ expansion.functions, ∃ generated, function = Generated.function generated ∧
      Resolves marking block.functionNames expansion generated := by
  have kept : admitted (Outline.ofBlock block) considered ++ implemented ⊆
      considered ++ implemented :=
    (List.filter_sublist.append (List.Sublist.refl _)).subset
  refine resolves_of_closed makes.functions ?_ makes.declared makes.undeclared ?_
  · intro value valued
    obtain ⟨generated, inside, valued⟩ := List.mem_flatMap.mp valued
    exact written value (List.mem_flatMap.mpr ⟨generated, kept inside, valued⟩)
  · intro generated inside callee called
    by_cases declared : callee ∈ block.functionNames
    · exact .inl declared
    · -- The guard admits what the block does not declare.
      obtain ⟨origin, listed, rfl⟩ :=
        List.mem_map.mp ((closed generated (kept inside) callee called).resolve_left declared)
      refine .inr ?_
      rw [makes.inherent]
      refine List.mem_map_of_mem (List.mem_filter.mpr ⟨listed, ?_⟩)
      rw [Bool.not_eq_true', ← Bool.not_eq_true, declares_iff]
      exact declared

/-- The functions of a freestanding expansion call each other and nothing else. -/
theorem resolves_freestanding {marking : Marking} {expansion : Expansion}
    (expanded : expandFreestanding marking = .ok expansion) :
    ∀ function ∈ expansion.functions, ∃ generated, function = Generated.function generated ∧
      Resolves marking [] expansion generated := by
  unfold expandFreestanding liftArguments at expanded
  simp only [bind_eq_ok, mapError_eq_ok] at expanded
  obtain ⟨resolved, arguments, settings, settled, result⟩ := expanded
  have written := written_settings arguments (by decide +kernel) settled
  have made : expansion.functions =
      [Generated.freeCreateServer settings, .freeStartServer, .setupHandlers].map (·.function) := by
    cases result
    rfl
  have inherent : expansion.inherentNames =
      ["create_server", "start_server", "setup_handlers"] := by
    cases result
    rfl
  have declared : expansion.declaredNames = [] ++ expansion.inherentNames := by
    cases result
    rfl
  refine resolves_of_closed made written declared (fun _ _ => List.not_mem_nil) ?_
  intro generated inside callee called
  rw [inherent]
  refine .inr ?_
  simp only [List.mem_cons, List.not_mem_nil, or_false] at inside
  rcases inside with rfl | rfl | rfl
  · cases List.mem_singleton.mp called
    decide
  · cases List.mem_singleton.mp called
    decide
  · cases called

/-- **No dangling references.** However an expansion was accepted, each function that it made
refers, outside the values written in the marking, only to functions that are declared afterwards:
to one of the marked item when this has one of that name, which then was not made, and else to one
that was made. -/
theorem functions_resolve {marking : Marking} {own : List String} {expansion : Expansion}
    (accepted : Accepted marking own expansion) :
    ∀ function ∈ expansion.functions, ∃ generated, function = Generated.function generated ∧
      Resolves marking own expansion generated := by
  cases accepted with
  | attached tag block blocks expanded =>
      cases tag with
      | server =>
          obtain ⟨resolved, wanted, settings, serves, rfl⟩ := expandServer_eq_ok.mp expanded
          have written := written_settings serves.arguments (by decide +kernel) serves.settled
          have closed := closed_server block (wanted.getD true &&
            (!(Outline.ofBlock block).entryPoint || resolved.isExplicit "generate_main")) settings
          refine (makes_server block _).resolves (by rwa [List.append_nil]) ?_
          rw [List.append_nil, values_serverFunctions]
          exact written
      | toolbox =>
          obtain ⟨toolbox, description, _, rfl⟩ := expandToolbox_eq_ok.mp expanded
          refine (makes_toolbox block _).resolves (closed_toolbox block toolbox description) ?_
          rw [values_toolbox]
          exact fun value inside => absurd inside List.not_mem_nil
      | globalServer =>
          obtain ⟨settings, founds, rfl⟩ := expandGlobalServer_eq_ok.mp expanded
          obtain ⟨resolved, arguments, settled⟩ := founds.arguments
          have written := written_settings arguments (by decide +kernel) settled
          refine (makes_globalServer block settings).resolves
            (closed_globalServer block settings) ?_
          rw [values_globalServer]
          exact written
      | tool => cases blocks
      | resource => cases blocks
      | param => cases blocks
  | freestanding expanded => exact resolves_freestanding expanded

/-- A block that makes its server itself. -/
def ownFactory : ImplBlock where
  selfType := .ofTrees (.path ⟨false, "Kit"⟩ false true) [name "Kit"]
  members := [.declaration rawProperty, .function { sig := { ident := ⟨true, "create_server"⟩ } }]

/-- Its server is started and provided by functions that were made. -/
theorem functions_resolve_of_ownFactory :
    ∃ expansion, expandBlock .globalServer founding ownFactory = .ok expansion ∧
      expansion.inherentNames = ["start_server"] ∧
      (expansion.functions.flatMap fun function => references function.body) =
        ["create_server", "start_server"] ∧
      ∀ function ∈ expansion.functions, ∃ generated, function = Generated.function generated ∧
        Resolves founding ownFactory.functionNames expansion generated := by
  have made : (expandBlock .globalServer founding ownFactory).toOption.map (fun expansion =>
      (expansion.inherentNames, expansion.functions.flatMap fun function =>
        references function.body)) =
          some (["start_server"], ["create_server", "start_server"]) := by
    decide +kernel
  obtain ⟨expansion, expanded, found⟩ := exists_of_map_toOption made
  obtain ⟨named, called⟩ := Prod.mk.inj found
  exact ⟨expansion, expanded, named, called,
    functions_resolve (.attached .globalServer ownFactory rfl expanded)⟩

end Toolsmith
