import Mathlib
import Toolsmith.Proofs.Expansion.Conservation

/-! # The guard against declared members over whole expansions

Every function that an expansion makes for a type passes the guard against the functions that the
block declares. The guard compares with these only, so that two functions made by one expansion
could still have the same name; their names are told apart by how they are formed. `Makes` says what
an expansion makes of a block, and with it which functions the type has afterwards
(`expandBlock_declares_once`).
-/

namespace Toolsmith
namespace Source

/-- The names of the functions that a block declares, without raw marks. -/
def ImplBlock.functionNames (block : ImplBlock) : List String :=
  block.members.filterMap ImplMember.name?

def ImplMember.function? : ImplMember → Option Function
  | .function item => some item
  | _ => none

end Source

open Source

namespace MadeItem

/-- The names of the functions that a made item declares. What implements a trait declares none. -/
def inherentNames : MadeItem → List String
  | .function item => [item.sig.ident.name]
  | .block item => if item.trait.isNone then item.functionNames else []

def functions : MadeItem → List Function
  | .function item => [item]
  | .block item => item.members.filterMap ImplMember.function?

end MadeItem

namespace Expansion

def items (expansion : Expansion) : List MadeItem := expansion.declarations.flatMap (·.items)

/-- The names of the functions that an expansion made, but for those that implement a trait. -/
def inherentNames (expansion : Expansion) : List String :=
  expansion.items.flatMap MadeItem.inherentNames

/-- The functions that an expansion made, those that implement a trait included. -/
def functions (expansion : Expansion) : List Function :=
  expansion.items.flatMap MadeItem.functions

def hostNames (expansion : Expansion) : List String :=
  match expansion.host with
  | .block block => block.functionNames
  | _ => []

/-- The names of the functions that are declared after an expansion: in the host, with what was
added to it, and beside it. -/
def declaredNames (expansion : Expansion) : List String :=
  expansion.hostNames ++ expansion.outside.flatMap MadeItem.inherentNames

theorem items_adding (expansion : Expansion) (form : Form) (items : List MadeItem) :
    (expansion.adding form items).items = expansion.items ++ items := by
  cases items with
  | nil => simp [adding]
  | cons item rest => simp [adding, Expansion.items]

/-- Items that are not members of the host declare their functions beside it. -/
theorem declaredNames_adding (expansion : Expansion) (form : Form) (items : List MadeItem) :
    (expansion.adding form items).declaredNames =
      expansion.declaredNames ++
        if form = .memberSet then [] else items.flatMap MadeItem.inherentNames := by
  have same : (expansion.adding form items).hostNames = expansion.hostNames := by
    unfold hostNames
    rw [host_adding]
  unfold declaredNames
  rw [same, outside_adding, List.flatMap_append, List.append_assoc]
  split <;> rfl

end Expansion

theorem declares_iff {block : ImplBlock} {function : String} :
    (Outline.ofBlock block).declares function = true ↔ function ∈ block.functionNames := by
  unfold ImplBlock.functionNames Outline.declares
  rw [ImplBlock.filterMap_name?]
  simp

theorem filterMap_name?_functions (functions : List Generated) :
    (functions.map fun item => ImplMember.function item.function).filterMap ImplMember.name? =
      functions.map (·.functionName) := by
  rw [List.filterMap_map, ← List.filterMap_eq_map]
  congr 1
  funext generated
  exact congrArg some generated.asMember_name

theorem functionNames_emitted (block : ImplBlock) (functions : List Generated) :
    (emitted block functions).functionNames =
      block.functionNames ++ functions.map (·.functionName) := by
  have kept : block.stripped.functionNames = block.functionNames := by
    unfold ImplBlock.functionNames
    rw [ImplBlock.filterMap_name?, ImplBlock.filterMap_name?, Outline.ofBlock_stripped]
  rw [← kept, ← filterMap_name?_functions]
  exact List.filterMap_append

theorem functionNames_beside (block : ImplBlock) (trait : Option (List Tree))
    (functions : List Generated) :
    (beside block trait functions).functionNames = functions.map (·.functionName) :=
  filterMap_name?_functions functions

theorem functions_beside (block : ImplBlock) (trait : Option (List Tree))
    (functions : List Generated) :
    (MadeItem.block (beside block trait functions)).functions = functions.map (·.function) :=
  ImplBlock.functions_beside block trait functions

theorem inherentNames_functions (functions : List Generated) :
    (functions.map fun item => MadeItem.function item.function).flatMap MadeItem.inherentNames =
      functions.map (·.functionName) := by
  rw [List.flatMap_map, List.map_eq_flatMap]
  congr 1
  funext generated
  exact congrArg (fun text => [text]) generated.asMember_name

theorem functions_functions (functions : List Generated) :
    (functions.map fun item => MadeItem.function item.function).flatMap MadeItem.functions =
      functions.map (·.function) := by
  rw [List.flatMap_map, List.map_eq_flatMap]
  rfl

/-- What an expansion makes of a block: of the functions considered for the type those that the
block does not declare, and functions that implement traits. -/
structure Makes (block : ImplBlock) (expansion : Expansion)
    (considered implemented : List Generated) :
    Prop where
  inherent : expansion.inherentNames =
    (admitted (Outline.ofBlock block) considered).map (·.functionName)
  functions : expansion.functions =
    (admitted (Outline.ofBlock block) considered ++ implemented).map (·.function)
  declared : expansion.declaredNames = block.functionNames ++ expansion.inherentNames

/-- Adding those functions that the block does not declare makes what was considered for it. -/
theorem makes_members (block : ImplBlock) (considered : List Generated) :
    let functions := admitted (Outline.ofBlock block) considered
    Makes block ({ host := .block (emitted block functions) : Expansion }.adding .memberSet
      (functions.map fun item => .function item.function)) considered [] := by
  intro functions
  have inherent : ({ host := .block (emitted block functions) : Expansion }.adding .memberSet
      (functions.map fun item => .function item.function)).inherentNames =
        functions.map (·.functionName) := by
    unfold Expansion.inherentNames
    rw [Expansion.items_adding]
    exact inherentNames_functions functions
  refine ⟨inherent, ?_, ?_⟩
  · unfold Expansion.functions
    rw [Expansion.items_adding, List.append_nil]
    exact functions_functions functions
  · rw [inherent, ← functionNames_emitted, Expansion.declaredNames_adding]
    simp [Expansion.declaredNames, Expansion.hostNames, Expansion.outside]

/-- Implementing a trait beside the block makes the functions of the trait as well. -/
theorem Makes.implement {block : ImplBlock} {expansion : Expansion}
    {considered implemented : List Generated}
    (makes : Makes block expansion considered implemented) (form : Form)
    (trait : List Tree) (functions : List Generated) :
    Makes block (expansion.adding form [.block (beside block (some trait) functions)]) considered
      (implemented ++ functions) := by
  -- What implements a trait adds no names.
  have silent : [MadeItem.block (beside block (some trait) functions)].flatMap
      MadeItem.inherentNames = [] := rfl
  have inherent : (expansion.adding form
      [.block (beside block (some trait) functions)]).inherentNames = expansion.inherentNames := by
    unfold Expansion.inherentNames
    rw [Expansion.items_adding, List.flatMap_append, silent, List.append_nil]
  refine ⟨inherent.trans makes.inherent, ?_, ?_⟩
  · unfold Expansion.functions
    rw [Expansion.items_adding, List.flatMap_append, ← Expansion.functions, makes.functions,
      List.flatMap_singleton, functions_beside, ← List.map_append, List.append_assoc]
  · rw [inherent, Expansion.declaredNames_adding, silent, makes.declared]
    simp

theorem makes_server (block : ImplBlock) (considered : List Generated) :
    Makes block (serverExpansion block (admitted (Outline.ofBlock block) considered))
      considered [] :=
  have members := makes_members block considered
  ⟨members.inherent, members.functions, members.declared⟩

theorem makes_toolbox (block : ImplBlock) (implemented : List Generated) :
    Makes block (({ host := .block (emitted block (addedToToolbox block)) : Expansion }.adding
      .memberSet ((addedToToolbox block).map fun item => .function item.function)).adding
      .conformance [.block (toolboxBlock block implemented)])
      ((Outline.ofBlock block).bindings.map executionOf) implemented := by
  have members := makes_members block ((Outline.ofBlock block).bindings.map executionOf)
  exact members.implement .conformance (runtimePath ["Toolbox"]) implemented

/-- The functions that implement the provider of a server, unless the block has them. -/
def providerFunctions (block : ImplBlock) : List Generated :=
  if (Outline.ofBlock block).declares "create_and_start_server" then [] else [.createAndStart]

theorem inherentNames_peerBlocks (block : ImplBlock) (settings : Settings) :
    ((peerBlocks block settings).map MadeItem.block).flatMap MadeItem.inherentNames =
      (factoryFunctions block settings).map (·.functionName) := by
  unfold peerBlocks
  generalize factoryFunctions block settings = factory
  have provider : ((if (Outline.ofBlock block).declares "create_and_start_server" then []
      else [beside block (some (runtimePath ["ServerProvider"])) [.createAndStart]]).map
        MadeItem.block).flatMap MadeItem.inherentNames = [] := by
    split <;> rfl
  rw [List.map_append, List.flatMap_append, provider, List.append_nil]
  cases factory with
  | nil => rfl
  | cons first rest =>
      change (beside block none (first :: rest)).functionNames ++ [] = _
      rw [List.append_nil, functionNames_beside]

/-- The blocks beside a global server have the functions of its factory and its provider. -/
theorem functions_peerBlocks (block : ImplBlock) (settings : Settings) :
    ((peerBlocks block settings).map MadeItem.block).flatMap MadeItem.functions =
      (factoryFunctions block settings ++ providerFunctions block).map (·.function) := by
  unfold peerBlocks providerFunctions
  generalize factoryFunctions block settings = factory
  rw [List.map_append, List.flatMap_append, List.map_append]
  congr 1
  · cases factory with
    | nil => rfl
    | cons first rest =>
        change (MadeItem.block (beside block none (first :: rest))).functions ++ [] = _
        rw [List.append_nil, functions_beside]
  · split <;> rfl

/-- A global server makes its factory and its provider of a block. -/
theorem makes_globalServer (block : ImplBlock) (settings : Settings) :
    Makes block ({ host := .block block.stripped : Expansion }.adding .peerSet
      ((peerBlocks block settings).map .block))
      [.createServer settings ((Outline.ofBlock block).bindings.map registrationOf),
        .startServer (Outline.ofBlock block).connectHook?.isSome] (providerFunctions block) := by
  have inherent : ({ host := .block block.stripped : Expansion }.adding .peerSet
      ((peerBlocks block settings).map .block)).inherentNames =
        (factoryFunctions block settings).map (·.functionName) := by
    unfold Expansion.inherentNames
    rw [Expansion.items_adding]
    exact inherentNames_peerBlocks block settings
  refine ⟨inherent, ?_, ?_⟩
  · unfold Expansion.functions
    rw [Expansion.items_adding]
    exact functions_peerBlocks block settings
  · have host : ({ host := .block block.stripped : Expansion }).declaredNames =
        block.functionNames := by
      have kept := functionNames_emitted block []
      rw [emitted, withFunctions_nil, List.map_nil, List.append_nil] at kept
      exact (List.append_nil _).trans kept
    rw [inherent, Expansion.declaredNames_adding, host, ← inherentNames_peerBlocks]
    rfl

section Distinct

variable {block : ImplBlock} {expansion : Expansion} {considered implemented : List Generated}

/-- The guard keeps what is made apart from what the block declares. -/
theorem Makes.undeclared (makes : Makes block expansion considered implemented) :
    ∀ function ∈ expansion.inherentNames, function ∉ block.functionNames := by
  intro function made declared
  rw [makes.inherent] at made
  obtain ⟨generated, admitted, rfl⟩ := List.mem_map.mp made
  have passes := (List.mem_filter.mp admitted).2
  rw [declares_iff.mpr declared] at passes
  cases passes

/-- Where the block and the functions considered for it have no repeated names, the type has
none. -/
theorem Makes.nodup (makes : Makes block expansion considered implemented)
    (distinct : block.functionNames.Nodup)
    (apart : (considered.map (·.functionName)).Nodup) : expansion.declaredNames.Nodup := by
  rw [makes.declared]
  refine List.nodup_append'.mpr ⟨distinct, ?_, ?_⟩
  · rw [makes.inherent]
    exact apart.sublist (List.filter_sublist.map _)
  · intro function declared made
    exact makes.undeclared function made declared

end Distinct

/-- The functions considered for a server have different names. -/
theorem nodup_serverFunctions (makesMain : Bool) (settings : Settings) (outline : Outline) :
    ((serverFunctions makesMain settings outline).map (·.functionName)).Nodup := by
  cases makesMain with
  | false =>
      change ["setup_server", "initialize_tools", "register_handlers"].Nodup
      decide
  | true =>
      change ["main", "setup_server", "initialize_tools", "register_handlers"].Nodup
      decide

/-- The functions that run the tools have different names, where the functions of a block have. -/
theorem nodup_executions {block : ImplBlock} (distinct : block.functionNames.Nodup) :
    (((Outline.ofBlock block).bindings.map executionOf).map (·.functionName)).Nodup := by
  unfold ImplBlock.functionNames at distinct
  rw [ImplBlock.filterMap_name?] at distinct
  have names := nodup_tagged_names distinct .tool
  rw [List.filterMap_eq_map'] at names
  have formed : ((Outline.ofBlock block).bindings.map executionOf).map (·.functionName) =
      (((Outline.ofBlock block).tagged .tool).map fun entry => entry.1.name).map
        ("execute_" ++ ·) := by
    rw [Outline.bindings_eq, List.map_map, List.map_map, List.map_map]
    rfl
  rw [formed]
  exact names.map fun first second same => (String.append_right_inj _).mp same

/-- **Declared once.** A function that an expansion of a block makes for the type, in the block or
beside it, has no name that the block declares; and where the functions of the block have different
names, so have all functions of the type after the expansion. -/
theorem expandBlock_declares_once {tag : Tag} {marking : Marking} {block : ImplBlock}
    {expansion : Expansion} (blocks : tag.expandsBlocks = true)
    (expanded : expandBlock tag marking block = .ok expansion) :
    expansion.declaredNames = block.functionNames ++ expansion.inherentNames ∧
      (∀ function ∈ expansion.inherentNames, function ∉ block.functionNames) ∧
      (block.functionNames.Nodup → expansion.declaredNames.Nodup) := by
  cases tag with
  | server =>
      obtain ⟨resolved, wanted, settings, _, rfl⟩ := expandServer_eq_ok.mp expanded
      have makes := makes_server block (serverFunctions (wanted.getD true &&
        (!(Outline.ofBlock block).entryPoint || resolved.isExplicit "generate_main"))
        settings (Outline.ofBlock block))
      exact ⟨makes.declared, makes.undeclared, fun distinct =>
        makes.nodup distinct (nodup_serverFunctions _ _ _)⟩
  | toolbox =>
      obtain ⟨toolbox, description, _, rfl⟩ := expandToolbox_eq_ok.mp expanded
      have makes := makes_toolbox block
        (conformanceFunctions (Outline.ofBlock block) toolbox description)
      exact ⟨makes.declared, makes.undeclared, fun distinct =>
        makes.nodup distinct (nodup_executions distinct)⟩
  | globalServer =>
      obtain ⟨settings, _, rfl⟩ := expandGlobalServer_eq_ok.mp expanded
      have makes := makes_globalServer block settings
      refine ⟨makes.declared, makes.undeclared, fun distinct => makes.nodup distinct ?_⟩
      change ["create_server", "start_server"].Nodup
      decide
  | tool => cases blocks
  | resource => cases blocks
  | param => cases blocks

theorem exists_of_map_toOption {ε α β : Type} {result : Except ε α} {read : α → β} {value : β}
    (found : result.toOption.map read = some value) :
    ∃ output, result = .ok output ∧ read output = value := by
  cases result with
  | error problem => cases found
  | ok output => exact ⟨output, rfl, Option.some.inj found⟩

/-- A kit that runs one of its two tools itself. -/
def ownKit : ImplBlock where
  selfType := .ofTrees (.path ⟨false, "Kit"⟩ false true) [name "Kit"]
  members := [.declaration rawProperty, .declaration namedProperty,
    .function { sig := { ident := ⟨true, "execute_say"⟩ } }]

/-- Of the two functions considered for the kit one is made. -/
theorem expandBlock_declares_once_of_ownKit :
    ∃ expansion, expandBlock .toolbox kitMarking ownKit = .ok expansion ∧
      expansion.inherentNames = ["execute_type"] ∧
      expansion.declaredNames = ["type", "say", "execute_say"] ++ expansion.inherentNames ∧
      (∀ function ∈ expansion.inherentNames, function ∉ ownKit.functionNames) ∧
      expansion.declaredNames.Nodup := by
  have made : (expandBlock .toolbox kitMarking ownKit).toOption.map (·.inherentNames) =
      some ["execute_type"] := by decide +kernel
  obtain ⟨expansion, expanded, names⟩ := exists_of_map_toOption made
  obtain ⟨declared, undeclared, distinct⟩ := expandBlock_declares_once rfl expanded
  exact ⟨expansion, expanded, names, declared, undeclared, distinct (by decide +kernel)⟩

end Toolsmith
