import Mathlib
import Toolsmith.Proofs.Expansion.Factory

/-! # Toolboxes and global servers expanded again

The functions that a toolbox adds to its block are members of the block when it is expanded again,
and one of them may now be the handler of another tool: beside a property `x_handler`, the property
`execute_x` finds `execute_x_handler`. The table of bindings is then another one. What is made from
it stays the same, because the functions that would show the difference are already there
(`addedToToolbox_again`), the interface only uses the names of the tools and their properties
(`conformanceFunctions_emitted`), and a function that was added is not asynchronous
(`checkSynchronous_emitted`). A global server adds nothing to its block.
-/

namespace Toolsmith

open Source

section Executions

variable {block : ImplBlock} {functions : List Generated}

/-- Every function runs the tool of a property. -/
def AllExecute (functions : List Generated) : Prop :=
  ∀ generated ∈ functions, ∃ property execution, generated = .execute property execution

theorem allExecute_addedToToolbox (block : ImplBlock) : AllExecute (addedToToolbox block) := by
  intro generated inside
  obtain ⟨binding, _, rfl⟩ := List.mem_map.mp (List.mem_filter.mp inside).1
  exact ⟨binding.property.name, binding.execution, rfl⟩

/-- A function that runs a tool is not one with a name of another beginning. -/
theorem AllExecute.functionName_ne (all : AllExecute functions) (function : String)
    (other : ¬ "execute_".toList <+: function.toList) :
    ∀ generated ∈ functions, generated.functionName ≠ function := by
  intro generated inside same
  obtain ⟨property, execution, rfl⟩ := all generated inside
  apply other
  rw [← same, Generated.functionName, String.toList_append]
  exact List.prefix_append _ _

/-- The first function with a name stays the first when others are added. -/
theorem function?_emitted {function : String}
    (others : ∀ generated ∈ functions, generated.functionName ≠ function) :
    (Outline.ofBlock (emitted block functions)).function? function =
      (Outline.ofBlock block).function? function := by
  have absent : (functions.map Generated.asMember).find? (fun member =>
      member.isFunction && member.name == function) = none := by
    rw [List.find?_eq_none]
    intro member inside
    obtain ⟨generated, added, rfl⟩ := List.mem_map.mp inside
    simp [others generated added]
  simp only [Outline.function?, ofBlock_emitted, List.find?_append, absent, Option.or_none]

theorem delegateTo?_emitted {function : String}
    (others : ∀ generated ∈ functions, generated.functionName ≠ function) :
    delegateTo? (Outline.ofBlock (emitted block functions)) function =
      delegateTo? (Outline.ofBlock block) function := by
  rw [delegateTo?, delegateTo?, function?_emitted others]

/-- Added functions of other names do not change whether a function is declared. -/
theorem declares_emitted_of_ne {function : String}
    (others : ∀ generated ∈ functions, generated.functionName ≠ function) :
    (Outline.ofBlock (emitted block functions)).declares function =
      (Outline.ofBlock block).declares function := by
  have absent : functions.any (·.functionName == function) = false := by
    rw [List.any_eq_false]
    intro generated inside
    simp [others generated inside]
  rw [declares_emitted, absent, Bool.or_false]

/-- The handler of a property after functions were added: the same one, or an added one. -/
theorem handler_emitted (property : Member) :
    (Outline.ofBlock (emitted block functions)).candidateHandlers.find?
        (·.name == Binding.handlerName property) =
      ((Outline.ofBlock block).candidateHandlers.find?
        (·.name == Binding.handlerName property)).or
      (((functions.map Generated.asMember).filter fun member =>
        member.kind == .function true && member.name.endsWith Outline.handlerSuffix).find?
          (·.name == Binding.handlerName property)) := by
  simp only [Outline.candidateHandlers, ofBlock_emitted, List.filter_append, List.find?_append]

/-- A toolbox is accepted when none of the handlers bound to its tools is asynchronous. -/
theorem checkSynchronous_eq_ok {outline : Outline} {site : Site} :
    checkSynchronous outline site = .ok () ↔
      ∀ handler ∈ outline.bindings.filterMap (·.handler), handler.isAsync = false := by
  unfold checkSynchronous
  cases found : (outline.bindings.filterMap (·.handler)).find? (·.isAsync) with
  | none =>
      have quiet := List.find?_eq_none.mp found
      exact iff_of_true rfl fun handler inside => eq_false_of_ne_true (quiet handler inside)
  | some handler =>
      have waits := List.find?_some found
      have inside := List.mem_of_find?_eq_some found
      refine iff_of_false nofun fun quiet => ?_
      rw [quiet handler inside] at waits
      cases waits

/-- No tool gets an asynchronous handler by functions that run tools. -/
theorem checkSynchronous_emitted (all : AllExecute functions) {site : Site}
    (synchronous : checkSynchronous (Outline.ofBlock block) site = .ok ()) :
    checkSynchronous (Outline.ofBlock (emitted block functions)) site = .ok () := by
  rw [checkSynchronous_eq_ok] at synchronous ⊢
  intro handler inside
  obtain ⟨_, listed, bound⟩ := List.mem_filterMap.mp inside
  obtain ⟨entry, tagged, rfl⟩ := List.mem_map.mp listed
  rw [tagged_emitted] at tagged
  have found := (handler_emitted entry.1).symm.trans bound
  rcases Option.or_eq_some_iff.mp found with before | ⟨_, added⟩
  · exact synchronous handler (List.mem_filterMap.mpr
      ⟨_, List.mem_map_of_mem tagged, before⟩)
  · have among := (List.mem_filter.mp (List.mem_of_find?_eq_some added)).1
    obtain ⟨generated, made, rfl⟩ := List.mem_map.mp among
    obtain ⟨property, execution, rfl⟩ := all generated made
    rfl

/-- The interface of a toolbox does not change by functions that run tools, although the handlers of
the tools may. -/
theorem conformanceFunctions_emitted (all : AllExecute functions) (toolbox description : String) :
    conformanceFunctions (Outline.ofBlock (emitted block functions)) toolbox description =
      conformanceFunctions (Outline.ofBlock block) toolbox description := by
  have info := all.functionName_ne "get_toolbox_info" (by decide)
  have listing := all.functionName_ne "get_tools" (by decide)
  have running := all.functionName_ne "handle_tool_call" (by decide)
  have idle (outline : Outline) : outline.bindings.isEmpty = (outline.tagged .tool).isEmpty := by
    rw [Outline.bindings_eq, List.isEmpty_map]
  simp only [conformanceFunctions, Outline.map_bindings, idle, Outline.arms, tagged_emitted,
    delegateTo?_emitted info, delegateTo?_emitted listing, delegateTo?_emitted running,
    declares_emitted_of_ne running]

/-- **Nothing is added twice.** The functions that run the tools of a block are all in the block
left behind, under whatever handlers the tools have now. -/
theorem addedToToolbox_again (block : ImplBlock) :
    addedToToolbox (emitted block (addedToToolbox block)) = [] := by
  apply admitted_emitted
  intro generated inside
  obtain ⟨_, listed, rfl⟩ := List.mem_map.mp inside
  obtain ⟨entry, tagged, rfl⟩ := List.mem_map.mp listed
  rw [tagged_emitted] at tagged
  exact ⟨executionOf ((Outline.ofBlock block).binding entry),
    List.mem_map_of_mem (List.mem_map_of_mem tagged), rfl⟩

end Executions

/-- A block that is accepted as a toolbox is so with the functions that run its tools added. -/
theorem CollectsAs.emitted {marking : Marking} {block : ImplBlock} {toolbox description : String}
    (collects : CollectsAs marking block toolbox description) {functions : List Generated}
    (all : AllExecute functions) :
    CollectsAs marking (emitted block functions) toolbox description where
  inherent := collects.inherent
  arguments := collects.arguments
  unique := checkUniqueTools_emitted functions collects.unique
  synchronous := checkSynchronous_emitted all collects.synchronous
  clear := parameterProblem?_withFunctions functions
    (ImplBlock.parameterProblem?_stripped collects.clear)

theorem filter_declarations_adding (host : Host) (members : List MadeItem) (interface : ImplBlock) :
    (({ host := host : Expansion }.adding .memberSet members).adding .conformance
      [.block interface]).declarations.filter (·.form != .memberSet) =
        [⟨.conformance, [.block interface]⟩] := by
  cases members with
  | nil => rfl
  | cons member members => rfl

/-- A toolbox expanded again is left as it is, and its interface is implemented as before. -/
theorem expandToolbox_again {marking : Marking} {block : ImplBlock} {first : Expansion}
    (expanded : expandToolbox marking block = .ok first) :
    ∃ host interface, first.host = .block host ∧
      first.declarations.filter (·.form != .memberSet) = [⟨.conformance, [.block interface]⟩] ∧
      expandToolbox marking host = .ok
        { host := first.host, declarations := [⟨.conformance, [.block interface]⟩] } := by
  obtain ⟨toolbox, description, collects, rfl⟩ := expandToolbox_eq_ok.mp expanded
  have all := allExecute_addedToToolbox block
  refine ⟨emitted block (addedToToolbox block), toolboxBlock block
    (conformanceFunctions (Outline.ofBlock block) toolbox description), ?_,
    filter_declarations_adding .., ?_⟩
  · rw [Expansion.host_adding, Expansion.host_adding]
  · rw [expandToolbox_eq_ok]
    refine ⟨toolbox, description, collects.emitted all, ?_⟩
    rw [addedToToolbox_again, conformanceFunctions_emitted all, emitted_emitted, withFunctions_nil,
      Expansion.host_adding, Expansion.host_adding]
    rfl

/-- A stripped block has the same functions made beside it. -/
theorem peerBlocks_stripped (block : ImplBlock) (settings : Settings) :
    peerBlocks block.stripped settings = peerBlocks block settings := by
  simp only [peerBlocks, factoryFunctions, Outline.ofBlock_stripped]
  rfl

/-- A block that is accepted as a global server is so after it was stripped. -/
theorem FoundsWith.stripped {marking : Marking} {block : ImplBlock} {settings : Settings}
    (founds : FoundsWith marking block settings) :
    FoundsWith marking block.stripped settings where
  inherent := founds.inherent
  arguments := founds.arguments
  unique := by
    rw [Outline.ofBlock_stripped]
    exact founds.unique
  static := by
    rw [Outline.ofBlock_stripped]
    exact founds.static
  handlers := by
    rw [Outline.ofBlock_stripped]
    exact founds.handlers
  hook := by
    rw [Outline.ofBlock_stripped]
    exact founds.hook
  clear := ImplBlock.parameterProblem?_stripped founds.clear

/-- A global server expanded again is the same expansion. -/
theorem expandGlobalServer_again {marking : Marking} {block : ImplBlock} {first : Expansion}
    (expanded : expandGlobalServer marking block = .ok first) :
    ∃ host, first.host = .block host ∧ expandGlobalServer marking host = .ok first := by
  obtain ⟨settings, founds, rfl⟩ := expandGlobalServer_eq_ok.mp expanded
  refine ⟨block.stripped, Expansion.host_adding .., ?_⟩
  rw [expandGlobalServer_eq_ok]
  refine ⟨settings, founds.stripped, ?_⟩
  rw [peerBlocks_stripped, ImplBlock.stripped_stripped]

/-- **Expanded again.** What a toolbox leaves behind expands as a toolbox under the same marking:
the block stays as it is, nothing is added to it, and the interface is the one implemented the first
time. What a global server leaves behind has the same expansion again, with the same blocks beside
it. -/
theorem expansions_repeat (marking : Marking) (block : ImplBlock) :
    (∀ first, expandToolbox marking block = .ok first →
      ∃ host interface, first.host = .block host ∧
        first.declarations.filter (·.form != .memberSet) = [⟨.conformance, [.block interface]⟩] ∧
        expandToolbox marking host = .ok
          { host := first.host, declarations := [⟨.conformance, [.block interface]⟩] }) ∧
    (∀ first, expandGlobalServer marking block = .ok first →
      ∃ host, first.host = .block host ∧ expandGlobalServer marking host = .ok first) := by
  constructor
  · intro first expanded
    exact expandToolbox_again expanded
  · intro first expanded
    exact expandGlobalServer_again expanded

/-- A block whose second tool makes the function by which the first one will be handled. -/
def entangled : ImplBlock where
  selfType := .ofTrees (.path ⟨false, "Kit"⟩ false true) [name "Kit"]
  members := ["execute_x", "x_handler"].map fun ident => .declaration <|
    markedProperty ⟨false, ident⟩ ([name "description"] ++ op "=" ++ [.literal "\"d\""])

/-- The handlers of the tools are others the second time, and the expansions are the same. -/
theorem expansions_repeat_of_entangled :
    (Outline.ofBlock entangled).bindings.map (·.handler.isSome) = [false, false] ∧
      (∃ first host interface, expandToolbox kitMarking entangled = .ok first ∧
        first.host = .block host ∧
        (Outline.ofBlock host).bindings.map (·.handler.isSome) = [true, false] ∧
        expandToolbox kitMarking host = .ok
          { host := first.host, declarations := [⟨.conformance, [.block interface]⟩] }) ∧
      ∃ first host, expandGlobalServer founding entangled = .ok first ∧
        first.host = .block host ∧ expandGlobalServer founding host = .ok first := by
  have collects : (expandToolbox kitMarking entangled).isOk = true := by decide +kernel
  have founds : (expandGlobalServer founding entangled).isOk = true := by decide +kernel
  have handled : (Outline.ofBlock (emitted entangled (addedToToolbox entangled))).bindings.map
      (·.handler.isSome) = [true, false] := by decide +kernel
  refine ⟨by decide +kernel, ?_, ?_⟩
  · obtain ⟨first, expanded⟩ := exists_of_isOk collects
    obtain ⟨host, interface, hosted, _, again⟩ :=
      (expansions_repeat kitMarking entangled).1 first expanded
    have same : first.host = .block (emitted entangled (addedToToolbox entangled)) := by
      obtain ⟨_, _, _, made⟩ := expandToolbox_eq_ok.mp expanded
      rw [made, Expansion.host_adding, Expansion.host_adding]
    obtain rfl := Host.block.inj (hosted.symm.trans same)
    exact ⟨first, _, interface, expanded, same, handled, again⟩
  · obtain ⟨first, expanded⟩ := exists_of_isOk founds
    obtain ⟨host, hosted, again⟩ := (expansions_repeat founding entangled).2 first expanded
    exact ⟨first, host, expanded, hosted, again⟩

end Toolsmith
