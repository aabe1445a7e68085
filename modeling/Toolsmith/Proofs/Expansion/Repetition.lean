import Mathlib
import Toolsmith.Expansion.MemberSet
import Toolsmith.Proofs.Expansion.Stripping
import Toolsmith.Proofs.Marking.Resolution

/-! # Expanding a block again

The block that an expansion leaves behind may be expanded again. The functions that were added are
then members like any other, and the guard against declared members keeps them from being added
twice (`admitted_emitted`). A server expanded again is therefore the same server, with one
exception: a marked entry point holds back `main` the first time, and the mark is gone the second
time, so that `main` is then added unless the marking decided about it by name or the block declared
it (`forgetsEntryPoint`).
-/

namespace Toolsmith

open Source

/-- A generated function as the outline of its block lists it. -/
def Generated.asMember (generated : Generated) : Member where
  kind := .function true
  ident := generated.function.sig.ident
  markings := markingsOf generated.function.attrs
  receiver := generated.function.sig.hasReceiver
  isAsync := generated.function.sig.isAsync

@[simp] theorem Generated.asMember_name (generated : Generated) :
    generated.asMember.name = generated.functionName := by
  cases generated with
  | toolboxDispatch delegate arms idle => cases idle <;> rfl
  | _ => rfl

/-- The outline of a block with functions added lists them after its members. -/
theorem Outline.ofBlock_withFunctions (block : ImplBlock) (functions : List Generated) :
    Outline.ofBlock (withFunctions block functions) =
      { Outline.ofBlock block with
        members := (Outline.ofBlock block).members ++ functions.map Generated.asMember } := by
  have listed : (functions.map fun item => ImplMember.function item.function).filterMap
      Member.ofImplMember? = functions.map Generated.asMember := by
    rw [List.filterMap_map, ← List.filterMap_eq_map]
    rfl
  simp only [Outline.ofBlock, withFunctions, List.filterMap_append, listed]

/-- Functions added to a block take no part in stripping it. -/
theorem stripped_withFunctions (block : ImplBlock) (functions : List Generated) :
    (withFunctions block functions).stripped = withFunctions block.stripped functions := by
  simp only [withFunctions, ImplBlock.stripped, List.map_append, List.map_map]
  congr 2
  exact List.map_congr_left fun generated _ => generated.stripped_function

/-- Made functions have no parameter attributes that could be at fault. -/
theorem parameterProblem?_withFunctions {block : ImplBlock} (functions : List Generated)
    (clear : block.parameterProblem? = none) :
    (withFunctions block functions).parameterProblem? = none := by
  rw [ImplBlock.parameterProblem?_eq_none] at clear ⊢
  intro member inside attr own
  rcases List.mem_append.mp inside with before | added
  · exact clear member before attr own
  · obtain ⟨generated, _, rfl⟩ := List.mem_map.mp added
    rw [generated.parameterAttributes_function] at own
    cases own

/-- The block that an expansion leaves behind: the stripped block with functions added to it. -/
def emitted (block : ImplBlock) (functions : List Generated) : ImplBlock :=
  withFunctions block.stripped functions

/-- A block left behind stays as it is when more is added to it. -/
theorem emitted_emitted (block : ImplBlock) (functions more : List Generated) :
    emitted (emitted block functions) more = withFunctions (emitted block functions) more := by
  simp only [emitted, stripped_withFunctions, ImplBlock.stripped_stripped]

theorem withFunctions_nil (block : ImplBlock) : withFunctions block [] = block := by
  simp only [withFunctions, List.map_nil, List.append_nil]

/-- The outline of a block left behind. -/
theorem ofBlock_emitted (block : ImplBlock) (functions : List Generated) :
    Outline.ofBlock (emitted block functions) =
      { Outline.ofBlock block with
        entryPoint := false
        members := (Outline.ofBlock block).members ++ functions.map Generated.asMember } := by
  rw [emitted, Outline.ofBlock_withFunctions, Outline.ofBlock_stripped]

/-- The block left behind declares what the block declared and what was added. -/
theorem declares_emitted (block : ImplBlock) (functions : List Generated) (function : String) :
    (Outline.ofBlock (emitted block functions)).declares function =
      ((Outline.ofBlock block).declares function ||
        functions.any (·.functionName == function)) := by
  simp only [Outline.declares, ofBlock_emitted, List.any_append, List.any_map]
  congr 2
  funext generated
  simp only [Function.comp_apply, Generated.asMember_name]

/-- Adding functions adds no properties, so that the tools stay the same. -/
theorem tagged_emitted (block : ImplBlock) (functions : List Generated) (tag : Tag) :
    (Outline.ofBlock (emitted block functions)).tagged tag =
      (Outline.ofBlock block).tagged tag := by
  have none : (functions.map Generated.asMember).filter (·.kind == .property) = [] := by
    rw [List.filter_eq_nil_iff]
    intro member inside
    obtain ⟨generated, _, rfl⟩ := List.mem_map.mp inside
    simp [Generated.asMember]
  simp only [Outline.tagged, ofBlock_emitted, List.filter_append, none, List.append_nil]

/-- The names of tools come from the properties alone. -/
theorem toolValues_eq (outline : Outline) :
    outline.bindings.map (·.toolValue) =
      (outline.tagged .tool).map fun (property, marking) =>
        (stringValue? (toolName property marking)).getD "" := by
  simp only [Outline.bindings, List.map_map]
  rfl

theorem checkUniqueTools_eq_ok {outline : Outline} :
    outline.checkUniqueTools = .ok () ↔
      Outline.repeatedTool? [] (outline.bindings.map (·.toolValue)) = none := by
  unfold Outline.checkUniqueTools
  cases Outline.repeatedTool? [] (outline.bindings.map (·.toolValue)) with
  | none => simp
  | some name => simp

theorem checkUniqueTools_emitted {block : ImplBlock} (functions : List Generated)
    (unique : (Outline.ofBlock block).checkUniqueTools = .ok ()) :
    (Outline.ofBlock (emitted block functions)).checkUniqueTools = .ok () := by
  rw [checkUniqueTools_eq_ok, toolValues_eq] at unique ⊢
  rwa [tagged_emitted]

theorem checkStaticTools_eq_ok {outline : Outline} {site : Site} :
    outline.checkStaticTools site = .ok () ↔
      (outline.tagged .tool).find? (·.1.receiver) = none := by
  unfold Outline.checkStaticTools
  cases (outline.tagged .tool).find? (·.1.receiver) with
  | none => simp
  | some found => simp

theorem checkStaticTools_emitted {block : ImplBlock} (functions : List Generated) {site : Site}
    (static : (Outline.ofBlock block).checkStaticTools site = .ok ()) :
    (Outline.ofBlock (emitted block functions)).checkStaticTools site = .ok () := by
  rw [checkStaticTools_eq_ok] at static ⊢
  rwa [tagged_emitted]

/-- **The guard makes additions final.** No function that was considered for a block is added to the
block left behind: either the block declared it or it was added the first time. -/
theorem admitted_emitted (block : ImplBlock) (considered : List Generated) {again : List Generated}
    (repeated : ∀ generated ∈ again, ∃ earlier ∈ considered,
      earlier.functionName = generated.functionName) :
    admitted (Outline.ofBlock (emitted block (admitted (Outline.ofBlock block) considered))) again =
      [] := by
  unfold admitted
  rw [List.filter_eq_nil_iff]
  intro generated inside
  obtain ⟨earlier, listed, same⟩ := repeated generated inside
  rw [declares_emitted, ← same]
  by_cases declared : (Outline.ofBlock block).declares earlier.functionName
  · simp only [declared, Bool.true_or, Bool.not_true, Bool.false_eq_true, not_false_iff]
  · have added : (((considered.filter fun function =>
        !(Outline.ofBlock block).declares function.functionName).any
          (·.functionName == earlier.functionName)) = true) := by
      rw [List.any_eq_true]
      refine ⟨earlier, List.mem_filter.mpr ⟨listed, ?_⟩, beq_self_eq_true _⟩
      simp only [declared, Bool.not_false]
    simp only [added, Bool.or_true, Bool.not_true, Bool.false_eq_true, not_false_iff]

/-- The functions considered for a server, in order. -/
def serverFunctions (makesMain : Bool) (settings : Settings) (outline : Outline) :
    List Generated :=
  (if makesMain then [.main] else []) ++
    [.setupServer settings, .listTools ((outline.tagged .tool).map (·.1.ident)), .registerHandlers]

/-- The conditions under which a block expands as a server, with what its arguments come to: the
resolved arguments, whether `main` is wanted, and the settings. -/
structure ServesWith (marking : Marking) (block : ImplBlock) (resolved : ResolvedArguments)
    (wanted : Option Bool) (settings : Settings) : Prop where
  inherent : block.trait = none
  arguments : Schema.server.resolve marking.arguments = .ok resolved
  wants : resolved.boolean? "generate_main" = .ok wanted
  unique : (Outline.ofBlock block).checkUniqueTools = .ok ()
  static : (Outline.ofBlock block).checkStaticTools marking.site = .ok ()
  settled : settingsOf resolved = .ok settings
  clear : block.parameterProblem? = none

/-- The functions added to a block that expands as a server. -/
def addedToServer (block : ImplBlock) (resolved : ResolvedArguments) (wanted : Option Bool)
    (settings : Settings) : List Generated :=
  let outline := Outline.ofBlock block
  admitted outline <| serverFunctions
    (wanted.getD true && (!outline.entryPoint || resolved.isExplicit "generate_main"))
    settings outline

/-- The expansion of a server that gets these functions. -/
def serverExpansion (block : ImplBlock) (functions : List Generated) : Expansion :=
  let outline := Outline.ofBlock block
  { { host := .block (emitted block functions) : Expansion }.adding
      .memberSet (functions.map fun item => .function item.function) with
    warnings := if outline.entryPoint then [.entryPointConflict outline.typeName] else [] }

theorem checkInherent_eq_ok {site : Site} {block : ImplBlock} :
    checkInherent site block = .ok () ↔ block.trait = none := by
  unfold checkInherent
  cases block.trait with
  | none => simp
  | some path => simp

/-- **What expanding a server does.** -/
theorem expandServer_eq_ok {marking : Marking} {block : ImplBlock} {expansion : Expansion} :
    expandServer marking block = .ok expansion ↔
      ∃ resolved wanted settings, ServesWith marking block resolved wanted settings ∧
        expansion = serverExpansion block (addedToServer block resolved wanted settings) := by
  unfold expandServer liftArguments
  simp only [bind_eq_ok, mapError_eq_ok, ImplBlock.prepared_eq_ok]
  constructor
  · rintro ⟨⟨⟩, inherent, resolved, arguments, wanted, wants, ⟨⟩, unique, ⟨⟩, static, settings,
      settled, prepared, ⟨clear, rfl⟩, result⟩
    exact ⟨resolved, wanted, settings, ⟨checkInherent_eq_ok.mp inherent, arguments, wants, unique,
      static, settled, clear⟩, (Except.ok.inj result).symm⟩
  · rintro ⟨resolved, wanted, settings, serves, rfl⟩
    exact ⟨(), checkInherent_eq_ok.mpr serves.inherent, resolved, serves.arguments, wanted,
      serves.wants, (), serves.unique, (), serves.static, settings, serves.settled, _,
      ⟨serves.clear, rfl⟩, rfl⟩

/-- A block left behind by an expansion expands as a server under the same marking, with the same
arguments. -/
theorem ServesWith.emitted {marking : Marking} {block : ImplBlock} {resolved : ResolvedArguments}
    {wanted : Option Bool} {settings : Settings}
    (serves : ServesWith marking block resolved wanted settings) (functions : List Generated) :
    ServesWith marking (emitted block functions) resolved wanted settings where
  inherent := serves.inherent
  arguments := serves.arguments
  wants := serves.wants
  unique := checkUniqueTools_emitted functions serves.unique
  static := checkStaticTools_emitted functions serves.static
  settled := serves.settled
  clear := parameterProblem?_withFunctions functions
    (ImplBlock.parameterProblem?_stripped serves.clear)

/-- Whether expanding a block as a server removes the only reason for which it gets no `main`: the
block is marked as the entry point, declares no `main`, and the marking does not decide about it. -/
def forgetsEntryPoint (marking : Marking) (block : ImplBlock) : Bool :=
  (Outline.ofBlock block).entryPoint && !marking.decidesMain &&
    !(Outline.ofBlock block).declares "main"

/-- The functions considered for a server have the same names each time, but for `main`. -/
theorem serverFunctions_names {makes made : Bool} (kept : makes = true → made = true)
    (settings : Settings) (outline earlier : Outline) :
    ∀ generated ∈ serverFunctions makes settings outline,
      ∃ before ∈ serverFunctions made settings earlier,
        before.functionName = generated.functionName := by
  intro generated inside
  rcases List.mem_append.mp inside with entry | rest
  · cases makes with
    | false => cases entry
    | true =>
        cases List.mem_singleton.mp entry
        exact ⟨.main, by simp [serverFunctions, kept rfl], rfl⟩
  · simp only [List.mem_cons, List.not_mem_nil, or_false] at rest
    rcases rest with rfl | rfl | rfl
    · exact ⟨.setupServer settings, by simp [serverFunctions], rfl⟩
    · exact ⟨.listTools ((earlier.tagged .tool).map (·.1.ident)), by simp [serverFunctions], rfl⟩
    · exact ⟨.registerHandlers, by simp [serverFunctions], rfl⟩

/-- Without a word about `main` in the marking, it is wanted. -/
theorem ServesWith.wanted_of_undecided {marking : Marking} {block : ImplBlock}
    {resolved : ResolvedArguments} {wanted : Option Bool} {settings : Settings}
    (serves : ServesWith marking block resolved wanted settings)
    (undecided : marking.decidesMain = false) : wanted = some true := by
  have default := (generateMain_of_resolve serves.arguments).2 undecided
  rw [serves.wants] at default
  exact Except.ok.inj default

/-- A server that gets no `main` does not declare it in what is left behind either, unless the block
did. -/
theorem declares_main_emitted (block : ImplBlock) (settings : Settings) :
    (Outline.ofBlock (emitted block (admitted (Outline.ofBlock block)
      (serverFunctions false settings (Outline.ofBlock block))))).declares "main" =
        (Outline.ofBlock block).declares "main" := by
  have absent : ((admitted (Outline.ofBlock block)
      (serverFunctions false settings (Outline.ofBlock block))).any
        (·.functionName == "main")) = false := by
    rw [List.any_eq_false]
    intro generated inside
    have considered := (List.mem_filter.mp inside).1
    simp only [serverFunctions, Bool.false_eq_true, ↓reduceIte, List.nil_append, List.mem_cons,
      List.not_mem_nil, or_false] at considered
    rcases considered with rfl | rfl | rfl <;> simp [Generated.functionName]
  rw [declares_emitted, absent, Bool.or_false]

/-- Of the functions considered for a server again, `main` alone is added, and only if it was not
considered before. -/
theorem admitted_serverFunctions_again (block : ImplBlock) (settings : Settings)
    (made wants : Bool) :
    let before := Outline.ofBlock block
    let after := Outline.ofBlock (emitted block
      (admitted before (serverFunctions made settings before)))
    admitted after (serverFunctions wants settings after) =
      if wants && !made && !before.declares "main" then [.main] else [] := by
  intro before after
  cases made with
  | true =>
      rw [admitted_emitted block _ (serverFunctions_names (fun _ => rfl) settings after before)]
      simp only [Bool.not_true, Bool.and_false, Bool.false_and, Bool.false_eq_true, ↓reduceIte]
  | false =>
      have others : admitted after (serverFunctions false settings after) = [] :=
        admitted_emitted block _ (serverFunctions_names id settings after before)
      cases wants with
      | false =>
          rw [others]
          simp only [Bool.false_and, Bool.false_eq_true, ↓reduceIte]
      | true =>
          have declared : after.declares "main" = before.declares "main" :=
            declares_main_emitted block settings
          have split : serverFunctions true settings after =
              [.main] ++ serverFunctions false settings after := rfl
          have separate : admitted after ([.main] ++ serverFunctions false settings after) =
              admitted after [.main] ++ admitted after (serverFunctions false settings after) :=
            List.filter_append ..
          rw [split, separate, others, List.append_nil]
          simp only [admitted, List.filter_cons, List.filter_nil, Generated.functionName, declared,
            Bool.not_false, Bool.and_self, Bool.true_and]

/-- The functions added to a server, with the decision about `main` read off its marking. -/
theorem ServesWith.added_eq {marking : Marking} {block : ImplBlock} {resolved : ResolvedArguments}
    {wanted : Option Bool} {settings : Settings}
    (serves : ServesWith marking block resolved wanted settings) :
    addedToServer block resolved wanted settings =
      admitted (Outline.ofBlock block) (serverFunctions
        (wanted.getD true && (!(Outline.ofBlock block).entryPoint || marking.decidesMain))
        settings (Outline.ofBlock block)) := by
  unfold addedToServer
  rw [(generateMain_of_resolve serves.arguments).1]

/-- The second expansion adds `main` when the first one forgot the entry point, and nothing
otherwise. -/
theorem ServesWith.added_again {marking : Marking} {block : ImplBlock}
    {resolved : ResolvedArguments} {wanted : Option Bool} {settings : Settings}
    (serves : ServesWith marking block resolved wanted settings) :
    addedToServer (Toolsmith.emitted block (addedToServer block resolved wanted settings))
        resolved wanted settings =
      if forgetsEntryPoint marking block then [.main] else [] := by
  have unmarked (functions : List Generated) :
      (Outline.ofBlock (Toolsmith.emitted block functions)).entryPoint = false := by
    rw [ofBlock_emitted]
  rw [(serves.emitted _).added_eq, unmarked, serves.added_eq, Bool.not_false, Bool.true_or,
    Bool.and_true, admitted_serverFunctions_again]
  -- Both conditions say the same: undecided markings want `main`, so that only the mark held it.
  have same : (wanted.getD true &&
      !(wanted.getD true && (!(Outline.ofBlock block).entryPoint || marking.decidesMain)) &&
        !(Outline.ofBlock block).declares "main") = forgetsEntryPoint marking block := by
    unfold forgetsEntryPoint
    cases decided : marking.decidesMain with
    | true => cases wanted.getD true <;> simp
    | false => simp [serves.wanted_of_undecided decided]
  rw [same]

theorem Expansion.host_adding (expansion : Expansion) (form : Form) (items : List MadeItem) :
    (expansion.adding form items).host = expansion.host := by
  unfold Expansion.adding
  split <;> rfl

@[simp] theorem serverExpansion_host (block : ImplBlock) (functions : List Generated) :
    (serverExpansion block functions).host = .block (emitted block functions) := by
  simp only [serverExpansion, Expansion.host_adding]

@[simp] theorem serverExpansion_declarations (block : ImplBlock) (functions : List Generated) :
    (serverExpansion block functions).declarations =
      if functions.isEmpty then []
      else [⟨.memberSet, functions.map fun item => .function item.function⟩] := by
  simp only [serverExpansion, Expansion.adding, List.isEmpty_map]
  split <;> rfl

theorem serverExpansion_hostCode (block : ImplBlock) (functions : List Generated) :
    (serverExpansion block functions).hostCode = (emitted block functions).print := by
  simp only [Expansion.hostCode, serverExpansion_host]

/-- **A server expanded again.** Expanding what an expansion left behind, under the same marking,
succeeds. It makes no members and keeps the code exactly when the first expansion did not forget
the entry point; when it did, `main` is added at the end, and nothing else. -/
theorem expandServer_again {marking : Marking} {block : ImplBlock} {first : Expansion}
    (expanded : expandServer marking block = .ok first) :
    ∃ host second, first.host = .block host ∧ expandServer marking host = .ok second ∧
      ((∀ made ∈ second.declarations, made.form ≠ .memberSet) ∧
          second.hostCode = first.hostCode ↔ forgetsEntryPoint marking block = false) ∧
      (forgetsEntryPoint marking block = true →
        second.declarations = [⟨.memberSet, [.function Generated.main.function]⟩] ∧
          second.host = .block (withFunctions host [.main])) := by
  obtain ⟨resolved, wanted, settings, serves, rfl⟩ := expandServer_eq_ok.mp expanded
  refine ⟨_, _, serverExpansion_host _ _,
    expandServer_eq_ok.mpr ⟨resolved, wanted, settings, serves.emitted _, rfl⟩, ?_⟩
  rw [serves.added_again, serverExpansion_hostCode, serverExpansion_hostCode,
    serverExpansion_host, serverExpansion_declarations, emitted_emitted]
  cases forgets : forgetsEntryPoint marking block with
  | false => simp [withFunctions_nil]
  | true => simp

/-- A block marked as the entry point, with nothing in it. -/
def markedBlock : ImplBlock where
  attrs := [⟨false, ⟨false, [⟨false, "main"⟩]⟩, .none⟩]
  selfType := .ofTrees (.path ⟨false, "EchoServer"⟩ false true) [name "EchoServer"]

/-- The marking of a server without arguments. -/
def bareServer : Marking := ⟨⟨.server, false⟩, []⟩

theorem expandServer_again_of_marked :
    ∃ first, expandServer bareServer markedBlock = .ok first ∧
      ∃ host second, first.host = .block host ∧ expandServer bareServer host = .ok second ∧
        ((∀ made ∈ second.declarations, made.form ≠ .memberSet) ∧
            second.hostCode = first.hostCode ↔
          forgetsEntryPoint bareServer markedBlock = false) ∧
        (forgetsEntryPoint bareServer markedBlock = true →
          second.declarations = [⟨.memberSet, [.function Generated.main.function]⟩] ∧
            second.host = .block (withFunctions host [.main])) :=
  ⟨_, rfl, expandServer_again rfl⟩

/-- Expanding a marked block twice adds `main` the second time. -/
theorem expandServer_adds_main_again :
    ∃ first host second, expandServer bareServer markedBlock = .ok first ∧
      first.host = .block host ∧ expandServer bareServer host = .ok second ∧
      second.declarations = [⟨.memberSet, [.function Generated.main.function]⟩] :=
  ⟨_, _, _, rfl, rfl, rfl, rfl⟩

end Toolsmith
