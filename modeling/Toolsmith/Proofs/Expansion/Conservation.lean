import Mathlib
import Toolsmith.Expansion.Dispatch
import Toolsmith.Proofs.Expansion.Factory
import Toolsmith.Proofs.Source.Layout
import Toolsmith.Proofs.Source.StringLiteral

/-! # What becomes of an annotated block

An expansion may fail at any of its checks, and a block that fails is emitted on another way than
one that succeeds. On both ways the code of the block comes out as it went in. The trees of the item
show the parts of the block by the rules of reprinting, the trees that are emitted show them as they
are (`Source.ImplBlock.StandsIn`), and `Source.ImplBlock.ReemittedAs` says, part by part and without
reference to how the block is rewritten, what may differ. `expandAttribute_conserves` says what
stands around it: the functions that were made, once each, at the end of the block, then the blocks
made beside it and the warnings; or, when the expansion fails, a single error with the message of
the problem.
-/

namespace Toolsmith
namespace Source

/-- An attribute emitted again. One of the vocabulary gets an absolute path. -/
structure Attribute.ReemittedAs (before after : Attribute) : Prop where
  inner : after.inner = before.inner
  arguments : after.arguments = before.arguments
  tagged : ∀ tag, Tag.ofPath? before.path = some tag →
    after.path = ⟨true, [⟨false, "mcpgen"⟩, ⟨false, tag.name⟩]⟩
  untagged : Tag.ofPath? before.path = none → after.path = before.path

/-- A parameter emitted again. One with a pattern and a type loses its descriptions. -/
structure Input.ReemittedAs (before after : Input) : Prop where
  unchanged : { after with attrs := before.attrs } = before
  receiver : before.receiver = true → after.attrs = before.attrs
  typed : before.receiver = false →
    after.attrs = before.attrs.filter fun attr => Tag.ofPath? attr.path ≠ some .param

structure Signature.ReemittedAs (before after : Signature) : Prop where
  unchanged : { after with inputs := before.inputs } = before
  inputs : List.Forall₂ Input.ReemittedAs before.inputs after.inputs

/-- A member emitted again. What is no function is not touched. -/
inductive ImplMember.ReemittedAs : ImplMember → ImplMember → Prop
  | function {before after : Function}
      (unchanged : { after with attrs := before.attrs, sig := before.sig } = before)
      (attrs : List.Forall₂ Attribute.ReemittedAs before.attrs after.attrs)
      (sig : before.sig.ReemittedAs after.sig) : ReemittedAs (.function before) (.function after)
  | declaration {before after : Declaration}
      (unchanged : { after with attrs := before.attrs, sig := before.sig } = before)
      (attrs : List.Forall₂ Attribute.ReemittedAs before.attrs after.attrs)
      (sig : before.sig.ReemittedAs after.sig) :
      ReemittedAs (.declaration before) (.declaration after)
  | other (code : List Tree) : ReemittedAs (.other code) (.other code)

/-- A block emitted again. The mark of an entry point goes; the type, the generic parameters and the
`where` clause stay, and so do the members, in their order. -/
structure ImplBlock.ReemittedAs (before after : ImplBlock) : Prop where
  unchanged : { after with attrs := before.attrs, members := before.members } = before
  attrs : after.attrs = before.attrs.filter fun attr => attr.path ≠ ⟨false, [⟨false, "main"⟩]⟩
  members : List.Forall₂ ImplMember.ReemittedAs before.members after.members

theorem Attribute.reemittedAs_qualified (attr : Attribute) : attr.ReemittedAs attr.qualified := by
  unfold Attribute.qualified
  cases tagged : Tag.ofPath? attr.path with
  | none =>
      refine ⟨rfl, rfl, ?_, fun _ => rfl⟩
      intro tag other
      rw [tagged] at other
      cases other
  | some tag =>
      refine ⟨rfl, rfl, ?_, ?_⟩
      · intro other same
        rw [tagged] at same
        cases same
        rfl
      · intro none
        rw [tagged] at none
        cases none

/-- A stripped parameter has lost the attributes that describe it, and nothing else. -/
theorem Input.reemittedAs_stripped (input : Input) : input.ReemittedAs input.stripped := by
  obtain ⟨attrs, receiver, code, comma⟩ := input
  cases receiver with
  | true => exact ⟨rfl, fun _ => rfl, (nomatch ·)⟩
  | false =>
      refine ⟨rfl, (nomatch ·), fun _ => ?_⟩
      refine List.filter_congr fun attr _ => ?_
      rw [Bool.eq_iff_iff]
      simp [Attribute.isParam]

theorem Signature.reemittedAs_stripped (sig : Signature) : sig.ReemittedAs sig.stripped where
  unchanged := rfl
  inputs := List.forall₂_map_right_iff.mpr
    (List.forall₂_same.mpr fun input _ => input.reemittedAs_stripped)

theorem forall₂_map_qualified (attrs : List Attribute) :
    List.Forall₂ Attribute.ReemittedAs attrs (attrs.map Attribute.qualified) :=
  List.forall₂_map_right_iff.mpr
    (List.forall₂_same.mpr fun attr _ => attr.reemittedAs_qualified)

theorem ImplMember.reemittedAs_stripped (member : ImplMember) :
    member.ReemittedAs member.stripped := by
  cases member with
  | function item =>
      exact .function rfl (forall₂_map_qualified item.attrs) item.sig.reemittedAs_stripped
  | declaration item =>
      exact .declaration rfl (forall₂_map_qualified item.attrs) item.sig.reemittedAs_stripped
  | other code => exact .other code

/-- Both ways of emitting a block again strip it, and stripping keeps its code. -/
theorem ImplBlock.reemittedAs_stripped (block : ImplBlock) :
    block.ReemittedAs block.stripped where
  unchanged := rfl
  attrs := by
    refine List.filter_congr fun attr _ => ?_
    obtain ⟨_, ⟨rooted, segments⟩, _⟩ := attr
    rw [Bool.eq_iff_iff]
    cases rooted <;> simp [isEntryPoint, AttributePath.isIdent]
  members := List.forall₂_map_right_iff.mpr
    (List.forall₂_same.mpr fun member _ => member.reemittedAs_stripped)

end Source

open Source

namespace Expansion

/-- What was made for the inside of the host. -/
def inside (expansion : Expansion) : List MadeItem :=
  (expansion.declarations.filter (·.form == .memberSet)).flatMap (·.items)

/-- What was made for the place after the host. -/
def outside (expansion : Expansion) : List MadeItem :=
  (expansion.declarations.filter (·.form != .memberSet)).flatMap (·.items)

/-- The code of declarations is that of the items that are not added to the block itself. -/
theorem flatMap_declarationCode (declarations : List Declarations) :
    declarations.flatMap declarationCode =
      ((declarations.filter (·.form != .memberSet)).flatMap (·.items)).flatMap MadeItem.print := by
  induction declarations with
  | nil => rfl
  | cons made rest ih =>
      obtain ⟨form, items⟩ := made
      rw [List.flatMap_cons, ih]
      cases form <;> simp [declarationCode]

/-- The code of an expansion of a block: the block, what was made beside it, the warnings. -/
theorem render_of_block {expansion : Expansion} {block : ImplBlock}
    (hosted : expansion.host = .block block) :
    expansion.render = block.print ++ expansion.outside.flatMap MadeItem.print ++
      expansion.warnings.flatMap Diagnostic.emit := by
  unfold render hostCode outside
  rw [hosted, flatMap_declarationCode]

theorem inside_adding (expansion : Expansion) (form : Form) (items : List MadeItem) :
    (expansion.adding form items).inside =
      expansion.inside ++ if form = .memberSet then items else [] := by
  cases items with
  | nil => cases form <;> simp [adding]
  | cons item rest => cases form <;> simp [adding, inside]

theorem outside_adding (expansion : Expansion) (form : Form) (items : List MadeItem) :
    (expansion.adding form items).outside =
      expansion.outside ++ if form = .memberSet then [] else items := by
  cases items with
  | nil => cases form <;> simp [adding]
  | cons item rest => cases form <;> simp [adding, outside]

theorem warnings_adding (expansion : Expansion) (form : Form) (items : List MadeItem) :
    (expansion.adding form items).warnings = expansion.warnings := by
  unfold adding
  split <;> rfl

end Expansion

/-- The names of the functions that a tag can add to a block, in order. A server gets a `main` when
`makesMain`. -/
def generatedNames (makesMain : Bool) (outline : Outline) : Tag → List String
  | .server =>
    (if makesMain then ["main"] else []) ++
      ["setup_server", "initialize_tools", "register_handlers"]
  | .toolbox => (outline.tagged .tool).map fun entry => "execute_" ++ entry.1.name
  | _ => []

/-- The interfaces that the blocks made beside a block implement; a sibling implements none. -/
def besideTraits (outline : Outline) : Tag → List (Option (List Tree))
  | .toolbox => [some (runtimePath ["Toolbox"])]
  | .globalServer =>
    (if outline.declares "create_server" && outline.declares "start_server" then [] else [none]) ++
      if outline.declares "create_and_start_server" then []
      else [some (runtimePath ["ServerProvider"])]
  | _ => []

/-- An expansion adds these functions at the end of the block, and these blocks after it. -/
structure Adds (tag : Tag) (block : ImplBlock) (expansion : Expansion)
    (functions : List Generated) (blocks : List ImplBlock) : Prop where
  host : expansion.host = .block (emitted block functions)
  inside : expansion.inside = functions.map fun item => .function item.function
  outside : expansion.outside = blocks.map .block
  /-- The functions are those of the tag that the block does not declare. -/
  named : ∃ makesMain, functions.map (·.functionName) =
    (generatedNames makesMain (Outline.ofBlock block) tag).filter
      fun function => !(Outline.ofBlock block).declares function
  traits : blocks.map (·.trait) = besideTraits (Outline.ofBlock block) tag
  types : ∀ made ∈ blocks, made.selfType = block.selfType
  warnings : ∀ warning ∈ expansion.warnings, warning.severity = .warning

theorem names_admitted (outline : Outline) (considered : List Generated) :
    (admitted outline considered).map (·.functionName) =
      (considered.map (·.functionName)).filter fun function => !outline.declares function := by
  rw [admitted, List.filter_map]
  rfl

/-- A server adds functions to its block and makes no block beside it. -/
theorem adds_of_server {marking : Marking} {block : ImplBlock} {expansion : Expansion}
    (expanded : expandServer marking block = .ok expansion) :
    ∃ functions, Adds .server block expansion functions [] := by
  obtain ⟨resolved, wanted, settings, _, rfl⟩ := expandServer_eq_ok.mp expanded
  refine ⟨addedToServer block resolved wanted settings, serverExpansion_host _ _, ?_, ?_, ?_, rfl,
    fun _ none => absurd none List.not_mem_nil, ?_⟩
  · change (Expansion.adding _ _ _).inside = _
    rw [Expansion.inside_adding]
    rfl
  · change (Expansion.adding _ _ _).outside = _
    rw [Expansion.outside_adding]
    rfl
  · refine ⟨wanted.getD true &&
      (!(Outline.ofBlock block).entryPoint || resolved.isExplicit "generate_main"), ?_⟩
    unfold addedToServer
    rw [names_admitted, serverFunctions, List.map_append]
    congr 2
    split <;> rfl
  · intro warning member
    change warning ∈ (if _ then _ else _) at member
    split at member
    · rw [List.mem_singleton.mp member]
      rfl
    · cases member

theorem adds_of_toolbox {marking : Marking} {block : ImplBlock} {expansion : Expansion}
    (expanded : expandToolbox marking block = .ok expansion) :
    ∃ functions conformance, Adds .toolbox block expansion functions [conformance] := by
  obtain ⟨toolbox, description, _, rfl⟩ := expandToolbox_eq_ok.mp expanded
  refine ⟨addedToToolbox block, toolboxBlock block
    (conformanceFunctions (Outline.ofBlock block) toolbox description), ?_, ?_, ?_, ?_, rfl, ?_, ?_⟩
  · rw [Expansion.host_adding, Expansion.host_adding]
  · rw [Expansion.inside_adding, Expansion.inside_adding]
    simp [Expansion.inside]
  · rw [Expansion.outside_adding, Expansion.outside_adding]
    rfl
  · refine ⟨true, (names_admitted _ _).trans (congrArg _ ?_)⟩
    rw [Outline.bindings_eq, List.map_map, List.map_map]
    rfl
  · intro made member
    rw [List.mem_singleton.mp member]
    rfl
  · rw [Expansion.warnings_adding, Expansion.warnings_adding]
    intro warning none
    cases none

/-- Beside a global server stand a sibling and a provider, as far as the block lacks their
functions. -/
theorem traits_peerBlocks (block : ImplBlock) (settings : Settings) :
    (peerBlocks block settings).map (·.trait) =
      besideTraits (Outline.ofBlock block) .globalServer := by
  have sibling : (factoryFunctions block settings).isEmpty =
      ((Outline.ofBlock block).declares "create_server" &&
        (Outline.ofBlock block).declares "start_server") := by
    unfold factoryFunctions admitted
    cases created : (Outline.ofBlock block).declares "create_server" <;>
      cases started : (Outline.ofBlock block).declares "start_server" <;>
        simp [Generated.functionName, created, started]
  unfold peerBlocks besideTraits
  rw [List.map_append, sibling]
  congr 1 <;> split <;> rfl

theorem adds_of_globalServer {marking : Marking} {block : ImplBlock} {expansion : Expansion}
    (expanded : expandGlobalServer marking block = .ok expansion) :
    ∃ blocks, Adds .globalServer block expansion [] blocks := by
  obtain ⟨settings, _, rfl⟩ := expandGlobalServer_eq_ok.mp expanded
  refine ⟨peerBlocks block settings, ?_, ?_, ?_, ⟨true, rfl⟩, traits_peerBlocks block settings, ?_,
    ?_⟩
  · rw [Expansion.host_adding, emitted, withFunctions_nil]
  · rw [Expansion.inside_adding]
    rfl
  · rw [Expansion.outside_adding]
    rfl
  · intro made member
    unfold peerBlocks at member
    rcases List.mem_append.mp member with sibling | provider
    · split at sibling
      · cases sibling
      · rw [List.mem_singleton.mp sibling]
        rfl
    · split at provider
      · cases provider
      · rw [List.mem_singleton.mp provider]
        rfl
  · rw [Expansion.warnings_adding]
    intro warning none
    cases none

/-- No function is added twice where the functions of the block have different names. -/
theorem Adds.nodup {tag : Tag} {block : ImplBlock} {expansion : Expansion}
    {functions : List Generated} {blocks : List ImplBlock}
    (adds : Adds tag block expansion functions blocks)
    (distinct : ((Outline.ofBlock block).members.map Member.name).Nodup) :
    (functions.map (·.functionName)).Nodup := by
  obtain ⟨makesMain, named⟩ := adds.named
  rw [named]
  apply List.Nodup.filter
  cases tag with
  | server =>
      change (_ ++ ["setup_server", "initialize_tools", "register_handlers"]).Nodup
      cases makesMain <;> decide
  | toolbox =>
      have names := nodup_tagged_names distinct .tool
      rw [List.filterMap_eq_map'] at names
      have split : (fun entry : Member × Marking => "execute_" ++ entry.1.name) =
          ("execute_" ++ ·) ∘ fun entry => entry.1.name := rfl
      change (((Outline.ofBlock block).tagged .tool).map _).Nodup
      rw [split, ← List.map_map]
      exact names.map fun first second same => String.append_right_inj _ |>.mp same
  | tool => exact List.nodup_nil
  | resource => exact List.nodup_nil
  | param => exact List.nodup_nil
  | globalServer => exact List.nodup_nil

/-- A computation in steps whose problems are all errors, and no warnings. -/
def Grave {α : Type} (result : Except Diagnostic α) : Prop :=
  ∀ problem, result = .error problem → problem.severity = .error

section Grave

variable {α β : Type}

theorem grave_ok (value : α) : Grave (.ok value) := by
  intro problem failed
  cases failed

theorem grave_error {problem : Diagnostic} (grave : problem.severity = .error) :
    Grave (.error problem : Except Diagnostic α) := by
  intro other failed
  cases failed
  exact grave

theorem Grave.bind {result : Except Diagnostic α} {next : α → Except Diagnostic β}
    (first : Grave result) (rest : ∀ value, Grave (next value)) : Grave (result >>= next) := by
  cases result with
  | error problem => exact grave_error (first problem rfl)
  | ok value => exact rest value

theorem grave_liftArguments (result : Except ArgumentError α) : Grave (liftArguments result) := by
  cases result with
  | error error => exact grave_error rfl
  | ok value => exact grave_ok value

theorem grave_parseMarking (site : Site) (tokens : List Tree) :
    Grave (parseMarking site tokens) := by
  unfold parseMarking
  cases Marking.parse site tokens with
  | error error => exact grave_error rfl
  | ok marking => exact grave_ok marking

theorem grave_checkInherent (site : Site) (block : ImplBlock) :
    Grave (checkInherent site block) := by
  unfold checkInherent
  split
  · exact grave_error rfl
  · exact grave_ok ()

theorem grave_settingsOf (arguments : ResolvedArguments) : Grave (settingsOf arguments) := by
  unfold settingsOf
  exact (grave_liftArguments _).bind fun _ => (grave_liftArguments _).bind fun _ =>
    (grave_liftArguments _).bind fun _ => (grave_liftArguments _).bind fun _ => grave_ok _

theorem grave_checkUniqueTools (outline : Outline) : Grave outline.checkUniqueTools := by
  unfold Outline.checkUniqueTools
  split
  · exact grave_error rfl
  · exact grave_ok ()

theorem grave_checkStaticTools (outline : Outline) (site : Site) :
    Grave (outline.checkStaticTools site) := by
  unfold Outline.checkStaticTools
  split
  · exact grave_error rfl
  · exact grave_ok ()

theorem grave_checkSynchronous (outline : Outline) (site : Site) :
    Grave (checkSynchronous outline site) := by
  unfold checkSynchronous
  split
  · exact grave_error rfl
  · exact grave_ok ()

theorem grave_checkStaticHandlers (outline : Outline) (site : Site) :
    Grave (checkStaticHandlers outline site) := by
  unfold checkStaticHandlers
  split
  · exact grave_error rfl
  · exact grave_ok ()

theorem grave_checkHook (outline : Outline) (site : Site) : Grave (checkHook outline site) := by
  unfold checkHook
  split
  · split
    · exact grave_error rfl
    · split
      · exact grave_error rfl
      · exact grave_ok ()
  · exact grave_ok ()

theorem severity_of_problem? {attr : Attribute} {problem : Diagnostic}
    (found : attr.problem? = some problem) : problem.severity = .error := by
  unfold Attribute.problem? at found
  split at found
  · cases found
  · cases found
    rfl
  · split at found
    · split at found
      · cases found
      · cases found
        rfl
    · cases found

theorem grave_prepared (block : ImplBlock) : Grave block.prepared := by
  rw [block.prepared_eq]
  cases found : block.parameterProblem? with
  | none => exact grave_ok _
  | some problem =>
      obtain ⟨attr, _, own⟩ := List.exists_of_findSome?_eq_some found
      exact grave_error (severity_of_problem? own)

theorem grave_expandServer (marking : Marking) (block : ImplBlock) :
    Grave (expandServer marking block) := by
  unfold expandServer
  refine (grave_checkInherent _ _).bind fun _ => (grave_liftArguments _).bind fun arguments =>
    (grave_liftArguments _).bind fun wanted => ?_
  exact (grave_checkUniqueTools _).bind fun _ => (grave_checkStaticTools _ _).bind fun _ =>
    (grave_settingsOf _).bind fun settings => (grave_prepared _).bind fun prepared => grave_ok _

theorem grave_expandToolbox (marking : Marking) (block : ImplBlock) :
    Grave (expandToolbox marking block) := by
  unfold expandToolbox
  refine (grave_checkInherent _ _).bind fun _ => (grave_liftArguments _).bind fun arguments =>
    (grave_liftArguments _).bind fun toolbox => (grave_liftArguments _).bind fun description => ?_
  exact (grave_checkUniqueTools _).bind fun _ => (grave_checkSynchronous _ _).bind fun _ =>
    (grave_prepared _).bind fun prepared => grave_ok _

theorem grave_expandGlobalServer (marking : Marking) (block : ImplBlock) :
    Grave (expandGlobalServer marking block) := by
  unfold expandGlobalServer
  refine (grave_checkInherent _ _).bind fun _ => (grave_liftArguments _).bind fun arguments => ?_
  exact (grave_checkUniqueTools _).bind fun _ => (grave_checkStaticTools _ _).bind fun _ =>
    (grave_checkStaticHandlers _ _).bind fun _ => (grave_checkHook _ _).bind fun _ =>
    (grave_settingsOf _).bind fun settings => (grave_prepared _).bind fun prepared => grave_ok _

end Grave

/-- The tags that belong on a block. -/
def Tag.expandsBlocks : Tag → Bool
  | .server | .toolbox | .globalServer => true
  | _ => false

/-- The expansion of a block under a tag that belongs on blocks. -/
def expandBlock (tag : Tag) (marking : Marking) (block : ImplBlock) :
    Except Diagnostic Expansion :=
  match tag with
  | .server => expandServer marking block
  | .toolbox => expandToolbox marking block
  | _ => expandGlobalServer marking block

/-- An item that reads as a block is expanded as that block, unless it reads as a declaration
too. -/
theorem expandOn_of_block (tag : Tag) (tokens : List Tree) {item : List Tree} {block : ImplBlock}
    (blocks : tag.expandsBlocks = true) (read : read? Grammar.implBlock item = some block) :
    expandOn tag tokens item =
        (parseMarking ⟨tag, false⟩ tokens >>= fun marking => expandBlock tag marking block) ∨
      (read? Grammar.declaration item).isSome ∧
        expandOn tag tokens item = .error (.typeTarget ⟨tag, false⟩) := by
  unfold expandOn Target.classify
  cases declared : read? Grammar.declaration item with
  | some declaration =>
      cases tag with
      | server => exact .inr ⟨rfl, rfl⟩
      | toolbox => exact .inr ⟨rfl, rfl⟩
      | globalServer => exact .inr ⟨rfl, rfl⟩
      | _ => cases blocks
  | none =>
      rw [read]
      cases tag with
      | server => exact .inl rfl
      | toolbox => exact .inl rfl
      | globalServer => exact .inl rfl
      | _ => cases blocks

/-- All that goes wrong in the expansion of a block is an error, not a warning. -/
theorem grave_expandOn {tag : Tag} {tokens item : List Tree} {block : ImplBlock}
    (blocks : tag.expandsBlocks = true) (read : read? Grammar.implBlock item = some block) :
    Grave (expandOn tag tokens item) := by
  rcases expandOn_of_block tag tokens blocks read with expanded | ⟨_, refused⟩
  · rw [expanded]
    refine (grave_parseMarking _ _).bind fun marking => ?_
    cases tag with
    | server => exact grave_expandServer marking block
    | toolbox => exact grave_expandToolbox marking block
    | globalServer => exact grave_expandGlobalServer marking block
    | _ => cases blocks
  · rw [refused]
    exact grave_error rfl

/-- An accepted expansion of a block adds functions to it or makes blocks beside it. -/
theorem adds_of_expandOn {tag : Tag} {tokens item : List Tree} {block : ImplBlock}
    {expansion : Expansion} (blocks : tag.expandsBlocks = true)
    (read : read? Grammar.implBlock item = some block)
    (expanded : expandOn tag tokens item = .ok expansion) :
    ∃ functions made, Adds tag block expansion functions made := by
  rcases expandOn_of_block tag tokens blocks read with taken | ⟨_, refused⟩
  · rw [taken] at expanded
    obtain ⟨marking, _, expanded⟩ := bind_eq_ok.mp expanded
    cases tag with
    | server =>
        obtain ⟨functions, adds⟩ := adds_of_server expanded
        exact ⟨functions, [], adds⟩
    | toolbox =>
        obtain ⟨functions, conformance, adds⟩ := adds_of_toolbox expanded
        exact ⟨functions, [conformance], adds⟩
    | globalServer =>
        obtain ⟨made, adds⟩ := adds_of_globalServer expanded
        exact ⟨[], made, adds⟩
    | _ => cases blocks
  · rw [refused] at expanded
    cases expanded

/-- The use of `compile_error!` with a message. -/
def compileError (literal : String) : List Tree :=
  rooted ["core", "compile_error"] ++ op "!" ++ [brace [.literal literal]]

/-- The trees of an item show the block that it reads as. -/
theorem standsIn_of_read {item : List Tree} {block : ImplBlock}
    (read : read? Grammar.implBlock item = some block) : block.StandsIn Reprints item := by
  rw [read?_eq_some_iff, Reader.found_eq_some] at read
  obtain ⟨taken, reads⟩ := read
  have conserved := reads.conserved
  rw [List.append_nil] at conserved
  exact conserved ▸ Grammar.standsIn_of_implBlock reads

/-- **The code of a block is conserved.** Whatever the arguments of a marking are, an item whose
trees show a block is emitted as trees that show this block, in parts that are printed again but the
same (`Source.ImplBlock.ReemittedAs`). When the expansion succeeds, the functions of the tag that
the block does not declare stand at its end, once each, and the blocks made beside it and the
warnings follow. When the expansion fails, nothing is added to the block, and one error with the
message of the problem follows it. -/
theorem expandAttribute_conserves (tag : Tag) (tokens : List Tree) {item : List Tree}
    {block : ImplBlock} (blocks : tag.expandsBlocks = true)
    (read : read? Grammar.implBlock item = some block) :
    block.StandsIn Reprints item ∧ ∃ kept, block.ReemittedAs kept ∧
      ((∃ expansion functions made output, expandOn tag tokens item = .ok expansion ∧
          expandAttribute tag tokens item =
            output ++ made.flatMap ImplBlock.print ++
              expansion.warnings.flatMap Diagnostic.emit ∧
          ImplBlock.StandsIn (· = ·) { kept with
            members := kept.members ++ functions.map fun item => .function item.function } output ∧
          Adds tag block expansion functions made ∧
          (((Outline.ofBlock block).members.map Member.name).Nodup →
            (functions.map (·.functionName)).Nodup)) ∨
        ∃ problem literal output, expandOn tag tokens item = .error problem ∧
          expandAttribute tag tokens item = output ++ compileError literal ∧
          kept.StandsIn (· = ·) output ∧ stringValue? literal = some problem.message) := by
  refine ⟨standsIn_of_read read, block.stripped, block.reemittedAs_stripped, ?_⟩
  cases expanded : expandOn tag tokens item with
  | ok expansion =>
      obtain ⟨functions, made, adds⟩ := adds_of_expandOn blocks read expanded
      refine .inl
        ⟨expansion, functions, made, _, rfl, ?_, ImplBlock.standsIn_print (fun _ => rfl) _,
        adds, adds.nodup⟩
      have printed : expansion.outside.flatMap MadeItem.print = made.flatMap ImplBlock.print := by
        rw [adds.outside, List.flatMap_map]
        rfl
      rw [expandAttribute, expanded]
      change expansion.render = _
      rw [Expansion.render_of_block adds.host, printed]
      rfl
  | error problem =>
      have grave := grave_expandOn blocks read problem expanded
      refine .inr ⟨problem, Text.literal problem.message, block.stripped.print, rfl, ?_,
        ImplBlock.standsIn_print (fun _ => rfl) _, stringValue?_literal _⟩
      have kept : salvage item = block.stripped.print := by rw [salvage, read]
      have emits : problem.emit = compileError (Text.literal problem.message) := by
        rw [Diagnostic.emit, grave]
        rfl
      rw [expandAttribute, expanded, ← kept, ← emits]

def described : List Tree := [name "description"] ++ op "=" ++ [.literal "\"d\""]

/-- An item with an entry point mark, a tool without a body and a described parameter. -/
def markedItem : List Tree :=
  op "#" ++ [bracket [name "main"], name "impl", name "Kit",
    brace (op "#" ++ [bracket [name "tool"], name "fn", name "echo", paren []] ++ op "->" ++
      [name "Tool"] ++ op ";" ++ [name "fn", name "echo_handler",
        paren (op "#" ++ [bracket [name "param", paren described], name "text"] ++ op ":" ++
          [name "String"]),
        brace []])]

/-- The block that the item reads as. -/
def readBlock : ImplBlock where
  attrs := [⟨false, ⟨false, [⟨false, "main"⟩]⟩, .none⟩]
  selfType := ⟨.path ⟨false, "Kit"⟩ false true, [.tree (name "Kit")]⟩
  members := [
    .declaration {
      attrs := [⟨false, ⟨false, [⟨false, "tool"⟩]⟩, .none⟩]
      sig := { ident := ⟨false, "echo"⟩, output := some [name "Tool"] } },
    .function {
      sig := {
        ident := ⟨false, "echo_handler"⟩
        inputs := [⟨[⟨false, ⟨false, [⟨false, "param"⟩]⟩, .list .paren described⟩], false,
          name "text" :: op ":" ++ [name "String"], false⟩] } }]

theorem read_markedItem : read? Grammar.implBlock markedItem = some readBlock := by
  cbv

/-- The trees that the block is emitted as when nothing is added. -/
def emittedItem : List Tree :=
  [name "impl", name "Kit",
    brace (op "#" ++ [bracket (rooted ["mcpgen", "tool"]), name "fn", name "echo", paren []] ++
      op "->" ++ [name "Tool"] ++ op ";" ++ [name "fn", name "echo_handler",
        paren ([name "text"] ++ op ":" ++ [name "String"]), brace []])]

/-- The item expands as a server, and fails as a toolbox, which needs arguments. -/
theorem expandAttribute_conserves_of_marked :
    read? Grammar.implBlock markedItem = some readBlock ∧
      readBlock.StandsIn Reprints markedItem ∧
      (∃ kept, readBlock.ReemittedAs kept ∧
        ∃ expansion, ∃ functions : List Generated, ∃ output,
          expandOn .server [] markedItem = .ok expansion ∧
          expandAttribute .server [] markedItem =
            output ++ expansion.warnings.flatMap Diagnostic.emit ∧
          ImplBlock.StandsIn (· = ·) { kept with
            members := kept.members ++ functions.map fun item => .function item.function } output ∧
          (functions.map (·.functionName)).Nodup) ∧
      (∃ kept, readBlock.ReemittedAs kept ∧
        ∃ problem literal output, expandOn .toolbox [] markedItem = .error problem ∧
          expandAttribute .toolbox [] markedItem = output ++ compileError literal ∧
          kept.StandsIn (· = ·) output ∧ stringValue? literal = some problem.message) ∧
      (expandAttribute .toolbox [] markedItem).take 3 = emittedItem := by
  have undeclared : (read? Grammar.declaration markedItem).isSome = false := by decide +kernel
  have serves : (parseMarking ⟨.server, false⟩ [] >>= fun marking =>
      expandBlock .server marking readBlock).isOk = true := by decide +kernel
  have lacks : (parseMarking ⟨.toolbox, false⟩ [] >>= fun marking =>
      expandBlock .toolbox marking readBlock).isOk = false := by decide +kernel
  refine ⟨read_markedItem, (expandAttribute_conserves .server [] rfl read_markedItem).1, ?_, ?_,
    by decide +kernel⟩
  · obtain ⟨_, kept, same, succeeds | ⟨problem, _, _, failed, _⟩⟩ :=
      expandAttribute_conserves .server [] rfl read_markedItem
    · obtain ⟨expansion, functions, made, output, expanded, whole, stands, adds, once⟩ := succeeds
      have none : made = [] := List.map_eq_nil_iff.mp adds.traits
      subst none
      refine ⟨kept, same, expansion, functions, output, expanded, ?_, stands,
        once (by decide +kernel)⟩
      rw [whole, List.flatMap_nil, List.append_nil]
    · rcases expandOn_of_block .server [] rfl read_markedItem with taken | ⟨declared, _⟩
      · rw [← taken, failed] at serves
        cases serves
      · rw [undeclared] at declared
        cases declared
  · obtain ⟨_, kept, same, ⟨expansion, _, _, _, expanded, _⟩ | fails⟩ :=
      expandAttribute_conserves .toolbox [] rfl read_markedItem
    · rcases expandOn_of_block .toolbox [] rfl read_markedItem with taken | ⟨declared, _⟩
      · rw [← taken, expanded] at lacks
        cases lacks
      · rw [undeclared] at declared
        cases declared
    · exact ⟨kept, same, fails⟩

end Toolsmith
