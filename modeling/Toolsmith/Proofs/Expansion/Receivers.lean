import Mathlib
import Toolsmith.Proofs.Expansion.Callees

/-! # Calls and receivers

Code calls a function of its type as `self.f(..)`, which hands on `self`, or as `Self::f(..)`, which
does so only where `self` is its first argument. `ownCalls` lists these calls in code. Most calls
that a toolbox makes are formed after the member that is called and fit it (`Member.fittingCall`).
The choice among the tools alone calls functions by their names, always on `self`: this fits a
function that was made, and one that the block declares only if it takes `self`
(`toolbox_calls_fit`).
-/

namespace Toolsmith
namespace Source

/-- A call of a function of the type itself. -/
structure OwnCall where
  callee : String
  /-- It hands on `self`. -/
  passesSelf : Bool
deriving DecidableEq

/-- The first of some arguments is `self`. -/
def startsWithSelf : List Tree → Bool
  | .ident ident :: rest => ident == ⟨false, "self"⟩ && (rest.isEmpty || (past? [','] rest).isSome)
  | _ => false

/-- The call that begins with a tree, given the trees after it. -/
def ownCallAt (rest : List Tree) : Tree → List OwnCall
  | .ident ident =>
    if ident = ⟨false, "Self"⟩ then
      match past? [':', ':'] rest with
      | some (.ident callee :: .group .paren arguments :: _) =>
        [⟨callee.name, startsWithSelf arguments⟩]
      | _ => []
    else if ident = ⟨false, "self"⟩ then
      match past? ['.'] rest with
      | some (.ident callee :: .group .paren _ :: _) => [⟨callee.name, true⟩]
      | _ => []
    else []
  | _ => []

mutual

def Tree.ownCalls : Tree → List OwnCall
  | .group _ content => Tree.ownCallsIn content
  | _ => []

def Tree.ownCallsIn : List Tree → List OwnCall
  | [] => []
  | tree :: rest => ownCallAt rest tree ++ tree.ownCalls ++ Tree.ownCallsIn rest

end

/-- The calls in code of functions of the type itself, in order. -/
def ownCalls (code : List Tree) : List OwnCall := Tree.ownCallsIn code

theorem ownCalls_cons (tree : Tree) (rest : List Tree) :
    ownCalls (tree :: rest) = ownCallAt rest tree ++ tree.ownCalls ++ ownCalls rest := rfl

theorem ownCalls_group (delimiter : Delimiter) (content rest : List Tree) :
    ownCalls (.group delimiter content :: rest) = ownCalls content ++ ownCalls rest := rfl

theorem ownCallAt_plain {ident : Ident} (plain : ident.name ∉ ["Self", "self"])
    (rest : List Tree) : ownCallAt rest (.ident ident) = [] := by
  have other : ident ≠ ⟨false, "Self"⟩ ∧ ident ≠ ⟨false, "self"⟩ := by
    constructor <;> rintro rfl <;> simp at plain
  simp [ownCallAt, other]

/-- A word that is followed by a group begins no call. -/
theorem ownCallAt_group (ident : Ident) (delimiter : Delimiter) (content rest : List Tree) :
    ownCallAt (.group delimiter content :: rest) (.ident ident) = [] := by
  simp [ownCallAt, past?]

theorem ownCalls_ident {word : String} (plain : word ∉ ["Self", "self"]) (rest : List Tree) :
    ownCalls (name word :: rest) = ownCalls rest := by
  rw [ownCalls_cons, name, ownCallAt_plain plain]
  rfl

/-- A path without `self` and `Self` makes no call of an own function. -/
theorem ownCalls_rooted {segments : List String}
    (plain : ∀ segment ∈ segments, segment ∉ ["Self", "self"]) (rest : List Tree) :
    ownCalls (rooted segments ++ rest) = ownCalls rest := by
  induction segments with
  | nil => rfl
  | cons segment others ih =>
      have first := ownCalls_ident (plain segment List.mem_cons_self) (rooted others ++ rest)
      rw [ih fun other inside => plain other (List.mem_cons_of_mem _ inside)] at first
      exact first

theorem ownCalls_call_rooted {segments : List String}
    (plain : ∀ segment ∈ segments, segment ∉ ["Self", "self"]) (arguments : List (List Tree)) :
    ownCalls (call (rooted segments) arguments) = ownCalls (commas arguments) := by
  unfold call
  rw [ownCalls_rooted plain, paren, ownCalls_group]
  exact List.append_nil _

end Source

open Source

/-- The call of a function of the type that the code of a call is. -/
def Call.own (target : Call) : OwnCall := ⟨target.callee.name, target.style != .associated⟩

/-- The code of a call has that call in it and no other, where the arguments have none and do not
begin with `self`. -/
theorem Call.ownCalls_print (target : Call) (arguments : List (List Tree))
    (inert : ownCalls (commas arguments) = []) (other : startsWithSelf (commas arguments) = false)
    (rest : List Tree) :
    ownCalls (target.print arguments ++ rest) = target.own :: ownCalls rest := by
  obtain ⟨style, callee⟩ := target
  have called (content : List Tree) : ownCalls (.ident callee :: paren content :: rest) =
      ownCalls content ++ ownCalls rest := by
    rw [ownCalls_cons, paren, ownCallAt_group]
    rfl
  cases style with
  | method =>
      change _ :: ownCalls (.ident callee :: paren (commas arguments) :: rest) = _
      rw [called, inert]
      rfl
  | associated =>
      change ⟨_, startsWithSelf (commas arguments)⟩ ::
        ownCalls (.ident callee :: paren (commas arguments) :: rest) = _
      rw [called, inert, other]
      rfl
  | associatedWithSelf =>
      change ⟨_, startsWithSelf (commas ([name "self"] :: arguments))⟩ ::
        ownCalls (.ident callee :: paren (commas ([name "self"] :: arguments)) :: rest) = _
      rw [called]
      cases arguments with
      | nil => rfl
      | cons first later =>
          change _ :: (ownCalls (commas (first :: later)) ++ ownCalls rest) = _
          rw [inert]
          rfl

example : ownCalls (method [name "self"] "own"
    [call (relative ["Self", "make"]) [[name "self"], [name "other"]],
      call (relative ["Self", "plain"]) []]) =
    [⟨"own", true⟩, ⟨"make", true⟩, ⟨"plain", false⟩] := by decide +kernel

namespace Generated

theorem ownCalls_listOf (elements : List (List Tree)) :
    ownCalls (listOf elements) = ownCalls (commas elements) := by
  unfold listOf
  rw [List.append_assoc, ownCalls_rooted (by decide)]
  exact List.append_nil _

/-- A list of accessors makes the calls of the accessors. -/
theorem ownCalls_accessors (accessors : List Call) :
    ownCalls (listOf (accessors.map fun accessor => accessor.print [])) =
      accessors.map Call.own := by
  rw [ownCalls_listOf]
  unfold commas
  induction accessors with
  | nil => rfl
  | cons first later ih =>
      cases later with
      | nil =>
          have alone := first.ownCalls_print [] rfl rfl []
          rw [List.append_nil] at alone
          exact alone
      | cons second later =>
          change ownCalls (first.print [] ++ op "," ++ separated (op ",") _) = _
          rw [List.append_assoc, first.ownCalls_print [] rfl rfl]
          exact congrArg (first.own :: ·) ih

/-- The text that stands for a missing handler makes no call. -/
theorem ownCalls_placeholder (tool : String) :
    ownCalls (executionBody (.placeholder tool)) = [] := by
  unfold executionBody resultPath privatePath runtimePath
  rw [ownCalls_call_rooted (by decide)]
  change ownCalls (listOf _) = _
  rw [ownCalls_listOf]
  change ownCalls (call _ _) = _
  rw [ownCalls_call_rooted (by decide)]
  change ownCalls (rooted _ ++ op "!" ++ _) = _
  rw [List.append_assoc, ownCalls_rooted (by decide)]
  change ownCalls (call _ _) ++ [] = _
  rw [ownCalls_call_rooted (by decide), List.append_nil]
  exact ownCalls_ident (by decide) []

/-- The choice among the tools makes one call on `self` for each tool. -/
theorem ownCalls_dispatchBody (arms : List (String × String)) :
    ownCalls (dispatchBody arms) = arms.map fun arm => ⟨"execute_" ++ arm.2, true⟩ := by
  unfold dispatchBody
  rw [ownCalls_ident (by decide), ownCalls_ident (by decide), brace, ownCalls_group]
  change _ ++ [] = _
  simp only [List.append_assoc, List.append_nil]
  induction arms with
  | nil => decide +kernel
  | cons arm arms ih =>
      have run (rest : List Tree) :=
        Call.ownCalls_print ⟨.method, ⟨false, "execute_" ++ arm.2⟩⟩ [[name "arguments"]]
          (by decide) (by decide) rest
      rw [List.flatMap_cons]
      simp only [List.append_assoc]
      refine (run _).trans ?_
      exact congrArg (_ :: ·) ih

end Generated

/-- The call that fits a member: it hands on `self` when the member takes it. -/
def Member.fittingCall (member : Member) : OwnCall := ⟨member.name, member.receiver⟩

/-- A call fits a function that an outline lists. -/
def Outline.Fits (outline : Outline) (call : OwnCall) : Prop :=
  ∃ member ∈ outline.members, member.fittingCall = call

theorem own_callOf (member : Member) : (callOf member).own = member.fittingCall := by
  unfold callOf Call.own Member.fittingCall
  cases member.receiver <;> rfl

theorem own_delegateTo? (outline : Outline) (function : String) :
    (delegateTo? outline function).map Call.own =
      (outline.function? function).map Member.fittingCall := by
  unfold delegateTo?
  rw [Option.map_map]
  congr 1
  funext member
  unfold Call.own Member.fittingCall
  cases receives : member.receiver <;> simp [receives] <;> rfl

section Toolbox

/-- The function that runs the tool of a binding calls the handler, if there is one. -/
theorem ownCalls_executionOf (binding : Binding) :
    ownCalls (executionOf binding).function.body =
      (binding.handler.map Member.fittingCall).toList := by
  change ownCalls (Generated.executionBody binding.execution) = _
  unfold Binding.execution
  cases binding.handler with
  | none => exact Generated.ownCalls_placeholder binding.name
  | some handler =>
      have run := (callOf handler).ownCalls_print [[name "arguments"]] (by decide) (by decide) []
      rw [List.append_nil, own_callOf] at run
      exact run

/-- A declared function of the interface is called instead of what would be called else. -/
def Outline.callsInstead (outline : Outline) (function : String) (otherwise : List OwnCall) :
    List OwnCall :=
  match outline.function? function with
  | some member => [member.fittingCall]
  | none => otherwise

/-- The call by which a tool is chosen. -/
def Member.chosenCall (property : Member) : OwnCall := ⟨Binding.executionName property, true⟩

/-- A body that hands over to a function of the block makes that call, as the function takes it. -/
theorem ownCalls_delegateTo? (outline : Outline) (function : String)
    (arguments : List (List Tree)) (inert : ownCalls (commas arguments) = [])
    (other : startsWithSelf (commas arguments) = false) (code : List Tree) :
    ownCalls (match delegateTo? outline function with
      | some target => target.print arguments
      | none => code) = outline.callsInstead function (ownCalls code) := by
  have own := own_delegateTo? outline function
  unfold Outline.callsInstead
  cases declared : outline.function? function with
  | none =>
      rw [declared, Option.map_none, Option.map_eq_none_iff] at own
      rw [own]
  | some member =>
      rw [declared, Option.map_some, Option.map_eq_some_iff] at own
      obtain ⟨target, found, same⟩ := own
      have called := target.ownCalls_print arguments inert other []
      rw [List.append_nil, same] at called
      rw [found]
      exact called

/-- The description of a toolbox is made by the block, if it can, and otherwise without a call. -/
theorem ownCalls_toolboxInfo (outline : Outline) (toolbox description : String) :
    ownCalls (Generated.toolboxInfo (delegateTo? outline "get_toolbox_info") toolbox
        description).function.body = outline.callsInstead "get_toolbox_info" [] := by
  have silent : ownCalls (call (runtimePath ["ToolboxInfo", "new"])
      [[.literal toolbox], [.literal description]]) = [] := by
    unfold runtimePath
    rw [ownCalls_call_rooted (by decide)]
    rfl
  rw [← silent]
  exact ownCalls_delegateTo? outline "get_toolbox_info" [] rfl rfl _

/-- The list of tools is made by the block, if it can, and else by calls of the accessors. -/
theorem ownCalls_toolboxTools (outline : Outline) :
    ownCalls (Generated.toolboxTools (delegateTo? outline "get_tools")
        ((outline.tagged .tool).map fun entry => callOf entry.1)).function.body =
      outline.callsInstead "get_tools"
        ((outline.tagged .tool).map fun entry => entry.1.fittingCall) := by
  have listed := Generated.ownCalls_accessors
    ((outline.tagged .tool).map fun entry => callOf entry.1)
  have fitting : ((outline.tagged .tool).map fun entry => callOf entry.1).map Call.own =
      (outline.tagged .tool).map fun entry => entry.1.fittingCall := by
    rw [List.map_map]
    exact List.map_congr_left fun entry _ => own_callOf entry.1
  rw [← fitting, ← listed]
  exact ownCalls_delegateTo? outline "get_tools" [] rfl rfl _

/-- A tool is run by the block, if it can, and else by a call chosen by name. -/
theorem ownCalls_toolboxDispatch (outline : Outline) (idle : Bool) :
    ownCalls (Generated.toolboxDispatch (delegateTo? outline "handle_tool_call")
        (outline.bindings.map fun binding => (binding.name, binding.property.name))
        idle).function.body =
      outline.callsInstead "handle_tool_call"
        ((outline.tagged .tool).map fun entry => entry.1.chosenCall) := by
  have chosen := Generated.ownCalls_dispatchBody
    (outline.bindings.map fun binding => (binding.name, binding.property.name))
  rw [Outline.bindings_eq, List.map_map, List.map_map] at chosen
  have delegated := ownCalls_delegateTo? outline "handle_tool_call"
    [[name "name"], [name "arguments"]] (by decide) (by decide)
    (Generated.dispatchBody
      (outline.bindings.map fun binding => (binding.name, binding.property.name)))
  rw [Outline.bindings_eq, List.map_map, chosen] at delegated
  rw [Outline.bindings_eq, List.map_map]
  cases idle <;> exact delegated

variable {block : ImplBlock}

/-- A call in place of others fits the function of the block that it calls, or is one of them. -/
theorem mem_callsInstead {outline : Outline} {function : String} {otherwise : List OwnCall}
    {call : OwnCall} (called : call ∈ outline.callsInstead function otherwise) :
    outline.Fits call ∨ outline.function? function = none ∧ call ∈ otherwise := by
  unfold Outline.callsInstead at called
  cases declared : outline.function? function with
  | none =>
      rw [declared] at called
      exact .inr ⟨rfl, called⟩
  | some member =>
      rw [declared] at called
      exact .inl ⟨member, List.mem_of_find?_eq_some declared, (List.mem_singleton.mp called).symm⟩

/-- A call that a toolbox makes fits a member of the block, unless it chooses a tool. -/
theorem fits_or_chosen {toolbox description : String} {generated : Generated}
    (made : generated ∈ (Outline.ofBlock block).bindings.map executionOf ++
      conformanceFunctions (Outline.ofBlock block) toolbox description)
    {call : OwnCall} (called : call ∈ ownCalls generated.function.body) :
    (Outline.ofBlock block).Fits call ∨ generated.functionName = "handle_tool_call" ∧
      (Outline.ofBlock block).function? "handle_tool_call" = none ∧
      ∃ entry ∈ (Outline.ofBlock block).tagged .tool, entry.1.chosenCall = call := by
  rcases List.mem_append.mp made with execution | interface
  · obtain ⟨binding, bound, rfl⟩ := List.mem_map.mp execution
    rw [ownCalls_executionOf, Option.mem_toList] at called
    obtain ⟨handler, handles, fits⟩ := Option.map_eq_some_iff.mp called
    obtain ⟨entry, _, rfl⟩ := List.mem_map.mp bound
    have candidate := List.mem_of_find?_eq_some handles
    exact .inl ⟨handler, (List.mem_filter.mp candidate).1, fits⟩
  · simp only [conformanceFunctions, List.mem_cons, List.not_mem_nil, or_false] at interface
    rcases interface with rfl | rfl | rfl
    · rw [ownCalls_toolboxInfo] at called
      exact .inl ((mem_callsInstead called).resolve_right fun nothing => List.not_mem_nil nothing.2)
    · rw [ownCalls_toolboxTools] at called
      refine .inl ((mem_callsInstead called).elim id fun listed => ?_)
      obtain ⟨entry, tagged, fits⟩ := List.mem_map.mp listed.2
      exact ⟨entry.1, (tagged_sublist _ .tool).subset (List.mem_map_of_mem tagged), fits⟩
    · rw [ownCalls_toolboxDispatch] at called
      refine (mem_callsInstead called).imp_right fun chosen => ⟨rfl, chosen.1, ?_⟩
      exact List.mem_map.mp chosen.2

/-- Where the block leaves the choice of a tool to the expansion, each of its tools is chosen. -/
theorem exists_chosen {toolbox description : String}
    (undeclared : (Outline.ofBlock block).function? "handle_tool_call" = none)
    {entry : Member × Marking} (tagged : entry ∈ (Outline.ofBlock block).tagged .tool) :
    ∃ generated ∈ conformanceFunctions (Outline.ofBlock block) toolbox description,
      entry.1.chosenCall ∈ ownCalls generated.function.body := by
  refine ⟨_, List.mem_cons_of_mem _ (List.mem_cons_of_mem _ List.mem_cons_self), ?_⟩
  rw [ownCalls_toolboxDispatch, Outline.callsInstead, undeclared]
  exact List.mem_map_of_mem tagged

/-- The function that runs the tool of a property is declared, and without a receiver. -/
def Outline.RunsBare (outline : Outline) (property : Member) : Prop :=
  outline.declares (Binding.executionName property) = true ∧
    ∀ member ∈ outline.members,
      member.name = Binding.executionName property → member.receiver = false

instance (outline : Outline) (property : Member) : Decidable (outline.RunsBare property) :=
  inferInstanceAs (Decidable (_ ∧ _))

theorem not_runsBare_of_fits {outline : Outline} {property : Member}
    (fits : outline.Fits property.chosenCall) : ¬ outline.RunsBare property := by
  intro bare
  obtain ⟨member, inside, same⟩ := fits
  have refuses := bare.2 member inside (congrArg OwnCall.callee same)
  have takes : member.receiver = true := congrArg OwnCall.passesSelf same
  rw [refuses] at takes
  cases takes

/-- The call by which a tool is chosen fits a function of the type, unless the block declares that
function without a receiver. -/
theorem fits_chosenCall_iff {entry : Member × Marking}
    (tagged : entry ∈ (Outline.ofBlock block).tagged .tool) :
    (Outline.ofBlock (emitted block (addedToToolbox block))).Fits entry.1.chosenCall ↔
      ¬ (Outline.ofBlock block).RunsBare entry.1 := by
  have listed : (Outline.ofBlock (emitted block (addedToToolbox block))).members =
      (Outline.ofBlock block).members ++ (addedToToolbox block).map Generated.asMember := by
    rw [ofBlock_emitted]
  constructor
  · intro ⟨member, inside, fits⟩
    rw [listed] at inside
    rcases List.mem_append.mp inside with own | added
    · exact not_runsBare_of_fits ⟨member, own, fits⟩
    · -- What is declared was not made.
      obtain ⟨generated, admitted, rfl⟩ := List.mem_map.mp added
      have named : generated.functionName = Binding.executionName entry.1 := by
        rw [← generated.asMember_name]
        exact congrArg OwnCall.callee fits
      have undeclared := (List.mem_filter.mp admitted).2
      intro bare
      rw [named, bare.1] at undeclared
      cases undeclared
  · intro takes
    by_cases declared : (Outline.ofBlock block).declares (Binding.executionName entry.1) = true
    · have found : ¬ ∀ member ∈ (Outline.ofBlock block).members,
          member.name = Binding.executionName entry.1 → member.receiver = false :=
        fun bare => takes ⟨declared, bare⟩
      push Not at found
      obtain ⟨member, own, named, receives⟩ := found
      refine ⟨member, listed ▸ List.mem_append_left _ own, ?_⟩
      rw [Member.fittingCall, named, (Bool.not_eq_false _).mp receives]
      rfl
    · -- What is made takes a receiver.
      refine ⟨(executionOf ((Outline.ofBlock block).binding entry)).asMember, ?_, rfl⟩
      rw [listed]
      apply List.mem_append_right
      apply List.mem_map_of_mem
      refine List.mem_filter.mpr ⟨List.mem_map_of_mem (List.mem_map_of_mem tagged), ?_⟩
      rw [Bool.not_eq_true', ← Bool.not_eq_true]
      exact declared

theorem Outline.Fits.emitted {call : OwnCall} (fits : (Outline.ofBlock block).Fits call)
    (functions : List Generated) : (Outline.ofBlock (emitted block functions)).Fits call := by
  obtain ⟨member, inside, same⟩ := fits
  refine ⟨member, ?_, same⟩
  rw [ofBlock_emitted]
  exact List.mem_append_left _ inside

/-- A call that a toolbox makes fits a function of the type, unless it chooses a tool whose function
the block declares without a receiver. -/
theorem fits_or_bare {toolbox description : String} {generated : Generated}
    (made : generated ∈ (Outline.ofBlock block).bindings.map executionOf ++
      conformanceFunctions (Outline.ofBlock block) toolbox description)
    {call : OwnCall} (called : call ∈ ownCalls generated.function.body) :
    (Outline.ofBlock (emitted block (addedToToolbox block))).Fits call ∨
      generated.functionName = "handle_tool_call" ∧
      (Outline.ofBlock block).function? "handle_tool_call" = none ∧
      ∃ entry ∈ (Outline.ofBlock block).tagged .tool,
        entry.1.chosenCall = call ∧ (Outline.ofBlock block).RunsBare entry.1 := by
  rcases fits_or_chosen made called with fits | ⟨named, undeclared, entry, tagged, rfl⟩
  · exact .inl (fits.emitted _)
  · by_cases bare : (Outline.ofBlock block).RunsBare entry.1
    · exact .inr ⟨named, undeclared, entry, tagged, rfl, bare⟩
    · exact .inl ((fits_chosenCall_iff tagged).mpr bare)

theorem callee_callsInstead (outline : Outline) (function : String) (otherwise : List OwnCall) :
    (outline.callsInstead function otherwise).map OwnCall.callee =
      Generated.delegated (otherwise.map OwnCall.callee) (delegateTo? outline function) := by
  unfold Outline.callsInstead delegateTo?
  cases outline.function? function <;> rfl

/-- Calls of functions of the type are all that a toolbox refers to. -/
theorem callee_ownCalls {toolbox description : String} {generated : Generated}
    (made : generated ∈ (Outline.ofBlock block).bindings.map executionOf ++
      conformanceFunctions (Outline.ofBlock block) toolbox description) :
    (ownCalls generated.function.body).map OwnCall.callee = references generated.function.body := by
  have inert : generated.values = [] := by
    have none := values_toolbox (Outline.ofBlock block) toolbox description
    exact List.flatMap_eq_nil_iff.mp none generated made
  obtain ⟨before, after, refers, callees⟩ := generated.references_body
  rw [inert, List.flatMap_nil, List.append_nil, callees] at refers
  rw [refers]
  rcases List.mem_append.mp made with execution | interface
  · obtain ⟨binding, _, rfl⟩ := List.mem_map.mp execution
    rw [ownCalls_executionOf]
    unfold executionOf Binding.execution
    cases binding.handler <;> rfl
  · simp only [conformanceFunctions, List.mem_cons, List.not_mem_nil, or_false] at interface
    rcases interface with rfl | rfl | rfl
    · rw [ownCalls_toolboxInfo]
      exact callee_callsInstead _ _ _
    · rw [ownCalls_toolboxTools, callee_callsInstead, List.map_map]
      rw [Generated.callees, List.map_map]
      rfl
    · rw [ownCalls_toolboxDispatch, callee_callsInstead, Generated.callees, Outline.bindings_eq]
      rw [List.map_map, List.map_map, List.map_map]
      rfl

end Toolbox

/-- **Calls and receivers.** All that the functions of a toolbox refer to is called, and each call
fits a function of the type as the expansion leaves it, with one exception: a tool is chosen by a
call on `self` also where the block declares the function that runs it without a receiver. So all
calls fit exactly when there is no such tool, or the block chooses among its tools itself. -/
theorem toolbox_calls_fit {marking : Marking} {block : ImplBlock} {expansion : Expansion}
    (expanded : expandToolbox marking block = .ok expansion) :
    ∃ host, expansion.host = .block host ∧
      (block.functionNames.Nodup → host.functionNames.Nodup) ∧
      (∀ function ∈ expansion.functions,
        (ownCalls function.body).map OwnCall.callee = references function.body ∧
        ∀ call ∈ ownCalls function.body, (Outline.ofBlock host).Fits call ∨
          function.sig.ident.name = "handle_tool_call" ∧
          (Outline.ofBlock block).function? "handle_tool_call" = none ∧
          ∃ entry ∈ (Outline.ofBlock block).tagged .tool,
            entry.1.chosenCall = call ∧ (Outline.ofBlock block).RunsBare entry.1) ∧
      ((∀ function ∈ expansion.functions, ∀ call ∈ ownCalls function.body,
          (Outline.ofBlock host).Fits call) ↔
        ((Outline.ofBlock block).function? "handle_tool_call").isSome = true ∨
          ∀ entry ∈ (Outline.ofBlock block).tagged .tool,
            ¬ (Outline.ofBlock block).RunsBare entry.1) := by
  obtain ⟨toolbox, description, _, rfl⟩ := expandToolbox_eq_ok.mp expanded
  have makes := makes_toolbox block
    (conformanceFunctions (Outline.ofBlock block) toolbox description)
  refine ⟨_, by rw [Expansion.host_adding, Expansion.host_adding], fun distinct => ?_, ?_⟩
  · have once := makes.nodup distinct (nodup_executions distinct)
    rw [makes.declared, makes.inherent] at once
    rw [functionNames_emitted]
    exact once
  rw [makes.functions]
  have considered {generated : Generated}
      (made : generated ∈ addedToToolbox block ++
        conformanceFunctions (Outline.ofBlock block) toolbox description) :
      generated ∈ (Outline.ofBlock block).bindings.map executionOf ++
        conformanceFunctions (Outline.ofBlock block) toolbox description :=
    (List.filter_sublist.append (List.Sublist.refl _)).subset made
  refine ⟨fun function listed => ?_, ?_, ?_⟩
  · obtain ⟨generated, made, rfl⟩ := List.mem_map.mp listed
    refine ⟨callee_ownCalls (considered made), fun call called => ?_⟩
    apply (fits_or_bare (considered made) called).imp_right
    intro ⟨named, bare⟩
    exact ⟨generated.asMember_name.trans named, bare⟩
  · intro fit
    cases chooses : (Outline.ofBlock block).function? "handle_tool_call" with
    | some member => exact .inl rfl
    | none =>
        refine .inr fun entry tagged => (fits_chosenCall_iff tagged).mp ?_
        obtain ⟨generated, made, called⟩ := exists_chosen chooses tagged
        exact fit _ (List.mem_map_of_mem (List.mem_append_right _ made)) _ called
  · intro apart function listed call called
    obtain ⟨generated, made, rfl⟩ := List.mem_map.mp listed
    apply (fits_or_bare (considered made) called).resolve_right
    intro ⟨_, undeclared, entry, tagged, _, bare⟩
    rcases apart with chooses | takes
    · rw [undeclared] at chooses
      cases chooses
    · exact takes entry tagged bare

/-- `&self` -/
def ofSelf : Input := ⟨[], true, op "&" ++ [name "self"], false⟩

/-- A kit with a handler and a function that runs a tool, both with a receiver, and with its own
description, without one. -/
def mixedKit : ImplBlock where
  selfType := .ofTrees (.path ⟨false, "Kit"⟩ false true) [name "Kit"]
  members := [.declaration rawProperty, .declaration namedProperty,
    .function { sig := { ident := ⟨false, "say_handler"⟩, inputs := [ofSelf] } },
    .function { sig := { ident := ⟨true, "execute_type"⟩, inputs := [ofSelf] } },
    .function { sig := { ident := ⟨false, "get_toolbox_info"⟩ } }]

/-- The calls of a toolbox fit where the block runs one tool on `self` and describes itself without
it. -/
theorem toolbox_calls_fit_of_mixedKit :
    ∃ expansion host, expandToolbox kitMarking mixedKit = .ok expansion ∧
      expansion.host = .block host ∧
      (expansion.functions.flatMap fun function => ownCalls function.body) =
        [⟨"say_handler", true⟩, ⟨"get_toolbox_info", false⟩, ⟨"type", false⟩, ⟨"say", false⟩,
          ⟨"execute_type", true⟩, ⟨"execute_say", true⟩] ∧
      ∀ function ∈ expansion.functions, ∀ call ∈ ownCalls function.body,
        (Outline.ofBlock host).Fits call := by
  have made : (expandToolbox kitMarking mixedKit).toOption.map (fun expansion =>
      expansion.functions.flatMap fun function => ownCalls function.body) =
        some [⟨"say_handler", true⟩, ⟨"get_toolbox_info", false⟩, ⟨"type", false⟩, ⟨"say", false⟩,
          ⟨"execute_type", true⟩, ⟨"execute_say", true⟩] := by decide +kernel
  obtain ⟨expansion, expanded, calls⟩ := exists_of_map_toOption made
  obtain ⟨host, hosted, _, _, fits⟩ := toolbox_calls_fit expanded
  exact ⟨expansion, host, expanded, hosted, calls, fits.mpr (.inr (by decide +kernel))⟩

/-- A kit that runs its tool by a function without a receiver. -/
def bareKit : ImplBlock where
  selfType := .ofTrees (.path ⟨false, "Kit"⟩ false true) [name "Kit"]
  members := [.declaration (markedProperty ⟨false, "echo"⟩ described),
    .function
      { sig :=
          { ident := ⟨false, "execute_echo"⟩
            inputs := [⟨[], false, [name "arguments"] ++ op ":" ++ [name "Arguments"], false⟩]
            output := some [name "ToolResult"] }
        body := [name "todo"] ++ op "!" ++ [paren []] }]

/-- Its tool is run by a call on `self`, which the function does not take. -/
theorem bare_execution_called_on_self :
    ∃ expansion host, expandToolbox kitMarking bareKit = .ok expansion ∧
      expansion.host = .block host ∧
      (∃ function ∈ expansion.functions, ⟨"execute_echo", true⟩ ∈ ownCalls function.body) ∧
      (∃ member ∈ (Outline.ofBlock host).members, member.name = "execute_echo") ∧
      ∀ member ∈ (Outline.ofBlock host).members,
        member.name = "execute_echo" → member.receiver = false := by
  have made : (expandToolbox kitMarking bareKit).toOption.map (fun expansion =>
      expansion.functions.any fun function =>
        ownCalls function.body |>.contains ⟨"execute_echo", true⟩) = some true := by decide +kernel
  obtain ⟨expansion, expanded, called⟩ := exists_of_map_toOption made
  obtain ⟨_, _, _, rfl⟩ := expandToolbox_eq_ok.mp expanded
  refine ⟨_, emitted bareKit (addedToToolbox bareKit), expanded, ?_, ?_, ?_, ?_⟩
  · rw [Expansion.host_adding, Expansion.host_adding]
  · obtain ⟨function, listed, called⟩ := List.any_eq_true.mp called
    exact ⟨function, listed, List.contains_iff_mem.mp called⟩
  · decide +kernel
  · decide +kernel

end Toolsmith
