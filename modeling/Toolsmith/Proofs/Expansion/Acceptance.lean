import Mathlib
import Toolsmith.Proofs.Expansion.Preparation
import Toolsmith.Proofs.Marking.Exactness

/-! # Which blocks are accepted

An expansion makes its checks one after another, some before and some after it has built what it
adds. `Check` lists them and `Check.Fails` says of each, without the code that makes it, when it
fails and with which problem. The expansion of a block succeeds exactly when no check of its kind
fails, and otherwise reports the first that does (`expansions_decided`). What is looked up among
resolved arguments on the way is there, so that a missing argument is only ever reported by the
resolution itself.
-/

namespace Toolsmith

open Source

/-- What a literal of a kind is. -/
def LiteralKind.Holds : LiteralKind → Expression → Prop
  | .string, value => ∃ text, value.kind = .literal text ∧ (stringValue? text).isSome = true
  | .boolean, value => ∃ truth, value.kind = .boolean truth

/-- What the code that is made can demand of a member that it uses. -/
inductive Demand where
  /-- It takes no `self`. -/
  | static
  | synchronous
  | asynchronous

namespace Demand

/-- Whether a member does not meet the demand. -/
def isBrokenBy (member : Member) : Demand → Bool
  | .static => member.receiver
  | .synchronous => member.isAsync
  | .asynchronous => !member.isAsync

/-- The problem with a member that does not meet the demand. -/
def problem (member : Member) (type : String) (site : Site) : Demand → Diagnostic
  | .static => .receiver member.name type site
  | .synchronous => .asynchronous member.name type site
  | .asynchronous => .synchronous member.name type site

end Demand

/-- What the code that is made uses members for. -/
inductive Role where
  | tool
  | handler
  | hook

/-- The members in a role. Handlers are in the order of the tools that they are bound to. -/
def Role.members (outline : Outline) : Role → List Member
  | .tool => (outline.tagged .tool).map (·.1)
  | .handler => outline.bindings.filterMap (·.handler)
  | .hook => outline.connectHook?.toList

/-- A check on an annotated block. -/
inductive Check where
  /-- The block is not that of a trait. -/
  | inherent
  /-- The arguments resolve. -/
  | arguments (schema : Schema)
  /-- An argument, if it is written, is a literal. -/
  | literal (schema : Schema) (label : String) (kind : LiteralKind)
  /-- No two tools have the same name. -/
  | uniqueTools
  | members (role : Role) (demand : Demand)
  /-- The attributes of parameters are in order. -/
  | parameters

/-- The check fails for a block, and this is the problem to report. -/
inductive Check.Fails (marking : Marking) (block : ImplBlock) : Check → Diagnostic → Prop
  | inherent (implements : block.trait.isSome = true) :
      Fails marking block .inherent (.typeTarget marking.site)
  | arguments {schema : Schema} {error : ArgumentError}
      (fault : schema.FirstFault marking.arguments error) :
      Fails marking block (.arguments schema) (.argument error)
  | literal {schema : Schema} {label : String} {kind : LiteralKind} {argument : Argument}
      (written : argument ∈ marking.arguments) (labelled : argument.isLabelled label = true)
      (other : ¬ kind.Holds argument.value) :
      Fails marking block (.literal schema label kind)
        (.argument (.expectedLiteral schema.site label kind))
  | uniqueTools {before after : List Binding} {binding : Binding}
      (split : (Outline.ofBlock block).bindings = before ++ binding :: after)
      (distinct : (before.map (·.toolValue)).Nodup)
      (again : binding.toolValue ∈ before.map (·.toolValue)) :
      Fails marking block .uniqueTools
        (.duplicateTool binding.toolValue (typeName block.selfType))
  | members {role : Role} {demand : Demand} {problem : Diagnostic}
      (first : FirstOf (fun member problem => demand.isBrokenBy member = true ∧
          problem = demand.problem member (typeName block.selfType) marking.site)
        (role.members (Outline.ofBlock block)) problem) :
      Fails marking block (.members role demand) problem
  | parameters {problem : Diagnostic}
      (first : FirstOf Attribute.Faulty (block.members.flatMap ImplMember.parameterAttributes)
        problem) :
      Fails marking block .parameters problem

/-- The checks on a server, in order. -/
def serverChecks : List Check :=
  [.inherent, .arguments .server, .literal .server "generate_main" .boolean, .uniqueTools,
    .members .tool .static, .parameters]

/-- The checks on a toolbox, in order. -/
def toolboxChecks : List Check :=
  [.inherent, .arguments .toolbox, .literal .toolbox "name" .string,
    .literal .toolbox "description" .string, .uniqueTools, .members .handler .synchronous,
    .parameters]

/-- The checks on a global server, in order. -/
def globalServerChecks : List Check :=
  [.inherent, .arguments (.globalServer false), .uniqueTools, .members .tool .static,
    .members .handler .static, .members .hook .static, .members .hook .asynchronous, .parameters]

/-- The result is that of making checks in turn. -/
structure Decides {α : Type} (fails : Check → Diagnostic → Prop) (checks : List Check)
    (result : Except Diagnostic α) : Prop where
  accepts : (∃ value, result = .ok value) ↔ ∀ check ∈ checks, ∀ problem, ¬ fails check problem
  refuses : ∀ problem, result = .error problem ↔ FirstOf fails checks problem

namespace Decides

variable {α β : Type} {fails : Check → Diagnostic → Prop} {checks : List Check}

theorem of_ok (value : α) : Decides fails [] (.ok value) where
  accepts := by simp
  refuses problem := by simp [not_firstOf_nil]

/-- A step that cannot fail makes no check. -/
theorem pass {first : Except Diagnostic β} {next : β → Except Diagnostic α} {value : β}
    (succeeds : first = .ok value) (later : Decides fails checks (next value)) :
    Decides fails checks (first >>= next) := by
  rw [succeeds]
  exact later

/-- A step that makes a check, and then steps that make others. -/
theorem bind {check : Check} {first : Except Diagnostic β} {next : β → Except Diagnostic α}
    (here : ∀ problem, first = .error problem ↔ fails check problem)
    (later : ∀ value, first = .ok value → Decides fails checks (next value)) :
    Decides fails (check :: checks) (first >>= next) := by
  cases made : first with
  | error problem =>
      -- The checks after this one are not made, whether they would fail or not.
      have failed (other : Diagnostic) : fails check other ↔ problem = other := by
        rw [← here other, made, Except.error.injEq]
      refine ⟨iff_of_false nofun fun clear => ?_, fun other => ?_⟩
      · exact clear check List.mem_cons_self problem ((failed problem).mpr rfl)
      · change Except.error problem = .error other ↔ _
        rw [firstOf_cons, failed other, Except.error.injEq]
        refine ⟨.inl, ?_⟩
        rintro (same | ⟨clear, _⟩)
        · exact same
        · exact absurd ((failed problem).mpr rfl) (clear problem)
  | ok value =>
      have clear (problem : Diagnostic) : ¬ fails check problem := by
        rw [← here problem, made]
        exact nofun
      obtain ⟨accepts, refuses⟩ := later value made
      refine ⟨accepts.trans ?_, fun problem => (refuses problem).trans ?_⟩
      · rw [List.forall_mem_cons]
        exact ⟨fun rest => ⟨clear, rest⟩, And.right⟩
      · rw [firstOf_cons]
        refine ⟨fun first => .inr ⟨clear, first⟩, ?_⟩
        rintro (failed | ⟨_, first⟩)
        · exact absurd failed (clear problem)
        · exact first

end Decides

section Arguments

variable {schema : Schema} {arguments : List Argument} {resolved : ResolvedArguments}

/-- The labels of the settings of a server. -/
def settingLabels : List String := ["name", "version", "capabilities", "configuration"]

/-- Settings are there once arguments resolve. -/
theorem Schema.Plain.settingsOf_of_resolve (plain : schema.Plain)
    (accepted : schema.resolve arguments = .ok resolved)
    (listed : ∀ label ∈ settingLabels, label ∈ schema.parameters.map (·.label)) :
    ∃ settings, settingsOf resolved = .ok settings := by
  have given (label : String) (inside : label ∈ settingLabels) :
      ∃ value, liftArguments (resolved.required label) = .ok value := by
    obtain ⟨parameter, known, rfl⟩ := List.mem_map.mp (listed label inside)
    obtain ⟨value, found, _⟩ := plain.get?_of_resolve accepted known
    refine ⟨value, ?_⟩
    rw [ResolvedArguments.required, found]
    rfl
  obtain ⟨name, named⟩ := given "name" (by simp [settingLabels])
  obtain ⟨version, versioned⟩ := given "version" (by simp [settingLabels])
  obtain ⟨capabilities, capable⟩ := given "capabilities" (by simp [settingLabels])
  obtain ⟨configuration, configured⟩ := given "configuration" (by simp [settingLabels])
  refine ⟨⟨name, version, capabilities, configuration⟩, ?_⟩
  rw [settingsOf, named, versioned, capable, configured]
  rfl

end Arguments

namespace ResolvedArguments

variable {arguments : ResolvedArguments} {label : String} {value : Expression}
  (given : arguments.get? label = some value)

include given

/-- A value is refused as a boolean when it is none, and the error names the kind that was expected.
-/
theorem boolean?_eq_error_iff {error : ArgumentError} :
    arguments.boolean? label = .error error ↔
      ¬ LiteralKind.boolean.Holds value ∧
        error = .expectedLiteral arguments.site label .boolean := by
  unfold boolean?
  rw [given]
  dsimp only
  split
  · rename_i truth kind
    exact iff_of_false nofun fun failed => failed.1 ⟨truth, kind⟩
  · rename_i other
    rw [Except.error.injEq, eq_comm]
    exact ⟨fun same => ⟨fun ⟨truth, kind⟩ => other truth kind, same⟩, And.right⟩

theorem requiredString_eq_error_iff {error : ArgumentError} :
    arguments.requiredString label = .error error ↔
      ¬ LiteralKind.string.Holds value ∧
        error = .expectedLiteral arguments.site label .string := by
  by_cases literal : LiteralKind.string.Holds value
  · obtain ⟨text, kind, valued⟩ := literal
    have read : arguments.string? label = .ok (some text) := by
      rw [string?, given]
      simp only [kind, valued, ↓reduceIte]
    rw [requiredString, read]
    exact iff_of_false nofun fun failed => failed.1 ⟨text, kind, valued⟩
  · have unread : arguments.string? label =
        .error (.expectedLiteral arguments.site label .string) := by
      rw [string?, given]
      dsimp only
      split
      · rename_i text kind
        rw [if_neg fun valued => literal ⟨text, kind, valued⟩]
      · rfl
    rw [requiredString, unread]
    change Except.error _ = .error error ↔ _
    rw [Except.error.injEq, eq_comm]
    exact ⟨fun same => ⟨literal, same⟩, And.right⟩

end ResolvedArguments

section Steps

variable {marking : Marking} {block : ImplBlock} {problem : Diagnostic}

theorem liftArguments_eq_error_iff {α : Type} {result : Except ArgumentError α} :
    liftArguments result = .error problem ↔
      ∃ error, result = .error error ∧ problem = .argument error := by
  cases result with
  | error error => simp [liftArguments, Except.mapError, eq_comm]
  | ok value => simp [liftArguments, Except.mapError]

theorem checkInherent_eq_error_iff :
    checkInherent marking.site block = .error problem ↔
      Check.Fails marking block .inherent problem := by
  unfold checkInherent
  constructor
  · intro failed
    split at failed
    · rename_i implements
      cases failed
      exact .inherent implements
    · cases failed
  · intro failed
    cases failed with
    | inherent implements => rw [if_pos implements]

/-- Resolving the arguments fails as the check of a schema says: by the first fault. -/
theorem liftArguments_resolve_eq_error_iff {schema : Schema} (distinct : schema.Distinct) :
    liftArguments (schema.resolve marking.arguments) = .error problem ↔
      Check.Fails marking block (.arguments schema) problem := by
  rw [liftArguments_eq_error_iff]
  constructor
  · rintro ⟨error, failed, rfl⟩
    exact .arguments ((Schema.resolve_eq_error_iff distinct).mp failed)
  · intro failed
    cases failed with
    | arguments fault => exact ⟨_, (Schema.resolve_eq_error_iff distinct).mpr fault, rfl⟩

/-- The literal of a parameter is checked as its value is looked up. -/
theorem literal_fails_iff {schema : Schema} {resolved : ResolvedArguments} {parameter : Parameter}
    (plain : schema.Plain) (accepted : schema.resolve marking.arguments = .ok resolved)
    (known : parameter ∈ schema.parameters) {kind : LiteralKind}
    (literal : ∀ fallback, parameter.requirement = .fallback fallback → kind.Holds fallback) :
    ∃ value, resolved.get? parameter.label = some value ∧
      (Check.Fails marking block (.literal schema parameter.label kind) problem ↔
        ∃ error, (¬ kind.Holds value ∧
            error = .expectedLiteral resolved.site parameter.label kind) ∧
          problem = .argument error) := by
  obtain ⟨value, given, exact⟩ := plain.get?_of_resolve accepted known
  refine ⟨value, given, ?_⟩
  rw [exact kind.Holds literal, Schema.site_of_resolve accepted]
  push Not
  constructor
  · intro failed
    cases failed with
    | literal written labelled other => exact ⟨_, ⟨⟨_, written, labelled, other⟩, rfl⟩, rfl⟩
  · rintro ⟨_, ⟨⟨argument, written, labelled, other⟩, rfl⟩, rfl⟩
    exact .literal written labelled other

theorem liftArguments_boolean?_eq_error_iff {resolved : ResolvedArguments}
    (accepted : Schema.server.resolve marking.arguments = .ok resolved) :
    liftArguments (resolved.boolean? "generate_main") = .error problem ↔
      Check.Fails marking block (.literal .server "generate_main" .boolean) problem := by
  have literal (fallback : Expression) (default : Requirement.fallback (.ofTrees (.boolean true)
      [name "true"]) = .fallback fallback) : LiteralKind.boolean.Holds fallback := by
    cases default
    exact ⟨true, rfl⟩
  obtain ⟨value, given, exact⟩ := literal_fails_iff Schema.plain_server accepted
    Schema.generateMain_mem literal
  rw [exact, liftArguments_eq_error_iff]
  simp only [resolved.boolean?_eq_error_iff given]

theorem liftArguments_requiredString_eq_error_iff {resolved : ResolvedArguments} {label : String}
    (accepted : Schema.toolbox.resolve marking.arguments = .ok resolved)
    (known : ⟨label, [], .required⟩ ∈ Schema.toolbox.parameters) :
    liftArguments (resolved.requiredString label) = .error problem ↔
      Check.Fails marking block (.literal .toolbox label .string) problem := by
  obtain ⟨value, given, exact⟩ := literal_fails_iff Schema.plain_toolbox accepted known nofun
  rw [exact, liftArguments_eq_error_iff]
  simp only [resolved.requiredString_eq_error_iff given]

/-- The first name that is not new among those before it. -/
theorem repeatedTool?_eq_some_iff {seen names : List String} {name : String} :
    Outline.repeatedTool? seen names = some name ↔ ∃ before after,
      names = before ++ name :: after ∧ (before.Nodup ∧ ∀ other ∈ before, other ∉ seen) ∧
        (name ∈ seen ∨ name ∈ before) := by
  -- What is passed over joins `seen`, so that the names before the result are split between both.
  induction names generalizing seen with
  | nil => simp [Outline.repeatedTool?]
  | cons first rest ih =>
      unfold Outline.repeatedTool?
      by_cases known : first ∈ seen
      · rw [if_pos (List.contains_iff_mem.mpr known)]
        constructor
        · intro found
          cases found
          exact ⟨[], rest, rfl, by simp, .inl known⟩
        · rintro ⟨before, after, split, ⟨_, fresh⟩, _⟩
          cases before with
          | nil =>
              cases split
              rfl
          | cons other before =>
              cases split
              exact absurd known (fresh first List.mem_cons_self)
      · rw [if_neg (by simpa using known), ih]
        constructor
        · rintro ⟨before, after, rfl, ⟨distinct, fresh⟩, again⟩
          refine ⟨first :: before, after, rfl, ⟨?_, ?_⟩, ?_⟩
          · refine List.nodup_cons.mpr ⟨fun inside => ?_, distinct⟩
            exact fresh first inside List.mem_cons_self
          · exact List.forall_mem_cons.mpr ⟨known, fun other inside there =>
              fresh other inside (List.mem_cons_of_mem _ there)⟩
          · simp only [List.mem_cons] at again ⊢
            tauto
        · rintro ⟨before, after, split, ⟨distinct, fresh⟩, again⟩
          cases before with
          | nil =>
              cases split
              simp [known] at again
          | cons other before =>
              cases split
              rw [List.nodup_cons] at distinct
              refine ⟨before, after, rfl, ⟨distinct.2, ?_⟩, ?_⟩
              · intro other inside there
                rcases List.mem_cons.mp there with rfl | there
                · exact distinct.1 inside
                · exact fresh other (List.mem_cons_of_mem _ inside) there
              · simp only [List.mem_cons] at again ⊢
                tauto

/-- The check for repeated tools reports the first tool whose name came before. -/
theorem checkUniqueTools_eq_error_iff :
    (Outline.ofBlock block).checkUniqueTools = .error problem ↔
      Check.Fails marking block .uniqueTools problem := by
  unfold Outline.checkUniqueTools
  constructor
  · intro failed
    split at failed
    · rename_i tool found
      cases failed
      obtain ⟨names, others, split, ⟨distinct, _⟩, again⟩ := repeatedTool?_eq_some_iff.mp found
      obtain ⟨before, rest, bindings, rfl, tail⟩ := List.map_eq_append_iff.mp split
      obtain ⟨binding, after, rfl, rfl, rfl⟩ := List.map_eq_cons_iff.mp tail
      exact .uniqueTools bindings distinct (by simpa using again)
    · cases failed
  · intro failed
    cases failed with
    | @uniqueTools before after binding split distinct again =>
        have found : Outline.repeatedTool? [] ((Outline.ofBlock block).bindings.map (·.toolValue)) =
            some binding.toolValue := by
          refine repeatedTool?_eq_some_iff.mpr ⟨before.map (·.toolValue), after.map (·.toolValue),
            ?_, ⟨distinct, by simp⟩, .inr again⟩
          rw [split, List.map_append, List.map_cons]
        rw [found]
        rfl

/-- Fails at the first member that does not meet a demand. -/
def demanding (demand : Demand) (members : List Member) (type : String) (site : Site) :
    Except Diagnostic Unit :=
  match members.find? fun member => demand.isBrokenBy member with
  | some member => .error (demand.problem member type site)
  | none => .ok ()

/-- What is demanded of the members in a role fails for the first of them that does not meet it. -/
theorem demanding_eq_error_iff (role : Role) (demand : Demand) :
    demanding demand (role.members (Outline.ofBlock block)) (typeName block.selfType) marking.site =
      .error problem ↔ Check.Fails marking block (.members role demand) problem := by
  unfold demanding
  constructor
  · intro failed
    split at failed
    · rename_i member found
      cases failed
      obtain ⟨broken, before, after, split, passed⟩ := List.find?_eq_some_iff_append.mp found
      refine .members ⟨before, member, after, split, ?_, broken, rfl⟩
      rintro other inside problem ⟨faulty, _⟩
      simpa [faulty] using passed other inside
    · cases failed
  · intro failed
    cases failed with
    | members first =>
        obtain ⟨before, member, after, split, passed, broken, rfl⟩ := first
        have found : ((role.members (Outline.ofBlock block)).find? fun member =>
            demand.isBrokenBy member) = some member := by
          refine List.find?_eq_some_iff_append.mpr ⟨broken, before, after, split, ?_⟩
          intro other inside
          by_contra faulty
          exact passed other inside _ ⟨by simpa using faulty, rfl⟩
        rw [found]

theorem checkStaticTools_eq_demanding (outline : Outline) (site : Site) :
    outline.checkStaticTools site =
      demanding .static (Role.tool.members outline) outline.typeName site := by
  have same : ((Role.tool.members outline).find? fun member => Demand.static.isBrokenBy member) =
      ((outline.tagged .tool).find? (·.1.receiver)).map (·.1) := List.find?_map
  unfold Outline.checkStaticTools demanding
  rw [same]
  cases (outline.tagged .tool).find? (·.1.receiver) with
  | none => rfl
  | some found => rfl

/-- The hook is looked at twice. -/
theorem checkHook_eq_demanding (outline : Outline) (site : Site) :
    checkHook outline site =
      (demanding .static (Role.hook.members outline) outline.typeName site >>= fun _ =>
        demanding .asynchronous (Role.hook.members outline) outline.typeName site) := by
  unfold checkHook demanding Role.members
  cases outline.connectHook? with
  | none => rfl
  | some hook =>
      obtain ⟨kind, ident, markings, receiver, isAsync⟩ := hook
      cases receiver with
      | true => rfl
      | false =>
          cases isAsync with
          | true => rfl
          | false => rfl

theorem prepared_eq_error_iff_fails :
    block.prepared = .error problem ↔ Check.Fails marking block .parameters problem := by
  rw [block.prepared_eq_error_iff]
  constructor
  · intro first
    exact .parameters first
  · intro failed
    cases failed with
    | parameters first => exact first

end Steps

section Decided

variable (marking : Marking) (block : ImplBlock)

/-- The checks of a server decide its expansion, in the order in which they are listed. -/
theorem expandServer_decided :
    Decides (Check.Fails marking block) serverChecks (expandServer marking block) := by
  unfold expandServer
  refine .bind (fun _ => checkInherent_eq_error_iff) fun _ _ => ?_
  refine .bind (fun _ => liftArguments_resolve_eq_error_iff Schema.plain_server.distinct)
    fun resolved accepted => ?_
  have accepted := mapError_eq_ok.mp accepted
  refine .bind (fun _ => liftArguments_boolean?_eq_error_iff accepted) fun _ _ => ?_
  refine .bind (fun _ => checkUniqueTools_eq_error_iff) fun _ _ => ?_
  rw [checkStaticTools_eq_demanding]
  refine .bind (fun _ => demanding_eq_error_iff .tool .static) fun _ _ => ?_
  obtain ⟨settings, settled⟩ := Schema.plain_server.settingsOf_of_resolve accepted (by decide)
  refine .pass settled ?_
  exact .bind (fun _ => prepared_eq_error_iff_fails) fun _ _ => .of_ok _

theorem expandToolbox_decided :
    Decides (Check.Fails marking block) toolboxChecks (expandToolbox marking block) := by
  unfold expandToolbox
  refine .bind (fun _ => checkInherent_eq_error_iff) fun _ _ => ?_
  refine .bind (fun _ => liftArguments_resolve_eq_error_iff Schema.plain_toolbox.distinct)
    fun resolved accepted => ?_
  have accepted := mapError_eq_ok.mp accepted
  refine .bind (fun _ => liftArguments_requiredString_eq_error_iff accepted List.mem_cons_self)
    fun _ _ => ?_
  refine .bind (fun _ => liftArguments_requiredString_eq_error_iff accepted
    (List.mem_cons_of_mem _ List.mem_cons_self)) fun _ _ => ?_
  refine .bind (fun _ => checkUniqueTools_eq_error_iff) fun _ _ => ?_
  refine .bind (fun _ => demanding_eq_error_iff .handler .synchronous) fun _ _ => ?_
  exact .bind (fun _ => prepared_eq_error_iff_fails) fun _ _ => .of_ok _

theorem expandGlobalServer_decided :
    Decides (Check.Fails marking block) globalServerChecks (expandGlobalServer marking block) := by
  have plain := Schema.plain_globalServer false
  unfold expandGlobalServer
  refine .bind (fun _ => checkInherent_eq_error_iff) fun _ _ => ?_
  refine .bind (fun _ => liftArguments_resolve_eq_error_iff plain.distinct)
    fun resolved accepted => ?_
  have accepted := mapError_eq_ok.mp accepted
  refine .bind (fun _ => checkUniqueTools_eq_error_iff) fun _ _ => ?_
  rw [checkStaticTools_eq_demanding]
  refine .bind (fun _ => demanding_eq_error_iff .tool .static) fun _ _ => ?_
  refine .bind (fun _ => demanding_eq_error_iff .handler .static) fun _ _ => ?_
  rw [checkHook_eq_demanding, bind_assoc]
  refine .bind (fun _ => demanding_eq_error_iff .hook .static) fun _ _ => ?_
  refine .bind (fun _ => demanding_eq_error_iff .hook .asynchronous) fun _ _ => ?_
  obtain ⟨settings, settled⟩ := plain.settingsOf_of_resolve accepted (by decide)
  refine .pass settled ?_
  exact .bind (fun _ => prepared_eq_error_iff_fails) fun _ _ => .of_ok _

end Decided

/-- What a schema lists is not missing once arguments resolve. -/
theorem Schema.Plain.not_missing {schema : Schema} {arguments : List Argument}
    {resolved : ResolvedArguments} {parameter : Parameter} (plain : schema.Plain)
    (accepted : schema.resolve arguments = .ok resolved) (known : parameter ∈ schema.parameters)
    (site : Site) (label : String) :
    resolved.required parameter.label ≠ .error (.missing site label) ∧
      resolved.requiredString parameter.label ≠ .error (.missing site label) := by
  obtain ⟨value, given, _⟩ := plain.get?_of_resolve accepted known
  constructor
  · rw [ResolvedArguments.required, given]
    exact nofun
  · rw [Ne, resolved.requiredString_eq_error_iff given]
    exact fun failed => nomatch failed.2

/-- **Blocks are accepted exactly.** The expansion of a block as a server, a toolbox or a global
server succeeds exactly when none of its checks fails, and otherwise reports the problem of the
first check that fails, in a fixed order. A check on members reports the first that is at fault: the
tools in their order, a handler in the place of the tool that it is bound to, and of the functions
named as the hook only the first. No argument is found missing after the arguments were resolved. -/
theorem expansions_decided (marking : Marking) (block : ImplBlock) :
    Decides (Check.Fails marking block) serverChecks (expandServer marking block) ∧
    Decides (Check.Fails marking block) toolboxChecks (expandToolbox marking block) ∧
    Decides (Check.Fails marking block) globalServerChecks (expandGlobalServer marking block) ∧
    ∀ schema ∈ [Schema.server, Schema.toolbox, Schema.globalServer false],
      ∀ resolved, schema.resolve marking.arguments = .ok resolved →
        ∀ parameter ∈ schema.parameters, ∀ site label,
          resolved.required parameter.label ≠ .error (.missing site label) ∧
            resolved.requiredString parameter.label ≠ .error (.missing site label) := by
  refine ⟨expandServer_decided marking block, expandToolbox_decided marking block,
    expandGlobalServer_decided marking block, ?_⟩
  intro schema listed resolved accepted parameter known
  have plain : schema.Plain := by
    simp only [List.mem_cons, List.not_mem_nil, or_false] at listed
    rcases listed with rfl | rfl | rfl
    · exact Schema.plain_server
    · exact Schema.plain_toolbox
    · exact Schema.plain_globalServer false
  exact plain.not_missing accepted known

/-- The problem that a result reports. -/
def reported? {α : Type} : Except Diagnostic α → Option Diagnostic
  | .error problem => some problem
  | .ok _ => none

theorem reported?_eq_some_iff {α : Type} {result : Except Diagnostic α} {problem : Diagnostic} :
    reported? result = some problem ↔ result = .error problem := by
  cases result with
  | error found => simp [reported?]
  | ok value => simp [reported?]

/-- A tool property without a name of its own. -/
def plainTool (ident : String) : ImplMember :=
  .declaration (markedProperty ⟨false, ident⟩
    ([name "description"] ++ op "=" ++ [.literal "\"d\""]))

/-- A block with two tools of one name. The second has an asynchronous handler with a parameter
whose description is missing. -/
def faultyKit : ImplBlock where
  selfType := .ofTrees (.path ⟨false, "Kit"⟩ false true) [name "Kit"]
  members := [plainTool "echo", .declaration namedProperty,
    .function {
      sig := {
        isAsync := true
        ident := ⟨false, "say_handler"⟩
        inputs := [⟨[bareAttribute "param"], false,
          name "arguments" :: op ":" ++ [name "Arguments"], false⟩] } }]

/-- One kit passes every check of a toolbox, and of the faults of another the repeated name is
reported. -/
theorem expansions_decided_of_kits :
    (∀ check ∈ toolboxChecks, ∀ problem, ¬ check.Fails kitMarking kit problem) ∧
      FirstOf (Check.Fails kitMarking faultyKit) toolboxChecks (.duplicateTool "echo" "Kit") ∧
      ∃ resolved, Schema.toolbox.resolve kitMarking.arguments = .ok resolved ∧
        resolved.requiredString "description" ≠
          .error (.missing ⟨.toolbox, false⟩ "description") := by
  have accepted : (expandToolbox kitMarking kit).isOk = true := by decide +kernel
  have refused : reported? (expandToolbox kitMarking faultyKit) =
      some (.duplicateTool "echo" "Kit") := by decide +kernel
  obtain ⟨_, kept, _, _⟩ := expansions_decided kitMarking kit
  obtain ⟨_, broken, _, found⟩ := expansions_decided kitMarking faultyKit
  refine ⟨kept.accepts.mp (exists_of_isOk accepted), ?_, ?_⟩
  · exact (broken.refuses _).mp (reported?_eq_some_iff.mp refused)
  · refine ⟨_, rfl, ?_⟩
    refine (found .toolbox ?_ _ rfl ⟨"description", [], .required⟩ ?_ _ _).2
    · exact List.mem_cons_of_mem _ List.mem_cons_self
    · exact List.mem_cons_of_mem _ List.mem_cons_self

/-- A block with two tools, whose handlers are asynchronous and stand in the other order. -/
def crossedKit : ImplBlock where
  selfType := .ofTrees (.path ⟨false, "Kit"⟩ false true) [name "Kit"]
  members := [plainTool "echo", plainTool "say",
    .function { sig := { isAsync := true, ident := ⟨false, "say_handler"⟩ } },
    .function { sig := { isAsync := true, ident := ⟨false, "echo_handler"⟩ } }]

/-- The problem of a member that handles a tool and is asynchronous. -/
def Outline.waitingHandler? (outline : Outline) (site : Site) (member : Member) :
    Option Diagnostic :=
  if (Role.handler.members outline).any (·.name == member.name) && member.isAsync then
    some (.asynchronous member.name outline.typeName site)
  else none

/-- The handler that is reported is that of the first tool, not the first in the block. -/
theorem crossed_handlers_reported_by_tool :
    let site : Site := ⟨.toolbox, false⟩
    let outline := Outline.ofBlock crossedKit
    let waits (member : Member) (problem : Diagnostic) :=
      outline.waitingHandler? site member = some problem
    expandToolbox kitMarking crossedKit = .error (.asynchronous "echo_handler" "Kit" site) ∧
      FirstOf waits outline.members (.asynchronous "say_handler" "Kit" site) ∧
      ¬ FirstOf waits outline.members (.asynchronous "echo_handler" "Kit" site) := by
  intro site outline waits
  have reported : reported? (expandToolbox kitMarking crossedKit) =
      some (.asynchronous "echo_handler" "Kit" site) := by decide +kernel
  have first : outline.members.findSome? (outline.waitingHandler? site) =
      some (.asynchronous "say_handler" "Kit" site) := by decide +kernel
  refine ⟨reported?_eq_some_iff.mp reported, ?_, ?_⟩
  · exact (findSome?_eq_some_iff_firstOf (fun _ _ => Iff.rfl) _ _).mp first
  · rw [← findSome?_eq_some_iff_firstOf (fun _ _ => Iff.rfl), first]
    simp

end Toolsmith
