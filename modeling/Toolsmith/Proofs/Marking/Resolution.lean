import Mathlib
import Toolsmith.Marking.Schema
import Toolsmith.Proofs.Stepwise

/-! # What resolving arguments yields

Resolving the arguments of a marking collects the written ones under the labels of their
parameters, then completes them with defaults. Both passes are described exactly: a label is
written when some argument was written for its parameter (`Schema.isSome_lookup_collect`), and the
values are those written and, for the other parameters, their defaults (`Schema.complete_eq`). So a
value is that of an argument or a default of the schema (`Schema.get?_resolve`).
-/

namespace Toolsmith

open Source

/-- A marking has the tag that its attribute names. -/
theorem Marking.tag_of_ofAttribute? {attr : Attribute} {marking : Marking}
    (read : Marking.ofAttribute? attr = some (.ok marking)) :
    Tag.ofPath? attr.path = some marking.tag := by
  unfold Marking.ofAttribute? at read
  obtain ⟨tag, named, made⟩ := Option.map_eq_some_iff.mp read
  rw [named]
  cases written : attr.arguments with
  | none =>
      rw [written] at made
      cases made
      rfl
  | list delimiter tokens =>
      simp only [written, Marking.parse] at made
      cases arguments : readAll Argument.listReader tokens with
      | error mismatch => simp [arguments] at made
      | ok found =>
          simp only [arguments, Except.ok.injEq] at made
          rw [← made]
          rfl
  | value tokens => simp [written] at made

/-- Whether an argument was written with this label. -/
def Argument.isLabelled (argument : Argument) (label : String) : Bool :=
  argument.label.any (·.name == label)

namespace Schema

/-- The parameter that an argument was written for. -/
def parameterOf? (schema : Schema) (argument : Argument) : Option Parameter :=
  argument.label.bind fun label => schema.parameter? label.name

/-- Whether an argument was written for the parameter with this label. -/
def isFor (schema : Schema) (label : String) (argument : Argument) : Bool :=
  (schema.parameterOf? argument).any (·.label == label)

/-- Collecting goes on past an argument when its parameter has no value yet. -/
theorem collect_cons_eq_ok {schema : Schema} {written collected : List (String × Expression)}
    {argument : Argument} {rest : List Argument}
    (accepted : schema.collect written (argument :: rest) = .ok collected) :
    ∃ parameter, schema.parameterOf? argument = some parameter ∧
      (written.lookup parameter.label).isSome = false ∧
      schema.collect (written ++ [(parameter.label, argument.value)]) rest = .ok collected := by
  unfold collect at accepted
  cases labelled : argument.label with
  | none => simp only [labelled] at accepted; contradiction
  | some label =>
      simp only [labelled] at accepted
      cases known : schema.parameter? label.name with
      | none => simp only [known] at accepted; contradiction
      | some parameter =>
          simp only [known] at accepted
          by_cases repeated : (written.lookup parameter.label).isSome
          · simp only [repeated, ↓reduceIte] at accepted
            contradiction
          · simp only [repeated, Bool.false_eq_true, ↓reduceIte] at accepted
            refine ⟨parameter, ?_, eq_false_of_ne_true repeated, accepted⟩
            simp only [parameterOf?, labelled, Option.bind_some, known]

/-- A collected label is one that had a value before, or one that an argument was written for. -/
theorem isSome_lookup_collect {schema : Schema} {written collected : List (String × Expression)}
    {arguments : List Argument} (accepted : schema.collect written arguments = .ok collected)
    (label : String) :
    (collected.lookup label).isSome =
      ((written.lookup label).isSome || arguments.any (schema.isFor label)) := by
  induction arguments generalizing written with
  | nil =>
      cases accepted
      simp only [List.any_nil, Bool.or_false]
  | cons argument rest ih =>
      obtain ⟨parameter, found, _, accepted⟩ := collect_cons_eq_ok accepted
      have here : schema.isFor label argument = (parameter.label == label) := by
        simp only [isFor, found, Option.any_some]
      rw [ih accepted, List.any_cons, here, List.lookup_append]
      cases same : parameter.label == label with
      | true =>
          have equal : label = parameter.label := (beq_iff_eq.mp same).symm
          simp [equal, List.lookup]
      | false =>
          have different : (label == parameter.label) = false := by
            rw [beq_eq_false_iff_ne] at same ⊢
            exact Ne.symm same
          simp [List.lookup, different]

/-- The value of a parameter, given those written: the written one, or else its default. -/
def valueOf (written : List (String × Expression)) (parameter : Parameter) : Option Resolved :=
  match written.lookup parameter.label, parameter.requirement with
  | some value, _ => some ⟨value, true⟩
  | none, .fallback value => some ⟨value, false⟩
  | none, _ => none

/-- Completing gives every parameter that has a value that value, in order. -/
theorem complete_eq {site : Site} {written : List (String × Expression)}
    {parameters : List Parameter} {values : List (String × Resolved)}
    (completed : complete site written parameters = .ok values) :
    values = parameters.filterMap fun parameter =>
      (valueOf written parameter).map (parameter.label, ·) := by
  induction parameters generalizing values with
  | nil => cases completed; rfl
  | cons parameter rest ih =>
      unfold complete at completed
      cases given : written.lookup parameter.label with
      | some value =>
          simp only [given, bind_eq_ok] at completed
          obtain ⟨others, completed, gathered⟩ := completed
          cases gathered
          simp only [List.filterMap_cons, valueOf, given, Option.map_some, ih completed]
      | none =>
          cases need : parameter.requirement with
          | required => simp only [given, need] at completed; contradiction
          | optional =>
              simp only [given, need] at completed
              simp only [List.filterMap_cons, valueOf, given, need, Option.map_none, ih completed]
          | fallback value =>
              simp only [given, need, bind_eq_ok] at completed
              obtain ⟨others, completed, gathered⟩ := completed
              cases gathered
              simp only [List.filterMap_cons, valueOf, given, need, Option.map_some, ih completed]

/-- The value found under the label of a parameter is the value of that parameter. -/
theorem lookup_filterMap_valueOf {written : List (String × Expression)}
    {parameters : List Parameter} (distinct : (parameters.map (·.label)).Nodup)
    {parameter : Parameter} (member : parameter ∈ parameters) :
    (parameters.filterMap fun parameter =>
      (valueOf written parameter).map (parameter.label, ·)).lookup parameter.label =
        valueOf written parameter := by
  induction parameters with
  | nil => cases member
  | cons first rest ih =>
      rw [List.map_cons, List.nodup_cons] at distinct
      rcases List.mem_cons.mp member with rfl | member
      · cases value : valueOf written parameter with
        | some resolved => simp [value]
        | none =>
            simp only [List.filterMap_cons, value, Option.map_none]
            rw [List.lookup_eq_none_iff]
            intro entry inside
            obtain ⟨other, inRest, made⟩ := List.mem_filterMap.mp inside
            obtain ⟨_, _, rfl⟩ := Option.map_eq_some_iff.mp made
            have different : parameter.label ≠ other.label := fun same =>
              distinct.1 (same ▸ List.mem_map.mpr ⟨other, inRest, rfl⟩)
            simpa using different
      · have different : (parameter.label == first.label) = false := by
          rw [beq_eq_false_iff_ne]
          exact fun same => distinct.1 (same ▸ List.mem_map.mpr ⟨parameter, member, rfl⟩)
        cases value : valueOf written first with
        | some resolved => simp only [List.filterMap_cons, value, Option.map_some, List.lookup,
            different, ih distinct.2 member]
        | none => simp only [List.filterMap_cons, value, Option.map_none, ih distinct.2 member]

/-- Arguments resolve when collecting and completing them both succeed. -/
theorem resolve_eq_ok {schema : Schema} {arguments : List Argument} {resolved : ResolvedArguments} :
    schema.resolve arguments = .ok resolved ↔
      ∃ written values, schema.collect [] arguments = .ok written ∧
        complete schema.site written schema.parameters = .ok values ∧
        resolved = ⟨schema.site, values⟩ := by
  unfold resolve
  simp only [bind_eq_ok]
  constructor
  · rintro ⟨written, collected, values, completed, result⟩
    exact ⟨written, values, collected, completed, (Except.ok.inj result).symm⟩
  · rintro ⟨written, values, collected, completed, rfl⟩
    exact ⟨written, collected, values, completed, rfl⟩

/-- **The value of a parameter.** A parameter has the value written for it, marked as explicit, or
else its default; a parameter with neither has none. -/
theorem lookup_resolve {schema : Schema} {arguments : List Argument} {resolved : ResolvedArguments}
    (accepted : schema.resolve arguments = .ok resolved)
    (distinct : (schema.parameters.map (·.label)).Nodup)
    {parameter : Parameter} (member : parameter ∈ schema.parameters) :
    ∃ written, resolved.values.lookup parameter.label = valueOf written parameter ∧
      (written.lookup parameter.label).isSome = arguments.any (schema.isFor parameter.label) := by
  obtain ⟨written, values, collected, completed, rfl⟩ := resolve_eq_ok.mp accepted
  refine ⟨written, ?_, ?_⟩
  · rw [complete_eq completed]
    exact lookup_filterMap_valueOf distinct member
  · rw [isSome_lookup_collect collected]
    simp only [List.lookup_nil, Option.isSome_none, Bool.false_or]

/-- The values that parameters have when they are not written. -/
def defaults (schema : Schema) : List Expression :=
  schema.parameters.filterMap fun parameter =>
    match parameter.requirement with
    | .fallback value => some value
    | _ => none

theorem mem_of_lookup {α : Type} {entries : List (String × α)} {label : String} {value : α}
    (found : entries.lookup label = some value) : (label, value) ∈ entries := by
  obtain ⟨_, _, split, _⟩ := List.lookup_eq_some_iff.mp found
  rw [split]
  exact List.mem_append_right _ List.mem_cons_self

/-- A collected value is one that there was before, or that of an argument. -/
theorem mem_collect {schema : Schema} {written collected : List (String × Expression)}
    {arguments : List Argument} (accepted : schema.collect written arguments = .ok collected)
    {entry : String × Expression} (inside : entry ∈ collected) :
    entry ∈ written ∨ ∃ argument ∈ arguments, argument.value = entry.2 := by
  induction arguments generalizing written with
  | nil =>
      cases accepted
      exact .inl inside
  | cons argument rest ih =>
      obtain ⟨parameter, _, _, accepted⟩ := collect_cons_eq_ok accepted
      rcases ih accepted with before | ⟨other, later, same⟩
      · rcases List.mem_append.mp before with before | here
        · exact .inl before
        · cases List.mem_singleton.mp here
          exact .inr ⟨argument, List.mem_cons_self, rfl⟩
      · exact .inr ⟨other, List.mem_cons_of_mem _ later, same⟩

/-- The value of a parameter was written or is a default of the schema. -/
theorem get?_resolve {schema : Schema} {arguments : List Argument} {resolved : ResolvedArguments}
    (accepted : schema.resolve arguments = .ok resolved) {label : String} {value : Expression}
    (given : resolved.get? label = some value) :
    (∃ argument ∈ arguments, argument.value = value) ∨ value ∈ schema.defaults := by
  obtain ⟨written, values, collected, completed, rfl⟩ := resolve_eq_ok.mp accepted
  obtain ⟨result, found, rfl⟩ := Option.map_eq_some_iff.mp given
  have inside := mem_of_lookup found
  rw [complete_eq completed] at inside
  obtain ⟨parameter, listed, made⟩ := List.mem_filterMap.mp inside
  obtain ⟨_, valued, same⟩ := Option.map_eq_some_iff.mp made
  cases same
  cases explicit : written.lookup parameter.label with
  | some value =>
      simp only [valueOf, explicit, Option.some.injEq] at valued
      rcases mem_collect collected (mem_of_lookup explicit) with
        impossible | ⟨argument, among, same⟩
      · cases impossible
      · exact .inl ⟨argument, among, by rw [same, ← valued]⟩
  | none =>
      refine .inr (List.mem_filterMap.mpr ⟨parameter, listed, ?_⟩)
      cases need : parameter.requirement with
      | fallback value =>
          simp only [valueOf, explicit, need, Option.some.injEq] at valued
          rw [← valued]
      | required => simp [valueOf, explicit, need] at valued
      | optional => simp [valueOf, explicit, need] at valued

/-- In a schema without aliases an argument is for the parameter that its label names. -/
theorem isFor_eq_isLabelled {schema : Schema}
    (plain : ∀ parameter ∈ schema.parameters, parameter.aliases = [])
    {parameter : Parameter} (member : parameter ∈ schema.parameters) (argument : Argument) :
    schema.isFor parameter.label argument = argument.isLabelled parameter.label := by
  unfold isFor parameterOf? Argument.isLabelled
  cases argument.label with
  | none => rfl
  | some label =>
      simp only [Option.bind_some, Option.any_some]
      cases found : schema.parameter? label.name with
      | none =>
          have refused := List.find?_eq_none.mp found parameter member
          simp only [Parameter.accepts, Bool.or_eq_true, not_or, Bool.not_eq_true] at refused
          rw [Option.any_none]
          symm
          rw [beq_eq_false_iff_ne] at refused ⊢
          exact Ne.symm refused.1
      | some first =>
          have accepted := List.find?_some found
          have among := List.mem_of_find?_eq_some found
          simp only [Parameter.accepts, plain first among, List.contains_nil, Bool.or_false,
            beq_iff_eq] at accepted
          simp only [Option.any_some, accepted]

end Schema

/-- Whether the entry point was asked for, or refused, by name. -/
def Marking.decidesMain (marking : Marking) : Bool :=
  marking.arguments.any (·.isLabelled "generate_main")

/-- The arguments of a server say whether the entry point was decided by name; when it was not,
it is wanted. -/
theorem generateMain_of_resolve {marking : Marking} {resolved : ResolvedArguments}
    (accepted : Schema.server.resolve marking.arguments = .ok resolved) :
    resolved.isExplicit "generate_main" = marking.decidesMain ∧
      (marking.decidesMain = false → resolved.boolean? "generate_main" = .ok (some true)) := by
  obtain ⟨parameter, member, labelled, default⟩ : ∃ parameter ∈ Schema.server.parameters,
      parameter.label = "generate_main" ∧
        parameter.requirement = .fallback (.ofTrees (.boolean true) [name "true"]) :=
    ⟨_, List.mem_append_right _ (List.mem_singleton.mpr rfl), rfl, rfl⟩
  have plain : ∀ parameter ∈ Schema.server.parameters, parameter.aliases = [] := by
    simp [Schema.server, Schema.serverSettings]
  have distinct : (Schema.server.parameters.map (·.label)).Nodup := by decide
  obtain ⟨written, value, given⟩ := Schema.lookup_resolve accepted distinct member
  have decided : (written.lookup "generate_main").isSome = marking.decidesMain := by
    rw [← labelled, given]
    unfold Marking.decidesMain
    rw [← labelled]
    exact congrArg marking.arguments.any
      (funext fun argument => Schema.isFor_eq_isLabelled plain member argument)
  rw [labelled] at value
  cases found : written.lookup "generate_main" with
  | some expression =>
      rw [found, Option.isSome_some] at decided
      simp only [Schema.valueOf, labelled, found] at value
      simp [ResolvedArguments.isExplicit, value, ← decided]
  | none =>
      rw [found, Option.isSome_none] at decided
      simp only [Schema.valueOf, labelled, found, default] at value
      simp [ResolvedArguments.isExplicit, ResolvedArguments.boolean?, ResolvedArguments.get?,
        value, ← decided, Phrase.ofTrees]

end Toolsmith
