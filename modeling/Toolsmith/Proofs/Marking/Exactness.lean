import Mathlib
import Toolsmith.Proofs.Marking.Resolution

/-! # Resolving arguments exactly

When arguments fit a schema, and what is reported when they do not, is said here without the two
passes of `Schema.resolve`. An argument `Writes` a parameter under its label or an alias, and
`Offends` after others when it has no label, writes no parameter, or writes one again. The pass over
the arguments stops at the first that offends (`Schema.collect_of_offends`) and otherwise knows of
each parameter the value that was written (`Schema.lookup_gathered`); the pass over the schema stops
at the first required parameter without a value. So the result depends only on which value was
written for which parameter (`Schema.resolve_exact`).
-/

namespace Toolsmith

open Source

/-- The labels by which a parameter may be written, its own first. -/
def Parameter.labels (parameter : Parameter) : List String := parameter.label :: parameter.aliases

theorem Parameter.accepts_iff {parameter : Parameter} {label : String} :
    parameter.accepts label = true ↔ label ∈ parameter.labels := by
  rw [Parameter.accepts, Bool.or_eq_true, beq_iff_eq, List.contains_iff_mem, Parameter.labels,
    List.mem_cons, eq_comm]

namespace Argument

/-- The argument is written for the parameter, by its label or an alias. -/
def Writes (argument : Argument) (parameter : Parameter) : Prop :=
  ∃ label ∈ argument.label, label.name ∈ parameter.labels

instance (argument : Argument) (parameter : Parameter) : Decidable (argument.Writes parameter) :=
  inferInstanceAs (Decidable (∃ label ∈ argument.label, _))

end Argument

/-- The value of a parameter among arguments: what is written for it, or else its default. -/
def Parameter.valueAmong (parameter : Parameter) (arguments : List Argument) : Option Resolved :=
  match arguments.find? (·.Writes parameter), parameter.requirement with
  | some argument, _ => some ⟨argument.value, true⟩
  | none, .fallback value => some ⟨value, false⟩
  | none, _ => none

namespace Schema

/-- No label or alias occurs twice. -/
def Distinct (schema : Schema) : Prop := (schema.parameters.flatMap Parameter.labels).Nodup

instance (schema : Schema) : Decidable schema.Distinct := inferInstanceAs (Decidable (List.Nodup _))

/-- What is wrong with an argument that stands after others. -/
inductive Offends (schema : Schema) (earlier : List Argument) (argument : Argument) :
    ArgumentError → Prop
  | positional (unlabelled : argument.label = none) :
      Offends schema earlier argument (.positional schema.site)
  | unknown {label : Ident} (labelled : argument.label = some label)
      (unknown : ∀ parameter ∈ schema.parameters, ¬ argument.Writes parameter) :
      Offends schema earlier argument (.unknown schema.site label.name)
  | duplicate {parameter : Parameter} (known : parameter ∈ schema.parameters)
      (written : argument.Writes parameter) (again : ∃ other ∈ earlier, other.Writes parameter) :
      Offends schema earlier argument (.duplicate schema.site parameter.label)

/-- No argument offends after those before it. -/
def Unoffending (schema : Schema) (arguments : List Argument) : Prop :=
  ∀ before argument after, arguments = before ++ argument :: after →
    ∀ error, ¬ schema.Offends before argument error

/-- The error of the first argument that offends; or, when none does, of the first required
parameter that no argument writes. -/
inductive FirstFault (schema : Schema) (arguments : List Argument) : ArgumentError → Prop
  | argument {before after : List Argument} {argument : Argument} {error : ArgumentError}
      (split : arguments = before ++ argument :: after) (clean : schema.Unoffending before)
      (offends : schema.Offends before argument error) : FirstFault schema arguments error
  | missing {before after : List Parameter} {parameter : Parameter}
      (clean : schema.Unoffending arguments)
      (split : schema.parameters = before ++ parameter :: after)
      (present : ∀ other ∈ before, other.requirement = .required →
        ∃ argument ∈ arguments, argument.Writes other)
      (required : parameter.requirement = .required)
      (absent : ∀ argument ∈ arguments, ¬ argument.Writes parameter) :
      FirstFault schema arguments (.missing schema.site parameter.label)

/-- The arguments fit the schema. -/
structure Fits (schema : Schema) (arguments : List Argument) : Prop where
  labelled : ∀ argument ∈ arguments, argument.label.isSome = true
  known : ∀ argument ∈ arguments, ∃ parameter ∈ schema.parameters, argument.Writes parameter
  once : ∀ parameter ∈ schema.parameters, arguments.countP (·.Writes parameter) ≤ 1
  required : ∀ parameter ∈ schema.parameters, parameter.requirement = .required →
    ∃ argument ∈ arguments, argument.Writes parameter

/-- Two arguments write the same value for one parameter, perhaps one by an alias. -/
def Alike (schema : Schema) (argument other : Argument) : Prop :=
  argument.value = other.value ∧
    ∃ parameter ∈ schema.parameters, argument.Writes parameter ∧ other.Writes parameter

section Passes

variable {schema : Schema} {arguments earlier : List Argument} {argument : Argument}
  {parameter : Parameter}

theorem mem_of_parameter? {label : String} (found : schema.parameter? label = some parameter) :
    parameter ∈ schema.parameters ∧ label ∈ parameter.labels := by
  have accepted : parameter.accepts label = true := by simpa using List.find?_some found
  exact ⟨List.mem_of_find?_eq_some found, Parameter.accepts_iff.mp accepted⟩

theorem not_mem_labels {label : String} (unknown : schema.parameter? label = none)
    (known : parameter ∈ schema.parameters) : label ∉ parameter.labels := by
  rw [← Parameter.accepts_iff]
  exact List.find?_eq_none.mp unknown parameter known

theorem eq_of_labels (distinct : schema.Distinct) {other : Parameter}
    (known : parameter ∈ schema.parameters) (listed : other ∈ schema.parameters) {label : String}
    (here : label ∈ parameter.labels) (there : label ∈ other.labels) : parameter = other := by
  have apart := (List.nodup_flatMap.mp distinct).2
  have symmetric : Std.Symm (Function.onFun List.Disjoint Parameter.labels) :=
    ⟨fun _ _ disjoint => List.Disjoint.symm disjoint⟩
  by_contra different
  exact apart.forall known listed different here there

theorem eq_of_writes (distinct : schema.Distinct) {other : Parameter}
    (known : parameter ∈ schema.parameters) (listed : other ∈ schema.parameters)
    (here : argument.Writes parameter) (there : argument.Writes other) : parameter = other := by
  obtain ⟨label, labelled, here⟩ := here
  obtain ⟨same, relabelled, there⟩ := there
  rw [Option.mem_def] at labelled relabelled
  obtain rfl : label = same := Option.some.inj (labelled.symm.trans relabelled)
  exact eq_of_labels distinct known listed here there

/-- An argument is for the one parameter that it writes. -/
theorem parameterOf?_eq_some_iff (distinct : schema.Distinct) :
    schema.parameterOf? argument = some parameter ↔
      parameter ∈ schema.parameters ∧ argument.Writes parameter := by
  unfold parameterOf?
  rw [Option.bind_eq_some_iff]
  constructor
  · rintro ⟨label, labelled, found⟩
    obtain ⟨known, named⟩ := mem_of_parameter? found
    exact ⟨known, label, labelled, named⟩
  · rintro ⟨known, label, labelled, named⟩
    refine ⟨label, labelled, ?_⟩
    cases found : schema.parameter? label.name with
    | none => exact absurd named (not_mem_labels found known)
    | some other =>
        obtain ⟨listed, renamed⟩ := mem_of_parameter? found
        rw [eq_of_labels distinct known listed named renamed]

/-- What collecting arguments records. -/
def gathered (schema : Schema) (arguments : List Argument) : List (String × Expression) :=
  arguments.filterMap fun argument =>
    (schema.parameterOf? argument).map fun parameter => (parameter.label, argument.value)

/-- What is recorded for a parameter is what was first written for it. -/
theorem lookup_gathered (distinct : schema.Distinct) (known : parameter ∈ schema.parameters)
    (arguments : List Argument) :
    (schema.gathered arguments).lookup parameter.label =
      (arguments.find? (·.Writes parameter)).map (·.value) := by
  induction arguments with
  | nil => rfl
  | cons argument rest ih =>
      unfold gathered at ih ⊢
      rw [List.filterMap_cons]
      by_cases written : argument.Writes parameter
      · simp [(parameterOf?_eq_some_iff distinct).mpr ⟨known, written⟩, written]
      · rw [List.find?_cons_of_neg (by simpa using written), ← ih]
        cases found : schema.parameterOf? argument with
        | none => simp
        | some other =>
            obtain ⟨listed, named⟩ := (parameterOf?_eq_some_iff distinct).mp found
            have different : parameter.label ≠ other.label := by
              intro same
              have equal := eq_of_labels distinct known listed List.mem_cons_self
                (same ▸ List.mem_cons_self)
              exact written (equal ▸ named)
            have missed : (parameter.label == other.label) = false :=
              beq_eq_false_iff_ne.mpr different
            simp only [Option.map_some, List.lookup, missed]

theorem isSome_lookup_gathered (distinct : schema.Distinct)
    (known : parameter ∈ schema.parameters) :
    ((schema.gathered arguments).lookup parameter.label).isSome = true ↔
      ∃ argument ∈ arguments, argument.Writes parameter := by
  rw [lookup_gathered distinct known, Option.isSome_map, List.find?_isSome]
  simp

/-- Collecting stops at an argument that offends, with what is wrong with it. -/
theorem collect_of_offends (distinct : schema.Distinct) {error : ArgumentError}
    (offends : schema.Offends earlier argument error) (rest : List Argument) :
    schema.collect (schema.gathered earlier) (argument :: rest) = .error error := by
  unfold collect
  cases offends with
  | positional unlabelled => rw [unlabelled]
  | @unknown label labelled unknown =>
      have missing : schema.parameter? label.name = none := by
        cases found : schema.parameter? label.name with
        | none => rfl
        | some parameter =>
            obtain ⟨known, named⟩ := mem_of_parameter? found
            exact absurd ⟨label, labelled, named⟩ (unknown parameter known)
      simp only [labelled, missing]
  | @duplicate parameter known written again =>
      have found := (parameterOf?_eq_some_iff distinct).mpr ⟨known, written⟩
      obtain ⟨label, labelled, found⟩ := Option.bind_eq_some_iff.mp found
      have taken := (isSome_lookup_gathered distinct known).mpr again
      simp only [labelled, found, taken, ↓reduceIte]

/-- Collecting goes on past an argument that does not offend. -/
theorem collect_of_not_offends (distinct : schema.Distinct)
    (clean : ∀ error, ¬ schema.Offends earlier argument error) (rest : List Argument) :
    schema.collect (schema.gathered earlier) (argument :: rest) =
      schema.collect (schema.gathered (earlier ++ [argument])) rest := by
  conv_lhs => unfold collect
  cases labelled : argument.label with
  | none => exact absurd (.positional labelled) (clean _)
  | some label =>
      cases found : schema.parameter? label.name with
      | none =>
          refine absurd (.unknown labelled ?_) (clean _)
          rintro parameter known ⟨same, relabelled, named⟩
          obtain rfl : label = same := Option.some.inj (labelled.symm.trans relabelled)
          exact not_mem_labels found known named
      | some parameter =>
          obtain ⟨known, named⟩ := mem_of_parameter? found
          have written : argument.Writes parameter := ⟨label, labelled, named⟩
          have fresh : ((schema.gathered earlier).lookup parameter.label).isSome ≠ true := by
            intro taken
            exact clean _ (.duplicate known written
              ((isSome_lookup_gathered distinct known).mp taken))
          have recorded : schema.gathered (earlier ++ [argument]) =
              schema.gathered earlier ++ [(parameter.label, argument.value)] := by
            unfold gathered
            rw [List.filterMap_append]
            simp [(parameterOf?_eq_some_iff distinct).mpr ⟨known, written⟩]
          simp only [found, fresh, Bool.false_eq_true, ↓reduceIte, recorded]

/-- A list offends by none of its arguments when neither the first ones nor the last one do. -/
theorem unoffending_concat :
    schema.Unoffending (arguments ++ [argument]) ↔
      schema.Unoffending arguments ∧ ∀ error, ¬ schema.Offends arguments argument error := by
  constructor
  · intro clean
    refine ⟨?_, clean arguments argument [] rfl⟩
    intro before other after split
    exact clean before other (after ++ [argument]) (by rw [split]; simp)
  · rintro ⟨clean, last⟩ before other after split
    rcases List.eq_nil_or_concat after with rfl | ⟨init, final, rfl⟩
    · obtain ⟨rfl, same⟩ := List.append_inj' split rfl
      cases same
      exact last
    · rw [List.concat_eq_append, ← List.cons_append, ← List.append_assoc] at split
      obtain ⟨same, _⟩ := List.append_inj' split rfl
      exact clean before other init same

/-- Collecting goes on past arguments that do not offend, and records them. -/
theorem collect_of_unoffending (distinct : schema.Distinct) (clean : schema.Unoffending arguments)
    (rest : List Argument) :
    schema.collect [] (arguments ++ rest) = schema.collect (schema.gathered arguments) rest := by
  induction arguments using List.reverseRecOn generalizing rest with
  | nil => rfl
  | append_singleton earlier argument ih =>
      obtain ⟨before, last⟩ := unoffending_concat.mp clean
      rw [List.append_assoc, ih before]
      exact collect_of_not_offends distinct last rest

/-- Some argument is the first to offend, unless none does. -/
theorem unoffending_or_offends (schema : Schema) (arguments : List Argument) :
    schema.Unoffending arguments ∨ ∃ before argument after error,
      arguments = before ++ argument :: after ∧ schema.Unoffending before ∧
        schema.Offends before argument error := by
  induction arguments using List.reverseRecOn with
  | nil => exact .inl fun before _ _ split => by simp at split
  | append_singleton earlier argument ih =>
      rcases ih with clean | ⟨before, other, after, error, rfl, clean, offends⟩
      · by_cases last : ∃ error, schema.Offends earlier argument error
        · obtain ⟨error, offends⟩ := last
          exact .inr ⟨earlier, argument, [], error, rfl, clean, offends⟩
        · exact .inl (unoffending_concat.mpr ⟨clean, not_exists.mp last⟩)
      · exact .inr ⟨before, other, after ++ [argument], error, by simp, clean, offends⟩

/-- Completing succeeds when what is required is there. -/
theorem complete_isOk {site : Site} {written : List (String × Expression)}
    {parameters : List Parameter}
    (present : ∀ parameter ∈ parameters, parameter.requirement = .required →
      (written.lookup parameter.label).isSome = true) :
    ∃ values, complete site written parameters = .ok values := by
  induction parameters with
  | nil => exact ⟨[], rfl⟩
  | cons parameter rest ih =>
      rw [List.forall_mem_cons] at present
      obtain ⟨values, completed⟩ := ih present.2
      unfold complete
      rw [completed]
      cases given : written.lookup parameter.label with
      | some value => exact ⟨_, rfl⟩
      | none =>
          cases need : parameter.requirement with
          | required =>
              have there := present.1 need
              rw [given] at there
              cases there
          | optional => exact ⟨_, rfl⟩
          | fallback value => exact ⟨_, rfl⟩

/-- Completing stops at the first required parameter that is not written. -/
theorem complete_of_missing {site : Site} {written : List (String × Expression)}
    {before after : List Parameter}
    (present : ∀ other ∈ before, other.requirement = .required →
      (written.lookup other.label).isSome = true)
    (required : parameter.requirement = .required)
    (absent : written.lookup parameter.label = none) :
    complete site written (before ++ parameter :: after) =
      .error (.missing site parameter.label) := by
  induction before with
  | nil => simp [complete, absent, required]
  | cons first rest ih =>
      rw [List.forall_mem_cons] at present
      rw [List.cons_append, complete, ih present.2]
      cases given : written.lookup first.label with
      | some value => rfl
      | none =>
          cases need : first.requirement with
          | required =>
              have there := present.1 need
              rw [given] at there
              cases there
          | optional => rfl
          | fallback value => rfl

end Passes

section Outcome

variable {schema : Schema} {arguments others : List Argument}

/-- An argument that does not offend writes a parameter, which no argument before it wrote. -/
theorem not_offends_iff {argument : Argument} :
    (∀ error, ¬ schema.Offends arguments argument error) ↔
      (∃ parameter ∈ schema.parameters, argument.Writes parameter) ∧
        ∀ parameter ∈ schema.parameters, argument.Writes parameter →
          ∀ other ∈ arguments, ¬ other.Writes parameter := by
  constructor
  · intro clean
    refine ⟨?_, fun parameter known written other inside again =>
      clean _ (.duplicate known written ⟨other, inside, again⟩)⟩
    cases labelled : argument.label with
    | none => exact absurd (.positional labelled) (clean _)
    | some label =>
        by_contra unknown
        push Not at unknown
        exact clean _ (.unknown labelled unknown)
  · rintro ⟨⟨parameter, known, written⟩, fresh⟩ error offends
    cases offends with
    | positional unlabelled =>
        obtain ⟨label, labelled, _⟩ := written
        rw [unlabelled] at labelled
        cases labelled
    | unknown _ unknown => exact unknown parameter known written
    | duplicate known written again =>
        obtain ⟨other, inside, again⟩ := again
        exact fresh _ known written other inside again

/-- No argument offends when each is written for a parameter, and no two for the same. -/
theorem unoffending_iff :
    schema.Unoffending arguments ↔
      (∀ argument ∈ arguments, ∃ parameter ∈ schema.parameters, argument.Writes parameter) ∧
        ∀ parameter ∈ schema.parameters, arguments.countP (·.Writes parameter) ≤ 1 := by
  induction arguments using List.reverseRecOn with
  | nil => simp [Unoffending]
  | append_singleton earlier argument ih =>
      have counted (parameter : Parameter) :
          (earlier ++ [argument]).countP (·.Writes parameter) ≤ 1 ↔
            earlier.countP (·.Writes parameter) ≤ 1 ∧
              (argument.Writes parameter → ∀ other ∈ earlier, ¬ other.Writes parameter) := by
        have none : earlier.countP (·.Writes parameter) = 0 ↔
            ∀ other ∈ earlier, ¬ other.Writes parameter := by simp [List.countP_eq_zero]
        rw [List.countP_append, List.countP_singleton, ← none]
        by_cases written : argument.Writes parameter
        · simp only [written, decide_true, ↓reduceIte, true_imp_iff]
          omega
        · simp [written]
      rw [unoffending_concat, ih, not_offends_iff]
      simp only [counted, List.forall_mem_append, List.forall_mem_singleton]
      constructor
      · rintro ⟨⟨known, once⟩, here, fresh⟩
        exact ⟨⟨known, here⟩, fun parameter listed =>
          ⟨once parameter listed, fresh parameter listed⟩⟩
      · rintro ⟨⟨known, here⟩, both⟩
        exact ⟨⟨known, fun parameter listed => (both parameter listed).1⟩, here,
          fun parameter listed => (both parameter listed).2⟩

theorem Fits.unoffending (fits : schema.Fits arguments) : schema.Unoffending arguments :=
  unoffending_iff.mpr ⟨fits.known, fits.once⟩

theorem fits_of_unoffending (clean : schema.Unoffending arguments)
    (required : ∀ parameter ∈ schema.parameters, parameter.requirement = .required →
      ∃ argument ∈ arguments, argument.Writes parameter) : schema.Fits arguments := by
  obtain ⟨known, once⟩ := unoffending_iff.mp clean
  refine ⟨?_, known, once, required⟩
  intro argument inside
  obtain ⟨_, _, label, labelled, _⟩ := known argument inside
  exact Option.isSome_of_mem labelled

/-- The values of the parameters that have one, in the order of the schema. -/
def valuesAmong (schema : Schema) (arguments : List Argument) : List (String × Resolved) :=
  schema.parameters.filterMap fun parameter =>
    (parameter.valueAmong arguments).map (parameter.label, ·)

theorem valueOf_gathered (distinct : schema.Distinct) {parameter : Parameter}
    (known : parameter ∈ schema.parameters) :
    valueOf (schema.gathered arguments) parameter = parameter.valueAmong arguments := by
  unfold valueOf Parameter.valueAmong
  rw [lookup_gathered distinct known]
  cases arguments.find? (·.Writes parameter) with
  | none => cases parameter.requirement <;> rfl
  | some argument => rfl

/-- Arguments that fit resolve to the values among them. -/
theorem resolve_of_fits (distinct : schema.Distinct) (fits : schema.Fits arguments) :
    schema.resolve arguments = .ok ⟨schema.site, schema.valuesAmong arguments⟩ := by
  have collected := collect_of_unoffending distinct fits.unoffending []
  rw [List.append_nil] at collected
  obtain ⟨values, completed⟩ : ∃ values,
      complete schema.site (schema.gathered arguments) schema.parameters = .ok values := by
    apply complete_isOk
    intro parameter known required
    exact (isSome_lookup_gathered distinct known).mpr (fits.required parameter known required)
  have same : values = schema.valuesAmong arguments := by
    rw [complete_eq completed]
    exact List.filterMap_congr fun parameter known => by rw [valueOf_gathered distinct known]
  rw [resolve_eq_ok]
  exact ⟨_, values, collected, completed, by rw [same]⟩

/-- The first fault is the one that is reported. -/
theorem resolve_of_firstFault (distinct : schema.Distinct) {error : ArgumentError}
    (fault : schema.FirstFault arguments error) : schema.resolve arguments = .error error := by
  unfold resolve
  cases fault with
  | @argument before after argument error split clean offends =>
      rw [split, collect_of_unoffending distinct clean, collect_of_offends distinct offends]
      rfl
  | @missing before after parameter clean split present required absent =>
      have collected := collect_of_unoffending distinct clean []
      rw [List.append_nil] at collected
      have listed {other : Parameter} (inside : other ∈ before ++ parameter :: after) :
          other ∈ schema.parameters := split ▸ inside
      have missing : (schema.gathered arguments).lookup parameter.label = none := by
        rw [← Option.not_isSome_iff_eq_none,
          isSome_lookup_gathered distinct (listed (by simp))]
        push Not
        exact absent
      have stops : complete schema.site (schema.gathered arguments) schema.parameters =
          .error (.missing schema.site parameter.label) := by
        rw [split]
        refine complete_of_missing ?_ required missing
        intro other inside needed
        exact (isSome_lookup_gathered distinct (listed (List.mem_append_left _ inside))).mpr
          (present other inside needed)
      rw [collected]
      change (complete schema.site (schema.gathered arguments) schema.parameters >>= _) = _
      rw [stops]
      rfl

/-- Arguments fit a schema or have a first fault. -/
theorem fits_or_firstFault (schema : Schema) (arguments : List Argument) :
    schema.Fits arguments ∨ ∃ error, schema.FirstFault arguments error := by
  classical
  rcases schema.unoffending_or_offends arguments with
    clean | ⟨before, argument, after, error, split, clean, offends⟩
  · cases found : schema.parameters.find? fun parameter =>
        decide (parameter.requirement = .required ∧
          ∀ argument ∈ arguments, ¬ argument.Writes parameter) with
    | none =>
        refine .inl (fits_of_unoffending clean ?_)
        intro parameter known required
        have present := List.find?_eq_none.mp found parameter known
        simp only [decide_eq_true_eq, not_and] at present
        have written := present required
        push Not at written
        exact written
    | some parameter =>
        obtain ⟨missing, before, after, split, present⟩ := List.find?_eq_some_iff_append.mp found
        simp only [decide_eq_true_eq] at missing
        refine .inr ⟨_, .missing clean split ?_ missing.1 missing.2⟩
        intro other inside required
        have there := present other inside
        simp only [Bool.not_eq_true', decide_eq_false_iff_not, not_and] at there
        have written := there required
        push Not at written
        exact written
  · exact .inr ⟨error, .argument split clean offends⟩

/-- Resolution fails exactly by the first fault. -/
theorem resolve_eq_error_iff (distinct : schema.Distinct) {error : ArgumentError} :
    schema.resolve arguments = .error error ↔ schema.FirstFault arguments error := by
  refine ⟨?_, resolve_of_firstFault distinct⟩
  intro failed
  rcases schema.fits_or_firstFault arguments with fits | ⟨other, fault⟩
  · rw [resolve_of_fits distinct fits] at failed
    cases failed
  · have reported := resolve_of_firstFault distinct fault
    rw [failed] at reported
    cases reported
    exact fault

theorem fits_of_resolve (distinct : schema.Distinct) {resolved : ResolvedArguments}
    (accepted : schema.resolve arguments = .ok resolved) : schema.Fits arguments := by
  rcases schema.fits_or_firstFault arguments with fits | ⟨error, fault⟩
  · exact fits
  · rw [resolve_of_firstFault distinct fault] at accepted
    cases accepted

theorem Distinct.nodup_labels (distinct : schema.Distinct) :
    (schema.parameters.map (·.label)).Nodup := by
  have among (parameters : List Parameter) :
      (parameters.map (·.label)).Sublist (parameters.flatMap Parameter.labels) := by
    induction parameters with
    | nil => exact List.Sublist.refl _
    | cons parameter rest ih =>
        exact (ih.trans (List.sublist_append_right parameter.aliases _)).cons_cons parameter.label
  exact List.Nodup.sublist (among _) distinct

/-- What is required has a value once the arguments are resolved. -/
theorem isSome_get?_of_required {resolved : ResolvedArguments}
    (accepted : schema.resolve arguments = .ok resolved) (distinct : schema.Distinct)
    {parameter : Parameter} (known : parameter ∈ schema.parameters)
    (required : parameter.requirement = .required) :
    (resolved.get? parameter.label).isSome = true := by
  obtain ⟨argument, inside, writes⟩ := (fits_of_resolve distinct accepted).required _ known required
  obtain ⟨written, found, given⟩ := lookup_resolve accepted distinct.nodup_labels known
  have named : arguments.any (schema.isFor parameter.label) = true := by
    refine List.any_eq_true.mpr ⟨argument, inside, ?_⟩
    have chosen := (parameterOf?_eq_some_iff distinct).mpr ⟨known, writes⟩
    simp [isFor, chosen]
  rw [named] at given
  obtain ⟨value, there⟩ := Option.isSome_iff_exists.mp given
  rw [ResolvedArguments.get?, found, valueOf, there]
  rfl

end Outcome

section Rewriting

variable {schema : Schema} {arguments others : List Argument} {parameter : Parameter}

/-- Arguments in another order, and some with a label exchanged for an alias. -/
def Rewritten (schema : Schema) (arguments others : List Argument) : Prop :=
  ∃ permuted, arguments.Perm permuted ∧ List.Forall₂ schema.Alike permuted others

/-- Arguments that differ in the choice between a label and its alias write the same parameter. -/
theorem Alike.writes_iff (distinct : schema.Distinct) {argument other : Argument}
    (alike : schema.Alike argument other) (known : parameter ∈ schema.parameters) :
    argument.Writes parameter ↔ other.Writes parameter := by
  obtain ⟨_, same, listed, here, there⟩ := alike
  constructor
  · intro written
    rwa [eq_of_writes distinct known listed written here]
  · intro written
    rwa [eq_of_writes distinct known listed written there]

/-- The value of a parameter depends on the first argument that writes it. -/
theorem valueAmong_congr (same : (arguments.find? (·.Writes parameter)).map (·.value) =
    (others.find? (·.Writes parameter)).map (·.value)) :
    parameter.valueAmong arguments = parameter.valueAmong others := by
  unfold Parameter.valueAmong
  cases here : arguments.find? (·.Writes parameter) with
  | none =>
      rw [here, Option.map_none, eq_comm, Option.map_eq_none_iff] at same
      rw [same]
  | some argument =>
      rw [here, Option.map_some, eq_comm, Option.map_eq_some_iff] at same
      obtain ⟨other, there, value⟩ := same
      simp only [there, value]

/-- Arguments fit whether they are written with labels or with aliases. -/
theorem Fits.alike (distinct : schema.Distinct) (fits : schema.Fits arguments)
    (alike : List.Forall₂ schema.Alike arguments others) : schema.Fits others := by
  have counted {parameter : Parameter} (known : parameter ∈ schema.parameters) :
      arguments.countP (·.Writes parameter) = others.countP (·.Writes parameter) := by
    clear fits
    induction alike with
    | nil => rfl
    | cons same _ ih => simp only [List.countP_cons, ih, same.writes_iff distinct known]
  have known : ∀ other ∈ others, ∃ parameter ∈ schema.parameters, other.Writes parameter := by
    clear fits counted
    induction alike with
    | nil => simp
    | cons same _ ih =>
        obtain ⟨_, parameter, listed, _, written⟩ := same
        exact List.forall_mem_cons.mpr ⟨⟨parameter, listed, written⟩, ih⟩
  apply fits_of_unoffending (unoffending_iff.mpr ⟨known, ?_⟩)
  · intro parameter listed required
    obtain ⟨argument, inside, written⟩ := fits.required parameter listed required
    have present : 0 < others.countP (·.Writes parameter) := by
      rw [← counted listed]
      exact List.countP_pos_iff.mpr ⟨argument, inside, by simpa using written⟩
    simpa using List.countP_pos_iff.mp present
  · intro parameter listed
    rw [← counted listed]
    exact fits.once parameter listed

theorem valuesAmong_of_alike (distinct : schema.Distinct)
    (alike : List.Forall₂ schema.Alike arguments others) :
    schema.valuesAmong arguments = schema.valuesAmong others := by
  apply List.filterMap_congr
  intro parameter known
  congr 1
  apply valueAmong_congr
  induction alike with
  | nil => rfl
  | @cons argument other _ _ same _ ih =>
      have both := same.writes_iff distinct known
      by_cases written : argument.Writes parameter
      · simp [written, both.mp written, same.1]
      · have unwritten : ¬ other.Writes parameter := fun there => written (both.mpr there)
        simp [written, unwritten, ih]

/-- Arguments fit in any order. -/
theorem Fits.perm (fits : schema.Fits arguments) (permuted : arguments.Perm others) :
    schema.Fits others where
  labelled argument inside := fits.labelled argument (permuted.mem_iff.mpr inside)
  known argument inside := fits.known argument (permuted.mem_iff.mpr inside)
  once parameter known := by
    rw [← permuted.countP_eq]
    exact fits.once parameter known
  required parameter known required := by
    obtain ⟨argument, inside, written⟩ := fits.required parameter known required
    exact ⟨argument, permuted.mem_iff.mp inside, written⟩

theorem eq_of_countP_le_one {argument other : Argument}
    (once : arguments.countP (·.Writes parameter) ≤ 1)
    (here : argument ∈ arguments) (written : argument.Writes parameter)
    (there : other ∈ arguments) (again : other.Writes parameter) : argument = other := by
  have first : argument ∈ arguments.filter (·.Writes parameter) :=
    List.mem_filter.mpr ⟨here, by simpa using written⟩
  have second : other ∈ arguments.filter (·.Writes parameter) :=
    List.mem_filter.mpr ⟨there, by simpa using again⟩
  rw [List.countP_eq_length_filter] at once
  generalize arguments.filter (·.Writes parameter) = writers at once first second
  rcases writers with _ | ⟨writer, _ | ⟨_, _⟩⟩
  · cases first
  · rw [List.mem_singleton.mp first, List.mem_singleton.mp second]
  · simp at once

/-- Arguments that fit give the same values in any order. -/
theorem valuesAmong_of_perm (fits : schema.Fits arguments) (permuted : arguments.Perm others) :
    schema.valuesAmong arguments = schema.valuesAmong others := by
  apply List.filterMap_congr
  intro parameter known
  congr 1
  apply valueAmong_congr
  congr 1
  cases found : others.find? (·.Writes parameter) with
  | none =>
      rw [List.find?_eq_none] at found ⊢
      exact fun argument inside => found argument (permuted.mem_iff.mp inside)
  | some other =>
      have there := permuted.mem_iff.mpr (List.mem_of_find?_eq_some found)
      have again : other.Writes parameter := by simpa using List.find?_some found
      cases first : arguments.find? (·.Writes parameter) with
      | none => exact absurd again (by simpa using List.find?_eq_none.mp first other there)
      | some argument =>
          have written : argument.Writes parameter := by simpa using List.find?_some first
          rw [eq_of_countP_le_one (fits.once parameter known)
            (List.mem_of_find?_eq_some first) written there again]

end Rewriting

section Values

variable {schema : Schema} {arguments : List Argument} {resolved : ResolvedArguments}
  {parameter : Parameter}

/-- Resolved arguments have the value that a parameter has among those written. -/
theorem lookup_of_resolve (distinct : schema.Distinct)
    (accepted : schema.resolve arguments = .ok resolved) (known : parameter ∈ schema.parameters) :
    resolved.values.lookup parameter.label = parameter.valueAmong arguments := by
  rw [resolve_of_fits distinct (fits_of_resolve distinct accepted)] at accepted
  cases accepted
  have gathered : schema.valuesAmong arguments = schema.parameters.filterMap fun parameter =>
      (valueOf (schema.gathered arguments) parameter).map (parameter.label, ·) :=
    List.filterMap_congr fun parameter listed => by rw [valueOf_gathered distinct listed]
  dsimp only
  rw [gathered, lookup_filterMap_valueOf distinct.nodup_labels known,
    valueOf_gathered distinct known]

theorem site_of_resolve (accepted : schema.resolve arguments = .ok resolved) :
    resolved.site = schema.site := by
  obtain ⟨_, _, _, _, rfl⟩ := resolve_eq_ok.mp accepted
  rfl

/-- A schema in which every parameter has one label, its own, and a value once arguments resolve. -/
structure Plain (schema : Schema) : Prop where
  distinct : schema.Distinct
  unaliased : ∀ parameter ∈ schema.parameters, parameter.aliases = []
  valued : ∀ parameter ∈ schema.parameters, parameter.requirement ≠ .optional

theorem plain_server : server.Plain :=
  ⟨by decide, by simp [server, serverSettings], by simp [server, serverSettings]⟩

theorem generateMain_mem :
    ⟨"generate_main", [], .fallback (.ofTrees (.boolean true) [name "true"])⟩ ∈ server.parameters :=
  List.mem_append_right _ (List.mem_singleton.mpr rfl)

theorem plain_toolbox : toolbox.Plain := ⟨by decide, by simp [toolbox], by simp [toolbox]⟩

theorem plain_globalServer (freestanding : Bool) : (globalServer freestanding).Plain := by
  refine ⟨?_, by simp [globalServer, serverSettings], by simp [globalServer, serverSettings]⟩
  change ["name", "version", "capabilities", "configuration"].Nodup
  decide

theorem writes_iff_isLabelled (plain : parameter.aliases = []) (argument : Argument) :
    argument.Writes parameter ↔ argument.isLabelled parameter.label = true := by
  unfold Argument.Writes Argument.isLabelled Parameter.labels
  cases argument.label with
  | none => simp
  | some label => simp [plain]

/-- Every parameter has a value. Where its default has some property, the value has it exactly when
what is written for the parameter does. -/
theorem Plain.get?_of_resolve (plain : schema.Plain)
    (accepted : schema.resolve arguments = .ok resolved) (known : parameter ∈ schema.parameters) :
    ∃ value, resolved.get? parameter.label = some value ∧
      ∀ holds : Expression → Prop,
        (∀ fallback, parameter.requirement = .fallback fallback → holds fallback) →
        (holds value ↔ ∀ argument ∈ arguments,
          argument.isLabelled parameter.label = true → holds argument.value) := by
  have fits := fits_of_resolve plain.distinct accepted
  have labelled := writes_iff_isLabelled (plain.unaliased parameter known)
  rw [ResolvedArguments.get?, lookup_of_resolve plain.distinct accepted known]
  unfold Parameter.valueAmong
  cases written : arguments.find? (·.Writes parameter) with
  | some argument =>
      have inside := List.mem_of_find?_eq_some written
      have writes : argument.Writes parameter := by simpa using List.find?_some written
      refine ⟨argument.value, rfl, fun holds _ => ⟨?_, ?_⟩⟩
      · intro held other there named
        rwa [← eq_of_countP_le_one (fits.once parameter known) inside writes there
          ((labelled other).mpr named)]
      · intro all
        exact all argument inside ((labelled argument).mp writes)
  | none =>
      have absent (argument : Argument) (inside : argument ∈ arguments) :
          ¬ argument.Writes parameter := by
        simpa using List.find?_eq_none.mp written argument inside
      cases need : parameter.requirement with
      | optional => exact absurd need (plain.valued parameter known)
      | required =>
          obtain ⟨argument, inside, writes⟩ := fits.required parameter known need
          exact absurd writes (absent argument inside)
      | fallback value =>
          refine ⟨value, rfl, fun holds default => iff_of_true (default value rfl) ?_⟩
          intro argument inside named
          exact absurd ((labelled argument).mpr named) (absent argument inside)

end Values

/-- **Resolution is exact.** Let no label or alias of a schema occur twice. Arguments resolve
exactly when they fit: each has a label, which is a label or alias of a parameter, no parameter is
written twice, and every required one is written. They resolve to the values of the parameters that
are written or have a default, in the order of the schema; neither the order of the arguments nor
the choice between a label and its alias matters. Otherwise the first argument that offends is
reported, and a missing parameter, the first in the schema, only when no argument offends. -/
theorem resolve_exact {schema : Schema} (distinct : schema.Distinct) (arguments : List Argument) :
    ((∃ resolved, schema.resolve arguments = .ok resolved) ↔ schema.Fits arguments) ∧
    (∀ resolved, schema.resolve arguments = .ok resolved →
      resolved = ⟨schema.site, schema.valuesAmong arguments⟩ ∧
      ∀ others, schema.Rewritten arguments others → schema.resolve others = .ok resolved) ∧
    ∀ error, schema.resolve arguments = .error error ↔ schema.FirstFault arguments error := by
  refine ⟨⟨?_, fun fits => ⟨_, resolve_of_fits distinct fits⟩⟩, ?_,
    fun error => resolve_eq_error_iff distinct⟩
  · rintro ⟨resolved, accepted⟩
    exact fits_of_resolve distinct accepted
  · intro resolved accepted
    have fits := fits_of_resolve distinct accepted
    rw [resolve_of_fits distinct fits] at accepted
    cases accepted
    refine ⟨rfl, ?_⟩
    rintro others ⟨permuted, reordered, alike⟩
    rw [resolve_of_fits distinct ((fits.perm reordered).alike distinct alike),
      valuesAmong_of_perm fits reordered, valuesAmong_of_alike distinct alike]

/-- An argument whose value is a string. -/
def labelledText (label : Ident) (text : String) : Argument := ⟨some label, stringExpression text⟩

/-- The schema of a tool: an alias, a raw label and another order make no difference, and of two
faults the first is the one to report. -/
theorem resolve_exact_tool :
    let schema := Schema.tool ⟨false, "echo"⟩
    let description := labelledText ⟨true, "description"⟩ "d"
    let input := labelledText ⟨false, "input_schema"⟩ "s"
    let short := labelledText ⟨false, "schema"⟩ "s"
    schema.Distinct ∧ schema.Rewritten [description, input] [short, description] ∧
      (∃ resolved, schema.resolve [description, input] = .ok resolved ∧
        schema.resolve [short, description] = .ok resolved ∧
        resolved.values.map (fun entry => (entry.1, entry.2.explicit)) =
          [("name", false), ("description", true), ("input_schema", true)]) ∧
      schema.FirstFault [input, short, ⟨none, stringExpression "p"⟩]
        (.duplicate schema.site "input_schema") := by
  intro schema description input short
  have distinct : schema.Distinct := by decide
  have rewritten : schema.Rewritten [description, input] [short, description] := by
    refine ⟨[input, description], List.Perm.swap _ _ _, .cons ⟨rfl, ?_⟩ (.cons ⟨rfl, ?_⟩ .nil)⟩
    · exact ⟨_, List.mem_cons_of_mem _ (List.mem_cons_of_mem _ List.mem_cons_self),
        ⟨_, rfl, by decide⟩, ⟨_, rfl, by decide⟩⟩
    · exact ⟨_, List.mem_cons_of_mem _ List.mem_cons_self, ⟨_, rfl, by decide⟩,
        ⟨_, rfl, by decide⟩⟩
  have accepted : schema.resolve [description, input] =
      .ok ⟨schema.site, schema.valuesAmong [description, input]⟩ := rfl
  have resolves := (resolve_exact distinct [description, input]).2.1 _ accepted
  have reports := (resolve_exact distinct [input, short, ⟨none, stringExpression "p"⟩]).2.2
    (.duplicate schema.site "input_schema")
  exact ⟨distinct, rewritten, ⟨_, accepted, resolves.2 _ rewritten, rfl⟩, reports.mp rfl⟩

end Schema

end Toolsmith
