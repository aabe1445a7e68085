import Mathlib
import Toolsmith.Proofs.Source.LocalSignature
import Toolsmith.Proofs.Source.Printing

/-! # Declarations are read again from what they print

A declaration that was read from plain trees is what is read from the trees it prints. This stays so
when its attributes are changed to others that are read from what they print, and when parameters
lose some of theirs (`Grammar.reads_changed`): the attributes are in brackets and the parameters in
parentheses, and what stands around a group is read without looking into it.
-/

namespace Toolsmith
namespace Source

open Piece Reader

namespace Grammar

variable {g : Grammar}

/-! ### Attributes -/

/-- An outer attribute is read from what it prints. -/
def AttributeReadsBack (g : Grammar) (attr : Attribute) : Prop :=
  attr.inner = false ∧ ∃ pieces, PlainAll pieces ∧
    (g.attributeContent false).Reads (attr.path.print ++ attr.arguments.print) attr pieces []

/-- An attribute that was read from plain trees is read from what it prints. -/
theorem attributeReadsBack_of_plain {trees rest : List Tree} {attr : Attribute} {taken : List Piece}
    (read : g.outerAttribute.Reads trees attr taken rest) (plain : PlainAll taken) :
    g.AttributeReadsBack attr := by
  obtain ⟨joint, content, pieces, _, rfl, inside⟩ := reads_outerAttribute.mp read
  obtain ⟨one, two, between, path, arguments, outer, rfl⟩ := reads_attributeContent.mp inside
  have own : PlainAll (one ++ two) := plain.2.1
  refine ⟨outer, _, own, ?_⟩
  have whole := inside.conserved
  rw [List.append_nil, ← printAll_of_plain own, printAll_append, print_of_attributePath path,
    print_of_attributeArguments arguments] at whole
  rw [whole]
  exact inside

theorem attributesReadBack_of_plain {trees rest : List Tree} {attrs : List Attribute}
    {taken : List Piece} (read : g.outerAttributes.Reads trees attrs taken rest)
    (plain : PlainAll taken) : ∀ attr ∈ attrs, g.AttributeReadsBack attr := by
  obtain ⟨_, parts, rfl, rfl, each⟩ := parts_of_many read
  intro attr member
  obtain ⟨part, inside, rfl⟩ := List.mem_map.mp member
  obtain ⟨_, _, single⟩ := each part inside
  refine attributeReadsBack_of_plain single ?_
  obtain ⟨before, after, rfl⟩ := List.append_of_mem inside
  simp only [List.flatMap_append, List.flatMap_cons, plainAll_append] at plain
  exact plain.2.1

theorem reads_doubleColon? (behind : List Tree) :
    (operator? "::").Reads (.punct ':' true :: .punct ':' false :: behind) true
      [.mark ':' true true, .mark ':' false false] behind :=
  reads_operator?.mpr (.inl ⟨rfl, rfl, rfl, rfl⟩)

/-- A round over a path reads one name, and ends unless colons follow it. -/
theorem reads_segmentStep {segment : Ident} (plain : segment.isPlain = true) {earlier : List Ident}
    {between rest : List Tree} {goesOn : Bool} {pieces : List Piece}
    (colons : (operator? "::").Reads between goesOn pieces rest) :
    (segmentStep earlier).Reads (.ident segment :: between)
      (if goesOn then .inl (segment :: earlier) else .inr (segment :: earlier))
      (.tree (.ident segment) :: pieces) rest := by
  have stands : atIdent (.ident segment :: between) = true := plain
  refine reads_ahead_bind.mpr ?_
  rw [if_pos (by rw [stands, Bool.true_or])]
  refine reads_bind.mpr ⟨segment, _, pieces, between, reads_word.mpr ⟨rfl, rfl⟩, ?_, rfl⟩
  refine reads_bind.mpr ⟨goesOn, pieces, [], rest, colons, ?_, (List.append_nil _).symm⟩
  cases goesOn with
  | true => exact reads_pure.mpr ⟨rfl, rfl, rfl⟩
  | false => exact reads_pure.mpr ⟨rfl, rfl, rfl⟩

/-- A path of identifiers is read from what it prints, where no double colon follows. -/
theorem reads_segments {segments : List Ident} (some : segments ≠ [])
    (words : ∀ segment ∈ segments, segment.isPlain = true) {rest : List Tree}
    (ends : atOperator "::" rest = false) (earlier : List Ident) :
    ∃ pieces, PlainAll pieces ∧ (loop segmentStep earlier).Reads
      (separated (op "::") (segments.map fun segment => [.ident segment]) ++ rest)
      (segments.reverse ++ earlier) pieces rest := by
  induction segments generalizing earlier with
  | nil => exact absurd rfl some
  | cons segment others ih =>
      rw [List.forall_mem_cons] at words
      cases others with
      | nil =>
          have stops := reads_operator?.mpr (.inr ⟨rfl, ends, rfl, rfl⟩)
          refine ⟨[.tree (.ident segment)], ⟨trivial, trivial⟩, ?_⟩
          exact (reads_loop progresses_segmentStep).mpr (reads_bind.mpr
            ⟨_, _, [], _, reads_segmentStep words.1 stops, reads_pure.mpr ⟨rfl, rfl, rfl⟩, rfl⟩)
      | cons second others =>
          obtain ⟨pieces, plain, later⟩ := ih (List.cons_ne_nil _ _) words.2 (segment :: earlier)
          refine ⟨.tree (.ident segment) :: .mark ':' true true :: .mark ':' false false :: pieces,
            ⟨trivial, rfl, rfl, plain⟩, ?_⟩
          refine (reads_loop progresses_segmentStep).mpr (reads_bind.mpr
            ⟨_, _, pieces, _, reads_segmentStep words.1 (reads_doubleColon? _), ?_, rfl⟩)
          rw [List.reverse_cons, List.append_assoc]
          exact later

/-- An attribute keeps being read from what it prints when it gets an absolute path. -/
theorem AttributeReadsBack.rooted {attr : Attribute} (own : g.AttributeReadsBack attr)
    {segments : List Ident} (some : segments ≠ [])
    (words : ∀ segment ∈ segments, segment.isPlain = true) :
    g.AttributeReadsBack { attr with path := ⟨true, segments⟩ } := by
  obtain ⟨outer, pieces, plain, read⟩ := own
  obtain ⟨one, two, between, path, arguments, _, rfl⟩ := reads_attributeContent.mp read
  rw [plainAll_append] at plain
  have written : attr.path.print = sourceAll one := by
    rw [← printAll_of_plain plain.1, print_of_attributePath path]
  obtain rfl : between = attr.arguments.print := by
    have whole := path.conserved
    rw [← written] at whole
    exact List.append_cancel_left whole
  have ends : atOperator "::" attr.arguments.print = false := by
    cases attr.arguments <;> rfl
  obtain ⟨more, kept, read⟩ := reads_segments some words ends []
  refine ⟨outer, .mark ':' true true :: .mark ':' false false :: more ++ two, ?_, ?_⟩
  · rw [plainAll_append]
    exact ⟨⟨rfl, rfl, kept⟩, plain.2⟩
  · refine reads_attributeContent.mpr ⟨_, two, _, ?_, arguments, outer, rfl⟩
    refine reads_bind.mpr ⟨false, [], _, _, reads_keyword?.mpr (.inr ⟨rfl, rfl, rfl, rfl⟩), ?_, rfl⟩
    refine reads_bind.mpr ⟨true, _, more, _, reads_doubleColon? _, ?_, rfl⟩
    refine reads_bind_pure.mpr ⟨_, read, ?_⟩
    simp

/-- Attributes that are read from what they print are read one after the other. -/
theorem reads_attributes {attrs : List Attribute} (each : ∀ attr ∈ attrs, g.AttributeReadsBack attr)
    {rest : List Tree} (ends : atOperator "#" rest = false) :
    ∃ taken, g.outerAttributes.Reads (attrs.flatMap Attribute.print ++ rest) attrs taken rest := by
  refine found_eq_some.mp (found_outerAttributes.mpr ?_)
  induction attrs with
  | nil => exact .stop ends
  | cons attr others ih =>
      rw [List.forall_mem_cons] at each
      obtain ⟨⟨outer, pieces, _, read⟩, others⟩ := each
      have front (trees : List Tree) : attr.print ++ trees =
          .punct '#' false ::
            .group .bracket (attr.path.print ++ attr.arguments.print) :: trees := by
        rw [Attribute.print, outer]
        rfl
      rw [List.flatMap_cons, List.append_assoc, front]
      refine .step rfl ?_ (ih others)
      exact found_outerAttribute.mpr ⟨false, _, rfl, found_eq_some.mpr ⟨_, read⟩⟩

/-! ### Parameters -/

/-- A parameter before a comma, or at the end, is read alike before another comma, or at the end. -/
theorem reads_parameterBody {depth : Nat} {front rest stop other : List Tree}
    {value : Phrase (Bool × Bool)} {taken : List Piece} (one : Stops stop) (two : Stops other)
    (read : (phrase (Grammar.within depth).parameterBody).Reads (front ++ stop) value taken
      (rest ++ stop)) :
    (phrase (Grammar.within depth).parameterBody).Reads (front ++ other) value taken
      (rest ++ other) := by
  obtain ⟨same, read⟩ := reads_phrase.mp read
  refine reads_phrase.mpr ⟨same, ?_⟩
  obtain ⟨dots, _, _, between, ellipsis, after, rfl⟩ := reads_bind.mp read
  obtain rfl := after.before_stop
  have alike : StopAlike stop other := .stops one two
  refine reads_bind.mpr
    ⟨dots, _, _, _, Local.operator? rfl _ alike (Nat.zero_le _) ellipsis, ?_, rfl⟩
  split at after
  · rename_i stands
    rw [if_pos stands]
    exact Local.pure _ _ alike (Nat.zero_le _) after
  · rename_i stands
    rw [if_neg stands]
    exact reads_inputBody one two after

/-- What is left of a parameter list that was read: the parameters and a final `...`, as they are
printed. The first parameter alone may be a receiver. -/
inductive Listed (g : Grammar) : Bool → List Input → List Tree → Prop
  | none {first : Bool} : Listed g first [] []
  | variadic {first : Bool} {trees : List Tree}
      (read : ∃ taken, ∀ found,
        Round g found trees (.inr { found with variadic := trees }) taken []) :
      Listed g first [] trees
  | last {first : Bool} {attrs : List Attribute} {body : Phrase (Bool × Bool)} {taken : List Piece}
      (attributes : ∀ attr ∈ attrs, g.AttributeReadsBack attr)
      (ends : atOperator "#" body.print = false)
      (read : (phrase g.parameterBody).Reads body.print body taken []) (plain : body.kind.2 = false)
      (placed : body.kind.1 = true → first = true) :
      Listed g first [⟨attrs, body.kind.1, body.print, false⟩] []
  | more {first : Bool} {attrs : List Attribute} {others : List Input} {variadic : List Tree}
      {body : Phrase (Bool × Bool)} {taken : List Piece}
      (attributes : ∀ attr ∈ attrs, g.AttributeReadsBack attr)
      (ends : atOperator "#"
        (body.print ++ .punct ',' false :: (others.flatMap Input.print ++ variadic)) = false)
      (read : (phrase g.parameterBody).Reads
        (body.print ++ .punct ',' false :: (others.flatMap Input.print ++ variadic)) body taken
        (.punct ',' false :: (others.flatMap Input.print ++ variadic)))
      (plain : body.kind.2 = false) (placed : body.kind.1 = true → first = true)
      (later : Listed g false others variadic) :
      Listed g first (⟨attrs, body.kind.1, body.print, true⟩ :: others) variadic

/-- A parameter that was read from plain trees was read from what it prints. -/
theorem parameter_of_plain {trees middle left : List Tree} {attrs : List Attribute}
    {body : Phrase (Bool × Bool)} {one two : List Piece}
    (attributes : g.outerAttributes.Reads trees attrs one middle)
    (read : (phrase g.parameterBody).Reads middle body two left) (plain : PlainAll (one ++ two)) :
    trees = printOuter attrs ++ middle ∧ middle = body.print ++ left ∧
      (∀ attr ∈ attrs, g.AttributeReadsBack attr) ∧ atOperator "#" middle = false := by
  rw [plainAll_append] at plain
  have outer := printOuter_of_outer (outer_of_outerAttributes attributes)
  refine ⟨?_, ?_, attributesReadBack_of_plain attributes plain.1,
    (parts_of_many attributes).1⟩
  · rw [outer, ← print_of_outerAttributes attributes, printAll_of_plain plain.1,
      attributes.conserved]
  · rw [← print_of_phrase read, printAll_of_plain plain.2, read.conserved]

/-- What was read of a parameter list from plain trees. -/
theorem listed_of_plain {trees rest : List Tree} {found value : Inputs} {taken : List Piece}
    (read : (loop g.inputsStep found).Reads trees value taken rest) (none : found.variadic = [])
    (ended : rest = []) (plain : PlainAll taken) :
    ∃ inputs, value.inputs = found.inputs ++ inputs ∧
      Listed g found.inputs.isEmpty inputs value.variadic ∧
        trees = inputs.flatMap Input.print ++ value.variadic := by
  refine Reads.loop_induction
    (motive := fun found trees value taken rest =>
      found.variadic = [] → rest = [] → PlainAll taken →
      ∃ inputs, value.inputs = found.inputs ++ inputs ∧
        Listed g found.inputs.isEmpty inputs value.variadic ∧
          trees = inputs.flatMap Input.print ++ value.variadic)
    ?_ ?_ read none ended plain
  · intro found trees value taken rest round none ended plain
    have round := reads_inputsStep.mp round
    cases round with
    | done =>
        refine ⟨[], (List.append_nil _).symm, ?_, none.symm⟩
        rw [none]
        exact .none
    | variadic some attributes parameter dots ends =>
        rename_i middle left attrs body comma one two three
        rw [← List.append_assoc, plainAll_append] at plain
        obtain ⟨front, behind, _⟩ := parameter_of_plain attributes parameter plain.1
        have last : left = comma.print := by
          rw [← print_of_phrase ends, printAll_of_plain plain.2, ← ends.conserved, ended,
            List.append_nil]
        have whole : trees = printOuter attrs ++ body.print ++ comma.print := by
          rw [front, behind, last, List.append_assoc]
        have anywhere (other : Inputs) : Round g other trees
            (.inr { other with variadic := printOuter attrs ++ body.print ++ comma.print })
            (one ++ (two ++ three)) [] := by
          subst ended
          exact .variadic some attributes parameter dots ends
        refine ⟨[], (List.append_nil _).symm, ?_, whole⟩
        rw [← whole] at anywhere ⊢
        exact .variadic ⟨_, anywhere⟩
    | last some attributes parameter typed placed =>
        rename_i middle attrs body one two
        obtain ⟨front, behind, each, ends⟩ := parameter_of_plain attributes parameter plain
        rw [List.append_nil] at behind
        subst behind
        refine ⟨[⟨attrs, body.kind.1, body.print, false⟩], rfl, ?_, ?_⟩
        · rw [none]
          refine .last each ends parameter typed fun receives => ?_
          rw [placed receives]
          rfl
        · rw [front, none]
          simp [Input.print]
  · intro found next trees between rest value one two round later none ended plain
    have round := reads_inputsStep.mp round
    cases round with
    | more some attributes parameter typed placed =>
        rename_i middle attrs body joint one two
        rw [plainAll_append, ← List.append_assoc, plainAll_append] at plain
        obtain ⟨⟨own, rfl, _⟩, plain⟩ := plain
        obtain ⟨front, behind, each, ends⟩ := parameter_of_plain attributes parameter own
        obtain ⟨inputs, same, listed, whole⟩ := later none ended plain
        refine ⟨⟨attrs, body.kind.1, body.print, true⟩ :: inputs, ?_, ?_, ?_⟩
        · rw [same, List.append_assoc]
          rfl
        · have further :
              (found.inputs ++ [(⟨attrs, body.kind.1, body.print, true⟩ : Input)]).isEmpty =
                false := by simp
          rw [further] at listed
          subst behind
          subst whole
          refine .more each ends parameter typed (fun receives => ?_) listed
          rw [placed receives]
          rfl
        · rw [front, behind, whole]
          simp [Input.print, op, marks]

/-- Nothing is no parameter. -/
theorem no_parameterBody {rest : List Tree} {value : Phrase (Bool × Bool)} {taken : List Piece} :
    ¬ (phrase g.parameterBody).Reads [] value taken rest := by
  intro read
  obtain ⟨_, read⟩ := reads_phrase.mp read
  obtain ⟨dots, _, _, _, ellipsis, body, _⟩ := reads_bind.mp read
  rcases reads_operator?.mp ellipsis with ⟨_, contrary, _⟩ | ⟨rfl, _, rfl, _⟩
  · cases contrary
  obtain ⟨received, _, _, _, tried, body, _⟩ := reads_bind.mp body
  obtain ⟨rfl, _, rfl⟩ := reads_succeeds.mp tried
  have body : (g.typedBody true).Reads [] value.kind _ rest := reads_ahead_bind.mp body
  obtain ⟨_, _, _, _, pattern, body, _⟩ := reads_bind.mp body
  obtain ⟨_, _, _, _, colon, _, _⟩ := reads_bind.mp body
  obtain ⟨_, rfl, _⟩ := (reads_mark (show ":".toList = [':'] from rfl)).mp colon
  exact absurd pattern.length_le (by simp)

/-- A parameter is read behind the attributes that are printed in front of it. -/
theorem reads_attributed {attrs : List Attribute} (each : ∀ attr ∈ attrs, g.AttributeReadsBack attr)
    {rest : List Tree} (ends : atOperator "#" rest = false) :
    ∃ taken, g.outerAttributes.Reads (printOuter attrs ++ rest) attrs taken rest := by
  rw [printOuter_of_outer fun attr member => (each attr member).1]
  exact reads_attributes each ends

/-- A parameter list is read from what is listed, one round for each parameter. -/
theorem reads_of_listed {first : Bool} {inputs : List Input} {variadic : List Tree}
    (listed : Listed g first inputs variadic) {earlier : List Input}
    (begins : first = true → earlier = []) :
    ∃ taken, (loop g.inputsStep ⟨earlier, []⟩).Reads (inputs.flatMap Input.print ++ variadic)
      ⟨earlier ++ inputs, variadic⟩ taken [] := by
  have finished {found value : Inputs} {trees : List Tree} {taken : List Piece}
      (round : Round g found trees (.inr value) taken []) :
      ∃ taken, (loop g.inputsStep found).Reads trees value taken [] :=
    ⟨taken, (reads_loop progresses_inputsStep).mpr (reads_bind.mpr ⟨.inr value, taken, [], [],
      reads_inputsStep.mpr round, reads_pure.mpr ⟨rfl, rfl, rfl⟩, (List.append_nil _).symm⟩)⟩
  induction listed generalizing earlier with
  | none => exact finished (by simpa using Round.done)
  | variadic read =>
      obtain ⟨_, read⟩ := read
      rw [List.append_nil]
      exact finished (read _)
  | last attributes ends read plain placed =>
      rename_i attrs body _
      obtain ⟨_, outer⟩ := reads_attributed attributes ends
      have some : printOuter attrs ++ body.print ≠ [] := by
        intro nothing
        rw [(List.append_eq_nil_iff.mp nothing).2] at read
        exact no_parameterBody read
      have round : Round g ⟨earlier, []⟩ _ _ _ _ :=
        .last some outer read plain fun receives => begins (placed receives)
      simpa [Input.print] using finished round
  | more attributes ends read plain placed later ih =>
      rename_i attrs others variadic body _
      obtain ⟨_, outer⟩ := reads_attributed attributes ends
      have round : Round g ⟨earlier, []⟩ _ _ _ _ :=
        .more (by simp) outer read plain fun receives => begins (placed receives)
      obtain ⟨_, rounds⟩ := @ih (earlier ++ [⟨attrs, body.kind.1, body.print, true⟩]) fun more =>
        absurd more Bool.false_ne_true
      have whole : ∃ taken, (loop g.inputsStep ⟨earlier, []⟩).Reads _ _ taken [] :=
        ⟨_, (reads_loop progresses_inputsStep).mpr
          (reads_bind.mpr ⟨_, _, _, _, reads_inputsStep.mpr round, rounds, rfl⟩)⟩
      simpa [Input.print, op, marks] using whole

/-! ### Changed attributes -/

/-- The second parameter is the first one with other attributes, which are read from what they
print. -/
def Reattributed (g : Grammar) (one two : Input) : Prop :=
  ∃ attrs, (∀ attr ∈ attrs, g.AttributeReadsBack attr) ∧ two = { one with attrs := attrs }

/-- Parameters may get other attributes. -/
theorem Listed.reattributed {depth : Nat} {first : Bool} {inputs others : List Input}
    {variadic : List Tree} (listed : Listed (Grammar.within depth) first inputs variadic)
    (changed : List.Forall₂ (Reattributed (Grammar.within depth)) inputs others) :
    Listed (Grammar.within depth) first others variadic := by
  induction listed generalizing others with
  | none =>
      cases changed
      exact .none
  | variadic read =>
      cases changed
      exact .variadic read
  | last attributes ends read plain placed =>
      obtain ⟨_, _, ⟨attrs, each, rfl⟩, ⟨⟩, rfl⟩ := List.forall₂_cons_left_iff.mp changed
      exact .last each ends read plain placed
  | more attributes ends read plain placed later ih =>
      rename_i trailing variadic body _
      obtain ⟨_, behind, ⟨attrs, each, rfl⟩, rest, rfl⟩ := List.forall₂_cons_left_iff.mp changed
      have comma (rest : List Tree) : Stops (.punct ',' false :: rest) := .inr ⟨_, _, rfl⟩
      have again := reads_parameterBody (comma _) (comma (behind.flatMap Input.print ++ variadic))
        (show (phrase _).Reads _ _ _ ([] ++ _) from read)
      refine .more each ?_ again plain placed (ih rest)
      exact (Unseen.operator rfl (.stops (comma _) (comma _)) fun _ => Nat.zero_le _).trans ends

/-- What stands before the parameters of a signature is read alike whatever they are. -/
theorem local_signatureFront {kept : Nat} (own : g.IsLocal) : Local kept g.signatureFront := by
  refine (Local.keyword? _).bind fun _ => (Local.keyword? _).bind fun _ => (Local.keyword? _).bind
    fun _ => local_abi.phrase.bind fun _ => (takesOne_keyword _).exact.local.bind fun _ => ?_
  exact Local.ident.bind fun _ => (local_genericParams own).bind fun _ => .pure _

/-- A signature that was read from plain trees is read again, with changed attributes of its
parameters, from what it prints then. Only what is between its parentheses has changed. -/
theorem reads_changedSignature {depth : Nat} {trees rest : List Tree} {sig : Signature}
    {taken : List Piece} (read : (Grammar.within depth).signature.Reads trees sig taken rest)
    (plain : PlainAll taken) {inputs : List Input}
    (changed : List.Forall₂ (Reattributed (Grammar.within depth)) sig.inputs inputs) :
    ∃ front content other middle, 1 ≤ front.length ∧
      trees = front ++ .group .paren content :: middle ∧
        ({ sig with inputs := inputs } : Signature).print ++ rest =
          front ++ .group .paren other :: middle ∧
            ∃ taken, (Grammar.within depth).signature.Reads (front ++ .group .paren other :: middle)
              { sig with inputs := inputs } taken rest := by
  have own := isLocal_within depth
  obtain ⟨front, found, back, content, middle, one, pieces, two, begins, inside, ends, rfl, rfl⟩ :=
    reads_signature.mp read
  simp only [plainAll_append, PlainAll, Piece.Plain] at plain
  obtain ⟨fronted, listed, backed⟩ := plain
  have headed := begins.conserved
  rw [← printAll_of_plain fronted, print_of_signatureFront begins] at headed
  have tailed := ends.conserved
  rw [← printAll_of_plain backed, print_of_signatureBack ends] at tailed
  obtain ⟨_, same, parameters, rfl⟩ := listed_of_plain inside rfl rfl listed
  obtain rfl : _ = found.inputs := same.symm
  obtain ⟨_, filled⟩ := reads_of_listed (parameters.reattributed changed) fun _ => rfl
  refine ⟨front.print, _, inputs.flatMap Input.print ++ found.variadic, middle,
    ?_, headed.symm, ?_, ?_⟩
  · simp only [SignatureFront.print, List.length_append, List.length_cons]
    omega
  · have print : Signature.print { front.signature found back with inputs := inputs } = _ :=
      @SignatureFront.print_signature front ⟨inputs, found.variadic⟩ back
    rw [print, List.append_assoc, List.cons_append, tailed]
  · have begins : (Grammar.within depth).signatureFront.Reads _ _ _ ([] ++ _) := begins
    rw [← headed] at begins
    have begins := local_signatureFront own front.print
      (.groups .paren _ (inputs.flatMap Input.print ++ found.variadic) middle)
        (Nat.zero_le 0) begins
    exact ⟨_, reads_signature.mpr ⟨front, ⟨inputs, found.variadic⟩, back, _, middle, one, _, two,
      begins, filled, ends, rfl, rfl⟩⟩

/-- A declaration that was read from plain trees is read again, with changed attributes, from what
it prints then. -/
theorem reads_changed {depth : Nat} {trees : List Tree} {declaration : Declaration}
    {taken : List Piece}
    (read : (Grammar.within depth).declaration.Reads trees declaration taken [])
    (plain : PlainAll taken) {attrs : List Attribute} {inputs : List Input}
    (each : ∀ attr ∈ attrs, (Grammar.within depth).AttributeReadsBack attr)
    (changed : List.Forall₂ (Reattributed (Grammar.within depth)) declaration.sig.inputs inputs) :
    ∃ taken, (Grammar.within depth).declaration.Reads
      (Declaration.print ⟨attrs, declaration.vis, { declaration.sig with inputs := inputs }⟩)
      ⟨attrs, declaration.vis, { declaration.sig with inputs := inputs }⟩ taken [] := by
  obtain
    ⟨vis, first, second, _, one, two, three, joint, attributes, visible, signed, rfl, scope, rfl⟩ :=
    reads_declaration.mp read
  simp only [plainAll_append, PlainAll, Piece.Plain] at plain
  obtain ⟨_, seen, signature, rfl, _⟩ := plain
  obtain ⟨front, content, other, middle, some, rfl, print, _, signed⟩ :=
    reads_changedSignature signed signature changed
  have shown : first = (vis.print ++ front) ++ .group .paren content :: middle := by
    rw [← print_of_phrase visible, printAll_of_plain seen, List.append_assoc, visible.conserved]
  subst shown
  have alike := StopAlike.groups .paren content other middle
  have visible := local_visibility.phrase (vis.print ++ front) alike some visible
  have ends : atOperator "#" ((vis.print ++ front) ++ .group .paren other :: middle) = false := by
    rw [← (parts_of_many attributes).1]
    exact (Unseen.operator rfl alike fun _ => Nat.zero_le _).symm
  obtain ⟨_, attributes⟩ := reads_attributes each ends
  have whole :
      Declaration.print ⟨attrs, declaration.vis, { declaration.sig with inputs := inputs }⟩ =
        attrs.flatMap Attribute.print ++
          ((vis.print ++ front) ++ .group .paren other :: middle) := by
    rw [Declaration.print, scope, List.append_assoc, List.append_assoc, List.append_assoc, ← print]
    simp [op, marks]
  rw [whole]
  exact ⟨_, reads_declaration.mpr
    ⟨vis, _, _, _, _, _, _, false, attributes, visible, signed, rfl, scope, rfl⟩⟩

theorem Listed.attributes {first : Bool} {inputs : List Input} {variadic : List Tree}
    (listed : Listed g first inputs variadic) :
    ∀ input ∈ inputs, ∀ attr ∈ input.attrs, g.AttributeReadsBack attr := by
  induction listed with
  | none => nofun
  | variadic => nofun
  | last attributes => exact List.forall_mem_singleton.mpr attributes
  | more attributes _ _ _ _ _ ih => exact List.forall_mem_cons.mpr ⟨attributes, ih⟩

/-- The attributes of a declaration that was read from plain trees, and those of its parameters, are
read from what they print. -/
theorem attributesReadBack_of_declaration {trees rest : List Tree} {declaration : Declaration}
    {taken : List Piece} (read : g.declaration.Reads trees declaration taken rest)
    (plain : PlainAll taken) :
    (∀ attr ∈ declaration.attrs, g.AttributeReadsBack attr) ∧
      ∀ input ∈ declaration.sig.inputs, ∀ attr ∈ input.attrs, g.AttributeReadsBack attr := by
  obtain ⟨_, _, _, _, _, _, _, _, attributes, _, signed, _, _, rfl⟩ := reads_declaration.mp read
  obtain ⟨_, found, _, _, _, _, _, _, _, inside, _, whole, rfl⟩ := reads_signature.mp signed
  simp only [plainAll_append, PlainAll, Piece.Plain] at plain
  obtain ⟨own, _, ⟨_, listed, _⟩, _⟩ := plain
  obtain ⟨_, same, parameters, _⟩ := listed_of_plain inside rfl rfl listed
  obtain rfl : _ = found.inputs := same.symm
  rw [whole]
  exact ⟨attributesReadBack_of_plain attributes own, parameters.attributes⟩

end Grammar

end Source
end Toolsmith
