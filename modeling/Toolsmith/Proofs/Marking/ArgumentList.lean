import Mathlib
import Toolsmith.Marking.Argument
import Toolsmith.Proofs.Source.Attributes
import Toolsmith.Proofs.Source.LocalGrammar

/-! # Argument lists give back their tokens

Where the arguments of a marking are read, the trees of the list are those of the arguments, in
order, with a comma between any two and possibly one at the end (`Marking.parse_conserves`). So the
arguments can be written back, and what was written is read as the same arguments. That nothing
depends on the commas, nor on what stands behind them, is that expressions are local.
-/

namespace Toolsmith
namespace Source

namespace Reader

variable {α : Type} {reader : Reader α}

/-- Elements up to the end, with a comma between any two and possibly one at the end. Each says
whether a comma follows it. -/
inductive Separated (reader : Reader α) : List (α × Bool) → List Tree → Prop
  | none : Separated reader [] []
  | last {trees : List Tree} {value : α} {taken : List Piece} (some : trees ≠ [])
      (read : reader.Reads trees value taken []) : Separated reader [(value, false)] trees
  | more {trees rest : List Tree} {value : α} {taken : List Piece} {joint : Bool}
      {others : List (α × Bool)} (read : reader.Reads trees value taken (.punct ',' joint :: rest))
      (later : Separated reader others rest) : Separated reader ((value, true) :: others) trees

/-- One round of a list that is separated by commas. -/
def separatedStep (reader : Reader α) (values : List (α × Bool)) :
    Reader (List (α × Bool) ⊕ List (α × Bool)) := do
  if (← ahead).isEmpty then return .inr values
  let value ← reader
  if (← ahead).isEmpty then return .inr ((value, false) :: values)
  operator ","
  return .inl ((value, true) :: values)

theorem progresses_separatedStep : Progresses (separatedStep reader) := by
  refine fun values => Takes.second fun _ => .ite (.pure Bool.false_ne_true) ?_
  refine Takes.second fun _ => Takes.second fun _ => .ite (.pure Bool.false_ne_true) ?_
  exact (takes_operator rfl).first

/-- A list that the loop reads is one of values with commas between them. -/
theorem separated_of_loop {earlier result : List (α × Bool)} {trees rest : List Tree}
    {taken : List Piece}
    (read : (loop (separatedStep reader) earlier).Reads trees result taken rest) :
    rest = [] ∧ ∃ values, result = values.reverse ++ earlier ∧ Separated reader values trees := by
  induction length : trees.length using Nat.strong_induction_on
    generalizing trees earlier taken with
  | _ count ih =>
      obtain ⟨outcome, _, _, between, round, later, _⟩ :=
        reads_bind.mp ((reads_loop progresses_separatedStep).mp read)
      have whole := round
      unfold separatedStep at round
      rw [reads_ahead_bind] at round
      split at round
      · rename_i ended
        obtain ⟨rfl, _, rfl⟩ := reads_pure.mp round
        obtain ⟨rfl, _, rfl⟩ := reads_pure.mp later
        obtain rfl := List.isEmpty_iff.mp ended
        exact ⟨rfl, [], rfl, .none⟩
      rename_i some
      rw [List.isEmpty_iff] at some
      obtain ⟨value, _, _, middle, one, round, _⟩ := reads_bind.mp round
      rw [reads_ahead_bind] at round
      split at round
      · rename_i ended
        obtain ⟨rfl, _, rfl⟩ := reads_pure.mp round
        obtain ⟨rfl, _, rfl⟩ := reads_pure.mp later
        obtain rfl := List.isEmpty_iff.mp ended
        exact ⟨rfl, [(value, false)], rfl, .last some one⟩
      obtain ⟨_, _, _, _, comma, round, _⟩ := reads_bind.mp round
      obtain ⟨rfl, _, rfl⟩ := reads_pure.mp round
      obtain ⟨joint, rfl, _⟩ := (reads_mark rfl).mp comma
      have shorter := progresses_separatedStep earlier whole rfl
      obtain ⟨ended, values, same, others⟩ := ih between.length (length ▸ shorter) later rfl
      refine ⟨ended, (value, true) :: values, ?_, .more one others⟩
      rw [same, List.reverse_cons, List.append_assoc, List.singleton_append]

/-- Values with commas between them are what the loop reads. -/
theorem loop_of_separated {values : List (α × Bool)} {trees : List Tree}
    (separated : Separated reader values trees) (earlier : List (α × Bool)) :
    ∃ taken,
      (loop (separatedStep reader) earlier).Reads trees (values.reverse ++ earlier) taken [] := by
  induction separated generalizing earlier with
  | none =>
      refine ⟨_, (reads_loop progresses_separatedStep).mpr (reads_bind.mpr
        ⟨.inr earlier, [], [], [], ?_, ?_, rfl⟩)⟩
      · exact reads_ahead_bind.mpr (reads_pure.mpr ⟨rfl, rfl, rfl⟩)
      · exact reads_pure.mpr ⟨rfl, rfl, rfl⟩
  | last some read =>
      rename_i trees value taken
      refine ⟨_, (reads_loop progresses_separatedStep).mpr (reads_bind.mpr
        ⟨.inr ((value, false) :: earlier), taken, [], [], ?_, ?_, rfl⟩)⟩
      · refine reads_ahead_bind.mpr ?_
        rw [if_neg (by simpa using some)]
        refine reads_bind.mpr ⟨value, taken, [], [], read, ?_, (List.append_nil _).symm⟩
        exact reads_ahead_bind.mpr (reads_pure.mpr ⟨rfl, rfl, rfl⟩)
      · exact reads_pure.mpr ⟨rfl, rfl, rfl⟩
  | more read later ih =>
      rename_i trees rest value taken joint others
      obtain ⟨more, again⟩ := ih ((value, true) :: earlier)
      have some : trees ≠ [] := by
        rintro rfl
        exact absurd read.conserved (by simp)
      refine ⟨_, (reads_loop progresses_separatedStep).mpr (reads_bind.mpr
        ⟨.inl ((value, true) :: earlier), taken ++ [.mark ',' joint false], more,
          rest, ?_, ?_, rfl⟩)⟩
      · refine reads_ahead_bind.mpr ?_
        rw [if_neg (by simpa using some)]
        refine reads_bind.mpr ⟨value, taken, [.mark ',' joint false], _, read, ?_, rfl⟩
        refine reads_ahead_bind.mpr
          (reads_bind.mpr ⟨(), [.mark ',' joint false], [], rest, ?_, ?_, rfl⟩)
        · exact (reads_mark rfl).mpr ⟨joint, rfl, rfl⟩
        · exact reads_pure.mpr ⟨rfl, rfl, rfl⟩
      · have reversed : ((value, true) :: others).reverse ++ earlier =
            others.reverse ++ (value, true) :: earlier := by
          rw [List.reverse_cons, List.append_assoc, List.singleton_append]
        rw [reversed]
        exact again

/-- A list that is separated by commas is read up to the end. -/
theorem found_commaSeparated {values : List (α × Bool)} {trees rest : List Tree} :
    (commaSeparated reader).found trees = some (values, rest) ↔
      rest = [] ∧ Separated reader values trees := by
  change (List.reverse <$> loop (separatedStep reader) []).found trees = _ ↔ _
  rw [found_map, Option.map_eq_some_iff]
  constructor
  · rintro ⟨⟨result, left⟩, read, same⟩
    cases same
    obtain ⟨taken, read⟩ := found_eq_some.mp read
    obtain ⟨ended, values, rfl, separated⟩ := separated_of_loop read
    rw [List.append_nil, List.reverse_reverse]
    exact ⟨ended, separated⟩
  · rintro ⟨rfl, separated⟩
    refine ⟨(values.reverse, []), found_eq_some.mpr ?_, by rw [List.reverse_reverse]⟩
    simpa using loop_of_separated separated []

end Reader

end Source

open Source Source.Reader

/-! ### Single arguments -/

/-- The trees begin with a label: a word and a `=` that is not the start of `==`. -/
def StartsWithLabel (trees : List Tree) : Prop :=
  ∃ label joint rest, trees = .ident label :: .punct '=' joint :: rest ∧
    ¬ (joint = true ∧ ∃ next others, rest = .punct '=' next :: others)

theorem atLabel_iff {trees : List Tree} : atLabel trees = true ↔ StartsWithLabel trees := by
  have doubled (joint : Bool) (rest : List Tree) :
      atOperator "==" (.punct '=' joint :: rest) = true ↔
        joint = true ∧ ∃ next others, rest = .punct '=' next :: others := by
    rcases rest with _ | ⟨head, rest⟩
    · simp [atOperator, startsMarks]
    cases head <;> simp [atOperator, startsMarks]
  simp only [atLabel, Bool.and_eq_true, Bool.not_eq_true', Bool.eq_false_iff]
  constructor
  · rintro ⟨⟨word, equals⟩, single⟩
    rcases trees with _ | ⟨first, _ | ⟨second, rest⟩⟩
    · cases word
    · cases equals
    cases first with
    | ident label =>
        cases second with
        | punct mark joint =>
            obtain rfl : mark = '=' := by simpa [atOperator, startsMarks] using equals
            exact ⟨label, joint, rest, rfl, fun both => single ((doubled joint rest).mpr both)⟩
        | _ => cases equals
    | _ => cases word
  · rintro ⟨label, joint, rest, rfl, single⟩
    exact ⟨⟨rfl, rfl⟩, fun both => single ((doubled joint rest).mp both)⟩

theorem unseen_label {kept : Nat} : Unseen kept atLabel := by
  have later : Unseen 0 fun trees => atOperator "=" trees && !atOperator "==" trees :=
    .and (.operator rfl) (.not (.operator rfl))
  unfold atLabel
  simpa only [← Bool.and_assoc] using Unseen.second rfl .word later

namespace Argument

/-- The trees an argument was read from: its label with a `=` that may be joint, and its value. -/
def WrittenAs (argument : Argument) (segment : List Tree) : Prop :=
  match argument.label with
  | some label => ∃ joint, segment = .ident label :: .punct '=' joint :: argument.value.source
  | none => segment = argument.value.source

/-- An argument has the tokens of the segment that it was written as. -/
theorem words_of_writtenAs {argument : Argument} {segment : List Tree}
    (written : argument.WrittenAs segment) :
    Tree.wordsAll segment = Tree.wordsAll argument.source := by
  obtain ⟨label, value⟩ := argument
  cases label with
  | some label =>
      obtain ⟨joint, rfl⟩ := written
      rfl
  | none =>
      obtain rfl : segment = value.source := written
      rfl

variable {g : Grammar}

/-- What an argument is read from. It has a label exactly when a label stands at the front, and its
value is read behind that. -/
theorem of_reads {trees rest : List Tree} {argument : Argument} {taken : List Piece}
    (read : (Argument.reader g).Reads trees argument taken rest) :
    ∃ segment, trees = segment ++ rest ∧ argument.WrittenAs segment ∧
      argument.label.isSome = atLabel trees ∧
      (g.expression true).Reads (argument.value.source ++ rest) argument.value.kind
        argument.value.pieces rest := by
  unfold Argument.reader at read
  rw [reads_ahead_bind] at read
  split at read
  · rename_i labelled
    obtain ⟨label, _, _, after, word, read, _⟩ := reads_bind.mp read
    obtain ⟨_, _, _, behind, equals, read, _⟩ := reads_bind.mp read
    obtain ⟨value, _, _, _, phrase, last, _⟩ := reads_bind.mp read
    obtain ⟨rfl, _, rfl⟩ := reads_pure.mp last
    obtain ⟨rfl, expression⟩ := reads_phrase.mp phrase
    obtain ⟨joint, rfl, _⟩ := (reads_mark rfl).mp equals
    have front : trees = .ident label :: .punct '=' joint :: behind := by
      obtain ⟨conserved, read⟩ := word
      unfold Reader.word at read
      split at read
      · cases read
        rfl
      · cases read
    have whole := expression.conserved
    refine ⟨.ident label :: .punct '=' joint :: value.source, ?_, ⟨joint, rfl⟩, ?_, ?_⟩
    · rw [front, ← whole]
      rfl
    · exact labelled.symm
    · exact whole.symm ▸ expression
  · rename_i unlabelled
    obtain ⟨value, _, _, _, phrase, last, _⟩ := reads_bind.mp read
    obtain ⟨rfl, _, rfl⟩ := reads_pure.mp last
    obtain ⟨rfl, expression⟩ := reads_phrase.mp phrase
    have whole := expression.conserved
    refine ⟨value.source, whole.symm, rfl, ?_, ?_⟩
    · exact (Bool.eq_false_iff.mpr unlabelled).symm
    · exact whole.symm ▸ expression

/-- An argument is read from what it is written back as, when its value is. -/
theorem reads_source {argument : Argument} {rest : List Tree}
    (value : (g.expression true).Reads (argument.value.source ++ rest) argument.value.kind
      argument.value.pieces rest)
    (labelled : argument.label.isSome = atLabel (argument.source ++ rest)) :
    ∃ taken, (Argument.reader g).Reads (argument.source ++ rest) argument taken rest := by
  obtain ⟨label, expression⟩ := argument
  have phrase : (phrase (g.expression true)).Reads (expression.source ++ rest) expression
      expression.pieces rest := reads_phrase.mpr ⟨rfl, value⟩
  unfold Argument.reader
  simp only [reads_ahead_bind, ← labelled]
  cases label with
  | none => exact ⟨_, reads_bind.mpr ⟨_, _, _, _, phrase, reads_pure.mpr ⟨rfl, rfl, rfl⟩, rfl⟩⟩
  | some label =>
      have word : word.Reads (.ident label :: .punct '=' false :: (expression.source ++ rest)) label
          [.tree (.ident label)] (.punct '=' false :: (expression.source ++ rest)) := ⟨rfl, rfl⟩
      have equals : (operator "=").Reads (.punct '=' false :: (expression.source ++ rest)) ()
          [.mark '=' false false] (expression.source ++ rest) :=
            (reads_mark rfl).mpr ⟨false, rfl, rfl⟩
      have made : (do
          let value ← Reader.phrase (g.expression true)
          return Argument.mk (some label) value).Reads (expression.source ++ rest)
            ⟨some label, expression⟩ (expression.pieces ++ []) rest :=
        reads_bind.mpr ⟨_, _, _, _, phrase, reads_pure.mpr ⟨rfl, rfl, rfl⟩, rfl⟩
      exact ⟨_,
        reads_bind.mpr ⟨_, _, _, _, word, reads_bind.mpr ⟨_, _, _, _, equals, made, rfl⟩, rfl⟩⟩

variable (own : g.IsLocal)

include own

/-- An argument before a comma, or at the end, is read alike before another comma, or at the end. -/
theorem reads_again {argument : Argument} {trees rest other : List Tree} {taken : List Piece}
    (read : (Argument.reader g).Reads trees argument taken rest) (stops : Stops rest)
    (anew : Stops other) :
    ∃ taken, (Argument.reader g).Reads (argument.source ++ other) argument taken other := by
  obtain ⟨segment, rfl, written, labelled, value⟩ := of_reads read
  have alike : StopAlike rest other := .stops stops anew
  rw [unseen_label alike fun _ => segment.length.zero_le] at labelled
  refine reads_source ?_ ?_
  · have value : (g.expression true).Reads _ _ _ ([] ++ rest) := value
    exact own.expression true argument.value.source alike (Nat.zero_le 0) value
  · obtain ⟨label, expression⟩ := argument
    cases label with
    | none =>
        obtain rfl : segment = expression.source := written
        exact labelled
    | some label => rfl

end Argument

/-! ### Lists of arguments -/

/-- Segments with a comma between any two and possibly one at the end. -/
inductive Joined : List (List Tree) → List Tree → Prop
  | none : Joined [] []
  | last (segment : List Tree) : Joined [segment] segment
  | more (segment : List Tree) (joint : Bool) {others : List (List Tree)} {trees : List Tree}
      (later : Joined others trees) :
        Joined (segment :: others) (segment ++ .punct ',' joint :: trees)

/-- A list that was read is made of segments, each written as one of the arguments. -/
theorem joined_of_separated {g : Grammar} {values : List (Argument × Bool)} {trees : List Tree}
    (separated : Separated (Argument.reader g) values trees) :
    ∃ segments, Joined segments trees ∧
      List.Forall₂ (fun argument segment => argument.WrittenAs segment ∧
        (argument.label.isSome = true ↔ StartsWithLabel segment)) (values.map (·.1)) segments := by
  induction separated with
  | none => exact ⟨[], .none, .nil⟩
  | last some read =>
      obtain ⟨segment, rfl, written, labelled, _⟩ := Argument.of_reads read
      rw [List.append_nil] at labelled ⊢
      refine ⟨[segment], .last segment, .cons ⟨written, ?_⟩ .nil⟩
      rw [labelled, atLabel_iff]
  | more read later ih =>
      obtain ⟨segments, joined, each⟩ := ih
      obtain ⟨segment, rfl, written, labelled, _⟩ := Argument.of_reads read
      rw [unseen_label (.stops (.inr ⟨_, _, rfl⟩) (.inl rfl)) fun _ => segment.length.zero_le,
        List.append_nil] at labelled
      refine ⟨segment :: segments, .more segment _ joined, .cons ⟨written, ?_⟩ each⟩
      rw [labelled, atLabel_iff]

theorem commas_cons_cons {first second : List Tree} {rest : List (List Tree)} :
    commas (first :: second :: rest) = first ++ .punct ',' false :: commas (second :: rest) :=
  List.append_assoc _ _ _

/-- Arguments are read from what they are written back as, without a comma at the end. -/
theorem separated_written {depth : Nat} {values : List (Argument × Bool)} {trees : List Tree}
    (separated : Separated (Argument.reader (Grammar.within depth)) values trees) :
    ∃ again, again.map (·.1) = values.map (·.1) ∧
      Separated (Argument.reader (Grammar.within depth)) again
        (commas ((values.map (·.1)).map Argument.source)) := by
  have own := Grammar.isLocal_within depth
  have ends : Stops [] := .inl rfl
  have alone {argument : Argument} {trees rest : List Tree} {taken : List Piece}
      (read : (Argument.reader (Grammar.within depth)).Reads trees argument taken rest)
      (stops : Stops rest) :
      Separated (Argument.reader (Grammar.within depth)) [(argument, false)] argument.source := by
    obtain ⟨again, read⟩ := Argument.reads_again own read stops ends
    rw [List.append_nil] at read
    refine .last ?_ read
    obtain ⟨_, _, written, _, value⟩ := Argument.of_reads read
    have some := (Grammar.takes_expression depth true).shorter value
    rw [List.append_nil] at some
    intro nothing
    have none : argument.value.source = [] := (List.append_eq_nil_iff.mp nothing).2
    rw [none] at some
    exact Nat.lt_irrefl _ some
  induction separated with
  | none => exact ⟨[], rfl, .none⟩
  | last some read => exact ⟨_, rfl, alone read ends⟩
  | more read later ih =>
      rename_i trees rest argument taken joint others
      obtain ⟨again, same, separated⟩ := ih
      have stops : Stops (.punct ',' joint :: rest) := .inr ⟨_, _, rfl⟩
      cases others with
      | nil => exact ⟨[(argument, false)], rfl, alone read stops⟩
      | cons next others =>
          obtain ⟨_, read⟩ := Argument.reads_again own read stops (.inr ⟨false,
            commas (((next :: others).map (·.1)).map Argument.source), rfl⟩)
          refine ⟨(argument, true) :: again, congrArg (argument :: ·) same, ?_⟩
          have whole :
              commas ((((argument, true) :: next :: others).map (·.1)).map Argument.source) =
                argument.source ++
                  .punct ',' false :: commas (((next :: others).map (·.1)).map Argument.source) :=
            commas_cons_cons
          rw [whole]
          exact .more read separated

/-- The arguments of a marking written back, in order, with commas between them. -/
def Marking.written (marking : Marking) : List Tree :=
  commas (marking.arguments.map Argument.source)

/-- A marking is read exactly when its tokens are a list of arguments. -/
theorem parse_eq_ok {site : Site} {tokens : List Tree} {marking : Marking} :
    Marking.parse site tokens = .ok marking ↔
      ∃ values, marking = ⟨site, values.map (·.1)⟩ ∧
        Separated (Argument.reader (Grammar.within nestingLimit)) values tokens := by
  have listed (arguments : List Argument) :
      readAll Argument.listReader tokens = .ok arguments ↔
        ∃ values, arguments = values.map (·.1) ∧
          Separated (Argument.reader (Grammar.within nestingLimit)) values tokens := by
    unfold readAll Argument.listReader
    rw [run_eq_ok, found_map, Option.map_eq_some_iff]
    constructor
    · rintro ⟨⟨values, rest⟩, read, same⟩
      obtain ⟨rfl, rfl⟩ := Prod.mk.inj same
      exact ⟨values, rfl, (found_commaSeparated.mp read).2⟩
    · rintro ⟨values, rfl, separated⟩
      exact ⟨(values, []), found_commaSeparated.mpr ⟨rfl, separated⟩, rfl⟩
  unfold Marking.parse
  cases read : readAll Argument.listReader tokens with
  | error mismatch =>
      refine iff_of_false nofun ?_
      rintro ⟨values, _, separated⟩
      have found := (listed _).mpr ⟨values, rfl, separated⟩
      rw [read] at found
      cases found
  | ok arguments =>
      rw [Except.ok.injEq]
      constructor
      · rintro rfl
        obtain ⟨values, rfl, separated⟩ := (listed arguments).mp read
        exact ⟨values, rfl, separated⟩
      · rintro ⟨values, rfl, separated⟩
        have found := (listed _).mpr ⟨values, rfl, separated⟩
        rw [read] at found
        cases found
        rfl

theorem words_comma (joint : Bool) (rest : List Tree) :
    Tree.wordsAll (.punct ',' joint :: rest) = "," :: Tree.wordsAll rest := rfl

/-- The tokens of a list are those of its segments, where each is given the tokens that its argument
is written back as. -/
theorem words_of_joined (written : Argument → List Tree) {arguments : List Argument}
    {segments : List (List Tree)} {trees : List Tree} (joined : Joined segments trees)
    (each : List.Forall₂ (fun argument segment =>
      Tree.wordsAll segment = Tree.wordsAll (written argument)) arguments segments) :
    ∃ comma ∈ [[], [","]], Tree.wordsAll trees =
      Tree.wordsAll (commas (arguments.map written)) ++ comma := by
  induction joined generalizing arguments with
  | none =>
      cases each
      exact ⟨[], by simp, rfl⟩
  | last segment =>
      obtain ⟨argument, _, same, none, rfl⟩ := List.forall₂_cons_right_iff.mp each
      cases none
      exact ⟨[], by simp, by simpa [commas, separated] using same⟩
  | more segment joint later ih =>
      obtain ⟨argument, rest, same, behind, rfl⟩ := List.forall₂_cons_right_iff.mp each
      rw [Tree.wordsAll_append, same, words_comma]
      cases rest with
      | nil =>
          cases behind
          cases later
          exact ⟨[","], by simp, rfl⟩
      | cons next rest =>
          obtain ⟨last, known, words⟩ := ih behind
          refine ⟨last, known, ?_⟩
          simp only [List.map_cons, commas_cons_cons, Tree.wordsAll_append, words_comma] at words ⊢
          rw [words, List.append_assoc, List.cons_append]

/-- Lists whose arguments have the same tokens have the same tokens. -/
theorem words_of_commas {arguments : List Argument} {one other : Argument → List Tree}
    (same : ∀ argument ∈ arguments, Tree.wordsAll (one argument) = Tree.wordsAll (other argument)) :
    Tree.wordsAll (commas (arguments.map one)) = Tree.wordsAll (commas (arguments.map other)) := by
  induction arguments with
  | nil => rfl
  | cons first rest ih =>
      rw [List.forall_mem_cons] at same
      cases rest with
      | nil => exact same.1
      | cons second rest =>
          have later := ih same.2
          simp only [List.map_cons, commas_cons_cons, Tree.wordsAll_append, words_comma] at later ⊢
          rw [same.1, later]

/-- The trees an argument is printed as: its label with a `=`, and its value as that is printed. -/
def Argument.print (argument : Argument) : List Tree :=
  (match argument.label with
    | some label => .ident label :: op "="
    | none => []) ++ argument.value.print

/-- An argument is printed with its tokens, if its value is. -/
theorem Argument.words_print {argument : Argument}
    (kept : Tree.wordsAll argument.value.print = Tree.wordsAll argument.value.source) :
    Tree.wordsAll argument.print = Tree.wordsAll argument.source := by
  obtain ⟨label, value⟩ := argument
  cases label with
  | none => exact kept
  | some label =>
      unfold Argument.print Argument.source
      simp only [Tree.wordsAll_append]
      rw [kept]

/-- **Argument lists are conserved.** Where a list of arguments is read, writing the arguments back
in order, with commas between them, gives its tokens up to a comma at the end, whether values are
written as the trees they took or as they are printed, provided that printing keeps their tokens.
What was written is read as the same arguments. And an argument has a label exactly when the trees
that it was read from begin with one. -/
theorem Marking.parse_conserves {site : Site} {tokens : List Tree} {marking : Marking}
    (read : Marking.parse site tokens = .ok marking) :
    (∃ comma ∈ [[], [","]], Tree.wordsAll tokens = Tree.wordsAll marking.written ++ comma) ∧
      ((∀ argument ∈ marking.arguments,
          Tree.wordsAll argument.value.print = Tree.wordsAll argument.value.source) →
        ∃ comma ∈ [[], [","]], Tree.wordsAll tokens =
          Tree.wordsAll (commas (marking.arguments.map Argument.print)) ++ comma) ∧
      Marking.parse site marking.written = .ok marking ∧
      ∃ segments, Joined segments tokens ∧
        List.Forall₂ (fun argument segment => argument.WrittenAs segment ∧
          (argument.label.isSome = true ↔ StartsWithLabel segment)) marking.arguments segments := by
  obtain ⟨values, rfl, separated⟩ := parse_eq_ok.mp read
  obtain ⟨segments, joined, each⟩ := joined_of_separated separated
  obtain ⟨comma, known, words⟩ := words_of_joined Argument.source joined
    (each.imp fun _ _ own => Argument.words_of_writtenAs own.1)
  refine ⟨⟨comma, known, words⟩, fun prints => ⟨comma, known, ?_⟩, ?_, segments, joined, each⟩
  · have printed := words_of_commas fun argument member =>
      Argument.words_print (prints argument member)
    rw [printed]
    exact words
  · obtain ⟨again, same, written⟩ := separated_written separated
    exact parse_eq_ok.mpr ⟨again, by rw [same], written⟩

/-- Three arguments, the first and the last with a label, which for the last is a keyword. The
second is a comparison. -/
def mixedArguments : List Tree :=
  [name "description"] ++ op "=" ++ [string "n"] ++ op "," ++
    [name "a"] ++ op "==" ++ [name "b"] ++ op "," ++
    [name "type"] ++ op "=" ++ call [name "pair"] [[.literal "1"], [.literal "2"]] ++ op ","

/-- The list with a keyword as a label, a comparison and a comma at the end gives back its
tokens. -/
theorem Marking.parse_conserves_of_mixed :
    ∃ marking, Marking.parse ⟨.tool, false⟩ mixedArguments = .ok marking ∧
      marking.arguments.map (·.label.isSome) = [true, false, true] ∧
      (∃ comma ∈ [[], [","]],
        Tree.wordsAll mixedArguments = Tree.wordsAll marking.written ++ comma) ∧
      Marking.parse ⟨.tool, false⟩ marking.written = .ok marking := by
  have labels : (match Marking.parse ⟨.tool, false⟩ mixedArguments with
      | .ok marking => marking.arguments.map (·.label.isSome)
      | .error _ => []) = [true, false, true] := by decide +kernel
  cases read : Marking.parse ⟨.tool, false⟩ mixedArguments with
  | error error =>
      rw [read] at labels
      cases labels
  | ok marking =>
      rw [read] at labels
      obtain ⟨words, _, again, _⟩ := Marking.parse_conserves read
      exact ⟨marking, rfl, labels, words, again⟩

end Toolsmith
