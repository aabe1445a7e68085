import Mathlib
import Toolsmith.Source.Grammar

/-! # Taking an attribute off a declaration

What a reader finds is its value and the trees that it leaves (`Reader.found`), and of two readers
in sequence the second only sees what the first left. An attribute is two trees, so that one of the
attributes of a declaration can be taken off its code; what is left reads as the same declaration
without that attribute (`read?_withoutAttribute`).
-/

namespace Toolsmith
namespace Source

namespace Reader

variable {α β σ : Type}

/-- The value that a reader finds, and the trees that it leaves. -/
def found (reader : Reader α) (trees : List Tree) : Option (α × List Tree) :=
  match reader trees with
  | .ok reading => some (reading.value, reading.rest)
  | .error _ => none

theorem found_ahead (trees : List Tree) : ahead.found trees = some (trees, trees) := rfl

theorem found_pure (value : α) (trees : List Tree) :
    (pure value : Reader α).found trees = some (value, trees) := rfl

/-- What two readers in sequence find is found by the second where the first left off. -/
theorem found_bind (reader : Reader α) (next : α → Reader β) (trees : List Tree) :
    (reader >>= next).found trees =
      (reader.found trees).bind fun result => (next result.1).found result.2 := by
  change (Reader.bind reader next).found trees = _
  unfold Reader.bind found
  dsimp only
  cases reader trees with
  | error mismatch => rfl
  | ok one =>
      dsimp only [Option.bind_some]
      cases next one.value one.rest <;> rfl

theorem found_map (function : α → β) (reader : Reader α) (trees : List Tree) :
    (function <$> reader).found trees =
      (reader.found trees).map fun result => (function result.1, result.2) := by
  change (reader >>= fun value => pure (function value)).found trees = _
  rw [found_bind]
  cases reader.found trees <;> rfl

/-- What is read alone is what is found and leaves nothing. -/
theorem run_eq_ok {reader : Reader α} {trees : List Tree} {value : α} :
    run reader trees = .ok value ↔ reader.found trees = some (value, []) := by
  unfold run found
  cases reader trees with
  | error mismatch => simp
  | ok reading =>
      obtain ⟨result, taken, rest, conserved⟩ := reading
      cases rest <;> simp

/-- A group is found when all its content is read. -/
theorem found_group_cons (delimiter : Delimiter) (inner : Reader α) (content rest : List Tree) :
    (group delimiter inner).found (.group delimiter content :: rest) =
      (inner.found content).bind fun result =>
        if result.2.isEmpty then some (result.1, rest) else none := by
  unfold group found
  simp only [↓reduceDIte]
  cases inner content with
  | error mismatch => rfl
  | ok reading =>
      obtain ⟨value, taken, left, conserved⟩ := reading
      cases left <;> rfl

/-- A group is found where all of its content is read. -/
theorem found_group {delimiter : Delimiter} {inner : Reader α}
    {trees rest : List Tree} {value : α} :
    (group delimiter inner).found trees = some (value, rest) ↔
      ∃ content, trees = .group delimiter content :: rest ∧
        inner.found content = some (value, []) := by
  constructor
  · intro read
    rcases trees with _ | ⟨tree, others⟩
    · cases read
    cases tree with
    | group given content =>
        by_cases same : given = delimiter
        · subst same
          rw [found_group_cons] at read
          obtain ⟨⟨result, left⟩, inside, whole⟩ := Option.bind_eq_some_iff.mp read
          cases left with
          | nil =>
              cases whole
              exact ⟨content, rfl, inside⟩
          | cons head tail => cases whole
        · simp [found, group, same] at read
    | _ => cases read
  · intro ⟨content, whole, inside⟩
    rw [whole, found_group_cons, inside]
    rfl

/-- An operator of one mark is found whatever follows it. -/
theorem found_mark {text : String} {mark : Char} (single : text.toList = [mark])
    {trees rest : List Tree} {result : Unit} :
    (operator text).found trees = some (result, rest) ↔
      ∃ joint, trees = .punct mark joint :: rest := by
  unfold operator found
  rw [single]
  rcases trees with _ | ⟨tree, others⟩
  · simp [takeMarks]
  cases tree with
  | punct given joint =>
      by_cases same : given = mark
      · simp [takeMarks, same]
      · simp [takeMarks, same]
  | _ => simp [takeMarks]

section Repetition

variable (more : List Tree → Bool) (reader : Reader α)

/-- Reading again and again while a condition on the trees ahead holds. -/
inductive Repeats : List α → List Tree → List Tree → Prop
  | stop {trees : List Tree} (ends : more trees = false) : Repeats [] trees trees
  | step {trees next rest : List Tree} {value : α} {values : List α} (goes : more trees = true)
      (first : reader.found trees = some (value, next)) (others : Repeats values next rest) :
      Repeats (value :: values) trees rest

/-- One round of a repetition. -/
def repetitionStep (values : List α) : Reader (List α ⊕ List α) := do
  if more (← ahead) then return .inl ((← reader) :: values)
  else return .inr values

/-- A loop finds what its first round does, and then the rounds after it. -/
theorem found_loopWithin (step : σ → Reader (σ ⊕ α)) (steps : Nat) (state : σ) (trees : List Tree) :
    (loopWithin step (steps + 1) state).found trees =
      ((step state).found trees).bind fun result =>
        match result.1 with
        | .inl state => (loopWithin step steps state).found result.2
        | .inr value => some (value, result.2) := by
  rw [loopWithin, found_bind]
  congr 1
  funext result
  cases result.1 <;> rfl

/-- A round of a repetition reads one value more, or ends. -/
theorem found_repetitionStep (values : List α) (trees : List Tree) :
    (repetitionStep more reader values).found trees =
      if more trees then
        (reader.found trees).map fun result => (.inl (result.1 :: values), result.2)
      else some (.inr values, trees) := by
  unfold repetitionStep
  rw [found_bind, found_ahead, Option.bind_some]
  cases more trees with
  | false => rfl
  | true => exact found_map (fun value => Sum.inl (value :: values)) reader trees

variable {more reader} {values : List α} {trees rest : List Tree}

theorem repeats_of_stop (ends : more trees = false) :
    Repeats more reader values trees rest ↔ values = [] ∧ rest = trees := by
  constructor
  · intro repeats
    cases repeats with
    | stop => exact ⟨rfl, rfl⟩
    | step goes =>
        rw [ends] at goes
        cases goes
  · intro ⟨nothing, same⟩
    subst nothing same
    exact .stop ends

theorem repeats_of_more (goes : more trees = true) :
    Repeats more reader values trees rest ↔ ∃ value next others,
      values = value :: others ∧ reader.found trees = some (value, next) ∧
        Repeats more reader others next rest := by
  constructor
  · intro repeats
    cases repeats with
    | stop ends =>
        rw [goes] at ends
        cases ends
    | step _ first others => exact ⟨_, _, _, rfl, first, others⟩
  · intro ⟨value, next, others, same, first, later⟩
    subst same
    exact .step goes first later

variable (shortens : ∀ {trees value rest}, reader.found trees = some (value, rest) →
  rest.length < trees.length)

include shortens

/-- Where every round takes something, all rounds fit into as many steps as there are trees. -/
theorem found_rounds {steps : Nat} (enough : trees.length < steps) (earlier result : List α) :
    (loopWithin (repetitionStep more reader) steps earlier).found trees = some (result, rest) ↔
      ∃ values, result = values.reverse ++ earlier ∧ Repeats more reader values trees rest := by
  induction steps generalizing trees earlier with
  | zero => cases enough
  | succ steps ih =>
      rw [found_loopWithin, found_repetitionStep]
      cases ahead : more trees with
      | false =>
          simp only [repeats_of_stop ahead]
          constructor
          · intro read
            cases read
            exact ⟨[], rfl, rfl, rfl⟩
          · intro ⟨values, same, nothing, kept⟩
            subst nothing same kept
            rfl
      | true =>
          simp only [repeats_of_more ahead]
          cases first : reader.found trees with
          | none => simp
          | some taken =>
              obtain ⟨value, next⟩ := taken
              have fits : next.length < steps := by
                have shorter := shortens first
                omega
              refine (ih fits (value :: earlier)).trans ?_
              constructor
              · intro ⟨others, same, later⟩
                refine ⟨value :: others, ?_, value, next, others, rfl, rfl, later⟩
                rw [same, List.reverse_cons, List.append_assoc]
                rfl
              · intro ⟨values, same, value, next, others, whole, taken, later⟩
                cases taken
                refine ⟨others, ?_, later⟩
                rw [same, whole, List.reverse_cons, List.append_assoc]
                rfl

/-- What is read again and again, where every round takes something. -/
theorem found_many :
    (many more reader).found trees = some (values, rest) ↔
      Repeats more reader values trees rest := by
  change (List.reverse <$> loop (repetitionStep more reader) []).found trees = _ ↔ _
  rw [found_map, Option.map_eq_some_iff]
  constructor
  · intro ⟨⟨result, left⟩, read, same⟩
    obtain ⟨found, reversed, repeats⟩ :=
      (found_rounds shortens trees.length.lt_succ_self [] _).mp read
    cases same
    rw [reversed, List.append_nil, List.reverse_reverse]
    exact repeats
  · intro repeats
    have read := (found_rounds shortens trees.length.lt_succ_self [] _).mpr ⟨values, rfl, repeats⟩
    refine ⟨_, read, ?_⟩
    rw [List.append_nil, List.reverse_reverse]

end Repetition

end Reader

open Reader

/-- The code of a declaration without one of its attributes, each of which is two trees. -/
def withoutAttribute (index : Nat) (code : List Tree) : List Tree :=
  code.take (2 * index) ++ code.drop (2 * index + 2)

theorem withoutAttribute_cons (index : Nat) (mark content : Tree) (code : List Tree) :
    withoutAttribute (index + 1) (mark :: content :: code) =
      mark :: content :: withoutAttribute index code := rfl

namespace Grammar

variable {g : Grammar}

/-- An attribute is found in a mark and a group in brackets. -/
theorem found_outerAttribute {trees rest : List Tree} {attr : Attribute} :
    g.outerAttribute.found trees = some (attr, rest) ↔
      ∃ joint content, trees = .punct '#' joint :: .group .bracket content :: rest ∧
        (g.attributeContent false).found content = some (attr, []) := by
  have single : "#".toList = ['#'] := rfl
  unfold outerAttribute
  rw [found_bind, Option.bind_eq_some_iff]
  constructor
  · intro ⟨⟨_, middle⟩, marked, bracketed⟩
    obtain ⟨joint, rfl⟩ := (found_mark single).mp marked
    obtain ⟨content, rfl, inside⟩ := found_group.mp bracketed
    exact ⟨joint, content, rfl, inside⟩
  · intro ⟨joint, content, whole, inside⟩
    exact ⟨((), _), (found_mark single).mpr ⟨joint, whole⟩, found_group.mpr ⟨content, rfl, inside⟩⟩

theorem found_outerAttributes {trees rest : List Tree} {attrs : List Attribute} :
    g.outerAttributes.found trees = some (attrs, rest) ↔
      Repeats (atOperator "#") g.outerAttribute attrs trees rest := by
  apply found_many
  intro trees attr rest read
  obtain ⟨joint, content, rfl, _⟩ := found_outerAttribute.mp read
  simp only [List.length_cons]
  omega

/-- Attributes are read as they are without one of them. -/
theorem repeats_withoutAttribute {before after : List Attribute} {attr : Attribute}
    {trees rest : List Tree}
    (read : Repeats (atOperator "#") g.outerAttribute (before ++ attr :: after) trees rest) :
    Repeats (atOperator "#") g.outerAttribute (before ++ after)
      (withoutAttribute before.length trees) rest := by
  induction before generalizing trees with
  | nil =>
      cases read with
      | step goes first others =>
          obtain ⟨joint, content, rfl, _⟩ := found_outerAttribute.mp first
          exact others
  | cons earlier before ih =>
      cases read with
      | step goes first others =>
          obtain ⟨joint, content, rfl, inside⟩ := found_outerAttribute.mp first
          rw [List.length_cons, withoutAttribute_cons]
          refine .step rfl ?_ (ih others)
          exact found_outerAttribute.mpr ⟨joint, content, rfl, inside⟩

end Grammar

theorem read?_eq_some_iff {α : Type} {reader : Grammar → Reader α} {trees : List Tree} {value : α} :
    read? reader trees = some value ↔
      (reader (Grammar.within nestingLimit)).found trees = some (value, []) := by
  unfold read? readAll
  rw [← run_eq_ok]
  cases run (reader (Grammar.within nestingLimit)) trees <;> simp [Except.toOption]

/-- **Taking an attribute off.** A declaration whose code loses one of its attributes reads as the
same declaration without it. -/
theorem read?_withoutAttribute {code : List Tree} {declaration : Declaration}
    {before after : List Attribute} {attr : Attribute}
    (written : read? Grammar.declaration code = some declaration)
    (attached : declaration.attrs = before ++ attr :: after) :
    read? Grammar.declaration (withoutAttribute before.length code) =
      some { declaration with attrs := before ++ after } := by
  rw [read?_eq_some_iff] at written ⊢
  unfold Grammar.declaration at written ⊢
  simp only [found_bind, Option.bind_eq_some_iff] at written ⊢
  obtain
    ⟨⟨attrs, behind⟩, listed, ⟨vis, later⟩, seen, ⟨sig, last⟩, signed, ⟨_, left⟩, ended, made⟩ :=
    written
  obtain ⟨rfl, rfl⟩ := Prod.mk.inj (Option.some.inj made)
  change attrs = _ at attached
  rw [Grammar.found_outerAttributes, attached] at listed
  have others := Grammar.repeats_withoutAttribute listed
  exact ⟨_, Grammar.found_outerAttributes.mpr others, _, seen, _, signed, _, ended, rfl⟩

end Source
end Toolsmith
