import Mathlib
import Toolsmith.Proofs.Source.Printing

/-! # The rules of reprinting

Code that was read is printed as it was written but for a few rules. `Reprints` states them on token
trees alone, without reference to how code is read: marks may be spaced differently, groups are
reprinted inside, a list in angle brackets has its lifetimes first, a number that names a field is
written as an index, a type that stands for a parameter gets a blank pattern, and what is empty
goes: a parameter list, the bounds behind a colon, the conditions behind `where`.

A reader is *faithful* when the pieces that it takes are printed by these rules (`Reader.Faithful`).
The combinators keep this.
-/

namespace Toolsmith
namespace Source

/-- An element of a list in angle brackets: its trees as written and as printed, whether it is a
lifetime, and the spacing of the comma behind it, if there is one. -/
structure AngleElement where
  written : List Tree
  printed : List Tree
  isLifetime : Bool
  comma : Option Bool

namespace AngleElement

/-- The trees of an element with its comma. -/
def source (element : AngleElement) : List Tree :=
  element.written ++ (element.comma.map fun joint => Tree.punct ',' joint).toList

/-- What the printing of a list goes by. -/
def entry (element : AngleElement) : List Tree × Bool × Bool :=
  (element.printed, element.isLifetime, element.comma.isSome)

end AngleElement

/-- The trees on the right are those on the left, printed again. -/
inductive Reprints : List Tree → List Tree → Prop
  | nil : Reprints [] []
  | append {first second first' second' : List Tree} :
      Reprints first first' → Reprints second second' →
        Reprints (first ++ second) (first' ++ second')
  | tree (tree : Tree) : Reprints [tree] [tree]
  | mark (symbol : Char) (written printed : Bool) :
      Reprints [.punct symbol written] [.punct symbol printed]
  | group (delimiter : Delimiter) {content content' : List Tree} :
      Reprints content content' → Reprints [.group delimiter content] [.group delimiter content']
  /-- Lifetimes are printed first. -/
  | angle (opening closing : Bool) (elements : List AngleElement) :
      (∀ element ∈ elements, Reprints element.written element.printed) →
        Reprints (.punct '<' opening :: elements.flatMap AngleElement.source ++
            [.punct '>' closing])
          (op "<" ++ Grammar.lifetimesFirst (elements.map AngleElement.entry) ++ op ">")
  | noParameters (opening closing : Bool) :
      Reprints [.punct '<' opening, .punct '>' closing] []
  | noBounds (subject : Tree) (joint : Bool) : Reprints [subject, .punct ':' joint] [subject]
  | noConditions : Reprints [name "where"] []
  /-- A parameter without a pattern gets a blank one. -/
  | blank : Reprints [] (name "_" :: op ":")
  /-- A number that names a field is printed as its index. -/
  | index {text index : String} :
      Grammar.fieldIndex? text = some index → Reprints [.literal text] [.literal index]
  /-- A number behind a point, such as `0.1`, is printed as the indices it stands for. -/
  | indices {text : String} {printed : List Tree} {dangling : Bool} :
      Grammar.tupleIndices? text = some (printed, dangling) → Reprints [.literal text] printed

namespace Reprints

theorem refl (trees : List Tree) : Reprints trees trees := by
  induction trees with
  | nil => exact .nil
  | cons tree rest ih => exact .append (.tree tree) ih

theorem cons {first second : List Tree} (tree : Tree) (rest : Reprints first second) :
    Reprints (tree :: first) (tree :: second) :=
  .append (.tree tree) rest

end Reprints

namespace Reader

open Piece

variable {α β σ : Type}

/-- What the reader takes is printed by the rules of reprinting. The instances follow the shape of a
reader, so that those of the grammar are found by its definition. -/
class Faithful (reader : Reader α) : Prop where
  reprints : ∀ {trees rest : List Tree} {value : α} {taken : List Piece},
    reader.Reads trees value taken rest → Reprints (sourceAll taken) (printAll taken)

instance faithful_pure (value : α) : Faithful (pure value : Reader α) where
  reprints read := by
    obtain ⟨_, rfl, _⟩ := reads_pure.mp read
    exact .nil

theorem Faithful.bind {first : Reader α} {next : α → Reader β} (before : Faithful first)
    (after : ∀ value, Faithful (next value)) : Faithful (first >>= next) where
  reprints read := by
    obtain ⟨found, one, two, _, early, late, rfl⟩ := reads_bind.mp read
    rw [sourceAll_append, printAll_append]
    exact .append (before.reprints early) ((after found).reprints late)

instance faithful_bind {first : Reader α} {next : α → Reader β} [before : Faithful first]
    [after : ∀ value, Faithful (next value)] : Faithful (first >>= next) :=
  before.bind after

instance faithful_ahead : Faithful ahead where
  reprints read := by
    obtain ⟨_, rfl, _⟩ := reads_ahead.mp read
    exact .nil

theorem Faithful.ite {c : Prop} [Decidable c] {yes no : Reader α} (whenever : Faithful yes)
    (otherwise : Faithful no) : Faithful (if c then yes else no) := by
  split
  · exact whenever
  · exact otherwise

instance faithful_ite {c : Prop} [Decidable c] {yes no : Reader α} [whenever : Faithful yes]
    [otherwise : Faithful no] : Faithful (if c then yes else no) :=
  whenever.ite otherwise

theorem faithful_of_fails {reader : Reader α}
    (fails : ∀ trees value taken rest, ¬ reader.Reads trees value taken rest) : Faithful reader :=
  ⟨fun read => absurd read (fails _ _ _ _)⟩

instance faithful_missing (what : String) : Faithful (missing what : Reader α) :=
  faithful_of_fails fun _ _ _ _ ⟨_, read⟩ => by cases read

instance faithful_fail (mismatch : Mismatch) : Faithful (fail mismatch : Reader α) :=
  faithful_of_fails fun _ _ _ _ ⟨_, read⟩ => by cases read

/-! ### Single trees -/

/-- A reader that takes single trees as they are written. -/
theorem faithful_of_tree {reader : Reader α}
    (takes : ∀ {trees value taken rest}, reader.Reads trees value taken rest →
      ∃ tree, taken = [.tree tree]) : Faithful reader where
  reprints read := by
    obtain ⟨tree, rfl⟩ := takes read
    exact .tree tree

instance faithful_tree : Faithful tree := by
  refine faithful_of_tree fun ⟨_, read⟩ => ?_
  unfold tree at read
  split at read
  · cases read
  · cases read
    exact ⟨_, rfl⟩

instance faithful_word : Faithful word :=
  faithful_of_tree fun read => ⟨_, (reads_word.mp read).2⟩

instance faithful_keyword (text : String) : Faithful (keyword text) :=
  faithful_of_tree fun read => ⟨_, (reads_keyword.mp read).2⟩

instance faithful_anyGroup (what : String) : Faithful (anyGroup what) :=
  faithful_of_tree fun read => ⟨_, (reads_anyGroup.mp read).2⟩

theorem reads_lifetime {trees rest : List Tree} {value : Ident} {taken : List Piece} :
    lifetime.Reads trees value taken rest ↔
      trees = .lifetime value :: rest ∧ taken = [.tree (.lifetime value)] := by
  constructor
  · rintro ⟨_, read⟩
    unfold lifetime at read
    split at read
    · cases read
      exact ⟨rfl, rfl⟩
    · cases read
  · rintro ⟨rfl, rfl⟩
    exact ⟨rfl, rfl⟩

instance faithful_lifetime : Faithful lifetime :=
  faithful_of_tree fun read => ⟨_, (reads_lifetime.mp read).2⟩

instance faithful_literalText : Faithful literalText := by
  refine faithful_of_tree fun ⟨_, read⟩ => ?_
  unfold literalText at read
  split at read
  · cases read
    exact ⟨_, rfl⟩
  · cases read

/-! ### Operators -/

/-- The marks of an operator keep their order. -/
theorem reprints_of_takeMarks {text : List Char} {trees : List Tree} {reading : Reading Unit trees}
    (found : takeMarks text trees = some reading) :
    Reprints (sourceAll reading.taken) (printAll reading.taken) := by
  induction text generalizing trees with
  | nil =>
      cases found
      exact .nil
  | cons mark others ih =>
      rcases trees with _ | ⟨head, more⟩
      · cases others <;> cases found
      cases head with
      | punct symbol joint =>
          cases others with
          | nil =>
              rw [takeMarks] at found
              split at found
              · cases found
                exact .mark mark joint false
              · cases found
          | cons next others =>
              rw [takeMarks] at found
              split at found
              · obtain ⟨later, again, rfl⟩ := Option.map_eq_some_iff.mp found
                exact .cons _ (ih again)
              · cases found
      | _ => cases others <;> cases found

instance faithful_operator (text : String) : Faithful (operator text) where
  reprints read := by
    obtain ⟨_, found⟩ := reads_operator.mp read
    exact reprints_of_takeMarks found

instance faithful_keyword? (text : String) : Faithful (keyword? text) := by
  unfold keyword?
  infer_instance

instance faithful_operator? (text : String) : Faithful (operator? text) := by
  unfold operator?
  infer_instance

instance faithful_lifetime? : Faithful lifetime? := by
  unfold lifetime?
  infer_instance

instance faithful_ident : Faithful ident := by
  unfold ident
  infer_instance

/-! ### Combinators -/

instance faithful_discard {reader : Reader α} [inner : Faithful reader] :
    Faithful (discard reader) where
  reprints read := by
    obtain ⟨found, read⟩ := reads_discard.mp read
    exact inner.reprints read

instance faithful_map {reader : Reader α} [Faithful reader] (function : α → β) :
    Faithful (function <$> reader) :=
  inferInstanceAs (Faithful (reader >>= fun value => pure (function value)))

instance faithful_phrase {reader : Reader α} [inner : Faithful reader] :
    Faithful (phrase reader) where
  reprints read := inner.reprints (reads_phrase.mp read).2

instance faithful_group {delimiter : Delimiter} {reader : Reader α} [inner : Faithful reader] :
    Faithful (group delimiter reader) where
  reprints read := by
    obtain ⟨content, pieces, _, rfl, inside⟩ := reads_group.mp read
    exact .group delimiter (inner.reprints inside)

instance faithful_succeeds (reader : Reader α) : Faithful (succeeds reader) where
  reprints read := by
    obtain ⟨_, rfl, _⟩ := reads_succeeds.mp read
    exact .nil

instance faithful_beyond (reader : Reader α) : Faithful (beyond reader) where
  reprints := by
    rintro _ _ _ _ ⟨_, read⟩
    cases read
    exact .nil

/-- What is printed as it was written is reprinted. -/
theorem faithful_asWritten (reader : Reader α) : Faithful (asWritten reader) where
  reprints := by
    rintro _ _ _ _ ⟨_, read⟩
    unfold asWritten at read
    split at read
    · cases read
      rw [sourceAll_ofTrees, printAll_ofTrees]
      exact .refl _
    · cases read

instance faithful_asWrittenIf {reader : Reader α} (raw : α → Bool) [inner : Faithful reader] :
    Faithful (asWrittenIf raw reader) where
  reprints := by
    rintro _ _ _ _ ⟨conserved, read⟩
    unfold asWrittenIf at read
    split at read
    · rename_i reading found
      split at read
      · exact (faithful_asWritten reader).reprints ⟨conserved, read⟩
      · cases read
        exact inner.reprints ⟨conserved, found⟩
    · cases read

/-- A reader that prints what it takes as something else is faithful when the rules allow it. -/
theorem faithful_printingAs {reader : Reader α} {printed : α → List Tree}
    (allowed : ∀ {trees rest value taken}, reader.Reads trees value taken rest →
      Reprints (sourceAll taken) (printed value)) : Faithful (printingAs reader printed) where
  reprints read := by
    obtain ⟨written, rfl, inside⟩ := reads_printingAs.mp read
    simpa [source, print] using allowed inside

instance faithful_loop {step : σ → Reader (σ ⊕ α)} [each : ∀ state, Faithful (step state)]
    (state : σ) : Faithful (loop step state) where
  reprints := by
    intro trees _ _ _ read
    have within : ∀ steps state, Faithful (loopWithin step steps state) := by
      intro steps
      induction steps with
      | zero => exact fun _ => faithful_fail _
      | succ steps ih =>
          intro state
          rw [loopWithin_succ]
          have after : ∀ result, Faithful (afterRound (loopWithin step steps) result)
            | .inl next => ih next
            | .inr value => faithful_pure value
          infer_instance
    exact (within (trees.length + 1) state).reprints read

instance faithful_many {more : List Tree → Bool} {reader : Reader α} [Faithful reader] :
    Faithful (many more reader) := by
  unfold many
  infer_instance

instance faithful_commaSeparated {reader : Reader α} [Faithful reader] :
    Faithful (commaSeparated reader) := by
  unfold commaSeparated
  infer_instance

instance faithful_untilAngle {reader : Reader α} [Faithful reader] :
    Faithful (Grammar.untilAngle reader) := by
  unfold Grammar.untilAngle
  infer_instance

instance faithful_forIn {γ : Type} {round : γ → σ → Reader (ForInStep σ)}
    [each : ∀ value state, Faithful (round value state)] (values : List γ) (state : σ) :
    Faithful (forIn values state round) := by
  induction values generalizing state with
  | nil =>
      rw [List.forIn_nil]
      infer_instance
  | cons value values ih =>
      rw [List.forIn_cons]
      refine (each value state).bind fun result => ?_
      cases result with
      | done final => exact faithful_pure final
      | yield next => exact ih next

end Reader

end Source
end Toolsmith
