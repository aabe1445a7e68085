import Mathlib
import Toolsmith.Proofs.Source.FaithfulGrammar
import Toolsmith.Proofs.Source.Follow.Relation

/-! # Lists are read again

Elements between commas, up to the end of a group or to a closing angle bracket. In angle brackets
lifetimes are printed first, and one that was last gains a comma there (`Grammar.ordered`). What is
printed is read again as the elements in that order.
-/

namespace Toolsmith
namespace Source

open Piece Reader

namespace Grammar

/-! ### The order of generic arguments and parameters -/

section Ordered

variable {α : Type} {print : α → List Tree} {isLifetime : α → Bool} {elements : List (α × Bool)}

/-- Elements, each with whether a comma follows it, are separated when only the last may have none.
-/
def Commas (elements : List (α × Bool)) : Prop := ∀ element ∈ elements.dropLast, element.2 = true

/-- The elements with the lifetimes first. A lifetime has a comma where another element follows. -/
def ordered (isLifetime : α → Bool) (elements : List (α × Bool)) : List (α × Bool) :=
  let lifetimes := elements.filter (isLifetime ·.1)
  let others := elements.filter (!isLifetime ·.1)
  if others.isEmpty then lifetimes else lifetimes.map (fun element => (element.1, true)) ++ others

/-- An element and the comma behind it. -/
def printElement (print : α → List Tree) (element : α × Bool) : List Tree :=
  print element.1 ++ if element.2 then op "," else []

theorem commas_append {front : List (α × Bool)} {last : α × Bool} :
    Commas (front ++ [last]) ↔ ∀ element ∈ front, element.2 = true := by
  rw [Commas, List.dropLast_concat]

/-- All commas are there, or the elements are some with commas and a last one without. -/
theorem Commas.cases (separated : Commas elements) :
    (∀ element ∈ elements, element.2 = true) ∨ ∃ front last,
      elements = front ++ [(last, false)] ∧ ∀ element ∈ front, element.2 = true := by
  rcases List.eq_nil_or_concat elements with rfl | ⟨front, ⟨last, comma⟩, rfl⟩
  · exact .inl (by simp)
  · rw [List.concat_eq_append] at *
    rw [commas_append] at separated
    cases comma with
    | true => exact .inl (by simpa [or_imp, forall_and] using separated)
    | false => exact .inr ⟨front, last, rfl, separated⟩

theorem Commas.tail {element : α × Bool} (separated : Commas (element :: elements)) :
    Commas elements := by
  cases elements with
  | nil => simp [Commas]
  | cons second elements => exact fun other member => separated other (.tail _ member)

theorem Commas.cons {element : α × Bool} (separated : Commas elements)
    (comma : element.2 = true) : Commas (element :: elements) := by
  cases elements with
  | nil => simp [Commas]
  | cons second elements =>
      intro first member
      rw [List.dropLast_cons_cons] at member
      rcases List.mem_cons.mp member with rfl | member
      · exact comma
      · exact separated first member

theorem Commas.last {element : α × Bool} (separated : Commas (element :: elements))
    (none : element.2 = false) : elements = [] := by
  cases elements with
  | nil => rfl
  | cons second elements => rw [separated element (.head _)] at none; cases none

theorem Commas.of_all (all : ∀ element ∈ elements, element.2 = true) : Commas elements :=
  fun element member => all element (List.mem_of_mem_dropLast member)

theorem all_filter (all : ∀ element ∈ elements, element.2 = true) (test : α × Bool → Bool) :
    ∀ element ∈ elements.filter test, element.2 = true :=
  fun element member => all element (List.mem_filter.mp member).1

theorem map_comma (all : ∀ element ∈ elements, element.2 = true) :
    elements.map (fun element => (element.1, true)) = elements := by
  rw [List.map_congr_left (g := id) fun element member => ?_, List.map_id]
  exact Prod.ext rfl (all element member).symm

/-- Where all elements have a comma the lifetimes are only moved. -/
theorem ordered_of_all (all : ∀ element ∈ elements, element.2 = true) :
    ordered isLifetime elements =
      elements.filter (isLifetime ·.1) ++ elements.filter (!isLifetime ·.1) := by
  have lifetimes := map_comma (all_filter all (isLifetime ·.1))
  unfold ordered
  dsimp only
  rw [lifetimes]
  split
  · rename_i none
    rw [List.isEmpty_iff.mp none, List.append_nil]
  · rfl

/-- A lifetime that was last without a comma gains one where another element is moved behind it. -/
theorem ordered_concat {front : List (α × Bool)} {last : α}
    (all : ∀ element ∈ front, element.2 = true) :
    ordered isLifetime (front ++ [(last, false)]) =
      if isLifetime last then
        if (front.filter (!isLifetime ·.1)).isEmpty then
          front.filter (isLifetime ·.1) ++ [(last, false)]
        else front.filter (isLifetime ·.1) ++ [(last, true)] ++ front.filter (!isLifetime ·.1)
      else front.filter (isLifetime ·.1) ++ front.filter (!isLifetime ·.1) ++ [(last, false)] := by
  have lifetimes := map_comma (all_filter all (isLifetime ·.1))
  unfold ordered
  dsimp only
  rw [List.filter_append, List.filter_append, List.filter_singleton, List.filter_singleton]
  cases kind : isLifetime last with
  | true =>
      rw [Bool.not_true, cond_false, cond_true, List.append_nil, List.map_append, lifetimes]
      rfl
  | false => simp [lifetimes]

theorem commas_ordered (separated : Commas elements) :
    Commas (ordered isLifetime elements) := by
  rcases separated.cases with all | ⟨front, last, rfl, all⟩
  · rw [ordered_of_all all]
    refine .of_all fun element member => ?_
    rcases List.mem_append.mp member with member | member
    · exact all_filter all _ element member
    · exact all_filter all _ element member
  · rw [ordered_concat all]
    split
    · split
      · exact commas_append.mpr (all_filter all _)
      · refine .of_all fun element member => ?_
        simp only [List.mem_append, List.mem_singleton] at member
        rcases member with (member | rfl) | member
        · exact all_filter all _ element member
        · rfl
        · exact all_filter all _ element member
    · refine commas_append.mpr fun element member => ?_
      rcases List.mem_append.mp member with member | member
      · exact all_filter all _ element member
      · exact all_filter all _ element member

/-- What is in order already stays so. -/
theorem ordered_ordered (isLifetime : α → Bool) (elements : List (α × Bool)) :
    ordered isLifetime (ordered isLifetime elements) = ordered isLifetime elements := by
  unfold ordered
  dsimp only
  split
  · rename_i none
    rw [List.isEmpty_iff] at none
    have lifetimes : (elements.filter (isLifetime ·.1)).filter (!isLifetime ·.1) = [] := by
      rw [List.filter_filter, List.filter_eq_nil_iff]
      simp
    rw [if_pos (List.isEmpty_iff.mpr lifetimes), List.filter_filter]
    simp
  · rename_i some
    have lifetimes (commas : List (α × Bool))
      (all : ∀ element ∈ commas, isLifetime element.1 = true) :
        commas.filter (isLifetime ·.1) = commas ∧ commas.filter (!isLifetime ·.1) = [] :=
      ⟨List.filter_eq_self.mpr all, List.filter_eq_nil_iff.mpr fun element member => by
        simp [all element member]⟩
    have moved : ∀ element ∈ (elements.filter (isLifetime ·.1)).map fun element =>
      (element.1, true),
        isLifetime element.1 = true := by
      intro element member
      obtain ⟨before, inside, rfl⟩ := List.mem_map.mp member
      simpa using (List.mem_filter.mp inside).2
    obtain ⟨same, none⟩ := lifetimes _ moved
    have others : (elements.filter (!isLifetime ·.1)).filter (!isLifetime ·.1) =
        elements.filter (!isLifetime ·.1) := by
      rw [List.filter_filter]
      simp
    have apart : (elements.filter (!isLifetime ·.1)).filter (isLifetime ·.1) = [] := by
      rw [List.filter_filter, List.filter_eq_nil_iff]
      simp
    rw [List.filter_append, List.filter_append, same, none, others, apart, List.nil_append,
      if_neg some, List.append_nil, List.map_map]
    rfl

theorem filter_printed (print : α → List Tree) (isLifetime : α → Bool)
    (elements : List (α × Bool)) (test : Bool → Bool) :
    (elements.map fun element => (print element.1, isLifetime element.1, element.2)).filter
        (test ·.2.1) =
      (elements.filter (test <| isLifetime ·.1)).map fun element =>
        (print element.1, isLifetime element.1, element.2) := List.filter_map

/-- The elements are printed in order. -/
theorem lifetimesFirst_eq (separated : Commas elements) :
    lifetimesFirst (elements.map fun element =>
        (print element.1, isLifetime element.1, element.2)) =
      (ordered isLifetime elements).flatMap (printElement print) := by
  have lifetimes := filter_printed print isLifetime elements id
  have others := filter_printed print isLifetime elements not
  simp only [id] at lifetimes
  unfold lifetimesFirst
  dsimp only
  have whole : (fun element : α × Bool => print element.1 ++ if element.2 then op "," else []) =
      printElement print := rfl
  rw [lifetimes, others, List.flatMap_map, List.flatMap_map, List.getLast?_map]
  dsimp only
  rw [whole]
  rcases separated.cases with all | ⟨front, last, rfl, all⟩
  · rw [ordered_of_all all, List.flatMap_append]
    congr 1
    cases final : (elements.filter (isLifetime ·.1)).getLast? with
    | none => simp
    | some last =>
        have comma := all_filter all _ last (List.mem_of_getLast? final)
        simp [comma]
  · rw [ordered_concat all, List.filter_append, List.filter_append]
    cases kind : isLifetime last with
    | true =>
        cases none : (front.filter (!isLifetime ·.1)).isEmpty with
        | true =>
            rw [List.isEmpty_iff] at none
            simp [kind, none, printElement]
        | false =>
            have some : front.filter (!isLifetime ·.1) ≠
              [] := by simpa [List.isEmpty_iff] using none
            simp [kind, some, printElement]
    | false =>
        cases final : (front.filter (isLifetime ·.1)).getLast? with
        | none => simp [kind, final, printElement]
        | some element =>
            have comma := all_filter all _ element (List.mem_of_getLast? final)
            simp [kind, final, comma, printElement]

end Ordered

/-! ### Elements in angle brackets -/

/-- The elements of a list in angle brackets end before a comma or before the closing bracket. -/
structure Parting (x y : List Tree) : Prop where
  written : atAnyOperator [",", ">"] x = true
  printed : atAnyOperator [",", ">"] y = true

theorem parting_iff {trees : List Tree} : atAnyOperator [",", ">"] trees = true ↔
    atOperator "," trees = true ∨ atOperator ">" trees = true := by
  simp [atAnyOperator]

theorem kind_of_mark {text : String} {mark : Char} (single : text.toList = [mark])
    {trees : List Tree} :
    atOperator text trees = true ↔ headKind trees = some (.punct mark) := by
  rw [atOperator, single, startsMarks_single, beq_iff_eq]

theorem Parting.beyond {x y : List Tree} (parting : Parting x y) : Beyond x y := by
  have closing {trees : List Tree} (parting : atAnyOperator [",", ">"] trees = true) :
      isClosing (headKind trees) = true := by
    rcases parting_iff.mp parting with comma | angle
    · rw [(kind_of_mark rfl).mp comma]
      rfl
    · rw [(kind_of_mark rfl).mp angle]
      rfl
  exact .inr (.inr ⟨.inl (closing parting.written), closing parting.printed⟩)

/-- Another mark does not stand there. -/
theorem Parting.other {x y : List Tree} (parting : Parting x y) {mark : Char}
    (other : mark ≠ ',' ∧ mark ≠ '>') : headKind x ≠ some (.punct mark) := by
  intro kind
  rcases parting_iff.mp parting.written with comma | angle
  · rw [(kind_of_mark rfl).mp comma] at kind
    cases kind
    exact other.1 rfl
  · rw [(kind_of_mark rfl).mp angle] at kind
    cases kind
    exact other.2 rfl

theorem Parting.without {x y : List Tree} (parting : Parting x y) {text : String}
    {mark : Char} (single : text.toList = [mark]) (other : mark ≠ ',' ∧ mark ≠ '>') :
    atOperator text y = false := by
  rw [Bool.eq_false_iff, ne_eq, kind_of_mark single]
  exact Parting.other ⟨parting.printed, parting.printed⟩ other

theorem angle_of_comma {trees : List Tree} (comma : atOperator "," trees = true) :
    atOperator ">" trees = false := by
  rw [Bool.eq_false_iff, ne_eq, kind_of_mark (show ">".toList = ['>'] from rfl),
    (kind_of_mark rfl).mp comma]
  decide

section Angle

variable {α β : Type} {one : Reader α} {two : Reader β} {like : α → β → Prop}
  {starts behind : Sight}

theorem untilAngle_eq (reader : Reader α) :
    untilAngle reader = (·.reverse) <$> loop (angleStep reader) [] := rfl

theorem progresses_angleStep (reader : Reader α) : Progresses (angleStep reader) := by
  intro values
  refine Takes.second fun _ => .ite (.pure Bool.false_ne_true) ?_
  refine Takes.second fun _ => Takes.second fun _ => .ite (.pure Bool.false_ne_true) ?_
  exact (takes_operator rfl).first

/-- Reading up to a closing angle bracket, element by element. -/
theorem follows_untilAngle (parting : Sight) (total : ∀ value, ∃ found, like value found)
    (own : Follows one two like starts fun _ => parting) (first : ∀ x y, starts x y → Head x y)
    (closing : ∀ x y, behind x y → atOperator ">" x = true ∧ atOperator ">" y = true)
    (comma : ∀ x y, Marked "," (fun x y => starts x y ∨ behind x y) x y → parting x y)
    (last : ∀ x y, behind x y → parting x y) :
    Follows (untilAngle one) (untilAngle two)
      (List.Forall₂ fun value found => like value.1 found.1 ∧ value.2 = found.2)
      (fun x y => starts x y ∨ behind x y) fun _ => behind := by
  have each (value : α × Bool) : ∃ found : β × Bool, like value.1 found.1 ∧ value.2 = found.2 := by
    obtain ⟨found, alike⟩ := total value.1
    exact ⟨(found, value.2), alike, rfl⟩
  rw [untilAngle_eq, untilAngle_eq]
  refine Follows.bindLike (fun _ => behind) (.loop (progresses_angleStep two) _
      (fun _ x y => starts x y ∨ behind x y) (forall₂_total each)
      (fun values values' same => ?_) .nil)
    (forall₂_total each) fun _ _ same => .pure (List.forall₂_reverse_iff.mpr same)
  refine .choose behind starts (Follows.always (.pure (.inr same)))
    (Follows.always ?_) (fun x y _ ended => ⟨(closing x y ended).2, .inr ended⟩)
    fun x y absent begun => ⟨(Seen.mark rfl (first x y begun)).symm.trans absent, .inl begun⟩
  refine own.bindLike _ total fun value found alike => ?_
  refine .choose behind (Marked "," fun x y => starts x y ∨ behind x y)
    (Follows.always (.pure (.inr (.cons ⟨alike, rfl⟩ same)))) (Follows.always ?_)
    (fun x y _ ended => ⟨(closing x y ended).2, last x y ended⟩)
    fun x y _ marked => ⟨angle_of_comma marked.holds, comma x y marked⟩
  exact (Follows.operator ",").bind _ fun _ => .pure (.inl (.cons ⟨alike, rfl⟩ same))

/-! ### Elements in another order -/

/-- What one round through a list in angle brackets does. -/
inductive AngleRound (reader : Reader α) (values : List (α × Bool)) :
    List Tree → List (α × Bool) ⊕ List (α × Bool) → List Piece → List Tree → Prop
  | done {trees : List Tree} (angle : atOperator ">" trees = true) :
      AngleRound reader values trees (.inr values) [] trees
  | last {trees rest : List Tree} {value : α} {taken : List Piece}
      (begins : atOperator ">" trees = false) (read : reader.Reads trees value taken rest)
      (angle : atOperator ">" rest = true) :
      AngleRound reader values trees (.inr ((value, false) :: values)) taken rest
  | more {trees between rest : List Tree} {value : α} {taken comma : List Piece}
      (begins : atOperator ">" trees = false) (read : reader.Reads trees value taken between)
      (mark : (operator ",").Reads between () comma rest) :
      AngleRound reader values trees (.inl ((value, true) :: values)) (taken ++ comma) rest

theorem comma_of_reads {trees rest : List Tree} {value : Unit} {taken : List Piece}
    (mark : (operator ",").Reads trees value taken rest) : atOperator "," trees = true := by
  obtain ⟨joint, rfl, _⟩ := reads_spelled.mp mark
  exact startsMarks_spelled _ _ _

theorem reads_angleStep {reader : Reader α} {values : List (α × Bool)} {trees rest : List Tree}
    {result : List (α × Bool) ⊕ List (α × Bool)} {taken : List Piece} :
    (angleStep reader values).Reads trees result taken rest ↔
      AngleRound reader values trees result taken rest := by
  unfold angleStep
  rw [reads_ahead_bind]
  constructor
  · intro read
    split at read
    · rename_i angle
      obtain ⟨rfl, rfl, rfl⟩ := reads_pure.mp read
      exact .done angle
    · rename_i begins
      rw [Bool.not_eq_true] at begins
      obtain ⟨value, one, _, between, first, later, rfl⟩ := reads_bind.mp read
      rw [reads_ahead_bind] at later
      split at later
      · rename_i angle
        obtain ⟨rfl, rfl, rfl⟩ := reads_pure.mp later
        rw [List.append_nil]
        exact .last begins first angle
      · obtain ⟨_, comma, _, _, mark, last, rfl⟩ := reads_bind.mp later
        obtain ⟨rfl, rfl, rfl⟩ := reads_pure.mp last
        rw [List.append_nil]
        exact .more begins first mark
  · intro round
    cases round with
    | done angle =>
        rw [if_pos angle]
        exact reads_pure.mpr ⟨rfl, rfl, rfl⟩
    | last begins read angle =>
        rw [if_neg (ne_true_of_eq_false begins)]
        refine reads_bind.mpr ⟨_, _, [], rest, read, ?_, (List.append_nil _).symm⟩
        rw [reads_ahead_bind, if_pos angle]
        exact reads_pure.mpr ⟨rfl, rfl, rfl⟩
    | more begins read mark =>
        rw [if_neg (ne_true_of_eq_false begins)]
        refine reads_bind.mpr ⟨_, _, _, _, read, ?_, rfl⟩
        rw [reads_ahead_bind, if_neg (ne_true_of_eq_false (angle_of_comma (comma_of_reads mark)))]
        exact reads_bind.mpr ⟨(), _, [], rest, mark, reads_pure.mpr ⟨rfl, rfl, rfl⟩,
          (List.append_nil _).symm⟩

/-- The element was read in a list. -/
def ReadInList (reader : Reader α) (value : α) : Prop :=
  ∃ trees taken rest, reader.Reads trees value taken rest ∧ SettledAll taken ∧
    atAnyOperator [",", ">"] rest = true

/-- The elements of a list were each read, and only the last may have no comma. -/
theorem listed_of_untilAngle {reader : Reader α} {trees rest : List Tree}
    {values : List (α × Bool)} {taken : List Piece}
    (read : (untilAngle reader).Reads trees values taken rest) (settled : SettledAll taken) :
    Commas values ∧ ∀ element ∈ values, ReadInList reader element.1 := by
  rw [untilAngle_eq] at read
  obtain ⟨reversed, rounds, rfl⟩ := reads_bind_pure.mp read
  obtain ⟨found, whole, separated, each⟩ : ∃ found : List (α × Bool),
      reversed = found.reverse ++ [] ∧ Commas found ∧
        ∀ element ∈ found, ReadInList reader element.1 := by
    refine Reads.loop_induction (motive := fun state trees value taken rest => SettledAll taken →
        ∃ found, value = found.reverse ++ state ∧ Commas found ∧
          ∀ element ∈ found, ReadInList reader element.1) ?_ ?_ rounds settled
    · intro state trees value taken rest round settled
      cases reads_angleStep.mp round with
      | done angle => exact ⟨[], rfl, by simp [Commas], by simp⟩
      | last begins read angle =>
          refine ⟨[(_, false)], rfl, by simp [Commas], ?_⟩
          simpa using ⟨_, _, _, read, settled, parting_iff.mpr (.inr angle)⟩
    · intro state next trees between rest value one two round later settled
      obtain ⟨own, others⟩ := settledAll_append.mp settled
      obtain ⟨found, rfl, separated, each⟩ := later others
      cases reads_angleStep.mp round with
      | more begins read mark =>
          rename_i value _ _
          exact ⟨(value, true) :: found, by simp, separated.cons rfl,
            List.forall_mem_cons.mpr ⟨⟨_, _, _, read, (settledAll_append.mp own).1,
              parting_iff.mpr (.inl (comma_of_reads mark))⟩, each⟩⟩
  rw [List.append_nil] at whole
  subst whole
  simpa only [List.reverse_reverse] using And.intro separated each

/-- The element is read again from what it prints, before a comma or the closing bracket. -/
def ReadAgain (reader : Reader α) (print : α → List Tree) (like : α → α → Prop)
    (value : α) : Prop :=
  ∀ other, atAnyOperator [",", ">"] other = true → atOperator ">" (print value ++ other) = false ∧
    ∃ found again, like value found ∧ reader.Reads (print value ++ other) found again other ∧
      PlainAll again

/-- From any state the rounds read elements again, in any order in which they are separated. -/
theorem reads_rounds {reader : Reader α} {print : α → List Tree} {like : α → α → Prop}
    {elements : List (α × Bool)} (separated : Commas elements)
    (each : ∀ element ∈ elements, ReadAgain reader print like element.1) {other : List Tree}
    (angle : atOperator ">" other = true) (state : List (α × Bool)) :
    ∃ found taken,
      (loop (angleStep reader) state).Reads (elements.flatMap (printElement print) ++ other)
        (found.reverse ++ state) taken other ∧ PlainAll taken ∧
        List.Forall₂ (fun value found => like value.1 found.1 ∧ value.2 = found.2) elements
          found := by
  induction elements generalizing state with
  | nil =>
      refine ⟨[], [], (reads_loop (progresses_angleStep reader)).mpr ?_, trivial, .nil⟩
      exact reads_bind.mpr ⟨_, [], [], other, reads_angleStep.mpr (.done angle),
        reads_pure.mpr ⟨rfl, rfl, rfl⟩, rfl⟩
  | cons element elements ih =>
      obtain ⟨own, others⟩ := List.forall_mem_cons.mp each
      rw [List.flatMap_cons, printElement, List.append_assoc, List.append_assoc]
      cases comma : element.2 with
      | true =>
          let left := elements.flatMap (printElement print) ++ other
          obtain ⟨begins, value, again, alike, read, plain⟩ :=
            own (op "," ++ left) (parting_iff.mpr (.inl rfl))
          obtain ⟨found, taken, reads, plains, same⟩ :=
            ih separated.tail others ((value, true) :: state)
          have mark : (operator ",").Reads (op "," ++ left) () [.mark ',' false false] left :=
            reads_spelled.mpr ⟨false, rfl, rfl⟩
          refine ⟨(value, true) :: found, _, (reads_loop (progresses_angleStep reader)).mpr
            (reads_bind.mpr ⟨_, _, taken, _, reads_angleStep.mpr (.more begins read mark), ?_,
              rfl⟩),
            plainAll_append.mpr ⟨plainAll_append.mpr ⟨plain, rfl, trivial⟩, plains⟩,
            .cons ⟨alike, comma⟩ same⟩
          rw [List.reverse_cons, List.append_assoc]
          exact reads
      | false =>
          obtain rfl : elements = [] := separated.last comma
          obtain ⟨begins, value, again, alike, read, plain⟩ :=
            own other (parting_iff.mpr (.inr angle))
          exact ⟨[(value, false)], again, (reads_loop (progresses_angleStep reader)).mpr
            (reads_bind.mpr ⟨_, _, [], other, reads_angleStep.mpr (.last begins read angle),
              reads_pure.mpr ⟨rfl, rfl, rfl⟩, (List.append_nil _).symm⟩), plain,
            .cons ⟨alike, comma⟩ .nil⟩

theorem reads_elements {reader : Reader α} {print : α → List Tree} {like : α → α → Prop}
    {elements : List (α × Bool)} (separated : Commas elements)
    (each : ∀ element ∈ elements, ReadAgain reader print like element.1) {other : List Tree}
    (angle : atOperator ">" other = true) :
    ∃ found taken,
      (untilAngle reader).Reads (elements.flatMap (printElement print) ++ other) found taken
        other ∧ PlainAll taken ∧
        List.Forall₂ (fun value found => like value.1 found.1 ∧ value.2 = found.2) elements
          found := by
  obtain ⟨found, taken, reads, plain, same⟩ := reads_rounds separated each angle []
  refine ⟨found, taken, ?_, plain, same⟩
  rw [untilAngle_eq]
  refine reads_bind.mpr ⟨_, taken, [], other, reads, reads_pure.mpr ⟨?_, rfl, rfl⟩,
    (List.append_nil _).symm⟩
  rw [List.append_nil]
  exact found.reverse_reverse.symm

/-- A list begins with its closing bracket or with an element. -/
theorem front_of_untilAngle {reader : Reader α} {trees rest : List Tree} {values : List (α × Bool)}
    {taken : List Piece} (read : (untilAngle reader).Reads trees values taken rest)
    (settled : SettledAll taken) :
    atOperator ">" trees = true ∨ ∃ value pieces left, reader.Reads trees value pieces left ∧
      SettledAll pieces ∧ atAnyOperator [",", ">"] left = true := by
  rw [untilAngle_eq] at read
  obtain ⟨reversed, rounds, rfl⟩ := reads_bind_pure.mp read
  obtain ⟨result, _, _, _, round, _, rfl⟩ := reads_bind.mp
    ((reads_loop (progresses_angleStep reader)).mp rounds)
  have own := (settledAll_append.mp settled).1
  cases reads_angleStep.mp round with
  | done angle => exact .inl angle
  | last begins read angle => exact .inr ⟨_, _, _, read, own, parting_iff.mpr (.inr angle)⟩
  | more begins element mark =>
      exact .inr ⟨_, _, _, element, (settledAll_append.mp own).1,
        parting_iff.mpr (.inl (comma_of_reads mark))⟩

theorem mem_ordered {isLifetime : α → Bool} {elements : List (α × Bool)} {element : α × Bool}
    (member : element ∈ ordered isLifetime elements) : ∃ other ∈ elements, other.1 = element.1 := by
  unfold ordered at member
  dsimp only at member
  split at member
  · exact ⟨element, (List.mem_filter.mp member).1, rfl⟩
  · rcases List.mem_append.mp member with member | member
    · obtain ⟨other, inside, rfl⟩ := List.mem_map.mp member
      exact ⟨other, (List.mem_filter.mp inside).1, rfl⟩
    · exact ⟨element, (List.mem_filter.mp member).1, rfl⟩

theorem ordered_isEmpty (isLifetime : α → Bool) (elements : List (α × Bool)) :
    (ordered isLifetime elements).isEmpty = elements.isEmpty := by
  unfold ordered
  dsimp only
  split
  · rename_i none
    have all := List.filter_eq_nil_iff.mp (List.isEmpty_iff.mp none)
    rw [List.filter_eq_self.mpr fun element member => by simpa using all element member]
  · rename_i some
    cases elements with
    | nil => exact absurd rfl some
    | cons element elements =>
        rw [Bool.eq_iff_iff, List.isEmpty_iff, List.isEmpty_iff, List.append_eq_nil_iff]
        exact iff_of_false (fun none => some (List.isEmpty_iff.mpr none.2)) (List.cons_ne_nil _ _)

theorem isEmpty_of_forall₂ {like : α → β → Prop} {values : List α} {others : List β}
    (same : List.Forall₂ like values others) : values.isEmpty = others.isEmpty := by
  cases same <;> rfl

/-- The elements as they are printed. -/
def printOrdered (print : α → List Tree) (isLifetime : α → Bool) (elements : List (α × Bool)) :
    List Tree :=
  lifetimesFirst (elements.map fun element => (print element.1, isLifetime element.1, element.2))

/-- Elements that are printed alike make lists that are. -/
theorem printOrdered_congr {print : α → List Tree} {isLifetime : α → Bool} {like : α → α → Prop}
    (alike : ∀ value found, like value found →
      print value = print found ∧ isLifetime value = isLifetime found)
    {values others : List (α × Bool)}
    (same : List.Forall₂ (fun value found => like value.1 found.1 ∧ value.2 = found.2) values
      others) :
    printOrdered print isLifetime values = printOrdered print isLifetime others := by
  unfold printOrdered
  congr 1
  induction same with
  | nil => rfl
  | cons first _ ih =>
      obtain ⟨printed, kind⟩ := alike _ _ first.1
      rw [List.map_cons, List.map_cons, ih, printed, kind, first.2]

/-- From the elements printed in order a list is read that is printed alike. -/
theorem reads_ordered {reader : Reader α} {print : α → List Tree} (isLifetime : α → Bool)
    {like : α → α → Prop} (alike : ∀ value found, like value found →
      print value = print found ∧ isLifetime value = isLifetime found)
    (printed : ∀ value, ReadInList reader value → ReadAgain reader print like value)
    {trees rest other : List Tree} {values : List (α × Bool)} {taken : List Piece}
    (read : (untilAngle reader).Reads trees values taken rest) (settled : SettledAll taken)
    (angle : atOperator ">" other = true) :
    ∃ others again, (untilAngle reader).Reads (printOrdered print isLifetime values ++ other)
      others again other ∧ PlainAll again ∧ values.isEmpty = others.isEmpty ∧
        printOrdered print isLifetime values = printOrdered print isLifetime others := by
  obtain ⟨separated, each⟩ := listed_of_untilAngle read settled
  have elements : ∀ element ∈ ordered isLifetime values,
      ReadAgain reader print like element.1 := by
    intro element member
    obtain ⟨original, inside, same⟩ := mem_ordered member
    exact same ▸ printed _ (each original inside)
  obtain ⟨others, again, reads, plain, same⟩ :=
    reads_elements (commas_ordered separated) elements angle
  have still : printOrdered print isLifetime (ordered isLifetime values) =
      printOrdered print isLifetime values := by
    unfold printOrdered
    rw [lifetimesFirst_eq (commas_ordered separated), ordered_ordered,
      lifetimesFirst_eq separated]
  refine ⟨others, again, ?_, plain, ?_, still.symm.trans (printOrdered_congr alike same)⟩
  · rwa [printOrdered, lifetimesFirst_eq separated]
  · exact (ordered_isEmpty isLifetime values).symm.trans (isEmpty_of_forall₂ same)

/-- A list in angle brackets that is printed with the lifetimes first. -/
theorem follows_ordered {reader : Reader α} {print : α → List Tree} (isLifetime : α → Bool)
    {like : α → α → Prop} (alike : ∀ value found, like value found →
      print value = print found ∧ isLifetime value = isLifetime found)
    (own : Follows reader reader like starts fun _ => Parting)
    (first : ∀ x y, starts x y → Head x y ∧ Fresh x)
    (printed : ∀ value, ReadInList reader value → ReadAgain reader print like value)
    (closing : ∀ x y, behind x y → atOperator ">" x = true ∧ atOperator ">" y = true) :
    Follows ((untilAngle reader).printingAs (printOrdered print isLifetime))
      ((untilAngle reader).printingAs (printOrdered print isLifetime)) (fun values others =>
        printOrdered print isLifetime values = printOrdered print isLifetime others)
      (fun x _ => Clear '<' x) fun _ => behind := by
  intro trees rest other values taken read settled ended
  obtain ⟨written, rfl, list⟩ := reads_printingAs.mp read
  obtain ⟨others, again, reads, plain, _, same⟩ :=
    reads_ordered isLifetime alike printed list settled.1 (closing _ _ ended).2
  rw [← List.append_nil (printOrdered print isLifetime values)] at reads
  refine ⟨?_, others, _, same, reads_printingAs.mpr ⟨again, rfl, reads⟩, ?_, trivial⟩
  · intro next member
    obtain rfl : next = '=' := by simpa [firmOperators] using member
    rcases front_of_untilAngle list settled.1 with angle | ⟨_, _, left, element, kept, parting⟩
    · rw [(kind_of_mark rfl).mp angle]
      decide
    · exact (first _ _ (own element kept ⟨parting, parting⟩).1).2.equals
  · rw [Piece.Plain, ← same]
    exact (List.append_cancel_right reads.conserved).trans (List.append_nil _)

/-- Elements that print as their pieces do are read again from what they print. -/
theorem readAgain_of_follows {reader : Reader α} {print : α → List Tree} {like : α → α → Prop}
    (own : Follows reader reader like starts fun _ => Parting)
    (first : ∀ x y, starts x y → Head x y ∧ Fresh x)
    (pieces : ∀ trees value taken rest, reader.Reads trees value taken rest →
      printAll taken = print value)
    {value : α} (found : ReadInList reader value) : ReadAgain reader print like value := by
  obtain ⟨trees, taken, rest, read, settled, parting⟩ := found
  intro other ended
  obtain ⟨begun, others, again, same, reads, plain⟩ := own read settled ⟨parting, ended⟩
  have whole : printAll taken = print value := pieces _ _ _ _ read
  rw [whole] at begun reads
  obtain ⟨head, fresh⟩ := first _ _ begun
  refine ⟨?_, others, again, same, reads, plain⟩
  rw [Bool.eq_false_iff, ne_eq, kind_of_mark (show ">".toList = ['>'] from rfl), ← head.kind]
  exact fresh.angle

end Angle

end Grammar
end Source
end Toolsmith
