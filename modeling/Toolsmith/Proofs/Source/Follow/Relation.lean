import Mathlib
import Toolsmith.Proofs.Source.Follow.Sight
import Toolsmith.Proofs.Source.Printing

/-! # Reading again what was read

What a reader took from trees as they were written it should take again from the trees that it
prints. Behind these other trees may follow than before, as long as they begin alike. `Follows` says
this of a reader and, of what it leaves, which relation is enough (`ends`), and, of what it starts
from, which relation there is then (`starts`). So the parts of a phrase fit together when what the
first leaves is related as the second starts.

Expressions and statements are not read again tree by tree: where they stand, in braces and behind a
`;` or `=` in brackets, the code is to be written as it is printed (`Piece.Settled`).
-/

namespace Toolsmith
namespace Source

open Piece

/-- A relation between trees as they were written and as they are printed. -/
abbrev Sight : Type := List Tree → List Tree → Prop

/-- Both are at their end. -/
def AtEnd : Sight := fun x y => x = [] ∧ y = []

namespace Piece

/-- The piece is a mark behind which an expression may stand in brackets. -/
def endsType : Piece → Bool
  | .mark symbol _ _ => symbol == ';' || symbol == '='
  | _ => false

/-- The expressions or statements in a group. -/
def code : Delimiter → List Piece → List Piece
  | .brace, content => content
  | .bracket, content => content.dropWhile (!·.endsType)
  | _, _ => []

mutual

/-- The expressions and statements in the piece are written as they are printed. -/
def Settled : Piece → Prop
  | .tree _ => True
  | .mark _ _ _ => True
  | .group delimiter content => SettledAll content ∧ PlainAll (code delimiter content)
  | .reprinted written _ => SettledAll written

/-- The expressions and statements in the pieces are written as they are printed. -/
def SettledAll : List Piece → Prop
  | [] => True
  | piece :: rest => piece.Settled ∧ SettledAll rest

end

mutual

/-- Whether code is written as it is printed is computed. -/
def decideSettled : (piece : Piece) → Decidable piece.Settled
  | .tree _ => .isTrue trivial
  | .mark _ _ _ => .isTrue trivial
  | .group delimiter content =>
    match decideSettledAll content, decidePlainAll (code delimiter content) with
    | .isTrue inside, .isTrue plain => .isTrue ⟨inside, plain⟩
    | .isFalse not, _ => .isFalse fun settled => not settled.1
    | _, .isFalse not => .isFalse fun settled => not settled.2
  | .reprinted written _ => decideSettledAll written

def decideSettledAll : (pieces : List Piece) → Decidable (SettledAll pieces)
  | [] => .isTrue trivial
  | piece :: rest =>
    match decideSettled piece, decideSettledAll rest with
    | .isTrue first, .isTrue others => .isTrue ⟨first, others⟩
    | .isFalse not, _ => .isFalse fun settled => not settled.1
    | _, .isFalse not => .isFalse fun settled => not settled.2

end

instance : DecidablePred SettledAll := decideSettledAll

theorem settledAll_append {first second : List Piece} :
    SettledAll (first ++ second) ↔ SettledAll first ∧ SettledAll second := by
  induction first with
  | nil => simp [SettledAll]
  | cons piece rest ih => simp only [List.cons_append, SettledAll, ih, and_assoc]

/-- From a mark on that may end a type, in brackets, code is written as it is printed. -/
theorem plain_behind {front behind : List Piece} {mark : Piece} (ends : mark.endsType = true)
    (plain : PlainAll (code .bracket (front ++ mark :: behind))) : PlainAll (mark :: behind) := by
  induction front with
  | nil => simpa [code, ends] using plain
  | cons piece front ih =>
      by_cases earlier : piece.endsType = true
      · have whole : PlainAll (piece :: (front ++ mark :: behind)) := by
          simpa [code, earlier] using plain
        exact (plainAll_append.mp whole.2).2
      · exact ih (by simpa [code, earlier] using plain)

end Piece

namespace Reader

variable {α β γ δ σ τ : Type}

/-- What the first reader took the second one takes again from what it prints. -/
def Follows (one : Reader α) (two : Reader β) (like : α → β → Prop) (starts : Sight)
    (ends : α → Sight) : Prop :=
  ∀ ⦃trees rest other : List Tree⦄ ⦃value : α⦄ ⦃taken : List Piece⦄,
    one.Reads trees value taken rest → SettledAll taken → ends value rest other →
      starts trees (printAll taken ++ other) ∧ ∃ found again,
        like value found ∧ two.Reads (printAll taken ++ other) found again other ∧
          PlainAll again

/-- The reader takes again what it took, and what it leaves is related alike, whatever it read. -/
abbrev Again (reader : Reader α) (starts behind : Sight) : Prop :=
  Follows reader reader Eq starts fun _ => behind

variable {one : Reader α} {two : Reader β} {like : α → β → Prop} {starts : Sight} {ends : α → Sight}

theorem Follows.imp {starts' : Sight} {ends' : α → Sight}
    (own : Follows one two like starts ends) (later : ∀ value x y, ends' value x y → ends value x y)
    (earlier : ∀ x y, starts x y → starts' x y) : Follows one two like starts' ends' := by
  intro trees rest other value taken read settled behind
  obtain ⟨before, again⟩ := own read settled (later _ _ _ behind)
  exact ⟨earlier _ _ before, again⟩

theorem Follows.starting {starts' : Sight} (own : Follows one two like starts ends)
    (earlier : ∀ x y, starts x y → starts' x y) : Follows one two like starts' ends :=
  own.imp (fun _ _ _ => id) earlier

theorem Follows.liking {like' : α → β → Prop} (own : Follows one two like starts ends)
    (alike : ∀ value found, like value found → like' value found) :
    Follows one two like' starts ends := by
  intro trees rest other value taken read settled behind
  obtain ⟨before, found, again, same, reads, keeps⟩ := own read settled behind
  exact ⟨before, found, again, alike _ _ same, reads, keeps⟩

theorem Follows.pure {value : α} {found : β} (alike : like value found) :
    Follows (pure value) (pure found) like (ends value) ends := by
  intro trees rest other _ taken read _ behind
  obtain ⟨rfl, rfl, rfl⟩ := reads_pure.mp read
  exact ⟨behind, found, [], alike, reads_pure.mpr ⟨rfl, rfl, rfl⟩, trivial⟩

/-- What is read one after the other is read again, when what the first part leaves is related as
the second part starts. -/
theorem Follows.bindLike {next : α → Reader γ} {next' : β → Reader δ} {alike : γ → δ → Prop}
    {after : γ → Sight} (middle : α → Sight) (first : Follows one two like starts middle)
    (total : ∀ value, ∃ found, like value found) (second : ∀ value found, like value found →
      Follows (next value) (next' found) alike (middle value) after) :
    Follows (one >>= next) (two >>= next') alike starts after := by
  intro trees rest other value taken read settled behind
  obtain ⟨passed, front, back, between, earlier, later, rfl⟩ := reads_bind.mp read
  obtain ⟨one, two⟩ := settledAll_append.mp settled
  -- How the second part starts does not depend on what the second reader has found.
  obtain ⟨some, same⟩ := total passed
  obtain ⟨before, found, again, same, reads, keeps⟩ :=
    first earlier one (second _ _ same later two behind).1
  obtain ⟨_, final, others, alike, onward, keeping⟩ := second _ _ same later two behind
  rw [printAll_append, List.append_assoc]
  exact ⟨before, final, again ++ others, alike,
    reads_bind.mpr ⟨_, _, _, _, reads, onward, rfl⟩, plainAll_append.mpr ⟨keeps, keeping⟩⟩

theorem Follows.bind {next : α → Reader γ} {next' : α → Reader δ} {two : Reader α}
    {alike : γ → δ → Prop} {after : γ → Sight} (middle : α → Sight)
    (first : Follows one two Eq starts middle)
    (second : ∀ value, Follows (next value) (next' value) alike (middle value) after) :
    Follows (one >>= next) (two >>= next') alike starts after :=
  first.bindLike _ (fun value => ⟨value, rfl⟩) fun value _ same => same ▸ second value

/-! ### Choices -/

/-- A reader that goes on in one of two ways, by a test on the trees ahead. -/
theorem Follows.choose {test : List Tree → Bool} {yes no : List Tree → Reader α}
    {yes' no' : List Tree → Reader β} (whenever otherwise : Sight)
    (first : Follows (ahead >>= yes) (ahead >>= yes') like whenever ends)
    (second : Follows (ahead >>= no) (ahead >>= no') like otherwise ends)
    (holds : ∀ x y, test x = true → whenever x y → test y = true ∧ starts x y)
    (fails : ∀ x y, test x = false → otherwise x y → test y = false ∧ starts x y) :
    Follows (ahead >>= fun trees => if test trees then yes trees else no trees)
      (ahead >>= fun trees => if test trees then yes' trees else no' trees) like starts ends := by
  intro trees rest other value taken read settled behind
  rw [reads_ahead_bind] at read
  cases chosen : test trees with
  | true =>
      rw [chosen, if_pos rfl] at read
      obtain ⟨before, found, again, alike, reads, keeps⟩ :=
        first (reads_ahead_bind.mpr read) settled behind
      obtain ⟨there, before⟩ := holds _ _ chosen before
      refine ⟨before, found, again, alike, reads_ahead_bind.mpr ?_, keeps⟩
      rw [there, if_pos rfl]
      exact reads_ahead_bind.mp reads
  | false =>
      rw [chosen, if_neg Bool.false_ne_true] at read
      obtain ⟨before, found, again, alike, reads, keeps⟩ :=
        second (reads_ahead_bind.mpr read) settled behind
      obtain ⟨there, before⟩ := fails _ _ chosen before
      refine ⟨before, found, again, alike, reads_ahead_bind.mpr ?_, keeps⟩
      rw [there, if_neg Bool.false_ne_true]
      exact reads_ahead_bind.mp reads

/-- A choice by a test that does not tell apart trees that begin alike. -/
theorem Follows.chooseSeen {test : List Tree → Bool} {yes no : List Tree → Reader α}
    {yes' no' : List Tree → Reader β} (seen : Seen test) (heads : ∀ x y, starts x y → Head x y)
    (first : Follows (ahead >>= yes) (ahead >>= yes') like starts ends)
    (second : Follows (ahead >>= no) (ahead >>= no') like starts ends) :
    Follows (ahead >>= fun trees => if test trees then yes trees else no trees)
      (ahead >>= fun trees => if test trees then yes' trees else no' trees) like starts ends :=
  .choose _ _ first second
    (fun x y holds alike => ⟨(seen (heads x y alike)).symm.trans holds, alike⟩)
    fun x y fails alike => ⟨(seen (heads x y alike)).symm.trans fails, alike⟩

/-- A reader that makes nothing of the trees ahead. -/
theorem Follows.always (own : Follows one two like starts ends) :
    Follows (ahead >>= fun _ => one) (ahead >>= fun _ => two) like starts ends := by
  intro trees rest other value taken read settled behind
  obtain ⟨before, found, again, alike, reads, keeps⟩ :=
    own (reads_ahead_bind.mp read) settled behind
  exact ⟨before, found, again, alike, reads_ahead_bind.mpr reads, keeps⟩

/-- A choice that is made before anything is read. -/
theorem Follows.ite {c : Prop} [Decidable c] {yes no : Reader α} {yes' no' : Reader β}
    (whenever : c → Follows yes yes' like starts ends)
    (otherwise : ¬ c → Follows no no' like starts ends) :
    Follows (if c then yes else no) (if c then yes' else no') like starts ends := by
  by_cases chosen : c
  · rw [if_pos chosen, if_pos chosen]
    exact whenever chosen
  · rw [if_neg chosen, if_neg chosen]
    exact otherwise chosen

theorem Follows.fails {two : Reader β}
    (fails : ∀ trees value taken rest, ¬ one.Reads trees value taken rest) :
    Follows one two like starts ends := by
  intro trees rest other value taken read _ _
  exact absurd read (fails _ _ _ _)

theorem Follows.missing (what : String) : Follows (missing what) two like starts ends :=
  .fails fun _ _ _ _ ⟨_, read⟩ => by cases read

/-- A first part that is only there sometimes. -/
theorem Follows.sometimes {c : Prop} [Decidable c] {first : Reader Unit} {next : Unit → Reader α}
    {next' : Unit → Reader β} (middle : Sight)
    (whenever : c → Again first starts middle)
    (skipped : ¬ c → ∀ x y, middle x y → starts x y)
    (after : Follows (next ()) (next' ()) like middle ends) :
    Follows (if c then first >>= next else next ()) (if c then first >>= next' else next' ()) like
      starts ends :=
  .ite (fun holds => (whenever holds).bind _ fun _ => after) fun fails =>
    after.starting (skipped fails)

/-! ### Single trees -/

/-- The same tree stands first, and what is behind it is related as stated. -/
def Ahead (stated : Tree → Prop) (behind : Sight) : Sight := fun x y =>
  ∃ tree rest other, stated tree ∧ x = tree :: rest ∧ y = tree :: other ∧ behind rest other

/-- The reader takes one tree as it is, by looking at no other. -/
def Copies (reader : Reader α) (stated : α → Tree → Prop) : Prop :=
  ∀ ⦃trees rest : List Tree⦄ ⦃value : α⦄ ⦃taken : List Piece⦄, reader.Reads trees value taken rest →
    ∃ tree, stated value tree ∧ trees = tree :: rest ∧ taken = [.tree tree] ∧
      ∀ other, reader.Reads (tree :: other) value taken other

theorem Copies.follows {reader : Reader α} {stated : α → Tree → Prop}
    (copies : Copies reader stated)
    (earlier : ∀ value x y, Ahead (stated value) (ends value) x y → starts x y) :
    Follows reader reader Eq starts ends := by
  intro trees rest other value taken read settled behind
  obtain ⟨tree, holds, rfl, rfl, again⟩ := copies read
  exact ⟨earlier _ _ _ ⟨tree, rest, other, holds, rfl, rfl, behind⟩, value, _, rfl, again other,
    trivial, trivial⟩

theorem copies_word : Copies word fun name tree => tree = .ident name := by
  intro trees rest name taken read
  obtain ⟨rfl, rfl⟩ := reads_word.mp read
  exact ⟨_, rfl, rfl, rfl, fun other => reads_word.mpr ⟨rfl, rfl⟩⟩

theorem copies_keyword (text : String) : Copies (keyword text) fun _ tree => tree = name text := by
  intro trees rest value taken read
  obtain ⟨rfl, rfl⟩ := reads_keyword.mp read
  exact ⟨_, rfl, rfl, rfl, fun other => reads_keyword.mpr ⟨rfl, rfl⟩⟩

theorem copies_lifetime : Copies lifetime fun name tree => tree = .lifetime name := by
  rintro trees rest name taken ⟨_, read⟩
  unfold lifetime at read
  split at read
  · cases read
    exact ⟨_, rfl, rfl, rfl, fun other => ⟨rfl, rfl⟩⟩
  · cases read

theorem copies_literalText : Copies literalText fun text tree => tree = .literal text := by
  rintro trees rest name taken ⟨_, read⟩
  unfold literalText at read
  split at read
  · cases read
    exact ⟨_, rfl, rfl, rfl, fun other => ⟨rfl, rfl⟩⟩
  · cases read

theorem copies_tree : Copies tree fun value tree => tree = value := by
  rintro (_ | ⟨head, more⟩) rest value taken ⟨_, read⟩
  · cases read
  · cases read
    exact ⟨_, rfl, rfl, rfl, fun other => ⟨rfl, rfl⟩⟩

theorem copies_anyGroup (what : String) :
    Copies (anyGroup what) fun value tree => tree = .group value.1 value.2 := by
  rintro trees rest value taken ⟨_, read⟩
  unfold anyGroup at read
  split at read
  · cases read
    exact ⟨_, rfl, rfl, rfl, fun other => ⟨rfl, rfl⟩⟩
  · cases read

theorem copies_ident : Copies ident fun name tree => tree = .ident name ∧ name.isPlain = true := by
  intro trees rest value taken read
  unfold ident at read
  rw [reads_ahead_bind] at read
  split at read
  · rename_i plain
    obtain ⟨rfl, rfl⟩ := reads_word.mp read
    refine ⟨_, ⟨rfl, plain⟩, rfl, rfl, fun other => ?_⟩
    refine reads_ahead_bind.mpr ?_
    rw [if_pos (show atIdent (.ident value :: other) = true from plain)]
    exact reads_word.mpr ⟨rfl, rfl⟩
  · obtain ⟨_, read⟩ := read
    cases read

/-- Groups with one delimiter stand first, with related contents, and what is behind them is
related. -/
def Grouped (delimiter : Delimiter) (inside behind : Sight) : Sight := fun x y =>
  ∃ content shown rest other, x = .group delimiter content :: rest ∧
    y = .group delimiter shown :: other ∧ inside content shown ∧ behind rest other

/-- What the reader took up to the end of a group it takes again from what it prints. -/
def Within (delimiter : Delimiter) (one : Reader α) (two : Reader β) (like : α → β → Prop)
    (starts : Sight) : Prop :=
  ∀ ⦃trees : List Tree⦄ ⦃value : α⦄ ⦃taken : List Piece⦄, one.Reads trees value taken [] →
    SettledAll taken → PlainAll (code delimiter taken) →
      starts trees (printAll taken) ∧ ∃ found again,
        like value found ∧ two.Reads (printAll taken) found again [] ∧ PlainAll again

theorem Follows.within (own : Follows one two like starts fun _ => AtEnd) (delimiter : Delimiter) :
    Within delimiter one two like starts := by
  intro trees value taken read settled _
  have again := own read settled ⟨rfl, rfl⟩
  rwa [List.append_nil] at again

/-- Plain pieces are read again as they are. -/
theorem reads_plain {one : Reader α} {trees rest : List Tree} {value : α} {taken : List Piece}
    (read : one.Reads trees value taken rest) (plain : PlainAll taken) :
    printAll taken ++ rest = trees := by
  rw [printAll_of_plain plain, read.conserved]

/-- What is in braces is written as it is printed. -/
theorem within_braces (one : Reader α) : Within .brace one one Eq Eq := by
  intro trees value taken read _ plain
  have same := reads_plain read plain
  rw [List.append_nil] at same
  exact ⟨same.symm, value, taken, rfl, same.symm ▸ read, plain⟩

/-- A group is read again when its content is. -/
theorem Within.group {delimiter : Delimiter} {inside behind : Sight}
    (inner : Within delimiter one two like inside) :
    Follows (group delimiter one) (group delimiter two) like (Grouped delimiter inside behind)
      fun _ => behind := by
  intro trees rest other value taken read settled after
  obtain ⟨content, pieces, rfl, rfl, whole⟩ := reads_group.mp read
  obtain ⟨⟨settled, plain⟩, _⟩ := settled
  obtain ⟨before, found, again, alike, reads, keeps⟩ := inner whole settled plain
  exact ⟨⟨content, _, rest, other, rfl, rfl, before, after⟩, found, [.group delimiter again], alike,
    reads_group.mpr ⟨_, again, rfl, rfl, reads⟩, keeps, trivial⟩

theorem Follows.group {delimiter : Delimiter} {inside : Sight}
    (inner : Follows one two like inside fun _ => AtEnd) :
    Follows (group delimiter one) (group delimiter two) like (Grouped delimiter inside starts)
      fun _ => starts :=
  (inner.within delimiter).group

/-! ### Operators -/

/-- The marks of an operator, the last of which is joint or not. -/
def spelled : List Char → Bool → List Tree
  | [], _ => []
  | first :: rest, joint => .punct first (!rest.isEmpty || joint) :: spelled rest joint

/-- What is taken where the marks of an operator stand. -/
def spelledPieces : List Char → Bool → List Piece
  | [], _ => []
  | first :: rest, joint =>
    .mark first (!rest.isEmpty || joint) (!rest.isEmpty) :: spelledPieces rest joint

theorem takeMarks_eq_some {marks : List Char} {trees : List Tree} {reading : Reading Unit trees} :
    takeMarks marks trees = some reading →
      ∃ joint, trees = spelled marks joint ++ reading.rest ∧
        reading.taken = spelledPieces marks joint := by
  intro found
  induction marks generalizing trees with
  | nil =>
      cases found
      exact ⟨false, rfl, rfl⟩
  | cons mark marks ih =>
      rcases trees with _ | ⟨head, more⟩
      · cases marks <;> cases found
      cases head with
      | punct symbol joint =>
          cases marks with
          | nil =>
              rw [takeMarks] at found
              split at found
              · rename_i same
                cases found
                exact ⟨joint, by simp [spelled, same], by simp [spelledPieces]⟩
              · cases found
          | cons next marks =>
              rw [takeMarks] at found
              split at found
              · rename_i same
                obtain ⟨later, again, rfl⟩ := Option.map_eq_some_iff.mp found
                obtain ⟨last, whole, pieces⟩ := ih again
                refine ⟨last, ?_, ?_⟩
                · rw [spelled, List.cons_append, ← whole]
                  simp [same.1, same.2]
                · exact congrArg (Piece.mark mark true true :: ·) pieces
              · cases found
      | _ => cases marks <;> cases found

/-- The marks of an operator are taken where they stand. -/
theorem takeMarks_spelled (marks : List Char) (joint : Bool) (rest : List Tree) :
    ∃ conserved, takeMarks marks (spelled marks joint ++ rest) =
      some ⟨(), spelledPieces marks joint, rest, conserved⟩ := by
  induction marks with
  | nil => exact ⟨rfl, rfl⟩
  | cons mark marks ih =>
      obtain ⟨conserved, found⟩ := ih
      cases marks with
      | nil =>
          exact ⟨by simp [spelledPieces, spelled, Piece.source],
            by simp [takeMarks, spelled, spelledPieces]⟩
      | cons next marks =>
          refine ⟨?_, ?_⟩
          · rw [spelledPieces, sourceAll_cons, List.append_assoc, conserved]
            rfl
          · change takeMarks (mark :: next :: marks)
              (.punct mark true :: (spelled (next :: marks) joint ++ rest)) = _
            rw [takeMarks, dif_pos ⟨rfl, rfl⟩, found]
            rfl

/-- An operator is read where its marks stand. -/
theorem reads_spelled {text : String} {trees rest : List Tree} {value : Unit} {taken : List Piece} :
    (operator text).Reads trees value taken rest ↔
      ∃ joint, trees = spelled text.toList joint ++ rest ∧
        taken = spelledPieces text.toList joint := by
  rw [reads_operator]
  constructor
  · rintro ⟨_, found⟩
    exact takeMarks_eq_some found
  · rintro ⟨joint, rfl, rfl⟩
    exact takeMarks_spelled _ _ _

theorem startsMarks_spelled (marks : List Char) (joint : Bool) (rest : List Tree) :
    startsMarks marks (spelled marks joint ++ rest) = true := by
  induction marks with
  | nil => rfl
  | cons mark marks ih =>
      cases marks with
      | nil => simp [startsMarks, spelled]
      | cons next marks =>
          rw [spelled, List.cons_append, startsMarks, ih]
          simp

theorem print_spelledPieces (marks : List Char) (joint : Bool) :
    printAll (spelledPieces marks joint) = spelled marks false := by
  induction marks with
  | nil => rfl
  | cons mark marks ih =>
      rw [spelledPieces, spelled, ← ih]
      cases marks <;> rfl

theorem plain_spelledPieces (marks : List Char) : PlainAll (spelledPieces marks false) := by
  induction marks with
  | nil => exact trivial
  | cons mark marks ih =>
      refine ⟨?_, ih⟩
      cases marks <;> rfl

/-- The marks of an operator stand first, in the second trees with its own spacing, and what is
behind them is related. -/
def Marked (text : String) (behind : Sight) : Sight := fun x y =>
  ∃ joint rest other, x = spelled text.toList joint ++ rest ∧
    y = spelled text.toList false ++ other ∧ behind rest other

theorem Marked.holds {text : String} {behind : Sight} {x y : List Tree}
    (marked : Marked text behind x y) : atOperator text y = true := by
  obtain ⟨joint, rest, other, _, rfl, _⟩ := marked
  exact startsMarks_spelled _ _ _

theorem Marked.written {text : String} {behind : Sight} {x y : List Tree}
    (marked : Marked text behind x y) : atOperator text x = true := by
  obtain ⟨joint, rest, other, rfl, _⟩ := marked
  exact startsMarks_spelled _ _ _

theorem Follows.operator (text : String) {behind : Sight} :
    Again (operator text) (Marked text behind) behind := by
  intro trees rest other value taken read _ relation
  obtain ⟨joint, rfl, rfl⟩ := reads_spelled.mp read
  rw [print_spelledPieces]
  exact ⟨⟨joint, rest, other, rfl, rfl, relation⟩, value, _, rfl, reads_spelled.mpr ⟨_, rfl, rfl⟩,
    plain_spelledPieces _⟩

/-- The marks of an operator begin alike when nothing behind them belongs to the last one. -/
theorem head_spelled {mark : Char} (marks : List Char) {joint : Bool} {x y : List Tree}
    (clear : Clear mark x) (next : mark ∈ leadingMarks → headKind x = headKind y) :
    Head (spelled (marks ++ [mark]) joint ++ x) (spelled (marks ++ [mark]) false ++ y) := by
  induction marks with
  | nil =>
      refine Head.mark (fun glued => ?_) (fun next member _ _ => clear next member) next
      cases glued
  | cons first marks ih =>
      have more : (marks ++ [mark]).isEmpty = false := by simp
      rw [List.cons_append, spelled, spelled, more]
      refine Head.mark (fun _ => ⟨rfl, ih⟩) (fun _ _ _ contrary => ?_) fun _ => ih.kind
      simp at contrary

/-- Trees that begin with one operator begin alike when nothing behind it belongs to it. -/
theorem Marked.head {text : String} {behind : Sight} {x y : List Tree} {mark : Char}
    (marked : Marked text behind x y) (marks : List Char) (own : text.toList = marks ++ [mark])
    (alike : ∀ x y, behind x y → Head x y) (clear : ∀ x y, behind x y → Clear mark x) :
    Head x y := by
  obtain ⟨joint, rest, other, rfl, rfl, relation⟩ := marked
  rw [own]
  exact head_spelled marks (clear _ _ relation) fun _ => (alike _ _ relation).kind

/-- An operator behind whose last mark none stands that belongs to it, whatever else is behind it.
-/
theorem Marked.kept {text : String} {behind : Sight} {x y : List Tree} {mark : Char}
    (marked : Marked text behind x y) (marks : List Char) (own : text.toList = marks ++ [mark])
    (plain : leadingMarks.contains mark = false) (clear : ∀ x y, behind x y → Clear mark x) :
    Head x y := by
  obtain ⟨joint, rest, other, rfl, rfl, relation⟩ := marked
  rw [List.contains_eq_mem, decide_eq_false_iff_not] at plain
  rw [own]
  exact head_spelled marks (clear _ _ relation) fun leading => absurd leading plain

/-- A mark that no firm operator begins with, whatever is behind it. -/
theorem Marked.loose {text : String} {behind : Sight} {x y : List Tree} {mark : Char}
    (marked : Marked text behind x y) (own : text.toList = [mark])
    (free : (firmOperators.all (·.1 != mark) && !leadingMarks.contains mark) = true) :
    Head x y := by
  rw [Bool.and_eq_true, Bool.not_eq_true'] at free
  exact marked.kept [] own free.2 fun x _ _ => .of_free free.1 x

/-- A colon, behind which no other one stands alone. -/
theorem Marked.colon {behind : Sight} {x y : List Tree} (marked : Marked ":" behind x y)
    (fresh : ∀ x y, behind x y → headKind x = some (.punct ':') → atOperator "::" x = true) :
    Next x y := by
  obtain ⟨joint, rest, other, rfl, rfl, relation⟩ := marked
  refine .inr ⟨rfl, fun colons => ?_, rfl, rfl⟩
  obtain ⟨_, whole, later⟩ := startsMarks_cons.mp (show startsMarks [':', ':'] _ = true from colons)
  cases whole
  have colons := fresh _ _ relation (kind_of_startsMarks later)
  obtain ⟨_, rfl, last⟩ := startsMarks_cons.mp (show startsMarks [':', ':'] _ = true from colons)
  exact kind_of_startsMarks last

/-- A mark that is not the first of an operator of two marks is not so in the second trees either.
-/
theorem Marked.alone {text : String} {mark next : Char} {behind : Sight} {x y : List Tree}
    (marked : Marked text behind x y) (single : text.toList = [mark]) :
    startsMarks [mark, next] y = false := by
  obtain ⟨joint, rest, other, rfl, rfl, relation⟩ := marked
  rw [single]
  change startsMarks [mark, next] (.punct mark false :: other) = false
  rw [startsMarks_punct_pair, Bool.and_false, Bool.false_and]

/-- An operator before a phrase. -/
theorem Marked.before {text : String} {behind : Sight} {x y : List Tree} {mark : Char}
    (marked : Marked text behind x y) (marks : List Char) (own : text.toList = marks ++ [mark])
    (last : mark ≠ '.' ∧ mark ≠ ':') (alike : ∀ x y, behind x y → Head x y ∧ Fresh x) : Head x y :=
  marked.head marks own (fun x y relation => (alike x y relation).1) fun x y relation =>
    (alike x y relation).2.clear last

/-! ### How phrases start -/

section Starts

variable {behind after : Sight} {stated : Tree → Prop} {x y : List Tree}

/-- Trees that begin with a tree that is no mark begin alike. -/
theorem Ahead.head (ahead : Ahead stated behind x y)
    (quiet : ∀ tree, stated tree → isQuiet (some tree.kind) = true) : Head x y := by
  obtain ⟨tree, rest, other, holds, rfl, rfl, _⟩ := ahead
  exact Head.of_quiet rfl (quiet tree holds)

/-- A tree that is no mark leads. -/
theorem Ahead.leads (ahead : Ahead stated behind x y)
    (quiet : ∀ tree, stated tree → isQuiet (some tree.kind) = true)
    (second : ∀ x y, behind x y → Head x y ∨ after x y) : Leads after x y := by
  have head := ahead.head quiet
  obtain ⟨tree, rest, other, holds, rfl, rfl, relation⟩ := ahead
  have quiet := quiet tree holds
  exact ⟨head, Fresh.of_quiet quiet, head.generics (quiet_not_angle quiet),
    fun _ => second _ _ relation⟩

/-- A tree behind which no test looks leads. -/
theorem Ahead.leads_closed (ahead : Ahead stated behind x y) (quiet : ∀ tree, stated tree →
      isQuiet (some tree.kind) = true ∧ isOpen (some tree.kind) = false) :
    Leads after x y := by
  have head := ahead.head fun tree holds => (quiet tree holds).1
  obtain ⟨tree, rest, other, holds, rfl, rfl, relation⟩ := ahead
  obtain ⟨quiet, closed⟩ := quiet tree holds
  exact ⟨head, Fresh.of_quiet quiet, head.generics (quiet_not_angle quiet),
    fun opens => absurd (closed.symm.trans opens) Bool.false_ne_true⟩

theorem Grouped.head {delimiter : Delimiter} {inside : Sight}
    (grouped : Grouped delimiter inside behind x y) : Head x y := by
  obtain ⟨content, shown, rest, other, rfl, rfl, _, _⟩ := grouped
  exact Head.of_quiet rfl rfl

theorem Grouped.leads {delimiter : Delimiter} {inside : Sight}
    (grouped : Grouped delimiter inside behind x y) : Leads after x y := by
  have head := grouped.head
  obtain ⟨content, shown, rest, other, rfl, rfl, _, _⟩ := grouped
  exact ⟨head, Fresh.of_quiet rfl, head.generics (quiet_not_angle rfl), fun opens => by cases opens⟩

/-- An operator leads whose first mark begins a phrase. -/
theorem Marked.leads {text : String} {mark : Char} {marks : List Char}
    (marked : Marked text behind x y) (head : Head x y) (own : text.toList = mark :: marks)
    (begins : mark ≠ '=' ∧ mark ≠ '>' ∧ mark ≠ '<' ∧ (mark = ':' → text = "::")) :
    Leads after x y := by
  obtain ⟨joint, rest, other, whole, _, _⟩ := marked
  have first : headKind x = some (.punct mark) := by
    rw [whole, own]
    rfl
  have starts : atOperator text x = true := whole ▸ startsMarks_spelled _ _ _
  refine ⟨head, ⟨?_, ?_, fun colon => ?_⟩, head.generics ?_, fun opens => ?_⟩
  · simp [first, begins.1]
  · simp [first, begins.2.1]
  · obtain rfl : mark = ':' := by simpa [first] using colon
    exact begins.2.2.2 rfl ▸ starts
  · simp [first, begins.2.2.1]
  · rw [first] at opens
    cases opens

end Starts

/-! ### Optional parts -/

/-- A part that is read where a test holds. -/
theorem Follows.optional {test : List Tree → Bool} {part : Reader Unit} {ends : Bool → Sight}
    (whenever : Sight) (own : Again part whenever (ends true))
    (holds : ∀ x y, test x = true → whenever x y → test y = true ∧ starts x y)
    (fails : ∀ x y, test x = false → ends false x y → test y = false ∧ starts x y) :
    Follows
      (do
        if test (← ahead) then
          part
          return true
        else return false)
      (do
        if test (← ahead) then
          part
          return true
        else return false)
      Eq starts ends :=
  .choose _ _ (own.bind _ fun _ => .pure rfl).always (Follows.pure rfl).always holds fails

/-- A keyword that may be missing is read again, and is missing again. -/
theorem Follows.keyword? (text : String) {ends : Bool → Sight}
    (holds : ∀ x y, Ahead (· = name text) (ends true) x y → starts x y)
    (fails : ∀ x y, atKeyword text x = false → ends false x y →
      atKeyword text y = false ∧ starts x y) :
    Follows (keyword? text) (keyword? text) Eq starts ends := by
  refine .optional (Ahead (· = name text) (ends true))
    ((copies_keyword text).follows fun _ _ _ => id) (fun x y _ led => ⟨?_, holds x y led⟩) fails
  obtain ⟨_, _, _, rfl, _, rfl, _⟩ := led
  rw [atKeyword_eq]
  simp [name, Tree.kind]

theorem Follows.operator? (text : String) {ends : Bool → Sight}
    (holds : ∀ x y, Marked text (ends true) x y → starts x y)
    (fails : ∀ x y, atOperator text x = false → ends false x y →
      atOperator text y = false ∧ starts x y) :
    Follows (operator? text) (operator? text) Eq starts ends :=
  .optional _ (.operator text) (fun x y _ marked => ⟨marked.holds, holds x y marked⟩) fails

theorem Follows.branch {yes no : Reader α} {yes' no' : Reader β} {whenever otherwise : Sight}
    (found : Bool) (first : Follows yes yes' like whenever ends)
    (second : Follows no no' like otherwise ends) :
    Follows (if found = true then yes else no) (if found = true then yes' else no') like
      (cond found whenever otherwise) ends := by
  cases found with
  | true => exact first
  | false => exact second

/-- Going on by whether an operator was taken. -/
theorem Follows.operatorIf (text : String) {yes no : Reader α} {yes' no' : Reader β}
    (whenever otherwise : Sight) (first : Follows yes yes' like whenever ends)
    (second : Follows no no' like otherwise ends)
    (holds : ∀ x y, Marked text whenever x y → starts x y)
    (fails : ∀ x y, atOperator text x = false → otherwise x y →
      atOperator text y = false ∧ starts x y) :
    Follows (Reader.operator? text >>= fun found => if found = true then yes else no)
      (Reader.operator? text >>= fun found => if found = true then yes' else no') like starts
      ends :=
  .bind (fun found => cond found whenever otherwise) (.operator? text holds fails)
    fun found => .branch found first second

/-- Going on by whether a keyword was taken. -/
theorem Follows.keywordIf (text : String) {yes no : Reader α} {yes' no' : Reader β}
    (whenever otherwise : Sight) (first : Follows yes yes' like whenever ends)
    (second : Follows no no' like otherwise ends)
    (holds : ∀ x y, Ahead (· = name text) whenever x y → starts x y)
    (fails : ∀ x y, atKeyword text x = false → otherwise x y →
      atKeyword text y = false ∧ starts x y) :
    Follows (Reader.keyword? text >>= fun found => if found = true then yes else no)
      (Reader.keyword? text >>= fun found => if found = true then yes' else no') like starts ends :=
  .bind (fun found => cond found whenever otherwise) (.keyword? text holds fails)
    fun found => .branch found first second

/-- A lifetime that may be missing is read again, and is missing again. -/
theorem Follows.lifetime? {ends : Option Ident → Sight}
    (holds : ∀ name x y, Ahead (· = .lifetime name) (ends (some name)) x y → starts x y)
    (fails : ∀ x y, atLifetime x = false → ends none x y → atLifetime y = false ∧ starts x y) :
    Follows lifetime? lifetime? Eq starts ends := by
  refine .choose (fun x y => ∃ name, Ahead (· = .lifetime name) (ends (some name)) x y) _
    (Follows.always ?_) (Follows.pure rfl).always (fun x y _ led => ⟨?_, ?_⟩) fails
  · exact (copies_lifetime.follows fun name _ _ led => ⟨name, led⟩).bind _ fun _ => .pure rfl
  · obtain ⟨_, _, _, _, rfl, _, rfl, _⟩ := led
    rfl
  · obtain ⟨name, led⟩ := led
    exact holds name x y led

/-! ### Words and marks that lead -/

section Lead

variable {behind after : Sight}

/-- A keyword is read again wherever it leads to what the tests look at behind it. -/
theorem Again.keyword (text : String) (second : ∀ x y, after x y → Head x y ∨ behind x y) :
    Again (Reader.keyword text) (Leads behind) after :=
  (copies_keyword text).follows fun _ _ _ ahead => ahead.leads (by rintro _ rfl; rfl) second

/-- Behind a keyword that no test looks behind, anything may stand. -/
theorem Again.closed {text : String} (quiet : isOpen (some (name text).kind) = false) :
    Again (Reader.keyword text) (Leads behind) after :=
  (copies_keyword text).follows fun _ _ _ ahead =>
    ahead.leads_closed (by rintro _ rfl; exact ⟨rfl, quiet⟩)

theorem Again.lifetime (second : ∀ x y, after x y → Head x y ∨ behind x y) :
    Again Reader.lifetime (Leads behind) after :=
  copies_lifetime.follows fun _ _ _ ahead => ahead.leads (by rintro _ rfl; rfl) second

theorem Again.word (second : ∀ x y, after x y → Head x y ∨ behind x y) :
    Again Reader.word (Leads behind) after :=
  copies_word.follows fun _ _ _ ahead => ahead.leads (by rintro _ rfl; rfl) second

theorem Again.ident (second : ∀ x y, after x y → Head x y ∨ behind x y) :
    Again Reader.ident (Leads behind) after :=
  copies_ident.follows fun _ _ _ ahead => ahead.leads (by rintro _ ⟨rfl, _⟩; rfl) second

theorem Again.keyword? (text : String) :
    Again (Reader.keyword? text) (Leads behind) (Leads behind) :=
  Follows.keyword? text
    (fun _ _ ahead => ahead.leads (by rintro _ rfl; rfl) fun _ _ leads => .inl leads.head)
    fun _ _ absent leads => ⟨(Seen.keyword _ leads.head).symm.trans absent, leads⟩

theorem Again.lifetime? : Again Reader.lifetime? (Leads behind) (Leads behind) :=
  Follows.lifetime?
    (fun _ _ _ ahead => ahead.leads (by rintro _ rfl; rfl) fun _ _ leads => .inl leads.head)
    fun _ _ absent leads => ⟨(Seen.lifetime leads.head).symm.trans absent, leads⟩

/-- A mark that belongs to no operator of two marks and begins a phrase. -/
def Begins (text : String) (mark : Char) : Prop :=
  text.toList = [mark] ∧
    (firmOperators.all (·.1 != mark) && !leadingMarks.contains mark) = true ∧
    mark ≠ '=' ∧ mark ≠ '>' ∧ mark ≠ '<' ∧ mark ≠ ':'

theorem Begins.leads {text : String} {mark : Char} (begins : Begins text mark) {x y : List Tree}
    (marked : Marked text after x y) : Leads behind x y :=
  have ⟨single, free, equals, greater, less, colon⟩ := begins
  marked.leads (marked.loose single free) single
    ⟨equals, greater, less, fun same => absurd same colon⟩

theorem Again.operator? {text : String} {mark : Char} (begins : Begins text mark) :
    Again (Reader.operator? text) (Leads behind) (Leads behind) :=
  Follows.operator? text (fun _ _ => begins.leads) fun _ _ absent leads =>
    ⟨(Seen.mark begins.1 leads.head).symm.trans absent, leads⟩

end Lead

theorem Follows.discard (own : Follows one two like starts ends) {behind : Sight}
    (same : ∀ value x y, behind x y → ends value x y) :
    Follows (discard one) (discard two) Eq starts fun _ => behind := by
  intro trees rest other value taken read settled relation
  obtain ⟨found, read⟩ := reads_discard.mp read
  obtain ⟨before, found, again, _, reads, keeps⟩ := own read settled (same _ _ _ relation)
  exact ⟨before, value, again, rfl, reads_discard.mpr ⟨found, reads⟩, keeps⟩

theorem Follows.dropped {behind : Sight} (own : Follows one two like starts fun _ => behind) :
    Follows (Functor.discard one) (Functor.discard two) Eq starts fun _ => behind :=
  own.discard fun _ _ _ => id

/-- A phrase that is read again prints the same. -/
theorem Follows.phrase (own : Follows one two like starts ends) :
    Follows (phrase one) (phrase two)
      (fun value found => like value.kind found.kind ∧ found.print = value.print) starts
      fun value => ends value.kind := by
  intro trees rest other value taken read settled behind
  obtain ⟨rfl, read⟩ := reads_phrase.mp read
  obtain ⟨before, found, again, alike, reads, keeps⟩ := own read settled behind
  refine ⟨before, ⟨found, again⟩, again, ⟨alike, ?_⟩, reads_phrase.mpr ⟨rfl, reads⟩, keeps⟩
  exact (printAll_of_plain keeps).trans (List.append_cancel_right reads.conserved)

/-! ### Loops -/

theorem forall₂_total {α β : Type} {like : α → β → Prop}
    (total : ∀ value, ∃ found, like value found)
    (values : List α) : ∃ others, List.Forall₂ like values others := by
  induction values with
  | nil => exact ⟨[], .nil⟩
  | cons value values ih =>
      obtain ⟨found, alike⟩ := total value
      obtain ⟨others, same⟩ := ih
      exact ⟨found :: others, .cons alike same⟩

/-- A loop follows another when its rounds do. -/
theorem Follows.loop {step : σ → Reader (σ ⊕ α)} {step' : τ → Reader (τ ⊕ β)}
    (progresses' : Progresses step') (states : σ → τ → Prop)
    (before : σ → Sight) (total : ∀ state, ∃ state', states state state')
    (each : ∀ state state', states state state' → Follows (step state) (step' state')
      (Sum.LiftRel states like) (before state) (Sum.elim before ends))
    {state : σ} {state' : τ} (same : states state state') :
    Follows (Reader.loop step state) (Reader.loop step' state') like (before state) ends := by
  intro trees rest other value taken read settled behind
  refine Reads.loop_induction (motive := fun state trees value taken rest =>
    SettledAll taken → ends value rest other → ∀ {state'}, states state state' →
      before state trees (printAll taken ++ other) ∧ ∃ found again, like value found ∧
        (Reader.loop step' state').Reads (printAll taken ++ other) found again other ∧
          PlainAll again) ?_ ?_ read settled behind same
  · intro state trees value taken rest round settled behind state' same
    obtain ⟨starting, result, again, alike, reads, keeps⟩ := each _ _ same round settled behind
    cases alike with
    | inr alike =>
        refine ⟨starting, _, again, alike, (reads_loop progresses').mpr ?_, keeps⟩
        exact reads_bind.mpr ⟨_, again, [], other, reads, reads_pure.mpr ⟨rfl, rfl, rfl⟩,
          (List.append_nil again).symm⟩
  · intro state next trees between rest value one two round ih settled behind state' same
    obtain ⟨own, others⟩ := settledAll_append.mp settled
    -- How the later rounds start does not depend on the state that this round leaves.
    obtain ⟨some, known⟩ := total next
    obtain ⟨starting, result, again, alike, reads, keeps⟩ :=
      each _ _ same round own (ih others behind known).1
    cases alike with
    | inl alike =>
        obtain ⟨_, found, more, alike, onward, keeping⟩ := ih others behind alike
        rw [printAll_append, List.append_assoc]
        refine ⟨starting, found, again ++ more, alike, (reads_loop progresses').mpr ?_,
          plainAll_append.mpr ⟨keeps, keeping⟩⟩
        exact reads_bind.mpr ⟨_, again, more, _, reads, onward, rfl⟩

/-- A loop with the same rounds. -/
theorem Follows.loopSame {step : σ → Reader (σ ⊕ α)} {ends : α → Sight}
    (progresses : Progresses step) (before : σ → Sight)
    (each : ∀ state, Follows (step state) (step state) Eq (before state) (Sum.elim before ends))
    (state : σ) :
    Follows (Reader.loop step state) (Reader.loop step state) Eq (before state) ends := by
  refine .loop progresses Eq before (fun state => ⟨state, rfl⟩) ?_ rfl
  rintro state _ rfl
  refine (each state).liking ?_
  rintro (value | value) _ rfl
  · exact .inl rfl
  · exact .inr rfl

/-- Reading while a test holds. -/
theorem Follows.many {more : List Tree → Bool} {before behind : Sight}
    (takes' : Takes two fun _ => True) (total : ∀ value, ∃ found, like value found)
    (own : Follows one two like starts fun _ => before)
    (holds : ∀ x y, more x = true → starts x y → more y = true ∧ before x y)
    (fails : ∀ x y, more x = false → behind x y → more y = false ∧ before x y) :
    Follows (many more one) (many more two) (List.Forall₂ like) before fun _ => behind := by
  have rounds {α : Type} {reader : Reader α} (takes : Takes reader fun _ => True) :
      Progresses fun values : List α => do
        if more (← ahead) then return .inl ((← reader) :: values)
        else return Sum.inr values :=
    fun _ => Takes.second fun _ => Takes.ite takes.first (Takes.pure Bool.false_ne_true)
  refine Follows.bindLike (fun _ => behind)
    (.loop (rounds takes') (List.Forall₂ like) (fun _ => before) ?_ ?_ .nil)
    ?_ fun _ _ same => .pure (List.forall₂_reverse_iff.mpr same)
  · exact forall₂_total total
  · intro values values' same
    refine .choose starts behind (Follows.always ?_) (Follows.always ?_)
      holds fails
    · exact own.bindLike _ total fun _ _ alike => .pure (.inl (.cons alike same))
    · exact .pure (.inr same)
  · exact forall₂_total total

/-- One round through a sequence separated by commas. -/
def commaStep (reader : Reader α) (values : List (α × Bool)) :
    Reader (List (α × Bool) ⊕ List (α × Bool)) := do
  if (← ahead).isEmpty then return .inr values
  let value ← reader
  if (← ahead).isEmpty then return .inr ((value, false) :: values)
  operator ","
  return .inl ((value, true) :: values)

theorem commaSeparated_eq (reader : Reader α) :
    commaSeparated reader = (·.reverse) <$> Reader.loop (commaStep reader) [] := rfl

theorem progresses_commaStep (reader : Reader α) : Progresses (commaStep reader) := by
  intro values
  refine Takes.second fun _ => .ite (.pure Bool.false_ne_true) ?_
  refine Takes.second fun _ => Takes.second fun _ => .ite (.pure Bool.false_ne_true) ?_
  exact (takes_operator rfl).first

theorem Head.at_end {x y : List Tree} (ends : AtEnd x y) : Head x y := by
  obtain ⟨rfl, rfl⟩ := ends
  exact .refl []

/-- An element of a sequence ends before a comma or at the end. -/
structure Divided (x y : List Tree) : Prop extends Head x y where
  parts : headKind x = none ∨ headKind x = some (.punct ',')

theorem Divided.at_end {x y : List Tree} (ends : AtEnd x y) : Divided x y :=
  ⟨Head.at_end ends, .inl (headKind_eq_none.mpr ends.1)⟩

/-- No operator begins with a comma. -/
theorem Marked.comma {behind : Sight} {x y : List Tree} (marked : Marked "," behind x y) :
    Divided x y := by
  obtain ⟨joint, rest, other, rfl, rfl, _⟩ := marked
  exact ⟨Head.of_quiet rfl rfl, .inr rfl⟩

/-- Points as the last thing of an element. -/
theorem Marked.points {text : String} {x y : List Tree} (marked : Marked text Divided x y)
    (marks : List Char) (own : text.toList = marks ++ ['.']) : Head x y := by
  refine marked.head marks own (fun _ _ ended => ended.toHead) fun x y ended =>
    .point fun point => ?_
  have parts := ended.parts
  rw [point] at parts
  rcases parts with none | comma
  · cases none
  · cases comma

theorem Marked.dots {x y : List Tree} (marked : Marked "..." Divided x y) : Head x y :=
  marked.points ['.', '.'] rfl

/-- Reading to the end, separated by commas. -/
theorem Follows.commaSeparated (total : ∀ value, ∃ found, like value found)
    (own : Follows one two like starts fun _ => Divided) (first : ∀ x y, starts x y → Head x y) :
    Follows (Reader.commaSeparated one) (Reader.commaSeparated two)
      (List.Forall₂ fun value found => like value.1 found.1 ∧ value.2 = found.2)
      (fun x y => starts x y ∨ AtEnd x y) fun _ => AtEnd := by
  have each (value : α × Bool) : ∃ found : β × Bool, like value.1 found.1 ∧ value.2 = found.2 := by
    obtain ⟨found, alike⟩ := total value.1
    exact ⟨(found, value.2), alike, rfl⟩
  rw [commaSeparated_eq, commaSeparated_eq]
  refine Follows.bindLike (fun _ => AtEnd) (.loop (progresses_commaStep two) _
      (fun _ x y => starts x y ∨ AtEnd x y) (forall₂_total each)
      (fun values values' same => ?_) .nil)
    (forall₂_total each) fun _ _ same => .pure (List.forall₂_reverse_iff.mpr same)
  refine .choose AtEnd starts (Follows.always (.pure (.inr same)))
    (Follows.always ?_) (fun x y _ ended => ⟨?_, .inr ended⟩) fun x y more begun => ⟨?_, .inl begun⟩
  · refine own.bindLike _ total fun value found alike => ?_
    refine .choose AtEnd (Marked "," fun x y => starts x y ∨ AtEnd x y)
      (Follows.always (.pure (.inr (.cons ⟨alike, rfl⟩ same)))) (Follows.always ?_)
      (fun x y _ ended => ⟨?_, Divided.at_end ended⟩) fun x y _ marked => ⟨?_, marked.comma⟩
    · exact (Follows.operator ",").bind _ fun _ => .pure (.inl (.cons ⟨alike, rfl⟩ same))
    · rw [ended.2]
      rfl
    · obtain ⟨_, _, _, _, rfl, _⟩ := marked
      rfl
  · rw [ended.2]
    rfl
  · exact (Seen.isEmpty (first x y begun)).symm.trans more

/-- A list between delimiters. -/
theorem Follows.list {one : Reader α} {delimiter : Delimiter} {behind : Sight}
    (own : Again one starts Divided) (first : ∀ x y, starts x y → Head x y) :
    Again (Functor.discard (Reader.group delimiter (Reader.commaSeparated one)))
      (Grouped delimiter (fun _ _ => True) behind) behind := by
  refine (Follows.dropped
    (.group (Follows.commaSeparated (fun value => ⟨value, rfl⟩) own first))).starting ?_
  rintro _ _ ⟨content, shown, rest, other, rfl, rfl, _, relation⟩
  exact ⟨content, shown, rest, other, rfl, rfl, trivial, relation⟩

end Reader

end Source
end Toolsmith
