import Mathlib
import Toolsmith.Source.Grammar

/-! # What is seen of the trees ahead

A reader chooses by tests on trees that it does not take. Where these trees are printed in another
form than they were written in, such as with other spacing, it should choose the same. `Head`
relates trees as they were written and as they are printed whose beginnings are not told apart by
the tests of the grammar. After a type there may be even less in common (`Beyond`), since a `where`
clause without conditions is not printed.
-/

namespace Toolsmith
namespace Source

/-- What the tests of the grammar see of a tree. -/
inductive TreeKind where
  | ident (name : Ident)
  | punct (mark : Char)
  | lifetime
  | literal (number : Bool)
  | group (delimiter : Delimiter)
deriving DecidableEq

/-- The kind of a tree. -/
def Tree.kind : Tree → TreeKind
  | .ident name => .ident name
  | .punct mark _ => .punct mark
  | .lifetime _ => .lifetime
  | .literal text => .literal (isNumber text)
  | .group delimiter _ => .group delimiter

/-- The kind of the first tree. -/
def headKind (trees : List Tree) : Option TreeKind := trees.head?.map Tree.kind

@[simp] theorem headKind_nil : headKind [] = none := rfl

@[simp] theorem headKind_cons (head : Tree) (rest : List Tree) :
    headKind (head :: rest) = some head.kind := rfl

theorem headKind_eq_none {trees : List Tree} : headKind trees = none ↔ trees = [] := by
  cases trees <;> simp

/-- A tree of the kind of a mark is that mark. -/
theorem eq_of_kind_punct {mark : Char} {trees : List Tree}
    (kind : headKind trees = some (.punct mark)) :
    ∃ joint rest, trees = .punct mark joint :: rest := by
  rcases trees with _ | ⟨head, rest⟩
  · cases kind
  cases head with
  | punct found joint =>
      cases kind
      exact ⟨joint, rest, rfl⟩
  | _ => cases kind

section Tests

variable {x y : List Tree}

theorem atKeyword_eq (text : String) (trees : List Tree) :
    atKeyword text trees = (headKind trees == some (.ident ⟨false, text⟩)) := by
  rcases trees with _ | ⟨head, rest⟩
  · rfl
  cases head <;> simp [atKeyword, Tree.kind]

theorem atGroup_eq (delimiter : Delimiter) (trees : List Tree) :
    atGroup delimiter trees = (headKind trees == some (.group delimiter)) := by
  rcases trees with _ | ⟨head, rest⟩
  · rfl
  cases head <;> simp [atGroup, Tree.kind]

theorem atLifetime_eq (trees : List Tree) :
    atLifetime trees = (headKind trees == some .lifetime) := by
  rcases trees with _ | ⟨head, rest⟩
  · rfl
  cases head <;> simp [atLifetime, Tree.kind]

/-- The tree is an identifier that passes the test. -/
def TreeKind.isIdent (test : Ident → Bool) : TreeKind → Bool
  | .ident name => test name
  | _ => false

theorem atIdent_eq (trees : List Tree) :
    atIdent trees = (headKind trees).any (TreeKind.isIdent Ident.isPlain) := by
  rcases trees with _ | ⟨head, rest⟩
  · rfl
  cases head <;> simp [atIdent, Tree.kind, TreeKind.isIdent]

theorem atWord_eq (trees : List Tree) :
    atWord trees = (headKind trees).any (TreeKind.isIdent fun _ => true) := by
  rcases trees with _ | ⟨head, rest⟩
  · rfl
  cases head <;> simp [atWord, Tree.kind, TreeKind.isIdent]

theorem isEmpty_eq (trees : List Tree) : trees.isEmpty = (headKind trees == none) := by
  cases trees <;> simp

theorem startsMarks_single (mark : Char) (trees : List Tree) :
    startsMarks [mark] trees = (headKind trees == some (.punct mark)) := by
  rcases trees with _ | ⟨head, rest⟩
  · rfl
  cases head <;> simp [startsMarks, Tree.kind]

/-- An operator of more than one mark begins with a joint one. -/
theorem startsMarks_cons {mark next : Char} {marks : List Char} {trees : List Tree} :
    startsMarks (mark :: next :: marks) trees = true ↔
      ∃ rest, trees = .punct mark true :: rest ∧ startsMarks (next :: marks) rest = true := by
  rcases trees with _ | ⟨head, rest⟩
  · simp [startsMarks]
  cases head with
  | punct found joint =>
      cases joint <;> simp [startsMarks]
  | _ => simp [startsMarks]

/-- An operator is seen by its first mark. -/
theorem kind_of_startsMarks {mark : Char} {marks : List Char} {trees : List Tree}
    (starts : startsMarks (mark :: marks) trees = true) : headKind trees = some (.punct mark) := by
  cases marks with
  | nil => simpa [startsMarks_single] using starts
  | cons next marks =>
      obtain ⟨rest, rfl, _⟩ := startsMarks_cons.mp starts
      rfl

theorem startsMarks_punct_pair (mark next : Char) (joint : Bool) (found : Char) (rest : List Tree) :
    startsMarks [mark, next] (.punct found joint :: rest) =
      (found == mark && joint && headKind rest == some (.punct next)) := by
  simp [startsMarks, startsMarks_single]

end Tests

/-- The tree is a literal or a truth value. -/
def TreeKind.isLiteral : TreeKind → Bool
  | .literal _ => true
  | .ident name => name == ⟨false, "true"⟩ || name == ⟨false, "false"⟩
  | _ => false

/-- The tree is a number. -/
def TreeKind.isNumber : TreeKind → Bool
  | .literal number => number
  | _ => false

/-- A literal is seen by its kind, or by a sign and the kind of a number. -/
theorem atLiteral_eq (trees : List Tree) :
    atLiteral trees = ((headKind trees).any TreeKind.isLiteral ||
      (headKind trees == some (.punct '-') &&
        (headKind (trees.drop 1)).any TreeKind.isNumber)) := by
  rcases trees with _ | ⟨head, rest⟩
  · rfl
  cases head with
  | punct mark joint =>
      rcases rest with _ | ⟨second, rest⟩
      · by_cases minus : mark = '-' <;> simp [atLiteral, Tree.kind, minus, TreeKind.isLiteral]
      · by_cases minus : mark = '-'
        · subst minus
          cases second <;> simp [atLiteral, Tree.kind, TreeKind.isLiteral, TreeKind.isNumber]
        · simp [atLiteral, Tree.kind, minus, TreeKind.isLiteral]
  | _ => simp [atLiteral, Tree.kind, TreeKind.isLiteral]

/-! ### Trees that begin alike -/

/-- The operators of two marks that keep together: where both marks stand next they belong together.
-/
def firmOperators : List (Char × Char) :=
  [('!', '='), ('<', '='), ('.', '.'), (':', ':'), ('=', '>'), ('-', '>')]

/-- The marks behind which the kind of the next tree is looked at. -/
def leadingMarks : List Char := ['-', ':']

/-- The trees begin alike for all tests of the grammar, except that marks may be more spaced in the
second ones than in the first. -/
structure Head (x y : List Tree) : Prop where
  kind : headKind x = headKind y
  firm : ∀ pair ∈ firmOperators, startsMarks [pair.1, pair.2] x = startsMarks [pair.1, pair.2] y
  dots : atOperator "..." y = true → atOperator "..." x = true
  next : ∀ mark ∈ leadingMarks, headKind x = some (.punct mark) →
    headKind (x.drop 1) = headKind (y.drop 1)
  beyond : atOperator "::" x = true → headKind (x.drop 2) = headKind (y.drop 2)

/-- The marks that an operator of two marks begins with, or behind which the next tree is looked at.
-/
def isActive (mark : Char) : Bool :=
  ['+', '-', '*', '/', '%', '^', '&', '|', '<', '>', '=', '!', '.', ':'].contains mark

/-- The first tree is no mark that an operator of two marks begins with. -/
def isQuiet : Option TreeKind → Bool
  | some (.punct mark) => !isActive mark
  | _ => true

theorem Head.refl (trees : List Tree) : Head trees trees :=
  ⟨rfl, fun _ _ => rfl, id, fun _ _ _ => rfl, fun _ => rfl⟩

section Head

variable {x y : List Tree}

theorem Head.without_dots (head : Head x y) (absent : atOperator "..." x = false) :
    atOperator "..." y = false := by
  rw [Bool.eq_false_iff] at absent ⊢
  exact fun found => absent (head.dots found)

theorem quiet_startsMarks {mark next : Char} {marks : List Char} (active : isActive mark = true)
    (quiet : isQuiet (headKind x) = true) : startsMarks (mark :: next :: marks) x = false := by
  rw [Bool.eq_false_iff]
  intro starts
  rw [kind_of_startsMarks starts] at quiet
  simp [isQuiet, active] at quiet

/-- Trees that begin with one kind of tree, and no operator, begin alike. -/
theorem Head.of_quiet (same : headKind x = headKind y) (quiet : isQuiet (headKind x) = true) :
    Head x y := by
  have quiet' : isQuiet (headKind y) = true := same ▸ quiet
  refine { kind := same, firm := ?_, dots := ?_, next := ?_, beyond := ?_ }
  · intro pair member
    have active : isActive pair.1 = true := by
      revert pair
      decide
    rw [quiet_startsMarks active quiet, quiet_startsMarks active quiet']
  · intro found
    rw [atOperator, show "...".toList = ['.', '.', '.'] from rfl,
      quiet_startsMarks rfl quiet'] at found
    cases found
  · intro mark member found
    have all : leadingMarks.all isActive = true := rfl
    rw [found, isQuiet, List.all_eq_true.mp all mark member] at quiet
    cases quiet
  · intro found
    rw [atOperator, show "::".toList = [':', ':'] from rfl, quiet_startsMarks rfl quiet] at found
    cases found

/-- The mark of an operator, which may be followed by more space in the second trees. -/
theorem Head.mark {mark : Char} {joint printed : Bool}
    (glued : printed = true → joint = true ∧ Head x y)
    (apart : ∀ next, (mark, next) ∈ firmOperators → joint = true → printed = false →
      headKind x ≠ some (.punct next))
    (next : mark ∈ leadingMarks → headKind x = headKind y) :
    Head (.punct mark joint :: x) (.punct mark printed :: y) := by
  have pairs : ∀ pair ∈ firmOperators, startsMarks [pair.1, pair.2] (.punct mark joint :: x) =
      startsMarks [pair.1, pair.2] (.punct mark printed :: y) := by
    intro pair member
    rw [startsMarks_punct_pair, startsMarks_punct_pair]
    by_cases same : mark = pair.1
    · cases printed with
      | true =>
          obtain ⟨rfl, behind⟩ := glued rfl
          rw [behind.kind]
      | false =>
          cases joint with
          | true =>
              have other := apart pair.2 (same ▸ member) rfl rfl
              rw [beq_eq_false_iff_ne.mpr other, Bool.and_false, Bool.and_false, Bool.false_and]
          | false => rw [Bool.and_false, Bool.false_and, Bool.false_and]
    · rw [beq_eq_false_iff_ne.mpr same, Bool.false_and, Bool.false_and, Bool.false_and,
        Bool.false_and]
  refine { kind := rfl, firm := pairs, dots := ?_, next := ?_, beyond := ?_ }
  · intro found
    obtain ⟨_, whole, later⟩ :=
      startsMarks_cons.mp (show startsMarks ['.', '.', '.'] _ = true from found)
    cases whole
    obtain ⟨rfl, behind⟩ := glued rfl
    exact startsMarks_cons.mpr ⟨x, rfl, (behind.firm ('.', '.') (by decide)).trans later⟩
  · intro other member found
    obtain rfl : mark = other := by simpa [Tree.kind] using found
    exact next member
  · intro found
    have colons := pairs (':', ':') (by decide)
    have found : startsMarks [':', ':'] (.punct mark joint :: x) = true := found
    rw [found] at colons
    obtain ⟨_, whole, later⟩ := startsMarks_cons.mp colons.symm
    cases whole
    obtain ⟨rfl, behind⟩ := glued rfl
    have second : headKind x = some (.punct ':') := by
      rw [behind.kind]
      exact kind_of_startsMarks later
    exact behind.next ':' (by decide) second

end Head

/-! ### Tests that do not tell such trees apart -/

/-- The test sees no more than the kind of the first tree. -/
def OfKind {γ : Type} (seen : List Tree → γ) : Prop :=
  ∀ ⦃x y : List Tree⦄, headKind x = headKind y → seen x = seen y

/-- The test sees no more than the beginning. -/
def Seen {γ : Type} (seen : List Tree → γ) : Prop := ∀ ⦃x y : List Tree⦄, Head x y → seen x = seen y

namespace OfKind

theorem made {γ : Type} {seen : List Tree → γ} (made : Option TreeKind → γ)
    (own : ∀ trees, seen trees = made (headKind trees)) : OfKind seen := by
  intro x y same
  rw [own, own, same]

theorem seen {γ : Type} {seen : List Tree → γ} (own : OfKind seen) : Seen seen :=
  fun _ _ head => own head.kind

theorem keyword (text : String) : OfKind (atKeyword text) :=
  made (· == some (.ident ⟨false, text⟩)) (atKeyword_eq text)

theorem group (delimiter : Delimiter) : OfKind (atGroup delimiter) :=
  made (· == some (.group delimiter)) (atGroup_eq delimiter)

theorem lifetime : OfKind atLifetime := made (· == some .lifetime) atLifetime_eq

theorem ident : OfKind atIdent := made (·.any (TreeKind.isIdent Ident.isPlain)) atIdent_eq

theorem word : OfKind atWord := made (·.any (TreeKind.isIdent fun _ => true)) atWord_eq

theorem isEmpty : OfKind List.isEmpty := made (· == none) isEmpty_eq

theorem mark {text : String} {mark : Char} (single : text.toList = [mark]) :
    OfKind (atOperator text) :=
  made (· == some (.punct mark)) fun trees => by rw [atOperator, single, startsMarks_single]

theorem const {γ : Type} (value : γ) : OfKind fun _ => value := fun _ _ _ => rfl

theorem or {first second : List Tree → Bool} (one : OfKind first) (two : OfKind second) :
    OfKind fun trees => first trees || second trees := by
  intro x y same
  simp only [one same, two same]

theorem not {test : List Tree → Bool} (one : OfKind test) : OfKind fun trees => !test trees := by
  intro x y same
  simp only [one same]

theorem any {α : Type} {values : List α} {test : α → List Tree → Bool}
    (each : ∀ value ∈ values, OfKind (test value)) :
    OfKind fun trees => values.any (test · trees) := by
  intro x y same
  rw [Bool.eq_iff_iff, List.any_eq_true, List.any_eq_true]
  exact exists_congr fun value => and_congr_right fun member => by rw [each value member same]

theorem anyKeyword (texts : List String) : OfKind (atAnyKeyword texts) :=
  any fun text _ => keyword text

/-- Operators of one mark. -/
theorem anyMark {texts : List String} (single : texts.all (·.toList.length == 1) = true) :
    OfKind (atAnyOperator texts) := by
  refine any fun text member => ?_
  have one := List.all_eq_true.mp single text member
  rw [beq_iff_eq, List.length_eq_one_iff] at one
  obtain ⟨mark, spelled⟩ := one
  exact OfKind.mark spelled

end OfKind

namespace Seen

variable {γ : Type}

theorem const (value : γ) : Seen fun _ => value := fun _ _ _ => rfl

theorem keyword (text : String) : Seen (atKeyword text) := (OfKind.keyword text).seen

theorem group (delimiter : Delimiter) : Seen (atGroup delimiter) := (OfKind.group delimiter).seen

theorem lifetime : Seen atLifetime := OfKind.lifetime.seen

theorem ident : Seen atIdent := OfKind.ident.seen

theorem word : Seen atWord := OfKind.word.seen

theorem isEmpty : Seen List.isEmpty := OfKind.isEmpty.seen

theorem mark {text : String} {mark : Char} (single : text.toList = [mark]) :
    Seen (atOperator text) := (OfKind.mark single).seen

theorem anyMark {texts : List String} (single : texts.all (·.toList.length == 1) = true) :
    Seen (atAnyOperator texts) := (OfKind.anyMark single).seen

theorem firm {text : String} {first second : Char} (spelled : text.toList = [first, second])
    (member : (first, second) ∈ firmOperators) : Seen (atOperator text) := by
  intro x y head
  rw [atOperator, atOperator, spelled]
  exact head.firm _ member

theorem and {first second : List Tree → Bool} (one : Seen first) (two : Seen second) :
    Seen fun trees => first trees && second trees := by
  intro x y head
  simp only [one head, two head]

theorem or {first second : List Tree → Bool} (one : Seen first) (two : Seen second) :
    Seen fun trees => first trees || second trees := by
  intro x y head
  simp only [one head, two head]

theorem not {test : List Tree → Bool} (one : Seen test) : Seen fun trees => !test trees := by
  intro x y head
  simp only [one head]

theorem any {α : Type} {values : List α} {test : α → List Tree → Bool}
    (each : ∀ value ∈ values, Seen (test value)) : Seen fun trees => values.any (test · trees) := by
  intro x y head
  rw [Bool.eq_iff_iff, List.any_eq_true, List.any_eq_true]
  exact exists_congr fun value => and_congr_right fun member => by rw [each value member head]

theorem anyKeyword (texts : List String) : Seen (atAnyKeyword texts) :=
  (OfKind.anyKeyword texts).seen

theorem path : Seen atPath := (ident.or (firm rfl (by decide))).or (anyKeyword _)

/-- A test on what follows a double colon. -/
theorem beyondColons {test : List Tree → Bool} (own : OfKind test) :
    Seen fun trees => atOperator "::" trees && test (trees.drop 2) := by
  intro x y head
  have same : atOperator "::" x = atOperator "::" y := Seen.firm rfl (by decide) head
  dsimp only
  rw [same]
  cases found : atOperator "::" y with
  | false => rfl
  | true => rw [own (head.beyond (same.trans found))]

theorem literal : Seen atLiteral := by
  intro x y head
  rw [atLiteral_eq, atLiteral_eq, head.kind]
  congr 1
  by_cases minus : headKind y = some (.punct '-')
  · rw [head.next '-' (by decide) (head.kind.trans minus)]
  · rw [beq_eq_false_iff_ne.mpr minus, Bool.false_and, Bool.false_and]

end Seen

/-! ### Trees behind a pattern or a type -/

/-- A colon stands first in both. In the first trees it may belong to a double colon, where a path
from the root is written right behind it. -/
structure Colon (x y : List Tree) : Prop where
  written : headKind x = some (.punct ':')
  third : atOperator "::" x = true → headKind (x.drop 2) = some (.punct ':')
  printed : headKind y = some (.punct ':')
  apart : atOperator "::" y = false

/-- Trees that may follow a pattern. -/
def Next (x y : List Tree) : Prop := Head x y ∨ Colon x y

/-- What may follow a type that is complete. -/
def isClosing (kind : Option TreeKind) : Bool :=
  [none, some (.punct ';'), some (.punct '='), some (.punct ','), some (.punct '>'),
    some (.group .brace)].contains kind

/-- Both are trees that a type is complete before, such as a `where` clause that is not printed and
the semicolon behind it. -/
structure Closed (x y : List Tree) : Prop where
  written : isClosing (headKind x) = true ∨ atKeyword "where" x = true
  printed : isClosing (headKind y) = true

/-- Trees that may follow a type. -/
def Beyond (x y : List Tree) : Prop := Head x y ∨ Colon x y ∨ Closed x y

/-- Nothing that begins another phrase stands first: no `=` or `>`, and no colon but a double one.
-/
structure Fresh (trees : List Tree) : Prop where
  equals : headKind trees ≠ some (.punct '=')
  angle : headKind trees ≠ some (.punct '>')
  colon : headKind trees = some (.punct ':') → atOperator "::" trees = true

/-- A name or a lifetime stands first, behind which a test may look at the next tree. -/
def isOpen : Option TreeKind → Bool
  | some (.ident name) =>
    name.isPlain || ["self", "Self", "super", "crate", "mut", "_"].contains name.text
  | some .lifetime => true
  | _ => false

theorem isOpen_of_ident {trees : List Tree} (found : atIdent trees = true) :
    isOpen (headKind trees) = true := by
  rcases trees with _ | ⟨head, rest⟩
  · cases found
  cases head with
  | ident name => exact Bool.or_eq_true_iff.mpr (.inl found)
  | _ => cases found

theorem isOpen_of_keyword {text : String} {trees : List Tree} (found : atKeyword text trees = true)
    (opens : isOpen (some (.ident ⟨false, text⟩)) = true) : isOpen (headKind trees) = true := by
  rw [atKeyword_eq, beq_iff_eq] at found
  rwa [found]

theorem isOpen_of_anyKeyword {texts : List String} {trees : List Tree}
    (found : atAnyKeyword texts trees = true)
    (opens : texts.all (fun text => isOpen (some (.ident ⟨false, text⟩))) = true) :
    isOpen (headKind trees) = true := by
  obtain ⟨text, member, found⟩ := List.any_eq_true.mp found
  exact isOpen_of_keyword found (List.all_eq_true.mp opens text member)

theorem isOpen_of_lifetime {trees : List Tree} (found : atLifetime trees = true) :
    isOpen (headKind trees) = true := by
  rw [atLifetime_eq, beq_iff_eq] at found
  rw [found]
  rfl

/-- Trees that begin alike, and behind a name do so or are related as stated. -/
structure Leads (behind : List Tree → List Tree → Prop) (x y : List Tree) : Prop where
  head : Head x y
  fresh : Fresh x
  angle : atGenerics x = atGenerics y
  second : isOpen (headKind x) = true → Head (x.drop 1) (y.drop 1) ∨ behind (x.drop 1) (y.drop 1)

section Beyond

variable {x y : List Tree}

/-- Trees that begin alike, or are related as stated. -/
def Wide (behind : List Tree → List Tree → Prop) (x y : List Tree) : Prop := Head x y ∨ behind x y

theorem Beyond.of_next (next : Next x y) : Beyond x y := next.imp_right .inl

/-- A test that holds only before a double colon, or where nothing ends, fails on the second trees
when it fails on the first. -/
theorem Beyond.fails {test : List Tree → Bool} (seen : Seen test)
    (own : ∀ trees, test trees = true → atOperator "::" trees = true ∨
      headKind trees ≠ some (.punct ':') ∧ isClosing (headKind trees) = false)
    (beyond : Beyond x y) (absent : test x = false) : test y = false := by
  rcases beyond with head | colon | closed
  · exact (seen head).symm.trans absent
  · rw [Bool.eq_false_iff]
    intro found
    rcases own y found with colons | ⟨other, _⟩
    · rw [colon.apart] at colons
      cases colons
    · exact other colon.printed
  · rw [Bool.eq_false_iff]
    intro found
    have closing := closed.printed
    rcases own y found with colons | ⟨_, other⟩
    · rw [kind_of_startsMarks colons] at closing
      cases closing
    · rw [other] at closing
      cases closing

/-- The tree is none that a type is complete before, and no colon. -/
def isFurther (kind : Option TreeKind) : Bool := kind != some (.punct ':') && !isClosing kind

theorem Beyond.fails_kind {test : List Tree → Bool} (seen : OfKind test)
    (own : ∀ trees, test trees = true → isFurther (headKind trees) = true)
    (beyond : Beyond x y) (absent : test x = false) : test y = false := by
  refine beyond.fails seen.seen (fun trees found => .inr ?_) absent
  have further := own trees found
  simpa [isFurther] using further

theorem Beyond.mark {text : String} {mark : Char} (single : text.toList = [mark])
    (further : isFurther (some (.punct mark)) = true) (beyond : Beyond x y)
    (absent : atOperator text x = false) : atOperator text y = false := by
  refine beyond.fails_kind (.mark single) (fun trees found => ?_) absent
  rw [atOperator, single] at found
  rwa [kind_of_startsMarks found]

/-- A mark that nothing closes with stands in both or in neither. -/
theorem Beyond.mark_eq {text : String} {mark : Char} (single : text.toList = [mark])
    (further : isFurther (some (.punct mark)) = true) (beyond : Beyond x y) :
    atOperator text x = atOperator text y := by
  cases found : atOperator text x with
  | false => exact (beyond.mark single further found).symm
  | true =>
      rw [atOperator, single] at found
      have kind := kind_of_startsMarks found
      rcases beyond with head | colon | closed
      · rw [← Seen.mark single head, atOperator, single, found]
      · rw [colon.written] at kind
        obtain rfl : ':' = mark := by simpa using kind
        cases further
      · rcases closed.written with closing | clause
        · rw [kind] at closing
          simp [isFurther, closing] at further
        · rw [atKeyword_eq, kind] at clause
          cases clause

theorem Beyond.firm {text : String} {first second : Char} (spelled : text.toList = [first, second])
    (member : (first, second) ∈ firmOperators) (further : isFurther (some (.punct first)) = true)
    (beyond : Beyond x y) (absent : atOperator text x = false) : atOperator text y = false := by
  refine beyond.fails (Seen.firm spelled member) (fun trees found => .inr ?_) absent
  rw [atOperator, spelled] at found
  rw [kind_of_startsMarks found]
  simpa [isFurther] using further

theorem Beyond.colons (beyond : Beyond x y) (absent : atOperator "::" x = false) :
    atOperator "::" y = false :=
  beyond.fails (Seen.firm rfl (by decide)) (fun _ => .inl) absent

/-- A path ends in front of what does not continue it, in both. -/
theorem Beyond.same_colons (beyond : Beyond x y)
    (ends : (atOperator "::" x && !atGroup .paren (x.drop 2)) = false) :
    atOperator "::" x = atOperator "::" y := by
  cases found : atOperator "::" x with
  | false => exact (beyond.colons found).symm
  | true =>
      rcases beyond with head | colon | closed
      · rw [← Seen.firm (by rfl) (by decide) head, found]
      · rw [found, Bool.true_and, atGroup_eq, colon.third found] at ends
        cases ends
      · have kind := kind_of_startsMarks (show startsMarks [':', ':'] x = true from found)
        rcases closed.written with closing | clause
        · rw [kind] at closing
          cases closing
        · rw [atKeyword_eq, kind] at clause
          cases clause

/-- Trees related as stated, in both of which a double colon stands first or in neither. -/
def Apart (behind : List Tree → List Tree → Prop) (x y : List Tree) : Prop :=
  behind x y ∧ atOperator "::" x = atOperator "::" y

/-- A test that holds only before a double colon, or not at a colon, fails on the second trees when
it fails on the first. -/
theorem Next.fails {test : List Tree → Bool} (seen : Seen test) (own : ∀ trees, test trees = true →
      atOperator "::" trees = true ∨ headKind trees ≠ some (.punct ':'))
    (next : Next x y) (absent : test x = false) : test y = false := by
  rcases next with head | colon
  · exact (seen head).symm.trans absent
  · rw [Bool.eq_false_iff]
    intro found
    rcases own y found with colons | other
    · rw [colon.apart] at colons
      cases colons
    · exact other colon.printed

theorem Beyond.keyword {text : String} (beyond : Beyond x y) (absent : atKeyword text x = false) :
    atKeyword text y = false := by
  refine beyond.fails_kind (.keyword text) (fun trees found => ?_) absent
  rw [atKeyword_eq, beq_iff_eq] at found
  rw [found]
  rfl

theorem Leads.imp {behind behind' : List Tree → List Tree → Prop} (leads : Leads behind x y)
    (weaker : ∀ x y, behind x y → Head x y ∨ behind' x y) : Leads behind' x y :=
  ⟨leads.head, leads.fresh, leads.angle, fun opens => (leads.second opens).elim .inl (weaker _ _)⟩

/-- No generic parameters where no angle bracket stands. -/
theorem generics_of_kind {trees : List Tree} (other : headKind trees ≠ some (.punct '<')) :
    atGenerics trees = false := by
  have absent : atOperator "<" trees = false := by
    rw [atOperator, show "<".toList = ['<'] from rfl, startsMarks_single]
    exact beq_eq_false_iff_ne.mpr other
  unfold atGenerics
  dsimp only
  rw [absent, Bool.false_and]

theorem Head.generics (head : Head x y) (other : headKind x ≠ some (.punct '<')) :
    atGenerics x = atGenerics y :=
  (generics_of_kind other).trans (generics_of_kind (head.kind ▸ other)).symm

theorem quiet_not_angle {kind : Option TreeKind} (quiet : isQuiet kind = true) :
    kind ≠ some (.punct '<') := by
  rintro rfl
  cases quiet

theorem Fresh.of_quiet (quiet : isQuiet (headKind x) = true) : Fresh x := by
  refine ⟨fun found => ?_, fun found => ?_, fun found => ?_⟩
  all_goals
    rw [found] at quiet
    cases quiet

end Beyond

/-- Behind the mark none stands that would belong to it. -/
def Clear (mark : Char) (trees : List Tree) : Prop :=
  ∀ next, (mark, next) ∈ firmOperators → headKind trees ≠ some (.punct next)

theorem Clear.of_free {mark : Char} (free : firmOperators.all (·.1 != mark) = true)
    (trees : List Tree) : Clear mark trees := by
  intro next member
  have other := List.all_eq_true.mp free _ member
  simp at other

theorem Fresh.clear {trees : List Tree} (fresh : Fresh trees) {mark : Char}
    (own : mark ≠ '.' ∧ mark ≠ ':') :
    Clear mark trees := by
  intro next member found
  have known : (mark, next) ∈ firmOperators →
      mark = '.' ∨ mark = ':' ∨ next = '=' ∨ next = '>' := by
    simp only [firmOperators, List.mem_cons, Prod.mk.injEq, List.not_mem_nil, or_false]
    rintro (⟨rfl, rfl⟩ | ⟨rfl, rfl⟩ | ⟨rfl, rfl⟩ | ⟨rfl, rfl⟩ | ⟨rfl, rfl⟩ | ⟨rfl, rfl⟩) <;> simp
  rcases known member with rfl | rfl | rfl | rfl
  · exact own.1 rfl
  · exact own.2 rfl
  · exact fresh.equals found
  · exact fresh.angle found

theorem Clear.colon {trees : List Tree} (other : headKind trees ≠ some (.punct ':')) :
    Clear ':' trees := by
  intro next member
  obtain rfl : next = ':' := by simpa [firmOperators] using member
  exact other

theorem Clear.point {trees : List Tree} (other : headKind trees ≠ some (.punct '.')) :
    Clear '.' trees := by
  intro next member
  obtain rfl : next = '.' := by simpa [firmOperators] using member
  exact other

/-- A name stands first. -/
structure Named (behind : List Tree → List Tree → Prop) (x y : List Tree) : Prop where
  leads : Leads behind x y
  word : atWord x = true

theorem Named.clear {behind : List Tree → List Tree → Prop} {x y : List Tree}
    (named : Named behind x y) (mark : Char) : Clear mark x := by
  intro next _ found
  have word := named.word
  rw [atWord_eq, found] at word
  cases word

end Source
end Toolsmith
