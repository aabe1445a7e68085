import Mathlib
import Toolsmith.Proofs.Json.Scanning

/-! # How values stand in a text

The readers of lists and objects are loops over fuel. What they go through is said here without it:
the items of a list one after another (`Scan.ItemsIn`), the members of an object as they are
written, repetitions included (`Scan.MembersIn`), and the marks by which each kind of value is known
(`Scan.ValueIn`). Every value that is read stands in its text in this way (`Scan.valueIn_of_value`).
-/

namespace Toolsmith
namespace Json
namespace Scan

section Inversion

variable {α β : Type} {rest after : List Char}

theorem exists_of_bind {scan : Scan α} {next : α → Scan β} {value : β}
    (read : (scan >>= next) rest = .ok (value, after)) :
    ∃ found middle, scan rest = .ok (found, middle) ∧ next found middle = .ok (value, after) := by
  cases first : scan rest with
  | error stop =>
      rw [bind_of_error next first] at read
      cases read
  | ok result =>
      obtain ⟨found, middle⟩ := result
      rw [bind_of_ok next first] at read
      exact ⟨found, middle, rfl, read⟩

theorem exists_of_map {scan : Scan α} {f : α → β} {value : β}
    (read : (f <$> scan) rest = .ok (value, after)) :
    ∃ found, scan rest = .ok (found, after) ∧ f found = value := by
  cases first : scan rest with
  | error stop =>
      rw [map_of_error f first] at read
      cases read
  | ok result =>
      obtain ⟨found, middle⟩ := result
      rw [map_of_ok f first] at read
      cases read
      exact ⟨found, rfl, rfl⟩

theorem peek_eq (text : List Char) :
    peek text = .ok ((text.dropWhile isSpace).head?, text.dropWhile isSpace) :=
  rfl

end Inversion

/-- Where the next item or member starts: past blanks, and past a comma unless it is the first. -/
inductive Separates : Bool → List Char → List Char → Prop where
  | first {text : List Char} : Separates true text (text.dropWhile isSpace)
  | comma {text rest : List Char} (found : text.dropWhile isSpace = ',' :: rest) :
      Separates false text (rest.dropWhile isSpace)

/-- The items of a list, and what follows its closing bracket. -/
inductive ItemsIn (value : Scan Json) : Bool → List Char → List Json → List Char → Prop where
  | close {first : Bool} {text after : List Char} (ends : text.dropWhile isSpace = ']' :: after) :
      ItemsIn value first text [] after
  | item {first : Bool} {text start middle after : List Char} {json : Json} {items : List Json}
      (starts : Separates first text start) (reads : value start = .ok (json, middle))
      (others : ItemsIn value false middle items after) :
      ItemsIn value first text (json :: items) after

/-- The members of an object as they are written, and what follows its closing brace. -/
inductive MembersIn (value : Scan Json) :
    Bool → List Char → List (String × Json) → List Char → Prop where
  | close {first : Bool} {text after : List Char}
      (ends : text.dropWhile isSpace = '\x7d' :: after) :
      MembersIn value first text [] after
  | member {first : Bool} {text quoted named start middle after : List Char} {name : String}
      {json : Json} {members : List (String × Json)}
      (starts : Separates first text ('"' :: quoted)) (names : string quoted = .ok (name, named))
      (points : named.dropWhile isSpace = ':' :: start) (reads : value start = .ok (json, middle))
      (others : MembersIn value false middle members after) :
      MembersIn value first text ((name, json) :: members) after

/-- A value that stands at the front of a text, and what follows it. -/
inductive ValueIn : Nat → List Char → Json → List Char → Prop where
  | null {depth : Nat} {tail after : List Char}
      (reads : word "null".toList ('n' :: tail) = .ok ((), after)) :
      ValueIn depth ('n' :: tail) .null after
  | yes {depth : Nat} {tail after : List Char}
      (reads : word "true".toList ('t' :: tail) = .ok ((), after)) :
      ValueIn depth ('t' :: tail) (.bool true) after
  | no {depth : Nat} {tail after : List Char}
      (reads : word "false".toList ('f' :: tail) = .ok ((), after)) :
      ValueIn depth ('f' :: tail) (.bool false) after
  | string {depth : Nat} {tail after : List Char} {value : String}
      (reads : Scan.string tail = .ok (value, after)) :
      ValueIn depth ('"' :: tail) (.string value) after
  | list {depth : Nat} {tail after : List Char} {items : List Json}
      (reads : ItemsIn (value depth) true tail items after) :
      ValueIn (depth + 1) ('[' :: tail) (.array items) after
  | object {depth : Nat} {tail after : List Char} {members : List (String × Json)}
      (reads : MembersIn (value depth) true tail members after) :
      ValueIn (depth + 1) ('\x7b' :: tail) (.object (ofMembers members)) after
  | negative {depth : Nat} {tail after : List Char} {found : Number}
      (reads : number true tail = .ok (found, after)) :
      ValueIn depth ('-' :: tail) (.number found) after
  | digits {depth : Nat} {c : Char} {tail after : List Char} {found : Number}
      (digit : isDigit c = true) (reads : number false (c :: tail) = .ok (found, after)) :
      ValueIn depth (c :: tail) (.number found) after

section Marks

variable {first : Bool} {text rest after : List Char}

theorem skip_cons (c : Char) : skip (c :: rest) = .ok ((), rest) :=
  rfl

/-- Before an item, the list ends or the item starts. -/
theorem moreItems_cases {more : Bool} (read : moreItems first text = .ok (more, after)) :
    (more = false ∧ text.dropWhile isSpace = after ∧ after.head? = some ']') ∨
      (more = true ∧ Separates first text after) := by
  unfold moreItems at read
  rw [bind_of_ok _ (peek_eq text)] at read
  generalize front : text.dropWhile isSpace = visible at read ⊢
  generalize seen : visible.head? = head at read
  split at read
  · cases read
  · cases read
    exact .inl ⟨rfl, rfl, seen⟩
  · rename_i c closes
    right
    cases first with
    | true =>
      cases read
      exact ⟨rfl, front ▸ .first⟩
    | false =>
      obtain ⟨rest, rfl⟩ := List.head?_eq_some_iff.mp seen
      by_cases comma : c = ','
      · subst comma
        simp only [Bool.false_eq_true, ↓reduceIte, ne_eq, not_true_eq_false,
          bind_of_ok _ (skip_cons ','), bind_of_ok _ (peek_eq rest)] at read
        have starts := Separates.comma front
        generalize rest.dropWhile isSpace = start at read starts
        generalize start.head? = head at read
        split at read
        · cases read
        · cases read
        · cases read
          exact ⟨rfl, starts⟩
      · simp only [Bool.false_eq_true, ↓reduceIte, ne_eq, comma, not_false_eq_true] at read
        cases read

theorem moreItems_of_close (ends : text.dropWhile isSpace = ']' :: rest) :
    moreItems first text = .ok (false, ']' :: rest) := by
  rw [moreItems, bind_of_ok _ (peek_eq text), ends]
  rfl

/-- There is another item where the separator is right and no bracket follows. -/
theorem moreItems_of_separates {c : Char} (starts : Separates first text (c :: rest))
    (opens : c ≠ ']') : moreItems first text = .ok (true, c :: rest) := by
  generalize front : c :: rest = start at starts
  cases starts with
  | first =>
    rw [moreItems, bind_of_ok _ (peek_eq text), ← front]
    generalize seen : (c :: rest).head? = head
    split
    · cases seen
    · cases seen
      contradiction
    · rfl
  | @comma _ blank found =>
    rw [moreItems, bind_of_ok _ (peek_eq text), found]
    generalize seen : (',' :: blank).head? = head
    split
    · cases seen
    · cases seen
    · cases seen
      simp only [Bool.false_eq_true, ↓reduceIte, ne_eq, not_true_eq_false]
      rw [bind_of_ok _ (skip_cons ','), bind_of_ok _ (peek_eq blank), ← front]
      generalize seen : (c :: rest).head? = head
      split
      · cases seen
      · cases seen
        contradiction
      · rfl

/-- Before a member, the object ends or the name of the member stands in quotes. -/
theorem nextName_cases {name? : Option String} (read : nextName first text = .ok (name?, after)) :
    (name? = none ∧ text.dropWhile isSpace = after ∧ after.head? = some '\x7d') ∨
      ∃ name quoted, name? = some name ∧ Separates first text ('"' :: quoted) ∧
        string quoted = .ok (name, after) := by
  unfold nextName at read
  rw [bind_of_ok _ (peek_eq text)] at read
  generalize front : text.dropWhile isSpace = visible at read ⊢
  generalize seen : visible.head? = head at read
  split at read
  · cases read
  · cases read
    exact .inl ⟨rfl, rfl, seen⟩
  · rename_i c closes
    right
    obtain ⟨rest, rfl⟩ := List.head?_eq_some_iff.mp seen
    cases first with
    | true =>
      by_cases quote : c = '"'
      · subst quote
        simp only [↓reduceIte, ne_eq, not_true_eq_false, bind_of_ok _ (skip_cons '"')] at read
        obtain ⟨name, reads, rfl⟩ := exists_of_map read
        exact ⟨name, rest, rfl, front ▸ .first, reads⟩
      · simp only [↓reduceIte, ne_eq, quote, not_false_eq_true] at read
        cases read
    | false =>
      by_cases comma : c = ','
      · subst comma
        simp only [Bool.false_eq_true, ↓reduceIte, ne_eq, not_true_eq_false,
          bind_of_ok _ (skip_cons ','), bind_of_ok _ (peek_eq rest)] at read
        have starts := Separates.comma front
        generalize rest.dropWhile isSpace = start at read starts
        generalize seen : start.head? = head at read
        split at read
        · cases read
        · obtain ⟨quoted, rfl⟩ := List.head?_eq_some_iff.mp seen
          obtain ⟨name, reads, rfl⟩ := exists_of_map read
          exact ⟨name, quoted, rfl, starts, reads⟩
        · cases read
        · cases read
      · simp only [Bool.false_eq_true, ↓reduceIte, ne_eq, comma, not_false_eq_true] at read
        cases read

theorem nextName_of_close (ends : text.dropWhile isSpace = '\x7d' :: rest) :
    nextName first text = .ok (none, '\x7d' :: rest) := by
  rw [nextName, bind_of_ok _ (peek_eq text), ends]
  rfl

theorem nextName_of_separates {name : String} (starts : Separates first text ('"' :: rest))
    (names : string rest = .ok (name, after)) : nextName first text = .ok (some name, after) := by
  generalize front : '"' :: rest = start at starts
  cases starts with
  | first =>
    rw [nextName, bind_of_ok _ (peek_eq text), ← front]
    exact map_of_ok some names
  | @comma _ blank found =>
    rw [nextName, bind_of_ok _ (peek_eq text), found]
    generalize seen : (',' :: blank).head? = head
    split
    · cases seen
    · cases seen
    · cases seen
      simp only [Bool.false_eq_true, ↓reduceIte, ne_eq, not_true_eq_false]
      rw [bind_of_ok _ (skip_cons ','), bind_of_ok _ (peek_eq blank), ← front]
      exact map_of_ok some names

theorem colon_eq_iff : colon text = .ok ((), after) ↔ text.dropWhile isSpace = ':' :: after := by
  unfold colon
  rw [bind_of_ok _ (peek_eq text)]
  generalize text.dropWhile isSpace = visible
  constructor
  · intro read
    generalize seen : visible.head? = head at read
    split at read
    · cases read
    · obtain ⟨rest, rfl⟩ := List.head?_eq_some_iff.mp seen
      cases read
      rfl
    · cases read
  · rintro rfl
    rfl

end Marks

section Loops

variable {scan : Scan Json} {text after : List Char}

/-- A round over the items of a list ends at the bracket, or reads one item more. -/
theorem itemsStep_cases {found : List Json} {next : List Json ⊕ List Json}
    (read : itemsStep scan found text = .ok (next, after)) :
    (next = .inr found.reverse ∧ text.dropWhile isSpace = ']' :: after) ∨
      ∃ start json, next = .inl (json :: found) ∧ Separates found.isEmpty text start ∧
        scan start = .ok (json, after) := by
  obtain ⟨more, start, decided, read⟩ := exists_of_bind read
  rcases moreItems_cases decided with ⟨rfl, front, closes⟩ | ⟨rfl, starts⟩
  · obtain ⟨rest, rfl⟩ := List.head?_eq_some_iff.mp closes
    cases read
    exact .inl ⟨rfl, front⟩
  · obtain ⟨json, middle, reads, kept⟩ := exists_of_bind read
    cases kept
    exact .inr ⟨start, json, rfl, starts, reads⟩

/-- The rounds of the loop are the items, after those that were found before. -/
theorem itemsIn_of_loopWithin {fuel : Nat} {found items : List Json}
    (read : loopWithin (itemsStep scan) fuel found text = .ok (items, after)) :
    ∃ others, items = found.reverse ++ others ∧ ItemsIn scan found.isEmpty text others after := by
  induction fuel generalizing found text with
  | zero => cases read
  | succ fuel ih =>
    obtain ⟨next, middle, step, read⟩ := exists_of_bind read
    rcases itemsStep_cases step with ⟨rfl, ends⟩ | ⟨start, json, rfl, starts, reads⟩
    · cases read
      exact ⟨[], (List.append_nil _).symm, .close ends⟩
    · obtain ⟨others, rfl, stand⟩ := ih read
      exact ⟨json :: others, by simp, .item starts reads stand⟩

/-- A round over the members of an object ends at the brace, or reads one member more. -/
theorem membersStep_cases {first : Bool} {found : List (String × Json)}
    {next : (Bool × List (String × Json)) ⊕ List (String × Json)}
    (read : membersStep scan (first, found) text = .ok (next, after)) :
    (next = .inr found ∧ text.dropWhile isSpace = '\x7d' :: after) ∨
      ∃ name quoted named start json, next = .inl (false, put name json found) ∧
        Separates first text ('"' :: quoted) ∧ string quoted = .ok (name, named) ∧
          named.dropWhile isSpace = ':' :: start ∧ scan start = .ok (json, after) := by
  obtain ⟨name?, named, decided, read⟩ := exists_of_bind read
  rcases nextName_cases decided with ⟨rfl, front, closes⟩ | ⟨name, quoted, rfl, starts, names⟩
  · obtain ⟨rest, rfl⟩ := List.head?_eq_some_iff.mp closes
    cases read
    exact .inl ⟨rfl, front⟩
  · obtain ⟨_, start, points, read⟩ := exists_of_bind read
    obtain ⟨json, middle, reads, kept⟩ := exists_of_bind read
    cases kept
    exact .inr ⟨name, quoted, named, start, json, rfl, starts, names, colon_eq_iff.mp points, reads⟩

/-- The rounds of the loop are the members as they are written; each is put among those before. -/
theorem membersIn_of_loopWithin {fuel : Nat} {first : Bool} {found members : List (String × Json)}
    (read : loopWithin (membersStep scan) fuel (first, found) text = .ok (members, after)) :
    ∃ written, members = written.foldl (fun sorted (name, value) => put name value sorted) found ∧
      MembersIn scan first text written after := by
  induction fuel generalizing first found text with
  | zero => cases read
  | succ fuel ih =>
    obtain ⟨next, middle, step, read⟩ := exists_of_bind read
    rcases membersStep_cases step with
      ⟨rfl, ends⟩ | ⟨name, quoted, named, start, json, rfl, starts, names, points, reads⟩
    · cases read
      exact ⟨[], rfl, .close ends⟩
    · obtain ⟨written, rfl, stand⟩ := ih read
      exact ⟨(name, json) :: written, rfl, .member starts names points reads stand⟩

end Loops

section Values

variable {text after : List Char}

/-- **Values in a text.** What is read as a value stands in its text as a value of its kind. -/
theorem valueIn_of_value {depth : Nat} {json : Json} (read : value depth text = .ok (json, after)) :
    ValueIn depth (text.dropWhile isSpace) json after := by
  rw [value.eq_def, bind_of_ok _ (peek_eq text)] at read
  generalize text.dropWhile isSpace = visible at read ⊢
  generalize seen : visible.head? = head at read
  split at read
  · cases read
  all_goals obtain ⟨tail, rfl⟩ := List.head?_eq_some_iff.mp seen
  · obtain ⟨_, _, reads, kept⟩ := exists_of_bind read
    cases kept
    exact .null reads
  · obtain ⟨_, _, reads, kept⟩ := exists_of_bind read
    cases kept
    exact .yes reads
  · obtain ⟨_, _, reads, kept⟩ := exists_of_bind read
    cases kept
    exact .no reads
  · obtain ⟨_, reads, rfl⟩ := exists_of_map read
    exact .string reads
  · split at read
    · cases read
    · obtain ⟨items, reads, rfl⟩ := exists_of_map read
      obtain ⟨_, rfl, stand⟩ := itemsIn_of_loopWithin reads
      exact .list stand
  · split at read
    · cases read
    · obtain ⟨members, reads, rfl⟩ := exists_of_map read
      obtain ⟨_, rfl, stand⟩ := membersIn_of_loopWithin reads
      exact .object stand
  · obtain ⟨_, reads, rfl⟩ := exists_of_map read
    exact .negative reads
  · split at read
    · rename_i digit
      obtain ⟨_, reads, rfl⟩ := exists_of_map read
      exact .digits digit reads
    · cases read

end Values

end Scan
end Json
end Toolsmith
