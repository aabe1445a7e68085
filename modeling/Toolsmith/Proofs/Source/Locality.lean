import Mathlib
import Toolsmith.Proofs.Source.Attributes

/-! # Reading up to a comma

What a reader makes of the trees before a comma should not depend on the comma, nor on what stands
behind it. A reader is *local* when this is so (`Reader.Local`): it reads the same with and without
the comma and what follows. Most readers of the grammar look a few trees ahead, so this is a fact
about the tests by which they choose. Inside angle brackets commas do matter, but there the closing
bracket is still to come: a reader is local *within* some trees when at least as many are left
before the comma.

The combinators keep locality. A loop does when each of its rounds takes a tree, so that the number
of trees allows for as many rounds as are needed (`Reader.Local.loop`).
-/

namespace Toolsmith
namespace Source

namespace Reader

variable {α β σ : Type}

/-- The reader reads a value off the front of `trees`, taking these pieces and leaving `rest`. -/
def Reads (reader : Reader α) (trees : List Tree) (value : α) (taken : List Piece)
    (rest : List Tree) : Prop :=
  ∃ conserved, reader trees = .ok ⟨value, taken, rest, conserved⟩

theorem Reads.conserved {reader : Reader α} {trees rest : List Tree} {value : α}
    {taken : List Piece} (read : reader.Reads trees value taken rest) :
    Piece.sourceAll taken ++ rest = trees := read.1

/-- What is read of the same trees is the same. -/
theorem Reads.unique {reader : Reader α} {trees rest rest' : List Tree} {value value' : α}
    {taken taken' : List Piece} (read : reader.Reads trees value taken rest)
    (again : reader.Reads trees value' taken' rest') :
    value' = value ∧ taken' = taken ∧ rest' = rest := by
  obtain ⟨_, first⟩ := read
  obtain ⟨_, second⟩ := again
  rw [first] at second
  cases second
  exact ⟨rfl, rfl, rfl⟩

/-- A value is found with the trees that are left when it is read. -/
theorem found_eq_some {reader : Reader α} {trees rest : List Tree} {value : α} :
    reader.found trees = some (value, rest) ↔ ∃ taken, reader.Reads trees value taken rest := by
  unfold found
  constructor
  · intro read
    cases result : reader trees with
    | error mismatch => simp [result] at read
    | ok reading =>
        obtain ⟨found, taken, left, conserved⟩ := reading
        simp only [result, Option.some.injEq, Prod.mk.injEq] at read
        obtain ⟨rfl, rfl⟩ := read
        exact ⟨taken, conserved, result⟩
  · rintro ⟨taken, _, result⟩
    rw [result]

theorem reads_pure {value found : α} {trees rest : List Tree} {taken : List Piece} :
    (pure value : Reader α).Reads trees found taken rest ↔
      found = value ∧ taken = [] ∧ rest = trees := by
  constructor
  · intro ⟨_, read⟩
    cases read
    exact ⟨rfl, rfl, rfl⟩
  · rintro ⟨rfl, rfl, rfl⟩
    exact ⟨rfl, rfl⟩

theorem reads_ahead {found trees rest : List Tree} {taken : List Piece} :
    ahead.Reads trees found taken rest ↔ found = trees ∧ taken = [] ∧ rest = trees := by
  constructor
  · intro ⟨_, read⟩
    cases read
    exact ⟨rfl, rfl, rfl⟩
  · rintro ⟨rfl, rfl, rfl⟩
    exact ⟨rfl, rfl⟩

/-- Two readers in sequence read what the first takes, and then what the second does. -/
theorem reads_bind {first : Reader α} {next : α → Reader β} {trees rest : List Tree} {value : β}
    {taken : List Piece} :
    (first >>= next).Reads trees value taken rest ↔
      ∃ middle one two between, first.Reads trees middle one between ∧
        (next middle).Reads between value two rest ∧ taken = one ++ two := by
  change (∃ conserved, Reader.bind first next trees = .ok ⟨value, taken, rest, conserved⟩) ↔ _
  unfold Reader.bind
  constructor
  · intro ⟨conserved, read⟩
    cases earlier : first trees with
    | error mismatch =>
        rw [earlier] at read
        cases read
    | ok one =>
        rw [earlier] at read
        dsimp only at read
        cases later : next one.value one.rest with
        | error mismatch =>
            rw [later] at read
            cases read
        | ok two =>
            rw [later] at read
            cases read
            exact ⟨_, _, _, _, ⟨one.conserved, earlier⟩, ⟨two.conserved, later⟩, rfl⟩
  · rintro ⟨middle, one, two, between, ⟨whole, earlier⟩, ⟨left, later⟩, rfl⟩
    refine ⟨by rw [Piece.sourceAll_append, List.append_assoc, left, whole], ?_⟩
    rw [earlier]
    dsimp only
    rw [later]

theorem reads_ahead_bind {next : List Tree → Reader β} {trees rest : List Tree} {value : β}
    {taken : List Piece} :
    (ahead >>= next).Reads trees value taken rest ↔ (next trees).Reads trees value taken rest := by
  rw [reads_bind]
  constructor
  · rintro ⟨_, _, _, _, ahead, later, rfl⟩
    obtain ⟨rfl, rfl, rfl⟩ := reads_ahead.mp ahead
    exact later
  · intro later
    exact ⟨_, _, _, _, reads_ahead.mpr ⟨rfl, rfl, rfl⟩, later, rfl⟩

/-! ### Readers that take something -/

theorem Reads.length_le {reader : Reader α} {trees rest : List Tree} {value : α}
    {taken : List Piece} (read : reader.Reads trees value taken rest) :
    rest.length ≤ trees.length := by
  rw [← read.conserved, List.length_append]
  exact Nat.le_add_left _ _

/-- Where the value is as stated, the reader has taken a tree. -/
def Takes (reader : Reader α) (stated : α → Prop) : Prop :=
  ∀ ⦃trees rest : List Tree⦄ ⦃value : α⦄ ⦃taken : List Piece⦄,
    reader.Reads trees value taken rest → stated value → rest.length < trees.length

theorem Takes.shorter {reader : Reader α} (takes : Takes reader fun _ => True)
    {trees rest : List Tree} {value : α} {taken : List Piece}
    (read : reader.Reads trees value taken rest) : rest.length < trees.length := takes read trivial

theorem Takes.pure {stated : α → Prop} {value : α} (not : ¬ stated value) :
    Takes (pure value) stated := by
  intro trees rest found taken read holds
  obtain ⟨rfl, _, _⟩ := reads_pure.mp read
  exact absurd holds not

/-- A sequence takes a tree when its first part does, or else its second. -/
theorem Takes.bind {first : Reader α} {next : α → Reader β} {early : α → Prop} {stated : β → Prop}
    (before : Takes first early) (after : ∀ value, early value ∨ Takes (next value) stated) :
    Takes (first >>= next) stated := by
  intro trees rest value taken read holds
  obtain ⟨middle, one, two, between, earlier, later, _⟩ := reads_bind.mp read
  rcases after middle with own | own
  · exact lt_of_le_of_lt later.length_le (before earlier own)
  · exact lt_of_lt_of_le (own later holds) earlier.length_le

theorem Takes.first {first : Reader α} {next : α → Reader β} {stated : β → Prop}
    (before : Takes first fun _ => True) : Takes (first >>= next) stated :=
  before.bind fun _ => .inl trivial

theorem Takes.second {first : Reader α} {next : α → Reader β} {stated : β → Prop}
    (after : ∀ value, Takes (next value) stated) : Takes (first >>= next) stated := by
  have never : Takes first fun _ => False := fun _ _ _ _ _ => False.elim
  exact never.bind fun value => .inr (after value)

theorem Takes.ite {c : Prop} [Decidable c] {yes no : Reader α} {stated : α → Prop}
    (whenever : Takes yes stated) (otherwise : Takes no stated) :
    Takes (if c then yes else no) stated := by
  split
  · exact whenever
  · exact otherwise

/-! ### Loops -/

/-- The rounds of a loop take a tree when they go on. -/
def Progresses (step : σ → Reader (σ ⊕ α)) : Prop := ∀ state, Takes (step state) (·.isLeft)

section Loops

variable {step : σ → Reader (σ ⊕ α)} (progresses : Progresses step)

/-- What a loop does after one round. -/
def afterRound (again : σ → Reader α) : σ ⊕ α → Reader α
  | .inl state => again state
  | .inr value => pure value

theorem loopWithin_succ (step : σ → Reader (σ ⊕ α)) (steps : Nat) (state : σ) :
    loopWithin step (steps + 1) state = step state >>= afterRound (loopWithin step steps) := by
  rw [loopWithin]
  congr 1

include progresses

/-- As many rounds as there are trees are enough. -/
theorem reads_loopWithin {steps others : Nat} {state : σ} {trees rest : List Tree} {value : α}
    {taken : List Piece} (enough : trees.length < steps) (more : trees.length < others)
    (read : (loopWithin step steps state).Reads trees value taken rest) :
    (loopWithin step others state).Reads trees value taken rest := by
  induction steps generalizing others state trees taken with
  | zero => cases enough
  | succ steps ih =>
      obtain ⟨others, rfl⟩ := Nat.exists_eq_succ_of_ne_zero (Nat.ne_zero_of_lt more)
      rw [Nat.succ_eq_add_one, loopWithin_succ, reads_bind] at *
      obtain ⟨result, one, two, between, round, later, rfl⟩ := read
      refine ⟨result, one, two, between, round, ?_, rfl⟩
      cases result with
      | inl next =>
          have shorter := progresses state round rfl
          exact ih (by omega) (by omega) later
      | inr final => exact later

/-- A loop is a round and the rest of the loop. -/
theorem reads_loop {state : σ} {trees rest : List Tree} {value : α} {taken : List Piece} :
    (loop step state).Reads trees value taken rest ↔
      (step state >>= afterRound (loop step)).Reads trees value taken rest := by
  change (loopWithin step (trees.length + 1) state).Reads trees value taken rest ↔ _
  rw [loopWithin_succ, reads_bind, reads_bind]
  refine exists_congr fun result => exists_congr fun one => exists_congr fun two =>
    exists_congr fun between => and_congr_right fun round => and_congr_left fun _ => ?_
  cases result with
  | inl next =>
      have shorter := progresses state round rfl
      change _ ↔ (loopWithin step (between.length + 1) next).Reads between value two rest
      constructor
      · exact reads_loopWithin progresses shorter (Nat.lt_succ_self _)
      · exact reads_loopWithin progresses (Nat.lt_succ_self _) shorter
  | inr final => rfl

omit progresses in
/-- What holds of the last round of a loop, and of a loop when it holds after its first round, holds
of the loop. -/
theorem Reads.loop_induction {motive : σ → List Tree → α → List Piece → List Tree → Prop}
    (last : ∀ {state trees value taken rest}, (step state).Reads trees (.inr value) taken rest →
      motive state trees value taken rest)
    (round : ∀ {state next trees between rest value one two},
      (step state).Reads trees (.inl next) one between → motive next between value two rest →
        motive state trees value (one ++ two) rest)
    {state : σ} {trees rest : List Tree} {value : α} {taken : List Piece}
    (read : (loop step state).Reads trees value taken rest) :
    motive state trees value taken rest := by
  change (loopWithin step (trees.length + 1) state).Reads trees value taken rest at read
  generalize trees.length + 1 = steps at read
  induction steps generalizing state trees taken with
  | zero => cases read.2
  | succ steps ih =>
      rw [loopWithin_succ] at read
      obtain ⟨result, one, two, between, first, later, rfl⟩ := reads_bind.mp read
      cases result with
      | inl next => exact round first (ih later)
      | inr final =>
          obtain ⟨rfl, rfl, rfl⟩ := reads_pure.mp later
          rw [List.append_nil]
          exact last first

omit progresses in
/-- A loop whose rounds all take a tree takes one. -/
theorem Takes.loop {stated : α → Prop} (each : ∀ state, Takes (step state) fun _ => True)
    (state : σ) : Takes (loop step state) stated := by
  intro trees rest value taken read _
  have onward : Progresses step := fun state _ _ _ _ round _ => each state round trivial
  obtain ⟨_, _, _, _, round, later, _⟩ := reads_bind.mp ((reads_loop onward).mp read)
  exact lt_of_le_of_lt later.length_le (each state round trivial)

end Loops

end Reader

/-! ### Tests on the trees before a comma -/

/-- The end of a sequence of trees, or a comma and whatever follows it. -/
def Stops (trees : List Tree) : Prop := trees = [] ∨ ∃ joint rest, trees = .punct ',' joint :: rest

/-- Ends of a sequence that a reader which does not get there should not tell apart: commas and the
end itself, and groups with the same delimiter. -/
inductive StopAlike : List Tree → List Tree → Prop
  | stops {stop other : List Tree} (one : Stops stop) (two : Stops other) : StopAlike stop other
  | groups (delimiter : Delimiter) (content changed rest : List Tree) :
      StopAlike (.group delimiter content :: rest) (.group delimiter changed :: rest)

theorem StopAlike.symm {stop other : List Tree} (alike : StopAlike stop other) :
    StopAlike other stop := by
  cases alike with
  | stops one two => exact .stops two one
  | groups delimiter content changed rest => exact .groups delimiter changed content rest

/-- Of the trees ahead a stop is not told from another, where at least `kept` trees stand before a
comma. -/
def Unseen {γ : Type} (kept : Nat) (seen : List Tree → γ) : Prop :=
  ∀ ⦃front stop other : List Tree⦄, StopAlike stop other → (Stops stop → kept ≤ front.length) →
    seen (front ++ stop) = seen (front ++ other)

/-- An operator that is not empty and has no comma. -/
def isPlainOperator (text : String) : Bool := !text.toList.isEmpty && !text.toList.contains ','

namespace Unseen

variable {kept : Nat} {γ : Type}

/-- What depends on the first tree alone, and neither on whether it is a comma or missing nor on
what a group contains. -/
theorem of_first {seen : List Tree → γ} (ends : ∀ joint, seen [.punct ',' joint] = seen [])
    (groups : ∀ delimiter content, seen [.group delimiter content] = seen [.group delimiter []])
    (each : ∀ head rest, seen (head :: rest) = seen [head]) : Unseen kept seen := by
  have stopped {stop : List Tree} (stops : Stops stop) : seen stop = seen [] := by
    rcases stops with rfl | ⟨joint, rest, rfl⟩
    · rfl
    · rw [each, ends]
  intro front stop other alike _
  cases front with
  | nil =>
      cases alike with
      | stops one two => exact (stopped one).trans (stopped two).symm
      | groups delimiter content changed rest =>
          rw [List.nil_append, List.nil_append, each, groups delimiter content, each _ rest,
            groups delimiter changed]
  | cons head rest => rw [List.cons_append, List.cons_append, each, each head (rest ++ other)]

/-- What depends on the first tree alone, where there is one before a comma. -/
theorem of_kept {seen : List Tree → γ}
    (groups : ∀ delimiter content, seen [.group delimiter content] = seen [.group delimiter []])
    (each : ∀ head rest, seen (head :: rest) = seen [head]) : Unseen (kept + 1) seen := by
  intro front stop other alike left
  cases front with
  | nil =>
      cases alike with
      | stops one two => exact absurd (left one) (Nat.not_succ_le_zero kept)
      | groups delimiter content changed rest =>
          rw [List.nil_append, List.nil_append, each, groups delimiter content, each _ rest,
            groups delimiter changed]
  | cons head rest => rw [List.cons_append, List.cons_append, each, each head (rest ++ other)]

theorem and {first second : List Tree → Bool} (one : Unseen kept first) (two : Unseen kept second) :
    Unseen kept fun trees => first trees && second trees := by
  intro front stop other alike left
  simp only [one alike left, two alike left]

theorem or {first second : List Tree → Bool} (one : Unseen kept first) (two : Unseen kept second) :
    Unseen kept fun trees => first trees || second trees := by
  intro front stop other alike left
  simp only [one alike left, two alike left]

theorem not {test : List Tree → Bool} (one : Unseen kept test) :
    Unseen kept fun trees => !test trees := by
  intro front stop other alike left
  simp only [one alike left]

theorem const (value : γ) : Unseen kept fun _ => value := fun _ _ _ _ _ => rfl

theorem any {values : List α} {test : α → List Tree → Bool}
    (each : ∀ value ∈ values, Unseen kept (test value)) :
    Unseen kept fun trees => values.any (test · trees) := by
  intro front stop other alike left
  rw [Bool.eq_iff_iff, List.any_eq_true, List.any_eq_true]
  exact exists_congr fun value => and_congr_right fun member => by rw [each value member alike left]

theorem marks {marks : List Char} (plain : marks ≠ []) (free : ',' ∉ marks) :
    Unseen kept (startsMarks marks) := by
  induction marks generalizing kept with
  | nil => exact absurd rfl plain
  | cons mark marks ih =>
      have differs : mark ≠ ',' := fun same => free (same ▸ List.mem_cons_self)
      cases marks with
      | nil =>
          refine of_first (fun joint => ?_) (fun _ _ => rfl) fun head rest => by cases head <;> rfl
          simp [startsMarks, differs.symm]
      | cons next marks =>
          have stopped {stop : List Tree} (stops : Stops stop) :
              startsMarks (mark :: next :: marks) stop = false := by
            rcases stops with rfl | ⟨joint, rest, rfl⟩
            · rfl
            · simp [startsMarks, differs.symm]
          intro front stop other alike _
          rcases front with _ | ⟨head, rest⟩
          · cases alike with
            | stops one two => exact (stopped one).trans (stopped two).symm
            | groups => rfl
          · have later := ih (List.cons_ne_nil _ _) (List.not_mem_of_not_mem_cons free) alike
              fun _ => rest.length.zero_le
            cases head with
            | punct found joint => simp only [List.cons_append, startsMarks, later]
            | _ => rfl

theorem operator {text : String} (plain : isPlainOperator text = true) :
    Unseen kept (atOperator text) := by
  simp only [isPlainOperator, Bool.and_eq_true, Bool.not_eq_true', List.isEmpty_eq_false_iff,
    List.contains_eq_mem, decide_eq_false_iff_not] at plain
  exact marks plain.1 plain.2

theorem anyOperator {texts : List String} (plain : texts.all isPlainOperator = true) :
    Unseen kept (atAnyOperator texts) := by
  rw [List.all_eq_true] at plain
  exact any fun text member => operator (plain text member)

theorem keyword (text : String) : Unseen kept (atKeyword text) :=
  of_first (fun _ => rfl) (fun _ _ => rfl) fun head _ => by cases head <;> rfl

theorem anyKeyword (texts : List String) : Unseen kept (atAnyKeyword texts) :=
  any fun text _ => keyword text

theorem word : Unseen kept atWord :=
  of_first (fun _ => rfl) (fun _ _ => rfl) fun head _ => by cases head <;> rfl

theorem ident : Unseen kept atIdent :=
  of_first (fun _ => rfl) (fun _ _ => rfl) fun head _ => by cases head <;> rfl

theorem lifetime : Unseen kept atLifetime :=
  of_first (fun _ => rfl) (fun _ _ => rfl) fun head _ => by cases head <;> rfl

theorem group (delimiter : Delimiter) : Unseen kept (atGroup delimiter) :=
  of_first (fun _ => rfl) (fun _ _ => rfl) fun head _ => by cases head <;> rfl

theorem literal : Unseen kept atLiteral := by
  have stopped {stop : List Tree} (stops : Stops stop) : atLiteral stop = false := by
    rcases stops with rfl | ⟨joint, rest, rfl⟩ <;> rfl
  intro front stop other alike _
  rcases front with _ | ⟨head, rest⟩
  · cases alike with
    | stops one two => exact (stopped one).trans (stopped two).symm
    | groups => rfl
  cases head with
  | punct mark joint =>
      by_cases minus : mark = '-'
      · -- The number after a minus sign is the only second tree that is looked at.
        subst minus
        have number : Unseen 0 fun trees => atLiteral (.punct '-' joint :: trees) :=
          of_first (fun _ => rfl) (fun _ _ => rfl) fun head _ => by cases head <;> rfl
        exact number alike fun _ => rest.length.zero_le
      · simp [atLiteral, minus]
  | _ => rfl

theorem path : Unseen kept atPath := (ident.or (operator rfl)).or (anyKeyword _)

/-- A test on the trees after some that stand before a comma. -/
theorem drop {seen : List Tree → γ} (count : Nat) (later : Unseen kept seen) :
    Unseen (kept + count) fun trees => seen (trees.drop count) := by
  intro front stop other alike left
  dsimp only
  by_cases within : count ≤ front.length
  · rw [List.drop_append_of_le_length within, List.drop_append_of_le_length within]
    refine later alike fun stops => ?_
    have enough := left stops
    rw [List.length_drop]
    omega
  · cases alike with
    | stops one two =>
        have enough := left one
        omega
    | groups delimiter content changed rest =>
        obtain ⟨more, rfl⟩ := Nat.exists_eq_add_of_lt (Nat.lt_of_not_le within)
        have beyond (inside : List Tree) :
            (front ++ .group delimiter inside :: rest).drop (front.length + more + 1) =
              rest.drop more := by
          rw [Nat.add_assoc, List.drop_length_add_append, List.drop_succ_cons]
        rw [beyond, beyond]

/-- A test on the second tree, where a test on the first one fails at a comma and at the end. -/
theorem second {first second : List Tree → Bool} (none : first [] = false)
    (seen : Unseen kept first)
    (later : Unseen 0 second) : Unseen kept fun trees => first trees && second (trees.drop 1) := by
  intro front stop other alike left
  dsimp only
  rw [seen alike left]
  cases front with
  | nil =>
      cases alike with
      | stops one two =>
          have ended : first other = false := by
            rw [← none]
            exact seen (.stops two (.inl rfl)) fun _ => left one
          simp only [List.nil_append, ended, Bool.false_and]
      | groups => rfl
  | cons head rest =>
      simp only [List.cons_append, List.drop_succ_cons, List.drop_zero,
        later alike fun _ => rest.length.zero_le]

/-- A test on what follows a double colon. -/
theorem beyondColons {test : List Tree → Bool} (later : Unseen 0 test) :
    Unseen kept fun trees => atOperator "::" trees && test (trees.drop 2) := by
  intro front stop other alike left
  have seen : atOperator "::" (front ++ stop) = atOperator "::" (front ++ other) :=
    operator rfl alike left
  dsimp only
  rw [seen]
  rcases front with _ | ⟨first, _ | ⟨next, rest⟩⟩
  · cases alike with
    | stops one two => rcases two with rfl | ⟨joint, rest, rfl⟩ <;> rfl
    | groups => rfl
  · have single : atOperator "::" ([first] ++ other) = false := by
      cases first with
      | punct mark joint =>
          cases alike with
          | stops one two => rcases two with rfl | ⟨_, _, rfl⟩ <;> simp [atOperator, startsMarks]
          | groups => simp [atOperator, startsMarks]
      | _ => rfl
    rw [single, Bool.false_and, Bool.false_and]
  · simp only [List.cons_append, List.drop_succ_cons, List.drop_zero,
      later alike fun _ => rest.length.zero_le]

end Unseen

/-! ### Local readers -/

namespace Reader

/-- From these trees on, the reader reads the same before a stop and before another, where it leaves
at least `kept` trees before the stop. -/
def LocalFrom (kept : Nat) (front : List Tree) (reader : Reader α) : Prop :=
  ∀ ⦃stop other rest : List Tree⦄ ⦃value : α⦄ ⦃taken : List Piece⦄, StopAlike stop other →
    kept ≤ rest.length → reader.Reads (front ++ stop) value taken (rest ++ stop) →
      reader.Reads (front ++ other) value taken (rest ++ other)

/-- The reader reads the same before a stop and before another, where it leaves at least `kept`
trees before the stop. -/
def Local (kept : Nat) (reader : Reader α) : Prop := ∀ front, LocalFrom kept front reader

variable {kept : Nat} {front : List Tree}

/-- What is left before a stop by a part that later parts take from. -/
theorem Reads.before_stop {reader : Reader α} {trees rest stop : List Tree} {value : α}
    {taken : List Piece} (read : reader.Reads trees value taken (rest ++ stop)) :
    trees = (Piece.sourceAll taken ++ rest) ++ stop := by
  rw [← read.conserved, List.append_assoc]

/-- No more is left before a stop than was there. -/
theorem Reads.length_before_stop {reader : Reader α} {rest stop : List Tree} {value : α}
    {taken : List Piece} (read : reader.Reads (front ++ stop) value taken (rest ++ stop)) :
    rest.length ≤ front.length := by
  have shorter := read.length_le
  simpa only [List.length_append, Nat.add_le_add_iff_right] using shorter

/-- A sequence is local from some trees on when its first part is local and its second part is local
from whatever the first part leaves. What the second part takes is left before the stop by the
first. -/
theorem LocalFrom.bind {first : Reader α} {next : α → Reader β} {gap : Nat}
    (before : LocalFrom (kept + gap) front first)
    (after : ∀ {value taken rest stop}, first.Reads (front ++ stop) value taken (rest ++ stop) →
      LocalFrom kept rest (next value))
    (takes : ∀ {value trees found taken rest}, (next value).Reads trees found taken rest →
      rest.length + gap ≤ trees.length) :
    LocalFrom kept front (first >>= next) := by
  intro stop other rest value taken alike left read
  obtain ⟨middle, one, two, between, earlier, later, rfl⟩ := reads_bind.mp read
  obtain rfl := later.before_stop
  have fits : kept + gap ≤ (Piece.sourceAll two ++ rest).length := by
    have taking := takes later
    simp only [List.length_append] at taking ⊢
    omega
  exact reads_bind.mpr ⟨middle, one, two, _, before alike fits earlier,
    after earlier alike left later, rfl⟩

/-- A sequence of local readers is local. -/
theorem Local.bind {first : Reader α} {next : α → Reader β} (before : Local kept first)
    (after : ∀ value, Local kept (next value)) : Local kept (first >>= next) :=
  fun front => LocalFrom.bind (show LocalFrom (kept + 0) front first from before front)
    (fun _ => after _ _) fun later => later.length_le

/-- A first part needs to be local only where what the second part takes is still to come. -/
theorem Local.bind_takes {first : Reader α} {next : α → Reader β} (before : Local (kept + 1) first)
    (after : ∀ value, Local kept (next value)) (takes : ∀ value, Takes (next value) fun _ => True) :
    Local kept (first >>= next) :=
  fun front => LocalFrom.bind (before front) (fun _ => after _ _) fun later =>
    takes _ later trivial

theorem Local.pure (value : α) : Local kept (pure value) := by
  intro front stop other rest found taken alike left read
  obtain ⟨rfl, rfl, same⟩ := reads_pure.mp read
  rw [List.append_cancel_right same]
  exact reads_pure.mpr ⟨rfl, rfl, rfl⟩

/-- A reader that chooses by the trees ahead is local when the stop has no say in the choice. -/
theorem Local.ahead {next : List Tree → Reader α} (unseen : Unseen kept next)
    (each : ∀ trees, Local kept (next trees)) : Local kept (ahead >>= next) := by
  intro front stop other rest value taken alike left read
  rw [reads_ahead_bind] at read ⊢
  rw [← unseen alike fun _ => left.trans read.length_before_stop]
  exact each _ front alike left read

theorem Local.ite {c : Prop} [Decidable c] {yes no : Reader α} (whenever : Local kept yes)
    (otherwise : Local kept no) : Local kept (if c then yes else no) := by
  split
  · exact whenever
  · exact otherwise

/-- A reader that goes on in one of two ways, by a test on the trees ahead. Before a comma that the
test does see neither way may lead anywhere. -/
theorem Local.choose_unless {test : List Tree → Bool} {yes no : List Tree → Reader α}
    (exceptional : List Tree → Prop)
    (unseen : ∀ ⦃front stop other⦄, StopAlike stop other → (Stops stop → kept ≤ front.length) →
      test (front ++ stop) = test (front ++ other) ∨ exceptional front ∧ Stops stop)
    (whenever : Local kept (Reader.ahead >>= yes)) (otherwise : Local kept (Reader.ahead >>= no))
    (never : ∀ ⦃front⦄, exceptional front → ∀ value taken rest,
      ¬ (Reader.ahead >>= yes).Reads front value taken rest)
    (neither : ∀ ⦃front⦄, exceptional front → ∀ value taken rest,
      ¬ (Reader.ahead >>= no).Reads front value taken rest) :
    Local kept (Reader.ahead >>= fun trees => if test trees then yes trees else no trees) := by
  intro front stop other rest value taken alike left read
  have fits := left.trans read.length_before_stop
  rw [reads_ahead_bind] at read ⊢
  rcases unseen alike fun _ => fits with same | ⟨odd, stops⟩
  · rw [← same]
    cases chosen : test (front ++ stop) with
    | true =>
        rw [chosen] at read
        exact reads_ahead_bind.mp (whenever front alike left (reads_ahead_bind.mpr read))
    | false =>
        rw [chosen] at read
        exact reads_ahead_bind.mp (otherwise front alike left (reads_ahead_bind.mpr read))
  · have alone : StopAlike stop [] := .stops stops (.inl rfl)
    split at read
    · have read := whenever front alone left (reads_ahead_bind.mpr read)
      rw [List.append_nil] at read
      exact absurd read (never odd _ _ _)
    · have read := otherwise front alone left (reads_ahead_bind.mpr read)
      rw [List.append_nil] at read
      exact absurd read (neither odd _ _ _)

/-- A reader that goes on in one of two ways, by a test on the trees ahead. -/
theorem Local.choose {test : List Tree → Bool} {yes no : List Tree → Reader α}
    (unseen : Unseen kept test) (whenever : Local kept (Reader.ahead >>= yes))
    (otherwise : Local kept (Reader.ahead >>= no)) :
    Local kept (Reader.ahead >>= fun trees => if test trees then yes trees else no trees) :=
  Local.choose_unless (fun _ => False) (fun _ _ _ alike left => .inl (unseen alike left)) whenever
    otherwise (fun _ => False.elim) fun _ => False.elim

/-- A reader that makes nothing of the trees ahead. -/
theorem Local.always {reader : Reader α} (own : Local kept reader) :
    Local kept (Reader.ahead >>= fun _ => reader) :=
  Local.ahead (Unseen.const reader) fun _ => own

/-- A reader that looks twice at the same trees. -/
theorem Local.ahead_ahead {next : List Tree → List Tree → Reader α}
    (own : Local kept (Reader.ahead >>= fun trees => next trees trees)) :
    Local kept (Reader.ahead >>= fun trees => Reader.ahead >>= next trees) := by
  intro front stop other rest value taken alike left read
  simp only [reads_ahead_bind] at read ⊢
  exact reads_ahead_bind.mp (own front alike left (reads_ahead_bind.mpr read))

/-- A first part that is only there sometimes. -/
theorem Local.sometimes {c : Prop} [Decidable c] {first : Reader Unit} {next : Unit → Reader α}
    (before : Local kept first) (after : Local kept (next ())) :
    Local kept (if c then first >>= next else next ()) :=
  (before.bind fun _ => after).ite after

/-- Two first parts that are only there sometimes. -/
theorem Local.sometimesBoth {c : Prop} [Decidable c] {first : Reader β} {second : Reader Unit}
    {next : Unit → Reader α} (one : Local kept first) (two : Local kept second)
    (after : Local kept (next ())) :
    Local kept (if c then first >>= fun _ => second >>= next else next ()) :=
  (one.bind fun _ => two.bind fun _ => after).ite after

/-- One of two first parts, by a test on the trees ahead. -/
theorem Local.chooseFirst {test : List Tree → Bool} {one other : Reader α} {next : α → Reader β}
    (unseen : Unseen kept test) (first : Local kept one) (second : Local kept other)
    (after : ∀ value, Local kept (next value)) :
    Local kept (Reader.ahead >>= fun trees =>
      if test trees then one >>= next else other >>= next) :=
  .choose unseen (first.bind after).always (second.bind after).always

/-- The rounds of a local loop are local. -/
theorem Local.loop {step : σ → Reader (σ ⊕ α)} (progresses : Progresses step)
    (each : ∀ state, Local kept (step state)) (state : σ) : Local kept (loop step state) := by
  intro front
  induction length : front.length using Nat.strong_induction_on generalizing front state with
  | _ count ih =>
      have unrolled : LocalFrom kept front (step state >>= afterRound (Reader.loop step)) := by
        have one : LocalFrom (kept + 0) front (step state) := each state front
        refine one.bind ?_ fun later => later.length_le
        intro result taken rest stop round
        cases result with
        | inl next =>
            have shorter := progresses state round rfl
            simp only [List.length_append, Nat.add_lt_add_iff_right] at shorter
            exact ih rest.length (length ▸ shorter) next rest rfl
        | inr final => exact Local.pure final rest
      intro stop other rest value taken alike left read
      exact (reads_loop progresses).mpr (unrolled alike left ((reads_loop progresses).mp read))

/-! ### Readers that see only what they take -/

/-- What the reader takes is read alike whatever follows it. -/
def Exact (reader : Reader α) : Prop :=
  ∀ ⦃trees rest : List Tree⦄ ⦃value : α⦄ ⦃taken : List Piece⦄,
    reader.Reads trees value taken rest →
      ∀ other, reader.Reads (Piece.sourceAll taken ++ other) value taken other

theorem Exact.local {reader : Reader α} (alike : Exact reader) : Local kept reader := by
  intro front stop other rest value taken _ _ read
  obtain rfl := List.append_cancel_right read.before_stop
  rw [List.append_assoc]
  exact alike read (rest ++ other)

theorem Exact.bind {first : Reader α} {next : α → Reader β} (before : Exact first)
    (after : ∀ value, Exact (next value)) : Exact (first >>= next) := by
  intro trees rest value taken read other
  obtain ⟨middle, one, two, between, earlier, later, rfl⟩ := reads_bind.mp read
  rw [Piece.sourceAll_append, List.append_assoc]
  exact reads_bind.mpr ⟨middle, one, two, _, before earlier _, after middle later other, rfl⟩

theorem Exact.pure (value : α) : Exact (Pure.pure value : Reader α) := by
  intro trees rest found taken read other
  obtain ⟨rfl, rfl, _⟩ := reads_pure.mp read
  exact reads_pure.mpr ⟨rfl, rfl, rfl⟩

/-- The reader takes one tree or fails, which depends on that tree alone. -/
def TakesOne (reader : Reader α) : Prop :=
  (∃ mismatch, reader [] = .error mismatch) ∧
    ∀ head, (∀ rest, ∃ mismatch, reader (head :: rest) = .error mismatch) ∨
      ∃ value piece, ∀ rest, ∃ conserved,
        reader (head :: rest) = .ok ⟨value, [piece], rest, conserved⟩

/-- A reader that takes one tree reads it the same whatever follows. -/
theorem TakesOne.reads {reader : Reader α} (one : TakesOne reader) {trees rest : List Tree}
    {value : α} {taken : List Piece} (read : reader.Reads trees value taken rest) :
    ∃ head piece, trees = head :: rest ∧ taken = [piece] ∧
      ∀ other, reader.Reads (head :: other) value [piece] other := by
  obtain ⟨conserved, read⟩ := read
  cases trees with
  | nil =>
      obtain ⟨mismatch, fails⟩ := one.1
      rw [fails] at read
      cases read
  | cons head others =>
      rcases one.2 head with fails | ⟨found, piece, gives⟩
      · obtain ⟨mismatch, fails⟩ := fails others
        rw [fails] at read
        cases read
      · obtain ⟨_, given⟩ := gives others
        rw [given] at read
        cases read
        exact ⟨head, piece, rfl, rfl, gives⟩

theorem TakesOne.exact {reader : Reader α} (one : TakesOne reader) : Exact reader := by
  intro trees rest value taken read other
  obtain ⟨head, piece, rfl, rfl, gives⟩ := one.reads read
  have whole : Piece.sourceAll [piece] = [head] :=
    List.append_cancel_right (read.conserved.trans List.singleton_append.symm)
  rw [whole]
  exact gives other

theorem TakesOne.takes {reader : Reader α} (one : TakesOne reader) {stated : α → Prop} :
    Takes reader stated := by
  intro trees rest value taken read _
  obtain ⟨head, _, rfl, _⟩ := one.reads read
  exact Nat.lt_succ_self _

theorem takesOne_tree : TakesOne tree :=
  ⟨⟨_, rfl⟩, fun _ => .inr ⟨_, _, fun _ => ⟨_, rfl⟩⟩⟩

theorem takesOne_treeAs (printed : List Tree) : TakesOne (treeAs printed) :=
  ⟨⟨_, rfl⟩, fun _ => .inr ⟨_, _, fun _ => ⟨_, rfl⟩⟩⟩

theorem takesOne_word : TakesOne word := by
  refine ⟨⟨_, rfl⟩, fun head => ?_⟩
  cases head with
  | ident name => exact .inr ⟨_, _, fun _ => ⟨_, rfl⟩⟩
  | _ => exact .inl fun _ => ⟨_, rfl⟩

theorem takesOne_keyword (text : String) : TakesOne (keyword text) := by
  refine ⟨⟨_, rfl⟩, fun head => ?_⟩
  cases head with
  | ident name =>
      by_cases same : name = ⟨false, text⟩
      · exact .inr ⟨_, _, fun _ => ⟨_, if_pos same⟩⟩
      · exact .inl fun _ => ⟨_, if_neg same⟩
  | _ => exact .inl fun _ => ⟨_, rfl⟩

theorem takesOne_lifetime : TakesOne lifetime := by
  refine ⟨⟨_, rfl⟩, fun head => ?_⟩
  cases head with
  | lifetime name => exact .inr ⟨_, _, fun _ => ⟨_, rfl⟩⟩
  | _ => exact .inl fun _ => ⟨_, rfl⟩

theorem takesOne_literalText : TakesOne literalText := by
  refine ⟨⟨_, rfl⟩, fun head => ?_⟩
  cases head with
  | literal text => exact .inr ⟨_, _, fun _ => ⟨_, rfl⟩⟩
  | _ => exact .inl fun _ => ⟨_, rfl⟩

theorem takesOne_anyGroup (what : String) : TakesOne (anyGroup what) := by
  refine ⟨⟨_, rfl⟩, fun head => ?_⟩
  cases head with
  | group delimiter content => exact .inr ⟨_, _, fun _ => ⟨_, rfl⟩⟩
  | _ => exact .inl fun _ => ⟨_, rfl⟩

theorem takesOne_group (delimiter : Delimiter) (inner : Reader α) :
    TakesOne (group delimiter inner) := by
  refine ⟨⟨_, rfl⟩, fun head => ?_⟩
  cases head with
  | group found content =>
      by_cases same : found = delimiter
      · subst same
        cases inside : inner content with
        | error mismatch =>
            refine .inl fun rest => ⟨mismatch, ?_⟩
            simp only [group, ↓reduceDIte, inside]
        | ok reading =>
            obtain ⟨value, taken, left, conserved⟩ := reading
            cases left with
            | nil =>
                refine .inr ⟨value, .group found taken, fun rest => ⟨?_, ?_⟩⟩
                · have whole : Piece.sourceAll taken = content := by simpa using conserved
                  simp [Piece.source, whole]
                · simp only [group, ↓reduceDIte, inside]
            | cons next others =>
                refine .inl fun rest => ⟨.leftover, ?_⟩
                simp only [group, ↓reduceDIte, inside]
      · refine .inl fun rest => ⟨.expected (delimiterName delimiter) false, ?_⟩
        simp only [group, same, ↓reduceDIte]
  | _ => exact .inl fun _ => ⟨_, rfl⟩

/-- The marks of an operator are read alike whatever follows them. -/
theorem takeMarks_source {marks : List Char} {trees : List Tree} {reading : Reading Unit trees}
    (read : takeMarks marks trees = some reading) (other : List Tree) :
    ∃ conserved, takeMarks marks (Piece.sourceAll reading.taken ++ other) =
      some ⟨(), reading.taken, other, conserved⟩ := by
  induction marks generalizing trees with
  | nil =>
      cases read
      exact ⟨rfl, rfl⟩
  | cons mark marks ih =>
      rcases trees with _ | ⟨head, rest⟩
      · cases marks <;> cases read
      cases head with
      | punct found joint =>
          cases marks with
          | nil =>
              rw [takeMarks] at read
              split at read
              · rename_i same
                cases read
                refine ⟨rfl, ?_⟩
                simp [takeMarks, Piece.source]
              · cases read
          | cons next marks =>
              rw [takeMarks] at read
              split at read
              · rename_i same
                obtain ⟨later, found, rfl⟩ := Option.map_eq_some_iff.mp read
                obtain ⟨conserved, again⟩ := ih found
                refine ⟨by simp [Piece.source], ?_⟩
                simp [takeMarks, Piece.source, again]
              · cases read
      | _ => cases marks <;> cases read

/-- An operator is read where its marks stand joined. -/
theorem reads_operator {text : String} {trees rest : List Tree} {value : Unit}
    {taken : List Piece} :
    (operator text).Reads trees value taken rest ↔
      ∃ conserved, takeMarks text.toList trees = some ⟨value, taken, rest, conserved⟩ := by
  unfold Reads operator
  refine exists_congr fun conserved => ?_
  cases takeMarks text.toList trees with
  | none => simp
  | some reading => simp

/-- An operator of one mark is that mark, joint to what follows or not. -/
theorem reads_mark {text : String} {mark : Char} (single : text.toList = [mark])
    {trees rest : List Tree} {value : Unit} {taken : List Piece} :
    (operator text).Reads trees value taken rest ↔
      ∃ joint, trees = .punct mark joint :: rest ∧ taken = [.mark mark joint false] := by
  rw [reads_operator, single]
  rcases trees with _ | ⟨head, others⟩
  · simp [takeMarks]
  cases head with
  | punct found joint =>
      by_cases same : found = mark
      · subst same
        simp only [takeMarks, ↓reduceDIte, Option.some.injEq, Reading.mk.injEq]
        constructor
        · rintro ⟨_, _, rfl, rfl⟩
          exact ⟨joint, rfl, rfl⟩
        · rintro ⟨_, whole, rfl⟩
          cases whole
          exact ⟨rfl, trivial, rfl, rfl⟩
      · simp [takeMarks, same]
  | _ => simp [takeMarks]

theorem exact_operator (text : String) : Exact (operator text) := by
  intro trees rest value taken read other
  obtain ⟨_, found⟩ := reads_operator.mp read
  obtain ⟨conserved, again⟩ := takeMarks_source found other
  exact reads_operator.mpr ⟨conserved, again⟩

/-- An operator has at least one mark, which is taken. -/
theorem takes_operator {text : String} (marked : text.toList.isEmpty = false)
    {stated : Unit → Prop} :
    Takes (operator text) stated := by
  intro trees rest value taken read _
  obtain ⟨conserved, found⟩ := reads_operator.mp read
  obtain ⟨mark, marks, spelled⟩ := List.exists_cons_of_ne_nil (List.isEmpty_eq_false_iff.mp marked)
  rw [spelled] at found
  rcases trees with _ | ⟨head, others⟩
  · cases marks <;> cases found
  have shorter : rest.length ≤ others.length := by
    cases head with
    | punct symbol joint =>
        cases marks with
        | nil =>
            rw [takeMarks] at found
            split at found
            · cases found
              exact le_rfl
            · cases found
        | cons next marks =>
            rw [takeMarks] at found
            split at found
            · obtain ⟨later, _, same⟩ := Option.map_eq_some_iff.mp found
              cases same
              have whole := congrArg List.length later.conserved
              rw [List.length_append] at whole
              omega
            · cases found
    | _ => cases marks <;> cases found
  exact Nat.lt_succ_of_le shorter

/-! ### Combinators -/

theorem reads_discard {reader : Reader α} {trees rest : List Tree} {value : Unit}
    {taken : List Piece} :
    (Functor.discard reader).Reads trees value taken rest ↔
      ∃ found, reader.Reads trees found taken rest := by
  change (reader >>= fun _ => Pure.pure ()).Reads trees value taken rest ↔ _
  rw [reads_bind]
  constructor
  · rintro ⟨found, one, two, between, read, last, rfl⟩
    obtain ⟨_, rfl, rfl⟩ := reads_pure.mp last
    exact ⟨found, (List.append_nil one).symm ▸ read⟩
  · rintro ⟨found, read⟩
    exact ⟨found, taken, [], rest, read, reads_pure.mpr ⟨rfl, rfl, rfl⟩,
      (List.append_nil taken).symm⟩

theorem reads_keyword {text : String} {trees rest : List Tree} {value : Unit} {taken : List Piece} :
    (keyword text).Reads trees value taken rest ↔
      trees = name text :: rest ∧ taken = [.tree (name text)] := by
  constructor
  · rintro ⟨_, read⟩
    unfold keyword at read
    split at read
    · split at read
      · rename_i same
        cases read
        rw [same]
        exact ⟨rfl, rfl⟩
      · cases read
    · cases read
  · rintro ⟨rfl, rfl⟩
    exact ⟨rfl, if_pos rfl⟩

/-- A part that is taken where a test on the trees ahead holds. -/
theorem reads_optional {test : List Tree → Bool} {part : Reader Unit} {trees rest : List Tree}
    {value : Bool} {taken : List Piece} :
    (do
      if test (← ahead) then
        part
        return true
      else return false : Reader Bool).Reads trees value taken rest ↔
      value = true ∧ test trees = true ∧ part.Reads trees () taken rest ∨
        value = false ∧ test trees = false ∧ rest = trees ∧ taken = [] := by
  rw [reads_ahead_bind]
  cases test trees with
  | true =>
      simp only [↓reduceIte, Bool.true_eq_false, false_and, and_false, or_false, true_and]
      constructor
      · intro read
        obtain ⟨_, _, _, _, taking, last, rfl⟩ := reads_bind.mp read
        obtain ⟨rfl, rfl, rfl⟩ := reads_pure.mp last
        rw [List.append_nil]
        exact ⟨rfl, taking⟩
      · rintro ⟨rfl, taking⟩
        exact reads_bind.mpr ⟨(), taken, [], rest, taking, reads_pure.mpr ⟨rfl, rfl, rfl⟩,
          (List.append_nil taken).symm⟩
  | false =>
      simp only [Bool.false_eq_true, ↓reduceIte, false_and, and_false, false_or,
        true_and, reads_pure]
      tauto

theorem reads_keyword? {text : String} {trees rest : List Tree} {value : Bool}
    {taken : List Piece} :
    (keyword? text).Reads trees value taken rest ↔
      value = true ∧ atKeyword text trees = true ∧ (keyword text).Reads trees () taken rest ∨
        value = false ∧ atKeyword text trees = false ∧ rest = trees ∧ taken = [] :=
  reads_optional

theorem reads_operator? {text : String} {trees rest : List Tree} {value : Bool}
    {taken : List Piece} :
    (operator? text).Reads trees value taken rest ↔
      value = true ∧ atOperator text trees = true ∧ (operator text).Reads trees () taken rest ∨
        value = false ∧ atOperator text trees = false ∧ rest = trees ∧ taken = [] :=
  reads_optional

theorem reads_succeeds {reader : Reader α} {trees rest : List Tree} {value : Bool}
    {taken : List Piece} :
    (succeeds reader).Reads trees value taken rest ↔
      value = (reader.found trees).isSome ∧ taken = [] ∧ rest = trees := by
  unfold Reads succeeds found
  cases reader trees <;> constructor
  all_goals first
    | rintro ⟨_, read⟩
      cases read
      exact ⟨rfl, rfl, rfl⟩
    | rintro ⟨rfl, rfl, rfl⟩
      exact ⟨rfl, rfl⟩

theorem Local.discard {reader : Reader α} (inner : Local kept reader) :
    Local kept (discard reader) := by
  change Local kept (reader >>= fun _ => Pure.pure ())
  exact inner.bind fun _ => Local.pure _

theorem Local.map {reader : Reader α} (inner : Local kept reader) (function : α → β) :
    Local kept (function <$> reader) := by
  change Local kept (reader >>= fun value => Pure.pure (function value))
  exact inner.bind fun _ => Local.pure _

theorem Takes.discard {reader : Reader α} {stated : Unit → Prop}
    (inner : Takes reader fun _ => True) : Takes (discard reader) stated := by
  change Takes (reader >>= fun _ => Pure.pure ()) stated
  exact inner.first

theorem Local.fails {reader : Reader α}
    (fails : ∀ trees value taken rest, ¬ reader.Reads trees value taken rest) :
    Local kept reader := by
  intro front stop other rest value taken _ _ read
  exact absurd read (fails _ _ _ _)

theorem Local.missing (what : String) : Local kept (missing what : Reader α) :=
  Local.fails fun _ _ _ _ ⟨_, read⟩ => by cases read

theorem Local.fail (mismatch : Mismatch) : Local kept (fail mismatch : Reader α) :=
  Local.fails fun _ _ _ _ ⟨_, read⟩ => by cases read

theorem Takes.missing (what : String) {stated : α → Prop} : Takes (missing what) stated := by
  rintro _ _ _ _ ⟨_, read⟩
  cases read

theorem Takes.fail (mismatch : Mismatch) {stated : α → Prop} : Takes (fail mismatch) stated := by
  rintro _ _ _ _ ⟨_, read⟩
  cases read

theorem reads_phrase {reader : Reader α} {trees rest : List Tree} {value : Phrase α}
    {taken : List Piece} :
    (phrase reader).Reads trees value taken rest ↔
      value.pieces = taken ∧ reader.Reads trees value.kind taken rest := by
  unfold Reads phrase
  cases reader trees with
  | error mismatch => simp
  | ok reading =>
      obtain ⟨found, pieces, left, conserved⟩ := reading
      obtain ⟨kind, own⟩ := value
      constructor
      · rintro ⟨_, read⟩
        cases read
        exact ⟨rfl, conserved, rfl⟩
      · rintro ⟨rfl, _, read⟩
        cases read
        exact ⟨conserved, rfl⟩

theorem Local.phrase {reader : Reader α} (inner : Local kept reader) :
    Local kept (phrase reader) := by
  intro front stop other rest value taken alike left read
  rw [reads_phrase] at read ⊢
  exact ⟨read.1, inner front alike left read.2⟩

/-- A reader that is printed in another way takes one piece, with what was written in it. -/
theorem reads_printingAs {reader : Reader α} {printed : α → List Tree} {trees rest : List Tree}
    {value : α} {taken : List Piece} :
    (printingAs reader printed).Reads trees value taken rest ↔
      ∃ written, taken = [.reprinted written (printed value)] ∧
        reader.Reads trees value written rest := by
  unfold Reads printingAs
  cases reader trees with
  | error mismatch => simp
  | ok reading =>
      obtain ⟨found, pieces, left, conserved⟩ := reading
      constructor
      · rintro ⟨_, read⟩
        cases read
        exact ⟨pieces, rfl, conserved, rfl⟩
      · rintro ⟨written, rfl, _, read⟩
        cases read
        exact ⟨by simpa [Piece.source] using conserved, rfl⟩

theorem Local.printingAs {reader : Reader α} (inner : Local kept reader) (printed : α → List Tree) :
    Local kept (printingAs reader printed) := by
  intro front stop other rest value taken alike left read
  rw [reads_printingAs] at read ⊢
  obtain ⟨written, same, read⟩ := read
  exact ⟨written, same, inner front alike left read⟩

/-- A walk over some values is local when each round is. -/
theorem Local.forIn {γ : Type} {round : γ → σ → Reader (ForInStep σ)}
    (each : ∀ value state, Local kept (round value state)) (values : List γ) (state : σ) :
    Local kept (forIn values state round) := by
  induction values generalizing state with
  | nil =>
      rw [List.forIn_nil]
      exact Local.pure state
  | cons value values ih =>
      rw [List.forIn_cons]
      refine (each value state).bind fun result => ?_
      cases result with
      | done final => exact Local.pure final
      | yield next => exact ih next

theorem Local.many {more : List Tree → Bool} {reader : Reader α}
    (unseen : Unseen kept more) (inner : Local kept reader) (takes : Takes reader fun _ => True) :
    Local kept (many more reader) := by
  refine Local.map (Local.loop ?_ ?_ _) _
  · intro values
    exact Takes.second fun _ => Takes.ite takes.first (Takes.pure Bool.false_ne_true)
  · intro values
    exact .choose unseen (inner.bind fun _ => .pure _).always (Local.pure _).always

theorem Local.keyword? (text : String) : Local kept (keyword? text) :=
  .choose (.keyword text) ((takesOne_keyword text).exact.local.bind fun _ => .pure _).always
    (Local.pure _).always

theorem Local.operator? {text : String} (plain : isPlainOperator text = true) :
    Local kept (operator? text) :=
  .choose (.operator plain) ((exact_operator text).local.bind fun _ => .pure _).always
    (Local.pure _).always

theorem Local.lifetime? : Local kept lifetime? :=
  .choose .lifetime (takesOne_lifetime.exact.local.bind fun _ => .pure _).always
    (Local.pure _).always

theorem Local.ident : Local kept ident :=
  .choose .ident takesOne_word.exact.local.always (Local.missing _).always

/-- A keyword that was found was taken. -/
theorem Takes.keyword? (text : String) : Takes (keyword? text) (· = true) :=
  Takes.second fun _ =>
    Takes.ite (takesOne_keyword text).takes.first (Takes.pure Bool.false_ne_true)

/-- An operator that was found was taken. -/
theorem Takes.operator? {text : String} (marked : text.toList.isEmpty = false) :
    Takes (operator? text) (· = true) :=
  Takes.second fun _ => Takes.ite (takes_operator marked).first (Takes.pure Bool.false_ne_true)

theorem Takes.ident {stated : Ident → Prop} : Takes ident stated :=
  Takes.second fun _ => Takes.ite takesOne_word.takes (Takes.missing _)

end Reader

end Source
end Toolsmith
