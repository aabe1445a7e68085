import Mathlib
import Toolsmith.Proofs.Source.Follow.Pattern
import Toolsmith.Proofs.Source.LocalSignature

/-! # Parameters are read again

A parameter is a receiver where one can be read, and else a pattern with a type. What a pattern
prints may begin like a receiver only where it was written like one (`received_of_pattern`).
-/

namespace Toolsmith
namespace Source

open Piece Reader

namespace Reader

theorem Divided.without {x y : List Tree} (divided : Divided x y) {text : String} {mark : Char}
    (single : text.toList = [mark]) (other : mark ≠ ',') : atOperator text y = false := by
  rw [← Seen.mark single divided.toHead, Bool.eq_false_iff, ne_eq, Grammar.kind_of_mark single]
  rcases divided.parts with ended | comma
  · rw [ended]
    exact nofun
  · rw [comma]
    simpa using other.symm

end Reader

namespace Grammar

variable {g h : Grammar}

/-! ### The grammar -/

theorem follows_delayed {α : Type} {starts : Sight} {ends : α → Sight} (made : Unit → Reader α)
    (own : Follows (made ()) (made ()) Eq starts ends) :
    Follows (Reader.delayed made) (Reader.delayed made) Eq starts ends := by
  intro trees rest other value taken read settled behind
  obtain ⟨before, found, again, same, reads, plain⟩ := own (reads_delayed.mp read) settled behind
  exact ⟨before, found, again, same, reads_delayed.mpr reads, plain⟩

/-- **The grammar reads again.** Paths, types and patterns up to any depth are read again from what
they print. -/
theorem repeats_within (depth : Nat) : (Grammar.within depth).Repeats := by
  induction depth with
  | zero => exact ⟨fun _ _ _ => .missing _, fun _ _ _ => .missing _, fun _ => .missing _⟩
  | succ depth ih =>
      refine ⟨fun expression _ weak => ?_, fun plus _ weak => ?_, fun weak => ?_⟩
      · refine follows_delayed (fun _ => (Grammar.within depth).unfold.path expression) ?_
        exact (follows_plainPath ih expression weak).starting fun _ _ leads =>
          leads.imp fun _ _ apart => .inr apart.1
      · exact follows_delayed (fun _ => (Grammar.within depth).unfold.type plus)
          (follows_typeProduction ih plus weak)
      · exact follows_delayed (fun _ => (Grammar.within depth).unfold.pattern)
          (follows_patternProduction ih weak)

/-! ### Receivers -/

/-- A receiver behind its reference sign, whose type may be written if it has none. -/
def selfParameter (g : Grammar) (reference : Bool) : Reader Unit := do
  discard (keyword? "mut")
  keyword "self"
  if !reference then
    if ← operator? ":" then discard (g.type true)

theorem follows_selfParameter (own : g.Repeats) (reference : Bool) :
    Again (g.selfParameter reference) Head Divided := by
  let type : Sight := fun x y => Marked ":" (Leads Divided) x y ∨ Divided x y
  refine Follows.bind (fun _ => Ahead (· = name "self") type) (Follows.dropped
    (.keyword? "mut" (fun x y ahead => ahead.head (by rintro _ rfl; rfl))
      fun x y _ ahead => ⟨?_, ahead.head (by rintro _ rfl; rfl)⟩)) fun _ =>
      Follows.bind (fun _ => type) ((copies_keyword _).follows fun _ _ _ => id) fun _ =>
        .ite (fun _ => ?_) fun _ => (Follows.pure rfl).starting fun _ _ => .inr
  · obtain ⟨_, _, _, rfl, _, rfl, _⟩ := ahead
    rfl
  · exact .operatorIf ":" (Leads Divided) Divided
      (own.type true fun _ _ ended => .inl ended.toHead).dropped (.pure rfl) (fun _ _ => .inl)
      fun x y _ ended => ⟨ended.without rfl (by decide), .inr ended⟩

/-- A receiver is read again as one of the same kind. -/
theorem follows_receiver (own : g.Repeats) : Again g.receiver Head Divided := by
  refine Follows.bind (fun _ => Head) (.operator? "&" (fun x y marked => marked.loose rfl rfl)
    fun x y absent head => ⟨(Seen.mark rfl head).symm.trans absent, head⟩) fun reference =>
      .ite (fun _ => ?_) fun _ => follows_selfParameter own reference
  exact Follows.bind (fun _ => Head) (Follows.dropped (.lifetime?
    (fun name x y ahead => ahead.head (by rintro _ rfl; rfl))
    fun x y absent head => ⟨(Seen.lifetime head).symm.trans absent, head⟩)) fun _ =>
      follows_selfParameter own reference

/-! ### What begins like a receiver -/

theorem cases_selfStarts {start : List Tree} (known : start ∈ selfStarts) :
    start = [name "self"] ∨ start = [name "mut", name "self"] := by
  simpa [selfStarts] using known

/-- Behind a reference sign `self` is a receiver whatever follows it. -/
theorem received_reference {start : List Tree} (known : start ∈ selfStarts) (joint : Bool)
    (rest : List Tree) :
    (g.receiver.found (.punct '&' joint :: (start ++ rest))).isSome = true := by
  have begins : receiverStart.found (.punct '&' joint :: (start ++ rest)) = some (true, rest) := by
    rcases cases_selfStarts known with rfl | rfl
    · rfl
    · rfl
  rw [found_receiver, found_bind, begins]
  rfl

theorem found_receiverStart {start : List Tree} (known : start ∈ selfStarts) (rest : List Tree) :
    receiverStart.found (start ++ rest) = some (false, rest) := by
  rcases cases_selfStarts known with rfl | rfl
  · rfl
  · rfl

theorem received_self {start : List Tree} (known : start ∈ selfStarts) {rest : List Tree}
    (alone : atOperator ":" rest = false) : (g.receiver.found (start ++ rest)).isSome = true := by
  rw [found_receiver, found_bind, found_receiverStart known, Option.bind_some,
    found_receiverType_false, if_neg (ne_true_of_eq_false alone)]
  rfl

/-- Behind a colon there is a receiver where there is a type. -/
theorem received_typed {start : List Tree} (known : start ∈ selfStarts) {joint : Bool}
    {rest : List Tree} : (g.receiver.found (start ++ .punct ':' joint :: rest)).isSome =
      ((g.type true).found rest).isSome := by
  have colon : (operator ":").found (.punct ':' joint :: rest) = some ((), rest) :=
    (found_mark (show ":".toList = [':'] from rfl)).mpr ⟨joint, rfl⟩
  have stands : atOperator ":" (.punct ':' joint :: rest) = true := rfl
  rw [found_receiver, found_bind, found_receiverStart known, Option.bind_some]
  dsimp only
  rw [found_receiverType_false, if_pos stands, colon, Option.bind_some, Option.isSome_map]

/-- A receiver begins with `self`, or with a reference to it or a lifetime. -/
theorem begins_of_received {trees : List Tree} (received : (g.receiver.found trees).isSome = true) :
    (∃ start ∈ selfStarts, ∃ rest, trees = start ++ rest) ∨
      ∃ joint behind, trees = .punct '&' joint :: behind ∧ (atLifetime behind = true ∨
        ∃ start ∈ selfStarts, ∃ rest, behind = start ++ rest) := by
  rw [found_receiver, found_bind] at received
  obtain ⟨_, whole⟩ := Option.isSome_iff_exists.mp received
  obtain ⟨⟨reference, rest⟩, start, _⟩ := Option.bind_eq_some_iff.mp whole
  obtain ⟨_, start⟩ := found_eq_some.mp start
  obtain ⟨found, _, _, between, mark, read, _⟩ := reads_bind.mp start
  rcases reads_operator?.mp mark with ⟨rfl, _, mark⟩ | ⟨rfl, _, rfl, _⟩
  · obtain ⟨joint, rfl, _⟩ := (reads_mark (show "&".toList = ['&'] from rfl)).mp mark
    refine .inr ⟨joint, between, rfl, ?_⟩
    obtain ⟨_, _, _, _, named, last, _⟩ := reads_bind.mp read
    obtain ⟨_, named⟩ := reads_discard.mp named
    have named := reads_ahead_bind.mp named
    split at named
    · rename_i stands
      exact .inl stands
    · obtain ⟨_, _, rfl⟩ := reads_pure.mp named
      obtain ⟨_, start, known, whole⟩ := start_of_self last
      exact .inr ⟨start, known, rest, whole⟩
  · obtain ⟨_, start, known, whole⟩ := start_of_self read
    exact .inl ⟨start, known, rest, whole⟩

/-- No pattern begins with a lifetime. -/
theorem no_pattern_of_lifetime {trees rest : List Tree} {value : Unit} {taken : List Piece}
    (stands : atLifetime trees = true) : ¬ h.patternProduction.Reads trees value taken rest := by
  intro read
  rcases trees with _ | ⟨head, trees⟩
  · cases stands
  cases head with
  | lifetime name =>
      obtain ⟨_, read⟩ := reads_ahead_bind.mp read
      simp [atIdent, atKeyword, atAnyOperator, atAnyKeyword, atOperator, startsMarks, atLiteral,
        atGroup] at read
      cases read
  | _ => cases stands

/-- A pattern behind a reference is a pattern that may be mutable. -/
theorem pattern_of_reference {joint : Bool} {behind rest : List Tree} {value : Unit}
    {taken : List Piece}
    (read : h.patternProduction.Reads (.punct '&' joint :: behind) value taken rest) :
    ∃ mutable inner one two, (keyword? "mut").Reads behind mutable one inner ∧
      h.pattern.Reads inner () two rest ∧ taken = .mark '&' joint false :: (one ++ two) := by
  unfold patternProduction at read
  rw [reads_ahead_bind, if_neg, if_neg, if_neg, if_neg, if_neg, if_pos] at read
  · obtain ⟨_, _, _, _, mark, inside, rfl⟩ := reads_bind.mp read
    obtain ⟨_, whole, rfl⟩ := (reads_mark (show "&".toList = ['&'] from rfl)).mp mark
    cases whole
    obtain ⟨_, one, two, inner, mutable, pattern, rfl⟩ := reads_bind.mp inside
    obtain ⟨found, mutable⟩ := reads_discard.mp mutable
    exact ⟨found, inner, one, two, mutable, pattern, rfl⟩
  · rfl
  all_goals exact Bool.false_ne_true

/-- Behind `self` a pattern has no more than two colons in a row. -/
theorem no_third_colon {trees rest : List Tree} {value : Unit} {taken : List Piece}
    (colons : atOperator "::" trees = true) (third : headKind (trees.drop 2) = some (.punct ':')) :
    ¬ h.patternProduction.Reads (name "self" :: trees) value taken rest := by
  obtain ⟨_, rfl, second⟩ := startsMarks_cons.mp (show startsMarks [':', ':'] _ = true from colons)
  obtain ⟨_, _, rfl⟩ := eq_of_kind_punct (kind_of_startsMarks second)
  obtain ⟨_, _, rfl⟩ := eq_of_kind_punct third
  exact no_pattern_self

/-! ### A pattern does not turn into a receiver -/

/-- An identifier is known from its kind. -/
theorem eq_of_kind_ident {name : Ident} {trees : List Tree}
    (kind : headKind trees = some (.ident name)) : ∃ rest, trees = .ident name :: rest := by
  rcases trees with _ | ⟨head, rest⟩
  · cases kind
  cases head with
  | ident found =>
      cases kind
      exact ⟨rest, rfl⟩
  | _ => cases kind

theorem reads_pattern {depth : Nat} {trees rest : List Tree} {value : Unit} {taken : List Piece} :
    (Grammar.within (depth + 1)).pattern.Reads trees value taken rest ↔
      (Grammar.within depth).patternProduction.Reads trees value taken rest :=
  show (Reader.delayed fun _ => (Grammar.within depth).unfold.pattern).Reads _ _ _ _ ↔ _ from
    reads_delayed

theorem reads_type {depth : Nat} {plus : Bool} {trees rest : List Tree} {value : TypeKind}
    {taken : List Piece} : ((Grammar.within (depth + 1)).type plus).Reads trees value taken rest ↔
      ((Grammar.within depth).typeProduction plus).Reads trees value taken rest :=
  show (Reader.delayed fun _ => (Grammar.within depth).unfold.type plus).Reads _ _ _ _ ↔ _ from
    reads_delayed

/-- No type begins with a dot, nor with a single colon. -/
theorem no_type_found {depth : Nat} {plus joint : Bool} {mark : Char} {more : List Tree}
    (begins : mark = '.' ∨ mark = ':' ∧ atOperator "::" (.punct mark joint :: more) = false) :
    (((Grammar.within (depth + 1)).type plus).found (.punct mark joint :: more)).isSome ≠ true := by
  intro found
  obtain ⟨_, found⟩ := Option.isSome_iff_exists.mp found
  obtain ⟨_, read⟩ := found_eq_some.mp found
  exact no_type begins (reads_type.mp read)

section Pattern

variable {depth : Nat} {trees rest other : List Tree} {taken : List Piece} {behind : Sight}

/-- A pattern whose print begins with `self` was written so. -/
theorem start_of_leads {start after : List Tree} (weak : ∀ x y, behind x y → Next x y)
    (known : start ∈ selfStarts) (leads : Leads behind trees (start ++ after)) :
    ∃ before, trees = start ++ before := by
  rcases cases_selfStarts known with rfl | rfl
  · exact eq_of_kind_ident leads.head.kind
  · obtain ⟨before, whole⟩ := eq_of_kind_ident leads.head.kind
    subst whole
    have kind : headKind before = some (name "self").kind := by
      rcases leads.second rfl with head | ended
      · exact head.kind
      · rcases weak _ _ ended with head | colon
        · exact head.kind
        · cases colon.printed
    obtain ⟨before, rfl⟩ := eq_of_kind_ident kind
    exact ⟨before, rfl⟩

/-- A pattern is printed like a reference to `self` only where it was written so. -/
theorem received_of_reference (weak : ∀ x y, behind x y → Next x y) {written joint : Bool}
    {front after : List Tree}
    (read : (Grammar.within depth).patternProduction.Reads (.punct '&' written :: front) () taken
      rest)
    (settled : SettledAll taken) (relation : behind rest other)
    (whole : printAll taken ++ other = .punct '&' joint :: after)
    (form : atLifetime after = true ∨ ∃ start ∈ selfStarts, ∃ rest, after = start ++ rest) :
    (g.receiver.found (.punct '&' written :: front)).isSome = true := by
  obtain ⟨mutable, inner, one, two, word, pattern, rfl⟩ := pattern_of_reference read
  have settled := (settledAll_append.mp settled.2).2
  have leads := ((repeats_within depth).pattern weak pattern settled relation).1
  have whole : after = printAll one ++ (printAll two ++ other) := by
    rw [printAll_cons, List.append_assoc, printAll_append, List.append_assoc] at whole
    exact (List.cons.inj whole).2.symm
  rcases reads_keyword?.mp word with ⟨rfl, _, word⟩ | ⟨rfl, absent, rfl, rfl⟩
  · obtain ⟨rfl, rfl⟩ := reads_keyword.mp word
    have whole : after = name "mut" :: (printAll two ++ other) := whole
    rcases form with lifetime | ⟨start, known, behind, same⟩
    · rw [whole] at lifetime
      cases lifetime
    rcases cases_selfStarts known with rfl | rfl
    · rw [whole] at same
      simp [name] at same
    · have same : printAll two ++ other = name "self" :: behind := by
        rw [whole] at same
        exact (List.cons.inj same).2
      obtain ⟨before, rfl⟩ := eq_of_kind_ident (leads.head.kind.trans (congrArg headKind same))
      exact received_reference known _ _
  · rw [printAll_nil, List.nil_append] at whole
    subst whole
    rcases form with lifetime | ⟨start, known, after, whole⟩
    · rw [← Seen.lifetime leads.head] at lifetime
      cases depth with
      | zero => cases pattern.2
      | succ depth => exact absurd (reads_pattern.mp pattern) (no_pattern_of_lifetime lifetime)
    · rw [whole] at leads
      obtain ⟨before, rfl⟩ := start_of_leads weak known leads
      exact received_reference known _ _

/-- Behind `self` and two colons what a pattern prints is no receiver: the second colon would start
its type, which a single one starts as little as three of them. -/
theorem unreceived_of_colons {before after left : List Tree} {again : List Piece}
    (weak : ∀ x y, behind x y → Next x y) (colons : atOperator "::" before = true)
    (read : (Grammar.within (depth + 1)).pattern.Reads (name "self" :: before) () taken rest)
    (reads : (Grammar.within (depth + 1)).pattern.Reads (name "self" :: after) () again left)
    (leads : Leads behind (name "self" :: before) (name "self" :: after)) :
    ((Grammar.within (depth + 1)).receiver.found (name "self" :: after)).isSome ≠ true := by
  intro received
  have paired : atOperator "::" after = true := by
    rcases (leads.second rfl).elim Or.inl (weak _ _) with head | third
    · exact (Seen.firm rfl (by decide) head).symm.trans colons
    · exact absurd (reads_pattern.mp read) (no_third_colon colons (third.third colons))
  obtain ⟨_, rfl, second⟩ :=
    startsMarks_cons.mp (show startsMarks [':', ':'] _ = true from paired)
  obtain ⟨spaced, after, rfl⟩ := eq_of_kind_punct (kind_of_startsMarks second)
  have known : [name "self"] ∈ selfStarts := List.mem_cons_self
  have typed : (((Grammar.within (depth + 1)).type true).found
      (.punct ':' spaced :: after)).isSome = true := received_typed known ▸ received
  by_cases further : atOperator "::" (.punct ':' spaced :: after) = true
  · obtain ⟨_, same, third⟩ :=
      startsMarks_cons.mp (show startsMarks [':', ':'] _ = true from further)
    cases same
    exact no_third_colon paired (kind_of_startsMarks third) (reads_pattern.mp reads)
  · exact no_type_found (.inr ⟨rfl, Bool.eq_false_iff.mpr further⟩) typed

/-- **Receivers stay receivers.** What a pattern in front of a type prints can be read as a receiver
only where it was written as one. -/
theorem received_of_pattern (weak : ∀ x y, behind x y → Next x y)
    (read : (Grammar.within (depth + 1)).pattern.Reads trees () taken rest)
    (settled : SettledAll taken) (relation : behind rest other)
    (typed : (∃ joint more, rest = .punct ':' joint :: more ∧
        (((Grammar.within (depth + 1)).type true).found more).isSome = true) ∨
      ∃ joint spaced more, other = .punct ':' joint :: .punct '.' spaced :: more)
    (received :
      ((Grammar.within (depth + 1)).receiver.found (printAll taken ++ other)).isSome = true) :
    ((Grammar.within (depth + 1)).receiver.found trees).isSome = true := by
  obtain ⟨leads, _, again, _, reads, _⟩ :=
    (repeats_within (depth + 1)).pattern weak read settled relation
  rcases begins_of_received received with ⟨start, known, after, whole⟩ | ⟨joint, after, whole, form⟩
  · rw [whole] at leads received reads
    obtain ⟨before, rfl⟩ := start_of_leads weak known leads
    cases colon : atOperator ":" before with
    | false => exact received_self known colon
    | true =>
        obtain ⟨joint, more, rfl⟩ :=
          eq_of_kind_punct ((kind_of_mark (show ":".toList = [':'] from rfl)).mp colon)
        by_cases single : start = [name "self"] → atOperator "::" (.punct ':' joint :: more) = false
        · obtain ⟨rfl, printed⟩ := pattern_self known single (reads_pattern.mp read)
          rw [printed] at whole
          obtain rfl := List.append_cancel_left whole
          rcases typed with ⟨_, _, same, type⟩ | ⟨_, _, _, rfl⟩
          · cases same
            rw [received_typed known]
            exact type
          · rw [received_typed known] at received
            exact absurd received (no_type_found (.inl rfl))
        · rw [Classical.not_imp, Bool.not_eq_false] at single
          obtain ⟨rfl, colons⟩ := single
          exact absurd received (unreceived_of_colons weak colons read reads leads)
  · obtain ⟨written, front, rfl⟩ :=
      eq_of_kind_punct (leads.head.kind.trans (congrArg headKind whole))
    exact received_of_reference weak (reads_pattern.mp read) settled relation whole form

end Pattern

/-! ### Parameters -/

/-- The type of a parameter behind its pattern. -/
def parameterType (g : Grammar) : Reader (Bool × Bool) := do
  operator ":"
  if true && (← operator? "...") then return (false, true)
  discard (g.type true)
  return (false, false)

/-- The type of a parameter, or the points in its place, are read again behind the colon. -/
theorem follows_parameterType (own : g.Repeats) : Again g.parameterType Typed Divided := by
  have typed : Again
      (do
        discard (g.type true)
        return (false, false))
      (Leads Divided) Divided :=
    (own.type true fun _ _ ended => .inl ended.toHead).dropped.bind _ fun _ => .pure rfl
  refine (Follows.operator ":").bind _ fun _ => .operatorIf "..." Divided (Leads Divided)
    (.pure rfl) typed (fun _ _ => .inl) fun x y absent leads =>
      ⟨leads.head.without_dots absent, .inr leads⟩

/-- Behind the pattern of a parameter there is a type, or points are printed. -/
theorem typed_of_parameterType {trees rest : List Tree} {value : Bool × Bool} {taken : List Piece}
    (read : g.parameterType.Reads trees value taken rest) (other : List Tree) :
    (∃ joint more, trees = .punct ':' joint :: more ∧ ((g.type true).found more).isSome = true) ∨
      ∃ joint spaced more,
        printAll taken ++ other = .punct ':' joint :: .punct '.' spaced :: more := by
  obtain ⟨_, _, _, _, colon, last, rfl⟩ := reads_bind.mp read
  obtain ⟨joint, rfl, rfl⟩ := (reads_mark (show ":".toList = [':'] from rfl)).mp colon
  obtain ⟨_, _, _, _, dots, kind, rfl⟩ := reads_bind.mp last
  rcases reads_operator?.mp dots with ⟨rfl, _, mark⟩ | ⟨rfl, _, rfl, _⟩
  · refine .inr ⟨false, true, .punct '.' true :: .punct '.' false :: ?_, ?_⟩
    · exact other
    · obtain ⟨_, rfl, rfl⟩ := reads_pure.mp kind
      rw [printAll_append, printAll_append, print_of_operator mark]
      rfl
  · obtain ⟨_, _, _, _, type, _, _⟩ := reads_bind.mp kind
    obtain ⟨_, type⟩ := reads_discard.mp type
    exact .inl ⟨joint, _, rfl, by rw [found_eq_some.mpr ⟨_, type⟩]; rfl⟩

/-- Trees that begin alike, or both with a word. -/
def Opening : Sight := fun x y => Head x y ∨ atWord x = true ∧ atWord y = true

/-- A test that fails on words does not tell such trees apart. -/
theorem Opening.same {x y : List Tree} (opening : Opening x y) {test : List Tree → Bool}
    (seen : Seen test) (words : ∀ trees, atWord trees = true → test trees = false) :
    test x = test y := by
  rcases opening with head | ⟨written, printed⟩
  · exact seen head
  · rw [words x written, words y printed]

theorem word_of_ident {trees : List Tree} (ident : atIdent trees = true) : atWord trees = true := by
  rcases trees with _ | ⟨head, trees⟩
  · cases ident
  cases head with
  | ident => rfl
  | _ => cases ident

theorem unmarked_of_word {mark : Char} {marks : List Char} {trees : List Tree}
    (word : atWord trees = true) : startsMarks (mark :: marks) trees = false := by
  rw [Bool.eq_false_iff]
  intro found
  rw [atWord_eq, kind_of_startsMarks found] at word
  cases word

/-- A parameter that is only a type with arguments is printed with a blank pattern. -/
def isBlank (trees : List Tree) : Bool := atIdent trees && atOperator "<" (trees.drop 1)

/-- Such a parameter is told by its second tree, which is the same in both. -/
theorem isBlank_of_leads {x y : List Tree} (leads : Leads Typed x y) : isBlank x = isBlank y := by
  unfold isBlank
  rw [Seen.ident leads.head]
  cases found : atIdent y with
  | false => rfl
  | true =>
      have opens : isOpen (headKind x) = true := leads.head.kind ▸ isOpen_of_ident found
      rcases leads.second opens with head | typed
      · exact Seen.mark rfl head
      · obtain ⟨_, _, _, written, printed, _⟩ := typed
        rw [written, printed]
        rfl

section InputBody

variable {depth : Nat}

/-- A parameter with a blank pattern, which is printed, is read again. -/
theorem reads_blank {trees other : List Tree} {kind : TypeKind} {taken : List Piece}
    (read : ((Grammar.within (depth + 1)).type true).Reads trees kind taken other)
    (undotted : atOperator "..." trees = false) :
    ((Grammar.within (depth + 1)).inputBody true).Reads (name "_" :: .punct ':' false :: trees)
      (false, false) (.tree (name "_") :: .mark ':' false false :: taken) other := by
  have unreceived : ((Grammar.within (depth + 1)).receiver.found
      (name "_" :: .punct ':' false :: trees)).isSome = false := by
    rw [Bool.eq_false_iff]
    intro received
    rcases begins_of_received received with ⟨start, known, rest, whole⟩ | ⟨_, _, whole, _⟩
    · rcases cases_selfStarts known with rfl | rfl
      · simp [name] at whole
      · simp [name] at whole
    · cases whole
  have blank : (Grammar.within (depth + 1)).pattern.Reads (name "_" :: .punct ':' false :: trees) ()
      [.tree (name "_")] (.punct ':' false :: trees) := by
    refine reads_pattern.mpr (reads_ahead_bind.mpr ?_)
    rw [if_neg, if_pos (by rfl)]
    · exact reads_keyword.mpr ⟨rfl, rfl⟩
    · simp [atIdent, atKeyword, atAnyOperator, atAnyKeyword, atOperator, startsMarks, name,
        Ident.isPlain, keywords]
  refine reads_bind.mpr ⟨false, [], _, _, reads_succeeds.mpr ⟨unreceived.symm, rfl, rfl⟩, ?_, rfl⟩
  rw [if_neg Bool.false_ne_true]
  refine reads_ahead_bind.mpr ?_
  rw [if_neg]
  · refine reads_bind.mpr ⟨(), [.tree (name "_")], _, _, blank, ?_, rfl⟩
    refine reads_bind.mpr ⟨(), [.mark ':' false false], _, _,
      (reads_mark rfl).mpr ⟨false, rfl, rfl⟩, ?_, rfl⟩
    refine reads_bind.mpr ⟨false, [], _, _,
      reads_operator?.mpr (.inr ⟨rfl, undotted, rfl, rfl⟩), ?_, rfl⟩
    exact reads_bind.mpr ⟨(), taken, [], _, reads_discard.mpr ⟨_, read⟩,
      reads_pure.mpr ⟨rfl, rfl, rfl⟩, (List.append_nil _).symm⟩
  · simp [atIdent, name, Ident.isPlain, keywords]

/-- A type alone gets a blank pattern, and is read again behind it. -/
theorem follows_blank {trees rest other : List Tree} {value : Bool × Bool} {taken : List Piece}
    (blank : isBlank trees = true)
    (read : Reader.Reads
      (do
        printingAs (pure ()) (fun _ => name "_" :: op ":")
        discard ((Grammar.within (depth + 1)).type true)
        return (false, false))
      trees value taken rest)
    (settled : SettledAll taken) (divided : Divided rest other) :
    Opening trees (printAll taken ++ other) ∧ ∃ again,
      ((Grammar.within (depth + 1)).inputBody true).Reads (printAll taken ++ other) value again
        other ∧ PlainAll again := by
  have word := word_of_ident (Bool.and_eq_true_iff.mp blank).1
  obtain ⟨_, _, _, _, printed, typed, rfl⟩ := reads_bind.mp read
  obtain ⟨written, rfl, none⟩ := reads_printingAs.mp printed
  obtain ⟨_, rfl, rfl⟩ := reads_pure.mp none
  obtain ⟨_, one, _, _, type, last, rfl⟩ := reads_bind.mp typed
  obtain ⟨rfl, rfl, rfl⟩ := reads_pure.mp last
  obtain ⟨_, type⟩ := reads_discard.mp type
  rw [List.append_nil] at settled ⊢
  obtain ⟨leads, _, again, _, reads, plain⟩ :=
    (repeats_within (depth + 1)).type true (fun _ _ ended => .inl ended.toHead) type
    settled.2 divided
  have undotted : atOperator "..." (printAll one ++ other) = false :=
    unmarked_of_word ((Seen.word leads.head).symm.trans word)
  exact ⟨.inr ⟨word, rfl⟩, _, reads_blank reads undotted, trivial, rfl, plain⟩

/-- A pattern with a type is read again, and is no receiver then. -/
theorem follows_typedBody {trees rest other : List Tree} {value : Bool × Bool} {taken : List Piece}
    (unreceived : ((Grammar.within (depth + 1)).receiver.found trees).isSome ≠ true)
    (unblank : isBlank trees ≠ true)
    (read : ((Grammar.within (depth + 1)).typedBody true).Reads trees value taken rest)
    (settled : SettledAll taken) (divided : Divided rest other) :
    Head trees (printAll taken ++ other) ∧ ∃ again,
      ((Grammar.within (depth + 1)).inputBody true).Reads (printAll taken ++ other) value again
        other ∧ PlainAll again := by
  have own := repeats_within (depth + 1)
  obtain ⟨_, one, two, middle, pattern, type, rfl⟩ := reads_bind.mp read
  obtain ⟨before, later⟩ := settledAll_append.mp settled
  obtain ⟨typed, _, more, rfl, ending, keeps⟩ := follows_parameterType own type later divided
  obtain ⟨leads, _, front, _, reads, plain⟩ :=
    own.pattern (fun _ _ => Typed.next) pattern before typed
  rw [printAll_append, List.append_assoc]
  refine ⟨leads.head, front ++ more, reads_bind.mpr ⟨false, [], _, _,
    reads_succeeds.mpr ⟨(Bool.eq_false_iff.mpr fun received => ?_).symm, rfl, rfl⟩, ?_, rfl⟩,
    plainAll_append.mpr ⟨plain, keeps⟩⟩
  · exact unreceived (received_of_pattern (fun _ _ => Typed.next) pattern before typed
      (typed_of_parameterType type other) received)
  · rw [if_neg Bool.false_ne_true]
    refine reads_ahead_bind.mpr ?_
    rw [if_neg (by rw [← isBlank, ← isBlank_of_leads leads]; exact unblank)]
    exact reads_bind.mpr ⟨(), front, more, _, reads, ending, rfl⟩

/-- A receiver, a type alone and a pattern with a type are each read again as what they are. -/
theorem follows_inputBody :
    Again ((Grammar.within (depth + 1)).inputBody true) Opening Divided := by
  intro trees rest other value taken read settled divided
  obtain ⟨_, _, pieces, _, tried, body, rfl⟩ := reads_bind.mp read
  obtain ⟨rfl, rfl, rfl⟩ := reads_succeeds.mp tried
  rw [List.nil_append] at settled ⊢
  split at body
  · have received : Again
        (do
          (Grammar.within (depth + 1)).receiver
          return (true, false))
        Head Divided :=
      (follows_receiver (repeats_within (depth + 1))).bind _ fun _ => .pure rfl
    obtain ⟨head, _, again, rfl, reads, plain⟩ := received body settled divided
    refine ⟨.inl head, value, again, rfl, reads_bind.mpr ⟨true, [], again, _, ?_, reads, rfl⟩,
      plain⟩
    obtain ⟨_, _, _, _, receiver, _, _⟩ := reads_bind.mp reads
    exact reads_succeeds.mpr ⟨by rw [found_eq_some.mpr ⟨_, receiver⟩]; rfl, rfl, rfl⟩
  rename_i unreceived
  have body := reads_ahead_bind.mp body
  split at body
  · rename_i blank
    obtain ⟨opening, again, reads, plain⟩ := follows_blank blank body settled divided
    exact ⟨opening, value, again, rfl, reads, plain⟩
  · rename_i unblank
    obtain ⟨head, again, reads, plain⟩ := follows_typedBody unreceived unblank body settled divided
    exact ⟨.inl head, value, again, rfl, reads, plain⟩

/-! ### Parameter lists -/

theorem follows_parameterBody :
    Again (Grammar.within (depth + 1)).parameterBody Opening Divided := by
  refine .operatorIf "..." Divided Opening (.pure rfl) follows_inputBody
    (fun _ _ marked => .inl marked.dots) fun x y absent opening => ⟨?_, opening⟩
  rcases opening with head | ⟨_, word⟩
  · exact head.without_dots absent
  · exact unmarked_of_word word

theorem follows_finalComma : Again finalComma Divided AtEnd := by
  refine .choose (Marked "," AtEnd) AtEnd (Follows.operator ",").always
    (Follows.pure rfl).always (fun x y _ marked => ⟨?_, marked.comma⟩)
    fun x y _ ended => ⟨?_, .at_end ended⟩
  · obtain ⟨_, _, _, _, rfl, _⟩ := marked
    rfl
  · rw [ended.2]
    rfl

/-- Both are at their end, or neither is. -/
def Together : Sight := fun x y => x.isEmpty = y.isEmpty

/-- A parameter is read again with its attributes. -/
theorem reads_parameter {trees middle left other : List Tree} {attrs : List Attribute}
    {body : Phrase (Bool × Bool)} {one two : List Piece}
    (attributes : (Grammar.within (depth + 1)).outerAttributes.Reads trees attrs one middle)
    (read : (phrase (Grammar.within (depth + 1)).parameterBody).Reads middle body two left)
    (first : SettledAll one) (second : SettledAll two) (divided : Divided left other) :
    Together trees (printAll one ++ (printAll two ++ other)) ∧ ∃ middle again front back,
      (Grammar.within (depth + 1)).outerAttributes.Reads (printAll one ++ (printAll two ++ other))
        attrs front middle ∧
        (phrase (Grammar.within (depth + 1)).parameterBody).Reads middle again back other ∧
          again.kind = body.kind ∧ again.print = body.print ∧ PlainAll front ∧ PlainAll back := by
  obtain ⟨opening, again, back, ⟨kind, print⟩, later, plain⟩ :=
    follows_parameterBody.phrase read second divided
  have begins (x y : List Tree) (start : AttributeStart x y ∨ Opening x y) : Together x y := by
    refine (start.elim (fun marked => .inl marked.1) id : Opening x y).same .isEmpty ?_
    rintro (_ | _) word
    · cases word
    · rfl
  have unmarked (x y : List Tree) (opening : Opening x y) :
      atOperator "#" x = atOperator "#" y :=
    opening.same (.mark rfl) fun _ => unmarked_of_word
  obtain ⟨together, _, front, rfl, earlier, keeps⟩ :=
    (follows_outerAttributes unmarked begins) attributes first opening
  exact ⟨together, _, again, front, back, earlier, later, kind.symm, print, keeps, plain⟩

/-- A parameter list is read again step by step: it ends, ends with a variadic parameter or with the
last one, or goes on behind a comma. -/
theorem follows_inputsStep (found : Inputs) :
    Follows ((Grammar.within (depth + 1)).inputsStep found)
      ((Grammar.within (depth + 1)).inputsStep found) Eq Together
      (Sum.elim (fun _ => Together) fun _ => AtEnd) := by
  intro trees rest other result taken read settled behind
  cases reads_inputsStep.mp read with
  | done =>
      obtain ⟨_, rfl⟩ := behind
      exact ⟨rfl, _, [], rfl, reads_inputsStep.mpr .done, trivial⟩
  | variadic some attributes parameter dots ends =>
      simp only [settledAll_append] at settled
      obtain ⟨divided, comma, last, ⟨_, written⟩, closing, ended⟩ :=
        follows_finalComma.phrase ends settled.2.2 behind
      obtain ⟨together, _, again, front, back, earlier, later, kind, print, keeps, plain⟩ :=
        reads_parameter attributes parameter settled.1 settled.2.1 divided
      rw [← List.isEmpty_eq_false_iff] at some
      rw [printAll_append, printAll_append, List.append_assoc, List.append_assoc]
      refine ⟨together, _, front ++ (back ++ last), ?_,
        reads_inputsStep.mpr (.variadic ?_ earlier later (kind ▸ dots) closing),
        plainAll_append.mpr ⟨keeps, plainAll_append.mpr ⟨plain, ended⟩⟩⟩
      · rw [print, written]
      · rw [← List.isEmpty_eq_false_iff, ← together, some]
  | last some attributes parameter one first =>
      obtain ⟨_, rfl⟩ := behind
      rw [settledAll_append] at settled
      obtain ⟨together, _, again, front, back, earlier, later, kind, print, keeps, plain⟩ :=
        reads_parameter attributes parameter settled.1 settled.2 (.at_end ⟨rfl, rfl⟩)
      rw [← List.isEmpty_eq_false_iff] at some
      rw [printAll_append, List.append_assoc]
      refine ⟨together, _, front ++ back, ?_,
        reads_inputsStep.mpr (.last ?_ earlier later (kind ▸ one) (kind ▸ first)),
        plainAll_append.mpr ⟨keeps, plain⟩⟩
      · rw [print, kind]
      · rw [← List.isEmpty_eq_false_iff, ← together, some]
  | more some attributes parameter one first =>
      rename_i joint _ _
      simp only [settledAll_append] at settled
      have comma : Divided (.punct ',' joint :: rest) (.punct ',' false :: other) :=
        Marked.comma ⟨joint, rest, other, rfl, rfl, behind⟩
      obtain ⟨together, _, again, front, back, earlier, later, kind, print, keeps, plain⟩ :=
        reads_parameter attributes parameter settled.1 settled.2.1 comma
      rw [← List.isEmpty_eq_false_iff] at some
      rw [printAll_append, printAll_append, List.append_assoc, List.append_assoc]
      refine ⟨together, _, front ++ (back ++ [.mark ',' false false]), ?_,
        reads_inputsStep.mpr (.more ?_ earlier later (kind ▸ one) (kind ▸ first)),
        plainAll_append.mpr ⟨keeps, plainAll_append.mpr ⟨plain, ?_⟩⟩⟩
      · rw [print, kind]
      · rw [← List.isEmpty_eq_false_iff]
        exact together.symm.trans some
      · exact ⟨rfl, trivial⟩

/-- A parameter list is read again as the same one. -/
theorem follows_inputs : Again (Grammar.within (depth + 1)).inputs Together AtEnd :=
  .loopSame progresses_inputsStep _ follows_inputsStep {}

end InputBody

end Grammar
end Source
end Toolsmith
