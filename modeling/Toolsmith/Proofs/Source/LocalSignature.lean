import Mathlib
import Toolsmith.Source.Function
import Toolsmith.Proofs.Source.LocalGrammar

/-! # Signatures are local

Of a signature, what stands before its parameters is read alike whatever the parameters are, and a
parameter is read alike whatever comes behind the comma after it. For a parameter that is not clear
from the grammar being local: `self` with a type is tried first, and a type that is cut short by the
comma may go on behind it. But then what stands before the comma is no pattern with a type either.
-/

namespace Toolsmith
namespace Source

open Reader

namespace Reader

/-- A reader that chooses by the tree ahead is local where that is left before the stop. -/
theorem Local.ahead_of_kept {α : Type} {kept : Nat} {next : List Tree → Reader α}
    (each : ∀ head rest, next (head :: rest) = next [head])
    (own : ∀ trees, Local (kept + 1) (next trees)) :
    Local (kept + 1) (Reader.ahead >>= next) := by
  intro front stop other rest value taken alike left read
  have fits := left.trans read.length_before_stop
  obtain ⟨head, more, rfl⟩ := List.exists_cons_of_length_pos (Nat.lt_of_lt_of_le kept.succ_pos fits)
  rw [reads_ahead_bind, List.cons_append, each] at read ⊢
  exact own _ (head :: more) alike left read

end Reader

namespace Grammar

variable {g : Grammar} {kept : Nat}

theorem local_lifetimeBounds {stop : List Tree → Bool} (unseen : Unseen kept stop) :
    Local kept (lifetimeBounds stop) := by
  refine Local.loop ?_ ?_ _
  · intro count
    refine Takes.second fun _ => .ite (.pure Bool.false_ne_true) (Takes.second fun _ => ?_)
    exact takes_operator?_ite rfl (.pure Bool.false_ne_true)
  · refine fun count => .choose unseen (Local.pure _).always (Local.always ?_)
    refine takesOne_lifetime.exact.local.discard.bind fun _ => ?_
    exact (Local.operator? rfl).bind fun _ => .ite (.pure _) (.pure _)

theorem local_parameterDefault {α : Type} {value : Reader α} (own : Local kept value) :
    Local kept (parameterDefault value) := by
  refine Local.bind (Local.phrase ?_) fun _ => .pure _
  exact (Local.operator? rfl).bind fun _ => .ite own.discard (.pure _)

/-- What follows `pub` may be its scope in parentheses. -/
theorem local_visibility : Local (kept + 1) visibility := by
  refine (Local.keyword? "pub").bind fun found =>
    .ite (Local.ahead_of_kept ?_ fun trees => ?_) (.pure _)
  · intro head rest
    cases head with
    | group delimiter content =>
        cases delimiter with
        | paren =>
            rcases content with _ | ⟨first, _ | ⟨second, more⟩⟩
            · rfl
            · cases first <;> rfl
            · cases first <;> rfl
        | _ => rfl
    | _ => rfl
  · split
    · exact .sometimes takesOne_tree.exact.local.discard (.pure _)
    · exact .sometimes (takesOne_group _ _).exact.local (.pure _)
    · exact .pure _

section Flat

variable (own : g.IsLocal)

include own

/-- A generic parameter ends at a comma, or before the closing bracket. -/
theorem local_genericParam : Local (kept + 1) g.genericParam := by
  have lifetimesEnd : Unseen (kept + 1) (atAnyOperator [",", ">"]) :=
    .of_kept (fun _ _ => rfl) fun head _ => by cases head <;> rfl
  have boundsEnd : Unseen (kept + 1) (atAnyOperator [",", ">", "="]) :=
    .of_kept (fun _ _ => rfl) fun head _ => by cases head <;> rfl
  refine local_outerAttributes.bind fun attrs => .choose .lifetime (Local.always ?_) ?_
  · refine takesOne_lifetime.exact.local.bind fun subject =>
      (Local.operator? rfl).bind fun colon => ?_
    refine .ite ?_ ?_
    · exact (local_lifetimeBounds lifetimesEnd).phrase.bind fun _ => .pure _
    · exact (Local.pure _).bind fun _ => .pure _
  refine .choose .ident (Local.always ?_) (.choose (.keyword _) (Local.always ?_) ?_)
  · refine takesOne_word.exact.local.bind fun subject => (Local.operator? rfl).bind fun colon => ?_
    have last (head : List Tree) : Local (kept + 1) (do
        let fallback ← parameterDefault (g.type true)
        return GenericParam.mk false head fallback false) :=
      (local_parameterDefault (own.type true)).bind fun _ => .pure _
    refine .ite ?_ ?_
    · exact (local_boundsUntil own boundsEnd).phrase.bind fun _ => last _
    · exact (Local.pure _).bind fun _ => last _
  · refine Local.bind (Local.phrase ?_) fun head => ?_
    · refine (takesOne_keyword _).exact.local.bind fun _ => Local.ident.discard.bind fun _ => ?_
      exact (exact_operator _).local.bind fun _ => (own.type true).discard
    · exact (local_parameterDefault local_constArgument).bind fun _ => .pure _
  · refine .choose (.keyword _) (Local.always ?_) (Local.missing _).always
    exact (takesOne_keyword _).exact.local.bind fun _ => .pure _

theorem local_genericParams : Local kept g.genericParams := by
  refine .choose (.operator rfl) (Local.always (Local.printingAs ?_ _)) (Local.pure _).always
  refine (exact_operator _).local.bind fun _ => ?_
  refine Local.bind_takes (local_untilAngle (local_genericParam own)) (fun _ => ?_) fun _ => ?_
  · exact (exact_operator _).local.bind fun _ => .pure _
  · exact (takes_operator rfl).first

theorem local_receiver : Local kept g.receiver := by
  refine (Local.operator? rfl).bind fun reference => ?_
  have last : Local kept (do
      discard (keyword? "mut")
      keyword "self"
      if !reference then
        if ← operator? ":" then discard (g.type true)) := by
    refine (Local.keyword? _).discard.bind fun _ =>
      (takesOne_keyword _).exact.local.bind fun _ => ?_
    refine .ite ?_ (.pure _)
    exact (Local.operator? rfl).bind fun _ => .ite (own.type true).discard (.pure _)
  exact .ite (Local.lifetime?.discard.bind fun _ => last) last

end Flat

end Grammar

/-! ### Parameters -/

namespace Reader

/-- The reader takes nothing from a comma on. -/
def StaysBefore {α : Type} (reader : Reader α) : Prop :=
  ∀ ⦃front stop rest : List Tree⦄ ⦃value : α⦄ ⦃taken : List Piece⦄, Stops stop →
    reader.Reads (front ++ stop) value taken rest → ∃ left, rest = left ++ stop

variable {α β : Type}

theorem StaysBefore.pure (value : α) : StaysBefore (pure value) := by
  intro front stop rest found taken _ read
  exact ⟨front, (reads_pure.mp read).2.2⟩

theorem StaysBefore.bind {first : Reader α} {next : α → Reader β} (before : StaysBefore first)
    (after : ∀ value, StaysBefore (next value)) : StaysBefore (first >>= next) := by
  intro front stop rest value taken stops read
  obtain ⟨middle, _, _, between, earlier, later, _⟩ := reads_bind.mp read
  obtain ⟨left, rfl⟩ := before stops earlier
  exact after middle stops later

theorem StaysBefore.ahead {next : List Tree → Reader α} (each : ∀ trees, StaysBefore (next trees)) :
    StaysBefore (Reader.ahead >>= next) := by
  intro front stop rest value taken stops read
  exact each _ stops (reads_ahead_bind.mp read)

theorem StaysBefore.ite {c : Prop} [Decidable c] {yes no : Reader α} (whenever : StaysBefore yes)
    (otherwise : StaysBefore no) : StaysBefore (if c then yes else no) := by
  split
  · exact whenever
  · exact otherwise

theorem StaysBefore.discard {reader : Reader α} (inner : StaysBefore reader) :
    StaysBefore (Functor.discard reader) := by
  change StaysBefore (reader >>= fun _ => Pure.pure ())
  exact inner.bind fun _ => .pure _

/-- What takes one tree, which is no comma, takes nothing from a comma on. -/
theorem StaysBefore.of_one {reader : Reader α}
    (one : ∀ ⦃trees rest : List Tree⦄ ⦃value : α⦄ ⦃taken : List Piece⦄,
      reader.Reads trees value taken rest →
        ∃ head, trees = head :: rest ∧ ∀ joint, head ≠ .punct ',' joint) :
    StaysBefore reader := by
  intro front stop rest value taken stops read
  obtain ⟨head, whole, other⟩ := one read
  cases front with
  | nil =>
      rcases stops with rfl | ⟨joint, more, rfl⟩
      · cases whole
      · cases whole
        exact absurd rfl (other joint)
  | cons first front =>
      cases whole
      exact ⟨front, rfl⟩

theorem staysBefore_keyword (text : String) : StaysBefore (keyword text) :=
  .of_one fun _ _ _ _ read => ⟨_, (reads_keyword.mp read).1, fun _ => nofun⟩

theorem staysBefore_keyword? (text : String) : StaysBefore (keyword? text) :=
  .ahead fun _ => .ite ((staysBefore_keyword text).bind fun _ => .pure _) (.pure _)

end Reader

namespace Grammar

variable {g h : Grammar}

/-- The beginning of a receiver: whether it is behind a reference. -/
def receiverStart : Reader Bool := do
  let reference ← operator? "&"
  if reference then discard lifetime?
  discard (keyword? "mut")
  keyword "self"
  return reference

/-- The type of a receiver, which one behind a reference does not have. -/
def receiverType (g : Grammar) (reference : Bool) : Reader Unit := do
  if !reference then
    if ← operator? ":" then discard (g.type true)

theorem found_receiver {trees : List Tree} :
    g.receiver.found trees = (receiverStart >>= g.receiverType).found trees := by
  unfold receiver receiverStart
  simp only [found_bind, Option.bind_assoc]
  congr 1
  funext result
  cases result.1 <;> simp [found_bind, Option.bind_assoc, found_pure, receiverType]

/-- A receiver that is no reference may have a type behind a colon. -/
theorem found_receiverType_false {trees : List Tree} :
    (g.receiverType false).found trees =
      if atOperator ":" trees then
        ((operator ":").found trees).bind fun colon =>
          ((g.type true).found colon.2).map fun type => ((), type.2)
      else some ((), trees) := by
  have typed (rest : List Tree) : (Functor.discard (g.type true)).found rest =
      ((g.type true).found rest).map fun type => ((), type.2) := found_map _ _ _
  unfold receiverType operator?
  simp only [Bool.not_false, ↓reduceIte, found_bind, found_ahead, Option.bind_some]
  cases atOperator ":" trees with
  | true => simp [found_bind, Option.bind_assoc, found_pure, typed]
  | false => rfl

theorem local_receiverStart {kept : Nat} : Local kept receiverStart := by
  refine (Local.operator? rfl).bind fun reference => ?_
  have last : Local kept (do
      discard (keyword? "mut")
      keyword "self"
      return reference) :=
    (Local.keyword? _).discard.bind fun _ => (takesOne_keyword _).exact.local.bind fun _ => .pure _
  exact .ite (Local.lifetime?.discard.bind fun _ => last) last

theorem staysBefore_receiverStart : StaysBefore receiverStart := by
  have mark : StaysBefore (operator "&") := .of_one fun _ _ _ _ read => by
    obtain ⟨joint, whole, _⟩ := (reads_mark (show "&".toList = ['&'] from rfl)).mp read
    exact ⟨_, whole, fun _ => by simp⟩
  have lifetime : StaysBefore lifetime := .of_one fun _ _ _ _ read => by
    obtain ⟨head, _, rfl, _, again⟩ := takesOne_lifetime.reads read
    refine ⟨head, rfl, fun joint comma => ?_⟩
    obtain ⟨_, contrary⟩ := again []
    subst comma
    cases contrary
  have last (reference : Bool) : StaysBefore (do
      discard (keyword? "mut")
      keyword "self"
      return reference) :=
    (staysBefore_keyword? _).discard.bind fun _ => (staysBefore_keyword _).bind fun _ => .pure _
  refine StaysBefore.bind ?_ fun reference => .ite (StaysBefore.bind ?_ fun _ => last _) (last _)
  · exact .ahead fun _ => .ite (mark.bind fun _ => .pure _) (.pure _)
  · exact (StaysBefore.ahead fun _ => .ite (lifetime.bind fun _ => .pure _) (.pure _)).discard

/-- The beginning of a receiver that is not behind a reference. -/
def selfStarts : List (List Tree) := [[name "self"], [name "mut", name "self"]]

/-- The end of a receiver's beginning is `self`, mutable or not. -/
theorem start_of_self {reference found : Bool} {trees rest : List Tree} {taken : List Piece}
    (read : (do
      discard (keyword? "mut")
      keyword "self"
      return reference).Reads trees found taken rest) :
    found = reference ∧ ∃ start ∈ selfStarts, trees = start ++ rest := by
  obtain ⟨_, _, _, _, mutable, read, _⟩ := reads_bind.mp read
  obtain ⟨_, _, _, _, word, last, _⟩ := reads_bind.mp read
  obtain ⟨same, _, rfl⟩ := reads_pure.mp last
  obtain ⟨rfl, _⟩ := reads_keyword.mp word
  obtain ⟨_, mutable⟩ := reads_discard.mp mutable
  refine ⟨same, ?_⟩
  rcases reads_keyword?.mp mutable with ⟨_, _, word⟩ | ⟨_, _, rfl, _⟩
  · exact ⟨[name "mut", name "self"], by simp [selfStarts], (reads_keyword.mp word).1⟩
  · exact ⟨[name "self"], by simp [selfStarts], rfl⟩

/-- A receiver that is no reference begins with `self`, mutable or not. -/
theorem receiverStart_false {trees rest : List Tree} {taken : List Piece}
    (read : receiverStart.Reads trees false taken rest) :
    ∃ start ∈ selfStarts, trees = start ++ rest := by
  obtain ⟨reference, _, _, between, mark, read, _⟩ := reads_bind.mp read
  split at read
  · rename_i behind
    obtain ⟨_, _, _, _, _, read, _⟩ := reads_bind.mp read
    rw [← (start_of_self read).1] at behind
    cases behind
  · obtain ⟨rfl, begins⟩ := start_of_self read
    rcases reads_operator?.mp mark with ⟨contrary, _⟩ | ⟨_, _, rfl, _⟩
    · cases contrary
    · exact begins

/-- A receiver before a comma is one before another comma, unless its type goes on behind that. -/
theorem receiver_elsewhere {front stop other : List Tree} (one : Stops stop)
    (two : Stops other) (received : (g.receiver.found (front ++ other)).isSome) :
    (g.receiver.found (front ++ stop)).isSome ∨ ∃ start ∈ selfStarts, ∃ joint more,
      front = start ++ .punct ':' joint :: more ∧
        ((g.type true).found (more ++ other)).isSome ∧
          (g.type true).found (more ++ stop) = none := by
  simp only [found_receiver, found_bind] at received ⊢
  obtain ⟨result, read⟩ := Option.isSome_iff_exists.mp received
  obtain ⟨⟨reference, between⟩, start, type⟩ := Option.bind_eq_some_iff.mp read
  obtain ⟨_, start⟩ := found_eq_some.mp start
  obtain ⟨left, rfl⟩ := staysBefore_receiverStart two start
  have again := local_receiverStart front (.stops two one) (Nat.zero_le _) start
  rw [found_eq_some.mpr ⟨_, again⟩, Option.bind_some]
  cases reference with
  | true => exact .inl rfl
  | false =>
      obtain ⟨begin, known, whole⟩ := receiverStart_false start
      rw [← List.append_assoc, List.append_cancel_right_eq] at whole
      subst whole
      have colons : atOperator ":" (left ++ other) = atOperator ":" (left ++ stop) :=
        Unseen.operator rfl (.stops two one) fun _ => Nat.zero_le _
      rw [found_receiverType_false] at type ⊢
      rw [← colons]
      split at type
      · rename_i colon
        obtain ⟨⟨_, behind⟩, mark, type⟩ := Option.bind_eq_some_iff.mp type
        obtain ⟨joint, whole⟩ := (found_mark (show ":".toList = [':'] from rfl)).mp mark
        obtain ⟨more, rfl, rfl⟩ :
            ∃ more, left = .punct ':' joint :: more ∧ behind = more ++ other := by
          cases left with
          | nil =>
              rw [List.nil_append] at whole
              rcases two with rfl | ⟨_, _, rfl⟩
              · cases whole
              · simp at whole
          | cons head more =>
              cases whole
              exact ⟨more, rfl, rfl⟩
        have again : (operator ":").found (.punct ':' joint :: more ++ stop) =
            some ((), more ++ stop) :=
          (found_mark (show ":".toList = [':'] from rfl)).mpr ⟨joint, rfl⟩
        rw [if_pos colon, again, Option.bind_some]
        cases elsewhere : (g.type true).found (more ++ stop) with
        | none =>
            obtain ⟨_, typed, _⟩ := Option.map_eq_some_iff.mp type
            exact .inr ⟨begin, known, joint, more, rfl, Option.isSome_iff_exists.mpr ⟨_, typed⟩,
              elsewhere⟩
        | some found => exact .inl rfl
      · rename_i colon
        rw [if_neg colon]
        exact .inl rfl

/-- No type begins with a dot, nor with a single colon. -/
theorem no_type {plus joint : Bool} {mark : Char} {more rest : List Tree} {value : TypeKind}
    {taken : List Piece}
    (begins : mark = '.' ∨ mark = ':' ∧ atOperator "::" (.punct mark joint :: more) = false) :
    ¬ (h.typeProduction plus).Reads (.punct mark joint :: more) value taken rest := by
  intro read
  obtain ⟨bound, _, _, between, lifetimes, read, _⟩ := reads_bind.mp read
  have none : bound = false ∧ between = .punct mark joint :: more := by
    obtain ⟨found, _, _, _, word, lifetimes, _⟩ := reads_bind.mp lifetimes
    rcases reads_keyword?.mp word with ⟨_, contrary, _⟩ | ⟨rfl, _, rfl, _⟩
    · cases contrary
    · obtain ⟨rfl, _, rfl⟩ := reads_pure.mp lifetimes
      exact ⟨rfl, rfl⟩
  obtain ⟨rfl, rfl⟩ := none
  rw [reads_ahead_bind] at read
  have colons : atOperator "::" (.punct mark joint :: more) = false := by
    rcases begins with rfl | ⟨rfl, single⟩
    · rfl
    · exact single
  have known : mark = '.' ∨ mark = ':' := begins.imp_right And.left
  simp only [atPath, colons] at read
  rcases known with rfl | rfl
  · simp [atIdent, atAnyKeyword, atKeyword, atGroup, atLifetime, atOperator, startsMarks] at read
    obtain ⟨_, read⟩ := read
    cases read
  · simp [atIdent, atAnyKeyword, atKeyword, atGroup, atLifetime, atOperator, startsMarks] at read
    obtain ⟨_, read⟩ := read
    cases read

/-- Of `self` before a colon a pattern takes no more, unless a path goes on. -/
theorem pattern_self {start more rest : List Tree} {joint : Bool} {value : Unit}
    {taken : List Piece} (begins : start ∈ selfStarts)
    (single : start = [name "self"] → atOperator "::" (Tree.punct ':' joint :: more) = false)
    (read : h.patternProduction.Reads (start ++ .punct ':' joint :: more) value taken rest) :
    rest = .punct ':' joint :: more ∧ Piece.printAll taken = start := by
  simp only [selfStarts, List.mem_cons, List.not_mem_nil, or_false] at begins
  have word : (do
      discard (keyword? "ref")
      discard (keyword? "mut")
      if atKeyword "self" (← ahead) then keyword "self" else discard Reader.ident
      if ← operator? "@" then h.pattern : Reader Unit).Reads
        (start ++ .punct ':' joint :: more) value taken rest := by
    unfold patternProduction at read
    rw [reads_ahead_bind] at read
    rcases begins with rfl | rfl
    · have single := single rfl
      rw [if_neg, if_neg, if_neg, if_neg, if_pos] at read
      · exact read
      · rfl
      · exact Bool.false_ne_true
      · exact Bool.false_ne_true
      · exact Bool.false_ne_true
      · simp only [List.cons_append, List.nil_append, List.drop_succ_cons, List.drop_zero, single]
        exact Bool.false_ne_true
    · rw [if_neg, if_neg, if_neg, if_neg, if_pos] at read
      · exact read
      · rfl
      all_goals exact Bool.false_ne_true
  have unmarked : atOperator "@" (Tree.punct ':' joint :: more) = false := rfl
  have last {value : Unit} {taken : List Piece} (read : (do
      keyword "self"
      if ← operator? "@" then h.pattern).Reads (name "self" :: .punct ':' joint :: more) value taken
        rest) : rest = .punct ':' joint :: more ∧ taken = [.tree (name "self")] := by
    obtain ⟨_, _, _, _, word, read, rfl⟩ := reads_bind.mp read
    obtain ⟨whole, rfl⟩ := reads_keyword.mp word
    cases whole
    obtain ⟨_, _, _, _, mark, read, rfl⟩ := reads_bind.mp read
    rcases reads_operator?.mp mark with ⟨_, contrary, _⟩ | ⟨rfl, _, rfl, rfl⟩
    · rw [unmarked] at contrary
      cases contrary
    · obtain ⟨_, rfl, rfl⟩ := reads_pure.mp read
      exact ⟨rfl, rfl⟩
  obtain ⟨_, _, _, _, byRef, inner, rfl⟩ := reads_bind.mp word
  obtain ⟨_, byRef⟩ := reads_discard.mp byRef
  obtain ⟨_, _, _, _, mutable, own, rfl⟩ := reads_bind.mp inner
  obtain ⟨_, mutable⟩ := reads_discard.mp mutable
  rw [reads_ahead_bind] at own
  rcases begins with rfl | rfl
  · rcases reads_keyword?.mp byRef with ⟨_, contrary, _⟩ | ⟨_, _, rfl, rfl⟩
    · cases contrary
    rcases reads_keyword?.mp mutable with ⟨_, contrary, _⟩ | ⟨_, _, rfl, rfl⟩
    · cases contrary
    obtain ⟨left, rfl⟩ := last own
    exact ⟨left, rfl⟩
  · rcases reads_keyword?.mp byRef with ⟨_, contrary, _⟩ | ⟨_, _, rfl, rfl⟩
    · cases contrary
    rcases reads_keyword?.mp mutable with ⟨_, _, taking⟩ | ⟨_, contrary, _⟩
    · obtain ⟨whole, rfl⟩ := reads_keyword.mp taking
      cases whole
      obtain ⟨left, rfl⟩ := last own
      exact ⟨left, rfl⟩
    · cases contrary

/-- No segment of a path begins with a mark. -/
theorem no_pathSegment {expression joint : Bool} {mark : Char} {more rest : List Tree}
    {value : Ident × Bool} {taken : List Piece} :
    ¬ (h.pathSegment expression).Reads (.punct mark joint :: more) value taken rest := by
  intro read
  unfold pathSegment at read
  have read := reads_ahead_bind.mp read
  split at read
  · rename_i contrary
    cases contrary
  dsimp only at read
  split at read
  · rename_i contrary
    cases contrary
  obtain ⟨_, _, _, _, word, _, _⟩ := reads_bind.mp read
  obtain ⟨_, word⟩ := reads_ahead_bind.mp word
  cases word

/-- No pattern is `self` before three colons. -/
theorem no_pattern_self {more rest : List Tree} {spaced joint : Bool} {value : Unit}
    {taken : List Piece} :
    ¬ h.patternProduction.Reads
      (name "self" :: .punct ':' true :: .punct ':' spaced :: .punct ':' joint :: more) value taken
      rest := by
  intro read
  have read : h.pathPattern.Reads (name "self" :: .punct ':' true :: .punct ':' spaced ::
      .punct ':' joint :: more) value taken rest := by
    unfold patternProduction at read
    rw [reads_ahead_bind, if_pos] at read
    · exact read
    · rfl
  obtain ⟨_, _, _, _, path, _, _⟩ := reads_bind.mp read
  have path := reads_ahead_bind.mp path
  split at path
  · rename_i contrary
    cases contrary
  obtain ⟨rooted, _, _, _, root, path, _⟩ := reads_bind.mp path
  rcases reads_operator?.mp root with ⟨_, contrary, _⟩ | ⟨rfl, _, rfl, _⟩
  · cases contrary
  obtain ⟨segment, _, _, behind, first, path, _⟩ := reads_bind.mp path
  have word : behind = .punct ':' true :: .punct ':' spaced :: .punct ':' joint :: more := by
    have first := reads_ahead_bind.mp first
    split at first
    · obtain ⟨_, _, _, _, ⟨_, word⟩, last, _⟩ := reads_bind.mp first
      cases word
      exact (reads_pure.mp last).2.2
    · rename_i contrary
      exact absurd rfl contrary
  subst word
  have rounds := (reads_loop (by
    exact fun _ => Takes.second fun _ => .ite (takes_operator rfl).first
      (.pure Bool.false_ne_true))).mp path
  obtain ⟨_, _, _, _, round, _, _⟩ := reads_bind.mp rounds
  have round := reads_ahead_bind.mp round
  split at round
  · obtain ⟨_, _, _, behind, ⟨_, colons⟩, round, _⟩ := reads_bind.mp round
    obtain ⟨_, _, _, _, segment, _, _⟩ := reads_bind.mp round
    cases colons
    exact no_pathSegment segment
  · rename_i contrary
    exact absurd rfl contrary

/-- A mark other than a comma stands before the stop where it stands next. -/
theorem mark_of_atOperator {text : String} {mark : Char} {marks : List Char}
    {front stop : List Tree}
    (spelled : text.toList = mark :: marks) (plain : mark ≠ ',') (stops : Stops stop)
    (stands : atOperator text (front ++ stop) = true) :
    ∃ joint more, front = .punct mark joint :: more := by
  unfold atOperator at stands
  rw [spelled] at stands
  have first {joint : Bool} {found : Char} {more : List Tree}
      (stands : startsMarks (mark :: marks) (.punct found joint :: more) = true) :
        found = mark := by
    cases marks with
    | nil => simpa [startsMarks] using stands
    | cons next marks =>
        simp only [startsMarks, Bool.and_eq_true, beq_iff_eq] at stands
        exact stands.1.1
  cases front with
  | nil =>
      rcases stops with rfl | ⟨_, _, rfl⟩
      · cases marks <;> cases stands
      · exact absurd (first stands).symm plain
  | cons head more =>
      cases head with
      | punct found joint => exact ⟨joint, more, by rw [first stands]⟩
      | _ => cases marks <;> cases stands

/-- A parameter that is no receiver: a pattern and a type. -/
def typedBody (g : Grammar) (variadic : Bool) : Reader (Bool × Bool) := do
  g.pattern
  operator ":"
  if variadic && (← operator? "...") then return (false, true)
  discard (g.type true)
  return (false, false)

/-- Where `self` has a type only together with what follows a comma, it is no pattern with a
type. -/
theorem no_typedBody {start more stop other rest : List Tree} {joint variadic : Bool}
    {value : Bool × Bool} {taken : List Piece}
    (patterns : ∀ {trees rest : List Tree} {value : Unit} {taken : List Piece},
      g.pattern.Reads trees value taken rest → h.patternProduction.Reads trees value taken rest)
    (types : ∀ {trees rest : List Tree} {value : TypeKind} {taken : List Piece},
      (g.type true).Reads trees value taken rest →
        (h.typeProduction true).Reads trees value taken rest)
    (begins : start ∈ selfStarts) (one : Stops stop) (two : Stops other)
    (elsewhere : ((g.type true).found (more ++ other)).isSome)
    (here : (g.type true).found (more ++ stop) = none) :
    ¬ (g.typedBody variadic).Reads
      (start ++ .punct ':' joint :: (more ++ stop)) value taken rest := by
  intro read
  obtain ⟨⟨kind, left⟩, elsewhere⟩ := Option.isSome_iff_exists.mp elsewhere
  obtain ⟨_, elsewhere⟩ := found_eq_some.mp elsewhere
  obtain ⟨_, _, _, between, pattern, after, _⟩ := reads_bind.mp read
  obtain ⟨_, _, _, behind, colon, last, _⟩ := reads_bind.mp after
  obtain ⟨again, rfl, _⟩ := (reads_mark (show ":".toList = [':'] from rfl)).mp colon
  by_cases single :
    start = [name "self"] → atOperator "::" (Tree.punct ':' joint :: (more ++ stop)) = false
  · have same := (List.cons.inj (pattern_self begins single (patterns pattern)).1).2
    rw [same] at last
    obtain ⟨dots, _, _, _, ellipsis, last, _⟩ := reads_bind.mp last
    rcases reads_operator?.mp ellipsis with ⟨rfl, stands, _⟩ | ⟨rfl, _, rfl, _⟩
    · obtain ⟨_, rest, rfl⟩ := mark_of_atOperator (show "...".toList = ['.', '.', '.'] from rfl)
        (by decide) one stands
      exact no_type (.inl rfl) (types elsewhere)
    · rw [Bool.and_false, if_neg Bool.false_ne_true] at last
      obtain ⟨_, _, _, _, type, _, _⟩ := reads_bind.mp last
      obtain ⟨_, type⟩ := reads_discard.mp type
      rw [found_eq_some.mpr ⟨_, type⟩] at here
      cases here
  · rw [Classical.not_imp, Bool.not_eq_false] at single
    obtain ⟨rfl, path⟩ := single
    have path : joint = true ∧ atOperator ":" (more ++ stop) = true := by
      simpa [atOperator, startsMarks] using path
    obtain ⟨rfl, path⟩ := path
    obtain ⟨joint, behind, rfl⟩ := mark_of_atOperator (show ":".toList = [':'] from rfl)
      (by decide) one path
    by_cases double : atOperator "::" (Tree.punct ':' joint :: (behind ++ other)) = true
    · have colons : joint = true ∧ atOperator ":" (behind ++ other) = true := by
        simpa [atOperator, startsMarks] using double
      obtain ⟨rfl, colon⟩ := colons
      obtain ⟨joint, behind, rfl⟩ := mark_of_atOperator (show ":".toList = [':'] from rfl)
        (by decide) two colon
      exact no_pattern_self (patterns pattern)
    · exact no_type (.inr ⟨rfl, Bool.eq_false_iff.mpr double⟩) (types elsewhere)

/-- A parameter before a comma is read alike before another one. -/
theorem reads_inputBody {depth : Nat} {variadic : Bool} {front rest stop other : List Tree}
    {value : Bool × Bool} {taken : List Piece} (one : Stops stop) (two : Stops other)
    (read : ((Grammar.within depth).inputBody variadic).Reads (front ++ stop) value taken
      (rest ++ stop)) :
    ((Grammar.within depth).inputBody variadic).Reads
      (front ++ other) value taken (rest ++ other) := by
  have own := isLocal_within depth
  have alike : StopAlike stop other := .stops one two
  obtain ⟨received, _, pieces, between, tried, body, rfl⟩ := reads_bind.mp read
  obtain ⟨rfl, rfl, rfl⟩ := reads_succeeds.mp tried
  have decided (succeeded : Bool) (same : succeeded = ((Grammar.within depth).receiver.found
      (front ++ other)).isSome) :
      (succeeds (Grammar.within depth).receiver).Reads (front ++ other) succeeded []
        (front ++ other) := reads_succeeds.mpr ⟨same, rfl, rfl⟩
  split at body
  · rename_i received
    have again : ((Grammar.within depth).receiver >>= fun _ => pure (true, false)).Reads
        (front ++ other) value pieces (rest ++ other) :=
      ((local_receiver own).bind fun _ => .pure _) front alike (Nat.zero_le _) body
    obtain ⟨_, _, _, _, receiver, _, _⟩ := reads_bind.mp again
    have found := found_eq_some.mpr ⟨_, receiver⟩
    exact reads_bind.mpr ⟨true, _, _, _, decided true (by rw [found]; rfl), again, rfl⟩
  · rename_i received
    have typed : Local 0 (do
        let trees ← ahead
        if atIdent trees && atOperator "<" (trees.drop 1) then
          printingAs (pure ()) (fun _ => name "_" :: op ":")
          discard ((Grammar.within depth).type true)
          return (false, false)
        (Grammar.within depth).typedBody variadic) := by
      refine .choose (.second rfl .ident (.operator rfl)) (Local.always ?_) (Local.always ?_)
      · refine ((Local.pure ()).printingAs _).bind fun _ => ?_
        exact (own.type true).discard.bind fun _ => .pure _
      · refine own.pattern.bind fun _ => (exact_operator _).local.bind fun _ => ?_
        refine (Local.operator? rfl).bind fun _ => .ite (.pure _) ?_
        exact (own.type true).discard.bind fun _ => .pure _
    have again := typed front alike (Nat.zero_le _) body
    refine reads_bind.mpr ⟨false, _, _, _, decided false ?_, again, rfl⟩
    refine (Bool.eq_false_iff.mpr fun elsewhere => ?_).symm
    rcases receiver_elsewhere one two elsewhere with here | exception
    · exact received here
    obtain ⟨start, begins, joint, more, rfl, some, none⟩ := exception
    have body : ((Grammar.within depth).typedBody variadic).Reads
        (start ++ .punct ':' joint :: (more ++ stop)) value pieces (rest ++ stop) := by
      have body := reads_ahead_bind.mp body
      rw [if_neg] at body
      · rw [List.append_assoc] at body
        exact body
      · simp only [selfStarts, List.mem_cons, List.not_mem_nil, or_false] at begins
        rcases begins with rfl | rfl
        · exact Bool.false_ne_true
        · exact Bool.false_ne_true
    cases depth with
    | zero =>
        obtain ⟨_, _, _, _, ⟨_, pattern⟩, _⟩ := reads_bind.mp body
        cases pattern
    | succ depth =>
        refine no_typedBody (g := Grammar.within (depth + 1)) (h := Grammar.within depth)
          (fun pattern => ?_) (fun type => ?_) begins one two some none body
        · change (Reader.delayed fun _ =>
            (Grammar.within depth).unfold.pattern).Reads _ _ _ _ at pattern
          exact reads_delayed.mp pattern
        · change (Reader.delayed fun _ =>
            (Grammar.within depth).unfold.type true).Reads _ _ _ _ at type
          exact reads_delayed.mp type

end Grammar

end Source
end Toolsmith
