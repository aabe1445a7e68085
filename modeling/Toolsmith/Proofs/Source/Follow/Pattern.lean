import Mathlib
import Toolsmith.Proofs.Source.Follow.Type

/-! # Patterns are read again

Each production of a pattern is read again from what it prints, given that the types, paths and
patterns inside it are (`Grammar.Repeats`). A pattern differs from what is printed in two places:
the number that names a field is printed as an index, and an operator is printed with no mark left
joint behind it, so that a colon behind the points of a range stands apart (`Colon`).
-/

namespace Toolsmith
namespace Source

open Piece Reader

namespace Grammar

variable {g : Grammar}

/-! ### Names of fields -/

theorem isNumber_toString (value : Nat) : isNumber (toString value) = true := by
  have digits : (toString value).toList = Nat.toDigits 10 value := by simp [Nat.repr]
  unfold isNumber
  rw [digits]
  cases spelled : Nat.toDigits 10 value with
  | nil => exact absurd spelled Nat.toDigits_ne_nil
  | cons first rest =>
      exact Nat.isDigit_of_mem_toDigits (by decide) (by decide) (spelled ▸ List.mem_cons_self)

/-- An index is its own. -/
theorem fieldIndex?_toString {value : Nat} (short : value < 4294967296) :
    fieldIndex? (toString value) = some (toString value) := by
  have digits : (toString value).toList = Nat.toDigits 10 value := by simp [Nat.repr]
  have plain (c : Char) (member : c ∈ Nat.toDigits 10 value) : c.isDigit = true :=
    Nat.isDigit_of_mem_toDigits (by decide) (by decide) member
  have kept : (Nat.toDigits 10 value).filter (· != '_') = Nat.toDigits 10 value := by
    refine List.filter_eq_self.mpr fun c member => ?_
    have digit := plain c member
    by_contra other
    obtain rfl : c = '_' := by simpa using other
    cases digit
  have again : (Nat.toDigits 10 value).foldl
      (fun value c => 10 * value + (c.toNat - '0'.toNat)) 0 = value :=
    Nat.ofDigitChars_ten_toDigits
  unfold fieldIndex?
  dsimp only
  rw [isNumber_toString, digits, kept, again, List.all_eq_true.mpr plain, decide_eq_true short]
  rfl

/-- The index that a number stands for is a number and stands for itself. -/
theorem fieldIndex?_eq_some {text index : String} (found : fieldIndex? text = some index) :
    isNumber text = true ∧ isNumber index = true ∧ fieldIndex? index = some index := by
  unfold fieldIndex? at found
  dsimp only at found
  split at found
  · rename_i number
    cases found
    simp only [Bool.and_eq_true, decide_eq_true_eq] at number
    exact ⟨number.1.1, isNumber_toString _, fieldIndex?_toString number.2⟩
  · cases found

/-- A tree that is printed as other ones. -/
theorem reads_treeAs {printed : List Tree} {head value : Tree} {trees rest : List Tree}
    {taken : List Piece} : (treeAs printed).Reads (head :: trees) value taken rest ↔
      value = head ∧ taken = [.reprinted [.tree head] printed] ∧ rest = trees := by
  constructor
  · rintro ⟨_, read⟩
    cases read
    exact ⟨rfl, rfl, rfl⟩
  · rintro ⟨rfl, rfl, rfl⟩
    exact ⟨rfl, rfl⟩

/-- A number is the name of a field when it is an index. -/
theorem reads_memberName_literal {text : String} {trees rest : List Tree} {value : Bool}
    {taken : List Piece} :
    memberName.Reads (.literal text :: trees) value taken rest ↔
      ∃ index, fieldIndex? text = some index ∧ value = false ∧
        taken = [.reprinted [.tree (.literal text)] [.literal index]] ∧ rest = trees := by
  unfold memberName
  rw [reads_ahead_bind]
  dsimp only
  cases found : fieldIndex? text with
  | none =>
      refine iff_of_false (fun read => ?_) fun ⟨_, same, _⟩ => by cases same
      obtain ⟨_, read⟩ := read
      cases read
  | some index =>
      dsimp only
      constructor
      · intro read
        obtain ⟨_, one, two, _, first, last, rfl⟩ := reads_bind.mp read
        obtain ⟨rfl, rfl, rfl⟩ := reads_pure.mp last
        obtain ⟨_, first⟩ := reads_discard.mp first
        obtain ⟨_, rfl, rfl⟩ := reads_treeAs.mp first
        exact ⟨index, rfl, rfl, List.append_nil _, rfl⟩
      · rintro ⟨_, same, rfl, rfl, rfl⟩
        cases same
        exact reads_bind.mpr ⟨(), _, [], rest,
          reads_discard.mpr ⟨_, reads_treeAs.mpr ⟨rfl, rfl, rfl⟩⟩,
          reads_pure.mpr ⟨rfl, rfl, rfl⟩, (List.append_nil _).symm⟩

/-- Where no literal stands next, the name of a field is an identifier. -/
theorem reads_memberName_other {trees rest : List Tree} {value : Bool} {taken : List Piece}
    (other : ∀ number, headKind trees ≠ some (.literal number)) :
    memberName.Reads trees value taken rest ↔
      (discard Reader.ident >>= fun _ => pure true : Reader Bool).Reads trees value taken rest := by
  unfold memberName
  rw [reads_ahead_bind]
  rcases trees with _ | ⟨head, trees⟩
  · rfl
  cases head with
  | literal text => exact absurd rfl (other _)
  | _ => rfl

/-- The name of a field, which is printed as an index where it is a number. -/
theorem follows_memberName {ends : Bool → Sight} :
    Follows memberName memberName Eq (Leads (ends true)) ends := by
  intro trees rest other value taken read settled ended
  rcases trees with _ | ⟨head, trees⟩
  · obtain ⟨_, read⟩ := read
    cases read
  by_cases literal : ∃ text, head = .literal text
  · obtain ⟨text, rfl⟩ := literal
    obtain ⟨index, found, rfl, rfl, rfl⟩ := reads_memberName_literal.mp read
    obtain ⟨one, two, again⟩ := fieldIndex?_eq_some found
    have quiet (text : String) : isQuiet (headKind (.literal text :: rest)) = true := rfl
    have leads {shown : String} (same : isNumber text = isNumber shown) :
        Leads (ends true) (.literal text :: rest) (.literal shown :: other) := by
      have head : Head (.literal text :: rest) (.literal shown :: other) :=
        Head.of_quiet (congrArg (some ∘ TreeKind.literal) same) rfl
      exact ⟨head, .of_quiet rfl, head.generics (quiet_not_angle rfl), fun opens => by cases opens⟩
    exact ⟨leads (one.trans two.symm), false, _, rfl,
      reads_memberName_literal.mpr ⟨index, again, rfl, rfl, rfl⟩, rfl, trivial⟩
  · have plain (number : Bool) : headKind (head :: trees) ≠ some (.literal number) := by
      intro kind
      cases head with
      | literal text => exact literal ⟨text, rfl⟩
      | _ => cases kind
    have named : Follows (discard Reader.ident >>= fun _ => pure true : Reader Bool)
        (discard Reader.ident >>= fun _ => pure true) Eq (Leads (ends true)) ends :=
      (Again.ident fun _ _ => .inr).dropped.bind _ fun _ => .pure rfl
    obtain ⟨leads, found, again, same, reads, keeps⟩ :=
      named ((reads_memberName_other plain).mp read) settled ended
    refine ⟨leads, found, again, same, (reads_memberName_other ?_).mpr reads, keeps⟩
    exact fun number => leads.head.kind ▸ plain number

/-! ### Patterns with alternatives -/

/-- What may follow a pattern with alternatives. -/
def AfterPattern (x y : List Tree) : Prop := Next x y ∧ headKind x ≠ some (.punct '|')

/-- Alternatives end where no `|` follows, in both. -/
theorem follows_patternAlternatives (own : g.Repeats) {behind : Sight}
    (weak : ∀ x y, behind x y → AfterPattern x y) :
    Again g.patternAlternatives (Leads behind) behind := by
  have bar : Begins "|" '|' := ⟨rfl, by decide⟩
  refine (Again.operator? bar).dropped.bind _ fun _ =>
    Follows.loopSame ?_ (fun _ => Leads behind) (fun _ => ?_) ()
  · intro _
    refine Takes.second fun _ => Takes.second fun _ => .ite ?_ (.pure Bool.false_ne_true)
    exact (takes_operator rfl).first
  refine Follows.bind (fun _ => Wide behind) ((own.pattern fun x y =>
    Or.rec .inl fun ended => (weak x y ended).1).starting fun _ _ leads =>
      leads.imp fun _ _ => id) fun _ => ?_
  refine .choose (Marked "|" (Leads behind)) behind (Follows.always ?_)
    (Follows.always (.pure rfl)) (fun x y found marked => ⟨?_, .inl (marked.loose rfl rfl)⟩)
    fun x y absent ended => ⟨?_, .inr ended⟩
  · exact (Follows.operator "|").bind _ fun _ => .pure rfl
  · simp only [Bool.and_eq_true, Bool.not_eq_true'] at found ⊢
    exact ⟨⟨marked.holds, marked.alone rfl⟩, marked.alone rfl⟩
  · have other : headKind y ≠ some (.punct '|') := by
      obtain ⟨head | colon, other⟩ := weak x y ended
      · exact head.kind ▸ other
      · rw [colon.printed]
        decide
    have none : atOperator "|" y = false := by rwa [Bool.eq_false_iff, ne_eq, kind_of_mark rfl]
    rw [none, Bool.false_and, Bool.false_and]

theorem AfterPattern.of_divided {x y : List Tree} (divided : Divided x y) : AfterPattern x y := by
  refine ⟨.inl divided.toHead, fun kind => ?_⟩
  rcases divided.parts with none | comma
  · rw [none] at kind
    cases kind
  · rw [comma] at kind
    cases kind

theorem follows_patternList (own : g.Repeats) {delimiter : Delimiter} {behind : Sight} :
    Again (discard (group delimiter (commaSeparated g.patternAlternatives)))
      (Grouped delimiter (fun _ _ => True) behind) behind :=
  .list (follows_patternAlternatives own fun _ _ => AfterPattern.of_divided)
    fun _ _ leads => leads.head

/-- The name of a field is followed by a colon in both or in neither. -/
theorem follows_fieldPattern (own : g.Repeats) : Again g.fieldPattern (Leads Next) Divided := by
  let pattern : Sight := Marked ":" (Leads Divided)
  have next (x y : List Tree) (marked : pattern x y) : Next x y :=
    marked.colon fun _ _ leads => leads.fresh.colon
  refine follows_leadingAttributes.dropped.bind _ fun _ => .choose (Marked ".." Divided)
    (Leads Next) (Follows.operator "..").always (Follows.always ?_)
    (fun x y _ marked => ⟨marked.holds, marked.leads (marked.points ['.'] rfl) rfl (by decide)⟩)
    fun x y absent leads => ⟨(Seen.firm rfl (by decide) leads.head).symm.trans absent, leads⟩
  refine (Again.keyword? "box").bind _ fun boxed => (Again.keyword? "ref").bind _ fun byRef =>
    (Again.keyword? "mut").bind _ fun mutable =>
      Follows.bind (fun named x y => pattern x y ∨ Divided x y)
        (follows_memberName.starting fun _ _ leads => ?_) fun named => ?_
  · exact leads.imp fun x y => Or.rec (fun marked => .inr (next x y marked)) fun ended =>
      .inl ended.toHead
  · refine .choose pattern Divided (Follows.always ((Follows.operator ":").bind _
      fun _ => follows_patternAlternatives own fun _ _ => AfterPattern.of_divided))
      (Follows.always (.pure rfl))
      (fun x y found marked => ⟨?_, .inl marked⟩) fun x y absent ended => ⟨?_, .inr ended⟩
    · rw [marked.written] at found
      rwa [marked.holds]
    · rwa [← Seen.mark (by rfl) ended.toHead]

/-! ### Ranges -/

theorem seen_rangeEnd : Seen atRangeEnd :=
  ((Seen.isEmpty.or (.anyMark rfl)).or (.and (.mark rfl) (.not (.firm rfl (by decide))))).or
    (.keyword _)

/-- Where the end of a range is left out, it is left out in both. -/
theorem rangeEnd_of_next {x y : List Tree} (next : Next x y) (found : atRangeEnd x = true) :
    atRangeEnd y = true := by
  rcases next with head | colon
  · exact (seen_rangeEnd head).symm.trans found
  · have here : atOperator ":" y = true := (kind_of_mark rfl).mpr colon.printed
    unfold atRangeEnd
    rw [here, colon.apart]
    simp

/-- Where an end is left out, no literal and no constant starts. -/
theorem rangeEnd_closed {trees : List Tree} (ended : atRangeEnd trees = true) :
    (atOperator "-" trees || atLiteral trees || atKeyword "const" trees) = false := by
  rcases trees with _ | ⟨head, rest⟩
  · rfl
  cases head with
  | punct mark joint =>
      have other : mark ≠ '-' := by
        rintro rfl
        simp [atRangeEnd, atAnyOperator, atOperator, startsMarks, atKeyword] at ended
      simp [atOperator, startsMarks, atLiteral, atKeyword, other]
  | ident name =>
      obtain rfl : name = ⟨false, "if"⟩ := by
        simpa [atRangeEnd, atAnyOperator, atOperator, startsMarks, atKeyword] using ended
      rfl
  | lifetime name => rfl
  | literal text => simp [atRangeEnd, atAnyOperator, atOperator, startsMarks, atKeyword] at ended
  | group delimiter content => rfl

/-- An end of a range, and no point before it. -/
def RangeBound (behind : Sight) : Sight := fun x y =>
  Leads behind x y ∧ headKind x ≠ some (.punct '.')

/-- What begins as a literal, a path or a constant is an end of a range. -/
theorem rangeBound_of_seen {behind : Sight} {test : List Tree → Bool} (seen : Seen test)
    (own : ∀ trees, test trees = true → headKind trees ≠ some (.punct '.')) {x y : List Tree}
    (found : test x = true) (leads : Leads behind x y) :
    test y = true ∧ RangeBound behind x y :=
  ⟨(seen leads.head).symm.trans found, leads, own x found⟩

/-- An end of a range, or what follows where it is left out. -/
theorem follows_rangeBound (own : g.Repeats) {ends : Bool → Sight}
    (weak : ∀ found x y, ends found x y → Next x y) :
    Follows g.rangeBound g.rangeBound Eq
      (fun x y => RangeBound (ends true) x y ∨ ends false x y ∧ atRangeEnd x = true) ends := by
  have path : Seen fun trees => atPath trees || atOperator "<" trees := Seen.path.or (.mark rfl)
  have literal : Follows
      (do
        discard tree
        return true)
      (do
        discard tree
        return true) Eq (Ahead (fun _ => True) (ends true)) ends :=
    follows_tree.dropped.bind _ fun _ => .pure rfl
  refine .choose (ends false) (RangeBound (ends true)) (Follows.always (.pure rfl)) ?_
    (fun x y found ended => ⟨rangeEnd_of_next (weak _ x y ended) found, .inr ⟨ended, found⟩⟩)
    fun x y absent bound => ⟨(seen_rangeEnd bound.1.head).symm.trans absent, .inl bound⟩
  refine .choose (LiteralStart (ends true)) (RangeBound (ends true)) (follows_literal literal) ?_
    (fun x y found start => rangeBound_of_seen .literal (fun trees literal point => ?_) found
      (start.leads found))
    fun x y absent bound => ⟨(Seen.literal bound.1.head).symm.trans absent, bound⟩
  · refine .choose (Leads (ends true)) (RangeBound (ends true)) (Follows.always ?_) ?_
      (fun x y found leads => rangeBound_of_seen path (fun trees path point => ?_) found leads)
      fun x y absent bound => ⟨(path bound.1.head).symm.trans absent, bound⟩
    · have ended (x y : List Tree) (ended : ends true x y) : Beyond x y :=
        .of_next (weak _ x y ended)
      exact Follows.bind (fun _ => ends true) ((follows_anyPath own true ended).starting
        fun _ _ leads => leads.imp fun _ _ apart => .inr apart.1).dropped fun _ => .pure rfl
    · refine .choose (Leads (ends true)) (RangeBound (ends true)) (Follows.always ?_)
        (Follows.missing _).always
        (fun x y found leads => rangeBound_of_seen (.keyword _) (fun trees keyword => ?_) found
          leads)
        fun x y absent bound => ⟨(Seen.keyword _ bound.1.head).symm.trans absent, bound⟩
      · exact Follows.bind (fun _ => Grouped .brace (fun _ _ => True) (ends true))
          (Again.closed (by decide)) fun _ => follows_block.bind _ fun _ => .pure rfl
      · rw [atKeyword_eq, beq_iff_eq] at keyword
        rw [keyword]
        decide
    · obtain ⟨joint, rest, rfl⟩ := eq_of_kind_punct point
      simp [atPath, atIdent, atOperator, startsMarks, atAnyKeyword, atKeyword] at path
  · obtain ⟨joint, rest, rfl⟩ := eq_of_kind_punct point
    simp [atLiteral] at literal

/-- A range from its points on, with an end if it is closed. -/
def rangeFrom (g : Grammar) (text : String) (closed : Bool) : Reader Unit := do
  operator text
  if !(← g.rangeBound) && closed then missing "range upper bound"

/-- A range is read by the one of the three operators that stands next. -/
theorem rangePattern_reads {trees rest : List Tree} {value : Unit} {taken : List Piece} :
    g.rangePattern.Reads trees value taken rest ↔ (do
      let trees ← ahead
      if atOperator "..=" trees then g.rangeFrom "..=" true
      else if atOperator "..." trees then g.rangeFrom "..." true
      else g.rangeFrom ".." false).Reads trees value taken rest := by
  unfold rangePattern
  rw [reads_ahead_bind, reads_ahead_bind, reads_ahead_bind]
  unfold atAnyOperator rangeFrom
  simp only [List.any_cons, List.any_nil, Bool.or_false]
  cases atOperator "..=" trees with
  | true => rfl
  | false => cases atOperator "..." trees <;> rfl

/-- Two points are all of an operator in the second trees. -/
theorem absent_third {behind : Sight} {x y : List Tree} {mark : Char}
    (marked : Marked ".." behind x y) : startsMarks ['.', '.', mark] y = false := by
  obtain ⟨joint, rest, other, rfl, rfl, _⟩ := marked
  exact (startsMarks_punct_pair '.' mark false '.' other).trans (by simp)

/-- A range stands first, in both. -/
structure Ranged (x y : List Tree) : Prop where
  head : Head x y
  written : atOperator ".." x = true

/-- A range starts like a phrase of its own. -/
theorem Ranged.leads {behind : Sight} {x y : List Tree} (ranged : Ranged x y) :
    Leads behind x y := by
  have kind : headKind x = some (.punct '.') :=
    kind_of_startsMarks (show startsMarks ['.', '.'] x = true from ranged.written)
  refine ⟨ranged.head, ⟨?_, ?_, ?_⟩, ranged.head.generics ?_, ?_⟩
  all_goals rw [kind]
  · decide
  · decide
  · exact fun colon => by cases colon
  · decide
  · exact fun opens => by cases opens

/-- A range that its operator requires an end of. -/
theorem follows_closedRange (own : g.Repeats) (text : String) {behind : Sight}
    (weak : ∀ x y, behind x y → Next x y) :
    Again (g.rangeFrom text true) (Marked text (RangeBound behind)) behind := by
  refine (Follows.operator text).bind _ fun _ => Follows.bind
    (fun found => cond found behind fun _ _ => False)
    ((follows_rangeBound own fun found x y ended => ?_).starting
      fun _ _ => Or.rec id fun none => none.1.elim) fun found => ?_
  · cases found with
    | true => exact weak x y ended
    | false => exact ended.elim
  · cases found with
    | true => exact .pure rfl
    | false => exact .missing _

/-- What stands behind the points of a half open range. -/
def RangeRest (behind : Sight) : Sight := fun x y =>
  RangeBound behind x y ∨ behind x y ∧ atRangeEnd x = true

theorem follows_halfRange (own : g.Repeats) {behind : Sight}
    (weak : ∀ x y, behind x y → Next x y) :
    Again (g.rangeFrom ".." false) (Marked ".." (RangeRest behind)) behind := by
  refine (Follows.operator "..").bind _ fun _ =>
    Follows.bind _ (follows_rangeBound own fun _ => weak) fun found => ?_
  cases found <;> exact .pure rfl

/-- No third point stands behind a half open range. -/
theorem RangeRest.clear {behind : Sight} {x y : List Tree} (halved : RangeRest behind x y) :
    Clear '.' x := .point <| by
  rcases halved with bound | ⟨_, ended⟩
  · exact bound.2
  · intro point
    obtain ⟨joint, rest, rfl⟩ := eq_of_kind_punct point
    simp [atRangeEnd, atAnyOperator, atOperator, startsMarks, atKeyword] at ended

theorem Ranged.of_marked {text : String} {behind : Sight} {x y : List Tree}
    (marked : Marked text behind x y)
    (points : ∀ joint rest, atOperator ".." (spelled text.toList joint ++ rest) = true)
    (head : Head x y) : Ranged x y := by
  obtain ⟨joint, rest, other, rfl, _, _⟩ := marked
  exact ⟨head, points joint rest⟩

/-- The operator of a range is told from the two longer ones in both. -/
theorem follows_rangePattern (own : g.Repeats) {behind : Sight}
    (weak : ∀ x y, behind x y → Next x y) : Again g.rangePattern Ranged behind := by
  have ranges : Again (do
      let trees ← ahead
      if atOperator "..=" trees then g.rangeFrom "..=" true
      else if atOperator "..." trees then g.rangeFrom "..." true
      else g.rangeFrom ".." false) Ranged behind := by
    refine .choose (Marked "..=" (RangeBound behind))
      (fun x y => Marked "..." (RangeBound behind) x y ∨
        Marked ".." (RangeRest behind) x y ∧ atOperator "..." x = false)
      (follows_closedRange own "..=" weak).always
      (.choose (Marked "..." (RangeBound behind)) (fun x y => Marked ".." (RangeRest behind) x y)
        (follows_closedRange own "..." weak).always (follows_halfRange own weak).always
        (fun x y _ marked => ⟨marked.holds, .inl marked⟩)
        fun x y absent marked => ⟨absent_third marked, .inr ⟨marked, absent⟩⟩)
      (fun x y _ marked => ⟨marked.holds, Ranged.of_marked marked (fun _ _ => rfl) ?_⟩)
      fun x y absent ranged => ⟨?_, ?_⟩
    · exact marked.head ['.', '.'] rfl (fun _ _ bound => bound.1.head) fun _ _ bound =>
        bound.1.fresh.clear (by decide)
    · rcases ranged with marked | ⟨marked, _⟩
      · obtain ⟨_, _, _, _, rfl, _⟩ := marked
        rfl
      · exact absent_third marked
    · rcases ranged with marked | ⟨marked, _⟩
      · exact .of_marked marked (fun _ _ => rfl) (marked.head ['.', '.'] rfl
          (fun _ _ bound => bound.1.head) fun _ _ bound => .point bound.2)
      · exact .of_marked marked (fun _ _ => rfl)
          (marked.kept ['.'] rfl rfl fun _ _ => RangeRest.clear)
  intro trees rest other value taken read settled ended
  obtain ⟨ranged, found, again, same, reads, keeps⟩ :=
    ranges (rangePattern_reads.mp read) settled ended
  exact ⟨ranged, found, again, same, rangePattern_reads.mpr reads, keeps⟩

/-- A path or a literal goes on as a range in both or in neither. -/
theorem follows_ifRange (own : g.Repeats) {behind : Sight} (weak : ∀ x y, behind x y → Next x y) :
    Again (ahead >>= fun trees => if atOperator ".." trees then g.rangePattern else pure ())
      (Wide behind) behind := by
  have points : Seen (atOperator "..") := .firm rfl (by decide)
  refine .choose Ranged behind (follows_rangePattern own weak).always (Follows.always (.pure rfl))
    (fun x y found ranged => ⟨(points ranged.head).symm.trans found, .inl ranged.head⟩)
    fun x y absent ended =>
      ⟨(weak x y ended).fails points (fun trees found => .inr ?_) absent, .inr ended⟩
  rw [kind_of_startsMarks (show startsMarks ['.', '.'] trees = true from found)]
  decide

/-! ### All patterns -/

/-- No group comes to stand behind a path that had none. -/
theorem not_atGroup {delimiter : Delimiter} {x y : List Tree} (next : Next x y)
    (absent : atGroup delimiter x = false) : atGroup delimiter y = false := by
  refine next.fails (.group _) (fun trees found => .inr ?_) absent
  rw [atGroup_eq, beq_iff_eq] at found
  rw [found]
  exact fun colon => by cases colon

/-- Behind its path a pattern goes on as a macro, with fields, with patterns or as a range. -/
theorem follows_pathPattern (own : g.Repeats) {behind : Sight}
    (weak : ∀ x y, behind x y → Next x y) :
    Again g.pathPattern (Leads (Apart behind)) behind := by
  have wider (x y : List Tree) : Wide behind x y → Next x y := Or.rec .inl (weak x y)
  refine Follows.bind (fun _ => Wide behind) ((follows_anyPath own true fun x y wide =>
    .of_next (wider x y wide)).starting fun _ _ leads => leads.imp fun _ _ apart =>
      apart.1.imp_right fun ended => ⟨ended, apart.2⟩) fun path => ?_
  have call : Seen fun trees =>
      path.isModulePath && atOperator "!" trees && !atOperator "!=" trees :=
    ((Seen.const _).and (.mark rfl)).and (.not (.firm rfl (by decide)))
  have grouped (delimiter : Delimiter) {inside : Sight} (x y : List Tree)
      (found : atGroup delimiter x = true) (grouped : Grouped delimiter inside behind x y) :
      atGroup delimiter y = true ∧ Wide behind x y := by
    have head : Head x y := grouped.head
    exact ⟨(Seen.group _ head).symm.trans found, .inl head⟩
  refine .choose (Marked "!" (Arguments behind)) (Wide behind) (Follows.always ?_) ?_
    (fun x y found marked =>
      ⟨(call (head_of_call marked)).symm.trans found, .inl (head_of_call marked)⟩)
    fun x y absent wide => ⟨(wider x y wide).fails call (fun trees found => .inr ?_) absent, wide⟩
  · exact (Follows.operator "!").bind _ fun _ => (follows_anyGroup _).dropped
  · exact .choose (Grouped .brace (fun _ _ => True) behind) (Wide behind)
      (Follows.always (.list (follows_fieldPattern own) fun _ _ leads => leads.head))
      (.choose (Grouped .paren (fun _ _ => True) behind) (Wide behind)
        (follows_patternList own).always (follows_ifRange own weak) (grouped .paren)
        fun x y absent wide => ⟨not_atGroup (wider x y wide) absent, wide⟩)
      (grouped .brace) fun x y absent wide => ⟨not_atGroup (wider x y wide) absent, wide⟩
  · simp only [Bool.and_eq_true, kind_of_mark (show "!".toList = ['!'] from rfl)] at found
    rw [found.1.2]
    decide

/-- Behind an identifier a pattern goes on as a path. -/
def goesOn (trees : List Tree) : Bool :=
  atAnyOperator ["::", "!", ".."] trees || atGroup .brace trees || atGroup .paren trees

theorem seen_goesOn : Seen goesOn := by
  refine ((Seen.any fun text member => ?_).or (.group _)).or (.group _)
  simp only [List.mem_cons, List.not_mem_nil, or_false] at member
  rcases member with rfl | rfl | rfl
  · exact Seen.firm rfl (by decide)
  · exact Seen.mark rfl
  · exact Seen.firm rfl (by decide)

theorem goesOn_kind {trees : List Tree} (found : goesOn trees = true) :
    atOperator "::" trees = true ∨ headKind trees ≠ some (.punct ':') := by
  by_cases colon : headKind trees = some (.punct ':')
  · obtain ⟨joint, rest, rfl⟩ := eq_of_kind_punct colon
    left
    simpa [goesOn, atAnyOperator, atOperator, startsMarks, atGroup] using found
  · exact .inr colon

/-- A pattern that starts with a path. -/
def startsPath (trees : List Tree) : Bool :=
  (atIdent trees && goesOn (trees.drop 1)) ||
  (atKeyword "self" trees && atOperator "::" (trees.drop 1)) ||
    atAnyOperator ["::", "<"] trees || atAnyKeyword ["Self", "super", "crate"] trees

theorem seen_pathMark : Seen (atAnyOperator ["::", "<"]) := Seen.any fun text member => by
  simp only [List.mem_cons, List.not_mem_nil, or_false] at member
  rcases member with rfl | rfl
  · exact Seen.firm rfl (by decide)
  · exact Seen.mark rfl

/-- A pattern starts with a path in both or in neither, where a double colon behind it is one in
both. -/
theorem startsPath_same {behind : Sight} {x y : List Tree} (weak : ∀ x y, behind x y → Next x y)
    (leads : Leads (Apart behind) x y) : startsPath x = startsPath y := by
  have second (opens : isOpen (headKind x) = true) : goesOn (x.drop 1) = goesOn (y.drop 1) ∧
      atOperator "::" (x.drop 1) = atOperator "::" (y.drop 1) := by
    rcases leads.second opens with head | ⟨ended, colons⟩
    · exact ⟨seen_goesOn head, Seen.firm rfl (by decide) head⟩
    · refine ⟨?_, colons⟩
      cases found : goesOn (x.drop 1) with
      | false => exact ((weak _ _ ended).fails seen_goesOn (fun _ => goesOn_kind) found).symm
      | true =>
          rcases weak _ _ ended with head | colon
          · exact found.symm.trans (seen_goesOn head)
          · have none := (goesOn_kind found).resolve_right fun other => other colon.written
            rw [colons, colon.apart] at none
            cases none
  unfold startsPath
  rw [Seen.ident leads.head, Seen.keyword _ leads.head, seen_pathMark leads.head,
    Seen.anyKeyword _ leads.head]
  cases opens : isOpen (headKind x) with
  | true => rw [(second opens).1, (second opens).2]
  | false =>
      have closed : atIdent y = false ∧ atKeyword "self" y = false := by
        rw [leads.head.kind] at opens
        constructor
        · exact Bool.eq_false_iff.mpr fun found =>
            Bool.eq_false_iff.mp opens (isOpen_of_ident found)
        · exact Bool.eq_false_iff.mpr fun found =>
            Bool.eq_false_iff.mp opens (isOpen_of_keyword found (by decide))
      rw [closed.1, closed.2, Bool.false_and, Bool.false_and, Bool.false_and, Bool.false_and]

/-- No path comes to start a pattern that started with none. -/
theorem startsPath_fails {behind : Sight} {x y : List Tree} (weak : ∀ x y, behind x y → Next x y)
    (leads : Leads behind x y) (absent : startsPath x = false) : startsPath y = false := by
  simp only [startsPath, Bool.or_eq_false_iff, Bool.and_eq_false_iff, Seen.ident leads.head,
    Seen.keyword _ leads.head, seen_pathMark leads.head, Seen.anyKeyword _ leads.head] at absent ⊢
  have second (opens : isOpen (headKind y) = true) : Next (x.drop 1) (y.drop 1) :=
    (leads.second (leads.head.kind ▸ opens)).elim .inl (weak _ _)
  refine ⟨⟨⟨?_, ?_⟩, absent.1.2⟩, absent.2⟩
  · cases named : atIdent y with
    | false => exact .inl rfl
    | true =>
        rw [named] at absent
        exact .inr ((second (isOpen_of_ident named)).fails seen_goesOn (fun _ => goesOn_kind)
          (absent.1.1.1.resolve_left Bool.noConfusion))
  · cases named : atKeyword "self" y with
    | false => exact .inl rfl
    | true =>
        rw [named] at absent
        exact .inr ((Beyond.of_next (second (isOpen_of_keyword named (by decide)))).colons
          (absent.1.1.2.resolve_left Bool.noConfusion))

/-- A name that the pattern binds, and the pattern behind its `@`. -/
def binding (g : Grammar) : Reader Unit := do
  discard (keyword? "ref")
  discard (keyword? "mut")
  if atKeyword "self" (← ahead) then keyword "self" else discard Reader.ident
  if ← operator? "@" then g.pattern

theorem follows_binding (own : g.Repeats) {behind : Sight} (weak : ∀ x y, behind x y → Next x y) :
    Again g.binding (Leads behind) behind := by
  have inner : Again (operator? "@" >>= fun found => if found = true then g.pattern else pure ())
      (Wide behind) behind := by
    refine .operatorIf "@" _ _ (own.pattern weak) (.pure rfl)
      (fun x y marked => .inl (marked.loose rfl rfl)) fun x y absent ended => ⟨?_, .inr ended⟩
    exact (Beyond.of_next (weak x y ended)).mark rfl rfl absent
  refine (Again.keyword? "ref").dropped.bind _ fun _ =>
    (Again.keyword? "mut").dropped.bind _ fun _ =>
      .chooseSeen (.keyword _) (fun _ _ leads => leads.head) (Follows.always ?_) (Follows.always ?_)
  · exact (Again.keyword "self" fun _ _ => id).bind _ fun _ => inner
  · exact (Again.ident fun _ _ => id).dropped.bind _ fun _ => inner

/-- A pattern behind a reference sign. -/
def referencePattern (g : Grammar) : Reader Unit := do
  operator "&"
  discard (keyword? "mut")
  g.pattern

theorem follows_referencePattern (own : g.Repeats) {behind : Sight}
    (weak : ∀ x y, behind x y → Next x y) : Again g.referencePattern (Leads behind) behind := by
  have reference : Begins "&" '&' := ⟨rfl, by decide⟩
  exact Follows.bind (fun _ => Leads behind)
    ((Follows.operator "&").starting fun _ _ => reference.leads) fun _ =>
      (Again.keyword? "mut").dropped.bind _ fun _ => own.pattern weak

/-- Where no path starts a pattern, its production is told by the first tree. -/
theorem follows_patternProduction (own : g.Repeats) {behind : Sight}
    (weak : ∀ x y, behind x y → Next x y) :
    Again g.patternProduction (Leads behind) behind := by
  have heads : ∀ x y, Leads behind x y → Head x y := fun _ _ leads => leads.head
  have narrow (x y : List Tree) (leads : Leads (Apart behind) x y) : Leads behind x y :=
    leads.imp fun _ _ apart => .inr apart.1
  have constant : Seen fun trees =>
      atOperator "-" trees || atLiteral trees || atKeyword "const" trees :=
    ((Seen.mark rfl).or .literal).or (.keyword _)
  refine .choose (Leads (Apart behind)) (Leads behind) (follows_pathPattern own weak).always ?_
    (fun x y found leads => ⟨(startsPath_same weak leads).symm.trans found, narrow x y leads⟩)
    fun x y absent leads => ⟨startsPath_fails weak leads absent, leads⟩
  refine .chooseSeen (.keyword _) heads (Follows.always ?_)
    (.chooseSeen (.keyword _) heads (Follows.always ?_) ?_)
  · exact Again.keyword "_" fun _ _ => .inr
  · exact Follows.bind _ (Again.closed (by decide)) fun _ => own.pattern weak
  refine .choose (RangeRest (Wide behind)) (Leads behind) (Follows.always ?_) ?_
    (fun x y found started => ?_) fun x y absent leads =>
      ⟨(constant leads.head).symm.trans absent, leads⟩
  · exact Follows.bind _ (follows_rangeBound own fun _ x y => Or.rec .inl (weak x y)).dropped
      fun _ => follows_ifRange own weak
  · refine .chooseSeen (.or (.anyKeyword _) .ident) heads (follows_binding own weak).always
      (.chooseSeen (.mark rfl) heads (follows_referencePattern own weak).always
        (.chooseSeen (.group _) heads (Follows.always ?_)
          (.chooseSeen (.group _) heads (Follows.always ?_) ?_)))
    · exact (follows_patternList own).starting fun _ _ grouped => grouped.leads
    · exact (follows_patternList own).starting fun _ _ grouped => grouped.leads
    refine .choose Ranged (fun _ _ => False) (follows_rangePattern own weak).always
      (Follows.missing _).always (fun x y found ranged => ⟨?_, ranged.leads⟩)
      fun _ _ _ => False.elim
    simp only [Bool.and_eq_true, Bool.not_eq_true'] at found ⊢
    exact ⟨(Seen.firm rfl (by decide) ranged.head).symm.trans found.1,
      ranged.head.without_dots found.2⟩
  · rcases started with ⟨leads, _⟩ | ⟨_, ended⟩
    · exact ⟨(constant leads.head).symm.trans found, leads.imp fun _ _ => id⟩
    · rw [rangeEnd_closed ended] at found
      cases found

end Grammar
end Source
end Toolsmith
