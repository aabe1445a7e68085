import Mathlib
import Toolsmith.Proofs.Source.Follow.Path

/-! # Types are read again

Each production of a type is read again from what it prints, given that the types, paths and
patterns inside it are (`Grammar.Repeats`). Most are told by the first tree. Where a test looks
further, as at a name that a colon may follow in a function type, or at the `!` of a macro and the
`+` of further bounds behind a path, what stands behind the type has to be `Beyond` it.
-/

namespace Toolsmith
namespace Source

open Piece Reader

namespace Grammar

variable {g : Grammar}

/-! ### Calling conventions -/

/-- The name of a calling convention, if one stands next. -/
def abiName : Reader Bool := do
  match (← ahead) with
  | .literal text :: _ =>
    if text.startsWith "\"" || text.startsWith "r" then discard literalText
  | _ => pure ()
  return true

theorem abiName_unnamed {trees : List Tree}
    (none : ∀ number, headKind trees ≠ some (.literal number)) :
    abiName.Reads trees true [] trees := by
  refine reads_ahead_bind.mpr ?_
  rcases trees with _ | ⟨head, trees⟩
  · exact reads_pure.mpr ⟨rfl, rfl, rfl⟩
  cases head with
  | literal text => exact absurd rfl (none _)
  | _ => exact reads_pure.mpr ⟨rfl, rfl, rfl⟩

/-- A text is taken as a name, and any other literal left where it is. -/
theorem reads_abiName_literal {text : String} {trees rest : List Tree} {value : Bool}
    {taken : List Piece} (read : abiName.Reads (.literal text :: trees) value taken rest) :
    value = true ∧ ((∀ other, abiName.Reads (.literal text :: other) true taken other) ∧
        taken = [.tree (.literal text)] ∧ rest = trees ∨
      rest = .literal text :: trees) := by
  have read := reads_ahead_bind.mp read
  dsimp only at read
  by_cases named : (text.startsWith "\"" || text.startsWith "r") = true
  · rw [if_pos named] at read
    obtain ⟨_, one, two, _, first, later, rfl⟩ := reads_bind.mp read
    obtain ⟨rfl, rfl, rfl⟩ := reads_pure.mp later
    obtain ⟨found, first⟩ := reads_discard.mp first
    obtain ⟨tree, rfl, same, rfl, again⟩ := copies_literalText first
    cases same
    refine ⟨rfl, .inl ⟨fun other => reads_ahead_bind.mpr ?_, List.append_nil _, rfl⟩⟩
    change Reads (if (text.startsWith "\"" || text.startsWith "r") = true then _ else _) _ _ _ _
    rw [if_pos named]
    exact reads_bind.mpr ⟨(), _, [], other, reads_discard.mpr ⟨text, again other⟩,
      reads_pure.mpr ⟨rfl, rfl, rfl⟩, rfl⟩
  · rw [if_neg named] at read
    obtain ⟨rfl, rfl, rfl⟩ := reads_pure.mp read
    exact ⟨rfl, .inr rfl⟩

/-- No literal comes to stand behind an `extern` that has none. -/
theorem follows_abiName {behind : Sight}
    (plain : ∀ x y, behind x y → Head x y ∧ ∀ number, headKind x ≠ some (.literal number)) :
    Again abiName (fun _ _ => True) behind := by
  intro trees rest other value taken read _ ended
  refine ⟨trivial, ?_⟩
  obtain ⟨head, none⟩ := plain _ _ ended
  by_cases literal : ∃ number, headKind trees = some (.literal number)
  · obtain ⟨number, kind⟩ := literal
    obtain ⟨text, trees, rfl⟩ : ∃ text more, trees = .literal text :: more := by
      rcases trees with _ | ⟨_ | _ | _ | _ | _, more⟩
      case cons.literal text => exact ⟨text, more, rfl⟩
      all_goals cases kind
    obtain ⟨rfl, ⟨again, rfl, rfl⟩ | rfl⟩ := reads_abiName_literal read
    · exact ⟨true, _, rfl, again other, trivial, trivial⟩
    · exact absurd kind (none number)
  · have unnamed := abiName_unnamed fun number kind => literal ⟨number, kind⟩
    obtain ⟨rfl, rfl, rfl⟩ := read.unique unnamed
    exact ⟨true, [], rfl, abiName_unnamed fun number => head.kind ▸ none number, trivial⟩

theorem follows_abi {starts behind : Sight}
    (plain : ∀ x y, behind x y → Head x y ∧ ∀ number, headKind x ≠ some (.literal number))
    (holds : ∀ x y, Ahead (· = name "extern") (fun _ _ => True) x y → starts x y)
    (fails : ∀ x y, behind x y → starts x y) :
    Again abi starts behind :=
  .keywordIf "extern" _ _ (follows_abiName plain) (.pure rfl) holds fun x y absent ended =>
    ⟨(Seen.keyword _ (plain x y ended).1).symm.trans absent, fails x y ended⟩

/-! ### Function types -/

/-- What may follow the name or the pattern of a parameter: a type, or points. -/
def Typed : Sight := Marked ":" fun x y => Marked "..." Divided x y ∨ Leads Divided x y

theorem Typed.next {x y : List Tree} (typed : Typed x y) : Next x y := by
  refine Marked.colon typed fun x y => Or.rec (fun dots colon => ?_) fun leads => leads.fresh.colon
  rw [kind_of_startsMarks dots.written] at colon
  cases colon

/-- A name of a parameter, with its colon, stands next. -/
def isNamed (trees : List Tree) : Bool :=
  (atIdent trees || atAnyKeyword ["_", "self"] trees) && atOperator ":" (trees.drop 1) &&
    !atOperator "::" (trees.drop 1)

/-- The word that is tested for a name. -/
theorem word_of_kind : OfKind fun trees => atIdent trees || atAnyKeyword ["_", "self"] trees :=
  .or .ident (.anyKeyword _)

/-- The names of parameters in function types. -/
def NamedType : Sight := Ahead (fun tree => ∃ name, tree = .ident name) Typed

theorem NamedType.leads {x y : List Tree} (named : NamedType x y) : Leads Beyond x y :=
  Ahead.leads named (by rintro _ ⟨_, rfl⟩; rfl) fun _ _ typed => .inr (.of_next typed.next)

/-- A name is told from a path in both, since its colon belongs to no double one. -/
theorem NamedType.same {x y : List Tree} (named : NamedType x y) (found : isNamed x = true) :
    isNamed y = true := by
  obtain ⟨_, rest, other, ⟨name, rfl⟩, rfl, rfl, typed⟩ := named
  simp only [isNamed, Bool.and_eq_true, Bool.not_eq_true', List.drop_succ_cons,
    List.drop_zero] at found ⊢
  have same : headKind (.ident name :: rest) = headKind (.ident name :: other) := rfl
  exact ⟨⟨(word_of_kind same).symm.trans found.1.1, typed.holds⟩,
    (Beyond.of_next typed.next).colons found.2⟩

/-- What leads to no name leads to none in the second trees. -/
theorem not_isNamed {x y : List Tree} (leads : Leads Divided x y) (absent : isNamed x = false) :
    isNamed y = false := by
  simp only [isNamed, word_of_kind leads.head.kind] at absent ⊢
  cases word : atIdent y || atAnyKeyword ["_", "self"] y with
  | false => rfl
  | true =>
      have opens : isOpen (headKind x) = true := by
        rw [leads.head.kind]
        exact (Bool.or_eq_true_iff.mp word).elim isOpen_of_ident fun found =>
          isOpen_of_anyKeyword found (by decide)
      have second : Head (x.drop 1) (y.drop 1) :=
        (leads.second opens).elim id fun ended => ended.toHead
      rw [word, Seen.mark rfl second, Seen.firm rfl (by decide) second] at absent
      exact absent

/-- A parameter of a function type after its attributes and the `mut` of a `self`. -/
def namedTypeParameter (g : Grammar) : Reader Unit := do
  if isNamed (← ahead) then
    discard word
    operator ":"
    if ← operator? "..." then return ()
  discard (g.type true)

theorem follows_namedTypeParameter (own : g.Repeats) :
    Again g.namedTypeParameter (Leads Beyond) Divided := by
  have typed : Again (discard (g.type true)) (Leads Divided) Divided :=
    (own.type true fun _ _ ended => .inl ended.toHead).dropped
  refine .choose NamedType (Leads Divided) (Follows.always ?_) typed.always
    (fun x y found named => ⟨named.same found, named.leads⟩) fun x y absent leads =>
      ⟨not_isNamed leads absent, leads.imp fun _ _ ended => .inl ended.toHead⟩
  refine Follows.bind (fun _ => Typed) (copies_word.follows fun name x y ahead => ?_).dropped
    fun _ => (Follows.operator ":").bind _ fun _ => ?_
  · obtain ⟨tree, rest, other, same, led⟩ := ahead
    exact ⟨tree, rest, other, ⟨name, same⟩, led⟩
  · exact .operatorIf "..." Divided (Leads Divided) (.pure rfl) typed (fun _ _ => .inl)
      fun x y absent leads => ⟨leads.head.without_dots absent, .inr leads⟩

/-- No `self` comes to stand behind a `mut` that had none behind it. -/
theorem not_mutSelf {x y : List Tree} (leads : Leads Beyond x y)
    (absent : (atKeyword "mut" x && atKeyword "self" (x.drop 1)) = false) :
    (atKeyword "mut" y && atKeyword "self" (y.drop 1)) = false := by
  rw [Seen.keyword _ leads.head] at absent
  cases found : atKeyword "mut" y with
  | false => rfl
  | true =>
      rw [found] at absent
      have opens : isOpen (headKind x) = true := by
        rw [leads.head.kind]
        exact isOpen_of_keyword found (by decide)
      have second : Beyond (x.drop 1) (y.drop 1) := (leads.second opens).elim .inl id
      exact second.keyword absent

/-- A parameter of a function type: three points, or a type that a name or `mut self` stands before.
-/
theorem follows_functionTypeParameter (own : g.Repeats) :
    Again g.functionTypeParameter (Leads Beyond) Divided := by
  refine follows_leadingAttributes.dropped.bind _ fun _ => .choose (Marked "..." Divided)
    (Leads Beyond) (Follows.operator "...").always ?_
    (fun x y _ marked => ⟨marked.holds, marked.leads marked.dots rfl (by decide)⟩)
    fun x y absent leads => ⟨leads.head.without_dots absent, leads⟩
  refine .choose (Ahead (· = name "mut") (Leads Beyond)) (Leads Beyond)
    (Follows.always (Follows.bind (fun _ => Leads Beyond)
      ((copies_keyword _).follows fun _ _ _ => id) fun _ => follows_namedTypeParameter own))
    (follows_namedTypeParameter own).always (fun x y found ahead => ?_)
    fun x y absent leads => ⟨not_mutSelf leads absent, leads⟩
  refine ⟨?_, ahead.leads (by rintro _ rfl; rfl) fun _ _ leads => .inl leads.head⟩
  obtain ⟨_, rest, other, rfl, rfl, rfl, leads⟩ := ahead
  exact (Seen.keyword _ leads.head).symm.trans found

/-- A function type: its qualifiers, the keyword, the parameters and the result. -/
theorem follows_functionType (own : g.Repeats) {behind : Sight}
    (weak : ∀ x y, behind x y → Beyond x y) :
    Again g.functionType (Leads behind) behind := by
  let arguments : Sight := Grouped .paren (fun _ _ => True) fun _ _ => True
  let function : Sight := Ahead (· = name "fn") arguments
  have leads {text : String} {after : Sight} (quiet : isOpen (some (name text).kind) = false)
      (x y : List Tree) (ahead : Ahead (· = name text) after x y) : Leads behind x y :=
    ahead.leads_closed (by rintro _ rfl; exact ⟨rfl, quiet⟩)
  have parameters : Again (discard (group .paren (commaSeparated g.functionTypeParameter)))
      arguments fun _ _ => True :=
    .list (follows_functionTypeParameter own) fun _ _ leads => leads.head
  refine (Again.keyword? "unsafe").dropped.bind _ fun _ =>
    Follows.bind (fun _ => function) (Follows.dropped (follows_abi (fun x y ahead => ?_)
      (leads (by decide)) (leads (by decide)))) fun _ =>
    Follows.bind (fun _ => arguments) ((copies_keyword "fn").follows fun _ _ _ => id) fun _ =>
      parameters.bind _ fun _ => (follows_returnType own false weak).dropped
  refine ⟨(leads (by decide) x y ahead).head, ?_⟩
  obtain ⟨_, _, _, rfl, rfl, _⟩ := ahead
  exact fun number same => by cases same

/-! ### Types in parentheses -/

/-- In parentheses stand nothing, bounds, one type or several, and further bounds behind them. -/
theorem follows_parenthesizedType (own : g.Repeats) (plus : Bool) {behind : Sight}
    (weak : ∀ x y, behind x y → Beyond x y) :
    Again (g.parenthesizedType plus) (Grouped .paren (fun _ _ => True) fun _ _ => True) behind := by
  have ended (x y : List Tree) (ended : AtEnd x y) : Beyond x y := .inl (Head.at_end ended)
  let inside : Sight := fun x y => Leads Divided x y ∨ AtEnd x y
  have bounds (plus : Bool) :
      Again (g.bounds plus) (Leads Divided) AtEnd :=
    (follows_bounds own plus ended).starting fun _ _ leads =>
      leads.imp fun _ _ ended => .inr (.at_end ended)
  have types : Again (discard (commaSeparated (g.type true))) inside AtEnd :=
    (Follows.commaSeparated (fun value => ⟨value, rfl⟩)
      (own.type true fun _ _ ended => .inl ended.toHead) fun _ _ leads => leads.head).dropped
  refine Follows.bind (fun _ => Wide behind) ?_ fun isBound =>
    .sometimes _ (fun _ => follows_furtherBounds own weak) (fun _ _ _ => .inr) (.pure rfl)
  refine Follows.starting (show Follows _ _ _ (Grouped .paren inside _) _ from .group ?_) ?_
  · refine .choose AtEnd (Leads Divided) (Follows.always (.pure rfl)) ?_
      (fun x y _ ended => ⟨?_, .inr ended⟩) fun x y absent leads =>
        ⟨(Seen.isEmpty leads.head).symm.trans absent, .inl leads⟩
    · refine .chooseSeen .lifetime (fun _ _ leads => leads.head)
        (Follows.always ((bounds true).bind _ fun _ => .pure rfl))
        (.chooseSeen (.mark rfl) (fun _ _ leads => leads.head)
        (Follows.always ((bounds false).bind _ fun _ => .pure rfl)) (Follows.always ?_))
      refine Follows.bind (fun _ => Divided)
        (own.type true fun _ _ ended => .inl ended.toHead) fun first => ?_
      refine .choose (Marked "," inside) AtEnd (Follows.always ?_) (Follows.always (.pure rfl))
        (fun x y _ marked => ⟨marked.holds, marked.comma⟩) fun x y _ ended => ⟨?_, .at_end ended⟩
      · exact (Follows.operator ",").bind _ fun _ => types.bind _ fun _ => .pure rfl
      · rw [ended.2]
        rfl
    · rw [ended.2]
      rfl
  · rintro _ _ ⟨content, shown, rest, other, rfl, rfl, _, _⟩
    exact ⟨content, shown, rest, other, rfl, rfl, trivial, trivial⟩

/-! ### Path types -/

/-- A path type after its path and any arguments in parentheses. -/
def pathTypeTail (g : Grammar) (plus bound : Bool) (path : PathKind) (parenthesized : Bool) :
    Reader TypeKind := do
  let trees ← ahead
  let kind := TypeKind.path path.last path.qualified
    (path.segments == 1 && !path.rooted && !parenthesized)
  if path.qualified then return kind
  else if atOperator "!" trees && !atOperator "!=" trees && !path.arguments && !parenthesized then
    operator "!"
    discard <| anyGroup "arguments"
    return .other
  else if bound || (plus && atOperator "+" trees) then
    if plus then g.furtherBounds
    return .other
  else return kind

/-- A path type reads its tail, with arguments in parentheses or without. -/
theorem pathType_eq (plus bound : Bool) : g.pathType plus bound = (do
    let path ← g.anyPath false
    let trees ← ahead
    if !path.applied && atParenthesized trees then
      discard (operator? "::")
      g.parenthesizedArguments
      g.pathTypeTail plus bound path true
    else g.pathTypeTail plus bound path false) := by
  unfold pathType pathTypeTail
  congr
  funext path
  congr
  funext trees
  cases !path.applied && atParenthesized trees <;> rfl

/-- A macro or further bounds go on with a path in both or in neither. -/
theorem follows_pathTypeTail (own : g.Repeats) (plus bound : Bool) (path : PathKind)
    (parenthesized : Bool) {behind : Sight} (weak : ∀ x y, behind x y → Beyond x y) :
    Again (g.pathTypeTail plus bound path parenthesized) (Wide behind) behind := by
  have wider (x y : List Tree) : Wide behind x y → Beyond x y := Or.rec .inl (weak x y)
  have call : Seen fun trees => atOperator "!" trees && !atOperator "!=" trees && !path.arguments &&
    !parenthesized :=
    (((Seen.mark rfl).and (.not (.firm rfl (by decide)))).and (.const _)).and (.const _)
  refine .choose (Wide behind) (Wide behind) ?_ ?_ (fun _ _ found wide => ⟨found, wide⟩)
    fun _ _ absent wide => ⟨absent, wide⟩
  · exact Follows.always ((Follows.pure rfl).starting fun _ _ => .inr)
  refine .choose (Marked "!" (Arguments behind)) (Wide behind) (Follows.always ?_) ?_
    (fun x y found marked => ?_) fun x y absent wide => ⟨?_, wide⟩
  · exact (Follows.operator "!").bind _ fun _ =>
      (follows_anyGroup _).dropped.bind _ fun _ => .pure rfl
  · refine .choose (Wide behind) (Wide behind) (Follows.always ?_)
      (Follows.always ((Follows.pure rfl).starting fun _ _ => .inr))
      (fun x y found wide => ⟨?_, wide⟩) fun x y absent wide => ⟨?_, wide⟩
    · exact .sometimes _ (fun _ => follows_furtherBounds own weak) (fun _ _ _ => .inr) (.pure rfl)
    · rwa [← (wider x y wide).mark_eq (show "+".toList = ['+'] from rfl) rfl]
    · rwa [← (wider x y wide).mark_eq (show "+".toList = ['+'] from rfl) rfl]
  · have head := head_of_call marked
    exact ⟨(call head).symm.trans found, .inl head⟩
  · refine (wider x y wide).fails call (fun trees found => .inr ?_) absent
    simp only [Bool.and_eq_true, kind_of_mark (show "!".toList = ['!'] from rfl)] at found
    rw [found.1.1.1]
    exact ⟨by decide, rfl⟩

/-- A path type is read again with what goes on with it. -/
theorem follows_pathType (own : g.Repeats) (plus bound : Bool) {behind : Sight}
    (weak : ∀ x y, behind x y → Beyond x y) :
    Again (g.pathType plus bound) (Leads behind) behind := by
  have wider (x y : List Tree) : Wide behind x y → Beyond x y := Or.rec .inl (weak x y)
  rw [pathType_eq]
  refine Follows.bind (fun _ => Wide (Wide behind)) ((follows_anyPath own false fun x y =>
    Or.rec .inl (wider x y)).starting fun _ _ leads => leads.imp fun _ _ apart =>
      apart.1.elim .inl (Or.elim · .inl .inr)) fun path => ?_
  refine follows_ifParens path.applied wider ?_
    (follows_pathTypeTail own plus bound path false weak)
  exact follows_parensColons.bind _ fun _ =>
    (follows_parenthesizedArguments own wider).bind _ fun _ =>
      follows_pathTypeTail own plus bound path true weak

/-! ### All types -/

/-- A type in brackets, behind which an expression may stand. -/
def arrayType (g : Grammar) : Reader Unit := do
  discard (g.type true)
  if ← operator? ";" then discard (g.expression true)

/-- The expression is written as it is printed, and so is read as it was. -/
theorem within_arrayType (own : g.Repeats) :
    Within .bracket g.arrayType g.arrayType Eq (Leads Head) := by
  intro trees value taken read settled plain
  obtain ⟨_, one, two, between, type, size, rfl⟩ := reads_bind.mp read
  have plain : PlainAll two := by
    obtain ⟨found, _, _, _, mark, last, rfl⟩ := reads_bind.mp size
    rcases reads_operator?.mp mark with ⟨_, _, mark⟩ | ⟨rfl, _, rfl, rfl⟩
    · obtain ⟨joint, _, rfl⟩ := (reads_mark (show ";".toList = [';'] from rfl)).mp mark
      exact plain_behind rfl plain
    · rw [if_neg Bool.false_ne_true] at last
      obtain ⟨_, rfl, _⟩ := reads_pure.mp last
      exact trivial
  have same := reads_plain size plain
  rw [List.append_nil] at same
  obtain ⟨head, _, again, rfl, earlier, keeps⟩ :=
    (own.type true fun _ _ => Or.inl).dropped type (settledAll_append.mp settled).1 (Head.refl _)
  rw [printAll_append, same]
  exact ⟨head, value, again ++ two, rfl, reads_bind.mpr ⟨_, _, _, _, earlier, size, rfl⟩,
    plainAll_append.mpr ⟨keeps, plain⟩⟩

/-- An exclamation mark that no equals sign belongs to. -/
theorem head_of_never {behind : Sight} {x y : List Tree} (marked : Marked "!" behind x y)
    (alone : atOperator "!=" x = false) : Head x y := by
  obtain ⟨joint, rest, other, rfl, rfl, _⟩ := marked
  change Head (.punct '!' joint :: rest) (.punct '!' false :: other)
  refine Head.mark (fun glued => by cases glued) (fun next member joined _ kind => ?_)
    fun leading => absurd leading (by decide)
  obtain rfl : next = '=' := by simpa [firmOperators] using member
  have paired := startsMarks_punct_pair '!' '=' joint '!' rest
  rw [joined, kind] at paired
  exact absurd (paired.symm.trans (joined ▸ alone)) Bool.noConfusion

/-- The type that an operator and the words behind it are written before. -/
def innerType (g : Grammar) : Reader TypeKind := do
  discard (g.type false)
  return .other

theorem follows_innerType (own : g.Repeats) {behind : Sight}
    (weak : ∀ x y, behind x y → Beyond x y) : Again g.innerType (Leads behind) behind :=
  (own.type false weak).dropped.bind _ fun _ => .pure rfl

/-- The type of a raw pointer. -/
def pointerType (g : Grammar) : Reader TypeKind := do
  operator "*"
  if atKeyword "const" (← ahead) then keyword "const" else keyword "mut"
  g.innerType

theorem follows_pointerType (own : g.Repeats) {behind : Sight}
    (weak : ∀ x y, behind x y → Beyond x y) : Again g.pointerType (Leads behind) behind := by
  have star : Begins "*" '*' := ⟨rfl, by decide⟩
  refine Follows.bind (fun _ => Leads behind)
    ((Follows.operator "*").starting fun _ _ => star.leads) fun _ => ?_
  refine .chooseSeen (.keyword _) (fun _ _ leads => leads.head) (Follows.always ?_)
    (Follows.always ?_)
  · exact Follows.bind _ (Again.closed (by decide)) fun _ => follows_innerType own weak
  · exact (Again.keyword "mut" fun _ _ leads => .inl leads.head).bind _ fun _ =>
      follows_innerType own weak

/-- The type of a reference. -/
def referenceType (g : Grammar) : Reader TypeKind := do
  operator "&"
  discard lifetime?
  discard (keyword? "mut")
  g.innerType

theorem follows_referenceType (own : g.Repeats) {behind : Sight}
    (weak : ∀ x y, behind x y → Beyond x y) : Again g.referenceType (Leads behind) behind := by
  have reference : Begins "&" '&' := ⟨rfl, by decide⟩
  exact Follows.bind (fun _ => Leads behind)
    ((Follows.operator "&").starting fun _ _ => reference.leads) fun _ =>
      Again.lifetime?.dropped.bind _ fun _ => (Again.keyword? "mut").dropped.bind _ fun _ =>
        follows_innerType own weak

/-- The bounds of a type that consists of them. -/
def boundsType (g : Grammar) (plus : Bool) : Reader TypeKind := do
  g.bounds plus
  return .other

theorem follows_boundsType (own : g.Repeats) (plus : Bool) {behind : Sight}
    (weak : ∀ x y, behind x y → Beyond x y) : Again (g.boundsType plus) (Leads behind) behind :=
  (follows_bounds own plus weak).bind _ fun _ => .pure rfl

/-- The type `!`, behind which no equals sign stands. -/
theorem never_same {behind after : Sight} {x y : List Tree} (marked : Marked "!" behind x y)
    (found : (atOperator "!" x && !atOperator "!=" x) = true) :
    (atOperator "!" y && !atOperator "!=" y) = true ∧ Leads after x y := by
  have alone : atOperator "!=" x = false := by simpa using (Bool.and_eq_true_iff.mp found).2
  have head := head_of_never marked alone
  have seen : Seen fun trees => atOperator "!" trees && !atOperator "!=" trees :=
    (Seen.mark rfl).and (.not (.firm rfl (by decide)))
  exact ⟨(seen head).symm.trans found, marked.leads head rfl (by decide)⟩

/-- Every production of a type is told by the first tree, and so in both. -/
theorem follows_typeProduction (own : g.Repeats) (plus : Bool) {behind : Sight}
    (weak : ∀ x y, behind x y → Beyond x y) :
    Again (g.typeProduction plus) (Leads behind) behind := by
  have heads : ∀ x y, Leads behind x y → Head x y := fun _ _ leads => leads.head
  have star : Begins "*" '*' := ⟨rfl, by decide⟩
  have bounds := follows_boundsType own plus weak
  refine follows_leadingLifetimes.bind _ fun bound => ?_
  refine .chooseSeen (.and (.const _) (.not (.or .path (.anyKeyword _)))) heads
    (Follows.missing _).always ?_
  refine .chooseSeen (.group _) heads (Follows.always ?_)
    (.chooseSeen (.anyKeyword _) heads (Follows.always ?_) ?_)
  · exact (follows_parenthesizedType own plus weak).starting fun _ _ grouped => grouped.leads
  · exact (follows_functionType own weak).bind _ fun _ => .pure rfl
  refine .chooseSeen (.or .path (.mark rfl)) heads (follows_pathType own plus bound weak).always ?_
  refine .chooseSeen (.keyword _) heads (Follows.always ?_)
    (.chooseSeen (.group _) heads (Follows.always ?_) ?_)
  · exact Follows.bind (fun _ => Leads behind) (Again.closed (by decide)) fun _ =>
      (Again.operator? star).dropped.bind _ fun _ => bounds
  · exact ((within_arrayType own).group.starting fun _ _ grouped => grouped.leads).bind _
      fun _ => .pure rfl
  refine .chooseSeen (.mark rfl) heads (follows_pointerType own weak).always
    (.chooseSeen (.mark rfl) heads (follows_referenceType own weak).always ?_)
  refine .choose (Marked "!" behind) (Leads behind)
    (Follows.always ((Follows.operator "!").bind _ fun _ => .pure rfl)) ?_
    (fun x y found marked => never_same marked found) fun x y absent leads => ⟨?_, leads⟩
  · refine .chooseSeen (.keyword _) heads (Follows.always ?_)
      (.chooseSeen (.keyword _) heads (Follows.always ?_) ?_)
    · exact Follows.bind _ (Again.closed (by decide)) fun _ => bounds
    · exact (Again.keyword "_" fun _ _ => .inr).bind _ fun _ => .pure rfl
    · exact .chooseSeen .lifetime heads bounds.always (Follows.missing _).always
  · rw [Seen.mark rfl leads.head, Seen.firm rfl (by decide) leads.head] at absent
    exact absent

end Grammar
end Source
end Toolsmith
