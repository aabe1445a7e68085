import Mathlib
import Toolsmith.Proofs.Source.Follow.AngleList
import Toolsmith.Proofs.Source.LocalGrammar

/-! # Paths and bounds are read again

Attributes, bounds, generic arguments and paths are read again from what they print, in a grammar
whose types and patterns are (`Grammar.Repeats`). What a path may end at is decided by what follows
it: an angle bracket or parentheses would be arguments and `::` a further segment. So `follows_path`
and its like ask of what stands behind only that none of these comes to stand there that was not
there before (`Beyond`).
-/

namespace Toolsmith
namespace Source

open Piece Reader

/-- The paths, types and patterns of the grammar are read again from what they print. -/
structure Grammar.Repeats (g : Grammar) : Prop where
  path : ∀ expression {behind : Sight}, (∀ x y, behind x y → Beyond x y) →
    Again (g.path expression) (Leads behind) behind
  type : ∀ plus {behind : Sight}, (∀ x y, behind x y → Beyond x y) →
    Again (g.type plus) (Leads behind) behind
  pattern : ∀ {behind : Sight}, (∀ x y, behind x y → Next x y) →
    Again g.pattern (Leads behind) behind

namespace Grammar

variable {g : Grammar}

/-! ### Module paths -/

/-- A name is read again as long as what stands behind it is related in one of the two ways. -/
theorem Ahead.named {stated : Tree → Prop} {behind after : Sight} {x y : List Tree}
    (ahead : Ahead stated behind x y) (word : ∀ tree, stated tree → ∃ name, tree = .ident name)
    (second : ∀ x y, behind x y → Head x y ∨ after x y) : Named after x y := by
  refine ⟨ahead.leads (fun tree holds => ?_) second, ?_⟩
  · obtain ⟨_, rfl⟩ := word tree holds
    rfl
  · obtain ⟨tree, rest, other, holds, rfl, rfl, _⟩ := ahead
    obtain ⟨_, rfl⟩ := word tree holds
    rfl

/-- A double colon before a name. -/
theorem Marked.colons {behind : Sight} {x y : List Tree} (marked : Marked "::" (Named behind) x y) :
    Head x y :=
  marked.head [':'] rfl (fun _ _ named => named.leads.head) fun _ _ named => named.clear _

theorem takes_outerAttribute : Takes g.outerAttribute fun _ => True := (takes_operator rfl).first

/-- Segments are read until no `::` follows, so that what stands behind should be told from it. -/
theorem follows_modulePath {behind : Sight} (weak : ∀ x y, behind x y → Head x y) :
    Again modulePath (Leads behind) behind := by
  have segments : Again (Reader.loop segmentStep []) (Named behind) behind :=
    Follows.loopSame progresses_segmentStep (fun _ => Named behind) (fun segments => ?_) []
  · refine Follows.bind (fun _ => Named behind) (.operator? "::" (fun x y marked => ?_)
      fun x y absent named => ?_) fun rooted => segments.bind _ fun _ => .pure rfl
    · exact marked.leads (Marked.colons marked) rfl (by decide)
    · have head := named.leads.head
      exact ⟨(Seen.firm rfl (by decide) head).symm.trans absent, named.leads⟩
  · unfold segmentStep
    refine .chooseSeen (.or .ident (.anyKeyword _)) (fun x y named => named.leads.head)
      (Follows.always ?_) (Follows.missing _).always
    · refine Follows.bind (fun _ => Head) (copies_word.follows fun name x y ahead => ?_)
        fun name => ?_
      · exact Ahead.named ahead (fun _ same => ⟨_, same⟩) fun _ _ => .inl
      · refine Follows.bind (fun colons => if colons then Named behind else behind)
          (Follows.operator? "::" (fun x y marked => ?_) fun x y absent ended => ?_)
          fun colons => ?_
        · exact Marked.colons marked
        · exact ⟨(Seen.firm rfl (by decide) (weak _ _ ended)).symm.trans absent, weak _ _ ended⟩
        · cases colons
          · exact .pure rfl
          · exact .pure rfl

/-! ### Attributes -/

/-- In `unsafe(..)` the path of the attribute is the keyword. -/
theorem follows_attributePath {behind : Sight} (weak : ∀ x y, behind x y → Head x y) :
    Again attributePath (fun _ _ => True) behind := by
  refine Follows.bind (fun unsafely => if unsafely then behind else Leads behind)
    (.keyword? "unsafe" (fun _ _ _ => trivial) fun x y absent starts => ⟨?_, trivial⟩)
    fun unsafely => ?_
  · exact (Seen.keyword _ starts.head).symm.trans absent
  · cases unsafely with
    | true => exact .pure rfl
    | false => exact follows_modulePath weak

/-- The arguments of an attribute are written as they are printed. -/
theorem plain_of_attributeArguments {trees rest : List Tree} {value : AttributeArguments}
    {front taken : List Piece} (read : g.attributeArguments.Reads trees value taken rest)
    (plain : PlainAll (code .bracket (front ++ taken))) : PlainAll taken := by
  have read := reads_ahead_bind.mp read
  split at read
  · obtain ⟨found, arguments, rfl⟩ := reads_bind_pure.mp read
    rw [(reads_anyGroup.mp arguments).2]
    exact ⟨trivial, trivial⟩
  split at read
  · obtain ⟨_, _, _, _, mark, _, rfl⟩ := reads_bind.mp read
    obtain ⟨joint, _, rfl⟩ := (reads_mark (show "=".toList = ['='] from rfl)).mp mark
    exact plain_behind rfl plain
  · obtain ⟨_, rfl, _⟩ := reads_pure.mp read
    exact trivial

/-- Attributes are read again, whatever follows them. -/
theorem within_attributeContent (inner : Bool) :
    Within .bracket (g.attributeContent inner) (g.attributeContent inner) Eq fun _ _ => True := by
  intro trees attr taken read settled plain
  obtain ⟨one, two, between, path, arguments, rfl, rfl⟩ := reads_attributeContent.mp read
  have plain := plain_of_attributeArguments arguments plain
  have same := reads_plain arguments plain
  rw [List.append_nil] at same
  obtain ⟨_, _, again, rfl, earlier, keeps⟩ :=
    follows_attributePath (fun _ _ => id) path (settledAll_append.mp settled).1 (.refl _)
  rw [printAll_append, same]
  exact ⟨trivial, attr, again ++ two, rfl,
    reads_attributeContent.mpr ⟨_, _, _, earlier, arguments, rfl, rfl⟩,
    plainAll_append.mpr ⟨keeps, plain⟩⟩

/-- What an attribute starts with. -/
def AttributeStart : Sight := fun x y => Head x y ∧ Fresh x ∧ atOperator "#" x = true

/-- An attribute may be written wherever a type, a pattern or a parameter starts. -/
theorem AttributeStart.leads {behind : Sight} {x y : List Tree} (start : AttributeStart x y) :
    Leads behind x y := by
  obtain ⟨head, fresh, mark⟩ := start
  have kind := (kind_of_mark rfl).mp mark
  refine ⟨head, fresh, head.generics ?_, fun opens => ?_⟩
  · rw [kind]
    decide
  · rw [kind] at opens
    cases opens

/-- An attribute begins with `#` and brackets. -/
theorem follows_outerAttribute {behind : Sight} :
    Again g.outerAttribute AttributeStart behind := by
  refine Follows.bind (fun _ => Grouped .bracket (fun _ _ => True) behind)
    ((Follows.operator "#").starting fun x y marked => ?_) fun _ =>
      (within_attributeContent false).group
  have head : Head x y :=
    marked.head [] rfl (fun _ _ grouped => grouped.head) fun x _ _ => .of_free (by decide) x
  have leads : Leads AtEnd x y := marked.leads head rfl (by decide)
  exact ⟨head, leads.fresh, marked.written⟩

/-- The attributes end where no `#` follows, in both or in neither. -/
theorem follows_outerAttributes {before behind : Sight}
    (weak : ∀ x y, behind x y → atOperator "#" x = atOperator "#" y)
    (begins : ∀ x y, AttributeStart x y ∨ behind x y → before x y) :
    Again g.outerAttributes before behind := by
  refine (Follows.many takes_outerAttribute (fun attr => ⟨attr, rfl⟩)
    follows_outerAttribute (fun x y found start => ⟨?_, begins x y (.inl start)⟩)
    fun x y absent ended => ⟨?_, begins x y (.inr ended)⟩).liking fun _ _ same => ?_
  · exact (Seen.mark rfl start.1).symm.trans found
  · exact (weak x y ended).symm.trans absent
  · rwa [List.forall₂_eq_eq_eq] at same

/-- Attributes before what leads. -/
theorem follows_leadingAttributes {behind : Sight} :
    Again g.outerAttributes (Leads behind) (Leads behind) :=
  follows_outerAttributes (fun _ _ leads => Seen.mark rfl leads.head) fun _ _ =>
    Or.rec AttributeStart.leads id

/-! ### Bound lifetimes -/

/-- Behind an angle bracket generic parameters are recognized in both. -/
theorem generics_of_params {joint printed : Bool} {x y : List Tree} (leads : Leads Head x y) :
    atGenerics (.punct '<' joint :: x) = atGenerics (.punct '<' printed :: y) := by
  have angle (joint : Bool) (trees : List Tree) :
    atOperator "<" (.punct '<' joint :: trees) = true := rfl
  unfold atGenerics
  simp only [angle, List.drop_succ_cons, List.drop_zero, Bool.true_and]
  rw [Seen.anyMark rfl leads.head, Seen.keyword _ leads.head, Seen.lifetime leads.head,
    Seen.ident leads.head]
  cases named : atLifetime y || atIdent y with
  | false => simp only [Bool.false_and]
  | true =>
      have opens : isOpen (headKind x) = true := by
        rw [leads.head.kind]
        exact (Bool.or_eq_true_iff.mp named).elim isOpen_of_lifetime isOpen_of_ident
      have third : Head (x.drop 1) (y.drop 1) := (leads.second opens).elim id id
      rw [Seen.anyMark rfl third, Seen.mark rfl third, Seen.firm rfl (by decide) third]

/-- `<>` is recognized in both, whatever stands behind it. -/
theorem generics_of_empty {behind : Sight} {joint printed : Bool} {x y : List Tree}
    (marked : Marked ">" behind x y) :
    atGenerics (.punct '<' joint :: x) = atGenerics (.punct '<' printed :: y) := by
  obtain ⟨_, _, _, rfl, rfl, _⟩ := marked
  rfl

/-- What may stand behind a lifetime that is bound and has its bounds. -/
def Limited : Sight := fun x y => Head x y ∧ headKind x ≠ some (.punct ':')

/-- What parts bound lifetimes. -/
def LifetimeEnd : Sight := fun x y => Head x y ∧ atAnyOperator [",", ">"] x = true

theorem LifetimeEnd.limited {x y : List Tree} (parted : LifetimeEnd x y) : Limited x y := by
  refine ⟨parted.1, ?_⟩
  rcases parting_iff.mp parted.2 with comma | angle
  · rw [(kind_of_mark rfl).mp comma]
    decide
  · rw [(kind_of_mark rfl).mp angle]
    decide

theorem LifetimeEnd.of_angle {behind : Sight} {x y : List Tree} (marked : Marked ">" behind x y) :
    LifetimeEnd x y :=
  ⟨marked.loose rfl rfl, parting_iff.mpr (.inr marked.written)⟩

/-- The lifetimes that a bound one outlives. -/
def lifetimeLimits : Reader Unit :=
  loop (fun (_ : Unit) => do
    if atLifetime (← ahead) then
      discard lifetime
      if ← operator? "+" then return .inl () else return .inr ()
    else return .inr ()) ()

theorem follows_lifetimeLimits : Again lifetimeLimits Limited LifetimeEnd := by
  refine Follows.loopSame ?_ (fun _ => Limited) (fun _ => ?_) ()
  · refine fun _ => Takes.second fun _ => .ite ?_ (.pure Bool.false_ne_true)
    exact Takes.second fun _ => takes_operator?_ite rfl (.pure Bool.false_ne_true)
  refine .chooseSeen .lifetime (fun _ _ => And.left) (Follows.always ?_)
    (Follows.always ((Follows.pure rfl).starting fun _ _ => LifetimeEnd.limited))
  refine Follows.bind (fun _ => Head) (copies_lifetime.follows fun name x y ahead => ?_).dropped
    fun _ => ?_
  · obtain ⟨_, rest, other, rfl, rfl, rfl, _⟩ := ahead
    exact ⟨Head.of_quiet rfl rfl, fun colon => by cases colon⟩
  · refine .operatorIf "+" Limited LifetimeEnd (.pure rfl) (.pure rfl)
      (fun x y marked => marked.loose rfl rfl) fun x y absent parted => ?_
    exact ⟨(Seen.mark rfl parted.1).symm.trans absent, parted.1⟩

/-- A bound lifetime, with its attributes and its bounds. -/
def boundLifetime (g : Grammar) : Reader Unit := do
  discard g.outerAttributes
  discard lifetime
  if ← operator? ":" then discard lifetimeLimits

theorem follows_boundLifetime : Again g.boundLifetime (Leads Head) LifetimeEnd := by
  refine follows_leadingAttributes.dropped.bind _ fun _ =>
    Follows.bind (fun _ => Head) (Again.lifetime fun _ _ => .inl).dropped fun _ => ?_
  refine .operatorIf ":" Limited LifetimeEnd follows_lifetimeLimits.dropped (.pure rfl)
    (fun x y marked => ?_) fun x y absent parted => ?_
  · exact marked.head [] rfl (fun _ _ => And.left) fun _ _ behind => .colon behind.2
  · exact ⟨(Seen.mark rfl parted.1).symm.trans absent, parted.1⟩

/-- `for <'a, 'b: 'c>` is read again, and its absence as well. -/
theorem follows_boundLifetimes {starts : Sight} {ends : Bool → Sight}
    (holds : ∀ x y, Ahead (· = name "for") (fun x y => atGenerics x = atGenerics y) x y →
      starts x y)
    (fails : ∀ x y, atKeyword "for" x = false → ends false x y →
      atKeyword "for" y = false ∧ starts x y) :
    Follows g.boundLifetimes g.boundLifetimes Eq starts ends := by
  refine .keywordIf "for" (Marked "<" fun x y => Leads Head x y ∨ Marked ">" (ends true) x y)
    (ends false) ?_ (.pure rfl) (fun x y led => holds x y ?_) fails
  · refine (Follows.operator "<").bind _ fun _ =>
      Follows.bind (fun _ => Marked ">" (ends true)) ?_ fun _ =>
        (Follows.operator ">").bind _ fun _ => .pure rfl
    exact Follows.dropped (follows_untilAngle LifetimeEnd (fun _ => ⟨(), rfl⟩)
      follows_boundLifetime (fun _ _ leads => leads.head)
      (fun _ _ marked => ⟨marked.written, marked.holds⟩)
      (fun _ _ marked => ⟨marked.comma.toHead, parting_iff.mpr (.inl marked.written)⟩)
      fun _ _ => LifetimeEnd.of_angle)
  · obtain ⟨tree, rest, other, same, rfl, rfl, _, x, y, rfl, rfl, leads | marked⟩ := led
    · exact ⟨tree, _, _, same, rfl, rfl, generics_of_params leads⟩
    · exact ⟨tree, _, _, same, rfl, rfl, generics_of_empty marked⟩

/-- Lifetimes are bound before what leads. -/
theorem follows_leadingLifetimes {behind : Sight} :
    Again g.boundLifetimes (Leads behind) (Leads behind) :=
  follows_boundLifetimes (fun _ _ ahead => ahead.leads_closed (by rintro _ rfl; decide))
    fun _ _ absent leads => ⟨(Seen.keyword _ leads.head).symm.trans absent, leads⟩

/-! ### Bounds -/

theorem follows_returnType (own : g.Repeats) (plus : Bool) {behind : Sight}
    (weak : ∀ x y, behind x y → Beyond x y) :
    Again (g.returnType plus) (fun _ _ => True) behind :=
  .operatorIf "->" _ _ ((own.type plus weak).dropped.bind _ fun _ => .pure rfl) (.pure rfl)
    (fun _ _ _ => trivial) fun x y absent ended =>
      ⟨(weak x y ended).firm rfl (by decide) rfl absent, trivial⟩

theorem follows_typeList (own : g.Repeats) {delimiter : Delimiter} {behind : Sight} :
    Again (discard (group delimiter (commaSeparated (g.type true))))
      (Grouped delimiter (fun _ _ => True) behind) behind :=
  .list (own.type true fun _ _ ended => .inl (Divided.toHead ended)) fun _ _ leads => leads.head

theorem follows_parenthesizedArguments (own : g.Repeats) {behind : Sight}
    (weak : ∀ x y, behind x y → Beyond x y) :
    Again g.parenthesizedArguments (Grouped .paren (fun _ _ => True) fun _ _ => True) behind :=
  (follows_typeList own).bind _ fun _ => (follows_returnType own false weak).dropped

/-- Arguments in parentheses, possibly after `::`. -/
def Parens (x y : List Tree) : Prop :=
  Marked "::" (Grouped .paren (fun _ _ => True) fun _ _ => True) x y ∨
    Grouped .paren (fun _ _ => True) (fun _ _ => True) x y

theorem Parens.head {x y : List Tree} (parens : Parens x y) : Head x y := by
  have alike (x y : List Tree) (grouped : Grouped .paren (fun _ _ => True) (fun _ _ => True) x y) :
    Head x y :=
    grouped.head
  refine parens.elim (fun marked => ?_) (alike x y)
  refine marked.head [':'] rfl alike fun x y grouped => .colon ?_
  obtain ⟨content, _, rest, _, rfl, _⟩ := grouped
  exact fun colon => by cases colon

theorem seen_parenthesized : Seen atParenthesized := (Seen.group _).or (.beyondColons (.group _))

/-- No parentheses come to stand behind a path that had none. -/
theorem parenthesized_of_beyond {x y : List Tree} (beyond : Beyond x y)
    (absent : atParenthesized x = false) : atParenthesized y = false := by
  refine beyond.fails seen_parenthesized (fun trees found => ?_) absent
  rcases Bool.or_eq_true_iff.mp found with group | colons
  · rw [atGroup_eq, beq_iff_eq] at group
    rw [group]
    exact .inr ⟨fun colon => (by cases colon), rfl⟩
  · exact .inl (Bool.and_eq_true_iff.mp colons).1

/-- A path without arguments may have some in parentheses. -/
theorem follows_ifParens {behind : Sight} {α β : Type} {yes no : Reader α} {yes' no' : Reader β}
    {like : α → β → Prop} {ends : α → Sight} (applied : Bool)
    (weak : ∀ x y, behind x y → Beyond x y) (first : Follows yes yes' like Parens ends)
    (second : Follows no no' like behind ends) :
    Follows (ahead >>= fun trees => if (!applied && atParenthesized trees) = true then yes else no)
      (ahead >>= fun trees => if (!applied && atParenthesized trees) = true then yes' else no')
      like (Wide behind) ends := by
  refine .choose Parens behind first.always second.always
    (fun x y found parens => ?_) fun x y absent ended => ⟨?_, .inr ended⟩
  · exact ⟨((Seen.const _).and seen_parenthesized parens.head).symm.trans found, .inl parens.head⟩
  · cases applied with
    | true => rfl
    | false => exact parenthesized_of_beyond (weak x y ended) absent

theorem follows_parensColons :
    Again (discard (operator? "::")) Parens (Grouped .paren (fun _ _ => True) fun _ _ => True) := by
  refine Follows.dropped (Follows.operator? "::" (fun _ _ => .inl) fun x y absent grouped => ?_)
  have head : Head x y := grouped.head
  exact ⟨(Seen.firm rfl (by decide) head).symm.trans absent, .inr grouped⟩

/-- A trait as a bound, after what modifies it. -/
def traitBound (g : Grammar) : Reader Unit := do
  let bound ← g.boundLifetimes
  if ← operator? "~" then keyword "const"
  if (← operator? "?") && !bound then discard g.boundLifetimes
  let found ← g.path false
  if !found.applied && atParenthesized (← ahead) then
    discard (operator? "::")
    g.parenthesizedArguments

theorem follows_traitBound (own : g.Repeats) {behind : Sight}
    (weak : ∀ x y, behind x y → Beyond x y) : Again g.traitBound (Leads behind) behind := by
  have tilde : Begins "~" '~' := ⟨rfl, by decide⟩
  have question : Begins "?" '?' := ⟨rfl, by decide⟩
  refine follows_leadingLifetimes.bind _ fun bound =>
    (Again.operator? tilde).bind _ fun modified => ?_
  refine .sometimes (Leads behind) (fun _ => .closed (by decide)) (fun _ _ _ => id) ?_
  refine (Again.operator? question).bind _ fun optional => ?_
  refine .sometimes (Leads behind) (fun _ => follows_leadingLifetimes.dropped)
    (fun _ _ _ => id) ?_
  refine Follows.bind (fun _ => Wide behind) ?_ fun found => ?_
  · exact (own.path false fun x y => Or.rec .inl (weak x y)).starting fun x y leads =>
      leads.imp fun x y => id
  · exact follows_ifParens found.applied weak
      (follows_parensColons.bind _ fun _ => follows_parenthesizedArguments own weak) (.pure rfl)

/-- The names that `use<..>` captures. -/
theorem follows_captured {behind : Sight} :
    Again
      (discard (untilAngle (do if atLifetime (← ahead) then discard lifetime else discard word)))
      (fun x y => Head x y ∨ Marked ">" behind x y) (Marked ">" behind) := by
  refine Follows.dropped (follows_untilAngle Head (fun _ => ⟨(), rfl⟩) ?_ (fun _ _ => id)
    (fun _ _ marked => ⟨marked.written, marked.holds⟩)
    (fun _ _ marked => marked.comma.toHead) fun _ _ marked => marked.loose rfl rfl)
  refine .chooseSeen .lifetime (fun _ _ => id) (Follows.always ?_) (Follows.always ?_)
  · refine (copies_lifetime.follows fun name x y ahead => ?_).dropped
    exact ahead.head (by rintro _ rfl; rfl)
  · refine (copies_word.follows fun name x y ahead => ?_).dropped
    exact ahead.head (by rintro _ rfl; rfl)

/-- A bound is a lifetime, `use<..>`, a trait in parentheses or a trait with its modifiers. -/
theorem follows_bound (own : g.Repeats) {behind : Sight} (weak : ∀ x y, behind x y → Beyond x y) :
    Again g.bound (Leads behind) behind := by
  have heads : ∀ x y, Leads behind x y → Head x y := fun _ _ leads => leads.head
  refine .chooseSeen .lifetime heads (Follows.always ?_)
    (.chooseSeen (.keyword _) heads (Follows.always ?_)
      (.chooseSeen (.group _) heads (Follows.always ?_) (follows_traitBound own weak).always))
  · exact (Again.lifetime fun _ _ => .inr).dropped
  · exact Follows.bind _ (Again.closed (by decide)) fun _ => (Follows.operator "<").bind _ fun _ =>
      follows_captured.bind _ fun _ => Follows.operator ">"
  · refine (Follows.group (follows_traitBound own fun _ _ ended => ?_)).starting
      fun _ _ grouped => grouped.leads
    exact .inl (Head.at_end ended)

theorem seen_bound : Seen atBound := by
  have marks : Seen (atAnyOperator ["::", "?"]) := Seen.any fun text member => by
    simp only [List.mem_cons, List.not_mem_nil, or_false] at member
    rcases member with rfl | rfl
    · exact Seen.firm rfl (by decide)
    · exact Seen.mark rfl
  exact ((Seen.word.or marks).or .lifetime).or (.group _)

/-- No bound comes to stand where the bounds ended: `::` alone could start one, and it is among what
`Beyond` keeps away. -/
theorem bound_of_beyond {x y : List Tree} (beyond : Beyond x y) (absent : atBound x = false) :
    atBound y = false := by
  refine beyond.fails seen_bound (fun trees found => ?_) absent
  rcases trees with _ | ⟨head, rest⟩
  · cases found
  cases head with
  | punct mark joint =>
      have marks : atOperator "::" (.punct mark joint :: rest) = true ∨ mark = '?' := by
        simpa [atBound, atWord, atAnyOperator, atLifetime, atGroup, atOperator,
          startsMarks] using found
      refine marks.imp_right fun same => ⟨fun colon => ?_, ?_⟩
      · subst same
        cases colon
      · subst same
        rfl
  | literal text => cases found
  | group delimiter content =>
      obtain rfl : delimiter = .paren := by
        simpa [atBound, atWord, atAnyOperator, atLifetime, atGroup, atOperator,
          startsMarks] using found
      exact .inr ⟨fun colon => (by cases colon), rfl⟩
  | ident name => exact .inr ⟨fun colon => (by cases colon), rfl⟩
  | lifetime name => exact .inr ⟨fun colon => (by cases colon), rfl⟩

/-- A `+` before a further bound or before what follows the bounds. -/
theorem head_of_plus {before : Sight} {x y : List Tree} (marked : Marked "+" before x y) :
    Head x y :=
  marked.loose rfl rfl

/-- Bounds end where no `+` follows, or where no bound follows it. -/
theorem follows_bounds (own : g.Repeats) (plus : Bool) {behind : Sight}
    (weak : ∀ x y, behind x y → Beyond x y) :
    Again (g.bounds plus) (Leads behind) behind := by
  -- Another bound or what follows the bounds, behind a plus sign.
  let further : Sight := fun x y => Leads behind x y ∨ behind x y
  have wide (x y : List Tree) : further x y → Wide behind x y :=
    Or.rec (fun leads => .inl leads.head) .inr
  refine Follows.loopSame ?_ (fun _ => Leads behind) (fun _ => ?_) ()
  · intro _
    refine Takes.second fun _ => Takes.second fun _ => .ite ?_ (.pure Bool.false_ne_true)
    exact (takes_operator rfl).first
  refine Follows.bind (fun _ => Wide behind) ?_ fun _ => ?_
  · exact (follows_bound own fun x y => Or.rec .inl (weak x y)).starting fun x y leads =>
      leads.imp fun x y => id
  refine .choose (Marked "+" further) behind (Follows.always ?_)
    (Follows.always (.pure rfl)) (fun x y found marked => ?_) fun x y absent ended => ?_
  · refine (Follows.operator "+").bind _ fun _ => .choose (Leads behind)
      behind (Follows.always (.pure rfl)) (Follows.always (.pure rfl)) (fun x y found leads => ?_)
      fun x y absent ended => ⟨bound_of_beyond (weak x y ended) absent, .inr ended⟩
    exact ⟨(seen_bound leads.head).symm.trans found, .inl leads⟩
  · refine ⟨?_, .inl (head_of_plus marked)⟩
    rw [marked.holds, Bool.and_true]
    exact (Bool.and_eq_true_iff.mp found).1
  · refine ⟨?_, .inr ended⟩
    cases plus with
    | false => rfl
    | true => exact (weak x y ended).mark rfl rfl absent

/-- Bounds before a mark may be none at all, and may end with a `+`. -/
theorem follows_boundsUntil (own : g.Repeats) {stop : List Tree → Bool} {behind : Sight}
    (seen : Seen stop) (weak : ∀ x y, behind x y → Beyond x y)
    (stops : ∀ x y, behind x y → stop x = true → stop y = true) :
    Again (g.boundsUntil stop) (fun x y => Leads behind x y ∨ behind x y) behind := by
  let before : Sight := fun x y => Leads behind x y ∨ behind x y
  have wide (x y : List Tree) : before x y → Wide behind x y :=
    Or.rec (fun leads => .inl leads.head) .inr
  refine Follows.loopSame ?_ (fun _ => before) (fun count => ?_) 0
  · refine fun count => Takes.second fun _ => .ite (.pure Bool.false_ne_true)
      (Takes.second fun _ => ?_)
    exact takes_operator?_ite rfl (.pure Bool.false_ne_true)
  refine .choose behind (Leads behind) (Follows.always (.pure rfl))
    (Follows.always ?_) (fun x y found ended => ⟨stops x y ended found, .inr ended⟩)
    fun x y absent leads => ⟨(seen leads.head).symm.trans absent, .inl leads⟩
  refine Follows.bind (fun _ => Wide behind) ?_ fun _ => ?_
  · exact (follows_bound own fun x y => Or.rec .inl (weak x y)).starting fun x y leads =>
      leads.imp fun x y => id
  refine .operatorIf "+" before behind (.pure rfl) (.pure rfl)
    (fun x y marked => .inl (head_of_plus marked))
    fun x y absent ended => ⟨(weak x y ended).mark rfl rfl absent, .inr ended⟩

/-- The bounds behind the first one of a type, each behind its `+`. -/
theorem follows_furtherBounds (own : g.Repeats) {behind : Sight}
    (weak : ∀ x y, behind x y → Beyond x y) :
    Again g.furtherBounds (Wide behind) behind := by
  have wider (x y : List Tree) : Wide behind x y → Beyond x y := Or.rec .inl (weak x y)
  let further : Sight := fun x y => Leads (Wide behind) x y ∨ behind x y
  have wide (x y : List Tree) : further x y → Wide behind x y :=
    Or.rec (fun leads => .inl leads.head) .inr
  refine Follows.loopSame ?_ (fun _ => Wide behind) (fun _ => ?_) ()
  · exact fun _ => takes_operator?_ite rfl (.pure Bool.false_ne_true)
  refine .operatorIf "+" further behind ?_ (.pure rfl)
    (fun x y marked => .inl (head_of_plus marked))
    fun x y absent ended => ⟨(weak x y ended).mark rfl rfl absent, .inr ended⟩
  refine .choose (Leads (Wide behind)) behind (Follows.always ?_) (Follows.always (.pure rfl))
    (fun x y found leads => ⟨(seen_bound leads.head).symm.trans found, .inl leads⟩)
    fun x y absent ended => ⟨bound_of_beyond (weak x y ended) absent, .inr ended⟩
  exact (follows_bound own wider).bind _ fun _ => .pure rfl

/-! ### Generic arguments -/

/-- A literal, with a minus sign if the test says so. -/
def LiteralStart (behind : Sight) : Sight := fun x y =>
  Marked "-" (Ahead (fun _ => True) behind) x y ∨
    atOperator "-" x = false ∧ Ahead (fun _ => True) behind x y

/-- What begins as a literal is told apart like any other argument: a minus sign, the text of a
literal or one of the words `true` and `false`. -/
theorem LiteralStart.leads {behind after : Sight} {x y : List Tree}
    (start : LiteralStart behind x y) (found : atLiteral x = true) : Leads after x y := by
  rcases start with marked | ⟨plain, tree, rest, other, _, rfl, rfl, _⟩
  · refine marked.leads ?_ rfl (by decide)
    obtain ⟨joint, _, _, rfl, rfl, tree, rest, other, _, rfl, rfl, _⟩ := marked
    cases tree with
    | literal text =>
        exact head_spelled [] (fun next _ => (by simp [Tree.kind])) fun _ => rfl
    | _ => cases found
  · have open? : isQuiet (some tree.kind) = true ∧ isOpen (some tree.kind) = false := by
      cases tree with
      | literal text => exact ⟨rfl, rfl⟩
      | ident name =>
          refine ⟨rfl, ?_⟩
          have named : name = ⟨false, "true"⟩ ∨ name = ⟨false, "false"⟩ := by
            simpa [atLiteral] using found
          rcases named with rfl | rfl <;> decide
      | punct mark joint =>
          have minus : mark ≠ '-' := by simpa [atOperator, startsMarks] using plain
          simp [atLiteral, minus] at found
      | _ => cases found
    have ahead : Ahead (· = tree) behind (tree :: rest) (tree :: other) :=
      ⟨tree, rest, other, rfl, rfl, rfl, ‹_›⟩
    exact ahead.leads_closed (by rintro _ rfl; exact open?)

/-- A literal is read again as the tree it is. -/
theorem follows_literal {α β : Type} {behind : Sight} {one : Reader α} {two : Reader β}
    {like : α → β → Prop} {ends : α → Sight}
    (rest : Follows one two like (Ahead (fun _ => True) behind) ends) :
    Follows
      (ahead >>= fun trees => if atOperator "-" trees then operator "-" >>= fun _ => one else one)
      (ahead >>= fun trees => if atOperator "-" trees then operator "-" >>= fun _ => two else two)
      like (LiteralStart behind) ends := by
  refine .choose (Marked "-" (Ahead (fun _ => True) behind)) (Ahead (fun _ => True) behind)
    (Follows.always ((Follows.operator "-").bind _ fun _ => rest))
    rest.always (fun x y _ marked => ⟨marked.holds, .inl marked⟩) fun x y absent ahead =>
      ⟨?_, .inr ⟨absent, ahead⟩⟩
  obtain ⟨tree, rest, other, _, rfl, rfl, _⟩ := ahead
  rw [atOperator, show "-".toList = ['-'] from rfl, startsMarks_single] at absent ⊢
  exact absent

theorem follows_tree {behind : Sight} :
    Again tree (Ahead (fun _ => True) behind) behind := by
  refine copies_tree.follows ?_
  rintro _ _ _ ⟨tree, rest, other, _, rfl, rfl, relation⟩
  exact ⟨tree, rest, other, trivial, rfl, rfl, relation⟩

/-- The arguments of a macro. -/
def Arguments (behind : Sight) : Sight :=
  Ahead (fun tree => ∃ delimiter content, tree = .group delimiter content) behind

theorem follows_anyGroup (what : String) {behind : Sight} :
    Again (anyGroup what) (Arguments behind) behind := by
  refine (copies_anyGroup what).follows ?_
  rintro value _ _ ⟨tree, rest, other, same, led⟩
  exact ⟨tree, rest, other, ⟨_, _, same⟩, led⟩

/-- The exclamation mark of a macro. -/
theorem head_of_call {behind : Sight} {x y : List Tree}
    (marked : Marked "!" (Arguments behind) x y) : Head x y := by
  refine marked.head [] rfl (fun x y ahead => ?_) fun x y ahead next _ kind => ?_
  · exact ahead.head (by rintro _ ⟨_, _, rfl⟩; rfl)
  · obtain ⟨_, rest, _, ⟨_, _, rfl⟩, rfl, _⟩ := ahead
    cases kind

theorem follows_block {behind : Sight} :
    Again g.block (Grouped .brace (fun _ _ => True) behind) behind :=
  ((within_braces g.statements).group).starting fun _ _ ⟨_, _, _, _, x, y, _, led⟩ =>
    ⟨_, _, _, _, x, y, trivial, led⟩

/-- A constant argument is a literal, a name or a block. -/
theorem follows_constArgument {behind : Sight} :
    Again g.constArgument (Leads behind) behind := by
  refine .choose (LiteralStart behind) (Leads behind) (follows_literal follows_tree.dropped) ?_
    (fun x y found start => ?_) fun x y absent leads =>
      ⟨(Seen.literal leads.head).symm.trans absent, leads⟩
  · refine .chooseSeen .ident (fun _ _ leads => leads.head) (Follows.always ?_) (Follows.always ?_)
    · exact (Again.word fun _ _ => .inr).dropped
    · exact follows_block.starting fun _ _ grouped => grouped.leads
  · have leads : Leads behind x y := start.leads found
    exact ⟨(Seen.literal leads.head).symm.trans found, leads⟩

/-- Trees at which a generic argument is a constant. -/
theorem seen_constant : Seen fun trees => atLiteral trees || atGroup .brace trees :=
  .or .literal (.group _)

/-- Behind a single name a generic argument may give it a value or bounds. -/
def namedArgument (g : Grammar) : Reader Bool := do
  if ← operator? "=" then
    let trees ← ahead
    if atLiteral trees || atGroup .brace trees then g.constArgument
    else discard (g.type true)
  else if ← operator? ":" then
    discard <| g.boundsUntil (atAnyOperator [",", ">"])
  return false

theorem follows_namedArgument (own : g.Repeats) : Again g.namedArgument Beyond Parting := by
  let bounds : Sight := fun x y => Leads Parting x y ∨ Parting x y
  have value : Again g.constArgument (Leads Beyond) Parting :=
    follows_constArgument.starting fun _ _ leads => leads.imp fun _ _ parting => .inr parting.beyond
  have typed : Again (g.type true) (Leads Beyond) Parting :=
    (own.type true fun _ _ => Parting.beyond).starting fun _ _ leads =>
      leads.imp fun _ _ parting => .inr parting.beyond
  have colon (x y : List Tree) (marked : Marked ":" bounds x y) : Beyond x y :=
    .of_next (marked.colon fun _ _ => Or.rec (fun leads => leads.fresh.colon)
      fun parting colon => absurd colon (parting.other (by decide)))
  refine .operatorIf "=" (Leads Beyond) (fun x y => Marked ":" bounds x y ∨ Parting x y) ?_ ?_
    (fun x y marked => ?_) fun x y _ ended => ?_
  · refine .chooseSeen seen_constant (fun _ _ leads => leads.head)
      (Follows.always (value.bind _ fun _ => .pure rfl)) (Follows.always ?_)
    exact typed.dropped.bind _ fun _ => .pure rfl
  · refine .operatorIf ":" bounds Parting ?_ (.pure rfl)
      (fun _ _ => .inl) fun x y _ parting => ⟨?_, .inr parting⟩
    · exact Follows.bind _ (Follows.dropped (follows_boundsUntil own (.anyMark rfl)
        (fun _ _ => Parting.beyond) fun _ _ parting _ => parting.printed)) fun _ => .pure rfl
    · exact parting.without rfl (by decide)
  · exact .inl (marked.before [] rfl (by decide) fun _ _ leads => ⟨leads.head, leads.fresh⟩)
  · rcases ended with marked | parting
    · refine ⟨?_, colon x y marked⟩
      obtain ⟨_, _, _, _, rfl, _⟩ := marked
      rfl
    · exact ⟨parting.without rfl (by decide), parting.beyond⟩

/-- A lifetime is an argument where no `+` goes on with it as a type, in both. -/
theorem lifetimeArgument_same {x y : List Tree} (leads : Leads Beyond x y) :
    (atLifetime x && !atOperator "+" (x.drop 1)) =
      (atLifetime y && !atOperator "+" (y.drop 1)) := by
  rw [Seen.lifetime leads.head]
  cases found : atLifetime y with
  | false => rfl
  | true =>
      rw [← Seen.lifetime leads.head] at found
      have second : Beyond (x.drop 1) (y.drop 1) :=
        (leads.second (isOpen_of_lifetime found)).elim .inl id
      rw [second.mark_eq (show "+".toList = ['+'] from rfl) rfl]

/-- A generic argument is read again before a comma or the closing bracket, neither of which goes on
with it. -/
theorem follows_genericArgument (own : g.Repeats) :
    Again g.genericArgument (Leads Beyond) Parting := by
  refine .choose (Ahead (fun tree => ∃ name, tree = .lifetime name) Parting)
    (Leads Beyond) (Follows.always ?_) ?_ (fun x y found ahead => ?_)
    fun x y absent leads => ⟨(lifetimeArgument_same leads).symm.trans absent, leads⟩
  · refine Follows.bind (fun _ => Parting)
      (copies_lifetime.follows fun name x y ahead => ?_).dropped fun _ => .pure rfl
    obtain ⟨tree, rest, other, same, led⟩ := ahead
    exact ⟨tree, rest, other, ⟨name, same⟩, led⟩
  · refine .chooseSeen seen_constant (fun _ _ leads => leads.head) (Follows.always ?_)
      (Follows.always ?_)
    · exact (follows_constArgument.starting fun _ _ leads =>
        leads.imp fun _ _ parting => .inr parting.beyond).bind _ fun _ => .pure rfl
    refine Follows.bind (fun _ => Beyond) (own.type true fun _ _ => id) fun kind => ?_
    have plain : Again (pure false) Beyond Parting :=
      (Follows.pure rfl).starting fun _ _ => Parting.beyond
    rcases kind with ⟨last, _ | _, _ | _⟩ | _
    case path.false.true => exact follows_namedArgument own
    all_goals exact plain
  · have leads : Leads Beyond x y := ahead.leads (by rintro _ ⟨_, rfl⟩; rfl) fun _ _ parting =>
      .inr parting.beyond
    exact ⟨(lifetimeArgument_same leads).symm.trans found, leads⟩

/-- Behind an opening angle bracket no `=` stands. -/
def Opened : Sight := fun x _ => Clear '<' x

theorem head_of_angle {x y : List Tree} (marked : Marked "<" Opened x y) : Head x y := by
  obtain ⟨joint, rest, other, rfl, rfl, opened⟩ := marked
  exact head_spelled [] opened fun leading => absurd leading (by decide)

/-- Generic arguments, possibly after `::`. -/
def Angled (x y : List Tree) : Prop :=
  Marked "::" (Marked "<" Opened) x y ∨ Marked "<" Opened x y

theorem Angled.head {x y : List Tree} (angled : Angled x y) : Head x y := by
  refine angled.elim (fun marked => ?_) head_of_angle
  refine marked.head [':'] rfl (fun _ _ => head_of_angle) fun x y marked => .colon ?_
  obtain ⟨_, _, _, rfl, _⟩ := marked
  exact fun colon => by cases colon

/-- Lifetimes are printed before the other arguments, which is how these are read again. -/
theorem follows_angleArguments (own : g.Repeats) {behind : Sight} :
    Again g.angleArguments Angled behind := by
  have argument := (follows_genericArgument own).phrase
  have arguments := follows_ordered Phrase.kind
    (fun _ _ same => ⟨same.2.symm, same.1⟩) argument (fun _ _ leads => ⟨leads.head, leads.fresh⟩)
    (fun value found => readAgain_of_follows argument (fun _ _ leads => ⟨leads.head, leads.fresh⟩)
      (fun trees value taken rest read => ?_) found) fun x y (marked : Marked ">" behind x y) =>
        ⟨marked.written, marked.holds⟩
  · refine Follows.bind (fun _ => Marked "<" Opened)
      (Follows.dropped (Follows.operator? "::" (fun _ _ => .inl) fun x y absent marked => ?_))
      fun _ => (Follows.operator "<").bind _ fun _ =>
        arguments.dropped.bind _ fun _ => Follows.operator ">"
    exact ⟨(Seen.firm rfl (by decide) (head_of_angle marked)).symm.trans absent, .inr marked⟩
  · obtain ⟨rfl, _⟩ := reads_phrase.mp read
    rfl

/-! ### Paths -/

/-- The arguments of a segment, if it has any. -/
def segmentArguments (g : Grammar) (expression : Bool) (name : Ident) : Reader (Ident × Bool) := do
  let trees ← ahead
  if (!expression && atOperator "<" trees && !atOperator "<=" trees) ||
      (atOperator "::" trees && atOperator "<" (trees.drop 2)) then
    g.angleArguments
    return (name, true)
  else return (name, false)

/-- No `<` comes to stand behind a segment that has no arguments. -/
theorem follows_segmentArguments (own : g.Repeats) (expression : Bool) (name : Ident)
    {behind : Sight} (weak : ∀ x y, behind x y → Beyond x y) :
    Again (g.segmentArguments expression name) (Wide behind) behind := by
  have seen : Seen fun trees => (!expression && atOperator "<" trees && !atOperator "<=" trees) ||
      (atOperator "::" trees && atOperator "<" (trees.drop 2)) :=
    (((Seen.const _).and (.mark rfl)).and (.not (.firm rfl (by decide)))).or
      (.beyondColons (.mark rfl))
  refine .choose Angled behind (Follows.always ?_) (Follows.always (.pure rfl))
    (fun x y found angled => ⟨(seen angled.head).symm.trans found, .inl angled.head⟩)
    fun x y absent ended =>
      ⟨(weak x y ended).fails seen (fun trees found => ?_) absent, .inr ended⟩
  · exact (follows_angleArguments own).bind _ fun _ => .pure rfl
  · rcases Bool.or_eq_true_iff.mp found with angle | colons
    · simp only [Bool.and_eq_true, kind_of_mark (show "<".toList = ['<'] from rfl)] at angle
      rw [angle.1.2]
      exact .inr ⟨by decide, rfl⟩
    · exact .inl (Bool.and_eq_true_iff.mp colons).1

/-- A segment is a keyword of paths, or a name and its arguments. -/
theorem follows_pathSegment (own : g.Repeats) (expression : Bool) {behind : Sight}
    (weak : ∀ x y, behind x y → Beyond x y) :
    Again (g.pathSegment expression) (Named behind) behind := by
  refine .chooseSeen (.anyKeyword _) (fun _ _ named => named.leads.head) (Follows.always ?_)
    (.chooseSeen (.keyword _) (fun _ _ named => named.leads.head) (Follows.always ?_)
      (Follows.always ?_))
  · refine Follows.bind _ (copies_word.follows fun name x y ahead => ?_) fun name => .pure rfl
    exact Ahead.named ahead (fun _ same => ⟨_, same⟩) fun _ _ => .inr
  · refine Follows.bind _ (copies_word.follows fun name x y ahead => ?_) fun name =>
      follows_segmentArguments own expression name weak
    exact Ahead.named ahead (fun _ same => ⟨_, same⟩) fun _ _ => id
  · refine Follows.bind _ (copies_ident.follows fun name x y ahead => ?_) fun name =>
      follows_segmentArguments own expression name weak
    exact Ahead.named ahead (fun _ same => ⟨_, same.1⟩) fun _ _ => id

/-- The segments behind the first one. What follows the path goes on with no further segment: `::`
stands there in both or in neither (`Apart`). -/
theorem follows_pathRest (own : g.Repeats) (expression parens : Bool) (start : PathKind)
    {behind : Sight} (weak : ∀ x y, behind x y → Beyond x y) :
    Again (g.pathRest expression parens start) (Wide (Apart behind)) behind := by
  have wider (x y : List Tree) : Wide (Apart behind) x y → Beyond x y := Or.rec .inl fun apart =>
    weak x y apart.1
  have seen : Seen fun trees =>
      atOperator "::" trees && (parens || !atGroup .paren (trees.drop 2)) :=
    .beyondColons (.or (.const parens) (.not (.group .paren)))
  refine Follows.loopSame ?_ (fun _ => Wide (Apart behind)) (fun found => ?_) start
  · intro found
    refine Takes.second fun _ => .ite ?_ (.pure Bool.false_ne_true)
    exact (takes_operator rfl).first
  refine .choose (Marked "::" (Named (Wide (Apart behind)))) behind (Follows.always ?_)
    (Follows.always (.pure rfl)) (fun x y found marked => ?_) fun x y absent ended =>
      ⟨?_, .inr ⟨ended, ?_⟩⟩
  · exact (Follows.operator "::").bind _ fun _ =>
      Follows.bind (fun _ => Wide (Apart behind)) (follows_pathSegment own expression wider)
        fun segment => .pure rfl
  · have head := Marked.colons marked
    exact ⟨(seen head).symm.trans found, .inl head⟩
  · exact (weak x y ended).fails seen
      (fun trees found => .inl (Bool.and_eq_true_iff.mp found).1) absent
  · refine (weak x y ended).same_colons ?_
    cases parens with
    | true => rw [show atOperator "::" x = false by simpa using absent, Bool.false_and]
    | false => exact absent

/-- A path that no type in angle brackets stands before. -/
theorem follows_plainPath (own : g.Repeats) (expression : Bool) {behind : Sight}
    (weak : ∀ x y, behind x y → Beyond x y) :
    Again (g.plainPath expression) (Leads (Apart behind)) behind := by
  refine Follows.bind (fun _ => Named (Wide (Apart behind)))
    (Follows.operator? "::" (fun x y marked => ?_) fun x y absent named => ?_) fun rooted =>
      Follows.bind (fun _ => Wide (Apart behind))
        (follows_pathSegment own expression fun x y => Or.rec .inl fun apart => weak x y apart.1)
        fun segment => follows_pathRest own expression false _ weak
  · exact marked.leads (Marked.colons marked) rfl (by decide)
  · exact ⟨(Seen.firm rfl (by decide) named.leads.head).symm.trans absent,
      named.leads.imp fun _ _ => id⟩

/-- A path behind the type in angle brackets that it starts from. -/
def qualifiedRest (g : Grammar) (expression : Bool) : Reader PathKind := do
  operator ">"
  operator "::"
  let (ident, applied) ← g.pathSegment expression
  g.pathRest expression true
    { last := ident, segments := 1, rooted := false, qualified := true, arguments := applied,
      applied := applied }

/-- A path with or without a type in angle brackets before it, `<T as Trait>::Item`. -/
theorem follows_anyPath (own : g.Repeats) (expression : Bool) {behind : Sight}
    (weak : ∀ x y, behind x y → Beyond x y) :
    Again (g.anyPath expression) (Leads (Apart behind)) behind := by
  let closing : Sight := Marked ">" (Marked "::" (Named (Wide (Apart behind))))
  have head (x y : List Tree) (marked : closing x y) : Head x y := marked.loose rfl rfl
  have last : Again (g.qualifiedRest expression) closing behind :=
    (Follows.operator ">").bind _ fun _ => (Follows.operator "::").bind _ fun _ =>
      Follows.bind (fun _ => Wide (Apart behind))
        (follows_pathSegment own expression fun x y => Or.rec .inl fun apart => weak x y apart.1)
        fun segment => follows_pathRest own expression true _ weak
  refine .chooseSeen (.mark rfl) (fun _ _ leads => leads.head) (Follows.always ?_)
    (follows_plainPath own expression weak).always
  refine Follows.bind (fun _ => Leads Head) ((Follows.operator "<").starting fun x y marked => ?_)
    fun _ => Follows.bind (fun _ => Head) (own.type true fun _ _ => .inl).dropped fun _ => ?_
  · have alike : Head x y := marked.before [] rfl (by decide) fun _ _ leads =>
      ⟨leads.head, leads.fresh⟩
    obtain ⟨joint, rest, other, rfl, rfl, leads⟩ := marked
    refine ⟨alike, ⟨?_, ?_, ?_⟩, generics_of_params leads, fun opens => by cases opens⟩
    · exact fun other => by cases other
    · exact fun other => by cases other
    · exact fun other => by cases other
  · refine .keywordIf "as" (Leads closing) closing ?_ last (fun x y ahead => ?_)
      fun x y absent marked =>
        ⟨(Seen.keyword _ (head x y marked)).symm.trans absent, head x y marked⟩
    · exact (own.path false fun x y marked => .inl (head x y marked)).dropped.bind _ fun _ => last
    · exact ahead.head (by rintro _ rfl; rfl)

end Grammar
end Source
end Toolsmith
