import Mathlib
import Toolsmith.Proofs.Source.Locality

/-! # The grammar is local

An expression, a type or a pattern before a comma is read the same without the comma and what
follows it.
-/

namespace Toolsmith
namespace Source

open Reader

/-- The phrases outside of braces are local. -/
structure Grammar.IsLocal (g : Grammar) : Prop where
  path : ∀ {kept} expression, Local kept (g.path expression)
  expression : ∀ {kept} structs, Local kept (g.expression structs)
  operand : ∀ {kept} structs, Local kept (g.operand structs)
  operators : ∀ {kept} structs base left, Local kept (g.operators structs base left)
  type : ∀ {kept} plus, Local kept (g.type plus)
  pattern : ∀ {kept}, Local kept g.pattern

namespace Grammar

variable {g : Grammar} {kept : Nat}

theorem local_outerAttribute : Local kept g.outerAttribute :=
  (exact_operator _).local.bind fun _ => (takesOne_group _ _).exact.local

theorem local_outerAttributes : Local kept g.outerAttributes :=
  Local.many (.operator rfl) local_outerAttribute (takes_operator rfl).first

theorem local_block : Local kept g.block := (takesOne_group _ _).exact.local

theorem local_constArgument : Local kept g.constArgument := by
  refine .choose .literal (.choose (.operator rfl) ?_ ?_) (.choose .ident ?_ local_block.always)
  · exact ((exact_operator "-").local.bind fun _ => takesOne_tree.exact.local.discard).always
  · exact takesOne_tree.exact.local.discard.always
  · exact takesOne_word.exact.local.discard.always

theorem takes_operator?_ite {α : Type} {text : String} {yes no : Reader α} {stated : α → Prop}
    (marked : text.toList.isEmpty = false) (otherwise : Takes no stated) :
    Takes (operator? text >>= fun found => if found = true then yes else no) stated := by
  refine (Takes.operator? marked).bind fun found => ?_
  cases found with
  | true => exact .inl rfl
  | false => exact .inr otherwise

/-- Commas are seen inside angle brackets, where the closing one is still to come. -/
theorem local_untilAngle {α : Type} {reader : Reader α} (inner : Local (kept + 1) reader) :
    Local (kept + 1) (untilAngle reader) := by
  refine Local.map (Local.loop ?_ ?_ _) _
  · intro values
    refine Takes.second fun _ => .ite (.pure Bool.false_ne_true) ?_
    refine Takes.second fun _ => Takes.second fun _ => .ite (.pure Bool.false_ne_true) ?_
    exact (takes_operator rfl).first
  · intro values
    refine .choose (.operator rfl) (Local.pure _).always (Local.always ?_)
    refine inner.bind fun value => .choose (.operator rfl) (Local.pure _).always (Local.always ?_)
    exact (exact_operator ",").local.bind fun _ => .pure _

/-- A list in angle brackets is local when its elements are, short of its closing bracket. -/
theorem local_angle {α β : Type} {reader : Reader α} {rest : Reader β}
    (inner : Local (kept + 1) reader) (after : Local kept rest) (takes : Takes rest fun _ => True) :
    Local kept (do discard (untilAngle reader); rest) :=
  Local.bind_takes (local_untilAngle inner).discard (fun _ => after) fun _ => takes

theorem local_boundLifetimes : Local kept g.boundLifetimes := by
  refine (Local.keyword? "for").bind fun bound => .ite ?_ (.pure _)
  refine (exact_operator "<").local.bind fun _ => local_angle ?_ ?_ (takes_operator rfl).first
  · refine local_outerAttributes.discard.bind fun _ => ?_
    refine takesOne_lifetime.exact.local.discard.bind fun _ => ?_
    refine (Local.operator? rfl).bind fun colon => .ite (Local.discard ?_) (.pure _)
    refine Local.loop ?_ ?_ _
    · refine fun _ => Takes.second fun _ => .ite ?_ (.pure Bool.false_ne_true)
      exact Takes.second fun _ => takes_operator?_ite rfl (.pure Bool.false_ne_true)
    · refine fun _ => .choose .lifetime (Local.always ?_) (Local.pure _).always
      refine takesOne_lifetime.exact.local.discard.bind fun _ => ?_
      exact (Local.operator? rfl).bind fun plus => .ite (.pure _) (.pure _)
  · exact (exact_operator ">").local.bind fun _ => .pure _

theorem unseen_parenthesized : Unseen kept atParenthesized :=
  (Unseen.group _).or (.beyondColons (.group _))

theorem unseen_bound : Unseen kept atBound :=
  ((Unseen.word.or (.anyOperator rfl)).or .lifetime).or (.group _)

theorem local_abi : Local kept abi := by
  refine (Local.keyword? "extern").bind fun _ => .ite (Local.ahead ?_ fun trees => ?_) (.pure _)
  · exact .of_first (fun _ => rfl) (fun _ _ => rfl) fun head _ => by cases head <;> rfl
  · split
    · exact .sometimes takesOne_literalText.exact.local.discard (.pure _)
    · exact .pure _

/-- The index of a field is one tree, as its name is. -/
theorem local_memberName : Local kept memberName := by
  refine Local.ahead ?_ fun trees => ?_
  · exact .of_first (fun _ => rfl) (fun _ _ => rfl) fun head _ => by cases head <;> rfl
  · split
    · split
      · exact (takesOne_treeAs _).exact.local.discard.bind fun _ => .pure _
      · exact .missing _
    · exact Local.ident.discard.bind fun _ => .pure _

section Flat

variable (own : g.IsLocal)

include own

/-! ### Paths -/

theorem local_returnType (plus : Bool) : Local kept (g.returnType plus) := by
  refine (Local.operator? rfl).bind fun arrow => .ite ?_ (.pure _)
  exact (own.type plus).discard.bind fun _ => .pure _

theorem local_parenthesizedArguments : Local kept g.parenthesizedArguments := by
  refine (takesOne_group _ _).exact.local.discard.bind fun _ => ?_
  exact (local_returnType own false).discard

theorem local_bound : Local kept g.bound := by
  refine .choose .lifetime takesOne_lifetime.exact.local.discard.always ?_
  refine .choose (.keyword _) (Local.always ?_)
    (.choose (.group _) (Local.always ?_) (Local.always ?_))
  · refine (takesOne_keyword "use").exact.local.bind fun _ => ?_
    refine (exact_operator "<").local.bind fun _ => local_angle ?_ ?_ (takes_operator rfl)
    · refine .choose .lifetime takesOne_lifetime.exact.local.discard.always ?_
      exact takesOne_word.exact.local.discard.always
    · exact (exact_operator ">").local
  · exact (takesOne_group _ _).exact.local
  refine local_boundLifetimes.bind fun bound => ?_
  refine (Local.operator? rfl).bind fun _ => .sometimes (takesOne_keyword _).exact.local ?_
  refine (Local.operator? rfl).bind fun _ => .sometimes local_boundLifetimes.discard ?_
  refine (own.path false).bind fun found => ?_
  refine .choose (.and (.const _) unseen_parenthesized) (Local.always ?_) (Local.pure _).always
  exact (Local.operator? rfl).discard.bind fun _ => local_parenthesizedArguments own

theorem local_boundsUntil {stop : List Tree → Bool} (unseen : Unseen kept stop) :
    Local kept (g.boundsUntil stop) := by
  refine Local.loop ?_ ?_ _
  · intro count
    refine Takes.second fun _ => .ite (.pure Bool.false_ne_true) (Takes.second fun _ => ?_)
    exact takes_operator?_ite rfl (.pure Bool.false_ne_true)
  · refine fun count => .choose unseen (Local.pure _).always (Local.always ?_)
    refine (local_bound own).bind fun _ => ?_
    exact (Local.operator? rfl).bind fun plus => .ite (.pure _) (.pure _)

theorem local_bounds (plus : Bool) : Local kept (g.bounds plus) := by
  refine Local.loop ?_ ?_ _
  · intro _
    refine Takes.second fun _ => Takes.second fun _ => .ite ?_ (.pure Bool.false_ne_true)
    exact (takes_operator rfl).first
  · refine fun _ => (local_bound own).bind fun _ => ?_
    refine .choose (.and (.const _) (.operator rfl)) (Local.always ?_) (Local.pure _).always
    refine (exact_operator "+").local.bind fun _ => ?_
    exact .choose unseen_bound (Local.pure _).always (Local.pure _).always

/-- A generic argument may end in bounds, which end at a comma. -/
theorem local_genericArgument : Local (kept + 1) g.genericArgument := by
  refine .choose (.second rfl .lifetime (.not (.operator rfl))) (Local.always ?_) ?_
  · exact takesOne_lifetime.exact.local.discard.bind fun _ => .pure _
  refine .choose (.or .literal (.group _)) (Local.always ?_) (Local.always ?_)
  · exact local_constArgument.bind fun _ => .pure _
  refine (own.type true).bind fun kind => ?_
  split
  · refine (Local.operator? rfl).bind fun equals => .ite ?_ ?_
    · refine .choose (.or .literal (.group _)) (Local.always ?_) (Local.always ?_)
      · exact local_constArgument.bind fun _ => .pure _
      · exact (own.type true).discard.bind fun _ => .pure _
    · refine (Local.operator? rfl).bind fun colon => .ite ?_ (.pure _)
      refine (local_boundsUntil own ?_).discard.bind fun _ => .pure _
      exact .of_kept (fun _ _ => rfl) fun head _ => by cases head <;> rfl
  · exact .pure _

theorem local_angleArguments : Local kept g.angleArguments := by
  refine (Local.operator? rfl).discard.bind fun _ => (exact_operator "<").local.bind fun _ => ?_
  refine Local.bind_takes ?_ (fun _ => (exact_operator ">").local) fun _ => takes_operator rfl
  exact ((local_untilAngle (local_genericArgument own).phrase).printingAs _).discard

theorem local_pathSegment (expression : Bool) : Local kept (g.pathSegment expression) := by
  refine .choose (.anyKeyword _) (Local.always ?_) ?_
  · exact takesOne_word.exact.local.bind fun _ => .pure _
  refine .chooseFirst (.keyword _) takesOne_word.exact.local .ident fun ident => ?_
  refine .choose (.or ?_ (.beyondColons (.operator rfl))) (Local.always ?_) (Local.pure _).always
  · exact (Unseen.and (.const _) (.operator rfl)).and (.not (.operator rfl))
  · exact (local_angleArguments own).bind fun _ => .pure _

theorem local_pathRest (expression parens : Bool) (start : PathKind) :
    Local kept (g.pathRest expression parens start) := by
  refine Local.loop ?_ ?_ _
  · intro found
    refine Takes.second fun _ => .ite ?_ (.pure Bool.false_ne_true)
    exact (takes_operator rfl).first
  · refine fun found => .choose (.beyondColons (.or (.const _) (.not (.group _)))) (Local.always ?_)
      (Local.pure _).always
    refine (exact_operator "::").local.bind fun _ => ?_
    exact (local_pathSegment own expression).bind fun _ => .pure _

theorem local_plainPath (expression : Bool) : Local kept (g.plainPath expression) := by
  refine (Local.operator? rfl).bind fun rooted => ?_
  exact (local_pathSegment own expression).bind fun _ => local_pathRest own _ _ _

theorem local_anyPath (expression : Bool) : Local kept (g.anyPath expression) := by
  refine .choose (.operator rfl) (Local.always ?_) (local_plainPath own expression).always
  refine (exact_operator "<").local.bind fun _ => (own.type true).discard.bind fun _ => ?_
  refine (Local.keyword? "as").bind fun _ => .sometimes (own.path false).discard ?_
  refine (exact_operator ">").local.bind fun _ => (exact_operator "::").local.bind fun _ => ?_
  exact (local_pathSegment own expression).bind fun _ => local_pathRest own _ _ _

/-! ### Types -/

theorem local_functionType : Local kept g.functionType := by
  refine (Local.keyword? _).discard.bind fun _ => local_abi.discard.bind fun _ => ?_
  refine (takesOne_keyword _).exact.local.bind fun _ => ?_
  refine (takesOne_group _ _).exact.local.discard.bind fun _ => ?_
  exact (local_returnType own _).discard

theorem local_furtherBounds : Local kept g.furtherBounds := by
  refine Local.loop ?_ ?_ _
  · exact fun _ => takes_operator?_ite rfl (.pure Bool.false_ne_true)
  · refine fun _ => (Local.operator? rfl).bind fun _ => .ite ?_ (.pure _)
    exact .choose unseen_bound ((local_bound own).bind fun _ => .pure _).always
      (Local.pure _).always

theorem local_parenthesizedType (plus : Bool) : Local kept (g.parenthesizedType plus) := by
  refine (takesOne_group _ _).exact.local.bind fun _ => ?_
  exact .sometimes (local_furtherBounds own) (.pure _)

theorem local_pathType (plus bound : Bool) : Local kept (g.pathType plus bound) := by
  refine (local_anyPath own _).bind fun path => Local.ahead ?_ fun trees => ?_
  · intro front stop other alike left
    simp only [unseen_parenthesized alike left]
  refine .sometimesBoth (Local.operator? rfl).discard (local_parenthesizedArguments own) ?_
  refine .choose (.const _) (Local.pure _).always (.choose ?_ (Local.always ?_) ?_)
  · exact (((Unseen.operator rfl).and (.not (.operator rfl))).and (.const _)).and (.const _)
  · refine (exact_operator _).local.bind fun _ => ?_
    exact (takesOne_anyGroup _).exact.local.discard.bind fun _ => .pure _
  refine .choose (.or (.const _) (.and (.const _) (.operator rfl))) (Local.always ?_)
    (Local.pure _).always
  exact .sometimes (local_furtherBounds own) (.pure _)

/-- A type before a comma is read the same without it, if what it is made of is. -/
theorem local_typeProduction (plus : Bool) : Local kept (g.typeProduction plus) := by
  refine local_boundLifetimes.bind fun bound => ?_
  refine .choose (.and (.const _) (.not (.or .path (.anyKeyword _)))) (Local.missing _).always ?_
  refine .choose (.group _) (local_parenthesizedType own plus).always ?_
  refine .choose (.anyKeyword _) (Local.always ?_) ?_
  · exact (local_functionType own).bind fun _ => .pure _
  refine .choose (.or .path (.operator rfl)) (local_pathType own plus bound).always ?_
  refine .choose (.keyword _) (Local.always ?_) (.choose (.group _) (Local.always ?_) ?_)
  · refine (takesOne_keyword _).exact.local.bind fun _ =>
      (Local.operator? rfl).discard.bind fun _ => ?_
    exact (local_bounds own plus).bind fun _ => .pure _
  · exact (takesOne_group _ _).exact.local.bind fun _ => .pure _
  refine .choose (.operator rfl) (Local.always ?_) (.choose (.operator rfl) (Local.always ?_) ?_)
  · refine (exact_operator _).local.bind fun _ => ?_
    refine .chooseFirst (.keyword _) (takesOne_keyword _).exact.local
      (takesOne_keyword _).exact.local
      fun _ => ?_
    exact (own.type _).discard.bind fun _ => .pure _
  · refine (exact_operator _).local.bind fun _ => Local.lifetime?.discard.bind fun _ => ?_
    exact (Local.keyword? _).discard.bind fun _ => (own.type _).discard.bind fun _ => .pure _
  refine .choose (.and (.operator rfl) (.not (.operator rfl))) (Local.always ?_) ?_
  · exact (exact_operator _).local.bind fun _ => .pure _
  refine .choose (.keyword _) (Local.always ?_) (.choose (.keyword _) (Local.always ?_) ?_)
  · exact (takesOne_keyword _).exact.local.bind fun _ =>
      (local_bounds own plus).bind fun _ => .pure _
  · exact (takesOne_keyword _).exact.local.bind fun _ => .pure _
  refine .choose .lifetime (Local.always ?_) (Local.missing _).always
  exact (local_bounds own plus).bind fun _ => .pure _

/-! ### Patterns -/

theorem local_patternAlternatives : Local kept g.patternAlternatives := by
  refine (Local.operator? rfl).discard.bind fun _ => Local.loop ?_ ?_ _
  · intro _
    refine Takes.second fun _ => Takes.second fun _ => .ite ?_ (.pure Bool.false_ne_true)
    exact (takes_operator rfl).first
  · refine fun _ => own.pattern.bind fun _ => ?_
    refine .choose ?_ (Local.always ?_) (Local.pure _).always
    · exact (Unseen.and (.operator rfl) (.not (.operator rfl))).and (.not (.operator rfl))
    · exact (exact_operator _).local.bind fun _ => .pure _

omit own in
/-- A comma and the end of the trees both leave an end of a range open. -/
theorem unseen_rangeEnd : Unseen kept atRangeEnd := by
  have first : Unseen kept fun trees => trees.isEmpty || atAnyOperator ["|", "=", ",", ";"] trees :=
    .of_first (fun _ => rfl) (fun _ _ => rfl) fun head _ => by cases head <;> rfl
  exact (first.or (.and (.operator rfl) (.not (.operator rfl)))).or (.keyword _)

theorem local_rangeBound : Local kept g.rangeBound := by
  refine .choose unseen_rangeEnd (Local.pure _).always (.choose .literal ?_ ?_)
  · have literal : Local kept (do
        discard tree
        return true) := takesOne_tree.exact.local.discard.bind fun _ => .pure _
    exact .choose (.operator rfl) ((exact_operator "-").local.bind fun _ => literal).always
      literal.always
  refine .choose (.or .path (.operator rfl)) (Local.always ?_)
    (.choose (.keyword _) (Local.always ?_) ?_)
  · exact (local_anyPath own _).discard.bind fun _ => .pure _
  · exact (takesOne_keyword _).exact.local.bind fun _ => local_block.bind fun _ => .pure _
  · exact (Local.missing _).always

/-- A range of values before a comma is read the same without it, also with an open end. -/
theorem local_rangePattern : Local kept g.rangePattern := by
  refine Local.ahead ?_ fun trees => Local.ahead ?_ fun trees => ?_
  · intro front stop other alike left
    have closed : Unseen kept (atAnyOperator ["..=", "..."]) := .anyOperator rfl
    simp only [closed alike left]
  · intro front stop other alike left
    have closed : Unseen kept (atOperator "..=") := .operator rfl
    simp only [closed alike left]
  · refine (exact_operator _).local.bind fun _ => (local_rangeBound own).bind fun _ => ?_
    exact .ite (.missing _) (.pure _)

theorem local_pathPattern : Local kept g.pathPattern := by
  refine (local_anyPath own _).bind fun path => ?_
  refine .choose ?_ (Local.always ?_) ?_
  · exact ((Unseen.const _).and (.operator rfl)).and (.not (.operator rfl))
  · exact (exact_operator _).local.bind fun _ => (takesOne_anyGroup _).exact.local.discard
  refine .choose (.group _) (takesOne_group _ _).exact.local.discard.always ?_
  refine .choose (.group _) (takesOne_group _ _).exact.local.discard.always ?_
  exact .choose (.operator rfl) (local_rangePattern own).always (Local.pure _).always

/-- A pattern before a comma is read the same without it, if what it is made of is. -/
theorem local_patternProduction : Local kept g.patternProduction := by
  refine .choose ?_ (local_pathPattern own).always (.choose (.keyword _) (Local.always ?_) ?_)
  · refine Unseen.or (Unseen.or (Unseen.or ?_ ?_) (.anyOperator rfl)) (.anyKeyword _)
    · exact .second rfl .ident (((Unseen.anyOperator rfl).or (.group _)).or (.group _))
    · exact .second rfl (.keyword _) (.operator rfl)
  · exact (takesOne_keyword _).exact.local
  refine .choose (.keyword _) (Local.always ?_) (.choose ?_ (Local.always ?_) ?_)
  · exact (takesOne_keyword _).exact.local.bind fun _ => own.pattern
  · exact ((Unseen.operator rfl).or .literal).or (.keyword _)
  · refine (local_rangeBound own).discard.bind fun _ => ?_
    exact .choose (.operator rfl) (local_rangePattern own).always (Local.pure _).always
  refine .choose (.or (.anyKeyword _) .ident) (Local.always ?_) ?_
  · refine (Local.keyword? _).discard.bind fun _ => (Local.keyword? _).discard.bind fun _ => ?_
    refine .chooseFirst (.keyword _) (takesOne_keyword _).exact.local
      Local.ident.discard fun _ => ?_
    exact (Local.operator? rfl).bind fun _ => .ite own.pattern (.pure _)
  refine .choose (.operator rfl) (Local.always ?_) ?_
  · exact (exact_operator _).local.bind fun _ =>
      (Local.keyword? _).discard.bind fun _ => own.pattern
  refine .choose (.group _) (takesOne_group _ _).exact.local.discard.always ?_
  refine .choose (.group _) (takesOne_group _ _).exact.local.discard.always ?_
  refine .choose (.and (.operator rfl) (.not (.operator rfl))) (local_rangePattern own).always ?_
  exact (Local.missing _).always

/-! ### Expressions -/

omit own in
theorem unseen_binaryOperator : Unseen kept binaryOperator? := by
  intro front stop other alike left
  have plain : binaryOperators.all (isPlainOperator ·.1) = true := rfl
  rw [List.all_eq_true] at plain
  unfold binaryOperator?
  refine List.find?_congr fun operator member => ?_
  exact Unseen.operator (plain operator member) alike left

omit own in
theorem unseen_precedence : Unseen kept nextPrecedence := by
  intro front stop other alike left
  have equals : Unseen kept fun trees => atOperator "=" trees && !atOperator "=>" trees :=
    .and (.operator rfl) (.not (.operator rfl))
  have dots : Unseen kept (atOperator "..") := .operator rfl
  have cast : Unseen kept (atKeyword "as") := .keyword _
  unfold nextPrecedence
  simp only [unseen_binaryOperator alike left, equals alike left, dots alike left, cast alike left]

omit own in
/-- Whether an expression starts is seen without the comma: none starts with one. -/
theorem unseen_expression : Unseen kept atExpression := by
  unfold atExpression
  repeat' apply Unseen.or
  all_goals first
    | exact .word
    | exact .group _
    | exact .literal
    | exact .lifetime
    | exact .operator rfl
    | exact .and (.operator rfl) (.not (.operator rfl))
    | exact .and (.operator rfl) (.not (.anyOperator rfl))

omit own in
/-- A comma and the end of the trees both leave the end of a range open. -/
theorem unseen_openEnd (structs : Bool) : Unseen kept (atOpenEnd structs) := by
  have inside : Unseen 1 (atOpenEnd structs) := by
    refine Unseen.or (Unseen.or (Unseen.or (Unseen.or ?_ ?_) ?_) (.keyword _)) ?_
    · exact .of_kept (fun _ _ => rfl) fun _ _ => rfl
    · exact .and (.operator rfl) (.not (.operator rfl))
    · exact .and (.const _) (.group _)
    · exact .or (.of_kept (fun _ _ => rfl) fun head _ => by cases head <;> rfl) (.anyOperator rfl)
  have stopped {stop : List Tree} (stops : Stops stop) : atOpenEnd structs stop = true := by
    rcases stops with rfl | ⟨joint, rest, rfl⟩
    · rfl
    · cases structs <;> rfl
  intro front stop other alike _
  cases front with
  | nil =>
      cases alike with
      | stops one two => exact (stopped one).trans (stopped two).symm
      | groups => rfl
  | cons head rest => exact inside alike fun _ => Nat.succ_pos _

/-- The right side of an operator before a comma is read the same without it. -/
theorem local_rightSide (structs : Bool) (precedence : Nat) :
    Local kept (g.rightSide structs precedence) := by
  refine (own.operand structs).bind fun first => Local.loop ?_ ?_ _
  · intro kind trees rest value taken read goesOn
    rw [reads_ahead_bind] at read
    dsimp only at read
    split at read
    · obtain ⟨kind, _, _, between, operators, later, _⟩ := reads_bind.mp read
      rw [reads_ahead_bind] at later
      have shorter := operators.length_le
      split at later
      · obtain ⟨rfl, _⟩ := reads_pure.mp later
        cases goesOn
      · rename_i differs
        obtain ⟨_, _, rfl⟩ := reads_pure.mp later
        simp only [beq_iff_eq] at differs
        omega
    · obtain ⟨rfl, _⟩ := reads_pure.mp read
      cases goesOn
  · -- The number of trees left is compared with the number before: the stop adds to both.
    intro kind front stop other rest value taken alike left read
    have fits := left.trans read.length_before_stop
    rw [reads_ahead_bind] at read ⊢
    dsimp only at read ⊢
    rw [← unseen_precedence alike fun _ => fits]
    split at read
    · rename_i tight
      rw [if_pos tight]
      obtain ⟨kind, one, two, between, operators, later, rfl⟩ := reads_bind.mp read
      obtain rfl := later.before_stop
      have enough : kept ≤ (Piece.sourceAll two ++ rest).length := by
        rw [List.length_append]
        omega
      have same (end' : List Tree) :
          ((Piece.sourceAll two ++ rest ++ end').length == (front ++ end').length) =
            ((Piece.sourceAll two ++ rest).length == front.length) := by
        rw [Bool.eq_iff_iff, beq_iff_eq, beq_iff_eq]
        simp only [List.length_append, Nat.add_right_cancel_iff]
      rw [reads_ahead_bind, same stop] at later
      have onward := own.operators _ _ _ front alike enough operators
      refine reads_bind.mpr ⟨kind, one, two, _, onward, reads_ahead_bind.mpr ?_, rfl⟩
      rw [same other]
      exact Local.ite (.pure _) (.pure _) _ alike left later
    · rename_i loose
      rw [if_neg loose]
      exact Local.pure _ front alike left read

/-- The upper end of a range before a comma is read the same without it, also when it is missing. -/
theorem local_rangeTail (structs : Bool) : Local kept (g.rangeTail structs) := by
  have limits : Local kept rangeLimits := by
    refine .choose (.operator rfl) (Local.always ?_)
      (.choose (.operator rfl) (Local.missing _).always (Local.always ?_))
    · exact (exact_operator _).local.bind fun _ => .pure _
    · exact (exact_operator _).local.bind fun _ => .pure _
  refine limits.bind fun closed =>
    .choose (.or (.const _) (.not (unseen_openEnd _))) (Local.always ?_) (Local.pure _).always
  exact (local_rightSide own _ _).discard

omit own in
theorem local_checkCast : Local kept checkCast := by
  refine .choose ?_ (Local.fail _).always (Local.pure _).always
  refine Unseen.or (Unseen.or (Unseen.or ?_ (.operator rfl)) (.group _)) (.group _)
  exact .and (.operator rfl) (.not (.operator rfl))

omit own in
theorem takes_rangeTail (structs : Bool) {stated : Unit → Prop} :
    Takes (g.rangeTail structs) stated := by
  refine Takes.first (Takes.second fun _ => .ite (takes_operator rfl).first (.ite (.missing _) ?_))
  exact (takes_operator rfl).first

theorem local_operatorsProduction (structs : Bool) (base : Nat) (left : ExprKind) :
    Local kept (g.operatorsProduction structs base left) := by
  refine Local.loop ?_ ?_ _
  · refine fun kind => Takes.second fun trees => .ite (.pure Bool.false_ne_true) ?_
    split
    · rename_i text precedence found
      have marked : text.toList.isEmpty = false := by
        have plain : binaryOperators.all (!·.1.toList.isEmpty) = true := rfl
        rw [List.all_eq_true] at plain
        simpa using plain _ (List.mem_of_find?_eq_some found)
      exact .ite (.pure Bool.false_ne_true) (.ite (.fail _) (takes_operator marked).first)
    · refine .ite (takes_operator rfl).first (.ite (takes_rangeTail structs).first (.ite ?_ ?_))
      · exact (takesOne_keyword _).takes.first
      · exact .pure Bool.false_ne_true
  · refine fun kind => Local.ahead ?_ fun trees => .ite (.pure _) ?_
    · intro front stop other alike left
      have equals : Unseen kept (atOperator "=") := .operator rfl
      have arrow : Unseen kept (atOperator "=>") := .operator rfl
      have dots : Unseen kept (atOperator "..") := .operator rfl
      have cast : Unseen kept (atKeyword "as") := .keyword _
      simp only [unseen_binaryOperator alike left, equals alike left, arrow alike left,
        dots alike left, cast alike left]
    split
    · refine .ite (.pure _) (.ite (.fail _) ?_)
      exact (exact_operator _).local.bind fun _ =>
        (local_rightSide own _ _).discard.bind fun _ => .pure _
    · refine .ite ?_ (.ite ?_ (.ite ?_ (.pure _)))
      · exact (exact_operator _).local.bind fun _ =>
          (local_rightSide own _ _).discard.bind fun _ => .pure _
      · exact (local_rangeTail own _).bind fun _ => .pure _
      · refine (takesOne_keyword _).exact.local.bind fun _ => (own.type _).discard.bind fun _ => ?_
        exact local_checkCast.bind fun _ => .pure _

theorem local_expressionProduction (structs : Bool) : Local kept (g.expressionProduction structs) :=
  (own.operand structs).bind fun left => own.operators structs _ left

theorem local_conditional : Local kept g.conditional := by
  refine Local.loop ?_ ?_ _
  · exact fun _ => Takes.second fun _ => (takesOne_keyword _).takes.first
  · refine fun _ => local_outerAttributes.discard.bind fun _ => ?_
    refine (takesOne_keyword _).exact.local.bind fun _ =>
      (own.expression _).discard.bind fun _ => ?_
    refine local_block.bind fun _ => (Local.keyword? _).bind fun _ => .ite ?_ (.pure _)
    refine .choose (.keyword _) (Local.pure _).always
      (.choose (.group _) (Local.always ?_) (Local.missing _).always)
    exact local_block.bind fun _ => .pure _

omit own in
theorem local_attributedBlock : Local kept g.attributedBlock := (takesOne_group _ _).exact.local

theorem local_loopExpression : Local kept g.loopExpression := by
  refine .choose (.keyword _) (Local.always ?_)
    (.choose (.keyword _) (Local.always ?_) (Local.always ?_))
  · refine (takesOne_keyword _).exact.local.bind fun _ =>
      (own.expression _).discard.bind fun _ => ?_
    exact local_attributedBlock
  · refine (takesOne_keyword _).exact.local.bind fun _ =>
      (local_patternAlternatives own).bind fun _ => ?_
    refine (takesOne_keyword _).exact.local.bind fun _ =>
      (own.expression _).discard.bind fun _ => ?_
    exact local_attributedBlock
  · exact (takesOne_keyword _).exact.local.bind fun _ => local_attributedBlock

theorem local_labelled : Local kept g.labelled := by
  refine takesOne_lifetime.exact.local.discard.bind fun _ =>
    (exact_operator _).local.bind fun _ => ?_
  refine .choose (.anyKeyword _) (local_loopExpression own).always ?_
  exact .choose (.group _) local_attributedBlock.always (Local.missing _).always

theorem local_closureParameter : Local kept g.closureParameter := by
  refine local_outerAttributes.discard.bind fun _ => own.pattern.bind fun _ => ?_
  exact (Local.operator? rfl).bind fun _ => .ite (own.type _).discard (.pure _)

/-- The parameters of a closure are separated by commas, but a bar is still to come. -/
theorem local_closure (structs : Bool) : Local kept (g.closure structs) := by
  refine local_boundLifetimes.discard.bind fun _ => ?_
  refine (Local.forIn (fun text _ => (Local.keyword? text).discard.bind fun _ => .pure _) _ _).bind
    fun _ => ?_
  refine (exact_operator _).local.bind fun _ => ?_
  refine Local.bind_takes (Local.loop ?_ ?_ _) (fun _ => ?_) fun _ => (takes_operator rfl).first
  · refine fun _ => Takes.second fun _ => .ite (.pure Bool.false_ne_true) (Takes.second fun _ => ?_)
    exact Takes.second fun _ => .ite (.pure Bool.false_ne_true) (takes_operator rfl).first
  · refine fun _ => .choose (.operator rfl) (Local.pure _).always (Local.always ?_)
    refine (local_closureParameter own).bind fun _ =>
      .choose (.operator rfl) (Local.pure _).always (Local.always ?_)
    exact (exact_operator _).local.bind fun _ => .pure _
  · refine (exact_operator _).local.bind fun _ => (Local.operator? rfl).bind fun _ => .ite ?_ ?_
    · exact (own.type _).discard.bind fun _ => local_block
    · exact (own.expression _).discard

theorem local_pathExpression (structs : Bool) : Local kept (g.pathExpression structs) := by
  refine (local_anyPath own _).bind fun path => .choose ?_ (Local.always ?_) ?_
  · exact ((Unseen.const _).and (.operator rfl)).and (.not (.operator rfl))
  · refine (exact_operator _).local.bind fun _ => ?_
    exact (takesOne_anyGroup _).exact.local.bind fun _ => .pure _
  · refine .choose (.and (.const _) (.group _)) (Local.always ?_) (Local.pure _).always
    exact (takesOne_group _ _).exact.local.discard.bind fun _ => .pure _

theorem local_matchExpression : Local kept g.matchExpression := by
  refine (takesOne_keyword _).exact.local.bind fun _ => (own.expression _).discard.bind fun _ => ?_
  exact (takesOne_group _ _).exact.local

theorem local_optionalValue (structs : Bool) : Local kept (g.optionalValue structs) := by
  refine .choose ?_ (own.expression _).discard.always (Local.pure _).always
  exact unseen_expression.and ((Unseen.const _).or (.not (.group _)))

omit own in
/-- Lifetimes are bound by at least three trees. -/
theorem boundLifetimes_length {trees rest : List Tree} {value : Bool} {taken : List Piece}
    (read : g.boundLifetimes.Reads (name "for" :: trees) value taken rest) :
    rest.length + 2 ≤ trees.length := by
  obtain ⟨bound, one, _, between, found, inside, _⟩ := reads_bind.mp read
  have opened : bound = true ∧ between = trees := by
    obtain ⟨_, read⟩ := found
    cases read
    exact ⟨rfl, rfl⟩
  obtain ⟨rfl, rfl⟩ := opened
  obtain ⟨_, _, _, _, opening, inside, _⟩ := reads_bind.mp inside
  obtain ⟨_, _, _, _, elements, inside, _⟩ := reads_bind.mp inside
  obtain ⟨_, _, _, _, closing, inside, _⟩ := reads_bind.mp inside
  have first := Takes.shorter (takes_operator rfl) opening
  have second := Takes.shorter (takes_operator rfl) closing
  have between := elements.length_le
  have after := inside.length_le
  omega

omit own in
/-- Three trees from `for` on are no closure. -/
theorem closure_for {joint : Bool} {tail : Tree} {structs : Bool} {rest : List Tree} {value : Unit}
    {taken : List Piece} :
    ¬ (g.closure structs).Reads [name "for", .punct '<' joint, tail] value taken rest := by
  intro read
  obtain ⟨_, _, _, _, bound, read, _⟩ := reads_bind.mp read
  obtain ⟨_, lifetimes⟩ := reads_discard.mp bound
  obtain ⟨_, _, _, _, qualifiers, read, _⟩ := reads_bind.mp read
  obtain ⟨_, _, _, _, bar, _, _⟩ := reads_bind.mp read
  have few := boundLifetimes_length lifetimes
  have fewer := qualifiers.length_le
  have one := Takes.shorter (takes_operator rfl) bar
  simp only [List.length_cons, List.length_nil] at few
  omega

omit own in
/-- Three trees from `for` on are no loop. -/
theorem loop_for {joint : Bool} {tail : Tree} {rest : List Tree} {value : Unit}
    {taken : List Piece} :
    ¬ g.loopExpression.Reads [name "for", .punct '<' joint, tail] value taken rest := by
  intro read
  have read : (do
      keyword "for"
      g.patternAlternatives
      keyword "in"
      discard (g.expression false)
      g.attributedBlock).Reads [name "for", .punct '<' joint, tail] value taken rest := by
    simpa [loopExpression, reads_ahead_bind, atKeyword, name] using read
  obtain ⟨_, _, _, between, first, read, _⟩ := reads_bind.mp read
  have opened : between = [.punct '<' joint, tail] := by
    obtain ⟨_, read⟩ := first
    cases read
    rfl
  subst opened
  obtain ⟨_, pieces, _, others, pattern, read, _⟩ := reads_bind.mp read
  obtain ⟨_, _, _, _, second, read, _⟩ := reads_bind.mp read
  obtain ⟨_, _, _, _, expression, block, _⟩ := reads_bind.mp read
  -- The keyword and the block are two trees, so that the pattern has none.
  have whole : others = [.punct '<' joint, tail] := by
    have one := (takesOne_keyword _).takes.shorter second
    have two := expression.length_le
    have three := (takesOne_group _ _).takes.shorter block
    have conserved := pattern.conserved
    have empty : Piece.sourceAll pieces = [] := by
      have lengths := congrArg List.length conserved
      simp only [List.length_append, List.length_cons, List.length_nil] at lengths
      exact List.eq_nil_of_length_eq_zero (by omega)
    rw [empty] at conserved
    exact conserved
  subst whole
  obtain ⟨_, read⟩ := second
  cases read

omit own in
/-- Whether generic parameters start is seen in the first three trees. -/
theorem unseen_generics : Unseen 3 atGenerics := by
  have third : Unseen 1 fun trees => atAnyOperator [">", ",", "="] trees ||
      (atOperator ":" trees && !atOperator "::" trees) :=
    .or (.of_kept (fun _ _ => rfl) fun head _ => by cases head <;> rfl)
      (.and (.operator rfl) (.not (.operator rfl)))
  refine Unseen.and (.operator rfl) (.or (.or ?_ ?_) (.and (.or ?_ ?_) ?_))
  · exact .drop 1 (.anyOperator rfl)
  · exact .drop 1 (.keyword _)
  · exact .drop 1 .lifetime
  · exact .drop 1 .ident
  · exact .drop 2 third

omit own in
/-- Three trees from `for` on have no generic parameters after the `for`, unless the second is an
angle bracket. -/
theorem generics_three {first second third : Tree}
    (plain : ¬ ∃ joint tail, [first, second, third] = [name "for", .punct '<' joint, tail])
    (more : List Tree) :
    (atKeyword "for" (first :: second :: third :: more) &&
      atGenericsAfterKeyword (first :: second :: third :: more)) = false := by
  rw [Bool.eq_false_iff]
  intro both
  simp only [Bool.and_eq_true, atGenericsAfterKeyword, atGenerics, List.drop_succ_cons,
    List.drop_zero] at both
  obtain ⟨loop, angle, -⟩ := both
  refine plain ?_
  cases first with
  | ident given =>
      cases second with
      | punct mark joint =>
          have less : mark = '<' := by simpa [atOperator, startsMarks] using angle
          have word : given = ⟨false, "for"⟩ := by simpa [atKeyword] using loop
          exact ⟨joint, third, by rw [less, word]; rfl⟩
      | _ => cases angle
  | _ => cases loop

omit own in
/-- Whether generic parameters follow `for` is seen before a stop, unless that is a comma and the
fourth tree. -/
theorem generics_append {front stop other : List Tree} (alike : StopAlike stop other) :
    (atKeyword "for" (front ++ stop) && atGenericsAfterKeyword (front ++ stop)) =
        (atKeyword "for" (front ++ other) && atGenericsAfterKeyword (front ++ other)) ∨
      (∃ joint tail, front = [name "for", .punct '<' joint, tail]) ∧ Stops stop := by
  have whole : Unseen 4 fun trees => atKeyword "for" trees && atGenericsAfterKeyword trees :=
    .and (.keyword _) (.drop 1 unseen_generics)
  cases alike with
  | groups delimiter content changed rest =>
      refine .inl (whole (.groups delimiter content changed rest) fun stops => ?_)
      rcases stops with stops | ⟨_, _, stops⟩ <;> cases stops
  | stops one two =>
      have few {first : Tree} {stop : List Tree} (stops : Stops stop) :
          (atKeyword "for" (first :: stop) && atGenericsAfterKeyword (first :: stop)) = false := by
        rcases stops with rfl | ⟨joint, rest, rfl⟩ <;>
          simp [atGenericsAfterKeyword, atGenerics, atOperator, startsMarks]
      have more {first second : Tree} {stop : List Tree} (stops : Stops stop) :
          (atKeyword "for" (first :: second :: stop) &&
            atGenericsAfterKeyword (first :: second :: stop)) = false := by
        rcases stops with rfl | ⟨joint, rest, rfl⟩ <;>
          simp [atGenericsAfterKeyword, atGenerics, atAnyOperator, atOperator, startsMarks,
            atKeyword,            atLifetime, atIdent]
      rcases front with _ | ⟨first, _ | ⟨second, _ | ⟨third, _ | ⟨fourth, rest⟩⟩⟩⟩
      · refine .inl ?_
        rcases one with rfl | ⟨_, _, rfl⟩ <;> rcases two with rfl | ⟨_, _, rfl⟩ <;> rfl
      · exact .inl ((few one).trans (few two).symm)
      · exact .inl ((more one).trans (more two).symm)
      · by_cases odd : ∃ joint tail, [first, second, third] = [name "for", .punct '<' joint, tail]
        · exact .inr ⟨odd, one⟩
        · exact .inl ((generics_three odd _).trans (generics_three odd _).symm)
      · exact .inl (whole (.stops one two) fun _ => by simp)

/-- What an expression is made of is read the same without the comma behind it, if the expressions,
types and patterns in it are. -/
theorem local_atom (structs : Bool) : Local kept (g.atom structs) := by
  have moved : Unseen kept fun trees => atKeyword "async" trees &&
      (atGroup .brace (trees.drop 1) ||
        (atKeyword "move" (trees.drop 1) && atGroup .brace (trees.drop 2))) := by
    have later : Unseen 0 fun trees => atGroup .brace trees ||
        (atKeyword "move" trees && atGroup .brace (trees.drop 1)) :=
      .or (.group _) (.second rfl (.keyword _) (.group _))
    simpa only [List.drop_drop] using Unseen.second rfl (.keyword "async") later
  refine .choose .literal (Local.always ?_) (.choose moved (Local.always ?_) ?_)
  · refine takesOne_tree.exact.local.bind fun head => ?_
    split
    all_goals exact .pure _
  · refine (takesOne_keyword _).exact.local.bind fun _ =>
      (Local.keyword? _).discard.bind fun _ => ?_
    exact local_block.bind fun _ => .pure _
  refine .choose (.second rfl (.keyword _) (.group _)) (Local.always ?_) ?_
  · exact (takesOne_keyword _).exact.local.bind fun _ => local_block.bind fun _ => .pure _
  refine .choose_unless (fun trees => ∃ joint tail, trees = [name "for", .punct '<' joint, tail]) ?_
    (Local.always ?_) ?_ ?_ ?_
  · intro front stop other alike _
    have bar : Unseen 0 fun trees =>
        atOperator "|" trees || atAnyKeyword ["move", "static"] trees :=
      .or (.operator rfl) (.anyKeyword _)
    have constant : Unseen 0 fun trees =>
        atKeyword "const" trees && !atGroup .brace (trees.drop 1) :=
      .second rfl (.keyword _) (.not (.group _))
    have async : Unseen 0 fun trees => atKeyword "async" trees &&
        (atOperator "|" (trees.drop 1) || atKeyword "move" (trees.drop 1)) :=
      .second rfl (.keyword _) (.or (.operator rfl) (.keyword _))
    have none (_ : Stops stop) := front.length.zero_le
    simp only [bar alike none, constant alike none, async alike none]
    refine (generics_append alike).imp (fun same => ?_) id
    rw [same]
  · exact (local_closure own _).bind fun _ => .pure _
  · refine .choose (.second rfl (.keyword _) (.operator rfl)) (Local.always ?_) ?_
    · refine (takesOne_keyword _).exact.local.bind fun _ =>
        (exact_operator _).local.bind fun _ => ?_
      refine Local.ident.discard.bind fun _ => ?_
      exact (takesOne_group _ _).exact.local.discard.bind fun _ => .pure _
    refine .choose ?_ (local_pathExpression own _).always (.choose (.group _) (Local.always ?_) ?_)
    · exact (Unseen.path.or (.operator rfl)).or (.second rfl (.keyword _) (.anyOperator rfl))
    · exact (takesOne_group _ _).exact.local.discard.bind fun _ => .pure _
    refine .choose (.keyword _) (Local.always ?_) (.choose (.keyword _) (Local.always ?_) ?_)
    · refine (takesOne_keyword _).exact.local.bind fun _ => Local.ahead_ahead ?_
      have last : Local kept (do
          g.optionalValue structs
          return ExprKind.other) := (local_optionalValue own _).bind fun _ => .pure _
      refine .choose (.second rfl .lifetime (.not (.operator rfl))) (Local.always ?_) last.always
      exact takesOne_lifetime.exact.local.discard.bind fun _ => last
    · exact (takesOne_keyword _).exact.local.bind fun _ =>
        Local.lifetime?.discard.bind fun _ => .pure _
    refine .choose (.anyKeyword _) (Local.always ?_) (.choose (.group _) (Local.always ?_) ?_)
    · exact takesOne_word.exact.local.discard.bind fun _ =>
        (local_optionalValue own _).bind fun _ => .pure _
    · exact (takesOne_group _ _).exact.local.bind fun _ => .pure _
    refine .choose (.keyword _) (Local.always ?_) (.choose (.keyword _) (Local.always ?_) ?_)
    · refine (takesOne_keyword _).exact.local.bind fun _ =>
        (local_patternAlternatives own).bind fun _ => ?_
      refine (exact_operator _).local.bind fun _ => (own.operand _).bind fun left => ?_
      exact (own.operators _ _ _).discard.bind fun _ => .pure _
    · exact (local_conditional own).bind fun _ => .pure _
    refine .choose (.anyKeyword _) (Local.always ?_) (.choose (.keyword _) (Local.always ?_) ?_)
    · exact (local_loopExpression own).bind fun _ => .pure _
    · exact (local_matchExpression own).bind fun _ => .pure _
    refine .choose (.anyKeyword _) (Local.always ?_) (.choose (.group _) (Local.always ?_) ?_)
    · exact takesOne_word.exact.local.discard.bind fun _ =>
        local_attributedBlock.bind fun _ => .pure _
    · exact local_attributedBlock.bind fun _ => .pure _
    refine .choose (.operator rfl) (Local.always ?_) (.choose (.keyword _) (Local.always ?_) ?_)
    · exact (local_rangeTail own _).bind fun _ => .pure _
    · exact (takesOne_keyword _).exact.local.bind fun _ => .pure _
    refine .choose .lifetime (Local.always ?_) (Local.missing _).always
    exact (local_labelled own).bind fun _ => .pure _
  · rintro _ ⟨joint, tail, rfl⟩ value taken rest read
    obtain ⟨_, _, _, _, closure, _⟩ := reads_bind.mp (reads_ahead_bind.mp read)
    exact closure_for closure
  · rintro _ ⟨joint, tail, rfl⟩ value taken rest read
    have read : (do
        g.loopExpression
        return ExprKind.block).Reads [name "for", .punct '<' joint, tail] value taken rest := by
      rw [reads_ahead_bind] at read
      simpa [atPath, atIdent, Ident.isPlain, keywords, atOperator, startsMarks, atKeyword,
        atAnyKeyword, atGroup, name] using read
    obtain ⟨_, _, _, _, loop, _⟩ := reads_bind.mp read
    exact loop_for loop

theorem local_fieldAccess : Local kept g.fieldAccess := by
  refine (exact_operator _).local.bind fun _ => Local.ahead ?_ fun trees => ?_
  · exact .of_first (fun _ => rfl) (fun _ _ => rfl) fun head _ => by cases head <;> rfl
  extract_lets further
  have named (dangling : Bool) : Local kept (further dangling) := by
    refine .ite ((Local.keyword? _).bind fun _ => .ite (.pure _) ?_) (.pure _)
    refine local_memberName.bind fun named => Local.ahead ?_ fun _ => ?_
    · intro front stop other alike left
      have colons : Unseen kept (atOperator "::") := .operator rfl
      simp only [colons alike left]
    refine .sometimes (local_angleArguments own) ?_
    refine .choose (.or (.const _) (.and (.const _) (.group _))) (Local.always ?_)
      (Local.pure _).always
    exact (takesOne_group _ _).exact.local.discard
  split
  · split
    · refine (takesOne_treeAs _).exact.local.discard.bind fun _ => .ite ?_ (.pure _)
      exact (Local.pure _).bind named
    · exact (Local.pure _).bind named
  · exact (Local.pure _).bind named

/-- Calls, indices and fields before a comma are read the same without it. -/
theorem local_accesses (start : ExprKind) : Local kept (g.accesses start) := by
  refine Local.loop ?_ ?_ _
  · refine fun kind => Takes.second fun _ =>
      .ite (takesOne_group _ _).takes.discard.first (.ite ?_ ?_)
    · exact Takes.first (takes_operator rfl).first
    · refine .ite (takesOne_group _ _).takes.first (.ite (takes_operator rfl).first ?_)
      exact .pure Bool.false_ne_true
  · refine fun kind => .choose (.group _) (Local.always ?_) ?_
    · exact (takesOne_group _ _).exact.local.discard.bind fun _ => .pure _
    refine .choose ?_ (Local.always ?_) (.choose (.group _) (Local.always ?_) ?_)
    · exact ((Unseen.operator rfl).and (.not (.operator rfl))).and (.const _)
    · exact (local_fieldAccess own).bind fun _ => .pure _
    · exact (takesOne_group _ _).exact.local.bind fun _ => .pure _
    refine .choose (.and (.operator rfl) (.const _)) (Local.always ?_) (Local.pure _).always
    exact (exact_operator _).local.bind fun _ => .pure _

/-- An operand before a comma is read the same without it, if what it is made of is. -/
theorem local_operandProduction (structs : Bool) : Local kept (g.operandProduction structs) := by
  have attributes : Local kept g.expressionAttributes :=
    Local.bind (.many (.operator rfl) local_outerAttribute (takes_operator rfl).first)
      fun _ => .pure _
  have operand : Local kept (do
      discard (g.operand structs)
      return ExprKind.other) := (own.operand _).discard.bind fun _ => .pure _
  refine attributes.bind fun attributed => .choose (.operator rfl) (Local.always ?_) ?_
  · refine (exact_operator _).local.bind fun _ => ?_
    refine .choose (.second rfl (.keyword _) (.anyKeyword _)) (Local.always ?_) (Local.always ?_)
    · exact takesOne_word.exact.local.discard.bind fun _ =>
        takesOne_word.exact.local.discard.bind fun _ => operand
    · exact (Local.keyword? _).discard.bind fun _ => operand
  refine Local.ahead ?_ fun trees => ?_
  · have unary : Unseen kept fun trees => ["*", "!", "-"].find? (atOperator · trees) := by
      intro front stop other alike left
      have plain : ["*", "!", "-"].all isPlainOperator = true := rfl
      rw [List.all_eq_true] at plain
      exact List.find?_congr fun text member => Unseen.operator (plain text member) alike left
    intro front stop other alike left
    simp only [unary alike left]
  split
  · exact (exact_operator _).local.bind fun _ => operand
  · refine (local_atom own _).bind fun _ => (local_accesses own _).bind fun kind => ?_
    exact .sometimes (.fail _) (.pure _)

end Flat

/-! ### The whole grammar -/

/-- Where the phrases are local, those that are made of them are. -/
theorem IsLocal.unfold (own : g.IsLocal) : g.unfold.IsLocal where
  path := local_plainPath own
  expression := local_expressionProduction own
  operand := local_operandProduction own
  operators := local_operatorsProduction own
  type := local_typeProduction own
  pattern := local_patternProduction own

theorem isLocal_empty : Grammar.empty.IsLocal where
  path _ := .missing _
  expression _ := .missing _
  operand _ := .missing _
  operators _ _ _ := .missing _
  type _ := .missing _
  pattern := .missing _

theorem reads_delayed {α : Type} {made : Unit → Reader α} {trees rest : List Tree} {value : α}
    {taken : List Piece} :
    (Reader.delayed made).Reads trees value taken rest ↔
      (made ()).Reads trees value taken rest := by
  cases trees with
  | nil => rfl
  | cons head rest => rfl

theorem local_delayed {α : Type} (made : Unit → Reader α) (own : Local kept (made ())) :
    Local kept (Reader.delayed made) := by
  intro front stop other rest value taken alike left read
  rw [reads_delayed] at read ⊢
  exact own front alike left read

theorem IsLocal.delayed {made : Unit → Grammar} (own : (made ()).IsLocal) :
    (Grammar.delayed made).IsLocal where
  path expression := local_delayed (fun _ => (made ()).path expression) (own.path expression)
  expression structs :=
    local_delayed (fun _ => (made ()).expression structs) (own.expression structs)
  operand structs := local_delayed (fun _ => (made ()).operand structs) (own.operand structs)
  operators structs base left :=
    local_delayed (fun _ => (made ()).operators structs base left) (own.operators structs base left)
  type plus := local_delayed (fun _ => (made ()).type plus) (own.type plus)
  pattern := local_delayed (fun _ => (made ()).pattern) own.pattern

/-- **The grammar is local.** The phrases up to any depth are. -/
theorem isLocal_within (depth : Nat) : (Grammar.within depth).IsLocal := by
  induction depth with
  | zero => exact isLocal_empty
  | succ depth ih => exact ih.unfold.delayed

/-! ### Expressions take something -/

section Takes

variable {stated : ExprKind → Prop}

theorem takes_pathSegment (expression : Bool) {stated : Ident × Bool → Prop} :
    Takes (g.pathSegment expression) stated := by
  refine Takes.second fun _ => .ite takesOne_word.takes.first (.ite ?_ ?_)
  · exact takesOne_word.takes.first
  · exact Takes.ident.first

theorem takes_anyPath (expression : Bool) {stated : PathKind → Prop} :
    Takes (g.anyPath expression) stated := by
  refine Takes.second fun _ => .ite (takes_operator rfl).first (Takes.second fun _ => ?_)
  exact (takes_pathSegment expression).first

theorem takes_closure (structs : Bool) {stated : Unit → Prop} :
    Takes (g.closure structs) stated := by
  refine Takes.second fun _ => Takes.second fun _ => ?_
  exact (takes_operator rfl).first

theorem takes_conditional {stated : Unit → Prop} : Takes g.conditional stated :=
  Takes.loop (fun _ => Takes.second fun _ => (takesOne_keyword _).takes.first) _

theorem takes_loopExpression {stated : Unit → Prop} : Takes g.loopExpression stated := by
  refine Takes.second fun _ => .ite (takesOne_keyword _).takes.first (.ite ?_ ?_)
  · exact (takesOne_keyword _).takes.first
  · exact (takesOne_keyword _).takes.first

/-- What an expression is made of takes at least one tree. -/
theorem takes_atom (structs : Bool) : Takes (g.atom structs) stated := by
  have keyword (text : String) {next : Unit → Reader ExprKind} :
      Takes (keyword text >>= next) stated := (takesOne_keyword text).takes.first
  have word {next : Unit → Reader ExprKind} :
      Takes (discard word >>= next) stated := takesOne_word.takes.discard.first
  refine Takes.second fun trees =>
    .ite takesOne_tree.takes.first (.ite (keyword _) (.ite (keyword _) ?_))
  refine .ite (takes_closure structs).first (.ite (keyword _) (.ite (takes_anyPath _).first ?_))
  refine .ite (takesOne_group _ _).takes.discard.first (.ite (keyword _) (.ite (keyword _) ?_))
  refine .ite word (.ite (takesOne_group _ _).takes.first (.ite (keyword _) ?_))
  refine .ite takes_conditional.first (.ite takes_loopExpression.first (.ite ?_ ?_))
  · exact Takes.first (takesOne_keyword _).takes.first
  refine .ite word (.ite (takesOne_group _ _).takes.first (.ite (takes_rangeTail structs).first ?_))
  refine .ite (keyword _) (.ite ?_ (.missing _))
  exact takesOne_lifetime.takes.discard.first.first

theorem takes_operandProduction (structs : Bool) : Takes (g.operandProduction structs) stated := by
  refine Takes.second fun _ => Takes.second fun trees => .ite (takes_operator rfl).first ?_
  split
  · rename_i text found
    have marked : ["*", "!", "-"].all (!·.toList.isEmpty) = true := rfl
    rw [List.all_eq_true] at marked
    exact Takes.first (takes_operator (by simpa using marked _ (List.mem_of_find?_eq_some found)))
  · exact (takes_atom structs).first

theorem takes_delayed {α : Type} (made : Unit → Reader α) {stated : α → Prop}
    (own : Takes (made ()) stated) : Takes (Reader.delayed made) stated := by
  intro trees rest value taken read holds
  exact own (reads_delayed.mp read) holds

/-- An expression takes a tree. -/
theorem takes_expression (depth : Nat) (structs : Bool) :
    Takes ((Grammar.within depth).expression structs) stated := by
  have operand (depth : Nat) : Takes ((Grammar.within depth).operand structs) fun _ => True := by
    cases depth with
    | zero => exact .missing _
    | succ depth =>
        exact takes_delayed (fun _ => (Grammar.within depth).unfold.operand structs)
          (takes_operandProduction structs)
  cases depth with
  | zero => exact .missing _
  | succ depth =>
      exact takes_delayed (fun _ => (Grammar.within depth).unfold.expression structs)
        (operand depth).first

end Takes

end Grammar
end Source
end Toolsmith
