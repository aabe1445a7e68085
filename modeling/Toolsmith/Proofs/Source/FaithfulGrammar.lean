import Mathlib
import Toolsmith.Source.Grammar
import Toolsmith.Proofs.Source.LocalGrammar
import Toolsmith.Proofs.Source.Reprinting

/-! # The grammar is faithful

Every phrase of the grammar is printed by the rules of reprinting, so that code that was read and
printed again is the code that was written but for these rules.
-/

namespace Toolsmith
namespace Source

open Reader

set_option synthInstance.maxSize 2000

/-- The recursive phrases are faithful. -/
class Grammar.IsFaithful (g : Grammar) : Prop where
  path : ∀ expression, Faithful (g.path expression)
  expression : ∀ structs, Faithful (g.expression structs)
  early : Faithful g.early
  operand : ∀ structs, Faithful (g.operand structs)
  operators : ∀ structs base left, Faithful (g.operators structs base left)
  type : ∀ plus, Faithful (g.type plus)
  pattern : Faithful g.pattern
  statements : Faithful g.statements
  item : Faithful g.item

attribute [instance] Grammar.IsFaithful.path Grammar.IsFaithful.expression
  Grammar.IsFaithful.early Grammar.IsFaithful.operand Grammar.IsFaithful.operators
  Grammar.IsFaithful.type Grammar.IsFaithful.pattern Grammar.IsFaithful.statements
  Grammar.IsFaithful.item

namespace Grammar

open Piece

instance faithful_modulePath : Faithful modulePath := by
  unfold modulePath
  infer_instance

variable {g : Grammar} [g.IsFaithful]

instance faithful_attributeContent (inner : Bool) : Faithful (g.attributeContent inner) := by
  unfold attributeContent
  infer_instance

instance faithful_outerAttribute : Faithful g.outerAttribute := by
  unfold outerAttribute
  infer_instance

instance faithful_innerAttribute : Faithful g.innerAttribute := by
  unfold innerAttribute
  infer_instance

instance faithful_outerAttributes : Faithful g.outerAttributes := by
  unfold outerAttributes
  infer_instance

instance faithful_innerAttributes : Faithful g.innerAttributes := by
  unfold innerAttributes
  infer_instance

instance faithful_block : Faithful g.block := by
  unfold block
  infer_instance

instance faithful_constArgument : Faithful g.constArgument := by
  unfold constArgument
  infer_instance

instance faithful_boundLifetimes : Faithful g.boundLifetimes := by
  unfold boundLifetimes
  refine Faithful.bind inferInstance fun found => ?_
  split
  · refine Faithful.bind inferInstance fun _ => Faithful.bind ?_ inferInstance
    infer_instance
  · infer_instance

instance faithful_returnType (plus : Bool) : Faithful (g.returnType plus) := by
  unfold returnType
  infer_instance

instance faithful_parenthesizedArguments : Faithful g.parenthesizedArguments := by
  unfold parenthesizedArguments
  infer_instance

instance faithful_bound : Faithful g.bound := by
  unfold bound
  refine faithful_ahead.bind fun trees => ?_
  split
  · infer_instance
  split
  · infer_instance
  extract_lets named traitBound
  have names : ∀ value, Faithful (named value) := by
    unfold named
    infer_instance
  have traits : Faithful traitBound := by
    unfold traitBound
    infer_instance
  infer_instance

instance faithful_boundsUntil (stop : List Tree → Bool) : Faithful (g.boundsUntil stop) := by
  unfold boundsUntil
  infer_instance

instance faithful_bounds (plus : Bool) : Faithful (g.bounds plus) := by
  unfold bounds
  infer_instance

instance faithful_genericArgument : Faithful g.genericArgument := by
  unfold genericArgument
  refine faithful_ahead.bind fun trees => ?_
  split
  · infer_instance
  split
  · infer_instance
  refine Faithful.bind inferInstance fun kind => ?_
  split <;> infer_instance

/-- One round of a list in angle brackets: an element, and whether the list goes on behind it. -/
def angleStep {α : Type} (reader : Reader α) (values : List (α × Bool)) :
    Reader (List (α × Bool) ⊕ List (α × Bool)) := do
  if atOperator ">" (← ahead) then return .inr values
  let value ← reader
  if atOperator ">" (← ahead) then return .inr ((value, false) :: values)
  operator ","
  return .inl ((value, true) :: values)

/-- A round stops in front of the closing bracket, behind an element or at once, or takes an element
with its comma. -/
theorem of_angleStep {α : Type} {reader : Reader α} {values : List (α × Bool)}
    {trees rest : List Tree} {taken : List Piece} {result : List (α × Bool) ⊕ List (α × Bool)}
    (read : (angleStep reader values).Reads trees result taken rest) :
    (result = .inr values ∧ taken = []) ∨ ∃ value pieces after,
      reader.Reads trees value pieces after ∧
        ((result = .inr ((value, false) :: values) ∧ taken = pieces) ∨
          ∃ joint, result = .inl ((value, true) :: values) ∧
            taken = pieces ++ [.mark ',' joint false]) := by
  have read := reads_ahead_bind.mp read
  split at read
  · obtain ⟨rfl, rfl, _⟩ := reads_pure.mp read
    exact .inl ⟨rfl, rfl⟩
  · obtain ⟨value, pieces, _, after, element, behind, rfl⟩ := reads_bind.mp read
    refine .inr ⟨value, pieces, after, element, ?_⟩
    have behind := reads_ahead_bind.mp behind
    split at behind
    · obtain ⟨rfl, rfl, _⟩ := reads_pure.mp behind
      exact .inl ⟨rfl, List.append_nil _⟩
    · obtain ⟨_, comma, rfl⟩ := reads_bind_pure.mp behind
      obtain ⟨joint, _, rfl⟩ := (reads_mark (show ",".toList = [','] from rfl)).mp comma
      exact .inr ⟨joint, rfl, rfl⟩

/-- The elements of a list up to its closing bracket, with the pieces of each. -/
theorem elements_of_untilAngle {α : Type} {reader : Reader α} {trees rest : List Tree}
    {values : List (α × Bool)} {taken : List Piece}
    (read : (untilAngle reader).Reads trees values taken rest) :
    ∃ elements : List (α × List Piece × Option Bool),
      values = elements.map (fun element => (element.1, element.2.2.isSome)) ∧
      sourceAll taken = elements.flatMap (fun element => sourceAll element.2.1 ++
        (element.2.2.map fun joint => Tree.punct ',' joint).toList) ∧
      ∀ element ∈ elements, ∃ before after, reader.Reads before element.1 element.2.1 after := by
  obtain ⟨found, rounds, rfl⟩ := reads_bind_pure.mp read
  have run := Reads.loop_induction
    (motive := fun earlier _ result taken _ =>
      ∃ elements : List (α × List Piece × Option Bool),
        result = (elements.map fun element => (element.1, element.2.2.isSome)).reverse ++ earlier ∧
        sourceAll taken = elements.flatMap (fun element => sourceAll element.2.1 ++
          (element.2.2.map fun joint => Tree.punct ',' joint).toList) ∧
        ∀ element ∈ elements, ∃ before after, reader.Reads before element.1 element.2.1 after)
    ?_ ?_ rounds
  · obtain ⟨elements, rfl, written, each⟩ := run
    exact ⟨elements, by simp, written, each⟩
  · intro earlier trees result taken rest round
    rcases of_angleStep round with ⟨same, rfl⟩ | ⟨value, pieces, after, element, last | more⟩
    · cases same
      exact ⟨[], rfl, rfl, nofun⟩
    · obtain ⟨same, rfl⟩ := last
      cases same
      exact ⟨[(value, taken, none)], rfl, by simp, by simpa using ⟨_, _, element⟩⟩
    · obtain ⟨_, same, _⟩ := more
      cases same
  · intro earlier next trees between rest value one two round later
    obtain ⟨elements, rfl, written, each⟩ := later
    rcases of_angleStep round with ⟨same, _⟩ | ⟨value, pieces, after, element, last | more⟩
    · cases same
    · cases last.1
    · obtain ⟨joint, same, rfl⟩ := more
      cases same
      refine ⟨(value, pieces, some joint) :: elements, by simp, ?_, ?_⟩
      · simp [written, Piece.source]
      · exact List.forall_mem_cons.mpr ⟨⟨_, _, element⟩, each⟩

/-- A list in angle brackets is reprinted when its elements are. -/
theorem reprints_of_untilAngle {α : Type} {reader : Reader α} {trees rest : List Tree}
    {values : List (α × Bool)} {taken : List Piece} (print : α → List Tree)
    (isLifetime : α → Bool)
    (each : ∀ {trees rest value taken}, reader.Reads trees value taken rest →
      Reprints (sourceAll taken) (print value))
    (read : (untilAngle reader).Reads trees values taken rest) (opening closing : Bool) :
    Reprints (.punct '<' opening :: sourceAll taken ++ [.punct '>' closing])
      (op "<" ++ lifetimesFirst (values.map fun (value, comma) =>
        (print value, isLifetime value, comma)) ++ op ">") := by
  obtain ⟨elements, rfl, written, single⟩ := elements_of_untilAngle read
  have rule := Reprints.angle opening closing
    (elements.map fun (value, pieces, comma) =>
      ⟨sourceAll pieces, print value, isLifetime value, comma⟩) ?_
  · rw [List.flatMap_map, List.map_map] at rule
    rw [written, List.map_map]
    exact rule
  · intro element member
    obtain ⟨part, inside, rfl⟩ := List.mem_map.mp member
    obtain ⟨_, _, own⟩ := single part inside
    exact each own

instance faithful_angleArguments : Faithful g.angleArguments := by
  refine Faithful.bind inferInstance fun _ => ⟨fun read => ?_⟩
  obtain ⟨_, _, _, _, opened, behind, rfl⟩ := reads_bind.mp read
  obtain ⟨_, _, _, _, listed, closed, rfl⟩ := reads_bind.mp behind
  obtain ⟨one, rfl, rfl⟩ := (reads_mark (show "<".toList = ['<'] from rfl)).mp opened
  obtain ⟨two, rfl, rfl⟩ := (reads_mark (show ">".toList = ['>'] from rfl)).mp closed
  obtain ⟨values, listed⟩ := reads_discard.mp listed
  obtain ⟨written, rfl, elements⟩ := reads_printingAs.mp listed
  have rule := reprints_of_untilAngle Phrase.print Phrase.kind
    (fun read => by
      rw [← print_of_phrase read]
      exact Faithful.reprints read) elements one two
  simpa [Piece.source, Piece.print, op, marks] using rule

instance faithful_pathSegment (expression : Bool) : Faithful (g.pathSegment expression) := by
  unfold pathSegment
  infer_instance

instance faithful_pathRest (expression parens : Bool) (start : PathKind) :
    Faithful (g.pathRest expression parens start) := by
  unfold pathRest
  infer_instance

instance faithful_plainPath (expression : Bool) : Faithful (g.plainPath expression) := by
  unfold plainPath
  infer_instance

instance faithful_anyPath (expression : Bool) : Faithful (g.anyPath expression) := by
  unfold anyPath
  infer_instance

instance faithful_abi : Faithful abi := by
  unfold abi
  refine Faithful.bind inferInstance fun found => ?_
  split
  · refine faithful_ahead.bind fun trees => ?_
    split <;> infer_instance
  · infer_instance

instance faithful_functionTypeParameter : Faithful g.functionTypeParameter := by
  unfold functionTypeParameter
  infer_instance

instance faithful_functionType : Faithful g.functionType := by
  unfold functionType
  infer_instance

instance faithful_furtherBounds : Faithful g.furtherBounds := by
  unfold furtherBounds
  infer_instance

instance faithful_parenthesizedType (plus : Bool) : Faithful (g.parenthesizedType plus) := by
  unfold parenthesizedType
  infer_instance

instance faithful_pathType (plus bound : Bool) : Faithful (g.pathType plus bound) := by
  unfold pathType
  infer_instance

instance faithful_typeProduction (plus : Bool) : Faithful (g.typeProduction plus) := by
  unfold typeProduction
  infer_instance

instance faithful_patternAlternatives : Faithful g.patternAlternatives := by
  unfold patternAlternatives
  infer_instance

/-- A number may only name a field by its index. -/
instance faithful_memberName : Faithful memberName := by
  unfold memberName
  refine ⟨fun read => ?_⟩
  have read := reads_ahead_bind.mp read
  split at read
  · split at read
    · rename_i index found
      obtain ⟨_, shown, _⟩ := reads_bind_pure.mp read
      obtain ⟨_, _, written⟩ := reads_discard.mp shown
      cases written
      exact .index found
    · exact (faithful_missing _).reprints read
  · have named : Faithful (do
        discard Reader.ident
        return true) := inferInstance
    exact named.reprints read

instance faithful_fieldPattern : Faithful g.fieldPattern := by
  unfold fieldPattern
  infer_instance

instance faithful_rangeBound : Faithful g.rangeBound := by
  unfold rangeBound
  infer_instance

instance faithful_rangePattern : Faithful g.rangePattern := by
  unfold rangePattern
  infer_instance

instance faithful_pathPattern : Faithful g.pathPattern := by
  unfold pathPattern
  infer_instance

instance faithful_patternProduction : Faithful g.patternProduction := by
  unfold patternProduction
  infer_instance

instance faithful_expressionAttributes : Faithful g.expressionAttributes := by
  unfold expressionAttributes
  infer_instance

instance faithful_rightSide (structs : Bool) (precedence : Nat) :
    Faithful (g.rightSide structs precedence) := by
  unfold rightSide
  infer_instance

instance faithful_rangeLimits : Faithful rangeLimits := by
  unfold rangeLimits
  infer_instance

instance faithful_checkCast : Faithful checkCast := by
  unfold checkCast
  infer_instance

instance faithful_rangeTail (structs : Bool) : Faithful (g.rangeTail structs) := by
  unfold rangeTail
  infer_instance

instance faithful_operatorsProduction (structs : Bool) (base : Nat) (left : ExprKind) :
    Faithful (g.operatorsProduction structs base left) := by
  unfold operatorsProduction
  refine @faithful_loop _ _ _ (fun left => ?_) left
  refine faithful_ahead.bind fun trees => ?_
  split
  · infer_instance
  split <;> infer_instance

instance faithful_expressionProduction (structs : Bool) :
    Faithful (g.expressionProduction structs) := by
  unfold expressionProduction
  infer_instance

instance faithful_attributedBlock : Faithful g.attributedBlock := by
  unfold attributedBlock
  infer_instance

instance faithful_conditional : Faithful g.conditional := by
  unfold conditional
  infer_instance

instance faithful_loopExpression : Faithful g.loopExpression := by
  unfold loopExpression
  infer_instance

instance faithful_labelled : Faithful g.labelled := by
  unfold labelled
  infer_instance

instance faithful_closureParameter : Faithful g.closureParameter := by
  unfold closureParameter
  infer_instance

instance faithful_closure (structs : Bool) : Faithful (g.closure structs) := by
  unfold closure
  infer_instance

instance faithful_fieldValue : Faithful g.fieldValue := by
  unfold fieldValue
  infer_instance

instance faithful_pathExpression (structs : Bool) : Faithful (g.pathExpression structs) := by
  unfold pathExpression
  infer_instance

instance faithful_matchArm : Faithful g.matchArm := by
  unfold matchArm
  infer_instance

instance faithful_matchExpression : Faithful g.matchExpression := by
  unfold matchExpression
  infer_instance

instance faithful_arrayExpression : Faithful g.arrayExpression := by
  unfold arrayExpression
  infer_instance

instance faithful_optionalValue (structs : Bool) : Faithful (g.optionalValue structs) := by
  unfold optionalValue
  infer_instance

instance faithful_atom (structs : Bool) : Faithful (g.atom structs) := by
  unfold atom
  refine faithful_ahead.bind fun trees => ?_
  refine Faithful.ite (faithful_tree.bind fun tree => ?_) ?_
  · split <;> infer_instance
  iterate 10 refine Faithful.ite inferInstance ?_
  infer_instance

instance faithful_fieldAccess : Faithful g.fieldAccess := by
  unfold fieldAccess
  refine Faithful.bind inferInstance fun _ => ⟨fun read => ?_⟩
  have read := reads_ahead_bind.mp read
  extract_lets access at read
  have accesses : ∀ dangling, Faithful (access dangling) := by
    unfold access
    infer_instance
  split at read
  · split at read
    · rename_i indices
      obtain ⟨_, _, _, _, shown, behind, rfl⟩ := reads_bind.mp read
      obtain ⟨_, _, written⟩ := reads_discard.mp shown
      cases written
      have field (dangling : Bool) :
          Faithful (if dangling = true then pure true >>= access else pure ()) := inferInstance
      exact .append (.indices indices) ((field _).reprints behind)
    · exact (Faithful.bind inferInstance accesses).reprints read
  · exact (Faithful.bind inferInstance accesses).reprints read

instance faithful_accesses (start : ExprKind) : Faithful (g.accesses start) := by
  unfold accesses
  infer_instance

instance faithful_operandProduction (structs : Bool) :
    Faithful (g.operandProduction structs) := by
  unfold operandProduction
  refine Faithful.bind inferInstance fun attributed => faithful_ahead.bind fun trees => ?_
  split
  · infer_instance
  split <;> infer_instance

instance faithful_earlyProduction : Faithful g.earlyProduction := by
  unfold earlyProduction
  infer_instance

instance faithful_letStatement : Faithful g.letStatement := by
  unfold letStatement
  infer_instance

instance faithful_macroStatement : Faithful macroStatement := by
  unfold macroStatement
  refine Faithful.bind inferInstance fun beyond => ?_
  split <;> infer_instance

instance faithful_statementProduction : Faithful g.statementProduction := by
  unfold statementProduction
  refine Faithful.bind inferInstance fun _ => Faithful.bind inferInstance fun form => ?_
  cases form <;> infer_instance

instance faithful_statementsProduction : Faithful g.statementsProduction := by
  unfold statementsProduction
  infer_instance

instance faithful_lifetimeBounds (stop : List Tree → Bool) : Faithful (lifetimeBounds stop) := by
  unfold lifetimeBounds
  infer_instance

/-- One round of a counted list: an element, and whether a separator follows it. -/
def countStep (stop : List Tree → Bool) (element : Reader Unit) (separator : String)
    (count : Nat) : Reader (Nat ⊕ Nat) := do
  if stop (← ahead) then return .inr count
  element
  if ← operator? separator then return .inl (count + 1) else return .inr (count + 1)

/-- Nothing is taken where no element was counted. -/
theorem none_of_count {stop : List Tree → Bool} {element : Reader Unit} {separator : String}
    {trees rest : List Tree} {taken : List Piece}
    (read : (loop (countStep stop element separator) 0).Reads trees 0 taken rest) :
    taken = [] := by
  have run := Reads.loop_induction
    (motive := fun count _ value taken _ => count ≤ value ∧ (value = count → taken = []))
    ?_ ?_ read
  · exact run.2 rfl
  · intro count trees value taken rest round
    have round := reads_ahead_bind.mp round
    split at round
    · obtain ⟨same, rfl, _⟩ := reads_pure.mp round
      cases same
      exact ⟨le_rfl, fun _ => rfl⟩
    · obtain ⟨_, _, _, _, _, behind, rfl⟩ := reads_bind.mp round
      obtain ⟨_, _, _, _, _, last, rfl⟩ := reads_bind.mp behind
      split at last
      · cases (reads_pure.mp last).1
      · cases (reads_pure.mp last).1
        exact ⟨Nat.le_succ _, fun same => absurd same (Nat.succ_ne_self _)⟩
  · intro count next trees between rest value one two round later
    have more : next = count + 1 := by
      have round := reads_ahead_bind.mp round
      split at round
      · cases (reads_pure.mp round).1
      · obtain ⟨_, _, _, _, _, behind, rfl⟩ := reads_bind.mp round
        obtain ⟨_, _, _, _, _, last, rfl⟩ := reads_bind.mp behind
        split at last
        · cases (reads_pure.mp last).1
          rfl
        · cases (reads_pure.mp last).1
    obtain ⟨least, _⟩ := later
    exact ⟨by omega, fun same => by omega⟩

/-- Outer attributes are reprinted in front of what they belong to. -/
theorem reprints_outerAttributes {trees rest : List Tree} {attrs : List Attribute}
    {taken : List Piece} (read : g.outerAttributes.Reads trees attrs taken rest) :
    Reprints (sourceAll taken) (printOuter attrs) := by
  rw [printOuter_of_outer (outer_of_outerAttributes read), ← print_of_outerAttributes read]
  exact faithful_outerAttributes.reprints read

/-- A head is reprinted with its bounds. A colon without bounds goes. -/
theorem reprints_headWithBounds {attrs : List Attribute} {reader : Reader Nat} [Faithful reader]
    {trees middle rest : List Tree} {colon : Bool} {bounds : Phrase Nat} {one two : List Piece}
    {before : List Tree} (subject : Tree) (attributes : Reprints before (printOuter attrs))
    (mark : (operator? ":").Reads trees colon one middle)
    (read : (if colon = true then phrase reader else pure ⟨0, []⟩).Reads middle bounds two rest)
    (none : ∀ {trees taken rest}, reader.Reads trees 0 taken rest → taken = []) :
    Reprints (before ++ (subject :: (sourceAll one ++ sourceAll two)))
      (headWithBounds attrs subject colon bounds.kind bounds.print) := by
  unfold headWithBounds
  rw [List.append_assoc]
  refine .append attributes ?_
  rcases reads_operator?.mp mark with ⟨rfl, _, taken⟩ | ⟨rfl, _, _, rfl⟩
  · obtain ⟨joint, _, rfl⟩ := (reads_mark (show ":".toList = [':'] from rfl)).mp taken
    simp only [↓reduceIte] at read
    obtain ⟨pieces, inside⟩ := reads_phrase.mp read
    by_cases bounded : 0 < bounds.kind
    · simp only [bounded, decide_true, Bool.and_self, ↓reduceIte]
      have colon : Reprints (sourceAll [.mark ':' joint false]) (op ":") := .mark ':' joint false
      rw [Phrase.print, pieces, List.singleton_append]
      exact .cons _ (.append colon (Faithful.reprints inside))
    · have zero : bounds.kind = 0 := by omega
      rw [zero] at inside
      obtain rfl := none inside
      simpa [zero, Piece.source] using Reprints.noBounds subject joint
  · simp only [Bool.false_eq_true, ↓reduceIte] at read
    obtain ⟨rfl, rfl, _⟩ := reads_pure.mp read
    simpa using Reprints.refl _

theorem reprints_parameterDefault {α : Type} {value : Reader α} [Faithful value]
    {trees rest fallback : List Tree} {taken : List Piece}
    (read : (parameterDefault value).Reads trees fallback taken rest) :
    Reprints (sourceAll taken) fallback := by
  obtain ⟨_, written, rfl⟩ := reads_bind_pure.mp read
  rw [← print_of_phrase written]
  exact Faithful.reprints written

/-- Two ways of reading one thing, followed alike. -/
theorem reads_ite_bind {α β : Type} {c : Prop} [Decidable c] {first second : Reader α}
    {next : α → Reader β} {trees rest : List Tree} {value : β} {taken : List Piece} :
    (if c then first >>= next else second >>= next).Reads trees value taken rest ↔
      ∃ middle one two between, (if c then first else second).Reads trees middle one between ∧
        (next middle).Reads between value two rest ∧ taken = one ++ two := by
  split <;> exact reads_bind

/-- A generic parameter is reprinted as its head and its default. -/
theorem reprints_genericParam {trees rest : List Tree} {param : GenericParam}
    {taken : List Piece} (read : g.genericParam.Reads trees param taken rest) :
    Reprints (sourceAll taken) (param.head ++ param.fallback) := by
  obtain ⟨attrs, _, _, _, attributes, after, rfl⟩ := reads_bind.mp read
  have before := reprints_outerAttributes attributes
  rw [sourceAll_append]
  have after := reads_ahead_bind.mp after
  split at after
  · obtain ⟨subject, _, _, _, named, read₂, rfl⟩ := reads_bind.mp after
    obtain ⟨colon, _, _, _, mark, read₃, rfl⟩ := reads_bind.mp read₂
    obtain ⟨bounds, _, _, _, bounded, last, rfl⟩ := reads_ite_bind.mp read₃
    obtain ⟨rfl, rfl, rfl⟩ := reads_pure.mp last
    rw [(reads_lifetime.mp named).2, List.append_nil, List.append_nil]
    simpa [Piece.source] using
      reprints_headWithBounds _ before mark bounded none_of_count
  split at after
  · obtain ⟨subject, _, _, _, named, read₂, rfl⟩ := reads_bind.mp after
    obtain ⟨colon, _, _, _, mark, read₃, rfl⟩ := reads_bind.mp read₂
    obtain ⟨bounds, _, _, _, bounded, read₄, rfl⟩ := reads_ite_bind.mp read₃
    obtain ⟨fallback, default, rfl⟩ := reads_bind_pure.mp read₄
    have head := reprints_headWithBounds (.ident subject) before mark bounded none_of_count
    rw [(reads_word.mp named).2]
    simpa [Piece.source] using head.append (reprints_parameterDefault default)
  split at after
  · obtain ⟨head, _, _, _, written, read₂, rfl⟩ := reads_bind.mp after
    obtain ⟨fallback, default, rfl⟩ := reads_bind_pure.mp read₂
    rw [sourceAll_append, ← List.append_assoc]
    refine .append (.append before ?_) (reprints_parameterDefault default)
    rw [← print_of_phrase written]
    exact Faithful.reprints written
  split at after
  · obtain ⟨_, blank, rfl⟩ := reads_bind_pure.mp after
    rw [(reads_keyword.mp blank).2, List.append_nil]
    exact .append before (.tree _)
  · cases after.2

/-- Parameters are reprinted with the lifetimes first, and none at all not. -/
instance faithful_genericParams : Faithful g.genericParams := by
  unfold genericParams
  refine faithful_ahead.bind fun trees => Faithful.ite ?_ inferInstance
  refine faithful_printingAs fun read => ?_
  obtain ⟨_, _, _, _, opened, behind, rfl⟩ := reads_bind.mp read
  obtain ⟨values, _, _, _, elements, last, rfl⟩ := reads_bind.mp behind
  obtain ⟨_, closed, rfl⟩ := reads_bind_pure.mp last
  obtain ⟨one, rfl, rfl⟩ := (reads_mark (show "<".toList = ['<'] from rfl)).mp opened
  obtain ⟨two, rfl, rfl⟩ := (reads_mark (show ">".toList = ['>'] from rfl)).mp closed
  have rule := reprints_of_untilAngle (fun param => param.head ++ param.fallback)
    GenericParam.isLifetime reprints_genericParam elements one two
  cases values with
  | nil =>
      obtain ⟨found, none, written, _⟩ := elements_of_untilAngle elements
      obtain rfl := List.map_eq_nil_iff.mp none.symm
      simpa [written, Piece.source, Generics.print, Generics.angle]
        using Reprints.noParameters one two
  | cons value values =>
      simpa [Piece.source, Generics.print, Generics.angle, List.map_map, Function.comp_def]
        using rule

instance faithful_wherePredicate : Faithful g.wherePredicate := by
  unfold wherePredicate
  infer_instance

/-- A `where` clause is reprinted, and one without conditions goes. -/
instance faithful_whereClause : Faithful g.whereClause := by
  unfold whereClause
  refine faithful_ahead.bind fun trees => Faithful.ite ?_ inferInstance
  refine faithful_printingAs fun read => ?_
  obtain ⟨clause, written, rfl⟩ := reads_bind_pure.mp read
  split
  · rename_i empty
    obtain ⟨rfl, inside⟩ := reads_phrase.mp written
    rw [eq_of_beq empty] at inside
    obtain ⟨_, _, _, _, word, conditions, whole⟩ := reads_bind.mp inside
    obtain rfl := none_of_count conditions
    rw [whole, (reads_keyword.mp word).2]
    exact .noConditions
  · rw [id, ← print_of_phrase written]
    exact Faithful.reprints written

instance faithful_receiver : Faithful g.receiver := by
  unfold receiver
  infer_instance

instance faithful_inputBody (variadic : Bool) : Faithful (g.inputBody variadic) := by
  have blank : Faithful (printingAs (pure ()) fun _ => name "_" :: op ":") :=
    faithful_printingAs fun read => by
      obtain ⟨_, rfl, _⟩ := reads_pure.mp read
      exact .blank
  unfold inputBody
  infer_instance

instance faithful_inputs : Faithful g.inputs := by
  unfold inputs
  infer_instance

instance faithful_signature : Faithful g.signature := by
  unfold signature
  infer_instance

instance faithful_visibility : Faithful visibility := by
  unfold visibility
  refine Faithful.bind inferInstance fun found => ?_
  split
  · refine faithful_ahead.bind fun trees => ?_
    split <;> infer_instance
  · infer_instance

instance faithful_functionBody : Faithful g.functionBody := by
  unfold functionBody
  infer_instance

instance faithful_macroItem : Faithful macroItem := by
  unfold macroItem
  infer_instance

instance faithful_constItem : Faithful g.constItem := by
  unfold constItem
  refine Faithful.bind inferInstance fun _ => faithful_ahead.bind fun trees => ?_
  split <;> refine Faithful.bind inferInstance fun _ => ?_
  all_goals
    refine faithful_ahead.bind fun trees => Faithful.bind inferInstance fun _ => ?_
    infer_instance

instance faithful_typeItem : Faithful g.typeItem := by
  unfold typeItem
  infer_instance

instance faithful_memberForm : Faithful g.memberForm := by
  unfold memberForm
  infer_instance

instance faithful_member : Faithful g.member := by
  unfold member
  infer_instance

instance faithful_implAfterAttributes (attrs : List Attribute) :
    Faithful (g.implAfterAttributes attrs) := by
  unfold implAfterAttributes
  iterate 3 refine Faithful.bind inferInstance fun _ => ?_
  refine faithful_ahead.bind fun trees => ?_
  extract_lets header
  have rest : ∀ params, Faithful (header params) := by
    unfold header
    intro params
    refine faithful_ahead.bind fun trees => ?_
    iterate 3 refine Faithful.bind inferInstance fun _ => ?_
    extract_lets
    infer_instance
  infer_instance

instance faithful_namedField : Faithful g.namedField := by
  unfold namedField
  infer_instance

instance faithful_positionalField : Faithful g.positionalField := by
  unfold positionalField
  infer_instance

instance faithful_structItem : Faithful g.structItem := by
  unfold structItem
  infer_instance

instance faithful_variant : Faithful g.variant := by
  unfold variant
  infer_instance

instance faithful_enumItem : Faithful g.enumItem := by
  unfold enumItem
  infer_instance

instance faithful_useTree (depth : Nat) : Faithful (useTree depth) := by
  induction depth with
  | zero => exact faithful_missing _
  | succ depth ih =>
      unfold useTree
      infer_instance

instance faithful_useItem : Faithful useItem := by
  unfold useItem
  infer_instance

instance faithful_staticItem : Faithful g.staticItem := by
  unfold staticItem
  infer_instance

instance faithful_traitItem : Faithful g.traitItem := by
  unfold traitItem
  iterate 5 refine Faithful.bind inferInstance fun _ => ?_
  refine Faithful.bind inferInstance fun found => ?_
  split <;> infer_instance

instance faithful_moduleItem : Faithful g.moduleItem := by
  unfold moduleItem
  infer_instance

instance faithful_foreignItem : Faithful g.foreignItem := by
  unfold foreignItem
  infer_instance

instance faithful_externItem : Faithful g.externItem := by
  unfold externItem
  infer_instance

instance faithful_macroDefinition : Faithful macroDefinition := by
  unfold macroDefinition
  infer_instance

instance faithful_itemProduction : Faithful g.itemProduction := by
  unfold itemProduction
  infer_instance

/-! ### The grammar at every depth -/

theorem isFaithful_empty : Grammar.empty.IsFaithful where
  path _ := faithful_missing _
  expression _ := faithful_missing _
  early := faithful_missing _
  operand _ := faithful_missing _
  operators _ _ _ := faithful_missing _
  type _ := faithful_missing _
  pattern := faithful_missing _
  statements := faithful_missing _
  item := faithful_missing _

/-- The productions of a grammar reprint faithfully, if those that they refer to do. -/
theorem isFaithful_unfold : g.unfold.IsFaithful where
  path := faithful_plainPath
  expression := faithful_expressionProduction
  early := faithful_earlyProduction
  operand := faithful_operandProduction
  operators := faithful_operatorsProduction
  type := faithful_typeProduction
  pattern := faithful_patternProduction
  statements := faithful_statementsProduction
  item := faithful_itemProduction

omit [g.IsFaithful] in
theorem faithful_delayed {α : Type} (made : Unit → Reader α) (own : Faithful (made ())) :
    Faithful (Reader.delayed made) :=
  ⟨fun read => own.reprints (reads_delayed.mp read)⟩

omit [g.IsFaithful] in
theorem isFaithful_delayed {made : Unit → Grammar} (own : (made ()).IsFaithful) :
    (Grammar.delayed made).IsFaithful where
  path expression := faithful_delayed (fun _ => (made ()).path expression) (own.path expression)
  expression structs :=
    faithful_delayed (fun _ => (made ()).expression structs) (own.expression structs)
  early := faithful_delayed (fun _ => (made ()).early) own.early
  operand structs := faithful_delayed (fun _ => (made ()).operand structs) (own.operand structs)
  operators structs base left :=
    faithful_delayed (fun _ => (made ()).operators structs base left)
      (own.operators structs base left)
  type plus := faithful_delayed (fun _ => (made ()).type plus) (own.type plus)
  pattern := faithful_delayed (fun _ => (made ()).pattern) own.pattern
  statements := faithful_delayed (fun _ => (made ()).statements) own.statements
  item := faithful_delayed (fun _ => (made ()).item) own.item

omit [g.IsFaithful] in
/-- **The grammar is faithful.** The phrases up to any depth are. -/
instance isFaithful_within (depth : Nat) : (Grammar.within depth).IsFaithful := by
  induction depth with
  | zero => exact isFaithful_empty
  | succ depth ih => exact isFaithful_delayed isFaithful_unfold

end Grammar

end Source
end Toolsmith
