import Mathlib
import Toolsmith.Proofs.Source.Follow.Type
import Toolsmith.Proofs.Source.FaithfulGrammar

/-! # Generic parameters and conditions are read again

Parameters are printed with the lifetimes first, an empty list not at all, and a colon without
bounds is not printed either. A `where` clause without conditions is not printed.
-/

namespace Toolsmith
namespace Source

open Piece Reader

namespace Grammar

variable {g : Grammar}

/-! ### Bounds -/

/-- Lifetimes that bound something are read up to the same mark again. -/
theorem follows_lifetimeBounds {stop : List Tree → Bool} {starts behind : Sight}
    (begins : ∀ x y, Ahead (fun tree => ∃ name, tree = .lifetime name) (fun _ _ => True) x y →
      starts x y)
    (ends : ∀ x y, behind x y → starts x y)
    (stops : ∀ x y, behind x y → stop x = true → stop y = true)
    (lifetimes : ∀ name rest, stop (.lifetime name :: rest) = false)
    (plus : ∀ x y, behind x y → atOperator "+" y = false) :
    Again (lifetimeBounds stop) starts behind := by
  refine Follows.loopSame ?_ (fun _ => starts) (fun count => ?_) 0
  · refine fun count => Takes.second fun _ => .ite (.pure Bool.false_ne_true) ?_
    exact Takes.second fun _ => takes_operator?_ite rfl (.pure Bool.false_ne_true)
  refine .choose behind (Ahead (fun tree => ∃ name, tree = .lifetime name) fun _ _ => True)
    (Follows.always (.pure rfl)) (Follows.always ?_)
    (fun x y found ended => ⟨stops x y ended found, ends x y ended⟩) fun x y _ led =>
      ⟨?_, begins x y led⟩
  · refine Follows.bind (fun _ _ _ => True) (copies_lifetime.follows fun name x y led => ?_).dropped
      fun _ => .operatorIf "+" starts behind (.pure rfl) (.pure rfl)
        (fun _ _ _ => trivial) fun x y _ ended => ⟨plus x y ended, trivial⟩
    obtain ⟨tree, rest, other, same, first, second, _⟩ := led
    exact ⟨tree, rest, other, ⟨name, same⟩, first, second, trivial⟩
  · obtain ⟨_, _, other, ⟨name, rfl⟩, _, rfl, _⟩ := led
    exact lifetimes name other

/-- What is read of a subject's bounds from how they are printed. A colon without bounds is not
printed and not read again. -/
theorem reads_bounded {attrs : List Attribute} {subject : Tree} {reader : Reader Nat}
    {begins behind : Sight} (own : Again reader begins behind)
    {between middle rest other : List Tree} {colon : Bool} {bounds : Phrase Nat}
    {one two : List Piece} (mark : (operator? ":").Reads between colon one middle)
    (read : (if colon = true then phrase reader else pure ⟨0, []⟩).Reads middle bounds two rest)
    (settled : SettledAll two) (relation : behind rest other)
    (absent : atOperator ":" other = false) :
    ∃ shown again found three four left,
      headWithBounds attrs subject colon bounds.kind bounds.print =
        printOuter attrs ++ subject :: shown ∧
      headWithBounds attrs subject again found.kind found.print =
        headWithBounds attrs subject colon bounds.kind bounds.print ∧
      (operator? ":").Reads (shown ++ other) again three left ∧
      (if again = true then phrase reader else pure ⟨0, []⟩).Reads left found four other ∧
      PlainAll (three ++ four) := by
  by_cases bounded : (colon && 0 < bounds.kind) = true
  · obtain ⟨rfl, some⟩ := Bool.and_eq_true_iff.mp bounded
    rw [if_pos rfl] at read
    obtain ⟨pieces, inside⟩ := reads_phrase.mp read
    obtain ⟨_, _, again, rfl, reads, plain⟩ := own inside settled relation
    have print : (⟨bounds.kind, again⟩ : Phrase Nat).print = bounds.print := by
      rw [← print_of_phrase read, Phrase.print, printAll_of_plain plain]
      exact List.append_cancel_right reads.conserved
    refine ⟨op ":" ++ bounds.print, true, ⟨bounds.kind, again⟩, [.mark ':' false false], again,
      printAll two ++ other, ?_, ?_, ?_, ?_, rfl, plain⟩
    · rw [headWithBounds, if_pos bounded, List.append_assoc]
      rfl
    · rw [print]
    · rw [← print_of_phrase read]
      exact reads_operator?.mpr (.inl ⟨rfl, rfl, (reads_mark rfl).mpr ⟨false, rfl, rfl⟩⟩)
    · rw [if_pos rfl]
      exact reads_phrase.mpr ⟨rfl, reads⟩
  · refine ⟨[], false, ⟨0, []⟩, [], [], other, ?_, ?_,
      reads_operator?.mpr (.inr ⟨rfl, absent, rfl, rfl⟩), ?_, trivial⟩
    · rw [headWithBounds, if_neg bounded, List.append_nil]
    · rw [headWithBounds, headWithBounds, if_neg bounded]
      rfl
    · rw [if_neg Bool.false_ne_true]
      exact reads_pure.mpr ⟨rfl, rfl, rfl⟩

/-! ### Generic parameters -/

/-- A default behind an equals sign, or what parts a parameter from the next one. -/
def Defaulted (x y : List Tree) : Prop := Marked "=" (Leads Parting) x y ∨ Parting x y

/-- The closing marks of what a parameter is made of. -/
theorem Defaulted.kinds {x y : List Tree} (defaulted : Defaulted x y) :
    atAnyOperator [",", ">", "="] x = true ∧ atAnyOperator [",", ">", "="] y = true := by
  have wide {trees : List Tree} (parting : atAnyOperator [",", ">"] trees = true) :
      atAnyOperator [",", ">", "="] trees = true := by
    rcases parting_iff.mp parting with comma | angle
    · simp [atAnyOperator, comma]
    · simp [atAnyOperator, angle]
  rcases defaulted with marked | parting
  · simp [atAnyOperator, marked.written, marked.holds]
  · exact ⟨wide parting.written, wide parting.printed⟩

theorem Defaulted.beyond {x y : List Tree} (defaulted : Defaulted x y) : Beyond x y := by
  rcases defaulted with ⟨_, _, _, rfl, rfl, _⟩ | parting
  · exact .inr (.inr ⟨.inl rfl, rfl⟩)
  · exact parting.beyond

theorem Defaulted.without_colon {x y : List Tree} (defaulted : Defaulted x y) :
    atOperator ":" y = false := by
  rcases defaulted with ⟨_, _, _, _, rfl, _⟩ | parting
  · rfl
  · exact parting.without rfl (by decide)

theorem follows_parameterDefault {α : Type} {value : Reader α}
    (own : Again (discard value) (Leads Parting) Parting) :
    Again (parameterDefault value) Defaulted Parting := by
  refine Follows.bindLike _
    (Follows.phrase (.operatorIf "=" (Leads Parting) Parting own (.pure rfl) (fun _ _ => .inl)
      fun x y _ parting => ⟨parting.without rfl (by decide), .inr parting⟩))
    (fun value => ⟨value, rfl, rfl⟩) fun _ _ same => .pure same.2.symm

/-- A default is printed as its pieces are. -/
theorem print_of_parameterDefault {α : Type} {value : Reader α} {trees rest fallback : List Tree}
    {taken : List Piece} (read : (parameterDefault value).Reads trees fallback taken rest) :
    printAll taken = fallback := by
  obtain ⟨_, written, rfl⟩ := reads_bind_pure.mp read
  exact print_of_phrase written

/-- A lifetime parameter behind its attributes. -/
def lifetimeParam (attrs : List Attribute) : Reader GenericParam := do
  let subject ← lifetime
  let colon ← operator? ":"
  let bounds ← if colon then phrase (lifetimeBounds (atAnyOperator [",", ">"])) else pure ⟨0, []⟩
  return ⟨true, headWithBounds attrs (.lifetime subject) colon bounds.kind bounds.print, [], false⟩

/-- A type parameter behind its attributes. -/
def typeParam (g : Grammar) (attrs : List Attribute) : Reader GenericParam := do
  let subject ← word
  let colon ← operator? ":"
  let bounds ← if colon then phrase (g.boundsUntil (atAnyOperator [",", ">", "="]))
    else pure ⟨0, []⟩
  let fallback ← parameterDefault (g.type true)
  return ⟨false, headWithBounds attrs (.ident subject) colon bounds.kind bounds.print, fallback,
    false⟩

/-- The head of a constant parameter. -/
def constHead (g : Grammar) : Reader Unit := do
  keyword "const"
  discard Reader.ident
  operator ":"
  discard (g.type true)

/-- A constant parameter behind its attributes. -/
def constParam (g : Grammar) (attrs : List Attribute) : Reader GenericParam := do
  let head ← phrase g.constHead
  let fallback ← parameterDefault g.constArgument
  return ⟨false, printOuter attrs ++ head.print, fallback, false⟩

/-- A generic parameter behind its attributes. -/
def genericParamTail (g : Grammar) (attrs : List Attribute) : Reader GenericParam := do
  let trees ← ahead
  if atLifetime trees then lifetimeParam attrs
  else if atIdent trees then g.typeParam attrs
  else if atKeyword "const" trees then g.constParam attrs
  else if atKeyword "_" trees then
    keyword "_"
    return ⟨false, printOuter attrs ++ [name "_"], [], false⟩
  else missing "identifier"

/-- From what the parameter prints behind its attributes the reader reads it again. The first tree
stays. -/
def ReadsParam (attrs : List Attribute) (reader : Reader GenericParam) : Prop :=
  ∀ ⦃trees rest other : List Tree⦄ ⦃value : GenericParam⦄ ⦃taken : List Piece⦄,
    reader.Reads trees value taken rest → SettledAll taken → Parting rest other →
      ∃ shown again, value.head ++ value.fallback = printOuter attrs ++ shown ∧
        reader.Reads (shown ++ other) value again other ∧ PlainAll again ∧
          headKind trees = headKind (shown ++ other) ∧ isQuiet (headKind trees) = true

variable {attrs : List Attribute}

/-- The test of the first tree is the same for what is printed. -/
theorem ReadsParam.choose {test : List Tree → Bool} {yes no : List Tree → Reader GenericParam}
    (seen : OfKind test) (first : ReadsParam attrs (ahead >>= yes))
    (second : ReadsParam attrs (ahead >>= no)) :
    ReadsParam attrs (ahead >>= fun trees => if test trees then yes trees else no trees) := by
  intro trees rest other value taken read settled parting
  have read := reads_ahead_bind.mp read
  split at read
  · rename_i stands
    obtain ⟨shown, again, print, reads, plain, kind, quiet⟩ :=
      first (reads_ahead_bind.mpr read) settled parting
    refine ⟨shown, again, print, reads_ahead_bind.mpr ?_, plain, kind, quiet⟩
    rw [← seen kind, if_pos stands]
    exact reads_ahead_bind.mp reads
  · rename_i stands
    obtain ⟨shown, again, print, reads, plain, kind, quiet⟩ :=
      second (reads_ahead_bind.mpr read) settled parting
    refine ⟨shown, again, print, reads_ahead_bind.mpr ?_, plain, kind, quiet⟩
    rw [← seen kind, if_neg stands]
    exact reads_ahead_bind.mp reads

theorem ReadsParam.always {reader : Reader GenericParam} (own : ReadsParam attrs reader) :
    ReadsParam attrs (ahead >>= fun _ => reader) := by
  intro trees rest other value taken read settled parting
  obtain ⟨shown, again, print, reads, others⟩ := own (reads_ahead_bind.mp read) settled parting
  exact ⟨shown, again, print, reads_ahead_bind.mpr reads, others⟩

/-- A lifetime parameter, whose bounds are printed behind a colon if it has any. -/
theorem reads_lifetimeParam : ReadsParam attrs (lifetimeParam attrs) := by
  intro trees rest other value taken read settled parting
  obtain ⟨subject, _, _, _, named, read₂, rfl⟩ := reads_bind.mp read
  obtain ⟨colon, _, _, _, mark, read₃, rfl⟩ := reads_bind.mp read₂
  obtain ⟨bounds, _, _, _, bounded, last, rfl⟩ := reads_ite_bind.mp read₃
  obtain ⟨rfl, rfl, rfl⟩ := reads_pure.mp last
  obtain ⟨_, rfl, rfl, rfl, again⟩ := copies_lifetime named
  have own : Again (lifetimeBounds (atAnyOperator [",", ">"])) (fun _ _ => True) Parting :=
    follows_lifetimeBounds (fun _ _ _ => trivial) (fun _ _ _ => trivial)
      (fun _ _ parting _ => parting.printed) (fun _ _ => rfl)
      fun _ _ parting => parting.without rfl (by decide)
  rw [List.append_nil, settledAll_append, settledAll_append] at settled
  obtain ⟨shown, _, _, three, four, _, print, same, marked, bounds, plain⟩ :=
    reads_bounded own mark bounded settled.2.2 parting (parting.without rfl (by decide))
  refine ⟨.lifetime subject :: shown, [.tree (.lifetime subject)] ++ (three ++ (four ++ [])),
    (List.append_nil _).trans print, ?_, ?_, rfl, rfl⟩
  · refine reads_bind.mpr ⟨_, _, _, _, again _, reads_bind.mpr ⟨_, _, _, _, marked,
      reads_ite_bind.mpr ⟨_, _, [], _, bounds, reads_pure.mpr ⟨?_, rfl, rfl⟩, rfl⟩, rfl⟩, rfl⟩
    rw [same]
  · rw [List.append_nil]
    exact ⟨trivial, plain⟩

/-- A type parameter, with its bounds and its default. -/
theorem reads_typeParam (own : g.Repeats) : ReadsParam attrs (g.typeParam attrs) := by
  intro trees rest other value taken read settled parting
  obtain ⟨subject, _, _, _, named, read₂, rfl⟩ := reads_bind.mp read
  obtain ⟨colon, _, _, _, mark, read₃, rfl⟩ := reads_bind.mp read₂
  obtain ⟨bounds, _, _, _, bounded, last, rfl⟩ := reads_ite_bind.mp read₃
  obtain ⟨fallback, default, rfl⟩ := reads_bind_pure.mp last
  obtain ⟨_, rfl, rfl, rfl, again⟩ := copies_word named
  simp only [settledAll_append] at settled
  obtain ⟨_, _, limits, fallen⟩ := settled
  have bounding : Again (g.boundsUntil (atAnyOperator [",", ">", "="]))
      (fun x y => Leads Defaulted x y ∨ Defaulted x y) Defaulted :=
    follows_boundsUntil own (.anyMark rfl) (fun _ _ => Defaulted.beyond)
      fun _ _ defaulted _ => defaulted.kinds.2
  obtain ⟨defaulted, _, five, rfl, standing, keeps⟩ := follows_parameterDefault
    (own.type true fun _ _ => Parting.beyond).dropped default fallen parting
  rw [print_of_parameterDefault default] at defaulted standing
  obtain ⟨shown, _, _, three, four, _, print, same, marked, bounds, plain⟩ :=
    reads_bounded bounding mark bounded limits defaulted defaulted.without_colon
  refine ⟨.ident subject :: (shown ++ fallback),
    [.tree (.ident subject)] ++ (three ++ (four ++ five)), ?_, ?_, ?_, rfl, rfl⟩
  · dsimp only
    rw [print, List.append_assoc]
    rfl
  · rw [List.cons_append, List.append_assoc]
    refine reads_bind.mpr ⟨_, _, _, _, again _, reads_bind.mpr ⟨_, _, _, _, marked,
      reads_ite_bind.mpr ⟨_, _, five, _, bounds, reads_bind_pure.mpr ⟨_, standing, ?_⟩, rfl⟩, rfl⟩,
      rfl⟩
    rw [same]
  · rw [← List.append_assoc three, List.singleton_append]
    exact ⟨trivial, plainAll_append.mpr ⟨plain, keeps⟩⟩

theorem follows_constHead (own : g.Repeats) :
    Again g.constHead (Ahead (· = name "const") fun _ _ => True) Defaulted := by
  refine Follows.bind (fun _ _ _ => True) ((copies_keyword _).follows fun _ _ _ => id) fun _ => ?_
  refine Follows.bind (fun _ => Marked ":" (Leads Defaulted))
    (Follows.dropped (copies_ident.follows fun _ _ _ _ => trivial)) fun _ => ?_
  exact (Follows.operator ":").bind _ fun _ => (own.type true fun _ _ => Defaulted.beyond).dropped

/-- A constant parameter, whose default is an argument like any constant. -/
theorem reads_constParam (own : g.Repeats) : ReadsParam attrs (g.constParam attrs) := by
  intro trees rest other value taken read settled parting
  obtain ⟨head, _, _, _, written, last, rfl⟩ := reads_bind.mp read
  obtain ⟨fallback, default, rfl⟩ := reads_bind_pure.mp last
  rw [settledAll_append] at settled
  obtain ⟨defaulted, _, two, rfl, fallen, keeps⟩ :=
    follows_parameterDefault follows_constArgument.dropped default settled.2 parting
  obtain ⟨begins, _, one, same, again, plain⟩ :=
    (follows_constHead own).phrase written settled.1 defaulted
  rw [print_of_parameterDefault default] at begins fallen again
  rw [print_of_phrase written] at begins again
  rw [← List.append_assoc] at begins again
  refine ⟨head.print ++ fallback, one ++ two, List.append_assoc _ _ _, ?_,
    plainAll_append.mpr ⟨plain, keeps⟩, ?_, ?_⟩
  · refine reads_bind.mpr ⟨_, _, _, _, again, reads_bind_pure.mpr ⟨_, fallen, ?_⟩, rfl⟩
    rw [same.2]
  · obtain ⟨_, _, _, rfl, rfl, begins, _⟩ := begins
    rw [begins]
    rfl
  · obtain ⟨_, _, _, rfl, rfl, _, _⟩ := begins
    rfl

/-- What a generic parameter prints behind its attributes is read as this parameter again. -/
theorem reads_genericParamTail (own : g.Repeats) : ReadsParam attrs (g.genericParamTail attrs) := by
  refine .choose .lifetime reads_lifetimeParam.always (.choose .ident (reads_typeParam own).always
    (.choose (.keyword _) (reads_constParam own).always (.choose (.keyword _) (ReadsParam.always ?_)
      (ReadsParam.always ?_))))
  · intro trees rest other value taken read _ _
    obtain ⟨_, blank, rfl⟩ := reads_bind_pure.mp read
    obtain ⟨_, rfl, rfl, rfl, again⟩ := copies_keyword _ blank
    exact ⟨[name "_"], [.tree (name "_")], List.append_nil _, reads_bind_pure.mpr ⟨_, again _, rfl⟩,
      ⟨trivial, trivial⟩, rfl, rfl⟩
  · intro trees rest other value taken read
    cases read.2

/-- A generic parameter is read again from what it prints. -/
theorem readAgain_genericParam (own : g.Repeats) {value : GenericParam}
    (found : ReadInList g.genericParam value) :
    ReadAgain g.genericParam (fun param => param.head ++ param.fallback) Eq value := by
  obtain ⟨trees, taken, rest, read, settled, parting⟩ := found
  intro other ended
  obtain ⟨attrs, one, two, middle, attributes, tail, rfl⟩ := reads_bind.mp read
  rw [settledAll_append] at settled
  obtain ⟨shown, again, print, reads, plain, kind, quiet⟩ :=
    reads_genericParamTail own tail settled.2 ⟨parting, ended⟩
  let behind : Sight := fun x y => headKind x = headKind y ∧ isQuiet (headKind x) = true
  have attributed : Again g.outerAttributes (fun x y => AttributeStart x y ∨ behind x y) behind :=
    follows_outerAttributes (fun _ _ same => OfKind.mark rfl same.1) fun _ _ => id
  obtain ⟨begun, _, front, rfl, earlier, keeps⟩ :=
    attributed attributes settled.1 ⟨kind, quiet⟩
  rw [print_of_outerAttributes attributes,
    ← printOuter_of_outer (outer_of_outerAttributes attributes), ← List.append_assoc,
    ← print] at begun earlier
  refine ⟨?_, value, front ++ again, rfl, reads_bind.mpr ⟨_, _, _, _, earlier, reads, rfl⟩,
    plainAll_append.mpr ⟨keeps, plain⟩⟩
  rw [Bool.eq_false_iff, ne_eq, kind_of_mark (show ">".toList = ['>'] from rfl)]
  rcases begun with ⟨head, fresh, _⟩ | ⟨kind, quiet⟩
  · exact head.kind ▸ fresh.angle
  · exact kind ▸ (Fresh.of_quiet quiet).angle

/-- A parameter that keeps the comma behind it. -/
def withComma (element : GenericParam × Bool) : GenericParam :=
  { element.1 with comma := element.2 }

/-- Parameters are printed in order between angle brackets, and no brackets where there are none. -/
theorem print_withCommas (values : List (GenericParam × Bool)) :
    Generics.print ⟨values.map withComma, []⟩ =
      if values = [] then [] else
        op "<" ++ (printOrdered (fun param : GenericParam => param.head ++ param.fallback)
          GenericParam.isLifetime values ++ op ">") := by
  cases values with
  | nil => rfl
  | cons => simp [Generics.print, Generics.angle, printOrdered, Function.comp_def, withComma]

theorem genericParams_absent {trees : List Tree} (absent : atOperator "<" trees = false) :
    g.genericParams.Reads trees [] [] trees := by
  refine reads_ahead_bind.mpr ?_
  rw [if_neg (ne_true_of_eq_false absent)]
  exact reads_pure.mpr ⟨rfl, rfl, rfl⟩

/-- A list of parameters that is printed is read again, up to the order it is printed in. -/
theorem reads_printedParams (own : g.Repeats) {values : List (GenericParam × Bool)}
    {trees rest : List Tree} {taken : List Piece}
    (list : (untilAngle g.genericParam).Reads trees values taken rest) (settled : SettledAll taken)
    (some : values ≠ []) (other : List Tree) :
    ∃ params again,
      g.genericParams.Reads (Generics.print ⟨values.map withComma, []⟩ ++ other) params again
        other ∧
      Generics.print ⟨values.map withComma, []⟩ = Generics.print ⟨params, []⟩ ∧
      values.isEmpty = params.isEmpty ∧ PlainAll again := by
  have closing : atOperator ">" (op ">" ++ other) = true := rfl
  obtain ⟨others, again, reads, plain, empty, same⟩ :=
    reads_ordered GenericParam.isLifetime (fun _ _ same => by rw [same]; exact ⟨rfl, rfl⟩)
      (fun _ => readAgain_genericParam own) list settled closing
  have some' : others ≠ [] := by
    rintro rfl
    exact some (List.isEmpty_iff.mp empty)
  have print : Generics.print ⟨others.map withComma, []⟩ =
      Generics.print ⟨values.map withComma, []⟩ := by
    rw [print_withCommas, print_withCommas, if_neg some, if_neg some', same]
  refine ⟨others.map withComma, [.reprinted ([.mark '<' false false] ++
    (again ++ [.mark '>' false false])) (Generics.print ⟨others.map withComma, []⟩)],
    reads_ahead_bind.mpr ?_, print.symm, by simpa using empty, ?_, trivial⟩
  · rw [print_withCommas, if_neg some, if_pos (by rfl)]
    refine reads_printingAs.mpr ⟨_, rfl, ?_⟩
    refine reads_bind.mpr ⟨(), _, _, _, (reads_mark rfl).mpr ⟨false, rfl, rfl⟩, ?_, rfl⟩
    refine reads_bind.mpr ⟨others, _, _, op ">" ++ other, ?_, ?_, rfl⟩
    · rw [← List.append_assoc] at reads
      exact reads
    · exact reads_bind_pure.mpr ⟨(), (reads_mark rfl).mpr ⟨false, rfl, rfl⟩, rfl⟩
  · rw [Piece.Plain, print, print_withCommas, if_neg some]
    have taken := List.append_cancel_right reads.conserved
    simp [taken, Piece.source, op, marks]

/-- Generic parameters are read again, and none where the list was empty. -/
theorem follows_genericParams (own : g.Repeats) {behind : Sight}
    (ends : ∀ x y, behind x y → atOperator "<" y = false) :
    Follows g.genericParams g.genericParams
      (fun one two => Generics.print ⟨one, []⟩ = Generics.print ⟨two, []⟩ ∧
        one.isEmpty = two.isEmpty) (fun _ _ => True) fun _ => behind := by
  intro trees rest other params taken read settled relation
  refine ⟨trivial, ?_⟩
  have absent : g.genericParams.Reads other [] [] other := genericParams_absent (ends _ _ relation)
  rw [print_of_genericParams read]
  have read := reads_ahead_bind.mp read
  split at read
  · obtain ⟨written, rfl, whole⟩ := reads_printingAs.mp read
    obtain ⟨_, _, _, _, _, behind, rfl⟩ := reads_bind.mp whole
    obtain ⟨values, _, _, _, list, last, rfl⟩ := reads_bind.mp behind
    obtain ⟨_, _, made⟩ := reads_bind_pure.mp last
    obtain rfl : params = values.map withComma := made
    simp only [SettledAll, Piece.Settled, settledAll_append] at settled
    by_cases none : values = []
    · subst none
      exact ⟨[], [], ⟨rfl, rfl⟩, absent, trivial⟩
    · obtain ⟨params, again, reads, print, empty, plain⟩ :=
        reads_printedParams own list settled.1.2.1 none other
      exact ⟨params, again, ⟨print, by simpa using empty⟩, reads, plain⟩
  · obtain ⟨rfl, rfl, rfl⟩ := reads_pure.mp read
    exact ⟨[], [], ⟨rfl, rfl⟩, absent, trivial⟩

/-! ### Conditions -/

/-- A semicolon stands first, in both. -/
def Semicolon (x y : List Tree) : Prop :=
  headKind x = some (.punct ';') ∧ headKind y = some (.punct ';')

/-- A comma or a semicolon ends a condition, in both. -/
def Conditioned (x y : List Tree) : Prop :=
  headKind x = headKind y ∧ [some (.punct ','), some (.punct ';')].contains (headKind x) = true

theorem Semicolon.conditioned {x y : List Tree} (semicolon : Semicolon x y) : Conditioned x y := by
  obtain ⟨written, printed⟩ := semicolon
  rw [Conditioned, written, printed]
  decide

theorem Conditioned.cases {x y : List Tree} (conditioned : Conditioned x y) :
    headKind x = some (.punct ',') ∨ headKind x = some (.punct ';') := by
  simpa using conditioned.2

theorem Conditioned.head {x y : List Tree} (conditioned : Conditioned x y) : Head x y := by
  refine .of_quiet conditioned.1 ?_
  rcases conditioned.cases with comma | semicolon
  · rw [comma]
    decide
  · rw [semicolon]
    decide

theorem Conditioned.other {x y : List Tree} (conditioned : Conditioned x y) {mark : Char}
    (other : mark ≠ ',' ∧ mark ≠ ';') : headKind x ≠ some (.punct mark) := by
  rcases conditioned.cases with comma | semicolon
  · rw [comma]
    simpa using other.1.symm
  · rw [semicolon]
    simpa using other.2.symm

theorem seen_clauseEnd : Seen atClauseEnd :=
  ((Seen.isEmpty.or (.group _)).or (.anyMark rfl)).or
    (.and (.mark rfl) (.not (.firm rfl (by decide))))

/-- What follows the colon behind a lifetime: its bounds, which no colon stands among. -/
def Outlived : Sight := fun x y => headKind x = headKind y ∧ headKind x ≠ some (.punct ':')

/-- A condition on a lifetime behind its name. -/
theorem follows_outlived :
    Again (discard (lifetimeBounds atClauseEnd)) Outlived Conditioned := by
  refine Follows.dropped (follows_lifetimeBounds ?_
    (fun x y ended => ⟨ended.1, ended.other (by decide)⟩)
    (fun x y ended found => (seen_clauseEnd ended.head).symm.trans found) (fun _ _ => rfl)
    fun x y ended => ?_)
  · rintro _ _ ⟨_, _, _, ⟨name, rfl⟩, rfl, rfl, _⟩
    exact ⟨rfl, fun colon => by cases colon⟩
  · rw [← Seen.mark (by rfl) ended.head, Bool.eq_false_iff, ne_eq, kind_of_mark (by rfl)]
    exact ended.other (by decide)

/-- What follows the colon behind a type: its bounds, or the end of the condition. -/
def Bounded : Sight := fun x y => Leads Conditioned x y ∨ Conditioned x y

theorem Bounded.colon {x y : List Tree} (marked : Marked ":" Bounded x y) : Next x y :=
  marked.colon fun _ _ => Or.rec (fun leads => leads.fresh.colon) fun ended colon =>
    absurd colon (ended.other (by decide))

/-- A condition on a type. -/
def typeCondition (g : Grammar) : Reader Unit := do
  discard g.boundLifetimes
  discard (g.type true)
  operator ":"
  discard (g.boundsUntil atClauseEnd)

theorem follows_typeCondition (own : g.Repeats) :
    Again g.typeCondition (Leads Next) Conditioned := by
  have limits : Again (discard (g.boundsUntil atClauseEnd)) Bounded Conditioned :=
    (follows_boundsUntil own seen_clauseEnd (fun _ _ ended => .inl ended.head)
      fun _ _ ended found => (seen_clauseEnd ended.head).symm.trans found).dropped
  exact follows_leadingLifetimes.dropped.bind _ fun _ => Follows.bind (fun _ => Marked ":" Bounded)
    ((own.type true fun _ _ marked => .of_next (Bounded.colon marked)).starting fun _ _ leads =>
      leads.imp fun _ _ marked => .inr (Bounded.colon marked)).dropped fun _ =>
        (Follows.operator ":").bind _ fun _ => limits

/-- A condition is one on a lifetime where a colon follows it, in both. -/
theorem lifetimeCondition_same {x y : List Tree} (leads : Leads Next x y) :
    (atLifetime x && atOperator ":" (x.drop 1)) =
      (atLifetime y && atOperator ":" (y.drop 1)) := by
  rw [Seen.lifetime leads.head]
  cases found : atLifetime y with
  | false => rfl
  | true =>
      rw [← Seen.lifetime leads.head] at found
      have second : atOperator ":" (x.drop 1) = atOperator ":" (y.drop 1) := by
        rcases leads.second (isOpen_of_lifetime found) with head | head | colon
        · exact Seen.mark rfl head
        · exact Seen.mark rfl head
        · rw [(kind_of_mark rfl).mpr colon.written, (kind_of_mark rfl).mpr colon.printed]
      rw [second]

theorem follows_wherePredicate (own : g.Repeats) :
    Again g.wherePredicate (Leads Next) Conditioned := by
  refine .choose (Ahead (fun tree => ∃ name, tree = .lifetime name) (Marked ":" Outlived))
    (Leads Next) (Follows.always ?_) (follows_typeCondition own).always (fun x y found ahead => ?_)
    fun x y absent leads => ⟨(lifetimeCondition_same leads).symm.trans absent, leads⟩
  · refine Follows.bind (fun _ => Marked ":" Outlived)
      (copies_lifetime.follows fun name x y ahead => ?_).dropped fun _ =>
        (Follows.operator ":").bind _ fun _ => follows_outlived
    obtain ⟨tree, rest, other, same, led⟩ := ahead
    exact ⟨tree, rest, other, ⟨name, same⟩, led⟩
  · have leads : Leads Next x y := ahead.leads (by rintro _ ⟨_, rfl⟩; rfl) fun _ _ marked =>
      .inr (marked.colon fun _ _ listed colon => absurd colon listed.2)
    exact ⟨(lifetimeCondition_same leads).symm.trans found, leads⟩

/-- The conditions behind `where`. -/
def conditions (g : Grammar) : Reader Nat := do
  keyword "where"
  loop (countStep atClauseEnd g.wherePredicate ",") 0

theorem whereClause_absent {trees : List Tree} (absent : atKeyword "where" trees = false) :
    g.whereClause.Reads trees [] [] trees := by
  refine reads_ahead_bind.mpr ?_
  rw [if_neg (ne_true_of_eq_false absent)]
  exact reads_pure.mpr ⟨rfl, rfl, rfl⟩

/-- A clause is printed as its conditions are, and not at all where it has none. -/
theorem reads_whereClause {trees rest clause : List Tree} {taken : List Piece}
    (stands : atKeyword "where" trees = true) :
    g.whereClause.Reads trees clause taken rest ↔ ∃ pieces found,
      taken = [.reprinted pieces clause] ∧ (phrase g.conditions).Reads trees found pieces rest ∧
        clause = if found.kind == 0 then [] else found.print := by
  unfold whereClause
  rw [reads_ahead_bind, if_pos stands, reads_printingAs]
  constructor
  · rintro ⟨pieces, rfl, inside⟩
    obtain ⟨found, conditions, rfl⟩ := reads_bind_pure.mp inside
    exact ⟨pieces, found, rfl, conditions, rfl⟩
  · rintro ⟨pieces, found, rfl, conditions, rfl⟩
    exact ⟨pieces, rfl, reads_bind_pure.mpr ⟨found, conditions, rfl⟩⟩

/-- The conditions are read up to the semicolon again, one after the other. -/
theorem follows_conditions (own : g.Repeats) :
    Again g.conditions (Ahead (· = name "where") fun _ _ => True) Semicolon := by
  let before : Sight := fun x y => Leads Next x y ∨ Semicolon x y
  refine Follows.bind (fun _ => before) ((copies_keyword _).follows fun _ x y ahead => ?_)
    fun _ => Follows.loopSame ?_ (fun _ => before) (fun count => ?_) 0
  · obtain ⟨tree, rest, other, same, first, second, _⟩ := ahead
    exact ⟨tree, rest, other, same, first, second, trivial⟩
  · refine fun count => Takes.second fun _ => .ite (.pure Bool.false_ne_true)
      (Takes.second fun _ => ?_)
    exact takes_operator?_ite rfl (.pure Bool.false_ne_true)
  refine .choose Semicolon (Leads Next) (Follows.always (.pure rfl)) (Follows.always ?_)
    (fun x y found ended =>
      ⟨(seen_clauseEnd ended.conditioned.head).symm.trans found, .inr ended⟩)
    fun x y absent leads => ⟨(seen_clauseEnd leads.head).symm.trans absent, .inl leads⟩
  refine Follows.bind _ (follows_wherePredicate own) fun _ => .operatorIf "," before Semicolon
    (.pure rfl) (.pure rfl) (fun x y marked => ?_) fun x y _ ended => ⟨?_, ended.conditioned⟩
  · obtain ⟨_, _, _, rfl, rfl, _⟩ := marked
    exact ⟨rfl, rfl⟩
  · rw [Bool.eq_false_iff, ne_eq, kind_of_mark (by rfl), ended.2]
    decide

/-- A `where` clause is read again from what it prints, and nothing where it has no conditions. -/
theorem follows_whereClause (own : g.Repeats) : Again g.whereClause Beyond Semicolon := by
  intro trees rest other clause taken read settled ended
  have closing : isClosing (headKind other) = true := by
    rw [ended.2]
    decide
  have unread : g.whereClause.Reads other [] [] other := by
    refine whereClause_absent ?_
    rw [atKeyword_eq, ended.2]
    decide
  by_cases word : atKeyword "where" trees = true
  · obtain ⟨written, found, rfl, conditions, rfl⟩ := (reads_whereClause word).mp read
    by_cases none : (found.kind == 0) = true
    · rw [if_pos none]
      exact ⟨.inr (.inr ⟨.inr word, closing⟩), [], [], rfl, unread, trivial⟩
    rw [if_neg none]
    obtain ⟨ahead, again, pieces, ⟨kind, print⟩, reads, plain⟩ :=
      (follows_conditions own).phrase conditions settled.1 ended
    rw [print_of_phrase conditions] at ahead reads
    have shown : printAll [.reprinted written found.print] = found.print := List.append_nil _
    rw [shown]
    obtain ⟨_, _, _, rfl, rfl, begins, _⟩ := ahead
    refine ⟨.inl ?_, found.print, [.reprinted pieces found.print], rfl, ?_, ?_, trivial⟩
    · rw [begins]
      exact Head.of_quiet rfl rfl
    · rw [begins] at reads ⊢
      refine (reads_whereClause rfl).mpr ⟨pieces, again, rfl, reads, ?_⟩
      rw [← kind, if_neg none, print]
    · rw [Piece.Plain]
      exact List.append_cancel_right reads.conserved
  · have word := Bool.eq_false_iff.mpr word
    obtain ⟨rfl, rfl, rfl⟩ := read.unique (whereClause_absent word)
    exact ⟨.inl ended.conditioned.head, [], [], rfl, unread, trivial⟩

end Grammar
end Source
end Toolsmith
