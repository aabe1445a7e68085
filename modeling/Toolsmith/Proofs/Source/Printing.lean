import Mathlib
import Toolsmith.Source.Function
import Toolsmith.Proofs.Source.Locality

/-! # What was read prints as its pieces

A declaration that was read keeps some of its parts as values, such as its attributes and the fields
of its signature, and prints them by these. What it prints are the trees that its pieces print
(`Declaration.reads_print`), and these are the trees it was read from when its pieces are plain
(`Piece.printAll_of_plain`).
-/

namespace Toolsmith
namespace Source

namespace Piece

mutual

/-- The piece is printed as it was written, and so is what is inside of it. -/
def Plain : Piece → Prop
  | .tree _ => True
  | .mark _ written printed => written = printed
  | .group _ content => PlainAll content
  | .reprinted written printed => sourceAll written = printed

/-- The pieces are printed as they were written. -/
def PlainAll : List Piece → Prop
  | [] => True
  | piece :: rest => piece.Plain ∧ PlainAll rest

end

mutual

/-- Whether the piece is printed as it was written is computed. -/
def decidePlain : (piece : Piece) → Decidable piece.Plain
  | .tree _ => .isTrue trivial
  | .mark _ written printed => inferInstanceAs (Decidable (written = printed))
  | .group _ content => decidePlainAll content
  | .reprinted written printed => inferInstanceAs (Decidable (sourceAll written = printed))

def decidePlainAll : (pieces : List Piece) → Decidable (PlainAll pieces)
  | [] => .isTrue trivial
  | piece :: rest =>
    match decidePlain piece, decidePlainAll rest with
    | .isTrue first, .isTrue others => .isTrue ⟨first, others⟩
    | .isFalse not, _ => .isFalse fun plain => not plain.1
    | _, .isFalse not => .isFalse fun plain => not plain.2

end

instance : DecidablePred PlainAll := decidePlainAll

theorem plainAll_append {first second : List Piece} :
    PlainAll (first ++ second) ↔ PlainAll first ∧ PlainAll second := by
  induction first with
  | nil => simp [PlainAll]
  | cons piece rest ih => simp only [List.cons_append, PlainAll, ih, and_assoc]

mutual

theorem print_of_plain : ∀ {piece : Piece}, piece.Plain → piece.print = piece.source
  | .tree _, _ => rfl
  | .mark _ _ _, same => by rw [print, source, show _ = _ from same]
  | .group _ _, inside => by rw [print, source, printAll_of_plain inside]
  | .reprinted _ _, same => (show _ = _ from same).symm

/-- Plain pieces are printed as the trees they were written as. -/
theorem printAll_of_plain :
    ∀ {pieces : List Piece}, PlainAll pieces → printAll pieces = sourceAll pieces
  | [], _ => rfl
  | _ :: _, plain => by
      rw [printAll_cons, sourceAll_cons, print_of_plain plain.1, printAll_of_plain plain.2]

end

end Piece

open Piece Reader

namespace Reader

variable {α : Type}

theorem print_of_takeMarks {text : List Char} {trees : List Tree} {reading : Reading Unit trees}
    (found : takeMarks text trees = some reading) : printAll reading.taken = marks text := by
  induction text generalizing trees with
  | nil =>
      cases found
      rfl
  | cons mark others ih =>
      rcases trees with _ | ⟨head, more⟩
      · cases others <;> cases found
      cases head with
      | punct symbol joint =>
          cases others with
          | nil =>
              rw [takeMarks] at found
              split at found
              · cases found
                rfl
              · cases found
          | cons next others =>
              rw [takeMarks] at found
              split at found
              · obtain ⟨later, again, rfl⟩ := Option.map_eq_some_iff.mp found
                exact congrArg (Tree.punct mark true :: ·) (ih again)
              · cases found
      | _ => cases others <;> cases found

/-- An operator is printed with its own spacing. -/
theorem print_of_operator {text : String} {trees rest : List Tree} {value : Unit}
    {taken : List Piece} (read : (operator text).Reads trees value taken rest) :
    printAll taken = op text := by
  obtain ⟨_, found⟩ := reads_operator.mp read
  exact print_of_takeMarks found

theorem print_of_keyword {text : String} {trees rest : List Tree} {value : Unit}
    {taken : List Piece} (read : (keyword text).Reads trees value taken rest) :
    printAll taken = [name text] := by
  rw [(reads_keyword.mp read).2]
  rfl

theorem print_of_keyword? {text : String} {trees rest : List Tree} {value : Bool}
    {taken : List Piece} (read : (keyword? text).Reads trees value taken rest) :
    printAll taken = qualifier value text := by
  rcases reads_keyword?.mp read with ⟨rfl, _, word⟩ | ⟨rfl, _, _, rfl⟩
  · exact print_of_keyword word
  · rfl

theorem print_of_operator? {text : String} {trees rest : List Tree} {value : Bool}
    {taken : List Piece} (read : (operator? text).Reads trees value taken rest) :
    printAll taken = if value then op text else [] := by
  rcases reads_operator?.mp read with ⟨rfl, _, mark⟩ | ⟨rfl, _, _, rfl⟩
  · exact print_of_operator mark
  · rfl

/-- A word is one tree, an identifier that may be a keyword. -/
theorem reads_word {trees rest : List Tree} {value : Ident} {taken : List Piece} :
    word.Reads trees value taken rest ↔
      trees = .ident value :: rest ∧ taken = [.tree (.ident value)] := by
  constructor
  · rintro ⟨_, read⟩
    unfold word at read
    split at read
    · cases read
      exact ⟨rfl, rfl⟩
    · cases read
  · rintro ⟨rfl, rfl⟩
    exact ⟨rfl, rfl⟩

theorem print_of_ident {trees rest : List Tree} {value : Ident} {taken : List Piece}
    (read : Reader.ident.Reads trees value taken rest) : printAll taken = [.ident value] := by
  have read := reads_ahead_bind.mp read
  split at read
  · rw [(reads_word.mp read).2]
    rfl
  · obtain ⟨_, read⟩ := read
    cases read

theorem print_of_phrase {reader : Reader α} {trees rest : List Tree} {value : Phrase α}
    {taken : List Piece} (read : (phrase reader).Reads trees value taken rest) :
    printAll taken = value.print := by
  rw [← (reads_phrase.mp read).1]
  rfl

theorem reads_bind_pure {β : Type} {first : Reader α} {made : α → β} {trees rest : List Tree}
    {value : β} {taken : List Piece} :
    (first >>= fun found => pure (made found)).Reads trees value taken rest ↔
      ∃ found, first.Reads trees found taken rest ∧ value = made found := by
  rw [reads_bind]
  constructor
  · rintro ⟨found, one, _, _, read, last, rfl⟩
    obtain ⟨rfl, rfl, rfl⟩ := reads_pure.mp last
    exact ⟨found, (List.append_nil one).symm ▸ read, rfl⟩
  · rintro ⟨found, read, rfl⟩
    exact ⟨found, taken, [], rest, read, reads_pure.mpr ⟨rfl, rfl, rfl⟩,
      (List.append_nil taken).symm⟩

theorem reads_anyGroup {what : String} {trees rest : List Tree} {value : Delimiter × List Tree}
    {taken : List Piece} :
    (anyGroup what).Reads trees value taken rest ↔
      trees = .group value.1 value.2 :: rest ∧ taken = [.tree (.group value.1 value.2)] := by
  constructor
  · rintro ⟨_, read⟩
    unfold anyGroup at read
    split at read
    · cases read
      exact ⟨rfl, rfl⟩
    · cases read
  · rintro ⟨rfl, rfl⟩
    exact ⟨rfl, rfl⟩

/-- A group that was read, with the pieces of its content. -/
theorem reads_group {delimiter : Delimiter} {inner : Reader α} {trees rest : List Tree} {value : α}
    {taken : List Piece} :
    (group delimiter inner).Reads trees value taken rest ↔
      ∃ content pieces, trees = .group delimiter content :: rest ∧
        taken = [.group delimiter pieces] ∧ inner.Reads content value pieces [] := by
  constructor
  · rintro ⟨_, read⟩
    rcases trees with _ | ⟨head, others⟩
    · cases read
    cases head with
    | group found content =>
        by_cases same : found = delimiter
        · subst same
          cases inside : inner content with
          | error mismatch =>
              simp only [group, ↓reduceDIte, inside] at read
              cases read
          | ok reading =>
              obtain ⟨value, taken, left, conserved⟩ := reading
              simp only [group, ↓reduceDIte, inside] at read
              cases left with
              | nil =>
                  cases read
                  exact ⟨content, _, rfl, rfl, conserved, inside⟩
              | cons next more => cases read
        · simp only [group, same, ↓reduceDIte] at read
          cases read
    | _ => cases read
  · rintro ⟨content, pieces, rfl, rfl, conserved, inside⟩
    have whole : sourceAll pieces = content := by simpa using conserved
    refine ⟨by simp [source, whole], ?_⟩
    simp only [group, ↓reduceDIte, inside]

/-- What is read again and again is read in parts, up to where it cannot go on. -/
theorem parts_of_many {more : List Tree → Bool} {reader : Reader α} {trees rest : List Tree}
    {values : List α} {taken : List Piece}
    (read : (many more reader).Reads trees values taken rest) :
    more rest = false ∧ ∃ parts : List (α × List Piece), values = parts.map Prod.fst ∧
      taken = parts.flatMap Prod.snd ∧
        ∀ part ∈ parts, ∃ before after, reader.Reads before part.1 part.2 after := by
  obtain ⟨result, rounds, rfl⟩ := reads_bind_pure.mp read
  have run := Reads.loop_induction
    (motive := fun earlier _ result taken rest => more rest = false ∧
      ∃ parts : List (α × List Piece), result = (parts.map Prod.fst).reverse ++ earlier ∧
        taken = parts.flatMap Prod.snd ∧
          ∀ part ∈ parts, ∃ before after, reader.Reads before part.1 part.2 after)
    ?_ ?_ rounds
  · obtain ⟨ends, parts, rfl, whole, each⟩ := run
    exact ⟨ends, parts, by simp, whole, each⟩
  · intro state trees value taken rest round
    have round := reads_ahead_bind.mp round
    split at round
    · obtain ⟨_, _, same⟩ := reads_bind_pure.mp round
      cases same
    · rename_i ends
      obtain ⟨same, rfl, rfl⟩ := reads_pure.mp round
      cases same
      exact ⟨Bool.eq_false_iff.mpr ends, [], rfl, rfl, nofun⟩
  · intro state next trees between rest value one two round later
    have round := reads_ahead_bind.mp round
    split at round
    · obtain ⟨found, first, same⟩ := reads_bind_pure.mp round
      cases same
      obtain ⟨ends, parts, rfl, rfl, each⟩ := later
      refine ⟨ends, (found, one) :: parts, by simp, rfl, ?_⟩
      exact List.forall_mem_cons.mpr ⟨⟨_, _, first⟩, each⟩
    · obtain ⟨same, _⟩ := reads_pure.mp round
      cases same

theorem sourceAll_flatMap {β : Type} (pieces : β → List Piece) (values : List β) :
    sourceAll (values.flatMap pieces) = values.flatMap fun value => sourceAll (pieces value) := by
  induction values with
  | nil => rfl
  | cons value rest ih => rw [List.flatMap_cons, sourceAll_append, ih, List.flatMap_cons]

theorem printAll_flatMap {β : Type} (pieces : β → List Piece) (values : List β) :
    printAll (values.flatMap pieces) = values.flatMap fun value => printAll (pieces value) := by
  induction values with
  | nil => rfl
  | cons value rest ih => rw [List.flatMap_cons, printAll_append, ih, List.flatMap_cons]

/-! ### Attributes -/

/-- One round of a path: a segment, and whether it goes on. -/
def segmentStep (segments : List Ident) : Reader (List Ident ⊕ List Ident) := do
  let trees ← ahead
  if atIdent trees || atAnyKeyword ["super", "self", "Self", "crate"] trees then
    let segments := (← word) :: segments
    if ← operator? "::" then return .inl segments else return .inr segments
  else missing "identifier"

theorem progresses_segmentStep : Progresses segmentStep :=
  fun _ => Takes.second fun _ => .ite takesOne_word.takes.first (.missing _)

/-- The round took a segment, and a double colon where it goes on. -/
theorem of_segmentStep {segments : List Ident} {trees rest : List Tree} {taken : List Piece}
    {value : List Ident ⊕ List Ident}
    (read : (segmentStep segments).Reads trees value taken rest) :
    ∃ segment, (value = .inl (segment :: segments) ∧ printAll taken = .ident segment :: op "::") ∨
      (value = .inr (segment :: segments) ∧ printAll taken = [.ident segment]) := by
  have read := reads_ahead_bind.mp read
  split at read
  · obtain ⟨segment, _, _, _, word, after, rfl⟩ := reads_bind.mp read
    obtain ⟨goesOn, _, _, _, colons, last, rfl⟩ := reads_bind.mp after
    have print := print_of_operator? colons
    rw [(reads_word.mp word).2]
    refine ⟨segment, ?_⟩
    split at last
    · rename_i goes
      obtain ⟨rfl, rfl, rfl⟩ := reads_pure.mp last
      simp only [goes, ↓reduceIte] at print
      exact .inl ⟨rfl, by simp [Piece.print, print]⟩
    · rename_i ends
      obtain ⟨rfl, rfl, rfl⟩ := reads_pure.mp last
      simp only [ends, Bool.false_eq_true, ↓reduceIte] at print
      exact .inr ⟨rfl, by simp [Piece.print, print]⟩
  · obtain ⟨_, read⟩ := read
    cases read

/-- A path is printed as its segments. -/
theorem print_of_modulePath {trees rest : List Tree} {path : AttributePath} {taken : List Piece}
    (read : modulePath.Reads trees path taken rest) : printAll taken = path.print := by
  obtain ⟨rooted, _, _, _, colons, after, rfl⟩ := reads_bind.mp read
  obtain ⟨segments, _, _, _, rounds, last, rfl⟩ := reads_bind.mp after
  obtain ⟨rfl, rfl, rfl⟩ := reads_pure.mp last
  have run := Reads.loop_induction
    (motive := fun earlier _ result taken _ => ∃ others, others ≠ [] ∧
      result = others.reverse ++ earlier ∧
        printAll taken = separated (op "::") (others.map fun segment => [.ident segment]))
    ?_ ?_ rounds
  · obtain ⟨others, _, same, print⟩ := run
    rw [List.append_nil] at same
    rw [printAll_append, printAll_append, print_of_operator? colons, print, same, printAll_nil,
      List.append_nil]
    simp [AttributePath.print]
  · intro earlier trees value taken rest round
    obtain ⟨segment, ⟨same, _⟩ | ⟨same, print⟩⟩ := of_segmentStep round
    · cases same
    · cases same
      exact ⟨[segment], List.cons_ne_nil _ _, rfl, print⟩
  · intro earlier next trees between rest value one two round later
    obtain ⟨others, some, rfl, print⟩ := later
    obtain ⟨segment, ⟨same, first⟩ | ⟨same, _⟩⟩ := of_segmentStep round
    · cases same
      refine ⟨segment :: others, List.cons_ne_nil _ _, by simp, ?_⟩
      obtain ⟨second, others, rfl⟩ := List.exists_cons_of_ne_nil some
      rw [printAll_append, first, print]
      rfl
    · cases same

end Reader

namespace Grammar

variable {g : Grammar}

/-- The path of an attribute. -/
def attributePath : Reader AttributePath := do
  if ← keyword? "unsafe" then return ⟨false, [⟨false, "unsafe"⟩]⟩ else modulePath

/-- What follows the path of an attribute. -/
def attributeArguments (g : Grammar) : Reader AttributeArguments := do
  let trees ← ahead
  if atGroup .paren trees || atGroup .bracket trees || atGroup .brace trees then
    let (delimiter, tokens) ← anyGroup "arguments"
    return .list delimiter tokens
  else if atOperator "=" trees then
    operator "="
    let trees ← ahead
    if atOperator "#" trees && atGroup .bracket (trees.drop 1) then
      fail (.refused "unexpected attribute inside of attribute")
    else return .value (← phrase (g.expression true))
  else return .none

/-- The rest of an attribute behind its path. -/
def attributeTail (g : Grammar) (inner : Bool) (path : AttributePath) : Reader Attribute := do
  let trees ← ahead
  if atGroup .paren trees || atGroup .bracket trees || atGroup .brace trees then
    let (delimiter, tokens) ← anyGroup "arguments"
    return ⟨inner, path, .list delimiter tokens⟩
  else if atOperator "=" trees then
    operator "="
    let trees ← ahead
    if atOperator "#" trees && atGroup .bracket (trees.drop 1) then
      fail (.refused "unexpected attribute inside of attribute")
    else return ⟨inner, path, .value (← phrase (g.expression true))⟩
  else return ⟨inner, path, .none⟩

/-- What follows the path of an attribute are its arguments: a group, a value behind an equals sign,
or nothing. -/
theorem reads_attributeTail {inner : Bool} {path : AttributePath} {trees rest : List Tree}
    {attr : Attribute} {taken : List Piece} :
    (g.attributeTail inner path).Reads trees attr taken rest ↔
      g.attributeArguments.Reads trees attr.arguments taken rest ∧ attr.inner = inner ∧
        attr.path = path := by
  obtain ⟨own, given, arguments⟩ := attr
  unfold attributeTail attributeArguments
  rw [reads_ahead_bind, reads_ahead_bind]
  split_ifs with grouped assigned
  · rw [reads_bind_pure, reads_bind_pure]
    constructor
    · rintro ⟨found, read, same⟩
      cases same
      exact ⟨⟨found, read, rfl⟩, rfl, rfl⟩
    · rintro ⟨⟨found, read, rfl⟩, rfl, rfl⟩
      exact ⟨found, read, rfl⟩
  · rw [reads_bind, reads_bind]
    simp only [reads_ahead_bind]
    constructor
    · rintro ⟨_, one, two, between, mark, read, same⟩
      split at read
      · obtain ⟨_, read⟩ := read
        cases read
      · rename_i plain
        obtain ⟨value, expression, whole⟩ := reads_bind_pure.mp read
        cases whole
        refine ⟨⟨_, one, two, between, mark, ?_, same⟩, rfl, rfl⟩
        rw [if_neg plain]
        exact reads_bind_pure.mpr ⟨value, expression, rfl⟩
    · rintro ⟨⟨_, one, two, between, mark, read, same⟩, rfl, rfl⟩
      refine ⟨_, one, two, between, mark, ?_, same⟩
      split at read
      · obtain ⟨_, read⟩ := read
        cases read
      · rename_i plain
        obtain ⟨value, expression, rfl⟩ := reads_bind_pure.mp read
        rw [if_neg plain]
        exact reads_bind_pure.mpr ⟨value, expression, rfl⟩
  · simp only [reads_pure, Attribute.mk.injEq]
    tauto

/-- An attribute is its path and what follows it. -/
theorem reads_attributeContent {inner : Bool} {trees rest : List Tree} {attr : Attribute}
    {taken : List Piece} :
    (g.attributeContent inner).Reads trees attr taken rest ↔
      ∃ one two between, attributePath.Reads trees attr.path one between ∧
        g.attributeArguments.Reads between attr.arguments two rest ∧ attr.inner = inner ∧
          taken = one ++ two := by
  unfold attributeContent
  rw [reads_bind]
  constructor
  · rintro ⟨marked, one, two, between, word, read, rfl⟩
    split at read
    · rename_i found
      obtain ⟨_, own, more, behind, path, last, rfl⟩ := reads_bind.mp read
      obtain ⟨rfl, rfl, rfl⟩ := reads_pure.mp path
      obtain ⟨arguments, same, whole⟩ := reads_attributeTail.mp last
      refine ⟨one, more, _, ?_, arguments, same, rfl⟩
      rw [whole]
      refine reads_bind.mpr ⟨marked, one, [], _, word, ?_, (List.append_nil _).symm⟩
      rw [if_pos found]
      exact reads_pure.mpr ⟨rfl, rfl, rfl⟩
    · rename_i found
      obtain ⟨_, own, more, behind, path, last, rfl⟩ := reads_bind.mp read
      obtain ⟨arguments, same, rfl⟩ := reads_attributeTail.mp last
      refine ⟨one ++ own, more, _, ?_, arguments, same, (List.append_assoc _ _ _).symm⟩
      refine reads_bind.mpr ⟨marked, one, own, _, word, ?_, rfl⟩
      rw [if_neg found]
      exact path
  · rintro ⟨one, two, between, path, arguments, same, rfl⟩
    obtain ⟨marked, early, late, behind, word, named, rfl⟩ := reads_bind.mp path
    split at named
    · rename_i found
      obtain ⟨whole, rfl, rfl⟩ := reads_pure.mp named
      refine ⟨marked, early, two, _, word, ?_, by rw [List.append_nil]⟩
      rw [if_pos found]
      exact reads_bind.mpr ⟨_, [], two, _, reads_pure.mpr ⟨rfl, rfl, rfl⟩,
        reads_attributeTail.mpr ⟨arguments, same, whole⟩, rfl⟩
    · rename_i found
      refine ⟨marked, early, late ++ two, _, word, ?_, List.append_assoc _ _ _⟩
      rw [if_neg found]
      exact reads_bind.mpr
        ⟨_, late, two, _, named, reads_attributeTail.mpr ⟨arguments, same, rfl⟩, rfl⟩

/-- The path of an attribute prints as it was read. -/
theorem print_of_attributePath {trees rest : List Tree} {path : AttributePath} {taken : List Piece}
    (read : attributePath.Reads trees path taken rest) : printAll taken = path.print := by
  obtain ⟨marked, _, _, _, word, last, rfl⟩ := reads_bind.mp read
  split at last
  · rename_i found
    obtain ⟨rfl, rfl, rfl⟩ := reads_pure.mp last
    rw [List.append_nil, print_of_keyword? word, found]
    rfl
  · rename_i found
    rw [printAll_append, print_of_keyword? word, print_of_modulePath last,
      Bool.eq_false_iff.mpr found]
    rfl

theorem print_of_attributeArguments {trees rest : List Tree} {value : AttributeArguments}
    {taken : List Piece} (read : g.attributeArguments.Reads trees value taken rest) :
    printAll taken = value.print := by
  have read := reads_ahead_bind.mp read
  split at read
  · obtain ⟨found, arguments, rfl⟩ := reads_bind_pure.mp read
    rw [(reads_anyGroup.mp arguments).2]
    rfl
  split at read
  · obtain ⟨_, _, _, _, mark, after, rfl⟩ := reads_bind.mp read
    have after := reads_ahead_bind.mp after
    split at after
    · obtain ⟨_, after⟩ := after
      cases after
    · obtain ⟨value, expression, rfl⟩ := reads_bind_pure.mp after
      rw [printAll_append, print_of_operator mark, print_of_phrase expression]
      rfl
  · obtain ⟨rfl, rfl, rfl⟩ := reads_pure.mp read
    rfl

/-- An attribute in front of something, as its two trees. -/
theorem reads_outerAttribute {trees rest : List Tree} {attr : Attribute} {taken : List Piece} :
    g.outerAttribute.Reads trees attr taken rest ↔
      ∃ joint content pieces, trees = .punct '#' joint :: .group .bracket content :: rest ∧
        taken = [.mark '#' joint false, .group .bracket pieces] ∧
          (g.attributeContent false).Reads content attr pieces [] := by
  unfold outerAttribute
  rw [reads_bind]
  constructor
  · rintro ⟨_, one, two, between, mark, grouped, rfl⟩
    obtain ⟨joint, rfl, rfl⟩ := (reads_mark (show "#".toList = ['#'] from rfl)).mp mark
    obtain ⟨content, pieces, rfl, rfl, inside⟩ := reads_group.mp grouped
    exact ⟨joint, content, pieces, rfl, rfl, inside⟩
  · rintro ⟨joint, content, pieces, rfl, rfl, inside⟩
    exact ⟨(), _, _, _, (reads_mark (show "#".toList = ['#'] from rfl)).mpr ⟨joint, rfl, rfl⟩,
      reads_group.mpr ⟨content, pieces, rfl, rfl, inside⟩, rfl⟩

theorem print_of_outerAttribute {trees rest : List Tree} {attr : Attribute} {taken : List Piece}
    (read : g.outerAttribute.Reads trees attr taken rest) :
    printAll taken = attr.print := by
  obtain ⟨joint, content, pieces, _, rfl, inside⟩ := reads_outerAttribute.mp read
  obtain ⟨one, two, between, path, arguments, outer, rfl⟩ := reads_attributeContent.mp inside
  simp only [Attribute.print, outer, printAll_cons, Piece.print, printAll_append,
    print_of_attributePath path, print_of_attributeArguments arguments]
  rfl

/-- An attribute inside of something takes its three trees. -/
theorem of_innerAttribute {trees rest : List Tree} {attr : Attribute} {taken : List Piece}
    (read : g.innerAttribute.Reads trees attr taken rest) :
    ∃ joint spacing content pieces,
      taken = [.mark '#' joint false, .mark '!' spacing false, .group .bracket pieces] ∧
        (g.attributeContent true).Reads content attr pieces [] := by
  obtain ⟨_, _, _, _, mark, behind, rfl⟩ := reads_bind.mp read
  obtain ⟨_, _, _, _, negation, grouped, rfl⟩ := reads_bind.mp behind
  obtain ⟨joint, _, rfl⟩ := (reads_mark (show "#".toList = ['#'] from rfl)).mp mark
  obtain ⟨spacing, _, rfl⟩ := (reads_mark (show "!".toList = ['!'] from rfl)).mp negation
  obtain ⟨content, pieces, _, rfl, inside⟩ := reads_group.mp grouped
  exact ⟨joint, spacing, content, pieces, rfl, inside⟩

theorem print_of_innerAttribute {trees rest : List Tree} {attr : Attribute} {taken : List Piece}
    (read : g.innerAttribute.Reads trees attr taken rest) :
    printAll taken = attr.print := by
  obtain ⟨joint, spacing, content, pieces, rfl, inside⟩ := of_innerAttribute read
  obtain ⟨one, two, between, path, arguments, inner, rfl⟩ := reads_attributeContent.mp inside
  simp only [Attribute.print, inner, printAll_cons, Piece.print, printAll_append,
    print_of_attributePath path, print_of_attributeArguments arguments]
  rfl

theorem print_of_outerAttributes {trees rest : List Tree} {attrs : List Attribute}
    {taken : List Piece} (read : g.outerAttributes.Reads trees attrs taken rest) :
    printAll taken = attrs.flatMap Attribute.print := by
  obtain ⟨_, parts, rfl, rfl, each⟩ := parts_of_many read
  rw [printAll_flatMap, List.flatMap_map]
  refine List.flatMap_congr fun part member => ?_
  obtain ⟨_, _, single⟩ := each part member
  exact print_of_outerAttribute single

/-- Attributes before an item are outer ones. -/
theorem outer_of_outerAttributes {trees rest : List Tree} {attrs : List Attribute}
    {taken : List Piece} (read : g.outerAttributes.Reads trees attrs taken rest) :
    ∀ attr ∈ attrs, attr.inner = false := by
  obtain ⟨_, parts, rfl, rfl, each⟩ := parts_of_many read
  intro attr member
  obtain ⟨part, inside, rfl⟩ := List.mem_map.mp member
  obtain ⟨_, _, single⟩ := each part inside
  obtain ⟨_, _, _, _, _, content⟩ := reads_outerAttribute.mp single
  obtain ⟨_, _, _, _, _, outer, _⟩ := reads_attributeContent.mp content
  exact outer

/-- Outer attributes are printed in front of what they belong to. -/
theorem printOuter_of_outer {attrs : List Attribute} (outer : ∀ attr ∈ attrs, attr.inner = false) :
    printOuter attrs = attrs.flatMap Attribute.print := by
  unfold printOuter
  rw [List.filter_eq_self.mpr fun attr member => by rw [outer attr member]; rfl]

/-! ### Signatures and declarations -/

/-- Generic parameters print as they were read, lifetimes first. -/
theorem print_of_genericParams {trees rest : List Tree} {params : List GenericParam}
    {taken : List Piece} (read : g.genericParams.Reads trees params taken rest) :
    printAll taken = Generics.print ⟨params, []⟩ := by
  have read := reads_ahead_bind.mp read
  split at read
  · obtain ⟨written, rfl, _⟩ := reads_printingAs.mp read
    exact List.append_nil _
  · obtain ⟨rfl, rfl, rfl⟩ := reads_pure.mp read
    rfl

theorem print_of_whereClause {trees rest clause : List Tree} {taken : List Piece}
    (read : g.whereClause.Reads trees clause taken rest) : printAll taken = clause := by
  have read := reads_ahead_bind.mp read
  split at read
  · obtain ⟨written, rfl, _⟩ := reads_printingAs.mp read
    exact List.append_nil _
  · obtain ⟨rfl, rfl, rfl⟩ := reads_pure.mp read
    rfl

/-- A parameter behind its attributes, or a final `...`. -/
def parameterBody (g : Grammar) : Reader (Bool × Bool) := do
  if ← operator? "..." then return (false, true) else g.inputBody true

/-- A comma unless nothing is left. -/
def finalComma : Reader Unit := do
  if !(← ahead).isEmpty then operator ","

/-- One round of a parameter list. -/
def inputsStep (g : Grammar) (found : Inputs) : Reader (Inputs ⊕ Inputs) := do
  if (← ahead).isEmpty then return .inr found
  let attrs ← g.outerAttributes
  let body ← phrase g.parameterBody
  if body.kind.2 then
    let comma ← phrase finalComma
    return .inr { found with variadic := printOuter attrs ++ body.print ++ comma.print }
  if body.kind.1 && !found.inputs.isEmpty then
    fail (.refused "unexpected method receiver")
  let comma := !(← ahead).isEmpty
  if comma then operator ","
  let found := { found with
    inputs := found.inputs ++ [⟨attrs, body.kind.1, body.print, comma⟩] }
  if comma then return .inl found else return .inr found

theorem inputs_eq : g.inputs = loop g.inputsStep {} := rfl

/-- What one round of a parameter list reads: nothing at the end, or a parameter with its
attributes. The parameter may be a final `...`, the last one, or one with a comma behind it. -/
inductive Round (g : Grammar) (found : Inputs) :
    List Tree → Inputs ⊕ Inputs → List Piece → List Tree → Prop
  | done : Round g found [] (.inr found) [] []
  | variadic {trees middle left rest : List Tree} {attrs : List Attribute}
      {body : Phrase (Bool × Bool)} {comma : Phrase Unit} {one two three : List Piece}
      (some : trees ≠ []) (attributes : g.outerAttributes.Reads trees attrs one middle)
      (read : (phrase g.parameterBody).Reads middle body two left) (dots : body.kind.2 = true)
      (ends : (phrase finalComma).Reads left comma three rest) :
      Round g found trees
        (.inr { found with variadic := printOuter attrs ++ body.print ++ comma.print })
        (one ++ (two ++ three)) rest
  | last {trees middle : List Tree} {attrs : List Attribute} {body : Phrase (Bool × Bool)}
      {one two : List Piece}
      (some : trees ≠ []) (attributes : g.outerAttributes.Reads trees attrs one middle)
      (read : (phrase g.parameterBody).Reads middle body two []) (plain : body.kind.2 = false)
      (first : body.kind.1 = true → found.inputs = []) :
      Round g found trees
        (.inr { found with
          inputs := found.inputs ++ [⟨attrs, body.kind.1, body.print, false⟩] })
        (one ++ two) []
  | more {trees middle rest : List Tree} {attrs : List Attribute} {body : Phrase (Bool × Bool)}
      {joint : Bool} {one two : List Piece}
      (some : trees ≠ []) (attributes : g.outerAttributes.Reads trees attrs one middle)
      (read : (phrase g.parameterBody).Reads middle body two (.punct ',' joint :: rest))
      (plain : body.kind.2 = false) (first : body.kind.1 = true → found.inputs = []) :
      Round g found trees
        (.inl { found with
          inputs := found.inputs ++ [⟨attrs, body.kind.1, body.print, true⟩] })
        (one ++ (two ++ [.mark ',' joint false])) rest

/-- What a round of a parameter list reads is one of the cases of `Round`, and each of them is read.
-/
theorem reads_inputsStep {found : Inputs} {trees rest : List Tree} {result : Inputs ⊕ Inputs}
    {taken : List Piece} :
    (g.inputsStep found).Reads trees result taken rest ↔ Round g found trees result taken rest := by
  constructor
  · intro read
    have read := reads_ahead_bind.mp read
    split at read
    · rename_i none
      obtain ⟨rfl, rfl, rfl⟩ := reads_pure.mp read
      obtain rfl := List.isEmpty_iff.mp none
      exact .done
    rename_i some
    rw [List.isEmpty_iff] at some
    obtain ⟨attrs, one, _, middle, attributes, after, rfl⟩ := reads_bind.mp read
    obtain ⟨body, two, _, left, parameter, last, rfl⟩ := reads_bind.mp after
    split at last
    · rename_i dots
      obtain ⟨comma, ends, rfl⟩ := reads_bind_pure.mp last
      exact .variadic some attributes parameter dots ends
    rename_i plain
    rw [Bool.not_eq_true] at plain
    split at last
    · obtain ⟨_, _, _, _, ⟨_, refused⟩, _⟩ := reads_bind.mp last
      cases refused
    rename_i placed
    have first : body.kind.1 = true → found.inputs = [] := by
      intro receives
      simpa [receives] using placed
    have last := reads_ahead_bind.mp last
    cases left with
    | nil =>
        obtain ⟨rfl, rfl, rfl⟩ := reads_pure.mp last
        rw [List.append_nil]
        exact .last some attributes parameter plain first
    | cons head behind =>
        obtain ⟨_, _, _, _, mark, made, rfl⟩ := reads_bind.mp last
        obtain ⟨joint, whole, rfl⟩ := (reads_mark (show ",".toList = [','] from rfl)).mp mark
        obtain ⟨rfl, rfl, rfl⟩ := reads_pure.mp made
        cases whole
        exact .more some attributes parameter plain first
  · intro round
    refine reads_ahead_bind.mpr ?_
    cases round with
    | done => exact reads_pure.mpr ⟨rfl, rfl, rfl⟩
    | variadic some attributes parameter dots ends =>
        rw [if_neg (by simpa using some)]
        refine reads_bind.mpr ⟨_, _, _, _, attributes, ?_, rfl⟩
        refine reads_bind.mpr ⟨_, _, _, _, parameter, ?_, rfl⟩
        rw [if_pos dots]
        exact reads_bind_pure.mpr ⟨_, ends, rfl⟩
    | last some attributes parameter plain first =>
        rw [if_neg (by simpa using some)]
        refine reads_bind.mpr ⟨_, _, _, _, attributes, ?_, rfl⟩
        refine reads_bind.mpr ⟨_, _, _, _, parameter, ?_, (List.append_nil _).symm⟩
        rw [if_neg (by simp [plain]), if_neg (by simpa using first)]
        exact reads_ahead_bind.mpr (reads_pure.mpr ⟨rfl, rfl, rfl⟩)
    | more some attributes parameter plain first =>
        rename_i joint _ _
        rw [if_neg (by simpa using some)]
        refine reads_bind.mpr ⟨_, _, _, _, attributes, ?_, rfl⟩
        refine reads_bind.mpr ⟨_, _, _, _, parameter, ?_, rfl⟩
        rw [if_neg (by simp [plain]), if_neg (by simpa using first)]
        refine reads_ahead_bind.mpr (reads_bind.mpr ⟨(), _, [], _,
          (reads_mark (show ",".toList = [','] from rfl)).mpr ⟨joint, rfl, rfl⟩, ?_, rfl⟩)
        exact reads_pure.mpr ⟨rfl, rfl, rfl⟩

/-- A round of a parameter list takes a tree, or is the last one. -/
theorem progresses_inputsStep : Progresses g.inputsStep := by
  intro found trees rest value taken read goesOn
  cases reads_inputsStep.mp read with
  | more some attributes parameter plain first =>
      have one := attributes.length_le
      have two := parameter.length_le
      simp only [List.length_cons] at two
      omega
  | _ => cases goesOn

/-- A parameter list is printed as its parameters and the final `...`. -/
theorem print_of_inputs {trees rest : List Tree} {value : Inputs} {taken : List Piece}
    (read : g.inputs.Reads trees value taken rest) :
    printAll taken = value.inputs.flatMap Input.print ++ value.variadic := by
  rw [inputs_eq] at read
  have run := Reads.loop_induction
    (motive := fun found _ value taken _ => found.variadic = [] →
      value.inputs.flatMap Input.print ++ value.variadic =
        found.inputs.flatMap Input.print ++ printAll taken)
    ?_ ?_ read rfl
  · simpa using run.symm
  · intro found trees value taken rest round none
    cases reads_inputsStep.mp round with
    | done => simp [none]
    | variadic some attributes parameter dots ends =>
        have outer := printOuter_of_outer (outer_of_outerAttributes attributes)
        simp [outer, print_of_outerAttributes attributes, print_of_phrase parameter,
          print_of_phrase ends]
    | last some attributes parameter plain first =>
        have outer := printOuter_of_outer (outer_of_outerAttributes attributes)
        simp [none, Input.print, outer, print_of_outerAttributes attributes,
          print_of_phrase parameter]
  · intro found next trees between rest value one two round later none
    cases reads_inputsStep.mp round with
    | more some attributes parameter plain first =>
        have outer := printOuter_of_outer (outer_of_outerAttributes attributes)
        rw [later none]
        simp [Input.print, outer, print_of_outerAttributes attributes, print_of_phrase parameter,
          Piece.print, op, marks]

/-- What stands before the parameters of a signature. -/
structure SignatureFront where
  isConst : Bool
  isAsync : Bool
  isUnsafe : Bool
  abi : List Tree
  ident : Ident
  params : List GenericParam

def SignatureFront.print (front : SignatureFront) : List Tree :=
  qualifier front.isConst "const" ++ qualifier front.isAsync "async" ++
    qualifier front.isUnsafe "unsafe" ++ front.abi ++ [name "fn", .ident front.ident] ++
    Generics.print ⟨front.params, []⟩

/-- The front of a signature. -/
def signatureFront (g : Grammar) : Reader SignatureFront := do
  let isConst ← keyword? "const"
  let isAsync ← keyword? "async"
  let isUnsafe ← keyword? "unsafe"
  let abi ← phrase abi
  keyword "fn"
  let ident ← Reader.ident
  let params ← g.genericParams
  return { isConst, isAsync, isUnsafe, abi := abi.print, ident, params }

/-- The result type and the `where` clause of a signature. -/
def signatureBack (g : Grammar) : Reader (Option (Phrase TypeKind) × List Tree) := do
  let arrow ← operator? "->"
  let output ← if arrow then some <$> phrase (g.type true) else pure none
  let clause ← g.whereClause
  return (output, clause)

/-- The signature that its parts make up. -/
def SignatureFront.signature (front : SignatureFront) (inputs : Inputs)
    (back : Option (Phrase TypeKind) × List Tree) : Signature :=
  { isConst := front.isConst, isAsync := front.isAsync, isUnsafe := front.isUnsafe,
    abi := front.abi, ident := front.ident, generics := ⟨front.params, back.2⟩,
    inputs := inputs.inputs, variadic := inputs.variadic, output := back.1.map Phrase.print }

/-- A signature prints its front, its parameters in parentheses, its type and its conditions. -/
theorem SignatureFront.print_signature {front : SignatureFront} {inputs : Inputs}
    {back : Option (Phrase TypeKind) × List Tree} :
    (front.signature inputs back).print =
      front.print ++ .group .paren (inputs.inputs.flatMap Input.print ++ inputs.variadic) ::
        ((match back.1 with
          | some type => op "->" ++ type.print
          | none => []) ++ back.2) := by
  obtain ⟨output, clause⟩ := back
  cases output <;>
    simp [SignatureFront.signature, SignatureFront.print, Signature.print, Generics.print, paren]

/-- What follows the parameters is read for its own sake and then put into the signature. -/
theorem reads_signatureBack {made : Option (Phrase TypeKind) → List Tree → Signature}
    {trees rest : List Tree} {sig : Signature} {taken : List Piece} :
    (do
      let arrow ← operator? "->"
      let output ← if arrow then some <$> phrase (g.type true) else pure none
      let clause ← g.whereClause
      return made output clause).Reads trees sig taken rest ↔
      ∃ back, g.signatureBack.Reads trees back taken rest ∧ sig = made back.1 back.2 := by
  constructor
  · intro read
    obtain ⟨arrow, _, _, _, mark, after, rfl⟩ := reads_bind.mp read
    split at after
    · rename_i stands
      obtain ⟨output, _, _, _, type, last, rfl⟩ := reads_bind.mp after
      obtain ⟨clause, conditions, rfl⟩ := reads_bind_pure.mp last
      refine ⟨(output, clause), reads_bind.mpr ⟨_, _, _, _, mark, ?_, rfl⟩, rfl⟩
      rw [if_pos stands]
      exact reads_bind.mpr ⟨_, _, _, _, type, reads_bind_pure.mpr ⟨_, conditions, rfl⟩, rfl⟩
    · rename_i stands
      obtain ⟨output, _, _, _, type, last, rfl⟩ := reads_bind.mp after
      obtain ⟨clause, conditions, rfl⟩ := reads_bind_pure.mp last
      refine ⟨(output, clause), reads_bind.mpr ⟨_, _, _, _, mark, ?_, rfl⟩, rfl⟩
      rw [if_neg stands]
      exact reads_bind.mpr ⟨_, _, _, _, type, reads_bind_pure.mpr ⟨_, conditions, rfl⟩, rfl⟩
  · rintro ⟨⟨output, clause⟩, read, rfl⟩
    obtain ⟨arrow, _, _, _, mark, after, rfl⟩ := reads_bind.mp read
    refine reads_bind.mpr ⟨_, _, _, _, mark, ?_, rfl⟩
    split at after
    · rename_i stands
      obtain ⟨_, _, _, _, type, last, rfl⟩ := reads_bind.mp after
      obtain ⟨_, conditions, same⟩ := reads_bind_pure.mp last
      cases same
      rw [if_pos stands]
      exact reads_bind.mpr ⟨_, _, _, _, type, reads_bind_pure.mpr ⟨_, conditions, rfl⟩, rfl⟩
    · rename_i stands
      obtain ⟨_, _, _, _, type, last, rfl⟩ := reads_bind.mp after
      obtain ⟨_, conditions, same⟩ := reads_bind_pure.mp last
      cases same
      rw [if_neg stands]
      exact reads_bind.mpr ⟨_, _, _, _, type, reads_bind_pure.mpr ⟨_, conditions, rfl⟩, rfl⟩

/-- A signature is its front, its parameters in parentheses, and what follows them. -/
theorem reads_signature {trees rest : List Tree} {sig : Signature} {taken : List Piece} :
    g.signature.Reads trees sig taken rest ↔
      ∃ front inputs back content middle one pieces two,
        g.signatureFront.Reads trees front one (.group .paren content :: middle) ∧
          g.inputs.Reads content inputs pieces [] ∧ g.signatureBack.Reads middle back two rest ∧
            sig = front.signature inputs back ∧ taken = one ++ .group .paren pieces :: two := by
  constructor
  · intro read
    obtain ⟨isConst, p₁, _, _, const, read₂, rfl⟩ := reads_bind.mp read
    obtain ⟨isAsync, p₂, _, _, async, read₃, rfl⟩ := reads_bind.mp read₂
    obtain ⟨isUnsafe, p₃, _, _, unsafety, read₄, rfl⟩ := reads_bind.mp read₃
    obtain ⟨abi, p₄, _, _, convention, read₅, rfl⟩ := reads_bind.mp read₄
    obtain ⟨_, p₅, _, _, word, read₆, rfl⟩ := reads_bind.mp read₅
    obtain ⟨ident, p₆, _, _, named, read₇, rfl⟩ := reads_bind.mp read₆
    obtain ⟨params, p₇, _, _, generic, read₈, rfl⟩ := reads_bind.mp read₇
    obtain ⟨inputs, _, p₈, _, grouped, read₉, rfl⟩ := reads_bind.mp read₈
    obtain ⟨content, pieces, rfl, rfl, inside⟩ := reads_group.mp grouped
    obtain ⟨back, last, rfl⟩ := reads_signatureBack.mp read₉
    have front : g.signatureFront.Reads trees
        ⟨isConst, isAsync, isUnsafe, abi.print, ident, params⟩
        (p₁ ++ (p₂ ++ (p₃ ++ (p₄ ++ (p₅ ++ (p₆ ++ p₇)))))) _ :=
      reads_bind.mpr ⟨_, _, _, _, const, reads_bind.mpr ⟨_, _, _, _, async,
        reads_bind.mpr ⟨_, _, _, _, unsafety, reads_bind.mpr ⟨_, _, _, _, convention,
          reads_bind.mpr ⟨_, _, _, _, word, reads_bind.mpr ⟨_, _, _, _, named,
            reads_bind_pure.mpr ⟨_, generic, rfl⟩, rfl⟩, rfl⟩, rfl⟩, rfl⟩, rfl⟩, rfl⟩
    exact ⟨_, inputs, back, content, _, _, pieces, _, front, inside, last, rfl, by simp⟩
  · rintro ⟨front, inputs, back, content, middle, one, pieces, two, read, inside, last, rfl, rfl⟩
    obtain ⟨isConst, p₁, _, _, const, read₂, rfl⟩ := reads_bind.mp read
    obtain ⟨isAsync, p₂, _, _, async, read₃, rfl⟩ := reads_bind.mp read₂
    obtain ⟨isUnsafe, p₃, _, _, unsafety, read₄, rfl⟩ := reads_bind.mp read₃
    obtain ⟨abi, p₄, _, _, convention, read₅, rfl⟩ := reads_bind.mp read₄
    obtain ⟨_, p₅, _, _, word, read₆, rfl⟩ := reads_bind.mp read₅
    obtain ⟨ident, p₆, p₇, _, named, read₇, rfl⟩ := reads_bind.mp read₆
    obtain ⟨params, generic, rfl⟩ := reads_bind_pure.mp read₇
    have grouped : (group .paren g.inputs).Reads (.group .paren content :: middle) inputs
        [.group .paren pieces] middle := reads_group.mpr ⟨content, pieces, rfl, rfl, inside⟩
    have whole : g.signature.Reads trees
        (SignatureFront.signature
          ⟨isConst, isAsync, isUnsafe, abi.print, ident, params⟩ inputs back)
        (p₁ ++ (p₂ ++ (p₃ ++ (p₄ ++ (p₅ ++ (p₆ ++ (p₇ ++
          ([.group .paren pieces] ++ two)))))))) rest :=
      reads_bind.mpr ⟨_, _, _, _, const, reads_bind.mpr ⟨_, _, _, _, async,
      reads_bind.mpr ⟨_, _, _, _, unsafety, reads_bind.mpr ⟨_, _, _, _, convention,
        reads_bind.mpr ⟨_, _, _, _, word, reads_bind.mpr ⟨_, _, _, _, named,
          reads_bind.mpr ⟨_, _, _, _, generic, reads_bind.mpr ⟨_, _, _, _, grouped,
            reads_signatureBack.mpr ⟨back, last, rfl⟩, rfl⟩, rfl⟩, rfl⟩, rfl⟩, rfl⟩, rfl⟩, rfl⟩,
              rfl⟩
    simpa only [List.append_assoc, List.singleton_append] using whole

/-- The front of a signature prints as it was read. -/
theorem print_of_signatureFront {trees rest : List Tree} {front : SignatureFront}
    {taken : List Piece} (read : g.signatureFront.Reads trees front taken rest) :
    printAll taken = front.print := by
  obtain ⟨isConst, _, _, _, const, read₂, rfl⟩ := reads_bind.mp read
  obtain ⟨isAsync, _, _, _, async, read₃, rfl⟩ := reads_bind.mp read₂
  obtain ⟨isUnsafe, _, _, _, unsafety, read₄, rfl⟩ := reads_bind.mp read₃
  obtain ⟨abi, _, _, _, convention, read₅, rfl⟩ := reads_bind.mp read₄
  obtain ⟨_, _, _, _, word, read₆, rfl⟩ := reads_bind.mp read₅
  obtain ⟨ident, _, _, _, named, read₇, rfl⟩ := reads_bind.mp read₆
  obtain ⟨params, generic, rfl⟩ := reads_bind_pure.mp read₇
  simp only [printAll_append, print_of_keyword? const, print_of_keyword? async,
    print_of_keyword? unsafety, print_of_phrase convention, print_of_keyword word,
    print_of_ident named, print_of_genericParams generic, SignatureFront.print]
  simp

theorem print_of_signatureBack {trees rest : List Tree}
    {back : Option (Phrase TypeKind) × List Tree} {taken : List Piece}
    (read : g.signatureBack.Reads trees back taken rest) :
    printAll taken =
      (match back.1 with
        | some type => op "->" ++ type.print
        | none => []) ++ back.2 := by
  obtain ⟨arrow, _, _, _, mark, after, rfl⟩ := reads_bind.mp read
  have marked := print_of_operator? mark
  split at after
  · rename_i stands
    obtain ⟨output, _, _, _, type, last, rfl⟩ := reads_bind.mp after
    obtain ⟨clause, conditions, rfl⟩ := reads_bind_pure.mp last
    obtain ⟨type, written, rfl⟩ := reads_bind_pure.mp type
    simp [marked, stands, print_of_phrase written, print_of_whereClause conditions]
  · rename_i stands
    obtain ⟨output, _, _, _, none, last, rfl⟩ := reads_bind.mp after
    obtain ⟨clause, conditions, rfl⟩ := reads_bind_pure.mp last
    obtain ⟨rfl, rfl, rfl⟩ := reads_pure.mp none
    simp [marked, stands, print_of_whereClause conditions]

theorem print_of_signature {trees rest : List Tree} {sig : Signature} {taken : List Piece}
    (read : g.signature.Reads trees sig taken rest) : printAll taken = sig.print := by
  obtain ⟨front, inputs, back, content, middle, one, pieces, two, begins, inside, ends, rfl, rfl⟩ :=
    reads_signature.mp read
  rw [SignatureFront.print_signature, printAll_append, printAll_cons, Piece.print,
    print_of_signatureFront begins, print_of_inputs inside, print_of_signatureBack ends]
  rfl

/-- A declaration is its attributes, its visibility, its signature and a semicolon. -/
theorem reads_declaration {trees rest : List Tree} {declaration : Declaration}
    {taken : List Piece} :
    g.declaration.Reads trees declaration taken rest ↔
      ∃ vis first second third one two three joint,
        g.outerAttributes.Reads trees declaration.attrs one first ∧
          (phrase visibility).Reads first vis two second ∧
            g.signature.Reads second declaration.sig three third ∧
              third = .punct ';' joint :: rest ∧ declaration.vis = vis.print ∧
                taken = one ++ (two ++ (three ++ [.mark ';' joint false])) := by
  constructor
  · intro read
    obtain ⟨attrs, _, _, _, attributes, read₂, rfl⟩ := reads_bind.mp read
    obtain ⟨vis, _, _, _, visible, read₃, rfl⟩ := reads_bind.mp read₂
    obtain ⟨sig, _, _, _, signed, read₄, rfl⟩ := reads_bind.mp read₃
    obtain ⟨_, mark, rfl⟩ := reads_bind_pure.mp read₄
    obtain ⟨joint, rfl, rfl⟩ := (reads_mark (show ";".toList = [';'] from rfl)).mp mark
    exact ⟨vis, _, _, _, _, _, _, joint, attributes, visible, signed, rfl, rfl, rfl⟩
  · rintro
      ⟨vis, first, second, third, one, two, three, joint, attributes, visible, signed, rfl, same,
      rfl⟩
    obtain ⟨attrs, _, sig⟩ := declaration
    cases same
    exact reads_bind.mpr ⟨attrs, _, _, _, attributes, reads_bind.mpr ⟨vis, _, _, _, visible,
      reads_bind.mpr ⟨sig, _, _, _, signed, reads_bind_pure.mpr ⟨(),
        (reads_mark (show ";".toList = [';'] from rfl)).mpr ⟨joint, rfl, rfl⟩, rfl⟩, rfl⟩, rfl⟩,
          rfl⟩

/-- **Printing a declaration.** A declaration that was read is printed as its pieces are. -/
theorem print_of_declaration {trees rest : List Tree} {declaration : Declaration}
    {taken : List Piece} (read : g.declaration.Reads trees declaration taken rest) :
    printAll taken = declaration.print := by
  obtain ⟨vis, _, _, _, _, _, _, joint, attributes, visible, signed, _, same, rfl⟩ :=
    reads_declaration.mp read
  simp only [printAll_append, print_of_outerAttributes attributes, print_of_phrase visible,
    print_of_signature signed, Declaration.print, same, List.append_assoc]
  rfl

end Grammar

end Source
end Toolsmith
