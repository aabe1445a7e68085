import Mathlib
import Toolsmith.Proofs.Json.Numeral
import Toolsmith.Proofs.Json.Structure

/-! # Values are read back

A written value is read back, but for binary numbers that are estimated (`Json.reread`), when its
lists and objects are nested within the limit of the reader, and otherwise the reader stops because
it is too deep, and for no other reason (`Scan.reads_value`). The induction is on the limit: a list
or an object uses up one level, and its loop is followed item by item.
-/

namespace Toolsmith
namespace Json

mutual

/-- How deep lists and objects are nested. -/
def nesting : Json → Nat
  | .array items => nestingItems items + 1
  | .object members => nestingMembers members + 1
  | _ => 0

def nestingItems : List Json → Nat
  | [] => 0
  | item :: rest => max item.nesting (nestingItems rest)

def nestingMembers : List (String × Json) → Nat
  | [] => 0
  | (_, value) :: rest => max value.nesting (nestingMembers rest)

end

mutual

/-- What reading its text makes of a value: its numbers are read again. -/
def reread : Json → Json
  | .number value => .number value.reread
  | .array items => .array (rereadItems items)
  | .object members => .object (rereadMembers members)
  | json => json

def rereadItems : List Json → List Json
  | [] => []
  | item :: rest => item.reread :: rereadItems rest

def rereadMembers : List (String × Json) → List (String × Json)
  | [] => []
  | (name, value) :: rest => (name, value.reread) :: rereadMembers rest

end

/-- A value as programs hold it: its numbers are of the formats, and its objects have their members
in the order of their names, each once. -/
inductive Regular : Json → Prop where
  | null : Regular .null
  | bool (value : Bool) : Regular (.bool value)
  | number {value : Number} (regular : value.Regular) : Regular (.number value)
  | string (text : String) : Regular (.string text)
  | array {items : List Json} (each : ∀ item ∈ items, Regular item) : Regular (.array items)
  | object {members : List (String × Json)} (ordered : members.Pairwise (·.1 < ·.1))
      (each : ∀ member ∈ members, Regular member.2) : Regular (.object members)

/-- All numbers of a value are short. -/
inductive Short : Json → Prop where
  | null : Short .null
  | bool (value : Bool) : Short (.bool value)
  | number {value : Number} (short : value.Short) : Short (.number value)
  | string (text : String) : Short (.string text)
  | array {items : List Json} (each : ∀ item ∈ items, Short item) : Short (.array items)
  | object {members : List (String × Json)} (each : ∀ member ∈ members, Short member.2) :
    Short (.object members)

/-- **Short values.** A value of short numbers is read back as it was. -/
theorem reread_of_short {json : Json} (regular : json.Regular) (short : json.Short) :
    json.reread = json := by
  induction regular with
  | null | bool | string => rfl
  | number regular =>
      obtain ⟨⟩ := short
      rename_i short
      rw [reread, Number.reread_of_short regular short]
  | @array items each ih =>
      obtain ⟨⟩ := short
      rename_i short
      have same : rereadItems items = items := by
        induction items with
        | nil => rfl
        | cons item items rest =>
            rw [List.forall_mem_cons] at each short
            rw [rereadItems, ih item List.mem_cons_self short.1,
              rest each.2 (fun other among => ih other (.tail item among)) short.2]
      rw [reread, same]
  | @object members ordered each ih =>
      obtain ⟨⟩ := short
      rename_i short
      have same : rereadMembers members = members := by
        clear ordered
        induction members with
        | nil => rfl
        | cons member members rest =>
            rw [List.forall_mem_cons] at each short
            rw [rereadMembers, ih member List.mem_cons_self short.1,
              rest each.2 (fun other among => ih other (.tail member among)) short.2]
      rw [reread, same]

/-- The next member of an ordered object goes to the end. -/
theorem put_of_last {α : Type} {name : String} {value : α} {found : List (String × α)}
    (last : ∀ member ∈ found, member.1 < name) :
    put name value found = found ++ [(name, value)] := by
  induction found with
  | nil => rfl
  | cons member found ih =>
      have before : member.1 < name := last member (List.mem_cons_self ..)
      rw [put, if_neg (lt_asymm before), if_neg before.ne',
        ih fun other among => last other (List.mem_cons_of_mem _ among)]
      rfl

namespace Scan

variable {α β : Type} {rest middle after : List Char} {limit : Nat}

/-- A reader returns a value that is nested within a limit, and stops at one that is too deep. -/
structure GivesBack (limit depth : Nat) (value : α) (after : List Char)
    (result : Except Stop (α × List Char)) : Prop where
  within : depth ≤ limit → result = .ok (value, after)
  beyond : limit < depth → ∃ stop, result = .error stop ∧ stop.fault = .tooDeep

theorem GivesBack.of_ok {value : α} {result : Except Stop (α × List Char)}
    (read : result = .ok (value, after)) : GivesBack limit 0 value after result :=
  ⟨fun _ => read, fun deep => absurd deep (Nat.not_lt_zero _)⟩

/-- Two readings in a row are as deep as the deeper one. -/
theorem GivesBack.bind {scan : Scan α} {next : α → Scan β} {depth later : Nat} {value : α}
    {result : β} (first : GivesBack limit depth value middle (scan rest))
    (second : GivesBack limit later result after (next value middle)) :
    GivesBack limit (max depth later) result after ((scan >>= next) rest) := by
  constructor
  · intro shallow
    rw [bind_of_ok _ (first.within (le_trans (le_max_left ..) shallow))]
    exact second.within (le_trans (le_max_right ..) shallow)
  · intro deep
    by_cases fits : depth ≤ limit
    · rw [bind_of_ok _ (first.within fits)]
      exact second.beyond ((lt_max_iff.mp deep).resolve_left (not_lt.mpr fits))
    · obtain ⟨stop, failed, reason⟩ := first.beyond (not_le.mp fits)
      exact ⟨stop, bind_of_error _ failed, reason⟩

theorem GivesBack.map {scan : Scan α} {depth : Nat} {value : α} (f : α → β)
    (read : GivesBack limit depth value after (scan rest)) :
    GivesBack limit depth (f value) after ((f <$> scan) rest) := by
  constructor
  · intro shallow
    exact map_of_ok f (read.within shallow)
  · intro deep
    obtain ⟨stop, failed, reason⟩ := read.beyond deep
    exact ⟨stop, map_of_error f failed, reason⟩

/-- A list or an object uses up one level. -/
theorem GivesBack.deeper {depth : Nat} {value : α} {result : Except Stop (α × List Char)}
    (read : GivesBack limit depth value after result) :
    GivesBack (limit + 1) (depth + 1) value after result :=
  ⟨fun shallow => read.within (by omega), fun deep => read.beyond (by omega)⟩

/-- One more round of a loop. -/
theorem GivesBack.loop {σ : Type} {step : σ → Scan (σ ⊕ α)} {state next : σ} {fuel : Nat}
    {depth later : Nat} {value : α}
    (first : GivesBack limit depth (.inl next) middle (step state rest))
    (others : GivesBack limit later value after (loopWithin step fuel next middle)) :
    GivesBack limit (max depth later) value after (loopWithin step (fuel + 1) state rest) := by
  rw [loopWithin]
  exact first.bind others

/-- A reader gives a value back before whatever may follow it. -/
def Reads (limit : Nat) (scan : Scan Json) (json : Json) : Prop :=
  ∀ rest, Ends rest → GivesBack limit json.nesting json.reread rest (scan (json.write ++ rest))

section Marks

variable {c : Char}

theorem moreItems_of_first (visible : isSpace c = false) (opens : c ≠ ']') :
    moreItems true (c :: rest) = .ok (true, c :: rest) := by
  have starts := @Separates.first (c :: rest)
  rw [List.dropWhile_cons_of_neg (by simp [visible])] at starts
  exact moreItems_of_separates starts opens

theorem moreItems_of_comma (visible : isSpace c = false) (opens : c ≠ ']') :
    moreItems false (',' :: c :: rest) = .ok (true, c :: rest) := by
  have starts : Separates false (',' :: c :: rest) _ := .comma rfl
  rw [List.dropWhile_cons_of_neg (by simp [visible])] at starts
  exact moreItems_of_separates starts opens

theorem nextName_of_first (name : String) :
    nextName true (stringText name ++ rest) = .ok (some name, rest) := by
  have opened (text : List Char) : nextName true ('"' :: text) = (some <$> string) text := rfl
  rw [stringText, List.cons_append, List.append_assoc, opened]
  exact map_of_ok some (string_of_stringText name)

theorem nextName_of_comma (name : String) :
    nextName false (',' :: (stringText name ++ rest)) = .ok (some name, rest) := by
  have opened (text : List Char) : nextName false (',' :: '"' :: text) = (some <$> string) text :=
    rfl
  rw [stringText, List.cons_append, List.append_assoc, opened]
  exact map_of_ok some (string_of_stringText name)

theorem colon_of_colon : colon (':' :: rest) = .ok ((), rest) := rfl

end Marks

/-- A written value starts with a visible character that closes no list. -/
theorem exists_head_write {json : Json} (regular : json.Regular) :
    ∃ c tail, json.write = c :: tail ∧ isSpace c = false ∧ c ≠ ']' := by
  cases regular with
  | null => exact ⟨'n', _, rfl, rfl, by decide⟩
  | bool value =>
      cases value with
      | true => exact ⟨'t', _, rfl, rfl, by decide⟩
      | false => exact ⟨'f', _, rfl, rfl, by decide⟩
  | number regular =>
      obtain ⟨c, tail, text, rfl | digit⟩ := exists_head_numberText regular
      · exact ⟨'-', tail, text, rfl, by decide⟩
      · exact ⟨c, tail, text, isSpace_of_isDigit digit, ne_of_isDigit digit rfl⟩
  | string text => exact ⟨'"', _, rfl, rfl, by decide⟩
  | @array items each =>
      cases items with
      | nil => exact ⟨'[', _, rfl, rfl, by decide⟩
      | cons item items => exact ⟨'[', _, rfl, rfl, by decide⟩
  | @object members ordered each =>
      cases members with
      | nil => exact ⟨'\x7b', _, rfl, rfl, by decide⟩
      | cons member members => exact ⟨'\x7b', _, rfl, rfl, by decide⟩

section Items

variable {scan : Scan Json}

theorem itemsStep_of_item {json : Json} {found : List Json} {text : List Char}
    (more : moreItems found.isEmpty text = .ok (true, json.write ++ after))
    (reads : Reads limit scan json) (ends : Ends after) :
    GivesBack limit json.nesting (.inl (json.reread :: found)) after
      (itemsStep scan found text) := by
  rw [itemsStep, bind_of_ok _ more]
  exact (reads after ends).map fun item => Sum.inl (item :: found)

theorem itemsStep_of_end (found : List Json) :
    itemsStep scan found (']' :: rest) = .ok (.inr found.reverse, rest) :=
  rfl

theorem ends_writeItems (items : List Json) : Ends (writeItems items ++ ']' :: rest) := by
  cases items with
  | nil =>
      rintro _ ⟨⟩
      exact .inr (.inl rfl)
  | cons item items =>
      rintro _ ⟨⟩
      exact .inl rfl

/-- The loop over the items after the first. -/
theorem givesBack_loop_items (items found : List Json) {fuel : Nat} (some : found ≠ [])
    (regular : ∀ item ∈ items, item.Regular) (reads : ∀ item ∈ items, Reads limit scan item)
    (enough : items.length < fuel) :
    GivesBack limit (nestingItems items) (found.reverse ++ rereadItems items) rest
      (loopWithin (itemsStep scan) fuel found (writeItems items ++ ']' :: rest)) := by
  induction items generalizing found fuel with
  | nil =>
      obtain ⟨fuel, rfl⟩ := Nat.exists_eq_add_of_lt enough
      rw [rereadItems, List.append_nil]
      exact .of_ok (loopWithin_of_done (itemsStep_of_end found))
  | cons item items ih =>
      rw [List.length_cons] at enough
      obtain ⟨fuel, rfl⟩ := Nat.exists_eq_add_of_lt enough
      obtain ⟨c, tail, text, visible, opens⟩ :=
        exists_head_write (regular item (List.mem_cons_self ..))
      have follows : moreItems found.isEmpty (writeItems (item :: items) ++ ']' :: rest) =
          .ok (true, item.write ++ (writeItems items ++ ']' :: rest)) := by
        rw [List.isEmpty_eq_false_iff.mpr some, writeItems, List.cons_append, List.append_assoc,
          text]
        exact moreItems_of_comma visible opens
      have first := itemsStep_of_item follows (reads item (List.mem_cons_self ..))
        (ends_writeItems items)
      have order : found.reverse ++ rereadItems (item :: items) =
          (item.reread :: found).reverse ++ rereadItems items := by simp [rereadItems]
      rw [order]
      exact first.loop (ih (item.reread :: found) (List.cons_ne_nil _ _)
        (fun other among => regular other (List.mem_cons_of_mem _ among))
        (fun other among => reads other (List.mem_cons_of_mem _ among)) (by omega))

theorem length_le_writeItems (items : List Json) : items.length ≤ (writeItems items).length := by
  induction items with
  | nil => exact le_rfl
  | cons item items ih =>
      rw [writeItems, List.length_cons, List.length_cons, List.length_append]
      omega

/-- All items of a list, after its opening bracket. -/
theorem givesBack_items {first : Json} {items : List Json}
    (regular : ∀ item ∈ first :: items, item.Regular)
    (reads : ∀ item ∈ first :: items, Reads limit scan item) :
    GivesBack limit (nestingItems (first :: items)) (rereadItems (first :: items)) rest
      (Scan.items scan (first.write ++ (writeItems items ++ ']' :: rest))) := by
  obtain ⟨c, tail, text, visible, opens⟩ :=
    exists_head_write (regular first (List.mem_cons_self ..))
  have starts : moreItems ([] : List Json).isEmpty
      (first.write ++ (writeItems items ++ ']' :: rest)) =
        .ok (true, first.write ++ (writeItems items ++ ']' :: rest)) := by
    rw [text]
    exact moreItems_of_first visible opens
  have step := itemsStep_of_item starts (reads first (List.mem_cons_self ..))
    (ends_writeItems items)
  refine step.loop (givesBack_loop_items items [first.reread] (List.cons_ne_nil _ _)
    (fun other among => regular other (List.mem_cons_of_mem _ among))
    (fun other among => reads other (List.mem_cons_of_mem _ among)) ?_)
  have enough := length_le_writeItems items
  rw [text, List.cons_append, List.length_cons, List.length_append, List.length_append]
  omega

end Items

section Members

variable {scan : Scan Json}

/-- A written member is put behind the members before it, whose names are less. -/
theorem membersStep_of_member {name : String} {json : Json} {first : Bool}
    (found : List (String × Json)) {text : List Char}
    (next : nextName first text = .ok (some name, ':' :: (json.write ++ after)))
    (last : ∀ member ∈ found, member.1 < name) (reads : Reads limit scan json)
    (ends : Ends after) :
    GivesBack limit json.nesting (.inl (false, found ++ [(name, json.reread)])) after
      (membersStep scan (first, found) text) := by
  rw [membersStep, bind_of_ok _ next, ← put_of_last last]
  change GivesBack _ _ _ _ ((colon >>= _) _)
  rw [bind_of_ok _ colon_of_colon]
  exact (reads after ends).map fun value => Sum.inl (false, put name value found)

section Ordered

variable {found members : List (String × Json)} {name : String} {json : Json}
  (ordered : ((found ++ (name, json) :: members).map Prod.fst).Pairwise (· < ·))

include ordered

theorem lt_of_ordered : ∀ member ∈ found, member.1 < name := by
  intro member among
  rw [List.map_append, List.pairwise_append] at ordered
  exact ordered.2.2 _ (List.mem_map_of_mem among) _ List.mem_cons_self

theorem ordered_of_next (next : Json) :
    ((found ++ [(name, next)] ++ members).map Prod.fst).Pairwise (· < ·) := by
  have named : (found ++ [(name, next)] ++ members).map Prod.fst =
      (found ++ (name, json) :: members).map Prod.fst := by simp
  exact named ▸ ordered

end Ordered

theorem membersStep_of_end (first : Bool) (found : List (String × Json)) :
    membersStep scan (first, found) ('\x7d' :: rest) = .ok (.inr found, rest) :=
  rfl

/-- What follows a member ends a number. -/
theorem ends_writeMembers (members : List (String × Json)) :
    Ends (writeMembers members ++ '\x7d' :: rest) := by
  cases members with
  | nil =>
      rintro _ ⟨⟩
      exact .inr (.inr rfl)
  | cons member members =>
      rintro _ ⟨⟩
      exact .inl rfl

/-- The loop over the members after the first. -/
theorem givesBack_loop_members (members found : List (String × Json)) {fuel : Nat}
    (ordered : ((found ++ members).map Prod.fst).Pairwise (· < ·))
    (reads : ∀ member ∈ members, Reads limit scan member.2) (enough : members.length < fuel) :
    GivesBack limit (nestingMembers members) (found ++ rereadMembers members) rest
      (loopWithin (membersStep scan) fuel (false, found)
        (writeMembers members ++ '\x7d' :: rest)) := by
  induction members generalizing found fuel with
  | nil =>
      obtain ⟨fuel, rfl⟩ := Nat.exists_eq_add_of_lt enough
      rw [rereadMembers, List.append_nil]
      exact .of_ok (loopWithin_of_done (membersStep_of_end false found))
  | cons member members ih =>
      obtain ⟨name, json⟩ := member
      rw [List.length_cons] at enough
      obtain ⟨fuel, rfl⟩ := Nat.exists_eq_add_of_lt enough
      have follows : nextName false (writeMembers ((name, json) :: members) ++ '\x7d' :: rest) =
          .ok (some name, ':' :: (json.write ++ (writeMembers members ++ '\x7d' :: rest))) := by
        rw [writeMembers, List.cons_append, List.append_assoc, List.append_assoc]
        exact nextName_of_comma name
      have first := membersStep_of_member found follows (lt_of_ordered ordered)
        (reads _ (List.mem_cons_self ..))
        (ends_writeMembers members)
      rw [rereadMembers, List.append_cons]
      exact first.loop (ih _ (ordered_of_next ordered json.reread)
        (fun other among => reads other (List.mem_cons_of_mem _ among)) (by omega))

theorem length_le_writeMembers (members : List (String × Json)) :
    members.length ≤ (writeMembers members).length := by
  induction members with
  | nil => exact le_rfl
  | cons member members ih =>
      rw [writeMembers, List.length_cons, List.length_cons, List.length_append]
      omega

/-- All members of an object, after its opening brace. -/
theorem givesBack_members {name : String} {json : Json} {members : List (String × Json)}
    (ordered : ((name, json) :: members).Pairwise (·.1 < ·.1))
    (reads : ∀ member ∈ (name, json) :: members, Reads limit scan member.2) :
    GivesBack limit (nestingMembers ((name, json) :: members))
      (rereadMembers ((name, json) :: members)) rest
      (Scan.members scan
        (stringText name ++ ':' :: (json.write ++ (writeMembers members ++ '\x7d' :: rest)))) := by
  have step := membersStep_of_member [] (nextName_of_first name) nofun
    (reads _ (List.mem_cons_self ..)) (@ends_writeMembers rest members)
  have named : (((name, json) :: members).map Prod.fst).Pairwise (· < ·) :=
    List.pairwise_map.mpr ordered
  refine step.loop (givesBack_loop_members members [(name, json.reread)] named
    (fun other among => reads other (List.mem_cons_of_mem _ among)) ?_)
  have enough := length_le_writeMembers members
  rw [List.length_append, List.length_cons, List.length_append, List.length_append]
  omega

end Members

section Values

theorem value_of_quote (limit : Nat) :
    value limit ('"' :: rest) = (Json.string <$> string) rest := by
  rw [value.eq_def]
  rfl

theorem value_of_bracket (limit : Nat) :
    value (limit + 1) ('[' :: rest) = (Json.array <$> items (value limit)) rest := by
  rw [value]
  rfl

theorem value_of_brace (limit : Nat) :
    value (limit + 1) ('\x7b' :: rest) = (Json.object <$> members (value limit)) rest := by
  rw [value]
  rfl

/-- Without a level left, a list or an object is too deep. -/
theorem value_of_none_left {c : Char} (opens : c = '[' ∨ c = '\x7b') :
    ∃ stop, value 0 (c :: rest) = .error stop ∧ stop.fault = .tooDeep := by
  refine ⟨⟨.tooDeep, c :: rest, 1⟩, ?_, rfl⟩
  rcases opens with rfl | rfl
  · rw [value]
    rfl
  · rw [value]
    rfl

/-- A value that is neither a list nor an object is read back under every limit. -/
theorem reads_of_flat (limit : Nat) {json : Json} (regular : json.Regular)
    (flat : json.nesting = 0) : Reads limit (value limit) json := by
  intro rest ends
  rw [flat]
  apply GivesBack.of_ok
  cases regular with
  | null =>
      rw [value.eq_def]
      rfl
  | bool value =>
      rw [Scan.value.eq_def]
      cases value with
      | true => rfl
      | false => rfl
  | number regular => exact value_of_numberText limit regular ends
  | string text =>
      rw [write, stringText, List.cons_append, List.append_assoc, value_of_quote]
      exact map_of_ok Json.string (string_of_stringText text)
  | array each => simp [nesting] at flat
  | object ordered each => simp [nesting] at flat

/-- **Values.** A written value is read back when it is nested within the limit, and else the reader
stops because it is too deep. -/
theorem reads_value (limit : Nat) {json : Json} (regular : json.Regular) :
    Reads limit (value limit) json := by
  induction limit generalizing json with
  | zero =>
      by_cases flat : json.nesting = 0
      · exact reads_of_flat 0 regular flat
      · intro rest ends
        refine ⟨fun shallow => absurd (Nat.le_zero.mp shallow) flat, fun _ => ?_⟩
        cases json with
        | array items => cases items <;> exact value_of_none_left (.inl rfl)
        | object members => cases members <;> exact value_of_none_left (.inr rfl)
        | _ => simp [nesting] at flat
  | succ limit ih =>
      -- Items and values of members are read with one level less, by the induction hypothesis.
      by_cases flat : json.nesting = 0
      · exact reads_of_flat (limit + 1) regular flat
      · intro rest ends
        cases regular with
        | @array items each =>
            cases items with
            | nil =>
                have read : Scan.items (value limit) (']' :: rest) = .ok ([], rest) := rfl
                rw [write, List.cons_append, value_of_bracket]
                exact ((GivesBack.of_ok read).map Json.array).deeper
            | cons item items =>
                have read := @givesBack_items rest limit _ item items each
                  fun other among => ih (each other among)
                rw [write, nesting, List.cons_append, List.append_assoc, List.append_assoc,
                  value_of_bracket]
                exact (read.map Json.array).deeper
        | @object members ordered each =>
            cases members with
            | nil =>
                have read : Scan.members (value limit) ('\x7d' :: rest) = .ok ([], rest) := rfl
                rw [write, List.cons_append, value_of_brace]
                exact ((GivesBack.of_ok read).map Json.object).deeper
            | cons member members =>
                obtain ⟨name, json⟩ := member
                have read := @givesBack_members rest limit _ name json members ordered
                  fun other among => ih (each other among)
                rw [write, nesting, List.cons_append, value_of_brace]
                simp only [List.append_assoc, List.cons_append]
                exact (read.map Json.object).deeper
        | _ => simp [nesting] at flat

end Values

end Scan
end Json
end Toolsmith
