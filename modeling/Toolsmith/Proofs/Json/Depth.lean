import Mathlib
import Toolsmith.Proofs.Json.ReadBack

/-! # Where a value is too deep

A written value that is nested too deep is refused at the first list or object beyond the limit.
That place is inside the value, whatever stands after it (`Scan.stopsIn_value`), and so the line and
the column that are reported do not depend on the rest of the text (`Scan.StopsIn.locate_eq`).
-/

namespace Toolsmith
namespace Json
namespace Scan

variable {α β : Type}

/-- A reader stops inside a text because it is too deep, whatever follows the text. -/
def StopsIn (scan : Scan α) (text : List Char) : Prop :=
  ∃ before mark after, text = before ++ mark :: after ∧ mark.utf8Size = 1 ∧
    ∀ rest, scan (text ++ rest) = .error ⟨.tooDeep, mark :: (after ++ rest), 1⟩

namespace StopsIn

variable {scan : Scan α} {next : Scan β} {text : List Char}

/-- A reader that comes to the text stops in it as well. -/
theorem behind (stops : StopsIn scan text) (front : List Char)
    (comes : ∀ rest stop, scan (text ++ rest) = .error stop →
      next (front ++ (text ++ rest)) = .error stop) : StopsIn next (front ++ text) := by
  obtain ⟨before, mark, after, rfl, single, stopped⟩ := stops
  refine ⟨front ++ before, mark, after, by simp, single, fun rest => ?_⟩
  rw [List.append_assoc]
  exact comes rest _ (stopped rest)

/-- More text behind does not matter. -/
theorem append (stops : StopsIn scan text) (more : List Char) : StopsIn scan (text ++ more) := by
  obtain ⟨before, mark, after, rfl, single, stopped⟩ := stops
  refine ⟨before, mark, after ++ more, by simp, single, fun rest => ?_⟩
  rw [List.append_assoc, List.append_assoc after]
  exact stopped (more ++ rest)

end StopsIn

/-- Values that are too deep are refused inside. -/
def Refuses (limit : Nat) (scan : Scan Json) (json : Json) : Prop :=
  limit < json.nesting → StopsIn scan json.write

variable {scan : Scan Json} {limit : Nat}

theorem nestingItems_cons_of_le {item : Json} {items : List Json} (fits : item.nesting ≤ limit)
    (deep : limit < nestingItems (item :: items)) : limit < nestingItems items := by
  rw [nestingItems] at deep
  exact (lt_max_iff.mp deep).resolve_left (not_lt.mpr fits)

theorem nestingMembers_cons_of_le {name : String} {json : Json} {members : List (String × Json)}
    (fits : json.nesting ≤ limit) (deep : limit < nestingMembers ((name, json) :: members)) :
    limit < nestingMembers members := by
  rw [nestingMembers] at deep
  exact (lt_max_iff.mp deep).resolve_left (not_lt.mpr fits)

/-- What follows an item before another one. -/
theorem ends_writeItems_of_deep {items : List Json} (deep : limit < nestingItems items)
    (rest : List Char) : Ends (writeItems items ++ rest) := by
  cases items with
  | nil => exact absurd deep (Nat.not_lt_zero _)
  | cons item items =>
      rintro _ ⟨⟩
      exact .inl rfl

theorem ends_writeMembers_of_deep {members : List (String × Json)}
    (deep : limit < nestingMembers members) (rest : List Char) :
    Ends (writeMembers members ++ rest) := by
  cases members with
  | nil => exact absurd deep (Nat.not_lt_zero _)
  | cons member members =>
      rintro _ ⟨⟩
      exact .inl rfl

/-- A loop with a number of rounds to spare beyond the length of the text. -/
def loopSparing {σ : Type} (step : σ → Scan (σ ⊕ α)) (spare : Nat) (state : σ) : Scan α :=
  fun text =>
  loopWithin step (text.length + spare) state text

section Loops

variable {σ : Type} {step : σ → Scan (σ ⊕ α)} {state later : σ} {front text : List Char}

/-- A loop stops where its first round does. -/
theorem StopsIn.of_round {scan : Scan β} (stops : StopsIn scan text) (spare : Nat)
    (comes : ∀ rest stop, scan (text ++ rest) = .error stop →
      step state (front ++ (text ++ rest)) = .error stop) :
    StopsIn (loopSparing step (spare + 1) state) (front ++ text) :=
  stops.behind front fun rest stop failed => loopWithin_of_error (comes rest stop failed)

/-- A loop stops where its later rounds do. -/
theorem StopsIn.of_rounds (stops : ∀ spare, StopsIn (loopSparing step (spare + 1) later) text)
    (some : front ≠ []) (spare : Nat)
    (goes : ∀ rest, step state (front ++ (text ++ rest)) = .ok (.inl later, text ++ rest)) :
    StopsIn (loopSparing step (spare + 1) state) (front ++ text) := by
  obtain ⟨count, taken⟩ := Nat.exists_eq_succ_of_ne_zero (List.length_pos_iff.mpr some).ne'
  refine (stops (count + spare)).behind front fun rest stop failed => ?_
  have rounds : (front ++ (text ++ rest)).length + (spare + 1) =
      (text ++ rest).length + (count + spare + 1) + 1 := by
    rw [List.length_append, taken]
    omega
  rw [loopSparing, rounds, loopWithin_of_more (goes rest)]
  exact failed

end Loops

theorem write_ne_nil {json : Json} (regular : json.Regular) : json.write ≠ [] := by
  obtain ⟨c, tail, text, _⟩ := exists_head_write regular
  rw [text]
  exact List.cons_ne_nil c tail

section Items

variable {found items : List Json} {item : Json}

/-- A round at an item that is too deep stops in the item, and one at another item goes on to the
items after it. -/
theorem stopsIn_item {front : List Char} (spare : Nat)
    (more : ∀ rest, moreItems found.isEmpty (front ++ (item.write ++ rest)) =
      .ok (true, item.write ++ rest))
    (regular : item.Regular) (reads : Reads limit scan item) (refuses : Refuses limit scan item)
    (deep : limit < nestingItems (item :: items))
    (later : limit < nestingItems items → ∀ spare,
      StopsIn (loopSparing (itemsStep scan) (spare + 1) (item.reread :: found))
        (writeItems items)) :
    StopsIn (loopSparing (itemsStep scan) (spare + 1) found)
      (front ++ item.write ++ writeItems items) := by
  by_cases fits : item.nesting ≤ limit
  · have others := nestingItems_cons_of_le fits deep
    have some : front ++ item.write ≠ [] :=
      List.append_ne_nil_of_right_ne_nil _ (write_ne_nil regular)
    refine StopsIn.of_rounds (later others) some spare fun rest => ?_
    rw [List.append_assoc]
    exact (itemsStep_of_item (more _) reads (ends_writeItems_of_deep others rest)).within fits
  · refine ((refuses (not_le.mp fits)).of_round spare fun rest stop failed => ?_).append _
    rw [itemsStep, bind_of_ok _ (more rest)]
    exact bind_of_error _ failed

/-- The rounds over items of which one is too deep, by induction on those before it. -/
theorem stopsIn_loop_items (nonempty : found ≠ []) (regular : ∀ item ∈ items, item.Regular)
    (reads : ∀ item ∈ items, Reads limit scan item)
    (refuses : ∀ item ∈ items, Refuses limit scan item) (deep : limit < nestingItems items)
    (spare : Nat) :
    StopsIn (loopSparing (itemsStep scan) (spare + 1) found) (writeItems items) := by
  induction items generalizing found spare with
  | nil => exact absurd deep (Nat.not_lt_zero _)
  | cons item items ih =>
      rw [List.forall_mem_cons] at regular reads refuses
      obtain ⟨c, tail, text, visible, opens⟩ := exists_head_write regular.1
      have more (rest : List Char) : moreItems found.isEmpty ([','] ++ (item.write ++ rest)) =
          .ok (true, item.write ++ rest) := by
        rw [List.isEmpty_eq_false_iff.mpr nonempty, text]
        exact moreItems_of_comma visible opens
      exact stopsIn_item spare more regular.1 reads.1 refuses.1 deep fun others =>
        ih (List.cons_ne_nil item.reread found) regular.2 reads.2 refuses.2 others

/-- The items of a list of which one is too deep. -/
theorem stopsIn_items (regular : ∀ other ∈ item :: items, other.Regular)
    (reads : ∀ other ∈ item :: items, Reads limit scan other)
    (refuses : ∀ other ∈ item :: items, Refuses limit scan other)
    (deep : limit < nestingItems (item :: items)) :
    StopsIn (Scan.items scan) (item.write ++ writeItems items) := by
  rw [List.forall_mem_cons] at regular reads refuses
  obtain ⟨c, tail, text, visible, opens⟩ := exists_head_write regular.1
  have more (rest : List Char) : moreItems ([] : List Json).isEmpty ([] ++ (item.write ++ rest)) =
      .ok (true, item.write ++ rest) := by
    rw [List.nil_append, text]
    exact moreItems_of_first visible opens
  exact stopsIn_item 0 more regular.1 reads.1 refuses.1 deep fun others =>
    stopsIn_loop_items (List.cons_ne_nil item.reread []) regular.2 reads.2 refuses.2 others

end Items

section Members

variable {members : List (String × Json)} {name : String} {json : Json}

/-- A round at a member that is too deep stops in its value, and one at another member goes on to
the members after it. -/
theorem stopsIn_member {first : Bool} {found : List (String × Json)} {front : List Char}
    (spare : Nat)
    (next : ∀ rest, nextName first (front ++ (json.write ++ rest)) =
      .ok (some name, ':' :: (json.write ++ rest)))
    (last : ∀ member ∈ found, member.1 < name) (regular : json.Regular)
    (reads : Reads limit scan json) (refuses : Refuses limit scan json)
    (deep : limit < nestingMembers ((name, json) :: members))
    (later : limit < nestingMembers members → ∀ spare,
      StopsIn (loopSparing (membersStep scan) (spare + 1) (false, found ++ [(name, json.reread)]))
        (writeMembers members)) :
    StopsIn (loopSparing (membersStep scan) (spare + 1) (first, found))
      (front ++ json.write ++ writeMembers members) := by
  by_cases fits : json.nesting ≤ limit
  · have others := nestingMembers_cons_of_le fits deep
    have some : front ++ json.write ≠ [] :=
      List.append_ne_nil_of_right_ne_nil _ (write_ne_nil regular)
    refine StopsIn.of_rounds (later others) some spare fun rest => ?_
    rw [List.append_assoc]
    exact (membersStep_of_member found (next _) last reads
      (ends_writeMembers_of_deep others rest)).within fits
  · refine ((refuses (not_le.mp fits)).of_round spare fun rest stop failed => ?_).append _
    rw [membersStep, bind_of_ok _ (next rest)]
    change (colon >>= _) _ = _
    rw [bind_of_ok _ colon_of_colon]
    exact bind_of_error _ failed

/-- The rounds over members of which one is too deep, by induction on those before it. -/
theorem stopsIn_loop_members {found : List (String × Json)}
    (ordered : ((found ++ members).map Prod.fst).Pairwise (· < ·))
    (regular : ∀ member ∈ members, member.2.Regular)
    (reads : ∀ member ∈ members, Reads limit scan member.2)
    (refuses : ∀ member ∈ members, Refuses limit scan member.2)
    (deep : limit < nestingMembers members) (spare : Nat) :
    StopsIn (loopSparing (membersStep scan) (spare + 1) (false, found)) (writeMembers members) := by
  induction members generalizing found spare with
  | nil => exact absurd deep (Nat.not_lt_zero _)
  | cons member members ih =>
      obtain ⟨name, json⟩ := member
      rw [List.forall_mem_cons] at regular reads refuses
      have next (rest : List Char) :
          nextName false ((',' :: (stringText name ++ [':'])) ++ (json.write ++ rest)) =
            .ok (some name, ':' :: (json.write ++ rest)) := by
        rw [List.cons_append, List.append_assoc]
        exact nextName_of_comma name
      have written : writeMembers ((name, json) :: members) =
          (',' :: (stringText name ++ [':'])) ++ json.write ++ writeMembers members := by
        simp [writeMembers]
      rw [written]
      exact stopsIn_member spare next (lt_of_ordered ordered) regular.1 reads.1 refuses.1 deep
        fun others => ih (ordered_of_next ordered json.reread) regular.2 reads.2 refuses.2 others

/-- The members of an object of which one is too deep. -/
theorem stopsIn_members (ordered : ((name, json) :: members).Pairwise (·.1 < ·.1))
    (regular : ∀ member ∈ (name, json) :: members, member.2.Regular)
    (reads : ∀ member ∈ (name, json) :: members, Reads limit scan member.2)
    (refuses : ∀ member ∈ (name, json) :: members, Refuses limit scan member.2)
    (deep : limit < nestingMembers ((name, json) :: members)) :
    StopsIn (Scan.members scan)
      (stringText name ++ [':'] ++ json.write ++ writeMembers members) := by
  rw [List.forall_mem_cons] at regular reads refuses
  have next (rest : List Char) : nextName true (stringText name ++ [':'] ++ (json.write ++ rest)) =
      .ok (some name, ':' :: (json.write ++ rest)) := by
    rw [List.append_assoc]
    exact nextName_of_first name
  have named : (((name, json) :: members).map Prod.fst).Pairwise (· < ·) :=
    List.pairwise_map.mpr ordered
  exact stopsIn_member 0 next nofun regular.1 reads.1 refuses.1 deep fun others =>
    stopsIn_loop_members named regular.2 reads.2 refuses.2 others

end Members

/-- Without a level left, a list or an object is refused at its opening mark. -/
theorem stopsIn_of_none_left {mark : Char}
    (opens : mark = '[' ∨ mark = '\x7b') (after : List Char) :
    StopsIn (value 0) (mark :: after) := by
  refine ⟨[], mark, after, rfl, ?_, fun rest => ?_⟩
  · rcases opens with rfl | rfl <;> rfl
  · rcases opens with rfl | rfl
    · rw [value]
      rfl
    · rw [value]
      rfl

/-- **Depth.** A written value that is nested too deep is refused inside, whatever follows it. -/
theorem stopsIn_value {json : Json} (regular : json.Regular) :
    Refuses limit (value limit) json := by
  induction limit generalizing json with
  | zero =>
      intro deep
      cases json with
      | array items => cases items <;> exact stopsIn_of_none_left (.inl rfl) _
      | object members => cases members <;> exact stopsIn_of_none_left (.inr rfl) _
      | _ => exact absurd deep (Nat.lt_irrefl 0)
  | succ limit ih =>
      -- Items and values of members have one level less, so the first that is too deep is refused
      -- by the induction hypothesis.
      intro deep
      cases regular with
      | @array items each =>
          cases items with
          | nil => exact absurd deep (by simp [nesting, nestingItems])
          | cons item items =>
              rw [nesting, Nat.add_lt_add_iff_right] at deep
              have stops :=
                stopsIn_items each (fun other among => reads_value limit (each other among))
                  (fun other among => ih (each other among)) deep
              rw [write]
              refine (stops.append [']']).behind ['['] fun rest stop failed => ?_
              rw [List.singleton_append, value_of_bracket]
              exact map_of_error _ failed
      | @object members ordered each =>
          cases members with
          | nil => exact absurd deep (by simp [nesting, nestingMembers])
          | cons member members =>
              obtain ⟨name, json⟩ := member
              rw [nesting, Nat.add_lt_add_iff_right] at deep
              have stops := stopsIn_members ordered each
                (fun other among => reads_value limit (each other among))
                (fun other among => ih (each other among)) deep
              have written : write (.object ((name, json) :: members)) =
                  ['\x7b'] ++ (stringText name ++ [':'] ++ json.write ++ writeMembers members ++
                    ['\x7d']) := by
                simp [write]
              rw [written]
              refine (stops.append ['\x7d']).behind ['\x7b'] fun rest stop failed => ?_
              rw [List.singleton_append, value_of_brace]
              exact map_of_error _ failed
      | _ => exact absurd deep (Nat.not_lt_zero _)

theorem byteCount_append (text rest : List Char) :
    byteCount (text ++ rest) = byteCount text + byteCount rest := by
  induction text with
  | nil => simp [byteCount]
  | cons c text ih =>
      unfold byteCount at ih ⊢
      rw [List.cons_append, List.foldr_cons, List.foldr_cons, ih]
      omega

/-- The place behind a text does not depend on what follows. -/
theorem place_append (text rest : List Char) (line column : Nat) :
    place (text ++ rest) line column (byteCount text) =
      place text line column (byteCount text) := by
  induction text generalizing line column with
  | nil =>
      cases rest with
      | nil => rfl
      | cons c rest => simp [place, byteCount, Char.utf8Size_pos]
  | cons c text ih =>
      have size : byteCount (c :: text) = c.utf8Size + byteCount text := rfl
      have passed : ¬ byteCount (c :: text) < c.utf8Size := by omega
      have left : byteCount (c :: text) - c.utf8Size = byteCount text := by omega
      rw [List.cons_append, place, place, if_neg passed, if_neg passed, left, ih]
      by_cases ends : c = '\n'
      · have less : byteCount (c :: text) - 1 = byteCount text := by
          rw [size, ends]
          exact Nat.add_sub_cancel_left ..
        rw [if_pos ends, if_pos ends, less, ih]
      · rw [if_neg ends, if_neg ends]

/-- Texts that begin with one that is too deep are refused with the same error. -/
theorem StopsIn.run_eq {α : Type} {scan : Scan α} {front : List Char} (stops : StopsIn scan front)
    {one other : String} {rest more : List Char} (first : one.toList = front ++ rest)
    (second : other.toList = front ++ more) :
    ∃ error, scan.run one = .error error ∧ scan.run other = .error error := by
  obtain ⟨before, mark, after, rfl, single, stopped⟩ := stops
  have located (tail : List Char) :
      Stop.locate ⟨.tooDeep, mark :: (after ++ tail), 1⟩ (before ++ mark :: after ++ tail) =
        ⟨.tooDeep, (place (before ++ [mark]) 1 0 (byteCount (before ++ [mark]))).1,
          (place (before ++ [mark]) 1 0 (byteCount (before ++ [mark]))).2⟩ := by
    have split : before ++ mark :: after ++ tail = before ++ [mark] ++ (after ++ tail) := by simp
    have size : byteCount (mark :: (after ++ tail)) = 1 + byteCount (after ++ tail) := by
      rw [← single]
      rfl
    have reached : byteCount (before ++ [mark] ++ (after ++ tail)) -
        byteCount (mark :: (after ++ tail)) + 1 = byteCount (before ++ [mark]) := by
      have last : byteCount [mark] = 1 := single
      rw [byteCount_append, byteCount_append, size, last]
      omega
    rw [Stop.locate, split, reached, place_append]
  have run (text : String) (tail : List Char)
      (written : text.toList = before ++ mark :: after ++ tail) :
      scan.run text = .error
        ⟨.tooDeep, (place (before ++ [mark]) 1 0 (byteCount (before ++ [mark]))).1,
          (place (before ++ [mark]) 1 0 (byteCount (before ++ [mark]))).2⟩ := by
    unfold Scan.run
    rw [written, bind_of_error _ (stopped tail)]
    exact congrArg Except.error (located tail)
  exact ⟨_, run one rest first, run other more second⟩

end Scan
end Json
end Toolsmith
