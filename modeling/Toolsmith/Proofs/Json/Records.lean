import Mathlib
import Toolsmith.Json.Shape
import Toolsmith.Proofs.Json.ReadBack
import Toolsmith.Proofs.Stepwise

/-! # Records are read back

An object is read by the names of its members, so that their order does not matter. `Arranges` says
what a change of order keeps; to leave a value as it is and to sort it are such changes. A record
that is written member by member in the order of its fields is read back however its members are
arranged: `Record.Takes` follows the fields and the members side by side, and
`Record.Takes.of_decoder` reads the whole object. In the other direction `Record.Gives` collects
what is known of the fields of a record that was read, from an object or from a list.
-/

namespace Toolsmith
namespace Json

section Order

theorem sortedItems_eq (items : List Json) : sortedItems items = items.map sorted := by
  induction items with
  | nil => rfl
  | cons item rest ih => rw [sortedItems, ih, List.map_cons]

theorem sortedMembers_eq (members : List (String × Json)) :
    sortedMembers members = members.map fun member => (member.1, member.2.sorted) := by
  induction members with
  | nil => rfl
  | cons member rest ih => rw [sortedMembers, ih, List.map_cons]

variable {α β : Type} {members shown found : List (String × α)} {name : String} {value : α}

/-- Members in order of their names stay in this order when they are put one by one. -/
theorem foldl_put_of_ordered (ordered : (found ++ members).Pairwise (·.1 < ·.1)) :
    members.foldl (fun sorted (name, value) => put name value sorted) found = found ++ members := by
  induction members generalizing found with
  | nil => rw [List.foldl_nil, List.append_nil]
  | cons member rest ih =>
      obtain ⟨name, value⟩ := member
      have last : ∀ other ∈ found, other.1 < name := fun other among =>
        (List.pairwise_append.mp ordered).2.2 other among _ List.mem_cons_self
      rw [List.append_cons] at ordered ⊢
      rw [List.foldl_cons]
      change List.foldl _ (put name value found) rest = _
      rw [put_of_last last]
      exact ih ordered

/-- Sorting changes nothing in a value as programs hold it. -/
theorem sorted_of_regular {json : Json} (regular : json.Regular) : json.sorted = json := by
  induction regular with
  | null | bool | number | string => rfl
  | array each ih =>
      rw [sorted, sortedItems_eq, List.map_congr_left ih, List.map_id']
  | @object members ordered each ih =>
      have same : ∀ member ∈ members, (member.1, member.2.sorted) = member :=
        fun member among => Prod.ext rfl (ih member among)
      rw [sorted, sortedMembers_eq, List.map_congr_left same, List.map_id', ofMembers,
        foldl_put_of_ordered ordered, List.nil_append]

/-- A member under a new name is added to those before it. -/
theorem put_perm (fresh : name ∉ found.map Prod.fst) :
    (put name value found).Perm ((name, value) :: found) := by
  induction found with
  | nil => exact .refl _
  | cons other rest ih =>
      rw [List.map_cons, List.mem_cons, not_or] at fresh
      rw [put]
      by_cases before : name < other.1
      · rw [if_pos before]
      · rw [if_neg before, if_neg fresh.1]
        exact ((ih fresh.2).cons other).trans (.swap ..)

/-- Members of different names are kept, in some order. -/
theorem foldl_put_perm (distinct : ((found ++ members).map Prod.fst).Nodup) :
    (members.foldl (fun sorted (name, value) => put name value sorted) found).Perm
      (found ++ members) := by
  induction members generalizing found with
  | nil => rw [List.foldl_nil, List.append_nil]
  | cons member rest ih =>
      have moved : (put member.1 member.2 found ++ rest).Perm (found ++ member :: rest) := by
        refine ((put_perm ?_).append_right rest).trans List.perm_middle.symm
        intro among
        rw [List.map_append] at distinct
        exact List.disjoint_of_nodup_append distinct among List.mem_cons_self
      rw [List.foldl_cons]
      refine (ih ?_).trans moved
      exact (moved.map Prod.fst).nodup_iff.mpr distinct

theorem lookup_of_absent (absent : name ∉ members.map Prod.fst) : members.lookup name = none := by
  rw [List.lookup_eq_none_iff]
  intro member among
  rw [bne_iff_ne]
  rintro rfl
  exact absent (List.mem_map_of_mem among)

/-- Among members of different names, a name is found with the value it stands with. -/
theorem lookup_eq_some_iff (distinct : (members.map Prod.fst).Nodup) :
    members.lookup name = some value ↔ (name, value) ∈ members := by
  induction members with
  | nil => simp
  | cons member rest ih =>
      obtain ⟨fresh, distinct⟩ := List.nodup_cons.mp distinct
      rw [List.lookup_cons, List.mem_cons]
      by_cases same : name = member.1
      · subst same
        have once : (member.1, value) ∉ rest := fun among =>
          fresh (List.mem_map.mpr ⟨_, among, rfl⟩)
        simp only [beq_self_eq_true, Option.some.injEq, once, or_false]
        constructor
        · rintro rfl
          rfl
        · intro same
          rw [← same]
      · have other : (name, value) ≠ member := fun equal => same (congrArg Prod.fst equal)
        simp only [beq_eq_false_iff_ne.mpr same, other, false_or]
        exact ih distinct

/-- What is found under a name does not depend on the order of the members. -/
theorem lookup_of_perm (same : shown.Perm members) (distinct : (members.map Prod.fst).Nodup) :
    shown.lookup name = members.lookup name := by
  have also : (shown.map Prod.fst).Nodup := (same.map Prod.fst).nodup_iff.mpr distinct
  ext value
  rw [lookup_eq_some_iff also, lookup_eq_some_iff distinct, same.mem_iff]

theorem lookup_map_values (f : α → β) :
    (members.map fun member => (member.1, f member.2)).lookup name =
      (members.lookup name).map f := by
  induction members with
  | nil => rfl
  | cons member rest ih =>
      rw [List.map_cons, List.lookup_cons, List.lookup_cons, ih]
      cases name == member.1 <;> rfl

end Order

/-- A way to arrange the members of objects. It changes nothing else, and it keeps values as
programs hold them. -/
structure Arranges (arrange : Json → Json) : Prop where
  kept : ∀ {json : Json}, json.Regular → arrange json = json
  eq_null : ∀ {json : Json}, arrange json = .null → json = .null
  array : ∀ items : List Json, arrange (.array items) = .array (items.map arrange)
  object : ∀ {members : List (String × Json)}, (members.map Prod.fst).Nodup →
    ∃ shown, arrange (.object members) = .object shown ∧
      shown.Perm (members.map fun member => (member.1, arrange member.2))

theorem arranges_id : Arranges id where
  kept _ := rfl
  eq_null null := null
  array items := congrArg Json.array (List.map_id items).symm
  object {members} _ := ⟨members, rfl, by simp⟩

theorem arranges_sorted : Arranges sorted where
  kept := sorted_of_regular
  eq_null {json} null := by
    cases json <;> first | rfl | cases null
  array items := by rw [sorted, sortedItems_eq]
  object {members} distinct := by
    refine ⟨_, by rw [sorted, sortedMembers_eq], foldl_put_perm ?_⟩
    rw [List.nil_append, List.map_map]
    exact distinct

/-- What is read from a value, arranged in some way, wherever it comes from. -/
def Decoder.Takes {α : Type} (decoder : Decoder α) (arrange : Json → Json) (json : Json)
    (value : α) : Prop :=
  ∀ setting, decoder setting (arrange json) = .ok value

section Takes

variable {α β : Type} {arrange : Json → Json} {decoder : Decoder α} {json : Json} {value : α}

theorem takes_string (arranges : Arranges arrange) (text : String) :
    Decoder.string.Takes arrange (.string text) text := by
  intro setting
  rw [arranges.kept (.string text)]
  rfl

theorem takes_boolean (arranges : Arranges arrange) (value : Bool) :
    Decoder.boolean.Takes arrange (.bool value) value := by
  intro setting
  rw [arranges.kept (.bool value)]
  rfl

theorem takes_members (arranges : Arranges arrange) {members : List (String × Json)}
    (regular : (Json.object members).Regular) :
    Decoder.members.Takes arrange (.object members) members := by
  intro setting
  rw [arranges.kept regular]
  rfl

/-- What is present is taken by an optional decoder as by the decoder itself. -/
theorem takes_optional (arranges : Arranges arrange) (taken : decoder.Takes arrange json value)
    (present : json ≠ .null) : decoder.optional.Takes arrange json (some value) := by
  intro setting
  have shown : arrange json ≠ .null := fun null => present (arranges.eq_null null)
  have read := taken setting
  cases arranged : arrange json with
  | null => exact absurd arranged shown
  | bool | number | string | array | object =>
      rw [arranged] at read
      simp only [Decoder.optional, read]
      rfl

theorem takes_list (arranges : Arranges arrange) {encode : β → Json} {back : β → α}
    {items : List β} (each : ∀ item ∈ items, decoder.Takes arrange (encode item) (back item)) :
    decoder.list.Takes arrange (.array (items.map encode)) (items.map back) := by
  intro setting
  rw [arranges.array, Decoder.list, mapM_eq_ok, List.map_map, List.forall₂_map_left_iff,
    List.forall₂_map_right_iff, List.forall₂_same]
  exact fun item among => each item among setting

/-- A table with its names in order is taken as it is. -/
theorem takes_table (arranges : Arranges arrange) {entries : List (String × String)}
    (ordered : entries.Pairwise (·.1 < ·.1)) :
    (Decoder.table .string).Takes arrange
      (.object (entries.map fun (name, text) => (name, .string text))) entries := by
  intro setting
  rw [arranges.kept, Decoder.table, mapM_eq_ok, List.forall₂_map_left_iff, List.forall₂_same]
  · intro entry _
    rfl
  · apply Regular.object
    · exact List.pairwise_map.mpr ordered
    · intro member among
      obtain ⟨entry, _, rfl⟩ := List.mem_map.mp among
      exact .string _

end Takes

/-- The names of the fields. -/
def Record.names {α : Type} (record : Record α) : List String := record.fields.map Prod.fst

/-- A value that may stand for a field that is not in an object. -/
def Absent.inObject? {α : Type} : Absent α → Option α
  | .refused => none
  | .inObject value | .always value => some value

/-- Members that a record with distinct names reads a value from, in whatever way they are
arranged. -/
structure Record.Takes {α : Type} (record : Record α) (arrange : Json → Json)
    (members : List (String × Json)) (value : α) : Prop where
  named : (members.map Prod.fst).Sublist record.names
  checked : record.names.Nodup → ∀ setting, ∀ member ∈ members, ∃ check,
    record.fields.lookup member.1 = some check ∧ check setting (arrange member.2) = .ok ()
  found : record.names.Nodup → ∀ setting find,
    (∀ name ∈ record.names, find name = (members.lookup name).map arrange) →
      record.ofMembers setting find = .ok value

namespace Record

variable {α β : Type} {arrange : Json → Json}

theorem takes_pure (value : α) : (Record.pure value).Takes arrange [] value where
  named := .slnil
  checked := by
    intro _ _ member among
    cases among
  found _ _ _ _ := rfl

/-- Two records in sequence take their members, each what has its names. -/
theorem Takes.seq {first : Record (α → β)} {second : Record α} {f : α → β} {value : α}
    {members others : List (String × Json)} (one : first.Takes arrange members f)
    (two : second.Takes arrange others value) :
    (first <*> second).Takes arrange (members ++ others) (f value) := by
  have names : (first <*> second).names = first.names ++ second.names := List.map_append
  constructor
  · rw [names, List.map_append]
    exact one.named.append two.named
  · intro distinct setting member among
    have apart := List.disjoint_of_nodup_append (names ▸ distinct)
    obtain ⟨distinct_one, distinct_two, _⟩ := List.nodup_append.mp (names ▸ distinct)
    change ∃ check, (first.fields ++ second.fields).lookup member.1 = _ ∧ _
    rw [List.lookup_append]
    rcases List.mem_append.mp among with among | among
    · obtain ⟨check, found, passed⟩ := one.checked distinct_one setting member among
      exact ⟨check, by rw [found, Option.some_or], passed⟩
    · obtain ⟨check, found, passed⟩ := two.checked distinct_two setting member among
      have absent : member.1 ∉ first.names := fun inside =>
        apart inside (two.named.subset (List.mem_map_of_mem among))
      exact ⟨check, by rw [lookup_of_absent absent, Option.none_or, found], passed⟩
  · intro distinct setting find finds
    have apart := List.disjoint_of_nodup_append (names ▸ distinct)
    obtain ⟨distinct_one, distinct_two, _⟩ := List.nodup_append.mp (names ▸ distinct)
    have finds_one : ∀ name ∈ first.names, find name = (members.lookup name).map arrange := by
      intro name inside
      have absent : name ∉ others.map Prod.fst := fun among =>
        apart inside (two.named.subset among)
      rw [finds name (names ▸ List.mem_append_left _ inside), List.lookup_append,
        lookup_of_absent absent, Option.or_none]
    have finds_two : ∀ name ∈ second.names, find name = (others.lookup name).map arrange := by
      intro name inside
      have absent : name ∉ members.map Prod.fst := fun among =>
        apart (one.named.subset among) inside
      rw [finds name (names ▸ List.mem_append_right _ inside), List.lookup_append,
        lookup_of_absent absent, Option.none_or]
    change (first.ofMembers setting find >>= fun f => _) = _
    rw [one.found distinct_one setting find finds_one]
    change (second.ofMembers setting find >>= fun value => _) = _
    rw [two.found distinct_two setting find finds_two]
    rfl

theorem Takes.map {record : Record α} {value : α} {members : List (String × Json)} (f : α → β)
    (takes : record.Takes arrange members value) :
    (f <$> record).Takes arrange members (f value) :=
  (takes_pure f).seq takes

section Field

variable {name : String} {decoder : Decoder α} {absent : Absent α} {json : Json} {value : α}

/-- A field takes the one member of its name. -/
theorem takes_field (taken : decoder.Takes arrange json value) :
    (field name decoder absent).Takes arrange [(name, json)] value where
  named := .refl _
  checked := by
    intro _ setting member among
    cases List.mem_singleton.mp among
    refine ⟨_, List.lookup_cons_self, ?_⟩
    rw [taken setting]
    rfl
  found := by
    intro _ setting find finds
    have here : find name = some (arrange json) := by
      rw [finds name List.mem_cons_self, List.lookup_cons_self, Option.map_some]
    unfold field
    simp only [here]
    exact taken setting

/-- A field that may be missing takes its default where no member has its name. -/
theorem takes_absent (stands : absent.inObject? = some value) :
    (field name decoder absent).Takes arrange [] value where
  named := List.nil_sublist _
  checked := by
    intro _ _ member among
    cases among
  found := by
    intro _ setting find finds
    have here : find name = none := finds name List.mem_cons_self
    unfold field
    cases absent with
    | refused => cases stands
    | inObject | always =>
        cases stands
        simp only [here]

theorem takes_required (name : String) (taken : decoder.Takes arrange json value) :
    (required name decoder).Takes arrange [(name, json)] value :=
  takes_field taken

theorem takes_withDefault (name : String) (value : α) {present : α}
    (taken : decoder.Takes arrange json present) :
    (withDefault name decoder value).Takes arrange [(name, json)] present :=
  takes_field taken

section Optional

variable (arranges : Arranges arrange) (name : String) {encode : α → Json} (value : Option α)
  (taken : ∀ present ∈ value, decoder.Takes arrange (encode present) present)
  (written : ∀ present, encode present ≠ .null)
include arranges taken written

/-- A member that is written only when it has a value is read as one that may be absent. -/
theorem takes_memberIf {absent : Absent (Option α)} (stands : absent.inObject? = some none) :
    (field name decoder.optional absent).Takes arrange
      (memberIf name (value.map encode)) value := by
  cases value with
  | none => exact takes_absent stands
  | some present =>
      exact takes_field (takes_optional arranges (taken present rfl) (written present))

theorem takes_optionally :
    (Record.optional name decoder).Takes arrange (memberIf name (value.map encode)) value :=
  takes_memberIf arranges name value taken written rfl

theorem takes_omissible :
    (omissible name decoder).Takes arrange (memberIf name (value.map encode)) value :=
  takes_memberIf arranges name value taken written rfl

end Optional

end Field

/-- What is checked about a member before any field is read. -/
def check (record : Record α) (setting : Setting) (member : String × Json) :
    Except ShapeError Unit :=
  match record.fields.lookup member.1 with
  | some check => check setting member.2
  | none => .ok ()

theorem decoder_object (record : Record α) (title : String) (setting : Setting)
    (members : List (String × Json)) :
    record.decoder title setting (.object members) =
      (members.forM (record.check setting) >>= fun _ =>
        record.ofMembers setting fun name => members.lookup name) :=
  rfl

/-- A record reads its members in any order. -/
theorem Takes.of_perm {record : Record α} {members shown : List (String × Json)} {value : α}
    (takes : record.Takes arrange members value) (distinct : record.names.Nodup)
    (same : shown.Perm (members.map fun member => (member.1, arrange member.2))) (title : String)
    (setting : Setting) : record.decoder title setting (.object shown) = .ok value := by
  have names : (members.map Prod.fst).Nodup := takes.named.nodup distinct
  have others : ((members.map fun member => (member.1, arrange member.2)).map Prod.fst).Nodup := by
    rw [List.map_map]
    exact names
  have checked : shown.forM (record.check setting) = .ok () := by
    apply forM_of_ok
    intro member among
    obtain ⟨written, inside, rfl⟩ := List.mem_map.mp (same.mem_iff.mp among)
    obtain ⟨check, field, passed⟩ := takes.checked distinct setting written inside
    simp only [Record.check, field, passed]
  rw [decoder_object, checked]
  apply takes.found distinct
  intro name _
  rw [lookup_of_perm same others, lookup_map_values]

theorem Takes.of_decoder {record : Record α} {members : List (String × Json)} {value : α}
    (takes : record.Takes arrange members value) (arranges : Arranges arrange)
    (distinct : record.names.Nodup) (title : String) :
    (record.decoder title).Takes arrange (.object members) value := by
  intro setting
  obtain ⟨shown, arranged, same⟩ := arranges.object (takes.named.nodup distinct)
  rw [arranged]
  exact takes.of_perm distinct same title setting

end Record

/-- What holds of all that is read from values as programs hold them. -/
def Decoder.Gives {α : Type} (decoder : Decoder α) (property : α → Prop) : Prop :=
  ∀ ⦃setting : Setting⦄ ⦃json : Json⦄ ⦃value : α⦄, json.Regular →
    decoder setting json = .ok value → property value

section Gives

variable {α : Type} {decoder : Decoder α} {property : α → Prop}

theorem gives_true : decoder.Gives fun _ => True := fun _ _ _ _ _ => trivial

theorem gives_members : Decoder.members.Gives fun members => (Json.object members).Regular := by
  intro setting json members regular read
  cases json with
  | object written =>
      cases read
      exact regular
  | null | bool | number | string | array => cases read

theorem gives_optional (given : decoder.Gives property) :
    decoder.optional.Gives fun value => ∀ present ∈ value, property present := by
  intro setting json value regular read present found
  cases json with
  | null =>
      cases read
      cases found
  | bool | number | string | array | object =>
      obtain ⟨input, taken, rfl⟩ := map_eq_ok.mp read
      cases found
      exact given regular taken

/-- A value that was read is not `null`, for this stands for nothing. -/
theorem gives_optional_any :
    Decoder.any.optional.Gives fun value => ∀ json ∈ value, json.Regular ∧ json ≠ .null := by
  intro setting json value regular read present found
  cases json with
  | null =>
      cases read
      cases found
  | bool | number | string | array | object =>
      cases read
      cases found
      exact ⟨regular, nofun⟩

theorem gives_list (given : decoder.Gives property) :
    decoder.list.Gives fun values => ∀ value ∈ values, property value := by
  intro setting json values regular read
  cases regular with
  | @array items each =>
      have read : List.Forall₂ _ items values := mapM_eq_ok.mp read
      induction read with
      | nil =>
          intro value among
          cases among
      | cons first rest ih =>
          intro value among
          rcases List.mem_cons.mp among with rfl | among
          · exact given (each _ List.mem_cons_self) first
          · exact ih (fun item inside => each item (List.mem_cons_of_mem _ inside))
              (mapM_eq_ok.mpr rest) value among
  | null | bool | number | string | object => cases read

theorem gives_table :
    (Decoder.table decoder).Gives fun entries => entries.Pairwise (·.1 < ·.1) := by
  intro setting json entries regular read
  cases regular with
  | @object members ordered each =>
      have read : List.Forall₂ _ members entries := mapM_eq_ok.mp read
      have names : entries.map Prod.fst = members.map Prod.fst := by
        clear ordered each
        induction read with
        | nil => rfl
        | cons first rest ih =>
            obtain ⟨value, _, kept⟩ := bind_eq_ok.mp first
            cases kept
            rw [List.map_cons, List.map_cons, ih (mapM_eq_ok.mpr rest)]
      have ordered : (members.map Prod.fst).Pairwise (· < ·) := List.pairwise_map.mpr ordered
      rw [← names] at ordered
      exact List.pairwise_map.mp ordered
  | null | bool | number | string | array => cases read

end Gives

/-- What holds of all that a record reads, from the members of an object or from the front of a
list. -/
structure Record.Gives {α : Type} (record : Record α) (property : α → Prop) : Prop where
  ofMembers : ∀ {setting : Setting} {find : String → Option Json} {value : α},
    (∀ name, ∀ json ∈ find name, json.Regular) → record.ofMembers setting find = .ok value →
      property value
  ofItems : ∀ {setting : Setting} {tooShort : Nat → ShapeError} {index : Nat}
    {items rest : List Json} {value : α}, (∀ item ∈ items, item.Regular) →
      record.ofItems setting tooShort index items = .ok (value, rest) →
        property value ∧ ∀ item ∈ rest, item.Regular

namespace Record

variable {α β : Type} {property : α → Prop}

theorem gives_pure {value : α} (holds : property value) :
    (Record.pure value).Gives property where
  ofMembers := by
    intro setting find value regular read
    cases read
    exact holds
  ofItems := by
    intro setting tooShort index items rest value regular read
    cases read
    exact ⟨holds, regular⟩

/-- What the first fields make of the value of the last ones is asked of the first. -/
theorem Gives.seq {first : Record (α → β)} {second : Record α} {result : β → Prop}
    (one : first.Gives fun f => ∀ value, property value → result (f value))
    (two : second.Gives property) : (first <*> second).Gives result where
  ofMembers := by
    intro setting find value regular read
    obtain ⟨f, made, read⟩ := bind_eq_ok.mp read
    obtain ⟨argument, found, kept⟩ := bind_eq_ok.mp read
    cases kept
    exact one.ofMembers regular made argument (two.ofMembers regular found)
  ofItems := by
    intro setting tooShort index items rest value regular read
    obtain ⟨⟨f, middle⟩, made, read⟩ := bind_eq_ok.mp read
    obtain ⟨⟨argument, last⟩, found, kept⟩ := bind_eq_ok.mp read
    cases kept
    obtain ⟨makes, regular⟩ := one.ofItems regular made
    obtain ⟨holds, regular⟩ := two.ofItems regular found
    exact ⟨makes argument holds, regular⟩

theorem Gives.map {record : Record α} {f : α → β} {result : β → Prop}
    (makes : ∀ value, property value → result (f value)) (given : record.Gives property) :
    (f <$> record).Gives result :=
  (gives_pure makes).seq given

theorem gives_field {name : String} {decoder : Decoder α} {absent : Absent α}
    (given : decoder.Gives property)
    (stands : ∀ value, absent.inObject? = some value → property value) :
    (field name decoder absent).Gives property where
  ofMembers := by
    intro setting find value regular read
    unfold field at read
    cases found : find name with
    | some json =>
        simp only [found] at read
        exact given (regular name json found) read
    | none =>
        cases absent with
        | refused =>
            simp only [found] at read
            cases read
        | inObject | always =>
            simp only [found] at read
            cases read
            exact stands _ rfl
  ofItems := by
    intro setting tooShort index items rest value regular read
    unfold field at read
    cases items with
    | cons item others =>
        obtain ⟨taken, found, kept⟩ := bind_eq_ok.mp read
        cases kept
        refine ⟨given (regular item List.mem_cons_self) found, ?_⟩
        exact fun other among => regular other (List.mem_cons_of_mem _ among)
    | nil =>
        cases absent with
        | refused | inObject => cases read
        | always =>
            cases read
            exact ⟨stands _ rfl, regular⟩

theorem gives_required {name : String} {decoder : Decoder α} (given : decoder.Gives property) :
    (required name decoder).Gives property :=
  gives_field given nofun

/-- A record of an object or a list gives what it gives of the members. -/
theorem Gives.of_decoder {record : Record α} (given : record.Gives property) (title : String) :
    (record.decoder title).Gives property := by
  intro setting json value regular read
  cases regular with
  | @object members ordered each =>
      rw [decoder_object] at read
      obtain ⟨_, _, read⟩ := bind_eq_ok.mp read
      apply given.ofMembers ?_ read
      intro name json found
      have distinct : (members.map Prod.fst).Nodup :=
        (List.pairwise_map.mpr ordered).imp (fun before => ne_of_lt before)
      exact each _ ((lookup_eq_some_iff distinct).mp found)
  | array each =>
      obtain ⟨⟨taken, rest⟩, read, kept⟩ := bind_eq_ok.mp read
      have same : taken = value := by
        cases rest with
        | nil =>
            cases kept
            rfl
        | cons item others => cases setting <;> cases kept
      rw [← same]
      exact (given.ofItems each read).1
  | null | bool | number | string => cases read

end Record

end Json
end Toolsmith
