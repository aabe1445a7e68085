import Mathlib
import Toolsmith.Proofs.Json.Skipping
import Toolsmith.Proofs.Protocol.RequestText

/-! # Which texts are requests

Requests are read in one pass over the text, and not from a value. For a text that is JSON this
comes to the same as looking at its members as they are written: two of them must be strings, none
of the four may be repeated, and all others are passed over (`Request.InMembers`). A list is read
as well, by the places of its items (`Request.ofItems?`). Nothing else is a request
(`Request.read_eq_ok_iff`). Where a reader stops does not matter here, only whether it does
(`Scan.found`).
-/

namespace Toolsmith

open Json

section Grammar

/-- The values that members give to a name, one for each time that it is written. -/
def Json.valuesOf (name : String) (members : List (String × Json)) : List Json :=
  (members.filter (·.1 = name)).map (·.2)

/-- A text that writes an object, with its members as they are written. -/
def Json.WritesObject (text : String) (members : List (String × Json)) : Prop :=
  ∃ tail after, text.toList.dropWhile Scan.isSpace = '\x7b' :: tail ∧
    Scan.MembersIn (Scan.value (depthLimit - 1)) true tail members after ∧
      after.dropWhile Scan.isSpace = []

/-- A text that writes a list. -/
def Json.WritesList (text : String) (items : List Json) : Prop :=
  ∃ tail after, text.toList.dropWhile Scan.isSpace = '[' :: tail ∧
    Scan.ItemsIn (Scan.value (depthLimit - 1)) true tail items after ∧
      after.dropWhile Scan.isSpace = []

/-- The members of an object write a request: the version and the method are strings and stand once,
the identifier and the parameters at most once, and `null` is the same as nothing. -/
structure Request.InMembers (request : Request) (members : List (String × Json)) : Prop where
  jsonrpc : valuesOf "jsonrpc" members = [.string request.jsonrpc]
  id : ∃ given : Option Json, valuesOf "id" members = given.toList ∧
    request.id = given.bind unlessNull
  method : valuesOf "method" members = [.string request.method]
  params : ∃ given : Option Json, valuesOf "params" members = given.toList ∧
    request.params = given.bind unlessNull

/-- The request that the items of a list make by their places. -/
def Request.ofItems? : List Json → Option Request
  | [jsonrpc, id, method] => do
    return ⟨← jsonrpc.string?, id.unlessNull, ← method.string?, none⟩
  | [jsonrpc, id, method, params] => do
    return ⟨← jsonrpc.string?, id.unlessNull, ← method.string?, params.unlessNull⟩
  | _ => none

/-- A text that writes a request as an object. -/
def Request.Written (request : Request) (text : String) : Prop :=
  ∃ members, WritesObject text members ∧ request.InMembers members

/-- A value that is a request as a list. -/
def Request.Listed (request : Request) (json : Json) : Prop :=
  ∃ items, json = .array items ∧ Request.ofItems? items = some request

end Grammar

namespace Json
namespace Scan

section Found

variable {α β : Type}

/-- What a scan finds, without the reason when it stops. -/
def found (scan : Scan α) (rest : List Char) : Option (α × List Char) := (scan rest).toOption

theorem found_eq_some_iff {scan : Scan α} {rest after : List Char} {value : α} :
    scan.found rest = some (value, after) ↔ scan rest = .ok (value, after) := by
  unfold found
  cases scan rest with
  | error stop => simp [Except.toOption]
  | ok result => simp [Except.toOption]

theorem found_bind (scan : Scan α) (next : α → Scan β) (rest : List Char) :
    (scan >>= next).found rest = (scan.found rest).bind fun read => (next read.1).found read.2 := by
  cases read : scan rest with
  | error stop =>
    rw [found, bind_of_error _ read, found, read]
    rfl
  | ok result =>
    obtain ⟨value, after⟩ := result
    rw [found, bind_of_ok _ read]
    simp only [found, read]
    rfl

theorem found_pure (value : α) (rest : List Char) :
    (pure value : Scan α).found rest = some (value, rest) :=
  rfl

end Found

section Parts

variable {rest written named start after : List Char} {json : Json} {depth : Nat}

theorem found_peek_bind {α : Type} (next : Option Char → Scan α) :
    (peek >>= next).found rest =
      (next (rest.dropWhile isSpace).head?).found (rest.dropWhile isSpace) :=
  rfl

theorem found_bind_of_refusal {α β : Type} {scan : Scan α} {next : α → Scan β}
    (refuses : ∀ value after, (next value).found after = none) :
    (scan >>= next).found rest = none := by
  rw [found_bind]
  simp only [refuses, Option.bind_fun_none]

/-- A value of the wrong type is refused, whatever it is. -/
theorem found_wrongType {α : Type} (expected : String) :
    (wrongType expected : Scan α).found rest = none := by
  unfold wrongType
  rw [found_peek_bind]
  generalize rest.dropWhile isSpace = visible
  generalize visible.head? = head
  split
  · exact found_bind_of_refusal fun _ _ => rfl
  · exact found_bind_of_refusal fun _ _ => rfl
  · exact found_bind_of_refusal fun _ _ => rfl
  · exact found_bind_of_refusal fun _ _ => found_bind_of_refusal fun _ _ => rfl
  · rfl
  · rfl
  · exact found_bind_of_refusal fun _ _ => found_bind_of_refusal fun _ _ => rfl
  · split
    · exact found_bind_of_refusal fun _ _ => rfl
    · rfl
  · rfl

theorem found_text (read : value depth start = .ok (json, after)) :
    text.found start = json.string?.map (·, after) := by
  have stands := valueIn_of_value read
  unfold text
  rw [found_peek_bind]
  generalize start.dropWhile isSpace = visible at stands ⊢
  cases stands with
  | string reads => exact found_eq_some_iff.mpr reads
  | @digits _ c _ _ _ digit =>
    rw [List.head?_cons]
    generalize seen : some c = head
    split
    · contradiction
    · exact absurd (Option.some.inj seen) (ne_of_isDigit digit rfl)
    · exact found_wrongType _
  | _ => exact found_wrongType _

theorem found_optionalValue (read : value (depthLimit - 1) start = .ok (json, after)) :
    optionalValue.found start = (some json.unlessNull).map (·, after) := by
  rw [optionalValue, found_bind, found_eq_some_iff.mpr read]
  cases json <;> rfl

end Parts

section Objects

variable {text named start after : List Char} {json : Json} {name : String} {first : Bool}
  {members : List (String × Json)} {request : Request}

/-- A member is taken once, and only when it is of its kind; members of other names are passed
over. -/
def RequestParts.take? (parts : RequestParts) (name : String) (json : Json) :
    Option RequestParts :=
  match name with
  | "jsonrpc" =>
    if parts.jsonrpc.isSome then none
    else json.string?.map fun found => { parts with jsonrpc := some found }
  | "id" => if parts.id.isSome then none else some { parts with id := some json.unlessNull }
  | "method" =>
    if parts.method.isSome then none
    else json.string?.map fun found => { parts with method := some found }
  | "params" =>
    if parts.params.isSome then none else some { parts with params := some json.unlessNull }
  | _ => some parts

theorem RequestParts.take?_of_other (parts : RequestParts) (version : name ≠ "jsonrpc")
    (id : name ≠ "id") (method : name ≠ "method") (params : name ≠ "params") :
    parts.take? name json = some parts := by
  unfold RequestParts.take?
  split <;> first | contradiction | rfl

theorem found_stopInside {α : Type} (closing : Char) (error : ShapeError) :
    (stopInside closing error : Scan α).found text = none := by
  rw [stopInside, found_peek_bind]
  split
  · exact found_bind_of_refusal fun _ _ => rfl
  · rfl

/-- A member that may be written once, into a slot that may be filled. -/
theorem found_slot {α : Type} {slot : Option α} {scan : Scan α} {value? : Option α}
    {error : ShapeError} (fill : α → RequestParts) (points : named.dropWhile isSpace = ':' :: start)
    (reads : scan.found start = value?.map (·, after)) :
    ((if slot.isSome then stopInside '\x7d' error else do colon; scan : Scan α) >>=
        fun found => (pure (fill found) : Scan RequestParts)).found named =
      (if slot.isSome then none else value?.map fill).map (·, after) := by
  rw [found_bind]
  cases slot with
  | some filled =>
    simp only [Option.isSome_some, ↓reduceIte, found_stopInside]
    rfl
  | none =>
    simp only [Option.isSome_none, Bool.false_eq_true, ↓reduceIte]
    rw [found_bind, found_eq_some_iff.mpr (colon_eq_iff.mpr points), Option.bind_some, reads]
    cases value? <;> rfl

/-- A member of a request is found when its value is one that the parts can take under its name. -/
theorem found_requestMember (parts : RequestParts) (points : named.dropWhile isSpace = ':' :: start)
    (read : value (depthLimit - 1) start = .ok (json, after)) :
    (requestMember name parts).found named = (parts.take? name json).map (·, after) := by
  have string := found_text read
  have option := found_optionalValue read
  unfold requestMember
  split
  · exact found_slot (fun found => { parts with jsonrpc := some found }) points string
  · exact found_slot (fun found => { parts with id := some found }) points option
  · exact found_slot (fun found => { parts with method := some found }) points string
  · exact found_slot (fun found => { parts with params := some found }) points option
  · rename_i version id method params
    rw [parts.take?_of_other version id method params, found_bind,
      found_eq_some_iff.mpr (colon_eq_iff.mpr points), Option.bind_some, found_bind,
      found_eq_some_iff.mpr (skipValue_of_value read)]
    rfl

/-- All members, one after another. -/
def RequestParts.takeAll? (parts : RequestParts) (members : List (String × Json)) :
    Option RequestParts :=
  members.foldlM (fun parts (name, json) => parts.take? name json) parts

theorem takeAll?_cons (parts : RequestParts) :
    parts.takeAll? ((name, json) :: members) =
      (parts.take? name json).bind fun next => next.takeAll? members :=
  List.foldlM_cons ..

/-- The rounds over the members of an object, by induction on them as they stand in the text. -/
theorem found_requestRounds (stand : MembersIn (value (depthLimit - 1)) first text members after)
    (parts : RequestParts) {fuel : Nat} (enough : text.length < fuel) :
    (loopWithin requestStep fuel (first, parts)).found text =
      (parts.takeAll? members).map (·, after) := by
  induction stand generalizing parts fuel with
  | @close first text after ends =>
    obtain ⟨fuel, rfl⟩ := Nat.exists_eq_add_of_lt enough
    have closes : (nextName first).found text = _ :=
      found_eq_some_iff.mpr (nextName_of_close ends)
    rw [loopWithin, found_bind, requestStep, found_bind, closes]
    rfl
  | @member first text quoted named start middle after name json members starts names points reads
      _ ih =>
    -- One round takes the name and the member; the fuel lasts because each takes a character.
    obtain ⟨fuel, rfl⟩ := Nat.exists_eq_add_of_lt enough
    have called := found_eq_some_iff.mpr (nextName_of_separates starts names)
    have taken : (requestStep (first, parts)).found text =
        (parts.take? name json).map fun next => (.inl (false, next), middle) := by
      rw [requestStep, found_bind, called, Option.bind_some, found_bind,
        found_requestMember parts points reads]
      cases parts.take? name json <;> rfl
    rw [loopWithin, found_bind, taken, takeAll?_cons]
    cases parts.take? name json with
    | none => rfl
    | some next =>
      have named := length_lt_of_name starts names points
      have read := takes_value _ reads
      exact ih next (by omega)

/-- What a slot holds after values were given to it: it is filled at most once. -/
inductive Fills {α : Type} (read : Json → Option α) : Option α → List Json → Option α → Prop where
  | keep (slot : Option α) : Fills read slot [] slot
  | fill {json : Json} {value : α} (reads : read json = some value) :
      Fills read none [json] (some value)

theorem fills_nil {α : Type} {read : Json → Option α} {slot final : Option α} :
    Fills read slot [] final ↔ final = slot := by
  constructor
  · rintro ⟨⟩
    rfl
  · rintro rfl
    exact .keep final

/-- A slot is filled by one value at most. -/
theorem fills_cons {α : Type} {read : Json → Option α} {slot final : Option α}
    {values : List Json} :
    Fills read slot (json :: values) final ↔
      slot = none ∧ ∃ value, read json = some value ∧ Fills read (some value) values final := by
  constructor
  · rintro ⟨⟩
    rename_i value reads
    exact ⟨rfl, value, reads, .keep _⟩
  · rintro ⟨rfl, value, reads, kept⟩
    cases kept
    exact .fill reads

/-- The parts after all members. -/
@[mk_iff]
structure RequestParts.Gathers (parts : RequestParts) (members : List (String × Json))
    (final : RequestParts) : Prop where
  jsonrpc : Fills string? parts.jsonrpc (valuesOf "jsonrpc" members) final.jsonrpc
  id : Fills (fun json => some json.unlessNull) parts.id (valuesOf "id" members) final.id
  method : Fills string? parts.method (valuesOf "method" members) final.method
  params : Fills (fun json => some json.unlessNull) parts.params (valuesOf "params" members)
    final.params

theorem valuesOf_cons_self : valuesOf name ((name, json) :: members) =
    json :: valuesOf name members := by
  simp [valuesOf]

theorem valuesOf_cons_of_ne {other : String} (different : name ≠ other) :
    valuesOf other ((name, json) :: members) = valuesOf other members := by
  simp [valuesOf, different]

theorem exists_slot {α : Type} {slot value? : Option α} {fill : α → RequestParts}
    {holds : RequestParts → Prop} :
    (∃ next, (if slot.isSome then none else value?.map fill) = some next ∧ holds next) ↔
      slot = none ∧ ∃ value, value? = some value ∧ holds (fill value) := by
  cases slot <;> simp

/-- One more member. -/
theorem gathers_cons {parts final : RequestParts} :
    parts.Gathers ((name, json) :: members) final ↔
      ∃ next, parts.take? name json = some next ∧ next.Gathers members final := by
  have apart {other : String} (different : name ≠ other) :
      valuesOf other ((name, json) :: members) = valuesOf other members :=
    valuesOf_cons_of_ne different
  have id : "jsonrpc" ≠ "id" ∧ "method" ≠ "id" ∧ "params" ≠ "id" := by decide
  have version : "id" ≠ "jsonrpc" ∧ "method" ≠ "jsonrpc" ∧ "params" ≠ "jsonrpc" := by decide
  have method : "jsonrpc" ≠ "method" ∧ "id" ≠ "method" ∧ "params" ≠ "method" := by decide
  have params : "jsonrpc" ≠ "params" ∧ "id" ≠ "params" ∧ "method" ≠ "params" := by decide
  by_cases first : name = "jsonrpc"
  · subst first
    refine Iff.trans ?_ (@exists_slot _ parts.jsonrpc json.string?
      (fun found => { parts with jsonrpc := some found }) _).symm
    rw [RequestParts.gathers_iff, valuesOf_cons_self, apart id.1, apart method.1, apart params.1,
      fills_cons]
    simp only [RequestParts.gathers_iff]
    grind
  by_cases second : name = "id"
  · subst second
    refine Iff.trans ?_ (@exists_slot _ parts.id (some json.unlessNull)
      (fun found => { parts with id := some found }) _).symm
    rw [RequestParts.gathers_iff, valuesOf_cons_self, apart version.1, apart method.2.1,
      apart params.2.1, fills_cons]
    simp only [RequestParts.gathers_iff]
    grind
  by_cases third : name = "method"
  · subst third
    refine Iff.trans ?_ (@exists_slot _ parts.method json.string?
      (fun found => { parts with method := some found }) _).symm
    rw [RequestParts.gathers_iff, valuesOf_cons_self, apart version.2.1, apart id.2.1,
      apart params.2.2, fills_cons]
    simp only [RequestParts.gathers_iff]
    grind
  by_cases fourth : name = "params"
  · subst fourth
    refine Iff.trans ?_ (@exists_slot _ parts.params (some json.unlessNull)
      (fun found => { parts with params := some found }) _).symm
    rw [RequestParts.gathers_iff, valuesOf_cons_self, apart version.2.2, apart id.2.2,
      apart method.2.2, fills_cons]
    simp only [RequestParts.gathers_iff]
    grind
  · rw [parts.take?_of_other first second third fourth]
    simp [RequestParts.gathers_iff, apart first, apart second, apart third, apart fourth]

/-- Taking the members one by one gathers the values of each name. -/
theorem takeAll?_eq_some_iff {parts final : RequestParts} :
    parts.takeAll? members = some final ↔ parts.Gathers members final := by
  induction members generalizing parts with
  | nil =>
    have none (name : String) : valuesOf name [] = [] := rfl
    have same : parts.takeAll? [] = some parts := rfl
    rw [same, RequestParts.gathers_iff, none, none, none, none]
    simp only [fills_nil]
    cases parts
    cases final
    simp [eq_comm]
  | cons member members ih =>
    obtain ⟨name, json⟩ := member
    rw [takeAll?_cons, gathers_cons, Option.bind_eq_some_iff]
    simp only [ih]

/-- A slot for a string is filled by exactly one value, which is a string. -/
theorem fills_string {values : List Json} {value : String} :
    Fills string? none values (some value) ↔ values = [.string value] := by
  constructor
  · intro fills
    cases fills with
    | @fill json _ reads =>
      cases json <;> cases reads
      rfl
  · rintro rfl
    exact .fill rfl

/-- A slot for any value is filled by at most one, where `null` counts as none. -/
theorem fills_optional {values : List Json} {final : Option (Option Json)} :
    Fills (fun json => some json.unlessNull) none values final ↔
      ∃ given : Option Json, values = given.toList ∧ final = given.map unlessNull := by
  constructor
  · intro fills
    cases fills with
    | keep => exact ⟨none, rfl, rfl⟩
    | fill reads =>
      cases reads
      exact ⟨some _, rfl, rfl⟩
  · rintro ⟨given, rfl, rfl⟩
    cases given with
    | none => exact .keep none
    | some json => exact .fill rfl

/-- The request that its parts make, when none is missing. -/
def RequestParts.whole? (parts : RequestParts) : Option Request := do
  return ⟨← parts.jsonrpc, parts.id.join, ← parts.method, parts.params.join⟩

/-- The members make a request exactly when each part stands among them as often as it may. -/
theorem whole?_takeAll? :
    (({} : RequestParts).takeAll? members).bind RequestParts.whole? = some request ↔
      request.InMembers members := by
  rw [Option.bind_eq_some_iff]
  constructor
  · rintro ⟨parts, taken, whole⟩
    obtain ⟨version, id, method, params⟩ := takeAll?_eq_some_iff.mp taken
    obtain ⟨jsonrpc, identifier, name, arguments⟩ := parts
    simp only [RequestParts.whole?, Option.bind_eq_bind, Option.bind_eq_some_iff] at whole
    obtain ⟨_, rfl, _, rfl, ⟨⟩⟩ := whole
    obtain ⟨given, identified, rfl⟩ := fills_optional.mp id
    obtain ⟨other, supplied, rfl⟩ := fills_optional.mp params
    exact ⟨fills_string.mp version, ⟨given, identified, join_map_unlessNull given⟩,
      fills_string.mp method, ⟨other, supplied, join_map_unlessNull other⟩⟩
  · rintro ⟨version, ⟨given, identified, id⟩, method, ⟨other, supplied, params⟩⟩
    refine ⟨⟨some request.jsonrpc, given.map unlessNull, some request.method,
      other.map unlessNull⟩, takeAll?_eq_some_iff.mpr ⟨fills_string.mpr version,
        fills_optional.mpr ⟨given, identified, rfl⟩, fills_string.mpr method,
          fills_optional.mpr ⟨other, supplied, rfl⟩⟩, ?_⟩
    rw [RequestParts.whole?]
    simp only [join_map_unlessNull, ← id, ← params]
    rfl

/-- An object is read as the request that its members make, up to the brace. -/
theorem requestObject_eq_ok_iff {rest : List Char}
    (stand : MembersIn (value (depthLimit - 1)) true text members after) :
    requestObject text = .ok (request, rest) ↔ request.InMembers members ∧ rest = after := by
  have rounds := found_requestRounds stand {} (Nat.lt_succ_self _)
  have object : requestObject.found text =
      ((({} : RequestParts).takeAll? members).bind RequestParts.whole?).map (·, after) := by
    rw [requestObject, found_bind]
    have looped : (loop requestStep (true, {})).found text = _ := rounds
    rw [looped]
    cases ({} : RequestParts).takeAll? members with
    | none => rfl
    | some parts =>
      obtain ⟨jsonrpc, id, method, params⟩ := parts
      cases jsonrpc <;> cases method <;> rfl
  rw [← found_eq_some_iff, object, Option.map_eq_some_iff]
  simp only [whole?_takeAll?, Prod.mk.injEq]
  constructor
  · rintro ⟨_, stands, rfl, rfl⟩
    exact ⟨stands, rfl⟩
  · rintro ⟨stands, rfl⟩
    exact ⟨request, stands, rfl, rfl⟩

end Objects

section Lists

variable {items : List Json} {json : Json} {text after : List Char} {first : Bool}

/-- The next item is read by whatever reads values like it. -/
theorem found_itemOr_of_item {α : Type} {item : Scan α} {value? : Option α}
    (stand : ItemsIn (value (depthLimit - 1)) first text (json :: items) after)
    (reads : ∀ {start middle : List Char}, value (depthLimit - 1) start = .ok (json, middle) →
      item.found start = value?.map (·, middle)) :
    ∃ middle, (∀ other, (itemOr first item other).found text = value?.map (·, middle)) ∧
      ItemsIn (value (depthLimit - 1)) false middle items after := by
  cases stand with
  | @item _ _ start middle _ _ _ starts read others =>
    refine ⟨middle, fun other => ?_, others⟩
    obtain ⟨c, tail, front, opens⟩ := visible_of_value read
    have visible : start.dropWhile isSpace = start := by
      cases starts <;> exact List.dropWhile_idempotent ..
    obtain rfl := visible.symm.trans front
    rw [itemOr, found_bind, found_eq_some_iff.mpr (moreItems_of_separates starts opens)]
    exact reads read

theorem found_itemOr_of_end {α : Type} {item other : Scan α}
    (stand : ItemsIn (value (depthLimit - 1)) first text [] after) :
    (itemOr first item other).found text = other.found (']' :: after) := by
  cases stand with
  | close ends =>
    rw [itemOr, found_bind, found_eq_some_iff.mpr (moreItems_of_close ends)]
    rfl

theorem itemsIn_of_bracket : ItemsIn (value (depthLimit - 1)) first (']' :: after) [] after :=
  .close rfl

/-- The end of the list is found when no item is left. -/
theorem found_requestListEnd (stand : ItemsIn (value (depthLimit - 1)) false text items after) :
    requestListEnd.found text = if items.isEmpty then some ((), after) else none := by
  rw [requestListEnd, found_peek_bind]
  cases stand with
  | close ends =>
    rw [ends]
    rfl
  | item starts =>
    cases starts with
    | comma found =>
      rw [found]
      exact found_bind_of_refusal fun _ _ => found_bind_of_refusal fun _ _ => rfl

/-- A request as a list, by the number of its items: with fewer than three the method is missing,
and with more than four the list does not end. -/
theorem found_requestList (stand : ItemsIn (value (depthLimit - 1)) true text items after) :
    requestList.found text = (Request.ofItems? items).map (·, after) := by
  rw [requestList]
  match items with
  | [] =>
    rw [found_bind, found_itemOr_of_end stand, found_stopInside]
    rfl
  | [jsonrpc] =>
    obtain ⟨_, version, stand⟩ := found_itemOr_of_item stand found_text
    simp only [found_bind, version, found_itemOr_of_end stand, Option.bind_map, found_pure,
      Function.comp_def, Option.bind_some, found_itemOr_of_end itemsIn_of_bracket,
      found_stopInside, Option.bind_none, Option.bind_fun_none]
    rfl
  | [jsonrpc, id] =>
    obtain ⟨_, version, stand⟩ := found_itemOr_of_item stand found_text
    obtain ⟨_, identifier, stand⟩ := found_itemOr_of_item stand found_optionalValue
    simp only [found_bind, version, identifier, Option.bind_map, Function.comp_def,
      found_itemOr_of_end stand, found_stopInside, Option.bind_none, Option.bind_fun_none]
    rfl
  | [jsonrpc, id, method] =>
    obtain ⟨_, version, stand⟩ := found_itemOr_of_item stand found_text
    obtain ⟨_, identifier, stand⟩ := found_itemOr_of_item stand found_optionalValue
    obtain ⟨_, name, stand⟩ := found_itemOr_of_item stand found_text
    simp only [found_bind, version, identifier, name, Option.bind_map, Function.comp_def,
      Option.bind_some, found_itemOr_of_end stand, found_pure,
      found_requestListEnd itemsIn_of_bracket, Request.ofItems?]
    cases jsonrpc.string? <;> cases method.string? <;> rfl
  | jsonrpc :: id :: method :: params :: items =>
    obtain ⟨_, version, stand⟩ := found_itemOr_of_item stand found_text
    obtain ⟨_, identifier, stand⟩ := found_itemOr_of_item stand found_optionalValue
    obtain ⟨_, name, stand⟩ := found_itemOr_of_item stand found_text
    obtain ⟨_, arguments, stand⟩ := found_itemOr_of_item stand found_optionalValue
    simp only [found_bind, version, identifier, name, arguments, Option.bind_map,
      Function.comp_def, Option.bind_some, found_pure, found_requestListEnd stand]
    cases items with
    | nil =>
      rw [Request.ofItems?]
      cases jsonrpc.string? <;> cases method.string? <;> rfl
    | cons extra items =>
      simp only [List.isEmpty_cons, Bool.false_eq_true, ↓reduceIte, Option.bind_none,
        Option.bind_fun_none]
      rfl

end Lists

end Scan
end Json

section Texts

variable {text : String} {json : Json} {request : Request}

theorem Json.Scan.finish_eq_ok_iff {rest after : List Char} :
    Scan.finish rest = .ok ((), after) ↔ after = [] ∧ rest.dropWhile Scan.isSpace = [] := by
  unfold Scan.finish
  rw [Scan.bind_of_ok _ (Scan.peek_eq rest)]
  cases rest.dropWhile Scan.isSpace with
  | nil =>
    constructor
    · rintro ⟨⟩
      exact ⟨rfl, rfl⟩
    · rintro ⟨rfl, -⟩
      rfl
  | cons c tail =>
    constructor
    · rintro ⟨⟩
    · rintro ⟨-, ⟨⟩⟩

/-- A text is read when nothing but blanks is left of it. -/
theorem Json.Scan.run_eq_ok_iff {α : Type} {scan : Scan α} {value : α} :
    scan.run text = .ok value ↔
      ∃ after, scan text.toList = .ok (value, after) ∧ after.dropWhile Scan.isSpace = [] := by
  unfold Scan.run
  constructor
  · intro read
    split at read
    · rename_i found whole
      cases read
      obtain ⟨value, after, scanned, rest⟩ := Scan.exists_of_bind whole
      obtain ⟨_, last, finished, kept⟩ := Scan.exists_of_bind rest
      cases kept
      exact ⟨after, scanned, (Scan.finish_eq_ok_iff.mp finished).2⟩
    · cases read
  · rintro ⟨after, scanned, blank⟩
    rw [Scan.bind_of_ok _ scanned, Scan.bind_of_ok _ (Scan.finish_eq_ok_iff.mpr ⟨rfl, blank⟩)]
    rfl

/-- An object is a request as its members are written. -/
theorem Request.read_of_writesObject {members : List (String × Json)}
    (writes : WritesObject text members) :
    Request.read text = .ok request ↔ request.InMembers members := by
  obtain ⟨tail, after, front, stand, blank⟩ := writes
  have opened : Scan.request text.toList = Scan.requestObject tail := by
    rw [Scan.request, Scan.bind_of_ok _ (Scan.peek_eq _), front]
    rfl
  unfold Request.read
  rw [Scan.run_eq_ok_iff, opened]
  simp only [Scan.requestObject_eq_ok_iff stand]
  constructor
  · rintro ⟨_, ⟨stands, -⟩, -⟩
    exact stands
  · intro stands
    exact ⟨after, ⟨stands, rfl⟩, blank⟩

/-- A written list is read as the request that its items make by position. -/
theorem Request.read_of_writesList {items : List Json} (writes : WritesList text items) :
    Request.read text = .ok request ↔ Request.ofItems? items = some request := by
  obtain ⟨tail, after, front, stand, blank⟩ := writes
  have opened : Scan.request text.toList = Scan.requestList tail := by
    rw [Scan.request, Scan.bind_of_ok _ (Scan.peek_eq _), front]
    rfl
  unfold Request.read
  rw [Scan.run_eq_ok_iff, opened]
  simp only [← Scan.found_eq_some_iff, Scan.found_requestList stand, Option.map_eq_some_iff]
  constructor
  · rintro ⟨_, ⟨_, made, ⟨⟩⟩, -⟩
    exact made
  · intro made
    exact ⟨after, ⟨request, made, rfl⟩, blank⟩

/-- A value without parts is no request. -/
theorem Request.read_ne_ok {c : Char} {tail : List Char}
    (front : text.toList.dropWhile Scan.isSpace = c :: tail) (bracket : c ≠ '[')
    (brace : c ≠ '\x7b') : Request.read text ≠ .ok request := by
  unfold Request.read
  rw [Ne, Scan.run_eq_ok_iff]
  rintro ⟨after, read, -⟩
  rw [← Scan.found_eq_some_iff, Scan.request, Scan.found_peek_bind, front,
    List.head?_cons] at read
  generalize seen : some c = head at read
  split at read
  · cases read
  · exact bracket (Option.some.inj seen)
  · exact brace (Option.some.inj seen)
  · rw [Scan.found_wrongType] at read
    cases read

/-- How a text that is JSON is written. -/
theorem Json.writes_of_read (read : Json.read text = .ok json) :
    (∃ members, json = .object (ofMembers members) ∧ WritesObject text members) ∨
      (∃ items, json = .array items ∧ WritesList text items) ∨
        (∀ items, json ≠ .array items) ∧
          ∃ c tail, text.toList.dropWhile Scan.isSpace = c :: tail ∧ c ≠ '[' ∧ c ≠ '\x7b' := by
  obtain ⟨after, read, blank⟩ := Scan.run_eq_ok_iff.mp read
  have stands := Scan.valueIn_of_value read
  generalize front : text.toList.dropWhile Scan.isSpace = visible at stands
  generalize limit : depthLimit = depth at stands
  cases stands with
  | @list lower tail _ items stand =>
    obtain rfl : lower = depthLimit - 1 := by omega
    exact .inr (.inl ⟨items, rfl, tail, after, front, stand, blank⟩)
  | @object lower tail _ members stand =>
    obtain rfl : lower = depthLimit - 1 := by omega
    exact .inl ⟨members, rfl, tail, after, front, stand, blank⟩
  | digits digit =>
    exact .inr (.inr ⟨nofun, _, _, rfl, Scan.ne_of_isDigit digit rfl, Scan.ne_of_isDigit digit rfl⟩)
  | _ => exact .inr (.inr ⟨nofun, _, _, rfl, by decide, by decide⟩)

/-- **Requests in texts.** A text that is JSON is read as a request exactly when it is an object
whose members write one, or a list whose items do. -/
theorem Request.read_eq_ok_iff (read : Json.read text = .ok json) :
    Request.read text = .ok request ↔ request.Written text ∨ request.Listed json := by
  constructor
  · intro found
    rcases writes_of_read read with
      ⟨members, rfl, writes⟩ | ⟨items, rfl, writes⟩ | ⟨-, c, tail, front, bracket, brace⟩
    · exact .inl ⟨members, writes, (read_of_writesObject writes).mp found⟩
    · exact .inr ⟨items, rfl, (read_of_writesList writes).mp found⟩
    · exact absurd found (read_ne_ok front bracket brace)
  · rintro (⟨members, writes, stands⟩ | ⟨items, rfl, made⟩)
    · exact (read_of_writesObject writes).mpr stands
    · rcases writes_of_read read with ⟨members, ⟨⟩, -⟩ | ⟨others, ⟨⟩, writes⟩ | ⟨unlike, -⟩
      · exact (read_of_writesList writes).mpr made
      · exact absurd rfl (unlike items)

/-- No text is both. -/
theorem Request.not_written_of_listed {other : Request} (read : Json.read text = .ok json)
    (listed : request.Listed json) : ¬ other.Written text := by
  rintro ⟨members, ⟨tail, _, brace, _⟩, _⟩
  obtain ⟨items, rfl, _⟩ := listed
  rcases writes_of_read read with ⟨_, ⟨⟩, _⟩ | ⟨_, _, _, _, bracket, _⟩ | ⟨unlike, _⟩
  · rw [brace] at bracket
    exact absurd (List.cons.inj bracket).1 (by decide)
  · exact unlike items rfl

theorem unlessNull_ne_null (json : Json) : json.unlessNull ≠ some .null := by
  cases json <;> nofun

/-- The identifier of a request in a list is the value at its place, where `null` is none. -/
theorem Request.exists_id_of_items {items : List Json}
    (made : Request.ofItems? items = some request) :
    ∃ json : Json, request.id = json.unlessNull := by
  unfold Request.ofItems? at made
  split at made
  · simp only [Option.bind_eq_bind, Option.bind_eq_some_iff] at made
    obtain ⟨_, _, _, _, ⟨⟩⟩ := made
    exact ⟨_, rfl⟩
  · simp only [Option.bind_eq_bind, Option.bind_eq_some_iff] at made
    obtain ⟨_, _, _, _, ⟨⟩⟩ := made
    exact ⟨_, rfl⟩
  · cases made

/-- An identifier that is read is not `null`. -/
theorem Request.id_ne_null (read : Json.read text = .ok json)
    (found : Request.read text = .ok request) : request.id ≠ some .null := by
  rcases (Request.read_eq_ok_iff read).mp found with
    ⟨members, _, _, ⟨given, _, id⟩, _, _⟩ | ⟨items, _, made⟩
  · rw [id]
    cases given with
    | none => nofun
    | some json => exact unlessNull_ne_null json
  · obtain ⟨json, id⟩ := exists_id_of_items made
    rw [id]
    exact unlessNull_ne_null json

end Texts

end Toolsmith
