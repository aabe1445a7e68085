import Mathlib
import Toolsmith.Proofs.Json.ReadBack
import Toolsmith.Protocol.Message

/-! # Requests are read back

A request that is sent comes back with its identifier and parameters as they are read back, where
`null` is read as absent (`Request.read_encode`). When one of them is nested too deep, the text is
refused for that reason. The members of the object are followed one by one, from the last to the
first: each is one round of the loop, and one that is not written is none.
-/

namespace Toolsmith

open Json

namespace Json

/-- What a member stands for: `null` is the same as nothing. -/
def unlessNull : Json → Option Json
  | .null => none
  | json => some json

theorem join_map_unlessNull (value : Option Json) :
    (value.map unlessNull).join = value.bind unlessNull := by
  cases value <;> rfl

/-- How deep a member is nested that may be absent. -/
def memberNesting (value : Option Json) : Nat := value.elim 0 nesting

namespace Scan

variable {rest after : List Char} {limit : Nat}

theorem text_of_stringText (value : String) :
    text (stringText value ++ rest) = .ok (value, rest) := by
  have opened (written : List Char) : text ('"' :: written) = string written := rfl
  rw [stringText, List.cons_append, List.append_assoc, opened]
  exact string_of_stringText value

theorem givesBack_optionalValue {json : Json} (regular : json.Regular) (ends : Ends rest) :
    GivesBack (depthLimit - 1) json.nesting json.reread.unlessNull rest
      (optionalValue (json.write ++ rest)) := by
  rw [optionalValue, ← Nat.max_zero json.nesting]
  apply (reads_value (depthLimit - 1) regular rest ends).bind
  cases json <;> exact .of_ok rfl

section Parts

variable {parts : RequestParts}

theorem requestMember_jsonrpc (value : String) (absent : parts.jsonrpc = none) :
    requestMember "jsonrpc" parts (':' :: (stringText value ++ rest)) =
      .ok ({ parts with jsonrpc := some value }, rest) := by
  unfold requestMember
  simp only [absent]
  exact map_of_ok (fun found => { parts with jsonrpc := some found })
    ((bind_of_ok (fun _ => text) colon_of_colon).trans (text_of_stringText value))

theorem requestMember_method (value : String) (absent : parts.method = none) :
    requestMember "method" parts (':' :: (stringText value ++ rest)) =
      .ok ({ parts with method := some value }, rest) := by
  unfold requestMember
  simp only [absent]
  exact map_of_ok (fun found => { parts with method := some found })
    ((bind_of_ok (fun _ => text) colon_of_colon).trans (text_of_stringText value))

theorem requestMember_id {json : Json} (regular : json.Regular) (ends : Ends rest)
    (absent : parts.id = none) :
    GivesBack (depthLimit - 1) json.nesting { parts with id := some json.reread.unlessNull } rest
      (requestMember "id" parts (':' :: (json.write ++ rest))) := by
  unfold requestMember
  simp only [absent]
  exact (givesBack_optionalValue regular ends).map fun found => { parts with id := some found }

theorem requestMember_params {json : Json} (regular : json.Regular) (ends : Ends rest)
    (absent : parts.params = none) :
    GivesBack (depthLimit - 1) json.nesting
      { parts with params := some json.reread.unlessNull } rest
      (requestMember "params" parts (':' :: (json.write ++ rest))) := by
  unfold requestMember
  simp only [absent]
  exact (givesBack_optionalValue regular ends).map fun found => { parts with params := some found }

end Parts

/-- The rounds from a state on find the given parts, however much fuel is left. -/
def Finds (depth : Nat) (state : Bool × RequestParts) (text : List Char) (parts : RequestParts)
    (after : List Char) : Prop :=
  ∀ fuel, text.length < fuel →
    GivesBack (depthLimit - 1) depth parts after (loopWithin requestStep fuel state text)

theorem finds_of_brace (parts : RequestParts) :
    Finds 0 (false, parts) ('\x7d' :: rest) parts rest := by
  intro fuel enough
  obtain ⟨fuel, rfl⟩ := Nat.exists_eq_add_of_lt enough
  exact .of_ok (loopWithin_of_done rfl)

/-- One member is found and then the others; the nesting is that of the deeper ones. -/
theorem Finds.of_member {depth later : Nat} {first : Bool} {name : String}
    {found next parts : RequestParts} {text value : List Char}
    (named : nextName first text = .ok (some name, value)) (shorter : rest.length < text.length)
    (member : GivesBack (depthLimit - 1) depth next rest (requestMember name found value))
    (others : Finds later (false, next) rest parts after) :
    Finds (max depth later) (first, found) text parts after := by
  intro fuel enough
  obtain ⟨fuel, rfl⟩ := Nat.exists_eq_add_of_lt enough
  have step : GivesBack (depthLimit - 1) depth (.inl (false, next)) rest
      (requestStep (first, found) text) := by
    rw [requestStep, bind_of_ok _ named]
    exact member.map fun parts => Sum.inl (false, parts)
  exact step.loop (others _ (by omega))

variable {parts found : RequestParts} {depth : Nat}

/-- Written parameters are found as they are read back, where `null` is none. -/
theorem finds_params {params : Option Json} (regular : ∀ json ∈ params, json.Regular)
    (absent : parts.params = none) :
    Finds (memberNesting params) (false, parts)
      (writeMembers (memberIf "params" params) ++ '\x7d' :: rest)
      { parts with params := (params.map reread).map unlessNull } rest := by
  cases params with
  | none =>
      have same : { parts with params := none } = parts := by rw [← absent]
      rw [Option.map_none, Option.map_none, same]
      exact finds_of_brace parts
  | some json =>
      have ends : Ends ('\x7d' :: rest) := @ends_writeMembers rest []
      have read := requestMember_params (regular json rfl) ends absent
      have text : writeMembers (memberIf "params" (some json)) ++ '\x7d' :: rest =
          ',' :: (stringText "params" ++ ':' :: (json.write ++ '\x7d' :: rest)) := by
        simp [memberIf, writeMembers]
      rw [text, memberNesting, Option.elim_some, ← Nat.max_zero json.nesting]
      refine Finds.of_member (nextName_of_comma "params") ?_ read (finds_of_brace _)
      simp only [List.length_cons, List.length_append]
      omega

theorem Finds.method {text : List Char} {method : String} (absent : found.method = none)
    (others : Finds depth (false, { found with method := some method }) text parts after) :
    Finds depth (false, found)
      (writeMembers [("method", .string method)] ++ text) parts after := by
  have written : writeMembers [("method", .string method)] ++ text =
      ',' :: (stringText "method" ++ ':' :: (stringText method ++ text)) := by
    simp [writeMembers, write]
  rw [written, ← Nat.zero_max depth]
  refine Finds.of_member (nextName_of_comma "method") ?_
    (.of_ok (requestMember_method method absent)) others
  simp only [List.length_cons, List.length_append]
  omega

/-- A written identifier is found before the other members, where `null` is none. -/
theorem Finds.id {text : List Char} {id : Option Json} (regular : ∀ json ∈ id, json.Regular)
    (absent : found.id = none) (ends : Ends text)
    (others : Finds depth (false, { found with id := (id.map reread).map unlessNull }) text parts
      after) :
    Finds (max (memberNesting id) depth) (false, found)
      (writeMembers (memberIf "id" id) ++ text) parts after := by
  cases id with
  | none =>
      have same : { found with id := none } = found := by rw [← absent]
      rw [Option.map_none, Option.map_none, same] at others
      rw [memberNesting, Option.elim_none, Nat.zero_max]
      exact others
  | some json =>
      have read := requestMember_id (regular json rfl) ends absent
      have written : writeMembers (memberIf "id" (some json)) ++ text =
          ',' :: (stringText "id" ++ ':' :: (json.write ++ text)) := by
        simp [memberIf, writeMembers]
      rw [written]
      refine Finds.of_member (nextName_of_comma "id") ?_ read others
      simp only [List.length_cons, List.length_append]
      omega

end Scan

theorem writeMembers_append (members others : List (String × Json)) :
    writeMembers (members ++ others) = writeMembers members ++ writeMembers others := by
  induction members with
  | nil => rfl
  | cons member members ih =>
      rw [List.cons_append, writeMembers, writeMembers, ih]
      simp only [List.append_assoc, List.cons_append]

/-- A reader of a whole text gives back what it finds before its end. -/
theorem run_of_givesBack {α : Type} {scan : Scan α} {limit depth : Nat} {value : α} {text : String}
    (read : Scan.GivesBack limit depth value [] (scan text.toList)) :
    (depth ≤ limit → scan.run text = .ok value) ∧
      (limit < depth → ∃ error, scan.run text = .error error ∧ error.fault = .tooDeep) := by
  constructor
  · intro shallow
    unfold Scan.run
    rw [Scan.bind_of_ok _ (read.within shallow)]
    rfl
  · intro deep
    obtain ⟨stop, failed, reason⟩ := read.beyond deep
    refine ⟨stop.locate text.toList, ?_, reason⟩
    unfold Scan.run
    rw [Scan.bind_of_error _ failed]

end Json

namespace Request

/-- How deep the identifier and the parameters of a request are nested. -/
def nesting (request : Request) : Nat :=
  max (memberNesting request.id) (memberNesting request.params)

/-- The identifier and the parameters of a request are values as programs hold them. -/
structure Regular (request : Request) : Prop where
  id : ∀ json ∈ request.id, json.Regular
  params : ∀ json ∈ request.params, json.Regular

/-- A request in which `null` stands for nothing. -/
def cleared (request : Request) : Request :=
  { request with
    id := request.id.bind unlessNull
    params := request.params.bind unlessNull }

/-- A request with its identifier and parameters as they are read back. -/
def reread (request : Request) : Request :=
  { request with
    id := request.id.map Json.reread
    params := request.params.map Json.reread }

variable (request : Request)

/-- The text of a request after its opening brace. -/
def body : List Char :=
  stringText "jsonrpc" ++ ':' :: (stringText request.jsonrpc ++
    (writeMembers (memberIf "id" request.id) ++
      (writeMembers [("method", .string request.method)] ++
        (writeMembers (memberIf "params" request.params) ++ ['\x7d']))))

theorem write_encode : request.encode.write = '\x7b' :: request.body := by
  rw [encode, List.append_assoc, List.append_assoc, List.singleton_append, write,
    writeMembers_append, writeMembers_append, write, body]
  simp only [List.append_assoc, List.cons_append]

variable {request}

/-- The members of a written request are found, each as it is read back. -/
theorem finds_body (regular : request.Regular) :
    Scan.Finds request.nesting (true, {}) request.body
      { jsonrpc := some request.jsonrpc, id := request.reread.id.map unlessNull,
        method := some request.method, params := request.reread.params.map unlessNull } [] := by
  rw [nesting, body, ← Nat.zero_max (max _ _)]
  refine Scan.Finds.of_member (Scan.nextName_of_first "jsonrpc") ?_
    (.of_ok (Scan.requestMember_jsonrpc _ rfl)) ?_
  · simp only [List.length_cons, List.length_append]
    omega
  · refine Scan.Finds.id regular.id rfl ?_
      (Scan.Finds.method rfl (Scan.finds_params regular.params rfl))
    rintro _ ⟨⟩
    exact .inl rfl

/-- The object of a request is read back. -/
theorem givesBack_request (regular : request.Regular) :
    Scan.GivesBack (depthLimit - 1) request.nesting request.reread.cleared []
      (Scan.request request.encode.write) := by
  have found : Scan.GivesBack (depthLimit - 1) request.nesting _ []
      (Scan.loop Scan.requestStep (true, {}) request.body) :=
    finds_body regular _ (Nat.lt_succ_self _)
  have opened (text : List Char) : Scan.request ('\x7b' :: text) = Scan.requestObject text := rfl
  rw [write_encode, opened, Scan.requestObject, ← Nat.max_zero request.nesting]
  apply found.bind
  apply Scan.GivesBack.of_ok
  rw [cleared, ← join_map_unlessNull, ← join_map_unlessNull]
  rfl

/-- **Requests.** A request that is sent is read back, but for numbers that are estimated and with
`null` for nothing, unless it is nested too deep. -/
theorem read_encode (regular : request.Regular) :
    (request.nesting < depthLimit → read request.encode.text = .ok request.reread.cleared) ∧
      (depthLimit ≤ request.nesting →
        ∃ error, read request.encode.text = .error error ∧ error.fault = .tooDeep) := by
  have found := givesBack_request regular
  have same : request.encode.text.toList = request.encode.write := String.toList_ofList
  rw [← same] at found
  obtain ⟨within, beyond⟩ := run_of_givesBack found
  exact ⟨fun shallow => within (Nat.le_pred_of_lt shallow),
    fun deep => beyond (Nat.lt_of_lt_of_le (by decide) deep)⟩

end Request

end Toolsmith
