import Mathlib
import Toolsmith.Proofs.Json.Depth
import Toolsmith.Proofs.Server.Admission

/-! # Parameters that are left out

A request may leave its parameters out, write `null` for them, or write an empty object. The first
two are read as the same request, and the third differs from it where parameters are read: there
absent ones stand for an empty object. Whatever answers a method reads them in this way, which holds
over every run (`Server.Lenient.run`), so that the three messages have one answer and leave one
server behind (`Server.omitted_params_alike`). When the identifier cannot be read they are refused
alike as well, for the reader does not come to the parameters (`Request.stopsIn_front`).
-/

namespace Toolsmith

open Json

/-- A text that writes a request with these parts, each once: as an object, with its members in any
order and among others, or as a list. -/
inductive Request.Spelled (text version : String) (id : Json) (method : String)
    (params : Option Json) : Prop where
  | object {members : List (String × Json)} (writes : WritesObject text members)
      (version : valuesOf "jsonrpc" members = [.string version])
      (id : valuesOf "id" members = [id])
      (method : valuesOf "method" members = [.string method])
      (params : valuesOf "params" members = params.toList)
  | list (writes : WritesList text ([.string version, id, .string method] ++ params.toList))

namespace Request

variable {text version method : String} {id : Json} {params : Option Json}

/-- A text that writes a request is read as it, with `null` for nothing. -/
theorem Spelled.read (spelled : Spelled text version id method params) :
    Request.read text = .ok ⟨version, id.unlessNull, method, params.bind unlessNull⟩ := by
  cases spelled with
  | object writes version id method params =>
      rw [read_of_writesObject writes]
      exact ⟨version, ⟨some _, id, rfl⟩, method, ⟨_, params, rfl⟩⟩
  | list writes =>
      rw [read_of_writesList writes]
      cases params with
      | none => rfl
      | some json => rfl

theorem separates_name (quoted : List Char) :
    Scan.Separates false (',' :: '"' :: quoted) ('"' :: quoted) :=
  @Scan.Separates.comma (',' :: '"' :: quoted) ('"' :: quoted) rfl

/-- The members of a written object stand in its text, with their values as they are read back. -/
theorem membersIn_writeMembers {limit : Nat} {members : List (String × Json)}
    (regular : ∀ member ∈ members, member.2.Regular) (fits : nestingMembers members ≤ limit)
    (rest : List Char) :
    Scan.MembersIn (Scan.value limit) false (writeMembers members ++ '\x7d' :: rest)
      (rereadMembers members) rest := by
  induction members with
  | nil => exact .close rfl
  | cons member members ih =>
      obtain ⟨name, json⟩ := member
      rw [List.forall_mem_cons] at regular
      rw [nestingMembers, Nat.max_le] at fits
      have written : writeMembers ((name, json) :: members) ++ '\x7d' :: rest =
          ',' :: '"' :: (name.toList.flatMap escapeChar ++ '"' ::
            (':' :: (json.write ++ (writeMembers members ++ '\x7d' :: rest)))) := by
        simp [writeMembers, stringText]
      have ends := @Scan.ends_writeMembers rest members
      have reads := (Scan.reads_value limit regular.1 _ ends).within fits.1
      rw [written]
      refine .member (separates_name _) (Scan.string_of_stringText name) ?_ reads
        (ih regular.2 fits.2)
      rfl

/-- The text of an object writes its members, each as it is read back. -/
theorem writesObject_text {name : String} {json : Json} {members : List (String × Json)}
    (regular : ∀ member ∈ (name, json) :: members, member.2.Regular)
    (fits : nestingMembers ((name, json) :: members) ≤ depthLimit - 1) :
    WritesObject (Json.object ((name, json) :: members)).text
      (rereadMembers ((name, json) :: members)) := by
  rw [List.forall_mem_cons] at regular
  rw [nestingMembers, Nat.max_le] at fits
  have written : (Json.object ((name, json) :: members)).text.toList =
      '\x7b' :: '"' :: (name.toList.flatMap escapeChar ++ '"' ::
        (':' :: (json.write ++ (writeMembers members ++ ['\x7d'])))) := by
    rw [Json.text, String.toList_ofList]
    simp [write, stringText]
  have ends := @Scan.ends_writeMembers [] members
  have reads := (Scan.reads_value _ regular.1 _ ends).within fits.1
  have front : (Json.object ((name, json) :: members)).text.toList.dropWhile Scan.isSpace = _ :=
    congrArg (List.dropWhile Scan.isSpace) written
  refine ⟨_, [], front, ?_, rfl⟩
  refine .member .first (Scan.string_of_stringText name) ?_ reads
    (membersIn_writeMembers regular.2 fits.2 [])
  rfl

theorem encode_call (id : Json) (method : String) (params : Option Json) :
    (call id method params).encode = .object (("jsonrpc", .string messageVersion) :: ("id", id) ::
      ("method", .string method) :: memberIf "params" params) := rfl

/-- The text of a request that is sent writes the request as it is read back. -/
theorem spelled_call (whole : (call id method params).Regular)
    (shallow : (call id method params).nesting < depthLimit) :
    Spelled (call id method params).encode.text messageVersion id.reread method
      (params.map Json.reread) := by
  obtain ⟨fits, within⟩ := max_lt_iff.mp shallow
  have given : ∀ member ∈ memberIf "params" params, member.2.Regular := by
    cases params with
    | none => nofun
    | some json => exact List.forall_mem_singleton.mpr (whole.params json rfl)
  have nested : nestingMembers (memberIf "params" params) = memberNesting params := by
    cases params with
    | none => rfl
    | some json => exact Nat.max_zero _
  rw [encode_call]
  refine .object (writesObject_text ?_ ?_) ?_ ?_ ?_ ?_
  · simp only [List.forall_mem_cons]
    exact ⟨.string _, whole.id id rfl, .string _, given⟩
  · refine Nat.le_sub_one_of_lt ?_
    have flat : 0 < depthLimit := by decide
    simp only [nestingMembers, nested]
    exact max_lt flat (max_lt fits (max_lt flat within))
  all_goals
    cases params with
    | none => rfl
    | some json => rfl

/-- The text of a request up to its identifier. -/
def front (version : String) (id : Json) : List Char :=
  ['\x7b'] ++ (stringText "jsonrpc" ++ ':' :: stringText version ++
    (',' :: stringText "id" ++ [':'] ++ id.write))

/-- An identifier that cannot be read stops a request where reading its value stops. -/
theorem requestMember_id_of_error {parts : Scan.RequestParts} {text : List Char} {stop : Stop}
    (absent : parts.id = none) (failed : Scan.value (depthLimit - 1) text = .error stop) :
    Scan.requestMember "id" parts (':' :: text) = .error stop := by
  have unread : (Scan.colon >>= fun _ => Scan.optionalValue) (':' :: text) = .error stop := by
    rw [Scan.bind_of_ok _ Scan.colon_of_colon]
    exact Scan.bind_of_error _ failed
  unfold Scan.requestMember
  simp only [absent]
  exact Scan.map_of_error (fun found => { parts with id := some found }) unread

/-- A request under an identifier that is too deep is refused inside the identifier. -/
theorem stopsIn_front (version : String) (regular : id.Regular) (deep : depthLimit ≤ id.nesting) :
    Scan.StopsIn Scan.request (front version id) := by
  have stops := Scan.stopsIn_value regular (Nat.lt_of_lt_of_le (Nat.pred_lt (by decide)) deep)
  have identified (spare : Nat) : Scan.StopsIn
      (Scan.loopSparing Scan.requestStep (spare + 1) (false, { jsonrpc := some version }))
      (',' :: stringText "id" ++ [':'] ++ id.write) := by
    refine stops.of_round spare fun rest stop failed => ?_
    have named : Scan.nextName false (',' :: stringText "id" ++ [':'] ++ (id.write ++ rest)) =
        .ok (some "id", ':' :: (id.write ++ rest)) := by
      rw [List.append_assoc, List.cons_append]
      exact Scan.nextName_of_comma "id"
    rw [Scan.requestStep, Scan.bind_of_ok _ named]
    exact Scan.bind_of_error _ (requestMember_id_of_error rfl failed)
  have versioned (rest : List Char) : Scan.requestStep (true, {})
      (stringText "jsonrpc" ++ ':' :: stringText version ++ rest) =
        .ok (.inl (false, { jsonrpc := some version }), rest) := by
    have named : Scan.nextName true (stringText "jsonrpc" ++ ':' :: stringText version ++ rest) =
        .ok (some "jsonrpc", ':' :: (stringText version ++ rest)) := by
      rw [List.append_assoc, List.cons_append]
      exact Scan.nextName_of_first "jsonrpc"
    have member := @Scan.requestMember_jsonrpc rest {} version rfl
    rw [Scan.requestStep, Scan.bind_of_ok _ named]
    exact Scan.bind_of_ok _ member
  have some : stringText "jsonrpc" ++ ':' :: stringText version ≠ [] :=
    List.append_ne_nil_of_left_ne_nil (List.cons_ne_nil _ _) _
  have rounds := Scan.StopsIn.of_rounds identified some 0 fun rest => versioned _
  refine rounds.behind ['\x7b'] fun rest stop failed => ?_
  have opened (text : List Char) : Scan.request ('\x7b' :: text) = Scan.requestObject text := rfl
  rw [List.singleton_append, opened, Scan.requestObject]
  exact Scan.bind_of_error _ failed

theorem toList_text_call (id : Json) (method : String) (params : Option Json) :
    ∃ rest, (call id method params).encode.text.toList = front messageVersion id ++ rest := by
  refine ⟨writeMembers [("method", .string method)] ++
    (writeMembers (memberIf "params" params) ++ ['\x7d']), ?_⟩
  have written : (call id method params).encode.text.toList = _ := String.toList_ofList
  rw [written, write_encode]
  simp [front, body, call, memberIf, writeMembers]

end Request

namespace Server

/-- Every responder takes absent parameters for an empty object. -/
def Lenient (server : Server) : Prop :=
  ∀ entry ∈ server.responders, entry.2 none = entry.2 (some .empty)

theorem responder_none {π ρ : Type} (method : Method π ρ) (handler : π → Except Failure ρ) :
    responder method handler none = responder method handler (some .empty) := rfl

/-- What a server answers itself does not depend on whether parameters are absent or empty. -/
theorem builtIn_none (server : Server) (method : String) :
    server.builtIn method none = server.builtIn method (some .empty) := by
  unfold builtIn
  split_ifs
  · exact responder_none _ _
  · rfl
  · exact responder_none _ _
  · exact responder_none _ _
  · exact responder_none _ _
  · rfl

variable {server : Server}

/-- **One event.** Handlers are registered with the reading of their parameters. -/
theorem Lenient.after (lenient : server.Lenient) (event : ServerEvent) :
    (server.after event).Lenient := by
  cases event with
  | tool => exact lenient
  | resource => exact lenient
  | toolbox toolbox =>
      obtain ⟨registered, made⟩ := server.registerToolbox_eq toolbox
      change (server.registerToolbox toolbox).Lenient
      rw [made]
      exact lenient
  | method method handler =>
      intro entry inside
      cases inside with
      | head => exact responder_none method handler
      | tail _ kept => exact lenient entry (List.mem_filter.mp kept).1
  | hook => exact lenient
  | message text =>
      change (server.handle text).2.Lenient
      rw [handle_server]
      exact lenient

theorem Lenient.run (lenient : server.Lenient) (events : List ServerEvent) :
    (server.run events).Lenient := by
  induction events generalizing server with
  | nil => exact lenient
  | cons event rest ih => exact ih (lenient.after event)

/-- Absent parameters and empty ones have the same result. -/
theorem Lenient.dispatch (lenient : server.Lenient) (method : String) :
    server.dispatch method none = server.dispatch method (some .empty) := by
  unfold Server.dispatch
  split
  · rfl
  · cases found : server.responders.lookup method with
    | none => exact server.builtIn_none method
    | some responder =>
        obtain ⟨_, _, split, _⟩ := List.lookup_eq_some_iff.mp found
        have inside : (method, responder) ∈ server.responders := by simp [split]
        exact lenient _ inside

theorem Lenient.handleRequest (lenient : server.Lenient) (version : String) (id : Option Json)
    (method : String) :
    server.handleRequest ⟨version, id, method, some .empty⟩ =
      server.handleRequest ⟨version, id, method, none⟩ := by
  unfold Server.handleRequest
  dsimp only
  rw [lenient.dispatch]

section Alike

variable {version method absent null empty : String} {id : Json}

/-- Three texts that write one request but for its parameters. -/
theorem Lenient.handle_spelled (lenient : server.Lenient)
    (without : Request.Spelled absent version id method none)
    (nulled : Request.Spelled null version id method (some .null))
    (emptied : Request.Spelled empty version id method (some .empty)) :
    server.handle null = server.handle absent ∧ server.handle empty = server.handle absent := by
  rw [handle_of_read without.read, handle_of_read nulled.read, handle_of_read emptied.read]
  exact ⟨rfl, lenient.handleRequest version id.unlessNull method⟩

/-- The texts of one request but for its parameters, whether or not they can be read. -/
theorem Lenient.handle_call (lenient : server.Lenient) (regular : id.Regular) (method : String) :
    let text (params : Option Json) := (Request.call id method params).encode.text
    server.handle (text (some .null)) = server.handle (text none) ∧
      server.handle (text (some .empty)) = server.handle (text none) := by
  intro text
  rcases lt_or_ge id.nesting depthLimit with shallow | deep
  · have spelled {params : Option Json} (sound : ∀ json ∈ params, json.Regular)
        (flat : memberNesting params ≤ 1) :
        Request.Spelled (text params) messageVersion id.reread method (params.map reread) :=
      Request.spelled_call ⟨by rintro _ ⟨⟩; exact regular, sound⟩
        (max_lt shallow (Nat.lt_of_le_of_lt flat (by decide)))
    have nulled := @spelled (some .null) (by rintro _ ⟨⟩; exact .null) (Nat.zero_le 1)
    have emptied := @spelled (some .empty) (by rintro _ ⟨⟩; exact .object .nil nofun) le_rfl
    have without := @spelled none nofun (Nat.zero_le 1)
    exact lenient.handle_spelled without nulled emptied
  · have stops := Request.stopsIn_front messageVersion regular deep
    have refused (params : Option Json) :
        server.handle (text params) = server.handle (text none) := by
      obtain ⟨rest, written⟩ := Request.toList_text_call id method params
      obtain ⟨more, other⟩ := Request.toList_text_call id method none
      obtain ⟨error, one, same⟩ := stops.run_eq written other
      unfold Server.handle Request.read
      rw [one, same]
    exact ⟨refused _, refused _⟩

end Alike

theorem lenient_make (name version : String) (capabilities : ServerCapabilities)
    (configuration : Configuration) :
    (make name version capabilities configuration).Lenient := nofun

/-- **Parameters that are left out.** After every run from a new server, a request is answered
alike and leaves the same server behind whether its parameters are absent, `null` or an empty
object. This holds of all texts that write the request, in whatever order and with whatever other
members they do, and of the texts of a request that is sent under any identifier, even one too
deep to be read. -/
theorem omitted_params_alike (name version : String) (capabilities : ServerCapabilities)
    (configuration : Configuration) (events : List ServerEvent) :
    let server := (make name version capabilities configuration).run events
    (∀ version id method absent null empty, Request.Spelled absent version id method none →
      Request.Spelled null version id method (some .null) →
      Request.Spelled empty version id method (some .empty) →
        server.handle null = server.handle absent ∧ server.handle empty = server.handle absent) ∧
    ∀ id : Json, id.Regular → ∀ method,
      let text (params : Option Json) := (Request.call id method params).encode.text
      server.handle (text (some .null)) = server.handle (text none) ∧
        server.handle (text (some .empty)) = server.handle (text none) := by
  intro server
  have lenient : server.Lenient := (lenient_make name version capabilities configuration).run events
  constructor
  · intro version id method absent null empty without nulled emptied
    exact lenient.handle_spelled without nulled emptied
  · intro id regular method
    exact lenient.handle_call regular method

/-- A responder that gives its parameters back sees an empty object each time, and the three
messages are also alike when the identifier is too deep to be read. -/
theorem omitted_params_alike_of_echo :
    let server := (make "s" "1" {} ⟨true⟩).run [.method Method.ping .ok]
    let text (id : Json) (params : Option Json) := (Request.call id "ping" params).encode.text
    server.handle (text (.integer 1) (some .null)) = server.handle (text (.integer 1) none) ∧
      server.handle (text (.integer 1) (some .empty)) = server.handle (text (.integer 1) none) ∧
      (server.handle (text (.integer 1) none)).1 = .answer (.success (.integer 1) .empty) ∧
      server.handle (text (lists 127) (some .empty)) = server.handle (text (lists 127) none) := by
  intro server text
  have number : (Json.integer 1).Regular := .number ⟨by decide, by decide⟩
  have spelled {params : Option Json} (sound : ∀ json ∈ params, json.Regular)
      (flat : memberNesting params ≤ 1) :
      Request.Spelled (text (.integer 1) params) messageVersion (.integer 1) "ping"
        (params.map reread) := by
    have same : (Json.integer 1).reread = .integer 1 := reread_of_short number (.number trivial)
    have whole : (Request.call (.integer 1) "ping" params).Regular :=
      ⟨by rintro _ ⟨⟩; exact number, sound⟩
    have spelled := Request.spelled_call whole
      (max_lt (Nat.zero_lt_succ 126) (Nat.lt_of_le_of_lt flat (by decide)))
    rwa [same] at spelled
  have nulled := @spelled (some .null) (by rintro _ ⟨⟩; exact .null) (Nat.zero_le 1)
  have emptied := @spelled (some .empty) (by rintro _ ⟨⟩; exact .object .nil nofun) le_rfl
  have without := @spelled none nofun (Nat.zero_le 1)
  obtain ⟨alike, sent⟩ := omitted_params_alike "s" "1" {} ⟨true⟩ [.method Method.ping .ok]
  have same := alike _ _ _ _ _ _ without nulled emptied
  refine ⟨same.1, same.2, ?_, (sent (lists 127) (regular_lists 127) "ping").2⟩
  rw [handle_of_read without.read]
  rfl

end Server

end Toolsmith
