import Mathlib
import Toolsmith.Proofs.Protocol.RequestText
import Toolsmith.Proofs.Server.Handshake

/-! # Every request is answered

A request that is sent to a server gets an answer under its identifier, with a result or an error
and never both, and a notification gets none (`Server.answers_exactly_requests`). The identifier is
what the server read: the same one, unless it has a number with many digits in it, which may be read
as one beside it. What stands between a request and its answer is that user code crashes, or that
the request is nested too deep to be read; then the answer is an error that has no identifier to
stand under.
-/

namespace Toolsmith

open Json

/-- A response as it is sent: of the current version, under an identifier, and with a result or an
error but not both. -/
structure Response.Under (response : Response) (id : Json) : Prop where
  version : response.encode.get? "jsonrpc" = some (.string "2.0")
  id : response.encode.get? "id" = some id
  either : Xor (response.encode.get? "result").isSome (response.encode.get? "error").isSome

theorem Response.under (response : Response) : response.Under response.id := by
  obtain ⟨id, result | error⟩ := response
  · exact ⟨rfl, rfl, .inr ⟨rfl, nofun⟩⟩
  · exact ⟨rfl, rfl, .inl ⟨rfl, nofun⟩⟩

/-- A request as programs make it: a notification, or a call under an identifier. -/
inductive Request.Made : Request → Prop where
  | notification (method : String) : Made (.notification method)
  | call {id : Json} (method : String) {params : Option Json} (present : id ≠ .null)
      (regular : (Request.call id method params).Regular) : Made (.call id method params)

namespace Server

/-- User code that a method runs crashes: what answers it in place of the server, the hook for the
client that introduces itself, or the tool that is called. -/
inductive Crashes (server : Server) (method : String) (params : Option Json) : Prop where
  | responder {responder : Responder} (found : server.responders.lookup method = some responder)
      (crashes : responder params = .error .crash)
  | hook {hook : Hook} {value : HandshakeParams} (asks : method = Method.handshake.name)
      (read : readParams Method.handshake.params params = .ok value)
      (hooked : server.hook = some hook)
      (crashes : hook value.clientInfo value.capabilities = .error .crash)
  | tool {tool : Tool} {handler : Handler} {value : CallToolParams}
      (asks : method = Method.callTool.name)
      (read : readParams Method.callTool.params params = .ok value)
      (found : server.registered.find? (·.tool.name == value.name) = some ⟨tool, some handler⟩)
      (crashes : handler value.arguments = .error .crash)

theorem bind_eq_error {ε α β : Type} {first : Except ε α} {next : α → Except ε β} {error : ε}
    (failed : (first >>= next) = .error error) :
    first = .error error ∨ ∃ value, first = .ok value ∧ next value = .error error := by
  cases first with
  | error other => exact .inl (congrArg Except.error (Except.error.inj failed))
  | ok value => exact .inr ⟨value, rfl, failed⟩

theorem readParams_ne_crash {π : Type} (decoder : Decoder π) (params : Option Json) :
    readParams decoder params ≠ .error .crash := by
  unfold readParams
  cases decoder.decode (params.getD .empty) with
  | ok value => exact nofun
  | error error => exact nofun

/-- A method of the server itself crashes only in what it runs. -/
theorem exists_of_responder_crash {π ρ : Type} {method : Method π ρ}
    {handler : π → Except Failure ρ} {params : Option Json}
    (crashed : responder method handler params = .error .crash) :
    ∃ value, readParams method.params params = .ok value ∧ handler value = .error .crash := by
  rcases bind_eq_error crashed with unread | ⟨value, read, crashed⟩
  · exact absurd unread (readParams_ne_crash _ _)
  · rcases bind_eq_error crashed with crashed | ⟨result, _, crashed⟩
    · exact ⟨value, read, crashed⟩
    · cases crashed

/-- A hook that crashes takes the handshake with it. -/
theorem crashes_of_greet {server : Server} {params : Option Json} {value : HandshakeParams}
    (read : readParams Method.handshake.params params = .ok value)
    (crashed : server.greet value = .error .crash) :
    server.Crashes Method.handshake.name params := by
  unfold greet at crashed
  cases hooked : server.hook with
  | none =>
      rw [hooked] at crashed
      cases crashed
  | some hook =>
      rw [hooked] at crashed
      rcases bind_eq_error crashed with crashed | ⟨_, _, crashed⟩
      · exact .hook rfl read hooked crashed
      · cases crashed

theorem crashes_of_callTool {server : Server} {params : Option Json} {value : CallToolParams}
    (read : readParams Method.callTool.params params = .ok value)
    (crashed : server.callTool value = .error .crash) :
    server.Crashes Method.callTool.name params := by
  unfold callTool at crashed
  split at crashed
  · cases crashed
  · cases crashed
  · rename_i tool handler found
    split at crashed
    · cases crashed
    · cases crashed
    · rename_i crashes
      exact .tool rfl read found crashes

/-- A method crashes only if user code does. -/
theorem crashes_of_dispatch {server : Server} {method : String} {params : Option Json}
    (crashed : server.dispatch method params = .error .crash) : server.Crashes method params := by
  unfold dispatch at crashed
  split at crashed
  · cases crashed
  · split at crashed
    · rename_i responder found
      exact .responder found crashed
    · unfold builtIn at crashed
      split_ifs at crashed with greets pings lists calls resources
      · obtain ⟨value, read, crashed⟩ := exists_of_responder_crash crashed
        exact greets ▸ crashes_of_greet read crashed
      · obtain ⟨value, _, crashed⟩ := exists_of_responder_crash crashed
        cases crashed
      · obtain ⟨value, read, crashed⟩ := exists_of_responder_crash crashed
        exact calls ▸ crashes_of_callTool read crashed
      · obtain ⟨value, _, crashed⟩ := exists_of_responder_crash crashed
        cases crashed
      · cases crashed

theorem handle_notification (server : Server) (method : String) :
    (server.handle (Request.notification method).encode.text).1 = .silence := by
  have regular : (Request.notification method).Regular := ⟨nofun, nofun⟩
  have flat : (Request.notification method).nesting = 0 := rfl
  have read := (Request.read_encode regular).1 (flat ▸ by decide)
  rw [handle_of_read read]
  rfl

section Calls

variable {id : Json} {method : String} {params : Option Json}

/-- A call that can be read is answered with the result of its method. -/
theorem handle_call (server : Server) (present : id ≠ .null)
    (regular : (Request.call id method params).Regular)
    (shallow : (Request.call id method params).nesting < depthLimit) :
    (server.handle (Request.call id method params).encode.text).1 =
      Reaction.of id.reread (server.dispatch method ((params.map reread).bind unlessNull)) := by
  have identified : (Request.call id method params).reread.cleared.id = some id.reread := by
    cases id with
    | null => exact absurd rfl present
    | _ => rfl
  rw [handle_of_read ((Request.read_encode regular).1 shallow),
    handleRequest_of_current identified rfl]
  rfl

/-- A call that is too deep to be read is answered as no call at all. -/
theorem handle_of_deep (server : Server) {request : Request} (regular : request.Regular)
    (deep : depthLimit ≤ request.nesting) : ∃ message,
      (server.handle request.encode.text).1 = .answer (.failure .null (.parse message)) := by
  obtain ⟨error, unread, _⟩ := (Request.read_encode regular).2 deep
  refine ⟨error.message, ?_⟩
  simp only [handle, unread]

/-- A result is answered under the identifier, unless there is none. -/
theorem Reaction.of_cases (id : Json) (result : Except Failure Json) :
    (∃ response, Reaction.of id result = .answer response ∧ response.id = id) ∨
      Reaction.of id result = .crash ∧ result = .error .crash := by
  match result with
  | .ok value => exact .inl ⟨_, rfl, rfl⟩
  | .error (.error error) => exact .inl ⟨_, rfl, rfl⟩
  | .error .crash => exact .inr ⟨rfl, rfl⟩

end Calls

/-- **Requests are answered.** A server is silent exactly about notifications. A request under an
identifier gets a response under that identifier as it is read back, unless user code crashes, when
it is nested within the limit of the reader, and else an error of the text under none. An identifier
of short numbers is read back as it was. -/
theorem answers_exactly_requests (server : Server) {request : Request} (made : request.Made) :
    let reaction := (server.handle request.encode.text).1
    (reaction = .silence ↔ ∃ method, request = .notification method) ∧
    ∀ id, request.id = some id →
      (id.Short → id.reread = id) ∧
      (request.nesting < depthLimit →
        (∃ response, reaction = .answer response ∧ response.Under id.reread) ∨
          reaction = .crash ∧
            server.Crashes request.method (request.reread.params.bind unlessNull)) ∧
      (depthLimit ≤ request.nesting → ∃ response error, reaction = .answer response ∧
        response.Under .null ∧ response.outcome = .error error ∧ error.code = -32700) := by
  intro reaction
  cases made with
  | notification method =>
      have silent : reaction = .silence := server.handle_notification method
      exact ⟨⟨fun _ => ⟨method, rfl⟩, fun _ => silent⟩, nofun⟩
  | @call id method params present regular =>
      have shallow (fits : (Request.call id method params).nesting < depthLimit) :
          (∃ response, reaction = .answer response ∧ response.Under id.reread) ∨
            reaction = .crash ∧
              server.Crashes method ((params.map reread).bind unlessNull) := by
        have answered : reaction = _ := server.handle_call present regular fits
        rw [answered]
        rcases Reaction.of_cases id.reread
            (server.dispatch method ((params.map reread).bind unlessNull)) with
          ⟨response, answer, same⟩ | ⟨crash, crashed⟩
        · exact .inl ⟨response, answer, same ▸ response.under⟩
        · exact .inr ⟨crash, crashes_of_dispatch crashed⟩
      have deep (beyond : depthLimit ≤ (Request.call id method params).nesting) :
          ∃ response error, reaction = .answer response ∧ response.Under .null ∧
            response.outcome = .error error ∧ error.code = -32700 := by
        obtain ⟨message, answer⟩ := server.handle_of_deep regular beyond
        exact ⟨_, _, answer, Response.under _, rfl, rfl⟩
      -- Whether or not the call can be read, there is a reaction to it.
      have heard : reaction ≠ .silence := by
        intro silent
        rcases lt_or_ge (Request.call id method params).nesting depthLimit with fits | beyond
        · rcases shallow fits with ⟨response, answer, _⟩ | ⟨crash, _⟩
          · exact nomatch silent.symm.trans answer
          · exact nomatch silent.symm.trans crash
        · obtain ⟨response, error, answer, _⟩ := deep beyond
          exact nomatch silent.symm.trans answer
      refine ⟨⟨fun silent => absurd silent heard, ?_⟩, ?_⟩
      · rintro ⟨other, same⟩
        exact nomatch congrArg Request.id same
      · rintro _ ⟨⟩
        exact ⟨reread_of_short (regular.id id rfl), shallow, deep⟩

theorem regular_singleton {item : Json} (regular : item.Regular) :
    (Json.array [item]).Regular := by
  apply Regular.array
  intro other among
  rw [List.mem_singleton.mp among]
  exact regular

/-- A server that runs no user code. -/
def bare : Server := make "s" "1" {} ⟨false⟩

/-- A call under a list with a fraction in it is answered under that list, and a notification of the
same method is not answered. -/
theorem answers_exactly_requests_of_bare :
    let id : Json := .array [.number (.float ⟨true, 2 ^ 52 + 1, -53⟩)]
    let params : Json := .object [("a", .string "\"\n"), ("b", .null)]
    (∃ response, (bare.handle (Request.call id "ping" (some params)).encode.text).1 =
      .answer response ∧ response.Under id) ∧
    (bare.handle (Request.notification "ping").encode.text).1 = .silence := by
  intro id params
  have fraction : Binary64.Regular ⟨true, 2 ^ 52 + 1, -53⟩ :=
    ⟨by decide, by decide, by decide, .inl (by decide)⟩
  have regular : (Request.call id "ping" (some params)).Regular := by
    constructor
    · rintro _ ⟨⟩
      exact regular_singleton (.number fraction)
    · rintro _ ⟨⟩
      apply Regular.object
      · decide
      · intro member among
        simp only [List.mem_cons, List.not_mem_nil, or_false] at among
        rcases among with rfl | rfl
        · exact .string _
        · exact .null
  have present : id ≠ .null := nofun
  have asked := answers_exactly_requests bare (.call "ping" present regular)
  have told := answers_exactly_requests bare (.notification "ping")
  refine ⟨?_, told.1.mpr ⟨"ping", rfl⟩⟩
  obtain ⟨kept, shallow, _⟩ := asked.2 id rfl
  have short : id.Short := by
    refine .array fun item among => ?_
    rw [List.mem_singleton.mp among]
    exact .number ⟨by decide +kernel, by decide +kernel⟩
  rw [kept short] at shallow
  rcases shallow (by decide) with answered | ⟨_, crashes⟩
  · exact answered
  · cases crashes with
    | responder found => cases found
    | hook asks read hooked => cases hooked
    | tool asks read found => cases found

/-- Lists around a `null`. -/
def lists : Nat → Json
  | 0 => .null
  | count + 1 => .array [lists count]

theorem nesting_lists (count : Nat) : (lists count).nesting = count := by
  induction count with
  | zero => rfl
  | succ count ih => simp [lists, nesting, nestingItems, ih]

theorem regular_lists (count : Nat) : (lists count).Regular := by
  induction count with
  | zero => exact .null
  | succ count ih => exact regular_singleton ih

/-- A server with a tool that crashes. -/
def brittle : Server := bare.registerTool ⟨"boom", "", none⟩ (some fun _ => .error .crash)

/-- The number `12.088995980580641`, which is read as the one before it. -/
def drifting : Json := .number (.float ⟨false, 6805499724178300, -49⟩)

example : drifting.text = "12.088995980580641" := by decide +kernel

theorem reread_drifting : drifting.reread = .number (.float ⟨false, 6805499724178299, -49⟩) := by
  have number : Number.reread (.float ⟨false, 6805499724178300, -49⟩) =
      .float ⟨false, 6805499724178299, -49⟩ := by decide +kernel
  exact congrArg Json.number number

/-- Not every call is answered under its identifier: a server is silent about one under `null`, it
answers one that is too deep under `null` and one under a number with many digits under the number
beside it, and it does not answer one that makes user code crash. -/
theorem calls_without_answer :
    (bare.handle (Request.call .null "ping" none).encode.text).1 = .silence ∧
    (∃ response, (bare.handle (Request.call (lists 127) "ping" none).encode.text).1 =
      .answer response ∧ ¬ response.Under (lists 127)) ∧
    (∃ response, (bare.handle (Request.call drifting "ping" none).encode.text).1 =
      .answer response ∧ ¬ response.Under drifting) ∧
    (brittle.handle (Request.call (.integer 1) "tools/call"
      (some (.array [.string "boom"]))).encode.text).1 = .crash := by
  refine ⟨?_, ?_, ?_, ?_⟩
  · have regular : (Request.call .null "ping" none).Regular := by
      refine ⟨?_, nofun⟩
      rintro _ ⟨⟩
      exact .null
    rw [handle_of_read ((Request.read_encode regular).1 (by decide))]
    rfl
  · have regular : (Request.call (lists 127) "ping" none).Regular := by
      refine ⟨?_, nofun⟩
      rintro _ ⟨⟩
      exact regular_lists 127
    have deep : depthLimit ≤ (Request.call (lists 127) "ping" none).nesting :=
      le_max_of_le_left (nesting_lists 127).ge
    obtain ⟨message, answer⟩ := bare.handle_of_deep regular deep
    refine ⟨_, answer, ?_⟩
    intro under
    exact nomatch under.id
  · have number : Binary64.Regular ⟨false, 6805499724178300, -49⟩ :=
      ⟨by decide, by decide, by decide, .inl (by decide)⟩
    have regular : (Request.call drifting "ping" none).Regular := by
      refine ⟨?_, nofun⟩
      rintro _ ⟨⟩
      exact .number number
    have present : drifting ≠ .null := nofun
    rw [bare.handle_call present regular (by decide), reread_drifting]
    refine ⟨_, rfl, ?_⟩
    intro under
    have same := Json.number.inj (Option.some.inj under.id)
    exact absurd same (by decide)
  · have regular : (Request.call (.integer 1) "tools/call"
        (some (.array [.string "boom"]))).Regular := by
      constructor
      · rintro _ ⟨⟩
        exact .number ⟨by decide, by decide⟩
      · rintro _ ⟨⟩
        exact regular_singleton (.string _)
    have present : Json.integer 1 ≠ .null := nofun
    rw [brittle.handle_call present regular (by decide)]
    rfl

end Server

end Toolsmith
