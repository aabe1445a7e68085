import Mathlib
import Toolsmith.Server.Basic

/-! # The handshake over whole runs

A run takes a server through registrations and messages. Whether the handshake was done is decided
by the messages alone: the flag is set exactly by a request for the handshake whose answer carries
a result (`Server.initialized_run_iff`), and nothing takes it back. Until then a strict server
refuses every request other than the handshake and the sign of life, and it does so before it looks
at a tool, a responder or the hook (`Server.handle_of_gated`).
-/

namespace Toolsmith

open Json

/-- What happens to a server in the course of a run. User code that answers differently from call to
call is registered anew between messages. -/
inductive ServerEvent : Type 1 where
  | tool (tool : Tool) (handler : Option Handler)
  | resource (resource : Resource)
  | toolbox (toolbox : Toolbox)
  | method {π ρ : Type} (method : Method π ρ) (handler : π → Except Failure ρ)
  /-- Another hook is put in force. -/
  | hook (hook : Hook)
  | message (text : String)

namespace Server

/-- The server after an event. -/
def after (server : Server) : ServerEvent → Server
  | .tool tool handler => server.registerTool tool handler
  | .resource resource => server.registerResource resource
  | .toolbox toolbox => server.registerToolbox toolbox
  | .method method handler => server.handleMethod method handler
  | .hook hook => { server with hook := some hook }
  | .message text => (server.handle text).2

/-- The server after a run. -/
def run (server : Server) (events : List ServerEvent) : Server := events.foldl after server

/-- The message is a request of the current version for the handshake, and the server answers it
with a result. -/
def Welcomes (server : Server) (text : String) : Prop :=
  ∃ request id response result, Request.read text = .ok request ∧ request.id = some id ∧
    request.jsonrpc = messageVersion ∧ request.method = Method.handshake.name ∧
    (server.handle text).1 = .answer response ∧ response.outcome = .ok result

/-- How the result of a method is answered. -/
def Reaction.of (id : Json) : Except Failure Json → Reaction
  | .ok value => .answer (.success id value)
  | .error (.error error) => .answer (.failure id error)
  | .error .crash => .crash

/-- A request of the current version is answered with the result of its method. -/
theorem handleRequest_of_current {server : Server} {request : Request} {id : Json}
    (identified : request.id = some id) (current : request.jsonrpc = messageVersion) :
    server.handleRequest request =
      (Reaction.of id (server.dispatch request.method request.params),
        server.afterMethod request.method (server.dispatch request.method request.params)) := by
  unfold handleRequest
  simp only [identified, current, ne_eq, not_true_eq_false, ↓reduceIte]
  rfl

/-- A request that is a notification, or of another version, leaves the server as it is. -/
theorem handleRequest_of_other {server : Server} {request : Request}
    (other : request.id = none ∨ request.jsonrpc ≠ messageVersion) :
    (server.handleRequest request).2 = server := by
  unfold handleRequest
  cases identified : request.id with
  | none => rfl
  | some id =>
      have different := other.resolve_left (by simp [identified])
      simp only [different, ne_eq, not_false_eq_true, ↓reduceIte]

theorem handle_of_read {server : Server} {text : String} {request : Request}
    (read : Request.read text = .ok request) :
    server.handle text = server.handleRequest request := by
  simp only [handle, read]

/-- A message changes nothing but whether the handshake was done. -/
theorem handle_server (server : Server) (text : String) :
    (server.handle text).2 =
      { server with initialized := (server.handle text).2.initialized } := by
  cases read : Request.read text with
  | error error => simp only [handle, read]
  | ok request =>
      rw [handle_of_read read]
      by_cases other : request.id = none ∨ request.jsonrpc ≠ messageVersion
      · rw [handleRequest_of_other other]
      · rw [not_or, Decidable.not_not] at other
        obtain ⟨id, identified⟩ := Option.ne_none_iff_exists'.mp other.1
        rw [handleRequest_of_current identified other.2]
        rfl

/-- The answer carries a result exactly when the method has one. -/
theorem Reaction.of_eq_answer {id : Json} {result : Except Failure Json} :
    (∃ response value, Reaction.of id result = .answer response ∧ response.outcome = .ok value) ↔
      result.isOk = true := by
  match result with
  | .ok value => simp [Reaction.of, Response.success, Except.isOk, Except.toBool]
  | .error (.error error) => simp [Reaction.of, Response.failure, Except.isOk, Except.toBool]
  | .error .crash => simp [Reaction.of, Except.isOk, Except.toBool]

/-- A server welcomes a request of the current version when it asks for the handshake and that
succeeds. -/
theorem welcomes_iff_of_current {server : Server} {text : String} {request : Request} {id : Json}
    (read : Request.read text = .ok request) (identified : request.id = some id)
    (current : request.jsonrpc = messageVersion) :
    server.Welcomes text ↔ request.method = Method.handshake.name ∧
      (server.dispatch request.method request.params).isOk = true := by
  have answered : (server.handle text).1 =
      Reaction.of id (server.dispatch request.method request.params) := by
    rw [handle_of_read read, handleRequest_of_current identified current]
  constructor
  · rintro ⟨other, _, response, value, found, _, _, asks, answer, carries⟩
    obtain rfl : request = other := Except.ok.inj (read.symm.trans found)
    exact ⟨asks, Reaction.of_eq_answer.mp ⟨response, value, answered ▸ answer, carries⟩⟩
  · rintro ⟨asks, succeeds⟩
    obtain ⟨response, value, answer, carries⟩ := (@Reaction.of_eq_answer id _).mpr succeeds
    exact ⟨request, id, response, value, read, identified, current, asks, answered ▸ answer,
      carries⟩

/-- Notifications and messages of another version complete no handshake. -/
theorem not_welcomes_of_other {server : Server} {text : String} {request : Request}
    (read : Request.read text = .ok request)
    (other : request.id = none ∨ request.jsonrpc ≠ messageVersion) : ¬ server.Welcomes text := by
  rintro ⟨found, id, _, _, same, identified, current, _⟩
  obtain rfl : request = found := Except.ok.inj (read.symm.trans same)
  rcases other with absent | different
  · rw [absent] at identified
    contradiction
  · exact different current

/-- **One message.** The handshake is done after a message if it was done before, or if the message
is a request for it that is answered with a result. -/
theorem initialized_handle_iff (server : Server) (text : String) :
    (server.handle text).2.initialized = true ↔
      server.initialized = true ∨ server.Welcomes text := by
  cases read : Request.read text with
  | error error =>
      have unread : ¬ server.Welcomes text := by
        rintro ⟨request, _, _, _, found, _⟩
        rw [read] at found
        contradiction
      simp only [handle, read, unread, or_false]
  | ok request =>
      by_cases other : request.id = none ∨ request.jsonrpc ≠ messageVersion
      · rw [handle_of_read read, handleRequest_of_other other]
        simp only [not_welcomes_of_other read other, or_false]
      · rw [not_or, Decidable.not_not] at other
        obtain ⟨id, identified⟩ := Option.ne_none_iff_exists'.mp other.1
        rw [welcomes_iff_of_current read identified other.2, handle_of_read read,
          handleRequest_of_current identified other.2]
        simp only [afterMethod, Bool.or_eq_true, Bool.and_eq_true, beq_iff_eq]

theorem registerToolbox_eq (server : Server) (toolbox : Toolbox) :
    ∃ registered, server.registerToolbox toolbox = { server with registered := registered } := by
  unfold registerToolbox
  induction toolbox.tools generalizing server with
  | nil => exact ⟨server.registered, rfl⟩
  | cons tool rest ih => exact ih (server.registerTool tool (some (toolbox.call tool.name)))

/-- Of all events a welcomed message alone completes the handshake, and none undoes it. -/
theorem initialized_after_iff (server : Server) (event : ServerEvent) :
    (server.after event).initialized = true ↔
      server.initialized = true ∨ ∃ text, event = .message text ∧ server.Welcomes text := by
  cases event with
  | tool tool handler => simp [after, registerTool]
  | resource resource => simp [after, registerResource]
  | toolbox toolbox =>
      obtain ⟨registered, made⟩ := server.registerToolbox_eq toolbox
      simp [after, made]
  | method method handler => simp [after, handleMethod]
  | hook hook => simp [after]
  | message text => simp [after, initialized_handle_iff]

theorem configuration_after (server : Server) (event : ServerEvent) :
    (server.after event).configuration = server.configuration := by
  cases event with
  | toolbox toolbox =>
      obtain ⟨registered, made⟩ := server.registerToolbox_eq toolbox
      rw [after, made]
  | message text => rw [after, handle_server]
  | _ => rfl

theorem configuration_run (server : Server) (events : List ServerEvent) :
    (server.run events).configuration = server.configuration := by
  induction events generalizing server with
  | nil => rfl
  | cons event rest ih => exact (ih (server.after event)).trans (server.configuration_after event)

/-- **Whole runs.** The handshake is done after a run if it was done before it, or if some message
of the run was a request for it that was answered with a result. -/
theorem initialized_run_iff (server : Server) (events : List ServerEvent) :
    (server.run events).initialized = true ↔
      server.initialized = true ∨ ∃ before text later,
        events = before ++ .message text :: later ∧ (server.run before).Welcomes text := by
  induction events generalizing server with
  | nil => simp [run]
  | cons event rest ih =>
      have step : server.run (event :: rest) = (server.after event).run rest := rfl
      rw [step, ih, initialized_after_iff]
      constructor
      · rintro ((done | ⟨text, rfl, welcomed⟩) | ⟨before, text, later, rfl, welcomed⟩)
        · exact Or.inl done
        · exact Or.inr ⟨[], text, rest, rfl, welcomed⟩
        · exact Or.inr ⟨event :: before, text, later, rfl, welcomed⟩
      · rintro (done | ⟨before, text, later, split, welcomed⟩)
        · exact Or.inl (Or.inl done)
        · cases before with
          | nil =>
              obtain ⟨rfl, rfl⟩ := List.cons.inj split
              exact Or.inl (Or.inr ⟨text, rfl, welcomed⟩)
          | cons first before =>
              obtain ⟨rfl, rfl⟩ := List.cons.inj split
              exact Or.inr ⟨before, text, later, rfl, welcomed⟩

/-- The reasons for which a request does not complete the handshake, whatever it asks for. -/
inductive TurnsAway (server : Server) (request : Request) : Prop where
  | notification (absent : request.id = none)
  | version (other : request.jsonrpc ≠ messageVersion)
  /-- The parameters of the handshake cannot be read. -/
  | params {failure : Failure}
      (own : server.responders.lookup Method.handshake.name = none)
      (unread : readParams Method.handshake.params request.params = .error failure)
  /-- The hook in force fails for the client. -/
  | hook {params : HandshakeParams} {hook : Hook} {failure : Failure}
      (own : server.responders.lookup Method.handshake.name = none)
      (read : readParams Method.handshake.params request.params = .ok params)
      (hooked : server.hook = some hook)
      (refuses : hook params.clientInfo params.capabilities = .error failure)
  /-- What answers the handshake in place of the server fails. -/
  | responder {responder : Responder} {failure : Failure}
      (replaced : server.responders.lookup Method.handshake.name = some responder)
      (fails : responder request.params = .error failure)

/-- The handshake is answered by its responder, or else by the server itself. -/
theorem dispatch_handshake (server : Server) (params : Option Json) :
    server.dispatch Method.handshake.name params =
      match server.responders.lookup Method.handshake.name with
      | some responder => responder params
      | none => responder Method.handshake server.greet params := by
  have ungated : isGated Method.handshake.name = false := by decide
  cases own : server.responders.lookup Method.handshake.name with
  | some responder =>
      simp only [dispatch, ungated, Bool.and_false, Bool.false_eq_true, ↓reduceIte, own]
  | none =>
      simp only [dispatch, ungated, Bool.and_false, Bool.false_eq_true, ↓reduceIte, own, builtIn]

/-- A request that is turned away is not a welcomed one. -/
theorem TurnsAway.not_welcomes {server : Server} {text : String} {request : Request}
    (read : Request.read text = .ok request) (turned : server.TurnsAway request) :
    ¬ server.Welcomes text := by
  intro welcomed
  have ⟨found, id, _, _, same, identified, current, _⟩ := welcomed
  obtain rfl : request = found := Except.ok.inj (read.symm.trans same)
  obtain ⟨asks, succeeds⟩ := (welcomes_iff_of_current read identified current).mp welcomed
  rw [asks, dispatch_handshake] at succeeds
  cases turned with
  | notification absent => exact absurd identified (by simp [absent])
  | version other => exact other current
  | params own unread =>
      simp [own, Server.responder, unread, bind, Except.bind, Except.isOk, Except.toBool]
        at succeeds
  | hook own readable hooked refuses =>
      simp [own, Server.responder, readable, greet, hooked, refuses, bind, Except.bind, Except.isOk,
        Except.toBool] at succeeds
  | responder replaced fails =>
      simp [replaced, fails, Except.isOk, Except.toBool] at succeeds

/-- What a strict server says to a request for a method before the handshake. -/
def tooEarly (method : String) : ProtocolError :=
  .invalidRequest ("`" ++ method ++ "` received before initialization")

/-- **Before the handshake.** A strict server that has not been introduced refuses a request for any
other method than the handshake and the sign of life, and is left as it is. -/
theorem handle_of_gated {server : Server} {text : String} {request : Request} {id : Json}
    (strict : server.configuration.strict = true) (waiting : server.initialized = false)
    (read : Request.read text = .ok request) (identified : request.id = some id)
    (current : request.jsonrpc = messageVersion)
    (other : request.method ≠ Method.handshake.name) (alive : request.method ≠ Method.ping.name) :
    server.handle text = (.answer (.failure id (tooEarly request.method)), server) := by
  have gated : isGated request.method = true := by simp [isGated, other, alive]
  have refused : server.dispatch request.method request.params =
      .error (.error (tooEarly request.method)) := by
    simp only [dispatch, strict, waiting, gated, Bool.not_false, Bool.and_self, ↓reduceIte,
      tooEarly]
  have unmarked (result : Except Failure Json) :
      server.afterMethod request.method result = server := by
    simp only [afterMethod, beq_eq_false_iff_ne.mpr other, Bool.false_and, Bool.or_false]
  rw [handle_of_read read, handleRequest_of_current identified current, refused, unmarked]
  rfl

/-- **The handshake.** Over every run from a new server the handshake is done exactly when some
message was a request for it that was answered with a result. It stays done, and a request that is
turned away leaves it as it was. Until it is done, a strict server answers every other request but
the sign of life with one error, whatever tools, responders and hook it has: none of them is run. -/
theorem handshake_over_runs (name version : String) (capabilities : ServerCapabilities)
    (configuration : Configuration) (events : List ServerEvent) :
    let server := (make name version capabilities configuration).run events
    (server.initialized = true ↔ ∃ before text later,
      events = before ++ .message text :: later ∧
        ((make name version capabilities configuration).run before).Welcomes text) ∧
    (server.initialized = true → ∀ later, (server.run later).initialized = true) ∧
    (∀ text request, Request.read text = .ok request → server.TurnsAway request →
      (server.handle text).2.initialized = server.initialized) ∧
    (configuration.strict = true → server.initialized = false →
      ∀ text request id, Request.read text = .ok request → request.id = some id →
        request.jsonrpc = messageVersion → request.method ≠ Method.handshake.name →
        request.method ≠ Method.ping.name →
          ∃ error : ProtocolError, error.code = -32600 ∧ ∀ registered responders hook,
            let equipped := { server with
              registered := registered, responders := responders, hook := hook }
            equipped.handle text = (.answer (.failure id error), equipped)) := by
  intro server
  refine ⟨?_, ?_, ?_, ?_⟩
  · have fresh : (make name version capabilities configuration).initialized = false := rfl
    simpa only [fresh, Bool.false_eq_true, false_or] using
      initialized_run_iff (make name version capabilities configuration) events
  · intro done later
    exact (initialized_run_iff server later).mpr (Or.inl done)
  · intro text request read turned
    have same := initialized_handle_iff server text
    simp only [turned.not_welcomes read, or_false] at same
    exact Bool.eq_iff_iff.mpr same
  · intro strict waiting text request id read identified current other alive
    have configured : server.configuration = configuration := configuration_run _ events
    refine ⟨tooEarly request.method, rfl, ?_⟩
    intro registered responders hook
    exact handle_of_gated (configured ▸ strict) waiting read identified current other alive

/-- A request for the list of tools. -/
def listing : String :=
  "\x7b\"jsonrpc\":\"2.0\",\"id\":1,\"method\":\"tools/list\"\x7d"

/-- A request for the handshake. -/
def greeting : String :=
  "\x7b\"jsonrpc\":\"2.0\",\"id\":1,\"method\":\"initialize\"," ++
    "\"params\":[\"1\",\x7b\x7d,[\"a\",\"1\"]]\x7d"

theorem read_greeting : Request.read greeting = .ok ⟨"2.0", some (.integer 1), "initialize",
    some (.array [.string "1", .object [], .array [.string "a", .string "1"]])⟩ := by
  cbv

/-- A strict server refuses to list its tools until a client introduces itself. -/
theorem handshake_over_runs_of_strict :
    (∃ error : ProtocolError, error.code = -32600 ∧ ∀ registered responders hook,
      let equipped := { make "s" "1" {} ⟨true⟩ with
        registered := registered, responders := responders, hook := hook }
      equipped.handle listing = (.answer (.failure (.integer 1) error), equipped)) ∧
    ((make "s" "1" {} ⟨true⟩).run [.message greeting]).initialized = true := by
  have listed : Request.read listing = .ok ⟨"2.0", some (.integer 1), "tools/list", none⟩ := by
    cbv
  have welcomed : (make "s" "1" {} ⟨true⟩).Welcomes greeting :=
    (welcomes_iff_of_current read_greeting rfl rfl).mpr ⟨rfl, by decide⟩
  exact ⟨(handshake_over_runs "s" "1" {} ⟨true⟩ []).2.2.2 rfl rfl listing _ _ listed rfl rfl
      (by decide) (by decide),
    (handshake_over_runs "s" "1" {} ⟨true⟩ _).1.mpr ⟨[], greeting, [], rfl, welcomed⟩⟩

end Server

end Toolsmith
