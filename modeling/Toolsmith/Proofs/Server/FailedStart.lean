import Mathlib
import Toolsmith.Proofs.Server.Handshake
import Toolsmith.Server.Session

/-! # Starts that fail

A start that fails leaves the session as it was, except that a hook it brought stays in force. All
that a hook can change is the answer to a client that introduces itself to the server, so the server
answers as if the start had never been asked for exactly when the new hook and the old one give the
same verdict on every such client (`Server.answers_withHook_iff`).
-/

namespace Toolsmith

open Json

namespace Server

/-- The server with another hook, or none, in force. -/
def withHook (server : Server) (hook : Option Hook) : Server := { server with hook := hook }

/-- What a server answers to messages one after another, with whether the handshake was done after
each. -/
def answers (server : Server) : List String → List (Reaction × Bool)
  | [] => []
  | text :: rest =>
    ((server.handle text).1, (server.handle text).2.initialized) ::
      (server.handle text).2.answers rest

/-- What a hook says of a client that introduces itself. Without a hook every client is welcome. -/
def verdict (hook : Option Hook) (params : HandshakeParams) : Except Failure Unit :=
  match hook with
  | some hook => hook params.clientInfo params.capabilities
  | none => .ok ()

/-- Another hook would make no difference: the handshake is answered by a responder in place of the
server, or both hooks say the same of every client that can introduce itself. -/
def Indifferent (server : Server) (hook : Option Hook) : Prop :=
  server.responders.lookup Method.handshake.name = none →
    ∀ text request params, Request.read text = .ok request → request.id.isSome →
      request.jsonrpc = messageVersion → request.method = Method.handshake.name →
      readParams Method.handshake.params request.params = .ok params →
        verdict hook params = verdict server.hook params

/-- Only the handshake looks at the hook. -/
theorem dispatch_withHook_of_ne {server : Server} {hook : Option Hook} {method : String}
    (other : method ≠ Method.handshake.name) (params : Option Json) :
    (server.withHook hook).dispatch method params = server.dispatch method params := by
  simp only [dispatch, builtIn, other, ↓reduceIte]
  rfl

/-- A server that answers the handshake itself is introduced to those whom its hook lets pass. -/
theorem dispatch_handshake_of_read {server : Server} {raw : Option Json} {params : HandshakeParams}
    (own : server.responders.lookup Method.handshake.name = none)
    (read : readParams Method.handshake.params raw = .ok params) :
    server.dispatch Method.handshake.name raw =
      (verdict server.hook params).map fun _ =>
        (Method.handshake.encode ⟨protocolVersion, server.capabilities, server.info⟩).sorted := by
  rw [dispatch_handshake, own]
  simp only [responder, read, greet, verdict]
  cases server.hook with
  | none => rfl
  | some hook =>
      cases judged : hook params.clientInfo params.capabilities with
      | error failure => simp [judged, bind, Except.bind, Except.map]
      | ok _ => simp [judged, bind, Except.bind, Except.map, pure, Except.pure]

/-- Parameters that cannot be read are refused before the hook is asked. -/
theorem dispatch_handshake_of_unread {server : Server} {raw : Option Json} {failure : Failure}
    (own : server.responders.lookup Method.handshake.name = none)
    (unread : readParams Method.handshake.params raw = .error failure) :
    server.dispatch Method.handshake.name raw = .error failure := by
  rw [dispatch_handshake, own]
  simp only [responder, unread, bind, Except.bind]

/-- A hook that makes no difference makes none to the result of a request. -/
theorem Indifferent.dispatch_withHook {server : Server} {hook : Option Hook} {text : String}
    {request : Request} (indifferent : server.Indifferent hook)
    (read : Request.read text = .ok request) (identified : request.id.isSome)
    (current : request.jsonrpc = messageVersion) :
    (server.withHook hook).dispatch request.method request.params =
      server.dispatch request.method request.params := by
  by_cases asks : request.method = Method.handshake.name
  · rw [asks]
    cases own : server.responders.lookup Method.handshake.name with
    | some responder =>
        have replaced : (server.withHook hook).responders.lookup Method.handshake.name =
            some responder := own
        simp only [dispatch_handshake, own, replaced]
    | none =>
        have alone : (server.withHook hook).responders.lookup Method.handshake.name = none := own
        cases readable : readParams Method.handshake.params request.params with
        | error failure =>
            rw [dispatch_handshake_of_unread own readable,
              dispatch_handshake_of_unread alone readable]
        | ok params =>
            have agreed := indifferent own text request params read identified current asks readable
            have judged : verdict (server.withHook hook).hook params =
                verdict server.hook params := agreed
            rw [dispatch_handshake_of_read own readable, dispatch_handshake_of_read alone readable,
              judged]
            rfl
  · exact dispatch_withHook_of_ne asks request.params

/-- A request is answered alike under two hooks when its method has the same result. -/
theorem handleRequest_withHook {server : Server} {hook : Option Hook} {request : Request}
    (same : request.id.isSome → request.jsonrpc = messageVersion →
      (server.withHook hook).dispatch request.method request.params =
        server.dispatch request.method request.params) :
    (server.withHook hook).handleRequest request =
      ((server.handleRequest request).1, (server.handleRequest request).2.withHook hook) := by
  cases identified : request.id with
  | none => simp only [handleRequest, identified]
  | some id =>
      by_cases current : request.jsonrpc = messageVersion
      · rw [handleRequest_of_current identified current,
          handleRequest_of_current identified current, same (by simp [identified]) current]
        rfl
      · simp only [handleRequest, identified, ne_eq, current, not_false_eq_true, ↓reduceIte]

/-- **One message.** A hook that makes no difference changes no answer. -/
theorem Indifferent.handle_withHook {server : Server} {hook : Option Hook}
    (indifferent : server.Indifferent hook) (text : String) :
    (server.withHook hook).handle text =
      ((server.handle text).1, (server.handle text).2.withHook hook) := by
  cases read : Request.read text with
  | error error => simp only [handle, read]
  | ok request =>
      rw [handle_of_read read, handle_of_read read]
      exact handleRequest_withHook fun identified current =>
        indifferent.dispatch_withHook read identified current

theorem Indifferent.after_handle {server : Server} {hook : Option Hook}
    (indifferent : server.Indifferent hook) (text : String) :
    (server.handle text).2.Indifferent hook := by
  rw [handle_server]
  exact indifferent

/-- **Sequences of messages.** A hook that makes no difference changes no answer to any of them. -/
theorem Indifferent.answers_withHook {server : Server} {hook : Option Hook}
    (indifferent : server.Indifferent hook) (messages : List String) :
    (server.withHook hook).answers messages = server.answers messages := by
  induction messages generalizing server with
  | nil => rfl
  | cons text rest ih =>
      simp only [answers, indifferent.handle_withHook text]
      rw [ih (indifferent.after_handle text)]
      rfl

/-- A reaction under an identifier shows the result. -/
theorem Reaction.of_injective {id : Json} {one other : Except Failure Json}
    (same : Reaction.of id one = Reaction.of id other) : one = other := by
  match one, other with
  | .ok _, .ok _ => simpa [Reaction.of, Response.success] using same
  | .ok _, .error (.error _) => simp [Reaction.of, Response.success, Response.failure] at same
  | .ok _, .error .crash => simp [Reaction.of] at same
  | .error (.error _), .ok _ => simp [Reaction.of, Response.success, Response.failure] at same
  | .error (.error _), .error (.error _) => simpa [Reaction.of, Response.failure] using same
  | .error (.error _), .error .crash => simp [Reaction.of] at same
  | .error .crash, .ok _ => simp [Reaction.of] at same
  | .error .crash, .error (.error _) => simp [Reaction.of] at same
  | .error .crash, .error .crash => rfl

theorem map_const_injective {one other : Except Failure Unit} {value : Json}
    (same : (one.map fun _ => value) = other.map fun _ => value) : one = other := by
  match one, other with
  | .ok _, .ok _ => rfl
  | .ok _, .error _ => simp [Except.map] at same
  | .error _, .ok _ => simp [Except.map] at same
  | .error _, .error _ => simpa [Except.map] using same

/-- A server answers every sequence of messages alike under another hook exactly when that hook
makes no difference. -/
theorem answers_withHook_iff (server : Server) (hook : Option Hook) :
    (∀ messages, (server.withHook hook).answers messages = server.answers messages) ↔
      server.Indifferent hook := by
  constructor
  · intro alike own text request params read identified current asks readable
    obtain ⟨id, named⟩ := Option.isSome_iff_exists.mp identified
    have first : ((server.withHook hook).handle text).1 = (server.handle text).1 :=
      (Prod.mk.inj (List.cons.inj (alike [text])).1).1
    rw [handle_of_read read, handle_of_read read, handleRequest_of_current named current,
      handleRequest_of_current named current, asks] at first
    have result := Reaction.of_injective first
    have alone : (server.withHook hook).responders.lookup Method.handshake.name = none := own
    rw [dispatch_handshake_of_read own readable, dispatch_handshake_of_read alone readable]
      at result
    exact map_const_injective result
  · intro indifferent messages
    exact indifferent.answers_withHook messages

end Server

namespace Session

/-- A second start fails and changes nothing but the hook. -/
theorem startOn_of_started {session : Session} (started : session.life.started = true)
    (hook : Option Hook) (link : Link) :
    session.startOn hook link = (.error Lifecycle.alreadyStarted,
      { session with server := session.server.withHook (hook.or session.server.hook) }) := by
  cases hook with
  | none =>
      simp only [startOn, Lifecycle.start, started, ↓reduceIte]
      rfl
  | some hook =>
      simp only [startOn, Lifecycle.start, started, ↓reduceIte]
      rfl

theorem started_of_error {session : Session} {hook : Option Hook} {link : Link}
    {error : ProtocolError} (failed : (session.startOn hook link).1 = .error error) :
    session.life.started = true := by
  cases started : session.life.started with
  | true => rfl
  | false =>
      simp only [startOn, Lifecycle.start, started, Bool.false_eq_true, ↓reduceIte,
        reduceCtorEq] at failed

/-- **Starts that fail.** After a start that fails, only the hook may be another one. Without a hook
the session is as before. With one, every later sequence of messages is answered, and the handshake
done, as if the start had never been asked for exactly when the hook makes no difference to the
server. -/
theorem failed_start_answers_iff {session : Session} {hook : Option Hook} {link : Link}
    {error : ProtocolError} (failed : (session.startOn hook link).1 = .error error) :
    let later := (session.startOn hook link).2
    later = { session with server := session.server.withHook (hook.or session.server.hook) } ∧
    (hook = none → later = session) ∧
    ((∀ messages, later.server.answers messages = session.server.answers messages) ↔
      session.server.Indifferent (hook.or session.server.hook)) := by
  intro later
  have changed : later =
      { session with server := session.server.withHook (hook.or session.server.hook) } :=
    congrArg Prod.snd (startOn_of_started (started_of_error failed) hook link)
  refine ⟨changed, ?_, ?_⟩
  · intro absent
    rw [changed, absent]
    rfl
  · rw [changed]
    exact session.server.answers_withHook_iff (hook.or session.server.hook)

/-- A session that was started. -/
def begun : Session := (({ server := .make "s" "1" {} {} } : Session).start none []).2

/-- A hook that lets no one pass. -/
def refusal : Hook := fun client _ => .error (.error (.invalidRequest client.name))

/-- A second start without a hook fails and changes nothing. -/
theorem failed_start_answers_iff_of_begun :
    (begun.start none []).1 = .error Lifecycle.alreadyStarted ∧
      (begun.start none []).2 = begun ∧
      ∀ messages, (begun.start none []).2.server.answers messages =
        begun.server.answers messages := by
  have failed : (begun.start none []).1 = .error Lifecycle.alreadyStarted := rfl
  have ⟨_, same, alike⟩ := failed_start_answers_iff failed
  exact ⟨failed, same rfl, alike.mpr fun _ _ _ _ _ _ _ _ _ => rfl⟩

/-- A second start with a hook fails, and from then on that hook turns clients away. -/
theorem failed_start_keeps_hook :
    (begun.start (some refusal) []).1 = .error Lifecycle.alreadyStarted ∧
      (begun.server.answers [Server.greeting]).map Prod.snd = [true] ∧
      ((begun.start (some refusal) []).2.server.answers [Server.greeting]).map Prod.snd =
        [false] := by
  refine ⟨rfl, ?_, ?_⟩
  · simp only [Server.answers, Server.handle_of_read Server.read_greeting]
    decide
  · simp only [Server.answers, Server.handle_of_read Server.read_greeting]
    decide

end Session

end Toolsmith
