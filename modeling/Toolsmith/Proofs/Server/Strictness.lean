import Mathlib
import Toolsmith.Proofs.Server.Handshake

/-! # What strictness changes

A strict server differs from one that is not in its answers to requests that come before the
handshake, and in nothing else. The gate stands before the responders and before the parameters are
read, so that it hides whatever these would do; but it lets the handshake pass, and no other method
changes the server. Two servers that differ in strictness alone therefore stay so over every run
(`Server.run_withStrict`), and answer alike whatever does not come early
(`Server.handle_withStrict`).
-/

namespace Toolsmith

open Json

namespace Server

/-- The server with another strictness. -/
def withStrict (server : Server) (strict : Bool) : Server :=
  { server with configuration := { server.configuration with strict := strict } }

/-- A text is a request that a server not yet introduced refuses if it is strict. -/
def ComesEarly (server : Server) (text : String) (id : Json) : Prop :=
  server.initialized = false ∧ ∃ request, Request.read text = .ok request ∧
    request.id = some id ∧ request.jsonrpc = messageVersion ∧
    request.method ≠ Method.handshake.name ∧ request.method ≠ Method.ping.name

variable {server : Server} {strict : Bool}

theorem isGated_eq_true {method : String} :
    isGated method = true ↔ method ≠ Method.handshake.name ∧ method ≠ Method.ping.name := by
  simp [isGated]

/-- Past the gate a method has the same result. -/
theorem dispatch_withStrict {method : String}
    (passes : server.initialized = true ∨ isGated method = false) (params : Option Json) :
    (server.withStrict strict).dispatch method params = server.dispatch method params := by
  have admits (checks : Bool) : (checks && !server.initialized && isGated method) = false := by
    rcases passes with done | free
    · simp [done]
    · simp [free]
  have same : (server.withStrict strict).initialized = server.initialized := rfl
  simp only [dispatch, same, admits, Bool.false_eq_true, ↓reduceIte]
  rfl

/-- A method other than the handshake leaves no mark, whatever its result. -/
theorem afterMethod_of_ne {method : String} (other : method ≠ Method.handshake.name)
    (result : Except Failure Json) : server.afterMethod method result = server := by
  simp only [afterMethod, beq_eq_false_iff_ne.mpr other, Bool.false_and, Bool.or_false]

/-- **One message.** It leaves two servers that differ in strictness differing in that alone. -/
theorem handle_withStrict_server (text : String) :
    ((server.withStrict strict).handle text).2 = (server.handle text).2.withStrict strict := by
  cases read : Request.read text with
  | error error => simp only [handle, read]
  | ok request =>
      rw [handle_of_read read, handle_of_read read]
      by_cases other : request.id = none ∨ request.jsonrpc ≠ messageVersion
      · rw [handleRequest_of_other other, handleRequest_of_other other]
      · rw [not_or, Decidable.not_not] at other
        obtain ⟨id, identified⟩ := Option.ne_none_iff_exists'.mp other.1
        rw [handleRequest_of_current identified other.2,
          handleRequest_of_current identified other.2]
        by_cases asks : request.method = Method.handshake.name
        · have free : isGated request.method = false := by rw [asks]; rfl
          rw [dispatch_withStrict (.inr free)]
          rfl
        · rw [afterMethod_of_ne asks, afterMethod_of_ne asks]

/-- A message that does not come early is answered alike. -/
theorem handle_withStrict {text : String} (timely : ∀ id, ¬ server.ComesEarly text id) :
    ((server.withStrict strict).handle text).1 = (server.handle text).1 := by
  cases read : Request.read text with
  | error error => simp only [handle, read]
  | ok request =>
      rw [handle_of_read read, handle_of_read read]
      cases identified : request.id with
      | none => simp only [handleRequest, identified]
      | some id =>
          by_cases current : request.jsonrpc = messageVersion
          · have passes : server.initialized = true ∨ isGated request.method = false := by
              by_contra stuck
              rw [not_or, Bool.not_eq_true, Bool.not_eq_false] at stuck
              obtain ⟨waiting, gated⟩ := stuck
              exact timely id
                ⟨waiting, request, read, identified, current, isGated_eq_true.mp gated⟩
            rw [handleRequest_of_current identified current,
              handleRequest_of_current identified current, dispatch_withStrict passes]
          · simp only [handleRequest, identified, ne_eq, current, not_false_eq_true, ↓reduceIte]

theorem registerToolbox_withStrict (toolbox : Toolbox) :
    (server.withStrict strict).registerToolbox toolbox =
      (server.registerToolbox toolbox).withStrict strict := by
  unfold registerToolbox
  induction toolbox.tools generalizing server with
  | nil => rfl
  | cons tool rest ih => exact @ih (server.registerTool tool (some (toolbox.call tool.name)))

theorem after_withStrict (event : ServerEvent) :
    (server.withStrict strict).after event = (server.after event).withStrict strict := by
  cases event with
  | toolbox toolbox => exact registerToolbox_withStrict toolbox
  | message text => exact handle_withStrict_server text
  | _ => rfl

/-- **Whole runs.** Servers that differ in strictness alone do so after every run. -/
theorem run_withStrict (events : List ServerEvent) :
    (server.withStrict strict).run events = (server.run events).withStrict strict := by
  induction events generalizing server with
  | nil => rfl
  | cons event rest ih =>
      change ((server.withStrict strict).after event).run rest = _
      rw [after_withStrict]
      exact ih

/-- **Strictness only delays.** Let two servers be made and equipped alike, one strict and the other
not, and be given the same messages in between. Then they are always introduced together, before and
after each message, and give the same answers, except to a request that comes early: that one the
strict server refuses as an invalid request, under its identifier. -/
theorem strict_only_delays (name version : String) (capabilities : ServerCapabilities)
    (events : List ServerEvent) (text : String) :
    let strict := (make name version capabilities ⟨true⟩).run events
    let lenient := (make name version capabilities ⟨false⟩).run events
    strict.initialized = lenient.initialized ∧
    (strict.handle text).2.initialized = (lenient.handle text).2.initialized ∧
    (∀ id, lenient.ComesEarly text id →
      ∃ reason, (strict.handle text).1 = .answer (.failure id (.invalidRequest reason))) ∧
    ((∀ id, ¬ lenient.ComesEarly text id) →
      (strict.handle text).1 = (lenient.handle text).1) := by
  intro strict lenient
  have differ : strict = lenient.withStrict true :=
    @run_withStrict (make name version capabilities ⟨false⟩) true events
  refine ⟨?_, ?_, ?_, ?_⟩
  · rw [differ]
    rfl
  · rw [differ, handle_withStrict_server]
    rfl
  · rintro id ⟨waiting, request, read, identified, current, other, alive⟩
    have refused := @handle_of_gated (lenient.withStrict true) text request id rfl waiting read
      identified current other alive
    rw [differ, refused]
    exact ⟨_, rfl⟩
  · intro timely
    rw [differ]
    exact handle_withStrict timely

/-- A strict server refuses to list its tool before the handshake, and lists it afterwards as the
other one does. -/
theorem strict_only_delays_of_tool :
    let events : List ServerEvent := [.tool ⟨"echo", "", none⟩ none]
    (∃ reason, (((make "s" "1" {} ⟨true⟩).run events).handle listing).1 =
      .answer (.failure (.integer 1) (.invalidRequest reason))) ∧
    (((make "s" "1" {} ⟨true⟩).run (events ++ [.message greeting])).handle listing).1 =
      (((make "s" "1" {} ⟨false⟩).run (events ++ [.message greeting])).handle listing).1 := by
  intro events
  have listed : Request.read listing = .ok ⟨"2.0", some (.integer 1), "tools/list", none⟩ := by
    cbv
  have welcomed : ((make "s" "1" {} ⟨false⟩).run events).Welcomes greeting :=
    (welcomes_iff_of_current read_greeting rfl rfl).mpr ⟨rfl, by decide⟩
  have introduced := (initialized_run_iff (make "s" "1" {} ⟨false⟩)
    (events ++ [.message greeting])).mpr (.inr ⟨events, greeting, [], rfl, welcomed⟩)
  obtain ⟨_, _, refused, _⟩ := strict_only_delays "s" "1" {} events listing
  obtain ⟨_, _, _, alike⟩ := strict_only_delays "s" "1" {} (events ++ [.message greeting]) listing
  refine ⟨refused _ ⟨rfl, _, listed, rfl, rfl, by decide, by decide⟩, alike ?_⟩
  intro id early
  exact Bool.false_ne_true (early.1.symm.trans introduced)

end Server

end Toolsmith
