import Mathlib
import Toolsmith.Proofs.Protocol.RequestGrammar
import Toolsmith.Proofs.Server.Answering

/-! # Which messages a server takes for requests

A message that cannot be read as a request is refused with an error under no identifier. Among the
messages that are JSON, a server takes the objects that write a request, whatever the order of their
members, and passes over members it does not know. It also takes lists, by the places of their
items, and nothing else (`Server.admits_exactly_requests`).
-/

namespace Toolsmith

open Json

namespace Server

/-- The message is answered as one that cannot be read. -/
def Refuses (server : Server) (text : String) : Prop :=
  ∃ message, (server.handle text).1 = .answer (.failure .null (.parse message))

variable {server : Server} {text : String} {json : Json} {request : Request}

/-- No answer to a request is given under `null`. -/
theorem handleRequest_ne_failure (present : request.id ≠ some .null) (error : ProtocolError) :
    (server.handleRequest request).1 ≠ .answer (.failure .null error) := by
  intro answered
  cases identified : request.id with
  | none =>
    simp only [handleRequest, identified] at answered
    cases answered
  | some id =>
    have other : id ≠ .null := fun same => present (same ▸ identified)
    by_cases current : request.jsonrpc = messageVersion
    · rw [handleRequest_of_current identified current] at answered
      rcases Reaction.of_cases id (server.dispatch request.method request.params) with
        ⟨response, given, under⟩ | ⟨crashed, _⟩
      · rw [given] at answered
        cases answered
        exact other under.symm
      · rw [crashed] at answered
        cases answered
    · simp only [handleRequest, identified, current, ne_eq, not_false_eq_true, ↓reduceIte]
        at answered
      cases answered
      contradiction

/-- A message that is JSON is refused exactly when no request is read from it. -/
theorem not_refuses_iff (read : Json.read text = .ok json) :
    ¬ server.Refuses text ↔ ∃ request, Request.read text = .ok request := by
  cases found : Request.read text with
  | ok request =>
    refine ⟨fun _ => ⟨request, rfl⟩, fun _ => ?_⟩
    rintro ⟨message, answered⟩
    rw [handle_of_read found] at answered
    exact handleRequest_ne_failure (Request.id_ne_null read found) _ answered
  | error error =>
    refine ⟨fun taken => absurd ⟨error.message, ?_⟩ taken, nofun⟩
    simp only [handle, found]

/-- **Admission.** Among the messages that are JSON, a server takes for requests the objects that
write one, and the lists that do; each is answered as the request that it is. The objects are all of
them exactly when the message is no such list. -/
theorem admits_exactly_requests (server : Server) {text : String} {json : Json}
    (read : Json.read text = .ok json) :
    (¬ server.Refuses text ↔ ∃ request : Request, request.Written text ∨ request.Listed json) ∧
    ((¬ server.Refuses text ↔ ∃ request : Request, request.Written text) ↔
      ¬ ∃ request : Request, request.Listed json) ∧
    ∀ request : Request, request.Written text ∨ request.Listed json →
      server.handle text = server.handleRequest request := by
  have taken : ¬ server.Refuses text ↔
      ∃ request : Request, request.Written text ∨ request.Listed json := by
    rw [not_refuses_iff read]
    simp only [Request.read_eq_ok_iff read]
  refine ⟨taken, ?_, fun request found =>
    handle_of_read ((Request.read_eq_ok_iff read).mpr found)⟩
  rw [taken]
  constructor
  · rintro written ⟨request, listed⟩
    obtain ⟨other, stands⟩ := written.mp ⟨request, .inr listed⟩
    exact Request.not_written_of_listed read listed stands
  · intro unlisted
    constructor
    · rintro ⟨request, written | listed⟩
      · exact ⟨request, written⟩
      · exact absurd ⟨request, listed⟩ unlisted
    · rintro ⟨request, written⟩
      exact ⟨request, .inl written⟩

/-- A request with a member that no request has, and blanks between members. -/
def extended : String :=
  " \x7b\"more\":[\x7b\"id\":null\x7d],\"method\":\"ping\" , \"jsonrpc\":\"2.0\",\"id\":[1]\x7d"

/-- The member that is not known is passed over, and the request answered. -/
theorem admits_exactly_requests_of_extended :
    ¬ bare.Refuses extended ∧
      (bare.handle extended).1 = .answer (.success (.array [.integer 1]) .empty) := by
  have read : Json.read extended = .ok (.object [("id", .array [.integer 1]),
      ("jsonrpc", .string "2.0"), ("method", .string "ping"),
      ("more", .array [.object [("id", .null)]])]) := by
    cbv
  have found : Request.read extended =
      .ok ⟨"2.0", some (.array [.integer 1]), "ping", none⟩ := by
    cbv
  have request := (Request.read_eq_ok_iff read).mp found
  obtain ⟨taken, -, handled⟩ := admits_exactly_requests bare read
  refine ⟨taken.mpr ⟨_, request⟩, ?_⟩
  rw [handled _ request]
  rfl

/-- The parts of a request, in a list. -/
def unnamed : String := "[\"2.0\",1,\"ping\"]"

/-- A message that is a list, and so writes no request, is answered with the result of a method. -/
theorem list_is_executed :
    Json.read unnamed = .ok (.array [.string "2.0", .integer 1, .string "ping"]) ∧
    (bare.handle unnamed).1 = .answer (.success (.integer 1) .empty) ∧
    ¬ (¬ bare.Refuses unnamed ↔ ∃ request : Request, request.Written unnamed) := by
  have read : Json.read unnamed = .ok (.array [.string "2.0", .integer 1, .string "ping"]) := by
    cbv
  have listed : Request.Listed ⟨"2.0", some (.integer 1), "ping", none⟩
      (.array [.string "2.0", .integer 1, .string "ping"]) := ⟨_, rfl, rfl⟩
  have found := (Request.read_eq_ok_iff read).mpr (.inr listed)
  refine ⟨read, ?_, ?_⟩
  · rw [handle_of_read found]
    rfl
  · intro same
    obtain ⟨request, written⟩ := same.mp ((not_refuses_iff read).mpr ⟨_, found⟩)
    exact Request.not_written_of_listed read listed written

end Server

end Toolsmith
