import Mathlib
import Toolsmith.Proofs.Expansion.Routines
import Toolsmith.Proofs.Server.FailedStart
import Toolsmith.Proofs.Server.Registry

/-! # Tools without handlers

There are two ways to serve tools that nothing runs: responders that hold the list of tools and
refuse to call them, which is what generated code registers, and the registry of the server with no
handlers in it. They read parameters, find tools and report errors on their own. Where the names of
the tools differ, every method has the same result under both (`Server.alike_refusing`), and
servers with that property answer every sequence of messages alike (`Server.Alike.answers`).
-/

namespace Toolsmith

open Json

namespace Server

/-- Two servers give every method the same result, whether or not the handshake was done. -/
def Alike (one other : Server) : Prop :=
  ∀ done method params, { one with initialized := done }.dispatch method params =
    { other with initialized := done }.dispatch method params

variable {one other : Server}

/-- Servers that are alike give the same answer to a message, and stay together. -/
theorem Alike.handle (alike : one.Alike other) (together : one.initialized = other.initialized)
    (text : String) :
    (one.handle text).1 = (other.handle text).1 ∧
      (one.handle text).2.initialized = (other.handle text).2.initialized := by
  cases read : Request.read text with
  | error error =>
      simp only [Server.handle, read, together, and_self]
  | ok request =>
      rw [handle_of_read read, handle_of_read read]
      cases identified : request.id with
      | none => simp only [handleRequest, identified, together, and_self]
      | some id =>
          by_cases current : request.jsonrpc = messageVersion
          · have same : one.dispatch request.method request.params =
                other.dispatch request.method request.params := by
              have phase : { other with initialized := one.initialized } = other := by
                rw [together]
              have result := alike one.initialized request.method request.params
              rwa [phase] at result
            rw [handleRequest_of_current identified current,
              handleRequest_of_current identified current, same]
            simp only [afterMethod, together, and_self]
          · simp only [handleRequest, identified, ne_eq, current, not_false_eq_true, ↓reduceIte,
              together, and_self]

theorem Alike.after_handle (alike : one.Alike other) (text : String) :
    (one.handle text).2.Alike (other.handle text).2 := by
  rw [handle_server one, handle_server other]
  exact alike

/-- **Sequences of messages.** Servers that give every method the same result, and were introduced
together, answer alike. -/
theorem Alike.answers (alike : one.Alike other) (together : one.initialized = other.initialized)
    (messages : List String) : one.answers messages = other.answers messages := by
  induction messages generalizing one other with
  | nil => rfl
  | cons text rest ih =>
      obtain ⟨reaction, later⟩ := alike.handle together text
      rw [Server.answers, Server.answers, reaction, later, ih (alike.after_handle text) later]

/-- What answers a method past the gate: its responder, or else the server itself. -/
def answering (server : Server) (method : String) : Responder :=
  (server.responders.lookup method).getD (server.builtIn method)

/-- A request is turned away for coming early, or else answered. -/
theorem dispatch_eq (server : Server) (method : String) (params : Option Json) :
    server.dispatch method params =
      if server.configuration.strict && !server.initialized && isGated method then
        .error (.error (tooEarly method))
      else server.answering method params := by
  unfold dispatch answering
  cases server.responders.lookup method with
  | none => rfl
  | some responder => rfl

/-- A tool as it is registered without a handler. -/
def unhandled (tool : Tool) : RegisteredTool := ⟨tool, none⟩

theorem find?_unhandled (tools : List Tool) (name : String) :
    (tools.map unhandled).find? (·.tool.name == name) =
      (tools.find? (·.name == name)).map unhandled :=
  List.find?_map

/-- Tools of different names are registered one after another. -/
theorem run_tools {server : Server} {tools : List Tool}
    (distinct : ((server.tools ++ tools).map (·.name)).Nodup) :
    server.run (tools.map fun tool => .tool tool none) =
      { server with registered := server.registered ++ tools.map unhandled } := by
  induction tools generalizing server with
  | nil => simp only [run, List.map_nil, List.foldl_nil, List.append_nil]
  | cons tool rest ih =>
      have fresh : ∀ entry ∈ server.registered, entry.tool.name ≠ tool.name := by
        intro entry inside same
        rw [List.map_append, List.nodup_append] at distinct
        exact distinct.2.2 _ (List.mem_map_of_mem (List.mem_map_of_mem inside)) _
          List.mem_cons_self same
      have placed : server.after (.tool tool none) =
          { server with registered := server.registered ++ [unhandled tool] } := by
        have last :
            place (unhandled tool) server.registered = server.registered ++ [unhandled tool] :=
          place_of_fresh fresh
        rw [← last]
        rfl
      change (server.after (.tool tool none)).run (rest.map fun tool => .tool tool none) = _
      rw [placed, ih]
      · rw [List.append_assoc]
        rfl
      · have listed : { server with registered := server.registered ++ [unhandled tool] }.tools =
            server.tools ++ [tool] := List.map_append
        rwa [listed, ← List.append_cons]

/-- A server whose tools have no handlers refuses every call. -/
theorem callTool_of_unhandled {server : Server} {tools : List Tool}
    (registered : server.registered = tools.map unhandled) :
    server.callTool = refuseCall tools := by
  funext params
  unfold callTool refuseCall
  rw [registered, find?_unhandled]
  cases found : tools.find? (·.name == params.name) with
  | none =>
      have unknown : params.name ∉ tools.map (·.name) := by
        intro known
        obtain ⟨tool, inside, named⟩ := List.mem_map.mp known
        exact List.find?_eq_none.mp found tool inside (beq_iff_eq.mpr named)
      simp only [List.contains_iff_mem, unknown, ↓reduceIte, Option.map_none]
  | some tool =>
      have named := List.find?_some found
      have known : params.name ∈ tools.map (·.name) :=
        List.mem_map.mpr ⟨tool, List.mem_of_find?_eq_some found, beq_iff_eq.mp named⟩
      simp only [List.contains_iff_mem, known, ↓reduceIte, Option.map_some, unhandled]

theorem tools_of_unhandled {server : Server} {tools : List Tool}
    (registered : server.registered = tools.map unhandled) : server.tools = tools := by
  rw [Server.tools, registered, List.map_map]
  exact List.map_id tools

theorem responders_refusing {server : Server} (bare : server.responders = [])
    (tools : List Tool) :
    (server.refusing tools).responders =
      [(Method.callTool.name, responder Method.callTool (refuseCall tools)),
        (Method.listTools.name, responder Method.listTools fun _ => .ok ⟨tools⟩)] := by
  simp only [refusing, handleMethod, bare]
  rfl

/-- A method is answered by the responders as it is by the registry. -/
theorem answering_refusing {server : Server} (bare : server.responders = [])
    (tools : List Tool) (method : String) :
    (server.refusing tools).answering method =
      { server with registered := tools.map unhandled }.answering method := by
  simp only [answering, responders_refusing bare, bare, List.lookup_nil, Option.getD_none]
  by_cases calls : method = Method.callTool.name
  · rw [calls, List.lookup_cons_self, Option.getD_some, builtIn_callTool,
      callTool_of_unhandled rfl]
  · rw [List.lookup_cons, beq_eq_false_iff_ne.mpr calls]
    by_cases lists : method = Method.listTools.name
    · rw [lists, List.lookup_cons_self, Option.getD_some, builtIn_listTools,
        tools_of_unhandled rfl]
    · -- Nothing else that the server does looks at its tools.
      rw [List.lookup_cons, beq_eq_false_iff_ne.mpr lists]
      simp only [List.lookup_nil, Option.getD_none, builtIn, calls, lists, ↓reduceIte]
      rfl

/-- A server that answers for tools by responders is like one with the tools in its registry and no
handlers. -/
theorem alike_refusing {server : Server} (bare : server.responders = [])
    (tools : List Tool) :
    (server.refusing tools).Alike { server with registered := tools.map unhandled } := by
  intro done method params
  have same : { server.refusing tools with initialized := done }.answering method =
      { server with registered := tools.map unhandled, initialized := done }.answering method :=
    answering_refusing bare tools method
  rw [dispatch_eq, dispatch_eq, same]
  rfl

/-- **Tools without handlers.** Take a server with no tools and no responders, and tools of
different names. Running the generated function that answers the methods about tools on both comes
to a server, and over every sequence of messages that server gives the same answers as one on which
the tools were registered one by one without handlers, and is introduced at the same time. -/
theorem answers_registerHandlers (scope : Scope) (name version : String)
    (capabilities : ServerCapabilities) (configuration : Configuration) {tools : List Tool}
    (distinct : (tools.map (·.name)).Nodup) (messages : List String) :
    let bare := make name version capabilities configuration
    ∃ served, Generated.registerHandlers.function.effect? scope
        [.server bare, .list (tools.map .tool)] "server" = some served ∧
      served.answers messages =
        (bare.run (tools.map fun tool => .tool tool none)).answers messages := by
  intro bare
  refine ⟨bare.refusing tools, effect?_registerHandlers scope bare tools, ?_⟩
  rw [@run_tools bare tools distinct]
  exact (alike_refusing rfl tools).answers rfl messages

/-- Two tools are listed, one of them is called, and so is a tool that there is not. -/
theorem answers_registerHandlers_of_two :
    let bare := make "s" "1" {} {}
    let tools : List Tool := [⟨"echo", "", none⟩, ⟨"say", "", none⟩]
    let messages := [listing, echoCall, typeCall]
    ∃ served, Generated.registerHandlers.function.effect?
        (kitProgram.ownScope (Outline.ofBlock kit)) [.server bare, .list (tools.map .tool)]
        "server" = some served ∧
      served.answers messages =
        (bare.run (tools.map fun tool => .tool tool none)).answers messages := by
  intro bare tools messages
  exact answers_registerHandlers _ "s" "1" {} {} (by decide) messages

end Server

end Toolsmith
