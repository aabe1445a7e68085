import Mathlib
import Toolsmith.Proofs.Server.Registry

/-! # A toolbox on a server

Registering a toolbox registers its tools one after another, each under its own name and all run by
the toolbox. A name may be listed twice, and may be that of a tool that the server had before: the
last registration under a name is the one that counts (`Server.find?_foldl_place`). So every call of
a listed name goes to the toolbox, and no other call notices it (`Server.served_toolbox`).
-/

namespace Toolsmith
namespace Server

/-- Of several registrations the last under a name counts, and before them what was there. -/
theorem find?_foldl_place (entries registered : List RegisteredTool) (name : String) :
    (entries.foldl (fun registered entry => place entry registered) registered).find?
        (·.tool.name == name) =
      (lastUnder entries name).or (registered.find? (·.tool.name == name)) := by
  induction entries using List.reverseRecOn with
  | nil => rfl
  | append_singleton entries entry ih =>
      rw [List.foldl_append, List.foldl_cons, List.foldl_nil, find?_place, lastUnder_concat, ih]
      by_cases asked : entry.tool.name = name
      · rw [if_pos asked, if_pos asked, Option.some_or]
      · rw [if_neg asked, if_neg asked]

theorem namesOf_registers (toolbox : Toolbox) :
    namesOf (ServerEvent.toolbox toolbox).registers = toolbox.tools.map (·.name) :=
  List.map_map

section Lookup

variable (server : Server) {toolbox : Toolbox} {name : String}

/-- A name that the toolbox lists is run by the toolbox under that name. -/
theorem find?_registerToolbox_of_mem (listed : name ∈ toolbox.tools.map (·.name)) :
    ∃ tool, (server.registerToolbox toolbox).registered.find? (·.tool.name == name) =
      some ⟨tool, some (toolbox.call name)⟩ := by
  rw [registered_registerToolbox, find?_foldl_place]
  cases last : lastUnder (ServerEvent.toolbox toolbox).registers name with
  | none =>
      rw [lastUnder_eq_none, namesOf_registers] at last
      exact absurd listed last
  | some entry =>
      have registers := (List.mem_filter.mp (List.mem_of_getLast? last)).1
      obtain ⟨tool, _, rfl⟩ := List.mem_map.mp registers
      obtain rfl : tool.name = name := name_of_lastUnder last
      exact ⟨tool, rfl⟩

theorem find?_registerToolbox_of_not_mem (unlisted : name ∉ toolbox.tools.map (·.name)) :
    (server.registerToolbox toolbox).registered.find? (·.tool.name == name) =
      server.registered.find? (·.tool.name == name) := by
  rw [← namesOf_registers, ← lastUnder_eq_none] at unlisted
  rw [registered_registerToolbox, find?_foldl_place, unlisted, Option.none_or]

end Lookup

/-- The answer to a call depends on the tools only by the one that is called. -/
theorem handle_of_same_tool {server : Server} {registered : List RegisteredTool} {text : String}
    {id : Json} {params : CallToolParams} (call : IsToolCall text id params)
    (same : registered.find? (·.tool.name == params.name) =
      server.registered.find? (·.tool.name == params.name)) :
    ({ server with registered := registered }.handle text).1 = (server.handle text).1 := by
  obtain ⟨request, read, identified, current, asks, readable⟩ := call
  have called : { server with registered := registered }.callTool params =
      server.callTool params := by
    unfold callTool
    rw [same]
  have answered : { server with registered := registered }.builtIn request.method request.params =
      server.builtIn request.method request.params := by
    rw [asks, builtIn_callTool, builtIn_callTool, responder_of_read _ _ readable,
      responder_of_read _ _ readable, called]
  rw [handle_of_read read, handle_of_read read, handleRequest_of_current identified current,
    handleRequest_of_current identified current]
  dsimp only
  unfold dispatch
  rw [answered]

section Served

variable (server : Server) {toolbox : Toolbox} {text : String} {id : Json} {params : CallToolParams}

/-- Registering a toolbox changes the tools and nothing else. -/
theorem registerToolbox_kept (toolbox : Toolbox) :
    server.registerToolbox toolbox =
      { server with registered := (server.registerToolbox toolbox).registered } := by
  obtain ⟨registered, made⟩ := server.registerToolbox_eq toolbox
  rw [made]

/-- A call of a name that the toolbox lists comes to what the toolbox makes of it. -/
theorem handle_registerToolbox_of_mem (call : IsToolCall text id params)
    (listed : params.name ∈ toolbox.tools.map (·.name))
    (own : server.responders.lookup Method.callTool.name = none)
    (passes : server.configuration.strict = false ∨ server.initialized = true) :
    ((server.registerToolbox toolbox).handle text).1 = Reaction.of id
      ((outcomeOf (toolbox.call params.name params.arguments)).map fun result =>
        result.encode.sorted) := by
  obtain ⟨tool, found⟩ := server.find?_registerToolbox_of_mem listed
  have kept := server.registerToolbox_kept toolbox
  have same : (server.registerToolbox toolbox).responders.lookup Method.callTool.name = none := by
    rw [kept]
    exact own
  have admits : (server.registerToolbox toolbox).configuration.strict = false ∨
      (server.registerToolbox toolbox).initialized = true := by
    rw [kept]
    exact passes
  rw [handle_of_isToolCall call admits same, callTool_of_found found]
  rfl

end Served

/-- **A toolbox on a server.** Registering a toolbox changes nothing of a server but its tools.
After that, a call of a tool is answered as before unless the toolbox lists its name. If it does,
and the call passes the gate of a server that answers calls itself, the answer is what the toolbox
gives for that name and the arguments: its content, or the text of its error as the content of a
result that says so. It is never an error of the protocol. -/
theorem served_toolbox (server : Server) (toolbox : Toolbox) :
    let served := server.registerToolbox toolbox
    served = { server with registered := served.registered } ∧
    ∀ text id params, IsToolCall text id params →
      (params.name ∉ toolbox.tools.map (·.name) →
        (served.handle text).1 = (server.handle text).1) ∧
      (params.name ∈ toolbox.tools.map (·.name) →
        server.responders.lookup Method.callTool.name = none →
        server.configuration.strict = false ∨ server.initialized = true →
        (∀ content, toolbox.call params.name params.arguments = .ok content →
          (served.handle text).1 =
            .answer (.success id (CallToolResult.encode ⟨content, false⟩).sorted)) ∧
        (∀ error, toolbox.call params.name params.arguments = .error (.error error) →
          (served.handle text).1 =
            .answer (.success id (CallToolResult.encode ⟨[.text error.message], true⟩).sorted)) ∧
        ∀ other error, (served.handle text).1 ≠ .answer (.failure other error)) := by
  intro served
  have kept : served = { server with registered := served.registered } :=
    server.registerToolbox_kept toolbox
  refine ⟨kept, fun text id params call => ⟨fun unlisted => ?_, fun listed own passes => ?_⟩⟩
  · rw [kept]
    exact handle_of_same_tool call (server.find?_registerToolbox_of_not_mem unlisted)
  · rw [server.handle_registerToolbox_of_mem call listed own passes]
    refine ⟨?_, ?_, ?_⟩
    · intro content ran
      rw [ran]
      rfl
    · intro error failed
      rw [failed]
      rfl
    · intro other error
      match toolbox.call params.name params.arguments with
      | .ok content => exact nofun
      | .error (.error failure) => exact nofun
      | .error .crash => exact nofun

/-- A toolbox that lists one tool twice and fails to run the other. -/
def moody : Toolbox :=
  ⟨⟨"moody", ""⟩, [⟨"echo", "first", none⟩, ⟨"type", "", none⟩, ⟨"echo", "second", none⟩],
    fun name _ => if name = "echo" then .ok [.text name] else .error (.error (.toolNotFound name))⟩

/-- It runs a tool that had no handler before, and its failure is not one of the protocol. -/
theorem served_toolbox_of_moody :
    let server := (make "s" "1" {} {}).registerTool ⟨"echo", "bare", none⟩ none
    let served := server.registerToolbox moody
    (served.handle echoCall).1 = .answer (.success (.integer 1)
        (CallToolResult.encode ⟨[.text "echo"], false⟩).sorted) ∧
      (served.handle typeCall).1 = .answer (.success (.integer 1)
        (CallToolResult.encode ⟨[.text "Tool not found: type"], true⟩).sorted) := by
  intro server served
  obtain ⟨_, calls⟩ := served_toolbox server moody
  constructor
  · refine ((calls echoCall _ _ isToolCall_echoCall).2 ?_ rfl (.inl rfl)).1 _ rfl
    exact List.mem_cons_self
  · refine ((calls typeCall _ _ isToolCall_typeCall).2 ?_ rfl (.inl rfl)).2.1
      (.toolNotFound "type") rfl
    exact List.mem_cons_of_mem _ List.mem_cons_self

end Server

end Toolsmith
