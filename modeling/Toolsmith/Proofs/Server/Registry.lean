import Mathlib
import Toolsmith.Proofs.Expansion.Factory

/-! # The registry of tools over whole runs

Tools are kept in a plain list, which a registration searches and updates in place. Over every run
it is a map that remembers the order in which its names came: one registration takes what the list
says about a history of registrations to the history with one more (`Server.Records.place`), an
event and a run do it as often as they register (`Server.Records.run`). What is listed and what is
called is then read off the history alone (`Server.registry_over_runs`).
-/

namespace Toolsmith

open Json

/-- The tools that an event registers, in order. Those of a toolbox are run by the toolbox, each
under its own name. -/
def ServerEvent.registers : ServerEvent → List RegisteredTool
  | .tool described handler => [⟨described, handler⟩]
  | .toolbox box => box.tools.map fun described => ⟨described, some (box.call described.name)⟩
  | _ => []

namespace Server

def namesOf (entries : List RegisteredTool) : List String := entries.map (·.tool.name)

/-- The last registration under a name. -/
def lastUnder (history : List RegisteredTool) (name : String) : Option RegisteredTool :=
  (history.filter (·.tool.name == name)).getLast?

/-- What a list of tools says about the registrations that led to it: every name stands once, in the
order in which the names came first, with its last registration. -/
structure Records (history registered : List RegisteredTool) : Prop where
  distinct : (namesOf registered).Nodup
  order : namesOf registered = (namesOf history).eraseDups
  found : ∀ name, registered.find? (·.tool.name == name) = lastUnder history name

theorem records_nil : Records [] [] where
  distinct := List.nodup_nil
  order := rfl
  found := fun _ => rfl

/-- A registration adds its name at the end, unless it is known. -/
theorem namesOf_place (entry : RegisteredTool) (entries : List RegisteredTool) :
    namesOf (place entry entries) =
      if entry.tool.name ∈ namesOf entries then namesOf entries
      else namesOf entries ++ [entry.tool.name] := by
  induction entries with
  | nil => rfl
  | cons first rest ih =>
      by_cases same : first.tool.name = entry.tool.name
      · simp [place, same, namesOf]
      · have other : entry.tool.name ≠ first.tool.name := Ne.symm same
        simp only [namesOf] at ih
        by_cases known : entry.tool.name ∈ rest.map (·.tool.name)
        · simp [place, same, namesOf, ih, known]
        · simp [place, same, namesOf, ih, known, other]

/-- A registration is found under its name, and under other names what was there before. -/
theorem find?_place (entry : RegisteredTool) (entries : List RegisteredTool) (name : String) :
    (place entry entries).find? (·.tool.name == name) =
      if entry.tool.name = name then some entry else entries.find? (·.tool.name == name) := by
  induction entries with
  | nil =>
      by_cases asked : entry.tool.name = name
      · simp [place, asked]
      · simp [place, asked]
  | cons first rest ih =>
      by_cases same : first.tool.name = entry.tool.name
      · by_cases asked : entry.tool.name = name
        · simp [place, same, asked]
        · simp [place, same, asked]
      · rw [Server.place, if_neg same]
        by_cases asked : first.tool.name = name
        · have other : entry.tool.name ≠ name := fun equal => same (asked.trans equal.symm)
          rw [List.find?_cons_of_pos (by simpa using asked), if_neg other,
            List.find?_cons_of_pos (by simpa using asked)]
        · rw [List.find?_cons_of_neg (by simpa using asked), ih,
            List.find?_cons_of_neg (by simpa using asked)]

theorem lastUnder_concat (history : List RegisteredTool) (entry : RegisteredTool) (name : String) :
    lastUnder (history ++ [entry]) name =
      if entry.tool.name = name then some entry else lastUnder history name := by
  unfold lastUnder
  rw [List.filter_append, List.getLast?_append]
  by_cases asked : entry.tool.name = name
  · simp [asked]
  · simp [asked]

theorem lastUnder_eq_none {history : List RegisteredTool} {name : String} :
    lastUnder history name = none ↔ name ∉ namesOf history := by
  unfold lastUnder namesOf
  rw [List.getLast?_eq_none_iff, List.filter_eq_nil_iff]
  simp

theorem name_of_lastUnder {history : List RegisteredTool} {name : String} {entry : RegisteredTool}
    (last : lastUnder history name = some entry) : entry.tool.name = name := by
  have kept := List.mem_of_getLast? last
  simpa using (List.mem_filter.mp kept).2

/-- **One registration.** A tool takes the place of the one with its name, or comes last. -/
theorem Records.place {history registered : List RegisteredTool}
    (records : Records history registered) (entry : RegisteredTool) :
    Records (history ++ [entry]) (place entry registered) := by
  have known : entry.tool.name ∈ namesOf history ↔ entry.tool.name ∈ namesOf registered := by
    rw [records.order, List.mem_eraseDups]
  refine ⟨?_, ?_, ?_⟩
  · rw [namesOf_place]
    split
    · exact records.distinct
    · rename_i fresh
      exact List.nodup_append.mpr ⟨records.distinct, List.nodup_singleton _, by
        intro one inside other last same
        exact fresh (List.mem_singleton.mp last ▸ same ▸ inside)⟩
  · have appended : namesOf (history ++ [entry]) = namesOf history ++ [entry.tool.name] :=
      List.map_append
    rw [namesOf_place, appended, List.eraseDups_append, ← records.order]
    by_cases seen : entry.tool.name ∈ namesOf history
    · simp [List.removeAll, seen, known.mp seen]
    · simp [List.removeAll, seen, known.not.mp seen, List.eraseDups_cons]
  · intro name
    rw [find?_place, lastUnder_concat, records.found]

/-- A list that records a history records it with the next registrations. -/
theorem Records.foldl_place {history registered : List RegisteredTool}
    (records : Records history registered) (entries : List RegisteredTool) :
    Records (history ++ entries)
      (entries.foldl (fun registered entry => Server.place entry registered) registered) := by
  induction entries generalizing history registered with
  | nil => rwa [List.append_nil]
  | cons entry rest ih =>
      rw [List.append_cons]
      exact ih (records.place entry)

/-- A toolbox is registered tool by tool. -/
theorem registered_registerToolbox (server : Server) (toolbox : Toolbox) :
    (server.registerToolbox toolbox).registered =
      (ServerEvent.toolbox toolbox).registers.foldl
        (fun registered entry => Server.place entry registered) server.registered := by
  unfold registerToolbox ServerEvent.registers
  rw [List.foldl_map]
  induction toolbox.tools generalizing server with
  | nil => rfl
  | cons tool rest ih => exact ih (server.registerTool tool (some (toolbox.call tool.name)))

/-- **One event.** An event changes the tools by what it registers. -/
theorem Records.after {history : List RegisteredTool} {server : Server}
    (records : Records history server.registered) (event : ServerEvent) :
    Records (history ++ event.registers) (server.after event).registered := by
  cases event with
  | tool tool handler => exact records.place ⟨tool, handler⟩
  | toolbox toolbox =>
      rw [Server.after, registered_registerToolbox]
      exact records.foldl_place _
  | message text =>
      rw [Server.after, handle_server]
      exact (List.append_nil history).symm ▸ records
  | resource resource => exact (List.append_nil history).symm ▸ records
  | method method handler => exact (List.append_nil history).symm ▸ records
  | hook hook => exact (List.append_nil history).symm ▸ records

/-- **Whole runs.** After a run the tools are those that its events registered, in order. -/
theorem Records.run {history : List RegisteredTool} {server : Server}
    (records : Records history server.registered) (events : List ServerEvent) :
    Records (history ++ events.flatMap ServerEvent.registers) (server.run events).registered := by
  induction events generalizing history server with
  | nil => rwa [List.flatMap_nil, List.append_nil]
  | cons event rest ih =>
      rw [List.flatMap_cons, ← List.append_assoc]
      exact ih (records.after event)

/-- What a call of a tool comes to, given the registrations so far: what it comes to for the last
one under its name. -/
def callUnder (history : List RegisteredTool) (params : CallToolParams) :
    Except Failure CallToolResult :=
  match lastUnder history params.name with
  | some entry => callOutcome entry params
  | none => .error (.error (.toolNotFound params.name))

/-- A call comes to what the last registration of its name comes to. -/
theorem Records.callTool {history : List RegisteredTool} {server : Server}
    (records : Records history server.registered) (params : CallToolParams) :
    server.callTool params = callUnder history params := by
  have found := records.found params.name
  unfold callUnder
  cases last : lastUnder history params.name with
  | some entry => exact callTool_of_found (found.trans last)
  | none =>
      unfold Server.callTool
      rw [found, last]

theorem Records.tool_eq {history : List RegisteredTool} {server : Server}
    (records : Records history server.registered) {tool : Tool} (listed : tool ∈ server.tools) :
    (lastUnder history tool.name).map (·.tool) = some tool := by
  obtain ⟨entry, inside, rfl⟩ := List.mem_map.mp listed
  have distinct : (server.registered.filterMap fun other => some other.tool.name).Nodup := by
    rw [List.filterMap_eq_map']
    exact records.distinct
  have found := find?_of_nodup_filterMap distinct inside rfl
  simp only [Option.some_beq_some] at found
  rw [← records.found, found, Option.map_some]

/-- A text is a request of the current version that lists the tools. -/
def IsListing (text : String) (id : Json) : Prop :=
  ∃ request params, Request.read text = .ok request ∧ request.id = some id ∧
    request.jsonrpc = messageVersion ∧ request.method = Method.listTools.name ∧
    readParams Method.listTools.params request.params = .ok params

theorem builtIn_listTools (server : Server) :
    server.builtIn Method.listTools.name =
      responder Method.listTools fun _ => .ok ⟨server.tools⟩ := by
  have handshake : Method.listTools.name ≠ Method.handshake.name := by decide
  have ping : Method.listTools.name ≠ Method.ping.name := by decide
  simp only [builtIn, handshake, ping, ↓reduceIte]

/-- A request for the tools is answered with all of them, once the server answers for itself. -/
theorem handle_of_isListing {server : Server} {text : String} {id : Json}
    (asks : IsListing text id)
    (passes : server.configuration.strict = false ∨ server.initialized = true)
    (own : server.responders.lookup Method.listTools.name = none) :
    (server.handle text).1 =
      .answer (.success id (ListToolsResult.encode ⟨server.tools⟩).sorted) := by
  obtain ⟨request, params, read, identified, current, named, readable⟩ := asks
  rw [handle_of_passing read identified current passes (named ▸ own), named, builtIn_listTools,
    responder_of_read Method.listTools _ readable]
  rfl

/-- The answer to a call with no handler to run differs from that to a call of an unknown tool. -/
theorem message_toolImplementationRequired_ne (name : String) :
    (ProtocolError.toolImplementationRequired name).message ≠ "Tool not found: " ++ name := by
  intro same
  have lengths := congrArg String.length same
  change ("Tool implementation required: " ++ name).length = _ at lengths
  rw [String.length_append, String.length_append] at lengths
  have different : "Tool implementation required: ".length ≠ "Tool not found: ".length := by decide
  exact different (Nat.add_right_cancel lengths)

theorem outcomeOf_ne_error (result : Except Failure (List Content)) (error : ProtocolError) :
    outcomeOf result ≠ .error (.error error) := by
  match result with
  | .ok content => exact nofun
  | .error (.error error) => exact nofun
  | .error .crash => exact nofun

theorem Reaction.of_eq_failure {id : Json} {result : Except Failure Json} {error : ProtocolError}
    (answered : Reaction.of id result = .answer (.failure id error)) :
    result = .error (.error error) := by
  match result with
  | .ok value => cases answered
  | .error (.error other) =>
      cases answered
      rfl
  | .error .crash => cases answered

/-- A call fails for an unknown tool exactly when its name was never registered. -/
theorem callUnder_not_found_iff (history : List RegisteredTool) (params : CallToolParams)
    (id : Json) :
    (∃ error : ProtocolError,
      Reaction.of id ((callUnder history params).map fun result => result.encode.sorted) =
        .answer (.failure id error) ∧ error.message = "Tool not found: " ++ params.name) ↔
      params.name ∉ namesOf history := by
  rw [← lastUnder_eq_none]
  unfold callUnder
  cases last : lastUnder history params.name with
  | none => exact ⟨fun _ => rfl, fun _ => ⟨.toolNotFound params.name, rfl, rfl⟩⟩
  | some entry =>
      refine ⟨?_, nofun⟩
      rintro ⟨error, answered, told⟩
      have failed := Reaction.of_eq_failure answered
      obtain ⟨tool, handler⟩ := entry
      cases handler with
      | none =>
          cases failed
          exact absurd told (message_toolImplementationRequired_ne params.name)
      | some handler =>
          -- A handler that fails is answered with a result that says so.
          cases outcome : outcomeOf (handler params.arguments) with
          | ok result =>
              simp only [callOutcome, outcome] at failed
              cases failed
          | error failure =>
              simp only [callOutcome, outcome] at failed
              cases failed
              exact absurd outcome (outcomeOf_ne_error _ _)

/-- **The registry of tools.** Over every run from a new server, the tools have different names:
those that were registered, in the order in which they came first, each as it was registered last.
Once the server answers for itself, it lists exactly these tools, and a call runs the handler of the
last registration under its name, or fails when that has none. A call fails because there is no such
tool exactly when its name was never registered. -/
theorem registry_over_runs (name version : String) (capabilities : ServerCapabilities)
    (configuration : Configuration) (events : List ServerEvent) :
    let server := (make name version capabilities configuration).run events
    let history := events.flatMap ServerEvent.registers
    (server.tools.map (·.name)).Nodup ∧
    server.tools.map (·.name) = (namesOf history).eraseDups ∧
    (∀ tool ∈ server.tools, (lastUnder history tool.name).map (·.tool) = some tool) ∧
    (configuration.strict = false ∨ server.initialized = true →
      (server.responders.lookup Method.listTools.name = none → ∀ text id, IsListing text id →
        (server.handle text).1 =
          .answer (.success id (ListToolsResult.encode ⟨server.tools⟩).sorted)) ∧
      (server.responders.lookup Method.callTool.name = none → ∀ text id params,
        IsToolCall text id params →
          (server.handle text).1 = Reaction.of id
            ((callUnder history params).map fun result => result.encode.sorted) ∧
          ((∃ error : ProtocolError, (server.handle text).1 = .answer (.failure id error) ∧
            error.message = "Tool not found: " ++ params.name) ↔
              params.name ∉ namesOf history))) := by
  intro server history
  have records : Records history server.registered := by
    have fresh : Records [] (make name version capabilities configuration).registered := records_nil
    exact fresh.run events
  have names : server.tools.map (·.name) = namesOf server.registered := List.map_map
  have configured : server.configuration = configuration := configuration_run _ events
  refine ⟨names ▸ records.distinct, names.trans records.order, fun tool => records.tool_eq, ?_⟩
  intro passes
  rw [← configured] at passes
  refine ⟨fun own text id asks => handle_of_isListing asks passes own, ?_⟩
  intro own text id params call
  have answered := handle_of_isToolCall call passes own
  rw [records.callTool params] at answered
  refine ⟨answered, ?_⟩
  rw [answered]
  exact callUnder_not_found_iff history params id

/-- A toolbox with two tools, of which one is listed twice. -/
def twice : Toolbox :=
  ⟨⟨"twice", ""⟩, [⟨"say", "first", none⟩, ⟨"echo", "boxed", none⟩, ⟨"say", "second", none⟩],
    fun name _ => .ok [.text name]⟩

/-- A tool without a handler that a toolbox replaces keeps its place and is run by the toolbox. -/
theorem registry_over_runs_of_twice :
    let server := (make "s" "1" {} {}).run [.tool ⟨"echo", "bare", none⟩ none, .toolbox twice]
    server.tools.map (·.name) = ["echo", "say"] ∧
      server.tools.map (·.description) = ["boxed", "second"] ∧
      (server.handle echoCall).1 = .of (.integer 1)
        ((outcomeOf (.ok [.text "echo"])).map fun result => result.encode.sorted) ∧
      ∃ error : ProtocolError, (server.handle typeCall).1 = .answer (.failure (.integer 1) error) ∧
        error.message = "Tool not found: type" := by
  intro server
  obtain ⟨_, order, _, answers⟩ := registry_over_runs "s" "1" {} {}
    [.tool ⟨"echo", "bare", none⟩ none, .toolbox twice]
  obtain ⟨_, calls⟩ := answers (.inl rfl)
  refine ⟨order, rfl, (calls rfl echoCall _ _ isToolCall_echoCall).1, ?_⟩
  exact (calls rfl typeCall _ _ isToolCall_typeCall).2.mpr (by decide)

end Server

end Toolsmith
