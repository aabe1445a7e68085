import Mathlib
import Toolsmith.Expansion.Meaning
import Toolsmith.Proofs.Source.StringLiteral

/-! # What made functions do

The printed bodies of made functions are read back as routines and run. For a body of fixed length
this is a computation; where it has as many arms, elements or statements as a block has tools, the
reader is followed over the list. Each function comes down to calls of functions of the type: the
dispatch to one call chosen by name (`result?_dispatch`), the factory to one registration after
another (`runAll_registrations`).
-/

namespace Toolsmith

open Source

namespace Value

@[simp] theorem outcome_ofOutcome (result : Except Failure (List Content)) :
    outcome contents? (ofOutcome result) = result := by
  have contents (values : List Content) : (values.map content).mapM content? = some values := by
    induction values with
    | nil => rfl
    | cons first rest ih => simp only [List.map_cons, List.mapM_cons, content?, ih]; rfl
  rcases result with problem | values
  · cases problem <;> rfl
  · simp only [ofOutcome, outcome, contents?, contents]

theorem tools?_map (tools : List Tool) : (list (tools.map tool)).tools? = some tools := by
  unfold tools?
  induction tools with
  | nil => rfl
  | cons first rest ih => simp only [List.map_cons, List.mapM_cons, tool?, ih]; rfl

theorem texts_map (texts : List String) : (texts.map text).mapM text? = some texts := by
  induction texts with
  | nil => rfl
  | cons first rest ih => simp only [List.map_cons, List.mapM_cons, text?, ih]; rfl

end Value

namespace Routine

/-- A part that is followed by a mark is divided off. -/
theorem divide_append {mark : Char} {part : List Tree}
    (whole : ∀ joint, Tree.punct mark joint ∉ part) (joint : Bool) (rest : List Tree) :
    divide mark (part ++ .punct mark joint :: rest) = part :: divide mark rest := by
  induction part with
  | nil => simp only [List.nil_append, divide, ↓reduceIte]
  | cons tree part ih =>
      have later := ih fun joint inside => whole joint (.tail tree inside)
      cases tree with
      | punct found other =>
          have differs : found ≠ mark := by
            rintro rfl
            exact whole other (.head part)
          simp only [List.cons_append, divide, differs, ↓reduceIte, later]
      | _ => simp only [List.cons_append, divide, later]

/-- Code without the mark is one part. -/
theorem divide_of_whole {mark : Char} {part : List Tree}
    (whole : ∀ joint, Tree.punct mark joint ∉ part) : divide mark part = [part] := by
  induction part with
  | nil => rfl
  | cons tree part ih =>
      have later := ih fun joint inside => whole joint (.tail tree inside)
      cases tree with
      | punct found other =>
          have differs : found ≠ mark := by
            rintro rfl
            exact whole other (.head part)
          simp only [divide, differs, ↓reduceIte, later]
      | _ => simp only [divide, later]

/-- Parts with commas between them are the elements. -/
theorem elements_commas {parts : List (List Tree)} (some : ∀ part ∈ parts, part ≠ [])
    (whole : ∀ part ∈ parts, ∀ joint, Tree.punct ',' joint ∉ part) :
    elements (commas parts) = parts := by
  have divided : parts ≠ [] → divide ',' (commas parts) = parts := by
    unfold commas
    induction parts with
    | nil => exact fun none => absurd rfl none
    | cons first rest ih =>
        intro _
        rw [List.forall_mem_cons] at some whole
        cases rest with
        | nil => exact divide_of_whole whole.1
        | cons second rest =>
            have later := ih some.2 whole.2 (List.cons_ne_nil _ _)
            change divide ',' (first ++ op "," ++ separated (op ",") (second :: rest)) = _
            rw [List.append_assoc]
            exact (divide_append whole.1 false _).trans (congrArg (first :: ·) later)
  cases parts with
  | nil => rfl
  | cons first rest =>
      unfold elements
      rw [divided (List.cons_ne_nil _ _)]
      have last := List.getLast?_eq_some_getLast (List.cons_ne_nil first rest)
      have filled := some _ (List.getLast_mem (List.cons_ne_nil first rest))
      simp only [last, Option.getD_some, List.isEmpty_iff, filled, ↓reduceIte]

end Routine

/-! ### Listing -/

/-- The expression by which a function is called. -/
def Call.term (target : Call) (arguments : List Term) : Term :=
  match target.style with
  | .method | .associated => .ownCall target.callee.name arguments
  | .associatedWithSelf => .ownCall target.callee.name (.named "self" :: arguments)

theorem Call.print_ne_nil (target : Call) (arguments : List (List Tree)) :
    target.print arguments ≠ [] := by
  obtain ⟨style, callee⟩ := target
  cases style <;> exact List.cons_ne_nil _ _

theorem Call.not_mem_print (target : Call) (arguments : List (List Tree)) (joint : Bool) :
    Tree.punct ',' joint ∉ target.print arguments := by
  obtain ⟨style, callee⟩ := target
  cases style <;>
    simp [Call.print, Source.call, name, op, marks, paren]

theorem Call.readTerm_print (target : Call) (depth : Nat) :
    Routine.readTerm (depth + 2) (target.print []) = some (target.term []) := by
  obtain ⟨style, callee⟩ := target
  cases style <;> rfl

/-- Printed calls between commas are read as these calls. -/
theorem Routine.readAll_prints (depth : Nat) (targets : List Call) :
    readAll (readTerm (depth + 2)) (commas (targets.map (Call.print · []))) =
      some (targets.map (Call.term · [])) := by
  unfold readAll
  rw [elements_commas]
  · rw [List.mapM_map]
    induction targets with
    | nil => rfl
    | cons first rest ih =>
        rw [List.mapM_cons, ih, Function.comp_apply, first.readTerm_print depth]
        rfl
  · rintro _ inside
    obtain ⟨target, _, rfl⟩ := List.mem_map.mp inside
    exact target.print_ne_nil []
  · rintro _ inside
    obtain ⟨target, _, rfl⟩ := List.mem_map.mp inside
    exact target.not_mem_print []

/-- The limit on nesting leaves room for what is nested in a body. -/
theorem exists_nestingLimit : ∃ depth, nestingLimit = depth + 8 := ⟨nestingLimit - 8, by decide⟩

/-- The list of what is called. -/
theorem read_listOf (targets : List Call) :
    Routine.read (Generated.listOf (targets.map (Call.print · []))) =
      some ⟨[], some (.list (targets.map (Call.term · [])))⟩ := by
  obtain ⟨depth, limit⟩ := exists_nestingLimit
  have elements := Routine.readAll_prints (depth + 5) targets
  unfold Routine.read Routine.readExpression
  rw [limit]
  change (do
    let result ← some <$> (do
      let found ← (do
        let elements ← Routine.readAll (Routine.readTerm (depth + 7)) _
        return (Term.list elements, []))
      Routine.readTail (Routine.readTerm (depth + 7)) found.1 found.2)
    return Routine.mk [] result) = _
  rw [elements]
  rfl

/-- A call of a function of the type, with a receiver or without. -/
theorem Call.eval_term (target : Call) (scope : Scope) {locals : Locals}
    (held : locals.lookup "self" = some .self) {arguments : List Term} {values : List Value}
    (evaluated : Term.evalAll scope arguments locals = some values)
    (plain : values.filter (!·.isSelf) = values) :
    (target.term arguments).eval scope locals = scope.call target.callee.name values := by
  obtain ⟨style, callee⟩ := target
  cases style with
  | method | associated =>
      simp only [Call.term, Term.eval, evaluated, Option.bind_eq_bind, Option.bind_some, plain]
  | associatedWithSelf =>
      simp only [Call.term, Term.eval, Term.evalAll, held, evaluated, Option.bind_eq_bind,
        Option.bind_some, Option.pure_def]
      rw [List.filter_cons_of_neg (by decide), plain]

/-- A function whose body is one expression returns what that comes to. -/
theorem result?_of_expression {item : Function} {term : Term} {arguments : List Value}
    {locals : Locals} (read : Routine.read item.body = some ⟨[], some term⟩)
    (started : item.start? arguments = some locals) (scope : Scope) :
    item.result? scope arguments = term.eval scope locals := by
  simp only [Function.result?, Function.after?, read, started, Option.bind_eq_bind,
    Option.bind_some, Statement.runAll]

/-- **Listing.** The function that lists the tools of a toolbox calls the accessors in order. -/
theorem result?_tools (scope : Scope) (accessors : List Call) :
    (Generated.toolboxTools none accessors).function.result? scope [.self] =
      (accessors.mapM fun accessor => scope.call accessor.callee.name []).map .list := by
  have evaluated (targets : List Call) :
      Term.evalAll scope (targets.map (Call.term · [])) [("self", .self)] =
        targets.mapM fun accessor => scope.call accessor.callee.name [] := by
    induction targets with
    | nil => rfl
    | cons first rest ih =>
        rw [List.map_cons, Term.evalAll, ih, List.mapM_cons, first.eval_term scope rfl rfl rfl]
  have started : (Generated.toolboxTools none accessors).function.start? [.self] =
      some [("self", .self)] := rfl
  rw [result?_of_expression (read_listOf accessors) started, Term.eval, evaluated]
  exact bind_pure_comp _ _

/-! ### Dispatch -/

namespace Generated

/-- The code of the arm of a tool. -/
def armCode (arm : String × String) : List Tree :=
  [.literal arm.1] ++ op "=>" ++ method [name "self"] ("execute_" ++ arm.2) [[name "arguments"]]

/-- The code of the arm for all other names. -/
def elseCode : List Tree :=
  [name "_"] ++ op "=>" ++
    call (resultPath ["Err"]) [call (runtimePath ["McpError", "tool_not_found"]) [[name "name"]]]

theorem dispatchBody_eq (arms : List (String × String)) :
    dispatchBody arms = [name "match", name "name",
      brace (arms.flatMap (fun arm => armCode arm ++ op ",") ++ (elseCode ++ op ","))] := by
  unfold dispatchBody elseCode
  simp only [List.append_assoc]
  rfl

/-- The choice among the names of tools. -/
def dispatchTerm (arms : List (String × String)) : Term :=
  arms.foldr
    (fun arm => .arm "name" arm.1 (.ownCall ("execute_" ++ arm.2) [.named "arguments"]))
    (.call ["core", "result", "Result", "Err"]
      [.call [runtimeCrate, "McpError", "tool_not_found"] [.named "name"]])

/-- The arms of a printed choice are its elements. -/
theorem elements_arms (arms : List (String × String)) :
    Routine.elements (arms.flatMap (fun arm => armCode arm ++ op ",") ++ (elseCode ++ op ",")) =
      arms.map armCode ++ [elseCode] := by
  have divided (arms : List (String × String)) :
      Routine.divide ',' (arms.flatMap (fun arm => armCode arm ++ op ",") ++
        (elseCode ++ op ",")) = (arms.map armCode ++ [elseCode]) ++ [[]] := by
    induction arms with
    | nil => rfl
    | cons arm rest ih => exact congrArg (armCode arm :: ·) ih
  simp only [Routine.elements, divided, List.getLast?_concat, List.dropLast_concat,
    Option.getD_some, List.isEmpty_nil, ↓reduceIte]

/-- Printed arms are read as a choice by the name of the tool. -/
theorem readArms_arms (depth : Nat) (arms : List (String × String)) :
    Routine.readArms (Routine.readTerm (depth + 4)) "name" (arms.map armCode ++ [elseCode]) =
      some (dispatchTerm arms) := by
  induction arms with
  | nil => rfl
  | cons arm rest ih =>
      change ((Routine.readArms _ "name" (rest.map armCode ++ [elseCode])).bind fun negative =>
        some (Term.arm "name" arm.1 (.ownCall ("execute_" ++ arm.2) [.named "arguments"])
          negative)) = _
      rw [ih]
      rfl

/-- The printed body that runs a tool is read as the choice among the tools. -/
theorem read_dispatchBody (arms : List (String × String)) :
    Routine.read (dispatchBody arms) = some ⟨[], some (dispatchTerm arms)⟩ := by
  obtain ⟨depth, limit⟩ := exists_nestingLimit
  unfold Routine.read Routine.readExpression
  rw [limit, dispatchBody_eq]
  change (((Routine.readArms (Routine.readTerm (depth + 7)) "name" (Routine.elements _)).map
    some).bind fun term => some (Routine.mk [] term)) = _
  rw [elements_arms, readArms_arms]
  rfl

end Generated

theorem read_toolboxDispatch (arms : List (String × String)) (idle : Bool) :
    Routine.read (Generated.toolboxDispatch none arms idle).function.body =
      some ⟨[], some (Generated.dispatchTerm arms)⟩ := by
  rw [← Generated.read_dispatchBody]
  cases idle <;> rfl

/-- **Choosing by name.** The first arm whose literal has the name as its value is taken. -/
theorem eval_dispatchTerm (scope : Scope) {locals : Locals} {tool : String} {arguments : Arguments}
    (named : locals.lookup "name" = some (.text tool))
    (given : locals.lookup "arguments" = some (.arguments arguments))
    (arms : List (String × String)) :
    (Generated.dispatchTerm arms).eval scope locals =
      match arms.find? fun arm => stringValue? arm.1 == some tool with
      | some arm => scope.call ("execute_" ++ arm.2) [.arguments arguments]
      | none => some (.refusal (.toolNotFound tool)) := by
  induction arms with
  | nil =>
      simp only [Generated.dispatchTerm, List.foldr_nil, Term.eval, Term.evalAll, named,
        Option.bind_eq_bind, Option.bind_some, Option.pure_def]
      rfl
  | cons arm rest ih =>
      change Term.eval scope (.arm "name" arm.1 _ (Generated.dispatchTerm rest)) locals = _
      by_cases chosen : stringValue? arm.1 = some tool
      · rw [List.find?_cons_of_pos (by simpa using chosen)]
        simp only [Term.eval, Term.evalAll, named, given, chosen, ↓reduceIte, Option.bind_eq_bind,
          Option.bind_some, Option.pure_def]
        rfl
      · rw [List.find?_cons_of_neg (by simpa using chosen), ← ih]
        simp only [Term.eval, named, chosen, ↓reduceIte, Option.bind_eq_bind, Option.bind_some]

/-- **Dispatch.** The function that runs tools by name calls the function of the property that the
name belongs to, with the same arguments, and else reports that there is no such tool. -/
theorem result?_dispatch (scope : Scope) (arms : List (String × String)) (idle : Bool)
    (tool : String) (arguments : Arguments) :
    (Generated.toolboxDispatch none arms idle).function.result? scope
        [.self, .text tool, .arguments arguments] =
      match arms.find? fun arm => stringValue? arm.1 == some tool with
      | some arm => scope.call ("execute_" ++ arm.2) [.arguments arguments]
      | none => some (.refusal (.toolNotFound tool)) := by
  have started : (Generated.toolboxDispatch none arms idle).function.start?
      [.self, .text tool, .arguments arguments] =
        some [("self", .self), ("name", .text tool), ("arguments", .arguments arguments)] := by
    cases idle <;> rfl
  rw [result?_of_expression (read_toolboxDispatch arms idle) started]
  exact eval_dispatchTerm scope rfl rfl arms

theorem fill_placeholder (tool arguments : String) :
    fill "Tool '\x7b\x7d' executed (arguments: \x7b\x7d)".toList [tool, arguments] =
      some ("Tool '" ++ tool ++ "' executed (arguments: " ++ arguments ++ ")").toList := by
  simp [fill]

/-- The text that a tool without a handler answers with. -/
def placeholderText (tool : String) (arguments : Arguments) : String :=
  "Tool '" ++ tool ++ "' executed (arguments: " ++ (Json.object arguments).text ++ ")"

/-- **Running a tool.** A function that was made for a tool with a handler calls the handler with
the same arguments. -/
theorem result?_execute_handler (scope : Scope) (property : String) (target : Call)
    (arguments : Arguments) :
    (Generated.execute property (.handler target)).function.result? scope
        [.self, .arguments arguments] = scope.call target.callee.name [.arguments arguments] := by
  have read : Routine.read (target.print [[name "arguments"]]) =
      some ⟨[], some (target.term [.named "arguments"])⟩ := by
    obtain ⟨style, callee⟩ := target
    cases style <;> rfl
  have started : (Generated.execute property (.handler target)).function.start?
      [.self, .arguments arguments] =
        some [("self", .self), ("arguments", .arguments arguments)] := rfl
  rw [result?_of_expression read started]
  exact target.eval_term scope rfl rfl rfl

/-- A function that was made for a tool without a handler answers with a text that names the tool
and the arguments. -/
theorem result?_execute_placeholder (scope : Scope) (property : String) {literal tool : String}
    (valued : stringValue? literal = some tool) (arguments : Arguments) :
    (Generated.execute property (.placeholder literal)).function.result? scope
        [.self, .arguments arguments] =
      Value.ofOutcome (.ok [.text (placeholderText tool arguments)]) := by
  let shape := "Tool '\x7b\x7d' executed (arguments: \x7b\x7d)"
  let text : Term := .format [.literal (Text.literal shape), .literal literal,
    .call [runtimeCrate, "__private", "serde_json", "Value", "Object"] [.named "arguments"]]
  let locals : Locals := [("self", .self), ("arguments", .arguments arguments)]
  have read : Routine.read (Generated.executionBody (.placeholder literal)) =
      some ⟨[], some (.call ["core", "result", "Result", "Ok"]
        [.list [.call [runtimeCrate, "Content", "text"] [text]]])⟩ := rfl
  have started : (Generated.execute property (.placeholder literal)).function.start?
      [.self, .arguments arguments] = some locals := rfl
  have shown : text.eval scope locals = some (.text (placeholderText tool arguments)) := by
    have filled := fill_placeholder tool (Json.object arguments).text
    simp only [text, Term.eval, Term.evalAll, stringValue?_literal, valued, Option.map_some,
      Option.bind_eq_bind, Option.bind_some, Option.pure_def]
    change (do
      let filled ← fill shape.toList [tool, (Json.object arguments).text]
      return Value.text (String.ofList filled)) = _
    rw [filled]
    exact congrArg (some ∘ Value.text) String.ofList_toList
  rw [result?_of_expression read started]
  simp only [Term.eval, Term.evalAll, shown, Option.bind_eq_bind, Option.bind_some, Option.pure_def]
  rfl

/-! ### Registering -/

/-- The expression of the handler that a tool is registered with. -/
def HandlerReference.term : HandlerReference → Term
  | .none => .item ["core", "option", "Option", "None"]
  | .synchronous handler => .call ["core", "option", "Option", "Some"]
    [.call [runtimeCrate, "ToolHandler", "from_fn"] [.own handler.name]]
  | .asynchronous handler => .call ["core", "option", "Option", "Some"]
    [.call [runtimeCrate, "ToolHandler", "new"] [.own handler.name]]

/-- The statement that registers a tool. -/
def Registration.statement (registration : Registration) : Statement :=
  .register "server" (.ownCall registration.property.name []) registration.handler.term

/-- The code of the statement that registers a tool, without its semicolon. -/
def Registration.code (registration : Registration) : List Tree :=
  (Generated.registerStatement registration).dropLast

theorem Registration.readStatement_code (registration : Registration) :
    Routine.readStatement registration.code = some registration.statement := by
  obtain ⟨property, handler⟩ := registration
  cases handler <;> rfl

theorem mapM_readStatement (registrations : List Registration) :
    (registrations.map Registration.code).mapM Routine.readStatement =
      some (registrations.map Registration.statement) := by
  induction registrations with
  | nil => rfl
  | cons registration rest ih =>
      rw [List.map_cons, List.mapM_cons, registration.readStatement_code, ih]
      rfl

/-- The code between the parentheses of the call that makes a server. -/
def Settings.code (settings : Settings) : List Tree :=
  commas [settings.name.print, settings.version.print, settings.capabilities.print,
    settings.configuration.print]

/-- The statements of a factory: it makes a server and then registers the tools. -/
def factoryStatements (settings : Settings) (registrations : List Registration) : List Statement :=
  .bind "server" (.newServer settings.code) :: registrations.map Registration.statement

/-- The printed body of a factory is read as its statements, and gives back the server. -/
theorem read_createServer (settings : Settings) (registrations : List Registration) :
    Routine.read (Generated.createServer settings registrations).function.body =
      some ⟨factoryStatements settings registrations, some (.named "server")⟩ := by
  let start : List Tree := [name "let", name "server"] ++ op "=" ++
    call (runtimePath ["Server", "new"]) [settings.name.print, settings.version.print,
      settings.capabilities.print, settings.configuration.print]
  have registering : Routine.divide ';'
      (registrations.flatMap Generated.registerStatement ++ [name "server"]) =
        registrations.map Registration.code ++ [[name "server"]] := by
    induction registrations with
    | nil => rfl
    | cons registration rest ih =>
        obtain ⟨property, handler⟩ := registration
        cases handler <;> exact congrArg (_ :: ·) ih
  have divided : Routine.divide ';' (Generated.createServer settings registrations).function.body =
      (start :: registrations.map Registration.code) ++ [[name "server"]] := by
    change Routine.divide ';' (Generated.newServer settings ++
      registrations.flatMap Generated.registerStatement ++ [name "server"]) = _
    rw [List.append_assoc]
    exact congrArg (start :: ·) registering
  have statements : (start :: registrations.map Registration.code).mapM Routine.readStatement =
      some (factoryStatements settings registrations) := by
    have first : Routine.readStatement start =
        some (.bind "server" (.newServer settings.code)) := rfl
    rw [List.mapM_cons, first, mapM_readStatement]
    rfl
  simp only [Routine.read, divided, List.dropLast_concat, List.getLast?_concat, statements]
  rfl

/-- What a registration puts into a server, where the accessor of the property gives the tool and
the handler is of the kind that it is registered as. -/
structure Registration.Yields (scope : Scope) (registration : Registration)
    (entry : RegisteredTool) : Prop where
  tool : scope.call registration.property.name [] = some (.tool entry.tool)
  handler : match registration.handler with
    | .none => entry.handler = none
    | .synchronous handler =>
      scope.awaits handler.name = false ∧ entry.handler = some (scope.handler handler.name)
    | .asynchronous handler =>
      scope.awaits handler.name = true ∧ entry.handler = some (scope.handler handler.name)

/-- A server under its name, with these tools besides. -/
def Server.filed (server : Server) (entries : List RegisteredTool) : Server :=
  { server with
    registered := entries.foldl (fun known entry => place entry known) server.registered }

theorem eval_some {scope : Scope} {locals : Locals} {term : Term} {value : Value}
    (evaluated : term.eval scope locals = some value) :
    Term.eval scope (.call ["core", "option", "Option", "Some"] [term]) locals =
      some (.present value) := by
  simp only [Term.eval, Term.evalAll, evaluated, Option.bind_eq_bind, Option.bind_some]
  rfl

/-- **One registration.** The statement puts the tool of the property and its handler into the
server. -/
theorem run_registration {scope : Scope} {registration : Registration} {entry : RegisteredTool}
    (yields : registration.Yields scope entry) {locals : Locals} {server : Server}
    (held : locals.lookup "server" = some (.server server)) :
    registration.statement.run scope locals =
      some (("server", .server (server.registerTool entry.tool entry.handler)) :: locals) := by
  obtain ⟨property, reference⟩ := registration
  obtain ⟨described, run⟩ := entry
  have tool : Term.eval scope (.ownCall property.name []) locals = some (.tool described) :=
    yields.tool
  have handler : reference.term.eval scope locals =
      some (run.elim .absent fun run => .present (.handler run)) := by
    have kind := yields.handler
    cases reference with
    | none =>
        obtain rfl : run = none := kind
        rfl
    | synchronous target =>
        obtain ⟨kind, rfl⟩ : _ ∧ run = some (scope.handler target.name) := kind
        exact eval_some (if_neg (ne_true_of_eq_false kind))
    | asynchronous target =>
        obtain ⟨kind, rfl⟩ : _ ∧ run = some (scope.handler target.name) := kind
        exact eval_some (if_pos kind)
  simp only [Registration.statement, Statement.run, held, tool, handler, Option.bind_eq_bind,
    Option.bind_some, Value.server?, Value.tool?]
  cases run <;> rfl

/-- **Registrations in a row.** After the statements that register tools, the server holds what the
registrations put into it, one after another. -/
theorem runAll_registrations {scope : Scope} {registrations : List Registration}
    {entries : List RegisteredTool}
    (yields : List.Forall₂ (Registration.Yields scope) registrations entries) {locals : Locals}
    {server : Server} (held : locals.lookup "server" = some (.server server)) :
    ∃ later, Statement.runAll scope (registrations.map Registration.statement) locals = some later ∧
      later.lookup "server" = some (.server (server.filed entries)) := by
  induction yields generalizing locals server with
  | nil => exact ⟨locals, rfl, held⟩
  | @cons registration entry _ _ first _ ih =>
      have held' : (("server", Value.server (server.registerTool entry.tool entry.handler)) ::
          locals).lookup "server" = some (.server (server.registerTool entry.tool entry.handler)) :=
        List.lookup_cons_self
      obtain ⟨later, ran, holds⟩ := ih held'
      refine ⟨later, ?_, holds⟩
      rw [List.map_cons, Statement.runAll, run_registration first held]
      exact ran

/-- After some statements of the factory, the server that is made from the settings holds what as
many registrations put into it. -/
theorem runAll_factory {scope : Scope} {registrations : List Registration}
    {entries : List RegisteredTool}
    (yields : List.Forall₂ (Registration.Yields scope) registrations entries) (settings : Settings)
    (count : Nat) :
    ∃ later, Statement.runAll scope
        ((factoryStatements settings registrations).take (count + 1)) [] = some later ∧
      later.lookup "server" =
        some (.server ((scope.setup settings.code).server.filed (entries.take count))) := by
  have held : [("server", Value.server (scope.setup settings.code).server)].lookup "server" =
      some (.server (scope.setup settings.code).server) := rfl
  obtain ⟨later, ran, holds⟩ := runAll_registrations (List.forall₂_take count yields) held
  refine ⟨later, ?_, holds⟩
  rw [factoryStatements, List.take_succ_cons, ← List.map_take]
  exact ran

/-- **The factory.** It returns the server that is made from its settings, after all
registrations. -/
theorem result?_createServer {scope : Scope} {registrations : List Registration}
    {entries : List RegisteredTool}
    (yields : List.Forall₂ (Registration.Yields scope) registrations entries)
    (settings : Settings) :
    (Generated.createServer settings registrations).function.result? scope [] =
      some (.server ((scope.setup settings.code).server.filed entries)) := by
  obtain ⟨later, ran, holds⟩ := runAll_factory yields settings registrations.length
  have all : (factoryStatements settings registrations).take (registrations.length + 1) =
      factoryStatements settings registrations := by
    refine List.take_of_length_le (le_of_eq ?_)
    simp [factoryStatements]
  rw [all] at ran
  rw [List.take_of_length_le (le_of_eq yields.length_eq.symm)] at holds
  have started : (Generated.createServer settings registrations).function.start? [] = some [] := rfl
  simp only [Function.result?, Function.after?, read_createServer, started, ran,
    Option.bind_eq_bind,
    Option.bind_some, Term.eval]
  exact holds

/-- What answers a call of a tool that nothing runs. -/
def Server.refuseCall (tools : List Tool) (params : CallToolParams) :
    Except Failure CallToolResult :=
  .error (.error (if (tools.map (·.name)).contains params.name then
    .toolImplementationRequired params.name else .toolNotFound params.name))

/-- A server with responders that list some tools and refuse to call them. -/
def Server.refusing (server : Server) (tools : List Tool) : Server :=
  (server.handleMethod Method.listTools fun _ => .ok ⟨tools⟩).handleMethod Method.callTool
    (refuseCall tools)

namespace Generated

/-- The expression of the names of some tools. -/
def namesTerm : Term :=
  .method (.mapped (.method (.named "tools") "iter" []) "tool"
    (.method (.field (.named "tool") "name") "clone" [])) "collect" []

/-- The body of the closure that lists the tools. -/
def listingTerm : Term :=
  .bound "tools" (.method (.named "tools") "clone" [])
    (.call ["core", "result", "Result", "Ok"]
      [.record [runtimeCrate, "methods", "ListToolsResult"] ["tools"]])

/-- The body of the closure that refuses to call a tool. -/
def callingTerm : Term :=
  let sought : Term := .field (.named "params") "name"
  .bound "known" (.method (.named "names") "contains" [sought])
    (.call ["core", "result", "Result", "Err"] [.choice "known"
      (.call [runtimeCrate, "McpError", "tool_implementation_required"] [sought])
      (.call [runtimeCrate, "McpError", "tool_not_found"] [sought])])

theorem read_registerHandlersBody :
    Routine.read registerHandlersBody = some ⟨[.bind "names" namesTerm,
      .respond "server" [runtimeCrate, "methods", "ListTools"] "_" listingTerm,
      .respond "server" [runtimeCrate, "methods", "CallTool"] "params" callingTerm], none⟩ := rfl

/-- The term for the names gives the names of the tools at hand, in order. -/
theorem eval_namesTerm (scope : Scope) {locals : Locals} {tools : List Tool}
    (held : locals.lookup "tools" = some (.list (tools.map .tool))) :
    namesTerm.eval scope locals =
      some (.list ((tools.map fun tool => tool.name).map .text)) := by
  have each (tools : List Tool) : (tools.map Value.tool).mapM (fun value =>
      Term.eval scope (.method (.field (.named "tool") "name") "clone" [])
        (("tool", value) :: locals)) = some ((tools.map fun tool => tool.name).map .text) := by
    induction tools with
    | nil => rfl
    | cons tool rest ih =>
        rw [List.map_cons, List.mapM_cons, ih]
        rfl
  have mapped : Term.eval scope (.mapped (.method (.named "tools") "iter" []) "tool"
      (.method (.field (.named "tool") "name") "clone" [])) locals =
        some (.list ((tools.map fun tool => tool.name).map .text)) := by
    have iterated : Term.eval scope (.method (.named "tools") "iter" []) locals =
        some (.list (tools.map .tool)) := by
      simp only [Term.eval, Term.evalAll, held, Option.bind_eq_bind, Option.bind_some]
      rfl
    rw [Term.eval, iterated]
    exact congrArg (Option.map Value.list) (each tools)
  rw [namesTerm, Term.eval, mapped]
  rfl

/-- The term for the listing gives the tools at hand. -/
theorem eval_listingTerm (scope : Scope) {locals : Locals} {tools : List Tool}
    (held : locals.lookup "tools" = some (.list (tools.map .tool))) :
    Value.outcome Value.listed? (listingTerm.eval scope locals) = .ok ⟨tools⟩ := by
  have copied : Term.eval scope (.method (.named "tools") "clone" []) locals =
      some (.list (tools.map .tool)) := by
    simp only [Term.eval, Term.evalAll, held, Option.bind_eq_bind, Option.bind_some]
    rfl
  have made : Locals.build? (("tools", .list (tools.map .tool)) :: locals)
      [runtimeCrate, "methods", "ListToolsResult"] ["tools"] = some (.listed ⟨tools⟩) := by
    exact congrArg (Option.bind · fun found => some (Value.listed ⟨found⟩))
      (Value.tools?_map tools)
  rw [listingTerm, Term.eval, copied]
  change Value.outcome Value.listed? (Term.eval scope (.call _ [.record _ _]) _) = _
  simp only [Term.eval, Term.evalAll, made, Option.bind_eq_bind, Option.bind_some]
  rfl

/-- Calling a tool by the printed term fails: for an unknown name because there is no such tool, for
a known one because it has no implementation. -/
theorem eval_callingTerm (scope : Scope) {locals : Locals} {names : List String}
    {params : CallToolParams} (held : locals.lookup "names" = some (.list (names.map .text)))
    (called : locals.lookup "params" = some (.calling params)) :
    Value.outcome Value.called? (callingTerm.eval scope locals) =
      .error (.error (if names.contains params.name then .toolImplementationRequired params.name
        else .toolNotFound params.name)) := by
  have known : Term.eval scope (.method (.named "names") "contains"
      [.field (.named "params") "name"]) locals = some (.flag (names.contains params.name)) := by
    simp only [Term.eval, Term.evalAll, held, called, Option.bind_eq_bind, Option.bind_some]
    exact congrArg (Option.bind · fun texts => some (Value.flag (texts.contains params.name)))
      (Value.texts_map names)
  let inner := ("known", Value.flag (names.contains params.name)) :: locals
  have still : inner.lookup "params" = some (.calling params) := called
  have sought : Term.eval scope (.field (.named "params") "name") inner =
      some (.text params.name) := by
    simp only [Term.eval, still, Option.bind_eq_bind, Option.bind_some]
    rfl
  have required : Term.eval scope (.call [runtimeCrate, "McpError", "tool_implementation_required"]
      [.field (.named "params") "name"]) inner =
        some (.error (.toolImplementationRequired params.name)) := by
    rw [Term.eval, Term.evalAll, sought]
    rfl
  have missing : Term.eval scope (.call [runtimeCrate, "McpError", "tool_not_found"]
      [.field (.named "params") "name"]) inner = some (.error (.toolNotFound params.name)) := by
    rw [Term.eval, Term.evalAll, sought]
    rfl
  have chosen : Term.eval scope (.choice "known"
      (.call [runtimeCrate, "McpError", "tool_implementation_required"]
        [.field (.named "params") "name"])
      (.call [runtimeCrate, "McpError", "tool_not_found"] [.field (.named "params") "name"]))
        inner =
        some (.error (if names.contains params.name then .toolImplementationRequired params.name
          else .toolNotFound params.name)) := by
    rw [Term.eval, List.lookup_cons_self]
    cases names.contains params.name with
    | true => exact required
    | false => exact missing
  rw [callingTerm, Term.eval, known]
  change Value.outcome Value.called? (Term.eval scope (.call _ [.choice "known" _ _]) inner) = _
  rw [Term.eval, Term.evalAll, chosen]
  rfl

end Generated

/-- **Answering for tools.** The function that answers the methods about tools makes the server list
the tools and refuse to call them. -/
theorem effect?_registerHandlers (scope : Scope) (server : Server) (tools : List Tool) :
    Generated.registerHandlers.function.effect? scope
        [.server server, .list (tools.map .tool)] "server" = some (server.refusing tools) := by
  let locals : Locals := [("server", .server server), ("tools", .list (tools.map .tool))]
  have started : Generated.registerHandlers.function.start?
      [.server server, .list (tools.map .tool)] = some locals := rfl
  have names := Generated.eval_namesTerm scope (show locals.lookup "tools" = _ from rfl)
  have read : Routine.read Generated.registerHandlers.function.body = _ :=
    Generated.read_registerHandlersBody
  let texts := Value.list ((tools.map fun tool => tool.name).map .text)
  have listing (params : ListParams) :
      Value.outcome Value.listed? (Generated.listingTerm.eval scope
        (("_", .listing params) :: ("names", texts) :: locals)) = .ok ⟨tools⟩ :=
    Generated.eval_listingTerm scope rfl
  have calling (served : Server) (params : CallToolParams) :
      Value.outcome Value.called? (Generated.callingTerm.eval scope
        (("params", .calling params) :: ("server", .server served) :: ("names", texts) :: locals)) =
          Server.refuseCall tools params :=
    Generated.eval_callingTerm scope rfl rfl
  have answered : Statement.runAll scope
      [.respond "server" [runtimeCrate, "methods", "ListTools"] "_" Generated.listingTerm,
        .respond "server" [runtimeCrate, "methods", "CallTool"] "params" Generated.callingTerm]
      (("names", texts) :: locals) =
        some (("server", .server (server.refusing tools)) ::
          ("server", .server (server.handleMethod Method.listTools fun _ => .ok ⟨tools⟩)) ::
            ("names", texts) :: locals) := by
    unfold Server.refusing
    rw [← funext listing, ← funext (calling _)]
    rfl
  have bound : (Statement.bind "names" Generated.namesTerm).run scope locals =
      some (("names", texts) :: locals) := by
    rw [Statement.run, names]
    rfl
  simp only [Function.effect?, Function.after?, read, started, Option.bind_eq_bind,
    Option.bind_some]
  rw [Statement.runAll, bound, Option.bind_eq_bind, Option.bind_some, answered]
  rfl

end Toolsmith
