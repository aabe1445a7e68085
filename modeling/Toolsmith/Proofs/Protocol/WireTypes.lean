import Mathlib
import Toolsmith.Proofs.Json.Records
import Toolsmith.Proofs.Protocol.RequestText
import Toolsmith.Protocol.Method

/-! # What survives being sent

Every type of what is sent is written by an encoder and read by a decoder of its own. What comes
back of a value is said for all types at once (`WireType.takes_encode`): a tool that has no schema
comes back with the one that stands for none, and a member that may hold any JSON comes back as
absent when it is `null`. All else comes back as it was. So it is known exactly which values
survive (`WireType.survives_iff`), and whatever was read once is written in a form that no
further reading and writing changes (`WireType.encode_settles`).
-/

namespace Toolsmith

open Json

/-- The types of what is sent. -/
inductive WireType where
  | tool
  | resource
  | content
  | resourceContent
  | toolboxInfo
  | implementation
  | serverCapabilities
  | clientCapabilities
  | configuration
  | handshakeParams
  | handshakeResult
  | listParams
  | callToolParams
  | callToolResult
  | listToolsResult
  | listResourcesResult
  | request

namespace WireType

abbrev Value : WireType → Type
  | tool => Tool
  | resource => Resource
  | content => Content
  | resourceContent => ResourceContent
  | toolboxInfo => ToolboxInfo
  | implementation => Implementation
  | serverCapabilities => ServerCapabilities
  | clientCapabilities => ClientCapabilities
  | configuration => Configuration
  | handshakeParams => HandshakeParams
  | handshakeResult => HandshakeResult
  | listParams => ListParams
  | callToolParams => CallToolParams
  | callToolResult => CallToolResult
  | listToolsResult => ListToolsResult
  | listResourcesResult => ListResourcesResult
  | request => Request

def decoder : (type : WireType) → Decoder type.Value
  | tool => Tool.decoder
  | resource => Resource.decoder
  | content => Content.decoder
  | resourceContent => ResourceContent.decoder
  | toolboxInfo => ToolboxInfo.decoder
  | implementation => Implementation.decoder
  | serverCapabilities => ServerCapabilities.decoder
  | clientCapabilities => ClientCapabilities.decoder
  | configuration => Configuration.decoder
  | handshakeParams => HandshakeParams.decoder
  | handshakeResult => HandshakeResult.decoder
  | listParams => ListParams.decoder
  | callToolParams => CallToolParams.decoder
  | callToolResult => CallToolResult.decoder
  | listToolsResult => ListToolsResult.decoder
  | listResourcesResult => ListResourcesResult.decoder
  | request => Request.decoder

def encode : (type : WireType) → type.Value → Json
  | tool => Tool.encode
  | resource => Resource.encode
  | content => Content.encode
  | resourceContent => ResourceContent.encode
  | toolboxInfo => ToolboxInfo.encode
  | implementation => Implementation.encode
  | serverCapabilities => ServerCapabilities.encode
  | clientCapabilities => ClientCapabilities.encode
  | configuration => Configuration.encode
  | handshakeParams => HandshakeParams.encode
  | handshakeResult => HandshakeResult.encode
  | listParams => ListParams.encode
  | callToolParams => CallToolParams.encode
  | callToolResult => CallToolResult.encode
  | listToolsResult => ListToolsResult.encode
  | listResourcesResult => ListResourcesResult.encode
  | request => Request.encode

end WireType

/-! ### What is kept as it was written -/

section Raw

variable {arrange : Json → Json} {name : String}

theorem takes_optional_any {json : Json} (arranges : Arranges arrange) (regular : json.Regular) :
    Decoder.any.optional.Takes arrange json json.unlessNull := by
  intro setting
  rw [arranges.kept regular]
  cases json <;> rfl

theorem takes_memberIf_any (arranges : Arranges arrange) {value : Option Json}
    (regular : ∀ json ∈ value, json.Regular) :
    (Record.omissible name .any).Takes arrange (memberIf name value) (value.bind unlessNull) := by
  cases value with
  | none => exact Record.takes_absent rfl
  | some json => exact Record.takes_field (takes_optional_any arranges (regular json rfl))

theorem gives_omissible_any :
    (Record.omissible name .any).Gives fun value =>
      ∀ json ∈ value, json.Regular ∧ json ≠ .null := by
  apply Record.gives_field gives_optional_any
  intro value stands json found
  cases stands
  cases found

theorem unlessNull_of_ne {json : Json} (present : json ≠ .null) : json.unlessNull = some json := by
  cases json with
  | null => exact absurd rfl present
  | bool | number | string | array | object => rfl

theorem bind_unlessNull_eq_iff (value : Option Json) :
    value.bind unlessNull = value ↔ value ≠ some .null := by
  cases value with
  | none => simp
  | some json =>
      by_cases null : json = .null
      · subst null
        simp [unlessNull]
      · simp [unlessNull_of_ne null, null]

end Raw

/-! ### What programs hold, and what comes back of it -/

def Tool.Regular (tool : Tool) : Prop := ∀ schema ∈ tool.inputSchema, schema.Regular

/-- The tool with the schema that it is sent with. -/
def Tool.completed (tool : Tool) : Tool :=
  { tool with inputSchema := (tool.inputSchema.getD Tool.anySchema).unlessNull }

def Resource.Regular (resource : Resource) : Prop :=
  ∀ entries ∈ resource.metadata, entries.Pairwise (·.1 < ·.1)

/-- What a client may offer, as it was written. -/
def ClientCapabilities.offers (capabilities : ClientCapabilities) : List (Option Json) :=
  [capabilities.experimental, capabilities.roots, capabilities.sampling]

def ClientCapabilities.Regular (capabilities : ClientCapabilities) : Prop :=
  ∀ offer ∈ capabilities.offers, ∀ json ∈ offer, json.Regular

/-- What a client offers when `null` stands for nothing. -/
def ClientCapabilities.cleared (capabilities : ClientCapabilities) : ClientCapabilities where
  experimental := capabilities.experimental.bind unlessNull
  roots := capabilities.roots.bind unlessNull
  sampling := capabilities.sampling.bind unlessNull

def CallToolParams.Regular (params : CallToolParams) : Prop :=
  (Json.object params.arguments).Regular

namespace WireType

/-- A value as programs hold it: its JSON is, and its tables are in the order of names. -/
def Regular : (type : WireType) → type.Value → Prop
  | tool, value => value.Regular
  | resource, value => value.Regular
  | clientCapabilities, value => value.Regular
  | handshakeParams, value => value.capabilities.Regular
  | callToolParams, value => value.Regular
  | listToolsResult, value => ∀ tool ∈ value.tools, tool.Regular
  | listResourcesResult, value => ∀ resource ∈ value.resources, resource.Regular
  | request, value => value.Regular
  | _, _ => True

/-- What comes back of a value. -/
def returned : (type : WireType) → type.Value → type.Value
  | tool, value => value.completed
  | clientCapabilities, value => value.cleared
  | handshakeParams, value => { value with capabilities := value.capabilities.cleared }
  | listToolsResult, value => { value with tools := value.tools.map Tool.completed }
  | request, value => value.cleared
  | _, value => value

/-- The tools in a value. -/
def tools : (type : WireType) → type.Value → List Tool
  | tool, value => [value]
  | listToolsResult, value => value.tools
  | _, _ => []

/-- The members of a value, other than the schemas of tools, that may be absent or hold any JSON. -/
def looseMembers : (type : WireType) → type.Value → List (Option Json)
  | clientCapabilities, value => value.offers
  | handshakeParams, value => value.capabilities.offers
  | request, value => [value.id, value.params]
  | _, _ => []

end WireType

/-! ### Type by type -/

section Types

variable {arrange : Json → Json} (arranges : Arranges arrange)
include arranges

theorem takes_optionalString (name : String) (value : Option String) :
    (Record.optional name .string).Takes arrange (memberIf name (value.map .string)) value :=
  Record.takes_optionally arranges name value (fun text _ => takes_string arranges text) nofun

theorem ResourceContent.takes_encode (content : ResourceContent) :
    ResourceContent.decoder.Takes arrange content.encode content := by
  have uri := Record.takes_required "uri" (takes_string arranges content.uri)
  have mimeType := takes_optionalString arranges "mimeType" content.mimeType
  have text := takes_optionalString arranges "text" content.text
  exact (((uri.map ResourceContent.mk).seq mimeType).seq text).of_decoder arranges (by decide) _

/-- Content is read by its tag, and then as the record of its kind without the tag. -/
theorem Content.takes_tagged (kind : Content.Kind) {record : Record Content} {title : String}
    (rest : ofKind kind = record.decoder title) (distinct : ("type" :: record.names).Nodup)
    {members : List (String × Json)} {content : Content}
    (takes : record.Takes arrange members content) :
    Content.decoder.Takes arrange (.object (("type", .string kind.name) :: members)) content := by
  intro setting
  have names : ((("type", Json.string kind.name) :: members).map Prod.fst).Nodup :=
    (takes.named.cons_cons "type").nodup distinct
  obtain ⟨shown, arranged, same⟩ := arranges.object names
  have tag : shown.lookup "type" = some (.string kind.name) := by
    rw [lookup_of_perm same (by rw [List.map_map]; exact names), lookup_map_values]
    exact congrArg some (arranges.kept (.string _))
  have untagged : (shown.filter (·.1 ≠ "type")).Perm
      (members.map fun member => (member.1, arrange member.2)) := by
    have others : ∀ member ∈ members.map fun member => (member.1, arrange member.2),
        decide (member.1 ≠ "type") = true := by
      intro member among
      obtain ⟨written, inside, rfl⟩ := List.mem_map.mp among
      have apart := (List.nodup_cons.mp names).1
      rw [decide_eq_true_eq]
      intro tagged
      exact apart (List.mem_map.mpr ⟨written, inside, tagged⟩)
    have filtered := same.filter (·.1 ≠ "type")
    rw [List.map_cons, List.filter_cons_of_neg (by simp)] at filtered
    rwa [List.filter_eq_self.mpr others] at filtered
  have known : Kind.decoder setting (.string kind.name) = .ok kind := by
    cases kind <;> rfl
  have read := takes.of_perm (List.nodup_cons.mp distinct).2 untagged title .setAside
  rw [arranged, Content.decoder]
  simp only [tag, known]
  rw [← rest] at read
  exact read

theorem Content.takes_encode (content : Content) :
    Content.decoder.Takes arrange content.encode content := by
  cases content with
  | text body =>
      have text := Record.takes_required "text" (takes_string arranges body)
      exact Content.takes_tagged arranges .text rfl (by decide) (text.map Content.text)
  | image data mimeType =>
      have data := Record.takes_required "data" (takes_string arranges data)
      have mimeType := Record.takes_required "mimeType" (takes_string arranges mimeType)
      exact Content.takes_tagged arranges .image rfl (by decide)
        ((data.map Content.image).seq mimeType)
  | resource body =>
      have resource := Record.takes_required "resource" (body.takes_encode arranges)
      exact Content.takes_tagged arranges .resource rfl (by decide)
        (resource.map Content.resource)

/-- A written tool is taken as it was, completed by a schema where it has none. -/
theorem Tool.takes_encode {tool : Tool} (regular : tool.Regular) :
    Tool.decoder.Takes arrange tool.encode tool.completed := by
  have sent : (tool.inputSchema.getD anySchema).Regular := by
    cases known : tool.inputSchema with
    | some schema => exact regular schema known
    | none =>
        apply Json.Regular.object (List.pairwise_singleton _ _)
        intro member among
        cases List.mem_singleton.mp among
        exact .string _
  have name := Record.takes_required "name" (takes_string arranges tool.name)
  have description := Record.takes_required "description" (takes_string arranges tool.description)
  have schema : (Record.omissible "inputSchema" .any).Takes arrange _ _ :=
    Record.takes_field (takes_optional_any arranges sent)
  exact (((name.map Tool.mk).seq description).seq schema).of_decoder arranges (by decide) _

theorem ToolboxInfo.takes_encode (info : ToolboxInfo) :
    ToolboxInfo.decoder.Takes arrange info.encode info := by
  have name := Record.takes_required "name" (takes_string arranges info.name)
  have description := Record.takes_required "description" (takes_string arranges info.description)
  exact ((name.map ToolboxInfo.mk).seq description).of_decoder arranges (by decide) _

theorem Resource.takes_encode {resource : Resource} (regular : resource.Regular) :
    Resource.decoder.Takes arrange resource.encode resource := by
  have name := Record.takes_required "name" (takes_string arranges resource.name)
  have uri := Record.takes_required "uri" (takes_string arranges resource.uri)
  have description := takes_optionalString arranges "description" resource.description
  have mimeType := takes_optionalString arranges "mimeType" resource.mimeType
  have metadata := Record.takes_optionally arranges "metadata" resource.metadata
    (fun entries found => takes_table arranges (regular entries found)) nofun
  exact (((((name.map Resource.mk).seq uri).seq description).seq mimeType).seq
    metadata).of_decoder arranges (by decide) _

theorem Implementation.takes_encode (peer : Implementation) :
    Implementation.decoder.Takes arrange peer.encode peer := by
  have name := Record.takes_required "name" (takes_string arranges peer.name)
  have version := Record.takes_required "version" (takes_string arranges peer.version)
  exact ((name.map Implementation.mk).seq version).of_decoder arranges (by decide) _

theorem ListCapability.takes_encode (title : String) (capability : ListCapability) :
    (ListCapability.decoder title).Takes arrange capability.encode capability := by
  have listChanged := Record.takes_withDefault "listChanged" false
    (takes_boolean arranges capability.listChanged)
  exact (listChanged.map ListCapability.mk).of_decoder arranges (by decide) _

theorem ResourcesCapability.takes_encode (capability : ResourcesCapability) :
    ResourcesCapability.decoder.Takes arrange capability.encode capability := by
  have subscribe := Record.takes_withDefault "subscribe" false
    (takes_boolean arranges capability.subscribe)
  have listChanged := Record.takes_withDefault "listChanged" false
    (takes_boolean arranges capability.listChanged)
  exact ((subscribe.map ResourcesCapability.mk).seq listChanged).of_decoder arranges (by decide) _

theorem LoggingCapability.takes_encode (capability : LoggingCapability) :
    LoggingCapability.decoder.Takes arrange capability.encode capability :=
  (Record.takes_pure capability).of_decoder arranges List.nodup_nil _

theorem ServerCapabilities.takes_encode (capabilities : ServerCapabilities) :
    ServerCapabilities.decoder.Takes arrange capabilities.encode capabilities := by
  have tools := Record.takes_omissible arranges "tools" capabilities.tools
    (fun offer _ => offer.takes_encode arranges "struct ToolsCapability") nofun
  have resources := Record.takes_omissible arranges "resources" capabilities.resources
    (fun offer _ => offer.takes_encode arranges) nofun
  have prompts := Record.takes_omissible arranges "prompts" capabilities.prompts
    (fun offer _ => offer.takes_encode arranges "struct PromptsCapability") nofun
  have logging := Record.takes_omissible arranges "logging" capabilities.logging
    (fun offer _ => offer.takes_encode arranges) nofun
  exact ((((tools.map ServerCapabilities.mk).seq resources).seq prompts).seq
    logging).of_decoder arranges (by decide) _

/-- Written capabilities of a client are taken as they were, less offers of `null`. -/
theorem ClientCapabilities.takes_encode {capabilities : ClientCapabilities}
    (regular : capabilities.Regular) :
    ClientCapabilities.decoder.Takes arrange capabilities.encode capabilities.cleared := by
  have experimental : (Record.omissible "experimental" .any).Takes arrange _ _ :=
    takes_memberIf_any arranges (regular capabilities.experimental (by simp [offers]))
  have roots : (Record.omissible "roots" .any).Takes arrange _ _ :=
    takes_memberIf_any arranges (regular capabilities.roots (by simp [offers]))
  have sampling : (Record.omissible "sampling" .any).Takes arrange _ _ :=
    takes_memberIf_any arranges (regular capabilities.sampling (by simp [offers]))
  exact (((experimental.map ClientCapabilities.mk).seq roots).seq sampling).of_decoder arranges
    (by decide) _

theorem Configuration.takes_encode (configuration : Configuration) :
    Configuration.decoder.Takes arrange configuration.encode configuration := by
  have strict := Record.takes_withDefault "strict" false
    (takes_boolean arranges configuration.strict)
  exact (strict.map Configuration.mk).of_decoder arranges (by decide) _

theorem HandshakeParams.takes_encode {params : HandshakeParams}
    (regular : params.capabilities.Regular) :
    HandshakeParams.decoder.Takes arrange params.encode
      { params with capabilities := params.capabilities.cleared } := by
  have version := Record.takes_required "protocolVersion"
    (takes_string arranges params.protocolVersion)
  have capabilities := Record.takes_withDefault "capabilities" {}
    (ClientCapabilities.takes_encode arranges regular)
  have clientInfo := Record.takes_required "clientInfo" (params.clientInfo.takes_encode arranges)
  exact (((version.map HandshakeParams.mk).seq capabilities).seq clientInfo).of_decoder arranges
    (by decide) _

theorem HandshakeResult.takes_encode (result : HandshakeResult) :
    HandshakeResult.decoder.Takes arrange result.encode result := by
  have version := Record.takes_required "protocolVersion"
    (takes_string arranges result.protocolVersion)
  have capabilities := Record.takes_required "capabilities"
    (result.capabilities.takes_encode arranges)
  have serverInfo := Record.takes_required "serverInfo" (result.serverInfo.takes_encode arranges)
  exact (((version.map HandshakeResult.mk).seq capabilities).seq serverInfo).of_decoder arranges
    (by decide) _

theorem ListParams.takes_encode (params : ListParams) :
    ListParams.decoder.Takes arrange params.encode params := by
  have cursor := Record.takes_omissible arranges "cursor" params.cursor
    (fun text _ => takes_string arranges text) nofun
  exact (cursor.map ListParams.mk).of_decoder arranges (by decide) _

theorem ListToolsResult.takes_encode {result : ListToolsResult}
    (regular : ∀ tool ∈ result.tools, tool.Regular) :
    ListToolsResult.decoder.Takes arrange result.encode
      { result with tools := result.tools.map Tool.completed } := by
  have tools := Record.takes_required "tools" (takes_list arranges fun tool among =>
    Tool.takes_encode arranges (regular tool among))
  exact (tools.map ListToolsResult.mk).of_decoder arranges (by decide) _

theorem ListResourcesResult.takes_encode {result : ListResourcesResult}
    (regular : ∀ resource ∈ result.resources, resource.Regular) :
    ListResourcesResult.decoder.Takes arrange result.encode result := by
  have resources := Record.takes_required "resources" (takes_list arranges fun resource among =>
    Resource.takes_encode arranges (regular resource among))
  rw [List.map_id'] at resources
  exact (resources.map ListResourcesResult.mk).of_decoder arranges (by decide) _

theorem CallToolParams.takes_encode {params : CallToolParams} (regular : params.Regular) :
    CallToolParams.decoder.Takes arrange params.encode params := by
  have name := Record.takes_required "name" (takes_string arranges params.name)
  have arguments := Record.takes_withDefault "arguments" [] (takes_members arranges regular)
  exact ((name.map CallToolParams.mk).seq arguments).of_decoder arranges (by decide) _

theorem CallToolResult.takes_encode (result : CallToolResult) :
    CallToolResult.decoder.Takes arrange result.encode result := by
  have content := Record.takes_required "content" (takes_list arranges fun content
    (_ : content ∈ result.content) => content.takes_encode arranges)
  have isError := Record.takes_withDefault "isError" false (takes_boolean arranges result.isError)
  rw [List.map_id'] at content
  exact ((content.map CallToolResult.mk).seq isError).of_decoder arranges (by decide) _

/-- A written request is taken as it was, where `null` counts as missing. -/
theorem Request.takes_encode {request : Request} (regular : request.Regular) :
    Request.decoder.Takes arrange request.encode request.cleared := by
  have jsonrpc := Record.takes_required "jsonrpc" (takes_string arranges request.jsonrpc)
  have id : (Record.omissible "id" .any).Takes arrange _ _ :=
    takes_memberIf_any arranges regular.id
  have method := Record.takes_required "method" (takes_string arranges request.method)
  have params : (Record.omissible "params" .any).Takes arrange _ _ :=
    takes_memberIf_any arranges regular.params
  exact ((((jsonrpc.map Request.mk).seq id).seq method).seq params).of_decoder arranges
    (by decide) _

/-- **What comes back** of a value of any type, in whatever way its members are arranged. -/
theorem WireType.takes_encode (type : WireType) {value : type.Value}
    (regular : type.Regular value) :
    type.decoder.Takes arrange (type.encode value) (type.returned value) := by
  cases type with
  | tool => exact Tool.takes_encode arranges regular
  | resource => exact Resource.takes_encode arranges regular
  | content => exact Content.takes_encode arranges value
  | resourceContent => exact ResourceContent.takes_encode arranges value
  | toolboxInfo => exact ToolboxInfo.takes_encode arranges value
  | implementation => exact Implementation.takes_encode arranges value
  | serverCapabilities => exact ServerCapabilities.takes_encode arranges value
  | clientCapabilities => exact ClientCapabilities.takes_encode arranges regular
  | configuration => exact Configuration.takes_encode arranges value
  | handshakeParams => exact HandshakeParams.takes_encode arranges regular
  | handshakeResult => exact HandshakeResult.takes_encode arranges value
  | listParams => exact ListParams.takes_encode arranges value
  | callToolParams => exact CallToolParams.takes_encode arranges regular
  | callToolResult => exact CallToolResult.takes_encode arranges value
  | listToolsResult => exact ListToolsResult.takes_encode arranges regular
  | listResourcesResult => exact ListResourcesResult.takes_encode arranges regular
  | request => exact Request.takes_encode arranges regular

end Types

/-! ### Which values survive -/

/-- Writing and reading completes a tool unless it has a schema other than `null`. -/
theorem Tool.completed_eq_iff (tool : Tool) :
    tool.completed = tool ↔ ∃ schema, tool.inputSchema = some schema ∧ schema ≠ .null := by
  obtain ⟨name, description, inputSchema⟩ := tool
  rw [completed, mk.injEq]
  cases inputSchema with
  | none => simp [anySchema, unlessNull]
  | some schema =>
      have same := bind_unlessNull_eq_iff (some schema)
      simp only [Option.bind_some, ne_eq, Option.some.injEq] at same
      simp [same]

theorem ClientCapabilities.cleared_eq_iff (capabilities : ClientCapabilities) :
    capabilities.cleared = capabilities ↔ ∀ offer ∈ capabilities.offers, offer ≠ some .null := by
  obtain ⟨experimental, roots, sampling⟩ := capabilities
  simp [cleared, offers, bind_unlessNull_eq_iff]

theorem Request.cleared_eq_iff (request : Request) :
    request.cleared = request ↔ ∀ member ∈ [request.id, request.params], member ≠ some .null := by
  obtain ⟨jsonrpc, id, method, params⟩ := request
  simp [cleared, bind_unlessNull_eq_iff]

namespace WireType

/-- Every tool has a schema, and nothing that may be absent is `null`. -/
def Survives (type : WireType) (value : type.Value) : Prop :=
  (∀ tool ∈ type.tools value, ∃ schema, tool.inputSchema = some schema ∧ schema ≠ .null) ∧
    ∀ member ∈ type.looseMembers value, member ≠ some .null

/-- A value that is written and read is the same exactly when it survives. -/
theorem returned_eq_iff (type : WireType) (value : type.Value) :
    type.returned value = value ↔ type.Survives value := by
  cases type with
  | tool =>
      refine (Tool.completed_eq_iff value).trans ?_
      simp [Survives, tools, looseMembers]
  | listToolsResult =>
      obtain ⟨tools⟩ := value
      have each : tools.map Tool.completed = tools.map id ↔
          ∀ tool ∈ tools, tool.completed = tool := List.map_inj_left
      rw [List.map_id] at each
      simpa [returned, Survives, WireType.tools, looseMembers, Tool.completed_eq_iff] using each
  | clientCapabilities =>
      refine (ClientCapabilities.cleared_eq_iff value).trans ?_
      simp [Survives, tools, looseMembers]
  | handshakeParams =>
      obtain ⟨version, capabilities, clientInfo⟩ := value
      have same := ClientCapabilities.cleared_eq_iff capabilities
      simpa [returned, Survives, tools, looseMembers] using same
  | request =>
      refine (Request.cleared_eq_iff value).trans ?_
      simp [Survives, tools, looseMembers]
  | _ => simp [returned, Survives, tools, looseMembers]

theorem decode_arranged_iff {arrange : Json → Json} (arranges : Arranges arrange)
    (type : WireType) {value : type.Value} (regular : type.Regular value) :
    type.decoder.decode (arrange (type.encode value)) = .ok value ↔ type.Survives value := by
  have comes := type.takes_encode arranges regular .direct
  rw [Decoder.decode, comes, Except.ok.injEq, returned_eq_iff]

/-- **Survival.** A value that is sent, in the order of its fields or sorted, is read back as it was
when every tool in it has a schema other than `null` and no other member that may be absent and may
hold any JSON is `null`, and only then. -/
theorem survives_iff (type : WireType) {value : type.Value} (regular : type.Regular value) :
    (type.decoder.decode (type.encode value) = .ok value ↔ type.Survives value) ∧
      (type.decoder.decode (type.encode value).sorted = .ok value ↔ type.Survives value) :=
  ⟨decode_arranged_iff arranges_id type regular, decode_arranged_iff arranges_sorted type regular⟩

/-- A tool with a schema survives in a list, and a call under `null` does not. -/
theorem survives_iff_of_schema :
    listToolsResult.decoder.decode
        (listToolsResult.encode ⟨[⟨"echo", "", some (.bool true)⟩]⟩).sorted =
      .ok ⟨[⟨"echo", "", some (.bool true)⟩]⟩ ∧
    request.decoder.decode (request.encode (.call .null "ping" none)) ≠
      .ok (.call .null "ping" none) := by
  have listed : listToolsResult.Regular ⟨[⟨"echo", "", some (.bool true)⟩]⟩ := by
    intro tool among schema found
    cases List.mem_singleton.mp among
    cases found
    exact .bool true
  have called : request.Regular (.call .null "ping" none) := by
    refine ⟨?_, nofun⟩
    rintro _ ⟨⟩
    exact .null
  constructor
  · apply (survives_iff listToolsResult listed).2.mpr
    refine ⟨?_, nofun⟩
    intro tool among
    cases List.mem_singleton.mp among
    exact ⟨.bool true, rfl, nofun⟩
  · intro back
    have survived := (survives_iff request called).1.mp back
    exact survived.2 (some .null) List.mem_cons_self rfl

end WireType

/-! ### What was read once -/

theorem gives_string (name : String) : (Record.required name .string).Gives fun _ => True :=
  Record.gives_required gives_true

theorem Tool.gives : Tool.decoder.Gives fun tool =>
    ∀ schema ∈ tool.inputSchema, schema.Regular ∧ schema ≠ .null := by
  refine Record.Gives.of_decoder (((Record.Gives.map ?_ (gives_string _)).seq
    (gives_string _)).seq gives_omissible_any) _
  intro name _ description _ schema kept
  exact kept

theorem Tool.encode_completed {tool : Tool} (kept : ∀ schema ∈ tool.inputSchema, schema ≠ .null) :
    tool.completed.encode = tool.encode := by
  cases known : tool.inputSchema with
  | none => simp [encode, completed, known, anySchema, unlessNull]
  | some schema => simp [encode, completed, known, unlessNull_of_ne (kept schema known)]

theorem Resource.gives : Resource.decoder.Gives Resource.Regular := by
  have text (name : String) : (Record.optional name .string).Gives fun _ => True :=
    Record.gives_field gives_true fun _ _ => trivial
  have metadata : (Record.optional "metadata" (.table .string)).Gives
      fun metadata => ∀ entries ∈ metadata, entries.Pairwise (·.1 < ·.1) := by
    apply Record.gives_field (gives_optional gives_table)
    intro value stands entries found
    cases stands
    cases found
  refine Record.Gives.of_decoder (((((Record.Gives.map ?_ (gives_string _)).seq
    (gives_string _)).seq (text _)).seq (text _)).seq metadata) _
  intro name _ uri _ description _ mimeType _ metadata ordered
  exact ordered

theorem ClientCapabilities.gives : ClientCapabilities.decoder.Gives fun capabilities =>
    ∀ offer ∈ capabilities.offers, ∀ json ∈ offer, json.Regular ∧ json ≠ .null := by
  refine Record.Gives.of_decoder (((Record.Gives.map ?_ gives_omissible_any).seq
    gives_omissible_any).seq gives_omissible_any) _
  intro experimental first roots second sampling third offer among
  simp only [offers, List.mem_cons, List.not_mem_nil, or_false] at among
  rcases among with rfl | rfl | rfl
  · exact first
  · exact second
  · exact third

theorem ClientCapabilities.cleared_of_kept {capabilities : ClientCapabilities}
    (kept : ∀ offer ∈ capabilities.offers, ∀ json ∈ offer, json ≠ .null) :
    capabilities.cleared = capabilities := by
  rw [cleared_eq_iff]
  rintro offer among rfl
  exact kept _ among .null rfl rfl

theorem HandshakeParams.gives : HandshakeParams.decoder.Gives fun params =>
    ∀ offer ∈ params.capabilities.offers, ∀ json ∈ offer, json.Regular ∧ json ≠ .null := by
  have capabilities : (Record.withDefault "capabilities" ClientCapabilities.decoder {}).Gives _ :=
    Record.gives_field ClientCapabilities.gives (by
      intro value stands offer among json found
      cases stands
      simp only [ClientCapabilities.offers, List.mem_cons, List.not_mem_nil, or_false, or_self]
        at among
      subst among
      cases found)
  have clientInfo : (Record.required "clientInfo" Implementation.decoder).Gives fun _ => True :=
    Record.gives_required gives_true
  refine Record.Gives.of_decoder (((Record.Gives.map ?_ (gives_string _)).seq
    capabilities).seq clientInfo) _
  intro version _ capabilities kept clientInfo _
  exact kept

theorem CallToolParams.gives : CallToolParams.decoder.Gives CallToolParams.Regular := by
  have arguments : (Record.withDefault "arguments" .members []).Gives
      fun arguments => (Json.object arguments).Regular :=
    Record.gives_field gives_members (by
      intro value stands
      cases stands
      exact .object .nil nofun)
  refine Record.Gives.of_decoder ((Record.Gives.map ?_ (gives_string _)).seq arguments) _
  intro name _ arguments regular
  exact regular

theorem ListToolsResult.gives : ListToolsResult.decoder.Gives fun result =>
    ∀ tool ∈ result.tools, ∀ schema ∈ tool.inputSchema, schema.Regular ∧ schema ≠ .null := by
  refine Record.Gives.of_decoder (Record.Gives.map ?_
    (Record.gives_required (gives_list Tool.gives))) _
  intro tools each
  exact each

theorem ListResourcesResult.gives : ListResourcesResult.decoder.Gives fun result =>
    ∀ resource ∈ result.resources, resource.Regular := by
  refine Record.Gives.of_decoder (Record.Gives.map ?_
    (Record.gives_required (gives_list Resource.gives))) _
  intro resources each
  exact each

theorem Request.gives : Request.decoder.Gives fun request =>
    ∀ member ∈ [request.id, request.params], ∀ json ∈ member, json.Regular ∧ json ≠ .null := by
  refine Record.Gives.of_decoder ((((Record.Gives.map ?_ (gives_string _)).seq
    gives_omissible_any).seq (gives_string _)).seq gives_omissible_any) _
  intro jsonrpc _ id first method _ params second member among
  simp only [List.mem_cons, List.not_mem_nil, or_false] at among
  rcases among with rfl | rfl
  · exact first
  · exact second

namespace WireType

/-- What was read is held as programs hold it, and is sent as what comes back of it. -/
theorem gives (type : WireType) : type.decoder.Gives fun value =>
    type.Regular value ∧ type.encode (type.returned value) = type.encode value := by
  intro setting json value regular read
  cases type with
  | tool =>
      have kept := Tool.gives regular read
      exact ⟨fun schema found => (kept schema found).1,
        Tool.encode_completed fun schema found => (kept schema found).2⟩
  | resource => exact ⟨Resource.gives regular read, rfl⟩
  | clientCapabilities =>
      have kept := ClientCapabilities.gives regular read
      refine ⟨fun offer among json found => (kept offer among json found).1, ?_⟩
      exact congrArg ClientCapabilities.encode (ClientCapabilities.cleared_of_kept
        fun offer among json found => (kept offer among json found).2)
  | handshakeParams =>
      have kept := HandshakeParams.gives regular read
      refine ⟨fun offer among json found => (kept offer among json found).1, ?_⟩
      have same := ClientCapabilities.cleared_of_kept
        fun offer among json found => (kept offer among json found).2
      simp only [returned, encode, same]
  | callToolParams => exact ⟨CallToolParams.gives regular read, rfl⟩
  | listToolsResult =>
      have kept := ListToolsResult.gives regular read
      refine ⟨fun tool among schema found => (kept tool among schema found).1, ?_⟩
      have same : ∀ tool ∈ value.tools, (Tool.encode ∘ Tool.completed) tool = tool.encode :=
        fun tool among => Tool.encode_completed fun schema found => (kept tool among schema found).2
      simp only [returned, encode, ListToolsResult.encode, List.map_map, List.map_congr_left same]
  | listResourcesResult => exact ⟨ListResourcesResult.gives regular read, rfl⟩
  | request =>
      have kept := Request.gives regular read
      refine ⟨⟨fun json found => (kept value.id (by simp) json found).1,
        fun json found => (kept value.params (by simp) json found).1⟩, ?_⟩
      have same : value.cleared = value := by
        rw [Request.cleared_eq_iff]
        rintro member among rfl
        exact (kept _ among .null rfl).2 rfl
      exact congrArg Request.encode same
  | _ => exact ⟨trivial, rfl⟩

/-- **Settling.** What was read once is sent in a form that is read again, in the order of its
fields and sorted, and is sent again in the same form. -/
theorem encode_settles (type : WireType) {json : Json} (regular : json.Regular)
    {value : type.Value} (read : type.decoder.decode json = .ok value) :
    ∃ again, type.decoder.decode (type.encode value) = .ok again ∧
      type.decoder.decode (type.encode value).sorted = .ok again ∧
      type.encode again = type.encode value := by
  obtain ⟨held, same⟩ := type.gives regular read
  refine ⟨type.returned value, ?_, ?_, same⟩
  · exact type.takes_encode arranges_id held .direct
  · exact type.takes_encode arranges_sorted held .direct

/-- A tool as a list of its name and its description. -/
def positionalTool : Json := .array [.string "echo", .string ""]

/-- Tools that were listed by position, without schemas, are listed by name and with schemas from
then on. -/
theorem encode_settles_of_positions :
    listToolsResult.decoder.decode (.array [.array [positionalTool]]) =
      .ok ⟨[⟨"echo", "", none⟩]⟩ ∧
    ∃ again, listToolsResult.decoder.decode (listToolsResult.encode ⟨[⟨"echo", "", none⟩]⟩) =
        .ok again ∧
      listToolsResult.decoder.decode (listToolsResult.encode ⟨[⟨"echo", "", none⟩]⟩).sorted =
        .ok again ∧
      listToolsResult.encode again = listToolsResult.encode ⟨[⟨"echo", "", none⟩]⟩ := by
  have tool : positionalTool.Regular := by
    apply Json.Regular.array
    intro item among
    simp only [List.mem_cons, List.not_mem_nil, or_false] at among
    rcases among with rfl | rfl
    · exact .string _
    · exact .string _
  have regular : (Json.array [.array [positionalTool]]).Regular :=
    .array (List.forall_mem_singleton.mpr (.array (List.forall_mem_singleton.mpr tool)))
  have read : listToolsResult.decoder.decode (.array [.array [positionalTool]]) =
      .ok ⟨[⟨"echo", "", none⟩]⟩ := rfl
  exact ⟨read, encode_settles listToolsResult regular read⟩

end WireType

end Toolsmith
