import Ploinky.Js.Error
import Ploinky.Js.Json
import Ploinky.Lib.OrderedMap

/-!
# The policy of MCP tools

The embedding of `PolicyStateRepository` and `McpToolPolicy`, as far as tools go: the validation and the
index of the policy document, the cached view of it, the decision for a caller, the filter of a tool
list, and the defaults that are persisted at boot. Entries are kept as the document has them.

The index maps the text of an agent and a tool joined by a space to the entry.
-/

namespace Ploinky.ToolPolicy

open Js

/-- An access class of a tool. -/
inductive ToolAccess where
  | authenticated
  | internal
  | admin
  deriving DecidableEq

/-- The access class as the sources spell it. -/
def ToolAccess.text : ToolAccess → Str
  | authenticated => "authenticated"
  | internal => "internal"
  | admin => "admin"

/-- The classes of `MCP_ACCESS_VALUES`. -/
def accessValues : List ToolAccess := [.authenticated, .internal, .admin]

/-! ## The policy document -/

/-- A validated policy state. -/
structure PolicyState where
  httpRoutes : List Json
  mcpTools : List Json
  deriving DecidableEq

/-- The value is a string that is not empty. -/
def isNonEmptyText (value : Option Json) : Bool :=
  match value with
  | some (.str text) => !text.isEmpty
  | _ => false

/-- The check of an entry of `mcpTools`. -/
def isToolEntry (entry : Json) : Bool :=
  entry.truthy && isNonEmptyText (entry.prop "agent") && isNonEmptyText (entry.prop "tool") &&
    accessValues.any fun access => isStr (entry.prop "access") access.text

/-- The check of an entry of `httpRoutes`. -/
def isRouteEntry (entry : Json) : Bool :=
  entry.truthy && isNonEmptyText (entry.prop "path") &&
    [lit "public", lit "guest", lit "authenticated"].contains
      (toLowerCase (trim (strOr (entry.prop "access") [])))

/-- The items of an array. -/
def arrayItems (value : Option Json) : Option (List Json) :=
  match value with
  | some (.arr items) => some items
  | _ => none

/-- `validateState(parsed)`. -/
def validateState (parsed : Json) : Except Str PolicyState :=
  if isStr (parsed.prop "schema") "router-policy" then
    match arrayItems (parsed.prop "httpRoutes"), arrayItems (parsed.prop "mcpTools") with
    | some httpRoutes, some mcpTools =>
      if mcpTools.all isToolEntry then
        if httpRoutes.all isRouteEntry then .ok ⟨httpRoutes, mcpTools⟩
        else .error "policy-state: invalid httpRoutes entry"
      else .error "policy-state: invalid mcpTools entry"
    | _, _ => .error "policy-state: missing httpRoutes/mcpTools collections"
  else .error "policy-state: unexpected schema"

/-- The document of a state. -/
def PolicyState.toJson (state : PolicyState) : Json :=
  .obj [(lit "schema", .str "router-policy"), (lit "httpRoutes", .arr state.httpRoutes),
    (lit "mcpTools", .arr state.mcpTools)]

/-- A property in a template literal. -/
def propText (entry : Json) (name : Str) : Str :=
  match entry.prop name with
  | some value => value.toStr
  | none => "undefined"

/-- The agent and the tool of an entry. -/
def entryPair (entry : Json) : Str × Str := (propText entry "agent", propText entry "tool")

/-- The key of an agent and a tool. -/
def toolKey (pair : Str × Str) : Str := pair.1 ++ ' ' :: pair.2

/-- The index of the tools, `buildIndex(state).mcp`. -/
def buildIndex (state : PolicyState) : OrderedMap Str Json :=
  state.mcpTools.foldl (fun index entry => index.set (toolKey (entryPair entry)) entry) .empty

/-! ## The repository -/

/-- A view of the policy. -/
inductive Loaded where
  | ok (state : PolicyState)
  | corrupt
  deriving DecidableEq

/-- The store: the version it reports and the document it reads, each of which may fail. No version
means that nothing is persisted. -/
structure Store where
  version : Option (Option Str)
  document : Option Json
  deriving DecidableEq

/-- What a fresh load gives. -/
def Store.view (store : Store) : Loaded :=
  match store.version with
  | none => .corrupt
  | some none => .ok ⟨[], []⟩
  | some (some _) =>
    match store.document with
    | none => .corrupt
    | some document =>
      match validateState document with
      | .ok state => .ok state
      | .error _ => .corrupt

/-- `PolicyStateRepository`. A view is cached under the version it was loaded for. -/
structure Repository where
  store : Store
  cache : Option Loaded
  cacheKey : Str
  coherent : ∀ loaded version, cache = some loaded → store.version = some (some version) →
    cacheKey = version → loaded = store.view

variable (repo : Repository)

/-- `_load()`, also `snapshot()`. -/
def Repository.load : Loaded × Repository :=
  let reload (key : Str) : Loaded × Repository :=
    (repo.store.view, { repo with
      cache := some repo.store.view
      cacheKey := key
      coherent := fun _ _ hcache _ _ => (Option.some.inj hcache).symm })
  match repo.store.version, repo.cache with
  | some (some version), some loaded => if repo.cacheKey = version then (loaded, repo) else reload version
  | some (some version), none => reload version
  | _, _ => reload []

/-- `invalidate()` after a write: the store has the document under a new version. -/
def Repository.written (document : Json) (version : Str) : Repository where
  store := ⟨some (some version), some document⟩
  cache := none
  cacheKey := []
  coherent := nofun

/-- The answer for a policy that cannot be read. -/
def corruptEntry : Json := .obj [(lit "corrupt", .bool true)]

/-- The entry of a view under a key. -/
def Loaded.entry (loaded : Loaded) (pair : Str × Str) : Option Json :=
  match loaded with
  | .ok state => (buildIndex state).get (toolKey pair)
  | .corrupt => some corruptEntry

/-- `getMcpToolEntry(agent, tool)`. -/
def Repository.getMcpToolEntry (agent tool : Str) : Option Json × Repository :=
  (repo.load.1.entry (agent, tool), repo.load.2)

/-- `mutate(updater)`; `version` is the version of the written document. -/
def Repository.mutate (updater : PolicyState → PolicyState) (version : Str) :
    Except Str PolicyState × Repository :=
  match repo.load with
  | (.corrupt, repo) => (.error "policy-state is corrupt; refusing to overwrite", repo)
  | (.ok state, repo) =>
    match validateState (updater state).toJson with
    | .error message => (.error message, repo)
    | .ok validated => (.ok validated, .written validated.toJson version)

/-! ## Decisions -/

/-- The decision for a caller. -/
structure Decision where
  allow : Bool
  code : Str
  status : Nat
  access : Option Json
  delegated : Bool
  deriving DecidableEq

/-- A refusal. -/
def denied (code : Str) (status : Nat) : Decision := ⟨false, code, status, none, false⟩

/-- An admission. -/
def allowed (access : Option Json) (delegated : Bool) : Decision := ⟨true, [], 200, access, delegated⟩

/-- The value is an object or an array. -/
def isObjectValue (value : Option Json) : Bool :=
  match value with
  | some (.obj _) => true
  | some (.arr _) => true
  | _ => false

/-- `_decide(entry, { tool, caller })`. -/
def decideEntry (entry : Option Json) (tool : Str) (caller : Json) : Decision :=
  match entry with
  | none => denied "AGENT_POLICY_DENIED" 403
  | some entry =>
    if truthy (entry.prop "corrupt") then denied "POLICY_PERSISTENCE_ERROR" 500
    else if entry.prop "enabled" = some (.bool false) then denied "AGENT_POLICY_DENIED" 403
    else
      let access := entry.prop "access"
      let kind := caller.prop "kind"
      if isStr kind "agent" then
        if isObjectValue (caller.prop "delegatedUser") then
          if isStr access "authenticated" && strOr (caller.prop "delegatedTool") [] == tool then
            allowed access true
          else denied "AGENT_POLICY_DENIED" 403
        else if isStr access "internal" then allowed access false
        else denied "AGENT_POLICY_DENIED" 403
      else if isStr kind "user" || isStr kind "guest" then
        if isStr access "authenticated" then allowed access false
        else if isStr access "admin" then
          if truthy (caller.prop "isAdmin") then allowed access false
          else denied "ADMIN_REQUIRED" 403
        else denied "AGENT_POLICY_DENIED" 403
      else denied "AUTH_REQUIRED" 401

/-- `evaluate({ agent, tool, caller })`. -/
def evaluate (agent tool : Str) (caller : Json) : Decision × Repository :=
  (decideEntry (repo.getMcpToolEntry agent tool).1 tool caller, (repo.getMcpToolEntry agent tool).2)

/-- The name of a tool of a list; a tool without a text for a name has none. -/
def toolName (tool : Json) : Str :=
  match tool.prop "name" with
  | some (.str name) => name
  | _ => []

/-- `filterTools(agent, tools, caller)`. -/
def filterTools (agent : Str) (tools : List Json) (caller : Json) :
    List Json × Repository :=
  if tools.isEmpty then ([], repo)
  else
    (tools.filter fun tool =>
      !(toolName tool).isEmpty &&
        (decideEntry (repo.load.1.entry (agent, toolName tool)) (toolName tool) caller).allow,
      repo.load.2)

/-! ## Defaults -/

/-- A default of `collectDefaults`: the names are not empty. -/
structure ToolDefault where
  agent : Str
  tool : Str
  access : ToolAccess
  agent_ne : agent ≠ []
  tool_ne : tool ≠ []

/-- The agent and the tool of a default. -/
def ToolDefault.pair (default : ToolDefault) : Str × Str := (default.agent, default.tool)

/-- The entry that is persisted for a default. -/
def bootEntry (now : Str) (default : ToolDefault) : Json :=
  .obj [(lit "agent", .str default.agent), (lit "tool", .str default.tool),
    (lit "access", .str default.access.text), (lit "source", .str "mcp-config"),
    (lit "enabled", .bool true), (lit "createdAt", .str now), (lit "createdBy", .str "router:boot"),
    (lit "updatedAt", .str now), (lit "updatedBy", .str "router:boot")]

/-- The defaults whose key is not seen yet, each key once. -/
def newDefaults (seen : List Str) : List ToolDefault → List ToolDefault
  | [] => []
  | default :: rest =>
    if toolKey default.pair ∈ seen then newDefaults seen rest
    else default :: newDefaults (toolKey default.pair :: seen) rest

/-- The defaults that a state has no entry for. -/
def missingDefaults (state : PolicyState) (defaults : List ToolDefault) : List ToolDefault :=
  newDefaults (state.mcpTools.map fun entry => toolKey (entryPair entry)) defaults

/-- The updater of `bootstrapDefaults`. -/
def addDefaults (now : Str) (defaults : List ToolDefault) (state : PolicyState) : PolicyState where
  httpRoutes := state.httpRoutes
  mcpTools := state.mcpTools ++ (missingDefaults state defaults).map (bootEntry now)

/-- `bootstrapDefaults(defaults)` with the count it returns. A refused mutation is logged. -/
def bootstrapDefaults (now version : Str) (defaults : List ToolDefault) :
    Nat × Repository :=
  if defaults.isEmpty then (0, repo)
  else
    let added := match repo.load.1 with
      | .ok state => (missingDefaults state defaults).length
      | .corrupt => 0
    (added, (repo.mutate (addDefaults now defaults) version).2)

end Ploinky.ToolPolicy
