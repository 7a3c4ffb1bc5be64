import Ploinky.RoutePlan.Paths

/-!
# Plans and the agent-port convention

The plans of the route planner, the reasons for which it gives none, and the plan of a target in the
agent-port convention. The checks of `agentPortPlan` are kept in their order: the route, its hardware
availability, its runtime, the ports its network mode denies, its relay policy and its access policy.
-/

namespace Ploinky.RoutePlan

open Js Policy Manifest AgentPort Edge

/-! ## Plans -/

/-- A plan with `ok: false`. -/
structure Denial where
  matched : Bool := false
  status : Nat
  code : Str
  listener : Option Listener := none
  hostSelection : Option HostSelection := none
  decision : Option Decision := none
  hardwareAvailability : Option Json := none
  deriving DecidableEq

/-- Why there is no plan: a denial, or an exception the planner does not catch. -/
inductive Refusal where
  | denied (denial : Denial)
  | thrown
  deriving DecidableEq

/-- `deny(status, code, { lease, hostSelection })`. -/
def deny {α : Type} (hostSelection : HostSelection) (status : Nat) (code : Str) :
    Except Refusal α :=
  .error (.denied { status, code, hostSelection := some hostSelection })

/-- A refusal for a value that an uncaught exception leaves missing. -/
def orThrow {α : Type} : Option α → Except Refusal α
  | some value => .ok value
  | none => .error .thrown

/-- The container that a plan of the convention relays to. -/
structure Relay where
  runtime : Str
  containerId : Str
  containerName : Str
  targetAgentId : Str
  effectiveInstanceId : Str
  enableGeneration : Str
  networkMode : Str
  deriving DecidableEq

/-- The authentication that an agent port asks for. -/
structure AuthDefinition where
  routeKey : Str
  route : Json
  port : Nat
  pathPrefix : Str
  access : Access
  guestScope : Str
  issueInvocation : Bool
  includeAuthInfo : Bool
  delegations : List Json
  deriving DecidableEq

/-- A plan of kind `agent-port`. -/
structure AgentPortPlan where
  listener : Listener
  host : Str
  hostSelection : HostSelection
  canonicalPath : Str
  url : Url
  routeKey : Str
  route : Json
  forwarding : Forwarding
  authDefinition : AuthDefinition
  port : Nat
  forwardedPrefix : Str
  unmatchedSuffix : Str
  relay : Relay
  deniedPorts : List Nat
  access : Decision
  method : Str
  query : Str
  transport : Transport
  requestOrigin : Option Str
  deriving DecidableEq

/-! ## The runtime of a route -/

/-- What the registry says about the running instance of a route. -/
structure Runtime where
  runtime : Str
  containerId : Str
  containerName : Str
  targetAgentId : Str
  effectiveInstanceId : Str
  enableGeneration : Str
  networkMode : Str
  deriving DecidableEq

/-- `normalizeSegment(value, label)`. -/
def normalizeSegment (value : Option Json) : Option Str :=
  match value with
  | some (.str text) =>
    let raw := trim text
    if raw.isEmpty || raw.contains '/' || raw.contains ':' || raw.any isSpace then none
    else some raw
  | _ => none

/-- `deriveAgentPrincipalId(repoName, agentName)`. -/
def deriveAgentPrincipalId (repoName agentName : Option Json) : Option Str := do
  let repo ← normalizeSegment repoName
  let agent ← normalizeSegment agentName
  return lit "agent:" ++ repo ++ '/' :: agent

/-- The first of the values that is truthy. -/
def firstTruthy (values : List (Option Json)) : Option Json :=
  (values.find? truthy).join

/-- The network mode of an instance: of its profile, else of its manifest, else `bridge`. -/
def networkModeOf (manifest : Option Json) (profileName : Str) : Str :=
  let profiles := ((field manifest "profiles").map Json.entries).getD []
  let profile := objectAt profiles profileName
  toLowerCase (trim (strOr (firstTruthy [field (field profile "network") "mode",
    field (field manifest "network") "mode"]) "bridge"))

/-- The pattern `/^[a-f0-9]{64}$/` of container ids. -/
def isContainerId (text : Str) : Bool := decide (text.length = 64) && text.all isLowerHex

/-- `exactAgentRuntime(snapshot, routeKey, route)`. -/
def exactAgentRuntime (snapshot : Snapshot) (routeKey : Str) (route : Json) : Option Runtime := do
  let containerName := trimmed (route.prop "container")
  let record ← objectAt snapshot.agents.entries containerName
  let runtime := trimmed (record.prop "runtime")
  let containerId := toLowerCase (trimmed (record.prop "containerId"))
  let effectiveInstanceId := trimmed (record.prop "instanceId")
  let enableGeneration := trimmed (record.prop "enableGeneration")
  if containerName.isEmpty || !isStr (record.prop "type") "agent" ||
      !sameAgent record (some route) then none
  else if !(runtime == lit "docker" || runtime == lit "podman") || !isContainerId containerId ||
      effectiveInstanceId.isEmpty || enableGeneration.isEmpty then none
  else
    let targetAgentId ← deriveAgentPrincipalId (record.prop "repoName") (record.prop "agentName")
    return {
      runtime, containerId, containerName, targetAgentId, effectiveInstanceId, enableGeneration
      networkMode := networkModeOf (objectAt snapshot.manifests routeKey)
        (strOr (record.prop "profile") []) }

/-- The agent-local ports that a runtime denies. -/
def Runtime.deniedPorts (runtime : Runtime) : List Nat :=
  if runtime.networkMode = lit "host" then [8080, 8081] else []

/-! ## The authentication of a convention path -/

/-- `manifestRouteSpecs(manifest)`. -/
def manifestRouteSpecs (manifest : Option Json) : List Json :=
  match routerAccess manifest "httpRoutes" with
  | some (.arr specs) => specs
  | some (.obj fields) => fields.map fun entry => match entry.2 with
      | .obj inner => withPath entry.1 inner
      | .arr _ => withPath entry.1 []
      | value => pathAccess entry.1 value
  | _ => []

/-- The first declaration of the manifest that matches a path with the access of the decision. -/
def matchingDeclaration (manifest : Option Json) (routeKey policyPath : Str) (access : Access) :
    Option Json :=
  (manifestRouteSpecs manifest).find? fun spec =>
    match normalizeManifestHttpRouteAccess spec routeKey with
    | .ok entry => matchesPath policyPath entry.path && entry.access == access
    | .error _ => false

/-- The `delegations` of a declaration, or nothing when `normalizeDelegations` fails. -/
def declaredDelegations (platform : Platform) (declaration : Option Json) (access : Access)
    (route : Json) : Option (List Json) :=
  match field declaration "delegations" with
  | some (.arr delegations) =>
    if access = .authenticated then platform.delegations delegations route else none
  | _ => some []

/-- `conventionAuthDefinition({ snapshot, routeKey, route, selector, decision })`. -/
def conventionAuthDefinition (platform : Platform) (snapshot : Snapshot) (selected : Selected)
    (selector : Selector) (decision : Decision) : Option AuthDefinition := do
  let declaration := matchingDeclaration (objectAt snapshot.manifests selected.routeKey)
    selected.routeKey selector.policyPath decision.access
  let pathPrefix := '/' :: agentPortRoute ++ '/' :: selector.rawAgent ++
    '/' :: selector.canonicalPort ++ ['/']
  if decision.access = .none ∨ decision.access = .deny then none
  else
    let delegations ← declaredDelegations platform declaration decision.access selected.route
    return {
      routeKey := selected.routeKey
      route := selected.route
      port := selector.port
      pathPrefix := pathPrefix
      access := decision.access
      guestScope := trim (lit "http-route:" ++ selected.routeKey ++ ':' :: pathPrefix)
      issueInvocation := decision.access != .public
      includeAuthInfo := decision.access != .public
      delegations := delegations }

/-! ## The plan -/

/-- The arguments of a planning step that all plans share. -/
structure Context where
  req : Request
  host : Str
  listener : Listener
  url : Url
  hostSelection : HostSelection
  lease : Lease
  transport : Transport

variable (ctx : Context)

/-- `snapshot.routing?.routes || {}`. -/
def Context.routes : Table Json := routesOf ctx.lease.snapshot.routing

/-- `req?.url || pathname + search`. -/
def rawTargetOf (req : Request) (url : Url) : Str :=
  if req.url.isEmpty then url.pathname ++ url.search else req.url

/-- The raw target of the request. -/
def Context.rawTarget : Str := rawTargetOf ctx.req ctx.url

/-- A denial of the agent-port plan, which names the listener. -/
def Context.denyPort {α : Type} (status : Nat) (code : Str)
    (decision : Option Decision := none) (hardwareAvailability : Option Json := none) :
    Except Refusal α :=
  .error (.denied {
    matched := true, status, code, listener := some ctx.listener
    hostSelection := some ctx.hostSelection, decision, hardwareAvailability })

/-- `parseAgentPortSelector(requestTarget, { deniedPorts })` with its errors as denials. -/
def Context.parseSelector (requestTarget : Str) (deniedPorts : List Nat) :
    Except Refusal (Option Selector) :=
  match parseAgentPortSelector requestTarget deniedPorts with
  | .ok selector => .ok selector
  | .error e => ctx.denyPort e.status e.code

/-- What the checks before the access decision establish. -/
structure Admitted where
  selected : Selected
  runtime : Runtime
  selector : Selector
  deriving DecidableEq

/-- The checks of `agentPortPlan` before the access decision. -/
def Context.admitSelector (requestTarget : Str) (agent : Str) :
    Except Refusal Admitted :=
  match exactRoute ctx.routes agent with
  | none => ctx.denyPort 404 "AGENT_OWNER_INACTIVE"
  | some selected =>
    match leaseRouteHardwareAvailability ctx.lease selected.routeKey with
    | some hardware => ctx.denyPort 503 "AGENT_HARDWARE_UNAVAILABLE" none (some hardware)
    | none =>
      match exactAgentRuntime ctx.lease.snapshot selected.routeKey selected.route with
      | none => ctx.denyPort 503 "AGENT_RUNTIME_INACTIVE"
      | some runtime => do
          let selector ← orThrow (← ctx.parseSelector requestTarget runtime.deniedPorts)
          match agentPortRelayPolicyFromManifest
              (objectAt ctx.lease.snapshot.manifests selected.routeKey) with
          | .error _ => ctx.denyPort 503 "POLICY_GENERATION_INVALID"
          | .ok relayPolicy =>
            match agentPortRelayDenial relayPolicy selector.port with
            | some (status, code) => ctx.denyPort status code
            | none => return { selected, runtime, selector }

/-- A manifest entry of the route matches the path. -/
def ownsPolicyPath (snapshot : Snapshot) (routeKey policyPath : Str) : Bool :=
  snapshot.compiled.policy.entries.any fun entry =>
    entry.source == lit "manifest" && entry.routeKey == routeKey && matchesPath policyPath entry.path

/-- `req?.headers?.origin` as a text. -/
def Request.origin (req : Request) : Str :=
  match req.headers.lookup (lit "origin") with
  | some (.text value) => value
  | some (.many values) => join values ','
  | none => []

/-- `createRoutePlan({ ... })` for an admitted selector and its decision. -/
def Context.portPlanOf (rootMount : Bool) (admitted : Admitted) (decision : Decision)
    (forwarding : Forwarding) (authDefinition : AuthDefinition) : AgentPortPlan :=
  let { selected, runtime, selector } := admitted
  { listener := ctx.listener
    host := ctx.host
    hostSelection := ctx.hostSelection
    canonicalPath := selector.policyPath
    url := ctx.url
    routeKey := selected.routeKey
    route := selected.route
    forwarding := forwarding
    authDefinition := authDefinition
    port := selector.port
    forwardedPrefix := if rootMount then [] else
      '/' :: agentPortRoute ++ '/' :: selector.rawAgent ++ '/' :: selector.canonicalPort
    unmatchedSuffix := selector.suffix
    relay := {
      runtime := runtime.runtime
      containerId := runtime.containerId
      containerName := runtime.containerName
      targetAgentId := runtime.targetAgentId
      effectiveInstanceId := runtime.effectiveInstanceId
      enableGeneration := runtime.enableGeneration
      networkMode := if runtime.networkMode = lit "host" then lit "host" else [] }
    deniedPorts := runtime.deniedPorts
    access := decision
    method := toUpperCase ctx.req.methodOrGet
    query := selector.query
    transport := ctx.transport
    requestOrigin := if decision.publicProtocol.isSome then some ctx.req.origin else none }

/-- The part of `agentPortPlan` after the access decision. -/
def Context.portPlan (router : Router) (rootMount : Bool) (admitted : Admitted)
    (decision : Decision) : Except Refusal AgentPortPlan := do
  let forwarding ← orThrow
    (canonicalForwardingMetadata router ctx.host ctx.listener ctx.hostSelection)
  match conventionAuthDefinition router.platform ctx.lease.snapshot admitted.selected
      admitted.selector decision with
  | none => ctx.denyPort 503 "POLICY_GENERATION_INVALID"
  | some authDefinition =>
    return ctx.portPlanOf rootMount admitted decision forwarding authDefinition

/-- The access decision of `agentPortPlan` and the plan it leads to. -/
def Context.decidePort (router : Router) (rootMount : Bool) (admitted : Admitted) :
    Except Refusal AgentPortPlan :=
  let { selected, selector, .. } := admitted
  let snapshot := ctx.lease.snapshot
  -- The administration surface of the router is no path of a root application that does not
  -- declare it.
  if rootMount && isRouteMount selector.suffix "/admin" &&
      !ownsPolicyPath snapshot selected.routeKey selector.policyPath then
    ctx.denyPort 404 "ROUTE_SURFACE_DENIED"
  else
    let decision := (snapshotPolicy snapshot.compiled.policy).evaluate selector.policyPath
      ctx.req.methodOrGet selected.routeKey
    if decision.access = .deny then
      ctx.denyPort (decision.status.getD 403)
        (if decision.code.isEmpty then "HTTP_ROUTE_ACCESS_DENIED" else decision.code) (some decision)
    else if decision.publicProtocol.isSome && ctx.transport != .http then
      ctx.denyPort 403 "PUBLIC_PROTOCOL_TRANSPORT_DENIED"
    else ctx.portPlan router rootMount admitted decision

/-- `agentPortPlan({ ..., requestTarget, rootMount })`; nothing for a target outside the
convention. -/
def Context.agentPortPlan (router : Router) (requestTarget : Str)
    (rootMount : Bool := false) : Except Refusal (Option AgentPortPlan) := do
  match ← ctx.parseSelector requestTarget [] with
  | none => return none
  | some selector =>
    let admitted ← ctx.admitSelector requestTarget selector.agent
    let plan ← ctx.decidePort router rootMount admitted
    return some plan

end Ploinky.RoutePlan
