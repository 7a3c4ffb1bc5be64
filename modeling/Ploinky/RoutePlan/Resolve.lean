import Ploinky.RoutePlan.AgentPort

/-!
# Resolving the plan of a request

`resolveEdgeRoutePlan` tries, in a fixed order, the agent-port convention, the private operations, the
surfaces and service routes of a public host, its root application, its owner, and the agents that a
control host names by their first path segment.
-/

namespace Ploinky.RoutePlan

open Js Policy Manifest AgentPort Edge

/-- What a plan of an agent's root path dials. -/
inductive Target where
  | active (hostPort : Nat)
  | pending (diagnosticCategory : Str) (hardwareAvailability : Option Json)
  deriving DecidableEq

/-- A plan of kind `agent-root`, or `agent-root-pending` when its target is pending. -/
structure AgentRootPlan where
  listener : Listener
  host : Str
  hostSelection : HostSelection
  pathname : Str
  canonicalPath : Str
  url : Url
  routeKey : Str
  route : Json
  upstreamPath : Str
  decision : Decision
  forwarding : Forwarding
  transport : Transport
  target : Target
  deriving DecidableEq

/-- What a request to a running process of an agent asks for. -/
inductive AgentExec where
  | start
  | stream (execId : Str) (start : Nat)
  | input (execId : Str)
  | kill (execId : Str)
  deriving DecidableEq

/-- An operation of the private listener. -/
inductive PrivateOperation where
  | workspaceLogs
  | workspaceMetrics
  | runtimeOrigins
  | turnCredentials
  | agentExec (request : AgentExec)
  deriving DecidableEq

/-- A plan with `ok: true`. -/
inductive Plan where
  | privateOperation (operation : PrivateOperation)
  | routerSurface (surface : Str) (forwarding : Forwarding)
  | mountRedirect (location : Str)
  | agentRoot (plan : AgentRootPlan)
  | agentPort (plan : AgentPortPlan)
  deriving DecidableEq

variable (ctx : Context)

/-- `url.pathname || '/'`. -/
def Context.pathname : Str :=
  if ctx.url.pathname.isEmpty then ['/'] else ctx.url.pathname

/-- `deny(status, code, { lease, hostSelection })`. -/
def Context.deny {α : Type} (status : Nat) (code : Str) : Except Refusal α :=
  RoutePlan.deny ctx.hostSelection status code

/-! ## The root path of an agent -/

/-- The agent that `agentRootPlan` resolves a path to. A draining route is found only by its own
path. -/
def Context.agentOf (selectedRoot : Option HostRecord) : Option AgentPath :=
  match resolveAgentPath ctx.pathname ctx.routes selectedRoot, selectedRoot with
  | some agent, _ => some agent
  | none, some _ => none
  | none, none => resolveDrainingAgentPath ctx.pathname ctx.routes

/-- A TCP port as the routing source has it. -/
def servicePort (platform : Platform) (value : Option Json) : Option Nat :=
  match value.filter Json.truthy with
  | none => none
  | some json => (numberOf platform json).filter fun port => 1 ≤ port && port ≤ 65535

/-- The fields that all plans of an agent's root path share. -/
def Context.rootPlanOf (agent : AgentPath) (decision : Decision)
    (forwarding : Forwarding) (target : Target) : AgentRootPlan where
  listener := ctx.listener
  host := ctx.host
  hostSelection := ctx.hostSelection
  pathname := ctx.pathname
  canonicalPath := agent.canonicalPath
  url := ctx.url
  routeKey := agent.routeKey
  route := agent.route
  upstreamPath := agent.upstreamPath ++ ctx.url.search
  decision := decision
  forwarding := forwarding
  transport := ctx.transport
  target := target

/-- The answer for an agent that cannot be dialled: a pending plan, or a denial for a transport other
than HTTP. -/
def Context.pendingPlan (agent : AgentPath) (decision : Decision)
    (forwarding : Forwarding) (code : Str) (hardware : Option Json) :
    Except Refusal AgentRootPlan :=
  if ctx.transport = .http then
    .ok (ctx.rootPlanOf agent decision forwarding (.pending code hardware))
  else .error (.denied {
    matched := true, status := 503, code, hostSelection := some ctx.hostSelection
    decision := some decision, hardwareAvailability := hardware })

variable (router : Router)

/-- `agentRootPlan({ ..., selectedRoot })`. -/
def Context.agentRootPlan (selectedRoot : Option HostRecord) :
    Except Refusal AgentRootPlan :=
  match ctx.agentOf selectedRoot with
  | none => ctx.deny 404 "ROUTE_NOT_FOUND"
  | some agent => do
      let decision := (snapshotPolicy ctx.lease.snapshot.compiled.policy).evaluate
        agent.canonicalPath ctx.req.methodOrGet agent.routeKey
      let forwarding ← orThrow
        (canonicalForwardingMetadata router ctx.host ctx.listener ctx.hostSelection)
      match leaseRouteHardwareAvailability ctx.lease agent.routeKey with
      | some hardware =>
        ctx.pendingPlan agent decision forwarding "AGENT_HARDWARE_UNAVAILABLE" (some hardware)
      | none =>
        -- A draining route never yields the target of its predecessor.
        if agent.route.prop "draining" = some (.bool true) then
          ctx.pendingPlan agent decision forwarding "AGENT_ROUTE_DRAINING" none
        else match servicePort router.platform (agent.route.prop "hostPort") with
          | none => ctx.pendingPlan agent decision forwarding "TARGET_INACTIVE" none
          | some hostPort => return ctx.rootPlanOf agent decision forwarding (.active hostPort)

/-! ## The startup probe -/

namespace AgentStartup

/-- `headerEntry(req, name)` for a name in lower case. -/
def headerEntry (req : Request) (name : Str) : Option Header :=
  (req.headers.find? fun entry => toLowerCase entry.1 == name).map Prod.snd

/-- `isMcpPath(value)`. -/
def isMcpPath (value : Str) : Bool := isRouteMount (before value '?') "/mcp"

/-- `hasInternalAgentSegment(value)`; an undecodable path counts. -/
def hasInternalAgentSegment (value : Str) : Bool :=
  match (segmentsOf (before value '?')).mapM decodeURIComponent with
  | none => true
  | some segments => segments.contains (lit "__agent")

/-- `hasBearerAuthorization(req)`. -/
def hasBearerAuthorization (req : Request) : Bool :=
  match headerEntry req "authorization" with
  | some (.text value) =>
    toLowerCase (value.take 6) == lit "bearer" && (value.drop 6).head?.all isSpace
  | _ => false

/-- `isOrdinaryAgentStartupRoute(req, routePlan)` for a plan of an agent's root path. -/
def isOrdinaryAgentStartupRoute (req : Request) (plan : AgentRootPlan) : Bool :=
  plan.transport != .websocket &&
    !(isMcpPath plan.upstreamPath || isMcpPath plan.pathname) &&
    !(hasInternalAgentSegment plan.upstreamPath || hasInternalAgentSegment plan.canonicalPath ||
      hasInternalAgentSegment plan.pathname) &&
    !hasBearerAuthorization req

/-- `classifyAgentStartupRequest(req, { routePlan }) === 'probe'`. -/
def isProbe (req : Request) (plan : AgentRootPlan) : Bool :=
  req.method == lit "GET" && isOrdinaryAgentStartupRoute req plan &&
    headerEntry req "x-ploinky-agent-startup-probe" == some (.text "1")

end AgentStartup

/-! ## The private listener -/

/-- The text after `pre`, when the text starts with it. -/
def afterLead (text pre : Str) : Option Str :=
  if startsWith text pre then some (text.drop pre.length) else none

/-- The number of a query `?from=<seq>`, or zero for an empty query. -/
def streamStart (search : Str) : Option Nat :=
  if search.isEmpty then some 0
  else (afterLead search "?from=").bind fun digits =>
    if !digits.isEmpty && digits.all isDigit && digits.length ≤ 15 then some (decimal digits)
    else none

/-- The path of the process operations. -/
def agentExecPath : Str := "/api/edge/agent-exec"

/-- The process operation of the part of a path after `agentExecPath`. -/
def agentExecRequest (method rest search : Str) : Option AgentExec :=
  match split rest '/' with
  | [[]] => if method = lit "POST" ∧ search.isEmpty then some .start else none
  | [[], execId] =>
    if isExecId execId ∧ method = lit "DELETE" ∧ search.isEmpty then some (.kill execId) else none
  | [[], execId, leaf] =>
    if !isExecId execId then none
    else if leaf = lit "stream" then
      if method = lit "GET" then (streamStart search).map (.stream execId) else none
    else if leaf = lit "input" ∧ method = lit "POST" ∧ search.isEmpty then some (.input execId)
    else none
  | _ => none
where
  /-- The pattern `[a-f0-9]{32}`. -/
  isExecId (text : Str) : Bool := decide (text.length = 32) && text.all isLowerHex

/-- The operations of the private listener. -/
def Context.privateOperation : Except Refusal PrivateOperation :=
  let pathname := ctx.pathname
  if pathname = lit "/api/edge/workspace-logs" then
    if ctx.req.method ≠ lit "POST" ∨ !ctx.url.search.isEmpty then
      ctx.deny 400 "WORKSPACE_LOGS_REQUEST_INVALID"
    else .ok .workspaceLogs
  else if pathname = lit "/api/edge/workspace-metrics" then
    if ctx.url.search ≠ lit "?follow=1" then ctx.deny 400 "WORKSPACE_METRICS_QUERY_INVALID"
    else .ok .workspaceMetrics
  else if pathname = lit "/api/edge/runtime-origins" then
    -- An exact metadata read: the raw target is the bare path.
    if toUpperCase ctx.req.method ≠ lit "GET" ∨ !ctx.url.search.isEmpty ∨ ctx.req.url ≠ pathname then
      ctx.deny 400 "RUNTIME_ORIGINS_REQUEST_INVALID"
    else .ok .runtimeOrigins
  else if pathname = lit "/api/edge/turn-credentials" then .ok .turnCredentials
  else if isRouteMount pathname agentExecPath then
    match agentExecRequest (toUpperCase ctx.req.method) (pathname.drop agentExecPath.length)
        ctx.url.search with
    | none => ctx.deny 400 "AGENT_EXEC_REQUEST_INVALID"
    | some request => .ok (.agentExec request)
  else ctx.deny 404 "PRIVATE_ROUTE_SURFACE_DENIED"

/-! ## Public hosts -/

/-- `routerSurfacePlan({ ..., surface })`. -/
def Context.routerSurfacePlan (surface : Str) :
    Except Refusal Plan := do
  let forwarding ← orThrow
    (canonicalForwardingMetadata router ctx.host .publicListener ctx.hostSelection)
  return .routerSurface surface forwarding

/-- `ownerMountRedirectPlan({ ... })`. -/
def Context.ownerMountRedirectPlan (ownerRouteKey : Str) : Except Refusal Plan :=
  let method := toUpperCase ctx.req.methodOrGet
  if ctx.transport ≠ .http ∨ (method ≠ lit "GET" ∧ method ≠ lit "HEAD") then
    ctx.deny 404 "ROUTE_NOT_FOUND"
  else .ok (.mountRedirect ('/' :: encodeURIComponent ownerRouteKey ++ '/' :: ctx.url.search))

/-- The request target by which a root application is reached through the convention. -/
def Context.rootTarget (root : RootApplication) : Str :=
  '/' :: agentPortRoute ++ '/' :: encodeURIComponent root.routeKey ++ '/' :: ofNat root.port ++
    (if ctx.req.url.isEmpty then ctx.pathname ++ ctx.url.search else ctx.req.url)

/-- The plan of a path that a root application serves. The startup probe keeps the authorization
context of the owner. -/
def Context.rootApplicationPlan (record : HostRecord)
    (root : RootApplication) (agentMcpRoutes : List Str) : Except Refusal Plan :=
  let application : Except Refusal Plan := do
    let plan ← orThrow (← ctx.agentPortPlan router (ctx.rootTarget root) true)
    return .agentPort plan
  if (selectedStartupProbeRoute ctx.pathname agentMcpRoutes).isNone then application
  else match ctx.agentRootPlan router (some record) with
    | .ok plan => if AgentStartup.isProbe ctx.req plan then .ok (.agentRoot plan) else application
    | .error .thrown => .error .thrown
    | .error (.denied _) => application

/-- `snapshot.compiled.surfaces?.[host] || []` as a set; an inherited property is no list. -/
def hostSurfaces (snapshot : Snapshot) (host : Str) : Except Refusal (List Str) :=
  match snapshot.compiled.surfaces.lookup host with
  | some surfaces => .ok surfaces
  | none => if host ∈ inheritedNames then .error .thrown else .ok []

/-- The part of `resolveEdgeRoutePlan` for a public host after the surfaces of the router and the
service routes. -/
def Context.ownerPlan (record : HostRecord) (ownerMcp : Bool)
    (agentMcpRoutes : List Str) : Except Refusal Plan :=
  let applicationAdmin := record.rootApplication.isSome && isRouteMount ctx.pathname "/admin"
  let owner : Except Refusal Plan := Plan.agentRoot <$> ctx.agentRootPlan router (some record)
  if isReservedRouterSurface ctx.pathname && !ownerMcp && !applicationAdmin then
    ctx.deny 404 "ROUTE_SURFACE_DENIED"
  else match record.rootApplication with
    | none => owner
    | some root =>
      if ownerMcp then owner
      else match ownerMountSelection ctx.pathname record.routeKey with
        | none => ctx.deny 400 "MALFORMED_URL"
        | some .exact => ctx.ownerMountRedirectPlan record.routeKey
        | some .nested => owner
        | some .application => ctx.rootApplicationPlan router record root agentMcpRoutes

/-- The part of `resolveEdgeRoutePlan` for a public host, given the surface of the path. -/
def Context.surfacePlan (record : HostRecord)
    (services : ServiceRoutes) (surface : Option Surface) : Except Refusal Plan :=
  match surface with
  | some (.routerOwned name) => ctx.routerSurfacePlan router name
  | some (.agentMcp _) => Plan.agentRoot <$> ctx.agentRootPlan router none
  | _ =>
    match selectedDependencyHttpRoute ctx.pathname ctx.routes record.routeKey
        services.dependencyHttpRoutes with
    | some _ => Plan.agentRoot <$> ctx.agentRootPlan router none
    | none => ctx.ownerPlan router record surface.isSome services.agentMcpRoutes

/-- The part of `resolveEdgeRoutePlan` for a public host. -/
def Context.publicHostPlan (record : HostRecord) :
    Except Refusal Plan := do
  let services := edgeHostServiceRoutes router.platform ctx.lease.snapshot ctx.host
  let surfaces ← hostSurfaces ctx.lease.snapshot ctx.host
  ctx.surfacePlan router record services
    (surfaceForPath ctx.pathname surfaces services.agentMcpRoutes record.routeKey)

/-! ## The planner -/

/-- The part of `resolveEdgeRoutePlan` for a control or managed host. -/
def Context.directPlan : Except Refusal Plan :=
  match ctx.agentRootPlan router none, ctx.hostSelection with
  | .error (.denied denial), .control .. =>
    if denial.matched then .error (.denied denial) else ctx.deny 404 "ROUTE_NOT_FOUND"
  | .error refusal, _ => .error refusal
  | .ok plan, _ => .ok (.agentRoot plan)

/-- The part of `resolveEdgeRoutePlan` after the agent-port convention. -/
def Context.planOutsideConvention : Except Refusal Plan :=
  if ctx.listener = .privateListener then Plan.privateOperation <$> ctx.privateOperation
  else if isEncodedRouterSurfaceSpelling ctx.pathname then ctx.deny 400 "NONCANONICAL_ROUTER_PATH"
  else match ctx.hostSelection with
    | .agentRoot _ record => ctx.publicHostPlan router record
    | .control .. =>
      if isRouteMount ctx.pathname "/webtty" then ctx.routerSurfacePlan router "webtty"
      else ctx.directPlan router
    | .managedAgent .. =>
      if isReservedRouterSurface ctx.pathname then ctx.deny 404 "ROUTE_SURFACE_DENIED"
      else ctx.directPlan router
    | _ => ctx.directPlan router

/-- The part of `resolveEdgeRoutePlan` for a host that is served. -/
def Context.plan : Except Refusal Plan := do
  match ← ctx.agentPortPlan router ctx.rawTarget with
  | some plan => return .agentPort plan
  | none => ctx.planOutsideConvention router

/-- `new URL(req?.url || '/', base)` unless the caller has parsed the target. -/
def requestUrl (platform : Platform) (req : Request) (host : Str) : Option Url → Option Url
  | some url => some url
  | none => platform.parseUrl (if req.url.isEmpty then ['/'] else req.url)
      (lit "http://" ++ (if host = lit "::1" then lit "[::1]" else host))

/-- `resolveEdgeRoutePlan({ req, parsedUrl, listener, transport })` for a captured generation. -/
def resolveLeasedPlan (lease : Lease) (req : Request) (parsedUrl : Option Url)
    (listener : Listener) (transport : Transport) : Except Refusal Plan :=
  let refuse (status : Nat) (code : Str) : Except Refusal Plan := .error (.denied { status, code })
  match normalizeExactHost router.platform (req.headers.lookup (lit "host")) with
  | none => refuse 400 "MALFORMED_HOST"
  | some host =>
    if listener = .privateListener ∧ ¬ req.onPrivateServer then
      refuse 403 "PRIVATE_INTERFACE_DENIED"
    else match requestUrl router.platform req host parsedUrl with
      | none => refuse 400 "MALFORMED_URL"
      | some url =>
        match classifyHost router host listener lease.snapshot with
        | none => refuse 421 "UNKNOWN_HOST"
        | some (.inactivePublic host record) =>
          deny (.inactivePublic host record) 503 "HOST_SELECTOR_INACTIVE"
        | some hostSelection =>
          Context.plan { req, host, listener, url, hostSelection, lease, transport } router

/-- `resolveEdgeRoutePlan({ req, parsedUrl, listener, transport })`, given the captured generation or
the code of the failure to capture one. -/
def resolveEdgeRoutePlan (captured : Except Str Lease) (req : Request)
    (parsedUrl : Option Url) (listener : Listener) (transport : Transport) : Except Refusal Plan :=
  match captured with
  | .error code =>
    .error (.denied {
      status := 503, code := if code.isEmpty then "EDGE_GENERATION_INACTIVE" else code })
  | .ok lease => resolveLeasedPlan router lease req parsedUrl listener transport

end Ploinky.RoutePlan
