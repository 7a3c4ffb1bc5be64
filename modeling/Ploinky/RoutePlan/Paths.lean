import Ploinky.RoutePlan.Host

/-!
# Which agent or surface a path names

The functions by which the route planner reads a path: as the path of an agent, as a surface of the
router, and as one of the service routes of a public host. They read the path in different ways, some
by its decoded first segment and some by its raw text.
-/

namespace Ploinky.RoutePlan

open Js Policy Edge

/-- A route together with its key. -/
structure Selected where
  routeKey : Str
  route : Json
  deriving DecidableEq

/-- `exactRoute(routes, routeKey)`. -/
def exactRoute (routes : Table Json) (routeKey : Str) : Option Selected :=
  match objectAt routes routeKey with
  | none => none
  | some route =>
    if isEnabled route && !truthy (route.prop "draining") then some ⟨routeKey, route⟩ else none

/-- The agent a path names, with the path its policy is evaluated on and the path it is sent. -/
structure AgentPath extends Selected where
  canonicalPath : Str
  upstreamPath : Str
  deriving DecidableEq

variable (pathname : Str)

/-- `String(pathname || '').split('/').filter(Boolean)`. -/
def segmentsOf : List Str := nonEmpty (split pathname '/')

/-- The path without its first segment. -/
def upstreamOf : Str :=
  match (pathname.drop 1).dropWhile (· != '/') with
  | [] => ['/']
  | rest => rest

/-- The decoded first segment of a path. -/
def firstSegment : Option Str :=
  (segmentsOf pathname).head?.bind decodeURIComponent

/-- `resolveAgentPath(pathname, routes, null)`. -/
def resolveDirectAgentPath (routes : Table Json) : Option AgentPath := do
  let routeKey ← firstSegment pathname
  let selected ← exactRoute routes routeKey
  return { selected with canonicalPath := pathname, upstreamPath := upstreamOf pathname }

/-- Whether the first segment of a path names the root of a host; nothing when it does not decode. -/
def explicitlySelectsRoot (pathname routeKey : Str) : Option Bool :=
  match segmentsOf pathname with
  | [] => some false
  | first :: _ => (decodeURIComponent first).map fun decoded => decoded == routeKey

/-- `resolveAgentPath(pathname, routes, selectedRoot)` for the root of a host. -/
def resolveRootAgentPath (routes : Table Json) (rootRouteKey : Str) :
    Option AgentPath := do
  let selected ← exactRoute routes rootRouteKey
  if ← explicitlySelectsRoot pathname selected.routeKey then
    return { selected with canonicalPath := pathname, upstreamPath := upstreamOf pathname }
  else
    return { selected with
      canonicalPath := '/' :: encodeURIComponent selected.routeKey ++ pathname
      upstreamPath := pathname }

/-- `resolveAgentPath(pathname, routes, selectedRoot)`. -/
def resolveAgentPath (routes : Table Json) (selectedRoot : Option HostRecord) :
    Option AgentPath :=
  match selectedRoot with
  | some record => resolveRootAgentPath pathname routes record.routeKey
  | none => resolveDirectAgentPath pathname routes

/-- `resolveDrainingAgentPath(pathname, routes)`, which reads own properties only. -/
def resolveDrainingAgentPath (routes : Table Json) : Option AgentPath := do
  let routeKey ← firstSegment pathname
  let route ← routes.lookup routeKey
  if isEnabled route && route.prop "draining" == some (.bool true) then
    return { routeKey, route, canonicalPath := pathname, upstreamPath := upstreamOf pathname }
  else none

/-- `isRouteMount(pathname, root)`. -/
def isRouteMount (pathname root : Str) : Bool :=
  pathname == root || startsWith pathname (root ++ ['/'])

/-! ## The mount of the owner -/

/-- How a path on the host of a root application relates to the explicit mount of the owner. -/
inductive OwnerMount where
  | application
  | exact
  | nested
  deriving DecidableEq

/-- `ownerMountSelection(pathname, ownerRouteKey)`; nothing when the first segment does not
decode. -/
def ownerMountSelection (pathname ownerRouteKey : Str) : Option OwnerMount := do
  let segments := split pathname '/'
  let first ← decodeURIComponent ((segments.drop 1).head?.getD [])
  if first.isEmpty || first != ownerRouteKey then return .application
  else if segments.length = 2 then return .exact
  else return .nested

/-! ## Service routes -/

/-- `selectedAgentMcpRoute(pathname, routeKeys)`. -/
def selectedAgentMcpRoute (routeKeys : List Str) : Option Str :=
  match segmentsOf pathname with
  | first :: _ :: _ => do
      let routeKey ← decodeURIComponent first
      if routeKeys.contains routeKey && isRouteMount pathname ('/' :: first ++ lit "/mcp") then
        return routeKey
      else none
  | _ => none

/-- `selectedDependencyHttpRoute(pathname, routes, selectedRootRouteKey, routeSpecs)`. -/
def selectedDependencyHttpRoute (routes : Table Json) (rootRouteKey : Str)
    (routeSpecs : List ServiceRoute) : Option Str := do
  let candidate ← resolveDirectAgentPath pathname routes
  if candidate.routeKey != rootRouteKey && routeSpecs.any (fun entry =>
      entry.routeKey == candidate.routeKey && matchesPath candidate.canonicalPath entry.path) then
    return candidate.routeKey
  else none

/-- `selectedStartupProbeRoute(pathname, routeKeys)`. -/
def selectedStartupProbeRoute (routeKeys : List Str) : Option Str :=
  match split pathname '/' with
  | [[], first, []] =>
    if first.isEmpty then none
    else do
      let routeKey ← decodeURIComponent first
      if routeKeys.contains routeKey then return routeKey else none
  | _ => none

/-! ## Surfaces of the router -/

/-- `isSelectedRootUserAdminPath(pathname, selectedRootRouteKey)`. -/
def isSelectedRootUserAdminPath (pathname rootRouteKey : Str) : Bool :=
  !rootRouteKey.isEmpty && match split pathname '/' with
    | [[], api, agents, rawRouteKey, leaf] =>
      api == lit "api" && agents == lit "agents" &&
        decodeURIComponent rawRouteKey == some rootRouteKey &&
        (leaf == lit "settings" || leaf == lit "users")
    | [[], api, agents, rawRouteKey, leaf, rawUserId] =>
      api == lit "api" && agents == lit "agents" &&
        decodeURIComponent rawRouteKey == some rootRouteKey && leaf == lit "users" &&
        (decodeURIComponent rawUserId).any fun userId =>
          !userId.isEmpty && !userId.contains '/' && !userId.contains '\\'
    | _ => false

/-- The paths of the browser login. -/
def agentRootAuthSupportPaths : List Str :=
  ["/auth/callback", "/auth/logged-out", "/auth/login", "/auth/logout", "/auth/account",
    "/auth/token"]

/-- A surface of a public host. The MCP surface of an agent is served by the agent, all others by the
router. -/
inductive Surface where
  | routerOwned (name : Str)
  | ownerMcp
  | agentMcp (routeKey : Str)
  deriving DecidableEq

/-- The `agent-mcp` part of `surfaceForPath`. -/
def mcpSurface (agentMcpRoutes : List Str) : Option Surface :=
  if isRouteMount pathname "/mcp" then some .ownerMcp
  else match selectedAgentMcpRoute pathname agentMcpRoutes with
    | some routeKey => some (.agentMcp routeKey)
    | none =>
      if pathname == lit "/MCPBrowserClient.js" || isRouteMount pathname "/web-libs" then
        some (.routerOwned "agent-mcp")
      else none

/-- The part of `surfaceForPath` after the MCP surface. -/
def assetSurface (available : List Str) : Option Surface :=
  if available.contains (lit "workspace-assets") && isRouteMount pathname "/workspace-files" then
    some (.routerOwned "workspace-assets")
  else if available.contains (lit "blob-transfer") &&
      (pathname == lit "/upload" || isRouteMount pathname "/blobs") then
    some (.routerOwned "blob-transfer")
  else if available.contains (lit "marketplace-ui") && isRouteMount pathname "/api/marketplace" then
    some (.routerOwned "marketplace-ui")
  else if available.contains (lit "webchat") && isRouteMount pathname "/webchat" then
    some (.routerOwned "webchat")
  else if available.contains (lit "webtty") && isRouteMount pathname "/webtty" then
    some (.routerOwned "webtty")
  else none

/-- `surfaceForPath(pathname, selectedSurfaces, agentMcpRoutes, selectedRootRouteKey)`. -/
def surfaceForPath (available agentMcpRoutes : List Str) (rootRouteKey : Str) :
    Option Surface :=
  if available.contains (lit "browser-auth") && agentRootAuthSupportPaths.contains pathname then
    some (.routerOwned "browser-auth")
  else if available.contains (lit "user-admin") &&
      isSelectedRootUserAdminPath pathname rootRouteKey then
    some (.routerOwned "user-admin")
  else match (if available.contains (lit "agent-mcp") then mcpSurface pathname agentMcpRoutes
      else none) with
    | some surface => some surface
    | none => assetSurface pathname available

/-- The mounts of the router that a public host never leaves to an agent. -/
def reservedMounts : List Str :=
  ["/health", "/metrics", "/agent-card", "/mcp", "/auth", "/policy", "/admin", "/__agent",
    "/api/edge", "/api/agents", "/api/marketplace", "/status", "/webchat", "/webtty", "/web-libs",
    "/workspace-files", "/blobs"]

/-- `isReservedRouterSurface(pathname)`. -/
def isReservedRouterSurface : Bool :=
  reservedMounts.any (isRouteMount pathname) || pathname == lit "/MCPBrowserClient.js" ||
    pathname == lit "/upload" || startsWith pathname "/api/router/"

/-- The decoding passes of `isEncodedRouterSurfaceSpelling`. -/
def encodedSpellingFrom : Nat → Str → Bool
  | 0, _ => false
  | passes + 1, current =>
    match decodeURIComponent current with
    | none => false
    | some decoded =>
      if decoded = current then false
      else isReservedRouterSurface decoded || encodedSpellingFrom passes decoded

/-- `isEncodedRouterSurfaceSpelling(pathname)`: the path names a mount of the router only after
percent-decoding. -/
def isEncodedRouterSurfaceSpelling : Bool :=
  !isReservedRouterSurface pathname && encodedSpellingFrom 3 pathname

end Ploinky.RoutePlan
