import Ploinky.Edge.Generation

/-!
# The service routes of a host

What a public host admits for agents other than its owner. The compiled closure of the owner is the
base; a host that exposes the marketplace with an SSO owner also admits every enabled agent that
cannot widen admission. The extension is derived from the sources of the generation on each request,
and any failure leaves the compiled base.
-/

namespace Ploinky.Edge

open Js Policy Manifest

/-- A generation as the router serves from it. -/
structure Snapshot where
  generation : Str
  publicationState : Str
  routing : Json
  policy : Json
  desired : Desired
  agents : Json
  manifests : Table Json
  routerHostPort : Nat
  mediaHostPort : Nat
  routerPublicHosts : List Str
  routerOrigins : List Str
  compiled : Compiled
  deriving DecidableEq

/-- A captured generation together with the denials of the durable availability store. -/
structure Lease where
  snapshot : Snapshot
  denials : Option (Table Json)
  deriving DecidableEq

/-- The effective denial of a route: the compiled one first, else that of the store. -/
def leaseRouteHardwareAvailability (lease : Lease) (routeKey : Str) : Option Json :=
  match Hardware.routeHardwareAvailability lease.snapshot.compiled.hardwareAvailability routeKey with
  | some denial => some denial
  | none => (lease.denials.bind (·.lookup routeKey)).filter Json.truthy

/-- What a host admits for agents other than its owner. -/
structure ServiceRoutes where
  agentMcpRoutes : List Str
  dependencyHttpRoutes : List ServiceRoute
  deriving DecidableEq

/-- `compiledHostServiceRoutes(generation, hostname)`. An inherited property of the compiled tables is
no list, so that reading it fails. -/
def compiledHostServiceRoutes (compiled : Compiled) (hostname : Str) : Option ServiceRoutes :=
  match compiled.agentMcpRoutes.lookup hostname, compiled.dependencyHttpRoutes.lookup hostname with
  | some agentMcpRoutes, some dependencyHttpRoutes =>
    some { agentMcpRoutes, dependencyHttpRoutes }
  | agentMcpRoutes, dependencyHttpRoutes =>
    if hostname ∈ inheritedNames then none
    else some {
      agentMcpRoutes := agentMcpRoutes.getD []
      dependencyHttpRoutes := dependencyHttpRoutes.getD [] }

/-- Whether an enabled agent may join a marketplace host: its route default is authenticated, or its
own mode is guest. -/
def joinsMarketplace (snapshot : Snapshot) (routeKey : Str) (route : Json) : Except Str Bool :=
  match routeAgentRecord route snapshot.agents with
  | none => .ok false
  | some record => do
      let ownMode ← resolveAgentAuthPolicy (objectAt snapshot.manifests routeKey)
        (record.prop "auth")
      return (routeDefaultOf snapshot.compiled.policy.routeDefaults routeKey).any
          (fun decision => decision.access == .authenticated) || ownMode == .guest

/-- The enabled agents that may join a marketplace host. -/
def marketplaceAgents (snapshot : Snapshot) : Except Str (List Str) := do
  let groups ← (enabledEntries snapshot.routing).mapM fun entry => do
    return if ← joinsMarketplace snapshot entry.1 entry.2 then [entry.1] else []
  return groups.flatten

/-- Add an entry to a list of service routes that has at most one for each route key and path. -/
def admitServiceRoute (routes : List ServiceRoute) (entry : ServiceRoute) : List ServiceRoute :=
  if routes.contains entry then routes else routes ++ [entry]

/-- The extension of the service routes of a marketplace host. -/
def extendServiceRoutes (platform : Platform) (snapshot : Snapshot) (surfaces : List Str)
    (rootRouteKey : Str) (base : ServiceRoutes) : Except Str ServiceRoutes := do
  let enabled ← marketplaceAgents snapshot
  let manifestRoutes := (snapshot.compiled.policy.entries.filter fun entry =>
    entry.source == lit "manifest" && enabled.contains entry.routeKey &&
      entry.routeKey != rootRouteKey).map
      fun entry => { path := entry.path, routeKey := entry.routeKey : ServiceRoute }
  return {
    agentMcpRoutes :=
      if surfaces.contains (lit "agent-mcp") then
        (base.agentMcpRoutes ++ enabled).eraseDups.insertionSort (le · ·)
      else base.agentMcpRoutes
    dependencyHttpRoutes :=
      ((base.dependencyHttpRoutes ++ manifestRoutes).foldl admitServiceRoute []).insertionSort
        (ServiceRoute.le platform.localeLe · ·) }

/-- `hostServiceRoutesOf(generation, hostname)`; a failure is an exception of the source. -/
def hostServiceRoutesOf (platform : Platform) (snapshot : Snapshot) (hostname : Str) :
    Except Str ServiceRoutes :=
  match compiledHostServiceRoutes snapshot.compiled hostname with
  | none => .error (lit "compiled routes are not iterable")
  | some base =>
    match snapshot.compiled.surfaces.lookup hostname with
    | none => .ok base
    | some surfaces =>
      let rootRouteKey := ((snapshot.compiled.hosts.lookup hostname).map HostRecord.routeKey).getD []
      if !surfaces.contains (lit "marketplace-ui") then .ok base
      else match objectAt (routesOf snapshot.routing) rootRouteKey with
        | none => .ok base
        | some rootRoute =>
          if rootRouteKey.isEmpty || !isEnabled rootRoute then .ok base
          else do
            let rootRecord := routeAgentRecord rootRoute snapshot.agents
            let rootMode ← resolveAgentAuthPolicy (objectAt snapshot.manifests rootRouteKey)
              (rootRecord.bind (·.prop "auth"))
            if rootMode ≠ .sso then return base
            extendServiceRoutes platform snapshot surfaces rootRouteKey base

/-- `edgeHostServiceRoutes(generation, host)`. -/
def edgeHostServiceRoutes (platform : Platform) (snapshot : Snapshot) (host : Str) : ServiceRoutes :=
  match hostServiceRoutesOf platform snapshot host with
  | .ok routes => routes
  | .error _ =>
    (compiledHostServiceRoutes snapshot.compiled host).getD
      { agentMcpRoutes := [], dependencyHttpRoutes := [] }

end Ploinky.Edge
