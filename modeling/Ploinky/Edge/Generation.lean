import Ploinky.Edge.Routing
import Ploinky.Hardware.Availability
import Ploinky.Policy.Evaluate

/-!
# The state of a generation

A generation has the operator's desired state, in the normal form of `normalizeDesired`, and the compiled
state that the router serves from: the compiled policy, the public hosts with their surfaces and dependency
routes, the identities with special capabilities, and the unavailable instances.
-/

namespace Ploinky.Edge

open Js Policy Manifest

/-- Names that no source object may use as a key. -/
def reservedObjectKeys : List Str := ["__proto__", "constructor", "prototype"]

/-- The pattern `/^[a-z0-9](?:[a-z0-9-]*[a-z0-9])?$/` of host name labels. -/
def isHostLabel (label : Str) : Bool :=
  let ends (c : Char) : Bool := isLower c || isDigit c
  label.all (fun c => ends c || c == '-') && label.head?.any ends && label.getLast?.any ends

/-! ## The desired state -/

/-- The application at the root of a host. -/
structure DesiredRoot where
  agent : Str
  port : Nat
  deriving DecidableEq

/-- A desired public host. -/
structure DesiredHost where
  agent : Str
  rootApplication : Option DesiredRoot := none
  dnsManagement : Option Str := none
  routerSurfaces : Option (List Str) := none
  deriving DecidableEq

/-- The desired Cloudflare settings. -/
structure Cloudflare where
  accountId : Option Str
  zoneId : Option Str
  tunnelId : Option Str
  tunnelName : Option Str
  tunnelTokenSecret : Option Str
  apiTokenSecret : Option Str
  deleteTunnelOnTeardown : Option Bool
  deriving DecidableEq

/-- The desired media address. -/
structure Media where
  publicIPv4 : Str
  addressMode : Str
  deriving DecidableEq

/-- The desired TURN service. Its credential mode is always `turn-rest`. -/
structure Turn where
  urls : List Str
  sharedSecret : Str
  credentialConsumers : List Str
  deriving DecidableEq

/-- A normalized desired state. -/
structure Desired where
  hosts : Table DesiredHost
  cloudflare : Option Cloudflare
  media : Option Media
  turn : Option Turn
  deriving DecidableEq

/-- The enabled routes of a routing source, with their keys. -/
def enabledEntries (routing : Json) : Table Json :=
  (routesOf routing).filter fun entry => isEnabled entry.2

/-! ## The compiled state -/

/-- The root application of a compiled host. -/
structure RootApplication where
  agent : Str
  routeKey : Str
  port : Nat
  deriving DecidableEq

/-- A compiled public host. -/
structure HostRecord where
  agent : Str
  routeKey : Str
  rootApplication : Option RootApplication := none
  deriving DecidableEq

/-- A path of another agent that a host serves. -/
structure ServiceRoute where
  path : Str
  routeKey : Str
  deriving DecidableEq

/-- The identities with special capabilities. -/
structure Security where
  hostNetworkCapabilities : List Identity
  workspaceLogConsumers : List Identity
  turnCredentialConsumers : List Identity
  deriving DecidableEq

/-- How the hosts are published. -/
structure Publication where
  mode : Str
  management : Option Str
  defaultState : Str
  complete : Bool
  deriving DecidableEq

/-- The compiled state of a generation. -/
structure Compiled where
  hosts : Table HostRecord
  surfaces : Table (List Str)
  agentMcpRoutes : Table (List Str)
  dependencyHttpRoutes : Table (List ServiceRoute)
  policy : CompiledPolicy
  security : Security
  publication : Publication
  hardwareAvailability : Option (Table Json)
  deriving DecidableEq

/-- The order of `dependencyHttpRoutes`: by route key and then by path. -/
def ServiceRoute.le (localeLe : Str → Str → Bool) (a b : ServiceRoute) : Bool :=
  localeLe a.routeKey b.routeKey && (!localeLe b.routeKey a.routeKey || localeLe a.path b.path)

end Ploinky.Edge
