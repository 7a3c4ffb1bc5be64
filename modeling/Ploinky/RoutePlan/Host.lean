import Ploinky.Edge.ServiceRoutes

/-!
# Requests and the hosts they name

The request as the route planner reads it, and the first two decisions it makes: which host the
`Host` header names exactly, and what that host is on the listener that received the request.
-/

namespace Ploinky.RoutePlan

open Js Edge

/-- The value of a request header. -/
inductive Header where
  | text (value : Str)
  | many (values : List Str)
  deriving DecidableEq

/-- A request. An empty method or target is an absent one. -/
structure Request where
  method : Str
  url : Str
  headers : Table Header
  /-- `req.ploinkyListenerClass === 'private'`. -/
  onPrivateServer : Bool
  deriving DecidableEq

/-- The listener that received a request. -/
inductive Listener where
  | publicListener
  | privateListener
  | managedListener
  deriving DecidableEq

/-- The transport of a request. -/
inductive Transport where
  | http
  | websocket
  deriving DecidableEq

/-- What the route planner takes from its process. -/
structure Router where
  platform : Platform
  /-- `readPublicRouterHosts().hosts`. -/
  trustedHosts : List Str
  /-- `selectedRouterHostPort()`, which fails on a malformed environment. -/
  selectedRouterHostPort : Option Nat

/-- `req?.method || 'GET'`. -/
def Request.methodOrGet (req : Request) : Str := if req.method.isEmpty then "GET" else req.method

/-- The pattern `/^\d{1,5}$/` together with the range of ports. -/
def isHostPort (port : Str) : Bool :=
  !port.isEmpty && port.all isDigit && decide (port.length ≤ 5) && decide (1 ≤ decimal port) &&
    decide (decimal port ≤ 65535)

/-- The characters a `Host` header never has. -/
def isForbiddenHostChar (c : Char) : Bool :=
  decide (c.toNat ≤ 0x20) || c == '\x7f' || (lit ",@/\\%").contains c

/-- The host name of a bracketed address. -/
def bracketedHostName (platform : Platform) (raw : Str) : Option Str :=
  if !raw.contains ']' then none
  else
    let literal := before (raw.drop 1) ']'
    let suffix := (raw.dropWhile (· != ']')).drop 1
    if platform.isIP literal ≠ 6 then none
    else match suffix with
      | [] => some (toLowerCase literal)
      | c :: port => if c == ':' && isHostPort port then some (toLowerCase literal) else none

/-- `normalizedHostName(value)`. -/
def normalizedHostName (platform : Platform) (raw : Str) : Option Str :=
  if raw.isEmpty || raw != trim raw || raw.any isForbiddenHostChar then none
  else if startsWith raw ['['] then bracketedHostName platform raw
  else if raw.count ':' > 1 then none
  else
    let name := before raw ':'
    let port := (raw.dropWhile (· != ':')).drop 1
    if name.isEmpty || endsWith name ['.'] || (!port.isEmpty && !isHostPort port) then none
    else if platform.isIP name ≠ 0 then some (toLowerCase name)
    else
      let ascii := platform.domainToASCII (toLowerCase name)
      if ascii.isEmpty || ascii.length > 253 || (split ascii '.').any (fun label =>
          label.isEmpty || label.length > 63 || !isHostLabel label) then none
      else some ascii

/-- `normalizeExactHost(hostHeader)`. -/
def normalizeExactHost (platform : Platform) : Option Header → Option Str
  | some (.text value) => normalizedHostName platform value
  | _ => none

/-- The host names of the control surface. -/
def localControlHosts : List Str := ["localhost", "127.0.0.1", "::1", "router.localhost"]

/-- The host name of the managed listener. -/
def managedRouterHost : Str := "host.containers.internal"

/-- What a host is on the listener of a request. -/
inductive HostSelection where
  | privateHost (host : Str)
  | managedAgent (host : Str)
  | control (host : Str) (publicRouterAlias : Bool)
  | inactivePublic (host : Str) (record : HostRecord)
  | agentRoot (host : Str) (record : HostRecord)
  deriving DecidableEq

/-- `snapshot.compiled?.hosts?.[host]`. -/
def hostRecord (snapshot : Snapshot) (host : Str) : Option HostRecord :=
  read snapshot.compiled.hosts { agent := [], routeKey := [] } host

/-- The public host has a generation that is ready and an owner that is not draining. -/
def isPublished (snapshot : Snapshot) (record : HostRecord) : Bool :=
  snapshot.publicationState == lit "ready" &&
    ((objectAt (routesOf snapshot.routing) record.routeKey).bind (·.prop "draining")) !=
      some (.bool true)

/-- `classifyHost({ host, listener, snapshot })`. -/
def classifyHost (router : Router) (host : Str) (listener : Listener) (snapshot : Snapshot) :
    Option HostSelection :=
  match listener with
  | .privateListener =>
    if host = managedRouterHost ∨ host ∈ localControlHosts then some (.privateHost host) else none
  | .managedListener => if host = managedRouterHost then some (.managedAgent host) else none
  | .publicListener =>
    if host ∈ localControlHosts then some (.control host false)
    else if host = managedRouterHost then none
    else match hostRecord snapshot host with
      | none => if router.trustedHosts.contains host then some (.control host true) else none
      | some record =>
        if isPublished snapshot record then some (.agentRoot host record)
        else some (.inactivePublic host record)

/-- The authority and protocol that the target of a request is told. -/
structure Forwarding where
  authority : Str
  protocol : Str
  deriving DecidableEq

/-- `canonicalForwardingMetadata({ snapshot, host, listener, hostSelection })`. Only a public host has
the source `public-host`. -/
def canonicalForwardingMetadata (router : Router) (host : Str) (listener : Listener)
    (hostSelection : HostSelection) : Option Forwarding :=
  match hostSelection with
  | .agentRoot .. => some { authority := host, protocol := "https" }
  | _ => do
      let canonicalPort ← match listener with
        | .privateListener => some 8081
        | .managedListener => some 8080
        | .publicListener => router.selectedRouterHostPort
      let authority :=
        if 0 < canonicalPort ∧ canonicalPort ≤ 65535 ∧ canonicalPort ≠ 80 then
          (if host = lit "::1" then lit "[::1]" else host) ++ ':' :: ofNat canonicalPort
        else host
      return { authority := authority, protocol := "http" }

end Ploinky.RoutePlan
