import Ploinky.Edge.Error
import Ploinky.Js.Platform
import Ploinky.Manifest.Access

/-!
# Routes, registry records and manifests

How the generation compiler finds its way in the routing source: which route an agent reference
names, which registry record belongs to a route, and which routes an `enable` entry of a manifest names.
-/

namespace Ploinky.Edge

open Js Policy Manifest

/-- An object of the sources that is indexed by route keys, container names or host names. -/
abbrev Table (α : Type) := List (Str × α)

/-- `Object.entries(routing.routes || {})`. -/
def routesOf (routing : Json) : Table Json := ((routing.prop "routes").map Json.entries).getD []

/-- `table[key]` for a table of objects. The properties that every object inherits have none of the
fields the sources read. -/
def objectAt (table : Table Json) (key : Str) : Option Json := read table (.obj []) key

/-- `route && !route.disabled`. -/
def isEnabled (route : Json) : Bool := route.truthy && !truthy (route.prop "disabled")

/-! ## Registry records -/

/-- The current identity of an enabled instance. -/
structure Identity where
  agentId : Str
  instanceId : Str
  enableGeneration : Str
  routeKey : Str
  containerName : Str
  deriving DecidableEq

/-- `isPlainObject(record) && record.type === 'agent'`. -/
def isAgentRecord (record : Json) : Bool := record.isObject && isStr (record.prop "type") "agent"

/-- The repository and agent names of a record are those of a route. -/
def sameAgent (record : Json) (route : Option Json) : Bool :=
  strOr (record.prop "repoName") [] == strOr (route.bind (·.prop "repo")) [] &&
    strOr (record.prop "agentName") [] == strOr (route.bind (·.prop "agent")) []

/-- `routeAgentRecord(route, agents)`. -/
def routeAgentRecord (route agents : Json) : Option Json :=
  let direct := match route.prop "container" with
    | some container =>
      if container.truthy then objectAt agents.entries container.toStr else none
    | none => none
  match direct.filter isAgentRecord with
  | some record => some record
  | none =>
    match agents.entries.filter fun entry =>
        isAgentRecord entry.2 && strictEq (entry.2.prop "repoName") (route.prop "repo") &&
          strictEq (entry.2.prop "agentName") (route.prop "agent") with
    | [(_, record)] => some record
    | _ => none

/-! ## Dependencies -/

/-- `value ?? rest`. -/
def coalesce (value rest : Option Json) : Option Json :=
  match value with
  | none | some .null => rest
  | value => value

end Ploinky.Edge
