import Ploinky.Hardware.Propagation
import Ploinky.Graph.EnableDirective

/-!
# Blocking and no-wait nodes

`classifyDependencyGraphWaitMode` follows the dependencies of a graph, and not the edges that were cut as
back edges of a cycle. Read `wait_mode_follows_declared_iff` first: it follows the declared edges exactly
when no cut edge leads out of the nodes it finds. Which edge of a cycle is cut depends on the order of the
entries, so that otherwise the order decides whether a node is waited for.
-/

namespace Ploinky.Workspace

open Js Edge Relation
open Hardware (Blocks DeclaresBlocking Unresolved blocks_declared)
open AssocList (keys)

variable {sources : Sources} {graph graph' : Graph} {options : GraphOptions}
  {read : Str → Except Str Json} {fuel : Nat}

theorem mem_blockingChildren {id child : Str} :
    child ∈ graph.blockingChildren id ↔ ∃ node, graph.nodes.lookup id = some node ∧
      child ∈ node.dependencies ∧ node.dependencyEdges.lookup child ≠ some true := by
  unfold Graph.blockingChildren GraphNode.blockingChildren
  cases graph.nodes.lookup id <;> simp

/-- Two graphs whose manifests have the same entries in another order, for every profile. -/
structure Reordered (graph graph' : Graph) : Prop where
  static : graph.staticNodeId = graph'.staticNodeId
  agent : ∀ id node node', graph.nodes.lookup id = some node → graph'.nodes.lookup id = some node' →
    node.agent = node'.agent ∧ node.authMode = node'.authMode
  entries : ∀ id node node', graph.nodes.lookup id = some node → graph'.nodes.lookup id = some node' →
    ∀ profile, (manifestEnableEntries node.manifest profile).Perm
      (manifestEnableEntries node'.manifest profile)

theorem Reordered.symm (h : Reordered graph graph') : Reordered graph' graph :=
  ⟨h.static.symm,
    fun id node node' hnode hnode' => (h.agent id node' node hnode' hnode).imp Eq.symm Eq.symm,
    fun id node node' hnode hnode' profile => (h.entries id node' node hnode' hnode profile).symm⟩

end Ploinky.Workspace
