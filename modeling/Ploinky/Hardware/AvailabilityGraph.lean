import Ploinky.Hardware.Outcome
import Ploinky.Lib.Search
import Ploinky.Graph.DependencyGraph

/-!
# Availability over the dependency graph

The embedding of `outcomes.mjs`: the blocking relation of a dependency graph, and the classification of
its nodes as refused, blocked by a refused prerequisite, or eligible. A blocked node names its direct
dependency, a bounded causal path and how many further causes there are.
-/

namespace Ploinky.Hardware

open Js Edge Workspace Outcome

/-! ## Edges -/

inductive EdgeKind where
  | blocking
  | explicitStatusWait
  deriving DecidableEq

inductive DependencySource where
  | manifest
  | scheduler
  deriving DecidableEq

/-- What `availabilityEdge` returns. -/
structure AvailabilityEdge where
  fromKey : Str
  toKey : Str
  kind : EdgeKind
  source : DependencySource
  cycleBackedge : Bool
  deriving DecidableEq

/-- `availabilityEdge({ fromKey, toKey, kind, source, cycleBackedge })`. -/
def availabilityEdge (fromKey toKey : Str) (kind : EdgeKind) (source : DependencySource)
    (cycleBackedge : Bool := false) : Except Str AvailabilityEdge :=
  if fromKey.isEmpty || toKey.isEmpty then .error "availability edge needs exact keys"
  else .ok ⟨fromKey, toKey, kind, source, cycleBackedge⟩

/-- The children of a node that block it, the dependencies before the back edges. -/
def blockingChildren (platform : Platform) (node : GraphNode) : List (Str × Bool) :=
  ((node.dependencies.insertionSort fun a b => le a b).filter fun childId =>
      node.dependencyEdges.lookup childId != some true).map (·, false) ++
    ((node.cycleBackedges.insertionSort fun a b => platform.localeLe a.1 b.1).filter fun backedge =>
      !backedge.2).map fun backedge => (backedge.1, true)

/-- The edges that leave a node of the graph. A node or a child without a key has none. -/
def edgesOfNode (platform : Platform) (keyOf : Str → Str) (node : Str × GraphNode) :
    Except Str (List AvailabilityEdge) :=
  let fromKey := keyOf node.1
  if fromKey.isEmpty then .ok []
  else ((blockingChildren platform node.2).filter fun child => !(keyOf child.1).isEmpty).mapM fun child =>
    availabilityEdge fromKey (keyOf child.1) .blocking .manifest child.2

/-- `blockingEdgesFromGraph(graph, keyOf, { explicitWaits })`. A node id without a key has the empty
key. -/
def blockingEdgesFromGraph (platform : Platform) (graph : Graph) (keyOf : Str → Str)
    (explicitWaits : List (Str × Str) := []) : Except Str (List AvailabilityEdge) := do
  let edges ← (graph.nodes.insertionSort fun a b => platform.localeLe a.1 b.1).mapM
    (edgesOfNode platform keyOf)
  let waits ← explicitWaits.mapM fun wait =>
    availabilityEdge wait.1 wait.2 .explicitStatusWait .scheduler
  return edges.flatten ++ waits

/-! ## Paths -/

/-- The adjacency of the blocking relation: the sorted targets of each key. -/
abbrev Adjacency := Table (List Str)

/-- `adjacency.get(key) || []`. -/
def Adjacency.targets (adjacency : Adjacency) (key : Str) : List Str := (adjacency.lookup key).getD []

/-- `shortestPathToRoot(start, roots, adjacency)`. No search meets more nodes than the given bound. -/
def shortestPathToRoot (start : Str) (roots : List Str) (adjacency : Adjacency) (bound : Nat) :
    Option (List Str) :=
  Search.shortestTo adjacency.targets roots.contains start (bound + 1) [(start, none)] [start]

/-- `reachableRoots(start, roots, adjacency)`. -/
def reachableRoots (start : Str) (roots : List Str) (adjacency : Adjacency) (bound : Nat) : List Str :=
  Search.goalsFrom adjacency.targets roots.contains (bound + 1) ⟨[start], [start], []⟩

/-- The path fits into an outcome. -/
def fits (platform : Platform) (entries : List Str) : Bool :=
  entries.length ≤ 32 &&
    byteLength (platform.stringifyJson (.arr (entries.map Json.str))) ≤ 8 * 1024

/-- The loop of `boundPath`: the last entry but one is omitted. -/
def boundFrom (platform : Platform) : Nat → List Str → Nat → List Str × Nat
  | 0, entries, omitted => (entries, omitted)
  | fuel + 1, entries, omitted =>
    if !fits platform entries && decide (2 < entries.length) then
      boundFrom platform fuel (entries.take (entries.length - 2) ++ entries.drop (entries.length - 1))
        (omitted + 1)
    else (entries, omitted)

/-- `boundPath(path)`: `causalPath` and `omittedPathCount`. -/
def boundPath (platform : Platform) (path : List Str) : List Str × Nat :=
  boundFrom platform path.length path 0

/-! ## Classification -/

/-- A node of `classifyAvailability`. Its refusal is a validated outcome, or `null`. -/
structure AvailabilityNode where
  key : Str
  ref : Json
  aliasName : Json
  refusal : Json

inductive AvailabilityState where
  | refused
  | blocked
  | eligible
  deriving DecidableEq

/-- What is found for a node. -/
structure Classified where
  state : AvailabilityState
  outcome : Option Json
  deriving DecidableEq

/-- The checks of the keys, given the keys of the nodes before. -/
def checkKeys (seen : List Str) : List AvailabilityNode → Except Str Unit
  | [] => .ok ()
  | node :: rest =>
    if node.key.isEmpty then .error "availability node needs an exact key"
    else if seen.contains node.key then
      .error (lit "availability node '" ++ node.key ++ lit "' is duplicated")
    else checkKeys (node.key :: seen) rest

/-- `byKey.get(key)`. -/
def nodeOf (nodes : List AvailabilityNode) (key : Str) : Option AvailabilityNode :=
  nodes.find? fun node => node.key == key

/-- One turn of the loop that builds the adjacency. An edge of a key that is not listed is left out. -/
def addEdge (keys : List Str) (adjacency : Adjacency) (edge : AvailabilityEdge) : Adjacency :=
  if edge.fromKey ∈ keys ∧ edge.toKey ∈ keys then
    AssocList.set adjacency (edge.fromKey, addTo (adjacency.targets edge.fromKey) edge.toKey)
  else adjacency

/-- The adjacency, with sorted targets. -/
def adjacencyOf (nodes : List AvailabilityNode) (edges : List AvailabilityEdge) : Adjacency :=
  (edges.foldl (addEdge (nodes.map (·.key))) []).map fun entry =>
    (entry.1, entry.2.insertionSort fun a b => le a b)

/-- The keys of the refused nodes. -/
def rootsOf (nodes : List AvailabilityNode) : List Str :=
  (nodes.filter fun node => node.refusal.truthy).map (·.key)

/-- `hex64(value)`. -/
def hex64 (platform : Platform) (value : Json) : Str :=
  platform.sha256 (utf8Bytes (platform.stringifyJson value.stable))

/-- `text.slice(0, count)`, in UTF-16 code units. Half of a surrogate pair is left out. -/
def sliceUnits : Nat → Str → Str
  | _, [] => []
  | count, c :: rest =>
    if (codeUnits c).length ≤ count then c :: sliceUnits (count - (codeUnits c).length) rest else []

/-- The fields of the outcome of a blocked node. -/
def blockedFields (platform : Platform) (node direct : AvailabilityNode) (root : Json) (path : List Str)
    (roots : Nat) : Fields where
  state := .str "blocked"
  code := .str "PLOINKY_HARDWARE_LIMITS_DEPENDENCY_BLOCKED"
  reasonCode := .str "dependency_blocked"
  key := .str node.key
  ref := node.ref
  aliasName := if node.aliasName.truthy then node.aliasName else .null
  inputFingerprint := .str (hex64 platform (.obj [("schema", .num "1"), ("key", .str node.key),
    ("path", .arr (path.map Json.str)), ("root", fieldOf root "inputFingerprint")]))
  reason := .str (sliceUnits 2000 (lit "Required dependency " ++ direct.ref.toStr ++
    lit " cannot start: " ++ (fieldOf root "reason").toStr))
  fix := fieldOf root "fix"
  requested := .arr []
  blockedBy := .obj [("key", .str direct.key), ("ref", direct.ref)]
  rootCause := fieldOf root "rootCause"
  causalPath := .arr ((boundPath platform path).1.map Json.str)
  omittedPathCount := .num (ofNat (boundPath platform path).2)
  additionalCauseCount := .num (ofNat (roots - 1))

/-- The outcome of a node that a path leads from to a refused one. -/
def blockedOutcome (platform : Platform) (nodes : List AvailabilityNode) (adjacency : Adjacency)
    (node : AvailabilityNode) (path : List Str) : Except Str Json := do
  let allRoots := reachableRoots node.key (rootsOf nodes) adjacency nodes.length
  let refusal := ((path.getLast?.bind (nodeOf nodes)).map (·.refusal)).getD .null
  let root ← validateHardwareOutcome platform refusal
  let direct := (path[1]?.bind (nodeOf nodes)).getD ⟨[], .null, .null, .null⟩
  validateHardwareOutcome platform (blockedFields platform node direct root path allRoots.length).toJson

/-- What is found for one node. -/
def classifyNode (platform : Platform) (nodes : List AvailabilityNode) (adjacency : Adjacency)
    (node : AvailabilityNode) : Except Str Classified :=
  if node.refusal.truthy then do
    let outcome ← validateHardwareOutcome platform node.refusal
    return ⟨.refused, some outcome⟩
  else match shortestPathToRoot node.key (rootsOf nodes) adjacency nodes.length with
    | none => .ok ⟨.eligible, none⟩
    | some path => do
        let outcome ← blockedOutcome platform nodes adjacency node path
        return ⟨.blocked, some outcome⟩

/-- What is found under a key. -/
def classifyKey (platform : Platform) (nodes : List AvailabilityNode) (adjacency : Adjacency)
    (node : AvailabilityNode) : Except Str (Str × Classified) := do
  let classified ← classifyNode platform nodes adjacency node
  return (node.key, classified)

/-- `classifyAvailability({ nodes, edges })`. -/
def classifyAvailability (platform : Platform) (nodes : List AvailabilityNode)
    (edges : List AvailabilityEdge) : Except Str (Table Classified) := do
  checkKeys [] nodes
  (nodes.insertionSort fun a b => le a.key b.key).mapM
    (classifyKey platform nodes (adjacencyOf nodes edges))

end Ploinky.Hardware
