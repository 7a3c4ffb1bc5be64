import Ploinky.Edge.Routing
import Ploinky.Js.Platform
import Ploinky.Lib.AssocList
import Ploinky.Lib.Layers
import Ploinky.Lib.Saturation

/-!
# The dependency graph of a workspace

The embedding of `resolveWorkspaceDependencyGraph`: a depth-first visit of the agents that manifests
enable. A declared dependency that would close a cycle is kept apart from the topology, with its wait
kind; a dependency that cannot be resolved fails the graph, or is reported and dropped with everything
that only it reached.
-/

namespace Ploinky.Workspace

open Js Edge List AssocList

/-- What `findAgent` returns. -/
structure Agent where
  repo : Str
  shortAgentName : Str
  manifestPath : Str
  deriving DecidableEq

/-- What `parseEnableDirective` returns. An absent alias or profile is empty. -/
structure Directive where
  spec : Str
  aliasName : Str
  profile : Str
  noWait : Bool
  deriving DecidableEq

/-- What the visit takes from the repositories, the manifests and the registry. -/
structure Sources where
  /-- `findAgent(agentRef)`. -/
  findAgent : Str → Except Str Agent
  /-- `JSON.parse(fs.readFileSync(manifestPath))`. -/
  readManifest : Str → Except Str Json
  /-- `validateManifestNetworks` and `resolveManifestStartup`. -/
  checkManifest : Agent → Json → Except Str Unit
  /-- `effectiveManifestNetwork` and `assertNetworkStartupCompatibility`, for a profile. -/
  checkNetwork : Agent → Json → Str → Except Str Unit
  /-- `resolveAgentAuthPolicy(manifest, auth).mode`. -/
  authMode : Json → Option Json → Except Str Str
  /-- `getActiveProfile()`. -/
  activeProfile : Str
  /-- `Object.values(registry)`. -/
  registry : List Json
  /-- `parseEnableDirective(entry)`. -/
  parseEnableDirective : Json → Except Str (Option Directive)
  /-- `qualifyEnableSpecForRepo(spec, repoName)`. -/
  qualifyEnableSpecForRepo : Str → Str → Str
  /-- `parseManifestDependencyRef(spec)`. -/
  parseManifestDependencyRef : Str → Str
  /-- The manifest of the agent is that of a provider of single sign-on. -/
  isSsoProvider : Str → Bool

/-- `createGraphNodeId(repoName, shortAgentName, alias)`. -/
def createGraphNodeId (agent : Agent) (aliasName : Str) : Str :=
  if aliasName.isEmpty then agent.repo ++ '/' :: agent.shortAgentName
  else agent.repo ++ '/' :: agent.shortAgentName ++ lit " as " ++ aliasName

/-- `effectiveInstanceKey(repoName, shortAgentName, alias)`. -/
def effectiveInstanceKey (agent : Agent) (aliasName : Str) : Str :=
  if aliasName.isEmpty then agent.repo ++ '/' :: agent.shortAgentName ++ lit "#canonical"
  else agent.repo ++ '/' :: agent.shortAgentName ++ lit "#alias:" ++ aliasName

/-- `findRegistryRecord(registry, { repoName, shortAgentName, alias })`. -/
def findRegistryRecord (registry : List Json) (agent : Agent) (aliasName : Str) : Option Json :=
  registry.find? fun record =>
    record.truthy && isStr (record.prop "type") "agent" && isStr (record.prop "repoName") agent.repo &&
      isStr (record.prop "agentName") agent.shortAgentName &&
      if aliasName.isEmpty then !((record.prop "alias").getD .null).truthy
      else isStr (record.prop "alias") aliasName

/-- `normalizeProfileOverride(profile)`. -/
def normalizeProfileOverride (profile : Str) : Str := toLowerCase (trim profile)

/-- `declaresProfiles(manifest)`. -/
def declaresProfiles (manifest : Json) : Bool :=
  match manifest.prop "profiles" with
  | some (.obj profiles) => !profiles.isEmpty
  | _ => false

/-- The own names of `manifest.profiles`. -/
def profileNames (manifest : Json) : List Str := ((manifest.prop "profiles").getD .null).keys

/-- `resolveEffectiveProfile(manifest, requestedProfile, agentRef, { explicit })`. -/
def resolveEffectiveProfile (manifest : Json) (requestedProfile agentRef : Str) (explicit : Bool) :
    Except Str Str :=
  let requested := normalizeProfileOverride requestedProfile
  if requested.isEmpty then .ok "default"
  else if (profileNames manifest).contains requested then .ok requested
  else if requested == lit "default" && !declaresProfiles manifest then .ok "default"
  else if explicit then
    let available := (profileNames manifest).insertionSort fun a b => le a b
    .error (lit "profile '" ++ requested ++ lit "' is not defined by " ++ agentRef ++
      lit "; available profiles: " ++
      if available.isEmpty then lit "(none)" else intercalate (lit ", ") available)
  else .ok "default"

/-- The entries of an `enable` array. -/
def enableArray (block : Option Json) : List Json :=
  match block.bind (·.prop "enable") with
  | some (.arr entries) => entries
  | _ => []

/-- `manifestEnableEntries(manifest, profile)`, for a profile that is named. -/
def manifestEnableEntries (manifest : Json) (profile : Str) : List Json :=
  let profiles := ((manifest.prop "profiles").getD .null).entries
  let block := match Js.read profiles (.obj []) profile with
    | some block => if block.truthy then some block else Js.read profiles (.obj []) "default"
    | none => Js.read profiles (.obj []) "default"
  enableArray (some manifest) ++ enableArray block

/-- A node of the graph. The maps from children hold whether the edge is `no-wait`. -/
structure GraphNode where
  id : Str
  agent : Agent
  aliasName : Str
  profile : Str
  manifest : Json
  authMode : Str
  dependencies : List Str
  dependents : List Str
  dependencyEdges : Table Bool
  cycleBackedges : Table Bool
  isStatic : Bool
  selectionPath : List Str

/-- `node.agentRef`. -/
def GraphNode.agentRef (node : GraphNode) : Str := node.agent.repo ++ '/' :: node.agent.shortAgentName

/-- The entries that a node enables. -/
def GraphNode.enableEntries (node : GraphNode) : List Json :=
  manifestEnableEntries node.manifest node.profile

inductive VisitStatus where
  | visiting
  | visited
  deriving DecidableEq

/-- What is handed to `onUnresolvedDependency` or `onUnresolvedNoWait`. -/
structure Report where
  rawDependency : Json
  parentRef : Str
  message : Str

/-- The variables of the visit, and what it has reported. -/
structure GraphState where
  nodes : List (Str × GraphNode)
  status : List (Str × VisitStatus)
  reports : List Report
  warnings : List Str

/-- Why a visit throws. Only a closed cycle has a message of its own kind. -/
inductive VisitFailure where
  | cycle (cycleNodeId message : Str)
  | failed (message : Str)
  | exhausted
  deriving DecidableEq

/-- The arguments of a visit. -/
structure VisitArgs where
  agentRef : Str
  aliasName : Str
  profile : Str
  profileExplicit : Bool
  isStatic : Bool
  stack : List Str
  selectionPath : List Str

/-- The callers' choice of tolerance. -/
structure Tolerance where
  noWait : Bool
  every : Bool

/-- An outcome and the variables after it. -/
abbrev Visited (α : Type) := Except VisitFailure α × GraphState

/-- The failure of a visit that closes a cycle. -/
def cycleFailure (stack : List Str) (nodeId : Str) : VisitFailure :=
  .cycle nodeId (lit "Dependency cycle detected: " ++
    intercalate (lit " -> ") (stack ++ [nodeId]))

/-- The authentication of a registry record that is passed on. -/
def recordAuth (record : Option Json) : Option Json :=
  let auth := record.bind (·.prop "auth")
  let mode := toLowerCase (trim (strOr (auth.bind (·.prop "mode")) []))
  if mode.isEmpty || mode == lit "none" then none else auth

/-- The node of an agent that is visited for the first time. -/
def createNode (sources : Sources) (agent : Agent) (args : VisitArgs) : Except Str GraphNode := do
  let nodeId := createGraphNodeId agent args.aliasName
  let agentRef := agent.repo ++ '/' :: agent.shortAgentName
  let manifest ← sources.readManifest agent.manifestPath
  sources.checkManifest agent manifest
  let record := findRegistryRecord sources.registry agent args.aliasName
  let requested := normalizeProfileOverride args.profile
  let recorded := strOr (record.bind (·.prop "profile")) []
  let profile ← resolveEffectiveProfile manifest
    (if requested.isEmpty then normalizeProfileOverride recorded else requested) agentRef
    (args.profileExplicit || (requested.isEmpty && !recorded.isEmpty))
  sources.checkNetwork agent manifest profile
  let authMode ← sources.authMode manifest (recordAuth record)
  return ⟨nodeId, agent, args.aliasName, profile, manifest, authMode, [], [], [], [], args.isStatic,
    if args.selectionPath.isEmpty then [nodeId] else args.selectionPath⟩

variable (state : GraphState)

/-- Change the node of an id. -/
def GraphState.update (nodeId : Str) (f : GraphNode → GraphNode) : GraphState :=
  { state with nodes := state.nodes.map fun pair => if pair.1 = nodeId then (pair.1, f pair.2) else pair }

/-- The node that a visit is about: the one that is there, or a new one. -/
def enterNode (sources : Sources) (agent : Agent) (args : VisitArgs) (state : GraphState) :
    Visited GraphNode :=
  let nodeId := createGraphNodeId agent args.aliasName
  match state.nodes.lookup nodeId with
  | some node =>
    (.ok node, if args.isStatic then state.update nodeId fun node => { node with isStatic := true }
      else state)
  | none =>
    match createNode sources agent args with
    | .error message => (.error (.failed message), state)
    | .ok node => (.ok node, { state with nodes := state.nodes ++ [(nodeId, node)] })

/-- Every selection of an instance must name one profile. -/
def checkProfile (node : GraphNode) (args : VisitArgs) : Except Str Unit := do
  let requested := normalizeProfileOverride args.profile
  let candidate ← resolveEffectiveProfile node.manifest
    (if requested.isEmpty then node.profile else requested) node.agentRef args.profileExplicit
  if candidate ≠ node.profile then
    .error (lit "conflicting profiles for effective instance " ++
      effectiveInstanceKey node.agent node.aliasName ++ lit ": profile '" ++ node.profile ++
      lit "' via " ++ intercalate (lit " -> ") node.selectionPath ++ lit "; profile '" ++
      candidate ++ lit "' via " ++
      if args.selectionPath.isEmpty then node.id
      else intercalate (lit " -> ") args.selectionPath)
  else .ok ()

/-- `shouldEnableManifestDependency(agentRef, authMode)`. -/
def shouldEnableManifestDependency (sources : Sources) (agentRef authMode : Str) : Bool :=
  !(trim agentRef).isEmpty && (!sources.isSsoProvider (trim agentRef) || authMode == lit "sso")

/-- The directive of an entry of a node, qualified, with the agent it refers to. Nothing when the entry
enables nothing. -/
def declaredDependency (sources : Sources) (node : GraphNode) (entry : Json) :
    Except Str (Option (Directive × Str)) := do
  let parsed ← sources.parseEnableDirective entry
  match parsed with
  | none => return none
  | some directive =>
    let spec := sources.qualifyEnableSpecForRepo directive.spec node.agent.repo
    let agentRef := sources.parseManifestDependencyRef spec
    return if shouldEnableManifestDependency sources agentRef node.authMode then
      some (directive, agentRef) else none

/-- The arguments of the visit of a dependency. -/
def dependencyArgs (sources : Sources) (workspaceProfile : Str) (node : GraphNode) (stack : List Str)
    (directive : Directive) (agentRef : Str) : VisitArgs where
  agentRef := agentRef
  aliasName := directive.aliasName
  profile := if directive.profile.isEmpty then
    normalizeProfileOverride (if workspaceProfile.isEmpty then sources.activeProfile else workspaceProfile)
    else directive.profile
  profileExplicit := !directive.profile.isEmpty
  isStatic := false
  stack := stack
  selectionPath := node.selectionPath ++ [node.id ++ lit " -> " ++ agentRef ++
    if directive.aliasName.isEmpty then [] else lit " as " ++ directive.aliasName]

/-- The map of edges after a declaration: a blocking declaration wins. -/
def declareEdge (edges : Table Bool) (childId : Str) (noWait : Bool) : Table Bool :=
  match edges.lookup childId with
  | none => set edges (childId, noWait)
  | some existing => if existing && !noWait then set edges (childId, noWait) else edges

/-- `set.add(value)`. -/
def addTo (set : List Str) (value : Str) : List Str := if value ∈ set then set else set ++ [value]

/-- A node with a further dependency. -/
def GraphNode.withDependency (childId : Str) (noWait : Bool) (node : GraphNode) : GraphNode :=
  { node with
    dependencies := addTo node.dependencies childId,
    dependencyEdges := declareEdge node.dependencyEdges childId noWait }

/-- A node with a further back edge. -/
def GraphNode.withBackedge (cycleNodeId : Str) (noWait : Bool) (node : GraphNode) : GraphNode :=
  { node with cycleBackedges := declareEdge node.cycleBackedges cycleNodeId noWait }

/-- A resolved dependency becomes an edge. -/
def addDependency (nodeId childId : Str) (noWait : Bool) : GraphState :=
  (state.update nodeId (GraphNode.withDependency childId noWait)).update childId fun node =>
    { node with dependents := addTo node.dependents nodeId }

/-- A dependency that closes a cycle is kept with its wait kind. -/
def addBackedge (nodeId cycleNodeId : Str) (noWait : Bool) (warning : Str) :
    GraphState :=
  let noted := state.update nodeId (GraphNode.withBackedge cycleNodeId noWait)
  { noted with warnings := noted.warnings ++ [warning] }

/-- Dependents that were dropped are forgotten. -/
def GraphNode.forget (dropped : List Str) (node : GraphNode) : GraphNode :=
  { node with dependents := node.dependents.filter fun nodeKey => nodeKey ∉ dropped }

/-- The nodes that a failed dependency added. -/
def droppedNodes (known : List Str) : List Str :=
  (keys state.nodes).filter fun nodeKey => nodeKey ∉ known

/-- Everything that is not known is dropped. -/
def dropUnknown (known : List Str) : GraphState :=
  let dropped := droppedNodes state known
  { state with
    nodes := (state.nodes.filter fun pair => pair.1 ∉ dropped).map fun pair =>
      (pair.1, pair.2.forget dropped),
    status := state.status.filter fun pair => pair.1 ∉ dropped }

/-- The text of a failed dependency. -/
def unresolvedMessage (node : GraphNode) (entry : Json) (message : Str) : Str :=
  lit "[manifest enable] Failed to resolve dependency '" ++ entry.toStr ++ lit "' for '" ++
    node.agentRef ++ lit "': " ++ message

/-- The entry says `no-wait`. -/
def entryNoWait (sources : Sources) (entry : Json) : Bool :=
  match sources.parseEnableDirective entry with
  | .ok (some directive) => directive.noWait
  | _ => false

/-- The `catch` of the loop over the entries, with the nodes that were known before the entry. -/
def handleFailure (sources : Sources) (tolerance : Tolerance) (node : GraphNode) (entry : Json)
    (known : List Str) (failure : VisitFailure) (state : GraphState) : Visited Unit :=
  match failure with
  | .cycle cycleNodeId message =>
    (.ok (), addBackedge state node.id cycleNodeId (entryNoWait sources entry)
      (unresolvedMessage node entry message))
  | .failed message =>
    if tolerance.every || (tolerance.noWait && entryNoWait sources entry) then
      let rest := dropUnknown state known
      (.ok (), { rest with reports := rest.reports ++ [⟨entry, node.agentRef, message⟩] })
    else (.error (.failed (unresolvedMessage node entry message)), state)
  | .exhausted => (.error .exhausted, state)

/-- One turn of the loop over the entries of a node. -/
def visitEntry (sources : Sources) (tolerance : Tolerance) (workspaceProfile : Str)
    (visit : VisitArgs → GraphState → Visited Str) (node : GraphNode) (stack : List Str) (entry : Json)
    (state : GraphState) : Visited Unit :=
  let known := keys state.nodes
  match declaredDependency sources node entry with
  | .error message => handleFailure sources tolerance node entry known (.failed message) state
  | .ok none => (.ok (), state)
  | .ok (some (directive, agentRef)) =>
    match visit (dependencyArgs sources workspaceProfile node stack directive agentRef) state with
    | (.ok childId, state) => (.ok (), addDependency state node.id childId directive.noWait)
    | (.error failure, state) => handleFailure sources tolerance node entry known failure state

/-- The loop over the entries of a node. -/
def visitEntries (sources : Sources) (tolerance : Tolerance) (workspaceProfile : Str)
    (visit : VisitArgs → GraphState → Visited Str) (node : GraphNode) (stack : List Str) :
    List Json → GraphState → Visited Unit
  | [], state => (.ok (), state)
  | entry :: rest, state =>
    match visitEntry sources tolerance workspaceProfile visit node stack entry state with
    | (.ok (), state) =>
      visitEntries sources tolerance workspaceProfile visit node stack rest state
    | (.error failure, state) => (.error failure, state)

/-- `state.set(nodeId, status)`. -/
def GraphState.mark (nodeId : Str) (status : VisitStatus) : GraphState :=
  { state with status := set state.status (nodeId, status) }

/-- The part of a visit after its node was found: a visited node is done, another one is visited. -/
def visitNode (sources : Sources) (tolerance : Tolerance) (workspaceProfile : Str)
    (visit : VisitArgs → GraphState → Visited Str) (node : GraphNode) (stack : List Str)
    (state : GraphState) : Visited Str :=
  match state.status.lookup node.id with
  | some .visiting => (.error (cycleFailure stack node.id), state)
  | some .visited => (.ok node.id, state)
  | none =>
    match visitEntries sources tolerance workspaceProfile visit node (stack ++ [node.id])
        node.enableEntries (state.mark node.id .visiting) with
    | (.ok (), state) => (.ok node.id, state.mark node.id .visited)
    | (.error failure, state) => (.error failure, state)

/-- `visit(agentRef, …)`. -/
def visit (sources : Sources) (tolerance : Tolerance) (workspaceProfile : Str) :
    Nat → VisitArgs → GraphState → Visited Str
  | 0, _, state => (.error .exhausted, state)
  | fuel + 1, args, state =>
    match sources.findAgent args.agentRef with
    | .error message => (.error (.failed message), state)
    | .ok agent =>
      let nodeId := createGraphNodeId agent args.aliasName
      if nodeId ∈ args.stack then (.error (cycleFailure args.stack nodeId), state)
      else match enterNode sources agent args state with
        | (.error failure, state) => (.error failure, state)
        | (.ok node, state) =>
          match checkProfile node args with
          | .error message => (.error (.failed message), state)
          | .ok () => visitNode sources tolerance workspaceProfile
              (visit sources tolerance workspaceProfile fuel) node args.stack state

/-- The result of the resolution. -/
structure Graph where
  staticNodeId : Str
  nodes : List (Str × GraphNode)
  reports : List Report

/-- The options of the resolution. -/
structure GraphOptions where
  staticAgentRef : Str
  workspaceProfile : Str
  rootProfile : Str
  rootAlias : Str
  tolerance : Tolerance
  /-- `preflightNetworkAliases` of the nodes. -/
  preflight : List GraphNode → Except Str Unit

/-- The arguments of the visit of the static agent. -/
def rootArgs (sources : Sources) (options : GraphOptions) : VisitArgs where
  agentRef := options.staticAgentRef
  aliasName := options.rootAlias
  profile := if options.rootProfile.isEmpty then normalizeProfileOverride
    (if options.workspaceProfile.isEmpty then sources.activeProfile else options.workspaceProfile)
    else options.rootProfile
  profileExplicit := !options.rootProfile.isEmpty
  isStatic := true
  stack := []
  selectionPath := [options.staticAgentRef]

/-- `resolveWorkspaceDependencyGraph({ … })`, with a bound for the depth of the visit. -/
def resolveWorkspaceDependencyGraph (sources : Sources) (options : GraphOptions) (fuel : Nat) :
    Except VisitFailure Graph :=
  if options.staticAgentRef.isEmpty then .error (.failed "Missing static agent reference.")
  else
    match visit sources options.tolerance options.workspaceProfile fuel (rootArgs sources options)
        ⟨[], [], [], []⟩ with
    | (.error failure, _) => .error failure
    | (.ok staticNodeId, state) =>
      match options.preflight (state.nodes.map Prod.snd) with
      | .error message => .error (.failed message)
      | .ok () => .ok ⟨staticNodeId, state.nodes, state.reports⟩

/-! ## What is done with a graph -/

def Graph.dependenciesOf (graph : Graph) (nodeId : Str) : List Str :=
  ((graph.nodes.lookup nodeId).map (·.dependencies)).getD []

def Graph.dependentsOf (graph : Graph) (nodeId : Str) : List Str :=
  ((graph.nodes.lookup nodeId).map (·.dependents)).getD []

/-- The children that a node reaches through an edge that is not `no-wait`. -/
def GraphNode.blockingChildren (node : GraphNode) : List Str :=
  node.dependencies.filter fun childId => node.dependencyEdges.lookup childId != some true

def Graph.blockingChildren (graph : Graph) (nodeId : Str) : List Str :=
  ((graph.nodes.lookup nodeId).map GraphNode.blockingChildren).getD []

/-- `topologicallyGroupDependencyGraph(graph)`. -/
def topologicallyGroupDependencyGraph (platform : Platform) (graph : Graph) :
    Except Str (List (List Str)) :=
  match Layers.layers (fun a b => platform.localeLe a b) graph.dependentsOf (keys graph.nodes)
      (graph.nodes.map fun pair => (pair.1, pair.2.dependencies.length)) with
  | some waves => .ok waves
  | none => .error "Dependency graph contains a cycle."

end Ploinky.Workspace
