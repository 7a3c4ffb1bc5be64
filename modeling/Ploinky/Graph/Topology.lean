import Ploinky.Js.Plain
import Ploinky.Graph.EnableDirective
import Ploinky.Graph.GraphInvariant

/-!
# The topology of the dependency graph

The dependencies of a resolved graph have no cycle, and its two kinds of edges mirror each other. Read
`resolved_graph_consistent` first. A node gains a dependency only on a node whose visit is over, while its
own visit is not: the order in which visits end is a rank that the dependencies decrease. A tolerated
failure drops nodes that no other node depends on.
-/

namespace Ploinky.Workspace

open Js Edge List
open AssocList (keys lookup_eq_none_iff)

/-! ## The wiring of the nodes -/

variable {id n m : Str} {f : GraphNode → GraphNode}

section Graphs

variable {graph : Graph}

theorem mem_dependenciesOf {child : Str} :
    child ∈ graph.dependenciesOf id ↔ ∃ node, graph.nodes.lookup id = some node ∧ child ∈ node.dependencies := by
  unfold Graph.dependenciesOf
  cases graph.nodes.lookup id <;> simp

theorem mem_dependentsOf {parent : Str} :
    parent ∈ graph.dependentsOf id ↔ ∃ node, graph.nodes.lookup id = some node ∧ parent ∈ node.dependents := by
  unfold Graph.dependentsOf
  cases graph.nodes.lookup id <;> simp

end Graphs

/-- The edges of a node are sets, and every dependency has its wait kind. -/
structure GraphNode.Sets (node : GraphNode) : Prop where
  dependencies : node.dependencies.Nodup
  dependents : node.dependents.Nodup
  edges : ∀ child, child ∈ keys node.dependencyEdges ↔ child ∈ node.dependencies

/-- The nodes of a state, as a graph. -/
def GraphState.graph (state : GraphState) : Graph := ⟨[], state.nodes, []⟩

/-- What holds of the edges at every moment of a visit, also of one that fails. -/
structure WiredBy (rank : Str → Nat) (state : GraphState) : Prop where
  sets : ∀ id node, state.nodes.lookup id = some node → node.Sets
  mirror : ∀ n m, n ∈ state.graph.dependentsOf m ↔ m ∈ state.graph.dependenciesOf n
  visited : ∀ n m, m ∈ state.graph.dependenciesOf n → state.status.lookup m = some .visited
  ranked : ∀ n m, m ∈ state.graph.dependenciesOf n → rank m < rank n

/-- The edges are wired, for one rank of the nodes. -/
def Wired (state : GraphState) : Prop := ∃ rank, WiredBy rank state

variable {state after : GraphState} {node : GraphNode} {nodeId childId : Str} {rank : Str → Nat}

theorem WiredBy.mem_keys (h : WiredBy rank state) (hedge : m ∈ state.graph.dependenciesOf n) :
    n ∈ keys state.nodes ∧ m ∈ keys state.nodes := by
  obtain ⟨_, hnode, _⟩ := mem_dependenciesOf.mp hedge
  obtain ⟨_, hother, _⟩ := mem_dependentsOf.mp ((h.mirror n m).mpr hedge)
  exact ⟨mem_keys_of_lookup hnode, mem_keys_of_lookup hother⟩

/-- A change that leaves the edges. -/
theorem Wired.of_same (h : Wired state) (hsets : ∀ id node, after.nodes.lookup id = some node → node.Sets)
    (hdependencies : ∀ id, after.graph.dependenciesOf id = state.graph.dependenciesOf id)
    (hdependents : ∀ id, after.graph.dependentsOf id = state.graph.dependentsOf id)
    (hstatus : ∀ id, state.status.lookup id = some .visited → after.status.lookup id = some .visited) :
    Wired after := by
  obtain ⟨rank, hrank⟩ := h
  refine ⟨rank, hsets, fun n m => ?_, fun n m hmem => ?_, fun n m hmem => ?_⟩
  · rw [hdependents, hdependencies]
    exact hrank.mirror n m
  · rw [hdependencies] at hmem
    exact hstatus m (hrank.visited n m hmem)
  · rw [hdependencies] at hmem
    exact hrank.ranked n m hmem

/-- A change of a node that leaves its sets, for each of the nodes. -/
theorem sets_update (hf : ∀ node, node.Sets → (f node).Sets)
    (h : ∀ id node, state.nodes.lookup id = some node → node.Sets) (id : Str) (node : GraphNode)
    (hnode : (state.update nodeId f).nodes.lookup id = some node) : node.Sets := by
  rcases lookup_update_eq_some hnode with ⟨-, old, hold, rfl⟩ | ⟨-, hold⟩
  · exact hf old (h nodeId old hold)
  · exact h id node hold

theorem dependenciesOf_update (hf : ∀ node, (f node).dependencies = node.dependencies) (id : Str) :
    (state.update nodeId f).graph.dependenciesOf id = state.graph.dependenciesOf id :=
  congrArg (Option.getD · []) (map_lookup_update nodeId hf id)

theorem dependentsOf_update (hf : ∀ node, (f node).dependents = node.dependents) (id : Str) :
    (state.update nodeId f).graph.dependentsOf id = state.graph.dependentsOf id :=
  congrArg (Option.getD · []) (map_lookup_update nodeId hf id)

theorem Wired.mark (h : Wired state) {status : VisitStatus}
    (hstatus : status = .visited ∨ state.status.lookup nodeId = none) : Wired (state.mark nodeId status) := by
  obtain ⟨rank, hrank⟩ := id h
  refine h.of_same hrank.sets (fun _ => rfl) (fun _ => rfl) fun id hvisited => ?_
  rw [lookup_mark]
  split_ifs with hid
  · rcases hstatus with rfl | hnone
    · rfl
    · rw [hid, hnone] at hvisited
      cases hvisited
  · exact hvisited

/-- A new node has no edges. -/
theorem Wired.withNode (h : Wired state) (hnew : node.id ∉ keys state.nodes)
    (hbare : node.Bare) : Wired (withNode state node) := by
  obtain ⟨rank, hrank⟩ := id h
  have hnone := lookup_eq_none_iff.mpr hnew
  refine h.of_same (fun id other hother => ?_) (fun id => ?_) (fun id => ?_) fun _ hvisited => hvisited
  · rw [lookup_withNode hnew] at hother
    split_ifs at hother
    · cases hother
      constructor <;> simp [hbare.dependencies, hbare.dependents, hbare.dependencyEdges]
    · exact hrank.sets id other hother
  all_goals
    show (((Workspace.withNode state node).nodes.lookup id).map _).getD [] = ((state.nodes.lookup id).map _).getD []
    rw [lookup_withNode hnew]
    split_ifs with hid
    · simp [hid, hnone, hbare.dependencies, hbare.dependents]
    · rfl

/-! ## A new dependency -/

/-- A set of a node gains a value. -/
theorem mem_view_update (view : GraphNode → List Str) {value : Str} (hmember : nodeId ∈ keys state.nodes)
    (hf : ∀ node, view (f node) = addTo (view node) value) (id other : Str) :
    other ∈ (((state.update nodeId f).nodes.lookup id).map view).getD [] ↔
      other ∈ ((state.nodes.lookup id).map view).getD [] ∨ (id = nodeId ∧ other = value) := by
  rw [lookup_update]
  obtain ⟨node, hnode⟩ := exists_lookup hmember
  by_cases hid : id = nodeId
  · simp [hid, hnode, hf, mem_addTo]
  · simp [hid]

theorem mem_dependenciesOf_addDependency (hmember : nodeId ∈ keys state.nodes) (noWait : Bool) (n m : Str) :
    m ∈ (addDependency state nodeId childId noWait).graph.dependenciesOf n ↔
      m ∈ state.graph.dependenciesOf n ∨ (n = nodeId ∧ m = childId) := by
  have hsame : (addDependency state nodeId childId noWait).graph.dependenciesOf n =
      (state.update nodeId (GraphNode.withDependency childId noWait)).graph.dependenciesOf n :=
    dependenciesOf_update (by exact fun _ => rfl) n
  rw [hsame]
  exact mem_view_update GraphNode.dependencies hmember (fun _ => rfl) n m

theorem mem_dependentsOf_addDependency (hchild : childId ∈ keys state.nodes) (noWait : Bool) (n m : Str) :
    n ∈ (addDependency state nodeId childId noWait).graph.dependentsOf m ↔
      n ∈ state.graph.dependentsOf m ∨ (m = childId ∧ n = nodeId) := by
  have hsame : (state.update nodeId (GraphNode.withDependency childId noWait)).graph.dependentsOf m =
      state.graph.dependentsOf m := dependentsOf_update (by exact fun _ => rfl) m
  rw [← hsame]
  have hkey : childId ∈ keys (state.update nodeId (GraphNode.withDependency childId noWait)).nodes := by
    rw [keys_update]
    exact hchild
  exact mem_view_update GraphNode.dependents hkey (f := fun node =>
    { node with dependents := addTo node.dependents nodeId }) (fun _ => rfl) m n

/-- The node that is being visited gains a dependency on a node whose visit is over. -/
theorem Wired.addDependency (h : Wired state) (hvisiting : state.status.lookup nodeId = some .visiting)
    (hvisited : state.status.lookup childId = some .visited)
    (hmember : nodeId ∈ keys state.nodes) (hchild : childId ∈ keys state.nodes)
    (noWait : Bool) : Wired (addDependency state nodeId childId noWait) := by
  have hapart : ∀ {id}, state.status.lookup id = some .visited → id ≠ nodeId := by
    rintro id hid rfl
    rw [hvisiting] at hid
    cases hid
  obtain ⟨rank, hrank⟩ := h
  refine ⟨Function.update rank nodeId (max (rank nodeId) (rank childId + 1)), ?_, fun n m => ?_,
    fun n m hmem => ?_, fun n m hmem => ?_⟩
  · refine sets_update (fun node hsets => ?_) (sets_update (fun node hsets => ?_) hrank.sets)
    · exact { hsets with dependents := nodup_addTo hsets.dependents nodeId }
    · refine ⟨nodup_addTo hsets.dependencies childId, hsets.dependents, fun child => ?_⟩
      show child ∈ keys (declareEdge node.dependencyEdges childId noWait) ↔ child ∈ addTo node.dependencies childId
      rw [mem_keys_declareEdge_iff, mem_addTo, hsets.edges]
  · rw [mem_dependentsOf_addDependency hchild, mem_dependenciesOf_addDependency hmember, hrank.mirror, and_comm]
  · rcases (mem_dependenciesOf_addDependency hmember _ _ _).mp hmem with hmem | ⟨-, rfl⟩
    · exact hrank.visited n m hmem
    · exact hvisited
  · -- only the rank of the node that gains the dependency grows, and no node depends on it yet
    rcases (mem_dependenciesOf_addDependency hmember _ _ _).mp hmem with hmem | ⟨rfl, rfl⟩
    · have hless := hrank.ranked n m hmem
      rw [Function.update_of_ne (hapart (hrank.visited n m hmem))]
      by_cases hn : n = nodeId
      · rw [hn, Function.update_self]
        rw [hn] at hless
        omega
      · rw [Function.update_of_ne hn]
        exact hless
    · rw [Function.update_of_ne (hapart hvisited), Function.update_self]
      omega

/-! ## A tolerated failure -/

theorem mem_dependentsOf_dropUnknown {known : List Str} :
    n ∈ (dropUnknown after known).graph.dependentsOf m ↔ m ∉ droppedNodes after known ∧
      n ∉ droppedNodes after known ∧ n ∈ after.graph.dependentsOf m := by
  show n ∈ (((dropUnknown after known).nodes.lookup m).map _).getD [] ↔
    _ ∧ _ ∧ n ∈ ((after.nodes.lookup m).map GraphNode.dependents).getD []
  rw [lookup_nodes_dropUnknown]
  split_ifs with hm
  · simp [hm]
  · cases after.nodes.lookup m <;> simp [hm, GraphNode.forget, and_comm]

/-- The nodes that were there keep their dependencies, and lose only dependents that are dropped. -/
theorem Wired.dropUnknown {before : GraphState} (h : Wired before) (hafter : Wired after)
    (hsane : Sane after) (hbefore : Sane before) (hextends : Extends none before after) :
    Wired (dropUnknown after (keys before.nodes)) := by
  have hagrees := agrees_dropUnknown hsane hbefore hextends
  have hresult : ∀ id, (Workspace.dropUnknown after (keys before.nodes)).graph.dependenciesOf id =
      before.graph.dependenciesOf id := by
    intro id
    have hview := congrArg (Option.map GraphNode.dependencies) (hagrees.nodes id)
    rw [Option.map_map, Option.map_map] at hview
    exact congrArg (Option.getD · []) hview
  obtain ⟨rank, hrank⟩ := h
  obtain ⟨_, hrankAfter⟩ := hafter
  have hlate : ∀ n ∈ keys before.nodes, after.graph.dependenciesOf n = before.graph.dependenciesOf n := by
    intro n hn
    obtain ⟨node, hnode⟩ := exists_lookup hn
    obtain ⟨node', hnode', hcore⟩ := hextends.nodes n node hnode nofun
    show ((after.nodes.lookup n).map _).getD [] = ((before.nodes.lookup n).map _).getD []
    rw [hnode, hnode']
    exact (congrArg GraphNode.dependencies hcore).symm
  refine ⟨rank, fun id node hnode => ?_, fun n m => ?_, fun n m hmem => ?_, fun n m hmem => ?_⟩
  · obtain ⟨old, hold, hcore⟩ := hagrees.exists_before hnode
    have hsets := hrank.sets id old hold
    have hdependencies : old.dependencies = node.dependencies := (congrArg GraphNode.dependencies hcore :)
    have hedges : old.dependencyEdges = node.dependencyEdges := (congrArg GraphNode.dependencyEdges hcore :)
    refine ⟨hdependencies ▸ hsets.dependencies, ?_, hdependencies ▸ hedges ▸ hsets.edges⟩
    rw [lookup_nodes_dropUnknown] at hnode
    split_ifs at hnode
    obtain ⟨late, hlate, rfl⟩ := Option.map_eq_some_iff.mp hnode
    exact (hrankAfter.sets id late hlate).dependents.filter _
  · rw [mem_dependentsOf_dropUnknown, hresult, mem_droppedNodes, mem_droppedNodes, hrankAfter.mirror]
    constructor
    · rintro ⟨-, hn, hedge⟩
      have hknown := of_not_not fun hunknown => hn ⟨(hrankAfter.mem_keys hedge).1, hunknown⟩
      rwa [hlate n hknown] at hedge
    · intro hedge
      obtain ⟨hn, hm⟩ := hrank.mem_keys hedge
      exact ⟨fun hgone => hgone.2 hm, fun hgone => hgone.2 hn, (hlate n hn).symm ▸ hedge⟩
  · rw [hagrees.status]
    exact hrank.visited n m (hresult n ▸ hmem)
  · exact hrank.ranked n m (hresult n ▸ hmem)

/-! ## The resolved graph -/

/-- Every change of a visit keeps the wiring. -/
theorem kept_wired (tolerance : Tolerance) : Kept tolerance Wired where
  static := by
    rintro state ⟨rank, hrank⟩ nodeId
    exact Wired.of_same ⟨rank, hrank⟩ (sets_update (fun _ hsets => { hsets with }) hrank.sets)
      (dependenciesOf_update fun _ => rfl) (dependentsOf_update fun _ => rfl) fun _ hvisited => hvisited
  enter h hnew hbare := h.withNode hnew hbare
  start h hnone := h.mark (.inr hnone)
  finish h nodeId := h.mark (.inl rfl)
  dependency h hvisiting hvisited hmember hchild noWait :=
    h.addDependency hvisiting hvisited hmember hchild noWait
  backedge := by
    rintro state ⟨rank, hrank⟩ nodeId childId noWait _
    have hsets : ∀ id node, (state.update nodeId (GraphNode.withBackedge childId noWait)).nodes.lookup id =
        some node → node.Sets := sets_update (fun _ hsets => { hsets with }) hrank.sets
    exact Wired.of_same ⟨rank, hrank⟩ hsets (dependenciesOf_update fun _ => rfl) (dependentsOf_update fun _ => rfl)
      fun _ hvisited => hvisited
  tolerated := by
    intro before after h hafter hsane hsaneAfter hextends _ _
    obtain ⟨rank, hrank⟩ := h.dropUnknown hafter hsaneAfter hsane hextends
    exact ⟨rank, { hrank with }⟩

/-- The wiring of a resolved graph. -/
theorem wired_resolveWorkspaceDependencyGraph {sources : Sources} {options : GraphOptions} {fuel : Nat}
    {graph : Graph} (h : resolveWorkspaceDependencyGraph sources options fuel = .ok graph) :
    ∃ state, graph.nodes = state.nodes ∧ Wired state := by
  have hempty : Wired ⟨[], [], [], []⟩ := ⟨fun _ => 0, nofun, fun _ _ => by
    simp [Graph.dependentsOf, Graph.dependenciesOf, GraphState.graph], nofun, nofun⟩
  obtain ⟨state, agent, rfl, -, hwired, -⟩ := resolveWorkspaceDependencyGraph_spec (kept_wired _) hempty h
  exact ⟨state, rfl, hwired⟩

section Graphs

variable {graph : Graph}

/-- A node map in which `dependents` is the converse of `dependencies`. -/
theorem mirrored_of_converse (hkeys : (keys graph.nodes).Nodup)
    (hsets : ∀ id node, graph.nodes.lookup id = some node → node.dependencies.Nodup ∧ node.dependents.Nodup)
    (hconverse : ∀ n m, n ∈ graph.dependentsOf m ↔ m ∈ graph.dependenciesOf n) :
    Layers.Mirrored (keys graph.nodes) graph.dependenciesOf graph.dependentsOf := by
  refine ⟨hkeys, fun id hid => ?_, fun id hid => ?_, fun id _ child hchild => ?_,
    fun id _ other _ => (hconverse id other).symm⟩
  · obtain ⟨node, hnode⟩ := exists_lookup hid
    rw [Graph.dependenciesOf, hnode]
    exact (hsets id node hnode).1
  · obtain ⟨node, hnode⟩ := exists_lookup hid
    rw [Graph.dependentsOf, hnode]
    exact (hsets id node hnode).2
  · obtain ⟨_, hnode, _⟩ := mem_dependentsOf.mp ((hconverse id child).mpr hchild)
    exact mem_keys_of_lookup hnode

theorem degrees_eq (hnodup : (keys graph.nodes).Nodup) :
    Layers.degrees (keys graph.nodes) graph.dependenciesOf =
      graph.nodes.map fun pair => (pair.1, pair.2.dependencies.length) := by
  unfold Layers.degrees AssocList.keys
  rw [map_map]
  refine map_congr_left fun pair hpair => ?_
  have hlookup : graph.nodes.lookup pair.1 = some pair.2 := AssocList.lookup_of_mem hnodup hpair
  show (pair.1, (graph.dependenciesOf pair.1).length) = _
  rw [Graph.dependenciesOf, hlookup]
  rfl

/-- Every node is in the wave of its longest chain, or the dependencies have a cycle. -/
theorem topologicallyGroupDependencyGraph_spec (platform : Platform)
    (h : Layers.Mirrored (keys graph.nodes) graph.dependenciesOf graph.dependentsOf) :
    match topologicallyGroupDependencyGraph platform graph with
    | .ok waves => waves.flatten.Perm (keys graph.nodes) ∧
        ∀ i wave, waves[i]? = some wave → ∀ id ∈ wave, Layers.Longest graph.dependenciesOf id i
    | .error _ => ∃ id, Relation.TransGen (Layers.DependsOn graph.dependenciesOf) id id := by
  have hspec := h.layers_spec fun a b => platform.localeLe a b = true
  rw [degrees_eq h.nodup] at hspec
  unfold topologicallyGroupDependencyGraph
  split at hspec
  next waves hwaves =>
    rw [hwaves]
    exact hspec
  next hnone =>
    rw [hnone]
    exact hspec

end Graphs

/-- A resolved graph is consistent and acyclic: dependencies are nodes, dependents mirror them, the edges
are those of the dependencies, no node depends on itself, and the topological grouping puts every node
into a wave. -/
theorem resolved_graph_consistent {sources : Sources} {options : GraphOptions} {fuel : Nat} {graph : Graph}
    (platform : Platform) (h : resolveWorkspaceDependencyGraph sources options fuel = .ok graph) :
    (∀ id, ∀ child ∈ graph.dependenciesOf id, child ∈ keys graph.nodes) ∧
      (∀ n m, n ∈ graph.dependentsOf m ↔ m ∈ graph.dependenciesOf n) ∧
      (∀ id node, graph.nodes.lookup id = some node → ∀ child,
        child ∈ keys node.dependencyEdges ↔ child ∈ node.dependencies) ∧
      (∀ id, ¬ Relation.TransGen (fun n m => m ∈ graph.dependenciesOf n) id id) ∧
      ∃ waves, topologicallyGroupDependencyGraph platform graph = .ok waves ∧
        waves.flatten.Perm (keys graph.nodes) := by
  have hkeys := (resolveWorkspaceDependencyGraph_edges h).nodup
  obtain ⟨state, hnodes, rank, hrank⟩ := wired_resolveWorkspaceDependencyGraph h
  obtain ⟨staticNodeId, _, reports⟩ := graph
  obtain rfl : _ = state.nodes := hnodes
  have hmirrored := mirrored_of_converse hkeys (fun id node hnode =>
    ⟨(hrank.sets id node hnode).dependencies, (hrank.sets id node hnode).dependents⟩) hrank.mirror
  have hacyclic := Layers.acyclic_of_rank hrank.ranked
  refine ⟨fun id child hchild => (hrank.mem_keys hchild).2, hrank.mirror,
    fun id node hnode => (hrank.sets id node hnode).edges, hacyclic, ?_⟩
  · have hspec := topologicallyGroupDependencyGraph_spec platform hmirrored
    split at hspec
    next waves hwaves => exact ⟨waves, hwaves, hspec.1⟩
    next =>
      obtain ⟨id, hcycle⟩ := hspec
      exact absurd hcycle (hacyclic id)

/-- The agents `a` and `b` enable each other. -/
def mutualLists : Table (List Json) := [("s", [.str "a", .str "b no-wait"]), ("a", [.str "b"]), ("b", [.str "a"])]

/-- The cut edge of the cycle is no dependency. -/
theorem resolved_graph_consistent_mutual : ∃ graph waves,
    resolveWorkspaceDependencyGraph (enablingSources mutualLists) (plainOptions "r/s") 4 = .ok graph ∧
      graph.dependenciesOf "r/a" = [lit "r/b"] ∧ graph.dependenciesOf "r/b" = [] ∧
      topologicallyGroupDependencyGraph Plain.platform graph = .ok waves := by
  have hok : (resolveWorkspaceDependencyGraph (enablingSources mutualLists) (plainOptions "r/s")
      4).toOption.map (fun graph => (graph.dependenciesOf "r/a", graph.dependenciesOf "r/b")) =
      some ([lit "r/b"], []) := by decide +kernel
  obtain ⟨graph, hgraph, hpair⟩ := exists_ok_of_map hok
  obtain ⟨_, _, _, _, waves, hwaves, _⟩ := resolved_graph_consistent Plain.platform hgraph
  exact ⟨graph, waves, hgraph, congrArg Prod.fst hpair, congrArg Prod.snd hpair, hwaves⟩

/-- The waves of a node map whose `dependents` are the converse of its `dependencies`: the grouping throws
exactly on a cycle, its waves partition the nodes, every dependency is in an earlier wave, and the index of
a wave is the length of the longest chain of dependencies of each of its nodes. -/
theorem waves_are_longest_chains (platform : Platform) (graph : Graph) (hkeys : (keys graph.nodes).Nodup)
    (hsets : ∀ id node, graph.nodes.lookup id = some node → node.dependencies.Nodup ∧ node.dependents.Nodup)
    (hconverse : ∀ n m, n ∈ graph.dependentsOf m ↔ m ∈ graph.dependenciesOf n) :
    ((∃ message, topologicallyGroupDependencyGraph platform graph = .error message) ↔
        ∃ id, Relation.TransGen (Layers.DependsOn graph.dependenciesOf) id id) ∧
      ∀ waves, topologicallyGroupDependencyGraph platform graph = .ok waves →
        waves.flatten.Perm (keys graph.nodes) ∧
          ∀ i wave, waves[i]? = some wave → ∀ id ∈ wave, Layers.Longest graph.dependenciesOf id i ∧
            ∀ child ∈ graph.dependenciesOf id, ∃ j < i, ∃ earlier, waves[j]? = some earlier ∧ child ∈ earlier := by
  have hmirrored := mirrored_of_converse hkeys hsets hconverse
  have hspec := topologicallyGroupDependencyGraph_spec platform hmirrored
  cases hresult : topologicallyGroupDependencyGraph platform graph with
  | error message =>
    rw [hresult] at hspec
    exact ⟨⟨fun _ => hspec, fun _ => ⟨message, rfl⟩⟩, nofun⟩
  | ok waves =>
    rw [hresult] at hspec
    obtain ⟨hperm, hlongest⟩ := hspec
    have hwave : ∀ id ∈ keys graph.nodes, ∃ (i : Nat) (wave : List Str), waves[i]? = some wave ∧ id ∈ wave := by
      intro id hid
      obtain ⟨wave, hmem, hid⟩ := mem_flatten.mp (hperm.mem_iff.mpr hid)
      obtain ⟨i, hi⟩ := mem_iff_getElem?.mp hmem
      exact ⟨i, wave, hi, hid⟩
    choose! index wave hindex using hwave
    have hnode : ∀ id ∈ keys graph.nodes, Layers.Longest graph.dependenciesOf id (index id) :=
      fun id hid => hlongest _ _ (hindex id hid).1 id (hindex id hid).2
    have hacyclic := Layers.acyclic_of_rank fun n m (hedge : Layers.DependsOn graph.dependenciesOf n m) => by
      obtain ⟨node, hlookup, _⟩ := mem_dependenciesOf.mp hedge
      have hn := mem_keys_of_lookup hlookup
      exact (hnode n hn).lt (hnode m (hmirrored.closed n hn m hedge)) hedge
    refine ⟨⟨nofun, fun ⟨id, hcycle⟩ => absurd hcycle (hacyclic id)⟩, fun _ hok => ?_⟩
    cases hok
    refine ⟨hperm, fun i wave hi id hid => ⟨hlongest i wave hi id hid, fun child hchild => ?_⟩⟩
    have hkey := hperm.mem_iff.mp (mem_flatten.mpr ⟨wave, mem_of_getElem? hi, hid⟩)
    have hchildKey := hmirrored.closed id hkey child hchild
    exact ⟨index child, (hlongest i wave hi id hid).lt (hnode child hchildKey) hchild, _, hindex child hchildKey⟩

/-- The static node is in the third wave, after the cut edge of the cycle was left out. -/
theorem waves_are_longest_chains_mutual : ∃ graph,
    resolveWorkspaceDependencyGraph (enablingSources mutualLists) (plainOptions "r/s") 4 = .ok graph ∧
      topologicallyGroupDependencyGraph Plain.platform graph =
        .ok [[lit "r/b"], [lit "r/a"], [lit "r/s"]] ∧
      Layers.Longest graph.dependenciesOf "r/s" 2 := by
  have hok : (resolveWorkspaceDependencyGraph (enablingSources mutualLists) (plainOptions "r/s")
      4).toOption.map (topologicallyGroupDependencyGraph Plain.platform) =
      some (.ok [[lit "r/b"], [lit "r/a"], [lit "r/s"]]) := by decide +kernel
  obtain ⟨graph, hgraph, hwaves⟩ := exists_ok_of_map hok
  refine ⟨graph, hgraph, hwaves, ?_⟩
  have hkeys := (resolveWorkspaceDependencyGraph_edges hgraph).nodup
  obtain ⟨state, hnodes, rank, hrank⟩ := wired_resolveWorkspaceDependencyGraph hgraph
  obtain ⟨staticNodeId, _, reports⟩ := graph
  obtain rfl : _ = state.nodes := hnodes
  have hlongest := waves_are_longest_chains Plain.platform _ hkeys (fun id node hnode =>
    ⟨(hrank.sets id node hnode).dependencies, (hrank.sets id node hnode).dependents⟩) hrank.mirror
  exact (((hlongest.2 _ hwaves).2 2 [lit "r/s"] rfl) _ (.head _)).1

end Ploinky.Workspace
