import Ploinky.Graph.DependencyGraph

/-!
# The edges of the dependency graph

What a resolved graph says about the manifests: the edges of a node are those its manifest declares, kept
as dependencies or as back edges of a cycle, and a blocking declaration wins over a `no-wait` one. Read
`resolveWorkspaceDependencyGraph_edges` first. The visit keeps `Good` and changes only the nodes that it
adds; a failed visit leaves nothing behind when it is tolerated.
-/

namespace Ploinky.Workspace

open Js Edge Option
open AssocList (keys lookup_eq_none_iff)

/-! ## Declarations and edges -/

/-- The entry of a node declares a dependency on the child. -/
def Declares (sources : Sources) (node : GraphNode) (entry : Json) (child : Str) (noWait : Bool) : Prop :=
  ∃ directive agentRef agent, declaredDependency sources node entry = .ok (some (directive, agentRef)) ∧
    sources.findAgent agentRef = .ok agent ∧ child = createGraphNodeId agent directive.aliasName ∧
    directive.noWait = noWait

/-- The graph has a blocking edge, as a dependency or as a back edge. -/
def Blocking (node : GraphNode) (child : Str) : Prop :=
  (child ∈ node.dependencies ∧ node.dependencyEdges.lookup child ≠ some true) ∨
    node.cycleBackedges.lookup child = some false

/-- The node has an edge to the child. -/
def HasEdge (node : GraphNode) (child : Str) : Prop :=
  child ∈ node.dependencies ∨ child ∈ keys node.cycleBackedges

/-- The part of a node that its edges depend on. -/
def GraphNode.core (node : GraphNode) : GraphNode := { node with dependents := [], isStatic := false }

variable {sources : Sources} {node other : GraphNode} {entry : Json} {done : List Json}
  {reports : List Report} {edges : Table Bool} {childId child : Str} {noWait : Bool}

/-- What an entry declares depends on the repository and the authentication of the node only. -/
theorem declares_congr (hagent : node.agent = other.agent) (hauth : node.authMode = other.authMode)
    (entry : Json) (child : Str) (noWait : Bool) :
    Declares sources node entry child noWait ↔ Declares sources other entry child noWait := by
  unfold Declares declaredDependency
  rw [hagent, hauth]

/-- Each edge of the map was declared by an entry, with its wait kind. -/
def Declared (sources : Sources) (node : GraphNode) (done : List Json) (edges : Table Bool) : Prop :=
  ∀ child noWait, edges.lookup child = some noWait →
    ∃ entry ∈ done, Declares sources node entry child noWait

/-- A declared edge is there, and blocking if it was declared so. -/
def Recorded (node : GraphNode) (child : Str) (noWait : Bool) : Prop :=
  HasEdge node child ∧ (noWait = false → Blocking node child)

/-- The edges of a node after some of its entries: each comes from an entry, and each declaration is an
edge or was reported. -/
structure EdgesFrom (sources : Sources) (node : GraphNode) (done : List Json) (reports : List Report) :
    Prop where
  dependency : Declared sources node done node.dependencyEdges
  backedge : Declared sources node done node.cycleBackedges
  noted : ∀ child ∈ node.dependencies, (node.dependencyEdges.lookup child).isSome
  complete : ∀ entry ∈ done, ∀ child noWait, Declares sources node entry child noWait →
    Recorded node child noWait ∨ ∃ message, ⟨entry, node.agentRef, message⟩ ∈ reports
  nodup : (keys node.cycleBackedges).Nodup

theorem EdgesFrom.congr {reports' : List Report} (h : EdgesFrom sources node done reports)
    (hcore : node.core = other.core) (hreports : reports ⊆ reports') :
    EdgesFrom sources other done reports' := by
  -- only the core of a node is read
  have hsame : EdgesFrom sources node.core done reports := { h with }
  rw [hcore] at hsame
  refine { hsame with complete := fun entry hentry child noWait hdeclares => ?_ }
  refine (hsame.complete entry hentry child noWait hdeclares).imp_right ?_
  rintro ⟨message, hmem⟩
  exact ⟨message, hreports hmem⟩

/-- The wait kind after a declaration. -/
theorem lookup_declareEdge (edges : Table Bool) (childId child : Str) (noWait : Bool) :
    (declareEdge edges childId noWait).lookup child =
      if child = childId then some (((edges.lookup childId).getD true) && noWait)
      else edges.lookup child := by
  unfold declareEdge
  by_cases hchild : child = childId
  · rw [hchild]
    rcases hlookup : edges.lookup childId with _ | _ | _ <;> cases noWait <;>
      simp [AssocList.lookup_set, hlookup]
  · rw [if_neg hchild]
    split
    · rw [AssocList.lookup_set, if_neg hchild]
    · split_ifs
      · rw [AssocList.lookup_set, if_neg hchild]
      · rfl

theorem mem_keys_declareEdge :
    child ∈ keys (declareEdge edges childId noWait) ↔ child ∈ keys edges ∨ child = childId := by
  rw [← not_iff_not, not_or, ← lookup_eq_none_iff, ← lookup_eq_none_iff, lookup_declareEdge]
  split_ifs with hchild
  · simp [hchild]
  · simp [hchild]

theorem keys_declareEdge (hnodup : (keys edges).Nodup) (childId : Str) (noWait : Bool) :
    (keys (declareEdge edges childId noWait)).Nodup := by
  unfold declareEdge
  split
  · exact AssocList.nodup_keys_set hnodup _
  · split_ifs
    · exact AssocList.nodup_keys_set hnodup _
    · exact hnodup

variable {set : List Str} {nodeId key agentRef : Str} {f : GraphNode → GraphNode} {α : Type}
  {directive : Directive} {agent : Agent} {table : List (Str × α)}

theorem mem_addTo {value other : Str} :
    other ∈ addTo set value ↔ other ∈ set ∨ other = value := by
  unfold addTo
  split_ifs with hmem
  · constructor
    · exact Or.inl
    · rintro (h | rfl)
      · exact h
      · exact hmem
  · rw [List.mem_append, List.mem_singleton]

theorem nodup_addTo (h : set.Nodup) (value : Str) : (addTo set value).Nodup := by
  unfold addTo
  split_ifs with hmem
  · exact h
  · exact h.append (List.nodup_singleton value) (List.disjoint_singleton.mpr hmem)

theorem Declared.mono (h : Declared sources node done edges) (entry : Json) :
    Declared sources node (done ++ [entry]) edges := by
  intro child wait hlookup
  obtain ⟨other, hother, hdeclares⟩ := h child wait hlookup
  exact ⟨other, List.mem_append_left _ hother, hdeclares⟩

/-- A further declaration. -/
theorem Declared.declareEdge (h : Declared sources node done edges)
    (hdeclared : Declares sources node entry childId noWait) :
    Declared sources node (done ++ [entry]) (declareEdge edges childId noWait) := by
  intro child wait hlookup
  rw [lookup_declareEdge] at hlookup
  split_ifs at hlookup with hchild
  · rw [← hchild] at hdeclared hlookup
    -- the kind is that of the new declaration, unless an earlier one is blocking
    rcases hedge : edges.lookup child with _ | _ | _
    all_goals
      rw [hedge] at hlookup
      cases hlookup
    · exact ⟨entry, by simp, hdeclared⟩
    · exact h.mono entry child false hedge
    · exact ⟨entry, by simp, hdeclared⟩
  · exact h.mono entry child wait hlookup

/-- A blocking edge stays blocking. -/
theorem lookup_declareEdge_false (h : edges.lookup child = some false) :
    (declareEdge edges childId noWait).lookup child = some false := by
  rw [lookup_declareEdge]
  split_ifs with hchild
  · rw [← hchild, h]
    rfl
  · exact h

/-- An entry that declares nothing, or was reported, leaves the edges. -/
theorem EdgesFrom.skip (h : EdgesFrom sources node done reports)
    (hentry : ∀ child noWait, Declares sources node entry child noWait →
      ∃ message, ⟨entry, node.agentRef, message⟩ ∈ reports) :
    EdgesFrom sources node (done ++ [entry]) reports := by
  refine ⟨h.dependency.mono entry, h.backedge.mono entry, h.noted, ?_, h.nodup⟩
  exact List.forall_mem_append.mpr ⟨h.complete, List.forall_mem_singleton.mpr
    fun child noWait hdeclares => Or.inr (hentry child noWait hdeclares)⟩

section Recorded

variable (h : EdgesFrom sources node done reports) (hdeclared : Declares sources node entry childId noWait)
  (honly : ∀ child wait, Declares sources node entry child wait → child = childId ∧ wait = noWait)

include h hdeclared honly

/-- A dependency that was declared and visited is recorded. -/
theorem EdgesFrom.withDependency :
    EdgesFrom sources (node.withDependency childId noWait) (done ++ [entry]) reports := by
  have hlookup := lookup_declareEdge node.dependencyEdges childId
  refine ⟨h.dependency.declareEdge hdeclared, h.backedge.mono entry, fun child hchild => ?_,
    List.forall_mem_append.mpr ⟨fun other hother child wait hdeclares => ?_,
      List.forall_mem_singleton.mpr fun child wait hdeclares => ?_⟩, h.nodup⟩
  · show ((declareEdge node.dependencyEdges childId noWait).lookup child).isSome
    rw [hlookup]
    split_ifs with hsame
    · rfl
    · exact h.noted child ((mem_addTo.mp hchild).resolve_right hsame)
  · refine (h.complete other hother child wait hdeclares).imp_left
      (And.imp (Or.imp_left fun hmem => mem_addTo.mpr (.inl hmem)) fun hblocks hwait => ?_)
    refine (hblocks hwait).imp_left ?_
    rintro ⟨hmem, hne⟩
    obtain ⟨kind, hkind⟩ := isSome_iff_exists.mp (h.noted child hmem)
    cases kind with
    | true => exact absurd hkind hne
    | false =>
      refine ⟨mem_addTo.mpr (Or.inl hmem), ?_⟩
      show (declareEdge node.dependencyEdges childId noWait).lookup child ≠ _
      rw [lookup_declareEdge_false hkind]
      simp
  · obtain ⟨rfl, rfl⟩ := honly child wait hdeclares
    have hmem : child ∈ addTo node.dependencies child := mem_addTo.mpr (.inr rfl)
    refine .inl ⟨.inl hmem, fun hwait => .inl ⟨hmem, ?_⟩⟩
    show (declareEdge node.dependencyEdges child wait).lookup child ≠ _
    rw [hlookup, if_pos rfl, hwait, Bool.and_false]
    simp

/-- A dependency that closes a cycle is recorded. -/
theorem EdgesFrom.withBackedge :
    EdgesFrom sources (node.withBackedge childId noWait) (done ++ [entry]) reports := by
  refine ⟨h.dependency.mono entry, h.backedge.declareEdge hdeclared, h.noted,
    List.forall_mem_append.mpr ⟨fun other hother child wait hdeclares => ?_,
      List.forall_mem_singleton.mpr fun child wait hdeclares => ?_⟩, keys_declareEdge h.nodup childId noWait⟩
  · refine (h.complete other hother child wait hdeclares).imp_left
      (And.imp (Or.imp_right fun hmem => ?_) fun hblocks hwait =>
        (hblocks hwait).imp_right lookup_declareEdge_false)
    exact mem_keys_declareEdge.mpr (.inl hmem)
  · obtain ⟨rfl, rfl⟩ := honly child wait hdeclares
    refine .inl ⟨.inr (mem_keys_declareEdge.mpr (.inr rfl)), fun hwait => .inr ?_⟩
    show (declareEdge node.cycleBackedges child wait).lookup child = _
    rw [lookup_declareEdge, if_pos rfl, hwait, Bool.and_false]

end Recorded

/-! ## The state of a visit -/

variable {stack : List Str} {state before after : GraphState} {working : Option Str} {id : Str}

theorem lookup_update (state : GraphState) (nodeId : Str) (f : GraphNode → GraphNode) (key : Str) :
    (state.update nodeId f).nodes.lookup key =
      if key = nodeId then (state.nodes.lookup key).map f else state.nodes.lookup key := by
  unfold GraphState.update
  induction state.nodes with
  | nil => simp
  | cons pair rest ih =>
    rw [List.map_cons, AssocList.lookup_cons, AssocList.lookup_cons, ih]
    by_cases hpair : pair.1 = nodeId
    · by_cases hkey : key = nodeId
      · simp [hpair, hkey]
      · simp [hpair, hkey]
    · by_cases hkey : key = nodeId
      · have hne : key ≠ pair.1 := fun heq => hpair (heq.symm.trans hkey)
        simp [hpair, hkey, hkey ▸ hne]
      · simp [hpair, hkey]

theorem lookup_update_eq_some (h : (state.update nodeId f).nodes.lookup id = some node) :
    (id = nodeId ∧ ∃ old, state.nodes.lookup nodeId = some old ∧ f old = node) ∨
      (id ≠ nodeId ∧ state.nodes.lookup id = some node) := by
  rw [lookup_update] at h
  split_ifs at h with hsame
  · exact .inl ⟨hsame, map_eq_some_iff.mp (hsame ▸ h)⟩
  · exact .inr ⟨hsame, h⟩

/-- A change of the nodes that a view of them does not show. -/
theorem map_lookup_update {view : GraphNode → α} (nodeId : Str) (hf : ∀ node, view (f node) = view node)
    (id : Str) :
    ((state.update nodeId f).nodes.lookup id).map view = (state.nodes.lookup id).map view := by
  rw [lookup_update]
  split_ifs
  · rw [map_map]
    exact congrArg (Option.map · _) (funext hf)
  · rfl

theorem keys_update (state : GraphState) (nodeId : Str) (f : GraphNode → GraphNode) :
    keys (state.update nodeId f).nodes = keys state.nodes := by
  unfold GraphState.update keys
  rw [List.map_map]
  refine List.map_congr_left fun pair _ => ?_
  show (if pair.1 = nodeId then (pair.1, f pair.2) else pair).1 = pair.1
  split_ifs <;> rfl

theorem lookup_mark (state : GraphState) (nodeId : Str) (status : VisitStatus) (id : Str) :
    (state.mark nodeId status).status.lookup id =
      if id = nodeId then some status else state.status.lookup id :=
  AssocList.lookup_set _ _ id

theorem mem_keys_mark {status : VisitStatus} : id ∈ keys (state.mark nodeId status).status ↔
      id = nodeId ∨ id ∈ keys state.status :=
  AssocList.mem_keys_set

/-- What also holds in the state of a failed visit. -/
structure Sane (state : GraphState) : Prop where
  nodup : (keys state.nodes).Nodup
  statused : ∀ id, id ∈ keys state.status → id ∈ keys state.nodes
  ids : ∀ id node, state.nodes.lookup id = some node → node.id = id

/-- The state in which a visit starts or ends, with the nodes that are being visited. -/
structure Good (sources : Sources) (stack : List Str) (state : GraphState) : Prop where
  sane : Sane state
  status : ∀ id ∈ keys state.nodes, id ∈ keys state.status
  visiting : ∀ id, state.status.lookup id = some .visiting → id ∈ stack
  stacked : ∀ id ∈ stack, id ∈ keys state.nodes
  closed : ∀ id node, state.nodes.lookup id = some node → ∀ child, HasEdge node child →
    child ∈ keys state.nodes
  visited : ∀ id node, state.nodes.lookup id = some node → state.status.lookup id = some .visited →
    EdgesFrom sources node node.enableEntries state.reports

/-- The later state has the nodes of the earlier one, with their edges and their status; the node that is
being worked on excepted. -/
structure Extends (working : Option Str) (before after : GraphState) : Prop where
  nodes : ∀ id node, before.nodes.lookup id = some node → some id ≠ working →
    ∃ node', after.nodes.lookup id = some node' ∧ node.core = node'.core
  keys : ∀ id ∈ AssocList.keys before.nodes, id ∈ AssocList.keys after.nodes
  status : ∀ id ∈ AssocList.keys before.nodes, after.status.lookup id = before.status.lookup id
  reports : before.reports ⊆ after.reports

theorem Extends.refl (working : Option Str) (state : GraphState) : Extends working state state :=
  ⟨fun _ node h _ => ⟨node, h, rfl⟩, fun _ h => h, fun _ _ => rfl, List.Subset.refl _⟩

theorem Extends.trans {first second third : GraphState} (h : Extends working first second)
    (h' : Extends working second third) : Extends working first third := by
  refine ⟨fun id node hnode hne => ?_, fun id hid => h'.keys id (h.keys id hid), fun id hid => ?_,
    fun _ hreport => h'.reports (h.reports hreport)⟩
  · obtain ⟨node', hnode', hcore⟩ := h.nodes id node hnode hne
    obtain ⟨node'', hnode'', hcore'⟩ := h'.nodes id node' hnode' hne
    exact ⟨node'', hnode'', hcore.trans hcore'⟩
  · rw [h'.status id (h.keys id hid), h.status id hid]

theorem Extends.weaken (h : Extends none before after) : Extends working before after :=
  { h with nodes := fun id node hnode _ => h.nodes id node hnode (by simp) }

theorem mem_keys_of_lookup {value : α} (h : table.lookup key = some value) : key ∈ keys table :=
  List.mem_map_of_mem (AssocList.mem_of_lookup h)

theorem exists_lookup (h : key ∈ keys table) :
    ∃ value, table.lookup key = some value := by
  cases hlookup : table.lookup key with
  | none => exact absurd h (lookup_eq_none_iff.mp hlookup)
  | some value => exact ⟨value, rfl⟩

/-- The states agree on everything but the dependents. -/
structure Agrees (before after : GraphState) : Prop where
  nodes : ∀ id, (after.nodes.lookup id).map GraphNode.core = (before.nodes.lookup id).map GraphNode.core
  nodup : (keys after.nodes).Nodup
  status : ∀ id, after.status.lookup id = before.status.lookup id
  reports : before.reports ⊆ after.reports

theorem Agrees.mem_keys (h : Agrees before after) (id : Str) :
    id ∈ keys after.nodes ↔ id ∈ keys before.nodes := by
  have hnone : after.nodes.lookup id = none ↔ before.nodes.lookup id = none := by
    rw [← map_eq_none_iff, h.nodes id, map_eq_none_iff]
  rw [lookup_eq_none_iff, lookup_eq_none_iff] at hnone
  exact not_iff_not.mp hnone

theorem Agrees.exists_before (h : Agrees before after) (hnode : after.nodes.lookup id = some node) :
    ∃ node', before.nodes.lookup id = some node' ∧ node'.core = node.core := by
  have hmap := h.nodes id
  rw [hnode] at hmap
  exact map_eq_some_iff.mp hmap.symm

theorem Agrees.exists_after (h : Agrees before after) (hnode : before.nodes.lookup id = some node) :
    ∃ node', after.nodes.lookup id = some node' ∧ node.core = node'.core := by
  have hmap := h.nodes id
  rw [hnode] at hmap
  obtain ⟨node', hnode', hcore⟩ := map_eq_some_iff.mp hmap
  exact ⟨node', hnode', hcore.symm⟩

theorem enableEntries_congr (h : node.core = other.core) : node.enableEntries = other.enableEntries := by
  show node.core.enableEntries = other.core.enableEntries
  rw [h]

theorem Agrees.good (h : Agrees before after) (hgood : Good sources stack before) :
    Good sources stack after := by
  have hstatusKeys : ∀ id, id ∈ keys after.status ↔ id ∈ keys before.status := by
    intro id
    refine not_iff_not.mp ?_
    rw [← lookup_eq_none_iff, ← lookup_eq_none_iff, h.status id]
  refine ⟨⟨h.nodup, fun id hid => ?_, fun id node hnode => ?_⟩, fun id hid => ?_, fun id hvisiting => ?_,
    fun id hid => ?_, fun id node hnode child hedge => ?_, fun id node hnode hvisited => ?_⟩
  · exact (h.mem_keys id).mpr (hgood.sane.statused id ((hstatusKeys id).mp hid))
  · obtain ⟨node', hnode', hcore⟩ := h.exists_before hnode
    have hsame : node'.core.id = node.core.id := by rw [hcore]
    exact hsame.symm.trans (hgood.sane.ids id node' hnode')
  · exact (hstatusKeys id).mpr (hgood.status id ((h.mem_keys id).mp hid))
  · exact hgood.visiting id (h.status id ▸ hvisiting)
  · exact (h.mem_keys id).mpr (hgood.stacked id hid)
  · obtain ⟨node', hnode', hcore⟩ := h.exists_before hnode
    exact (h.mem_keys child).mpr (hgood.closed id node' hnode' child (show HasEdge node'.core child from hcore ▸ hedge))
  · obtain ⟨node', hnode', hcore⟩ := h.exists_before hnode
    rw [← enableEntries_congr hcore]
    exact (hgood.visited id node' hnode' (h.status id ▸ hvisited)).congr hcore h.reports

theorem Agrees.extends (h : Agrees before after) (working : Option Str) : Extends working before after :=
  ⟨fun _ _ hnode _ => h.exists_after hnode, fun id hid => (h.mem_keys id).mpr hid,
    fun id _ => h.status id, h.reports⟩

theorem mem_droppedNodes {known : List Str} :
    id ∈ droppedNodes state known ↔ id ∈ keys state.nodes ∧ id ∉ known := by
  rw [droppedNodes, List.mem_filter, decide_eq_true_eq]

theorem lookup_nodes_dropUnknown (state : GraphState) (known : List Str) (id : Str) :
    (dropUnknown state known).nodes.lookup id = if id ∈ droppedNodes state known then none
      else (state.nodes.lookup id).map (GraphNode.forget (droppedNodes state known)) := by
  unfold dropUnknown
  rw [AssocList.lookup_map_values (GraphNode.forget _),
    AssocList.lookup_filter _ fun key => decide (key ∉ droppedNodes state known)]
  by_cases hmem : id ∈ droppedNodes state known <;> simp [hmem]

theorem lookup_status_dropUnknown (state : GraphState) (known : List Str) (id : Str) :
    (dropUnknown state known).status.lookup id =
      if id ∈ droppedNodes state known then none else state.status.lookup id := by
  unfold dropUnknown
  rw [AssocList.lookup_filter _ fun key => decide (key ∉ droppedNodes state known)]
  by_cases hmem : id ∈ droppedNodes state known <;> simp [hmem]

/-- A tolerated failure leaves the state before it. -/
theorem agrees_dropUnknown (hsane : Sane after) (hbefore : Sane before)
    (h : Extends none before after) : Agrees before (dropUnknown after (keys before.nodes)) := by
  refine ⟨fun id => ?_, ?_, fun id => ?_, h.reports⟩
  · rw [lookup_nodes_dropUnknown]
    by_cases hknown : id ∈ keys before.nodes
    · obtain ⟨node, hnode⟩ := exists_lookup hknown
      obtain ⟨node', hnode', hcore⟩ := h.nodes id node hnode (by simp)
      rw [if_neg fun hmem => (mem_droppedNodes.mp hmem).2 hknown, hnode, hnode', map_some,
        map_some, map_some, hcore]
      rfl
    · rw [lookup_eq_none_iff.mpr hknown]
      split_ifs with hmem
      · rfl
      · rw [lookup_eq_none_iff.mpr fun hin => hmem (mem_droppedNodes.mpr ⟨hin, hknown⟩)]
        rfl
  · show (((after.nodes.filter _).map _).map Prod.fst).Nodup
    rw [List.map_map]
    exact hsane.nodup.sublist (List.filter_sublist.map _)
  · rw [lookup_status_dropUnknown]
    by_cases hknown : id ∈ keys before.nodes
    · rw [if_neg fun hmem => (mem_droppedNodes.mp hmem).2 hknown, h.status id hknown]
    · rw [lookup_eq_none_iff.mpr fun hin => hknown (hbefore.statused id hin)]
      split_ifs with hmem
      · rfl
      · exact lookup_eq_none_iff.mpr fun hin =>
          hmem (mem_droppedNodes.mpr ⟨hsane.statused id hin, hknown⟩)

/-- The node that is being visited can gain edges to nodes that are there. -/
theorem Good.update (h : Good sources stack state) (hstatus : state.status.lookup nodeId = some .visiting)
    (hid : ∀ node, (f node).id = node.id)
    (hedges : ∀ node, state.nodes.lookup nodeId = some node → ∀ child, HasEdge (f node) child → HasEdge node child ∨ child ∈ keys state.nodes) :
    Good sources stack (state.update nodeId f) := by
  have hkeys := keys_update state nodeId f
  refine ⟨⟨hkeys ▸ h.sane.nodup, fun id hid => hkeys ▸ h.sane.statused id hid, fun id node hnode => ?_⟩,
    fun id hid => h.status id (hkeys ▸ hid), h.visiting, fun id hid => hkeys ▸ h.stacked id hid,
    fun id node hnode child hedge => ?_, fun id node hnode hvisited => ?_⟩
  all_goals rcases lookup_update_eq_some hnode with ⟨rfl, old, hold, rfl⟩ | ⟨-, hnode⟩
  · rw [hid]
    exact h.sane.ids id old hold
  · exact h.sane.ids id node hnode
  · rw [hkeys]
    exact (hedges old hold child hedge).elim (h.closed id old hold child) fun hnew => hnew
  · rw [hkeys]
    exact h.closed id node hnode child hedge
  · cases hstatus.symm.trans hvisited
  · exact h.visited id node hnode hvisited

/-! ## The visit -/

/-- The state with a new node, before it has a status. -/
def withNode (state : GraphState) (node : GraphNode) : GraphState :=
  { state with nodes := state.nodes ++ [(node.id, node)] }

/-- A node without edges. -/
structure GraphNode.Bare (node : GraphNode) : Prop where
  dependencies : node.dependencies = []
  dependents : node.dependents = []
  dependencyEdges : node.dependencyEdges = []
  cycleBackedges : node.cycleBackedges = []

/-- A further fact that every change of a visit preserves. -/
structure Kept (tolerance : Tolerance) (I : GraphState → Prop) : Prop where
  static : ∀ {state}, I state → ∀ nodeId,
    I (state.update nodeId fun node => { node with isStatic := true })
  enter : ∀ {state node}, I state → node.id ∉ keys state.nodes → node.Bare →
    I (withNode state node)
  start : ∀ {state nodeId}, I state → state.status.lookup nodeId = none → I (state.mark nodeId .visiting)
  finish : ∀ {state}, I state → ∀ nodeId, I (state.mark nodeId .visited)
  dependency : ∀ {state nodeId childId}, I state → state.status.lookup nodeId = some .visiting →
    state.status.lookup childId = some .visited → nodeId ∈ keys state.nodes →
    childId ∈ keys state.nodes → ∀ noWait, I (addDependency state nodeId childId noWait)
  backedge : ∀ {state}, I state → ∀ nodeId childId noWait warning,
    I (addBackedge state nodeId childId noWait warning)
  tolerated : ∀ {before after}, I before → I after → Sane before → Sane after →
    Extends none before after → tolerance.every = true ∨ tolerance.noWait = true → ∀ reports,
    I { dropUnknown after (keys before.nodes) with reports := reports }

/-- What a visit guarantees. -/
def VisitSpec (sources : Sources) (I : GraphState → Prop) (visit : VisitArgs → GraphState → Visited Str) :
    Prop :=
  ∀ args state, Good sources args.stack state → I state →
    match visit args state with
    | (.ok child, after) =>
      Good sources args.stack after ∧ I after ∧ Extends none state after ∧
        after.status.lookup child = some .visited ∧
        ∃ agent, sources.findAgent args.agentRef = .ok agent ∧
          child = createGraphNodeId agent args.aliasName
    | (.error (.cycle child _), after) =>
      after = state ∧ child ∈ args.stack ∧
        ∃ agent, sources.findAgent args.agentRef = .ok agent ∧
          child = createGraphNodeId agent args.aliasName
    | (.error (.failed _), after) => Sane after ∧ I after ∧ Extends none state after
    | (.error .exhausted, _) => True

/-- The node that is being worked on: its record has the edges of the entries that were handled. -/
structure Working (sources : Sources) (node : GraphNode) (done : List Json) (state : GraphState) :
    Prop where
  status : state.status.lookup node.id = some .visiting
  record : ∃ current, state.nodes.lookup node.id = some current ∧ current.agent = node.agent ∧
    current.authMode = node.authMode ∧ current.enableEntries = node.enableEntries ∧
    EdgesFrom sources current done state.reports

/-- What the loop over the entries guarantees. -/
def EntriesSpec (sources : Sources) (I : GraphState → Prop) (node : GraphNode) (stack : List Str)
    (done : List Json) (state : GraphState) : Visited Unit → Prop
  | (.ok (), after) => Good sources stack after ∧ I after ∧ Extends (some node.id) state after ∧
      Working sources node done after
  | (.error (.cycle _ _), _) => False
  | (.error (.failed _), after) => Sane after ∧ I after ∧ Extends (some node.id) state after
  | (.error .exhausted, _) => True

/-- The loop may start in a later state. -/
theorem EntriesSpec.of_extends {I : GraphState → Prop} {result : Visited Unit}
    (h : EntriesSpec sources I node stack done after result)
    (hextends : Extends (some node.id) before after) :
    EntriesSpec sources I node stack done before result := by
  rcases result with ⟨failure | _, _⟩
  · cases failure with
    | cycle => exact h
    | failed => exact ⟨h.1, h.2.1, hextends.trans h.2.2⟩
    | exhausted => exact h
  · exact ⟨h.1, h.2.1, hextends.trans h.2.2.1, h.2.2.2⟩

theorem Declares.unique
    (hdeclared : declaredDependency sources node entry = .ok (some (directive, agentRef)))
    (hagent : sources.findAgent agentRef = .ok agent) : Declares sources node entry child noWait ↔
      child = createGraphNodeId agent directive.aliasName ∧ noWait = directive.noWait := by
  constructor
  · rintro ⟨directive', agentRef', agent', hdeclared', hagent', rfl, rfl⟩
    rw [hdeclared] at hdeclared'
    cases hdeclared'
    rw [hagent] at hagent'
    cases hagent'
    exact ⟨rfl, rfl⟩
  · rintro ⟨rfl, rfl⟩
    exact ⟨directive, agentRef, agent, hdeclared, hagent, rfl, rfl⟩

/-- The wait kind of an entry that declares something. -/
theorem entryNoWait_eq (h : declaredDependency sources node entry = .ok (some (directive, agentRef))) :
    entryNoWait sources entry = directive.noWait := by
  obtain ⟨parsed, hparsed, h⟩ := bind_eq_ok.mp h
  unfold entryNoWait
  rw [hparsed]
  cases parsed with
  | none => cases h
  | some found =>
    dsimp only at h
    split_ifs at h
    · cases h
      rfl
    · cases h

/-- The work goes on after a change elsewhere. -/
theorem Working.of_extends (h : Working sources node done state) (hextends : Extends none state after) :
    Working sources node done after := by
  obtain ⟨current, hcurrent, hagent, hauth, hentries, hedges⟩ := h.record
  obtain ⟨next, hnext, hcore⟩ := hextends.nodes node.id current hcurrent (by simp)
  refine ⟨?_, next, hnext, ?_, ?_, (enableEntries_congr hcore).symm.trans hentries,
    hedges.congr hcore hextends.reports⟩
  · rw [hextends.status node.id (mem_keys_of_lookup hcurrent)]
    exact h.status
  · show next.core.agent = node.agent
    rw [← hcore]
    exact hagent
  · show next.core.authMode = node.authMode
    rw [← hcore]
    exact hauth

/-- An entry that declares nothing, or was reported, is passed over. -/
theorem Working.skip (h : Working sources node done state)
    (hentry : ∀ child noWait, Declares sources node entry child noWait →
      ∃ message, ⟨entry, node.agentRef, message⟩ ∈ state.reports) :
    Working sources node (done ++ [entry]) state := by
  obtain ⟨current, hcurrent, hagent, hauth, hentries, hedges⟩ := h.record
  refine ⟨h.status, current, hcurrent, hagent, hauth, hentries, hedges.skip fun child noWait hdeclares => ?_⟩
  rw [GraphNode.agentRef, hagent]
  exact hentry child noWait ((declares_congr hagent hauth _ _ _).mp hdeclares)

/-- A change of the node that is being worked on, and of nothing else. -/
theorem extends_update (state : GraphState) (nodeId : Str) (f : GraphNode → GraphNode) :
    Extends (some nodeId) state (state.update nodeId f) := by
  refine ⟨fun id other hother hne => ⟨other, ?_, rfl⟩, fun id hid => ?_, fun _ _ => rfl,
    List.Subset.refl _⟩
  · rw [lookup_update, if_neg fun heq => hne (congrArg some heq)]
    exact hother
  · rw [keys_update]
    exact hid

/-- A change that keeps the edges of every node. -/
theorem agrees_update (state : GraphState) (nodeId : Str) (hf : ∀ node, (f node).core = node.core)
    (hnodup : (keys state.nodes).Nodup) :
    Agrees state (state.update nodeId f) := by
  exact ⟨map_lookup_update nodeId hf, keys_update state nodeId f ▸ hnodup, fun _ => rfl,
    List.Subset.refl _⟩

section Loop

variable {tolerance : Tolerance} {I : GraphState → Prop} {visit : VisitArgs → GraphState → Visited Str}
  {workspaceProfile : Str}

theorem mem_keys_declareEdge_iff : child ∈ keys (declareEdge edges childId noWait) ↔
      child ∈ keys edges ∨ child = childId := by
  rw [← not_iff_not, ← lookup_eq_none_iff, lookup_declareEdge, not_or,
    ← lookup_eq_none_iff]
  split_ifs with hsame
  · simp [hsame]
  · simp [hsame]

section Gains

variable (h : Working sources node done state) (hgood : Good sources stack state)
  (hchild : childId ∈ keys state.nodes)
  (hdeclares : ∀ child wait, Declares sources node entry child wait ↔ child = childId ∧ wait = noWait)

include h hgood hchild hdeclares

/-- The node that is being worked on gains an edge, and nothing else of it changes. -/
theorem Working.update
    (hsame : ∀ other, (f other).id = other.id ∧ (f other).agent = other.agent ∧ (f other).authMode = other.authMode ∧ (f other).enableEntries = other.enableEntries)
    (hgains : ∀ other child, HasEdge (f other) child → HasEdge other child ∨ child = childId)
    (hedges : ∀ current, EdgesFrom sources current done state.reports → Declares sources current entry childId noWait → (∀ child wait, Declares sources current entry child wait → child = childId ∧ wait = noWait) → EdgesFrom sources (f current) (done ++ [entry]) state.reports)
    (hagrees : Agrees (state.update node.id f) after) (hI : I after) :
    EntriesSpec sources I node stack (done ++ [entry]) state (.ok (), after) := by
  obtain ⟨current, hcurrent, hagent, hauth, hentries, hfrom⟩ := h.record
  have hdeclares' : ∀ child wait, Declares sources current entry child wait ↔
      child = childId ∧ wait = noWait := fun child wait => by
    rw [declares_congr hagent hauth, hdeclares]
  have hgoodNew : Good sources stack (state.update node.id f) := by
    refine hgood.update h.status (fun other => (hsame other).1) fun other _ child hedge => ?_
    rcases hgains other child hedge with hold | rfl
    · exact Or.inl hold
    · exact Or.inr hchild
  have hworking : Working sources node (done ++ [entry]) (state.update node.id f) := by
    refine ⟨h.status, f current, ?_, ?_, ?_, ?_, ?_⟩
    · rw [lookup_update, if_pos rfl, hcurrent]
      rfl
    · rw [(hsame current).2.1, hagent]
    · rw [(hsame current).2.2.1, hauth]
    · rw [(hsame current).2.2.2, hentries]
    · exact hedges current hfrom ((hdeclares' childId noWait).mpr ⟨rfl, rfl⟩)
        fun child wait hdeclared => (hdeclares' child wait).mp hdeclared
  exact ⟨hagrees.good hgoodNew, hI, (extends_update state node.id f).trans (hagrees.extends _),
    hworking.of_extends (hagrees.extends none)⟩

/-- A dependency that was declared and visited. -/
theorem Working.addDependency (hI : I (addDependency state node.id childId noWait)) :
    EntriesSpec sources I node stack (done ++ [entry]) state
      (.ok (), addDependency state node.id childId noWait) := by
  refine h.update hgood hchild hdeclares (f := GraphNode.withDependency childId noWait)
    (fun _ => ⟨rfl, rfl, rfl, rfl⟩) (fun other child hedge => ?_) (fun _ hfrom => hfrom.withDependency)
    (agrees_update _ childId (fun _ => rfl) (keys_update state _ _ ▸ hgood.sane.nodup)) hI
  rcases hedge with hmem | hmem
  · exact (mem_addTo.mp hmem).imp_left Or.inl
  · exact Or.inl (Or.inr hmem)

/-- A dependency that closes a cycle. -/
theorem Working.addBackedge {warning : Str}
    (hI : I (addBackedge state node.id childId noWait warning)) :
    EntriesSpec sources I node stack (done ++ [entry]) state
      (.ok (), addBackedge state node.id childId noWait warning) := by
  refine h.update hgood hchild hdeclares (f := GraphNode.withBackedge childId noWait)
    (fun _ => ⟨rfl, rfl, rfl, rfl⟩) (fun other child hedge => ?_) (fun _ hfrom => hfrom.withBackedge)
    ⟨fun _ => rfl, keys_update state _ _ ▸ hgood.sane.nodup, fun _ => rfl, List.Subset.refl _⟩ hI
  rcases hedge with hmem | hmem
  · exact Or.inl (Or.inl hmem)
  · exact (mem_keys_declareEdge_iff.mp hmem).imp_left Or.inr

end Gains

/-- A failure that is no cycle is reported and leaves nothing, or is passed on. -/
theorem Working.handleFailed {message : Str} (hkept : Kept tolerance I) (h : Working sources node done state)
    (hgood : Good sources stack state) (hI : I state) (hsane : Sane after) (hafter : I after)
    (hextends : Extends none state after) : EntriesSpec sources I node stack (done ++ [entry]) state
      (handleFailure sources tolerance node entry (keys state.nodes) (.failed message) after) := by
  unfold handleFailure
  split_ifs with htolerated
  · have hdropped := agrees_dropUnknown hsane hgood.sane hextends
    have hagrees : Agrees state { dropUnknown after (keys state.nodes) with
        reports := after.reports ++ [⟨entry, node.agentRef, message⟩] } :=
      { hdropped with reports := fun _ hmem => List.mem_append_left _ (hdropped.reports hmem) }
    refine ⟨hagrees.good hgood, hkept.tolerated hI hafter hgood.sane hsane hextends ?_ _,
      hagrees.extends _, (h.of_extends (hagrees.extends none)).skip ?_⟩
    · simp only [Bool.or_eq_true, Bool.and_eq_true] at htolerated
      exact htolerated.imp_right And.left
    · intro child noWait _
      exact ⟨message, List.mem_append_right _ (List.mem_singleton.mpr rfl)⟩
  · exact ⟨hsane, hafter, hextends.weaken⟩

/-- One turn of the loop over the entries. -/
theorem visitEntry_spec (hkept : Kept tolerance I) (hvisit : VisitSpec sources I visit) (entry : Json)
    (h : Working sources node done state) (hgood : Good sources stack state) (hI : I state) :
    EntriesSpec sources I node stack (done ++ [entry]) state
      (visitEntry sources tolerance workspaceProfile visit node stack entry state) := by
  unfold visitEntry
  cases hdeclared : declaredDependency sources node entry with
  | error message => exact h.handleFailed hkept hgood hI hgood.sane hI (Extends.refl _ _)
  | ok found =>
    cases found with
    | none =>
      refine ⟨hgood, hI, Extends.refl _ _, h.skip fun child noWait hdeclares => ?_⟩
      obtain ⟨_, _, _, hsome, _⟩ := hdeclares
      rw [hdeclared] at hsome
      cases hsome
    | some pair =>
      obtain ⟨directive, agentRef⟩ := pair
      have hspec := hvisit (dependencyArgs sources workspaceProfile node stack directive agentRef) state
        hgood hI
      dsimp only
      generalize visit (dependencyArgs sources workspaceProfile node stack directive agentRef) state =
        result at hspec ⊢
      obtain ⟨outcome, after⟩ := result
      cases outcome with
      | ok child =>
        obtain ⟨hgoodAfter, hafter, hextends, hover, agent, hagent, rfl⟩ := hspec
        have hgoing := h.of_extends hextends
        have hchild := hgoodAfter.sane.statused _ (mem_keys_of_lookup hover)
        obtain ⟨current, hcurrent, _⟩ := hgoing.record
        exact (hgoing.addDependency hgoodAfter hchild (fun _ _ => Declares.unique hdeclared hagent)
          (hkept.dependency hafter hgoing.status hover (mem_keys_of_lookup hcurrent) hchild
            _)).of_extends hextends.weaken
      | error failure =>
        cases failure with
        | cycle child message =>
          obtain ⟨rfl, hstack, agent, hagent, rfl⟩ := hspec
          have hdone := h.addBackedge hgood (hgood.stacked _ hstack)
            (fun _ _ => Declares.unique hdeclared hagent)
            (hkept.backedge hI _ _ _ (unresolvedMessage node entry message))
          rw [← entryNoWait_eq hdeclared] at hdone
          exact hdone
        | failed message => exact h.handleFailed hkept hgood hI hspec.1 hspec.2.1 hspec.2.2
        | exhausted => exact trivial

/-- The loop over the entries. -/
theorem visitEntries_spec (hkept : Kept tolerance I) (hvisit : VisitSpec sources I visit)
    (entries : List Json) (h : Working sources node done state) (hgood : Good sources stack state)
    (hI : I state) : EntriesSpec sources I node stack (done ++ entries) state
      (visitEntries sources tolerance workspaceProfile visit node stack entries state) := by
  induction entries generalizing done state with
  | nil =>
    rw [List.append_nil]
    exact ⟨hgood, hI, Extends.refl _ _, h⟩
  | cons entry rest ih =>
    have hstep := @visitEntry_spec _ _ _ _ _ _ _ _ workspaceProfile hkept hvisit entry h hgood hI
    rw [visitEntries]
    generalize visitEntry sources tolerance workspaceProfile visit node stack entry state = result
      at hstep ⊢
    obtain ⟨outcome, after⟩ := result
    cases outcome with
    | ok _ =>
      obtain ⟨hgoodAfter, hafter, hextends, hworking⟩ := hstep
      have hrest := ih hworking hgoodAfter hafter
      rw [List.append_assoc] at hrest
      exact hrest.of_extends hextends
    | error failure => cases failure <;> exact hstep

end Loop

/-- A new node has no edges. -/
theorem createNode_eq_ok {args : VisitArgs} (h : createNode sources agent args = .ok node) :
    node.id = createGraphNodeId agent args.aliasName ∧ node.Bare := by
  simp only [createNode, bind_eq_ok] at h
  obtain ⟨_, _, _, _, _, _, _, _, _, _, h⟩ := h
  cases h
  exact ⟨rfl, rfl, rfl, rfl, rfl⟩

theorem lookup_withNode (hnew : node.id ∉ keys state.nodes) (id : Str) :
    (withNode state node).nodes.lookup id = if id = node.id then some node else state.nodes.lookup id := by
  show (state.nodes ++ [(node.id, node)]).lookup id = _
  rw [List.lookup_append]
  by_cases hid : id = node.id
  · have hnone : state.nodes.lookup id = none := lookup_eq_none_iff.mpr (hid ▸ hnew)
    rw [if_pos hid, hnone, hid, List.lookup_cons_self]
    rfl
  · rw [if_neg hid, AssocList.lookup_cons, if_neg hid]
    exact or_none

theorem keys_withNode (state : GraphState) (node : GraphNode) :
    keys (withNode state node).nodes = keys state.nodes ++ [node.id] := by
  show (state.nodes ++ [(node.id, node)]).map Prod.fst = _
  rw [List.map_append]
  rfl

theorem Sane.withNode (h : Sane state) (hnew : node.id ∉ keys state.nodes) :
    Sane (withNode state node) ∧ Extends none state (withNode state node) := by
  refine ⟨⟨?_, fun id hid => ?_, fun id other hother => ?_⟩,
    ⟨fun id other hother _ => ⟨other, ?_, rfl⟩, fun id hid => ?_, fun _ _ => rfl, List.Subset.refl _⟩⟩
  · rw [keys_withNode]
    exact h.nodup.append (List.nodup_singleton _) (List.disjoint_singleton.mpr hnew)
  · rw [keys_withNode]
    exact List.mem_append_left _ (h.statused id hid)
  · rw [lookup_withNode hnew] at hother
    split_ifs at hother with hid
    · cases hother
      exact hid.symm
    · exact h.ids id other hother
  · rwa [lookup_withNode hnew, if_neg (by rintro rfl; exact hnew (mem_keys_of_lookup hother))]
  · rw [keys_withNode]
    exact List.mem_append_left _ hid

/-- The work on a new node starts. -/
theorem Good.start (h : Good sources stack state) (hnew : node.id ∉ keys state.nodes) (hbare : node.Bare) :
    let started := (withNode state node).mark node.id .visiting
    Good sources (stack ++ [node.id]) started ∧ Extends none state started ∧
      Working sources node [] started := by
  obtain ⟨hsane, hextends⟩ := h.sane.withNode hnew
  have hkeys : ∀ {id}, id ∈ keys (withNode state node).nodes ↔
      id ∈ keys state.nodes ∨ id = node.id := by
    simp [keys_withNode]
  have hlookup := lookup_withNode hnew
  have hstatus := lookup_mark (withNode state node) node.id .visiting
  refine ⟨⟨⟨hsane.nodup, fun id hid => ?_, hsane.ids⟩, fun id hid => ?_, fun id hid => ?_,
    fun id hid => ?_, fun id other hother child hedge => ?_, fun id other hother hvisited => ?_⟩,
    { hextends with status := fun id hid => ?_ }, ?_, node,
    (hlookup _).trans (if_pos rfl), rfl, rfl, rfl, ?_⟩
  · exact hkeys.mpr ((mem_keys_mark.mp hid).symm.imp_left (h.sane.statused id))
  · exact mem_keys_mark.mpr ((hkeys.mp hid).symm.imp_right (h.status id))
  · rw [hstatus] at hid
    split_ifs at hid with hsame
    · exact List.mem_append_right _ (List.mem_singleton.mpr hsame)
    · exact List.mem_append_left _ (h.visiting id hid)
  · exact hkeys.mpr ((List.mem_append.mp hid).imp (h.stacked id) List.mem_singleton.mp)
  · replace hother := (hlookup id).symm.trans hother
    split_ifs at hother
    · cases hother
      simp [HasEdge, hbare.dependencies, hbare.cycleBackedges] at hedge
    · exact hkeys.mpr (.inl (h.closed id other hother child hedge))
  · replace hother := (hlookup id).symm.trans hother
    rw [hstatus] at hvisited
    split_ifs at hother hvisited
    · cases hvisited
    · exact h.visited id other hother hvisited
  · rw [hstatus, if_neg]
    · rfl
    · rintro rfl
      exact hnew hid
  · rw [hstatus, if_pos rfl]
  · constructor <;> simp [Declared, hbare.dependencies, hbare.dependencyEdges, hbare.cycleBackedges]

/-- The work on a node ends. -/
theorem Good.finish (h : Good sources (stack ++ [node.id]) after)
    (hworking : Working sources node node.enableEntries after) :
    Good sources stack (after.mark node.id .visited) := by
  obtain ⟨current, hcurrent, _, _, hentries, hedges⟩ := hworking.record
  refine ⟨⟨h.sane.nodup, fun id hid => ?_, h.sane.ids⟩, fun id hid => mem_keys_mark.mpr (.inr (h.status id hid)),
    fun id hid => ?_, fun id hid => h.stacked id (List.mem_append_left _ hid), h.closed,
    fun id other hother hvisited => ?_⟩
  · rcases mem_keys_mark.mp hid with rfl | hid
    · exact mem_keys_of_lookup hcurrent
    · exact h.sane.statused id hid
  · rw [lookup_mark] at hid
    split_ifs at hid with hsame
    · cases hid
    · exact (List.mem_append.mp (h.visiting id hid)).resolve_right (hsame ∘ List.mem_singleton.mp)
  · rw [lookup_mark] at hvisited
    split_ifs at hvisited with hsame
    · cases hcurrent.symm.trans (hsame ▸ hother)
      rw [hentries]
      exact hedges
    · exact h.visited id other hother hvisited

section Visit

variable {tolerance : Tolerance} {I : GraphState → Prop} {visit : VisitArgs → GraphState → Visited Str}
  {workspaceProfile : Str}

/-- Visiting a node that was just added. -/
theorem visitNode_new (hkept : Kept tolerance I) (hvisit : VisitSpec sources I visit)
    (h : Good sources stack state) (hI : I (withNode state node))
    (hnew : node.id ∉ keys state.nodes) (hbare : node.Bare) :
    match visitNode sources tolerance workspaceProfile visit node stack (withNode state node) with
    | (.ok child, after) => Good sources stack after ∧ I after ∧ Extends none state after ∧
        after.status.lookup child = some .visited ∧ child = node.id
    | (.error (.cycle _ _), _) => False
    | (.error (.failed _), after) => Sane after ∧ I after ∧ Extends none state after
    | (.error .exhausted, _) => True := by
  have hnone : (withNode state node).status.lookup node.id = none :=
    lookup_eq_none_iff.mpr fun hmem => hnew (h.sane.statused _ hmem)
  obtain ⟨hgood, hextends, hworking⟩ := h.start hnew hbare
  have hloop := @visitEntries_spec _ _ _ _ _ _ _ _ workspaceProfile hkept hvisit node.enableEntries
    hworking hgood (hkept.start hI hnone)
  -- the new node is none of those that were there before
  have hrest : ∀ after, Extends (some node.id) ((withNode state node).mark node.id .visiting) after →
      Extends none state after := by
    intro after hafter
    refine ⟨fun id other hother _ => ?_, fun id hid => hafter.keys id (hextends.keys id hid),
      fun id hid => ?_, fun _ hmem => hafter.reports (hextends.reports hmem)⟩
    · obtain ⟨other', hother', hcore⟩ := hextends.nodes id other hother (by simp)
      have hne : some id ≠ some node.id := fun heq =>
        hnew (some.inj heq ▸ mem_keys_of_lookup hother)
      obtain ⟨last, hlast, hcore'⟩ := hafter.nodes id other' hother' hne
      exact ⟨last, hlast, hcore.trans hcore'⟩
    · rw [hafter.status id (hextends.keys id hid), hextends.status id hid]
  unfold visitNode
  rw [hnone]
  generalize visitEntries sources tolerance workspaceProfile visit node (stack ++ [node.id])
    node.enableEntries ((withNode state node).mark node.id .visiting) = result at hloop ⊢
  obtain ⟨outcome, after⟩ := result
  cases outcome with
  | ok _ =>
    obtain ⟨hgoodAfter, hafter, hextendsAfter, hworkingAfter⟩ := hloop
    have hall := hrest after hextendsAfter
    refine ⟨hgoodAfter.finish hworkingAfter, hkept.finish hafter node.id,
      { hall with status := fun id hid => ?_ }, ?_, rfl⟩
    · rw [lookup_mark, if_neg, hall.status id hid]
      rintro rfl
      exact hnew hid
    · rw [lookup_mark, if_pos rfl]
  | error failure =>
    cases failure with
    | cycle => exact hloop.elim
    | failed => exact ⟨hloop.1, hloop.2.1, hrest after hloop.2.2⟩
    | exhausted => exact trivial

/-- A node that was there and is not being visited was visited. -/
theorem Good.visited_of_known (h : Good sources stack state) (hknown : id ∈ keys state.nodes)
    (hstack : id ∉ stack) : state.status.lookup id = some .visited := by
  obtain ⟨status, hstatus⟩ := exists_lookup (h.status id hknown)
  cases status with
  | visiting => exact absurd (h.visiting id hstatus) hstack
  | visited => exact hstatus

/-- What is found on entering a node. -/
inductive Entered (I : GraphState → Prop) (agent : Agent) (args : VisitArgs) (state : GraphState) :
    Visited GraphNode → Prop
  | known {node : GraphNode} {after : GraphState} (hagrees : Agrees state after) (hI : I after)
      (hid : node.id = createGraphNodeId agent args.aliasName)
      (hmem : node.id ∈ keys state.nodes) : Entered I agent args state (.ok node, after)
  | new {node : GraphNode} (hI : I (withNode state node))
      (hid : node.id = createGraphNodeId agent args.aliasName)
      (hnew : node.id ∉ keys state.nodes) (hbare : node.Bare) :
      Entered I agent args state (.ok node, withNode state node)
  | failed (message : Str) : Entered I agent args state (.error (.failed message), state)

theorem enterNode_entered (hkept : Kept tolerance I) (h : Sane state) (hI : I state) (agent : Agent)
    (args : VisitArgs) : Entered I agent args state (enterNode sources agent args state) := by
  unfold enterNode
  dsimp only
  cases hlookup : state.nodes.lookup (createGraphNodeId agent args.aliasName) with
  | some node =>
    have hid := h.ids _ node hlookup
    have hmem : node.id ∈ keys state.nodes := hid ▸ mem_keys_of_lookup hlookup
    split_ifs
    · exact .known (agrees_update state _ (fun _ => rfl) h.nodup) (hkept.static hI _) hid hmem
    · exact .known ⟨fun _ => rfl, h.nodup, fun _ => rfl, List.Subset.refl _⟩ hI hid hmem
  | none =>
    cases hcreated : createNode sources agent args with
    | error message => exact .failed message
    | ok node =>
      obtain ⟨hid, hbare⟩ := createNode_eq_ok hcreated
      have hnew : node.id ∉ keys state.nodes := hid ▸ lookup_eq_none_iff.mp hlookup
      rw [← hid]
      exact .new (hkept.enter hI hnew hbare) hid hnew hbare

/-- Every visit keeps the invariant, and what its changes preserve. -/
theorem visit_spec (hkept : Kept tolerance I) (fuel : Nat) :
    VisitSpec sources I (Workspace.visit sources tolerance workspaceProfile fuel) := by
  induction fuel with
  | zero =>
    intro args state _ _
    exact trivial
  | succ fuel ih =>
    intro args state hgood hI
    rw [Workspace.visit]
    cases hagent : sources.findAgent args.agentRef with
    | error message => exact ⟨hgood.sane, hI, Extends.refl _ _⟩
    | ok agent =>
      dsimp only
      by_cases hstack : createGraphNodeId agent args.aliasName ∈ args.stack
      · rw [if_pos hstack]
        exact ⟨rfl, hstack, agent, rfl, rfl⟩
      · rw [if_neg hstack]
        have hentered := @enterNode_entered sources _ _ _ hkept hgood.sane hI agent args
        generalize enterNode sources agent args state = result at hentered ⊢
        cases hentered with
        | failed message => exact ⟨hgood.sane, hI, Extends.refl _ _⟩
        | @known node after hagrees hafter hid hmem =>
          dsimp only
          have hgoodAfter := hagrees.good hgood
          cases checkProfile node args with
          | error message => exact ⟨hgoodAfter.sane, hafter, hagrees.extends none⟩
          | ok _ =>
            have hover := hgoodAfter.visited_of_known ((hagrees.mem_keys node.id).mpr hmem) (hid ▸ hstack)
            unfold visitNode
            rw [hover]
            exact ⟨hgoodAfter, hafter, hagrees.extends none, hover, agent, rfl, hid⟩
        | @new node hentered hid hnew hbare =>
          dsimp only
          cases checkProfile node args with
          | error message =>
            obtain ⟨hsane, hextends⟩ := hgood.sane.withNode hnew
            exact ⟨hsane, hentered, hextends⟩
          | ok _ =>
            have hnode := @visitNode_new _ _ _ _ _ _ _ workspaceProfile hkept ih hgood hentered hnew hbare
            generalize visitNode sources tolerance workspaceProfile
              (Workspace.visit sources tolerance workspaceProfile fuel) node args.stack
              (withNode state node) = result at hnode ⊢
            obtain ⟨outcome, after⟩ := result
            cases outcome with
            | ok child =>
              obtain ⟨hgoodAfter, hafter, hextends, hover, rfl⟩ := hnode
              exact ⟨hgoodAfter, hafter, hextends, hover, agent, rfl, hid⟩
            | error failure =>
              cases failure with
              | cycle => exact hnode.elim
              | failed => exact hnode
              | exhausted => exact trivial

end Visit

/-! ## The resolved graph -/

/-- The nodes of a graph have the edges that their manifests declare, to nodes of the graph. -/
structure GraphEdges (sources : Sources) (graph : Graph) : Prop where
  nodup : (keys graph.nodes).Nodup
  ids : ∀ id node, graph.nodes.lookup id = some node → node.id = id
  closed : ∀ id node, graph.nodes.lookup id = some node → ∀ child, HasEdge node child →
    child ∈ keys graph.nodes
  edges : ∀ id node, graph.nodes.lookup id = some node →
    EdgesFrom sources node node.enableEntries graph.reports

section Resolved

variable {options : GraphOptions} {fuel : Nat} {graph : Graph} {I : GraphState → Prop}

/-- A resolved graph is what the visit of the static agent leaves. -/
theorem resolveWorkspaceDependencyGraph_spec (hkept : Kept options.tolerance I) (hI : I ⟨[], [], [], []⟩)
    (h : resolveWorkspaceDependencyGraph sources options fuel = .ok graph) :
    ∃ state agent, graph = ⟨createGraphNodeId agent options.rootAlias, state.nodes, state.reports⟩ ∧
      Good sources [] state ∧ I state ∧ graph.staticNodeId ∈ keys graph.nodes := by
  have hstart : Good sources (rootArgs sources options).stack ⟨[], [], [], []⟩ := by
    refine ⟨⟨List.nodup_nil, ?_, ?_⟩, ?_, ?_, ?_, ?_, ?_⟩ <;> simp [rootArgs]
  have hspec := @visit_spec sources _ _ options.workspaceProfile hkept fuel _ _ hstart hI
  unfold resolveWorkspaceDependencyGraph at h
  split_ifs at h
  split at h
  · cases h
  · rename_i child state hresult
    rw [hresult] at hspec
    obtain ⟨hgood, hafter, -, hover, agent, -, rfl⟩ := hspec
    split at h
    · cases h
    · cases h
      exact ⟨state, agent, rfl, hgood, hafter, hgood.sane.statused _ (mem_keys_of_lookup hover)⟩

/-- Nothing more is asked. -/
theorem kept_true (tolerance : Tolerance) : Kept tolerance fun _ => True where
  static _ _ := trivial
  enter _ _ _ := trivial
  start _ _ := trivial
  finish _ _ := trivial
  dependency _ _ _ _ _ _ := trivial
  backedge _ _ _ _ _ := trivial
  tolerated _ _ _ _ _ _ _ := trivial

/-- The edges of a resolved graph. -/
theorem resolveWorkspaceDependencyGraph_edges
    (h : resolveWorkspaceDependencyGraph sources options fuel = .ok graph) : GraphEdges sources graph := by
  obtain ⟨state, agent, rfl, hgood, -, -⟩ := resolveWorkspaceDependencyGraph_spec (kept_true _) trivial h
  refine ⟨hgood.sane.nodup, hgood.sane.ids, hgood.closed, fun id node hnode => ?_⟩
  exact hgood.visited id node hnode
    (hgood.visited_of_known (mem_keys_of_lookup hnode) List.not_mem_nil)

/-- Without tolerance nothing is reported. -/
def Intolerant (tolerance : Tolerance) : Prop := tolerance.every = false ∧ tolerance.noWait = false

theorem kept_reports {tolerance : Tolerance} (h : Intolerant tolerance) :
    Kept tolerance fun state => state.reports = [] where
  static hI _ := hI
  enter hI _ _ := hI
  start hI _ := hI
  finish hI _ := hI
  dependency hI _ _ _ _ _ := hI
  backedge hI _ _ _ _ := hI
  tolerated _ _ _ _ _ htolerant _ := by simp [h.1, h.2] at htolerant

/-- The graph of an intolerant resolution has no reports. -/
theorem resolveWorkspaceDependencyGraph_reports (htolerance : Intolerant options.tolerance)
    (h : resolveWorkspaceDependencyGraph sources options fuel = .ok graph) : graph.reports = [] := by
  obtain ⟨state, agent, rfl, -, hreports, -⟩ :=
    resolveWorkspaceDependencyGraph_spec (kept_reports htolerance) rfl h
  exact hreports

end Resolved

end Ploinky.Workspace
