import Ploinky.Hardware.AvailabilityGraph
import Ploinky.Js.Plain
import Ploinky.Graph.GraphInvariant

/-!
# Availability propagates along blocking edges

What a classification says about the blocking relation: which nodes are blocked, and that the outcome of a
blocked node describes a shortest path to a refused one. The result does not depend on the order of the
nodes or of the edges, and on a resolved dependency graph the relation is the one that the manifests
declare. Read `availability_propagates` first.
-/

namespace Ploinky.Hardware

open Js Edge Workspace Outcome List
open AssocList (keys)

/-! ## The blocking relation -/

/-- The targets of the edges that leave a key, between listed nodes. -/
def successors (nodes : List AvailabilityNode) (edges : List AvailabilityEdge) (key : Str) : List Str :=
  (edges.filter fun edge => edge.fromKey == key && (nodes.map (·.key)).contains edge.fromKey &&
    (nodes.map (·.key)).contains edge.toKey).map (·.toKey)

/-- A listed node of the key has its own refusal. -/
def isRefused (nodes : List AvailabilityNode) (key : Str) : Bool :=
  nodes.any fun node => node.key == key && node.refusal.truthy

variable {platform : Platform} {nodes : List AvailabilityNode} {edges : List AvailabilityEdge}
  {node : AvailabilityNode} {key root : Str} {path : List Str}

theorem mem_successors {target : Str} :
    target ∈ successors nodes edges key ↔ ∃ edge ∈ edges, edge.fromKey = key ∧ edge.toKey = target ∧
      key ∈ nodes.map (·.key) ∧ target ∈ nodes.map (·.key) := by
  simp only [successors, mem_map, mem_filter, Bool.and_eq_true, beq_iff_eq, contains_eq_mem,
    decide_eq_true_eq]
  constructor
  · rintro ⟨edge, ⟨hmem, ⟨rfl, hfrom⟩, hto⟩, rfl⟩
    exact ⟨edge, hmem, rfl, rfl, hfrom, hto⟩
  · rintro ⟨edge, hmem, rfl, rfl, hfrom, hto⟩
    exact ⟨edge, ⟨hmem, ⟨rfl, hfrom⟩, hto⟩, rfl⟩

theorem contains_rootsOf (nodes : List AvailabilityNode) (key : Str) :
    (rootsOf nodes).contains key = isRefused nodes key := by
  rw [Bool.eq_iff_iff]
  simp only [rootsOf, isRefused, contains_eq_mem, mem_map, mem_filter, decide_eq_true_eq,
    any_eq_true, Bool.and_eq_true, beq_iff_eq]
  constructor
  · rintro ⟨node, ⟨hmem, hrefused⟩, rfl⟩
    exact ⟨node, hmem, rfl, hrefused⟩
  · rintro ⟨node, hmem, rfl, hrefused⟩
    exact ⟨node, ⟨hmem, hrefused⟩, rfl⟩

/-- What the loop over the edges gathers. -/
theorem targets_foldl_addEdge (keys : List Str) (edges : List AvailabilityEdge) (adjacency : Adjacency)
    (hnodup : ∀ key, (adjacency.targets key).Nodup) (key : Str) :
    (Adjacency.targets (edges.foldl (addEdge keys) adjacency) key).Nodup ∧
      ∀ target, target ∈ Adjacency.targets (edges.foldl (addEdge keys) adjacency) key ↔
        target ∈ adjacency.targets key ∨
          ∃ edge ∈ edges, edge.fromKey = key ∧ edge.toKey = target ∧ key ∈ keys ∧ target ∈ keys := by
  induction edges generalizing adjacency with
  | nil => exact ⟨hnodup key, by simp⟩
  | cons edge rest ih =>
    have htargets : ∀ other, (addEdge keys adjacency edge).targets other =
        if other = edge.fromKey ∧ edge.fromKey ∈ keys ∧ edge.toKey ∈ keys then
          addTo (adjacency.targets other) edge.toKey else adjacency.targets other := by
      intro other
      unfold addEdge
      split_ifs with hlisted hsame hsame
      · rw [Adjacency.targets, AssocList.lookup_set, if_pos hsame.1, hsame.1]
        rfl
      · rw [Adjacency.targets, AssocList.lookup_set, if_neg fun heq => hsame ⟨heq, hlisted⟩]
        rfl
      · exact absurd hsame.2 hlisted
      · rfl
    have hstep : ∀ other, ((addEdge keys adjacency edge).targets other).Nodup := by
      intro other
      rw [htargets]
      split_ifs
      · exact nodup_addTo (hnodup other) _
      · exact hnodup other
    rw [foldl_cons]
    refine ⟨(ih _ hstep).1, fun target => ?_⟩
    rw [(ih _ hstep).2, htargets, exists_mem_cons_iff]
    split_ifs with hsame
    · rw [mem_addTo, or_assoc]
      refine or_congr_right (or_congr_left ⟨?_, fun h => h.2.1.symm⟩)
      rintro rfl
      exact ⟨hsame.1.symm, rfl, hsame.1 ▸ hsame.2.1, hsame.2.2⟩
    · refine or_congr_right (or_iff_right ?_).symm
      rintro ⟨rfl, rfl, hlisted⟩
      exact hsame ⟨rfl, hlisted⟩

/-- The targets of a key are its successors, in order. -/
theorem targets_adjacencyOf (nodes : List AvailabilityNode) (edges : List AvailabilityEdge) (key : Str) :
    ((adjacencyOf nodes edges).targets key).Nodup ∧
      ((adjacencyOf nodes edges).targets key).Pairwise (fun a b => le a b = true) ∧
      ∀ target, target ∈ (adjacencyOf nodes edges).targets key ↔ target ∈ successors nodes edges key := by
  obtain ⟨hnodup, hmem⟩ := targets_foldl_addEdge (nodes.map (·.key)) edges []
    (fun _ => nodup_nil) key
  have htargets : (adjacencyOf nodes edges).targets key =
      (Adjacency.targets (edges.foldl (addEdge (nodes.map (·.key))) []) key).insertionSort
        fun a b => le a b = true := by
    unfold Adjacency.targets adjacencyOf
    rw [AssocList.lookup_map_values fun targets : List Str => targets.insertionSort fun a b => le a b]
    cases (edges.foldl (addEdge (nodes.map (·.key))) []).lookup key <;> rfl
  rw [htargets]
  refine ⟨(perm_insertionSort _ _).nodup_iff.mpr hnodup, pairwise_insertionSort _ _,
    fun target => ?_⟩
  rw [mem_insertionSort, hmem, mem_successors]
  exact or_iff_right not_mem_nil

/-! ## The searches -/

/-- The bound of the searches is enough. -/
theorem length_unmet_start (hmem : node ∈ nodes) :
    1 + (Search.unmet (nodes.map (·.key)) [node.key]).length < nodes.length + 1 := by
  have hkey : node.key ∈ nodes.map (·.key) := mem_map_of_mem hmem
  have hless := Search.length_unmet_cons hkey not_mem_nil
  have hall : Search.unmet (nodes.map (·.key)) [] = nodes.map (·.key) := by simp [Search.unmet]
  rw [hall, length_map] at hless
  omega

theorem targets_subset (key : Str) : (adjacencyOf nodes edges).targets key ⊆ nodes.map (·.key) := by
  intro target htarget
  obtain ⟨_, _, _, _, _, hlisted⟩ :=
    mem_successors.mp (((targets_adjacencyOf nodes edges key).2.2 target).mp htarget)
  exact hlisted

theorem targets_iff (key target : Str) :
    target ∈ (adjacencyOf nodes edges).targets key ↔ target ∈ successors nodes edges key :=
  (targets_adjacencyOf nodes edges key).2.2 target

/-- The path that is found is a shortest one to a refused node. -/
theorem shortestPathToRoot_eq_some
    (h : shortestPathToRoot node.key (rootsOf nodes) (adjacencyOf nodes edges) nodes.length = some path) :
    ∃ root, Search.Shortest (successors nodes edges) (isRefused nodes) node.key path root := by
  obtain ⟨root, hroot⟩ := Search.shortestTo_eq_some Search.layers_start h
  have hgoal : (rootsOf nodes).contains = isRefused nodes := funext (contains_rootsOf nodes)
  rw [hgoal] at hroot
  exact ⟨root, hroot.congr targets_iff⟩

/-- When no path is found, no refused node is reached. -/
theorem shortestPathToRoot_eq_none (hmem : node ∈ nodes)
    (h : shortestPathToRoot node.key (rootsOf nodes) (adjacencyOf nodes edges) nodes.length = none)
    (hpath : Search.Path (successors nodes edges) node.key path root) (hne : root ≠ node.key) :
    isRefused nodes root = false := by
  rw [← contains_rootsOf]
  refine Search.shortestTo_eq_none (fun key => targets_subset key) Search.layers_start
    (length_unmet_start hmem) h (hpath.congr fun a b => (targets_iff a b).symm) hne

/-- The refused nodes that are found are those reached through no other refused node. -/
theorem reachableRoots_spec (hmem : node ∈ nodes) (hnot : isRefused nodes node.key = false) :
    (reachableRoots node.key (rootsOf nodes) (adjacencyOf nodes edges) nodes.length).length =
      Set.ncard {root | Search.Hit (successors nodes edges) (isRefused nodes) node.key root} := by
  have hgoal : (rootsOf nodes).contains = isRefused nodes := funext (contains_rootsOf nodes)
  unfold reachableRoots
  rw [hgoal]
  obtain ⟨hfound, hiff⟩ := Search.mem_goalsFrom_iff (fun key => targets_subset key) hnot
    (Search.explored_start hnot) (length_unmet_start hmem)
  rw [← toFinset_card_of_nodup hfound, ← Set.ncard_coe_finset]
  congr 1
  ext root
  rw [coe_toFinset, Set.mem_ofPred_eq, hiff]
  exact Search.hit_congr targets_iff root

/-! ## The causal path -/

/-- The path is cut before its last entry. -/
theorem boundFrom_spec (platform : Platform) (last : Str) (fuel : Nat) (front : List Str) (omitted : Nat) :
    ∃ kept omitted', boundFrom platform fuel (front ++ [last]) omitted = (front.take kept ++ [last], omitted') ∧
      kept ≤ front.length ∧ kept + omitted' = front.length + omitted := by
  induction fuel generalizing front omitted with
  | zero => exact ⟨front.length, omitted, by rw [take_length, boundFrom], Nat.le_refl _, rfl⟩
  | succ fuel ih =>
    rw [boundFrom]
    split_ifs with hcut
    · rcases eq_nil_or_concat' front with rfl | ⟨front, cut, rfl⟩
      · simp at hcut
      obtain ⟨kept, omitted', hbound, hkept, hcount⟩ := ih front (omitted + 1)
      refine ⟨kept, omitted', ?_, ?_, ?_⟩
      · rw [take_append_of_le_length hkept, ← hbound]
        congr 1
        simp
      · simp only [length_append, length_singleton]
        omega
      · simp only [length_append, length_singleton]
        omega
    · exact ⟨front.length, omitted, by rw [take_length], Nat.le_refl _, rfl⟩

variable {last start : Str} {seen : List Str} {outcome : Json}

/-- The causal path has the first entries of the path and its last one, and every other entry is
counted. -/
theorem boundPath_spec (platform : Platform) (h : path.getLast? = some last) :
    ∃ kept, (boundPath platform path).1 = path.take kept ++ [last] ∧
      (boundPath platform path).1.length + (boundPath platform path).2 = path.length := by
  obtain ⟨front, rfl⟩ := getLast?_eq_some_iff.mp h
  obtain ⟨kept, omitted, hbound, hkept, hcount⟩ :=
    boundFrom_spec platform last (front ++ [last]).length front 0
  unfold boundPath
  rw [hbound]
  refine ⟨kept, by rw [take_append_of_le_length hkept], ?_⟩
  simp only [length_append, length_take, length_singleton]
  omega

/-! ## What is found for a node -/

theorem checkKeys_eq_ok :
    checkKeys seen nodes = .ok () ↔ (∀ node ∈ nodes, node.key ≠ [] ∧ node.key ∉ seen) ∧
      (nodes.map (·.key)).Nodup := by
  induction nodes generalizing seen with
  | nil => simp [checkKeys]
  | cons node rest ih =>
    rw [checkKeys]
    split_ifs with hempty hseen
    · have hnil : node.key = [] := isEmpty_iff.mp hempty
      simp [hnil]
    · have hmem : node.key ∈ seen := by simpa using hseen
      simp [hmem]
    · grind

/-- The node of a key is the one that is listed. -/
theorem nodeOf_eq_some (hnodup : (nodes.map (·.key)).Nodup) :
    nodeOf nodes key = some node ↔ node ∈ nodes ∧ node.key = key := by
  have hfound : ∀ {other}, nodeOf nodes key = some other → other ∈ nodes ∧ other.key = key := fun h =>
    ⟨mem_of_find?_eq_some h, by simpa using find?_some h⟩
  refine ⟨hfound, ?_⟩
  rintro ⟨hmem, rfl⟩
  obtain ⟨other, hother⟩ : ∃ other, nodeOf nodes node.key = some other := by
    refine Option.isSome_iff_exists.mp (find?_isSome.mpr ⟨node, hmem, ?_⟩)
    exact beq_self_eq_true node.key
  obtain ⟨hlisted, hkey⟩ := hfound hother
  exact inj_on_of_nodup_map hnodup hlisted hmem hkey ▸ hother

theorem isRefused_key (hnodup : (nodes.map (·.key)).Nodup) (hmem : node ∈ nodes) :
    isRefused nodes node.key = node.refusal.truthy := by
  rw [Bool.eq_iff_iff]
  simp only [isRefused, any_eq_true, Bool.and_eq_true, beq_iff_eq]
  constructor
  · rintro ⟨other, hother, hkey, hrefused⟩
    rw [← inj_on_of_nodup_map hnodup hother hmem hkey]
    exact hrefused
  · exact fun hrefused => ⟨node, hmem, rfl, hrefused⟩

/-- What the outcome of a blocked node says. -/
structure Explains (nodes : List AvailabilityNode) (edges : List AvailabilityEdge) (key : Str)
    (outcome : Json) (path : List Str) (root : Str) : Prop where
  shortest : Search.Shortest (successors nodes edges) (isRefused nodes) key path root
  blockedBy : ∃ second, path[1]? = some second ∧ fieldOf (fieldOf outcome "blockedBy") "key" = .str second
  rootCause : fieldOf (fieldOf outcome "rootCause") "key" = .str root
  causalPath : ∃ kept omitted, fieldOf outcome "causalPath" = .arr ((path.take kept ++ [root]).map .str) ∧
    fieldOf outcome "omittedPathCount" = .num (ofNat omitted) ∧
    (path.take kept ++ [root]).length + omitted = path.length
  additional : ∃ count, fieldOf outcome "additionalCauseCount" = .num (ofNat count) ∧
    count + 1 = Set.ncard {cause | Search.Hit (successors nodes edges) (isRefused nodes) key cause}

/-- The fields of a validated blocked outcome. -/
theorem validateHardwareOutcome_blocked {fields : Fields} (hstate : fields.state = .str "blocked")
    (h : validateHardwareOutcome platform fields.toJson = .ok outcome) :
    fieldOf (fieldOf outcome "blockedBy") "key" = fieldOf fields.blockedBy "key" ∧
      fieldOf outcome "rootCause" = fields.rootCause ∧ fieldOf outcome "causalPath" = fields.causalPath ∧
      fieldOf outcome "omittedPathCount" = fields.omittedPathCount ∧
      fieldOf outcome "additionalCauseCount" = fields.additionalCauseCount ∧
      ∀ path, fields.causalPath = .arr path → path.getLast? = some (fieldOf fields.rootCause "key") := by
  simp only [validateHardwareOutcome, bind_eq_ok, Fields.of_toJson] at h
  obtain ⟨_, _, _, _, requested, _, _, _, blockedBy, hblocked, _, htail, _, _, h⟩ := h
  cases h
  have hkey : fieldOf blockedBy "key" = fieldOf fields.blockedBy "key" := by
    unfold validateBlockedBy at hblocked
    rw [hstate, if_neg (by decide)] at hblocked
    simp only [bind_eq_ok] at hblocked
    obtain ⟨_, _, _, _, _, _, _, _, _, _, hblocked⟩ := hblocked
    cases hblocked
    rfl
  refine ⟨hkey, rfl, rfl, rfl, rfl, fun path hpath => ?_⟩
  simp only [validateTail, bind_eq_ok] at htail
  obtain ⟨_, hpathOk, _⟩ := htail
  unfold validatePath at hpathOk
  rw [hpath] at hpathOk
  simp only [bind_eq_ok, demand_eq_ok] at hpathOk
  obtain ⟨_, _, _, _, _, _, _, _, _, _, hlast⟩ := hpathOk
  exact beq_iff_eq.mp hlast

theorem second_of_shortest {next : Str → List Str} {goal : Str → Bool}
    (h : Search.Shortest next goal start path root) : ∃ second, path[1]? = some second := by
  have hlength : 1 < path.length := by
    cases h.isPath with
    | refl => exact absurd rfl h.ne
    | @step front _ _ hfront _ =>
      have hne : front ≠ [] := by
        rintro rfl
        cases hfront.getLast?_eq
      rw [length_append, length_singleton]
      have := length_pos_iff.mpr hne
      omega
  exact ⟨path[1], getElem?_eq_getElem hlength⟩

/-- Every node of a path is listed. -/
theorem mem_keys_of_path (hstart : start ∈ nodes.map (·.key))
    (h : Search.Path (successors nodes edges) start path last) : ∀ key ∈ path, key ∈ nodes.map (·.key) := by
  induction h with
  | refl =>
    intro key hkey
    rw [mem_singleton.mp hkey]
    exact hstart
  | step _ hedge ih =>
    intro key hkey
    rcases mem_append.mp hkey with hkey | hkey
    · exact ih key hkey
    · rw [mem_singleton.mp hkey]
      obtain ⟨_, _, _, _, _, hlisted⟩ := mem_successors.mp hedge
      exact hlisted

/-- A refused node that is hit is among the causes. -/
theorem one_le_ncard (hkey : isRefused nodes key = false)
    (h : Search.Shortest (successors nodes edges) (isRefused nodes) key path root) :
    1 ≤ Set.ncard {cause | Search.Hit (successors nodes edges) (isRefused nodes) key cause} := by
  have hfinite : {cause | Search.Hit (successors nodes edges) (isRefused nodes) key cause}.Finite := by
    refine (nodes.map (·.key)).finite_toSet.subset fun cause hcause => ?_
    obtain ⟨_, _, hedge, _⟩ := hcause
    obtain ⟨_, _, _, _, _, hlisted⟩ := mem_successors.mp hedge
    exact hlisted
  obtain ⟨cause, hcause⟩ := Search.exists_hit h.isPath hkey h.isGoal
  exact (Set.ncard_pos hfinite).mpr ⟨cause, hcause⟩

/-- The outcome of a node with a path to a refused one explains it. -/
theorem blockedOutcome_explains (hnodup : (nodes.map (·.key)).Nodup) (hmem : node ∈ nodes)
    (hnot : node.refusal.truthy = false)
    (hpath : shortestPathToRoot node.key (rootsOf nodes) (adjacencyOf nodes edges) nodes.length = some path)
    (h : blockedOutcome platform nodes (adjacencyOf nodes edges) node path = .ok outcome) :
    ∃ root, Explains nodes edges node.key outcome path root := by
  obtain ⟨root, hshortest⟩ := shortestPathToRoot_eq_some hpath
  obtain ⟨second, hsecond⟩ := second_of_shortest hshortest
  have hlisted := mem_keys_of_path (mem_map_of_mem hmem) hshortest.isPath
  obtain ⟨direct, hdirect, hdirectKey⟩ := mem_map.mp (hlisted second (mem_of_getElem? hsecond))
  have hnodeOf : nodeOf nodes second = some direct := (nodeOf_eq_some hnodup).mpr ⟨hdirect, hdirectKey⟩
  have hkey : isRefused nodes node.key = false := by rw [isRefused_key hnodup hmem, hnot]
  obtain ⟨rootOutcome, _, h⟩ := bind_eq_ok.mp h
  rw [hsecond, Option.bind_some, hnodeOf] at h
  obtain ⟨hblockedBy, hrootCause, hcausal, homitted, hadditional, hlast⟩ :=
    validateHardwareOutcome_blocked rfl h
  obtain ⟨kept, hkept, hcount⟩ := boundPath_spec platform hshortest.isPath.getLast?_eq
  have hrootKey : fieldOf (fieldOf rootOutcome "rootCause") "key" = .str root := by
    have hend := hlast _ rfl
    rw [hkept, map_append, map_singleton, getLast?_concat] at hend
    exact (Option.some.inj hend).symm
  refine ⟨root, hshortest, ⟨second, hsecond, ?_⟩, ?_, ⟨kept, (boundPath platform path).2, ?_, homitted, ?_⟩,
    ⟨_, hadditional, ?_⟩⟩
  · rw [hblockedBy, ← hdirectKey]
    rfl
  · rw [hrootCause]
    exact hrootKey
  · rw [hcausal, ← hkept]
    rfl
  · rw [← hkept]
    exact hcount
  · rw [reachableRoots_spec hmem hkey]
    have := one_le_ncard hkey hshortest
    omega

/-- What a classification finds: the state of each node, and for a blocked one what its outcome says. -/
structure Classifies (nodes : List AvailabilityNode) (edges : List AvailabilityEdge)
    (node : AvailabilityNode) (classified : Classified) : Prop where
  refused : classified.state = .refused ↔ node.refusal.truthy = true
  blocked : classified.state = .blocked ↔ node.refusal.truthy = false ∧ ∃ root,
    isRefused nodes root = true ∧
      Relation.ReflTransGen (fun a b => b ∈ successors nodes edges a) node.key root
  eligible : classified.state = .eligible ↔ classified.state ≠ .refused ∧ classified.state ≠ .blocked
  explained : classified.state = .blocked → ∃ outcome path root, classified.outcome = some outcome ∧
    Explains nodes edges node.key outcome path root

theorem classifyNode_spec {classified : Classified} (hnodup : (nodes.map (·.key)).Nodup) (hmem : node ∈ nodes)
    (h : classifyNode platform nodes (adjacencyOf nodes edges) node = .ok classified) :
    Classifies nodes edges node classified := by
  have heligible : classified.state = .eligible ↔ classified.state ≠ .refused ∧
      classified.state ≠ .blocked := by
    cases classified.state <;> simp
  unfold classifyNode at h
  cases hrefusal : node.refusal.truthy with
  | true =>
    rw [hrefusal] at h
    obtain ⟨outcome, _, h⟩ := bind_eq_ok.mp h
    cases h
    exact ⟨by simp [hrefusal], by simp [hrefusal], heligible, by simp⟩
  | false =>
    rw [hrefusal] at h
    have hkey : isRefused nodes node.key = false := by rw [isRefused_key hnodup hmem, hrefusal]
    cases hpath : shortestPathToRoot node.key (rootsOf nodes) (adjacencyOf nodes edges) nodes.length with
    | none =>
      rw [hpath] at h
      cases h
      refine ⟨by simp [hrefusal], ⟨nofun, ?_⟩, heligible, by simp⟩
      rintro ⟨_, root, hroot, hreach⟩
      obtain ⟨path, hto⟩ := Search.exists_path_iff.mpr hreach
      have hne : root ≠ node.key := by
        rintro rfl
        rw [hkey] at hroot
        cases hroot
      rw [shortestPathToRoot_eq_none hmem hpath hto hne] at hroot
      cases hroot
    | some path =>
      rw [hpath] at h
      obtain ⟨outcome, houtcome, h⟩ := bind_eq_ok.mp h
      cases h
      obtain ⟨root, hexplains⟩ := blockedOutcome_explains hnodup hmem hrefusal hpath houtcome
      refine ⟨by simp [hrefusal], ⟨fun _ => ⟨hrefusal, root, hexplains.shortest.isGoal, ?_⟩,
        fun _ => rfl⟩, heligible, fun _ => ⟨outcome, path, root, rfl, hexplains⟩⟩
      exact Search.exists_path_iff.mp ⟨path, hexplains.shortest.isPath⟩

theorem keys_mapM_classifyKey {items : List AvailabilityNode} {adjacency : Adjacency}
    {result : Table Classified} (h : items.mapM (classifyKey platform nodes adjacency) = .ok result) :
    keys result = items.map (·.key) := by
  replace h := forall₂_of_mapM h
  induction h with
  | nil => rfl
  | cons hfirst _ ih =>
    obtain ⟨classified, _, hpair⟩ := bind_eq_ok.mp hfirst
    cases hpair
    exact congrArg (_ :: ·) ih

/-- The entry of each node in the result. -/
theorem classifyAvailability_eq_ok {result : Table Classified}
    (h : classifyAvailability platform nodes edges = .ok result) :
    (nodes.map (·.key)).Nodup ∧ (∀ node ∈ nodes, node.key ≠ []) ∧
      (∀ node ∈ nodes, ∃ classified, result.lookup node.key = some classified ∧
        classifyNode platform nodes (adjacencyOf nodes edges) node = .ok classified) ∧
      ∀ key ∈ keys result, key ∈ nodes.map (·.key) := by
  obtain ⟨_, hkeys, h⟩ := bind_eq_ok.mp h
  obtain ⟨hempty, hnodup⟩ := checkKeys_eq_ok.mp hkeys
  have hsorted := perm_insertionSort (fun a b : AvailabilityNode => le a.key b.key = true) nodes
  have hresultKeys := keys_mapM_classifyKey h
  have hresult : (keys result).Nodup := by
    rw [hresultKeys]
    exact (hsorted.map _).nodup_iff.mpr hnodup
  refine ⟨hnodup, fun node hnode => (hempty node hnode).1, ?_, ?_⟩
  · intro node hnode
    obtain ⟨pair, hpair, hclassified⟩ := (mapM_eq_ok h).1 node (hsorted.mem_iff.mpr hnode)
    obtain ⟨classified, hclass, heq⟩ := bind_eq_ok.mp hclassified
    cases heq
    exact ⟨classified, AssocList.lookup_of_mem hresult hpair, hclass⟩
  · intro key hkey
    rw [hresultKeys] at hkey
    exact (hsorted.map _).mem_iff.mp hkey

/-! ## The order of nodes and edges -/

section Order

variable {nodes' : List AvailabilityNode} {edges' : List AvailabilityEdge}

theorem checkKeys_of_nodup (hnodup : (nodes.map (·.key)).Nodup) (hseen : ∀ node ∈ nodes, node.key ∉ seen) :
    checkKeys seen nodes = if nodes.any fun node => node.key.isEmpty then
      .error "availability node needs an exact key" else .ok () := by
  induction nodes generalizing seen with
  | nil => rfl
  | cons node rest ih =>
    rw [map_cons, nodup_cons] at hnodup
    have hnode : node.key ∉ seen := hseen node (.head _)
    rw [checkKeys, any_cons]
    cases hempty : node.key.isEmpty with
    | true => rfl
    | false =>
      rw [if_neg (by decide), if_neg (by simpa using hnode)]
      refine ih hnodup.2 fun other hother => ?_
      rw [mem_cons, not_or]
      refine ⟨fun heq => hnodup.1 (heq ▸ mem_map_of_mem hother), ?_⟩
      exact hseen other (.tail _ hother)

/-- The targets of a key do not depend on the order of the nodes or edges. -/
theorem targets_perm (hnodes : nodes.Perm nodes') (hedges : edges.Perm edges') :
    (adjacencyOf nodes edges).targets = (adjacencyOf nodes' edges').targets := by
  funext key
  obtain ⟨hnodup, hsorted, hmem⟩ := targets_adjacencyOf nodes edges key
  obtain ⟨hnodup', hsorted', hmem'⟩ := targets_adjacencyOf nodes' edges' key
  have hsame : ∀ target, target ∈ (adjacencyOf nodes edges).targets key ↔
      target ∈ (adjacencyOf nodes' edges').targets key := by
    intro target
    rw [hmem, hmem', mem_successors, mem_successors]
    simp only [hedges.mem_iff, (hnodes.map _).mem_iff]
  exact ((perm_ext_iff_of_nodup hnodup hnodup').mpr hsame).eq_of_pairwise
    (fun a b _ _ hab hba => Std.Antisymm.antisymm a b hab hba) hsorted hsorted'

theorem isRefused_perm (hnodes : nodes.Perm nodes') :
    (rootsOf nodes).contains = (rootsOf nodes').contains := by
  funext key
  rw [contains_rootsOf, contains_rootsOf]
  exact hnodes.any_eq

theorem nodeOf_perm (hnodup : (nodes.map (·.key)).Nodup) (hnodes : nodes.Perm nodes') :
    nodeOf nodes = nodeOf nodes' := by
  have hnodup' : (nodes'.map (·.key)).Nodup := (hnodes.map _).nodup_iff.mp hnodup
  funext key
  refine Option.ext fun node => ?_
  rw [nodeOf_eq_some hnodup, nodeOf_eq_some hnodup', hnodes.mem_iff]

/-- The nodes are classified in one order. -/
theorem insertionSort_perm (hnodup : (nodes.map (·.key)).Nodup) (hnodes : nodes.Perm nodes') :
    nodes.insertionSort (fun a b => le a.key b.key = true) =
      nodes'.insertionSort fun a b => le a.key b.key = true := by
  exact AssocList.insertionSort_eq_of_perm (r := fun a b : Str => le a b = true) hnodup hnodes

/-- What is found for a node does not depend on the order of the nodes or edges. -/
theorem classifyNode_perm (platform : Platform) (hnodup : (nodes.map (·.key)).Nodup)
    (hnodes : nodes.Perm nodes') (hedges : edges.Perm edges') (node : AvailabilityNode) :
    classifyNode platform nodes (adjacencyOf nodes edges) node =
      classifyNode platform nodes' (adjacencyOf nodes' edges') node := by
  have hblocked : ∀ path, blockedOutcome platform nodes (adjacencyOf nodes edges) node path =
      blockedOutcome platform nodes' (adjacencyOf nodes' edges') node path := by
    intro path
    unfold blockedOutcome reachableRoots
    rw [targets_perm hnodes hedges, isRefused_perm hnodes, nodeOf_perm hnodup hnodes, hnodes.length_eq]
  have hpath : shortestPathToRoot node.key (rootsOf nodes) (adjacencyOf nodes edges) nodes.length =
      shortestPathToRoot node.key (rootsOf nodes') (adjacencyOf nodes' edges') nodes'.length := by
    unfold shortestPathToRoot
    rw [targets_perm hnodes hedges, isRefused_perm hnodes, hnodes.length_eq]
  unfold classifyNode
  simp only [hpath, hblocked]

theorem classifyAvailability_perm (platform : Platform) (hnodup : (nodes.map (·.key)).Nodup)
    (hnodes : nodes.Perm nodes') (hedges : edges.Perm edges') :
    classifyAvailability platform nodes edges = classifyAvailability platform nodes' edges' := by
  have hnodup' : (nodes'.map (·.key)).Nodup := (hnodes.map _).nodup_iff.mp hnodup
  have hkeys : checkKeys [] nodes = checkKeys [] nodes' := by
    rw [checkKeys_of_nodup hnodup fun _ _ => not_mem_nil,
      checkKeys_of_nodup hnodup' fun _ _ => not_mem_nil, hnodes.any_eq]
  have hclassify : classifyKey platform nodes (adjacencyOf nodes edges) =
      classifyKey platform nodes' (adjacencyOf nodes' edges') := by
    funext node
    unfold classifyKey
    rw [classifyNode_perm platform hnodup hnodes hedges]
  unfold classifyAvailability
  rw [hkeys, hclassify, insertionSort_perm hnodup hnodes]

end Order

/-! ## The dependency graph -/

/-- The graph has a blocking edge between two node ids. -/
def Blocks (graph : Graph) (id child : Str) : Prop :=
  ∃ node, graph.nodes.lookup id = some node ∧ Blocking node child

/-- The manifest of a node of the graph declares a dependency that is not `no-wait`. -/
def DeclaresBlocking (sources : Workspace.Sources) (graph : Graph) (id child : Str) : Prop :=
  ∃ node entry, graph.nodes.lookup id = some node ∧ entry ∈ node.enableEntries ∧
    Declares sources node entry child false

/-- The dependency of a node was reported as unresolved. -/
def Unresolved (sources : Workspace.Sources) (graph : Graph) (id child : Str) : Prop :=
  ∃ node entry message, graph.nodes.lookup id = some node ∧ entry ∈ node.enableEntries ∧
    Declares sources node entry child false ∧ ⟨entry, node.agentRef, message⟩ ∈ graph.reports

section Graphs

variable {sources : Workspace.Sources} {graph : Graph} {keyOf : Str → Str}

/-- The blocking edges of a graph are declared, and every declared one is there or was reported. -/
theorem blocks_declared (h : GraphEdges sources graph) (id child : Str) :
    (Blocks graph id child → DeclaresBlocking sources graph id child) ∧
      (DeclaresBlocking sources graph id child →
        Blocks graph id child ∨ Unresolved sources graph id child) := by
  constructor
  · rintro ⟨node, hnode, ⟨hmem, hne⟩ | hback⟩
    · have hedges := h.edges id node hnode
      obtain ⟨noWait, hlookup⟩ := Option.isSome_iff_exists.mp (hedges.noted child hmem)
      cases noWait with
      | true => exact absurd hlookup hne
      | false =>
        obtain ⟨entry, hentry, hdeclares⟩ := hedges.dependency child false hlookup
        exact ⟨node, entry, hnode, hentry, hdeclares⟩
    · obtain ⟨entry, hentry, hdeclares⟩ := (h.edges id node hnode).backedge child false hback
      exact ⟨node, entry, hnode, hentry, hdeclares⟩
  · rintro ⟨node, entry, hnode, hentry, hdeclares⟩
    rcases (h.edges id node hnode).complete entry hentry child false hdeclares with hrecorded | ⟨message, hmem⟩
    · exact Or.inl ⟨node, hnode, hrecorded.2 rfl⟩
    · exact Or.inr ⟨node, entry, message, hnode, hentry, hdeclares, hmem⟩

theorem mem_blockingChildren (platform : Platform) {node : GraphNode} (hnodup : (keys node.cycleBackedges).Nodup)
    (child : Str) : (∃ back, (child, back) ∈ blockingChildren platform node) ↔ Blocking node child := by
  unfold blockingChildren Blocking
  simp only [mem_append, mem_map, mem_filter, mem_insertionSort, Prod.mk.injEq]
  constructor
  · rintro ⟨back, ⟨other, ⟨hmem, hne⟩, rfl, _⟩ | ⟨⟨other, noWait⟩, ⟨hmem, hnot⟩, rfl, _⟩⟩
    · exact Or.inl ⟨hmem, by simpa using hne⟩
    · have hfalse : noWait = false := by simpa using hnot
      rw [hfalse] at hmem
      exact Or.inr (AssocList.lookup_of_mem hnodup hmem)
  · rintro (⟨hmem, hne⟩ | hback)
    · exact ⟨false, Or.inl ⟨child, ⟨hmem, by simpa using hne⟩, rfl, rfl⟩⟩
    · exact ⟨true, Or.inr ⟨(child, false), ⟨AssocList.mem_of_lookup hback, rfl⟩, rfl, rfl⟩⟩

/-- An edge that was built. -/
theorem availabilityEdge_eq_ok {fromKey toKey : Str} {kind : EdgeKind} {source : DependencySource}
    {cycleBackedge : Bool} {edge : AvailabilityEdge}
    (h : availabilityEdge fromKey toKey kind source cycleBackedge = .ok edge) :
    edge.fromKey = fromKey ∧ edge.toKey = toKey := by
  unfold availabilityEdge at h
  split_ifs at h
  cases h
  exact ⟨rfl, rfl⟩

/-- The edges that a graph projects to. -/
theorem exists_blockingEdge (hgraph : GraphEdges sources graph)
    (h : blockingEdgesFromGraph platform graph keyOf = .ok edges) (key target : Str) :
    (∃ edge ∈ edges, edge.fromKey = key ∧ edge.toKey = target) ↔
      ∃ id child, Blocks graph id child ∧ keyOf id = key ∧ keyOf child = target ∧ key ≠ [] ∧ target ≠ [] := by
  obtain ⟨lists, hlists, h⟩ := bind_eq_ok.mp h
  obtain ⟨waits, hwaits, h⟩ := bind_eq_ok.mp h
  cases hwaits
  have hedges : edges = lists.flatten := by
    cases h
    exact append_nil _
  obtain ⟨hforward, hback⟩ := mapM_eq_ok hlists
  rw [hedges]
  simp only [mem_flatten]
  constructor
  · rintro ⟨edge, ⟨list, hlist, hedge⟩, rfl, rfl⟩
    obtain ⟨⟨id, node⟩, hnode, hlistOf⟩ := hback list hlist
    rw [mem_insertionSort] at hnode
    have hlookup := AssocList.lookup_of_mem hgraph.nodup hnode
    unfold edgesOfNode at hlistOf
    dsimp only at hlistOf
    split_ifs at hlistOf with hempty
    · cases hlistOf
      cases hedge
    · obtain ⟨⟨child, back⟩, hchild, hbuilt⟩ := (mapM_eq_ok hlistOf).2 edge hedge
      rw [mem_filter] at hchild
      obtain ⟨hfrom, hto⟩ := availabilityEdge_eq_ok hbuilt
      refine ⟨id, child, ⟨node, hlookup, ?_⟩, hfrom.symm, hto.symm, ?_, ?_⟩
      · exact (mem_blockingChildren platform (hgraph.edges id node hlookup).nodup child).mp ⟨back, hchild.1⟩
      · rw [hfrom]
        exact fun hnil => hempty (isEmpty_iff.mpr hnil)
      · rw [hto]
        intro hnil
        rw [hnil] at hchild
        cases hchild.2
  · rintro ⟨id, child, ⟨node, hlookup, hblock⟩, rfl, rfl, hkey, htarget⟩
    obtain ⟨back, hchild⟩ :=
      (mem_blockingChildren platform (hgraph.edges id node hlookup).nodup child).mpr hblock
    obtain ⟨list, hlist, hlistOf⟩ := hforward (id, node)
      ((mem_insertionSort _).mpr (AssocList.mem_of_lookup hlookup))
    unfold edgesOfNode at hlistOf
    rw [if_neg fun hempty => hkey (isEmpty_iff.mp hempty)] at hlistOf
    have hlisted : (child, back) ∈ (blockingChildren platform node).filter
        fun child => !(keyOf child.1).isEmpty := by
      refine mem_filter.mpr ⟨hchild, ?_⟩
      rw [Bool.not_eq_true', Bool.eq_false_iff]
      exact fun hempty => htarget (isEmpty_iff.mp hempty)
    obtain ⟨edge, hedge, hbuilt⟩ := (mapM_eq_ok hlistOf).1 (child, back) hlisted
    obtain ⟨hfrom, hto⟩ := availabilityEdge_eq_ok hbuilt
    exact ⟨edge, ⟨list, hlist, hedge⟩, hfrom, hto⟩

/-- The nodes of a graph, as they are admitted. -/
def admittedNodes (graph : Graph) (admission : Str → AvailabilityNode) : List AvailabilityNode :=
  (keys graph.nodes).map admission

variable {admission : Str → AvailabilityNode} {result : Table Classified}

/-- The keys of admitted nodes are reached along the edges of the graph. -/
theorem reach_successors_iff (hgraph : GraphEdges sources graph)
    (hedges : blockingEdgesFromGraph platform graph (fun id => (admission id).key) = .ok edges)
    (hresult : classifyAvailability platform (admittedNodes graph admission) edges = .ok result)
    {id : Str} (hid : id ∈ keys graph.nodes) (key : Str) :
    Relation.ReflTransGen (fun a b => b ∈ successors (admittedNodes graph admission) edges a)
        (admission id).key key ↔ ∃ other ∈ keys graph.nodes, key = (admission other).key ∧
        Relation.ReflTransGen (Blocks graph) id other := by
  obtain ⟨hnodup, hnonempty, _⟩ := classifyAvailability_eq_ok hresult
  have hkeys : (admittedNodes graph admission).map (·.key) =
      (keys graph.nodes).map fun id => (admission id).key := map_map
  have hinjective : ∀ a ∈ keys graph.nodes, ∀ b ∈ keys graph.nodes,
      (admission a).key = (admission b).key → a = b := fun a ha b hb heq =>
    inj_on_of_nodup_map (hkeys ▸ hnodup) ha hb heq
  have hlisted : ∀ a ∈ keys graph.nodes,
      (admission a).key ∈ (admittedNodes graph admission).map (·.key) := fun a ha => by
    rw [hkeys]
    exact mem_map_of_mem ha
  have hne : ∀ a ∈ keys graph.nodes, (admission a).key ≠ [] := fun a ha =>
    hnonempty _ (mem_map_of_mem ha)
  have hclosed : ∀ a b, Blocks graph a b → a ∈ keys graph.nodes ∧
      b ∈ keys graph.nodes := by
    rintro a b ⟨node, hnode, hblock⟩
    refine ⟨mem_keys_of_lookup hnode, hgraph.closed a node hnode b ?_⟩
    exact hblock.imp (fun h => h.1) mem_keys_of_lookup
  constructor
  · intro hreach
    induction hreach with
    | refl => exact ⟨id, hid, rfl, .refl⟩
    | tail _ hedge ih =>
      obtain ⟨middle, hmiddle, rfl, hblocks⟩ := ih
      obtain ⟨edge, hmem, hfrom, hto, _⟩ := mem_successors.mp hedge
      obtain ⟨a, b, hab, hkeyA, hkeyB, _⟩ :=
        (exists_blockingEdge hgraph hedges _ _).mp ⟨edge, hmem, hfrom, hto⟩
      obtain ⟨ha, hb⟩ := hclosed a b hab
      obtain rfl := hinjective a ha middle hmiddle hkeyA
      exact ⟨b, hb, hkeyB.symm, hblocks.tail hab⟩
  · rintro ⟨other, _, rfl, hblocks⟩
    induction hblocks with
    | refl => exact .refl
    | @tail a b _ hab ih =>
      obtain ⟨ha, hb⟩ := hclosed a b hab
      obtain ⟨edge, hmem, hfrom, hto⟩ := (exists_blockingEdge hgraph hedges _ _).mpr
        ⟨a, b, hab, rfl, rfl, hne a ha, hne b hb⟩
      exact (ih ha).tail (mem_successors.mpr ⟨edge, hmem, hfrom, hto, hlisted a ha, hlisted b hb⟩)

/-- The node of an id is blocked when a refused one is reached along the relation. -/
def BlockedAlong (graph : Graph) (admission : Str → AvailabilityNode) (result : Table Classified)
    (relation : Str → Str → Prop) : Prop :=
  ∀ id ∈ keys graph.nodes,
    ((result.lookup (admission id).key).map (·.state) = some .blocked ↔
      (admission id).refusal.truthy = false ∧ ∃ other ∈ keys graph.nodes,
        (admission other).refusal.truthy = true ∧ Relation.ReflTransGen relation id other)

theorem blockedAlong_blocks (hgraph : GraphEdges sources graph)
    (hedges : blockingEdgesFromGraph platform graph (fun id => (admission id).key) = .ok edges)
    (hresult : classifyAvailability platform (admittedNodes graph admission) edges = .ok result) :
    BlockedAlong graph admission result (Blocks graph) := by
  intro id hid
  obtain ⟨hnodup, _, hclassified, _⟩ := classifyAvailability_eq_ok hresult
  have hmem : ∀ other ∈ keys graph.nodes, admission other ∈ admittedNodes graph admission :=
    fun other hother => mem_map_of_mem hother
  obtain ⟨classified, hlookup, hnode⟩ := hclassified _ (hmem id hid)
  rw [hlookup, Option.map_some, Option.some_inj, (classifyNode_spec hnodup (hmem id hid) hnode).blocked]
  refine and_congr_right fun _ => ⟨?_, ?_⟩
  · rintro ⟨root, hroot, hreach⟩
    obtain ⟨other, hother, rfl, hblocks⟩ := (reach_successors_iff hgraph hedges hresult hid root).mp hreach
    rw [isRefused_key hnodup (hmem other hother)] at hroot
    exact ⟨other, hother, hroot, hblocks⟩
  · rintro ⟨other, hother, hrefused, hblocks⟩
    refine ⟨(admission other).key, ?_, ?_⟩
    · rw [isRefused_key hnodup (hmem other hother)]
      exact hrefused
    · exact (reach_successors_iff hgraph hedges hresult hid _).mpr ⟨other, hother, rfl, hblocks⟩

end Graphs

/-- Availability propagates along the blocking relation, whatever the order of nodes and edges, and on a
resolved dependency graph along the declared edges that are not `no-wait`. -/
theorem availability_propagates (platform : Platform) :
    (∀ nodes edges result, classifyAvailability platform nodes edges = .ok result →
      (∀ key ∈ keys result, key ∈ nodes.map (·.key)) ∧
      ∀ node ∈ nodes, ∃ classified, result.lookup node.key = some classified ∧
        Classifies nodes edges node classified) ∧
    (∀ nodes nodes' edges edges', (nodes.map (·.key)).Nodup → nodes.Perm nodes' → edges.Perm edges' →
      classifyAvailability platform nodes edges = classifyAvailability platform nodes' edges') ∧
    ∀ sources options fuel graph admission edges result,
      resolveWorkspaceDependencyGraph sources options fuel = .ok graph →
      blockingEdgesFromGraph platform graph (fun id => (admission id).key) = .ok edges →
      classifyAvailability platform (admittedNodes graph admission) edges = .ok result →
      BlockedAlong graph admission result (Blocks graph) ∧
        (∀ id child, Blocks graph id child → DeclaresBlocking sources graph id child) ∧
        (∀ id child, DeclaresBlocking sources graph id child →
          Blocks graph id child ∨ Unresolved sources graph id child) ∧ (Intolerant options.tolerance →
          BlockedAlong graph admission result (DeclaresBlocking sources graph)) := by
  refine ⟨fun nodes edges result h => ?_, fun _ _ _ _ hnodup hnodes hedges =>
    classifyAvailability_perm platform hnodup hnodes hedges,
    fun sources options fuel graph admission edges result hgraph hedges hresult => ?_⟩
  · obtain ⟨hnodup, _, hclassified, hkeys⟩ := classifyAvailability_eq_ok h
    refine ⟨hkeys, fun node hnode => ?_⟩
    obtain ⟨classified, hlookup, hclass⟩ := hclassified node hnode
    exact ⟨classified, hlookup, classifyNode_spec hnodup hnode hclass⟩
  · have hdeclared := resolveWorkspaceDependencyGraph_edges hgraph
    have hblocked := blockedAlong_blocks hdeclared hedges hresult
    refine ⟨hblocked, fun id child => (blocks_declared hdeclared id child).1,
      fun id child => (blocks_declared hdeclared id child).2, fun htolerance => ?_⟩
    have hsame : DeclaresBlocking sources graph = Blocks graph := by
      funext id child
      refine propext ⟨fun h => ?_, (blocks_declared hdeclared id child).1⟩
      refine ((blocks_declared hdeclared id child).2 h).resolve_right ?_
      rintro ⟨_, _, _, _, _, _, hreport⟩
      rw [resolveWorkspaceDependencyGraph_reports htolerance hgraph] at hreport
      cases hreport
    rw [hsame]
    exact hblocked

/-- A refusal of the node `b`. -/
def exampleRefusal : Json := Fields.toJson
  { state := .str "refused", code := .str hardwareUnenforceable, reasonCode := .str "gate_off",
    key := .str "b", ref := .str "r/b", aliasName := .null,
    inputFingerprint := .str (replicate 64 '0'), reason := .str "no", fix := .str "",
    requested := .arr [], blockedBy := .null,
    rootCause := .obj [("key", .str "b"), ("ref", .str "r/b"), ("field", .null), ("reason", .str "no"),
      ("fix", .str "")],
    causalPath := .arr [.str "b"], omittedPathCount := .num "0", additionalCauseCount := .num "0" }

/-- The node `a` depends on the refused node `b`, and each on the other. -/
def exampleNodes : List AvailabilityNode :=
  [⟨"a", .str "r/a", .null, .null⟩, ⟨"b", .str "r/b", .null, exampleRefusal⟩]

def exampleEdges : List AvailabilityEdge :=
  [⟨"a", "b", .blocking, .manifest, false⟩, ⟨"b", "a", .blocking, .manifest, true⟩]

/-- The node that depends on the refused one is blocked. -/
theorem availability_propagates_example : ∃ result classified,
    classifyAvailability Plain.platform exampleNodes exampleEdges = .ok result ∧
      result.lookup (lit "a") = some classified ∧ classified.state = .blocked ∧
      Classifies exampleNodes exampleEdges ⟨"a", .str "r/a", .null, .null⟩ classified := by
  have hstate : ((classifyAvailability Plain.platform exampleNodes exampleEdges).toOption.map
      fun result => (result.lookup (lit "a")).map (·.state)) = some (some .blocked) := by decide +kernel
  obtain ⟨result, hresult, hstate⟩ := exists_ok_of_map hstate
  obtain ⟨classified, hlookup, hclassifies⟩ := ((availability_propagates Plain.platform).1 _ _ _
    hresult).2 ⟨"a", .str "r/a", .null, .null⟩ (.head _)
  refine ⟨result, classified, hresult, hlookup, ?_, hclassifies⟩
  have hlookup' : result.lookup (lit "a") = some classified := hlookup
  rw [hlookup'] at hstate
  exact Option.some.inj hstate

end Ploinky.Hardware
