import Ploinky.Lib.AssocList

/-!
# Layers of a directed graph

`layers` takes the nodes without dependencies from a graph, layer by layer, and counts for each other
node the dependencies that are left. It stops when every node left has one. Read `layers_spec` first: on
a graph whose two kinds of edges mirror each other, every node gets into the layer of its longest chain of
dependencies, unless there is a cycle.
-/

namespace Layers

open List AssocList

variable {α : Type*} [DecidableEq α] [BEq α] [LawfulBEq α] {dependents : α → List α}
  {taken remaining : List α}

/-- The count of a node. -/
def count (indegree : List (α × Nat)) (x : α) : Nat := (indegree.lookup x).getD 0

/-- The dependents of a node have one dependency less. -/
def lower (indegree : List (α × Nat)) (dependents : List α) : List (α × Nat) :=
  dependents.foldl (fun indegree y => set indegree (y, count indegree y - 1)) indegree

/-- A node is taken from the graph. -/
def settle (dependents : α → List α) (indegree : List (α × Nat)) (x : α) : List (α × Nat) :=
  erase (lower indegree (dependents x)) x

/-- The nodes whose count is zero, in the given order. -/
def layer (r : α → α → Prop) [DecidableRel r] (remaining : List α) (indegree : List (α × Nat)) : List α :=
  (remaining.filter fun x => count indegree x = 0).insertionSort r

omit [DecidableEq α] [LawfulBEq α] in
theorem mem_layer {r : α → α → Prop} [DecidableRel r] {indegree : List (α × Nat)}
    {x : α} : x ∈ layer r remaining indegree ↔ x ∈ remaining ∧ count indegree x = 0 := by
  rw [layer, mem_insertionSort, mem_filter, decide_eq_true_eq]

/-- The nodes that are left. -/
def left (remaining taken : List α) : List α := remaining.filter fun x => x ∉ taken

omit [DecidableEq α] in
theorem length_left_lt {x : α} (hx : x ∈ remaining) (htaken : x ∈ taken) :
    (left remaining taken).length < remaining.length := by
  refine length_filter_lt_length_iff_exists.mpr ⟨x, hx, ?_⟩
  simpa using htaken

/-- Layer by layer; nothing when every node left has a dependency left. -/
def layers (r : α → α → Prop) [DecidableRel r] (dependents : α → List α) (remaining : List α)
    (indegree : List (α × Nat)) : Option (List (List α)) :=
  if remaining.isEmpty then some []
  else
    if _ : layer r remaining indegree = [] then none
    else
      (layers r dependents (left remaining (layer r remaining indegree))
        ((layer r remaining indegree).foldl (settle dependents) indegree)).map
        (layer r remaining indegree :: ·)
termination_by remaining.length
decreasing_by
  rename_i hnone
  obtain ⟨x, hx⟩ := exists_mem_of_ne_nil _ hnone
  exact length_left_lt (mem_layer.mp hx).1 hx

/-! ## The counts -/

theorem count_lower {dependents : List α} (hnodup : dependents.Nodup) (indegree : List (α × Nat)) (x : α) :
    count (lower indegree dependents) x = count indegree x - if x ∈ dependents then 1 else 0 := by
  induction dependents generalizing indegree with
  | nil => simp [lower]
  | cons y rest ih =>
    obtain ⟨hnot, hrest⟩ := nodup_cons.mp hnodup
    show count (lower (set indegree (y, count indegree y - 1)) rest) x = _
    have hset : count (set indegree (y, count indegree y - 1)) x =
        if x = y then count indegree y - 1 else count indegree x := by
      unfold count
      rw [lookup_set]
      split_ifs <;> rfl
    rw [ih hrest, hset]
    by_cases hx : x = y
    · simp [hx, hnot]
    · simp [hx]

theorem count_settle_of_ne {x y : α} (hnodup : (dependents x).Nodup)
    (hne : y ≠ x) (indegree : List (α × Nat)) :
    count (settle dependents indegree x) y = count indegree y - if y ∈ dependents x then 1 else 0 := by
  rw [← count_lower hnodup]
  unfold count settle
  rw [lookup_erase, if_neg hne]

/-- A node that is not taken has one dependency less for each dependency that is. -/
theorem count_foldl_settle {y : α}
    (hnodup : ∀ x ∈ taken, (dependents x).Nodup) (hy : y ∉ taken) (indegree : List (α × Nat)) :
    count (taken.foldl (settle dependents) indegree) y =
      count indegree y - (taken.filter fun x => y ∈ dependents x).length := by
  induction taken generalizing indegree with
  | nil => simp
  | cons x rest ih =>
    rw [mem_cons, not_or] at hy
    obtain ⟨hne, hrest⟩ := hy
    rw [foldl_cons, ih (fun z hz => hnodup z (.tail _ hz)) hrest,
      count_settle_of_ne (hnodup x (.head _)) hne]
    by_cases hdepends : y ∈ dependents x
    · simp only [hdepends, if_true, decide_true, filter_cons_of_pos, length_cons]
      omega
    · simp [hdepends]

/-! ## The graph -/

/-- A finite graph with both directions of its edges. -/
structure Mirrored (nodes : List α) (dependencies dependents : α → List α) : Prop where
  nodup : nodes.Nodup
  dependencies_nodup : ∀ x ∈ nodes, (dependencies x).Nodup
  dependents_nodup : ∀ x ∈ nodes, (dependents x).Nodup
  closed : ∀ x ∈ nodes, ∀ y ∈ dependencies x, y ∈ nodes
  mirror : ∀ x ∈ nodes, ∀ y ∈ nodes, y ∈ dependencies x ↔ x ∈ dependents y

/-- The first node depends on the second one. -/
def DependsOn (dependencies : α → List α) (x y : α) : Prop := y ∈ dependencies x

/-- The node starts a chain of dependencies of the given length, and no longer one. -/
def Longest (dependencies : α → List α) (x : α) (length : Nat) : Prop :=
  (∃ rest, (x :: rest).IsChain (DependsOn dependencies) ∧ rest.length = length) ∧
    ∀ rest, (x :: rest).IsChain (DependsOn dependencies) → rest.length ≤ length

variable {nodes : List α} {dependencies dependents : α → List α} {x y : α}

omit [DecidableEq α] [BEq α] [LawfulBEq α] in
theorem Longest.lt {i j : Nat} (hx : Longest dependencies x i) (hy : Longest dependencies y j)
    (h : DependsOn dependencies x y) : j < i := by
  obtain ⟨rest, hchain, rfl⟩ := hy.1
  exact hx.2 (y :: rest) (isChain_cons_cons.mpr ⟨h, hchain⟩)

omit [DecidableEq α] [BEq α] [LawfulBEq α] in
/-- Dependencies that decrease a rank have no cycle. -/
theorem acyclic_of_rank {rank : α → Nat} (h : ∀ x y, DependsOn dependencies x y → rank y < rank x) (x : α) :
    ¬ Relation.TransGen (DependsOn dependencies) x x := by
  have hless : ∀ y, Relation.TransGen (DependsOn dependencies) x y → rank y < rank x := by
    intro y hreach
    induction hreach with
    | single hedge => exact h _ _ hedge
    | tail _ hedge ih => exact (h _ _ hedge).trans ih
  exact fun hcycle => Nat.lt_irrefl _ (hless x hcycle)

omit [BEq α] [LawfulBEq α] in
/-- Nodes that all depend on one of them have a cycle. -/
theorem exists_cycle {stuck : List α} (hne : stuck ≠ [])
    (h : ∀ x ∈ stuck, ∃ y ∈ stuck, DependsOn dependencies x y) :
    ∃ x, Relation.TransGen (DependsOn dependencies) x x := by
  by_contra hacyclic
  let r : {x // x ∈ stuck} → {x // x ∈ stuck} → Prop := fun a b => Relation.TransGen (DependsOn dependencies) b a
  have : IsTrans _ r := ⟨fun _ _ _ hab hbc => hbc.trans hab⟩
  have : Std.Irrefl r := ⟨fun a ha => hacyclic ⟨a, ha⟩⟩
  obtain ⟨x, hx⟩ := exists_mem_of_ne_nil _ hne
  refine (Finite.wellFounded_of_trans_of_irrefl r).induction (C := fun _ => False) ⟨x, hx⟩ fun a ih => ?_
  obtain ⟨y, hy, hedge⟩ := h a a.2
  exact ih ⟨y, hy⟩ (.single hedge)

/-- The counts are those of the dependencies that are left. -/
def Counted (dependencies : α → List α) (remaining : List α) (indegree : List (α × Nat)) : Prop :=
  ∀ x ∈ remaining, count indegree x = ((dependencies x).filter fun y => y ∈ remaining).length

variable {remaining : List α} {indegree : List (α × Nat)}

/-- The counts after a layer was taken. -/
theorem Mirrored.counted_step (h : Mirrored nodes dependencies dependents)
    (hsub : remaining ⊆ nodes) (htaken : taken ⊆ remaining) (hnodup : taken.Nodup)
    (hcounted : Counted dependencies remaining indegree) : Counted dependencies (left remaining taken)
      (taken.foldl (settle dependents) indegree) := by
  unfold left
  intro y hy
  rw [mem_filter, decide_eq_true_eq] at hy
  have hnode : y ∈ nodes := hsub hy.1
  rw [count_foldl_settle (fun x hx => h.dependents_nodup x (hsub (htaken hx))) hy.2, hcounted y hy.1]
  -- The dependencies that are taken are the taken nodes with `y` as a dependent.
  have hsame : (taken.filter fun x => y ∈ dependents x).length =
      ((dependencies y).filter fun x => x ∈ taken).length := by
    refine List.Perm.length_eq ((perm_ext_iff_of_nodup (hnodup.filter _)
      ((h.dependencies_nodup y hnode).filter _)).mpr fun x => ?_)
    simp only [mem_filter, decide_eq_true_eq]
    constructor
    · intro hx
      exact ⟨(h.mirror y hnode x (hsub (htaken hx.1))).mpr hx.2, hx.1⟩
    · intro hx
      exact ⟨hx.2, (h.mirror y hnode x (hsub (htaken hx.2))).mp hx.1⟩
  have hsplit : ((dependencies y).filter fun x => x ∈ remaining).length =
      ((dependencies y).filter fun x => x ∈ taken).length +
        ((dependencies y).filter fun x => x ∈ remaining.filter fun x => x ∉ taken).length := by
    rw [length_eq_length_filter_add fun x => decide (x ∈ taken), filter_filter]
    congr 2
    · refine filter_congr fun x _ => ?_
      simpa using fun htake => htaken htake
    · simp [Bool.and_comm]
  omega

/-- The nodes that are not left start only chains below a length, and those that are left start one of it. -/
structure Deep (nodes : List α) (dependencies : α → List α) (remaining : List α) (depth : Nat) : Prop where
  done : ∀ x ∈ nodes, x ∉ remaining → ∀ rest, (x :: rest).IsChain (DependsOn dependencies) →
    rest.length < depth
  deep : ∀ x ∈ remaining, ∃ rest, (x :: rest).IsChain (DependsOn dependencies) ∧ rest.length = depth

section Step

variable {r : α → α → Prop} [DecidableRel r] {depth : Nat}

omit [DecidableEq α]

theorem Counted.mem_layer (h : Counted dependencies remaining indegree) (hx : x ∈ remaining) :
    x ∈ layer r remaining indegree ↔ ∀ y ∈ dependencies x, y ∉ remaining := by
  rw [Layers.mem_layer, h x hx, length_eq_zero_iff, filter_eq_nil_iff]
  simp [hx]

/-- A node that is not ready waits for one that is left. -/
theorem Counted.exists_left (h : Counted dependencies remaining indegree) (hx : x ∈ remaining)
    (hnot : x ∉ layer r remaining indegree) : ∃ y ∈ remaining, DependsOn dependencies x y := by
  rw [h.mem_layer hx] at hnot
  push Not at hnot
  obtain ⟨y, hy, hleft⟩ := hnot
  exact ⟨y, hleft, hy⟩

variable (h : Deep nodes dependencies remaining depth) (hcounted : Counted dependencies remaining indegree)
  (hgraph : Mirrored nodes dependencies dependents) (hsub : remaining ⊆ nodes)

include h hcounted hgraph hsub

theorem Deep.longest (hx : x ∈ layer r remaining indegree) : Longest dependencies x depth := by
  have hleft := (mem_layer.mp hx).1
  refine ⟨h.deep x hleft, fun rest hchain => ?_⟩
  cases rest with
  | nil => exact Nat.zero_le _
  | cons y rest =>
    obtain ⟨hedge, hrest⟩ := isChain_cons_cons.mp hchain
    exact h.done y (hgraph.closed x (hsub hleft) y hedge) ((hcounted.mem_layer hleft).mp hx y hedge) rest hrest

theorem Deep.step :
    Deep nodes dependencies (left remaining (layer r remaining indegree)) (depth + 1) := by
  constructor
  · intro x hx hnot rest hchain
    by_cases hleft : x ∈ remaining
    · have htaken : x ∈ layer r remaining indegree := by simpa [left, hleft] using hnot
      exact Nat.lt_succ_of_le ((h.longest hcounted hgraph hsub htaken).2 rest hchain)
    · exact (h.done x hx hleft rest hchain).trans (Nat.lt_succ_self _)
  · intro x hx
    rw [left, mem_filter, decide_eq_true_eq] at hx
    obtain ⟨y, hy, hedge⟩ := hcounted.exists_left hx.1 hx.2
    obtain ⟨rest, hchain, rfl⟩ := h.deep y hy
    exact ⟨y :: rest, isChain_cons_cons.mpr ⟨hedge, hchain⟩, rfl⟩

end Step

theorem Mirrored.layers_of_counted (h : Mirrored nodes dependencies dependents) (r : α → α → Prop)
    [DecidableRel r] {depth : Nat} (hsub : remaining ⊆ nodes) (hnodup : remaining.Nodup)
    (hcounted : Counted dependencies remaining indegree) (hdeep : Deep nodes dependencies remaining depth) :
    match layers r dependents remaining indegree with
    | some waves => waves.flatten.Perm remaining ∧
        ∀ i wave, waves[i]? = some wave → ∀ x ∈ wave, Longest dependencies x (depth + i)
    | none => ∃ x, Relation.TransGen (DependsOn dependencies) x x := by
  induction hlength : remaining.length using Nat.strong_induction_on generalizing remaining indegree depth with
  | _ length ih =>
    by_cases hempty : remaining = []
    · subst hempty
      rw [layers]
      exact ⟨List.Perm.refl _, by simp⟩
    rw [layers, if_neg (by simpa using hempty)]
    by_cases hnone : layer r remaining indegree = []
    · rw [dif_pos hnone]
      exact exists_cycle hempty fun x hx => hcounted.exists_left hx (by rw [hnone]; exact not_mem_nil)
    rw [dif_neg hnone]
    obtain ⟨first, hfirst⟩ := exists_mem_of_ne_nil _ hnone
    have hperm : (layer r remaining indegree).Perm
        (remaining.filter fun x => count indegree x = 0) := perm_insertionSort _ _
    have hsubNext : left remaining (layer r remaining indegree) ⊆ nodes :=
      fun y hy => hsub (mem_of_mem_filter hy)
    have hnext := ih _ (hlength ▸ length_left_lt (mem_layer.mp hfirst).1 hfirst) hsubNext (hnodup.filter _)
      (h.counted_step hsub (fun y hy => (mem_layer.mp hy).1) (hperm.nodup_iff.mpr (hnodup.filter _)) hcounted)
      (hdeep.step hcounted h hsub) rfl
    cases hwaves : layers r dependents (left remaining (layer r remaining indegree))
        ((layer r remaining indegree).foldl (settle dependents) indegree) with
    | none =>
      rw [hwaves] at hnext
      exact hnext
    | some waves =>
      rw [hwaves] at hnext
      refine ⟨?_, fun i wave hi x hx => ?_⟩
      · have hparts : left remaining (layer r remaining indegree) =
            remaining.filter fun x => !decide (count indegree x = 0) := by
          refine filter_congr fun y hy => ?_
          simp [mem_layer, hy]
        rw [hparts] at hnext
        exact (hperm.append hnext.1).trans (filter_append_perm _ remaining)
      · cases i with
        | zero =>
          cases hi
          exact hdeep.longest hcounted h hsub hx
        | succ i =>
          rw [Nat.add_comm i, ← Nat.add_assoc]
          exact hnext.2 i wave hi x hx

/-- The numbers of dependencies. -/
def degrees (nodes : List α) (dependencies : α → List α) : List (α × Nat) :=
  nodes.map fun x => (x, (dependencies x).length)

/-- Every node is in the layer of its longest chain, or the dependencies have a cycle. -/
theorem Mirrored.layers_spec (h : Mirrored nodes dependencies dependents) (r : α → α → Prop) [DecidableRel r] :
    match layers r dependents nodes (degrees nodes dependencies) with
    | some waves => waves.flatten.Perm nodes ∧
        ∀ i wave, waves[i]? = some wave → ∀ x ∈ wave, Longest dependencies x i
    | none => ∃ x, Relation.TransGen (DependsOn dependencies) x x := by
  have hcounted : Counted dependencies nodes (degrees nodes dependencies) := by
    intro x hx
    have hkeys : (keys (degrees nodes dependencies)).Nodup := by
      simpa [degrees, Function.comp_def] using h.nodup
    have hlookup : (degrees nodes dependencies).lookup x = some (dependencies x).length :=
      lookup_of_mem hkeys (mem_map_of_mem hx)
    have hall : (dependencies x).filter (fun y => y ∈ nodes) = dependencies x :=
      filter_eq_self.mpr fun y hy => by simpa using h.closed x hx y hy
    rw [count, hlookup, hall]
    rfl
  have hdeep : Deep nodes dependencies nodes 0 := ⟨fun x hx hnot => absurd hx hnot, fun x _ => ⟨[], .singleton x, rfl⟩⟩
  simpa only [Nat.zero_add] using h.layers_of_counted r (List.Subset.refl _) h.nodup hcounted hdeep

end Layers
