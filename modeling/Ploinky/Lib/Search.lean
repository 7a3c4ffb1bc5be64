import Mathlib

/-!
# Searching a graph for goals

Two searches from a node of a directed graph that is given by lists of successors. `shortestTo` is
breadth first and stops at the first goal it meets; read `shortestTo_eq_some` and `shortestTo_eq_none`
first: its answer is a path of least length to a goal. `goalsFrom` is depth first and does not go on
through a goal; `mem_goalsFrom_iff`: it collects the goals that are reached through no other goal.
-/

namespace Search

open List

variable {α : Type*}

/-- A path along edges, from the start to its last node. -/
inductive Path (next : α → List α) (start : α) : List α → α → Prop
  | refl : Path next start [start] start
  | step {path : List α} {x y : α} (h : Path next start path x) (hedge : y ∈ next x) :
      Path next start (path ++ [y]) y

variable {next : α → List α} {goal : α → Bool} {start x : α}

theorem Path.getLast?_eq {path : List α} (h : Path next start path x) : path.getLast? = some x := by
  cases h with
  | refl => rfl
  | step => exact getLast?_concat

/-- A path leads to what is reached. -/
theorem exists_path_iff :
    (∃ path, Path next start path x) ↔ Relation.ReflTransGen (fun a b => b ∈ next a) start x := by
  constructor
  · rintro ⟨path, h⟩
    induction h with
    | refl => exact .refl
    | step _ hedge ih => exact ih.tail hedge
  · intro h
    induction h with
    | refl => exact ⟨_, .refl⟩
    | tail _ hedge ih =>
      obtain ⟨path, hpath⟩ := ih
      exact ⟨_, hpath.step hedge⟩

/-- Only the successors of a node matter, not their order. -/
theorem Path.congr {next' : α → List α} (hnext : ∀ x y, y ∈ next x ↔ y ∈ next' x) {path : List α}
    (h : Path next start path x) : Path next' start path x := by
  induction h with
  | refl => exact .refl
  | step _ hedge ih => exact ih.step ((hnext _ _).mp hedge)

/-! ## Breadth first -/

section Searching

variable [DecidableEq α] {previous : List (α × Option α)} {queue nodes : List α} {x current before : α} {fuel : Nat}

/-- The nodes that were met. -/
def met (previous : List (α × Option α)) : List α := previous.map Prod.fst

/-- Follow the recorded predecessors back from a node. -/
def backtrack (previous : List (α × Option α)) : Nat → α → List α
  | 0, x => [x]
  | fuel + 1, x =>
    match previous.lookup x with
    | some (some before) => backtrack previous fuel before ++ [x]
    | _ => [x]

/-- Record a successor that was not met, and queue it. -/
def discover (current : α) (found : List (α × Option α) × List α) (x : α) :
    List (α × Option α) × List α :=
  if x ∈ met found.1 then found else ((x, some current) :: found.1, found.2 ++ [x])

/-- The breadth-first search with the recorded predecessors, the newest first, and the queue. -/
def shortestTo (next : α → List α) (goal : α → Bool) (start : α) :
    Nat → List (α × Option α) → List α → Option (List α)
  | 0, _, _ => none
  | _ + 1, _, [] => none
  | fuel + 1, previous, current :: queue =>
    if current ≠ start ∧ goal current = true then some (backtrack previous previous.length current)
    else
      let found := (next current).foldl (discover current) (previous, queue)
      shortestTo next goal start fuel found.1 found.2

/-- The recorded predecessors form a tree: each node was recorded after its predecessor. -/
inductive Tree (next : α → List α) (start : α) : List (α × Option α) → Prop
  | root : Tree next start [(start, none)]
  | add {previous : List (α × Option α)} {before x : α} (h : Tree next start previous)
      (hbefore : before ∈ met previous) (hnew : x ∉ met previous) (hedge : x ∈ next before) :
      Tree next start ((x, some before) :: previous)

/-- The path to a node in the tree. -/
def route : List (α × Option α) → α → List α
  | [], x => [x]
  | (y, before) :: older, x =>
    if x = y then
      match before with
      | none => [x]
      | some z => route older z ++ [x]
    else route older x

/-- The number of nodes on the path to a node. -/
def depth (previous : List (α × Option α)) (x : α) : Nat := (route previous x).length

omit [DecidableEq α] in
theorem Tree.start_mem (h : Tree next start previous) : start ∈ met previous := by
  induction h with
  | root => exact mem_singleton.mpr rfl
  | add _ _ _ _ ih => exact .tail _ ih

theorem lookup_cons_of_ne {x y : α} {before : Option α} (h : x ≠ y) :
    ((y, before) :: previous).lookup x = previous.lookup x := by
  rw [lookup_cons, beq_eq_false_iff_ne.mpr h]

theorem route_cons_of_ne {x y : α} {before : Option α} (h : x ≠ y) :
    route ((y, before) :: previous) x = route previous x := by
  cases before with
  | none | some => rw [route, if_neg h]

theorem route_cons_self :
    route ((x, some before) :: previous) x = route previous before ++ [x] := by
  rw [route, if_pos rfl]

/-- The predecessor of a node was met. -/
theorem Tree.before_mem (h : Tree next start previous)
    (hlookup : previous.lookup x = some (some before)) : before ∈ met previous := by
  induction h with
  | root =>
    rw [lookup_cons] at hlookup
    split at hlookup
    · cases hlookup
    · cases hlookup
  | @add previous last y _ hlast _ _ ih =>
    by_cases hx : x = y
    · rw [hx, lookup_cons_self] at hlookup
      cases hlookup
      exact .tail _ hlast
    · rw [lookup_cons_of_ne hx] at hlookup
      exact .tail _ (ih hlookup)

/-- A new record does not change the way back from the nodes met before. -/
theorem Tree.backtrack_cons (h : Tree next start previous) {y : α}
    (hnew : y ∉ met previous) (before : Option α) (hx : x ∈ met previous) :
    backtrack ((y, before) :: previous) fuel x = backtrack previous fuel x := by
  induction fuel generalizing x with
  | zero => rfl
  | succ fuel ih =>
    have hne : x ≠ y := fun heq => hnew (heq ▸ hx)
    rw [backtrack, backtrack, lookup_cons_of_ne hne]
    split
    · rename_i z hlookup
      rw [ih (h.before_mem hlookup)]
    · rfl

/-- The way back is the path in the tree. -/
theorem Tree.backtrack_eq (h : Tree next start previous)
    (hfuel : previous.length ≤ fuel) (hx : x ∈ met previous) :
    backtrack previous fuel x = route previous x := by
  induction h generalizing fuel x with
  | root =>
    rw [mem_singleton.mp hx]
    cases fuel with
    | zero => exact absurd hfuel (by simp)
    | succ fuel =>
      show backtrack [(start, none)] (fuel + 1) start = _
      rw [backtrack, lookup_cons_self, route, if_pos rfl]
  | @add previous last y htree hlast hnew _ ih =>
    obtain ⟨fuel, rfl⟩ : ∃ less, fuel = less + 1 := ⟨fuel - 1, by rw [length_cons] at hfuel; omega⟩
    have hless : previous.length ≤ fuel := by
      rw [length_cons] at hfuel
      omega
    by_cases hxy : x = y
    · rw [hxy, backtrack, lookup_cons_self, route_cons_self]
      show backtrack _ fuel last ++ [y] = _
      rw [htree.backtrack_cons hnew _ hlast, ih hless hlast]
    · have hmem : x ∈ met previous := (mem_cons.mp hx).resolve_left hxy
      rw [htree.backtrack_cons hnew _ hmem, route_cons_of_ne hxy]
      exact ih (by omega) hmem

/-- The path in the tree is a path of the graph. -/
theorem Tree.path (h : Tree next start previous)
    (hx : x ∈ met previous) : Path next start (route previous x) x := by
  induction h generalizing x with
  | root =>
    rw [mem_singleton.mp hx]
    show Path next start (route [(start, none)] start) start
    rw [route, if_pos rfl]
    exact .refl
  | @add previous last y _ hlast _ hedge ih =>
    by_cases hxy : x = y
    · rw [hxy, route_cons_self]
      exact (ih hlast).step hedge
    · rw [route_cons_of_ne hxy]
      exact ih ((mem_cons.mp hx).resolve_left hxy)

/-- The start is on the path to itself alone. -/
theorem Tree.depth_start (h : Tree next start previous) : depth previous start = 1 := by
  induction h with
  | root =>
    show (route [(start, none)] start).length = 1
    rw [route, if_pos rfl]
    rfl
  | @add previous last y htree _ hnew _ ih =>
    have hne : start ≠ y := fun heq => hnew (heq ▸ htree.start_mem)
    rw [depth, route_cons_of_ne hne]
    exact ih

/-- The state of a breadth-first search that scans the node `current` and has not looked at its
successors in `pending`: the queue is in the order of the depths, no node is more than one below the
scanned one, and the other nodes that were met are not goals and had their successors met in time. -/
structure Layers (next : α → List α) (goal : α → Bool) (start : α) (found : List (α × Option α) × List α)
    (current : α) (pending : List α) : Prop where
  tree : Tree next start found.1
  current_met : current ∈ met found.1
  queue_met : ∀ x ∈ found.2, x ∈ met found.1
  sorted : (current :: found.2).Pairwise fun x y => depth found.1 x ≤ depth found.1 y
  below : ∀ x ∈ met found.1, depth found.1 x ≤ depth found.1 current + 1
  closed : ∀ x ∈ met found.1, x ∈ found.2 ∨ (x ≠ start → goal x = false) ∧
    ∀ y ∈ next x, (x = current ∧ y ∈ pending) ∨ (y ∈ met found.1 ∧ depth found.1 y ≤ depth found.1 x + 1)

/-- The search starts with its first node. -/
theorem layers_start : Layers next goal start ([(start, none)], [start]) start [] where
  tree := .root
  current_met := mem_singleton_self _
  queue_met := fun _ hx => hx
  sorted := pairwise_pair.mpr (Nat.le_refl _)
  below := by
    intro x hx
    cases mem_singleton.mp hx
    exact Nat.le_succ _
  closed := fun _ hx => Or.inl hx

variable {found : List (α × Option α) × List α} {pending : List α}

/-- Taking the head of the queue, when it is no goal. -/
theorem Layers.pop (h : Layers next goal start (previous, x :: queue) current [])
    (hpass : x ≠ start → goal x = false) : Layers next goal start (previous, queue) x (next x) where
  tree := h.tree
  current_met := h.queue_met x (.head _)
  queue_met := fun y hy => h.queue_met y (.tail _ hy)
  sorted := h.sorted.of_cons
  below := by
    intro y hy
    have hle := h.below y hy
    have hhead := rel_of_pairwise_cons h.sorted (.head _)
    dsimp only at hle hhead ⊢
    omega
  closed := by
    intro y hy
    rcases h.closed y hy with hqueue | ⟨hnot, hnext⟩
    · rcases mem_cons.mp hqueue with rfl | hqueue
      · exact Or.inr ⟨hpass, fun z hz => Or.inl ⟨rfl, hz⟩⟩
      · exact Or.inl hqueue
    · exact Or.inr ⟨hnot, fun z hz => Or.inr ((hnext z hz).resolve_left (by simp))⟩

/-- Looking at a successor of the scanned node. -/
theorem Layers.discover (h : Layers next goal start found current (x :: pending)) (hedge : x ∈ next current) :
    Layers next goal start (discover current found x) current pending := by
  unfold Search.discover
  split_ifs with hmet
  · refine { h with closed := fun z hz => ?_ }
    refine (h.closed z hz).imp_right fun ⟨hnot, hnext⟩ => ⟨hnot, fun y hy => ?_⟩
    rcases hnext y hy with ⟨rfl, hpending⟩ | hbefore
    · rcases mem_cons.mp hpending with rfl | hpending
      · exact Or.inr ⟨hmet, h.below y hmet⟩
      · exact Or.inl ⟨rfl, hpending⟩
    · exact Or.inr hbefore
  · have hkept : ∀ z ∈ met found.1, depth ((x, some current) :: found.1) z = depth found.1 z := by
      intro z hz
      have hne : z ≠ x := fun heq => hmet (heq ▸ hz)
      rw [depth, route_cons_of_ne hne]
      rfl
    have hnew : depth ((x, some current) :: found.1) x = depth found.1 current + 1 := by
      rw [depth, route_cons_self, length_append]
      rfl
    have hcurrent := hkept current h.current_met
    have hwaiting : ∀ z ∈ current :: found.2, z ∈ met found.1 :=
      forall_mem_cons.mpr ⟨h.current_met, h.queue_met⟩
    refine ⟨h.tree.add h.current_met hmet hedge, .tail _ h.current_met, ?_, ?_, ?_, ?_⟩
    · rw [forall_mem_append, forall_mem_singleton]
      exact ⟨fun z hz => .tail _ (h.queue_met z hz), mem_cons_self⟩
    · show ((current :: found.2) ++ [x]).Pairwise _
      rw [pairwise_append]
      refine ⟨h.sorted.imp_of_mem fun hy hz hle => ?_, pairwise_singleton _ _, fun y hy z hz => ?_⟩
      · rwa [hkept _ (hwaiting _ hy), hkept _ (hwaiting _ hz)]
      · rw [mem_singleton.mp hz, hnew, hkept y (hwaiting y hy)]
        exact h.below y (hwaiting y hy)
    · refine forall_mem_cons.mpr ⟨by dsimp only; omega, fun z hz => ?_⟩
      have hle := h.below z hz
      rwa [← hkept z hz, ← hcurrent] at hle
    · refine forall_mem_cons.mpr ⟨Or.inl (mem_append_right _ (.head _)), fun z hz => ?_⟩
      rcases h.closed z hz with hqueue | ⟨hnot, hnext⟩
      · exact Or.inl (mem_append_left _ hqueue)
      · refine Or.inr ⟨hnot, fun y hy => ?_⟩
        rcases hnext y hy with ⟨rfl, hpending⟩ | ⟨hmem, hle⟩
        · rcases mem_cons.mp hpending with rfl | hpending
          · exact Or.inr ⟨.head _, by dsimp only; omega⟩
          · exact Or.inl ⟨rfl, hpending⟩
        · rw [← hkept y hmem, ← hkept z hz] at hle
          exact Or.inr ⟨.tail _ hmem, hle⟩

/-- Looking at all successors of the scanned node. -/
theorem Layers.discoverAll (h : Layers next goal start found current pending) (hpending : pending ⊆ next current) :
    Layers next goal start (pending.foldl (Search.discover current) found) current [] := by
  induction pending generalizing found with
  | nil => exact h
  | cons x pending ih =>
    exact ih (h.discover (hpending (.head _))) fun y hy => hpending (.tail _ hy)

variable {path : List α} {next' : α → List α}

/-- A path ends at a node that was met in time, or is as long as the path to a node of the queue. -/
theorem Layers.path_le (h : Layers next goal start found current []) (hpath : Path next start path x) :
    (x ∈ met found.1 ∧ depth found.1 x ≤ path.length) ∨ ∃ y ∈ found.2, depth found.1 y ≤ path.length := by
  induction hpath with
  | refl => exact Or.inl ⟨h.tree.start_mem, Nat.le_of_eq h.tree.depth_start⟩
  | @step path x y hpath hedge ih =>
    rw [length_append, length_singleton]
    rcases ih with ⟨hmem, hle⟩ | ⟨z, hz, hle⟩
    · rcases h.closed x hmem with hqueue | ⟨_, hnext⟩
      · exact Or.inr ⟨x, hqueue, by omega⟩
      · obtain ⟨hymem, hyle⟩ := (hnext y hedge).resolve_left (by simp)
        exact Or.inl ⟨hymem, by omega⟩
    · exact Or.inr ⟨z, hz, by omega⟩

/-- A path to a goal other than the start is as long as the path to some node of the queue. -/
theorem Layers.goal_le (h : Layers next goal start found current []) (hpath : Path next start path x)
    (hne : x ≠ start) (hgoal : goal x = true) : ∃ y ∈ found.2, depth found.1 y ≤ path.length := by
  rcases h.path_le hpath with ⟨hmem, hle⟩ | hqueue
  · rcases h.closed x hmem with hqueue | ⟨hnot, _⟩
    · exact ⟨x, hqueue, hle⟩
    · rw [hnot hne] at hgoal
      cases hgoal
  · exact hqueue

/-- A path to a goal other than the start that no other such path is shorter than. -/
structure Shortest (next : α → List α) (goal : α → Bool) (start : α) (path : List α) (x : α) : Prop where
  isPath : Path next start path x
  ne : x ≠ start
  isGoal : goal x = true
  least : ∀ other y, Path next start other y → y ≠ start → goal y = true → path.length ≤ other.length

omit [DecidableEq α] in
theorem Shortest.congr (hnext : ∀ x y, y ∈ next x ↔ y ∈ next' x)
    (h : Shortest next goal start path x) : Shortest next' goal start path x :=
  ⟨h.isPath.congr hnext, h.ne, h.isGoal, fun other y hother =>
    h.least other y (hother.congr fun a b => (hnext a b).symm)⟩

/-- The search goes on from a head of the queue that is no goal. -/
theorem Layers.scan (h : Layers next goal start (previous, x :: queue) current [])
    (hpass : ¬(x ≠ start ∧ goal x = true)) :
    Layers next goal start ((next x).foldl (Search.discover x) (previous, queue)) x [] :=
  (h.pop fun hne => Bool.eq_false_iff.mpr fun htrue => hpass ⟨hne, htrue⟩).discoverAll (List.Subset.refl _)

/-- What the search returns is a path of least length to a goal. -/
theorem shortestTo_eq_some (h : Layers next goal start (previous, queue) current [])
    (hfound : shortestTo next goal start fuel previous queue = some path) :
    ∃ x, Shortest next goal start path x := by
  induction fuel generalizing previous queue current with
  | zero => cases hfound
  | succ fuel ih =>
    cases queue with
    | nil => cases hfound
    | cons x queue =>
      have hx : x ∈ met previous := h.queue_met x (.head _)
      rw [shortestTo] at hfound
      split_ifs at hfound with hgoal
      · cases hfound
        rw [h.tree.backtrack_eq (Nat.le_refl _) hx]
        refine ⟨x, h.tree.path hx, hgoal.1, hgoal.2, fun other y hother hne hy => ?_⟩
        obtain ⟨z, hz, hle⟩ := h.goal_le hother hne hy
        refine Nat.le_trans ?_ hle
        rcases mem_cons.mp hz with rfl | hz
        · exact Nat.le_refl _
        · exact rel_of_pairwise_cons h.sorted.of_cons hz
      · exact ih (h.scan hgoal) hfound

/-- The nodes of a list that were not met. -/
def unmet (nodes seen : List α) : List α := nodes.filter fun x => x ∉ seen

/-- Meeting a new node of the list leaves fewer. -/
theorem length_unmet_cons {seen : List α} (hx : x ∈ nodes) (hnew : x ∉ seen) :
    (unmet nodes (x :: seen)).length < (unmet nodes seen).length := by
  have heq : unmet nodes (x :: seen) = (unmet nodes seen).filter fun y => y ≠ x := by
    rw [unmet, unmet, filter_filter]
    exact filter_congr fun y _ => by simp
  rw [heq, length_filter_lt_length_iff_exists]
  exact ⟨x, mem_filter.mpr ⟨hx, decide_eq_true hnew⟩, by simp⟩

/-- A fold that lets each new node wait at most once does not raise the number of nodes that wait or
were not met. -/
theorem length_foldl {σ : Type*} (step : σ → α → σ) (seen waiting : σ → List α)
    (hold : ∀ s x, x ∈ seen s → step s x = s) (hnew : ∀ s x, x ∉ seen s → seen (step s x) = x :: seen s ∧
      (waiting (step s x)).length ≤ (waiting s).length + 1) {xs : List α} (hxs : xs ⊆ nodes) (s : σ) :
    (waiting (xs.foldl step s)).length + (unmet nodes (seen (xs.foldl step s))).length ≤
      (waiting s).length + (unmet nodes (seen s)).length := by
  induction xs generalizing s with
  | nil => exact Nat.le_refl _
  | cons x xs ih =>
    refine Nat.le_trans (ih (fun y hy => hxs (.tail _ hy)) _) ?_
    by_cases hseen : x ∈ seen s
    · exact Nat.le_of_eq (by rw [hold s x hseen])
    · obtain ⟨heq, hle⟩ := hnew s x hseen
      have hless := length_unmet_cons (hxs (.head _)) hseen
      rw [heq]
      omega

/-- With enough fuel, a search that returns nothing has no goal to find. -/
theorem shortestTo_eq_none (hnext : ∀ x, next x ⊆ nodes) (h : Layers next goal start (previous, queue) current [])
    (hfuel : queue.length + (unmet nodes (met previous)).length < fuel)
    (hnone : shortestTo next goal start fuel previous queue = none)
    (hpath : Path next start path x) (hne : x ≠ start) : goal x = false := by
  induction fuel generalizing previous queue current with
  | zero => omega
  | succ fuel ih =>
    cases queue with
    | nil =>
      refine Bool.eq_false_iff.mpr fun hgoal => ?_
      obtain ⟨y, hy, -⟩ := h.goal_le hpath hne hgoal
      cases hy
    | cons y queue =>
      rw [shortestTo] at hnone
      split_ifs at hnone with hgoal
      refine ih (h.scan hgoal) ?_ hnone
      have hcost := length_foldl (discover y) (fun s => met s.1) Prod.snd (fun s x hmem => if_pos hmem)
        (fun s x hmem => by rw [discover, if_neg hmem]; simp [met]) (hnext y) (previous, queue)
      rw [length_cons] at hfuel
      dsimp only at hcost
      omega

/-! ## Depth first, up to the goals -/

/-- The nodes that were seen, the stack with its top first, and the goals that were found. -/
structure Walked (α : Type*) where
  seen : List α
  stack : List α
  found : List α

variable {walked : Walked α}

/-- Look at a successor: a new goal is kept, another new node is pushed. -/
def look (goal : α → Bool) (walked : Walked α) (x : α) : Walked α :=
  if x ∈ walked.seen then walked
  else if goal x then ⟨x :: walked.seen, walked.stack, walked.found ++ [x]⟩
  else ⟨x :: walked.seen, x :: walked.stack, walked.found⟩

/-- The depth-first search that does not go on through a goal. -/
def goalsFrom (next : α → List α) (goal : α → Bool) : Nat → Walked α → List α
  | 0, walked => walked.found
  | fuel + 1, walked =>
    match walked.stack with
    | [] => walked.found
    | current :: stack => goalsFrom next goal fuel ((next current).foldl (look goal) { walked with stack })

/-- The node is reached through no goal. -/
def Inner (next : α → List α) (goal : α → Bool) (start x : α) : Prop :=
  Relation.ReflTransGen (fun a b => b ∈ next a ∧ goal b = false) start x

/-- The goal is reached through no other goal. -/
def Hit (next : α → List α) (goal : α → Bool) (start y : α) : Prop :=
  ∃ x, Inner next goal start x ∧ y ∈ next x ∧ goal y = true

omit [DecidableEq α] in
/-- A path to a goal meets a first one. -/
theorem exists_hit (h : Path next start path x) (hstart : goal start = false)
    (hgoal : goal x = true) : ∃ y, Hit next goal start y := by
  have hmeets : ∀ path x, Path next start path x →
      (Inner next goal start x ∧ goal x = false) ∨ ∃ y, Hit next goal start y := by
    intro path x hpath
    induction hpath with
    | refl => exact Or.inl ⟨.refl, hstart⟩
    | @step path x y _ hedge ih =>
      rcases ih with ⟨hinner, _⟩ | hhit
      · cases hy : goal y with
        | true => exact Or.inr ⟨y, x, hinner, hedge, hy⟩
        | false => exact Or.inl ⟨hinner.tail ⟨hedge, hy⟩, rfl⟩
      · exact Or.inr hhit
  rcases hmeets path x h with ⟨_, hnot⟩ | hhit
  · rw [hgoal] at hnot
    cases hnot
  · exact hhit

omit [DecidableEq α] in
theorem hit_congr (hnext : ∀ x y, y ∈ next x ↔ y ∈ next' x) (y : α) :
    Hit next goal start y ↔ Hit next' goal start y := by
  unfold Hit Inner
  simp only [hnext]

/-- The state of the search while it looks at the node `current` and has not looked at its successors in
`pending`: what it holds is reached, and the successors of the nodes it is done with were seen. -/
structure Explored (next : α → List α) (goal : α → Bool) (start : α) (walked : Walked α) (current : α)
    (pending : List α) : Prop where
  start_seen : start ∈ walked.seen
  inner : ∀ x ∈ walked.stack, Inner next goal start x
  hit : ∀ y ∈ walked.found, Hit next goal start y ∧ y ∈ walked.seen
  nodup : walked.found.Nodup
  kept : ∀ y ∈ walked.seen, goal y = true → y ∈ walked.found
  closed : ∀ x ∈ walked.seen, goal x = false → x ∈ walked.stack ∨
    ∀ y ∈ next x, y ∈ walked.seen ∨ (x = current ∧ y ∈ pending)

/-- Looking at a successor of the current node. -/
theorem Explored.look (h : Explored next goal start walked current (x :: pending))
    (hinner : Inner next goal start current) (hedge : x ∈ next current) :
    Explored next goal start (look goal walked x) current pending := by
  have hclosed : ∀ z ∈ walked.seen, goal z = false → z ∈ walked.stack ∨
      ∀ y ∈ next z, y ∈ x :: walked.seen ∨ (z = current ∧ y ∈ pending) := by
    intro z hz hnot
    refine (h.closed z hz hnot).imp_right fun hall y hy => ?_
    rcases hall y hy with hseen | ⟨hcurrent, hpending⟩
    · exact Or.inl (.tail _ hseen)
    · rcases mem_cons.mp hpending with rfl | hpending
      · exact Or.inl (.head _)
      · exact Or.inr ⟨hcurrent, hpending⟩
  have hhit : ∀ y ∈ walked.found, Hit next goal start y ∧ y ∈ x :: walked.seen := fun y hy =>
    ⟨(h.hit y hy).1, .tail _ (h.hit y hy).2⟩
  unfold Search.look
  split_ifs with hseen hgoal
  · refine { h with closed := fun z hz hnot => ?_ }
    refine (hclosed z hz hnot).imp_right fun hall y hy => (hall y hy).imp_left fun hmem => ?_
    rcases mem_cons.mp hmem with rfl | hmem
    · exact hseen
    · exact hmem
  · have hnew : x ∉ walked.found := fun hmem => hseen (h.hit x hmem).2
    refine ⟨.tail _ h.start_seen, h.inner, ?_,
      h.nodup.append (nodup_singleton x) (disjoint_singleton.mpr hnew), ?_,
      forall_mem_cons.mpr ⟨fun hnot => absurd hnot (by simp [hgoal]), hclosed⟩⟩
    · rw [forall_mem_append, forall_mem_singleton]
      exact ⟨hhit, ⟨current, hinner, hedge, hgoal⟩, mem_cons_self⟩
    · rw [forall_mem_cons]
      exact ⟨fun _ => mem_append_right _ (.head _),
        fun y hy htrue => mem_append_left _ (h.kept y hy htrue)⟩
  · have hnot : goal x = false := Bool.eq_false_iff.mpr hgoal
    refine ⟨.tail _ h.start_seen, ?_, hhit, h.nodup,
      forall_mem_cons.mpr ⟨fun htrue => absurd htrue hgoal, h.kept⟩, ?_⟩
    · exact forall_mem_cons.mpr ⟨hinner.tail ⟨hedge, hnot⟩, h.inner⟩
    · rw [forall_mem_cons]
      exact ⟨fun _ => .inl (.head _), fun z hz hz' =>
        (hclosed z hz hz').imp_left (mem_cons_of_mem _)⟩

/-- Looking at all successors of the current node. -/
theorem Explored.lookAll (h : Explored next goal start walked current pending)
    (hinner : Inner next goal start current) (hpending : pending ⊆ next current) :
    Explored next goal start (pending.foldl (Search.look goal) walked) current [] := by
  induction pending generalizing walked with
  | nil => exact h
  | cons x pending ih =>
    exact ih (h.look hinner (hpending (.head _))) fun y hy =>
      hpending (.tail _ hy)

omit [DecidableEq α] in
/-- Taking a node from the stack. -/
theorem Explored.pop {stack : List α} (h : Explored next goal start walked current [])
    (hstack : walked.stack = x :: stack) : Explored next goal start { walked with stack } x (next x) := by
  refine { h with
    inner := fun y hy => h.inner y (hstack ▸ .tail _ hy)
    closed := fun z hz hnot => ?_ }
  rcases h.closed z hz hnot with hmem | hall
  · rw [hstack] at hmem
    rcases mem_cons.mp hmem with rfl | hmem
    · exact Or.inr fun y hy => Or.inr ⟨rfl, hy⟩
    · exact Or.inl hmem
  · exact Or.inr fun y hy => Or.inl ((hall y hy).resolve_right (by simp))

omit [DecidableEq α] in
/-- The search starts with its first node, which is no goal. -/
theorem explored_start (hstart : goal start = false) :
    Explored next goal start ⟨[start], [start], []⟩ start [] where
  start_seen := .head _
  inner := forall_mem_singleton.mpr .refl
  hit := by simp
  nodup := nodup_nil
  kept := by simp [hstart]
  closed := fun x hx _ => Or.inl hx

/-- With enough fuel the search finds exactly the goals that are reached through no other goal. -/
theorem mem_goalsFrom_iff (hnext : ∀ x, next x ⊆ nodes) (hstart : goal start = false)
    (h : Explored next goal start walked current [])
    (hfuel : walked.stack.length + (unmet nodes walked.seen).length < fuel) :
    (goalsFrom next goal fuel walked).Nodup ∧
      ∀ y, y ∈ goalsFrom next goal fuel walked ↔ Hit next goal start y := by
  induction fuel generalizing walked current with
  | zero => omega
  | succ fuel ih =>
    rw [goalsFrom]
    cases hstack : walked.stack with
    | nil =>
      refine ⟨h.nodup, fun y => ⟨fun hy => (h.hit y hy).1, ?_⟩⟩
      have hsuccessors : ∀ x ∈ walked.seen, goal x = false → ∀ y ∈ next x, y ∈ walked.seen := by
        intro x hx hnot y hy
        have hall := (h.closed x hx hnot).resolve_left (by simp [hstack])
        exact (hall y hy).resolve_right (by simp)
      have hinside : ∀ x, Inner next goal start x → x ∈ walked.seen ∧ goal x = false := by
        intro x hinner
        induction hinner with
        | refl => exact ⟨h.start_seen, hstart⟩
        | tail _ hedge ih => exact ⟨hsuccessors _ ih.1 ih.2 _ hedge.1, hedge.2⟩
      rintro ⟨x, hinner, hedge, hgoal⟩
      obtain ⟨hseen, hnot⟩ := hinside x hinner
      exact h.kept y (hsuccessors x hseen hnot y hedge) hgoal
    | cons x stack =>
      refine ih ((h.pop hstack).lookAll (h.inner x (hstack ▸ (.head _))) (List.Subset.refl _)) ?_
      have hcost := length_foldl (look goal) Walked.seen Walked.stack (fun s x hmem => if_pos hmem)
        (fun s x hmem => by rw [look, if_neg hmem]; split <;> simp) (hnext x) { walked with stack }
      rw [hstack, length_cons] at hfuel
      dsimp only at hcost
      omega

end Searching

end Search
