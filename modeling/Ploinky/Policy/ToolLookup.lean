import Ploinky.Policy.Tools

/-!
# Exactness of the tool policy

The index joins an agent and a tool by a space, so that two pairs may have one key. Read
`tool_policy_exact_iff` first: every lookup, decision and bootstrap is by the own entry of the pair
exactly when no entry has a name with a space and no two defaults share a key. With a space in a name,
a tool without an entry is decided by the entry of another one (`tool_decided_by_other_entry`).
-/

namespace Ploinky.ToolPolicy

open Js List

/-! ## Keys -/

theorem append_space_inj {agent tool agent' tool' : Str} (hagent : ' ' ∉ agent) (htool : ' ' ∉ tool)
    (h : agent ++ ' ' :: tool = agent' ++ ' ' :: tool') : agent = agent' ∧ tool = tool' := by
  induction agent generalizing agent' with
  | nil =>
    cases agent' with
    | nil => exact ⟨rfl, (cons.inj h).2⟩
    | cons c rest =>
      -- The other agent would put its space into the tool.
      have hsplit : tool = rest ++ ' ' :: tool' := (cons.inj h).2
      exact absurd (by rw [hsplit]; simp) htool
  | cons c rest ih =>
    cases agent' with
    | nil => exact absurd (mem_cons.mpr (.inl (cons.inj h).1.symm)) hagent
    | cons c' rest' =>
      obtain ⟨hc, hrest⟩ := cons.inj h
      obtain ⟨hsame, htools⟩ := ih (fun hmem => hagent (.tail _ hmem)) hrest
      exact ⟨by rw [hc, hsame], htools⟩

variable {pair : Str × Str} {entry : Json} {seen : List Str} {d : ToolDefault}

/-- Two names without spaces can be read back from their key. -/
theorem toolKey_inj {other : Str × Str} (hfirst : ' ' ∉ pair.1) (hsecond : ' ' ∉ pair.2)
    (h : toolKey pair = toolKey other) : pair = other := by
  obtain ⟨hagent, htool⟩ := append_space_inj hfirst hsecond h
  exact Prod.ext hagent htool

/-- A name with a space gives another pair with the same key. -/
theorem exists_toolKey_eq (h : ' ' ∈ pair.1 ∨ ' ' ∈ pair.2) :
    ∃ other, other ≠ pair ∧ toolKey other = toolKey pair := by
  obtain ⟨agent, tool⟩ := pair
  rcases h with h | h
  · obtain ⟨before, after, hsplit⟩ := append_of_mem h
    have hagent : agent = before ++ ' ' :: after := hsplit
    refine ⟨(before, after ++ ' ' :: tool), fun heq => ?_, ?_⟩
    · have hlength := congrArg (fun p : Str × Str => p.1.length) heq
      simp [hagent] at hlength
    · simp [toolKey, hagent]
  · obtain ⟨before, after, hsplit⟩ := append_of_mem h
    have htool : tool = before ++ ' ' :: after := hsplit
    refine ⟨(agent ++ ' ' :: before, after), fun heq => ?_, ?_⟩
    · have hlength := congrArg (fun p : Str × Str => p.1.length) heq
      simp at hlength
    · simp [toolKey, htool]

/-! ## The index -/

/-- The last entry with the key is found. -/
theorem get_foldl_set (entries : List Json) (index : OrderedMap Str Json) (key : Str) :
    (entries.foldl (fun index entry => index.set (toolKey (entryPair entry)) entry) index).get key =
      ((entries.filter fun entry => toolKey (entryPair entry) = key).getLast?).or (index.get key) := by
  induction entries generalizing index with
  | nil => rfl
  | cons entry rest ih =>
    rw [foldl_cons, ih, OrderedMap.get_set, filter_cons]
    by_cases hkey : toolKey (entryPair entry) = key
    · simp only [hkey, decide_true, if_true, getLast?_cons]
      cases (rest.filter fun entry => toolKey (entryPair entry) = key).getLast? <;> rfl
    · simp [hkey, Ne.symm hkey]

theorem get_buildIndex (state : PolicyState) (key : Str) : (buildIndex state).get key =
      (state.mcpTools.filter fun entry => toolKey (entryPair entry) = key).getLast? := by
  unfold buildIndex
  rw [get_foldl_set, OrderedMap.get_empty, Option.or_none]

/-- An entry's key is found. -/
theorem exists_get_buildIndex {state : PolicyState} (h : entry ∈ state.mcpTools) :
    ∃ found, (buildIndex state).get (toolKey (entryPair entry)) = some found := by
  rw [get_buildIndex]
  have hmem : entry ∈ state.mcpTools.filter fun other =>
      toolKey (entryPair other) = toolKey (entryPair entry) := mem_filter.mpr ⟨h, by simp⟩
  exact ⟨_, getLast?_eq_some_getLast (ne_nil_of_mem hmem)⟩

/-! ## The own entry of a pair -/

/-- The entry of an agent and a tool, by their names. -/
def PolicyState.ownEntry (state : PolicyState) (pair : Str × Str) : Option Json :=
  state.mcpTools.find? fun entry => entryPair entry = pair

/-- No entry of the state has a name with a space. -/
def PolicyState.Plain (state : PolicyState) : Prop :=
  ∀ entry ∈ state.mcpTools, ' ' ∉ (entryPair entry).1 ∧ ' ' ∉ (entryPair entry).2

variable {state : PolicyState}

theorem ownEntry_eq_some (hdistinct : (state.mcpTools.map entryPair).Nodup) (h : entry ∈ state.mcpTools) :
    state.ownEntry (entryPair entry) = some entry := by
  unfold PolicyState.ownEntry
  cases hfound : state.mcpTools.find? fun other => entryPair other = entryPair entry with
  | none =>
    have hnone := find?_eq_none.mp hfound entry h
    simp at hnone
  | some found =>
    have hpair : entryPair found = entryPair entry := by simpa using find?_some hfound
    rw [inj_on_of_nodup_map hdistinct (mem_of_find?_eq_some hfound) h hpair]

theorem mem_of_ownEntry (h : state.ownEntry pair = some entry) :
    entry ∈ state.mcpTools ∧ entryPair entry = pair :=
  ⟨mem_of_find?_eq_some h, by simpa using find?_some h⟩

/-- Without spaces a key is found exactly as its own entry. -/
theorem get_buildIndex_of_plain (hplain : state.Plain)
    (hdistinct : (state.mcpTools.map entryPair).Nodup) (pair : Str × Str) :
    (buildIndex state).get (toolKey pair) = state.ownEntry pair := by
  cases hfound : (buildIndex state).get (toolKey pair) with
  | some entry =>
    rw [get_buildIndex] at hfound
    obtain ⟨hmem, hkey⟩ := mem_filter.mp (mem_of_getLast? hfound)
    replace hkey := of_decide_eq_true hkey
    have hspaces := hplain entry hmem
    rw [← toolKey_inj hspaces.1 hspaces.2 hkey]
    exact (ownEntry_eq_some hdistinct hmem).symm
  | none =>
    cases hown : state.ownEntry pair with
    | none => rfl
    | some entry =>
      obtain ⟨hmem, hpair⟩ := mem_of_ownEntry hown
      obtain ⟨found, hget⟩ := exists_get_buildIndex hmem
      rw [hpair, hfound] at hget
      cases hget

/-- Exact lookups leave no room for a name with a space. -/
theorem plain_of_exact (hdistinct : (state.mcpTools.map entryPair).Nodup)
    (hexact : ∀ pair, (buildIndex state).get (toolKey pair) = state.ownEntry pair) : state.Plain := by
  intro entry hmem
  by_contra hspace
  have hspaces : ' ' ∈ (entryPair entry).1 ∨ ' ' ∈ (entryPair entry).2 := by tauto
  obtain ⟨other, hne, hkey⟩ := exists_toolKey_eq hspaces
  have hown := ownEntry_eq_some hdistinct hmem
  -- The two pairs are looked up under one key, but only one of them is the entry's.
  rw [← hexact, ← hkey, hexact] at hown
  exact hne (mem_of_ownEntry hown).2.symm

/-! ## Loads -/

/-- The cache does not change what is loaded. -/
theorem load_fst (repo : Repository) : repo.load.1 = repo.store.view := by
  unfold Repository.load
  cases hversion : repo.store.version with
  | none => rfl
  | some version =>
    cases version with
    | none => rfl
    | some version =>
      cases hcache : repo.cache with
      | none => rfl
      | some loaded =>
        dsimp only
        split_ifs with hkey
        · exact repo.coherent loaded version hcache hversion hkey
        · rfl

/-- The store of the repository holds a valid document with the state. -/
def Repository.Holds (repo : Repository) (state : PolicyState) : Prop :=
  ∃ version document, repo.store = ⟨some (some version), some document⟩ ∧
    validateState document = .ok state

theorem Repository.Holds.load {repo : Repository} (h : repo.Holds state) : repo.load.1 = .ok state := by
  obtain ⟨version, document, hstore, hvalid⟩ := h
  rw [load_fst, hstore, Store.view]
  simp only [hvalid]

theorem validateState_eq_ok {document : Json} (h : validateState document = .ok state) :
    (∀ entry ∈ state.mcpTools, isToolEntry entry = true) ∧
      ∀ entry ∈ state.httpRoutes, isRouteEntry entry = true := by
  unfold validateState at h
  split_ifs at h with hschema
  split at h
  · split_ifs at h with htools hroutes
    cases h
    exact ⟨all_eq_true.mp htools, all_eq_true.mp hroutes⟩
  · cases h

theorem validateState_toJson (htools : ∀ entry ∈ state.mcpTools, isToolEntry entry = true)
    (hroutes : ∀ entry ∈ state.httpRoutes, isRouteEntry entry = true) :
    validateState state.toJson = .ok state := by
  have hschema : isStr (state.toJson.prop "schema") "router-policy" = true := by
    simp [PolicyState.toJson, Json.prop, isStr]
  have hfields : arrayItems (state.toJson.prop "httpRoutes") = some state.httpRoutes ∧
      arrayItems (state.toJson.prop "mcpTools") = some state.mcpTools := by
    constructor <;> rfl
  unfold validateState
  rw [if_pos hschema, hfields.1, hfields.2]
  simp only [all_eq_true.mpr htools, all_eq_true.mpr hroutes, if_true]

/-! ## Bootstrap -/

theorem mem_newDefaults {defaults : List ToolDefault} (h : d ∈ newDefaults seen defaults) :
    d ∈ defaults ∧ toolKey d.pair ∉ seen := by
  induction defaults generalizing seen with
  | nil => cases h
  | cons first rest ih =>
    unfold newDefaults at h
    split_ifs at h with hseen
    · exact ⟨.tail _ (ih h).1, (ih h).2⟩
    · rcases mem_cons.mp h with rfl | h
      · exact ⟨.head _, hseen⟩
      · exact ⟨.tail _ (ih h).1, fun hmem => (ih h).2 (.tail _ hmem)⟩

theorem nodup_newDefaults (seen : List Str) (defaults : List ToolDefault) :
    ((newDefaults seen defaults).map fun d => toolKey d.pair).Nodup := by
  induction defaults generalizing seen with
  | nil => exact nodup_nil
  | cons first rest ih =>
    unfold newDefaults
    split_ifs with hseen
    · exact ih seen
    · rw [map_cons, nodup_cons]
      refine ⟨fun hmem => ?_, ih _⟩
      obtain ⟨d, hd, hkey⟩ := mem_map.mp hmem
      exact (mem_newDefaults hd).2 (hkey ▸ (.head _))

/-- A key that is not seen is added. -/
theorem exists_mem_newDefaults {defaults : List ToolDefault} (hmem : d ∈ defaults)
    (hseen : toolKey d.pair ∉ seen) :
    ∃ added ∈ newDefaults seen defaults, toolKey added.pair = toolKey d.pair := by
  induction defaults generalizing seen with
  | nil => cases hmem
  | cons first rest ih =>
    unfold newDefaults
    rcases mem_cons.mp hmem with rfl | hmem
    · rw [if_neg hseen]
      exact ⟨d, mem_cons_self, rfl⟩
    · split_ifs with hfirst
      · exact ih hmem hseen
      · by_cases hkey : toolKey d.pair = toolKey first.pair
        · exact ⟨first, mem_cons_self, hkey.symm⟩
        · obtain ⟨added, hadded, heq⟩ := ih hmem (not_mem_cons_of_ne_of_not_mem hkey hseen)
          exact ⟨added, .tail _ hadded, heq⟩

theorem isToolEntry_bootEntry (now : Str) (d : ToolDefault) : isToolEntry (bootEntry now d) = true := by
  have hagent : isNonEmptyText ((bootEntry now d).prop "agent") = true := by
    show (!d.agent.isEmpty) = true
    simpa using d.agent_ne
  have htool : isNonEmptyText ((bootEntry now d).prop "tool") = true := by
    show (!d.tool.isEmpty) = true
    simpa using d.tool_ne
  have haccess : (accessValues.any fun access =>
      isStr ((bootEntry now d).prop "access") access.text) = true := by
    show (accessValues.any fun access => some (Json.str d.access.text) == some (.str access.text)) = true
    cases d.access <;> decide
  unfold isToolEntry
  rw [hagent, htool, haccess]
  rfl

theorem mem_keys_iff (hplain : state.Plain) :
    toolKey pair ∈ (state.mcpTools.map fun entry => toolKey (entryPair entry)) ↔
      pair ∈ state.mcpTools.map entryPair := by
  rw [mem_map, mem_map]
  constructor
  · intro ⟨entry, hmem, hkey⟩
    exact ⟨entry, hmem, toolKey_inj (hplain entry hmem).1 (hplain entry hmem).2 hkey⟩
  · intro ⟨entry, hmem, hpair⟩
    exact ⟨entry, hmem, congrArg toolKey hpair⟩

/-- The defaults of a list share a key only when they are for one pair. -/
def KeysApart (defaults : List ToolDefault) : Prop :=
  ∀ d ∈ defaults, ∀ d' ∈ defaults, toolKey d.pair = toolKey d'.pair → d.pair = d'.pair

/-- The bootstrap adds an entry for each default pair that had none, and changes nothing else. -/
def Bootstrapped (repo : Repository) (state : PolicyState) (now version : Str)
    (defaults : List ToolDefault) : Prop :=
  ∃ added, (bootstrapDefaults repo now version defaults).2.load.1 =
      .ok ⟨state.httpRoutes, state.mcpTools ++ added⟩ ∧
    (added.map entryPair).Nodup ∧
    (∀ entry ∈ added, ∃ d ∈ defaults, entry = bootEntry now d) ∧
    ∀ pair, pair ∈ added.map entryPair ↔
      pair ∈ defaults.map ToolDefault.pair ∧ pair ∉ state.mcpTools.map entryPair

variable {repo : Repository} {now version : Str} {defaults : List ToolDefault}

/-- The bootstrap persists the state of its updater. -/
theorem holds_bootstrapDefaults (h : repo.Holds state) (now version : Str) (defaults : List ToolDefault) :
    (bootstrapDefaults repo now version defaults).2.Holds (addDefaults now defaults state) := by
  have hload := h.load
  unfold bootstrapDefaults
  cases defaults with
  | nil => simpa [addDefaults, missingDefaults, newDefaults] using h
  | cons d rest =>
    obtain ⟨_, document, _, hvalid⟩ := h
    obtain ⟨htools, hroutes⟩ := validateState_eq_ok hvalid
    have hadded : validateState (addDefaults now (d :: rest) state).toJson =
        .ok (addDefaults now (d :: rest) state) := by
      refine validateState_toJson (fun entry hentry => ?_) hroutes
      rcases mem_append.mp hentry with hentry | hentry
      · exact htools entry hentry
      · obtain ⟨missing, -, rfl⟩ := mem_map.mp hentry
        exact isToolEntry_bootEntry now missing
    rw [if_neg (by simp)]
    unfold Repository.mutate
    generalize repo.load = loaded at hload ⊢
    obtain ⟨loaded, repo'⟩ := loaded
    obtain rfl : loaded = .ok state := hload
    simp only [hadded]
    exact ⟨version, _, rfl, hadded⟩

theorem bootstrapped_of_apart (h : repo.Holds state) (hplain : state.Plain)
    (hapart : KeysApart defaults) : Bootstrapped repo state now version defaults := by
  have hpairs : ((missingDefaults state defaults).map (bootEntry now)).map entryPair =
      (missingDefaults state defaults).map ToolDefault.pair := by
    rw [map_map]
    rfl
  refine ⟨(missingDefaults state defaults).map (bootEntry now),
    (holds_bootstrapDefaults h now version defaults).load, ?_, ?_, fun pair => ?_⟩
  · rw [hpairs]
    have hkeys := nodup_newDefaults (state.mcpTools.map fun entry => toolKey (entryPair entry)) defaults
    exact List.Nodup.of_map toolKey (by rwa [map_map])
  · intro entry hentry
    obtain ⟨d, hd, rfl⟩ := mem_map.mp hentry
    exact ⟨d, (mem_newDefaults hd).1, rfl⟩
  · rw [hpairs, mem_map, mem_map]
    constructor
    · intro ⟨d, hd, hpair⟩
      obtain ⟨hmem, hkey⟩ := mem_newDefaults hd
      exact ⟨⟨d, hmem, hpair⟩, fun hold => hkey ((mem_keys_iff hplain).mpr (hpair ▸ hold))⟩
    · intro ⟨⟨d, hd, hpair⟩, hnew⟩
      have hkey := mt (mem_keys_iff hplain).mp (hpair ▸ hnew)
      obtain ⟨added, hadded, hsame⟩ := exists_mem_newDefaults hd hkey
      exact ⟨added, hadded, (hapart added (mem_newDefaults hadded).1 d hd hsame).trans hpair⟩

theorem apart_of_bootstrapped (h : repo.Holds state) (hplain : state.Plain)
    (hboot : Bootstrapped repo state now version defaults) : KeysApart defaults := by
  obtain ⟨added, hload, -, -, hpairs⟩ := hboot
  rw [(holds_bootstrapDefaults h _ _ _).load] at hload
  have hadded : (missingDefaults state defaults).map (bootEntry now) = added := by
    have htools := congrArg PolicyState.mcpTools (Loaded.ok.inj hload)
    exact append_cancel_left htools
  intro d hd d' hd' hkey
  by_contra hne
  -- Neither pair has an entry, since a key of a plain entry is the key of one pair only.
  have hnew : ∀ x ∈ defaults, ∀ y ∈ defaults, toolKey x.pair = toolKey y.pair → x.pair ≠ y.pair →
      ∃ missing ∈ missingDefaults state defaults, missing.pair = x.pair := by
    intro x hx y _ hkey hne
    have hold : x.pair ∉ state.mcpTools.map entryPair := by
      intro hmem
      obtain ⟨entry, hentry, hpair⟩ := mem_map.mp hmem
      have hspaces := hplain entry hentry
      rw [hpair] at hspaces
      exact hne (toolKey_inj hspaces.1 hspaces.2 hkey)
    have hmem := (hpairs x.pair).mpr ⟨mem_map_of_mem hx, hold⟩
    rw [← hadded, map_map, mem_map] at hmem
    exact hmem
  obtain ⟨x, hx, hxpair⟩ := hnew d hd d' hd' hkey hne
  obtain ⟨y, hy, hypair⟩ := hnew d' hd' d hd hkey.symm (Ne.symm hne)
  have hsame := inj_on_of_nodup_map (nodup_newDefaults _ defaults) hx hy
    (by rw [hxpair, hypair, hkey])
  exact hne (by rw [← hxpair, ← hypair, hsame])

/-! ## The decisions -/

/-- Every lookup is that of the pair's own entry, every decision is made by it, a tool without one is
denied, the filter keeps what is allowed, and the bootstrap adds what is missing. -/
structure Exact (repo : Repository) (state : PolicyState) (now version : Str)
    (defaults : List ToolDefault) : Prop where
  lookup : ∀ agent tool, (repo.getMcpToolEntry agent tool).1 = state.ownEntry (agent, tool)
  decision : ∀ agent tool caller, (evaluate repo agent tool caller).1 =
    decideEntry (state.ownEntry (agent, tool)) tool caller
  denial : ∀ agent tool caller, state.ownEntry (agent, tool) = none →
    (evaluate repo agent tool caller).1.allow = false
  filter : ∀ agent tools caller, (filterTools repo agent tools caller).1 =
    tools.filter fun tool => (evaluate repo agent (toolName tool) caller).1.allow
  bootstrap : Bootstrapped repo state now version defaults

theorem getMcpToolEntry_fst (h : repo.Holds state) (agent tool : Str) :
    (repo.getMcpToolEntry agent tool).1 = (buildIndex state).get (toolKey (agent, tool)) := by
  show repo.load.1.entry (agent, tool) = _
  rw [h.load]
  rfl

/-- No entry is for a tool without a name. -/
theorem ownEntry_unnamed (h : repo.Holds state) (agent : Str) : state.ownEntry (agent, []) = none := by
  obtain ⟨_, document, _, hvalid⟩ := h
  cases hown : state.ownEntry (agent, []) with
  | none => rfl
  | some entry =>
    obtain ⟨hmem, hpair⟩ := mem_of_ownEntry hown
    have hvalid := (validateState_eq_ok hvalid).1 entry hmem
    have htool : propText entry "tool" = [] := congrArg Prod.snd hpair
    unfold isToolEntry at hvalid
    simp only [Bool.and_eq_true] at hvalid
    have hnonempty := hvalid.1.2
    unfold isNonEmptyText at hnonempty
    unfold propText at htool
    split at hnonempty
    · rename_i text htext
      rw [htext] at htool
      have hempty : text = [] := htool
      simp [hempty] at hnonempty
    · cases hnonempty

/-- The policy is exact when, and only when, no entry has a name with a space and no two defaults of
different pairs share a key. -/
theorem tool_policy_exact_iff (repo : Repository) (state : PolicyState) (now version : Str)
    (defaults : List ToolDefault) (h : repo.Holds state) (hdistinct : (state.mcpTools.map entryPair).Nodup) :
    Exact repo state now version defaults ↔ state.Plain ∧ KeysApart defaults := by
  constructor
  · intro hexact
    have hplain : state.Plain := plain_of_exact hdistinct fun pair => by
      rw [← hexact.lookup, getMcpToolEntry_fst h]
    exact ⟨hplain, apart_of_bootstrapped h hplain hexact.bootstrap⟩
  · intro ⟨hplain, hapart⟩
    have hlookup : ∀ agent tool, (repo.getMcpToolEntry agent tool).1 = state.ownEntry (agent, tool) :=
      fun agent tool => (getMcpToolEntry_fst h agent tool).trans
        (get_buildIndex_of_plain hplain hdistinct (agent, tool))
    have hdecision : ∀ agent tool caller, (evaluate repo agent tool caller).1 =
        decideEntry (state.ownEntry (agent, tool)) tool caller := by
      intro agent tool caller
      show decideEntry (repo.getMcpToolEntry agent tool).1 tool caller = _
      rw [hlookup]
    refine ⟨hlookup, hdecision, fun agent tool caller hnone => ?_, fun agent tools caller => ?_,
      bootstrapped_of_apart h hplain hapart⟩
    · rw [hdecision, hnone]
      rfl
    · unfold filterTools
      cases tools with
      | nil => rfl
      | cons tool rest =>
        refine filter_congr fun other _ => ?_
        by_cases hname : toolName other = []
        · rw [hname, hdecision, ownEntry_unnamed h]
          rfl
        · have hnonempty : (toolName other).isEmpty = false := by simpa using hname
          rw [hnonempty]
          rfl

/-- A state with one tool that every session may use. -/
def openTool (agent tool : Str) : PolicyState :=
  ⟨[], [.obj [(lit "agent", .str agent), (lit "tool", .str tool),
    (lit "access", .str "authenticated")]]⟩

/-- The repository of a state that was just written. -/
def repositoryOf (state : PolicyState) : Repository := .written state.toJson "1:1"

/-- Two defaults: one for the tool that has an entry, one for another tool. -/
def twoDefaults : List ToolDefault :=
  [⟨lit "files", lit "read", .admin, by decide, by decide⟩,
    ⟨lit "files", lit "write", .admin, by decide, by decide⟩]

theorem tool_policy_exact_iff_files :
    (validateState (openTool "files" "read").toJson = .ok (openTool "files" "read") ∧
      (bootstrapDefaults (repositoryOf (openTool "files" "read")) [] "2:2" twoDefaults).1 = 1) ∧
    Exact (repositoryOf (openTool "files" "read")) (openTool "files" "read") [] "2:2" twoDefaults := by
  refine ⟨⟨by decide +kernel, by decide +kernel⟩, ?_⟩
  refine (tool_policy_exact_iff _ _ _ _ _ ⟨lit "1:1", _, rfl, by decide +kernel⟩
    (by decide +kernel)).mpr ⟨?_, ?_⟩
  · unfold PolicyState.Plain
    decide +kernel
  · unfold KeysApart
    decide +kernel

/-- The tool `b c` of the agent `a` has no entry, but it is allowed by the entry of the tool `c` of the
agent `a b`; and of two defaults with one key only the first one is added. -/
theorem tool_decided_by_other_entry : validateState (openTool "a b" "c").toJson = .ok (openTool "a b" "c") ∧
      ((openTool "a b" "c").mcpTools.map entryPair).Nodup ∧
      (openTool "a b" "c").ownEntry (lit "a", lit "b c") = none ∧
      (evaluate (repositoryOf (openTool "a b" "c")) "a" "b c"
        (.obj [(lit "kind", .str "user")])).1.allow = true ∧
      (bootstrapDefaults (repositoryOf ⟨[], []⟩) [] "2:2" [⟨lit "a b", lit "c", .admin, by decide, by decide⟩,
          ⟨lit "a", lit "b c", .admin, by decide, by decide⟩]).1 = 1 := by
  decide +kernel

/-- A persisted entry wins: over any boots, each with its time, version and defaults, the entry that decides
a tool stays. -/
theorem persisted_entry_wins (h : repo.Holds state) (boots : List (Str × Str × List ToolDefault))
    {agent tool : Str} (hentry : (repo.getMcpToolEntry agent tool).1 = some entry) :
    ((boots.foldl (fun repo boot => (bootstrapDefaults repo boot.1 boot.2.1 boot.2.2).2) repo).getMcpToolEntry
      agent tool).1 = some entry := by
  induction boots generalizing repo state with
  | nil => exact hentry
  | cons boot boots ih =>
    have hboot := holds_bootstrapDefaults h boot.1 boot.2.1 boot.2.2
    rw [getMcpToolEntry_fst h, get_buildIndex] at hentry
    obtain ⟨hmem, hkey⟩ := mem_filter.mp (mem_of_getLast? hentry)
    refine ih hboot ?_
    rw [getMcpToolEntry_fst hboot, get_buildIndex, addDefaults, filter_append, getLast?_append, hentry]
    -- the key of the tool is seen, so that no default with it is added
    rw [filter_eq_nil_iff.mpr]
    · rfl
    intro added hadded hsame
    obtain ⟨d, hd, rfl⟩ := mem_map.mp hadded
    exact (mem_newDefaults hd).2 (mem_map.mpr ⟨entry, hmem,
      (of_decide_eq_true hkey).trans (of_decide_eq_true hsame).symm⟩)

theorem persisted_entry_wins_files :
    let state := openTool "files" "read"
    ((bootstrapDefaults (repositoryOf state) [] "2:2" twoDefaults).2.getMcpToolEntry "files" "read").1 =
      state.mcpTools.head? := by
  intro state
  have h : (repositoryOf state).Holds state := ⟨lit "1:1", _, rfl, by decide +kernel⟩
  exact persisted_entry_wins h [([], "2:2", twoDefaults)] (by decide +kernel)

end Ploinky.ToolPolicy
