import Ploinky.Js.Plain
import Ploinky.RoutePlan.Resolve

/-!
# No plan dials an unavailable agent

Each kind of plan comes from one function, whatever path of the planner led to it. `Produced` says so,
and the specifications of `agentRootPlan` and `agentPortPlan` say what those functions have checked.
Together they give `resolveEdgeRoutePlan_dials_available`: a plan that dials an agent names a route
of the generation that is enabled, not draining and available.
-/

namespace Ploinky.RoutePlan

open Js Policy Manifest AgentPort Edge List Option

/-! ## Routes -/

variable {table : Table Json} {key rootRouteKey : Str} {value : Json} {α : Type} {rootMount : Bool}
  {available : List Str}

/-- A property is an own one, or an inherited one. -/
theorem objectAt_eq_some :
    objectAt table key = some value ↔ table.lookup key = some value ∨
      table.lookup key = none ∧ key ∈ inheritedNames ∧ value = .obj [] := by
  unfold objectAt Js.read
  cases table.lookup key <;> simp [eq_comm]

/-- A property that is not inherited is an own one. -/
theorem lookup_of_objectAt (h : objectAt table key = some value) (hne : value ≠ .obj []) :
    table.lookup key = some value :=
  (objectAt_eq_some.mp h).resolve_right fun hinherited => hne hinherited.2.2

variable {routes : Table Json} {routeKey pathname requestTarget : Str} {agent : AgentPath}
  {selectedRoot : Option HostRecord} {agentMcpRoutes : List Str} {ctx : Context} {router : Router}
  {plan : AgentRootPlan}

/-- What `exactRoute` checks. -/
theorem exactRoute_eq_some {selected : Selected} : exactRoute routes routeKey = some selected ↔
      selected.routeKey = routeKey ∧ objectAt routes routeKey = some selected.route ∧
        isEnabled selected.route = true ∧ truthy (selected.route.prop "draining") = false := by
  unfold exactRoute
  cases objectAt routes routeKey with
  | none => simp
  | some route =>
    constructor
    · intro h
      simp only [ite_none_right_eq_some, Bool.and_eq_true, Bool.not_eq_true',
        some.injEq] at h
      obtain ⟨⟨henabled, hdraining⟩, rfl⟩ := h
      exact ⟨rfl, rfl, henabled, hdraining⟩
    · rintro ⟨rfl, hroute, henabled, hdraining⟩
      simp only [some.injEq] at hroute
      simp [hroute, henabled, hdraining]

/-- The route of a lease exists, is neither disabled nor draining, and its agent is available. -/
def Available (lease : Lease) (routeKey : Str) : Prop :=
  ∃ route, (routesOf lease.snapshot.routing).lookup routeKey = some route ∧
    isEnabled route = true ∧ truthy (route.prop "draining") = false ∧
    leaseRouteHardwareAvailability lease routeKey = none

/-! ## The root path of an agent -/

/-- A path of the root of a host names its owner. -/
theorem resolveRootAgentPath_spec (h : resolveRootAgentPath pathname routes rootRouteKey = some agent) :
    exactRoute routes rootRouteKey = some agent.toSelected := by
  unfold resolveRootAgentPath at h
  simp only [bind_eq_bind, bind_eq_some_iff] at h
  obtain ⟨selected, hselected, explicit, -, h⟩ := h
  split_ifs at h <;> rw [hselected, ← some.inj h]

/-- A direct path names the agent of its first segment. -/
theorem resolveDirectAgentPath_eq_some : resolveDirectAgentPath pathname routes = some agent ↔
      firstSegment pathname = some agent.routeKey ∧ exactRoute routes agent.routeKey = some agent.toSelected ∧
        agent.canonicalPath = pathname ∧ agent.upstreamPath = upstreamOf pathname := by
  unfold resolveDirectAgentPath
  simp only [Option.bind_eq_bind, Option.bind_eq_some_iff, Option.pure_def, Option.some.injEq]
  constructor
  · rintro ⟨routeKey, hfirst, selected, hselected, rfl⟩
    have hkey := (exactRoute_eq_some.mp hselected).1
    exact ⟨hkey ▸ hfirst, hkey ▸ hselected, rfl, rfl⟩
  · rintro ⟨hfirst, hselected, hcanonical, hupstream⟩
    exact ⟨agent.routeKey, hfirst, agent.toSelected, hselected, by rw [← hupstream, ← hcanonical]⟩

/-- A draining route is found only by its own path. -/
theorem resolveDrainingAgentPath_spec (h : resolveDrainingAgentPath pathname routes = some agent) :
    firstSegment pathname = some agent.routeKey ∧
      routes.lookup agent.routeKey = some agent.route ∧ isEnabled agent.route = true ∧
      agent.route.prop "draining" = some (.bool true) ∧ agent.canonicalPath = pathname := by
  unfold resolveDrainingAgentPath at h
  simp only [Option.bind_eq_bind, Option.bind_eq_some_iff, Option.pure_def,
    ite_none_right_eq_some, Bool.and_eq_true, beq_iff_eq, some.injEq] at h
  obtain ⟨routeKey, hfirst, route, hroute, ⟨henabled, hdraining⟩, rfl⟩ := h
  exact ⟨hfirst, hroute, henabled, hdraining, rfl⟩

/-- The agent of the root of a host is its owner, the agent of another path is named by the path. -/
theorem Context.agentOf_cases (h : ctx.agentOf selectedRoot = some agent) :
    (∃ record, selectedRoot = some record ∧
      resolveRootAgentPath ctx.pathname ctx.routes record.routeKey = some agent) ∨
    selectedRoot = none ∧ (resolveDirectAgentPath ctx.pathname ctx.routes = some agent ∨
      resolveDrainingAgentPath ctx.pathname ctx.routes = some agent) := by
  unfold agentOf resolveAgentPath at h
  cases selectedRoot with
  | some record => exact .inl ⟨record, rfl, by cases hroot : resolveRootAgentPath .. <;> simp_all⟩
  | none => exact .inr ⟨rfl, by cases hdirect : resolveDirectAgentPath .. <;> simp_all⟩

/-- The agent of a plan is one `exactRoute` admits, or a draining one that its own path names. -/
theorem Context.agentOf_spec (h : ctx.agentOf selectedRoot = some agent) :
    exactRoute ctx.routes agent.routeKey = some agent.toSelected ∨
      agent.route.prop "draining" = some (.bool true) := by
  obtain ⟨record, -, hroot⟩ | ⟨-, hdirect | hdraining⟩ := agentOf_cases h
  · have hexact := resolveRootAgentPath_spec hroot
    rw [← (exactRoute_eq_some.mp hexact).1] at hexact
    exact .inl hexact
  · exact .inl (resolveDirectAgentPath_eq_some.mp hdirect).2.1
  · exact .inr (resolveDrainingAgentPath_spec hdraining).2.2.2.1

/-- A pending plan dials nothing. -/
theorem Context.pendingPlan_eq_ok {decision : Decision} {forwarding : Forwarding}
    {code : Str} {hardware : Option Json}
    (h : ctx.pendingPlan agent decision forwarding code hardware = .ok plan) :
    plan = ctx.rootPlanOf agent decision forwarding (.pending code hardware) := by
  unfold pendingPlan at h
  split_ifs at h
  exact (Except.ok.inj h).symm

/-- What `agentRootPlan` has established when it returns a plan: the agent of the path, and for an
active target that the agent can be dialled. -/
theorem Context.agentRootPlan_spec
    (h : ctx.agentRootPlan router selectedRoot = .ok plan) :
    ∃ agent decision forwarding target, ctx.agentOf selectedRoot = some agent ∧
      plan = ctx.rootPlanOf agent decision forwarding target ∧ ∀ hostPort, target = .active hostPort →
        leaseRouteHardwareAvailability ctx.lease agent.routeKey = none ∧
          agent.route.prop "draining" ≠ some (.bool true) ∧
          servicePort router.platform (agent.route.prop "hostPort") = some hostPort := by
  unfold agentRootPlan at h
  split at h
  · cases h
  rename_i agent hagent
  simp only [bind_eq_ok] at h
  obtain ⟨forwarding, -, h⟩ := h
  split at h
  · exact ⟨agent, _, _, _, hagent, pendingPlan_eq_ok h, fun _ htarget => nomatch htarget⟩
  rename_i hhardware
  split_ifs at h with hdraining
  · exact ⟨agent, _, _, _, hagent, pendingPlan_eq_ok h, fun _ htarget => nomatch htarget⟩
  split at h
  · exact ⟨agent, _, _, _, hagent, pendingPlan_eq_ok h, fun _ htarget => nomatch htarget⟩
  rename_i hostPort hport
  cases h
  refine ⟨agent, _, _, _, hagent, rfl, fun port htarget => ?_⟩
  cases htarget
  exact ⟨hhardware, hdraining, hport⟩

/-- An agent whose plan has an active target is available. -/
theorem Context.available_of_active
    {hostPort : Nat} (h : ctx.agentRootPlan router selectedRoot = .ok plan)
    (hactive : plan.target = .active hostPort) : Available ctx.lease plan.routeKey := by
  obtain ⟨agent, decision, forwarding, target, hagent, rfl, htarget⟩ := agentRootPlan_spec h
  obtain ⟨hhardware, hdraining, hport⟩ := htarget hostPort hactive
  rcases agentOf_spec hagent with hexact | hdrain
  · obtain ⟨-, hroute, henabled, hnot⟩ := exactRoute_eq_some.mp hexact
    -- A route that has a port is no inherited property.
    have hown : agent.route ≠ .obj [] := by
      intro hempty
      rw [hempty] at hport
      simp [Json.prop, servicePort] at hport
    exact ⟨agent.route, lookup_of_objectAt hroute hown, henabled, hnot, hhardware⟩
  · exact absurd hdrain hdraining

/-! ## The agent-port convention -/

/-- The selector of a convention target was parsed with the given denied ports. -/
theorem Context.parseSelector_eq_ok {deniedPorts : List Nat} {selector : Option Selector}
    (h : ctx.parseSelector requestTarget deniedPorts = .ok selector) :
    parseAgentPortSelector requestTarget deniedPorts = .ok selector := by
  unfold parseSelector at h
  split at h
  · rename_i hparse
    cases h
    exact hparse
  · cases h

/-- A value that is present does not throw. -/
theorem orThrow_eq_ok {value : Option α} {result : α} :
    orThrow value = .ok result ↔ value = some result := by
  cases value <;> simp [orThrow]

/-- What the checks before the access decision establish. -/
structure Context.AdmittedSpec (ctx : Context) (requestTarget agent : Str) (admitted : Admitted) :
    Prop where
  route : exactRoute ctx.routes agent = some admitted.selected
  hardware : leaseRouteHardwareAvailability ctx.lease agent = none
  runtime : exactAgentRuntime ctx.lease.snapshot agent admitted.selected.route =
    some admitted.runtime
  selector : parseAgentPortSelector requestTarget admitted.runtime.deniedPorts =
    .ok (some admitted.selector)
  relay : ∃ relayPolicy,
    agentPortRelayPolicyFromManifest (objectAt ctx.lease.snapshot.manifests agent) =
      .ok relayPolicy ∧ relayPolicy.Admits admitted.selector.port

/-- `admitSelector` meets its specification. -/
theorem Context.admitSelector_spec {agent : Str} {admitted : Admitted}
    (h : ctx.admitSelector requestTarget agent = .ok admitted) :
    ctx.AdmittedSpec requestTarget agent admitted := by
  unfold admitSelector at h
  split at h
  · cases h
  rename_i selected hroute
  obtain rfl := (exactRoute_eq_some.mp hroute).1
  split at h
  · cases h
  rename_i hhardware
  split at h
  · cases h
  rename_i runtime hruntime
  simp only [bind_eq_ok, orThrow_eq_ok] at h
  obtain ⟨parsed, hparsed, selector, rfl, h⟩ := h
  split at h
  · cases h
  rename_i relayPolicy hpolicy
  split at h
  · cases h
  rename_i hrelay
  cases h
  exact ⟨hroute, hhardware, hruntime, parseSelector_eq_ok hparsed, relayPolicy, hpolicy,
    agentPortRelayDenial_eq_none_iff.mp hrelay⟩

/-- The access decision of an admitted selector. -/
def Context.portDecision (ctx : Context) (admitted : Admitted) : Decision :=
  (snapshotPolicy ctx.lease.snapshot.compiled.policy).evaluate admitted.selector.policyPath
    ctx.req.methodOrGet admitted.selected.routeKey

/-- What `agentPortPlan` has established when it returns a plan. -/
theorem Context.agentPortPlan_spec {plan : AgentPortPlan}
    (h : ctx.agentPortPlan router requestTarget rootMount = .ok (some plan)) :
    ∃ selector admitted forwarding authDefinition,
      parseAgentPortSelector requestTarget [] = .ok (some selector) ∧
        ctx.AdmittedSpec requestTarget selector.agent admitted ∧ (ctx.portDecision admitted).access ≠ .deny ∧
        plan = ctx.portPlanOf rootMount admitted (ctx.portDecision admitted) forwarding authDefinition := by
  unfold agentPortPlan at h
  rw [bind_eq_ok] at h
  obtain ⟨parsed, hparsed, h⟩ := h
  cases parsed with
  | none => cases h
  | some selector =>
    simp only [bind_eq_ok] at h
    obtain ⟨admitted, hadmitted, found, hfound, h⟩ := h
    cases h
    unfold decidePort at hfound
    simp only [denyPort, guardProp_eq_ok] at hfound
    obtain ⟨-, haccess, -, hfound⟩ := hfound
    unfold portPlan at hfound
    rw [bind_eq_ok] at hfound
    obtain ⟨forwarding, -, hfound⟩ := hfound
    split at hfound
    · cases hfound
    · rename_i authDefinition _
      cases hfound
      exact ⟨selector, admitted, forwarding, authDefinition, parseSelector_eq_ok hparsed,
        admitSelector_spec hadmitted, haccess, rfl⟩

/-- What a plan of the convention guarantees about its agent: it is available and runs, the policy of
the generation decides the request and does not deny it, the port is not one its network mode denies,
and its manifest relays to the port. -/
structure PortGuarantee (lease : Lease) (req : Request) (plan : AgentPortPlan) : Prop where
  available : Available lease plan.routeKey
  decision : plan.access = (snapshotPolicy lease.snapshot.compiled.policy).evaluate
    plan.canonicalPath req.methodOrGet plan.routeKey
  allowed : plan.access.access ≠ .deny
  port : ∃ runtime, exactAgentRuntime lease.snapshot plan.routeKey plan.route = some runtime ∧
    plan.port ∉ runtime.deniedPorts
  relay : ∃ relayPolicy,
    agentPortRelayPolicyFromManifest (objectAt lease.snapshot.manifests plan.routeKey) =
      .ok relayPolicy ∧ relayPolicy.Admits plan.port

/-- A route with a running instance is no inherited property. -/
theorem exactAgentRuntime_own {snapshot : Snapshot} {route : Json} {runtime : Runtime}
    (h : exactAgentRuntime snapshot routeKey route = some runtime) : route ≠ .obj [] := by
  rintro rfl
  unfold exactAgentRuntime at h
  have hcontainer : trimmed ((Json.obj []).prop (lit "container")) = [] := by decide
  simp only [bind_eq_bind, bind_eq_some_iff, hcontainer, isEmpty_nil,
    Bool.true_or, if_true] at h
  obtain ⟨record, -, h⟩ := h
  cases h

/-- Every plan of the convention meets its guarantee. -/
theorem Context.portGuarantee {plan : AgentPortPlan}
    (h : ctx.agentPortPlan router requestTarget rootMount = .ok (some plan)) :
    PortGuarantee ctx.lease ctx.req plan := by
  obtain ⟨selector, admitted, forwarding, auth, -, hspec, hdecision, rfl⟩ := agentPortPlan_spec h
  obtain ⟨hkey, hroute, henabled, hdraining⟩ := exactRoute_eq_some.mp hspec.route
  have hown := exactAgentRuntime_own hspec.runtime
  exact {
    available := by
      show Available ctx.lease admitted.selected.routeKey
      rw [hkey]
      exact ⟨_, lookup_of_objectAt hroute hown, henabled, hdraining, hspec.hardware⟩
    decision := rfl
    allowed := hdecision
    port := by
      show ∃ runtime, exactAgentRuntime _ admitted.selected.routeKey admitted.selected.route = _ ∧
        admitted.selector.port ∉ _
      rw [hkey]
      exact ⟨_, hspec.runtime, (parsed_of_ok hspec.selector).allowed⟩
    relay := by
      show ∃ relayPolicy : RelayPolicy, agentPortRelayPolicyFromManifest
        (objectAt _ admitted.selected.routeKey) = _ ∧ relayPolicy.Admits admitted.selector.port
      rw [hkey]
      exact hspec.relay }

/-! ## Where plans come from -/

/-- A result mapped by a constructor comes from a result. -/
theorem map_eq_ok {ε β : Type} {f : α → β} {result : Except ε α} {value : β} :
    f <$> result = .ok value ↔ ∃ found, result = .ok found ∧ f found = value := by
  cases result <;> simp [Functor.map, Except.map]

/-- The service routes of the host of a request. -/
def Context.services (ctx : Context) (router : Router) : ServiceRoutes :=
  edgeHostServiceRoutes router.platform ctx.lease.snapshot ctx.host

/-- The plans of a public host: those of the router itself, those of its owner, of the agents it
admits, and of its root application. -/
inductive Context.PublicPlan (ctx : Context) (router : Router) (record : HostRecord) : Plan → Prop
  | routerSurface (surface : Str) (forwarding : Forwarding) :
      ctx.PublicPlan router record (.routerSurface surface forwarding)
  | mountRedirect (location : Str) : ctx.PublicPlan router record (.mountRedirect location)
  | owner {plan : AgentRootPlan} (h : ctx.agentRootPlan router (some record) = .ok plan) :
      ctx.PublicPlan router record (.agentRoot plan)
  | mcp {plan : AgentRootPlan} {routeKey : Str}
      (hselected : selectedAgentMcpRoute ctx.pathname (ctx.services router).agentMcpRoutes =
        some routeKey)
      (h : ctx.agentRootPlan router none = .ok plan) :
      ctx.PublicPlan router record (.agentRoot plan)
  | dependency {plan : AgentRootPlan} {routeKey : Str}
      (hselected : selectedDependencyHttpRoute ctx.pathname ctx.routes record.routeKey
        (ctx.services router).dependencyHttpRoutes = some routeKey)
      (h : ctx.agentRootPlan router none = .ok plan) :
      ctx.PublicPlan router record (.agentRoot plan)
  | application {plan : AgentPortPlan} {root : RootApplication}
      (hroot : record.rootApplication = some root)
      (h : ctx.agentPortPlan router (ctx.rootTarget root) true = .ok (some plan)) :
      ctx.PublicPlan router record (.agentPort plan)

namespace Context

variable {ctx : Context} {router : Router} {record : HostRecord} {plan : Plan} {ownerMcp : Bool}

/-- The plans of a path that a root application serves. -/
theorem publicPlan_of_rootApplicationPlan {root : RootApplication}
    (hroot : record.rootApplication = some root)
    (h : ctx.rootApplicationPlan router record root agentMcpRoutes = .ok plan) :
    ctx.PublicPlan router record plan := by
  have happlication : (do
      let found ← orThrow (← ctx.agentPortPlan router (ctx.rootTarget root) true)
      return Plan.agentPort found) = Except.ok plan → ctx.PublicPlan router record plan := by
    intro h
    simp only [bind_eq_ok, orThrow_eq_ok] at h
    obtain ⟨found, hfound, inner, rfl, h⟩ := h
    cases h
    exact .application hroot hfound
  unfold rootApplicationPlan at h
  split_ifs at h
  · exact happlication h
  split at h
  · rename_i found howner
    split_ifs at h
    · cases h
      exact .owner howner
    · exact happlication h
  · cases h
  · exact happlication h

/-- The plans after the surfaces of the router and the service routes. -/
theorem publicPlan_of_ownerPlan
    (h : ctx.ownerPlan router record ownerMcp agentMcpRoutes = .ok plan) :
    ctx.PublicPlan router record plan := by
  have howner : Plan.agentRoot <$> ctx.agentRootPlan router (some record) = .ok plan →
      ctx.PublicPlan router record plan := by
    intro h
    obtain ⟨found, hfound, rfl⟩ := map_eq_ok.mp h
    exact .owner hfound
  unfold ownerPlan at h
  simp only [Context.deny, RoutePlan.deny, guardProp_eq_ok] at h
  obtain ⟨-, h⟩ := h
  split at h
  · exact howner h
  rename_i root hroot
  split_ifs at h
  · exact howner h
  split at h
  · cases h
  · simp only [ownerMountRedirectPlan, Context.deny, RoutePlan.deny, guardProp_eq_ok] at h
    obtain ⟨-, h⟩ := h
    cases h
    exact .mountRedirect _
  · exact howner h
  · exact publicPlan_of_rootApplicationPlan hroot h

/-- A surface of the router is planned by the router. -/
theorem routerSurfacePlan_eq_ok {surface : Str} (h : ctx.routerSurfacePlan router surface = .ok plan) :
    ∃ forwarding, plan = .routerSurface surface forwarding := by
  unfold routerSurfacePlan at h
  rw [bind_eq_ok] at h
  obtain ⟨forwarding, -, h⟩ := h
  cases h
  exact ⟨forwarding, rfl⟩

/-- Every surface after the MCP surface is the router's own. -/
theorem assetSurface_eq_some {surface : Surface} (h : assetSurface pathname available = some surface) :
    ∃ name, surface = .routerOwned name := by
  unfold assetSurface at h
  split_ifs at h <;> cases h <;> exact ⟨_, rfl⟩

/-- Only `selectedAgentMcpRoute` gives the MCP surface of an agent. -/
theorem selected_of_surfaceForPath
    (h : surfaceForPath pathname available agentMcpRoutes rootRouteKey = some (.agentMcp routeKey)) :
    selectedAgentMcpRoute pathname agentMcpRoutes = some routeKey := by
  unfold surfaceForPath at h
  split_ifs at h with hauth hadmin hmcp
  · cases h
  · cases h
  · unfold mcpSurface at h
    by_cases hmount : isRouteMount pathname (lit "/mcp") = true
    · rw [if_pos hmount] at h
      cases h
    · rw [if_neg hmount] at h
      cases hselected : selectedAgentMcpRoute pathname agentMcpRoutes with
      | some found =>
        simp only [hselected, some.injEq, Surface.agentMcp.injEq] at h
        rw [h]
      | none =>
        simp only [hselected] at h
        split_ifs at h
        · cases h
        · obtain ⟨name, hname⟩ := assetSurface_eq_some h
          cases hname
  · obtain ⟨name, hname⟩ := assetSurface_eq_some h
    cases hname

/-- A path that is left to the service routes and the owner has a plan of `PublicPlan`. -/
theorem publicPlan_of_service (h : (match selectedDependencyHttpRoute ctx.pathname ctx.routes
        record.routeKey (ctx.services router).dependencyHttpRoutes with
      | some _ => Plan.agentRoot <$> ctx.agentRootPlan router none
      | none => ctx.ownerPlan router record ownerMcp (ctx.services router).agentMcpRoutes) =
      .ok plan) : ctx.PublicPlan router record plan := by
  split at h
  · rename_i hselected
    obtain ⟨found, hfound, rfl⟩ := map_eq_ok.mp h
    exact .dependency hselected hfound
  · exact publicPlan_of_ownerPlan h

/-- Every plan of a public host is one of `PublicPlan`. -/
theorem publicPlan_of_publicHostPlan (h : ctx.publicHostPlan router record = .ok plan) :
    ctx.PublicPlan router record plan := by
  unfold publicHostPlan at h
  rw [bind_eq_ok] at h
  obtain ⟨surfaces, -, h⟩ := h
  change ctx.surfacePlan router record (ctx.services router) (surfaceForPath ctx.pathname surfaces
    (ctx.services router).agentMcpRoutes record.routeKey) = .ok plan at h
  cases hsurface : surfaceForPath ctx.pathname surfaces (ctx.services router).agentMcpRoutes
      record.routeKey with
  | none =>
    rw [hsurface] at h
    exact publicPlan_of_service h
  | some surface =>
    rw [hsurface] at h
    cases surface with
    | ownerMcp => exact publicPlan_of_service h
    | routerOwned name =>
      obtain ⟨forwarding, rfl⟩ := routerSurfacePlan_eq_ok h
      exact .routerSurface name forwarding
    | agentMcp routeKey =>
      obtain ⟨found, hfound, rfl⟩ := map_eq_ok.mp h
      exact .mcp (selected_of_surfaceForPath hsurface) hfound

/-- The plans of a request: each kind comes from one function, and the root path of an agent is
planned only off the private listener. -/
inductive Produced (ctx : Context) (router : Router) : Plan → Prop
  | privateOperation (operation : PrivateOperation) : Produced ctx router (.privateOperation operation)
  | routerSurface (surface : Str) (forwarding : Forwarding) :
      Produced ctx router (.routerSurface surface forwarding)
  | mountRedirect (location : Str) : Produced ctx router (.mountRedirect location)
  | agentRoot {plan : AgentRootPlan} {selectedRoot : Option HostRecord}
      (hlistener : ctx.listener ≠ .privateListener)
      (hselected : ∀ record, selectedRoot = some record → ∃ host, ctx.hostSelection = .agentRoot host record)
      (h : ctx.agentRootPlan router selectedRoot = .ok plan) : Produced ctx router (.agentRoot plan)
  | agentPort {plan : AgentPortPlan} {requestTarget : Str} {rootMount : Bool}
      (h : ctx.agentPortPlan router requestTarget rootMount = .ok (some plan)) :
      Produced ctx router (.agentPort plan)

/-- The plans of a public host are produced off the private listener. -/
theorem PublicPlan.produced {host : Str} (hlistener : ctx.listener ≠ .privateListener)
    (hselection : ctx.hostSelection = .agentRoot host record)
    (h : ctx.PublicPlan router record plan) : Produced ctx router plan := by
  cases h with
  | routerSurface surface forwarding => exact .routerSurface surface forwarding
  | mountRedirect location => exact .mountRedirect location
  | owner h => exact .agentRoot hlistener (fun other hother => ⟨host, some.inj hother ▸ hselection⟩) h
  | mcp hselected h | dependency hselected h => exact .agentRoot hlistener (by simp) h
  | application hroot h => exact .agentPort h

/-- A plan of a control or managed host is for the agent its path names. -/
theorem directPlan_eq_ok (h : ctx.directPlan router = .ok plan) :
    ∃ found, ctx.agentRootPlan router none = .ok found ∧ plan = .agentRoot found := by
  unfold directPlan at h
  split at h
  · split_ifs at h
    cases h
  · cases h
  · rename_i found hroot
    cases h
    exact ⟨found, hroot, rfl⟩

/-- The plans of a control or managed host. -/
theorem produced_of_directPlan (hlistener : ctx.listener ≠ .privateListener)
    (h : ctx.directPlan router = .ok plan) : Produced ctx router plan := by
  obtain ⟨found, hroot, rfl⟩ := directPlan_eq_ok h
  exact .agentRoot hlistener (by simp) hroot

/-- Every plan is one of `Produced`. -/
theorem produced_of_plan (h : ctx.plan router = .ok plan) : Produced ctx router plan := by
  unfold Context.plan at h
  rw [bind_eq_ok] at h
  obtain ⟨convention, hconvention, h⟩ := h
  cases convention with
  | some found =>
    cases h
    exact .agentPort hconvention
  | none =>
    unfold planOutsideConvention at h
    by_cases hlistener : ctx.listener = .privateListener
    · simp only [hlistener] at h
      obtain ⟨operation, -, rfl⟩ := map_eq_ok.mp h
      exact .privateOperation operation
    · simp only [hlistener, if_false, Context.deny, RoutePlan.deny, guardProp_eq_ok] at h
      obtain ⟨-, h⟩ := h
      cases hselection : ctx.hostSelection with
      | agentRoot host record =>
        rw [hselection] at h
        exact (publicPlan_of_publicHostPlan h).produced hlistener hselection
      | privateHost | inactivePublic =>
        rw [hselection] at h
        exact produced_of_directPlan hlistener h
      | managedAgent host =>
        simp only [hselection, guardProp_eq_ok] at h
        exact produced_of_directPlan hlistener h.2
      | control host publicRouterAlias =>
        simp only [hselection] at h
        split_ifs at h
        · obtain ⟨forwarding, rfl⟩ := routerSurfacePlan_eq_ok h
          exact .routerSurface _ forwarding
        · exact produced_of_directPlan hlistener h

end Context

/-! ## The guarantee -/

section Requests

variable {router : Router} {lease : Lease} {req : Request} {parsedUrl : Option Url} {listener : Listener}
  {transport : Transport} {plan : Plan}

/-- A request is refused, or planned for a served host. -/
theorem resolveLeasedPlan_cases :
    (∃ denial, resolveLeasedPlan router lease req parsedUrl listener transport = .error (.denied denial)) ∨
    ∃ host url hostSelection,
      normalizeExactHost router.platform (req.headers.lookup (lit "host")) = some host ∧
      requestUrl router.platform req host parsedUrl = some url ∧
      classifyHost router host listener lease.snapshot = some hostSelection ∧
      resolveLeasedPlan router lease req parsedUrl listener transport =
        Context.plan { req, host, listener, url, hostSelection, lease, transport } router := by
  unfold resolveLeasedPlan
  split
  · exact .inl ⟨_, rfl⟩
  · rename_i host hhost
    split_ifs
    · exact .inl ⟨_, rfl⟩
    · split
      · exact .inl ⟨_, rfl⟩
      · rename_i url hurl
        split
        · exact .inl ⟨_, rfl⟩
        · exact .inl ⟨_, rfl⟩
        · rename_i hostSelection _ hselection
          exact .inr ⟨host, url, hostSelection, hhost, hurl, hselection, rfl⟩

end Requests

/-- A plan that dials an agent names a route of the generation that is enabled, not draining and
available. A plan of the convention moreover carries the decision of the generation's policy, which
does not deny, a port that the network mode of the instance does not deny and a manifest that relays
to it. The private listener never plans the root path of an agent. -/
theorem resolveEdgeRoutePlan_dials_available {lease : Lease} {req : Request}
    {parsedUrl : Option Url} {listener : Listener} {transport : Transport} {plan : Plan}
    (h : resolveEdgeRoutePlan router (.ok lease) req parsedUrl listener transport = .ok plan) :
    (∀ root, plan = .agentRoot root → listener ≠ .privateListener ∧
      ∀ hostPort, root.target = .active hostPort → Available lease root.routeKey) ∧
    (∀ port, plan = .agentPort port → PortGuarantee lease req port) := by
  obtain ⟨denial, hdenied⟩ | ⟨host, url, hostSelection, -, -, -, hplan⟩ := resolveLeasedPlan_cases
  · cases hdenied.symm.trans h
  have hproduced := Context.produced_of_plan (hplan.symm.trans h)
  constructor
  · rintro root rfl
    cases hproduced with
    | agentRoot hlistener _ hroot =>
      exact ⟨hlistener, fun _ hactive => Context.available_of_active hroot hactive⟩
  · rintro port rfl
    cases hproduced with
    | agentPort hport => exact Context.portGuarantee hport

/-- A router on the platform of the concrete runs. -/
def demoRouter : Router where
  platform := Plain.platform
  trustedHosts := []
  selectedRouterHostPort := some 8080

/-- A compiled state with one authenticated route and no public host. -/
def demoCompiled : Compiled where
  hosts := []
  surfaces := []
  agentMcpRoutes := []
  dependencyHttpRoutes := []
  policy := {
    entries := []
    routeDefaults := [(lit "demo",
      { access := .authenticated, routeKey := "demo", source := "routeDefault" })]
    namespaces := [] }
  security := {
    hostNetworkCapabilities := [], workspaceLogConsumers := [], turnCredentialConsumers := [] }
  publication := {
    mode := "local-only", management := none, defaultState := "ready", complete := true }
  hardwareAvailability := none

/-- The route of a running agent. -/
def demoRoute : Json :=
  .obj [("container", .str "c"), ("repo", .str "r"), ("agent", .str "a"), ("hostPort", .num "3000")]

/-- A generation with one running agent. -/
def demoLease : Lease where
  snapshot := {
    generation := "g"
    publicationState := "ready"
    routing := .obj [("routes", .obj [("demo", demoRoute)])]
    policy := .obj []
    desired := { hosts := [], cloudflare := none, media := none, turn := none }
    agents := .obj [("c", .obj [("type", .str "agent"), ("repoName", .str "r"),
      ("agentName", .str "a"), ("runtime", .str "podman"),
      ("containerId", .str (replicate 64 'a')), ("instanceId", .str "i"),
      ("enableGeneration", .str "g")])]
    manifests := []
    routerHostPort := 8080
    mediaHostPort := 7882
    routerPublicHosts := []
    routerOrigins := []
    compiled := demoCompiled }
  denials := none

/-- A request on the control host. -/
def demoRequest (url : Str) : Request where
  method := "GET"
  url := url
  headers := [(lit "host", .text "localhost")]
  onPrivateServer := false

/-- The guarantee at a generation with one running agent: its root path and one of its ports are
dialled. -/
theorem resolveEdgeRoutePlan_dials_available_demo :
    Available demoLease "demo" ∧ ∃ port, port.port = 9000 ∧
      PortGuarantee demoLease (demoRequest "/base-agent-additional-server/demo/9000/x") port := by
  have hplans : ((resolveEdgeRoutePlan demoRouter (.ok demoLease) (demoRequest "/demo/x") none
      .publicListener .http).toOption.map fun
        | .agentRoot root => some (root.routeKey, root.target)
        | _ => none) = some (some (lit "demo", .active 3000)) ∧
    ((resolveEdgeRoutePlan demoRouter (.ok demoLease)
      (demoRequest "/base-agent-additional-server/demo/9000/x") none .publicListener .http).toOption.map fun
        | .agentPort port => some port.port
        | _ => none) = some (some 9000) := by decide +kernel
  obtain ⟨first, hfirst, hroot⟩ := exists_ok_of_map hplans.1
  obtain ⟨second, hsecond, hport⟩ := exists_ok_of_map hplans.2
  cases first with
  | agentRoot root =>
    cases second with
    | agentPort port =>
      obtain ⟨hkey, htarget⟩ := Prod.mk.inj (some.inj hroot)
      exact ⟨hkey ▸ ((resolveEdgeRoutePlan_dials_available hfirst).1 root rfl).2 3000 htarget, port,
        some.inj hport, (resolveEdgeRoutePlan_dials_available hsecond).2 port rfl⟩
    | _ => cases hport
  | _ => cases hroot

end Ploinky.RoutePlan
