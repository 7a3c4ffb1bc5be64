import Ploinky.Policy.Entry

/-!
# What a manifest declares about access

The parts of an agent manifest that the generation compiler and the router read: its authentication
mode (`manifestAuth`), its relay policy for agent ports (`relayPolicy`) and its HTTP routes
(`normalizeManifestHttpRouteAccess`). Each function keeps the checks of the source in their order,
with the texts of their failures.
-/

namespace Ploinky.Manifest

open Js Policy AgentPort

/-! ## Authentication modes -/

/-- The authentication mode of an agent. -/
inductive AuthMode where
  | none
  | guest
  | sso
  deriving DecidableEq

mutual

/-- `authDirectives(value)`: the directives of a text, or of the texts in an array. -/
def authDirectives : Json → List Str
  | .str text =>
    nonEmpty ((text.splitOnP fun c => c == ',' || c == '\n' || c == ';').map
      fun entry => toLowerCase (trim entry))
  | .arr items => itemDirectives items
  | _ => []

/-- The directives of the items of an array. -/
def itemDirectives : List Json → List Str
  | [] => []
  | item :: rest => authDirectives item ++ itemDirectives rest

end

/-- The pattern `/^pwd(?:\s|$)/`. -/
def isPasswordDirective (entry : Str) : Bool :=
  startsWith entry "pwd" && (entry.drop 3).head?.all isSpace

/-- The refusal of the removed password authentication. -/
def passwordUnsupported : Str :=
  "Local password authentication is no longer supported; declare an SSO provider."

/-- `manifest?.key`. -/
def field (manifest : Option Json) (key : Str) : Option Json := manifest.bind (·.prop key)

/-- `manifest?.routerAccess?.key`. -/
def routerAccess (manifest : Option Json) (key : Str) : Option Json :=
  field (field manifest "routerAccess") key

/-- `resolveManifestAuthMode(manifest)`. -/
def resolveManifestAuthMode (manifest : Option Json) : Except Str AuthMode :=
  let directives := ((field manifest "ploinky").map authDirectives).getD []
  if directives.any isPasswordDirective || (field manifest "pwd").isSome then
    .error passwordUnsupported
  else if (routerAccess manifest "localAuthRoles").isSome then
    .error (lit ("routerAccess.localAuthRoles is unsupported; " ++
      "authenticated identities must supply the required capability."))
  else if directives.contains (lit "sso enable") then
    if field manifest "guest" == some (.bool true) then
      .error (lit "Manifest SSO authentication cannot be combined with guest authentication.")
    else .ok .sso
  else if field manifest "guest" == some (.bool true) then .ok .guest
  else .ok .none

/-- The modes a saved policy may name. -/
def AuthMode.ofText (text : Str) : Option AuthMode :=
  if text = lit "none" then some .none
  else if text = lit "guest" then some .guest
  else if text = lit "sso" then some .sso
  else Option.none

/-- The `mode` of `resolveAgentAuthPolicy(manifest, configuredPolicy)`. A declared identity provider
cannot be overridden by the saved policy. -/
def resolveAgentAuthPolicy (manifest configured : Option Json) : Except Str AuthMode := do
  let manifestMode ← resolveManifestAuthMode manifest
  if manifestMode = .sso then return .sso
  if !truthy configured then return manifestMode
  let mode := toLowerCase (trim (strOr (field configured "mode") "none"))
  if mode = lit "local" ∨ mode = lit "pwd" then .error passwordUnsupported
  else match AuthMode.ofText mode with
    | some mode => return mode
    | none =>
      .error (lit "Unknown auth mode '" ++
        (((field configured "mode").map Json.toStr).getD "undefined") ++
        lit "'. Allowed: none | guest | sso")

/-! ## The relay policy of agent ports -/

/-- Which container ports the agent-port convention may relay to. -/
inductive RelayPolicy where
  | all
  | none
  | listed (ports : List Nat)
  deriving DecidableEq

/-- An integer TCP port. -/
def tcpPort (value : Json) : Option Nat := value.natural.filter fun port => 1 ≤ port && port ≤ 65535

/-- `normalizeAgentPortRelayPolicy(value, label)`. -/
def normalizeAgentPortRelayPolicy (value : Option Json) (label : Str) : Except Str RelayPolicy :=
  match value with
  | none | some .null | some (.bool true) => .ok .all
  | some (.bool false) => .ok .none
  | some (.arr items) =>
    if items.isEmpty || items.length > 64 then
      .error (label ++
        lit " must be true, false, or a non-empty list of at most 64 container ports")
    else match items.mapM tcpPort with
      | none =>
        .error (label ++ lit " entries must be integer TCP ports from 1 to 65535")
      | some ports =>
        if ¬ ports.Nodup then .error (label ++ lit " must not repeat a port")
        else .ok (.listed (ports.insertionSort (· ≤ ·)))
  | _ =>
    .error (label ++ lit " must be true, false, or a non-empty list of at most 64 container ports")

/-- `agentPortRelayPolicyFromManifest(manifest)`. -/
def agentPortRelayPolicyFromManifest (manifest : Option Json) : Except Str RelayPolicy :=
  normalizeAgentPortRelayPolicy (routerAccess manifest "agentPorts") "routerAccess.agentPorts"

/-- `agentPortRelayDenial(policy, port)`: the status and code of a denial. -/
def agentPortRelayDenial (policy : RelayPolicy) (port : Nat) : Option (Nat × Str) :=
  match policy with
  | .all => none
  | .none => some (403, "AGENT_PORT_RELAY_DISABLED")
  | .listed ports =>
    if ports.contains port then none else some (403, "AGENT_PORT_NOT_DECLARED")

/-- The policy relays to the port. -/
def RelayPolicy.Admits (policy : RelayPolicy) (port : Nat) : Prop :=
  match policy with
  | .all => True
  | .none => False
  | .listed ports => port ∈ ports

/-- A port is relayed to exactly when there is no denial. -/
theorem agentPortRelayDenial_eq_none_iff {policy : RelayPolicy} {port : Nat} :
    agentPortRelayDenial policy port = none ↔ policy.Admits port := by
  cases policy with
  | all | none | listed => simp [agentPortRelayDenial, RelayPolicy.Admits]

/-! ## HTTP routes -/

/-- `{ path: key, ...fields }`. -/
def withPath (key : Str) (fields : List (Str × Json)) : Json :=
  match fields.lookup (lit "path") with
  | some path => .obj ((lit "path", path) :: fields.filter fun entry => entry.1 != lit "path")
  | none => .obj ((lit "path", .str key) :: fields)

/-- An entry of an `httpRoutes` object as a list element, for a value that is no object. -/
def pathAccess (key : Str) (value : Json) : Json :=
  .obj [(lit "path", .str key), (lit "access", .str (strOr (some value) []))]

/-- `normalizeManifestHttpRouteAccess(spec, { routeKey })`. -/
def normalizeManifestHttpRouteAccess (spec : Json) (routeKey : Str) : Except PathError Entry :=
  let routeKey := trim routeKey
  let access := match spec.prop "access" with
    | some value => Access.ofText (toLowerCase (trimmed (some value)))
    | none => some .authenticated
  let guestScope := trimmed (spec.prop "guestScope")
  let guestScopeParam := trimmed (spec.prop "guestScopeParam")
  let rawPath := trimmed (spec.prop "path")
  let agentRelativePath := if startsWith rawPath ['/'] then rawPath else '/' :: rawPath
  if routeKey.isEmpty then .error ⟨"routeKey is required", "INVALID_ROUTE_KEY"⟩
  else if (spec.prop "mode").isSome then
    .error ⟨"routerAccess.httpRoutes entries must use access, not mode", "INVALID_FIELD"⟩
  else match access with
  | none => .error ⟨"access must be public, guest, or authenticated", "INVALID_ACCESS"⟩
  | some access =>
    if !isOptionalText (spec.prop "guestScope") then
      .error ⟨"guestScope must be a non-empty string when present", "INVALID_GUEST_SCOPE"⟩
    else if !isOptionalParam (spec.prop "guestScopeParam") then
      .error ⟨"guestScopeParam must be a valid query parameter name when present",
        "INVALID_GUEST_SCOPE_PARAM"⟩
    else if !guestScopeParam.isEmpty && (access != .guest || guestScope.isEmpty) then
      .error ⟨"guestScopeParam requires guest access and an explicit guestScope",
        "INVALID_GUEST_SCOPE_PARAM"⟩
    else
      let entry (path : Str) (publicProtocol : Option PublicProtocol) : Entry :=
        { access := access, routeKey := routeKey, publicProtocol := publicProtocol
          guestScope := guestScope, guestScopeParam := guestScopeParam, path := path
          source := "manifest" }
      if agentRelativePath == '/' :: agentPortRoute ||
          startsWith agentRelativePath ('/' :: agentPortRoute ++ ['/']) then
        match normalize agentRelativePath with
        | .error e => .error e
        | .ok path =>
          match parseAgentPortSelector (if isWildcard path then path.dropLast else path) with
          | .error e => .error ⟨e.message, e.code⟩
          | .ok selector =>
            if selector.all fun selector => selector.agent != routeKey then
              .error ⟨"agent-port convention path must name the declaring route",
                "ROUTE_OWNERSHIP_MISMATCH"⟩
            else match normalizePublicProtocol (spec.prop "publicProtocol") access "manifest"
                path routeKey with
              | .error message => .error ⟨message, "INVALID_PUBLIC_PROTOCOL"⟩
              | .ok publicProtocol => .ok (entry path publicProtocol)
      else if (spec.prop "publicProtocol").isSome then
        .error ⟨"publicProtocol requires an owned agent-port path", "INVALID_PUBLIC_PROTOCOL"⟩
      else if agentRelativePath == lit "/" || agentRelativePath == lit "/*" then
        .error ⟨"root path cannot be declared public, guest, or authenticated", "INVALID_PATH"⟩
      else if hasInternalAgentSegment agentRelativePath then
        .error ⟨"internal route cannot be declared public, guest, or authenticated",
          "INTERNAL_ROUTE_NOT_ALLOWED"⟩
      else match normalize ('/' :: encodeURIComponent routeKey ++ agentRelativePath) with
        | .error e => .error e
        | .ok path => .ok (entry path none)

end Ploinky.Manifest
