import Ploinky.AgentPort.Selector
import Ploinky.Js.Json

/-!
# Policy entries and access decisions

The embedding of `HttpRouteAccessDecision`, `PublicProtocolPolicy` and
`normalizeHttpRoutePolicyEntry`. What an entry grants to the requests it governs, its `Grant`, is
kept apart from where the entry comes from. Optional text fields are empty when absent.
-/

namespace Ploinky.Policy

open Js AgentPort

/-- The access of a decision. Entries and route defaults carry one of the middle three. -/
inductive Access where
  | none
  | «public»
  | guest
  | authenticated
  | deny
  deriving DecidableEq

namespace Access

/-- The access as the sources spell it. -/
def text : Access → Str
  | none => "none"
  | «public» => "public"
  | guest => "guest"
  | authenticated => "authenticated"
  | deny => "deny"

/-- The restrictiveness of an access. -/
def rank : Access → Nat
  | none => 0
  | «public» => 1
  | guest => 2
  | authenticated => 3
  | deny => 4

/-- `normalizeHttpRouteAccess(value)`. -/
def ofText (text : Str) : Option Access :=
  if text = lit "public" then some .public
  else if text = lit "guest" then some .guest
  else if text = lit "authenticated" then some .authenticated
  else Option.none

end Access

/-- The normalized opt-in of a public protocol server. -/
structure PublicProtocol where
  methods : List Str
  allowLoopbackRedirects : Bool
  allowCors : Bool
  deriving DecidableEq

/-- What a decision grants: the access, the route it is for, and the metadata its execution uses. -/
structure Grant where
  access : Access
  routeKey : Str
  publicProtocol : Option PublicProtocol := none
  guestScope : Str := []
  guestScopeParam : Str := []
  deriving DecidableEq

/-- A normalized policy entry. -/
structure Entry extends Grant where
  path : Str
  source : Str
  deriving DecidableEq

/-- An access decision. `path` is set when an entry decided, `status` and `code` when access is
denied. -/
structure Decision extends Grant where
  source : Str
  path : Str := []
  status : Option Nat := none
  code : Str := []
  deriving DecidableEq

/-- An entry as the decision it makes. -/
def Entry.toDecision (entry : Entry) : Decision :=
  { entry.toGrant with source := entry.source, path := entry.path }

/-- `noHttpRouteAccess()`. -/
def noHttpRouteAccess : Decision := { access := .none, routeKey := [], source := [] }

/-- `moreRestrictiveHttpRouteDecision(left, right)`. -/
def moreRestrictiveHttpRouteDecision (left right : Decision) : Decision :=
  if right.access.rank > left.access.rank then right else left

/-! ## Public protocols -/

/-- The methods a public protocol may list. -/
def protocolMethods : List Str := ["GET", "HEAD", "POST", "OPTIONS"]

/-- The fields a public protocol may have. -/
def protocolFields : List Str := ["methods", "allowLoopbackRedirects", "allowCors"]

/-- A failure of `normalizePublicProtocol`. -/
def protocolError {α : Type} (message : String) : Except Str α :=
  .error (lit "publicProtocol " ++ lit message)

/-- The texts of a `methods` value that lists admitted methods once each. -/
def protocolMethodList (value : Option Json) : Option (List Str) :=
  match value with
  | some (.arr items) => do
      let methods ← items.mapM Json.str?
      if methods.isEmpty ∨ ¬ methods.all protocolMethods.contains ∨ ¬ methods.Nodup then none
      else some methods
  | _ => none

/-- Whether an optional value is absent or a boolean. -/
def isOptionalBool : Option Json → Bool
  | none | some (.bool _) => true
  | _ => false

/-- Whether a path is an agent-port path of the route, below the root of the selected service. -/
def ownsServicePath (path routeKey : Str) : Bool :=
  let target := if path.getLast? = some '*' then path.dropLast else path
  match parseAgentPortSelector target with
  | .ok (some selector) => selector.agent == routeKey && selector.suffix != ['/']
  | _ => false

/-- `normalizePublicProtocol(value, { access, source, path, routeKey })`. -/
def normalizePublicProtocol (value : Option Json) (access : Access) (source path routeKey : Str) :
    Except Str (Option PublicProtocol) :=
  match value with
  | none => .ok none
  | some value =>
    if source ≠ lit "manifest" ∨ access ≠ .public then
      protocolError "requires a public manifest route"
    else if !value.isObject then protocolError "must be an object"
    else if !value.keys.all protocolFields.contains then
      protocolError "contains an unsupported field"
    else match protocolMethodList (value.prop "methods") with
      | none =>
        protocolError "methods must be a non-empty unique list of GET, HEAD, POST, OPTIONS"
      | some methods =>
        if !isOptionalBool (value.prop "allowLoopbackRedirects") then
          protocolError "allowLoopbackRedirects must be a boolean"
        else if !isOptionalBool (value.prop "allowCors") then
          protocolError "allowCors must be a boolean"
        else if !ownsServicePath path routeKey then
          protocolError "requires an owned agent-port path below the service root"
        else .ok (some {
          methods := methods.insertionSort (le · ·)
          allowLoopbackRedirects := value.prop "allowLoopbackRedirects" == some (.bool true)
          allowCors := value.prop "allowCors" == some (.bool true) })

/-- `isPublicMethodAllowed(decision, method)`. -/
def isPublicMethodAllowed (grant : Grant) (method : Str) : Bool :=
  let normalized := toUpperCase (if method.isEmpty then lit "GET" else method)
  match grant.publicProtocol with
  | some protocol => protocol.methods.contains normalized
  | none => readOnlyMethods.contains normalized

/-! ## Entries -/

/-- The pattern `/^[A-Za-z][A-Za-z0-9_-]{0,63}$/` of query parameter names. -/
def isParamName : Str → Bool
  | [] => false
  | c :: rest =>
    (isLower c || isUpper c) && rest.all (fun x => isAlnum x || x == '_' || x == '-') &&
      decide (rest.length ≤ 63)

/-- Whether an optional value is absent or a string that is not blank. -/
def isOptionalText : Option Json → Bool
  | none => true
  | some (.str text) => !(trim text).isEmpty
  | _ => false

/-- Whether an optional value is absent or the name of a query parameter. -/
def isOptionalParam : Option Json → Bool
  | none => true
  | some (.str text) => isParamName (trim text)
  | _ => false

/-- The checks of `normalizeHttpRoutePolicyEntry`. An error is the message of an invalid entry; a
valid entry that is switched off is absent. -/
def checkEntry (entry : Json) (source : Str) : Except Str (Option Entry) :=
  if !entry.isObject then .error (lit "entry must be an object")
  else if !isOptionalBool (entry.prop "enabled") then
    .error (lit "enabled must be a boolean when present")
  else match Access.ofText (toLowerCase (trimmed (entry.prop "access"))) with
    | none => .error (lit "access must be public, guest, or authenticated")
    | some access =>
      match normalize (trimmed (entry.prop "path")) with
      | .error e => .error e.error
      | .ok path =>
        let routeKey := trim (strOr (entry.prop "routeKey") (routeKeyForPath path))
        let guestScope := trimmed (entry.prop "guestScope")
        let guestScopeParam := trimmed (entry.prop "guestScopeParam")
        if !isOptionalText (entry.prop "routeKey") then
          .error (lit "routeKey must be a non-empty string when present")
        else if routeKey.isEmpty then .error (lit "routeKey could not be derived")
        else if !isOptionalText (entry.prop "guestScope") then
          .error (lit "guestScope must be a non-empty string when present")
        else if !isOptionalParam (entry.prop "guestScopeParam") then
          .error (lit "guestScopeParam must be a valid query parameter name when present")
        else if !guestScopeParam.isEmpty && (access != .guest || guestScope.isEmpty) then
          .error (lit "guestScopeParam requires guest access and an explicit guestScope")
        else match normalizePublicProtocol (entry.prop "publicProtocol") access source path
            routeKey with
          | .error message => .error message
          | .ok publicProtocol =>
            if entry.prop "enabled" == some (.bool false) then .ok none
            else .ok (some {
              access := access
              routeKey := routeKey
              publicProtocol := publicProtocol
              guestScope := guestScope
              guestScopeParam := guestScopeParam
              path := path
              source := strOr (entry.prop "source") source })

/-- `normalizeHttpRoutePolicyEntry(entry, source)`: an invalid entry is dropped. -/
def normalizeHttpRoutePolicyEntry (entry : Json) (source : Str) : Option Entry :=
  match checkEntry entry source with
  | .ok entry => entry
  | .error _ => none

end Ploinky.Policy
