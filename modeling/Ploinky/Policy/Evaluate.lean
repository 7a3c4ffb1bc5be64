import Ploinky.Policy.Compiler

/-!
# The access policy at run time

The embedding of `HttpRouteAccessPolicy.evaluate` and of `snapshotPolicy`, which binds a policy to a
compiled generation. The run-time evaluator normalizes every stored entry again before it matches
it, keeps the first entry of the highest rank, and falls back to the default of the route.
-/

namespace Ploinky.Policy

open Js

/-- A public protocol as the object the compiled policy stores. -/
def PublicProtocol.toJson (protocol : PublicProtocol) : Json :=
  .obj [("methods", .arr (protocol.methods.map .str)),
    ("allowLoopbackRedirects", .bool protocol.allowLoopbackRedirects),
    ("allowCors", .bool protocol.allowCors)]

/-- A property that is present only when its text is not empty. -/
def optionalText (key : String) (text : Str) : List (Str × Json) :=
  if text.isEmpty then [] else [(key, .str text)]

/-- An entry as the object the compiled policy stores. -/
def Entry.toJson (entry : Entry) : Json :=
  .obj ([(lit "path", .str entry.path), (lit "access", .str entry.access.text),
      (lit "routeKey", .str entry.routeKey), (lit "source", .str entry.source)] ++
    (entry.publicProtocol.map fun protocol => (lit "publicProtocol", protocol.toJson)).toList ++
    optionalText "guestScope" entry.guestScope ++
    optionalText "guestScopeParam" entry.guestScopeParam)

/-- The providers of an `HttpRouteAccessPolicy`. A provider is absent until it is bound, and the
repository lists nothing when its state is corrupt. -/
structure AccessPolicy where
  corrupt : Bool
  entries : List Json
  manifestRouteProvider : Option (List Json)
  routeDefaultProvider : Option (Str → Option Decision)

/-- `_iterPolicyEntries()`. -/
def AccessPolicy.iterPolicyEntries (policy : AccessPolicy) (manifestEntries : List Json) :
    List Entry :=
  (if policy.corrupt then []
    else policy.entries.filterMap (normalizeHttpRoutePolicyEntry · "policy")) ++
  manifestEntries.filterMap (normalizeHttpRoutePolicyEntry · "manifest")

/-- `unroutableDecision()`. -/
def unroutableDecision : Decision :=
  { access := .deny, routeKey := [], source := "policy", status := some 404,
    code := "UNROUTABLE_PATH" }

/-- `providersUnboundDecision()`. -/
def providersUnboundDecision : Decision :=
  { access := .deny, routeKey := [], source := "policy", status := some 503,
    code := "POLICY_PROVIDERS_UNBOUND" }

/-- `applyPublicWriteGuard(decision, method)`, the same rule the compiler records. -/
def applyPublicWriteGuard (decision : Decision) (method : Str) : Decision :=
  methodDecision decision method

/-- The decision of the entries that match a request path, the first of the highest rank. -/
def decideEntries (entries : List Entry) (requestPath : Str) : Decision :=
  entries.foldl (fun decision entry =>
    if matchesPath requestPath entry.path then
      moreRestrictiveHttpRouteDecision decision entry.toDecision
    else decision) noHttpRouteAccess

/-- `evaluate({ pathname, method, routeKey })`. -/
def AccessPolicy.evaluate (policy : AccessPolicy) (pathname method routeKey : Str) : Decision :=
  match policy.manifestRouteProvider, policy.routeDefaultProvider with
  | some manifestEntries, some routeDefault =>
    match normalize pathname false with
    | .error _ => unroutableDecision
    | .ok requestPath =>
      let decision := decideEntries (policy.iterPolicyEntries manifestEntries) requestPath
      let decision :=
        if decision.access = .none then
          (routeDefault
            (if routeKey.isEmpty then routeKeyForPath requestPath else routeKey)).getD
            noHttpRouteAccess
        else decision
      applyPublicWriteGuard decision method
  | _, _ => providersUnboundDecision

/-- `snapshotPolicy(snapshot)` for a snapshot whose compiled policy is the given one. -/
def snapshotPolicy (compiled : CompiledPolicy) : AccessPolicy where
  corrupt := false
  entries := (compiled.entries.filter fun entry => entry.source != lit "manifest").map
    Entry.toJson
  manifestRouteProvider := some
    ((compiled.entries.filter fun entry => entry.source == lit "manifest").map Entry.toJson)
  routeDefaultProvider := some (routeDefaultOf compiled.routeDefaults)

end Ploinky.Policy
