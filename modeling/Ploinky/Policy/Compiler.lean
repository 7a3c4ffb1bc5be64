import Ploinky.Js.Error
import Ploinky.Lib.Selection
import Ploinky.Policy.Entry

/-!
# The policy compiler

The embedding of `compileHttpRoutePolicy`. For every namespace the compiler picks finitely many
representative paths, decides each of them over all entries and records the decision for nine
methods. Two matching entries of the highest rank must agree on their execution metadata.
-/

namespace Ploinky.Policy

open Js

/-- `policyCompileError(message, code)`. -/
def policyCompileError (message : Str) (code : Str := "HTTP_ROUTE_POLICY_INVALID") : CodedError :=
  ⟨message, code⟩

/-- A text in single quotes. -/
def quoted (s : Str) : Str := '\'' :: s ++ ['\'']

/-- `normalizeRouteDefault(value, routeKey)`. -/
def normalizeRouteDefault (value : Json) (routeKey : Str) : Except CodedError Decision :=
  let label := lit "route default for " ++ quoted routeKey
  let accessText := toLowerCase (trimmed (value.prop "access"))
  match Access.ofText accessText with
  | none =>
    .error (policyCompileError (label ++ lit " has invalid access " ++
      quoted (if accessText.isEmpty then lit "<empty>" else accessText)))
  | some access =>
    let selectedRouteKey := trim (strOr (value.prop "routeKey") routeKey)
    let guestScope := trimmed (value.prop "guestScope")
    if selectedRouteKey.isEmpty then
      .error (policyCompileError (label ++ lit " has no route key"))
    else if (value.prop "guestScope").isSome && guestScope.isEmpty then
      .error (policyCompileError (label ++ lit " has an invalid guest scope"))
    else .ok {
      access := access
      routeKey := selectedRouteKey
      guestScope := guestScope
      source := strOr (value.prop "source") "routeDefault" }

/-- `entryCore(entry)`. -/
def entryCore (entry : Entry) : Str := stripWildcard entry.path

/-- The path is the root of a namespace or lies below it. -/
def isWithin (root path : Str) : Bool := path == root || startsWith path (root ++ ['/'])

/-- `entryIntersectsNamespace(entry, root)`. -/
def entryIntersectsNamespace (entry : Entry) (root : Str) : Bool :=
  let core := entryCore entry
  if isWildcard entry.path then isWithin root core || startsWith root (core ++ ['/'])
  else isWithin root core

/-- `path.split('/').filter(Boolean)`. -/
def segments (path : Str) : List Str := nonEmpty (split path '/')

/-- `joinPath(segments)`. -/
def joinPath (segments : List Str) : Str := '/' :: join segments '/'

/-- The cores of the entries that lie in a namespace. -/
def boundaryCores (root : Str) (entries : List Entry) : List Str :=
  ((entries.filter (entryIntersectsNamespace · root)).map entryCore).filter (isWithin root)

/-- The paths between the root and one core, the core included. -/
def boundariesOf (root core : Str) : List Str :=
  (List.range' ((segments root).length + 1) ((segments core).length - (segments root).length)).map
    fun length => joinPath ((segments core).take length)

/-- The root, the cores in the namespace and the paths between them. -/
def boundaries (root : Str) (entries : List Entry) : List Str :=
  (root :: (boundaryCores root entries).flatMap (boundariesOf root)).eraseDups

/-- The children of a path that occur in one of the cores. -/
def usedChildren (base : Str) (cores : List Str) : List Str :=
  (cores.filter fun core => startsWith core (base ++ ['/'])).filterMap fun core =>
    match (split (core.drop (base.length + 1)) '/').head? with
    | some child => if child.isEmpty then none else some child
    | none => none

/-- The name tried for a child that occurs in no core. -/
def gapCandidate (suffix : Nat) : Str :=
  if suffix = 0 then "__ploinky_partition_gap__"
  else lit "__ploinky_partition_gap_" ++ ofNat suffix ++ lit "__"

/-- A child of a path that occurs in no core: the first candidate that is not used. -/
def gapChild (base : Str) (cores : List Str) : Str :=
  Selection.fresh gapCandidate (usedChildren base cores)

/-- The order of the representative paths: by depth, then by `localeCompare`, which is a parameter
here and below. -/
def representativeLe (localeLe : Str → Str → Bool) (left right : Str) : Bool :=
  let leftDepth := (split left '/').length
  let rightDepth := (split right '/').length
  decide (leftDepth < rightDepth) || (leftDepth == rightDepth && localeLe left right)

/-- `representativePaths(root, entries)`. -/
def representativePaths (localeLe : Str → Str → Bool) (root : Str) (entries : List Entry) :
    List Str :=
  let bases := boundaries root entries
  let cores := boundaryCores root entries
  (bases ++ bases.map fun base => base ++ '/' :: gapChild base cores).eraseDups.insertionSort
    (representativeLe localeLe · ·)

/-- `executionMetadata(decision)`. The sources compare its JSON text, which determines it. -/
inductive ExecutionMetadata where
  | «public» (publicProtocol : Option PublicProtocol)
  | guest (guestScope guestScopeParam : Str)
  | authenticated (routeKey : Str)
  deriving DecidableEq

/-- The guest scope a guest decision runs under. -/
def effectiveGuestScope (grant : Grant) : Str :=
  if grant.guestScope.isEmpty then lit "http-route:" ++ grant.routeKey else grant.guestScope

/-- `executionMetadata(decision)`. -/
def executionMetadata (grant : Grant) : ExecutionMetadata :=
  match grant.access with
  | .public => .public grant.publicProtocol
  | .guest => .guest (effectiveGuestScope grant) grant.guestScopeParam
  | _ => .authenticated grant.routeKey

/-- `{ ...winner, ...executionMetadata(winner) }`. -/
def withMetadata (winner : Decision) : Decision :=
  match winner.access with
  | .public => winner
  | .guest => { winner with guestScope := effectiveGuestScope winner.toGrant }
  | _ => { winner with access := .authenticated }

/-- The decision of a public route for a method it does not admit. -/
def publicWriteDenied (decision : Decision) : Decision :=
  { access := .deny, routeKey := decision.routeKey, source := decision.source,
    status := some 403, code := "PUBLIC_ROUTE_WRITE_DENIED" }

/-- `methodDecision(winner, method)`. -/
def methodDecision (winner : Decision) (method : Str) : Decision :=
  if winner.access = .public ∧ isPublicMethodAllowed winner.toGrant method = false then
    publicWriteDenied winner
  else winner

/-- The methods every partition records. -/
def compiledMethods : List Str :=
  ["GET", "HEAD", "POST", "OPTIONS", "PUT", "PATCH", "DELETE", "TRACE", "CONNECT"]

/-- The decisions at one representative path. -/
structure Partition where
  representative : Str
  matchingProviders : List Entry
  winner : Decision
  methods : List (Str × Decision)
  deriving DecidableEq

/-- The entries that govern a path. -/
def matching (entries : List Entry) (path : Str) : List Entry :=
  entries.filter fun entry => matchesPath path entry.path

/-- The entries of the highest rank. -/
def tied (entries : List Entry) : List Entry :=
  Selection.tops (fun entry => entry.access.rank) entries

/-- The partition a winner makes. -/
def partitionOf (representative : Str) (governing : List Entry) (winner : Decision) : Partition where
  representative := representative
  matchingProviders := governing.map fun entry => { entry with publicProtocol := none }
  winner := withMetadata winner
  methods := compiledMethods.map fun method => (method, methodDecision winner method)

/-- The message of a tie between two entries. -/
def tieError (representative : Str) (winner conflict : Entry) : CodedError :=
  policyCompileError
    (lit "equal-rank HTTP policy tie at " ++ quoted representative ++
      (lit " has conflicting execution metadata: ") ++
      quoted (winner.source ++ ':' :: winner.path) ++ lit " versus " ++
      quoted (conflict.source ++ ':' :: conflict.path))
    "HTTP_ROUTE_POLICY_TIE"

/-- `evaluateRepresentative({ representative, entries, routeDefault })`. -/
def evaluateRepresentative (representative : Str) (entries : List Entry) (routeDefault : Decision) :
    Except CodedError Partition :=
  let governing := matching entries representative
  match tied governing with
  | [] => .ok (partitionOf representative governing routeDefault)
  | winner :: rest =>
    match rest.find? fun entry =>
        executionMetadata entry.toGrant != executionMetadata winner.toGrant with
    | some conflict => .error (tieError representative winner conflict)
    | none => .ok (partitionOf representative governing winner.toDecision)

/-- A compiled namespace. `root` is its `prefix`. -/
structure Namespace where
  id : Str
  kind : Str
  routeKey : Str
  slug : Str
  root : Str
  requireAuthenticated : Bool
  partitions : List Partition
  deriving DecidableEq

/-- The result of the compiler. -/
structure CompiledPolicy where
  entries : List Entry
  routeDefaults : List (Str × Decision)
  namespaces : List Namespace
  deriving DecidableEq

/-- The strict form of `normalizeHttpRoutePolicyEntry` for the entry at an index. -/
def compileEntry (index : Nat) (entry : Json) : Except CodedError (Option Entry) :=
  match checkEntry entry (strOr (entry.prop "source") "policy") with
  | .ok entry => .ok entry
  | .error message =>
    .error (policyCompileError
      (lit "HTTP policy provider[" ++ ofNat index ++ lit "]: " ++ message))

/-- The entries from an index on, without those switched off. -/
def compileEntries : Nat → List Json → Except CodedError (List Entry)
  | _, [] => .ok []
  | index, entry :: rest => do
      let head ← compileEntry index entry
      let tail ← compileEntries (index + 1) rest
      return head.toList ++ tail

/-- The route defaults under their keys. -/
def compileDefaults : List (Str × Json) → Except CodedError (List (Str × Decision))
  | [] => .ok []
  | (routeKey, value) :: rest => do
      let head ← normalizeRouteDefault value routeKey
      let tail ← compileDefaults rest
      return (routeKey, head) :: tail

/-- `routeDefaults[routeKey]`; an inherited property has no access and no route key. -/
def routeDefaultOf (defaults : List (Str × Decision)) (routeKey : Str) : Option Decision :=
  read defaults noHttpRouteAccess routeKey

/-- Whether a partition decides every method as authenticated. -/
def Partition.allAuthenticated (partition : Partition) : Bool :=
  partition.methods.all fun entry => entry.2.access == .authenticated

/-- The body of the namespace loop for the namespace at an index. -/
def compileNamespace (localeLe : Str → Str → Bool) (entries : List Entry)
    (defaults : List (Str × Decision)) (seen : List Str) (index : Nat) («namespace» : Json) :
    Except CodedError Namespace := do
  let id := trimmed («namespace».prop "id")
  let routeKey := trimmed («namespace».prop "routeKey")
  let invalid := policyCompileError
    (lit "HTTP policy namespace[" ++ ofNat index ++ lit "] is invalid or duplicated")
  match normalize (strOr («namespace».prop "prefix") []) false with
  | .error _ => .error invalid
  | .ok root =>
    if id.isEmpty ∨ id ∈ seen ∨ routeKey.isEmpty then .error invalid
    else match routeDefaultOf defaults routeKey with
      | none =>
        .error (policyCompileError
          (lit "HTTP policy namespace " ++ quoted id ++ lit " has no route default"))
      | some routeDefault => do
          let partitions ← (representativePaths localeLe root entries).mapM fun representative =>
            evaluateRepresentative representative entries routeDefault
          let requireAuthenticated :=
            «namespace».prop "requireAuthenticated" == some (.bool true)
          if requireAuthenticated && !partitions.all Partition.allAuthenticated then
            .error (policyCompileError
              (lit "private HTTP policy namespace " ++ quoted id ++
                (lit " is not authenticated for every path/method partition"))
              "PRIVATE_HTTP_POLICY_INVALID")
          else .ok {
            id := id
            kind := strOr («namespace».prop "kind") "route"
            routeKey := routeKey
            slug := strOr («namespace».prop "slug") []
            root := root
            requireAuthenticated := requireAuthenticated
            partitions := partitions }

/-- The namespaces from an index on; `seen` are the ids before. -/
def compileNamespaces (localeLe : Str → Str → Bool) (entries : List Entry)
    (defaults : List (Str × Decision)) :
    List Str → Nat → List Json → Except CodedError (List Namespace)
  | _, _, [] => .ok []
  | seen, index, «namespace» :: rest => do
      let head ← compileNamespace localeLe entries defaults seen index «namespace»
      let tail ← compileNamespaces localeLe entries defaults (head.id :: seen) (index + 1) rest
      return head :: tail

/-- `compileHttpRoutePolicy({ entries, namespaces, routeDefaults })`. -/
def compileHttpRoutePolicy (localeLe : Str → Str → Bool) (entries namespaces : List Json)
    (routeDefaults : List (Str × Json)) : Except CodedError CompiledPolicy := do
  let entries ← compileEntries 0 entries
  let defaults ← compileDefaults routeDefaults
  let namespaces ← compileNamespaces localeLe entries defaults [] 0 namespaces
  return { entries := entries, routeDefaults := defaults, namespaces := namespaces }

end Ploinky.Policy
