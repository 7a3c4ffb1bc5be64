import Ploinky.Js.Error
import Ploinky.Js.Uri

/-!
# Policy paths

The embedding of `HttpRouteAccessPath` and of the detector for router-owned `__agent` segments. A
policy path is an absolute path that may end in `/*`. `normalize` checks a raw path and returns the
path without its query; `matchesPath` decides whether a request path is governed by an entry path.
-/

namespace Ploinky.Policy

open Js

/-- The methods a public route admits without a public protocol. -/
def readOnlyMethods : List Str := ["GET", "HEAD"]

/-- Paths the router answers itself. -/
def internalExact : List Str := ["/policy/command", "/metrics", "/health", "/health/internal"]

/-- First segments the router owns. -/
def routerOwnedFirstSegments : List Str :=
  ["agent-card", "mcp", "auth", "admin", "webchat", "webtty", "status", "upload", "blobs",
    "workspace-files", "api", "health", "metrics", "MCPBrowserClient.js", "web-libs"]

/-- Decode a segment until it no longer changes, at most `passes` times. -/
def decodePasses : Nat → Str → Str
  | 0, current => current
  | passes + 1, current =>
    match decodeURIComponent current with
    | none => current
    | some next => if next = current then current else decodePasses passes next

/-- `fullyDecodeSegment(segment)`. -/
def fullyDecodeSegment (segment : Str) : Str := decodePasses 3 segment

/-- `hasInternalAgentSegment(path)`: some segment is `__agent`, raw or percent-encoded. -/
def hasInternalAgentSegment (path : Str) : Bool :=
  let pathname := before (before path '?') '#'
  (nonEmpty (split pathname '/')).any fun segment =>
    segment == lit "__agent" || fullyDecodeSegment segment == lit "__agent"

/-- `pathValue.split('/').filter(Boolean)[0] || ''`. -/
def routeKeyForPath (path : Str) : Str := (nonEmpty (split path '/')).head?.getD []

/-- Whether an entry path ends in the wildcard segment. -/
def isWildcard (path : Str) : Bool := endsWith path ['/', '*']

/-- The path without its closing `/*`. -/
def stripWildcard (path : Str) : Str := if isWildcard path then path.dropLast.dropLast else path

/-- The core of a path: what precedes the wildcard segment, or `/` when nothing does. -/
def coreOf (path : Str) : Str :=
  if isWildcard path then (if (stripWildcard path).isEmpty then ['/'] else stripWildcard path)
  else path

/-- `HttpRouteAccessPath.isInternal(pathValue)`. -/
def isInternal (raw : Str) : Bool :=
  let core := coreOf raw
  raw == lit "/" || raw == lit "/*" || core.isEmpty || core == lit "/" ||
    internalExact.contains core ||
    core == lit "/auth" || startsWith core "/auth/" ||
    core == lit "/admin" || startsWith core "/admin/" ||
    hasInternalAgentSegment core || routerOwnedFirstSegments.contains (routeKeyForPath core)

/-- A character that may follow the first letter of a URI scheme. -/
def isSchemeChar (c : Char) : Bool := isAlnum c || c == '+' || c == '.' || c == '-'

/-- The pattern `/[a-z][a-z0-9+.-]*:\/\//i`. -/
def hasScheme : Str → Bool
  | [] => false
  | c :: rest =>
    ((isLower c || isUpper c) && startsWith (rest.dropWhile isSchemeChar) "://") ||
      hasScheme rest

/-- The pattern `/%2f|%5c/i`. -/
def hasEncodedSeparator : Str → Bool
  | [] => false
  | c :: rest =>
    (match c, rest with
      | '%', '2' :: x :: _ => x == 'f' || x == 'F'
      | '%', '5' :: x :: _ => x == 'c' || x == 'C'
      | _, _ => false) || hasEncodedSeparator rest

/-- The reason a path is refused. -/
structure PathError where
  error : Str
  code : Str
  deriving DecidableEq

/-- The code of a malformed path. -/
def invalidPath (error : Str) : PathError := ⟨error, "INVALID_PATH"⟩

/-- The code of a misplaced wildcard. -/
def invalidWildcard (error : Str) : PathError := ⟨error, "INVALID_WILDCARD"⟩

/-- The checks of `normalize` on a path whose query is cut off. The result is the path itself, put
together again from its core when it is a wildcard. -/
def checkPath (value : Str) (allowWildcard : Bool) : Except PathError Str :=
  let core := coreOf value
  let path := if isWildcard value then core ++ ['/', '*'] else core
  if value.contains '#' then .error (invalidPath "fragment not allowed")
  else if value.contains '\x00' then .error (invalidPath "NUL not allowed")
  else if value.contains '\\' then .error (invalidPath "backslash not allowed")
  else if hasScheme value then .error (invalidPath "scheme not allowed")
  else if !startsWith value ['/'] then .error (invalidPath "path must start with /")
  else if hasEncodedSeparator value then
    .error (invalidPath "encoded slash/backslash not allowed")
  else if isWildcard value && !allowWildcard then
    .error (invalidWildcard "wildcard not allowed here")
  else if core.contains '*' then
    .error (invalidWildcard "wildcard is only allowed as a trailing /*")
  else if includes core ['/', '/'] then .error (invalidPath "double slash not allowed")
  else if (split core '/').contains ['.', '.'] || (split core '/').contains ['.'] then
    .error (invalidPath "relative path segments not allowed")
  else if isInternal path then
    .error ⟨"internal route path is not policy-controlled", "INTERNAL_ROUTE_NOT_ALLOWED"⟩
  else .ok path

/-- `HttpRouteAccessPath.normalize(rawPath, { allowWildcard })`. The result is the `path` of the
accepted record; its `isWildcard` and `prefix` are functions of the path. -/
def normalize (raw : Str) (allowWildcard : Bool := true) : Except PathError Str :=
  if (trim raw).isEmpty then .error (invalidPath "path must be a non-empty string")
  else checkPath (before (trim raw) '?') allowWildcard

/-- `HttpRouteAccessPath.matches(requestPath, entryPath)`. -/
def matchesPath (requestPath entryPath : Str) : Bool :=
  if isWildcard entryPath then
    requestPath == stripWildcard entryPath ||
      startsWith requestPath (stripWildcard entryPath ++ ['/'])
  else requestPath == entryPath

end Ploinky.Policy
