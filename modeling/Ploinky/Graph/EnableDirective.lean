import Ploinky.Graph.DependencyGraph

/-!
# The directives of `enable` entries

The embedding of `parseEnableDirective`, `qualifyEnableSpecForRepo`, `parseManifestDependencyRef` and
`findAgent`, through which an `enable` entry of a manifest is resolved to an agent.
-/

namespace Ploinky.Workspace

open Js Edge

/-- The words of a text. -/
def words (text : Str) : List Str := nonEmpty ((trim text).splitOnP isSpace)

/-- The words of an entry that are not `no-wait`. -/
def directiveWords (entry : Json) : List Str :=
  (words (strOr (some entry) [])).filter fun token => toLowerCase token != lit "no-wait"

/-- `parseEnableDirective(entry)` for an entry that is no object. -/
def parseEnableText (entry : Json) : Except Str (Option Directive) :=
  let all := words (strOr (some entry) [])
  let tokens := directiveWords entry
  let noWait := all.any fun token => toLowerCase token == lit "no-wait"
  let spec := tokens.takeWhile fun token => toLowerCase token != lit "as"
  let complain (missing : Str) : Except Str (Option Directive) :=
    .error (lit "manifest enable entry '" ++ entry.toStr ++ lit "' is missing " ++ missing)
  if all.isEmpty then .ok none
  else match tokens.drop spec.length with
    | [_] => complain "alias name after \"as\""
    | _ :: aliasName :: _ =>
      if spec.isEmpty then complain "agent reference" else .ok (some ⟨join spec ' ', aliasName, [], noWait⟩)
    | [] => if spec.isEmpty then complain "agent reference" else .ok (some ⟨join spec ' ', [], [], noWait⟩)

/-- What the other properties of an object entry change of its directive. -/
def withOptions (entry : Json) (parsed : Directive) : Directive where
  spec := parsed.spec
  aliasName :=
    match coalesce (entry.prop "alias") (coalesce (entry.prop "as") none) with
    | some value => strOr (some value) []
    | none => parsed.aliasName
  profile :=
    match entry.prop "profile" with
    | some (.str profile) => toLowerCase (trim profile)
    | _ => []
  noWait := entry.prop "noWait" == some (.bool true) || entry.prop "no-wait" == some (.bool true) ||
    parsed.noWait

mutual

/-- `parseEnableDirective(entry)`. The agent of an object may be an object again. -/
def parseEnableDirective : Json → Except Str (Option Directive)
  | .null => .ok none
  | .obj fields =>
    match parseProperty "agent" fields <|> parseProperty "ref" fields <|> parseProperty "spec" fields <|>
        parseProperty "name" fields with
    | none => .ok none
    | some (.error message) => .error message
    | some (.ok parsed) => .ok (parsed.map (withOptions (.obj fields)))
  | entry => parseEnableText entry

/-- The directive of a property, unless the property is missing or `null`. -/
def parseProperty (key : Str) : List (Str × Json) → Option (Except Str (Option Directive))
  | [] => none
  | (name, value) :: rest =>
    if name = key then
      match value with
      | .null => none
      | value => some (parseEnableDirective value)
    else parseProperty key rest

end

/-- The repositories of agents. -/
structure Repositories where
  /-- `listAgentRepositoryNames()`. -/
  installed : List Str
  /-- `loadEnabledRepos()`. -/
  enabled : List Str
  /-- The repository has a manifest for the agent. -/
  hasManifest : Str → Str → Bool
  /-- The path of that manifest. -/
  manifestPath : Str → Str → Str

/-- `qualifyEnableSpecForRepo(spec, repoName)`. -/
def qualifyEnableSpecForRepo (repositories : Repositories) (spec repoName : Str) : Str :=
  let raw := trim spec
  let repo := trim repoName
  if raw.isEmpty || repo.isEmpty then raw
  else match words raw with
    | [] => raw
    | token :: rest =>
      if token.contains '/' || token.contains ':' || !repositories.hasManifest repo token then raw
      else join ((repo ++ '/' :: token) :: rest) ' '

/-- The agent of a directive's text, before its mode. -/
def referenceOf (text : Str) : Str :=
  if text.contains ':' then trim (before text ':') else ((words text).head?).getD []

/-- `parseManifestDependencyRef(agentRef)`. -/
def parseManifestDependencyRef (agentRef : Str) : Str :=
  match parseEnableDirective (.str agentRef) with
  | .ok (some directive) => referenceOf (trim directive.spec)
  | .ok none => []
  | .error _ => referenceOf (trim agentRef)

/-- `findAgent(agentName)`. -/
def findAgent (repositories : Repositories) (agentName : Str) : Except Str Agent :=
  let agentOf (repo short : Str) : Agent := ⟨repo, short, repositories.manifestPath repo short⟩
  let notFound : Except Str Agent := .error (lit "Agent '" ++ agentName ++ lit "' not found.")
  let searchRepos (repos : List Str) : List Str := repos.filter fun repo => repositories.hasManifest repo agentName
  if agentName.contains ':' || agentName.contains '/' then
    match agentName.splitOnP fun c => c == ':' || c == '/' with
    | repoName :: shortAgentName :: _ =>
      if repositories.hasManifest repoName shortAgentName then .ok (agentOf repoName shortAgentName)
      else notFound
    | _ => notFound
  else if repositories.installed.isEmpty then
    .error "Ploinky environment not initialized. No repos found."
  else
    let primaryRepos := if repositories.enabled.isEmpty then repositories.installed
      else repositories.enabled.filter fun repo => repositories.installed.contains repo
    let fallbackRepos := if repositories.enabled.isEmpty then []
      else repositories.installed.filter fun repo => !primaryRepos.contains repo
    let found := searchRepos primaryRepos
    match if found.isEmpty then searchRepos fallbackRepos else found with
    | [] => notFound
    | [repo] => .ok (agentOf repo agentName)
    | repos => .error (lit "Agent name '" ++ agentName ++
        lit "' is ambiguous. Please use one of the following:\n" ++
        join (repos.map fun repo => repo ++ ':' :: agentName) '\n')

/-- A workspace with one repository, whose manifests have `enable` lists and nothing else. -/
def enablingSources (lists : Table (List Json)) : Sources where
  findAgent := findAgent ⟨["r"], [], fun repo agent => repo == lit "r" && (lists.lookup agent).isSome,
    fun _ agent => agent⟩
  readManifest path :=
    match lists.lookup path with
    | some entries => .ok (.obj [("enable", .arr entries)])
    | none => .error "ENOENT"
  checkManifest _ _ := .ok ()
  checkNetwork _ _ _ := .ok ()
  authMode _ _ := .ok "none"
  activeProfile := "default"
  registry := []
  parseEnableDirective := parseEnableDirective
  qualifyEnableSpecForRepo := qualifyEnableSpecForRepo
    ⟨["r"], [], fun repo agent => repo == lit "r" && (lists.lookup agent).isSome, fun _ agent => agent⟩
  parseManifestDependencyRef := parseManifestDependencyRef
  isSsoProvider _ := false

/-- The resolution of a static agent, with nothing else chosen. -/
def plainOptions (staticAgentRef : Str) : GraphOptions where
  staticAgentRef := staticAgentRef
  workspaceProfile := []
  rootProfile := []
  rootAlias := []
  tolerance := ⟨false, false⟩
  preflight _ := .ok ()

end Ploinky.Workspace
