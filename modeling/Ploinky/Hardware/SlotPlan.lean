import Ploinky.Hardware.Evaluate

/-!
# Planning the slots of the availability store

The embedding of `planNoWaitAvailabilitySlots`: terminal slots are latched into entries or retired with
the entry they supersede; staging then retires what no longer applies and adds the slots of the launches
that are about to start. The entry of a route is read from a plain object, so a route whose name every
object inherits is read as something that is no entry.
-/

namespace Ploinky.Hardware

open Js Edge AssocList

/-- `mode`. -/
inductive PlanMode where
  | resolve
  | staging
  deriving DecidableEq

/-- How a slot or an entry was resolved. -/
inductive ResolutionKind where
  | latched
  | retired (evidenceClass : EvidenceClass)
  | retiredNotApplicable
  | retiredRespawned (evidenceClass : EvidenceClass)
  | retiredStaleEntry
  deriving DecidableEq

/-- An entry of `resolutions`. -/
structure Resolution where
  routeKey : Str
  runId : Option Json
  resolution : ResolutionKind

/-- The variables of the planner. -/
structure Draft where
  entries : Table Json
  slots : Table Json
  resolutions : List Resolution

/-- `sortedRouteKeys(object)`. -/
def sortedRouteKeys (table : Table Json) : List Str :=
  (table.map Prod.fst).insertionSort fun a b => le a b

/-- `object[key] = value` on an object in its property order. -/
def assign (table : Table Json) (field : Str × Json) : Table Json := enumerate (setProperty table field)

/-- `supersedeEntry(routeKey, tuple)`. -/
def supersedeEntry (entries : Table Json) (routeKey : Str) (tuple : Tuple) : Except Str (Table Json) :=
  match read entries (.obj []) routeKey with
  | none => .ok entries
  | some entry =>
    if !entry.truthy then .ok entries
    else do
      let projection ← entryProjection entry
      return if sameTuple (tupleOf projection) tuple then erase entries routeKey else entries

/-- The text of a whole number. -/
def ofInt (n : Int) : Str := if n < 0 then '-' :: ofNat n.natAbs else ofNat n.natAbs

variable (platform : Platform)

/-- `Date.parse(value)`. -/
def dateNumber (value : Option Json) : Json :=
  match ((value.bind Json.str?).bind platform.parseDate) with
  | some ms => .num (ofInt ms)
  | none => .num "NaN"

/-- The source of a latched entry. -/
def latchedSource (slot projection : Json) : List (Str × Option Json) :=
  [("kind", some (.str "no-wait-terminal")), ("runId", slot.prop "runId"),
    ("runStartedAtMs", slot.prop "runStartedAtMs"), ("waveIndex", slot.prop "waveIndex"),
    ("statusFile", slot.prop "statusFile"),
    ("finishedAtMs", some (dateNumber platform (projection.prop "observedAt")))]

/-- The entry that a slot with active evidence becomes. -/
def latchedEntry (slot projection : Json) : Json :=
  .obj [("projection", projection), ("source", presentFields (latchedSource platform slot projection))]

/-- One turn of the loop over the terminal slots. -/
def resolveSlot (slots : Table Json) (evaluation : Evaluation) (draft : Draft)
    (routeKey : Str) : Except Str Draft :=
  let slot := (slots.lookup routeKey).getD .null
  match evaluation.slots.lookup routeKey with
  | none => .ok draft
  | some evidence =>
    if !strictEq evidence.runId (slot.prop "runId") ||
        !terminalSlotEvidenceClasses.contains evidence.evidenceClass then .ok draft
    else if evidence.evidenceClass = .active then
      let projection := (evaluation.projections.lookup routeKey).getD .null
      .ok ⟨assign draft.entries (routeKey, latchedEntry platform slot projection),
        erase draft.slots routeKey,
        draft.resolutions ++ [⟨routeKey, slot.prop "runId", .latched⟩]⟩
    else do
      let entries ← supersedeEntry draft.entries routeKey (tupleOf slot)
      return ⟨entries, erase draft.slots routeKey,
        draft.resolutions ++ [⟨routeKey, slot.prop "runId", .retired evidence.evidenceClass⟩]⟩

/-- `routeNowTargeted(slot, routeKey, generation)`. -/
def routeNowTargeted (slot : Json) (routeKey : Str) (generation : Captured) : Bool :=
  match read generation.routes (.obj []) routeKey with
  | none => false
  | some route =>
    route.truthy && strictEq (route.prop "container") (slot.prop "key") &&
      tupleIsCurrent (tupleOf slot) generation && !routeIsTargetLess platform route

variable (generation : Captured)

/-- The entries without the one that the successor of the slot's run superseded. -/
def supersedeTargeted (entries : Table Json) (routeKey : Str)
    (slot : Json) : Except Str (Table Json) :=
  if routeNowTargeted platform slot routeKey generation then
    supersedeEntry entries routeKey (tupleOf slot)
  else .ok entries

/-- A slot that does not apply any more is retired, and with it the entry its successor superseded. -/
def retireInapplicable (draft : Draft) (routeKey : Str)
    (slot : Json) : Except Str Draft := do
  let entries ← supersedeTargeted platform generation draft.entries routeKey slot
  return ⟨entries, erase draft.slots routeKey,
    draft.resolutions ++ [⟨routeKey, slot.prop "runId", .retiredNotApplicable⟩]⟩

/-- One turn of the staging loop over the slots. -/
def retireSlot (evaluation : Evaluation)
    (respawned : List Str) (draft : Draft) (routeKey : Str) : Except Str Draft :=
  let slot := (draft.slots.lookup routeKey).getD .null
  match evaluation.slots.lookup routeKey with
  | none => retireInapplicable platform generation draft routeKey slot
  | some evidence =>
    if !strictEq evidence.runId (slot.prop "runId") then
      retireInapplicable platform generation draft routeKey slot
    else if routeKey ∈ respawned then .ok ⟨draft.entries, erase draft.slots routeKey,
      draft.resolutions ++ [⟨routeKey, slot.prop "runId", .retiredRespawned evidence.evidenceClass⟩]⟩
    else .ok draft

/-- One turn of the staging loop over the entries. -/
def retireEntry (draft : Draft) (routeKey : Str) : Except Str Draft := do
  let projection ← entryProjection ((draft.entries.lookup routeKey).getD .null)
  return if tupleIsCurrent (tupleOf projection) generation then draft
    else ⟨erase draft.entries routeKey, draft.slots,
      draft.resolutions ++ [⟨routeKey, none, .retiredStaleEntry⟩]⟩

/-- The slot of a spawned run, with its grace. -/
def spawnedSlot (slot : Json) (startupGraceMs : Json) : Json :=
  match slot.prop "startupGraceMs" with
  | none | some .null => .obj (setProperty slot.entries ("startupGraceMs", startupGraceMs))
  | some _ => slot

/-- A slot for each spawned run. -/
def addSpawned (startupGraceMs : Json) (spawned : List (Str × Json)) (slots : Table Json) : Table Json :=
  spawned.foldl (fun slots run => assign slots (run.1, spawnedSlot run.2 startupGraceMs)) slots

/-- The second part of the planner, for staging. -/
def stageSlots (evaluation : Evaluation)
    (spawned : List (Str × Json)) (startupGraceMs : Json) (draft : Draft) : Except Str Draft := do
  let retired ← (sortedRouteKeys draft.slots).foldlM
    (retireSlot platform generation evaluation (spawned.map Prod.fst)) draft
  let current ← (sortedRouteKeys retired.entries).foldlM (retireEntry generation) retired
  return { current with slots := addSpawned startupGraceMs spawned current.slots }

/-- The result of the planner. `resolved` are the entries and slots after the first part. -/
structure SlotPlan where
  entries : Table Json
  slots : Table Json
  resolutions : List Resolution
  resolved : Table Json × Table Json
  changed : Bool

/-- The text by which the planner compares two contents of the store. -/
def contentText (entries slots : Table Json) : Str :=
  platform.stringifyJson (.arr [.obj entries, .obj slots])

/-- The plan that the variables give. -/
def planOf (entries slots : Table Json) (resolved : Draft) (draft : Draft) : SlotPlan :=
  ⟨draft.entries, draft.slots, draft.resolutions, (resolved.entries, resolved.slots),
    contentText platform draft.entries draft.slots != contentText platform entries slots⟩

/-- `planNoWaitAvailabilitySlots({ mode, store, generation, evaluation, spawned, startupGraceMs })`. -/
def planNoWaitAvailabilitySlots (mode : PlanMode) (entries slots : Table Json)
    (generation : Captured) (evaluation : Evaluation) (spawned : List (Str × Json))
    (startupGraceMs : Json) : Except Str SlotPlan := do
  let resolved ← (sortedRouteKeys slots).foldlM (resolveSlot platform slots evaluation) ⟨entries, slots, []⟩
  match mode with
  | .resolve => return planOf platform entries slots resolved resolved
  | .staging => do
      let staged ← stageSlots platform generation evaluation spawned startupGraceMs resolved
      return planOf platform entries slots resolved staged

end Ploinky.Hardware
