import Ploinky.Webtty.FailClosed

/-!
# Revoking the terminals of a user

Read `revocation_reaches_iff` first. A revocation marks every creation of the user that has begun
(`Creation.Revoked`), and no move takes the mark away (`Grows`). It finds them through `ownerIndex`, which names
exactly the creations that are pending or listed (`Indexed`).
-/

namespace Ploinky.Webtty

open Js Relation Transition Manager Creation List AssocList

open Option hiding any_eq_true

namespace Creation

/-- The attempt is in `pendingCreations`. -/
def isPending (c : Creation) : Bool := c.session.isNone && c.progress ≠ .rejected

/-- Its session is in the table. -/
def isListed (c : Creation) : Bool := c.session.any Session.isListed

/-- The attempt was cancelled or is over, or the close of its session was called. -/
def Revoked (c : Creation) : Prop :=
  match c.session with
  | none => c.progress = .rejected ∨ c.cancellation ≠ []
  | some s => s.stage ≠ .idle

end Creation

/-- What no move takes back. -/
structure Grows (c c' : Creation) : Prop where
  owner : c'.owner = c.owner
  revoked : c.Revoked → c'.Revoked
  started : ∀ s, c.session = some s → s.startupInProgress = false →
    ∃ s', c'.session = some s' ∧ s'.startupInProgress = false

theorem Grows.refl (c : Creation) : Grows c c := ⟨rfl, id, fun s hs h => ⟨s, hs, h⟩⟩

theorem Grows.trans {a b c : Creation} (h : Grows a b) (h' : Grows b c) : Grows a c := by
  refine ⟨h'.owner.trans h.owner, h'.revoked ∘ h.revoked, fun s hs hstart => ?_⟩
  obtain ⟨s', hs', hstart'⟩ := h.started s hs hstart
  exact h'.started s' hs' hstart'

/-- An edit, which leaves the tables as they are, also leaves the place of the creation in them. -/
structure Keeps (c c' : Creation) : Prop extends Grows c c' where
  pending : c'.isPending = c.isPending
  listed : c'.isListed = c.isListed

section Edits

variable {safety : Safety} {c : Creation} {s s' : Session}

/-- The session changes, but not between the stages in which it is listed and the others. -/
theorem keeps_session (hs : c.session = some s) (progress : Progress) (hlisted : s'.isListed = s.isListed)
    (hstage : s.stage ≠ .idle → s'.stage ≠ .idle)
    (hstart : s.startupInProgress = false → s'.startupInProgress = false) :
    Keeps c { c with progress, session := some s' } := by
  refine ⟨⟨rfl, ?_, fun t ht h => ?_⟩, ?_, ?_⟩
  · simpa only [Creation.Revoked, hs] using hstage
  · obtain rfl := some.inj (hs.symm.trans ht)
    exact ⟨s', rfl, hstart h⟩
  · simp [isPending, hs]
  · simp [isListed, hs, hlisted]

theorem keeps_stage (hs : c.session = some s) (progress : Progress) (hstage : s'.stage = s.stage)
    (hstart : s.startupInProgress = false → s'.startupInProgress = false) :
    Keeps c { c with progress, session := some s' } :=
  keeps_session hs progress (by simp only [Session.isListed, hstage]) (fun h => hstage ▸ h) hstart

theorem not_listed_of_remaining (h : 0 < s.remaining) : s.isListed = false ∧ s.stage ≠ .idle := by
  unfold Session.remaining at h
  unfold Session.isListed
  cases hs : s.stage <;> simp [hs] at h ⊢

theorem stage_ne_idle (h : s.isListed = false) : s.stage ≠ .idle := by
  intro hs
  simp [Session.isListed, hs] at h

/-- The attempt changes, but not its session. -/
theorem keeps_attempt {cancellation : Str} {progress : Progress} {adminAdmittedAt : Nat}
    (hcancel : c.cancellation ≠ [] → cancellation ≠ [])
    (hprogress : progress = .rejected ↔ c.progress = .rejected) :
    Keeps c { c with cancellation, progress, adminAdmittedAt } := by
  refine ⟨⟨rfl, fun hrevoked => ?_, fun s hs hstart => ⟨s, hs, hstart⟩⟩, ?_, rfl⟩
  · unfold Creation.Revoked at hrevoked ⊢
    cases hs : c.session with
    | none =>
      simp only [hs] at hrevoked ⊢
      exact hrevoked.imp hprogress.mpr hcancel
    | some s => simpa only [hs] using hrevoked
  · simp [isPending, hprogress]

theorem keeps_edit {next : Safety × Creation} (h : c.Ok safety) (hedit : Edit (safety, c) next) :
    Keeps c next.2 := by
  cases hedit with
  | cancel hactive reason => exact keeps_attempt (fun hcancelled => absurd hactive hcancelled) Iff.rfl
  | admitAgain time => exact keeps_attempt id Iff.rfl
  | advance hsession hprogress progress hnext =>
    refine keeps_attempt id ?_
    rcases hnext with rfl | rfl <;> simp [hprogress]
  | startup hsession hprogress hgives =>
    obtain ⟨record, initRequested, heq, -⟩ := afterStartup_eq hgives (h.sound _ hsession).init
    rw [heq]
    exact keeps_stage hsession c.progress rfl id
  | next hprogress => exact keeps_attempt id (by simp [hprogress])
  | fail hsession hprogress => exact keeps_stage hsession _ rfl fun _ => rfl
  | cancelling hsession hstage hstart hreason hexited =>
    exact keeps_session hsession c.progress (by simp [Session.isListed, hstage]) (fun _ => by simp) id
  | awaiting hsession hstage =>
    exact keeps_session hsession c.progress (by simp [Session.isListed, hstage]) (fun _ => by simp) id
  | report hsession hlive category =>
    obtain ⟨-, -, hstart, hstage⟩ := onTerminalError_spec (h.sound _ hsession) hlive category
    exact keeps_stage hsession c.progress hstage fun h => hstart.trans h
  | exit hsession => exact keeps_stage hsession c.progress rfl id
  | prove hsession => exact keeps_stage hsession c.progress rfl id
  | close hsession hclose =>
    obtain ⟨n, hn, hcloses⟩ := closes_resumeClose (h.sound _ hsession) hclose
    have hlisted := (not_listed_of_remaining (Nat.zero_lt_of_lt hn)).1
    exact keeps_session hsession c.progress (hcloses.listed.trans hlisted.symm)
      (fun _ => stage_ne_idle hcloses.listed) fun h => hcloses.startup.trans h
  | disable hle => exact ⟨.refl c, rfl, rfl⟩

theorem keeps_edits {first next : Safety × Creation} (h : first.2.Ok first.1)
    (hedits : ReflTransGen Edit first next) : Keeps first.2 next.2 := by
  induction hedits with
  | refl => exact ⟨.refl _, rfl, rfl⟩
  | tail hbefore hedit ih =>
    have hkeeps := keeps_edit (ok_edits h hbefore).2 hedit
    exact ⟨ih.toGrows.trans hkeeps.toGrows, hkeeps.pending.trans ih.pending, hkeeps.listed.trans ih.listed⟩

end Edits

section Index

variable {index : List (Str × List Str)}

theorem mem_addOwned {p id q key : Str} :
    key ∈ ((addOwned index p id).lookup q).getD [] ↔ key ∈ (index.lookup q).getD [] ∨ q = p ∧ key = id := by
  unfold addOwned
  rw [lookup_set]
  by_cases hq : q = p
  · simp [hq]
  · simp [hq]

theorem mem_dropOwned {p id q key : Str} :
    key ∈ ((dropOwned index p id).lookup q).getD [] ↔ key ∈ (index.lookup q).getD [] ∧ ¬(q = p ∧ key = id) := by
  unfold dropOwned
  dsimp only
  by_cases hq : q = p
  · subst hq
    split
    · rename_i hempty
      rw [lookup_erase]
      simp only [List.isEmpty_iff, List.filter_eq_nil_iff] at hempty
      simpa using hempty key
    · simp [lookup_set]
  · split
    · simp [lookup_erase, hq]
    · simp [lookup_set, hq]

end Index

/-- The tables name this creation as its state says. -/
structure Filed (m : Manager) (id : Str) (entry : Option Creation) : Prop where
  pending : id ∈ m.pendingCreations ↔ entry.any isPending = true
  listed : id ∈ m.sessions ↔ entry.any isListed = true
  owned : ∀ p, id ∈ m.owned p ↔ entry.any (fun c => c.owner = p && (c.isPending || c.isListed)) = true

/-- The tables name the creations in the states that go with them. -/
def Indexed (m : Manager) : Prop := ∀ id, Filed m id (m.creations.lookup id)

/-- The two managers agree on this creation. -/
structure Manager.SameAt (id : Str) (m m' : Manager) : Prop where
  creations : m'.creations.lookup id = m.creations.lookup id
  sessions : id ∈ m'.sessions ↔ id ∈ m.sessions
  pending : id ∈ m'.pendingCreations ↔ id ∈ m.pendingCreations
  owned : ∀ p, id ∈ m'.owned p ↔ id ∈ m.owned p

/-- Every creation of the first is in the second, with what no move takes back. -/
def Manager.Grows (m m' : Manager) : Prop :=
  ∀ id c, m.creations.lookup id = some c → ∃ c', m'.creations.lookup id = some c' ∧ Webtty.Grows c c'

section Moves

variable {m m' m'' : Manager} {id key : Str} {c c' : Creation} {s : Session}

section Filing

variable (h : Indexed m) (hc : m.creations.lookup id = some c)

include h hc

theorem Indexed.filed : Filed m id (some c) := hc ▸ h id

theorem Indexed.mem_pending : id ∈ m.pendingCreations ↔ c.isPending = true := (h.filed hc).pending

theorem Indexed.mem_sessions : id ∈ m.sessions ↔ c.isListed = true := (h.filed hc).listed

theorem Indexed.mem_owned (p : Str) :
    id ∈ m.owned p ↔ c.owner = p ∧ (c.isPending = true ∨ c.isListed = true) := by
  simp [(h.filed hc).owned]

end Filing

theorem Manager.SameAt.refl (id : Str) (m : Manager) : m.SameAt id m := ⟨rfl, .rfl, .rfl, fun _ => .rfl⟩

theorem Manager.SameAt.trans (h : m.SameAt id m') (h' : m'.SameAt id m'') : m.SameAt id m'' :=
  ⟨h'.creations.trans h.creations, h'.sessions.trans h.sessions, h'.pending.trans h.pending, fun p =>
    (h'.owned p).trans (h.owned p)⟩

theorem Manager.SameAt.filed (h : m.SameAt id m') (hfiled : Filed m id (m.creations.lookup id)) :
    Filed m' id (m'.creations.lookup id) := by
  rw [h.creations]
  exact ⟨h.pending.trans hfiled.pending, h.sessions.trans hfiled.listed, fun p =>
    (h.owned p).trans (hfiled.owned p)⟩

theorem sameAt_put {safety : Safety} (h : key ≠ id) : m.SameAt key ({ m with safety }.put id c) :=
  ⟨(lookup_put _ _ _ _).trans (if_neg h), .rfl, .rfl, fun _ => .rfl⟩

theorem sameAt_retire (h : key ≠ id) (options : CloseOptions) : m.SameAt key (m.retire id c s options) :=
  ⟨(sameAt_put h).creations, by simp [retire, h], .rfl, fun p =>
    mem_dropOwned.trans (by simp [h, owned])⟩

theorem sameAt_endCreate (h : key ≠ id) (owner : Str) : m.SameAt key ((m.put id c).endCreate id owner) := by
  refine ⟨(sameAt_put h).creations, .rfl, by simp [endCreate, put, h], fun p => ?_⟩
  unfold owned endCreate
  split
  · rfl
  · exact mem_dropOwned.trans (by simp [h, put])

/-- One creation changes, and the tables with it. -/
theorem indexed_update (h : Indexed m) (hother : ∀ key, key ≠ id → m.SameAt key m')
    (hlookup : m'.creations.lookup id = some c') (hself : Filed m' id (some c')) : Indexed m' := by
  intro key
  by_cases hkey : key = id
  · rw [hkey, hlookup]
    exact hself
  · exact (hother key hkey).filed (h key)

/-- One creation changes into one with what no move takes back. -/
theorem tracks_update (h : Indexed m) (hc : m.creations.lookup id = some c)
    (hother : ∀ key, key ≠ id → m.SameAt key m') (hlookup : m'.creations.lookup id = some c')
    (hself : Filed m' id (some c')) (hgrows : Webtty.Grows c c') : Indexed m' ∧ m.Grows m' := by
  refine ⟨indexed_update h hother hlookup hself, fun key d hd => ?_⟩
  by_cases hkey : key = id
  · subst hkey
    obtain rfl := some.inj (hc.symm.trans hd)
    exact ⟨c', hlookup, hgrows⟩
  · exact ⟨d, (hother key hkey).creations.trans hd, .refl d⟩

theorem lookup_put_self (m : Manager) (id : Str) (c : Creation) : (m.put id c).creations.lookup id = some c :=
  (lookup_put _ _ _ _).trans (if_pos rfl)

/-- A creation that leaves the index is under no user. -/
theorem not_mem_dropOwned (h : Indexed m) (hc : m.creations.lookup id = some c) (p : Str) :
    id ∉ ((dropOwned m.ownerIndex c.owner id).lookup p).getD [] := by
  rw [mem_dropOwned]
  rintro ⟨hmem, hnot⟩
  exact hnot ⟨((h.mem_owned hc p).mp hmem).1.symm, rfl⟩

/-- The `finally` of `create` for an attempt that is not pending any more. -/
theorem filed_endCreate (h : Indexed m) (hc : m.creations.lookup id = some c) (howner : c'.owner = c.owner)
    (hpending : c'.isPending = false) (hlisted : c'.isListed = c.isListed) :
    Filed ((m.put id c').endCreate id c.owner) id (some c') := by
  refine ⟨by simp [endCreate, hpending], (h.filed hc).listed.trans (by simp [hlisted]), fun p => ?_⟩
  have howned := h.mem_owned hc p
  unfold owned endCreate at *
  simp only [put, contains_iff_mem, h.mem_sessions hc]
  split
  · rename_i hl
    simpa [hl, howner, hlisted] using howned
  · rename_i hl
    simpa [hl, hpending, hlisted] using not_mem_dropOwned h hc p

/-- The session of every request that is being validated has started. -/
def Serviceable (m : Manager) : Prop :=
  ∀ r ∈ m.requests, ∃ c s, m.creations.lookup r.sessionId = some c ∧ c.session = some s ∧
    s.startupInProgress = false

theorem tracks_move (hgood : Good m) (h : Indexed m) (hmove : Move m m') : Indexed m' ∧ m.Grows m' := by
  cases hmove with
  | edit hc hedits =>
    have hkeeps := keeps_edits (hgood _ _ hc) hedits
    have hfiled := h.filed hc
    exact tracks_update h hc (fun _ => sameAt_put) (lookup_put_self _ _ _)
      ⟨hfiled.pending.trans (by simp [hkeeps.pending]), hfiled.listed.trans (by simp [hkeeps.listed]),
        fun p => (hfiled.owned p).trans (by simp [hkeeps.owner, hkeeps.pending, hkeeps.listed])⟩ hkeeps.toGrows
  | begin hc =>
    rename_i id owner time
    have hsame (key : Str) (hkey : key ≠ id) : m.SameAt key { m.put id ⟨owner, time, [], .checkingLease, none⟩ with
        pendingCreations := m.pendingCreations ++ [id], ownerIndex := addOwned m.ownerIndex owner id } :=
      ⟨(sameAt_put hkey).creations, .rfl, by simp [hkey], fun p => mem_addOwned.trans (by simp [hkey, owned])⟩
    have hnew := hc ▸ h id
    refine ⟨indexed_update h hsame (lookup_put_self _ _ _) ⟨by simp [isPending], ?_, fun p => ?_⟩,
      fun key d hd => ⟨d, (hsame key ?_).creations.trans hd, .refl d⟩⟩
    · exact hnew.listed.trans (by simp [isListed])
    · have hnone := hnew.owned p
      unfold owned at hnone
      refine mem_addOwned.trans ?_
      simp [hnone, isPending, eq_comm]
    · rintro rfl
      simp [hc] at hd
  | enroll hc hsession hprogress hactive target =>
    rename_i c
    have hpending : c.isPending = true := by simp [isPending, hsession, hprogress]
    refine tracks_update h hc (fun key hkey => ⟨(sameAt_put hkey).creations, ?_, ?_, fun _ => .rfl⟩)
      (lookup_put_self _ _ _) ⟨?_, ?_, fun p => ?_⟩ ⟨rfl, fun hrevoked => ?_, fun s hs => ?_⟩
    · simp [enroll, hkey]
    · simp [enroll, hkey]
    · simp [enroll, isPending]
    · simp [enroll, isListed, Session.isListed]
    · exact (h.mem_owned hc p).trans (by simp [hpending, isListed, Session.isListed])
    · simp [Creation.Revoked, hsession, hprogress, hactive] at hrevoked
    · simp [hsession] at hs
  | retire hc hsession hlisted hstart hexited =>
    rename_i id c s options
    have hout : (s.retire options).isListed = false := by
      unfold Session.retire Session.isListed
      cases options.workerExited <;> rfl
    refine tracks_update h hc (fun _ hkey => sameAt_retire hkey options) (lookup_put_self _ _ _)
      ⟨(h.mem_pending hc).trans (by simp [isPending, hsession]), ?_, fun p => ?_⟩
      ⟨rfl, fun _ => stage_ne_idle hout, fun _ _ _ => ⟨_, rfl, hstart⟩⟩
    · simp [retire, isListed, hout]
    · simpa [retire, owned, isPending, isListed, hout] using
        not_mem_dropOwned h hc p
  | reject hc hclosed =>
    rename_i c
    refine tracks_update h hc (fun _ hkey => sameAt_endCreate hkey _) (lookup_put_self _ _ _)
      (filed_endCreate h hc rfl (by simp [isPending]) rfl)
      ⟨rfl, fun hrevoked => ?_, fun s hs hstart => ⟨s, hs, hstart⟩⟩
    unfold Creation.Revoked at hrevoked ⊢
    cases hs : c.session with
    | none => exact .inl rfl
    | some s => simpa only [hs] using hrevoked
  | fulfil hc hedits hprogress =>
    rename_i c s steps
    have hkeeps := keeps_edits (hgood _ _ hc) hedits
    have hstarted : Keeps { c with session := some s } { c with
        progress := .fulfilled, session := some { s with startupInProgress := false } } :=
      keeps_stage (s := s) rfl _ rfl fun _ => rfl
    exact tracks_update h hc (fun _ hkey => sameAt_endCreate hkey _) (lookup_put_self _ _ _)
      (filed_endCreate h hc rfl (by simp [isPending]) (hstarted.listed.trans hkeeps.listed))
      (hkeeps.toGrows.trans hstarted.toGrows)
  | outside hcreations hpending hsessions hindex _ _ =>
    have hsame (id : Str) : m.SameAt id m' :=
      ⟨by rw [hcreations], by rw [hsessions], by rw [hpending], fun p => by rw [owned, hindex]; rfl⟩
    exact ⟨fun id => (hsame id).filed (h id), fun id c hc => ⟨c, (hsame id).creations.trans hc, .refl c⟩⟩

theorem requests_of_move (hmove : Move m m') {r : Request} (hr : r ∈ m'.requests) :
    r ∈ m.requests ∨ m.mayAuthorize r.sessionId = true := by
  cases hmove with
  | outside _ _ _ _ _ hrequests => exact hrequests r hr
  | _ => exact .inl hr

/-- What every reachable manager is. -/
structure Tracked (m : Manager) : Prop where
  good : Good m
  indexed : Indexed m
  serviceable : Serviceable m

theorem tracked_move (h : Tracked m) (hmove : Move m m') : Tracked m' ∧ m.Grows m' := by
  obtain ⟨hindexed, hgrows⟩ := tracks_move h.good h.indexed hmove
  refine ⟨⟨(good_move h.good hmove).2, hindexed, fun r hr => ?_⟩, hgrows⟩
  have hstarted : ∃ c s, m.creations.lookup r.sessionId = some c ∧ c.session = some s ∧
      s.startupInProgress = false := by
    rcases requests_of_move hmove hr with hr | hmay
    · exact h.serviceable r hr
    · unfold mayAuthorize at hmay
      split at hmay
      · rename_i c s hfind
        obtain ⟨hc, hs⟩ := find_eq_some.mp hfind
        simp only [Bool.and_eq_true, Bool.not_eq_true'] at hmay
        exact ⟨c, s, hc, hs, hmay.2⟩
      · cases hmay
  obtain ⟨c, s, hc, hs, hstart⟩ := hstarted
  obtain ⟨c', hc', hgrow⟩ := hgrows _ c hc
  obtain ⟨s', hs', hstart'⟩ := hgrow.started s hs hstart
  exact ⟨c', s', hc', hs', hstart'⟩

theorem Manager.Grows.trans (h : m.Grows m') (h' : m'.Grows m'') : m.Grows m'' := by
  intro id c hc
  obtain ⟨c', hc', hgrows⟩ := h id c hc
  obtain ⟨c'', hc'', hgrows'⟩ := h' id c' hc'
  exact ⟨c'', hc'', hgrows.trans hgrows'⟩

theorem tracked_moves (h : Tracked m) (hmoves : ReflTransGen Move m m') : Tracked m' ∧ m.Grows m' := by
  induction hmoves with
  | refl => exact ⟨h, fun _ c hc => ⟨c, hc, .refl c⟩⟩
  | tail _ hmove ih =>
    obtain ⟨htracked, hgrows⟩ := tracked_move ih.1 hmove
    exact ⟨htracked, ih.2.trans hgrows⟩

theorem tracked_step {e : Event} (h : Tracked m) (hstep : m.step e = some m') : Tracked m' ∧ m.Grows m' :=
  tracked_moves h (step_moves (fun id c s hc hs => (h.good id c hc).sound s hs) hstep)

theorem tracked_run {events : List Event} (h : Tracked m) (hrun : machine.run m events = some m') :
    Tracked m' ∧ m.Grows m' := by
  induction events generalizing m with
  | nil =>
    obtain rfl := some.inj hrun
    exact ⟨h, fun _ c hc => ⟨c, hc, .refl c⟩⟩
  | cons e rest ih =>
    simp only [Machine.run, bind_eq_some_iff] at hrun
    obtain ⟨next, hstep, hrest⟩ := hrun
    obtain ⟨htracked, hgrows⟩ := tracked_step h hstep
    obtain ⟨htracked', hgrows'⟩ := ih htracked hrest
    exact ⟨htracked', hgrows.trans hgrows'⟩

theorem tracked_initial (safety : Safety) : Tracked (initial safety) :=
  ⟨good_initial safety, fun _ => ⟨by simp [initial], by simp [initial],
    by simp [initial, owned]⟩, by simp [Serviceable, initial]⟩

end Moves

section Effect

variable {m m' : Manager} {id other reason : Str} {c : Creation}

theorem sameAt_closeSession (m : Manager) (h : id ≠ other) (reason : Str) (options : CloseOptions) :
    m.SameAt id (m.closeSession other reason options) := by
  unfold closeSession
  split
  · exact .refl _ _
  · split
    · exact .refl _ _
    · split
      · exact sameAt_put h
      · exact sameAt_retire h options

/-- The entry of another creation is left as it is. -/
theorem sameAt_closeOwnerEntry (m : Manager) (h : id ≠ other) (reason : Str) :
    m.SameAt id (m.closeOwnerEntry reason other) := by
  have hcancel : m.SameAt id (m.cancelPending reason other) := by
    unfold cancelPending
    split
    · split
      · exact sameAt_put h
      · exact .refl _ _
    · exact .refl _ _
  unfold closeOwnerEntry
  dsimp only
  split
  · exact hcancel.trans (sameAt_closeSession _ h reason ⟨false, false⟩)
  · exact hcancel

/-- The entry that is closed is revoked. -/
theorem closeOwnerEntry_revokes (h : Tracked m) (hc : m.creations.lookup id = some c) (hreason : reason ≠ []) :
    ∃ c', (m.closeOwnerEntry reason id).creations.lookup id = some c' ∧ c'.Revoked := by
  by_cases hrevoked : c.Revoked
  · obtain ⟨c', hc', hgrows⟩ := (tracked_moves h (closeOwnerEntry_moves m reason id)).2 id c hc
    exact ⟨c', hc', hgrows.revoked hrevoked⟩
  have hok := h.good id c hc
  unfold Creation.Revoked at hrevoked
  cases hs : c.session with
  | none =>
    simp only [hs, not_or, not_not] at hrevoked
    have hpending : id ∈ m.pendingCreations :=
      (h.indexed.mem_pending hc).mpr (by simp [isPending, hs, hrevoked.1])
    have hsessions : id ∉ m.sessions := by simp [h.indexed.mem_sessions hc, isListed, hs]
    refine ⟨{ c with cancellation := reason }, ?_, by simp [Creation.Revoked, hs, hreason]⟩
    simp [closeOwnerEntry, cancelPending, put, hc, hpending, hrevoked.2, hsessions,
      lookup_set]
  | some s =>
    simp only [hs, not_not] at hrevoked
    have hpending : id ∉ m.pendingCreations := by simp [h.indexed.mem_pending hc, isPending, hs]
    have hsessions : id ∈ m.sessions :=
      (h.indexed.mem_sessions hc).mpr (by simp [isListed, hs, Session.isListed, hrevoked])
    have hopen := (hok.sound s hs).stage
    simp only [Session.StageSound, hrevoked] at hopen
    have hfind : m.find id = some (c, s) := find_eq_some.mpr ⟨hc, hs⟩
    have hcancel : m.cancelPending reason id = m := by simp [cancelPending, hc, hpending]
    have hidle : (s.stage ≠ .idle || s.closed) = false := by simp [hrevoked, hopen.2.1]
    simp only [closeOwnerEntry, hcancel, contains_iff_mem.mpr hsessions, if_true,
      closeSession, hfind, hidle, Bool.false_eq_true, if_false]
    split
    · exact ⟨_, (lookup_put _ _ _ _).trans (if_pos rfl), by simp [Creation.Revoked]⟩
    · exact ⟨_, (lookup_put _ _ _ _).trans (if_pos rfl), by simp [Creation.Revoked, Session.retire]⟩

theorem closeEntries_revokes {chosen : Manager → Str → Bool} (hreason : reason ≠ [])
    (hchosen : ∀ m other, id ≠ other → chosen (m.closeOwnerEntry reason other) id = chosen m id)
    {ids : List Str} (hid : id ∈ ids) (h : Tracked m) (hc : m.creations.lookup id = some c)
    (hm : chosen m id = true) :
    ∃ c', (m.closeEntries reason chosen ids).creations.lookup id = some c' ∧ c'.Revoked := by
  induction ids generalizing m c with
  | nil => cases hid
  | cons head rest ih =>
    have hrest (m' : Manager) (h' : Tracked m') (c' : Creation) (hc' : m'.creations.lookup id = some c')
        (hrevoked : c'.Revoked) :
        ∃ c', (m'.closeEntries reason chosen rest).creations.lookup id = some c' ∧ c'.Revoked := by
      obtain ⟨c'', hc'', hgrows⟩ := (tracked_moves h' (closeEntries_moves m' reason chosen rest)).2 id c' hc'
      exact ⟨c'', hc'', hgrows.revoked hrevoked⟩
    have hclosed := (tracked_moves h (closeOwnerEntry_moves m reason head)).1
    unfold closeEntries
    rw [foldl_cons]
    by_cases hhead : id = head
    · subst hhead
      obtain ⟨c', hc', hrevoked⟩ := closeOwnerEntry_revokes h hc hreason
      rw [if_pos hm]
      exact hrest _ hclosed c' hc' hrevoked
    · have hmem : id ∈ rest := (mem_cons.mp hid).resolve_left hhead
      split
      · have hc' := (sameAt_closeOwnerEntry m hhead reason).creations.trans hc
        exact ih hmem hclosed hc' ((hchosen m head hhead).trans hm)
      · exact ih hmem h hc hm

/-- The event revokes the user of the creation, as far as the creation goes. -/
def Event.Revokes (e : Event) (c : Creation) : Prop :=
  match e with
  | .closePrincipal principal => c.owner = principal
  | .observe decision => decision.revokes = true ∧ c.owner = decision.principal ∧
      c.adminAdmittedAt < decision.decidedAt
  | _ => False

/-- A creation that is neither pending nor listed is over, or its session is being closed. -/
theorem revoked_of_not_owned (hpending : c.isPending = false) (hlisted : c.isListed = false) : c.Revoked := by
  unfold Creation.Revoked
  cases hs : c.session with
  | none => exact .inl (by simpa [isPending, hs] using hpending)
  | some s => exact stage_ne_idle (by simpa [isListed, hs] using hlisted)

theorem revoked_of_step {e : Event} (h : Tracked m) (hstep : m.step e = some m')
    (hc : m.creations.lookup id = some c) (he : e.Revokes c) :
    ∃ c', m'.creations.lookup id = some c' ∧ c'.Revoked := by
  by_cases hrevoked : c.Revoked
  · obtain ⟨c', hc', hgrows⟩ := (tracked_step h hstep).2 id c hc
    exact ⟨c', hc', hgrows.revoked hrevoked⟩
  have hplace : c.isPending = true ∨ c.isListed = true := by
    by_contra hnone
    simp only [not_or, Bool.not_eq_true] at hnone
    exact hrevoked (revoked_of_not_owned hnone.1 hnone.2)
  have howned := (h.indexed.mem_owned hc c.owner).mpr ⟨rfl, hplace⟩
  cases e with
  | closePrincipal principal =>
    obtain rfl : c.owner = principal := he
    obtain rfl := some.inj hstep
    exact closeEntries_revokes (by decide) (fun _ _ _ => rfl) howned h hc rfl
  | observe decision =>
    obtain ⟨hrevokes, howner, htime⟩ := he
    obtain rfl := some.inj hstep
    rw [if_pos hrevokes, ← howner]
    refine closeEntries_revokes (by decide) (fun m other hother => ?_) howned h hc ?_
    · have hsame := sameAt_closeOwnerEntry m hother "owner_admin_revoked"
      simp only [admittedBefore, contains_eq_mem, hsame.creations, hsame.sessions, hsame.pending]
    · rw [← h.indexed.mem_pending hc, ← h.indexed.mem_sessions hc] at hplace
      simp [admittedBefore, hc, htime, hplace.symm]
  | _ => exact he.elim

end Effect

/-- Neither the creation nor the close of its session goes on. -/
def Manager.Settled (m : Manager) (id : Str) : Prop :=
  (∀ outcome current, m.step (.resumeCreate id outcome current) = none) ∧
    ∀ outcome, m.step (.resumeClose id outcome) = none

/-- The startup was cancelled and is over, and the close has not begun to take the session out of service. -/
def Session.Lingers (s : Session) : Prop :=
  s.startupCancellation ≠ [] ∧ s.startupInProgress = false ∧ s.closing = false ∧ s.closed = false

section Revoked

variable {m : Manager} {id : Str} {c : Creation} {s : Session}

/-- The close of a revoked session goes on until the session is closed. -/
theorem settled_closed (h : Tracked m) (hc : m.creations.lookup id = some c) (hs : c.session = some s)
    (hstage : s.stage ≠ .idle) (hsettled : m.Settled id) : s.closed = true := by
  have hok := h.good id c hc
  have hsound := (hok.sound s hs).stage
  have hcreate := fun outcome => hsettled.1 outcome true
  have hclose := hsettled.2
  simp only [step, find_eq_some.mpr ⟨hc, hs⟩, hc, bind_eq_bind, bind_some,
    resumeClose, Session.resumeClose, Session.continueClose] at hcreate hclose
  unfold Session.StageSound at hsound
  cases hstage' : s.stage with
  | idle => exact absurd hstage' hstage
  | cancelling | closingWorker => simpa [hstage'] using hclose .settled
  | awaitingStartup options =>
    by_cases hstart : s.startupInProgress = true
    · obtain ⟨step, rest, hprogress⟩ := (hok.starting s hs).mp hstart
      have := hcreate (.threw false false)
      simp [resumeCreate, hprogress, hs, StartupStep.gives] at this
    · simpa [hstage', hstart] using hclose .settled
  | waitingExit options => simpa [hstage'] using hclose (.exited false)
  | flushing options exited awaited => simpa [hstage'] using hclose (.written false)
  | recovering options => simpa [hstage'] using hclose (.recovered (.threw true))
  | reclaiming options => simpa [hstage'] using hclose (.reclaimed (.threw true))
  | removing => simpa [hstage'] using hclose (.removed none)
  | finished =>
    simp only [hstage'] at hsound
    exact hsound.1

theorem settled_rejected (h : Tracked m) (hc : m.creations.lookup id = some c) (hs : c.session = none)
    (hsettled : m.Settled id) : c.progress = .rejected := by
  have hearly := (h.good id c hc).early hs
  have hcreate := hsettled.1 (.threw false false) true
  simp only [mem_cons, not_mem_nil, or_false] at hearly
  rcases hearly with hp | hp | hp | hp
  · simp [step, hc, resumeCreate, hp, hs] at hcreate
  · simp [step, hc, resumeCreate, hp, hs] at hcreate
  · simp [step, hc, resumeCreate, hp, hs] at hcreate
  · exact hp

/-- A session of the table whose close was called has its startup cancelled, and nothing else yet. -/
theorem cancelled_of_listed (h : Sound m.safety s) (hlisted : s.isListed = true) (hstage : s.stage ≠ .idle) :
    s.startupCancellation ≠ [] ∧ s.closing = false ∧ s.closed = false := by
  have hsound := h.stage
  unfold Session.StageSound at hsound
  unfold Session.isListed at hlisted
  cases hs : s.stage with
  | cancelling | awaitingStartup =>
    simp only [hs] at hsound
    exact ⟨hsound.2.1, hsound.1.1, hsound.1.2.1⟩
  | idle => exact absurd hs hstage
  | _ => simp [hs] at hlisted

theorem listed_of_open (h : Sound m.safety s) (hclosing : s.closing = false) (hclosed : s.closed = false) :
    s.isListed = true := by
  have hsound := h.stage
  unfold Session.StageSound at hsound
  unfold Session.isListed
  cases hs : s.stage <;> simp_all [Session.Held, Session.Open]

/-- Exactly the lingering sessions are returned to a request. -/
theorem authorizes_iff (h : Tracked m) (hc : m.creations.lookup id = some c) (hrevoked : c.Revoked)
    {r : Request} (hr : r ∈ m.requests) (hid : r.sessionId = id) :
    m.authorizes r = true ↔ r.permitted c.owner = true ∧ ∃ s, c.session = some s ∧ s.Lingers := by
  subst hid
  obtain ⟨c', s, hc', hs, hstart⟩ := h.serviceable r hr
  obtain rfl := some.inj (hc.symm.trans hc')
  have hsound := (h.good _ c hc).sound s hs
  have hstage : s.stage ≠ .idle := by simpa only [Creation.Revoked, hs] using hrevoked
  have hlisted : r.sessionId ∈ m.sessions ↔ s.isListed = true := by
    simp [h.indexed.mem_sessions hc, isListed, hs]
  simp only [authorizes, find_eq_some.mpr ⟨hc, hs⟩, Bool.and_eq_true, Bool.not_eq_true',
    contains_iff_mem, hlisted]
  constructor
  · rintro ⟨⟨⟨hclosed, hclosing⟩, hlisted⟩, hpermitted⟩
    exact ⟨hpermitted, s, hs, (cancelled_of_listed hsound hlisted hstage).1, hstart, hclosing, hclosed⟩
  · rintro ⟨hpermitted, s', hs', -, -, hclosing, hclosed⟩
    obtain rfl := some.inj (hs.symm.trans hs')
    exact ⟨⟨⟨hclosed, hclosing⟩, listed_of_open hsound hclosing hclosed⟩, hpermitted⟩

end Revoked

/-- After a revocation every creation of the user that had begun is rejected or closed when it has settled,
and a session of it that is still in the table has its startup cancelled. A request is not given the
session exactly when the session does not linger, or the request is not permitted. `ownerIndex` names the
pending creations and the sessions of the table. -/
theorem revocation_reaches_iff (safety : Safety) {before after : List Event} {e : Event} {m m₁ m₂ : Manager}
    (hbefore : machine.run (initial safety) before = some m) (hstep : m.step e = some m₁)
    (hafter : machine.run m₁ after = some m₂) :
    (∀ p id, id ∈ m₂.owned p ↔ ∃ c, m₂.creations.lookup id = some c ∧ c.owner = p ∧
      (id ∈ m₂.pendingCreations ∨ id ∈ m₂.sessions)) ∧
    ∀ id c, m.creations.lookup id = some c → e.Revokes c → ∃ c', m₂.creations.lookup id = some c' ∧
      (m₂.Settled id → c'.progress = .rejected ∨ ∃ s, c'.session = some s ∧ s.closed = true) ∧
      (∀ s, c'.session = some s → id ∈ m₂.sessions → s.startupCancellation ≠ []) ∧
      ∀ r ∈ m₂.requests, r.sessionId = id → (m₂.authorizes r = false ↔
        ¬(r.permitted c'.owner = true ∧ ∃ s, c'.session = some s ∧ s.Lingers)) := by
  have htracked := (tracked_run (tracked_initial safety) hbefore).1
  have hstepped := (tracked_step htracked hstep).1
  obtain ⟨hlast, hgrows⟩ := tracked_run hstepped hafter
  refine ⟨fun p id => ?_, fun id c hc he => ?_⟩
  · have hfiled := hlast.indexed id
    rw [hfiled.owned, hfiled.pending, hfiled.listed]
    cases m₂.creations.lookup id <;> simp
  · obtain ⟨c₁, hc₁, hrevoked₁⟩ := revoked_of_step htracked hstep hc he
    obtain ⟨c', hc', hgrow⟩ := hgrows id c₁ hc₁
    have hrevoked := hgrow.revoked hrevoked₁
    refine ⟨c', hc', fun hsettled => ?_, fun s hs hlisted => ?_, fun r hr hid => ?_⟩
    · cases hs : c'.session with
      | none => exact .inl (settled_rejected hlast hc' hs hsettled)
      | some s =>
        have hstage : s.stage ≠ .idle := by simpa only [Creation.Revoked, hs] using hrevoked
        exact .inr ⟨s, rfl, settled_closed hlast hc' hs hstage hsettled⟩
    · have hstage : s.stage ≠ .idle := by simpa only [Creation.Revoked, hs] using hrevoked
      rw [hlast.indexed.mem_sessions hc'] at hlisted
      exact (cancelled_of_listed ((hlast.good id c' hc').sound s hs)
        (by simpa [isListed, hs] using hlisted) hstage).1
    · rw [← Bool.not_eq_true, authorizes_iff hlast hc' hrevoked hr hid]

/-- A Box terminal of the user `p` that has entered the table. -/
def startingRun : List Event :=
  [.create "t" "p" 1, .resumeCreate "t" .ok true, .resumeCreate "t" .ok true,
    .resumeCreate "t" (.admitted ⟨.box, ⟨[], [], [], [], []⟩⟩) true]

/-- Everything is turned on. -/
def readySafety : Safety := ⟨true, [], true, [], [], []⟩

/-- The user is revoked during the startup, the cancelled startup fails, and someone asks to watch. -/
def lingeringRun : List Event :=
  [.resumeCreate "t" (.threw false false) true, .authorize ⟨"t", "q", 2, .watch⟩]

/-- What is evaluated of a run in which `p` is revoked after `startingRun`. -/
theorem exists_revocation {after : List Event} {check : Manager → Bool}
    (h : ((machine.run (initial readySafety) startingRun).any fun m =>
      (m.creations.lookup (lit "t")).any (·.owner = lit "p") && (m.step (.closePrincipal "p")).any fun m₁ =>
        (machine.run m₁ after).any check) = true) :
    ∃ m m₁ m₂ c, machine.run (initial readySafety) startingRun = some m ∧
      m.step (.closePrincipal "p") = some m₁ ∧ machine.run m₁ after = some m₂ ∧
      m.creations.lookup (lit "t") = some c ∧ c.owner = lit "p" ∧ check m₂ = true := by
  simp only [Option.any_eq_true, Bool.and_eq_true, decide_eq_true_eq] at h
  obtain ⟨m, hm, ⟨c, hc, howner⟩, m₁, hm₁, m₂, hm₂, hcheck⟩ := h
  exact ⟨m, m₁, m₂, c, hm, hm₁, hm₂, hc, howner, hcheck⟩

/-- The request is given the session of the revoked user, whose worker is still being closed. -/
theorem revoked_session_returned : ∃ m m₁ m₂ c r,
    machine.run (initial readySafety) startingRun = some m ∧ m.step (.closePrincipal "p") = some m₁ ∧
      machine.run m₁ lingeringRun = some m₂ ∧ m.creations.lookup (lit "t") = some c ∧ c.owner = lit "p" ∧
      r ∈ m₂.requests ∧ r.sessionId = lit "t" ∧ m₂.authorizes r = true := by
  obtain ⟨m, m₁, m₂, c, hm, hm₁, hm₂, hc, howner, hcheck⟩ := @exists_revocation lingeringRun
    (fun m₂ => m₂.requests.any fun r => r.sessionId = lit "t" && m₂.authorizes r) (by decide +kernel)
  simp only [any_eq_true, Bool.and_eq_true, decide_eq_true_eq] at hcheck
  obtain ⟨r, hr, hid, hauthorizes⟩ := hcheck
  exact ⟨m, m₁, m₂, c, r, hm, hm₁, hm₂, hc, howner, hr, hid, hauthorizes⟩

/-- The close goes on to its end, with a request to watch that came before the session was taken out of
the table. -/
def closedRun : List Event :=
  [.resumeClose "t" .settled, .resumeCreate "t" (.threw false false) true,
    .authorize ⟨"t", "q", 2, .watch⟩, .resumeClose "t" .settled, .resumeClose "t" .settled,
    .processExit "t" "requested", .resumeClose "t" (.exited true), .resumeClose "t" (.written false),
    .resumeCreate "t" .ok true]

/-- The attempt is rejected, its session is closed, and the request is refused. -/
theorem revocation_reaches_iff_closed : ∃ m m₁ m₂ c' r,
    machine.run (initial readySafety) startingRun = some m ∧ m.step (.closePrincipal "p") = some m₁ ∧
      machine.run m₁ closedRun = some m₂ ∧ m₂.creations.lookup (lit "t") = some c' ∧
      m₂.Settled (lit "t") ∧ (c'.progress = .rejected ∨ ∃ s, c'.session = some s ∧ s.closed = true) ∧
      r ∈ m₂.requests ∧ r.sessionId = lit "t" ∧ m₂.authorizes r = false := by
  obtain ⟨m, m₁, m₂, c, hm, hm₁, hm₂, hc, howner, hcheck⟩ := @exists_revocation closedRun
    (fun m₂ => m₂.requests.any (·.sessionId = lit "t") && (m₂.find "t").any fun found =>
      found.1.progress = .rejected && found.2.stage = .finished && found.2.closed) (by decide +kernel)
  simp only [any_eq_true, Option.any_eq_true, Bool.and_eq_true, decide_eq_true_eq] at hcheck
  obtain ⟨⟨r, hr, hid⟩, ⟨c', s⟩, hfind, ⟨hprogress, hstage⟩, hclosed⟩ := hcheck
  obtain ⟨hc', hs⟩ := find_eq_some.mp hfind
  obtain ⟨other, hother, hsettles, -, hrefused⟩ :=
    (revocation_reaches_iff readySafety hm hm₁ hm₂).2 _ c hc howner
  obtain rfl := some.inj (hc'.symm.trans hother)
  have hsettled : m₂.Settled (lit "t") := by
    simp_all [Settled, step, resumeCreate, resumeClose, Session.resumeClose, Session.continueClose]
  refine ⟨m, m₁, m₂, c', r, hm, hm₁, hm₂, hc', hsettled, hsettles hsettled, hr, hid,
    (hrefused r hr hid).mpr ?_⟩
  rintro ⟨-, other, hsession, hlingers⟩
  obtain rfl := some.inj (hs.symm.trans hsession)
  cases hclosed.symm.trans hlingers.2.2.2

end Ploinky.Webtty
