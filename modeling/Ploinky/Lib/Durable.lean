import Mathlib

/-!
# Programs that fail and die

A program acts on a state through calls of its environment. Each call consumes one fault, which
decides whether the call goes through, whether it throws before or after its effect, and whether the
process dies before or after it. A thrown error can be caught, a death cannot; the state it leaves is
what a later process finds. A program that has used up its faults meets no more of them.

`wp p q s` says that every run of `p` from `s`, under faults that are admitted, ends as `q` says. The
rules below reduce it to the calls of the program; `Keeps` is the case of an invariant, `wp_run` reads
off what one run ends in, and `Post.clean` is the claim about a program that fails only by faults.
-/

namespace Durable

/-- What happens at one call of the environment. -/
inductive Fault (ε : Type) where
  | pass
  | throwBefore (error : ε)
  | throwAfter (error : ε)
  | dieBefore
  | dieAfter
  deriving DecidableEq

/-- How a program ends. -/
inductive Outcome (ε α : Type) where
  | returned (value : α)
  | threw (error : ε)
  | died
  deriving DecidableEq

/-- What a run leaves: how it ended, the state, and the faults it did not reach. -/
structure Result (σ ε α : Type) where
  outcome : Outcome ε α
  state : σ
  faults : List (Fault ε)
  deriving DecidableEq

/-- A program over states `σ` that throws errors `ε`. -/
def Prog (σ ε α : Type) := σ → List (Fault ε) → Result σ ε α

namespace Prog

variable {σ ε α β : Type}

/-- Return a value. -/
def ret (value : α) : Prog σ ε α := fun s faults => ⟨.returned value, s, faults⟩

/-- Run a program and pass its value on. -/
def andThen (p : Prog σ ε α) (next : α → Prog σ ε β) : Prog σ ε β := fun s faults =>
  match p s faults with
  | ⟨.returned value, t, rest⟩ => next value t rest
  | ⟨.threw error, t, rest⟩ => ⟨.threw error, t, rest⟩
  | ⟨.died, t, rest⟩ => ⟨.died, t, rest⟩

instance : Monad (Prog σ ε) where
  pure := ret
  bind := andThen

/-- Throw an error. -/
def raise (error : ε) : Prog σ ε α := fun s faults => ⟨.threw error, s, faults⟩

/-- Look at the state. -/
def look (f : σ → α) : Prog σ ε α := fun s faults => ⟨.returned (f s), s, faults⟩

/-- Change the state without calling the environment. -/
def alter (f : σ → σ) : Prog σ ε Unit := fun s faults => ⟨.returned (), f s, faults⟩

/-- The end of a call that went through. -/
def settle (s : σ) (rest : List (Fault ε)) : Except ε (α × σ) → Result σ ε α
  | .ok (value, t) => ⟨.returned value, t, rest⟩
  | .error error => ⟨.threw error, s, rest⟩

/-- The state that a call leaves. -/
def after (s : σ) : Except ε (α × σ) → σ
  | .ok (_, t) => t
  | .error _ => s

/-- Call the environment. -/
def call (f : σ → Except ε (α × σ)) : Prog σ ε α := fun s faults =>
  match faults with
  | [] => settle s [] (f s)
  | .pass :: rest => settle s rest (f s)
  | .throwBefore error :: rest => ⟨.threw error, s, rest⟩
  | .throwAfter error :: rest => ⟨.threw error, after s (f s), rest⟩
  | .dieBefore :: rest => ⟨.died, s, rest⟩
  | .dieAfter :: rest => ⟨.died, after s (f s), rest⟩

/-- A call that always has its effect. -/
def effect (f : σ → σ) : Prog σ ε Unit := call fun s => .ok ((), f s)

/-- A call that changes nothing. -/
def ask (f : σ → Except ε α) : Prog σ ε α := call fun s => (f s).map fun value => (value, s)

/-- Catch the errors of a program. -/
def attempt (p : Prog σ ε α) (handler : ε → Prog σ ε α) : Prog σ ε α := fun s faults =>
  match p s faults with
  | ⟨.returned value, t, rest⟩ => ⟨.returned value, t, rest⟩
  | ⟨.threw error, t, rest⟩ => handler error t rest
  | ⟨.died, t, rest⟩ => ⟨.died, t, rest⟩

/-- Run a second program whether the first returns or throws. -/
def finallyDo (p : Prog σ ε α) (cleanup : Prog σ ε Unit) : Prog σ ε α := do
  let value ← attempt p fun error => do
    cleanup
    raise error
  cleanup
  return value

/-- Run a program on a part of the state. -/
def zoom {τ : Type} (get : σ → τ) (set : τ → σ → σ) (p : Prog τ ε α) : Prog σ ε α := fun s faults =>
  let result := p (get s) faults
  ⟨result.outcome, set result.state s, result.faults⟩

/-- Run a program when the condition holds. -/
def whenDo (c : Prop) [Decidable c] (p : Prog σ ε Unit) : Prog σ ε Unit := if c then p else ret ()

/-- Run a program for each element of a list. -/
def forEach (items : List β) (body : β → Prog σ ε Unit) : Prog σ ε Unit :=
  match items with
  | [] => ret ()
  | item :: rest => do
      body item
      forEach rest body

end Prog

open Prog List

variable {σ ε α β : Type}

/-- What is claimed of the end of a run. -/
structure Post (σ ε α : Type) where
  returns : α → σ → Prop
  throws : ε → σ → Prop
  dies : σ → Prop

/-- The end of a run is as claimed. -/
def Post.Holds (q : Post σ ε α) (result : Result σ ε α) : Prop :=
  match result.outcome with
  | .returned value => q.returns value result.state
  | .threw error => q.throws error result.state
  | .died => q.dies result.state

/-- Every run from the state under admitted faults ends as claimed, and adds no faults. -/
def wp (admits : Fault ε → Prop) (p : Prog σ ε α) (q : Post σ ε α) (s : σ) : Prop :=
  ∀ faults, (∀ fault ∈ faults, admits fault) →
    (p s faults).faults ⊆ faults ∧ q.Holds (p s faults)

variable {value v : α} {error e : ε} {c : Prop} {p : Prog σ ε α} {f : σ → Except ε (α × σ)} {t : σ}
  {faults : List (Fault ε)} {r : Prog σ ε α} {handler : ε → Prog σ ε α} {cleanup : Prog σ ε Unit}
  {admits : Fault ε → Prop} {q : Post σ ε α} {s : σ} {inv : σ → Prop}

section Rules

variable {admits : Fault ε → Prop} {q : Post σ ε α} {s : σ}

theorem wp_pure (h : q.returns value s) : wp admits (pure value) q s := fun _ _ => ⟨List.Subset.refl _, h⟩

theorem wp_ret (h : q.returns value s) : wp admits (ret value) q s :=
  fun _ _ => ⟨List.Subset.refl _, h⟩

theorem wp_raise (h : q.throws error s) : wp admits (raise error) q s :=
  fun _ _ => ⟨List.Subset.refl _, h⟩

theorem wp_look {f : σ → α} (h : q.returns (f s) s) : wp admits (look f) q s :=
  fun _ _ => ⟨List.Subset.refl _, h⟩

theorem wp_alter {q : Post σ ε Unit} {f : σ → σ} (h : q.returns () (f s)) :
    wp admits (alter f) q s := fun _ _ => ⟨List.Subset.refl _, h⟩

/-- A branch. -/
theorem wp_ite [Decidable c] (hp : c → wp admits p q s) (hr : ¬ c → wp admits r q s) :
    wp admits (if c then p else r) q s := by
  by_cases h : c
  · rw [if_pos h]
    exact hp h
  · rw [if_neg h]
    exact hr h

theorem wp_whenDo [Decidable c] {p : Prog σ ε Unit} {q : Post σ ε Unit} (hp : c → wp admits p q s)
    (hskip : ¬ c → q.returns () s) : wp admits (whenDo c p) q s :=
  wp_ite hp fun h => wp_ret (hskip h)

/-- A sequence: the rest is shown from every state in which the first part returns. -/
theorem wp_bind {p : Prog σ ε β} {next : β → Prog σ ε α}
    (h : wp admits p ⟨fun value t => wp admits (next value) q t, q.throws, q.dies⟩ s) :
    wp admits (p >>= next) q s := by
  intro faults hfaults
  obtain ⟨hrest, hend⟩ := h faults hfaults
  show (andThen p next s faults).faults ⊆ faults ∧ q.Holds (andThen p next s faults)
  unfold andThen
  generalize p s faults = result at hrest hend ⊢
  obtain ⟨outcome, t, rest⟩ := result
  cases outcome with
  | returned value =>
    obtain ⟨hrest', hend'⟩ := hend rest fun fault hmem => hfaults fault (hrest hmem)
    exact ⟨List.Subset.trans hrest' hrest, hend'⟩
  | threw | died => exact ⟨hrest, hend⟩

/-- A caught error: the handler is shown from every state in which the program throws. -/
theorem wp_attempt (h : wp admits p ⟨q.returns, fun error t => wp admits (handler error) q t, q.dies⟩ s) :
    wp admits (attempt p handler) q s := by
  intro faults hfaults
  obtain ⟨hrest, hend⟩ := h faults hfaults
  unfold attempt
  generalize p s faults = result at hrest hend ⊢
  obtain ⟨outcome, t, rest⟩ := result
  cases outcome with
  | threw error =>
    obtain ⟨hrest', hend'⟩ := hend rest fun fault hmem => hfaults fault (hrest hmem)
    exact ⟨List.Subset.trans hrest' hrest, hend'⟩
  | returned | died => exact ⟨hrest, hend⟩

/-- Claims that follow from each other. -/
theorem wp_mono {r : Post σ ε α} (h : wp admits p r s)
    (hreturns : ∀ value t, r.returns value t → q.returns value t)
    (hthrows : ∀ error t, r.throws error t → q.throws error t)
    (hdies : ∀ t, r.dies t → q.dies t) : wp admits p q s := by
  intro faults hfaults
  obtain ⟨hrest, hend⟩ := h faults hfaults
  generalize p s faults = result at hrest hend ⊢
  obtain ⟨outcome, t, rest⟩ := result
  cases outcome with
  | returned value => exact ⟨hrest, hreturns _ _ hend⟩
  | threw error => exact ⟨hrest, hthrows _ _ hend⟩
  | died => exact ⟨hrest, hdies _ hend⟩

/-- Claims that differ only in what is returned. -/
theorem wp_imp {r : α → σ → Prop} (h : wp admits p ⟨r, q.throws, q.dies⟩ s)
    (hreturns : ∀ value t, r value t → q.returns value t) : wp admits p q s :=
  wp_mono h hreturns (fun _ _ h => h) fun _ h => h

/-- Two claims of one run. -/
theorem wp_and {r : Post σ ε α} (hq : wp admits p q s) (hr : wp admits p r s) :
    wp admits p ⟨fun value t => q.returns value t ∧ r.returns value t,
      fun error t => q.throws error t ∧ r.throws error t, fun t => q.dies t ∧ r.dies t⟩ s := by
  intro faults hfaults
  obtain ⟨hrest, hend⟩ := hq faults hfaults
  have hother := (hr faults hfaults).2
  generalize p s faults = result at hrest hend hother ⊢
  obtain ⟨outcome, t, rest⟩ := result
  cases outcome with
  | returned | threw | died => exact ⟨hrest, hend, hother⟩

/-- What a call must meet: its own end, and each fault that is admitted. -/
structure CallMeets (admits : Fault ε → Prop) (q : Post σ ε α) (s : σ) (result : Except ε (α × σ)) :
    Prop where
  ok : ∀ value t, result = .ok (value, t) → q.returns value t
  error : ∀ error, result = .error error → q.throws error s
  throwBefore : ∀ error, admits (.throwBefore error) → q.throws error s
  throwAfter : ∀ error, admits (.throwAfter error) → q.throws error (after s result)
  dieBefore : admits .dieBefore → q.dies s
  dieAfter : admits .dieAfter → q.dies (after s result)

/-- A call from a state with the invariant whose effect, when it has one, implies the invariant. -/
theorem CallMeets.of_ok {inv : σ → Prop} {R : α → σ → Prop} {result : Except ε (α × σ)}
    (hok : ∀ value t, result = .ok (value, t) → R value t) (hs : inv s)
    (hinv : ∀ value t, R value t → inv t) : CallMeets admits ⟨R, fun _ => inv, inv⟩ s result := by
  have hafter : inv (after s result) := by
    cases hresult : result with
    | ok pair => exact hinv pair.1 pair.2 (hok pair.1 pair.2 hresult)
    | error error => exact hs
  exact ⟨hok, fun _ _ => hs, fun _ _ => hs, fun _ _ => hafter, fun _ => hs, fun _ => hafter⟩

theorem wp_call (h : CallMeets admits q s (f s)) : wp admits (call f) q s := by
  intro faults hfaults
  have hsettle : ∀ rest, rest ⊆ faults →
      (settle s rest (f s)).faults ⊆ faults ∧ q.Holds (settle s rest (f s)) := by
    intro rest hrest
    cases hf : f s with
    | ok pair => exact ⟨hrest, h.ok _ _ hf⟩
    | error error => exact ⟨hrest, h.error _ hf⟩
  match faults with
  | [] => exact hsettle [] (List.Subset.refl _)
  | .pass :: rest => exact hsettle rest (subset_cons_self _ _)
  | .throwBefore error :: rest =>
    exact ⟨subset_cons_self _ _, h.throwBefore error (hfaults _ (.head _))⟩
  | .throwAfter error :: rest =>
    exact ⟨subset_cons_self _ _, h.throwAfter error (hfaults _ (.head _))⟩
  | .dieBefore :: rest =>
    exact ⟨subset_cons_self _ _, h.dieBefore (hfaults _ (.head _))⟩
  | .dieAfter :: rest =>
    exact ⟨subset_cons_self _ _, h.dieAfter (hfaults _ (.head _))⟩

/-- A call that goes through when it meets no fault. -/
theorem wp_call_ok (h : f s = .ok (v, t)) (hreturns : q.returns v t)
    (hthrowBefore : ∀ error, admits (.throwBefore error) → q.throws error s)
    (hthrowAfter : ∀ error, admits (.throwAfter error) → q.throws error t)
    (hdieBefore : admits .dieBefore → q.dies s) (hdieAfter : admits .dieAfter → q.dies t) :
    wp admits (call f) q s := by
  refine wp_call ?_
  rw [h]
  refine ⟨fun found u hu => ?_, nofun, hthrowBefore, hthrowAfter, hdieBefore, hdieAfter⟩
  cases hu
  exact hreturns

/-- A call that fails. -/
theorem wp_call_error (h : f s = .error error) (hthrows : ∀ error, q.throws error s) (hdies : q.dies s) :
    wp admits (call f) q s := by
  refine wp_call ?_
  rw [h]
  exact ⟨nofun, fun e _ => hthrows e, fun e _ => hthrows e, fun e _ => hthrows e, fun _ => hdies, fun _ => hdies⟩

/-- A call with an effect, when errors and deaths are claimed alike before and after it. -/
theorem wp_effect {q : Post σ ε Unit} {f : σ → σ} (hreturns : q.returns () (f s))
    (hthrows : ∀ error, q.throws error s ∧ q.throws error (f s)) (hdies : q.dies s ∧ q.dies (f s)) :
    wp admits (effect f) q s := by
  exact wp_call_ok rfl hreturns (fun e _ => (hthrows e).1) (fun e _ => (hthrows e).2) (fun _ => hdies.1)
    fun _ => hdies.2

/-- A call that changes nothing. -/
theorem wp_ask {f : σ → Except ε α} (hreturns : ∀ value, f s = .ok value → q.returns value s)
    (hthrows : ∀ error, q.throws error s) (hdies : q.dies s) : wp admits (ask f) q s := by
  cases hf : f s with
  | ok found =>
    exact wp_call_ok (by rw [hf]; rfl) (hreturns found hf) (fun e _ => hthrows e) (fun e _ => hthrows e)
      (fun _ => hdies) fun _ => hdies
  | error error => exact wp_call_error (by rw [hf]; rfl) hthrows hdies

/-- A cleanup is shown from every state in which the program returns or throws. -/
theorem wp_finallyDo
    (h : wp admits p ⟨fun value t => wp admits cleanup ⟨fun _ => q.returns value, q.throws, q.dies⟩ t,
      fun error t => wp admits cleanup ⟨fun _ => q.throws error, q.throws, q.dies⟩ t, q.dies⟩ s) :
    wp admits (finallyDo p cleanup) q s := by
  refine wp_bind (wp_attempt (wp_mono h ?_ ?_ fun _ h => h))
  · intro value t ht
    refine wp_bind (wp_imp ht ?_)
    exact fun _ u hu => wp_pure hu
  · intro error t ht
    refine wp_bind (wp_imp ht ?_)
    exact fun _ u hu => wp_raise hu

/-- A program on a part of the state. -/
theorem wp_zoom {τ : Type} {get : σ → τ} {set : τ → σ → σ} {p : Prog τ ε α}
    (h : wp admits p ⟨fun value t => q.returns value (set t s), fun error t => q.throws error (set t s),
      fun t => q.dies (set t s)⟩ (get s)) : wp admits (zoom get set p) q s := by
  intro faults hfaults
  obtain ⟨hrest, hend⟩ := h faults hfaults
  unfold zoom
  generalize p (get s) faults = result at hrest hend ⊢
  obtain ⟨outcome, t, rest⟩ := result
  cases outcome with
  | returned | threw | died => exact ⟨hrest, hend⟩

/-- A loop keeps an invariant that each turn keeps. -/
theorem wp_forEach {items : List β} {body : β → Prog σ ε Unit} {q : Post σ ε Unit}
    {I : List β → σ → Prop} (hinv : I items s) (hbody : ∀ item rest t, I (item :: rest) t →
      wp admits (body item) ⟨fun _ u => I rest u, q.throws, q.dies⟩ t)
    (hend : ∀ t, I [] t → q.returns () t) : wp admits (forEach items body) q s := by
  induction items generalizing s with
  | nil => exact wp_ret (hend s hinv)
  | cons item rest ih =>
    refine wp_bind ?_
    exact wp_imp (hbody item rest s hinv) fun _ t ht => ih ht

end Rules

/-! ## Invariants -/

/-- The program keeps the invariant, however it ends. -/
def Keeps (admits : Fault ε → Prop) (inv : σ → Prop) (p : Prog σ ε α) : Prop :=
  ∀ s, inv s → wp admits p ⟨fun _ => inv, fun _ => inv, inv⟩ s

section Keeps

variable {admits : Fault ε → Prop} {inv : σ → Prop} {next : α → Prog σ ε β}

theorem keeps_pure : Keeps admits inv (pure value) := fun _ h => wp_pure h

theorem keeps_raise : Keeps admits inv (raise error : Prog σ ε α) := fun _ h => wp_raise h

theorem keeps_look {f : σ → α} : Keeps admits inv (look f) := fun _ h => wp_look h

theorem keeps_alter {f : σ → σ} (h : ∀ s, inv s → inv (f s)) : Keeps admits inv (alter f) :=
  fun s hs => wp_alter (h s hs)

theorem keeps_ite [Decidable c] (hp : Keeps admits inv p) (hr : Keeps admits inv r) :
    Keeps admits inv (if c then p else r) := fun s hs =>
  wp_ite (fun _ => hp s hs) fun _ => hr s hs

theorem keeps_bind {p : Prog σ ε β} {next : β → Prog σ ε α} (hp : Keeps admits inv p)
    (hnext : ∀ value, Keeps admits inv (next value)) : Keeps admits inv (p >>= next) := fun s hs =>
  wp_bind (wp_imp (hp s hs) fun value t ht => hnext value t ht)

theorem keeps_attempt (hp : Keeps admits inv p) (hhandler : ∀ error, Keeps admits inv (handler error)) :
    Keeps admits inv (attempt p handler) := fun s hs =>
  wp_attempt (wp_mono (hp s hs) (fun _ _ h => h) (fun error t ht => hhandler error t ht) fun _ h => h)

theorem keeps_finallyDo (hp : Keeps admits inv p) (hcleanup : Keeps admits inv cleanup) :
    Keeps admits inv (finallyDo p cleanup) := fun s hs =>
  wp_finallyDo (wp_mono (hp s hs) (fun _ t ht => hcleanup t ht) (fun _ t ht => hcleanup t ht) fun _ h => h)

/-- A cleanup that keeps what holds after a failure. -/
theorem wp_finallyDo_of_keeps {M R : α → σ → Prop} (hp : wp admits p ⟨M, fun _ => inv, inv⟩ s)
    (hcleanup : Keeps admits inv cleanup)
    (hreturns : ∀ v t, M v t → wp admits cleanup ⟨fun _ => R v, fun _ => inv, inv⟩ t) :
    wp admits (finallyDo p cleanup) ⟨R, fun _ => inv, inv⟩ s :=
  wp_finallyDo (wp_mono hp hreturns (fun _ t ht => hcleanup t ht) fun _ h => h)

theorem keeps_forEach {items : List β} {body : β → Prog σ ε Unit}
    (h : ∀ item, Keeps admits inv (body item)) : Keeps admits inv (forEach items body) := fun _ hs =>
  wp_forEach (I := fun _ => inv) hs (fun item _ t ht => h item t ht) fun _ ht => ht

/-- A call whose effect keeps the invariant. -/
theorem keeps_call (h : ∀ s value t, inv s → f s = .ok (value, t) → inv t) : Keeps admits inv (call f) :=
  fun s hs => wp_call (.of_ok (fun value t ht => h s value t hs ht) hs fun _ _ ht => ht)

theorem keeps_effect {f : σ → σ} (h : ∀ s, inv s → inv (f s)) : Keeps admits inv (effect f) :=
  fun s hs => wp_effect (h s hs) (fun _ => ⟨hs, h s hs⟩) ⟨hs, h s hs⟩

theorem keeps_ask {f : σ → Except ε α} : Keeps admits inv (ask f) := fun _ hs =>
  wp_ask (fun _ _ => hs) (fun _ => hs) hs

/-- The program keeps the invariant and does not return. -/
def Refuses (admits : Fault ε → Prop) (inv : σ → Prop) (p : Prog σ ε α) : Prop :=
  ∀ s, inv s → wp admits p ⟨fun _ _ => False, fun _ => inv, inv⟩ s

theorem Refuses.keeps (h : Refuses admits inv p) : Keeps admits inv p := fun s hs =>
  wp_imp (h s hs) fun _ _ h => h.elim

theorem refuses_raise : Refuses admits inv (raise error : Prog σ ε α) := fun _ hs => wp_raise hs

theorem Refuses.bind (h : Refuses admits inv p) : Refuses admits inv (p >>= next) :=
  fun s hs => wp_bind (wp_imp (h s hs) fun _ _ h => h.elim)

/-- A sequence that comes to a program that does not return. -/
theorem Keeps.refuses (hp : Keeps admits inv p)
    (hnext : ∀ value, Refuses admits inv (next value)) : Refuses admits inv (p >>= next) := fun _ hs =>
  wp_bind (wp_imp (hp _ hs) fun value t ht => hnext value t ht)

theorem Refuses.attempt (hp : Refuses admits inv p) (hhandler : ∀ error, Refuses admits inv (handler error)) :
    Refuses admits inv (attempt p handler) :=
  fun s hs => wp_attempt (wp_mono (hp s hs) (fun _ _ h => h) (fun error t ht => hhandler error t ht)
    fun _ h => h)

theorem Refuses.finallyDo (hp : Refuses admits inv p) (hcleanup : Keeps admits inv cleanup) :
    Refuses admits inv (finallyDo p cleanup) := fun s hs =>
  wp_finallyDo (wp_mono (hp s hs) (fun _ _ h => h.elim) (fun _ t ht => hcleanup t ht) fun _ h => h)

end Keeps

/-- What one run ends in. -/
theorem wp_run (h : wp admits p q s)
    (hfaults : ∀ fault ∈ faults, admits fault) : q.Holds (p s faults) := (h faults hfaults).2

/-- What the run without faults ends in. -/
theorem wp_calm (h : wp admits p q s) : q.Holds (p s []) :=
  wp_run h (forall_mem_nil _)

namespace Post.Holds

variable {q : Post σ ε α} {result : Result σ ε α}

theorem returned (h : q.Holds result) (hrun : result.outcome = .returned value) :
    q.returns value result.state := by
  rwa [Post.Holds, hrun] at h

theorem threw (h : q.Holds result) (hrun : result.outcome = .threw error) : q.throws error result.state := by
  rwa [Post.Holds, hrun] at h

theorem cases (h : q.Holds result) :
    (∃ value, result.outcome = .returned value ∧ q.returns value result.state) ∨
      (∃ error, result.outcome = .threw error ∧ q.throws error result.state) ∨ q.dies result.state := by
  rw [Post.Holds] at h
  split at h
  · exact .inl ⟨_, ‹_›, h⟩
  · exact .inr (.inl ⟨_, ‹_›, h⟩)
  · exact .inr (.inr h)

end Post.Holds

/-- What holds however a run ends holds of the state it leaves. -/
theorem wp_state
    (h : wp admits p ⟨fun _ => inv, fun _ => inv, inv⟩ s) (hfaults : ∀ fault ∈ faults, admits fault) :
    inv (p s faults).state := by
  obtain ⟨_, -, hend⟩ | ⟨_, -, hend⟩ | hend := (wp_run h hfaults).cases <;> exact hend

/-- What a run of a program that keeps an invariant leaves. -/
theorem Keeps.run (h : Keeps admits inv p) (hs : inv s)
    (hfaults : ∀ fault ∈ faults, admits fault) : inv (p s faults).state := wp_state (h s hs) hfaults

/-! ## Programs that fail only by faults -/

/-- Some fault is admitted. -/
def Faulty (admits : Fault ε → Prop) : Prop := ∃ fault, admits fault

/-- The run returns as claimed, unless a fault made it end otherwise; the invariant holds then. -/
def Post.clean (admits : Fault ε → Prop) (inv : σ → Prop) (R : α → σ → Prop) : Post σ ε α :=
  ⟨R, fun _ t => Faulty admits ∧ inv t, fun t => Faulty admits ∧ inv t⟩

section Clean

variable {admits : Fault ε → Prop} {inv : σ → Prop} {R : α → σ → Prop} {s : σ}

/-- A call that goes through when it meets no fault. -/
theorem clean_call (h : f s = .ok (v, t)) (hR : R v t) (hs : inv s) (ht : inv t) :
    wp admits (call f) (.clean admits inv R) s :=
  wp_call_ok h hR (fun _ he => ⟨⟨_, he⟩, hs⟩) (fun _ he => ⟨⟨_, he⟩, ht⟩) (fun he => ⟨⟨_, he⟩, hs⟩)
    fun he => ⟨⟨_, he⟩, ht⟩

theorem clean_effect {R : Unit → σ → Prop} {f : σ → σ} (hR : R () (f s)) (hs : inv s)
    (hf : inv (f s)) : wp admits (effect f) (.clean admits inv R) s := clean_call rfl hR hs hf

/-- A query that finds its answer when it meets no fault. -/
theorem clean_ask {f : σ → Except ε α} (h : f s = .ok v) (hR : R v s) (hs : inv s) :
    wp admits (ask f) (.clean admits inv R) s :=
  clean_call (by rw [h]; rfl) hR hs hs

/-- An error after a fault. -/
theorem clean_raise (hfaulty : Faulty admits) (hs : inv s) :
    wp admits (raise error) (.clean admits inv R) s := wp_raise ⟨hfaulty, hs⟩

end Clean

/-! ## Runs without faults -/

/-- No fault is admitted. -/
def Faultless : Fault ε → Prop := fun _ => False

/-- A call that goes through. -/
theorem faultless_call (h : f s = .ok (v, t)) (hreturns : q.returns v t) :
    wp Faultless (call f) q s :=
  wp_call_ok h hreturns nofun nofun nofun nofun

/-- A call that fails. -/
theorem faultless_error (h : f s = .error e) (hthrows : q.throws e s) :
    wp Faultless (call f) q s := by
  refine wp_call ?_
  rw [h]
  refine ⟨nofun, fun found hfound => ?_, nofun, nofun, nofun, nofun⟩
  cases hfound
  exact hthrows

theorem faultless_effect {q : Post σ ε Unit} {f : σ → σ} (h : q.returns () (f s)) :
    wp Faultless (effect f) q s := faultless_call rfl h

/-- A query that finds its answer. -/
theorem faultless_ask {f : σ → Except ε α} (h : f s = .ok v)
    (hreturns : q.returns v s) : wp Faultless (ask f) q s := faultless_call (by rw [h]; rfl) hreturns

/-- The run without faults returns, with a value and a state as claimed. -/
theorem faultless_run {R : α → σ → Prop}
    (h : wp Faultless p (.clean Faultless inv R) s) :
    ∃ value, (p s []).outcome = .returned value ∧ R value (p s []).state := by
  obtain hend | ⟨_, -, ⟨_, hfault⟩, -⟩ | ⟨⟨_, hfault⟩, -⟩ := (wp_calm h).cases
  · exact hend
  · exact hfault.elim
  · exact hfault.elim

/-! ## Scripted calls -/

/-- What is scripted for one call. -/
inductive Reply (ε : Type) where
  | pass
  | throwBefore (error : ε)
  | throwAfter (error : ε)
  deriving DecidableEq

/-- The fault of a scripted call. -/
def Reply.fault : Reply ε → Fault ε
  | .pass => .pass
  | .throwBefore error => .throwBefore error
  | .throwAfter error => .throwAfter error

theorem Reply.ne_pass_of_throwBefore {reply : Reply ε} (h : reply = .throwBefore e) : reply ≠ .pass := by
  rw [h]
  nofun

theorem Reply.ne_pass_of_throwAfter {reply : Reply ε} (h : reply = .throwAfter e) : reply ≠ .pass := by
  rw [h]
  nofun

/-- A call whose fault is given by the state and not by the schedule. -/
def scripted (reply : σ → Reply ε) (f : σ → Except ε (α × σ)) : Prog σ ε α := fun s faults =>
  call f s ((reply s).fault :: faults)

/-- A scripted call goes through, or throws before or after its effect. -/
theorem wp_scripted {reply : σ → Reply ε}
    (hok : reply s = .pass → ∀ value t, f s = .ok (value, t) → q.returns value t)
    (herror : reply s = .pass → ∀ error, f s = .error error → q.throws error s)
    (hbefore : ∀ error, reply s = .throwBefore error → q.throws error s)
    (hafter : ∀ error, reply s = .throwAfter error → q.throws error (after s (f s))) :
    wp admits (scripted reply f) q s := by
  intro faults _
  unfold scripted
  cases hreply : reply s with
  | pass =>
    show (settle s faults (f s)).faults ⊆ faults ∧ q.Holds (settle s faults (f s))
    cases hf : f s with
    | ok pair => exact ⟨List.Subset.refl _, hok hreply _ _ hf⟩
    | error error => exact ⟨List.Subset.refl _, herror hreply _ hf⟩
  | throwBefore error => exact ⟨List.Subset.refl _, hbefore error hreply⟩
  | throwAfter error => exact ⟨List.Subset.refl _, hafter error hreply⟩

end Durable
