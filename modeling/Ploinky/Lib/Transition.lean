import Mathlib

/-!
# Partial transition machines

A machine is a partial step function from a state and an event to the next state. Runs are lists
of events. `Follows` restricts a run to steps that meet a side condition, and
`invariant_of_follows` is the induction that every whole-run safety result here goes through:
an invariant that holds at the start and is kept by each admitted step holds at the end.
-/

namespace Transition

open Option

universe u v

/-- A machine whose events may be disabled in a state. -/
structure Machine (State : Type u) (Event : Type v) where
  /-- The state after the event, when the event is enabled. -/
  step : State → Event → Option State

namespace Machine

variable {State : Type u} {Event : Type v}

/-- Execute a list of events, failing at the first disabled one. -/
def run (m : Machine State Event) : State → List Event → Option State
  | s, [] => some s
  | s, e :: rest => (m.step s e).bind fun next => run m next rest

/-- The events execute from the first state to the second, and every step taken meets `good`
in the state it is taken from. -/
inductive Follows (m : Machine State Event) (good : State → Event → Prop) :
    State → List Event → State → Prop where
  | refl (s : State) : Follows m good s [] s
  | step {s next last : State} {e : Event} {rest : List Event}
      (hstep : m.step s e = some next) (hgood : good s e)
      (hrest : Follows m good next rest last) : Follows m good s (e :: rest) last

variable {m : Machine State Event} {good : State → Event → Prop} {s last : State}
  {events : List Event}

/-- Every executed run follows the condition that admits every step. -/
theorem follows_of_run_eq (h : m.run s events = some last) : m.Follows (fun _ _ => True) s events last := by
  induction events generalizing s with
  | nil =>
    simp only [run, some.injEq] at h
    exact h ▸ .refl s
  | cons e rest ih =>
    simp only [run, bind_eq_some_iff] at h
    obtain ⟨next, hstep, hrest⟩ := h
    exact .step hstep trivial (ih hrest)

/-- A run follows the condition, or it has a first step that does not meet it. -/
theorem follows_or_violates (h : m.run s events = some last) :
    m.Follows good s events last ∨ ∃ before e after mid next, m.Follows good s before mid ∧
      m.step mid e = some next ∧ ¬ good mid e ∧ m.run next after = some last := by
  induction events generalizing s with
  | nil =>
    simp only [run, some.injEq] at h
    exact .inl (h ▸ .refl s)
  | cons e rest ih =>
    simp only [run, bind_eq_some_iff] at h
    obtain ⟨next, hstep, hrest⟩ := h
    by_cases hgood : good s e
    · rcases ih hrest with hfollows | ⟨before, e', after, mid, next', hfollows, hbad⟩
      · exact .inl (.step hstep hgood hfollows)
      · exact .inr ⟨e :: before, e', after, mid, next', .step hstep hgood hfollows, hbad⟩
    · exact .inr ⟨[], e, rest, s, next, .refl s, hstep, hgood, hrest⟩

/-- An invariant kept by every admitted step is kept by every run of admitted steps. -/
theorem invariant_of_follows {inv : State → Prop}
    (hkeep : ∀ s e next, inv s → good s e → m.step s e = some next → inv next)
    (h : m.Follows good s events last) (hs : inv s) : inv last := by
  induction h with
  | refl s => exact hs
  | step hstep hgood _ ih => exact ih (hkeep _ _ _ hs hgood hstep)

end Machine

section Move

variable {ι : Type u} {α : Type v} {f g : ι → α} {c : ι}

/-- What holds of every index after the move of one of them. -/
theorem forall_of_move {P : ι → α → Prop} (hother : ∀ d, d ≠ c → g d = f d) (hself : P c (g c))
    (h : ∀ d, d ≠ c → P d (f d)) (d : ι) : P d (g d) := by
  by_cases hd : d = c
  · exact hd ▸ hself
  · exact hother d hd ▸ h d hd

/-- A property of at most one index is one after the move of an index that had it or took it when none had. -/
theorem once_of_move (P : α → Prop) (hother : ∀ d, d ≠ c → g d = f d)
    (hmove : P (g c) → P (f c) ∨ ∀ d, ¬P (f d)) (h : ∀ d e, P (f d) → P (f e) → d = e) :
    ∀ d e, P (g d) → P (g e) → d = e := by
  have hpair : ∀ d, d ≠ c → P (g c) → ¬P (f d) := fun d hd hself hp =>
    (hmove hself).elim (fun hbefore => hd (h d c hp hbefore)) fun hnone => hnone d hp
  intro d e hd he
  by_cases hdc : d = c <;> by_cases hec : e = c
  · rw [hdc, hec]
  · exact absurd (hother e hec ▸ he) (hpair e hec (hdc ▸ hd))
  · exact absurd (hother d hdc ▸ hd) (hpair d hdc (hec ▸ he))
  · exact h d e (hother d hdc ▸ hd) (hother e hec ▸ he)

end Move

end Transition
