import Mathlib

/-!
# Components that answer calls

A responder answers each event and moves to a next state. A contract says which answer is admitted, with
a state of its own that the admitted answers determine. `complies_of_simulation` is the refinement rule:
a relation between the two states, kept by every answer, gives a compliant trace for every run.
The relation may speak about the events still to come, which is how an assumption on the environment
enters.
-/

namespace Transition

universe u v w x

/-- A total component with answers. -/
structure Responder (State : Type u) (Event : Type v) (Answer : Type w) where
  /-- The answer to an event, and the state after it. -/
  respond : State → Event → Answer × State

/-- What a component promises, stated over an abstract state. -/
structure Contract (Spec : Type x) (Event : Type v) (Answer : Type w) where
  /-- The answer is admitted in the abstract state. -/
  admits : Spec → Event → Answer → Prop
  /-- The abstract state after the answer. -/
  next : Spec → Event → Answer → Spec

variable {State : Type u} {Event : Type v} {Answer : Type w} {Spec : Type x}

/-- The events of a run with their answers. -/
def Responder.trace (r : Responder State Event Answer) : State → List Event → List (Event × Answer)
  | _, [] => []
  | s, e :: rest => (e, (r.respond s e).1) :: r.trace (r.respond s e).2 rest

/-- The state after a run. -/
def Responder.after (r : Responder State Event Answer) : State → List Event → State
  | s, [] => s
  | s, e :: rest => r.after (r.respond s e).2 rest

/-- A further event continues the run. -/
theorem Responder.after_concat (r : Responder State Event Answer) (s : State) (events : List Event)
    (e : Event) : r.after s (events ++ [e]) = (r.respond (r.after s events) e).2 := by
  induction events generalizing s with
  | nil => rfl
  | cons first rest ih => exact ih _

/-- Every answer of the trace is admitted where it is given. -/
def Contract.Complies (c : Contract Spec Event Answer) : Spec → List (Event × Answer) → Prop
  | _, [] => True
  | a, (e, o) :: rest => c.admits a e o ∧ c.Complies (c.next a e o) rest

/-- A simulation gives compliant traces. -/
theorem complies_of_simulation {r : Responder State Event Answer} {c : Contract Spec Event Answer}
    {sim : State → Spec → List Event → Prop} (hstep : ∀ s a e rest, sim s a (e :: rest) →
      c.admits a e (r.respond s e).1 ∧ sim (r.respond s e).2 (c.next a e (r.respond s e).1) rest)
    {s : State} {a : Spec} {events : List Event} (h : sim s a events) : c.Complies a (r.trace s events) := by
  induction events generalizing s a with
  | nil => trivial
  | cons e rest ih =>
    obtain ⟨hadmits, hrest⟩ := hstep s a e rest h
    exact ⟨hadmits, ih hrest⟩

/-- An invariant kept by every answer holds after every run. -/
theorem Responder.invariant_after {r : Responder State Event Answer} {inv : State → Prop}
    (hkeep : ∀ s e, inv s → inv (r.respond s e).2) {s : State} (h : inv s) (events : List Event) :
    inv (r.after s events) := by
  induction events generalizing s with
  | nil => exact h
  | cons e rest ih => exact ih (hkeep s e h)

end Transition
