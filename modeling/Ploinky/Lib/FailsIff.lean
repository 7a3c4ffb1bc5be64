import Mathlib

/-!
# Computations that fail under a condition

`FailsIff bad result post` says when a computation fails and what it returns otherwise. The rules follow
the way such computations are put together: one after the other, and one for each element of a list.
-/

variable {ε α β κ σ : Type} {bad : Prop} {result : Except ε α} {post : α → Prop}

/-- The computation fails under the condition, and otherwise returns a value with the property. -/
def FailsIff (bad : Prop) (result : Except ε α) (post : α → Prop) : Prop :=
  match result with
  | .ok value => ¬ bad ∧ post value
  | .error _ => bad

namespace FailsIff

theorem returns (h : FailsIff bad result post) (hfine : ¬ bad) :
    ∃ value, result = .ok value ∧ post value := by
  cases result with
  | ok value => exact ⟨value, rfl, h.2⟩
  | error error => exact absurd h hfine

theorem fails (h : FailsIff bad result post) (hbad : bad) : ∃ error, result = .error error := by
  cases result with
  | ok value => exact absurd hbad h.1
  | error error => exact ⟨error, rfl⟩

theorem imp {post' : α → Prop} (h : FailsIff bad result post) (hpost : ∀ value, post value → post' value) :
    FailsIff bad result post' := by
  cases result with
  | ok value => exact ⟨h.1, hpost value h.2⟩
  | error error => exact h

/-- The second computation runs when the first has not failed. -/
theorem bind {bad' : Prop} {next : α → Except ε β} {post' : β → Prop} (h : FailsIff bad result post)
    (hnext : ∀ value, post value → FailsIff bad' (next value) post') :
    FailsIff (bad ∨ bad') (result >>= next) post' := by
  cases result with
  | error error => exact .inl h
  | ok value =>
    have hafter := hnext value h.2
    show FailsIff _ (next value) _
    generalize next value = after at hafter ⊢
    cases after with
    | error error => exact .inr hafter
    | ok final => exact ⟨not_or.mpr ⟨h.1, hafter.1⟩, hafter.2⟩

/-- A second computation that does not fail. -/
theorem andThen {next : α → Except ε β} {post' : β → Prop} (h : FailsIff bad result post)
    (hnext : ∀ value, post value → ∃ final, next value = .ok final ∧ post' final) :
    FailsIff bad (result >>= next) post' := by
  rw [← or_false bad]
  refine h.bind fun value hvalue => ?_
  obtain ⟨final, hfinal, hpost⟩ := hnext value hvalue
  rw [hfinal]
  exact ⟨not_false, hpost⟩

/-- A loop fails when one of its elements is bad. The invariant is about the elements that are left. -/
theorem foldlM {step : σ → κ → Except ε σ} {bad : κ → Prop} (I : List κ → σ → Prop)
    (hstep : ∀ key todo state, I (key :: todo) state → FailsIff (bad key) (step state key) (I todo))
    {todo : List κ} {state : σ} (h : I todo state) :
    FailsIff (∃ key ∈ todo, bad key) (todo.foldlM step state) (I []) := by
  induction todo generalizing state with
  | nil => exact ⟨by simp, h⟩
  | cons key todo ih =>
    rw [List.exists_mem_cons_iff, List.foldlM_cons]
    exact (hstep key todo state h).bind fun next => ih

end FailsIff
