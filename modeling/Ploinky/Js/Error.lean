import Ploinky.Js.Text

/-!
# Exceptions

An exception is modelled by its message and its `code` property, the two things the sources read
from one they catch.
-/

namespace Ploinky

/-- An `Error` with a `code`. -/
structure CodedError where
  message : Str
  code : Str
  deriving DecidableEq

/-- A guarded computation succeeds when the guard does not hold and the rest succeeds. -/
theorem guard_eq_ok {ε α : Type} {c : Bool} {error : ε} {rest : Except ε α} {value : α} :
    (if c = true then .error error else rest) = .ok value ↔ c = false ∧ rest = .ok value := by
  cases c <;> simp

/-- The same for a guard that is a decidable proposition. -/
theorem guardProp_eq_ok {ε α : Type} {c : Prop} [Decidable c] {error : ε} {rest : Except ε α}
    {value : α} : (if c then .error error else rest) = .ok value ↔ ¬ c ∧ rest = .ok value := by
  by_cases h : c <;> simp [h]

/-- A sequence of two computations succeeds when both do. -/
theorem bind_eq_ok {ε α β : Type} {first : Except ε α} {next : α → Except ε β} {value : β} :
    (first >>= next) = .ok value ↔ ∃ result, first = .ok result ∧ next result = .ok value := by
  cases first <;> simp [bind, Except.bind]

/-- What is seen of the result of a computation is seen of a result that it has. -/
theorem exists_ok_of_map {ε α β : Type} {result : Except ε α} {f : α → β} {seen : β}
    (h : result.toOption.map f = some seen) : ∃ value, result = .ok value ∧ f value = seen := by
  cases result with
  | error => cases h
  | ok value => exact ⟨value, rfl, Option.some.inj h⟩

section MapM

variable {ε α β : Type} {f : α → Except ε β} {items : List α} {results : List β}

/-- A computation mapped over a list succeeds with one result for each element. -/
theorem forall₂_of_mapM (h : items.mapM f = .ok results) :
    List.Forall₂ (fun item result => f item = .ok result) items results := by
  induction items generalizing results with
  | nil =>
    cases h
    exact .nil
  | cons item items ih =>
    rw [List.mapM_cons] at h
    obtain ⟨result, hresult, h⟩ := bind_eq_ok.mp h
    obtain ⟨rest, hrest, h⟩ := bind_eq_ok.mp h
    cases h
    exact .cons hresult (ih hrest)

theorem mapM_eq_ok (h : items.mapM f = .ok results) :
    (∀ item ∈ items, ∃ result ∈ results, f item = .ok result) ∧
      ∀ result ∈ results, ∃ item ∈ items, f item = .ok result := by
  replace h := forall₂_of_mapM h
  induction h with
  | nil => simp
  | cons hfirst _ ih =>
    simp only [List.forall_mem_cons, List.exists_mem_cons_iff]
    exact ⟨⟨.inl hfirst, fun x hx => .inr (ih.1 x hx)⟩, .inl hfirst, fun y hy => .inr (ih.2 y hy)⟩

end MapM

end Ploinky
