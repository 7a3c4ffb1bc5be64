import Ploinky.Policy.Representatives

/-!
# The decision of the governing entries

The compiler and the evaluator both keep the first governing entry of the highest rank. `chosen` is
this decision; its grant depends on the grants of the governing entries only, and the fold of the
evaluator computes it.
-/

namespace Ploinky.Policy

open Js PathOrder List

/-! ## The decision of a list of governing entries -/

/-- The decision of the entries that govern a path: the first of the highest rank, or the default of
the route. -/
def chosen (governing : List Entry) (routeDefault : Decision) : Decision :=
  match (tied governing).head? with
  | some entry => entry.toDecision
  | none => routeDefault

/-- The governing entries of the highest rank agree on their execution metadata. -/
def Agree (governing : List Entry) : Prop :=
  ∀ a ∈ tied governing, ∀ b ∈ tied governing,
    executionMetadata a.toGrant = executionMetadata b.toGrant

/-- The entries of the highest rank, as grants. -/
theorem map_tied (governing : List Entry) : (tied governing).map Entry.toGrant =
      Selection.tops (fun grant => grant.access.rank) (governing.map Entry.toGrant) :=
  (Selection.tops_map (fun grant : Grant => grant.access.rank) Entry.toGrant governing).symm

/-- The grant of the decision depends on the grants of the governing entries only. -/
theorem chosen_toGrant_congr {left right : List Entry} (routeDefault : Decision)
    (h : left.map Entry.toGrant = right.map Entry.toGrant) :
    (chosen left routeDefault).toGrant = (chosen right routeDefault).toGrant := by
  have hhead : (tied left).head?.map Entry.toGrant = (tied right).head?.map Entry.toGrant := by
    rw [← head?_map, ← head?_map, map_tied, map_tied, h]
  unfold chosen
  cases hl : (tied left).head? with
  | none =>
    cases hr : (tied right).head? with
    | none => rfl
    | some entry => simp [hl, hr] at hhead
  | some entry =>
    cases hr : (tied right).head? with
    | none => simp [hl, hr] at hhead
    | some entry' => simpa [hl, hr, Entry.toDecision] using hhead

/-- Agreement depends on the grants of the governing entries only. -/
theorem agree_congr {left right : List Entry}
    (h : left.map Entry.toGrant = right.map Entry.toGrant) (hleft : Agree left) : Agree right := by
  have hmem : ∀ b ∈ tied right, ∃ a ∈ tied left, a.toGrant = b.toGrant := by
    intro b hb
    have : b.toGrant ∈ (tied left).map Entry.toGrant := by
      rw [map_tied, h, ← map_tied]
      exact mem_map_of_mem hb
    exact mem_map.mp this
  intro a ha b hb
  obtain ⟨a', ha', hga⟩ := hmem a ha
  obtain ⟨b', hb', hgb⟩ := hmem b hb
  rw [← hga, ← hgb]
  exact hleft a' ha' b' hb'

/-- The grant a decision makes for a method depends on its grant only. -/
theorem methodDecision_toGrant_congr {left right : Decision} (method : Str)
    (h : left.toGrant = right.toGrant) :
    (methodDecision left method).toGrant = (methodDecision right method).toGrant := by
  have hkey : left.routeKey = right.routeKey := congrArg Grant.routeKey h
  unfold methodDecision
  rw [h]
  split_ifs
  · simp [publicWriteDenied, hkey]
  · exact h

/-- Entries that grant access decide where there is one. -/
theorem ite_chosen {governing : List Entry} (haccess : ∀ entry ∈ governing, 0 < entry.access.rank)
    (routeDefault : Decision) : (if (chosen governing noHttpRouteAccess).access = .none then routeDefault
      else chosen governing noHttpRouteAccess) = chosen governing routeDefault := by
  cases htied : tied governing with
  | nil => simp [chosen, htied, noHttpRouteAccess]
  | cons entry rest =>
    have hmem : entry ∈ tied governing := by simp [htied]
    have hpos := haccess entry (Selection.mem_tops.mp hmem).1
    have hne : entry.toDecision.access ≠ .none := fun hnone : entry.access = .none => by
      simp [hnone, Access.rank] at hpos
    simp [chosen, htied, hne]

/-- The fold of the evaluator over entries that grant access finds the entry the compiler picks. -/
theorem decideEntries_eq {entries : List Entry} (requestPath : Str)
    (haccess : ∀ entry ∈ entries, 0 < entry.access.rank) : decideEntries entries requestPath =
      chosen (matching entries requestPath) noHttpRouteAccess := by
  have hfold : decideEntries entries requestPath =
      ((matching entries requestPath).map Entry.toDecision).foldl
        (Selection.better fun decision => decision.access.rank) noHttpRouteAccess := by
    unfold decideEntries matching
    rw [foldl_map, foldl_filter]
    rfl
  have hhead := Selection.head?_tops_cons (fun decision : Decision => decision.access.rank)
    noHttpRouteAccess ((matching entries requestPath).map Entry.toDecision)
  rw [← hfold] at hhead
  by_cases hnil : matching entries requestPath = []
  · rw [hnil] at hhead ⊢
    simpa [Selection.tops, Selection.topRank, Access.rank, chosen, tied]
      using hhead.symm
  · -- Entries outrank the missing access, so they alone are of the highest rank.
    have hlt : noHttpRouteAccess.access.rank <
        Selection.topRank (fun decision => decision.access.rank)
          ((matching entries requestPath).map Entry.toDecision) := by
      obtain ⟨entry, hentry⟩ := exists_mem_of_ne_nil _ hnil
      refine Nat.lt_of_lt_of_le (haccess entry (mem_filter.mp hentry).1) ?_
      exact Selection.rank_le_topRank (fun decision : Decision => decision.access.rank)
        (mem_map_of_mem (f := Entry.toDecision) hentry)
    rw [Selection.tops_cons_of_lt hlt, Selection.tops_map, head?_map] at hhead
    change Option.map Entry.toDecision (tied _).head? = _ at hhead
    unfold chosen
    cases htied : (tied (matching entries requestPath)).head? with
    | none => simp [htied] at hhead
    | some entry => simpa [htied] using hhead.symm

end Ploinky.Policy
