import Mathlib

/-!
# Entries that expire

A table gives some keys a time of expiry, and an entry is live at the times before it. Two tables are
compared by what is live from a time on: `Keeps` says that nothing live was lost or made, which is what
any sweep of expired entries does, and `Stores` that one recording was added. Neither says anything
about entries that are expired already, so that lazy removal is invisible.
-/

namespace Expiry

open Option

variable {κ T : Type*} [LinearOrder T]

/-- The entry of the key is live at the time. -/
def LiveAt (table : κ → Option T) (k : κ) (t : T) : Prop := ∃ e, table k = some e ∧ t < e

/-- From the time on, the same entries are live. -/
def Keeps (t : T) (before after : κ → Option T) : Prop :=
  ∀ k t', t ≤ t' → (LiveAt after k t' ↔ LiveAt before k t')

/-- From the time on, the same entries are live, and the recorded one until its expiry. -/
def Stores (t : T) (key : κ) (expiry : T) (before after : κ → Option T) : Prop :=
  ∀ k t', t ≤ t' → (LiveAt after k t' ↔ LiveAt before k t' ∨ k = key ∧ t' < expiry)

variable {t : T} {a b c : κ → Option T} {k : κ} {e : T}

theorem keeps_refl (t : T) (a : κ → Option T) : Keeps t a a := fun _ _ _ => Iff.rfl

theorem Keeps.trans (hab : Keeps t a b) (hbc : Keeps t b c) : Keeps t a c :=
  fun k t' ht => (hbc k t' ht).trans (hab k t' ht)

theorem Keeps.stores (hab : Keeps t a b) (hbc : Stores t k e b c) : Stores t k e a c :=
  fun k' t' ht => (hbc k' t' ht).trans (or_congr_left (hab k' t' ht))

/-- Removing expired entries keeps what is live. -/
theorem keeps_of_removed (hsub : ∀ k e, b k = some e → a k = some e)
    (hlive : ∀ k e, a k = some e → t < e → b k = some e) : Keeps t a b := by
  intro k t' ht
  constructor
  · intro ⟨e, hsome, hlt⟩
    exact ⟨e, hsub k e hsome, hlt⟩
  · intro ⟨e, hsome, hlt⟩
    exact ⟨e, hlive k e hsome (ht.trans_lt hlt), hlt⟩

/-- A live entry keeps its expiry when what is live is kept. -/
theorem Keeps.expiry_eq (h : Keeps t a b) (ha : a k = some e) (hlive : t < e) : b k = some e := by
  obtain ⟨e', hb, hlt⟩ := (h k t le_rfl).mpr ⟨e, ha, hlive⟩
  have hle : e ≤ e' := by
    by_contra hgt
    -- The later of the two times tells the two expiries apart.
    obtain ⟨x, hx, hlt'⟩ := (h k e' hlt.le).mpr ⟨e, ha, lt_of_not_ge hgt⟩
    rw [hb] at hx
    exact absurd hlt' (some.inj hx ▸ lt_irrefl e')
  have hge : e' ≤ e := by
    by_contra hgt
    obtain ⟨x, hx, hlt'⟩ := (h k e hlive.le).mp ⟨e', hb, lt_of_not_ge hgt⟩
    rw [ha] at hx
    exact absurd hlt' (some.inj hx ▸ lt_irrefl e)
  rw [hb, le_antisymm hle hge]

/-- A recording does not shorten a live entry. -/
theorem Stores.exists_le {key : κ} {expiry : T} (h : Stores t key expiry a b) (ha : a k = some e)
    (hlive : t < e) : ∃ e', b k = some e' ∧ e ≤ e' := by
  obtain ⟨e', hb, hlt⟩ := (h k t le_rfl).mpr (.inl ⟨e, ha, hlive⟩)
  refine ⟨e', hb, ?_⟩
  by_contra hgt
  obtain ⟨x, hx, hlt'⟩ := (h k e' hlt.le).mpr (.inl ⟨e, ha, lt_of_not_ge hgt⟩)
  rw [hb] at hx
  exact absurd hlt' (some.inj hx ▸ lt_irrefl e')

/-- A recording leaves the other keys alone. -/
theorem Stores.expiry_eq {key : κ} {expiry : T} (h : Stores t key expiry a b) (hne : k ≠ key)
    (ha : a k = some e) (hlive : t < e) : b k = some e := by
  have hkeeps : Keeps t (fun _ : Unit => a k) (fun _ => b k) := fun _ t' ht =>
    (h k t' ht).trans (or_iff_left fun hkey => hne hkey.1)
  exact hkeeps.expiry_eq (k := ()) ha hlive

end Expiry
