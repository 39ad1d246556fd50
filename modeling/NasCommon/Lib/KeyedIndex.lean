/-
  NasCommon.Lib.KeyedIndex — a secondary index over a store of records.

  `recs` maps a reference to its live record, `keyOf` gives a record's key, if it has
  one, and `idx` maps keys to references. The index is `Coherent` when it maps `k` to
  `p` exactly when `p` is live with key `k`. Adding a record under a free key, removing
  a live record with its key and changing a record but not its key all keep it so.
-/

import Mathlib.Logic.Function.Basic

namespace KeyedIndex

variable {P R K : Type*}

def Coherent (idx : K → Option P) (recs : P → Option R) (keyOf : R → Option K) : Prop :=
  ∀ k p, idx k = some p ↔ ∃ r, recs p = some r ∧ keyOf r = some k

variable {idx : K → Option P} {recs : P → Option R} {keyOf : R → Option K}

theorem coherent_empty : Coherent (fun _ => none) (fun _ : P => none) keyOf := by
  intro k p; simp

/-- Two live records never share a key. -/
theorem Coherent.unique (h : Coherent idx recs keyOf) {p q : P} {r r' : R} {k : K} (hp : recs p = some r)
    (hq : recs q = some r') (hr : keyOf r = some k) (hr' : keyOf r' = some k) : p = q := by
  have h1 := (h k p).mpr ⟨r, hp, hr⟩
  have h2 := (h k q).mpr ⟨r', hq, hr'⟩
  rw [h1] at h2
  exact Option.some.inj h2

variable [DecidableEq K]

/-- Set the index at a key, where there is one. -/
def put (idx : K → Option P) : Option K → Option P → (K → Option P)
  | none, _ => idx
  | some k, v => Function.update idx k v

@[simp] theorem put_none (idx : K → Option P) (v : Option P) : put idx none v = idx := rfl

@[simp] theorem put_some (idx : K → Option P) (k : K) (v : Option P) : put idx (some k) v = Function.update idx k v := rfl

@[simp] theorem put_put (idx : K → Option P) (k : Option K) (v w : Option P) : put (put idx k v) k w = put idx k w := by
  cases k with
  | none => rfl
  | some k => simp

/-- A free key set and cleared again. -/
theorem put_clear {ko : Option K} (v : Option P) (h : ∀ k, ko = some k → idx k = none) :
    put (put idx ko v) ko none = idx := by
  rw [put_put]
  cases ko with
  | none => rfl
  | some k => rw [put_some, ← h k rfl, Function.update_eq_self]

/-- A key set from and to other references leaves `q`'s entries alone. -/
theorem put_other {ko : Option K} {v : Option P} {k : K} {q : P} (hold : ∀ k', ko = some k' → idx k' ≠ some q)
    (hv : v ≠ some q) : put idx ko v k = some q ↔ idx k = some q := by
  cases ko with
  | none => rfl
  | some k' =>
    by_cases e : k = k'
    · subst e
      rw [put_some, Function.update_self]
      exact iff_of_false hv (hold k rfl)
    · rw [put_some, Function.update_of_ne e]

variable [DecidableEq P]

omit [DecidableEq K] in
theorem Coherent.modify (h : Coherent idx recs keyOf) {p : P} {r r' : R} (hp : recs p = some r)
    (hk : keyOf r' = keyOf r) : Coherent idx (Function.update recs p (some r')) keyOf := by
  intro k q
  rw [h k q]
  by_cases hq : q = p
  · subst hq; simp [hp, hk]
  · simp [hq]

theorem Coherent.insert (h : Coherent idx recs keyOf) {p : P} {r : R} (hfree : recs p = none)
    (hk : ∀ k, keyOf r = some k → idx k = none) :
    Coherent (put idx (keyOf r) (some p)) (Function.update recs p (some r)) keyOf := by
  intro k q
  by_cases hq : q = p
  · subst hq
    have hidx : ∀ k, idx k ≠ some q := fun k hc => by
      obtain ⟨r', hr', _⟩ := (h k q).mp hc
      rw [hfree] at hr'; cases hr'
    cases hkey : keyOf r with
    | none => simp [put, hkey, hidx]
    | some k' =>
      by_cases e : k = k'
      · subst e; simp [put, hkey]
      · simp [put, e, hkey, hidx, Ne.symm e]
  · have hrec : Function.update recs p (some r) q = recs q := by simp [hq]
    rw [hrec, ← h k q]
    refine put_other (fun k' hkey => ?_) (by simpa using Ne.symm hq)
    rw [hk k' hkey]
    exact nofun

theorem Coherent.remove (h : Coherent idx recs keyOf) {p : P} {r : R} (hp : recs p = some r) :
    Coherent (put idx (keyOf r) none) (Function.update recs p none) keyOf := by
  intro k q
  by_cases hq : q = p
  · subst hq
    have hidx : idx k = some q → keyOf r = some k := fun hc => by
      obtain ⟨r', hr', hk'⟩ := (h k q).mp hc
      rw [hp] at hr'; cases hr'; exact hk'
    cases hkey : keyOf r with
    | none =>
      have : idx k ≠ some q := fun hc => by rw [hidx hc] at hkey; cases hkey
      simp [put, this]
    | some k' =>
      by_cases e : k = k'
      · subst e; simp [put]
      · have : idx k ≠ some q := fun hc => e (by rw [hidx hc] at hkey; exact Option.some.inj hkey)
        simp [put, e, this]
  · have hrec : Function.update recs p none q = recs q := by simp [hq]
    rw [hrec, ← h k q]
    refine put_other (fun k' hkey => ?_) nofun
    rw [(h k' p).mpr ⟨r, hp, hkey⟩]
    simpa using Ne.symm hq

end KeyedIndex
