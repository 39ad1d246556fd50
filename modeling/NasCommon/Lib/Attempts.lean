/-
  NasCommon.Lib.Attempts — a loop that tries until an attempt is done.

  Attempt `k` is done with a result, or leaves a state for the next one. `loop` has
  `fuel` attempts to go.
  - `loop_mono`: a loop that has returned returns the same with more attempts to go.
  - `returns_iff`: a loop returns exactly when some attempt is done, what the first that
    is done comes to; `after` are the states that the attempts find. `returns_some_iff`
    leaves out which.
-/

import Mathlib.Data.Nat.Find
import Mathlib.Data.Option.Basic

namespace Attempts

variable {σ α : Type*}

def loop (f : Nat → σ → α ⊕ σ) : Nat → Nat → σ → Option α
  | 0, _, _ => none
  | fuel + 1, k, s =>
    match f k s with
    | .inl a => some a
    | .inr t => loop f fuel (k + 1) t

variable {f : Nat → σ → α ⊕ σ}

theorem loop_mono {a : α} : ∀ {fuel fuel' k : Nat} {s : σ}, loop f fuel k s = some a → fuel ≤ fuel' →
    loop f fuel' k s = some a := by
  intro fuel
  induction fuel with
  | zero => intro fuel' k s h _; cases h
  | succ fuel ih =>
    intro fuel' k s h hle
    obtain ⟨m, rfl⟩ : ∃ m, fuel' = m + 1 := ⟨fuel' - 1, by omega⟩
    unfold loop at h ⊢
    cases hf : f k s with
    | inl b => rw [hf] at h; exact h
    | inr t =>
      rw [hf] at h
      exact ih h (by omega)

/-- Where attempt `k` finds `after k`: it is done, with `done k`, or leaves `after (k + 1)`. -/
theorem returns_iff (after : Nat → σ) (done : Nat → Option α)
    (hf : ∀ k, f k (after k) = (done k).elim (Sum.inr (after (k + 1))) Sum.inl) {a : α} :
    (∃ fuel, loop f fuel 0 (after 0) = some a) ↔ ∃ n, done n = some a ∧ ∀ j < n, done j = none := by
  have hloop : ∀ fuel k, loop f fuel k (after k) = some a ↔
      ∃ n, k ≤ n ∧ n < k + fuel ∧ done n = some a ∧ ∀ j, k ≤ j → j < n → done j = none := by
    intro fuel
    induction fuel with
    | zero =>
      intro k
      exact iff_of_false (by simp [loop]) fun h => by obtain ⟨n, h1, h2, -⟩ := h; omega
    | succ fuel ih =>
      intro k
      unfold loop
      rw [hf]
      cases hdone : done k with
      | some b =>
        constructor
        · intro h
          exact ⟨k, Nat.le_refl k, by omega, hdone.trans h, fun j h1 h2 => by omega⟩
        · intro h
          obtain ⟨n, hle, -, hn, hno⟩ := h
          -- attempt `k` is done, so it is the first
          by_cases hk : k = n
          · exact hdone.symm.trans (hk ▸ hn)
          · have := hno k (Nat.le_refl k) (by omega)
            rw [hdone] at this
            cases this
      | none =>
        refine (ih (k + 1)).trans ⟨fun h => ?_, fun h => ?_⟩
        · obtain ⟨n, h1, h2, hn, hno⟩ := h
          refine ⟨n, by omega, by omega, hn, fun j hj hjn => ?_⟩
          by_cases hk : j = k
          · exact hk ▸ hdone
          · exact hno j (by omega) hjn
        · obtain ⟨n, h1, h2, hn, hno⟩ := h
          have hk : k ≠ n := by
            intro hk
            rw [hk, hn] at hdone
            cases hdone
          exact ⟨n, by omega, by omega, hn, fun j hj => hno j (by omega)⟩
  constructor
  · intro h
    obtain ⟨fuel, h⟩ := h
    obtain ⟨n, -, -, hn, hno⟩ := (hloop fuel 0).mp h
    exact ⟨n, hn, fun j => hno j (Nat.zero_le j)⟩
  · intro h
    obtain ⟨n, hn, hno⟩ := h
    exact ⟨n + 1, (hloop (n + 1) 0).mpr ⟨n, Nat.zero_le n, by omega, hn, fun j _ => hno j⟩⟩

theorem returns_some_iff (after : Nat → σ) (done : Nat → Option α)
    (hf : ∀ k, f k (after k) = (done k).elim (Sum.inr (after (k + 1))) Sum.inl) :
    (∃ fuel a, loop f fuel 0 (after 0) = some a) ↔ ∃ n a, done n = some a := by
  classical
  rw [exists_comm]
  simp only [returns_iff after done hf]
  constructor
  · intro h
    obtain ⟨a, n, hn, -⟩ := h
    exact ⟨n, a, hn⟩
  · intro h
    obtain ⟨a, ha⟩ := Nat.find_spec h
    exact ⟨a, Nat.find h, ha, fun j hj => Option.eq_none_iff_forall_ne_some.mpr fun b hb => Nat.find_min h hj ⟨b, hb⟩⟩

end Attempts
