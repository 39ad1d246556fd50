/-
  NasCommon.Lib.Table — tables that are filled from the front and searched up to a bound.

  `overlay` writes a list at successive indexes; what lies past the table's end is lost.
  `scan` is a loop over the indexes below a bound that stops at the first element its
  test accepts. The bound is not the table's size: where it is larger, the loop may run
  past the end.
  - `overlay_replicate`: a blank table after the writes.
  - `sum_map_set`: a sum over a table one element of which is replaced.
  - `scan_hit_iff`: what the loop finds; `scanFrom_ne_pastEnd`: when it stays in the table.
-/

import Mathlib.Algebra.Ring.Nat
import Mathlib.Data.List.Basic

namespace Table

variable {α : Type*}

/-! ## Writing -/

/-- Write `es` from index `i` on. -/
def overlay (l : List α) : Nat → List α → List α
  | _, [] => l
  | i, e :: es => overlay (l.set i e) (i + 1) es

@[simp] theorem length_overlay (es : List α) : ∀ (l : List α) (i : Nat), (overlay l i es).length = l.length := by
  induction es with
  | nil => intro l i; rfl
  | cons e es ih => intro l i; rw [overlay, ih, List.length_set]

theorem getElem?_overlay (es : List α) : ∀ (l : List α) (i j : Nat), j < l.length →
    (overlay l i es)[j]? = (if i ≤ j then es[j - i]? else none).or l[j]? := by
  induction es with
  | nil => intro l i j _; simp [overlay]
  | cons e es ih =>
    intro l i j hj
    rw [overlay, ih (l.set i e) (i + 1) j (by rwa [List.length_set])]
    rcases Nat.lt_trichotomy i j with h | rfl | h
    · rw [if_pos (Nat.succ_le_of_lt h), if_pos (Nat.le_of_lt h), List.getElem?_set_ne (Nat.ne_of_lt h)]
      obtain ⟨k, rfl⟩ := Nat.exists_eq_add_of_lt h
      rw [show i + k + 1 - (i + 1) = k by omega, show i + k + 1 - i = k + 1 by omega, List.getElem?_cons_succ]
    · rw [if_neg (Nat.not_succ_le_self i), if_pos (Nat.le_refl i), List.getElem?_set_self hj, Nat.sub_self]
      rfl
    · rw [if_neg (by omega), if_neg (by omega), List.getElem?_set_ne (by omega)]

/-- The writes that fit, and what was behind them. -/
theorem overlay_front (es l : List α) : overlay l 0 es = es.take l.length ++ l.drop es.length := by
  apply List.ext_getElem?
  intro j
  by_cases hj : j < l.length
  · rw [getElem?_overlay es l 0 j hj, if_pos (Nat.zero_le j), Nat.sub_zero, List.getElem?_append]
    by_cases hes : j < es.length
    · have hlen : j < (es.take l.length).length := by rw [List.length_take]; omega
      rw [if_pos hlen, List.getElem?_take_of_lt hj, List.getElem?_eq_getElem hes]
      rfl
    · have hlen : ¬ j < (es.take l.length).length := by rw [List.length_take]; omega
      rw [if_neg hlen, List.getElem?_eq_none (by omega), List.getElem?_drop, List.length_take]
      exact congrArg (l[·]?) (by omega)
  · rw [List.getElem?_eq_none (by simp; omega), List.getElem?_eq_none]
    simp only [List.length_append, List.length_take, List.length_drop]
    omega

/-- A blank table: the writes that fit, and blanks behind them. -/
theorem overlay_replicate (es : List α) (n : Nat) (z : α) :
    overlay (List.replicate n z) 0 es = es.take n ++ List.replicate (n - es.length) z := by
  apply List.ext_getElem?
  intro j
  by_cases hj : j < n
  · rw [getElem?_overlay es _ 0 j (by simpa using hj), if_pos (Nat.zero_le j), Nat.sub_zero, List.getElem?_append]
    by_cases hes : j < es.length
    · have hlen : j < (es.take n).length := by rw [List.length_take]; omega
      rw [if_pos hlen, List.getElem?_take_of_lt hj, List.getElem?_eq_getElem hes]
      rfl
    · have hlen : ¬ j < (es.take n).length := by rw [List.length_take]; omega
      rw [if_neg hlen, List.getElem?_eq_none (by omega), List.length_take, List.getElem?_replicate_of_lt hj,
        List.getElem?_replicate_of_lt (by omega)]
      rfl
  · rw [List.getElem?_eq_none (by simp; omega), List.getElem?_eq_none]
    simp only [List.length_append, List.length_take, List.length_replicate]
    omega

/-- A sum over the table after one element is replaced. -/
theorem sum_map_set (f : α → Nat) {l : List α} {i : Nat} {a : α} (h : l[i]? = some a) (b : α) :
    ((l.set i b).map f).sum + f a = (l.map f).sum + f b := by
  induction l generalizing i with
  | nil => cases h
  | cons x l ih =>
    cases i with
    | zero =>
      cases h
      simp only [List.set_cons_zero, List.map_cons, List.sum_cons]
      omega
    | succ i =>
      have := ih h
      simp only [List.set_cons_succ, List.map_cons, List.sum_cons]
      omega

/-! ## Searching -/

inductive Found (α : Type*) where
  | hit (idx : Nat) (a : α)
  | missing
  | pastEnd
  deriving DecidableEq

variable (p : α → Bool) (l : List α)

/-- The loop from index `idx`, with `fuel` indexes to go. -/
def scanFrom : Nat → Nat → Found α
  | 0, _ => .missing
  | fuel + 1, idx =>
    match l[idx]? with
    | none => .pastEnd
    | some a => if p a then .hit idx a else scanFrom fuel (idx + 1)

def scan (bound : Nat) : Found α := scanFrom p l bound 0

variable {p l}

theorem scanFrom_hit_iff {j : Nat} {a : α} : ∀ {fuel idx : Nat}, scanFrom p l fuel idx = .hit j a ↔
    idx ≤ j ∧ j < idx + fuel ∧ l[j]? = some a ∧ p a = true ∧
      ∀ k, idx ≤ k → k < j → ∀ b, l[k]? = some b → p b = false := by
  intro fuel
  induction fuel with
  | zero =>
    intro idx
    exact iff_of_false (by simp [scanFrom]) fun h => by omega
  | succ fuel ih =>
    intro idx
    unfold scanFrom
    cases hx : l[idx]? with
    | none =>
      refine iff_of_false (by simp) ?_
      intro h
      obtain ⟨hle, -, hj, -⟩ := h
      have : l.length ≤ idx := List.getElem?_eq_none_iff.mp hx
      rw [List.getElem?_eq_none (by omega)] at hj
      cases hj
    | some x =>
      by_cases hp : p x = true
      · simp only [hp, if_true, Found.hit.injEq]
        constructor
        · intro h
          obtain ⟨rfl, rfl⟩ := h
          exact ⟨Nat.le_refl _, by omega, hx, hp, fun k h1 h2 => by omega⟩
        · intro h
          obtain ⟨hle, -, hj, -, hall⟩ := h
          -- a later index would have been found after this one
          by_cases e : idx = j
          · subst e
            rw [hx] at hj; cases hj
            exact ⟨rfl, rfl⟩
          · have := hall idx (Nat.le_refl _) (by omega) x hx
            rw [hp] at this; cases this
      · simp only [hp, if_false, ih, Bool.false_eq_true]
        constructor
        · intro h
          obtain ⟨h1, h2, h3, h4, h5⟩ := h
          refine ⟨by omega, by omega, h3, h4, fun k hk hkj b hb => ?_⟩
          by_cases e : k = idx
          · subst e
            rw [hx] at hb; cases hb
            simpa using hp
          · exact h5 k (by omega) hkj b hb
        · intro h
          obtain ⟨h1, h2, h3, h4, h5⟩ := h
          have hne : idx ≠ j := by
            intro e
            subst e
            rw [hx] at h3; cases h3
            exact hp h4
          exact ⟨by omega, by omega, h3, h4, fun k hk => h5 k (by omega)⟩

/-- The first accepted element below the bound. -/
theorem scan_hit_iff {bound j : Nat} {a : α} : scan p l bound = .hit j a ↔
    j < bound ∧ l[j]? = some a ∧ p a = true ∧ ∀ k < j, ∀ b, l[k]? = some b → p b = false := by
  unfold scan
  rw [scanFrom_hit_iff]
  constructor
  · intro h
    obtain ⟨-, h1, h2, h3, h4⟩ := h
    exact ⟨by omega, h2, h3, fun k hk => h4 k (Nat.zero_le k) hk⟩
  · intro h
    obtain ⟨h1, h2, h3, h4⟩ := h
    exact ⟨Nat.zero_le j, by omega, h2, h3, fun k _ hk => h4 k hk⟩

/-- A bound that is no more than the table's size. -/
theorem scanFrom_ne_pastEnd : ∀ {fuel idx : Nat}, idx + fuel ≤ l.length → scanFrom p l fuel idx ≠ .pastEnd := by
  intro fuel
  induction fuel with
  | zero => intro idx _; simp [scanFrom]
  | succ fuel ih =>
    intro idx hlen
    rw [scanFrom, List.getElem?_eq_getElem (by omega)]
    dsimp only
    split
    · simp
    · exact ih (by omega)

theorem scanFrom_missing_iff : ∀ {fuel idx : Nat}, idx + fuel = l.length →
    (scanFrom p l fuel idx = .missing ↔ ∀ a ∈ l.drop idx, p a = false) := by
  intro fuel
  induction fuel with
  | zero =>
    intro idx hlen
    rw [List.drop_eq_nil_of_le (by omega)]
    exact iff_of_true rfl (by simp)
  | succ fuel ih =>
    intro idx hlen
    rw [scanFrom, List.getElem?_eq_getElem (by omega), List.drop_eq_getElem_cons (by omega), List.forall_mem_cons,
      ← ih (by omega)]
    dsimp only
    by_cases hp : p l[idx] = true
    · simp [hp]
    · simp [hp]

/-- A search of the whole table. -/
theorem scan_missing_iff {bound : Nat} (h : l.length = bound) : scan p l bound = .missing ↔ ∀ a ∈ l, p a = false := by
  rw [scan, scanFrom_missing_iff (by rw [Nat.zero_add, h]), List.drop_zero]

theorem scan_found_iff {bound : Nat} (h : l.length = bound) : (∃ j a, scan p l bound = .hit j a) ↔ ∃ a ∈ l, p a = true := by
  cases hs : scan p l bound with
  | hit j a =>
    obtain ⟨-, hj, hp, -⟩ := scan_hit_iff.mp hs
    exact iff_of_true ⟨j, a, rfl⟩ ⟨a, List.mem_of_getElem? hj, hp⟩
  | missing =>
    have hnone := (scan_missing_iff h).mp hs
    refine iff_of_false (fun ⟨j, a, e⟩ => nomatch e) fun ⟨a, ha, hp⟩ => ?_
    rw [hnone a ha] at hp
    cases hp
  | pastEnd => exact absurd hs (scanFrom_ne_pastEnd (by rw [Nat.zero_add, h]))

end Table
