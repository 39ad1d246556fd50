/-
  NasCommon.Lib.OrdScan — walking an ordered set by cursor while it changes.

  `next` gives the least element over a cursor, or the least of all where there is no
  cursor yet. A `Scan` of the sets `S 0, S 1, …` takes its next step in each of them
  from where the last one left the cursor, until there is none. The cursor need not be
  an element any more.
  - `Scan.sorted`, `Scan.member`: what is seen ascends, each in its step's set.
  - `Scan.complete`: an element of every set on the way is seen.
  - `exists_scan`: a scan ends where the order has no infinite ascent.
-/

import Mathlib.Order.WellFounded
import NasCommon.Lib.OrdSet

namespace OrdSet

variable {α : Type} [LinearOrder α]

/-- The least element, as `begin` points to it. -/
def first (s : OrdSet α) : Option α := s.elems.head?

/-- The least element over `a`, as `upper_bound` points to it. -/
def upperBound (s : OrdSet α) (a : α) : Option α := s.elems.find? fun b => a < b

def next (s : OrdSet α) : Option α → Option α
  | none => s.first
  | some a => s.upperBound a

/-- Not yet passed by the cursor. -/
def Ahead : Option α → α → Prop
  | none, _ => True
  | some c, a => c < a

theorem next_some {s : OrdSet α} {cur : Option α} {a : α} (h : s.next cur = some a) :
    a ∈ s ∧ Ahead cur a ∧ ∀ b ∈ s, Ahead cur b → a ≤ b := by
  have hsorted := s.sorted
  cases cur with
  | none =>
    obtain ⟨l, hl⟩ := List.head?_eq_some_iff.mp h
    rw [hl] at hsorted
    refine ⟨by rw [mem_def, hl]; exact List.mem_cons_self, trivial, fun b hb _ => ?_⟩
    rw [mem_def, hl] at hb
    rcases List.mem_cons.mp hb with rfl | hb
    · exact le_refl _
    · exact le_of_lt ((List.pairwise_cons.mp hsorted).1 b hb)
  | some c =>
    obtain ⟨hca, as, bs, hl, has⟩ := List.find?_eq_some_iff_append.mp h
    have hca : c < a := of_decide_eq_true hca
    rw [hl] at hsorted
    refine ⟨by rw [mem_def, hl]; simp, hca, fun b hb hcb => ?_⟩
    rw [mem_def, hl] at hb
    rcases List.mem_append.mp hb with hb | hb
    · have hnot := has b hb
      rw [show decide (c < b) = true from decide_eq_true hcb] at hnot
      cases hnot
    · rcases List.mem_cons.mp hb with rfl | hb
      · exact le_refl _
      · exact le_of_lt ((List.pairwise_cons.mp (List.pairwise_append.mp hsorted).2.1).1 b hb)

theorem next_none {s : OrdSet α} {cur : Option α} (h : s.next cur = none) : ∀ b ∈ s, ¬ Ahead cur b := by
  intro b hb hahead
  cases cur with
  | none =>
    rw [mem_def, List.head?_eq_none_iff.mp h] at hb
    cases hb
  | some c => exact List.find?_eq_none.mp h b hb (decide_eq_true hahead)

/-! ## Scans -/

inductive Scan (S : Nat → OrdSet α) : Nat → Option α → List α → Prop
  | stop {n : Nat} {cur : Option α} (h : (S n).next cur = none) : Scan S n cur []
  | next {n : Nat} {cur : Option α} {a : α} {seen : List α} (h : (S n).next cur = some a)
      (rest : Scan S (n + 1) (some a) seen) : Scan S n cur (a :: seen)

variable {S : Nat → OrdSet α} {n : Nat} {cur : Option α} {seen : List α}

theorem Scan.ahead (h : Scan S n cur seen) : ∀ a ∈ seen, Ahead cur a := by
  induction h with
  | stop => intro a ha; cases ha
  | @next n cur a seen h _ ih =>
    intro b hb
    obtain ⟨-, hahead, -⟩ := next_some h
    rcases List.mem_cons.mp hb with rfl | hb
    · exact hahead
    · have hab : a < b := ih b hb
      cases cur with
      | none => trivial
      | some c => exact lt_trans hahead hab

theorem Scan.sorted (h : Scan S n cur seen) : seen.Pairwise (· < ·) := by
  induction h with
  | stop => exact List.Pairwise.nil
  | next _ rest ih => exact List.pairwise_cons.mpr ⟨rest.ahead, ih⟩

theorem Scan.member (h : Scan S n cur seen) : ∀ (k : Nat) (a : α), seen[k]? = some a → a ∈ S (n + k) := by
  induction h with
  | stop => intro k a hk; cases hk
  | next h _ ih =>
    intro k b hk
    cases k with
    | zero => cases hk; exact (next_some h).1
    | succ k =>
      have := ih k b hk
      rwa [Nat.add_right_comm, Nat.add_assoc] at this

theorem Scan.complete (h : Scan S n cur seen) :
    ∀ a, Ahead cur a → (∀ k ≤ seen.length, a ∈ S (n + k)) → a ∈ seen := by
  induction h with
  | stop h =>
    intro a hahead hmem
    exact absurd hahead (next_none h a (hmem 0 (Nat.le_refl _)))
  | @next m cur b seen h _ ih =>
    intro a hahead hmem
    obtain ⟨-, -, hleast⟩ := next_some h
    by_cases e : a = b
    · rw [e]; exact List.mem_cons_self
    · have hba : b < a := lt_of_le_of_ne (hleast a (hmem 0 (Nat.zero_le _)) hahead) (Ne.symm e)
      refine List.mem_cons_of_mem _ (ih a hba fun k hk => ?_)
      have := hmem (k + 1) (Nat.succ_le_succ hk)
      rwa [← Nat.add_assoc, Nat.add_right_comm] at this

theorem exists_scan [WellFoundedGT α] (S : Nat → OrdSet α) (n : Nat) (cur : Option α) : ∃ seen, Scan S n cur seen := by
  have hfrom : ∀ (c : α) (n : Nat), ∃ seen, Scan S n (some c) seen := by
    intro c
    induction c using WellFoundedGT.induction with
    | ind c ih =>
      intro n
      cases h : (S n).next (some c) with
      | none => exact ⟨[], .stop h⟩
      | some a =>
        obtain ⟨seen, hseen⟩ := ih a (next_some h).2.1 (n + 1)
        exact ⟨a :: seen, .next h hseen⟩
  cases h : (S n).next cur with
  | none => exact ⟨[], .stop h⟩
  | some a =>
    obtain ⟨seen, hseen⟩ := hfrom a (n + 1)
    exact ⟨a :: seen, .next h hseen⟩

end OrdSet
