/-
  NasCommon.Lib.Attrs — lists of attributes with an id.

  `first` and `last` are the attribute that a search from the front finds and the one
  that a loop over the list leaves in place. Where the id occurs at most once they are
  the same (`first_eq_last`).
-/

import Mathlib.Data.List.Basic

namespace Attrs

variable {α κ : Type*} [DecidableEq κ] (key : α → κ)

def first (k : κ) (l : List α) : Option α := l.find? fun a => key a = k

def last (k : κ) : List α → Option α
  | [] => none
  | a :: l => (last k l).or (if key a = k then some a else none)

def AtMostOnce (k : κ) (l : List α) : Prop := l.countP (fun a => key a = k) ≤ 1

variable {key}

@[simp] theorem last_nil (k : κ) : last key k [] = none := rfl

theorem last_cons_self {a : α} {k : κ} (h : key a = k) (l : List α) :
    last key k (a :: l) = (last key k l).or (some a) := by
  simp [last, h]

theorem last_cons_other {a : α} {k : κ} (h : key a ≠ k) (l : List α) : last key k (a :: l) = last key k l := by
  simp [last, h]

theorem last_append (k : κ) (l l' : List α) : last key k (l ++ l') = (last key k l').or (last key k l) := by
  induction l with
  | nil => rw [List.nil_append, last_nil, Option.or_none]
  | cons a l ih => rw [List.cons_append, last, ih, last, Option.or_assoc]

theorem last_eq_none_iff {k : κ} {l : List α} : last key k l = none ↔ ∀ a ∈ l, key a ≠ k := by
  induction l with
  | nil => simp
  | cons a l ih =>
    by_cases h : key a = k
    · simp [last_cons_self h, h]
    · simp [last_cons_other h, h, ih]

theorem last_mem {a : α} {k : κ} {l : List α} (h : last key k l = some a) : a ∈ l ∧ key a = k := by
  induction l with
  | nil => cases h
  | cons b l ih =>
    by_cases hb : key b = k
    · rw [last_cons_self hb, Option.or_eq_some_iff] at h
      rcases h with h | ⟨-, h⟩
      · exact ⟨List.mem_cons_of_mem _ (ih h).1, (ih h).2⟩
      · cases h
        exact ⟨List.mem_cons_self, hb⟩
    · rw [last_cons_other hb] at h
      exact ⟨List.mem_cons_of_mem _ (ih h).1, (ih h).2⟩

theorem last_isSome_iff {k : κ} {l : List α} : (∃ a, last key k l = some a) ↔ ∃ a ∈ l, key a = k := by
  constructor
  · intro h
    obtain ⟨a, ha⟩ := h
    exact ⟨a, last_mem ha⟩
  · intro h
    obtain ⟨a, ha, hk⟩ := h
    rw [← Option.isSome_iff_exists, Option.isSome_iff_ne_none]
    exact fun hnone => last_eq_none_iff.mp hnone a ha hk

/-- Where every attribute with the id says `v`, whatever the order. -/
theorem last_map_eq_some {β : Type*} {f : α → β} {v : β} {k : κ} {l : List α} (hsome : ∃ a ∈ l, key a = k)
    (hall : ∀ a ∈ l, key a = k → f a = v) : (last key k l).map f = some v := by
  obtain ⟨a, ha⟩ := last_isSome_iff.mpr hsome
  obtain ⟨hmem, hk⟩ := last_mem ha
  rw [ha, Option.map_some, hall a hmem hk]

/-- A loop that overwrites its result at each attribute with the id. -/
theorem foldl_overwrite {β : Type*} (f : α → β) (k : κ) (l : List α) : ∀ out : β,
    l.foldl (fun out a => if key a = k then f a else out) out = ((last key k l).map f).getD out := by
  induction l with
  | nil => intro out; rfl
  | cons a l ih =>
    intro out
    rw [List.foldl_cons, ih]
    by_cases ha : key a = k
    · rw [last_cons_self ha, if_pos ha]
      cases last key k l <;> rfl
    · rw [last_cons_other ha, if_neg ha]

/-- What an image keeps the id of where `p` holds, and elsewhere gives another. -/
theorem last_map {β : Type*} {key' : β → κ} {k : κ} {f : α → β} {p : α → Bool}
    (hkeep : ∀ a, p a = true → key' (f a) = key a) (hother : ∀ a, p a = false → key' (f a) ≠ k) (l : List α) :
    last key' k (l.map f) = (last key k (l.filter p)).map f := by
  induction l with
  | nil => rfl
  | cons a l ih =>
    rw [List.map_cons]
    cases ha : p a with
    | false => rw [last_cons_other (hother a ha), List.filter_cons_of_neg (by simp [ha]), ih]
    | true =>
      rw [List.filter_cons_of_pos ha]
      by_cases hk : key a = k
      · rw [last_cons_self ((hkeep a ha).trans hk), last_cons_self hk, ih]
        cases last key k (l.filter p) <;> rfl
      · rw [last_cons_other fun h => hk ((hkeep a ha).symm.trans h), last_cons_other hk, ih]

theorem first_eq_last {k : κ} {l : List α} (h : AtMostOnce key k l) : first key k l = last key k l := by
  induction l with
  | nil => rfl
  | cons a l ih =>
    by_cases ha : key a = k
    · have hno : ∀ b ∈ l, key b ≠ k := by
        unfold AtMostOnce at h
        rw [List.countP_cons, if_pos (by simpa using ha)] at h
        have h0 : l.countP (fun a => key a = k) = 0 := by omega
        simpa using List.countP_eq_zero.mp h0
      rw [last_cons_self ha, last_eq_none_iff.mpr hno]
      simp [first, ha]
    · rw [last_cons_other ha, ← ih]
      · simp [first, ha]
      · unfold AtMostOnce at h ⊢
        rwa [List.countP_cons, if_neg (by simpa using ha), Nat.add_zero] at h

end Attrs
