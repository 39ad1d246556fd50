/-
  NasCommon.Lib.OrdSet — an ordered set of unique elements (`std::set`).

  A set is its strictly ascending list of elements, so iteration order, membership
  and equality agree: two sets with the same members are the same set (`ext_mem`).
-/

import Mathlib.Data.List.Sort

structure OrdSet (α : Type) [LinearOrder α] where
  elems : List α
  sorted : elems.Pairwise (· < ·)

namespace OrdSet

variable {α : Type} [LinearOrder α]

instance : Membership α (OrdSet α) := ⟨fun s a => a ∈ s.elems⟩

instance : DecidableEq (OrdSet α) := fun s t =>
  decidable_of_iff (s.elems = t.elems) ⟨fun h => by cases s; cases t; cases h; rfl, fun h => by rw [h]⟩

instance (a : α) (s : OrdSet α) : Decidable (a ∈ s) := inferInstanceAs (Decidable (a ∈ s.elems))

theorem mem_def {a : α} {s : OrdSet α} : a ∈ s ↔ a ∈ s.elems := Iff.rfl

theorem nodup (s : OrdSet α) : s.elems.Nodup := s.sorted.imp fun h => ne_of_lt h

@[ext] theorem ext_mem {s t : OrdSet α} (h : ∀ a, a ∈ s ↔ a ∈ t) : s = t := by
  have e : s.elems = t.elems := s.sorted.eq_of_mem_iff t.sorted (fun {a} => h a)
  cases s; cases t; cases e; rfl

/-! ## Operations -/

def empty : OrdSet α := ⟨[], List.Pairwise.nil⟩

def isEmpty (s : OrdSet α) : Bool := s.elems.isEmpty

def size (s : OrdSet α) : Nat := s.elems.length

def contains (s : OrdSet α) (a : α) : Bool := decide (a ∈ s)

def insertList (a : α) : List α → List α
  | [] => [a]
  | b :: l => if a < b then a :: b :: l else if a = b then b :: l else b :: insertList a l

theorem mem_insertList {a b : α} {l : List α} : b ∈ insertList a l ↔ b = a ∨ b ∈ l := by
  induction l with
  | nil => simp [insertList]
  | cons c l ih =>
    simp only [insertList]
    split
    · simp
    · split
      · rename_i _ e; subst e; simp
      · simp only [List.mem_cons, ih]; tauto

theorem sorted_insertList {a : α} {l : List α} (h : l.Pairwise (· < ·)) : (insertList a l).Pairwise (· < ·) := by
  induction l with
  | nil => simp [insertList]
  | cons c l ih =>
    obtain ⟨hc, hl⟩ := List.pairwise_cons.mp h
    simp only [insertList]
    split
    · rename_i hac
      refine List.pairwise_cons.mpr ⟨fun x hx => ?_, h⟩
      rcases List.mem_cons.mp hx with rfl | hx
      · exact hac
      · exact hac.trans (hc x hx)
    · split
      · exact h
      · rename_i hac hne
        refine List.pairwise_cons.mpr ⟨fun x hx => ?_, ih hl⟩
        rcases mem_insertList.mp hx with rfl | hx
        · exact lt_of_le_of_ne (not_lt.mp hac) (Ne.symm hne)
        · exact hc x hx

def insert (s : OrdSet α) (a : α) : OrdSet α := ⟨insertList a s.elems, sorted_insertList s.sorted⟩

def erase (s : OrdSet α) (a : α) : OrdSet α := ⟨s.elems.filter (· ≠ a), s.sorted.filter _⟩

@[simp] theorem mem_empty {a : α} : a ∈ (empty : OrdSet α) ↔ False := by simp [mem_def, empty]

@[simp] theorem mem_insert {s : OrdSet α} {a b : α} : b ∈ s.insert a ↔ b = a ∨ b ∈ s := mem_insertList

theorem insert_comm (s : OrdSet α) (a b : α) : (s.insert a).insert b = (s.insert b).insert a := by
  ext c
  simp only [mem_insert]
  exact or_left_comm

@[simp] theorem mem_erase {s : OrdSet α} {a b : α} : b ∈ s.erase a ↔ b ∈ s ∧ b ≠ a := by
  simp [mem_def, erase]

@[simp] theorem contains_iff {s : OrdSet α} {a : α} : s.contains a = true ↔ a ∈ s := by simp [contains]

theorem isEmpty_iff {s : OrdSet α} : s.isEmpty = true ↔ ∀ a, a ∉ s := by
  simp only [isEmpty, List.isEmpty_iff, mem_def]
  exact List.eq_nil_iff_forall_not_mem

end OrdSet
