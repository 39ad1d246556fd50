/-
  NasCommon.Base.AttrArray — attribute sets as arrays (`attr_set_t::to_array`).

  `to_array` fills the caller's buffer in ascending order and stops at its end, and says
  nothing of what it left out; its other form allocates an array of the set's size.
  `count ()` is the number of attributes, `len ()` the greatest of them.
  - `array_round_trip_iff`: for any set that the operations make, the array holds the
    set exactly when the buffer has `count ()` places. A buffer of `len ()` places has
    them exactly when an attribute up to the greatest is missing.
-/

import NasCommon.Base.Retry
import NasCommon.Lib.Table

namespace NasCommon.Base

namespace AttrSet

/-! ## The array -/

def len (s : AttrSet) : Nat := s.maxAttrId

def count (s : AttrSet) : Nat := s.attributes.size

/-- The loop of `to_array`. -/
def toArrayFrom (inArrayLen : Nat) : List AttrId → Nat → List AttrId → List AttrId
  | [], _, attrArray => attrArray
  | attrId :: l, count, attrArray =>
    if count ≥ inArrayLen then attrArray else toArrayFrom inArrayLen l (count + 1) (attrArray.set count attrId)

/-- `to_array`, into the caller's buffer. -/
def toArray (s : AttrSet) (attrArray : List AttrId) (inArrayLen : Nat) : List AttrId :=
  toArrayFrom inArrayLen s.attributes.elems 0 attrArray

/-- `to_array`, where `mem` says whether there is memory for the array: `alloc` throws. -/
def toNewArray (s : AttrSet) (mem : Bool) : Option (List AttrId) :=
  if mem then some (Table.overlay (List.replicate s.attributes.size 0) 0 s.attributes.elems) else none

/-- A set of what an array holds. -/
def ofArray (l : List AttrId) : AttrSet := l.foldl add empty

/-- The sets that the operations make. -/
inductive Built : AttrSet → Prop
  | empty : Built empty
  | add {s : AttrSet} (attrId : AttrId) : Built s → Built (s.add attrId)
  | clear {s : AttrSet} : Built s → Built s.clear
  | union {s rhs : AttrSet} : Built s → Built rhs → Built (s.union rhs)

/-! ## The greatest attribute -/

/-- `_max_attr_id` is the greatest attribute, 0 where there is none. -/
structure MaxOk (s : AttrSet) : Prop where
  le : ∀ a ∈ s.attributes, a ≤ s.maxAttrId
  mem : s.maxAttrId = 0 ∨ s.maxAttrId ∈ s.attributes

theorem Built.maxOk {s : AttrSet} (h : Built s) : MaxOk s := by
  induction h with
  | empty => exact ⟨fun a ha => absurd ha (by simp [AttrSet.empty]), Or.inl rfl⟩
  | clear _ _ => exact ⟨fun a ha => absurd ha (by simp [AttrSet.clear]), Or.inl rfl⟩
  | @add s attrId _ ih =>
    obtain ⟨hle, hmem⟩ := ih
    by_cases hgt : attrId > s.maxAttrId
    · have hmax : (s.add attrId).maxAttrId = attrId := if_pos hgt
      refine ⟨fun a ha => ?_, Or.inr (by rw [hmax]; exact OrdSet.mem_insert.mpr (Or.inl rfl))⟩
      rw [hmax]
      rcases OrdSet.mem_insert.mp ha with rfl | ha
      · exact le_refl a
      · exact (hle a ha).trans (le_of_lt hgt)
    · have hmax : (s.add attrId).maxAttrId = s.maxAttrId := if_neg hgt
      refine ⟨fun a ha => ?_, ?_⟩
      · rw [hmax]
        rcases OrdSet.mem_insert.mp ha with rfl | ha
        · exact not_lt.mp hgt
        · exact hle a ha
      · rw [hmax]
        exact hmem.imp id fun h => OrdSet.mem_insert.mpr (Or.inr h)
  | @union s rhs _ _ ihs ihr =>
    have hmem : ∀ a, a ∈ (s.union rhs).attributes ↔ a ∈ s.attributes ∨ a ∈ rhs.attributes := fun a =>
      foldl_insert_mem rhs.attributes.elems s.attributes a
    have hs : s.maxAttrId ≤ (s.union rhs).maxAttrId := by
      by_cases hgt : s.maxAttrId > rhs.maxAttrId
      · exact le_of_eq (if_pos hgt).symm
      · exact (not_lt.mp hgt).trans_eq (if_neg hgt).symm
    refine ⟨fun a ha => ?_, ?_⟩
    · rcases (hmem a).mp ha with ha | ha
      · exact (ihs.le a ha).trans hs
      · exact (ihr.le a ha).trans (le_union_max s rhs)
    · by_cases hgt : s.maxAttrId > rhs.maxAttrId
      · have hmax : (s.union rhs).maxAttrId = s.maxAttrId := if_pos hgt
        rw [hmax, hmem]
        exact ihs.mem.imp id Or.inl
      · have hmax : (s.union rhs).maxAttrId = rhs.maxAttrId := if_neg hgt
        rw [hmax, hmem]
        exact ihr.mem.imp id Or.inr

/-- The attributes say the greatest. -/
theorem MaxOk.eq_of_attributes {s t : AttrSet} (hs : MaxOk s) (ht : MaxOk t) (h : s.attributes = t.attributes) : s = t := by
  have hle : ∀ {s t : AttrSet}, MaxOk s → MaxOk t → s.attributes = t.attributes → s.maxAttrId ≤ t.maxAttrId := by
    intro s t hs ht h
    rcases hs.mem with h0 | hm
    · rw [h0]
      exact Nat.zero_le _
    · exact ht.le _ (h ▸ hm)
  have hmax : s.maxAttrId = t.maxAttrId := le_antisymm (hle hs ht h) (hle ht hs h.symm)
  cases s
  cases t
  cases hmax
  cases h
  rfl

/-! ## Reading the array -/

theorem built_foldl_add (l : List AttrId) : ∀ {s : AttrSet}, Built s → Built (l.foldl add s) := by
  induction l with
  | nil => intro s h; exact h
  | cons a l ih => intro s h; exact ih (h.add a)

theorem foldl_add_attributes (l : List AttrId) : ∀ s : AttrSet,
    (l.foldl add s).attributes = l.foldl (fun t a => t.insert a) s.attributes := by
  induction l with
  | nil => intro s; rfl
  | cons a l ih => intro s; exact ih (s.add a)

/-- An array is read as the set just when it holds the attributes. -/
theorem ofArray_eq_iff {s : AttrSet} (hs : Built s) {l : List AttrId} : ofArray l = s ↔ ∀ a, a ∈ l ↔ a ∈ s.attributes := by
  have hmem : ∀ a, a ∈ (ofArray l).attributes ↔ a ∈ l := by
    intro a
    rw [ofArray, foldl_add_attributes, foldl_insert_mem]
    simp [AttrSet.empty]
  constructor
  · intro h a
    rw [← hmem, h]
  · intro h
    refine (built_foldl_add l Built.empty).maxOk.eq_of_attributes hs.maxOk (OrdSet.ext_mem fun a => ?_)
    exact (hmem a).trans (h a)

theorem toArrayFrom_eq (n : Nat) (l : List AttrId) : ∀ (count : Nat) (attrArray : List AttrId),
    toArrayFrom n l count attrArray = Table.overlay attrArray count (l.take (n - count)) := by
  induction l with
  | nil =>
    intro count attrArray
    rw [List.take_nil]
    rfl
  | cons a l ih =>
    intro count attrArray
    rw [toArrayFrom]
    by_cases h : count ≥ n
    · rw [if_pos h, Nat.sub_eq_zero_of_le h]
      rfl
    · rw [if_neg h, ih, show n - count = n - (count + 1) + 1 by omega, List.take_succ_cons]
      rfl

/-- What `to_array` leaves: the first attributes, as many as there is room for, over the
    front of the buffer. -/
theorem toArray_eq (s : AttrSet) {attrArray : List AttrId} {n : Nat} (hroom : n ≤ attrArray.length) :
    s.toArray attrArray n = s.attributes.elems.take n ++ attrArray.drop (min n s.count) := by
  have hlen : (s.attributes.elems.take n).length ≤ attrArray.length := by
    rw [List.length_take]
    omega
  rw [toArray, toArrayFrom_eq, Nat.sub_zero, Table.overlay_front, List.take_of_length_le hlen, List.length_take]
  rfl

/-- No more attributes than the greatest, just when one up to the greatest is missing. -/
theorem count_le_len_iff {s : AttrSet} (hs : MaxOk s) : s.count ≤ s.len ↔ ∃ a ≤ s.len, a ∉ s.attributes := by
  have hsub : s.attributes.elems ⊆ List.range (s.len + 1) := fun a ha =>
    List.mem_range.mpr (Nat.lt_succ_of_le (hs.le a ha))
  constructor
  · intro hcount
    by_contra hall
    have hmem : ∀ a ≤ s.len, a ∈ s.attributes := fun a ha => by_contra fun hno => hall ⟨a, ha, hno⟩
    -- all of 0 .. len are there
    have hle := (List.subperm_of_subset List.nodup_range fun a ha =>
      hmem a (Nat.lt_succ_iff.mp (List.mem_range.mp ha))).length_le
    rw [List.length_range] at hle
    exact Nat.not_succ_le_self _ (hle.trans hcount)
  · intro hex
    obtain ⟨a, ha, hno⟩ := hex
    have hmissing : s.attributes.elems ⊆ (List.range (s.len + 1)).erase a := fun b hb =>
      List.nodup_range.mem_erase_iff.mpr ⟨fun he => hno (he ▸ hb), hsub hb⟩
    have hle := (List.subperm_of_subset s.attributes.nodup hmissing).length_le
    rw [List.length_erase_of_mem (List.mem_range.mpr (Nat.lt_succ_of_le ha)), List.length_range] at hle
    exact hle

/-- For any set that the operations make: the part of the array that is filled holds the
    set exactly when there is a place for each attribute. A buffer of `len ()` places
    holds it exactly when an attribute up to the greatest is missing, and a new array
    always. -/
theorem array_round_trip_iff {s : AttrSet} (hs : Built s) :
    (∀ attrArray n, n ≤ attrArray.length →
      (ofArray ((s.toArray attrArray n).take (min n s.count)) = s ↔ s.count ≤ n)) ∧
    (∀ attrArray, attrArray.length = s.len →
      (ofArray ((s.toArray attrArray s.len).take (min s.len s.count)) = s ↔ ∃ a ≤ s.len, a ∉ s.attributes)) ∧
    (s.toNewArray true).map ofArray = some s := by
  have hread : ∀ attrArray n, n ≤ attrArray.length →
      (ofArray ((s.toArray attrArray n).take (min n s.count)) = s ↔ s.count ≤ n) := by
    intro attrArray n hroom
    have hfilled : (s.toArray attrArray n).take (min n s.count) = s.attributes.elems.take n := by
      have hlen : (s.attributes.elems.take n).length = min n s.count := List.length_take
      rw [toArray_eq s hroom, ← hlen, List.take_left']
      rfl
    rw [hfilled, ofArray_eq_iff hs]
    constructor
    · intro hall
      have hle := (List.subperm_of_subset s.attributes.nodup fun a ha => (hall a).mpr ha).length_le
      rw [List.length_take] at hle
      exact (Nat.le_min.mp hle).1
    · intro hcount a
      rw [List.take_of_length_le hcount]
      exact Iff.rfl
  refine ⟨hread, fun attrArray hlen => ?_, ?_⟩
  · rw [hread attrArray s.len (le_of_eq hlen.symm), count_le_len_iff hs.maxOk]
  · have hnew : Table.overlay (List.replicate s.attributes.size 0) 0 s.attributes.elems = s.attributes.elems := by
      rw [Table.overlay_front, List.length_replicate, List.drop_of_length_le (by rw [List.length_replicate]; rfl),
        List.append_nil]
      exact List.take_length
    rw [toNewArray, if_pos rfl, hnew, Option.map_some, (ofArray_eq_iff hs).mpr fun a => Iff.rfl]

/-- The attributes 0 and 1 and a buffer of `len ()`, 1, place. -/
theorem array_round_trip_iff_short :
    ofArray (((empty.add 1).add 0).toArray [7] 1 |>.take 1) ≠ (empty.add 1).add 0 := fun h =>
  absurd (((array_round_trip_iff ((Built.empty.add 1).add 0)).2.1 [7] rfl).mp h) (by decide)

end AttrSet

end NasCommon.Base
