/-
  NasCommon.Base.Sets — the sets of NPUs and attributes (`npu_set_t`, `attr_set_t`).

  `compare` splits two NPU sets into what only the first has, what only the second
  has and what both have, one loop over each; `compare_partition` says the three parts
  are exactly that.
-/

import NasCommon.Lib.OrdSet

namespace NasCommon.Base

abbrev NpuId := Int
abbrev AttrId := Nat

/-! ## `npu_set_t` -/

abbrev NpuSet := OrdSet NpuId

/-- What `compare` adds to its three output sets. -/
structure NpuParts where
  onlyMine : NpuSet
  onlySecond : NpuSet
  inBoth : NpuSet

def compareSecond (mine : NpuSet) (p : NpuParts) (npuId : NpuId) : NpuParts :=
  if ¬ mine.contains npuId then { p with onlySecond := p.onlySecond.insert npuId }
  else { p with inBoth := p.inBoth.insert npuId }

def compareMine (second : NpuSet) (p : NpuParts) (npuId : NpuId) : NpuParts :=
  if ¬ second.contains npuId then { p with onlyMine := p.onlyMine.insert npuId } else p

/-- `npu_set_t::compare`, from three empty output sets. -/
def compare (mine second : NpuSet) : NpuParts :=
  mine.elems.foldl (compareMine second) (second.elems.foldl (compareSecond mine) ⟨.empty, .empty, .empty⟩)

theorem compareSecond_mem (mine : NpuSet) (l : List NpuId) (p : NpuParts) (n : NpuId) :
    let r := l.foldl (compareSecond mine) p
    (n ∈ r.onlyMine ↔ n ∈ p.onlyMine) ∧ (n ∈ r.onlySecond ↔ n ∈ p.onlySecond ∨ n ∈ l ∧ n ∉ mine) ∧
      (n ∈ r.inBoth ↔ n ∈ p.inBoth ∨ n ∈ l ∧ n ∈ mine) := by
  induction l generalizing p with
  | nil => simp
  | cons m l ih =>
    obtain ⟨h1, h2, h3⟩ := ih (compareSecond mine p m)
    simp only [List.foldl_cons]
    refine ⟨h1.trans ?_, h2.trans ?_, h3.trans ?_⟩ <;>
      by_cases hm : m ∈ mine <;> simp [compareSecond, hm] <;> grind

theorem compareMine_mem (second : NpuSet) (l : List NpuId) (p : NpuParts) (n : NpuId) :
    let r := l.foldl (compareMine second) p
    (n ∈ r.onlyMine ↔ n ∈ p.onlyMine ∨ n ∈ l ∧ n ∉ second) ∧ r.onlySecond = p.onlySecond ∧ r.inBoth = p.inBoth := by
  induction l generalizing p with
  | nil => simp
  | cons m l ih =>
    obtain ⟨h1, h2, h3⟩ := ih (compareMine second p m)
    simp only [List.foldl_cons]
    refine ⟨h1.trans ?_, h2.trans ?_, h3.trans ?_⟩ <;>
      by_cases hm : m ∈ second <;> simp [compareMine, hm] <;> grind

/-- The three parts of `compare` are the two differences and the intersection. -/
theorem compare_partition (mine second : NpuSet) (n : NpuId) :
    (n ∈ (compare mine second).onlyMine ↔ n ∈ mine ∧ n ∉ second) ∧
      (n ∈ (compare mine second).onlySecond ↔ n ∈ second ∧ n ∉ mine) ∧
      (n ∈ (compare mine second).inBoth ↔ n ∈ mine ∧ n ∈ second) := by
  obtain ⟨a1, a2, a3⟩ := compareSecond_mem mine second.elems ⟨.empty, .empty, .empty⟩ n
  obtain ⟨b1, b2, b3⟩ := compareMine_mem second mine.elems (second.elems.foldl (compareSecond mine) ⟨.empty, .empty, .empty⟩) n
  unfold compare
  rw [b1, b2, b3, a1, a2, a3]
  simp [OrdSet.mem_def]
  tauto

/-! ## `attr_set_t` -/

structure AttrSet where
  maxAttrId : AttrId
  attributes : OrdSet AttrId
  deriving DecidableEq

namespace AttrSet

def empty : AttrSet := ⟨0, .empty⟩

def add (s : AttrSet) (attrId : AttrId) : AttrSet :=
  ⟨if attrId > s.maxAttrId then attrId else s.maxAttrId, s.attributes.insert attrId⟩

def clear (_ : AttrSet) : AttrSet := ⟨0, .empty⟩

def contains (s : AttrSet) (attrId : AttrId) : Bool := s.attributes.contains attrId

/-- `operator+=`: the union. -/
def union (s rhs : AttrSet) : AttrSet :=
  ⟨if s.maxAttrId > rhs.maxAttrId then s.maxAttrId else rhs.maxAttrId,
   rhs.attributes.elems.foldl (fun t attrId => t.insert attrId) s.attributes⟩

end AttrSet

end NasCommon.Base
