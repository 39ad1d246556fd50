/-
  NasCommon.Lib.OrdMap — an ordered map of unique keys (`std::map`), as the list of its
  pairs in the order of iteration.

  `put` sets the value of a key that is there or adds a pair in its place. `find` gives
  the pairs from a key on, as an iterator has them before it: none is the end, and the
  tail is the iterator moved on.
  - `ascending_put`, `lookup_put`: what `put` keeps and what it changes.
  - `lookup_putAll`, `lastOfEach_putAll`: of several pairs put under one key, the last stays.
  - `find_append`: an iterator at a key of the map.
-/

import Mathlib.Data.List.Sort
import NasCommon.Lib.Attrs

namespace OrdMap

variable {K V : Type*} [LinearOrder K]

def keys (l : List (K × V)) : List K := l.map Prod.fst

def Ascending (l : List (K × V)) : Prop := (keys l).Pairwise (· < ·)

def put (k : K) (v : V) : List (K × V) → List (K × V)
  | [] => [(k, v)]
  | (k', v') :: l =>
    if k = k' then (k', v) :: l
    else if k < k' then (k, v) :: (k', v') :: l
    else (k', v') :: put k v l

def find (k : K) (l : List (K × V)) : List (K × V) := l.dropWhile fun p => p.1 ≠ k

theorem ascending_nil : Ascending ([] : List (K × V)) := List.Pairwise.nil

/-! ## Putting a pair -/

theorem mem_keys_put {k a : K} {v : V} {l : List (K × V)} : a ∈ keys (put k v l) ↔ a = k ∨ a ∈ keys l := by
  induction l with
  | nil => simp [put, keys]
  | cons p l ih =>
    unfold put
    by_cases hk : k = p.1
    · simp [keys, hk]
    · by_cases hlt : k < p.1
      · simp [keys, hk, hlt]
      · have ih : a ∈ (put k v l).map Prod.fst ↔ a = k ∨ a ∈ l.map Prod.fst := ih
        simp only [keys, hk, hlt, if_false, List.map_cons, List.mem_cons, ih]
        exact or_left_comm

theorem ascending_put {k : K} {v : V} {l : List (K × V)} (h : Ascending l) : Ascending (put k v l) := by
  induction l with
  | nil => exact List.pairwise_singleton _ _
  | cons p l ih =>
    obtain ⟨hp, hl⟩ := List.pairwise_cons.mp h
    unfold put
    by_cases hk : k = p.1
    · rw [if_pos hk]
      exact h
    · rw [if_neg hk]
      by_cases hlt : k < p.1
      · rw [if_pos hlt]
        refine List.pairwise_cons.mpr ⟨fun a ha => ?_, h⟩
        rcases List.mem_cons.mp ha with rfl | ha
        · exact hlt
        · exact hlt.trans (hp a ha)
      · rw [if_neg hlt]
        refine List.pairwise_cons.mpr ⟨fun a ha => ?_, ih hl⟩
        rcases mem_keys_put.mp ha with rfl | ha
        · exact lt_of_le_of_ne (not_lt.mp hlt) (Ne.symm hk)
        · exact hp a ha

theorem lookup_cons (p : K × V) (l : List (K × V)) (a : K) :
    (p :: l).lookup a = if a = p.1 then some p.2 else l.lookup a := by
  rw [List.lookup_cons]
  by_cases ha : a = p.1
  · rw [if_pos ha, show (a == p.1) = true by simp [ha]]
  · rw [if_neg ha, show (a == p.1) = false by simp [ha]]

theorem lookup_put (k a : K) (v : V) (l : List (K × V)) :
    (put k v l).lookup a = if a = k then some v else l.lookup a := by
  induction l with
  | nil => exact lookup_cons (k, v) [] a
  | cons p l ih =>
    unfold put
    by_cases hk : k = p.1
    · rw [if_pos hk, lookup_cons, lookup_cons, ← hk]
      by_cases ha : a = k <;> simp [ha]
    · rw [if_neg hk]
      by_cases hlt : k < p.1
      · rw [if_pos hlt, lookup_cons]
      · rw [if_neg hlt, lookup_cons, lookup_cons, ih]
        by_cases ha : a = p.1
        · have hak : a ≠ k := fun h => hk (h.symm.trans ha)
          rw [if_pos ha, if_neg hak, if_pos ha]
        · rw [if_neg ha, if_neg ha]

/-! ## Putting several -/

def putAll (l : List (K × V)) (ps : List (K × V)) : List (K × V) := ps.foldl (fun l p => put p.1 p.2 l) l

theorem ascending_putAll {ps : List (K × V)} : ∀ {l : List (K × V)}, Ascending l → Ascending (putAll l ps) := by
  induction ps with
  | nil => intro l h; exact h
  | cons p ps ih => intro l h; exact ih (ascending_put h)

theorem lookup_putAll (a : K) (ps : List (K × V)) : ∀ l : List (K × V),
    (putAll l ps).lookup a = ((Attrs.last Prod.fst a ps).map Prod.snd).or (l.lookup a) := by
  induction ps with
  | nil => intro l; rfl
  | cons p ps ih =>
    intro l
    show (putAll (put p.1 p.2 l) ps).lookup a = _
    rw [ih, lookup_put]
    by_cases ha : a = p.1
    · rw [if_pos ha, Attrs.last_cons_self ha.symm]
      cases Attrs.last Prod.fst a ps <;> rfl
    · rw [if_neg ha, Attrs.last_cons_other (Ne.symm ha)]

/-! ## Iterating -/

theorem lookup_eq_some_iff {l : List (K × V)} (h : Ascending l) {k : K} {v : V} :
    l.lookup k = some v ↔ (k, v) ∈ l := by
  induction l with
  | nil => simp
  | cons p l ih =>
    obtain ⟨hp, hl⟩ := List.pairwise_cons.mp h
    rw [lookup_cons, List.mem_cons]
    by_cases hk : k = p.1
    · have hnot : (k, v) ∉ l := fun hm => by
        have := hp k (List.mem_map_of_mem hm)
        rw [hk] at this
        exact lt_irrefl _ this
      subst hk
      simp [hnot, Prod.ext_iff, eq_comm]
    · have hne : (k, v) ≠ p := fun he => hk (congrArg Prod.fst he)
      rw [if_neg hk, ih hl]
      simp [hne]

theorem mem_putAll_iff {ps : List (K × V)} {k : K} {v : V} :
    (k, v) ∈ putAll [] ps ↔ Attrs.last Prod.fst k ps = some (k, v) := by
  rw [← lookup_eq_some_iff (ascending_putAll ascending_nil), lookup_putAll, List.lookup_nil, Option.or_none,
    Option.map_eq_some_iff]
  constructor
  · intro h
    obtain ⟨p, hp, hv⟩ := h
    rw [hp, ← hv, ← (Attrs.last_mem hp).2]
  · intro h
    exact ⟨(k, v), h, rfl⟩

theorem mem_of_mem_putAll {ps : List (K × V)} {p : K × V} (h : p ∈ putAll [] ps) : p ∈ ps :=
  (Attrs.last_mem (mem_putAll_iff.mp h)).1

/-- Each key of the pairs once and in order, with its last value. -/
structure LastOfEach (ps rows : List (K × V)) : Prop where
  ascending : Ascending rows
  complete : ∀ k, k ∈ keys rows ↔ k ∈ keys ps
  last : ∀ k v, (k, v) ∈ rows → Attrs.last Prod.fst k ps = some (k, v)

theorem lastOfEach_putAll (ps : List (K × V)) : LastOfEach ps (putAll [] ps) where
  ascending := ascending_putAll ascending_nil
  complete k := by
    unfold keys
    rw [List.mem_map, List.mem_map]
    constructor
    · intro h
      obtain ⟨p, hp, rfl⟩ := h
      exact ⟨p, mem_of_mem_putAll hp, rfl⟩
    · intro h
      obtain ⟨p, hp⟩ := Attrs.last_isSome_iff.mpr h
      obtain ⟨-, rfl⟩ := Attrs.last_mem hp
      exact ⟨p, mem_putAll_iff.mpr hp, rfl⟩
  last _ _ := mem_putAll_iff.mp

/-- The pairs from a key of the map on. -/
theorem find_append {before after : List (K × V)} {p : K × V} (h : Ascending (before ++ p :: after)) :
    find p.1 (before ++ p :: after) = p :: after := by
  have hbefore : ∀ q ∈ before, (decide (q.1 ≠ p.1)) = true := by
    intro q hq
    unfold Ascending keys at h
    rw [List.map_append, List.map_cons, List.pairwise_append] at h
    exact decide_eq_true (ne_of_lt (h.2.2 q.1 (List.mem_map_of_mem hq) p.1 List.mem_cons_self))
  unfold find
  rw [List.dropWhile_append_of_pos hbefore, List.dropWhile_cons_of_neg (by simp)]

end OrdMap
