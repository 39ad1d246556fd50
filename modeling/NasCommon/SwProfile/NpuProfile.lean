/-
  NasCommon.SwProfile.NpuProfile — what clients walk of the switch NPU profile
  (`nas_switch_npu_profile_get_next_value`).

  The map's pairs are given out one a call, the next one found by the key that the last
  call left in the caller's buffer. So each stored key has to fit the buffer and must
  not be the empty one that asks for the first pair.
  - `npuProfile_walk`: after a section without empty ids, the walk gives each acceptable
    element's key once, in order, with its last value, and ends.
-/

import Mathlib.Data.Char
import Mathlib.Data.List.Lex
import Mathlib.Order.Lattice
import NasCommon.Lib.OrdMap
import NasCommon.SwProfile.Parse

namespace NasCommon.SwProfile

open OrdMap (Ascending LastOfEach)

def noMorePairs : StdError := .err .halcom .fail (.num 0)

/-- `nas_switch_npu_profile_get_next_value`, and what its two buffers hold after it: none
    is a null pointer. -/
def nasSwitchNpuProfileGetNextValue (kv : NpuProfileKv) (variable' value : Option CString) :
    StdError × Option CString × Option CString :=
  match variable', value with
  | some buf, some value =>
    let give (p : CString × CString) : StdError × Option CString × Option CString :=
      (.ok, some (safestrncpy buf p.1 nasCmnNpuProfileAttrSize), some (safestrncpy value p.2 nasCmnNpuProfileAttrSize))
    if buf.length = 0 then
      match kv with
      | [] => (parseParam, some buf, some value)
      | p :: _ => give p
    else
      match OrdMap.find buf kv with
      | [] => (noMorePairs, some buf, some value)
      | _ :: kviter =>
        match kviter with
        | [] => (noMorePairs, some buf, some value)
        | p :: _ => give p
  | _, _ => (parseParam, variable', value)

/-- The pairs a client is given, up to the error: each call's buffers are as the call
    before left them. -/
inductive KvWalk (kv : NpuProfileKv) : CString → CString → NpuProfileKv → Prop
  | stop {buf value : CString} (h : (nasSwitchNpuProfileGetNextValue kv (some buf) (some value)).1 ≠ .ok) :
      KvWalk kv buf value []
  | next {buf value k v : CString} {rows : NpuProfileKv}
      (h : nasSwitchNpuProfileGetNextValue kv (some buf) (some value) = (.ok, some k, some v))
      (rest : KvWalk kv k v rows) : KvWalk kv buf value ((k, v) :: rows)

theorem KvWalk.unique {kv : NpuProfileKv} {buf value : CString} {rows rows' : NpuProfileKv}
    (h : KvWalk kv buf value rows) : KvWalk kv buf value rows' → rows' = rows := by
  induction h generalizing rows' with
  | stop h =>
    intro h'
    cases h' with
    | stop _ => rfl
    | next h' _ => exact absurd (congrArg Prod.fst h') h
  | next h _ ih =>
    intro h'
    cases h' with
    | stop h' => exact absurd (congrArg Prod.fst h) h'
    | next h' rest' =>
      rw [h] at h'
      cases h'
      rw [ih rest']

/-! ## What a section leaves in the map -/

/-- An acceptable element's id and value. -/
def acceptable (chldNode : ConfigNode) : Option (CString × CString) :=
  match chldNode.attr "id", chldNode.attr "value" with
  | some k, some v =>
    if k.length < nasCmnNpuProfileAttrSize ∧ v.length < nasCmnNpuProfileAttrSize then some (k, v) else none
  | _, _ => none

def acceptablePairs (node : ConfigNode) : List (CString × CString) := node.children.filterMap acceptable

theorem kvPut_eq (key value : CString) (kv : NpuProfileKv) : kvPut key value kv = OrdMap.put key value kv := by
  induction kv with
  | nil => rfl
  | cons p kv ih =>
    unfold kvPut OrdMap.put
    rw [ih]
    by_cases hk : key = p.1
    · rw [if_pos hk, if_pos hk]
    · by_cases hlt : key < p.1
      · rw [if_neg hk, if_neg hk, if_pos hlt, if_pos hlt]
      · rw [if_neg hk, if_neg hk, if_neg hlt, if_neg hlt]

theorem npuProfileElem_eq (kv : NpuProfileKv) (chldNode : ConfigNode) :
    npuProfileElem kv chldNode =
      match acceptable chldNode with
      | none => kv
      | some p => OrdMap.put p.1 p.2 kv := by
  unfold npuProfileElem acceptable
  cases chldNode.attr "id" with
  | none => rfl
  | some k =>
    cases chldNode.attr "value" with
    | none => rfl
    | some v =>
      by_cases hfits : k.length < nasCmnNpuProfileAttrSize ∧ v.length < nasCmnNpuProfileAttrSize
      · have hnot : ¬ (nasCmnNpuProfileAttrSize ≤ k.length ∨ nasCmnNpuProfileAttrSize ≤ v.length) := by omega
        simp only [if_neg hnot, if_pos hfits]
        exact kvPut_eq k v kv
      · have hlong : nasCmnNpuProfileAttrSize ≤ k.length ∨ nasCmnNpuProfileAttrSize ≤ v.length := by omega
        simp only [if_pos hlong, if_neg hfits]

theorem npuProfileInfo_eq (node : ConfigNode) (kv : NpuProfileKv) :
    (nasSwitchUpdateNpuProfileInfo node kv).2 = OrdMap.putAll kv (acceptablePairs node) := by
  have hfold : node.children.foldl npuProfileElem kv = OrdMap.putAll kv (acceptablePairs node) := by
    unfold OrdMap.putAll acceptablePairs
    rw [List.foldl_filterMap]
    congr 1
    funext kv chldNode
    rw [npuProfileElem_eq]
    cases acceptable chldNode <;> rfl
  unfold nasSwitchUpdateNpuProfileInfo
  by_cases hnone : node.children.length = 0
  · rw [if_pos hnone, ← hfold, List.length_eq_zero_iff.mp hnone]
    rfl
  · rw [if_neg hnone, hfold]

/-! ## One call -/

/-- What the buffers need of the map's pairs. -/
structure Walkable (kv : NpuProfileKv) : Prop where
  ascending : Ascending kv
  named : ∀ p ∈ kv, p.1 ≠ []
  fits : ∀ p ∈ kv, p.1.length < nasCmnNpuProfileAttrSize ∧ p.2.length < nasCmnNpuProfileAttrSize

theorem getNext_first {kv : NpuProfileKv} (h : Walkable kv) (value : CString) :
    nasSwitchNpuProfileGetNextValue kv (some []) (some value) =
      match kv with
      | [] => (parseParam, some [], some value)
      | p :: _ => (.ok, some p.1, some p.2) := by
  cases kv with
  | nil => rfl
  | cons p kv =>
    obtain ⟨hk, hv⟩ := h.fits p List.mem_cons_self
    simp only [nasSwitchNpuProfileGetNextValue, List.length_nil, if_true, safestrncpy_fits hk, safestrncpy_fits hv]

/-- A key of the map is answered with the pair after its own. -/
theorem getNext_after {before after : NpuProfileKv} {p : CString × CString} (h : Walkable (before ++ p :: after))
    (value : CString) :
    nasSwitchNpuProfileGetNextValue (before ++ p :: after) (some p.1) (some value) =
      match after with
      | [] => (noMorePairs, some p.1, some value)
      | q :: _ => (.ok, some q.1, some q.2) := by
  have hnamed : p.1.length ≠ 0 := fun h0 => h.named p (by simp) (List.length_eq_zero_iff.mp h0)
  simp only [nasSwitchNpuProfileGetNextValue, if_neg hnamed, OrdMap.find_append h.ascending]
  cases after with
  | nil => rfl
  | cons q after =>
    obtain ⟨hk, hv⟩ := h.fits q (by simp)
    simp only [safestrncpy_fits hk, safestrncpy_fits hv]

/-! ## The walk -/

theorem walk_after {kv : NpuProfileKv} (h : Walkable kv) (after : NpuProfileKv) :
    ∀ (before : NpuProfileKv) (p : CString × CString) (value : CString), kv = before ++ p :: after →
      KvWalk kv p.1 value after := by
  induction after with
  | nil =>
    intro before p value hkv
    refine .stop ?_
    rw [hkv, getNext_after (hkv ▸ h)]
    simp [noMorePairs]
  | cons q after ih =>
    intro before p value hkv
    refine .next ?_ (ih (before ++ [p]) q q.2 (by rw [hkv, List.append_assoc]; rfl))
    rw [hkv, getNext_after (hkv ▸ h)]

theorem Walkable.walk {kv : NpuProfileKv} (h : Walkable kv) (value : CString) : KvWalk kv [] value kv := by
  have hfirst := getNext_first h value
  cases kv with
  | nil =>
    refine .stop ?_
    rw [hfirst]
    simp [parseParam]
  | cons p kv => exact .next hfirst (walk_after h kv [] p p.2 rfl)

/-! ## All of the section's keys -/

theorem acceptable_some {chldNode : ConfigNode} {p : CString × CString} (h : acceptable chldNode = some p) :
    chldNode.attr "id" = some p.1 ∧ p.1.length < nasCmnNpuProfileAttrSize ∧ p.2.length < nasCmnNpuProfileAttrSize := by
  unfold acceptable at h
  split at h
  · rename_i k v hk _
    obtain ⟨hfits, hp⟩ := Option.ite_none_right_eq_some.mp h
    cases hp
    exact ⟨hk, hfits⟩
  · cases h

theorem walkable_putAll {node : ConfigNode} (hnamed : ∀ chldNode ∈ node.children, chldNode.attr "id" ≠ some []) :
    Walkable (OrdMap.putAll [] (acceptablePairs node)) := by
  have hfrom : ∀ p ∈ OrdMap.putAll [] (acceptablePairs node),
      ∃ chldNode ∈ node.children, acceptable chldNode = some p :=
    fun p hp => List.mem_filterMap.mp (OrdMap.mem_of_mem_putAll hp)
  refine ⟨OrdMap.ascending_putAll OrdMap.ascending_nil, fun p hp hempty => ?_, fun p hp => ?_⟩
  · obtain ⟨chldNode, hmem, hp⟩ := hfrom p hp
    exact hnamed chldNode hmem ((acceptable_some hp).1.trans (congrArg some hempty))
  · obtain ⟨chldNode, -, hp⟩ := hfrom p hp
    exact (acceptable_some hp).2

/-- Every walk of a parsed section gives all its keys and comes to the error. -/
theorem npuProfile_walk (node : ConfigNode) (hnamed : ∀ chldNode ∈ node.children, chldNode.attr "id" ≠ some [])
    (value : CString) :
    (∃ rows, KvWalk (nasSwitchUpdateNpuProfileInfo node []).2 [] value rows) ∧
      ∀ rows, KvWalk (nasSwitchUpdateNpuProfileInfo node []).2 [] value rows →
        LastOfEach (acceptablePairs node) rows := by
  rw [npuProfileInfo_eq]
  have hwalk := (walkable_putAll hnamed).walk value
  refine ⟨⟨_, hwalk⟩, fun rows hrows => ?_⟩
  rw [hwalk.unique hrows]
  exact OrdMap.lastOfEach_putAll (acceptablePairs node)

/-- Two elements of one key, the later before it in order. -/
theorem npuProfile_walk_three :
    let elem (k v : String) : ConfigNode := .mk [] [("id", k.toList), ("value", v.toList)] []
    let node : ConfigNode := .mk [] [] [elem "oq" "1", elem "lanes" "2", elem "oq" "3"]
    (∃ rows, KvWalk (nasSwitchUpdateNpuProfileInfo node []).2 [] [] rows) ∧
      ∀ rows, KvWalk (nasSwitchUpdateNpuProfileInfo node []).2 [] [] rows → LastOfEach (acceptablePairs node) rows :=
  npuProfile_walk _ (by decide) []

end NasCommon.SwProfile
