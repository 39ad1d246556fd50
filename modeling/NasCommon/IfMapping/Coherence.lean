/-
  NasCommon.IfMapping.Coherence — every index of the registry holds exactly the live
  records' keys.

  `keyOf` and `nameOf` give a record's key under each query type, where it has one.
  Each index is a `KeyedIndex` over the heap by its key, and `if_records` is the heap's
  domain (`Inv`). The loops that add and erase a record's keys are a `put` in each
  index (`addAll_spec`, `eraseKeys_spec`), so a registration is an insert, a
  deregistration a remove and an update a change that keeps the keys.
  - `registry_coherent`: after any sequence of calls, for each query type and key, the
    index maps the key to a record exactly when it is a live one with that key; so no
    two live records share a key, no entry is left over and none is missing.
-/

import NasCommon.IfMapping.Registry
import NasCommon.Lib.KeyedIndex
import NasCommon.Lib.Runs

namespace NasCommon.IfMapping

open KeyedIndex (Coherent put)
open Registry

/-- A record's key under a query type, where it is valid. -/
def keyOf (t : IntfInfo) (r : InterfaceCtrl) : Option UInt64 :=
  if queryValid t r.intType = true ∧ mkKey t r ≠ invalidKey then some (mkKey t r) else none

def nameOf (r : InterfaceCtrl) : Option CString := if r.ifName = [] then none else some r.ifName

/-- The record would be added under this query type. -/
def hasKey (t : IntfInfo) (r : InterfaceCtrl) : Bool :=
  if t = .fromIfName then (nameOf r).isSome else (keyOf t r).isSome

structure Inv (s : Registry) : Prop where
  records : ∀ p, p ∈ s.ifRecords ↔ (s.heap p).isSome = true
  keys : ∀ t, Coherent (s.ifMappings t) s.heap (keyOf t)
  names : Coherent s.ifNameMap s.heap nameOf

theorem empty_inv : Inv Registry.empty where
  records p := by simp [Registry.empty]
  keys _ := KeyedIndex.coherent_empty
  names := KeyedIndex.coherent_empty

/-! ## The functions, in terms of the keys -/

@[simp] theorem keyOf_fromIfName (r : InterfaceCtrl) : keyOf .fromIfName r = none := by simp [keyOf, mkKey]

@[simp] theorem keyOf_unset (r : InterfaceCtrl) : keyOf .unset r = none := by simp [keyOf, mkKey]

theorem locate_key {s : Registry} {t : IntfInfo} (r : InterfaceCtrl) (ht : t ≠ .fromIfName) :
    s.locate t r = (keyOf t r).bind (s.ifMappings t) := by
  unfold locate keyOf
  by_cases hq : queryValid t r.intType = true
  · by_cases hk : mkKey t r = invalidKey <;> simp [hq, hk, ht]
  · simp [hq]

theorem locate_name (s : Registry) (r : InterfaceCtrl) : s.locate .fromIfName r = s.ifNameMap r.ifName := by
  simp [locate, queryValid]

theorem add_spec (s : Registry) (t : IntfInfo) (p : Ptr) (r : InterfaceCtrl) :
    s.add t p r = (hasKey t r,
      { s with
        ifMappings := Function.update s.ifMappings t (put (s.ifMappings t) (keyOf t r) (some p)),
        ifNameMap := if t = .fromIfName then put s.ifNameMap (nameOf r) (some p) else s.ifNameMap,
        ifIndexes := if hasKey t r = true ∧ r.vrfId = 0 then s.ifIndexes.insert r.ifIndex else s.ifIndexes }) := by
  by_cases hn : t = .fromIfName
  · subst hn
    by_cases he : r.ifName = []
    · simp [add, queryValid, hasKey, nameOf, he]
    · by_cases hv : r.vrfId = 0 <;> simp [add, queryValid, hasKey, nameOf, he, hv]
  · by_cases hq : queryValid t r.intType = true
    · by_cases hk : mkKey t r = invalidKey
      · simp [add, hq, hn, hasKey, keyOf, hk]
      · by_cases hv : r.vrfId = 0 <;> simp [add, hq, hn, hasKey, keyOf, hk, hv]
    · simp [add, hq, hn, hasKey, keyOf]

/-- Adding a record under each of `ts`. -/
theorem addAll_spec (p : Ptr) (r : InterfaceCtrl) (ts : List IntfInfo) : ∀ (b : Bool) (s : Registry),
    addAll p r ts (b, s) = (b || ts.any (hasKey · r),
      { s with
        ifMappings := fun t => if t ∈ ts then put (s.ifMappings t) (keyOf t r) (some p) else s.ifMappings t,
        ifNameMap := if .fromIfName ∈ ts then put s.ifNameMap (nameOf r) (some p) else s.ifNameMap,
        ifIndexes := if ts.any (hasKey · r) = true ∧ r.vrfId = 0 then s.ifIndexes.insert r.ifIndex else s.ifIndexes }) := by
  induction ts with
  | nil => intro b s; simp [addAll]
  | cons t ts ih =>
    intro b s
    simp only [addAll, add_spec, ih, Prod.mk.injEq, Registry.mk.injEq, true_and, and_true]
    refine ⟨by simp [Bool.or_assoc], ?_, ?_, ?_⟩
    · funext t'
      by_cases e : t' = t
      · subst e
        by_cases hm : t' ∈ ts <;> simp [hm]
      · simp [e]
    · by_cases e : t = .fromIfName
      · subst e
        by_cases hm : IntfInfo.fromIfName ∈ ts <;> simp [hm]
      · simp [e, Ne.symm e]
    · have hins : (s.ifIndexes.insert r.ifIndex).insert r.ifIndex = s.ifIndexes.insert r.ifIndex := by
        ext i; simp
      by_cases hv : r.vrfId = 0
      · simp only [hv, and_true, List.any_cons]
        cases h1 : hasKey t r <;> cases h2 : ts.any (hasKey · r) <;> simp [hins]
      · simp [hv]

/-- Erasing a record's keys under each of `ts`. -/
theorem eraseKeys_spec (r : InterfaceCtrl) (ts : List IntfInfo) : ∀ s : Registry,
    eraseKeys r ts s =
      { s with ifMappings := fun t => if t ∈ ts then put (s.ifMappings t) (keyOf t r) none else s.ifMappings t } := by
  induction ts with
  | nil => intro s; simp [eraseKeys]
  | cons t ts ih =>
    intro s
    have hone : (if ¬ queryValid t r.intType then s
        else if mkKey t r = invalidKey then s
        else { s with ifMappings := Function.update s.ifMappings t (Function.update (s.ifMappings t) (mkKey t r) none) }) =
        { s with ifMappings := Function.update s.ifMappings t (put (s.ifMappings t) (keyOf t r) none) } := by
      by_cases hq : queryValid t r.intType = true
      · by_cases hk : mkKey t r = invalidKey <;> simp [hq, hk, keyOf]
      · simp [hq, keyOf]
    simp only [eraseKeys, hone, ih, Registry.mk.injEq, true_and, and_true]
    funext t'
    by_cases e : t' = t
    · subst e
      by_cases hm : t' ∈ ts <;> simp [hm]
    · simp [e]

theorem mem_allQueriesT (t : IntfInfo) : t ∈ allQueriesT ↔ t ≠ .unset := by cases t <;> simp [allQueriesT]

/-- Over all the query types a keyed index is changed under the record's key, and
    nowhere where it has none. -/
theorem putKeys {s : Registry} {r : InterfaceCtrl} {ts : List IntfInfo} {v : Option Ptr}
    (h : ∀ t, t ∉ ts → keyOf t r = none) (t : IntfInfo) :
    (if t ∈ ts then put (s.ifMappings t) (keyOf t r) v else s.ifMappings t) = put (s.ifMappings t) (keyOf t r) v := by
  by_cases ht : t ∈ ts
  · simp [ht]
  · simp [ht, h t ht]

@[simp] theorem deleteDesc_heap (s : Registry) (d : Option DescPtr) : (s.deleteDesc d).heap = s.heap := by
  cases d <;> rfl
@[simp] theorem deleteDesc_ifRecords (s : Registry) (d : Option DescPtr) : (s.deleteDesc d).ifRecords = s.ifRecords := by
  cases d <;> rfl
@[simp] theorem deleteDesc_ifMappings (s : Registry) (d : Option DescPtr) : (s.deleteDesc d).ifMappings = s.ifMappings := by
  cases d <;> rfl
@[simp] theorem deleteDesc_ifNameMap (s : Registry) (d : Option DescPtr) : (s.deleteDesc d).ifNameMap = s.ifNameMap := by
  cases d <;> rfl
@[simp] theorem deleteDesc_ifIndexes (s : Registry) (d : Option DescPtr) : (s.deleteDesc d).ifIndexes = s.ifIndexes := by
  cases d <;> rfl

/-- Removing the record `_r` at `p`: its keys leave the indexes, and the caller's VRF
    says whether its ifindex leaves `if_indexes`. -/
theorem cleanupAt_spec (s : Registry) (r : InterfaceCtrl) (p : Ptr) (_r : InterfaceCtrl) :
    let s' := s.cleanupAt r p _r
    s'.heap = Function.update s.heap p none ∧ s'.ifRecords = s.ifRecords.erase p ∧
      (∀ t, s'.ifMappings t = put (s.ifMappings t) (keyOf t _r) none) ∧
      s'.ifNameMap = put s.ifNameMap (nameOf _r) none ∧
      s'.ifIndexes = if r.vrfId = 0 then s.ifIndexes.erase _r.ifIndex else s.ifIndexes := by
  have hk : ∀ t, t ∉ hasKeyT → keyOf t _r = none := by
    intro t ht
    cases t <;> first | (exact absurd (by decide) ht) | simp
  have he : eraseKeys _r hasKeyT s = { s with ifMappings := fun t => put (s.ifMappings t) (keyOf t _r) none } := by
    rw [eraseKeys_spec]
    exact congrArg (fun m => { s with ifMappings := m }) (funext fun t => putKeys hk t)
  by_cases hn : _r.ifName = []
  · by_cases hv : r.vrfId = 0 <;> simp [Registry.cleanupAt, he, hn, hv, nameOf]
  · have hpos : 0 < _r.ifName.length := List.length_pos_of_ne_nil hn
    by_cases hv : r.vrfId = 0 <;> simp [Registry.cleanupAt, he, hn, hpos, hv, nameOf]

/-! ## Each call keeps the indexes -/

/-- What was asked for has the record's key under `t`. -/
def Finds (t : IntfInfo) (q r : InterfaceCtrl) : Prop :=
  if t = .fromIfName then nameOf r = some q.ifName else ∃ k, keyOf t q = some k ∧ keyOf t r = some k

theorem Inv.locate_iff {s : Registry} (hi : Inv s) {t : IntfInfo} {q : InterfaceCtrl} {p : Ptr} :
    s.locate t q = some p ↔ ∃ r, s.heap p = some r ∧ Finds t q r := by
  by_cases ht : t = .fromIfName
  · subst ht
    rw [locate_name, hi.names]
    simp only [Finds, if_true]
  · rw [locate_key q ht, Option.bind_eq_some_iff]
    simp only [Finds, if_neg ht]
    refine ⟨fun ⟨k, hq, hk⟩ => ?_, fun ⟨r, hr, k, hq, hk⟩ => ⟨k, hq, (hi.keys t k p).mpr ⟨r, hr, hk⟩⟩⟩
    obtain ⟨r, hr, hkr⟩ := (hi.keys t k p).mp hk
    exact ⟨r, hr, k, hq, hkr⟩

theorem Inv.locate_live {s : Registry} (hi : Inv s) {t : IntfInfo} {r : InterfaceCtrl} {p : Ptr}
    (h : s.locate t r = some p) : ∃ r', s.heap p = some r' :=
  (hi.locate_iff.mp h).imp fun _ hr => hr.1

/-- A record none of whose keys is found, put at a free pointer. -/
theorem Inv.insert {s : Registry} (hi : Inv s) {p : Ptr} {r : InterfaceCtrl} (hfree : s.heap p = none)
    (hnew : ∀ t ∈ allQueriesT, s.locate t r = none) :
    Inv (addAll p r allQueriesT
      (false, { s with heap := Function.update s.heap p (some r), ifRecords := s.ifRecords.insert p })).2 := by
  have hk : ∀ t, t ∉ allQueriesT → keyOf t r = none := by
    intro t ht
    rw [mem_allQueriesT, not_not] at ht
    rw [ht, keyOf_unset]
  rw [addAll_spec]
  refine ⟨fun q => ?_, fun t => ?_, ?_⟩
  · by_cases e : q = p
    · subst e; simp
    · simp [e, hi.records q]
  · show Coherent (if t ∈ allQueriesT then put (s.ifMappings t) (keyOf t r) (some p) else s.ifMappings t) _ _
    rw [putKeys hk]
    refine (hi.keys t).insert hfree fun k hkey => ?_
    by_cases ht : t ∈ allQueriesT
    · have hne : t ≠ .fromIfName := fun e => by rw [e, keyOf_fromIfName] at hkey; cases hkey
      have := hnew t ht
      rwa [locate_key r hne, hkey] at this
    · rw [hk t ht] at hkey; cases hkey
  · show Coherent (if IntfInfo.fromIfName ∈ allQueriesT then put s.ifNameMap (nameOf r) (some p) else s.ifNameMap) _ _
    rw [if_pos (by decide)]
    refine hi.names.insert hfree fun k hkey => ?_
    have := hnew .fromIfName (by decide)
    rw [locate_name] at this
    unfold nameOf at hkey
    split at hkey
    · cases hkey
    · cases hkey; exact this

theorem Inv.cleanupAt {s : Registry} (hi : Inv s) (r : InterfaceCtrl) {p : Ptr} {_r : InterfaceCtrl}
    (hp : s.heap p = some _r) : Inv (s.cleanupAt r p _r) := by
  obtain ⟨h1, h2, h3, h4, -⟩ := cleanupAt_spec s r p _r
  refine ⟨fun q => ?_, fun t => ?_, ?_⟩
  · rw [h1, h2]
    by_cases e : q = p
    · subst e; simp
    · simp [e, hi.records q]
  · rw [h1, h3]; exact (hi.keys t).remove hp
  · rw [h1, h4]; exact hi.names.remove hp

theorem Inv.cleanup {s : Registry} (hi : Inv s) (r : InterfaceCtrl) : Inv (s.cleanup r) := by
  unfold Registry.cleanup
  split
  · exact hi
  · split
    · exact ⟨hi.records, hi.keys, hi.names⟩
    · rename_i hp; exact hi.cleanupAt r hp

theorem no_key {r : InterfaceCtrl} (h : allQueriesT.any (hasKey · r) = false) :
    (∀ t, keyOf t r = none) ∧ nameOf r = none := by
  rw [List.any_eq_false] at h
  refine ⟨fun t => ?_, ?_⟩
  · by_cases ht : t ∈ allQueriesT
    · by_cases hn : t = .fromIfName
      · rw [hn, keyOf_fromIfName]
      · simpa [hasKey, hn] using h t ht
    · rw [mem_allQueriesT, not_not] at ht
      rw [ht, keyOf_unset]
  · simpa [hasKey] using h .fromIfName (by decide)

/-- A free pointer put in the records and taken out again. -/
theorem Inv.erase_insert {s : Registry} (hi : Inv s) {p : Ptr} (hfree : s.heap p = none) :
    (s.ifRecords.insert p).erase p = s.ifRecords := by
  have hp : p ∉ s.ifRecords := fun h => by
    have := (hi.records p).mp h
    rw [hfree] at this; cases this
  ext q
  by_cases e : q = p
  · subst e; simp [hp]
  · simp [e]

theorem update_free {s : Registry} {p : Ptr} (hfree : s.heap p = none) : Function.update s.heap p none = s.heap := by
  rw [← hfree, Function.update_eq_self]

/-- A record without keys put at a free pointer and taken back leaves no trace. -/
theorem addAll_no_key {s : Registry} (hi : Inv s) {p : Ptr} {r : InterfaceCtrl} (hfree : s.heap p = none)
    (hno : allQueriesT.any (hasKey · r) = false) :
    let s' := (addAll p r allQueriesT
      (false, { s with heap := Function.update s.heap p (some r), ifRecords := s.ifRecords.insert p })).2
    { s' with ifRecords := s'.ifRecords.erase p, heap := Function.update s'.heap p none } = s := by
  obtain ⟨hkeys, hname⟩ := no_key hno
  simp [addAll_spec, hkeys, hname, hno, hi.erase_insert hfree, update_free hfree]

/-- A record with a valid key and none in use, put at a free pointer, is under all its keys. -/
theorem register_accepted {s : Registry} {detail : InterfaceCtrl} {p : Ptr} (hfree : s.heap p = none)
    (hnew : ∀ t ∈ allQueriesT, s.locate t detail = none) (hkey : allQueriesT.any (hasKey · detail) = true) :
    dnHalIfRegister .reg detail (some p) s = (.ok, (addAll p detail allQueriesT
      (false, { s with heap := Function.update s.heap p (some detail), ifRecords := s.ifRecords.insert p })).2) := by
  have hany : allQueriesT.any (fun t => (s.locate t detail).isSome) = false := by
    rw [List.any_eq_false]
    intro t ht
    simp [hnew t ht]
  have hmem : (some p).filter (fun p => (s.heap p).isNone) = some p := by simp [Option.filter, hfree]
  have hok := congrArg Prod.fst (addAll_spec p detail allQueriesT false
    { s with heap := Function.update s.heap p (some detail), ifRecords := s.ifRecords.insert p })
  generalize ha : addAll p detail allQueriesT _ = a at hok
  obtain ⟨b, s'⟩ := a
  have hb : b = true := by simpa [hkey] using hok
  subst hb
  simp only [dnHalIfRegister, hany, hmem, ha, reduceCtorEq, Bool.false_eq_true, if_false]

/-- A registration: refused with nothing changed, or a record with a valid key and none
    in use, put at a free pointer and under all its keys. -/
theorem register_cases {s : Registry} (hi : Inv s) (detail : InterfaceCtrl) (mem : Option Ptr) :
    dnHalIfRegister .reg detail mem s = (errParam, s) ∨
    ∃ p, mem = some p ∧ s.heap p = none ∧ (∀ t ∈ allQueriesT, s.locate t detail = none) ∧
      allQueriesT.any (hasKey · detail) = true ∧
      dnHalIfRegister .reg detail mem s = (.ok, (addAll p detail allQueriesT
        (false, { s with heap := Function.update s.heap p (some detail), ifRecords := s.ifRecords.insert p })).2) := by
  by_cases hany : allQueriesT.any (fun t => (s.locate t detail).isSome) = true
  · exact Or.inl (by simp [dnHalIfRegister, hany])
  cases hmem : mem.filter (fun p => (s.heap p).isNone) with
  | none => exact Or.inl (by simp [dnHalIfRegister, hany, hmem])
  | some p =>
    obtain ⟨hm, hfree⟩ := Option.filter_eq_some_iff.mp hmem
    have hfree : s.heap p = none := by simpa using hfree
    have hspec := addAll_spec p detail allQueriesT false
      { s with heap := Function.update s.heap p (some detail), ifRecords := s.ifRecords.insert p }
    have hok := congrArg Prod.fst hspec
    cases hno : allQueriesT.any (hasKey · detail) with
    | false =>
      refine Or.inl ?_
      have hback := addAll_no_key hi hfree hno
      generalize ha : addAll p detail allQueriesT _ = a at hok hback
      obtain ⟨b, s'⟩ := a
      have hb : b = false := by simpa [hno] using hok
      subst hb
      simp only [dnHalIfRegister, hany, hmem, ha, reduceCtorEq, if_false]
      exact congrArg _ hback
    | true =>
      have hnew : ∀ t ∈ allQueriesT, s.locate t detail = none := by simpa using hany
      exact Or.inr ⟨p, hm, hfree, hnew, rfl, by rw [hm]; exact register_accepted hfree hnew hno⟩

theorem register_inv {s : Registry} (hi : Inv s) (regOpt : HalIntfRegOpType) (detail : InterfaceCtrl) (mem : Option Ptr) :
    Inv (dnHalIfRegister regOpt detail mem s).2 := by
  cases regOpt with
  | dereg => exact hi.cleanup detail
  | reg =>
    rcases register_cases hi detail mem with h | ⟨p, _, hfree, hnew, _, h⟩
    · rw [h]; exact hi
    · rw [h]; exact hi.insert hfree hnew

/-- An update: at most one live record changed, and in it only the MAC, the description
    and the router interface. -/
structure Updated (s s' : Registry) : Prop where
  ifRecords : s'.ifRecords = s.ifRecords
  ifMappings : s'.ifMappings = s.ifMappings
  ifNameMap : s'.ifNameMap = s.ifNameMap
  ifIndexes : s'.ifIndexes = s.ifIndexes
  heap : s'.heap = s.heap ∨ ∃ p r mac desc l3, s.heap p = some r ∧
    s'.heap = Function.update s.heap p (some { r with macAddr := mac, desc := desc, l3IntfInfo := l3 })

theorem Updated.inv {s s' : Registry} (h : Updated s s') (hi : Inv s) : Inv s' := by
  rcases h.heap with hheap | ⟨p, r, mac, desc, l3, hp, hheap⟩
  · refine ⟨fun q => ?_, fun t => ?_, ?_⟩
    · rw [h.ifRecords, hheap]; exact hi.records q
    · rw [h.ifMappings, hheap]; exact hi.keys t
    · rw [h.ifNameMap, hheap]; exact hi.names
  · refine ⟨fun q => ?_, fun t => ?_, ?_⟩
    · rw [hheap, h.ifRecords, hi.records q]
      by_cases e : q = p
      · subst e; simp [hp]
      · simp [e]
    · rw [hheap, h.ifMappings]; exact (hi.keys t).modify hp rfl
    · rw [hheap, h.ifNameMap]; exact hi.names.modify hp rfl

theorem updateLocated_updated {s : Registry} (q : InterfaceCtrl)
    {change : Ptr → InterfaceCtrl → Registry → StdError × Registry}
    (hc : ∀ p r, s.heap p = some r → Updated s (change p r s).2) : Updated s (updateLocated q change s).2 := by
  unfold updateLocated
  split
  · exact ⟨rfl, rfl, rfl, rfl, Or.inl rfl⟩
  split
  · exact ⟨rfl, rfl, rfl, rfl, Or.inl rfl⟩
  · rename_i hp; exact hc _ _ hp

theorem updateIntfMac_updated (s : Registry) (ifx : HalIfindex) (mac : CString) :
    Updated s (dnHalUpdateIntfMac ifx mac s).2 :=
  updateLocated_updated _ fun p r hp => ⟨rfl, rfl, rfl, rfl, Or.inr ⟨p, r, _, r.desc, r.l3IntfInfo, hp, rfl⟩⟩

theorem updateRouterIntfInfo_updated (s : Registry) (vrfId : HalVrfId) (ifx : HalIfindex) (info : L3IntfInfo) :
    Updated s (nasCmnUpdateRouterIntfInfo vrfId ifx info s).2 :=
  updateLocated_updated _ fun p r hp => ⟨rfl, rfl, rfl, rfl, Or.inr ⟨p, r, r.macAddr, r.desc, info, hp, rfl⟩⟩

theorem updateIntfDesc_updated (s : Registry) (q : InterfaceCtrl) (desc : CString) (mem : Option DescPtr) :
    Updated s (dnHalUpdateIntfDesc q desc mem s).2 := by
  unfold dnHalUpdateIntfDesc
  split
  · exact ⟨rfl, rfl, rfl, rfl, Or.inl rfl⟩
  refine updateLocated_updated q fun p r hp => ?_
  simp only
  split
  · exact ⟨by simp, by simp, by simp, by simp, Or.inr ⟨p, r, r.macAddr, none, r.l3IntfInfo, hp, by simp⟩⟩
  split
  · -- the buffer is freed and the record still points at it
    exact ⟨by simp, by simp, by simp, by simp, Or.inl (by simp)⟩
  · rename_i d _
    exact ⟨by simp, by simp, by simp, by simp, Or.inr ⟨p, r, r.macAddr, some d, r.l3IntfInfo, hp, by simp⟩⟩

/-! ## Runs -/

inductive Op where
  | register (regOpt : HalIntfRegOpType) (detail : InterfaceCtrl) (mem : Option Ptr)
  | updateIntfMac (ifx : HalIfindex) (mac : CString)
  | updateRouterIntfInfo (vrfId : HalVrfId) (ifx : HalIfindex) (info : L3IntfInfo)
  | updateIntfDesc (p : InterfaceCtrl) (desc : CString) (mem : Option DescPtr)

def step (s : Registry) : Op → StdError × Registry
  | .register regOpt detail mem => dnHalIfRegister regOpt detail mem s
  | .updateIntfMac ifx mac => dnHalUpdateIntfMac ifx mac s
  | .updateRouterIntfInfo vrfId ifx info => nasCmnUpdateRouterIntfInfo vrfId ifx info s
  | .updateIntfDesc p desc mem => dnHalUpdateIntfDesc p desc mem s

theorem step_inv (s : Registry) (op : Op) (hi : Inv s) : Inv (step s op).2 := by
  cases op with
  | register regOpt detail mem => exact register_inv hi regOpt detail mem
  | updateIntfMac ifx mac => exact (updateIntfMac_updated s ifx mac).inv hi
  | updateRouterIntfInfo vrfId ifx info => exact (updateRouterIntfInfo_updated s vrfId ifx info).inv hi
  | updateIntfDesc p desc mem => exact (updateIntfDesc_updated s p desc mem).inv hi

theorem run_inv (ops : List Op) : Inv (Runs.final step Registry.empty ops) :=
  Runs.final_invariant step_inv ops _ empty_inv

/-- `p` is registered and holds `r`. -/
def Live (s : Registry) (p : Ptr) (r : InterfaceCtrl) : Prop := p ∈ s.ifRecords ∧ s.heap p = some r

theorem keyOf_eq_some {t : IntfInfo} {r : InterfaceCtrl} {k : UInt64} :
    keyOf t r = some k ↔ queryValid t r.intType = true ∧ mkKey t r = k ∧ k ≠ invalidKey := by
  unfold keyOf
  split
  · rename_i h
    rw [Option.some.injEq]
    exact ⟨fun e => ⟨h.1, e, e ▸ h.2⟩, fun e => e.2.1⟩
  · rename_i h
    exact iff_of_false (by simp) fun e => h ⟨e.1, by rw [e.2.1]; exact e.2.2⟩

theorem nameOf_eq_some {r : InterfaceCtrl} {name : CString} : nameOf r = some name ↔ r.ifName = name ∧ name ≠ [] := by
  unfold nameOf
  split
  · rename_i h
    exact iff_of_false (by simp) fun e => e.2 (by rw [← e.1, h])
  · rename_i h
    rw [Option.some.injEq]
    exact ⟨fun e => ⟨e, e ▸ h⟩, fun e => e.1⟩

theorem Inv.live {s : Registry} (hi : Inv s) {p : Ptr} {r : InterfaceCtrl} : Live s p r ↔ s.heap p = some r :=
  ⟨fun h => h.2, fun h => ⟨(hi.records p).mpr (by simp [h]), h⟩⟩

/-! ## Finding a record by its keys -/

theorem hasKey_of_keyOf {t : IntfInfo} {r : InterfaceCtrl} {k : UInt64} (h : keyOf t r = some k) : hasKey t r = true := by
  have ht : t ≠ .fromIfName := fun e => by rw [e, keyOf_fromIfName] at h; cases h
  simp [hasKey, ht, h]

theorem keyOf_of_hasKey {t : IntfInfo} {r : InterfaceCtrl} (ht : t ≠ .fromIfName) (h : hasKey t r = true) :
    keyOf t r = some (mkKey t r) := by
  simp only [hasKey, ht, if_false, Option.isSome_iff_exists] at h
  obtain ⟨k, hk⟩ := h
  rw [hk, (keyOf_eq_some.mp hk).2.1]

theorem nameOf_of_hasKey {r : InterfaceCtrl} (h : hasKey .fromIfName r = true) : nameOf r = some r.ifName := by
  simp only [hasKey, if_true, Option.isSome_iff_exists] at h
  obtain ⟨name, hname⟩ := h
  rw [hname, (nameOf_eq_some.mp hname).1]

theorem hasKey_mem {t : IntfInfo} {r : InterfaceCtrl} (h : hasKey t r = true) : t ∈ allQueriesT := by
  rw [mem_allQueriesT]
  rintro rfl
  simp [hasKey] at h

theorem any_hasKey {r : InterfaceCtrl} : allQueriesT.any (hasKey · r) = true ↔ ∃ t, hasKey t r = true := by
  rw [List.any_eq_true]
  exact ⟨fun ⟨t, _, h⟩ => ⟨t, h⟩, fun ⟨t, h⟩ => ⟨t, hasKey_mem h, h⟩⟩

/-- Asking and record both have the key, and it is one. -/
theorem finds_iff {t : IntfInfo} {q r : InterfaceCtrl} : Finds t q r ↔ hasKey t q = true ∧ hasKey t r = true ∧
    if t = .fromIfName then r.ifName = q.ifName else mkKey t r = mkKey t q := by
  by_cases ht : t = .fromIfName
  · subst ht
    simp only [Finds, if_true, nameOf_eq_some]
    refine ⟨fun ⟨he, hne⟩ => ⟨?_, ?_, he⟩, fun ⟨hq, _, he⟩ => ⟨he, (nameOf_eq_some.mp (nameOf_of_hasKey hq)).2⟩⟩
    · simp [hasKey, nameOf, hne]
    · simp [hasKey, nameOf, he, hne]
  · simp only [Finds, if_neg ht]
    refine ⟨fun ⟨k, hq, hr⟩ => ⟨hasKey_of_keyOf hq, hasKey_of_keyOf hr, ?_⟩, fun ⟨hq, hr, he⟩ => ?_⟩
    · rw [(keyOf_eq_some.mp hq).2.1, (keyOf_eq_some.mp hr).2.1]
    · exact ⟨mkKey t q, keyOf_of_hasKey ht hq, by rw [keyOf_of_hasKey ht hr, he]⟩

/-- A live record is found under each of its own keys. -/
theorem Inv.locate_own {s : Registry} (hi : Inv s) {p : Ptr} {r : InterfaceCtrl} {t : IntfInfo} (hp : s.heap p = some r)
    (hk : hasKey t r = true) : s.locate t r = some p :=
  hi.locate_iff.mpr ⟨r, hp, finds_iff.mpr ⟨hk, hk, by split <;> rfl⟩⟩

/-- After any sequence of calls: under each query type, the index maps `k` to `p`
    exactly when `p` is a live record for which the type is valid and whose key is `k`,
    not the invalid one; the name index maps a name exactly to the live record with it.
    So two live records with a common key or name are one. -/
theorem registry_coherent (ops : List Op) :
    let s := Runs.final step Registry.empty ops
    (∀ t k p, s.ifMappings t k = some p ↔
      ∃ r, Live s p r ∧ queryValid t r.intType = true ∧ mkKey t r = k ∧ k ≠ invalidKey) ∧
    (∀ name p, s.ifNameMap name = some p ↔ ∃ r, Live s p r ∧ r.ifName = name ∧ name ≠ []) ∧
    (∀ p q r r', Live s p r → Live s q r' →
      ((∃ t, queryValid t r.intType = true ∧ queryValid t r'.intType = true ∧ mkKey t r = mkKey t r' ∧
        mkKey t r ≠ invalidKey) ∨ r.ifName = r'.ifName ∧ r.ifName ≠ []) → p = q) := by
  intro s
  have hi := run_inv ops
  refine ⟨fun t k p => ?_, fun name p => ?_, fun p q r r' hp hq h => ?_⟩
  · rw [hi.keys t k p]
    exact exists_congr fun r => and_congr hi.live.symm keyOf_eq_some
  · rw [hi.names name p]
    exact exists_congr fun r => and_congr hi.live.symm nameOf_eq_some
  · rcases h with ⟨t, h1, h2, h3, h4⟩ | ⟨h1, h2⟩
    · exact (hi.keys t).unique hp.2 hq.2 (keyOf_eq_some.mpr ⟨h1, rfl, h4⟩) (keyOf_eq_some.mpr ⟨h2, h3.symm, h4⟩)
    · exact hi.names.unique hp.2 hq.2 (nameOf_eq_some.mpr ⟨rfl, h2⟩) (nameOf_eq_some.mpr ⟨h1.symm, h2⟩)

end NasCommon.IfMapping
