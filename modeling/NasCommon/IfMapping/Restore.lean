/-
  NasCommon.IfMapping.Restore — when a registration is accepted, and taking it back.

  `dn_hal_if_register` looks for the detail under the same query types as it adds it
  under, so it accepts it exactly when it has a valid key and no live record has one of
  them (`register_ok_iff`). A deregistration with the same detail finds the record and
  takes out of each index what was put in (`deregister_restores`). `if_indexes` alone can
  end up otherwise: an ifindex that was in it without a record, left by a deregistration
  with another VRF than its record's, is taken out with the record's own.
  - `register_restores_iff`: in any reachable state a registration does all of this
    exactly when such a leftover is not the detail's ifindex, and always where every
    deregistration of the run agrees with its record.
  - `leftover_erased`: the state of `stale_ifIndex`, and the same interface again.
-/

import NasCommon.IfMapping.Indexes

namespace NasCommon.IfMapping

open KeyedIndex (put)
open Registry

/-! ## What a registration needs -/

/-- A live record has the key that `detail` has under `t`. -/
def InUse (s : Registry) (t : IntfInfo) (detail : InterfaceCtrl) : Prop :=
  ∃ p r, Live s p r ∧ hasKey t r = true ∧
    if t = .fromIfName then r.ifName = detail.ifName else mkKey t r = mkKey t detail

/-- `new` finds memory that is not in use. -/
def FindsMemory (s : Registry) (mem : Option Ptr) : Prop := ∃ p, mem = some p ∧ s.heap p = none

/-- The detail has a valid key and none that is in use. -/
def MayRegister (s : Registry) (detail : InterfaceCtrl) : Prop :=
  (∃ t, hasKey t detail = true) ∧ ∀ t, hasKey t detail = true → ¬ InUse s t detail

/-- The conflict check finds a record under `t` just when the key is valid and in use. -/
theorem locate_none_iff {s : Registry} (hi : Inv s) (t : IntfInfo) (detail : InterfaceCtrl) :
    s.locate t detail = none ↔ (hasKey t detail = true → ¬ InUse s t detail) := by
  rw [Option.eq_none_iff_forall_ne_some]
  simp only [ne_eq, hi.locate_iff, finds_iff]
  refine ⟨fun hno hk ⟨p, r, hl, hr, he⟩ => hno p ⟨r, hl.2, hk, hr, he⟩, fun hno p ⟨r, hp, hk, hr, he⟩ => ?_⟩
  exact hno hk ⟨p, r, hi.live.mpr hp, hr, he⟩

theorem mayRegister_iff {s : Registry} (hi : Inv s) (detail : InterfaceCtrl) : MayRegister s detail ↔
    allQueriesT.any (hasKey · detail) = true ∧ ∀ t ∈ allQueriesT, s.locate t detail = none := by
  unfold MayRegister
  rw [any_hasKey]
  refine and_congr_right fun _ => ⟨fun h t _ => (locate_none_iff hi t detail).mpr (h t), fun h t hk => ?_⟩
  exact (locate_none_iff hi t detail).mp (h t (hasKey_mem hk)) hk

/-- Accepted or refused, a registration does what it may. -/
theorem register_ok_iff {s : Registry} (hi : Inv s) (detail : InterfaceCtrl) (mem : Option Ptr) :
    ((dnHalIfRegister .reg detail mem s).1 = .ok ↔ FindsMemory s mem ∧ MayRegister s detail) ∧
      ((dnHalIfRegister .reg detail mem s).1 ≠ .ok → (dnHalIfRegister .reg detail mem s).2 = s) := by
  rw [mayRegister_iff hi]
  by_cases h : FindsMemory s mem ∧
      allQueriesT.any (hasKey · detail) = true ∧ ∀ t ∈ allQueriesT, s.locate t detail = none
  · obtain ⟨⟨p, rfl, hfree⟩, hkey, hnew⟩ := h
    rw [register_accepted hfree hnew hkey]
    exact ⟨iff_of_true rfl ⟨⟨p, rfl, hfree⟩, hkey, hnew⟩, fun hne => absurd rfl hne⟩
  · rcases register_cases hi detail mem with hr | ⟨p, hm, hfree, hnew, hkey, -⟩
    · rw [hr]
      exact ⟨iff_of_false (by simp [errParam]) h, fun _ => rfl⟩
    · exact absurd ⟨⟨p, hm, hfree⟩, hkey, hnew⟩ h

/-! ## Taking it back -/

/-- The records and every index are the same; the description buffers may differ. -/
structure SameIndexes (s s' : Registry) : Prop where
  heap : s.heap = s'.heap
  ifRecords : s.ifRecords = s'.ifRecords
  ifMappings : s.ifMappings = s'.ifMappings
  ifNameMap : s.ifNameMap = s'.ifNameMap
  ifIndexes : s.ifIndexes = s'.ifIndexes

/-- A live record with a key is the one that its own detail finds. -/
theorem locateAny_live {s : Registry} (hi : Inv s) {p : Ptr} {r : InterfaceCtrl} (hp : s.heap p = some r)
    (hk : ∃ t, hasKey t r = true) : s.locateAny r = some p := by
  obtain ⟨t, ht⟩ := hk
  have hsome : (s.locateAny r).isSome = true := by
    refine List.findSome?_isSome_iff.mpr ⟨t, hasKey_mem ht, ?_⟩
    rw [hi.locate_own hp ht]
    rfl
  obtain ⟨q, hq⟩ := Option.isSome_iff_exists.mp hsome
  obtain ⟨u, -, hu⟩ := List.exists_of_findSome?_eq_some hq
  by_cases hk : hasKey u r = true
  · rw [hq, ← hu, hi.locate_own hp hk]
  · rw [(locate_none_iff hi u r).mpr (fun h => absurd h hk)] at hu
    cases hu

theorem insert_erase_restores {l : OrdSet HalIfindex} {i : HalIfindex} : (l.insert i).erase i = l ↔ i ∉ l := by
  constructor
  · intro h hm
    rw [← h, OrdSet.mem_erase] at hm
    exact hm.2 rfl
  · intro h
    ext j
    by_cases e : j = i
    · subst e; simp [h]
    · simp [e]

/-- A registration that is accepted and taken back: all is as before but `if_indexes`,
    and that too where the detail's ifindex was not in it. -/
theorem deregister_restores {s : Registry} (hi : Inv s) {detail : InterfaceCtrl} {p : Ptr} (hfree : s.heap p = none)
    (hnew : ∀ t ∈ allQueriesT, s.locate t detail = none) (hkey : allQueriesT.any (hasKey · detail) = true) :
    let s' := (addAll p detail allQueriesT
      (false, { s with heap := Function.update s.heap p (some detail), ifRecords := s.ifRecords.insert p })).2
    SameIndexes (s'.cleanup detail) s ↔ (detail.vrfId = 0 → detail.ifIndex ∉ s.ifIndexes) := by
  intro s'
  have hi' : Inv s' := hi.insert hfree hnew
  have hs' := addAll_spec p detail allQueriesT false
    { s with heap := Function.update s.heap p (some detail), ifRecords := s.ifRecords.insert p }
  have hs' : s' = _ := congrArg Prod.snd hs'
  have hp : s'.heap p = some detail := by rw [hs']; exact Function.update_self _ _ _
  have hc : s'.cleanup detail = s'.cleanupAt detail p detail := by
    simp only [Registry.cleanup, locateAny_live hi' hp (any_hasKey.mp hkey), hp]
  obtain ⟨hheap, hrec, hmap, hname, hidx⟩ := cleanupAt_spec s' detail p detail
  have hfreeKey : ∀ t k, keyOf t detail = some k → s.ifMappings t k = none := by
    intro t k hk
    have ht : t ≠ .fromIfName := fun e => by rw [e, keyOf_fromIfName] at hk; cases hk
    have := hnew t (hasKey_mem (hasKey_of_keyOf hk))
    rwa [locate_key detail ht, hk] at this
  have hfreeName : ∀ name, nameOf detail = some name → s.ifNameMap name = none := by
    intro name hn
    have := hnew .fromIfName (by decide)
    rwa [locate_name, (nameOf_eq_some.mp hn).1] at this
  have hmaps : ∀ t, s'.ifMappings t = put (s.ifMappings t) (keyOf t detail) (some p) := by
    intro t
    rw [hs']
    refine putKeys (fun u hu => ?_) t
    rw [mem_allQueriesT, not_not] at hu
    rw [hu, keyOf_unset]
  have hnames : s'.ifNameMap = put s.ifNameMap (nameOf detail) (some p) := by
    rw [hs']
    show (if IntfInfo.fromIfName ∈ allQueriesT then put s.ifNameMap (nameOf detail) (some p) else s.ifNameMap) = _
    rw [if_pos (by decide)]
  have hidx' : s'.ifIndexes = if detail.vrfId = 0 then s.ifIndexes.insert detail.ifIndex else s.ifIndexes := by
    rw [hs']
    simp [hkey]
  have hindexes : (s'.cleanup detail).ifIndexes = s.ifIndexes ↔ (detail.vrfId = 0 → detail.ifIndex ∉ s.ifIndexes) := by
    rw [hc, hidx, hidx']
    by_cases hv : detail.vrfId = 0
    · simp only [hv, if_true, true_implies]
      exact insert_erase_restores
    · simp [hv]
  refine ⟨fun h => hindexes.mp h.ifIndexes, fun h => ⟨?_, ?_, ?_, ?_, hindexes.mpr h⟩⟩
  · rw [hc, hheap, hs']
    exact (Function.update_idem _ _ _).trans (update_free hfree)
  · rw [hc, hrec, hs']
    exact hi.erase_insert hfree
  · rw [hc]
    funext t
    rw [hmap, hmaps]
    exact KeyedIndex.put_clear _ (hfreeKey t)
  · rw [hc, hname, hnames]
    exact KeyedIndex.put_clear _ hfreeName

/-! ## Every reachable state -/

/-- A registration is accepted just when it may be, changes nothing when refused, and
    taken back with the same detail leaves the records and indexes as before. -/
def RegistersExactly (s : Registry) (detail : InterfaceCtrl) (mem : Option Ptr) : Prop :=
  let r := dnHalIfRegister .reg detail mem s
  (r.1 = .ok ↔ FindsMemory s mem ∧ MayRegister s detail) ∧ (r.1 ≠ .ok → r.2 = s) ∧
    (r.1 = .ok → (dnHalIfRegister .dereg detail none r.2).1 = .ok ∧
      SameIndexes (dnHalIfRegister .dereg detail none r.2).2 s)

theorem registersExactly_iff {s : Registry} (hi : Inv s) (detail : InterfaceCtrl) (mem : Option Ptr) :
    RegistersExactly s detail mem ↔
      (FindsMemory s mem → MayRegister s detail → detail.vrfId = 0 → detail.ifIndex ∉ s.ifIndexes) := by
  obtain ⟨hok, hrefused⟩ := register_ok_iff hi detail mem
  constructor
  · rintro ⟨-, -, hdereg⟩ hmem hmay
    have hsame := (hdereg (hok.mpr ⟨hmem, hmay⟩)).2
    obtain ⟨p, rfl, hfree⟩ := hmem
    obtain ⟨hkey, hnew⟩ := (mayRegister_iff hi detail).mp hmay
    rw [register_accepted hfree hnew hkey] at hsame
    exact (deregister_restores hi hfree hnew hkey).mp hsame
  · intro h
    refine ⟨hok, hrefused, fun hr => ?_⟩
    obtain ⟨hmem, hmay⟩ := hok.mp hr
    have hleft := h hmem hmay
    obtain ⟨p, rfl, hfree⟩ := hmem
    obtain ⟨hkey, hnew⟩ := (mayRegister_iff hi detail).mp hmay
    rw [register_accepted hfree hnew hkey]
    exact ⟨rfl, (deregister_restores hi hfree hnew hkey).mpr hleft⟩

/-- Where `if_indexes` is exact, an ifindex in it has its key in use. -/
theorem Exact.no_leftover {s : Registry} (h : Exact s) {detail : InterfaceCtrl} (hmay : MayRegister s detail)
    (hv : detail.vrfId = 0) : detail.ifIndex ∉ s.ifIndexes := by
  intro hm
  obtain ⟨p, r, hl, hr, hidx⟩ := (h _).mp hm
  have hk : hasKey .fromIf detail = true := hasKey_of_keyOf (keyOf_fromIf hv)
  refine hmay.2 .fromIf hk ⟨p, r, hl, hasKey_of_keyOf (keyOf_fromIf hr), ?_⟩
  simp [mkKey, hv, hr, hidx]

/-- In every reachable state, for every detail: a registration is accepted just when it
    may be, changes nothing when refused and is undone by its deregistration, exactly
    when it is one that may not be made, or not of VRF 0, or its ifindex is not already
    in `if_indexes`. After deregistrations that agree with their records it always is. -/
theorem register_restores_iff (ops : List Op) (detail : InterfaceCtrl) (mem : Option Ptr) :
    let s := Runs.final step Registry.empty ops
    (RegistersExactly s detail mem ↔
      (FindsMemory s mem → MayRegister s detail → detail.vrfId = 0 → detail.ifIndex ∉ s.ifIndexes)) ∧
    (Runs.Steps step DeregAgrees Registry.empty ops → RegistersExactly s detail mem) := by
  intro s
  have hiff := registersExactly_iff (run_inv ops) detail mem
  refine ⟨hiff, fun hagrees => hiff.mpr fun _ hmay hv => ?_⟩
  have hexact := (Runs.always_iff_steps step_inv step_exact_iff ops _ empty_inv empty_exact).mpr hagrees
  exact Exact.no_leftover (hexact ops (List.prefix_refl _)) hmay hv

/-- With 5 left in `if_indexes` by a deregistration that named another VRF, the same
    interface is registered and deregistered: 5 is gone. -/
theorem leftover_erased : ¬ RegistersExactly (Runs.final step Registry.empty regThenDereg) eth0 (some 0) := by
  intro h
  have hok : (dnHalIfRegister .reg eth0 (some 0) (Runs.final step Registry.empty regThenDereg)).1 = .ok := by decide
  have hsame := congrArg OrdSet.elems (h.2.2 hok).2.ifIndexes
  exact absurd hsame (by decide)

end NasCommon.IfMapping
