/-
  NasCommon.IfMapping.Indexes — `if_indexes` against the live records of the default
  VRF.

  `_add` inserts a record's ifindex when the record's own VRF is 0. `_cleanup` erases it
  when the caller's detail says VRF 0 (`rec->vrf_id`), though it erases everything else
  by the record it found (`_rec`). So a deregistration is right when the two agree, and
  when they do not, only if the record is not of VRF 0 and no live record of VRF 0 has
  its ifindex.
  - `ifIndexes_exact_iff`: `if_indexes` is exact throughout a run exactly when each of
    its deregistrations is one of those.
  - `stale_ifIndex`: registered in VRF 0 and deregistered by name with another VRF in
    the detail, the ifindex stays.
-/

import NasCommon.IfMapping.Coherence

namespace NasCommon.IfMapping

open Registry

/-- A live record of the default VRF with this ifindex. -/
def InDefaultVrf (s : Registry) (i : HalIfindex) : Prop := ∃ p r, Live s p r ∧ r.vrfId = 0 ∧ r.ifIndex = i

def Exact (s : Registry) : Prop := ∀ i, i ∈ s.ifIndexes ↔ InDefaultVrf s i

/-- A deregistration whose detail is of VRF 0 just when the record it finds is, or whose
    detail alone is and no record of VRF 0 has the ifindex. -/
def DeregAgrees (s : Registry) : Op → Prop
  | .register .dereg detail _ => ∀ p r, s.locateAny detail = some p → s.heap p = some r →
      (r.vrfId = 0 → detail.vrfId = 0) ∧ (r.vrfId ≠ 0 → detail.vrfId = 0 → ¬ InDefaultVrf s r.ifIndex)
  | _ => True

/-! ## The default VRF's keys -/

theorem mkKey2_zero (b : UInt32) : mkKey2 0 b = b.toUInt64 := by simp [mkKey2]

theorem toUInt64_ne_invalidKey (b : UInt32) : b.toUInt64 ≠ invalidKey := by
  intro h
  have hn := congrArg UInt64.toNat h
  have hb := b.toNat_lt
  have hinv : invalidKey.toNat = 2 ^ 64 - 1 := by decide
  rw [UInt32.toNat_toUInt64, hinv] at hn
  omega

theorem keyOf_fromIf {r : InterfaceCtrl} (h : r.vrfId = 0) : keyOf .fromIf r = some r.ifIndex.toUInt32.toUInt64 := by
  rw [keyOf_eq_some]
  exact ⟨rfl, by rw [mkKey, h, mkKey2_zero], toUInt64_ne_invalidKey _⟩

/-- In the default VRF an ifindex names one record. -/
theorem default_vrf_unique {s : Registry} (hi : Inv s) {p q : Ptr} {r r' : InterfaceCtrl} (hp : s.heap p = some r)
    (hq : s.heap q = some r') (hr : r.vrfId = 0) (hr' : r'.vrfId = 0) (he : r.ifIndex = r'.ifIndex) : p = q :=
  (hi.keys .fromIf).unique hp hq (keyOf_fromIf hr) (by rw [keyOf_fromIf hr', he])

theorem inDefaultVrf_iff {s : Registry} (hi : Inv s) {i : HalIfindex} :
    InDefaultVrf s i ↔ ∃ p r, s.heap p = some r ∧ r.vrfId = 0 ∧ r.ifIndex = i :=
  exists_congr fun _ => exists_congr fun _ => and_congr_left fun _ => hi.live

/-! ## Each call -/

theorem Updated.exact {s s' : Registry} (hu : Updated s s') (hi : Inv s) (h : Exact s) : Exact s' := by
  intro i
  rw [hu.ifIndexes, h i, inDefaultVrf_iff hi, inDefaultVrf_iff (hu.inv hi)]
  rcases hu.heap with hheap | ⟨p, r, mac, desc, l3, hp, hheap⟩
  · rw [hheap]
  rw [hheap]
  refine ⟨fun ⟨q, t, hq, ht⟩ => ?_, fun ⟨q, t, hq, ht⟩ => ?_⟩
  · by_cases e : q = p
    · subst e
      rw [hp] at hq; cases hq
      exact ⟨q, _, Function.update_self _ _ _, ht⟩
    · exact ⟨q, t, by rwa [Function.update_of_ne e], ht⟩
  · by_cases e : q = p
    · subst e
      rw [Function.update_self] at hq; cases hq
      exact ⟨q, r, hp, ht⟩
    · exact ⟨q, t, by rwa [Function.update_of_ne e] at hq, ht⟩

/-- A registration keeps `if_indexes` exact. -/
theorem register_exact {s : Registry} (hi : Inv s) (h : Exact s) (detail : InterfaceCtrl) (mem : Option Ptr) :
    Exact (dnHalIfRegister .reg detail mem s).2 := by
  rcases register_cases hi detail mem with hs | ⟨p, _, hfree, hnew, hadd, hs⟩
  · rw [hs]; exact h
  have hi' := hi.insert hfree hnew
  rw [hs]
  intro i
  rw [inDefaultVrf_iff hi', addAll_spec]
  simp only [hadd, true_and]
  -- the new record counts where its own VRF is 0
  have hold : InDefaultVrf s i ↔ ∃ q r, q ≠ p ∧ s.heap q = some r ∧ r.vrfId = 0 ∧ r.ifIndex = i := by
    rw [inDefaultVrf_iff hi]
    refine ⟨fun ⟨q, r, hq, hr⟩ => ⟨q, r, fun e => ?_, hq, hr⟩, fun ⟨q, r, _, hq, hr⟩ => ⟨q, r, hq, hr⟩⟩
    rw [e, hfree] at hq; cases hq
  have hnew' : (∃ q r, Function.update s.heap p (some detail) q = some r ∧ r.vrfId = 0 ∧ r.ifIndex = i) ↔
      (detail.vrfId = 0 ∧ detail.ifIndex = i) ∨ InDefaultVrf s i := by
    rw [hold]
    refine ⟨fun ⟨q, r, hq, hr⟩ => ?_, fun hor => ?_⟩
    · by_cases e : q = p
      · subst e
        simp only [Function.update_self, Option.some.injEq] at hq
        exact Or.inl (hq ▸ hr)
      · exact Or.inr ⟨q, r, e, by simpa [e] using hq, hr⟩
    · rcases hor with hd | ⟨q, r, e, hq, hr⟩
      · exact ⟨p, detail, by simp, hd⟩
      · exact ⟨q, r, by simpa [e] using hq, hr⟩
  rw [hnew', ← h i]
  by_cases hv : detail.vrfId = 0
  · simp [hv, eq_comm]
  · simp [hv]

/-- A removal keeps it exact just when the caller's VRF says what the record's does, or
    says 0 alone where no record of VRF 0 has the ifindex. -/
theorem cleanupAt_exact_iff {s : Registry} (hi : Inv s) (h : Exact s) (detail : InterfaceCtrl) {p : Ptr}
    {r : InterfaceCtrl} (hp : s.heap p = some r) : Exact (s.cleanupAt detail p r) ↔
      (r.vrfId = 0 → detail.vrfId = 0) ∧ (r.vrfId ≠ 0 → detail.vrfId = 0 → ¬ InDefaultVrf s r.ifIndex) := by
  have hi' := hi.cleanupAt detail hp
  obtain ⟨hheap, -, -, -, hidx⟩ := cleanupAt_spec s detail p r
  -- what is left of the default VRF
  have hleft : ∀ i, InDefaultVrf (s.cleanupAt detail p r) i ↔ InDefaultVrf s i ∧ ¬ (r.vrfId = 0 ∧ r.ifIndex = i) := by
    intro i
    rw [inDefaultVrf_iff hi', inDefaultVrf_iff hi, hheap]
    refine ⟨fun ⟨q, t, hq, ht⟩ => ?_, fun ⟨⟨q, t, hq, ht⟩, hne⟩ => ?_⟩
    · have e : q ≠ p := fun e => by rw [e, Function.update_self] at hq; cases hq
      rw [Function.update_of_ne e] at hq
      exact ⟨⟨q, t, hq, ht⟩, fun hr => e (default_vrf_unique hi hq hp ht.1 hr.1 (ht.2.trans hr.2.symm))⟩
    · have e : q ≠ p := fun e => by
        rw [e, hp] at hq; cases hq
        exact hne ht
      exact ⟨q, t, by rwa [Function.update_of_ne e], ht⟩
  have hr : r.vrfId = 0 → r.ifIndex ∈ s.ifIndexes := fun hv =>
    (h _).mpr ((inDefaultVrf_iff hi).mpr ⟨p, r, hp, hv, rfl⟩)
  unfold Exact
  simp only [hidx, hleft]
  by_cases hd : detail.vrfId = 0
  · simp only [hd, if_true, OrdSet.mem_erase, true_implies]
    by_cases hv : r.vrfId = 0
    · refine iff_of_true (fun i => ?_) ⟨fun _ => trivial, fun hne => absurd hv hne⟩
      rw [h i, ne_eq, eq_comm (a := i), hv]
      simp
    · simp only [hv, false_and, not_false_eq_true, and_true, false_implies, true_and, true_implies, ne_eq]
      refine ⟨fun hex hin => ?_, fun hno i => ?_⟩
      · exact ((hex r.ifIndex).mpr hin).2 rfl
      · rw [← h i]
        refine ⟨fun hm => hm.1, fun hm => ⟨hm, fun e => ?_⟩⟩
        rw [e] at hm
        exact hno ((h _).mp hm)
  · simp only [hd, if_false, false_implies, implies_true, and_true]
    refine ⟨fun hex hv => ?_, fun hno i => ?_⟩
    · exact absurd ⟨hv, rfl⟩ ((hex r.ifIndex).mp (hr hv)).2
    · rw [h i]
      exact ⟨fun hm => ⟨hm, fun hc => hno hc.1⟩, fun hm => hm.1⟩

theorem cleanup_exact_iff {s : Registry} (hi : Inv s) (h : Exact s) (detail : InterfaceCtrl) (mem : Option Ptr) :
    Exact (s.cleanup detail) ↔ DeregAgrees s (.register .dereg detail mem) := by
  unfold Registry.cleanup DeregAgrees
  cases hl : s.locateAny detail with
  | none => exact iff_of_true h (fun p r hp => by rw [hl] at hp; cases hp)
  | some p =>
    obtain ⟨t, _, ht⟩ := List.exists_of_findSome?_eq_some hl
    obtain ⟨r, hr⟩ := hi.locate_live ht
    simp only [hr, cleanupAt_exact_iff hi h detail hr]
    refine ⟨fun hc q t hq ht => ?_, fun hc => hc p r hl hr⟩
    rw [hl] at hq; cases hq
    rw [hr] at ht; cases ht
    exact hc

/-- From an exact state the next one is exact just when a deregistration agrees. -/
theorem step_exact_iff (s : Registry) (op : Op) (hi : Inv s) (h : Exact s) : Exact (step s op).2 ↔ DeregAgrees s op := by
  cases op with
  | register regOpt detail mem =>
    cases regOpt with
    | reg => exact iff_of_true (register_exact hi h detail mem) trivial
    | dereg => exact cleanup_exact_iff hi h detail mem
  | updateIntfMac ifx mac => exact iff_of_true ((updateIntfMac_updated s ifx mac).exact hi h) trivial
  | updateRouterIntfInfo vrfId ifx info =>
    exact iff_of_true ((updateRouterIntfInfo_updated s vrfId ifx info).exact hi h) trivial
  | updateIntfDesc p desc mem => exact iff_of_true ((updateIntfDesc_updated s p desc mem).exact hi h) trivial

theorem empty_exact : Exact Registry.empty := fun _ =>
  iff_of_false (by simp [Registry.empty]) fun ⟨_, _, hl, _⟩ => by cases hl.2

/-- Over the runs from the empty registry, `if_indexes` is exactly the ifindexes of the
    live records of VRF 0 in every state exactly when every deregistration agrees. -/
theorem ifIndexes_exact_iff (ops : List Op) :
    Runs.Always step Exact Registry.empty ops ↔ Runs.Steps step DeregAgrees Registry.empty ops :=
  Runs.always_iff_steps step_inv step_exact_iff ops _ empty_inv empty_exact

/-- An interface of VRF 0 with ifindex 5. -/
def eth0 : InterfaceCtrl := { InterfaceCtrl.zero with ifName := ['e', 't', 'h', '0'], ifIndex := 5 }

def regThenDereg : List Op := [.register .reg eth0 (some 0), .register .dereg { eth0 with vrfId := 1 } none]

/-- Registered in VRF 0 and deregistered by its name, the detail's VRF being 1: no
    record is left, and 5 stays in `if_indexes`. -/
theorem stale_ifIndex : ¬ Runs.Always step Exact Registry.empty regThenDereg ∧
    (Runs.final step Registry.empty regThenDereg).ifRecords.elems = [] ∧
    (Runs.final step Registry.empty regThenDereg).ifIndexes.elems = [5] := by
  have hnone : (Runs.final step Registry.empty regThenDereg).ifRecords.elems = [] := by decide
  refine ⟨fun h => ?_, hnone, by decide⟩
  obtain ⟨p, r, hl, _⟩ := (h _ (List.prefix_refl _) 5).mp (by decide)
  have hmem := hl.1
  rw [OrdSet.mem_def, hnone] at hmem
  cases hmem

end NasCommon.IfMapping
