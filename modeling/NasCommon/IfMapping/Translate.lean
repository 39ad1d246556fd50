/-
  NasCommon.IfMapping.Translate — names, ifindexes and LAG ids translated through the
  registry (`nas_if_utils.cpp`).

  Each call fills a query struct that is otherwise zero, so it says int_type PORT and
  VRF 0 where the caller says nothing. Queries by name and by ifindex are valid for every
  type, a query by LAG id says LAG, and an ifindex without a VRF is one of VRF 0.
  - `translations_inverse`: in any reachable state the name, the ifindex and the type of
    a live record give each other, the LAG id of one of VRF 0 and its ifindex too, and
    what a call answers is of a live record with what was asked for.
-/

import NasCommon.IfMapping.Query
import NasCommon.IfMapping.Indexes

namespace NasCommon.IfMapping

open Registry

/-- `memset`, the query's fields, `dn_hal_get_interface_info`, and the record read; an
    error is returned as `onErr` says. -/
def translate {α : Type} (q : InterfaceCtrl) (onErr : StdError → StdError) (read : InterfaceCtrl → Except StdError α)
    (s : Registry) : Except StdError α × Registry :=
  match dnHalGetInterfaceInfo q s with
  | (.ok, r, s) => (read r, s)
  | (rc, _, s) => (.error (onErr rc), s)

def nasGetLagIdFromIfIndex (ifIndex : HalIfindex) : Registry → Except StdError UInt64 × Registry :=
  translate { InterfaceCtrl.zero with qType := .fromIf, ifIndex := ifIndex } id fun r =>
    if r.intType ≠ .lag then .error errParam else .ok r.lagId

def nasGetLagIfIndex (ndiLagId : UInt64) : Registry → Except StdError HalIfindex × Registry :=
  translate { InterfaceCtrl.zero with qType := .fromLag, lagId := ndiLagId, intType := .lag } id fun r =>
    if r.intType ≠ .lag then .error errParam else .ok r.ifIndex

section Com

-- A failure's code keeps the number of `rc`; `sz` is `sizeof (if_name)`.
variable (code : StdError → Nat) (sz : Nat)

def failWith (rc : StdError) : StdError := .err .interface .fail (.num (code rc))

/-- What is left in the caller's buffer of `len` characters. -/
def nasComGetIfIndexToName (ifIndex : HalIfindex) (name : CString) (len : Nat) (vrfId : HalVrfId) :
    Registry → Except StdError CString × Registry :=
  translate { InterfaceCtrl.zero with qType := .fromIf, ifIndex := ifIndex, vrfId := vrfId } (failWith code) fun r =>
    .ok (safestrncpy name r.ifName len)

/-- The query by name, as `if_name` holds it. -/
def namedQuery (name : CString) : InterfaceCtrl :=
  { InterfaceCtrl.zero with qType := .fromIfName, ifName := safestrncpy [] name sz }

def nasComGetNameToIfIndex (name : CString) : Registry → Except StdError HalIfindex × Registry :=
  translate (namedQuery sz name) (failWith code) fun r => .ok r.ifIndex

def nasComGetIfType (name : CString) : Registry → Except StdError NasIntType × Registry :=
  translate (namedQuery sz name) (failWith code) fun r => .ok r.intType

end Com

/-! ## Two halves of a key -/

theorem toNat_mkKey2 (lhs rhs : UInt32) : (mkKey2 lhs rhs).toNat = lhs.toNat <<< 32 + rhs.toNat := by
  have hl := lhs.toNat_lt
  have h32 : (32 : UInt64).toNat % 64 = 32 := rfl
  rw [mkKey2, UInt64.toNat_or, UInt64.toNat_shiftLeft, UInt32.toNat_toUInt64, UInt32.toNat_toUInt64, h32,
    Nat.mod_eq_of_lt (by rw [Nat.shiftLeft_eq]; omega), ← Nat.shiftLeft_add_eq_or_of_lt rhs.toNat_lt]

theorem mkKey2_inj {a b c d : UInt32} (h : mkKey2 a b = mkKey2 c d) : a = c ∧ b = d := by
  have hn := congrArg UInt64.toNat h
  have hb := b.toNat_lt
  have hd := d.toNat_lt
  rw [toNat_mkKey2, toNat_mkKey2, Nat.shiftLeft_eq, Nat.shiftLeft_eq] at hn
  exact ⟨UInt32.toNat_inj.mp (by omega), UInt32.toNat_inj.mp (by omega)⟩

/-- So a key by ifindex says the VRF and the ifindex. -/
theorem mkKey_fromIf_inj {q r : InterfaceCtrl} (h : mkKey .fromIf q = mkKey .fromIf r) :
    q.vrfId = r.vrfId ∧ q.ifIndex = r.ifIndex := by
  obtain ⟨hv, hi⟩ := mkKey2_inj h
  refine ⟨hv, ?_⟩
  cases hq : q.ifIndex
  cases hr : r.ifIndex
  rw [hq, hr] at hi
  exact congrArg Int32.ofUInt32 hi

/-! ## What a query finds -/

theorem finds_name {q r : InterfaceCtrl} : Finds .fromIfName q r ↔ r.ifName = q.ifName ∧ q.ifName ≠ [] := by
  simp only [Finds, if_true, nameOf_eq_some]

theorem finds_ifIndex {q r : InterfaceCtrl} :
    Finds .fromIf q r ↔ r.vrfId = q.vrfId ∧ r.ifIndex = q.ifIndex ∧ mkKey .fromIf r ≠ invalidKey := by
  simp only [Finds, reduceCtorEq, if_false, keyOf_eq_some]
  constructor
  · intro h
    obtain ⟨k, ⟨-, hq, hk⟩, -, hr, -⟩ := h
    obtain ⟨hv, hx⟩ := mkKey_fromIf_inj (hr.trans hq.symm)
    exact ⟨hv, hx, hr ▸ hk⟩
  · intro h
    obtain ⟨hv, hx, hk⟩ := h
    have he : mkKey .fromIf q = mkKey .fromIf r := by rw [mkKey, mkKey, hv, hx]
    exact ⟨mkKey .fromIf r, ⟨rfl, he, hk⟩, rfl, rfl, hk⟩

theorem finds_lag {q r : InterfaceCtrl} (hq : q.intType = .lag) :
    Finds .fromLag q r ↔ r.intType = .lag ∧ r.lagId = q.lagId ∧ q.lagId ≠ invalidKey := by
  simp only [Finds, reduceCtorEq, if_false, keyOf_eq_some, mkKey, queryValid, hq, decide_eq_true_eq, true_and]
  constructor
  · intro h
    obtain ⟨k, ⟨hk, hne⟩, hr, hkr, -⟩ := h
    exact ⟨hr, hkr.trans hk.symm, hk ▸ hne⟩
  · intro h
    obtain ⟨hr, hk, hne⟩ := h
    exact ⟨q.lagId, ⟨rfl, hne⟩, hr, hk, hne⟩

/-- A call succeeds just where a live record is found whose reading does, and changes
    nothing. -/
theorem Inv.translate_ok {s s' : Registry} (hi : Inv s) {α : Type} {q : InterfaceCtrl} {onErr : StdError → StdError}
    {read : InterfaceCtrl → Except StdError α} {a : α} (hq : q.qType ≠ .fromPort) :
    translate q onErr read s = (.ok a, s') ↔ s' = s ∧ ∃ p r, Live s p r ∧ Finds q.qType q r ∧ read r = .ok a := by
  have hasked : asked q = q := if_neg hq
  cases hl : s.locate q.qType q with
  | none =>
    have hno : dnHalGetInterfaceInfo q s = (errParam, q, s) := by
      rw [dnHalGetInterfaceInfo_none (by rw [hasked, hl]), hasked]
    refine iff_of_false (by simp [translate, hno, errParam]) fun ⟨_, p, r, hlive, hf, _⟩ => ?_
    rw [hi.locate_iff.mpr ⟨r, hlive.2, hf⟩] at hl
    cases hl
  | some p =>
    obtain ⟨r, hr, hf⟩ := hi.locate_iff.mp hl
    have hsome : dnHalGetInterfaceInfo q s = (.ok, r, s) := dnHalGetInterfaceInfo_some (by rw [hasked, hl]) hr
    simp only [translate, hsome, Prod.mk.injEq]
    refine ⟨fun ⟨ha, hs⟩ => ⟨hs.symm, p, r, hi.live.mpr hr, hf, ha⟩,
      fun ⟨hs, p', r', hlive, hf', ha⟩ => ?_⟩
    rw [hi.locate_iff.mpr ⟨r', hlive.2, hf'⟩] at hl
    cases hl
    rw [hlive.2] at hr; cases hr
    exact ⟨ha, hs.symm⟩

/-! ## Each translation -/

section Specs

variable {s s' : Registry} (code : StdError → Nat) (sz : Nat)

theorem nasComGetNameToIfIndex_ok (hi : Inv s) {name : CString} {i : HalIfindex} :
    nasComGetNameToIfIndex code sz name s = (.ok i, s') ↔ s' = s ∧ ∃ p r, Live s p r ∧
      (r.ifName = safestrncpy [] name sz ∧ safestrncpy [] name sz ≠ []) ∧ r.ifIndex = i := by
  rw [nasComGetNameToIfIndex, hi.translate_ok (by simp [namedQuery])]
  simp only [namedQuery, finds_name, Except.ok.injEq]

theorem nasComGetIfType_ok (hi : Inv s) {name : CString} {t : NasIntType} :
    nasComGetIfType code sz name s = (.ok t, s') ↔ s' = s ∧ ∃ p r, Live s p r ∧
      (r.ifName = safestrncpy [] name sz ∧ safestrncpy [] name sz ≠ []) ∧ r.intType = t := by
  rw [nasComGetIfType, hi.translate_ok (by simp [namedQuery])]
  simp only [namedQuery, finds_name, Except.ok.injEq]

theorem nasComGetIfIndexToName_ok (hi : Inv s) {i : HalIfindex} {name out : CString} {len : Nat} {v : HalVrfId} :
    nasComGetIfIndexToName code i name len v s = (.ok out, s') ↔ s' = s ∧ ∃ p r, Live s p r ∧
      (r.vrfId = v ∧ r.ifIndex = i ∧ mkKey .fromIf r ≠ invalidKey) ∧ safestrncpy name r.ifName len = out := by
  rw [nasComGetIfIndexToName, hi.translate_ok (by simp)]
  simp only [finds_ifIndex, Except.ok.injEq]

theorem nasGetLagIfIndex_ok (hi : Inv s) {lagId : UInt64} {i : HalIfindex} :
    nasGetLagIfIndex lagId s = (.ok i, s') ↔ s' = s ∧ ∃ p r, Live s p r ∧
      (r.intType = .lag ∧ r.lagId = lagId ∧ lagId ≠ invalidKey) ∧ r.ifIndex = i := by
  rw [nasGetLagIfIndex, hi.translate_ok (by simp)]
  simp only [finds_lag]
  refine and_congr_right fun _ => exists_congr fun _ => exists_congr fun r => and_congr_right fun _ => ?_
  refine and_congr_right fun hf => ?_
  rw [if_neg (not_not_intro hf.1), Except.ok.injEq]

/-- The record found must be a LAG besides. -/
theorem nasGetLagIdFromIfIndex_ok (hi : Inv s) {i : HalIfindex} {lagId : UInt64} :
    nasGetLagIdFromIfIndex i s = (.ok lagId, s') ↔ s' = s ∧ ∃ p r, Live s p r ∧
      (r.vrfId = 0 ∧ r.ifIndex = i ∧ mkKey .fromIf r ≠ invalidKey) ∧ r.intType = .lag ∧ r.lagId = lagId := by
  rw [nasGetLagIdFromIfIndex, hi.translate_ok (by simp)]
  simp only [finds_ifIndex]
  refine and_congr_right fun _ => exists_congr fun _ => exists_congr fun r => and_congr_right fun _ => ?_
  refine and_congr Iff.rfl ?_
  by_cases hr : r.intType = .lag
  · simp only [hr, ne_eq, not_true_eq_false, if_false, Except.ok.injEq, true_and]
  · simp only [ne_eq, hr, not_false_eq_true, if_true, reduceCtorEq, false_and]

end Specs

/-- In any reachable state, a live record with a name, and a key by its ifindex, is
    translated from its name to its ifindex and type, and back to its name in a buffer
    that holds it. For a LAG of VRF 0 the LAG id gives an ifindex that gives the LAG id.
    Any answer is what a live record says that has the name, the VRF and ifindex or the
    LAG id asked for. No call changes anything. -/
theorem translations_inverse (code : StdError → Nat) (sz : Nat) (ops : List Op) :
    let s := Runs.final step Registry.empty ops
    (∀ p r, Live s p r → r.ifName ≠ [] → r.ifName.length < sz → mkKey .fromIf r ≠ invalidKey →
      nasComGetNameToIfIndex code sz r.ifName s = (.ok r.ifIndex, s) ∧
      (∀ name len, r.ifName.length < len →
        nasComGetIfIndexToName code r.ifIndex name len r.vrfId s = (.ok r.ifName, s)) ∧
      nasComGetIfType code sz r.ifName s = (.ok r.intType, s)) ∧
    (∀ p r, Live s p r → r.intType = .lag → r.vrfId = 0 → r.lagId ≠ invalidKey →
      ∃ i, nasGetLagIfIndex r.lagId s = (.ok i, s) ∧ nasGetLagIdFromIfIndex i s = (.ok r.lagId, s)) ∧
    (∀ name i s', nasComGetNameToIfIndex code sz name s = (.ok i, s') →
      ∃ p r, Live s p r ∧ r.ifName = safestrncpy [] name sz ∧ r.ifIndex = i) ∧
    (∀ i name len v out s', nasComGetIfIndexToName code i name len v s = (.ok out, s') →
      ∃ p r, Live s p r ∧ r.vrfId = v ∧ r.ifIndex = i ∧ out = safestrncpy name r.ifName len) ∧
    (∀ name t s', nasComGetIfType code sz name s = (.ok t, s') →
      ∃ p r, Live s p r ∧ r.ifName = safestrncpy [] name sz ∧ r.intType = t) ∧
    (∀ lagId i s', nasGetLagIfIndex lagId s = (.ok i, s') →
      ∃ p r, Live s p r ∧ r.intType = .lag ∧ r.lagId = lagId ∧ r.ifIndex = i) ∧
    (∀ i lagId s', nasGetLagIdFromIfIndex i s = (.ok lagId, s') →
      ∃ p r, Live s p r ∧ r.vrfId = 0 ∧ r.ifIndex = i ∧ r.intType = .lag ∧ r.lagId = lagId) := by
  intro s
  have hi : Inv s := run_inv ops
  refine ⟨fun p r hl hne hsz hkey => ?_, fun p r hl ht hv hlag => ?_, fun name i s' h => ?_,
    fun i name len v out s' h => ?_, fun name t s' h => ?_, fun lagId i s' h => ?_, fun i lagId s' h => ?_⟩
  · -- the name fits the query struct, so it is looked up whole
    have hname : r.ifName = safestrncpy [] r.ifName sz := (safestrncpy_fits hsz).symm
    have hfound : r.ifName = safestrncpy [] r.ifName sz ∧ safestrncpy [] r.ifName sz ≠ [] := ⟨hname, hname ▸ hne⟩
    refine ⟨(nasComGetNameToIfIndex_ok code sz hi).mpr ⟨rfl, p, r, hl, hfound, rfl⟩, fun name len hlen => ?_,
      (nasComGetIfType_ok code sz hi).mpr ⟨rfl, p, r, hl, hfound, rfl⟩⟩
    exact (nasComGetIfIndexToName_ok code hi).mpr ⟨rfl, p, r, hl, ⟨rfl, rfl, hkey⟩, safestrncpy_fits hlen⟩
  · -- in VRF 0 every ifindex is a key
    have hkey : mkKey .fromIf r ≠ invalidKey := (keyOf_eq_some.mp (keyOf_fromIf hv)).2.1 ▸ toUInt64_ne_invalidKey _
    exact ⟨r.ifIndex, (nasGetLagIfIndex_ok hi).mpr ⟨rfl, p, r, hl, ⟨ht, rfl, hlag⟩, rfl⟩,
      (nasGetLagIdFromIfIndex_ok hi).mpr ⟨rfl, p, r, hl, ⟨hv, rfl, hkey⟩, ht, rfl⟩⟩
  · obtain ⟨-, p, r, hl, ⟨hn, -⟩, hx⟩ := (nasComGetNameToIfIndex_ok code sz hi).mp h
    exact ⟨p, r, hl, hn, hx⟩
  · obtain ⟨-, p, r, hl, ⟨hv, hx, -⟩, hout⟩ := (nasComGetIfIndexToName_ok code hi).mp h
    exact ⟨p, r, hl, hv, hx, hout.symm⟩
  · obtain ⟨-, p, r, hl, ⟨hn, -⟩, ht⟩ := (nasComGetIfType_ok code sz hi).mp h
    exact ⟨p, r, hl, hn, ht⟩
  · obtain ⟨-, p, r, hl, ⟨ht, hlag, -⟩, hx⟩ := (nasGetLagIfIndex_ok hi).mp h
    exact ⟨p, r, hl, ht, hlag, hx⟩
  · obtain ⟨-, p, r, hl, ⟨hv, hx, -⟩, ht, hlag⟩ := (nasGetLagIdFromIfIndex_ok hi).mp h
    exact ⟨p, r, hl, hv, hx, ht, hlag⟩

/-- A LAG of VRF 0. -/
def bond1 : InterfaceCtrl :=
  { InterfaceCtrl.zero with ifName := ['b', 'o', 'n', 'd', '1'], intType := .lag, lagId := 7, ifIndex := 5 }

/-- Beside a port of VRF 1 with the same ifindex. -/
def regBond : List Op := [.register .reg { eth0 with vrfId := 1 } (some 0), .register .reg bond1 (some 1)]

/-- The LAG and its ifindex are translated to each other, and the port of VRF 1 to its
    name. -/
theorem translations_inverse_bond :
    let s := Runs.final step Registry.empty regBond
    (∃ i, nasGetLagIfIndex 7 s = (.ok i, s) ∧ nasGetLagIdFromIfIndex i s = (.ok 7, s)) ∧
      nasComGetIfIndexToName (fun _ => 1) 5 [] 16 1 s = (.ok eth0.ifName, s) ∧
      ∃ p r, Live s p r ∧ r.ifName = eth0.ifName ∧ r.ifIndex = 5 := by
  intro s
  obtain ⟨hname, hlag, hconv, -⟩ := translations_inverse (fun _ => 1) 16 regBond
  obtain ⟨hindex, hback, -⟩ :=
    hname 0 { eth0 with vrfId := 1 } ⟨by decide, by decide⟩ (by decide) (by decide) (by decide)
  refine ⟨hlag 1 bond1 ⟨by decide, by decide⟩ (by decide) (by decide) (by decide), hback [] 16 (by decide), ?_⟩
  exact hconv eth0.ifName 5 _ hindex

end NasCommon.IfMapping
