/-
  NasCommon.IfMapping.Query — asking for an interface by one of its keys
  (`dn_hal_get_interface_info`).

  `_mk_key` gives a port's or a tap's key only of a struct that says `port_mapped`. The
  call sets it for a query by port ("the interface should be mapped interface"), and not
  for one by tap, so a query that says no more than its key finds no interface by its
  tap id.
  - `query_own_key_iff`: in any reachable state, a query with one of a live record's own
    keys alone is answered with the record exactly when the key is not the tap id.
  - `tap_not_found`: a mapped port with a tap id, registered and asked for by it.
-/

import NasCommon.IfMapping.Coherence

namespace NasCommon.IfMapping

open Registry

/-- What a query by port says besides its key. -/
def asked (p : InterfaceCtrl) : InterfaceCtrl := if p.qType = .fromPort then { p with portMapped := true } else p

/-- The error, the struct and the registry after the call. -/
def dnHalGetInterfaceInfo (p : InterfaceCtrl) (s : Registry) : StdError × InterfaceCtrl × Registry :=
  let p := asked p
  match s.locate p.qType p with
  | none => (errParam, p, s)
  | some ptr =>
    match s.heap ptr with
    | none => (.ok, p, { s with fault := true })
    | some _p => (.ok, _p, s)

/-- A query struct with the type, the interface's type and the interface's key, and zero
    elsewhere. -/
def queryBy (t : IntfInfo) (r : InterfaceCtrl) : InterfaceCtrl :=
  let q := { InterfaceCtrl.zero with qType := t, intType := r.intType }
  match t with
  | .fromPort => { q with npuId := r.npuId, portId := r.portId }
  | .fromIf => { q with vrfId := r.vrfId, ifIndex := r.ifIndex }
  | .fromTap => { q with tapId := r.tapId }
  | .fromIfName => { q with ifName := r.ifName }
  | .fromVlan => { q with vlanId := r.vlanId }
  | .fromLag => { q with lagId := r.lagId }
  | .fromBridgeId => { q with bridgeId := r.bridgeId }
  | .unset => q

/-- The index of query type `t` has an entry for `p`. -/
def Indexed (s : Registry) (t : IntfInfo) (p : Ptr) : Prop :=
  (∃ k, s.ifMappings t k = some p) ∨ (t = .fromIfName ∧ ∃ name, s.ifNameMap name = some p)

theorem Inv.indexed_hasKey {s : Registry} (hi : Inv s) {t : IntfInfo} {p : Ptr} {r : InterfaceCtrl}
    (hp : s.heap p = some r) (h : Indexed s t p) : hasKey t r = true := by
  rcases h with ⟨k, hk⟩ | ⟨rfl, name, hn⟩
  · obtain ⟨r', hr', hkey⟩ := (hi.keys t k p).mp hk
    rw [hp] at hr'; cases hr'
    exact hasKey_of_keyOf hkey
  · obtain ⟨r', hr', hname⟩ := (hi.names name p).mp hn
    rw [hp] at hr'; cases hr'
    simp [hasKey, hname]

/-! ## What a query finds -/

theorem dnHalGetInterfaceInfo_none {q : InterfaceCtrl} {s : Registry}
    (h : s.locate (asked q).qType (asked q) = none) : dnHalGetInterfaceInfo q s = (errParam, asked q, s) := by
  simp only [dnHalGetInterfaceInfo, h]

theorem dnHalGetInterfaceInfo_some {q : InterfaceCtrl} {s : Registry} {p : Ptr} {r : InterfaceCtrl}
    (h : s.locate (asked q).qType (asked q) = some p) (hp : s.heap p = some r) :
    dnHalGetInterfaceInfo q s = (.ok, r, s) := by
  simp only [dnHalGetInterfaceInfo, h, hp]

theorem asked_queryBy_qType (t : IntfInfo) (r : InterfaceCtrl) : (asked (queryBy t r)).qType = t := by
  cases t <;> rfl

/-- Only a mapped port has a key by its port. -/
theorem portMapped_of_hasKey {r : InterfaceCtrl} (h : hasKey .fromPort r = true) : r.portMapped = true := by
  by_contra hno
  have hkey := keyOf_of_hasKey (by decide) h
  exact (keyOf_eq_some.mp hkey).2.2 (by simp [mkKey, hno])

/-- But for the tap id, the query's key is the record's. -/
theorem locate_queryBy (s : Registry) {t : IntfInfo} {r : InterfaceCtrl} (ht : t ≠ .fromTap) (hk : hasKey t r = true) :
    s.locate t (asked (queryBy t r)) = s.locate t r := by
  cases t with
  | fromPort => simp [locate, asked, queryBy, mkKey, portMapped_of_hasKey hk]
  | fromTap => exact absurd rfl ht
  | fromIf => rfl
  | fromIfName => rfl
  | fromVlan => rfl
  | fromLag => rfl
  | fromBridgeId => rfl
  | unset => rfl

/-- With the tap id, it has no key: the struct does not say `port_mapped`. -/
theorem locate_queryBy_fromTap (s : Registry) (r : InterfaceCtrl) :
    s.locate .fromTap (asked (queryBy .fromTap r)) = none := by
  simp [locate, asked, queryBy, mkKey, InterfaceCtrl.zero]

/-- For every live record and every query type under whose index it is: the query by
    that key alone succeeds with a copy of the record exactly when it is not by tap. -/
theorem query_own_key_iff (ops : List Op) (p : Ptr) (r : InterfaceCtrl) (t : IntfInfo)
    (hlive : Live (Runs.final step Registry.empty ops) p r) (hindexed : Indexed (Runs.final step Registry.empty ops) t p) :
    (dnHalGetInterfaceInfo (queryBy t r) (Runs.final step Registry.empty ops)).1 = .ok ∧
      (dnHalGetInterfaceInfo (queryBy t r) (Runs.final step Registry.empty ops)).2.1 = r ↔ t ≠ .fromTap := by
  have hi := run_inv ops
  generalize Runs.final step Registry.empty ops = s at *
  have hk := hi.indexed_hasKey hlive.2 hindexed
  by_cases ht : t = .fromTap
  · subst ht
    have hnone : s.locate (asked (queryBy .fromTap r)).qType (asked (queryBy .fromTap r)) = none := by
      rw [asked_queryBy_qType, locate_queryBy_fromTap]
    rw [dnHalGetInterfaceInfo_none hnone]
    exact iff_of_false (fun h => by cases h.1) (fun h => h rfl)
  · have hsome : s.locate (asked (queryBy t r)).qType (asked (queryBy t r)) = some p := by
      rw [asked_queryBy_qType, locate_queryBy s ht hk, hi.locate_own hlive.2 hk]
    rw [dnHalGetInterfaceInfo_some hsome hlive.2]
    exact iff_of_true ⟨rfl, rfl⟩ ht

/-- A port mapped to port 3 of NPU 0, with tap id 9. -/
def tapPort : InterfaceCtrl :=
  { InterfaceCtrl.zero with ifName := ['e', '1'], portMapped := true, portId := 3, ifIndex := 5, tapId := 9 }

def regTapPort : Registry := Runs.final step Registry.empty [.register .reg tapPort (some 0)]

/-- By its port it is found. -/
theorem query_own_key_port :
    (dnHalGetInterfaceInfo (queryBy .fromPort tapPort) regTapPort).1 = .ok ∧
      (dnHalGetInterfaceInfo (queryBy .fromPort tapPort) regTapPort).2.1 = tapPort :=
  (query_own_key_iff [.register .reg tapPort (some 0)] 0 tapPort .fromPort ⟨by decide, by decide⟩
    (Or.inl ⟨3, by decide⟩)).mpr (by decide)

/-- It is indexed by its tap id, and not found by it. -/
theorem tap_not_found : Live regTapPort 0 tapPort ∧ Indexed regTapPort .fromTap 0 ∧
    (dnHalGetInterfaceInfo (queryBy .fromTap tapPort) regTapPort).1 = errParam :=
  ⟨⟨by decide, by decide⟩, Or.inl ⟨9, by decide⟩, by decide⟩

end NasCommon.IfMapping
