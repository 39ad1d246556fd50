/-
  NasCommon.IfMapping.Mac — reading an interface's MAC (`nas_if_utils.cpp`).

  `dn_hal_update_intf_mac` writes the MAC of the interface with an ifindex in VRF 0. It
  is read as a text by the interface's name, and as an address by the ifindex.
  - `mac_read_back`: from any reachable state, a MAC that was written is what both read,
    after any further calls but one that deregisters the interface, by whichever of its
    keys, or writes its MAC again.
-/

import NasCommon.IfMapping.Ports

namespace NasCommon.IfMapping

open Registry

/-- The codes of the MAC getters, `STD_ERR (INTERFACE, .., 0)`. -/
inductive MacErr where
  | param
  | cfg
  | fail
  deriving DecidableEq, Repr

-- `sz` is `sizeof (if_name)`
variable (sz : Nat)

/-- `dn_hal_get_intf_mac_addr_str`: `mac` is the caller's buffer, if any. -/
def dnHalGetIntfMacAddrStr (name : CString) (mac : Option CString) (s : Registry) : Except MacErr CString × Registry :=
  match mac with
  | none => (.error .param, s)
  | some mac =>
    match dnHalGetInterfaceInfo (namedQuery sz name) s with
    | (.ok, _intf, s) => (.ok (safestrncpy mac _intf.macAddr macStrSz), s)
    | (_, _, s) => (.error .cfg, s)

/-- `dn_hal_get_interface_mac`: `buffer` says whether the caller gives one, and
    `stdStringToMac` is `std_string_to_mac`. -/
def dnHalGetInterfaceMac {MacAddr : Type} (stdStringToMac : CString → Option MacAddr) (ifIndex : HalIfindex) (buffer : Bool)
    (s : Registry) : Except MacErr MacAddr × Registry :=
  if ¬ buffer then (.error .param, s)
  else
    match dnHalGetInterfaceInfo { InterfaceCtrl.zero with ifIndex := ifIndex, qType := .fromIf } s with
    | (.ok, _intf, s) =>
      (match stdStringToMac _intf.macAddr with
        | some addr => .ok addr
        | none => .error .fail, s)
    | (_, _, s) => (.error .cfg, s)

/-! ## The interface -/

/-- The interface at `p` is the one with the ifindex in VRF 0, and has the MAC. -/
def HasMac (p : Ptr) (ifx : HalIfindex) (mac : CString) (s : Registry) : Prop :=
  ∃ r, s.heap p = some r ∧ r.vrfId = 0 ∧ r.ifIndex = ifx ∧ r.macAddr = mac

/-- The query of `dn_hal_update_intf_mac` and of `dn_hal_get_interface_mac`. -/
def ifxQuery (ifx : HalIfindex) : InterfaceCtrl := { InterfaceCtrl.zero with ifIndex := ifx, qType := .fromIf }

/-- In VRF 0 every ifindex is a key. -/
theorem finds_ifxQuery {ifx : HalIfindex} {r : InterfaceCtrl} :
    Finds .fromIf (ifxQuery ifx) r ↔ r.vrfId = 0 ∧ r.ifIndex = ifx := by
  rw [finds_ifIndex]
  refine and_congr_right fun hv => and_iff_left ?_
  exact (keyOf_eq_some.mp (keyOf_fromIf hv)).2.1 ▸ toUInt64_ne_invalidKey _

theorem HasMac.locate {p : Ptr} {ifx : HalIfindex} {mac : CString} {s : Registry} (h : HasMac p ifx mac s) (hi : Inv s) :
    s.locate .fromIf (ifxQuery ifx) = some p := by
  obtain ⟨r, hr, hv, hx, -⟩ := h
  exact hi.locate_iff.mpr ⟨r, hr, finds_ifxQuery.mpr ⟨hv, hx⟩⟩

/-- A call that neither deregisters the interface nor writes its MAC. -/
def KeepsMac (ifx : HalIfindex) (s : Registry) : Op → Prop
  | .register .dereg detail _ => s.locateAny detail ≠ s.locate .fromIf (ifxQuery ifx)
  | .updateIntfMac i _ => i ≠ ifx
  | _ => True

/-! ## One call -/

section Step

variable {p : Ptr} {ifx : HalIfindex} {mac : CString} {s s' : Registry}

theorem HasMac.of_heap (h : HasMac p ifx mac s) (hheap : s'.heap p = s.heap p) : HasMac p ifx mac s' := by
  obtain ⟨r, hr, hrest⟩ := h
  exact ⟨r, hheap.trans hr, hrest⟩

/-- A record is changed, in neither its VRF, its ifindex nor its MAC if it is the interface's. -/
theorem HasMac.put (h : HasMac p ifx mac s) {q : Ptr} {r : InterfaceCtrl} (r' : InterfaceCtrl) (hq : s.heap q = some r)
    (hheap : s'.heap = Function.update s.heap q (some r'))
    (hsame : q = p → r'.vrfId = r.vrfId ∧ r'.ifIndex = r.ifIndex ∧ r'.macAddr = r.macAddr) : HasMac p ifx mac s' := by
  by_cases hqp : q = p
  · obtain ⟨r0, hr0, hv, hx, hm⟩ := h
    obtain ⟨hv', hx', hm'⟩ := hsame hqp
    rw [← hqp, hq] at hr0
    cases hr0
    refine ⟨r', ?_, hv'.trans hv, hx'.trans hx, hm'.trans hm⟩
    rw [hheap, hqp, Function.update_self]
  · refine h.of_heap ?_
    rw [hheap, Function.update_of_ne (Ne.symm hqp)]

theorem HasMac.updateLocated (h : HasMac p ifx mac s) {q : InterfaceCtrl}
    {change : Ptr → InterfaceCtrl → Registry → StdError × Registry}
    (hchange : ∀ p' r, s.locate q.qType q = some p' → s.heap p' = some r → HasMac p ifx mac (change p' r s).2) :
    HasMac p ifx mac (updateLocated q change s).2 := by
  unfold IfMapping.updateLocated
  cases hl : s.locate q.qType q with
  | none => exact h
  | some p' =>
    cases hp : s.heap p' with
    | none =>
      simp only [hp]
      exact h.of_heap rfl
    | some r =>
      simp only [hp]
      exact hchange p' r hl hp

theorem HasMac.updateIntfMac (h : HasMac p ifx mac s) (hi : Inv s) {i : HalIfindex} (hne : i ≠ ifx) (mac' : CString) :
    HasMac p ifx mac (dnHalUpdateIntfMac i mac' s).2 := by
  refine h.updateLocated fun p' r hl hp => h.put _ hp rfl fun heq => absurd ?_ hne
  -- what is located has the other ifindex
  obtain ⟨r', hr', hf⟩ := hi.locate_iff.mp hl
  obtain ⟨-, hx', -⟩ := finds_ifIndex.mp hf
  obtain ⟨r0, hr0, -, hx, -⟩ := h
  rw [heq, hr0] at hr'
  cases hr'
  exact hx'.symm.trans hx

theorem HasMac.updateRouterIntfInfo (h : HasMac p ifx mac s) (vrfId : HalVrfId) (i : HalIfindex) (info : L3IntfInfo) :
    HasMac p ifx mac (nasCmnUpdateRouterIntfInfo vrfId i info s).2 :=
  h.updateLocated fun _ _ _ hp => h.put _ hp rfl fun _ => ⟨rfl, rfl, rfl⟩

theorem HasMac.updateIntfDesc (h : HasMac p ifx mac s) (q : InterfaceCtrl) (desc : CString) (mem : Option DescPtr) :
    HasMac p ifx mac (dnHalUpdateIntfDesc q desc mem s).2 := by
  unfold dnHalUpdateIntfDesc
  split
  · exact h
  · refine h.updateLocated fun p' r _ hp => ?_
    simp only
    split
    · exact h.put { r with desc := none } hp (by simp only [deleteDesc_heap]) fun _ => ⟨rfl, rfl, rfl⟩
    split
    · exact h.of_heap (by simp)
    · rename_i d _
      exact h.put { r with desc := some d } hp (by simp only [deleteDesc_heap]) fun _ => ⟨rfl, rfl, rfl⟩

theorem HasMac.register (h : HasMac p ifx mac s) (hi : Inv s) (detail : InterfaceCtrl) (mem : Option Ptr) :
    HasMac p ifx mac (dnHalIfRegister .reg detail mem s).2 := by
  rcases register_cases hi detail mem with hs | ⟨q, -, hfree, -, -, hs⟩
  · rw [hs]
    exact h
  · rw [hs, addAll_spec]
    refine h.of_heap (Function.update_of_ne ?_ _ _)
    rintro rfl
    obtain ⟨r, hr, -⟩ := h
    rw [hfree] at hr
    cases hr

theorem HasMac.deregister (h : HasMac p ifx mac s) {detail : InterfaceCtrl} (hne : s.locateAny detail ≠ some p)
    (mem : Option Ptr) : HasMac p ifx mac (dnHalIfRegister .dereg detail mem s).2 := by
  show HasMac p ifx mac (s.cleanup detail)
  unfold Registry.cleanup
  cases hl : s.locateAny detail with
  | none => exact h
  | some q =>
    cases hq : s.heap q with
    | none =>
      simp only [hq]
      exact h.of_heap rfl
    | some r =>
      simp only [hq]
      refine h.of_heap ?_
      rw [(cleanupAt_spec s detail q r).1]
      refine Function.update_of_ne ?_ _ _
      rintro rfl
      exact hne hl

theorem HasMac.step (h : HasMac p ifx mac s) (hi : Inv s) (op : Op) (hkeeps : KeepsMac ifx s op) :
    HasMac p ifx mac (step s op).2 := by
  cases op with
  | register regOpt detail mem =>
    cases regOpt with
    | reg => exact h.register hi detail mem
    | dereg =>
      have hne : s.locateAny detail ≠ s.locate .fromIf (ifxQuery ifx) := hkeeps
      rw [h.locate hi] at hne
      exact h.deregister hne mem
  | updateIntfMac i mac' => exact h.updateIntfMac hi hkeeps mac'
  | updateRouterIntfInfo vrfId i info => exact h.updateRouterIntfInfo vrfId i info
  | updateIntfDesc q desc mem => exact h.updateIntfDesc q desc mem

/-- A MAC's text is cut once. -/
theorem safestrncpy_mac (buf mac : CString) :
    safestrncpy buf (mac.take (macStrSz - 1)) macStrSz = mac.take (macStrSz - 1) := by
  rw [safestrncpy, if_neg (by decide), List.take_take, Nat.min_self]

/-- What an update that succeeds writes. -/
theorem hasMac_updated (hi : Inv s) (hok : (dnHalUpdateIntfMac ifx mac s).1 = .ok) :
    ∃ p, HasMac p ifx (mac.take (macStrSz - 1)) (dnHalUpdateIntfMac ifx mac s).2 := by
  obtain ⟨p, r, hr, hf, hdone⟩ : ∃ p r, s.heap p = some r ∧ Finds .fromIf (ifxQuery ifx) r ∧
      (dnHalUpdateIntfMac ifx mac s).2.heap =
        Function.update s.heap p (some { r with macAddr := safestrncpy r.macAddr (safestrncpy [] mac macStrSz) macStrSz }) := by
    unfold dnHalUpdateIntfMac dnHalUpdateInterface updateLocated at hok ⊢
    split at hok
    · cases hok
    · rename_i p hl
      obtain ⟨r, hr, hf⟩ := hi.locate_iff.mp hl
      exact ⟨p, r, hr, hf, by simp only [hr]⟩
  obtain ⟨hv, hx⟩ := finds_ifxQuery.mp hf
  refine ⟨p, { r with macAddr := safestrncpy r.macAddr (safestrncpy [] mac macStrSz) macStrSz }, ?_, hv, hx, ?_⟩
  · rw [hdone, Function.update_self]
  · exact safestrncpy_mac r.macAddr mac

end Step

/-! ## Reading it -/

/-- From any reachable state, a MAC whose update succeeded is read back, cut to what the
    text holds, after any calls that keep it: as an address by the ifindex, and as a text
    by the name of the interface, where it has one that fits a query. -/
theorem mac_read_back {MacAddr : Type} (stdStringToMac : CString → Option MacAddr) (hist calls : List Op) (ifx : HalIfindex)
    (mac : CString) (hok : (dnHalUpdateIntfMac ifx mac (Runs.final step Registry.empty hist)).1 = .ok)
    (hkeeps : Runs.Steps step (KeepsMac ifx) (dnHalUpdateIntfMac ifx mac (Runs.final step Registry.empty hist)).2 calls) :
    let s := Runs.final step (dnHalUpdateIntfMac ifx mac (Runs.final step Registry.empty hist)).2 calls
    dnHalGetInterfaceMac stdStringToMac ifx true s = (match stdStringToMac (mac.take (macStrSz - 1)) with
        | some addr => .ok addr
        | none => .error .fail, s) ∧
      ∃ p r, Live s p r ∧ r.vrfId = 0 ∧ r.ifIndex = ifx ∧
        (r.ifName ≠ [] → r.ifName.length < sz → ∀ buf,
          dnHalGetIntfMacAddrStr sz r.ifName (some buf) s = (.ok (mac.take (macStrSz - 1)), s)) := by
  have hinv := run_inv hist
  generalize Runs.final step Registry.empty hist = s0 at hinv hok hkeeps ⊢
  intro s
  obtain ⟨p, hmac⟩ := hasMac_updated hinv hok
  have hi0 : Inv (dnHalUpdateIntfMac ifx mac s0).2 := (updateIntfMac_updated s0 ifx mac).inv hinv
  obtain ⟨hi, hs⟩ : Inv s ∧ HasMac p ifx (mac.take (macStrSz - 1)) s :=
    Runs.final_of_steps (I := fun s => Inv s ∧ HasMac p ifx (mac.take (macStrSz - 1)) s)
      (fun s op h hk => ⟨step_inv s op h.1, h.2.step h.1 op hk⟩) calls _ ⟨hi0, hmac⟩ hkeeps
  obtain ⟨r, hr, hv, hx, hm⟩ := id hs
  refine ⟨?_, p, r, hi.live.mpr hr, hv, hx, fun hne hsz buf => ?_⟩
  · have hget := dnHalGetInterfaceInfo_some (q := ifxQuery ifx) (hs.locate hi) hr
    unfold dnHalGetInterfaceMac
    simp only [ifxQuery] at hget
    simp only [not_true, if_false, hget, hm]
  · have hname : safestrncpy [] r.ifName sz = r.ifName := safestrncpy_fits hsz
    have hl : s.locate .fromIfName (namedQuery sz r.ifName) = some p := by
      refine hi.locate_iff.mpr ⟨r, hr, finds_name.mpr ?_⟩
      rw [namedQuery, hname]
      exact ⟨rfl, hne⟩
    have hget := dnHalGetInterfaceInfo_some (q := namedQuery sz r.ifName) hl hr
    unfold dnHalGetIntfMacAddrStr
    simp only [hget, hm, safestrncpy_mac]

/-- The MAC of e1 among calls on another interface. -/
def othersOfE1 : List Op :=
  [.register .reg { eth0 with ifIndex := 6 } (some 1), .updateIntfMac 6 ['0'], .register .dereg { eth0 with ifIndex := 6 } none]

theorem mac_read_back_e1 :
    let mac := "00:11:22:33:44:55".toList
    let s := Runs.final step (dnHalUpdateIntfMac 5 mac (Runs.final step Registry.empty [.register .reg tapPort (some 0)])).2
      othersOfE1
    dnHalGetInterfaceMac (fun text => some text) 5 true s = (.ok mac, s) :=
  (mac_read_back 16 (fun text => some text) [.register .reg tapPort (some 0)] othersOfE1 5 "00:11:22:33:44:55".toList (by decide)
    ⟨trivial, by simp only [KeepsMac]; decide, by simp only [KeepsMac]; decide, trivial⟩).1

end NasCommon.IfMapping
