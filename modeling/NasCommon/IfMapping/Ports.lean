/-
  NasCommon.IfMapping.Ports — physical ports: the mapping that an interface's event
  reports, and virtual ports (`nas_if_utils.cpp`).

  An event of an interface names an NPU's port. The interface may have been moved to
  another one since, so `nas_get_phy_port_mapping_change` reads its state from the
  registry, by the name in the event or else by its ifindex in VRF 0: MAPPED when the
  interface has that very port now. It does not look at the interface's type, so for one
  that has no ports it reads as a port whatever the union holds.
  - `mapping_change_agrees`: in any reachable state the event's answer is what the union
    says, for a type that has ports what a lookup by its port says, and no port is
    reported mapped to two interfaces of such types. A LAG may be reported mapped.
  - `virtual_port_agrees`: an ifindex is a virtual port just when it is one of VRF 0 that
    no lookup by a port finds.
-/

import NasCommon.IfMapping.Translate

namespace NasCommon.IfMapping

open Registry

/-! ## The event -/

inductive PhyPortMapping where
  | mapped
  | unmapped
  deriving DecidableEq, Repr

/-- What is read of the event's object: whether it is of an observed interface, whether
    it is a SET, and its attributes, where they are present. -/
structure IfEvent where
  isInterface : Bool
  isSet : Bool
  npuId : Option UInt32
  portId : Option UInt32
  ifName : Option CString
  ifIndex : Option UInt32
  deriving DecidableEq, Repr

/-- What the union of a record reads as `port_mapped` and `port_id`, whichever of its
    members is the type's. -/
structure UnionLayout where
  portMapped : InterfaceCtrl → Bool
  portId : InterfaceCtrl → UInt32
  hasPorts : ∀ r, queryValid .fromPort r.intType = true → portMapped r = r.portMapped ∧ portId r = r.portId

/-- `port_mapped` is the first of eight bytes and `port_id` the last four; an ID's lowest
    byte is first. -/
def littleEndian : UnionLayout where
  portMapped r :=
    match r.intType with
    | .vlan => r.vlanId.toUInt8 != 0
    | .lag => r.lagId.toUInt8 != 0
    | .dot1dBridge => r.bridgeId.toUInt8 != 0
    | _ => r.portMapped
  portId r :=
    match r.intType with
    | .vlan => 0
    | .lag => (r.lagId >>> 32).toUInt32
    | .dot1dBridge => (r.bridgeId >>> 32).toUInt32
    | _ => r.portId
  hasPorts r h := by
    cases ht : r.intType <;> first | exact ⟨rfl, rfl⟩ | (rw [ht] at h; cases h)

-- `sz` is `sizeof (if_name)`
variable (u : UnionLayout) (sz : Nat)

/-- The query for the event's interface. -/
def eventQuery (evt : IfEvent) : Option InterfaceCtrl :=
  match evt.ifName with
  | some name => some (namedQuery sz name)
  | none => evt.ifIndex.map fun i => { InterfaceCtrl.zero with ifIndex := i.toInt32, qType := .fromIf }

/-- `nas_get_phy_port_mapping_change`: false, or true and the status. -/
def nasGetPhyPortMappingChange (evt : IfEvent) (s : Registry) : Option PhyPortMapping × Registry :=
  if ¬ evt.isInterface then (none, s)
  else if ¬ evt.isSet then (none, s)
  else
    match evt.npuId, evt.portId with
    | some npu, some port =>
      match eventQuery sz evt with
      | none => (none, s)
      | some q =>
        match dnHalGetInterfaceInfo q s with
        | (.ok, portInfo, s) =>
          if u.portMapped portInfo ∧ (portInfo.npuId ≠ npu.toInt32 ∨ u.portId portInfo ≠ port) then (some .unmapped, s)
          else (some (if u.portMapped portInfo then .mapped else .unmapped), s)
        | (_, _, s) => (none, s)
    | _, _ => (none, s)

def nasIsVirtualPort (ifIdx : HalIfindex) (s : Registry) : Bool × Registry :=
  match dnHalGetInterfaceInfo { InterfaceCtrl.zero with ifIndex := ifIdx, qType := .fromIf } s with
  | (.ok, port, s) => if port.intType ≠ .port then (false, s) else (!port.portMapped, s)
  | (_, _, s) => (false, s)

/-! ## A lookup by port -/

/-- A query by an NPU's port, for an interface of the type. -/
def portQuery (intType : NasIntType) (npu : Int32) (port : UInt32) : InterfaceCtrl :=
  { InterfaceCtrl.zero with qType := .fromPort, intType := intType, npuId := npu, portId := port }

/-- The port of the NPU is the interface's. -/
def OnPort (r : InterfaceCtrl) (npu : Int32) (port : UInt32) : Prop :=
  r.portMapped = true ∧ r.npuId = npu ∧ r.portId = port

theorem toUInt32_inj {a b : Int32} (h : a.toUInt32 = b.toUInt32) : a = b := by
  cases a
  cases b
  exact congrArg Int32.ofUInt32 h

/-- What a query by port finds: the interface on the port, where the port has a key. -/
theorem finds_port {intType : NasIntType} {npu : Int32} {port : UInt32} {r : InterfaceCtrl}
    (hq : queryValid .fromPort intType = true) (hkey : mkKey2 npu.toUInt32 port ≠ invalidKey) :
    Finds .fromPort (asked (portQuery intType npu port)) r ↔
      queryValid .fromPort r.intType = true ∧ OnPort r npu port := by
  have hasked : mkKey .fromPort (asked (portQuery intType npu port)) = mkKey2 npu.toUInt32 port := rfl
  simp only [Finds, reduceCtorEq, if_false, keyOf_eq_some]
  constructor
  · intro h
    obtain ⟨k, ⟨-, hk, hne⟩, hr, hkr, -⟩ := h
    rw [hasked] at hk
    have hmapped : r.portMapped = true := by
      by_contra hno
      exact hne (by rw [← hkr, mkKey, if_neg hno])
    rw [mkKey, if_pos hmapped, ← hk] at hkr
    obtain ⟨hn, hp⟩ := mkKey2_inj hkr
    exact ⟨hr, hmapped, toUInt32_inj hn, hp⟩
  · intro h
    obtain ⟨hr, hmapped, hn, hp⟩ := h
    refine ⟨mkKey2 npu.toUInt32 port, ⟨hq, hasked, hkey⟩, hr, ?_, hkey⟩
    rw [mkKey, if_pos hmapped, hn, hp]

/-- A query succeeds with the live record that has its key. -/
theorem Inv.getInterfaceInfo_iff {s : Registry} (hi : Inv s) {q r : InterfaceCtrl} :
    ((dnHalGetInterfaceInfo q s).1 = .ok ∧ (dnHalGetInterfaceInfo q s).2.1 = r) ↔
      ∃ p, Live s p r ∧ Finds (asked q).qType (asked q) r := by
  cases hl : s.locate (asked q).qType (asked q) with
  | none =>
    rw [dnHalGetInterfaceInfo_none hl]
    refine iff_of_false (fun h => by cases h.1) fun ⟨p, hlive, hf⟩ => ?_
    rw [hi.locate_iff.mpr ⟨r, hlive.2, hf⟩] at hl
    cases hl
  | some p =>
    obtain ⟨r', hr', hf⟩ := hi.locate_iff.mp hl
    rw [dnHalGetInterfaceInfo_some hl hr']
    constructor
    · intro h
      obtain ⟨-, rfl⟩ := h
      exact ⟨p, hi.live.mpr hr', hf⟩
    · intro h
      obtain ⟨p', hlive, hf'⟩ := h
      rw [hi.locate_iff.mpr ⟨r, hlive.2, hf'⟩] at hl
      cases hl
      rw [hlive.2] at hr'
      cases hr'
      exact ⟨rfl, rfl⟩

/-- The lookup by a port with a key. -/
theorem Inv.portQuery_iff {s : Registry} (hi : Inv s) {intType : NasIntType} {npu : Int32} {port : UInt32}
    {r : InterfaceCtrl} (hq : queryValid .fromPort intType = true) (hkey : mkKey2 npu.toUInt32 port ≠ invalidKey) :
    ((dnHalGetInterfaceInfo (portQuery intType npu port) s).1 = .ok ∧
        (dnHalGetInterfaceInfo (portQuery intType npu port) s).2.1 = r) ↔
      ∃ p, Live s p r ∧ queryValid .fromPort r.intType = true ∧ OnPort r npu port := by
  rw [hi.getInterfaceInfo_iff]
  exact exists_congr fun p => and_congr_right fun _ => finds_port hq hkey

/-- A port with a key is one interface's. -/
theorem Inv.onPort_unique {s : Registry} (hi : Inv s) {npu : Int32} {port : UInt32} (hkey : mkKey2 npu.toUInt32 port ≠ invalidKey)
    {p p' : Ptr} {r r' : InterfaceCtrl} (hlive : Live s p r) (hlive' : Live s p' r')
    (ht : queryValid .fromPort r.intType = true) (ht' : queryValid .fromPort r'.intType = true)
    (hon : OnPort r npu port) (hon' : OnPort r' npu port) : p = p' := by
  have h1 := hi.locate_iff.mpr ⟨r, hlive.2, (finds_port ht hkey).mpr ⟨ht, hon⟩⟩
  have h2 := hi.locate_iff.mpr ⟨r', hlive'.2, (finds_port ht hkey).mpr ⟨ht', hon'⟩⟩
  rw [h1] at h2
  exact Option.some.inj h2

/-! ## The event's answer -/

/-- The event is a SET of an observed interface, names the port, and says which
    interface. -/
structure Names (evt : IfEvent) (npu port : UInt32) (q : InterfaceCtrl) : Prop where
  isInterface : evt.isInterface = true
  isSet : evt.isSet = true
  npu : evt.npuId = some npu
  port : evt.portId = some port
  query : eventQuery sz evt = some q

variable {sz}

theorem Names.asked {evt : IfEvent} {npu port : UInt32} {q : InterfaceCtrl} (h : Names sz evt npu port q) :
    asked q = q := by
  have hq := h.query
  unfold eventQuery at hq
  split at hq
  · cases hq
    rfl
  · obtain ⟨i, -, rfl⟩ := Option.map_eq_some_iff.mp hq
    rfl

/-- The union says that the interface is on the port of the NPU. -/
def UnionLayout.OnPort (u : UnionLayout) (r : InterfaceCtrl) (npu : Int32) (port : UInt32) : Prop :=
  u.portMapped r = true ∧ r.npuId = npu ∧ u.portId r = port

variable {u}

theorem UnionLayout.onPort_iff {r : InterfaceCtrl} (h : queryValid .fromPort r.intType = true) (npu : Int32) (port : UInt32) :
    u.OnPort r npu port ↔ IfMapping.OnPort r npu port := by
  obtain ⟨hmapped, hport⟩ := u.hasPorts r h
  rw [UnionLayout.OnPort, IfMapping.OnPort, hmapped, hport]

/-- For the interface that the event is about, the answer is MAPPED just when its union
    says that it has the event's port. -/
theorem mapping_change {s : Registry} {evt : IfEvent} {npu port : UInt32} {q r : InterfaceCtrl}
    (hevt : Names sz evt npu port q) (hfound : dnHalGetInterfaceInfo q s = (.ok, r, s)) :
    ∃ m, nasGetPhyPortMappingChange u sz evt s = (some m, s) ∧ (m = .mapped ↔ u.OnPort r npu.toInt32 port) := by
  have hans : nasGetPhyPortMappingChange u sz evt s =
      if u.portMapped r ∧ (r.npuId ≠ npu.toInt32 ∨ u.portId r ≠ port) then (some .unmapped, s)
      else (some (if u.portMapped r then .mapped else .unmapped), s) := by
    simp only [nasGetPhyPortMappingChange, hevt.isInterface, hevt.isSet, hevt.npu, hevt.port, hevt.query, hfound,
      not_true, if_false]
  rw [hans]
  by_cases hmoved : u.portMapped r = true ∧ (r.npuId ≠ npu.toInt32 ∨ u.portId r ≠ port)
  · rw [if_pos hmoved]
    refine ⟨.unmapped, rfl, iff_of_false (by decide) fun hon => ?_⟩
    rcases hmoved.2 with hn | hp
    · exact hn hon.2.1
    · exact hp hon.2.2
  · rw [if_neg hmoved]
    refine ⟨_, rfl, ?_⟩
    cases hm : u.portMapped r with
    | false => exact iff_of_false (by decide) fun hon => by rw [UnionLayout.OnPort, hm] at hon; cases hon.1
    | true =>
      rw [hm] at hmoved
      simp only [true_and, not_or, not_not] at hmoved
      exact iff_of_true rfl ⟨hm, hmoved⟩

/-- In any reachable state: an event about a live interface is answered, and MAPPED just
    when the interface's union says that it is on the event's port now. Where its type has
    ports and the port a key, that is when a lookup by the port gives the interface; so two
    events with one such port, answered MAPPED about such interfaces, are about one. -/
theorem mapping_change_agrees (u : UnionLayout) (ops : List Op) (sz : Nat) (npu port : UInt32)
    (hkey : mkKey2 npu.toInt32.toUInt32 port ≠ invalidKey) :
    let s := Runs.final step Registry.empty ops
    (∀ evt q p r, Names sz evt npu port q → Live s p r → Finds q.qType q r →
      ∃ m, nasGetPhyPortMappingChange u sz evt s = (some m, s) ∧ (m = .mapped ↔ u.OnPort r npu.toInt32 port) ∧
        (queryValid .fromPort r.intType = true →
          (m = .mapped ↔ (dnHalGetInterfaceInfo (portQuery r.intType npu.toInt32 port) s).1 = .ok ∧
            (dnHalGetInterfaceInfo (portQuery r.intType npu.toInt32 port) s).2.1 = r))) ∧
    (∀ evt evt' q q' p p' r r', Names sz evt npu port q → Names sz evt' npu port q' →
      Live s p r → Live s p' r' → Finds q.qType q r → Finds q'.qType q' r' →
      queryValid .fromPort r.intType = true → queryValid .fromPort r'.intType = true →
      nasGetPhyPortMappingChange u sz evt s = (some .mapped, s) →
      nasGetPhyPortMappingChange u sz evt' s = (some .mapped, s) → p = p') := by
  intro s
  have hi : Inv s := run_inv ops
  have hfound : ∀ evt q p r, Names sz evt npu port q → Live s p r → Finds q.qType q r →
      dnHalGetInterfaceInfo q s = (.ok, r, s) := by
    intro evt q p r hevt hlive hf
    refine dnHalGetInterfaceInfo_some ?_ hlive.2
    rw [hevt.asked]
    exact hi.locate_iff.mpr ⟨r, hlive.2, hf⟩
  refine ⟨fun evt q p r hevt hlive hf => ?_, fun evt evt' q q' p p' r r' hevt hevt' hlive hlive' hf hf' ht ht' hm hm' => ?_⟩
  · obtain ⟨m, hans, hiff⟩ := mapping_change hevt (hfound evt q p r hevt hlive hf)
    refine ⟨m, hans, hiff, fun ht => ?_⟩
    rw [hiff, u.onPort_iff ht, hi.portQuery_iff ht hkey]
    exact ⟨fun hon => ⟨p, hlive, ht, hon⟩, fun ⟨_, _, _, hon⟩ => hon⟩
  · -- both are on the port
    obtain ⟨m, hans, hiff⟩ := mapping_change hevt (hfound evt q p r hevt hlive hf)
    obtain ⟨m', hans', hiff'⟩ := mapping_change hevt' (hfound evt' q' p' r' hevt' hlive' hf')
    rw [hans] at hm
    rw [hans'] at hm'
    cases hm
    cases hm'
    have hon := (u.onPort_iff ht npu.toInt32 port).mp (hiff.mp rfl)
    have hon' := (u.onPort_iff ht' npu.toInt32 port).mp (hiff'.mp rfl)
    exact hi.onPort_unique hkey hlive hlive' ht ht' hon hon'

/-- An event of the interface `e1` that names port `port` of NPU 0. -/
def e1Event (port : UInt32) : IfEvent := ⟨true, true, some 0, some port, some ['e', '1'], none⟩

/-- `e1` is on port 3: an event with that port is answered MAPPED, one with its old port
    4 UNMAPPED. -/
theorem mapping_change_agrees_e1 :
    nasGetPhyPortMappingChange littleEndian 16 (e1Event 3) regTapPort = (some .mapped, regTapPort) ∧
      nasGetPhyPortMappingChange littleEndian 16 (e1Event 4) regTapPort = (some .unmapped, regTapPort) := by
  have hlive : Live regTapPort 0 tapPort := ⟨by decide, by decide⟩
  have hf : Finds .fromIfName (namedQuery 16 ['e', '1']) tapPort := finds_name.mpr ⟨by decide, by decide⟩
  obtain ⟨m, hm, hiff, -⟩ := (mapping_change_agrees littleEndian [.register .reg tapPort (some 0)] 16 0 3 (by decide)).1
    (e1Event 3) (namedQuery 16 ['e', '1']) 0 tapPort ⟨rfl, rfl, rfl, rfl, rfl⟩ hlive hf
  obtain ⟨m', hm', hiff', -⟩ := (mapping_change_agrees littleEndian [.register .reg tapPort (some 0)] 16 0 4 (by decide)).1
    (e1Event 4) (namedQuery 16 ['e', '1']) 0 tapPort ⟨rfl, rfl, rfl, rfl, rfl⟩ hlive hf
  have hmapped : m = .mapped := hiff.mpr ⟨rfl, rfl, rfl⟩
  have hnot : m' ≠ .mapped := fun h => absurd (hiff'.mp h).2.2 (by decide)
  subst hmapped
  cases m' with
  | mapped => exact absurd rfl hnot
  | unmapped => exact ⟨hm, hm'⟩

-- a LAG is on no port: with an ID of 7 it is answered MAPPED to port 0 of NPU 0, with one
-- of 256 UNMAPPED
example :
    let lag (id : UInt64) : InterfaceCtrl := { InterfaceCtrl.zero with ifName := ['e', '1'], intType := .lag, lagId := id }
    (nasGetPhyPortMappingChange littleEndian 16 (e1Event 0)
      (Runs.final step Registry.empty [.register .reg (lag 7) (some 0)])).1 = some .mapped ∧
    (nasGetPhyPortMappingChange littleEndian 16 (e1Event 0)
      (Runs.final step Registry.empty [.register .reg (lag 256) (some 0)])).1 = some .unmapped := by
  decide

/-! ## Virtual ports -/

/-- In any reachable state, for an interface of VRF 0 and type PORT whose port, if it has
    one, has a key: it is a virtual port just when no lookup by a port gives it. And
    nothing else is a virtual port. -/
theorem virtual_port_agrees (ops : List Op) (ifIdx : HalIfindex) :
    let s := Runs.final step Registry.empty ops
    (∀ p r, Live s p r → r.vrfId = 0 → r.ifIndex = ifIdx → r.intType = .port →
      (r.portMapped = true → mkKey2 r.npuId.toUInt32 r.portId ≠ invalidKey) →
      (nasIsVirtualPort ifIdx s = (true, s) ↔ ∀ npu port, ¬ ((dnHalGetInterfaceInfo (portQuery .port npu port) s).1 = .ok ∧
        (dnHalGetInterfaceInfo (portQuery .port npu port) s).2.1 = r))) ∧
    ((nasIsVirtualPort ifIdx s).1 = true → ∃ p r, Live s p r ∧ r.vrfId = 0 ∧ r.ifIndex = ifIdx ∧ r.intType = .port ∧
      r.portMapped = false) := by
  intro s
  have hi : Inv s := run_inv ops
  have hq : (asked { InterfaceCtrl.zero with ifIndex := ifIdx, qType := .fromIf }).qType = .fromIf := rfl
  refine ⟨fun p r hlive hv hx ht hkey => ?_, fun h => ?_⟩
  · have hfound : dnHalGetInterfaceInfo { InterfaceCtrl.zero with ifIndex := ifIdx, qType := .fromIf } s = (.ok, r, s) := by
      refine dnHalGetInterfaceInfo_some (hi.locate_iff.mpr ⟨r, hlive.2, ?_⟩) hlive.2
      refine finds_ifIndex.mpr ⟨hv, hx, ?_⟩
      exact (keyOf_eq_some.mp (keyOf_fromIf hv)).2.1 ▸ toUInt64_ne_invalidKey _
    have hans : nasIsVirtualPort ifIdx s = (!r.portMapped, s) := by
      simp only [nasIsVirtualPort, hfound, ht, ne_eq, not_true, if_false]
    rw [hans]
    cases hm : r.portMapped with
    | true =>
      refine iff_of_false (by simp) fun hno => hno r.npuId r.portId ?_
      rw [hi.portQuery_iff (by decide) (hkey hm)]
      exact ⟨p, hlive, by rw [ht]; decide, hm, rfl, rfl⟩
    | false =>
      refine iff_of_true rfl fun npu port hgot => ?_
      obtain ⟨-, -, hf⟩ := hi.getInterfaceInfo_iff.mp hgot
      obtain ⟨-, hr, -⟩ := finds_iff.mp hf
      rw [portMapped_of_hasKey hr] at hm
      cases hm
  · cases hl : s.locate .fromIf (asked { InterfaceCtrl.zero with ifIndex := ifIdx, qType := .fromIf }) with
    | none =>
      rw [nasIsVirtualPort, dnHalGetInterfaceInfo_none (hq ▸ hl)] at h
      cases h
    | some p =>
      obtain ⟨r, hr, hf⟩ := hi.locate_iff.mp hl
      obtain ⟨hv, hx, -⟩ := finds_ifIndex.mp hf
      simp only [nasIsVirtualPort, dnHalGetInterfaceInfo_some (hq ▸ hl) hr] at h
      by_cases ht : r.intType = .port
      · simp only [ht, ne_eq, not_true, if_false, Bool.not_eq_true'] at h
        exact ⟨p, r, hi.live.mpr hr, hv, hx, ht, h⟩
      · simp [ht] at h

/-- `e1` with its port is no virtual port. -/
theorem virtual_port_agrees_e1 : nasIsVirtualPort 5 regTapPort ≠ (true, regTapPort) := by
  intro h
  have hiff := (virtual_port_agrees [.register .reg tapPort (some 0)] 5).1 0 tapPort ⟨by decide, by decide⟩ rfl rfl rfl
    fun _ => by decide
  exact hiff.mp h 0 3 (by decide)

end NasCommon.IfMapping
