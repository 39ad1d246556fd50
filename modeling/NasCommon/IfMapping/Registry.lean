/-
  NasCommon.IfMapping.Registry — the interface registry (`hal_if_mapping.cpp`).

  A record lives in the heap at a pointer. `if_records` is the set of the registered
  pointers, `if_mappings` and `if_name_map` index them by seven keys, and `if_indexes`
  holds the ifindexes of the default VRF. A record's key under a query type is valid
  only for some interface types, and only there does the registry read the members of
  its union, so the union is kept as separate fields (a reader of another member than
  the type's has them through a layout, `UnionLayout`). The allocator may return any
  pointer that is not in use; `fault` is set when freed memory is.
-/

import Mathlib.Logic.Function.Basic
import NasCommon.Lib.OrdSet
import NasCommon.Types

namespace NasCommon.IfMapping

/-! ## Records -/

/-- `intf_info_t`; `unset` is the 0 of a record that is no query. -/
inductive IntfInfo where
  | unset
  | fromPort
  | fromIf
  | fromTap
  | fromIfName
  | fromVlan
  | fromLag
  | fromBridgeId
  deriving DecidableEq, Repr

inductive NasIntType where
  | port
  | vlan
  | lag
  | cpu
  | lpbk
  | fc
  | mgmt
  | macvlan
  | vlansubIntf
  | vxlan
  | dot1dBridge
  | invalid
  deriving DecidableEq, Repr

abbrev HalIfindex := Int32
abbrev HalVrfId := UInt32
abbrev Ptr := Nat
abbrev DescPtr := Nat

structure L3IntfInfo where
  vrfId : HalVrfId
  ifIndex : HalIfindex
  deriving DecidableEq, Repr

/-- `interface_ctrl_t`. -/
structure InterfaceCtrl where
  macAddr : CString
  ifName : CString
  desc : Option DescPtr
  portMapped : Bool
  portId : UInt32
  vlanId : UInt16
  lagId : UInt64
  bridgeId : UInt64
  qType : IntfInfo
  intType : NasIntType
  intSubType : UInt32
  vrfId : HalVrfId
  vrfName : CString
  ifIndex : HalIfindex
  npuId : Int32
  tapId : Int32
  subInterface : UInt32
  l3IntfInfo : L3IntfInfo
  deriving DecidableEq, Repr

/-- A record after `memset (.., 0, ..)`. -/
def InterfaceCtrl.zero : InterfaceCtrl :=
  { macAddr := [], ifName := [], desc := none, portMapped := false, portId := 0, vlanId := 0, lagId := 0,
    bridgeId := 0, qType := .unset, intType := .port, intSubType := 0, vrfId := 0, vrfName := [], ifIndex := 0,
    npuId := 0, tapId := 0, subInterface := 0, l3IntfInfo := ⟨0, 0⟩ }

def macStrSz : Nat := 18
def maxIntfDescLen : Nat := 256

instance linearOrderInt32 : LinearOrder Int32 where
  le_refl a := Int32.le_refl a
  le_trans a b c := Int32.le_trans
  le_antisymm a b := Int32.le_antisymm
  le_total a b := Int32.le_total a b
  lt_iff_le_not_ge a b := by
    rw [Int32.lt_iff_toInt_lt, Int32.le_iff_toInt_le, Int32.le_iff_toInt_le]
    omega
  toDecidableLE := inferInstance
  toDecidableEq := inferInstance
  toDecidableLT := inferInstance

/-! ## Keys -/

def invalidKey : UInt64 := ~~~0

/-- `_mk_key (lhs, rhs)`. -/
def mkKey2 (lhs rhs : UInt32) : UInt64 := (lhs.toUInt64 <<< 32) ||| rhs.toUInt64

def queryValid (qType : IntfInfo) (ifType : NasIntType) : Bool :=
  match qType with
  | .fromIf | .fromIfName => true
  | .fromPort | .fromTap => ifType = .port ∨ ifType = .cpu ∨ ifType = .fc
  | .fromVlan => ifType = .vlan
  | .fromLag => ifType = .lag
  | .fromBridgeId => ifType = .dot1dBridge
  | .unset => false

/-- `_mk_key (type, rec)`. A signed value is extended or reinterpreted as C does. -/
def mkKey (type : IntfInfo) (r : InterfaceCtrl) : UInt64 :=
  match type with
  | .fromPort => if r.portMapped then mkKey2 r.npuId.toUInt32 r.portId else invalidKey
  | .fromLag => r.lagId
  | .fromVlan => r.vlanId.toUInt64
  | .fromIf => mkKey2 r.vrfId r.ifIndex.toUInt32
  | .fromTap => if r.portMapped then r.tapId.toInt64.toUInt64 else invalidKey
  | .fromBridgeId => r.bridgeId
  | .fromIfName | .unset => invalidKey

def hasKeyT : List IntfInfo := [.fromPort, .fromIf, .fromTap, .fromVlan, .fromLag, .fromBridgeId]

def allQueriesT : List IntfInfo :=
  [.fromPort, .fromIf, .fromTap, .fromIfName, .fromVlan, .fromLag, .fromBridgeId]

/-! ## The registry -/

structure Registry where
  heap : Ptr → Option InterfaceCtrl
  ifRecords : OrdSet Ptr
  ifMappings : IntfInfo → UInt64 → Option Ptr
  ifNameMap : CString → Option Ptr
  ifIndexes : OrdSet HalIfindex
  /-- The description buffers. -/
  descs : DescPtr → Option CString
  fault : Bool

def Registry.empty : Registry := ⟨fun _ => none, .empty, fun _ _ => none, fun _ => none, .empty, fun _ => none, false⟩

def errParam : StdError := .err .interface .param (.num 0)

namespace Registry

/-- `delete [] desc`. -/
def deleteDesc (s : Registry) : Option DescPtr → Registry
  | none => s
  | some d => { s with descs := Function.update s.descs d none, fault := s.fault || (s.descs d).isNone }

def locate (s : Registry) (type : IntfInfo) (r : InterfaceCtrl) : Option Ptr :=
  if ¬ queryValid type r.intType then none
  else if type = .fromIfName then s.ifNameMap r.ifName
  else
    let k := mkKey type r
    if k = invalidKey then none else s.ifMappings type k

/-- `_add`: the record `r` at `p` under one query type. -/
def add (s : Registry) (type : IntfInfo) (p : Ptr) (r : InterfaceCtrl) : Bool × Registry :=
  let indexed (s : Registry) : Bool × Registry :=
    (true, if r.vrfId = 0 then { s with ifIndexes := s.ifIndexes.insert r.ifIndex } else s)
  if ¬ queryValid type r.intType then (false, s)
  else if type = .fromIfName then
    if r.ifName.length = 0 then (false, s)
    else indexed { s with ifNameMap := Function.update s.ifNameMap r.ifName (some p) }
  else
    let k := mkKey type r
    if k = invalidKey then (false, s)
    else indexed { s with
      ifMappings := Function.update s.ifMappings type (Function.update (s.ifMappings type) k (some p)) }

/-- The loop that adds under each query type, and whether one of them was added. -/
def addAll (p : Ptr) (r : InterfaceCtrl) : List IntfInfo → Bool × Registry → Bool × Registry
  | [], acc => acc
  | t :: ts, (added, s) => addAll p r ts (let a := s.add t p r; (added || a.1, a.2))

/-- The loop of `_cleanup` over the keyed indexes. -/
def eraseKeys (r : InterfaceCtrl) : List IntfInfo → Registry → Registry
  | [], s => s
  | t :: ts, s =>
    eraseKeys r ts
      (if ¬ queryValid t r.intType then s
      else
        let k := mkKey t r
        if k = invalidKey then s
        else { s with ifMappings := Function.update s.ifMappings t (Function.update (s.ifMappings t) k none) })

/-- The record `_cleanup` finds by any of the keys of `r`. -/
def locateAny (s : Registry) (r : InterfaceCtrl) : Option Ptr := allQueriesT.findSome? fun t => s.locate t r

/-- `_cleanup`, with the record `_r` found at `p`; `r` is the caller's. -/
def cleanupAt (s : Registry) (r : InterfaceCtrl) (p : Ptr) (_r : InterfaceCtrl) : Registry :=
  let s := eraseKeys _r hasKeyT s
  let s := if _r.ifName.length > 0 then { s with ifNameMap := Function.update s.ifNameMap _r.ifName none } else s
  let s := s.deleteDesc _r.desc
  let s := { s with ifRecords := s.ifRecords.erase p }
  let s := if r.vrfId = 0 then { s with ifIndexes := s.ifIndexes.erase _r.ifIndex } else s
  { s with heap := Function.update s.heap p none }

def cleanup (s : Registry) (r : InterfaceCtrl) : Registry :=
  match s.locateAny r with
  | none => s
  | some p =>
    match s.heap p with
    | none => { s with fault := true }
    | some _r => s.cleanupAt r p _r

end Registry

/-! ## The calls -/

inductive HalIntfRegOpType where
  | reg
  | dereg
  deriving DecidableEq, Repr

open Registry

/-- `dn_hal_if_register`; `mem` is the memory `new` finds, if any. -/
def dnHalIfRegister (regOpt : HalIntfRegOpType) (detail : InterfaceCtrl) (mem : Option Ptr) (s : Registry) :
    StdError × Registry :=
  if regOpt = .dereg then (.ok, s.cleanup detail)
  else if allQueriesT.any fun t => (s.locate t detail).isSome then (errParam, s)
  else
    match mem.filter fun p => (s.heap p).isNone with
    | none => (errParam, s)
    | some p =>
      let s' := { s with heap := Function.update s.heap p (some detail), ifRecords := s.ifRecords.insert p }
      match addAll p detail allQueriesT (false, s') with
      | (true, s') => (.ok, s')
      | (false, s') =>
        (errParam, { s' with ifRecords := s'.ifRecords.erase p, heap := Function.update s'.heap p none })

/-- The three updates find a record as `q` says and change it. -/
def updateLocated (q : InterfaceCtrl) (change : Ptr → InterfaceCtrl → Registry → StdError × Registry) (s : Registry) :
    StdError × Registry :=
  match s.locate q.qType q with
  | none => (errParam, s)
  | some p =>
    match s.heap p with
    | none => (.ok, { s with fault := true })
    | some _p => change p _p s

def dnHalUpdateInterface (p : InterfaceCtrl) : Registry → StdError × Registry :=
  updateLocated p fun ptr _p s =>
    (.ok, { s with
      heap := Function.update s.heap ptr (some { _p with macAddr := safestrncpy _p.macAddr p.macAddr macStrSz }) })

def dnHalUpdateIntfMac (ifx : HalIfindex) (mac : CString) : Registry → StdError × Registry :=
  dnHalUpdateInterface { InterfaceCtrl.zero with
    ifIndex := ifx, qType := .fromIf, macAddr := safestrncpy [] mac macStrSz }

def nasCmnUpdateRouterIntfInfo (vrfId : HalVrfId) (ifx : HalIfindex) (info : L3IntfInfo) : Registry → StdError × Registry :=
  updateLocated { InterfaceCtrl.zero with vrfId := vrfId, ifIndex := ifx, qType := .fromIf } fun ptr _p s =>
    (.ok, { s with heap := Function.update s.heap ptr (some { _p with l3IntfInfo := info }) })

/-- A description's first character: CPS writes a blank one as `'/036'`. -/
def clearsDesc (desc : CString) : Bool :=
  match desc with
  | [] => true
  | c :: _ => ! c.isAlphanum

/-- `mem` is the memory `new char []` finds, if any. -/
def dnHalUpdateIntfDesc (p : InterfaceCtrl) (desc : CString) (mem : Option DescPtr) (s : Registry) :
    StdError × Registry :=
  if desc.length > maxIntfDescLen then (errParam, s)
  else
    updateLocated p (fun ptr _p s =>
      let s := s.deleteDesc _p.desc
      if clearsDesc desc then (.ok, { s with heap := Function.update s.heap ptr (some { _p with desc := none }) })
      else
        match mem.filter fun d => (s.descs d).isNone with
        | none => (errParam, s)
        | some d =>
          (.ok, { s with
            heap := Function.update s.heap ptr (some { _p with desc := some d }),
            descs := Function.update s.descs d (some (safestrncpy [] desc (desc.length + 1))) })) s

end NasCommon.IfMapping
