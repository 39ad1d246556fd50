/-
  NasCommon.Switch.Parser — the walk over the switch configuration file
  (`_fn_switch_parser`, called for each element).

  The state is the file's static variables with the settings the sections set up. An
  element's name runs a section when it is the section's name or, for most sections, a
  prefix of it. `failed` is sticky: once set, later calls do nothing.
  - `walk_sticky`, `walk_append`: so a walk that fails goes no further.
-/

import NasCommon.SwProfile.Parse

namespace NasCommon.Switch

open SwProfile (NasSwitchInfo NpuProfileKv SwConsts DeepBufferLocals)

/-! ## State -/

def maxHwInfoSz : Nat := 256

/-- `nas_switch_detail_t`; `npus` is `none` when NULL. -/
structure NasSwitchDetail where
  numberOfNpus : Nat
  npus : Option (List UInt32)
  hwInfo : CString
  cpuPortId : UInt32

def NasSwitchDetail.zero : NasSwitchDetail := ⟨0, none, [], 0⟩

/-- `switchList` is `none` and `switchCfg` empty when NULL; `fault` says that a write
    went past the end of a table. -/
structure SwitchSt where
  failed : Bool
  switchList : Option (List UInt32)
  numberOfSwitches : Nat
  numSwitches : Nat
  switchCfg : List NasSwitchDetail
  nasSwFcSupported : Bool
  nasSwL2mcVlanPortLookupEnabled : Bool
  nasSwOsEventFlag : Bool
  lagSupported : Bool
  ecmpSupported : Bool
  info : NasSwitchInfo
  npuProfileKvpair : NpuProfileKv
  fault : Bool

def SwitchSt.init : SwitchSt where
  failed := false
  switchList := none
  numberOfSwitches := 0
  numSwitches := 0
  switchCfg := []
  nasSwFcSupported := false
  nasSwL2mcVlanPortLookupEnabled := false
  nasSwOsEventFlag := true
  lagSupported := false
  ecmpSupported := false
  info := .zero
  npuProfileKvpair := []
  fault := false

inductive AllocSite where
  | switchList
  | switchCfg
  | npus
  | profiles
  | uftInfo
  | aclGroups
  | aclApps (appGroupIdx : Nat)
  deriving DecidableEq, Repr

/-- A call's element, whether each allocation in it succeeds, and what is on the stack. -/
structure Visit where
  node : ConfigNode
  alloc : AllocSite → Bool
  locals : DeepBufferLocals

/-- `parseString` is `std_parse_string` with a comma: its tokens, or its failure. -/
structure ParserEnv where
  consts : SwConsts
  parseString : CString → Option (List CString)

/-! ## The handlers -/

/-- `int_array_from_string`, with the length it leaves in `expected_len`. -/
def intArrayFromString (env : ParserEnv) (alloc : Bool) (str : CString) (expectedLen : Nat) :
    Option (List UInt32) × Nat :=
  match env.parseString str with
  | none => (none, expectedLen)
  | some tokens => (if alloc then some (tokens.map fun t => (atoi t).toUInt32) else none, tokens.length)

/-- `size_t switch_ix = atoi (id)`: a negative id is a huge index. -/
def switchIx (id : CString) : Nat := (atoi id).toInt64.toUInt64.toNat

/-- The `switch_topology` element; the Boolean says whether the call goes on. -/
def switchTopology (env : ParserEnv) (v : Visit) (s : SwitchSt) : Bool × SwitchSt :=
  match v.node.attr "switch_ids" with
  | none => (false, s)
  | some switchIds =>
    let r := intArrayFromString env (v.alloc .switchList) switchIds s.numberOfSwitches
    let s := { s with switchList := r.1, numberOfSwitches := r.2 }
    if r.1.isNone then (false, { s with failed := true })
    else if v.alloc .switchCfg then (true, { s with switchCfg := List.replicate r.2 .zero })
    else (true, { s with switchCfg := [], failed := true })

/-- A `switch` element's entry. -/
def switchDetail (env : ParserEnv) (v : Visit) (npus : CString) (d : NasSwitchDetail) : NasSwitchDetail :=
  let r := intArrayFromString env (v.alloc .npus) npus d.numberOfNpus
  { numberOfNpus := r.2
    npus := r.1
    hwInfo := match v.node.attr "hw_info" with
      | none => []
      | some hwInfo => safestrncpy [] hwInfo maxHwInfoSz
    cpuPortId := match v.node.attr "cpu_port_id" with
      | none => 0
      | some cpuPortId => (atoi cpuPortId).toUInt32 }

/-- The `switch` element. -/
def switchElem (env : ParserEnv) (v : Visit) (s : SwitchSt) : Bool × SwitchSt :=
  match v.node.attr "id", v.node.attr "npus" with
  | some id, some npus =>
    if s.numberOfSwitches ≤ switchIx id then (false, { s with failed := true })
    else
      let d := s.switchCfg.getD (switchIx id) .zero
      let d' := switchDetail env v npus d
      (true, { s with
        switchCfg := s.switchCfg.set (switchIx id) d'
        failed := s.failed || d'.npus.isNone
        numSwitches := s.numSwitches + d'.numberOfNpus
        fault := s.fault || decide (s.switchCfg.length ≤ switchIx id) })
  | _, _ => (false, s)

/-- The `switch_feature` element. -/
def switchFeature (v : Visit) (s : SwitchSt) : Bool × SwitchSt :=
  match v.node.attr "fc_enabled" with
  | none => (false, s)
  | some status => (true, { s with nasSwFcSupported := atoi status != 0 })

/-- `strncmp (name, section, strlen (name)) == 0`. -/
def startsSection (name : CString) (sect : String) : Bool := name.isPrefixOf sect.toList

def switchMulticastConfig (v : Visit) (s : SwitchSt) : SwitchSt :=
  match v.node.attr "l2mc_vlan_port_lookup_enabled" with
  | none => s
  | some mcLookup => { s with nasSwL2mcVlanPortLookupEnabled := atoi mcLookup != 0 }

def switchProfile (v : Visit) (s : SwitchSt) : SwitchSt :=
  { s with info := (SwProfile.nasSwitchUpdateProfileInfo (v.alloc .profiles) v.node s.info).2 }

def switchNpuProfile (v : Visit) (s : SwitchSt) : SwitchSt :=
  { s with npuProfileKvpair := (SwProfile.nasSwitchUpdateNpuProfileInfo v.node s.npuProfileKvpair).2 }

def switchForwardingMode (env : ParserEnv) (v : Visit) (s : SwitchSt) : SwitchSt :=
  { s with info := (SwProfile.nasSwitchUpdateUftInfo env.consts (v.alloc .uftInfo) v.node s.info).2 }

def switchResilientHash (v : Visit) (s : SwitchSt) : SwitchSt :=
  { s with
    lagSupported := s.lagSupported || (v.node.attr "lag_enabled").isSome
    ecmpSupported := s.ecmpSupported || (v.node.attr "ecmp_enabled").isSome }

def switchEcmp (v : Visit) (s : SwitchSt) : SwitchSt :=
  { s with info := SwProfile.nasSwitchUpdateEcmpInfo v.node s.info }

def ipv6ExtendedPrefix (v : Visit) (s : SwitchSt) : SwitchSt :=
  { s with info := SwProfile.nasSwitchUpdateIpv6ExtendedPrefixInfo v.node s.info }

def switchAclProfile (env : ParserEnv) (v : Visit) (s : SwitchSt) : SwitchSt :=
  let r := (SwProfile.nasSwitchUpdateAclProfileInfo env.consts (v.alloc .aclGroups) (fun idx => v.alloc (.aclApps idx))
    v.node s.info).2
  { s with info := r.info, fault := s.fault || r.fault }

def vxlanRiotConfig (v : Visit) (s : SwitchSt) : SwitchSt :=
  { s with info := SwProfile.nasSwitchUpdateVxlanRiotInfo (SwProfile.nums v.node) s.info }

def l3TableSize (v : Visit) (s : SwitchSt) : SwitchSt :=
  { s with info := SwProfile.nasSwitchUpdateL3TableSizeInfo v.node s.info }

def deepBufferMode (v : Visit) (s : SwitchSt) : SwitchSt :=
  { s with info := SwProfile.nasSwitchUpdateDeepBufferModeInfo v.locals v.node s.info }

/-- The sections after `switch_feature`. -/
def sectionTable (env : ParserEnv) (v : Visit) : List (String × (SwitchSt → SwitchSt)) :=
  [("switch_multicast_config", switchMulticastConfig v), ("switch_profile", switchProfile v),
   ("switch_npu_profile", switchNpuProfile v), ("switch_forwarding_mode", switchForwardingMode env v),
   ("switch_resilient_hash", switchResilientHash v), ("switch_ecmp", switchEcmp v),
   ("ipv6_extended_prefix", ipv6ExtendedPrefix v), ("switch_acl_profile", switchAclProfile env v),
   ("vxlan-riot-config", vxlanRiotConfig v), ("l3-table-size", l3TableSize v), ("deep_buffer_mode", deepBufferMode v)]

def onSection (v : Visit) (s : SwitchSt) (sect : String × (SwitchSt → SwitchSt)) : SwitchSt :=
  if startsSection v.node.name sect.1 then sect.2 s else s

/-- Each is tried in turn. -/
def sections (env : ParserEnv) (v : Visit) (s : SwitchSt) : SwitchSt := (sectionTable env v).foldl (onSection v) s

/-- A part of the call that may be its last. -/
def andThen (r : Bool × SwitchSt) (f : SwitchSt → SwitchSt) : SwitchSt := if r.1 then f r.2 else r.2

/-- The part of the call after the two switch elements. -/
def afterSwitches (env : ParserEnv) (v : Visit) (s : SwitchSt) : SwitchSt :=
  andThen (if startsSection v.node.name "switch_feature" then switchFeature v s else (true, s)) (sections env v)

/-- `_fn_switch_parser`. -/
def fnSwitchParser (env : ParserEnv) (s : SwitchSt) (v : Visit) : SwitchSt :=
  if s.failed then s
  else
    andThen (if v.node.name = "switch_topology".toList then switchTopology env v s else (true, s)) fun s =>
    andThen (if v.node.name = "switch".toList then switchElem env v s else (true, s)) (afterSwitches env v)

/-- The calls that `std_config_for_each_node` makes. -/
def walk (env : ParserEnv) (s : SwitchSt) (visits : List Visit) : SwitchSt := visits.foldl (fnSwitchParser env) s

/-! ## After a failure -/

theorem fnSwitchParser_sticky (env : ParserEnv) (v : Visit) {s : SwitchSt} (hs : s.failed = true) :
    fnSwitchParser env s v = s := by
  unfold fnSwitchParser
  rw [if_pos hs]

theorem walk_sticky (env : ParserEnv) (visits : List Visit) {s : SwitchSt} (hs : s.failed = true) :
    walk env s visits = s := by
  induction visits with
  | nil => rfl
  | cons v visits ih =>
    show walk env (fnSwitchParser env s v) visits = s
    rw [fnSwitchParser_sticky env v hs]
    exact ih

theorem walk_started {env : ParserEnv} {l : List Visit} {s : SwitchSt} (h : (walk env s l).failed = false) :
    s.failed = false := by
  by_contra hs
  rw [walk_sticky env l (by simpa using hs)] at h
  exact hs h

theorem walk_append (env : ParserEnv) (s : SwitchSt) (l l' : List Visit) :
    walk env s (l ++ l') = walk env (walk env s l) l' :=
  List.foldl_append

end NasCommon.Switch
