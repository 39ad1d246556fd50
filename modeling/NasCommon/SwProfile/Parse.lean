/-
  NasCommon.SwProfile.Parse — the sections of switch.xml that set up the switch
  profile settings (the `nas_switch_update_*` functions).

  Each takes its element and changes `nas_switch_info`; the NPU profile's changes a map
  of its own. What each allocation gives is an argument, and so is what a local
  variable holds before it is set (`nas_switch_update_deep_buffer_mode_info`).
  - `SameOverlay`: what none of them touches, the next-boot VXLAN counts.
-/

import NasCommon.Config
import NasCommon.SwProfile.Info

namespace NasCommon.SwProfile

/-- What the generated headers define. -/
structure SwConsts where
  baseSwitchUftModeMin : UInt32
  baseSwitchUftModeMax : UInt32
  baseAclStageIngress : UInt32
  baseAclStageEgress : UInt32

def parseParam : StdError := .err .halcom .param (.num 2)

/-- An element's numeric attributes. -/
def nums (node : ConfigNode) : ConfigAttrs := fun attr => (node.attr attr).map fun s => (strtoul s).toUInt32

/-- `nas_std_cfg_str_attr_update`: one character less than a name has room for. -/
def nasStdCfgStrAttrUpdate (node : ConfigNode) (attr : String) (dest : CString) : CString :=
  match node.attr attr with
  | none => dest
  | some s => safestrncpy dest s nasCmnProfileNameSize

def ProfileName.update (node : ConfigNode) (attr : String) (dest : ProfileName) : ProfileName where
  name := nasStdCfgStrAttrUpdate node attr dest.name
  fits := by
    unfold nasStdCfgStrAttrUpdate
    split
    · exact dest.fits
    · exact Nat.le_trans (length_safestrncpy (by decide)) (by decide)

/-! ## Profiles -/

/-- `nas_switch_update_profile_info`. -/
def nasSwitchUpdateProfileInfo (alloc : Bool) (node : ConfigNode) (i : NasSwitchInfo) : StdError × NasSwitchInfo :=
  let i := { i with defProfile := .update node "default_profile" i.defProfile }
  let numProfiles := node.children.length
  if numProfiles = 0 then (parseParam, i)
  else if ¬ alloc then (parseParam, { i with profiles := [] })
  else
    (.ok, { i with
      profiles := node.children.map fun chldNode => .update chldNode "supported_profile" (.copy [])
      currentProfile := .copy i.defProfile.name
      numProfiles := UInt8.ofNat numProfiles })

/-! ## NPU profile -/

/-- `nas_sw_npu_profile_kv_pair_t`, in the order of its keys. -/
abbrev NpuProfileKv := List (CString × CString)

/-- The value of a key that is there, or a new pair. -/
def kvPut (key value : CString) : NpuProfileKv → NpuProfileKv
  | [] => [(key, value)]
  | (k, v) :: l =>
    if key = k then (k, value) :: l
    else if key < k then (key, value) :: (k, v) :: l
    else (k, v) :: kvPut key value l

def nasCmnNpuProfileAttrSize : Nat := 256

def npuProfileElem (kv : NpuProfileKv) (chldNode : ConfigNode) : NpuProfileKv :=
  match chldNode.attr "id" with
  | none => kv
  | some keyAttr =>
    match chldNode.attr "value" with
    | none => kv
    | some valueAttr =>
      if nasCmnNpuProfileAttrSize ≤ keyAttr.length ∨ nasCmnNpuProfileAttrSize ≤ valueAttr.length then kv
      else kvPut keyAttr valueAttr kv

/-- `nas_switch_update_npu_profile_info`. -/
def nasSwitchUpdateNpuProfileInfo (node : ConfigNode) (kv : NpuProfileKv) : StdError × NpuProfileKv :=
  if node.children.length = 0 then (parseParam, kv)
  else (.ok, node.children.foldl npuProfileElem kv)

/-! ## UFT modes -/

/-- An entry of the mode table, all zero before. -/
def uftElem (c : SwConsts) (chldNode : ConfigNode) : UftInfo :=
  let mode := nasStdCfgAttrUpdate (nums chldNode) "mode" 0
  if mode < c.baseSwitchUftModeMin ∨ mode > c.baseSwitchUftModeMax then ⟨0, 0, 0, 0⟩
  else
    { mode := mode
      l2TableSize := nasStdCfgAttrUpdate (nums chldNode) "l2_max" 0
      l3RouteTableSize := nasStdCfgAttrUpdate (nums chldNode) "l3_max" 0
      l3HostTableSize := nasStdCfgAttrUpdate (nums chldNode) "arp_max" 0 }

/-- `nas_switch_update_uft_info`. -/
def nasSwitchUpdateUftInfo (c : SwConsts) (alloc : Bool) (node : ConfigNode) (i : NasSwitchInfo) :
    StdError × NasSwitchInfo :=
  let i := { i with defUftmode := nasStdCfgAttrUpdate (nums node) "default_mode" i.defUftmode }
  let numUftEntries := node.children.length
  if numUftEntries = 0 then (parseParam, i)
  else if ¬ alloc then (parseParam, { i with uftInfo := [] })
  else
    (.ok, { i with
      uftInfo := node.children.map (uftElem c)
      currentUftmode := i.defUftmode
      numUftModes := UInt8.ofNat numUftEntries })

/-! ## ECMP, IPv6 prefixes, L3 tables, deep buffer mode: these always return STD_ERR_OK -/

/-- `nas_switch_update_ecmp_info`. -/
def nasSwitchUpdateEcmpInfo (node : ConfigNode) (i : NasSwitchInfo) : NasSwitchInfo :=
  let i := { i with defMaxEcmpPerGrp := nasStdCfgAttrUpdate (nums node) "default_max_ecmp_per_grp" i.defMaxEcmpPerGrp }
  { i with curMaxEcmpPerGrp := i.defMaxEcmpPerGrp }

/-- `nas_switch_update_ipv6_extended_prefix_info`. -/
def nasSwitchUpdateIpv6ExtendedPrefixInfo (node : ConfigNode) (i : NasSwitchInfo) : NasSwitchInfo :=
  let i := { i with isIpv6ExtPrefixCfgReq := nasStdCfgAttrUpdate (nums node) "config_required" i.isIpv6ExtPrefixCfgReq }
  if i.isIpv6ExtPrefixCfgReq != 0 then
    let i := { i with
      defIpv6ExtPrefixRoutes := nasStdCfgAttrUpdate (nums node) "default_routes" i.defIpv6ExtPrefixRoutes
      maxIpv6ExtPrefixRoutes := nasStdCfgAttrUpdate (nums node) "max_routes" i.maxIpv6ExtPrefixRoutes
      ipv6ExtPrefixRouteBlkSize := nasStdCfgAttrUpdate (nums node) "lpm_block_size" i.ipv6ExtPrefixRouteBlkSize }
    { i with
      curIpv6ExtPrefixRoutes := i.defIpv6ExtPrefixRoutes
      nextIpv6ExtPrefixRoutes := i.defIpv6ExtPrefixRoutes }
  else i

/-- `nas_switch_update_l3_table_size_info`. -/
def nasSwitchUpdateL3TableSizeInfo (node : ConfigNode) (i : NasSwitchInfo) : NasSwitchInfo :=
  { i with
    rifTableSize := nasStdCfgAttrUpdate (nums node) "max_rifs" i.rifTableSize
    rifBlockSize := nasStdCfgAttrUpdate (nums node) "rif_block_size" i.rifBlockSize
    l3NexthopTableSize := nasStdCfgAttrUpdate (nums node) "max_nexthops" i.l3NexthopTableSize
    l3NexthopBlockSize := nasStdCfgAttrUpdate (nums node) "nexthop_block_size" i.l3NexthopBlockSize }

/-- The locals of `nas_switch_update_deep_buffer_mode_info`, never set before use. -/
structure DeepBufferLocals where
  isDbmCfgRequired : UInt32
  defDbm : UInt32

/-- `nas_switch_update_deep_buffer_mode_info`. -/
def nasSwitchUpdateDeepBufferModeInfo (locals : DeepBufferLocals) (node : ConfigNode) (i : NasSwitchInfo) : NasSwitchInfo :=
  let i := { i with
    isDeepBufferModeCfgReq := nasStdCfgAttrUpdate (nums node) "config_required" locals.isDbmCfgRequired != 0 }
  if i.isDeepBufferModeCfgReq then
    let i := { i with defDeepBufferMode := nasStdCfgAttrUpdate (nums node) "default_dbm" locals.defDbm != 0 }
    { i with
      curDeepBufferMode := i.defDeepBufferMode
      nextBootDeepBufferMode := i.defDeepBufferMode }
  else i

/-! ## ACL profile -/

/-- `nas_switch_update_acl_profile_info`'s locals, beside the settings; `fault` says that
    it wrote past the end of the table. -/
structure AclParse where
  info : NasSwitchInfo
  stage : CString
  stageType : UInt32
  maxPoolCount : UInt32
  totalPoolCount : UInt32
  appGroupIdx : Nat
  defaultPoolCount : UInt32
  depthPerPool : UInt32
  fault : Bool

/-- An allocated app group, all zero. -/
def AclProfileAppGroupInfo.zero : AclProfileAppGroupInfo := ⟨0, 0, 0, 0, 0, 0, .copy [], []⟩

/-- The first loop: the pool counts of the stages. -/
def aclStagePools (s : AclParse) (chldNode : ConfigNode) : AclParse :=
  let stage := nasStdCfgStrAttrUpdate chldNode "type" s.stage
  let maxPoolCount := nasStdCfgAttrUpdate (nums chldNode) "max_pool_avail" s.maxPoolCount
  let s := { s with stage := stage, maxPoolCount := maxPoolCount, totalPoolCount := s.totalPoolCount + maxPoolCount }
  if stage = "ingress".toList then { s with info.aclProfileMaxIngressPoolCount := maxPoolCount.toUInt8 }
  else if stage = "egress".toList then { s with info.aclProfileMaxEgressPoolCount := maxPoolCount.toUInt8 }
  else s

/-- A write to the table's element at `app_group_idx`. -/
def AclParse.write (s : AclParse) (f : AclProfileAppGroupInfo → AclProfileAppGroupInfo) : AclParse :=
  match s.info.aclProfileAppGroupInfo[s.appGroupIdx]? with
  | none => { s with fault := true }
  | some g => { s with info.aclProfileAppGroupInfo := s.info.aclProfileAppGroupInfo.set s.appGroupIdx (f g) }

def aclApp (appInfoNode : ConfigNode) : AclProfileAppInfo where
  appName := .update appInfoNode "app" (.copy [])
  numUnitsPerEntry := nasStdCfgAttrUpdate (nums appInfoNode) "num_units_per_entry" 0

def aclName (node : ConfigNode) (s : AclParse) : AclParse :=
  s.write fun g => { g with
    stageType := s.stageType.toUInt16
    appGroupName := .update node "name" g.appGroupName }

/-- An absent count is the one last read, whichever group it was in. -/
def aclPoolCounts (node : ConfigNode) (s : AclParse) : AclParse :=
  let s := { s with defaultPoolCount := nasStdCfgAttrUpdate (nums node) "default_pool_count" s.defaultPoolCount }
  s.write fun g => { g with
    defaultPoolCount := s.defaultPoolCount.toUInt8
    currentPoolCount := s.defaultPoolCount.toUInt8
    nextBootPoolCount := s.defaultPoolCount.toUInt8 }

/-- So is an absent depth. -/
def aclDepth (node : ConfigNode) (s : AclParse) : AclParse :=
  let s := { s with depthPerPool := nasStdCfgAttrUpdate (nums node) "depth_per_pool" s.depthPerPool }
  s.write fun g => { g with
    depthPerPool := s.depthPerPool.toUInt16
    numApp := UInt8.ofNat node.children.length }

/-- One app group. -/
def aclAppGroup (allocApps : Nat → Bool) (s : AclParse) (node : ConfigNode) : StdError × AclParse :=
  let s := aclDepth node (aclPoolCounts node (aclName node s))
  if node.children.length = 0 then (parseParam, s)
  else if ¬ allocApps s.appGroupIdx then (parseParam, s.write fun g => { g with appInfo := [] })
  else
    let s := s.write fun g => { g with appInfo := node.children.map aclApp }
    (.ok, { s with appGroupIdx := s.appGroupIdx + 1 })

/-- A loop that returns at its first error. -/
def untilError {σ α : Type} (f : σ → α → StdError × σ) : σ → List α → StdError × σ
  | s, [] => (.ok, s)
  | s, a :: l =>
    match f s a with
    | (.ok, s) => untilError f s l
    | r => r

/-- The stage of the groups that follow: an unknown type leaves the last one. -/
def aclStageType (c : SwConsts) (chldNode : ConfigNode) (s : AclParse) : AclParse :=
  let stage := nasStdCfgStrAttrUpdate chldNode "type" s.stage
  { s with
    stage := stage
    stageType :=
      if stage = "ingress".toList then c.baseAclStageIngress
      else if stage = "egress".toList then c.baseAclStageEgress
      else s.stageType }

/-- The second loop: the app groups of one stage. -/
def aclStage (c : SwConsts) (allocApps : Nat → Bool) (s : AclParse) (chldNode : ConfigNode) : StdError × AclParse :=
  untilError (aclAppGroup allocApps) (aclStageType c chldNode s) chldNode.children

/-- The table's allocation, which fails or gives zeroed groups. -/
def aclAlloc (allocGroups : Bool) (i : NasSwitchInfo) (totalPoolCount : UInt32) : NasSwitchInfo :=
  if allocGroups then { i with aclProfileAppGroupInfo := List.replicate totalPoolCount.toNat .zero }
  else { i with
    aclProfileAppGroupInfo := []
    aclProfileMaxIngressPoolCount := 0
    aclProfileMaxEgressPoolCount := 0 }

def setAclProfileValid (i : NasSwitchInfo) : NasSwitchInfo := { i with aclProfileValid := true }

/-- `nas_switch_update_acl_profile_info`. -/
def nasSwitchUpdateAclProfileInfo (c : SwConsts) (allocGroups : Bool) (allocApps : Nat → Bool) (node : ConfigNode)
    (i : NasSwitchInfo) : StdError × AclParse :=
  let s := node.children.foldl aclStagePools ⟨i, [], 0, 0, 0, 0, 0, 0, false⟩
  let s := { s with info := aclAlloc allocGroups s.info s.totalPoolCount }
  if ¬ allocGroups then (parseParam, s)
  else
    match untilError (aclStage c allocApps) s node.children with
    | (.ok, s) => (.ok, { s with info := setAclProfileValid s.info })
    | r => r

/-! ## The next-boot VXLAN counts -/

def SameOverlay (i j : NasSwitchInfo) : Prop :=
  j.nextBootMaxVxlanOverlayRifs = i.nextBootMaxVxlanOverlayRifs ∧
    j.nextBootMaxVxlanOverlayNexthops = i.nextBootMaxVxlanOverlayNexthops

theorem SameOverlay.refl (i : NasSwitchInfo) : SameOverlay i i := ⟨rfl, rfl⟩

theorem SameOverlay.trans {i j k : NasSwitchInfo} (h : SameOverlay i j) (h' : SameOverlay j k) : SameOverlay i k :=
  ⟨h'.1.trans h.1, h'.2.trans h.2⟩

end NasCommon.SwProfile
