/-
  NasCommon.SwProfile.Info — the switch profile settings and the CPS objects they are
  read from and published in (`nas_cmn_sw_init_info_t`).

  Each setting has a default (from switch.xml), a next-boot value (configured, to take
  effect when saved and rebooted) and a current one. `Settings` is one of each.
-/

import NasCommon.Lib.Attrs
import NasCommon.Types

namespace NasCommon.SwProfile

def nasCmnProfileNameSize : Nat := 64

/-- `char name[NAS_CMN_PROFILE_NAME_SIZE + 1]`. -/
structure ProfileName where
  name : CString
  fits : name.length ≤ nasCmnProfileNameSize
  deriving DecidableEq

/-- `safestrncpy (name, s, sizeof (name))`. -/
def ProfileName.copy (s : CString) : ProfileName :=
  ⟨safestrncpy [] s (nasCmnProfileNameSize + 1), length_safestrncpy (Nat.succ_pos _)⟩

theorem ProfileName.copy_name (n : ProfileName) : ProfileName.copy n.name = n := by
  cases n with
  | mk name fits =>
    simp only [ProfileName.copy, ProfileName.mk.injEq]
    exact safestrncpy_fits (Nat.lt_succ_of_le fits)

/-! ## CPS objects -/

/-- The attributes of `BASE_SWITCH_SWITCHING_ENTITIES_SWITCHING_ENTITY`. -/
inductive SwAttr where
  | switchProfile
  | uftMode
  | maxEcmpEntryPerGroup
  | ipv6ExtendedPrefixRoutes
  | vxlanRiotEnable
  | maxVxlanOverlayRifs
  | maxVxlanOverlayNexthops
  | deepBufferModeEnable
  | other (id : Nat)
  deriving DecidableEq, Repr

/-- The attributes of `BASE_ACL_SWITCHING_ENTITY_APP_GROUP`. -/
inductive AclAttr where
  | switchId
  | appGroupId
  | appGroupPoolCount
  | other (id : Nat)
  deriving DecidableEq, Repr

/-- An attribute, with its data as each of its two readers sees it. -/
structure CpsAttr (Id : Type) where
  id : Id
  dataU32 : UInt32
  dataBin : CString
  deriving DecidableEq, Repr

abbrev CpsObject (Id : Type) := List (CpsAttr Id)

/-- `cps_api_object_get_data`: the first attribute with the id. -/
def CpsObject.getData {Id : Type} [DecidableEq Id] (o : CpsObject Id) (id : Id) : Option (CpsAttr Id) :=
  Attrs.first CpsAttr.id id o

/-- A value as it is added to an object. -/
inductive CpsVal where
  | u32 (v : UInt32)
  | bin (s : CString)
  deriving DecidableEq, Repr

/-- An object to be committed. -/
abbrev RunningObject (Id : Type) := List (Id × CpsVal)

/-! ## The settings -/

structure UftInfo where
  mode : UInt32
  l2TableSize : UInt32
  l3RouteTableSize : UInt32
  l3HostTableSize : UInt32

structure AclProfileAppInfo where
  numUnitsPerEntry : UInt32
  appName : ProfileName

structure AclProfileAppGroupInfo where
  numApp : UInt8
  defaultPoolCount : UInt8
  currentPoolCount : UInt8
  nextBootPoolCount : UInt8
  depthPerPool : UInt16
  stageType : UInt16
  appGroupName : ProfileName
  appInfo : List AclProfileAppInfo

/-- `nas_cmn_sw_init_info_t`. -/
structure NasSwitchInfo where
  numProfiles : UInt8
  numUftModes : UInt8
  aclProfileMaxIngressPoolCount : UInt8
  aclProfileMaxEgressPoolCount : UInt8
  profiles : List ProfileName
  currentProfile : ProfileName
  nextBootProfile : ProfileName
  defProfile : ProfileName
  uftInfo : List UftInfo
  aclProfileAppGroupInfo : List AclProfileAppGroupInfo
  aclProfileValid : Bool
  currentUftmode : UInt32
  nextBootUftmode : UInt32
  defUftmode : UInt32
  curMaxEcmpPerGrp : UInt32
  nextBootMaxEcmpPerGrp : UInt32
  defMaxEcmpPerGrp : UInt32
  isIpv6ExtPrefixCfgReq : UInt32
  defIpv6ExtPrefixRoutes : UInt32
  maxIpv6ExtPrefixRoutes : UInt32
  curIpv6ExtPrefixRoutes : UInt32
  nextIpv6ExtPrefixRoutes : UInt32
  ipv6ExtPrefixRouteBlkSize : UInt32
  rifTableSize : UInt32
  l3NexthopTableSize : UInt32
  rifBlockSize : UInt32
  l3NexthopBlockSize : UInt32
  curVxlanRiotEnable : Bool
  nextBootVxlanRiotEnable : Bool
  defVxlanRiotEnable : Bool
  curMaxVxlanOverlayRifs : UInt32
  nextBootMaxVxlanOverlayRifs : UInt32
  defMaxVxlanOverlayRifs : UInt32
  curMaxVxlanOverlayNexthops : UInt32
  nextBootMaxVxlanOverlayNexthops : UInt32
  defMaxVxlanOverlayNexthops : UInt32
  isDeepBufferModeCfgReq : Bool
  defDeepBufferMode : Bool
  curDeepBufferMode : Bool
  nextBootDeepBufferMode : Bool

/-- The statically allocated `nas_switch_info`: all zero. -/
def NasSwitchInfo.zero : NasSwitchInfo where
  numProfiles := 0
  numUftModes := 0
  aclProfileMaxIngressPoolCount := 0
  aclProfileMaxEgressPoolCount := 0
  profiles := []
  currentProfile := .copy []
  nextBootProfile := .copy []
  defProfile := .copy []
  uftInfo := []
  aclProfileAppGroupInfo := []
  aclProfileValid := false
  currentUftmode := 0
  nextBootUftmode := 0
  defUftmode := 0
  curMaxEcmpPerGrp := 0
  nextBootMaxEcmpPerGrp := 0
  defMaxEcmpPerGrp := 0
  isIpv6ExtPrefixCfgReq := 0
  defIpv6ExtPrefixRoutes := 0
  maxIpv6ExtPrefixRoutes := 0
  curIpv6ExtPrefixRoutes := 0
  nextIpv6ExtPrefixRoutes := 0
  ipv6ExtPrefixRouteBlkSize := 0
  rifTableSize := 0
  l3NexthopTableSize := 0
  rifBlockSize := 0
  l3NexthopBlockSize := 0
  curVxlanRiotEnable := false
  nextBootVxlanRiotEnable := false
  defVxlanRiotEnable := false
  curMaxVxlanOverlayRifs := 0
  nextBootMaxVxlanOverlayRifs := 0
  defMaxVxlanOverlayRifs := 0
  curMaxVxlanOverlayNexthops := 0
  nextBootMaxVxlanOverlayNexthops := 0
  defMaxVxlanOverlayNexthops := 0
  isDeepBufferModeCfgReq := false
  defDeepBufferMode := false
  curDeepBufferMode := false
  nextBootDeepBufferMode := false

/-- One value of each setting. -/
structure Settings where
  profile : CString
  uftmode : UInt32
  maxEcmpPerGrp : UInt32
  ipv6ExtPrefixRoutes : UInt32
  vxlanRiotEnable : Bool
  maxVxlanOverlayRifs : UInt32
  maxVxlanOverlayNexthops : UInt32
  deepBufferMode : Bool
  deriving DecidableEq

namespace NasSwitchInfo

def current (i : NasSwitchInfo) : Settings :=
  ⟨i.currentProfile.name, i.currentUftmode, i.curMaxEcmpPerGrp, i.curIpv6ExtPrefixRoutes, i.curVxlanRiotEnable,
   i.curMaxVxlanOverlayRifs, i.curMaxVxlanOverlayNexthops, i.curDeepBufferMode⟩

def nextBoot (i : NasSwitchInfo) : Settings :=
  ⟨i.nextBootProfile.name, i.nextBootUftmode, i.nextBootMaxEcmpPerGrp, i.nextIpv6ExtPrefixRoutes,
   i.nextBootVxlanRiotEnable, i.nextBootMaxVxlanOverlayRifs, i.nextBootMaxVxlanOverlayNexthops,
   i.nextBootDeepBufferMode⟩

def defaults (i : NasSwitchInfo) : Settings :=
  ⟨i.defProfile.name, i.defUftmode, i.defMaxEcmpPerGrp, i.defIpv6ExtPrefixRoutes, i.defVxlanRiotEnable,
   i.defMaxVxlanOverlayRifs, i.defMaxVxlanOverlayNexthops, i.defDeepBufferMode⟩

/-- `nas_sw_profile_supported`. -/
def nasSwProfileSupported (i : NasSwitchInfo) (confProfile : Option CString) : Bool :=
  match confProfile with
  | none => false
  | some name =>
    if i.numProfiles = 0 then false
    else (i.profiles.take i.numProfiles.toNat).any fun p => name = p.name

end NasSwitchInfo

/-! ## From switch.xml -/

/-- A configuration element's numeric attribute, as `strtoul` reads it, if present. -/
abbrev ConfigAttrs := String → Option UInt32

/-- `nas_std_cfg_attr_update`: an absent attribute leaves the destination alone. -/
def nasStdCfgAttrUpdate (node : ConfigAttrs) (attr : String) (dest : UInt32) : UInt32 := (node attr).getD dest

/-- `nas_switch_update_vxlan_riot_info`. -/
def nasSwitchUpdateVxlanRiotInfo (node : ConfigAttrs) (i : NasSwitchInfo) : NasSwitchInfo :=
  let i := { i with defVxlanRiotEnable := nasStdCfgAttrUpdate node "enable" 0 != 0 }
  if i.defVxlanRiotEnable then
    let i := { i with
      defMaxVxlanOverlayRifs := nasStdCfgAttrUpdate node "max_overlay_rifs" i.defMaxVxlanOverlayRifs
      defMaxVxlanOverlayNexthops := nasStdCfgAttrUpdate node "max_overlay_nexthops" i.defMaxVxlanOverlayNexthops }
    { i with
      curVxlanRiotEnable := i.defVxlanRiotEnable
      curMaxVxlanOverlayRifs := i.defMaxVxlanOverlayRifs
      curMaxVxlanOverlayNexthops := i.defMaxVxlanOverlayNexthops }
  else i

end NasCommon.SwProfile
