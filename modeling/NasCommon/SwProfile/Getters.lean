/-
  NasCommon.SwProfile.Getters — reading the settings while the switch is up
  (the `nas_sw_profile_*_get` functions).

  A getter answers a value of `nas_switch_info`, or refuses: a NULL argument, no profiles
  or UFT modes, a configuration that is not required. The VXLAN getters tell the
  next-boot value beside the current one, and the one that the hardware's initialisation
  calls tells the next-boot values alone.
  - `getAnswer_run`: whatever is configured, every other getter answers what it did
    before; those of the configured values look in the startup database.
  - `vxlan_conf_last`: a VXLAN getter reports as configured what the last accepted call
    of its setter asked for.
-/

import NasCommon.Lib.Refinement
import NasCommon.SwProfile.Uft

namespace NasCommon.SwProfile

/-! ## The getters -/

/-- A getter that looks at its output argument last. -/
def guardedGet {α : Type} (refused : Option StdError) (nullErr : StdError) (value : α) (out : Option α) :
    StdError × Option α :=
  match refused with
  | some e => (e, out)
  | none => confGet nullErr none value out

/-- A getter of a profile name, into a buffer of `len` characters. -/
def profileGet (i : NasSwitchInfo) (name : CString) (out : Option CString) (len : Nat) : StdError × Option CString :=
  confGet (confParam (.num 2)) (if i.numProfiles = 0 then some (confParam (.num 2)) else none)
    (safestrncpy (out.getD []) name len) out

def nasSwProfileCurrentProfileGet (i : NasSwitchInfo) (currentProfile : Option CString) (len : Nat) :
    StdError × Option CString :=
  profileGet i i.currentProfile.name currentProfile len

def nasSwProfileDefaultProfileGet (i : NasSwitchInfo) (defaultProfile : Option CString) (len : Nat) :
    StdError × Option CString :=
  profileGet i i.defProfile.name defaultProfile len

/-- `cpsObj` is the object's SUPPORTED_PROFILES attributes. -/
def nasSwProfileSupportedProfilesGet (i : NasSwitchInfo) (cpsObj : List ProfileName) : StdError × List ProfileName :=
  if i.numProfiles = 0 then (confParam (.num 2), cpsObj)
  else (.ok, cpsObj ++ i.profiles.take i.numProfiles.toNat)

def nasSwProfileNumProfilesGet (i : NasSwitchInfo) (numProfiles : Option UInt32) : StdError × Option UInt32 :=
  confGet (confParam (.num 2)) none i.numProfiles.toUInt32 numProfiles

def nasSwProfileCurrentUftGet (i : NasSwitchInfo) (currentUft : Option UInt32) : StdError × Option UInt32 :=
  confGet (confParam (.num 2)) (if i.numUftModes = 0 then some (confParam (.num 2)) else none) i.currentUftmode currentUft

def nasSwProfileUftNumModesGet (i : NasSwitchInfo) (numUftModes : Option UInt32) : StdError × Option UInt32 :=
  guardedGet (if i.numUftModes = 0 then some (confParam (.num 2)) else none) (confParam (.num 2)) i.numUftModes.toUInt32
    numUftModes

def nasSwProfileCurMaxEcmpPerGrpGet (i : NasSwitchInfo) (curMaxEcmpPerGrp : Option UInt32) : StdError × Option UInt32 :=
  confGet (confParam (.num 2)) none i.curMaxEcmpPerGrp curMaxEcmpPerGrp

/-- A getter of the IPv6 extended prefix configuration. -/
def ipv6ExtPrefixGet (i : NasSwitchInfo) (value : UInt32) (out : Option UInt32) : StdError × Option UInt32 :=
  guardedGet (if nasSwProfileIsIpv6ExtPrefixConfigRequired i = false then some (confParam .eNotSupported) else none)
    (confParam .eParam) value out

def nasSwProfileCurIpv6ExtPrefixRoutesGet (i : NasSwitchInfo) (curIpv6ExtPrefixRoutes : Option UInt32) :
    StdError × Option UInt32 :=
  ipv6ExtPrefixGet i i.curIpv6ExtPrefixRoutes curIpv6ExtPrefixRoutes

def nasSwProfileMaxIpv6ExtPrefixRoutesGet (i : NasSwitchInfo) (maxIpv6ExtPrefixRoutes : Option UInt32) :
    StdError × Option UInt32 :=
  ipv6ExtPrefixGet i i.maxIpv6ExtPrefixRoutes maxIpv6ExtPrefixRoutes

def nasSwProfileIpv6ExtPrefixRouteLpmBlkSizeGet (i : NasSwitchInfo) (ipv6ExtPrefixRouteBlkSize : Option UInt32) :
    StdError × Option UInt32 :=
  ipv6ExtPrefixGet i i.ipv6ExtPrefixRouteBlkSize ipv6ExtPrefixRouteBlkSize

def nasSwProfileCurDeepBufferModeGet (i : NasSwitchInfo) (curDeepBufferMode : Option Bool) : StdError × Option Bool :=
  guardedGet (if nasSwProfileIsDeepBufferModeConfigRequired i = false then some (confParam .eNotSupported) else none)
    (confParam .eParam) i.curDeepBufferMode curDeepBufferMode

/-- A getter of a table's size, 0 when switch.xml does not give it. -/
def tableSizeGet (size out : UInt32) : StdError × UInt32 :=
  if size = 0 then (confParam .eNotSupported, out) else (.ok, size)

def nasSwProfileRifTableSizeGet (i : NasSwitchInfo) (rifTableSize : UInt32) : StdError × UInt32 :=
  tableSizeGet i.rifTableSize rifTableSize

def nasSwProfileL3NexthopTableSizeGet (i : NasSwitchInfo) (l3NexthopTableSize : UInt32) : StdError × UInt32 :=
  tableSizeGet i.l3NexthopTableSize l3NexthopTableSize

/-! ### VXLAN: the current value, then the configured one -/

def nasSwProfileVxlanRiotStatusGet (i : NasSwitchInfo) : StdError × UInt32 × UInt32 :=
  (.ok, boolU32 i.curVxlanRiotEnable, boolU32 i.nextBootVxlanRiotEnable)

def nasSwProfileMaxVxlanOverlayRifsGet (i : NasSwitchInfo) : StdError × UInt32 × UInt32 :=
  (.ok, i.curMaxVxlanOverlayRifs, i.nextBootMaxVxlanOverlayRifs)

def nasSwProfileMaxVxlanOverlayNhsGet (i : NasSwitchInfo) : StdError × UInt32 × UInt32 :=
  (.ok, i.curMaxVxlanOverlayNexthops, i.nextBootMaxVxlanOverlayNexthops)

/-- What the hardware is initialised with: the next-boot values. -/
def nasSwProfileVxlanRiotConfGet (i : NasSwitchInfo) : StdError × UInt32 × UInt32 × UInt32 :=
  (.ok, boolU32 i.nextBootVxlanRiotEnable, i.nextBootMaxVxlanOverlayRifs, i.nextBootMaxVxlanOverlayNexthops)

inductive Vxlan where
  | riotStatus
  | maxOverlayRifs
  | maxOverlayNhs
  deriving DecidableEq, Repr

namespace Vxlan

def get (i : NasSwitchInfo) : Vxlan → StdError × UInt32 × UInt32
  | riotStatus => nasSwProfileVxlanRiotStatusGet i
  | maxOverlayRifs => nasSwProfileMaxVxlanOverlayRifsGet i
  | maxOverlayNhs => nasSwProfileMaxVxlanOverlayNhsGet i

def cur (x : Vxlan) (i : NasSwitchInfo) : UInt32 := (x.get i).2.1

def conf (x : Vxlan) (i : NasSwitchInfo) : UInt32 := (x.get i).2.2

/-- The setting's value among all of them. -/
def value (n : Settings) : Vxlan → UInt32
  | riotStatus => boolU32 n.vxlanRiotEnable
  | maxOverlayRifs => n.maxVxlanOverlayRifs
  | maxOverlayNhs => n.maxVxlanOverlayNexthops

/-- What a call asks the setting to be, the defaults being `d`. -/
def asked (d : Settings) : Vxlan → SetCall → Option UInt32
  | riotStatus, .vxlanRiotStatus conf op => some (boolU32 (orDefaultOn op d.vxlanRiotEnable (conf != 0)))
  | maxOverlayRifs, .maxVxlanOverlayRifs conf op => some (orDefaultOn op d.maxVxlanOverlayRifs conf)
  | maxOverlayNhs, .maxVxlanOverlayNhs conf op => some (orDefaultOn op d.maxVxlanOverlayNexthops conf)
  | _, _ => none

/-- And it counts when the call is answered OK. -/
def accepted (d : Settings) (x : Vxlan) (call : SetCall) (out : SetOutcome) : Option UInt32 :=
  if out = .ret .ok then x.asked d call else none

theorem cur_eq (x : Vxlan) (i : NasSwitchInfo) : x.cur i = x.value i.current := by cases x <;> rfl

theorem conf_eq (x : Vxlan) (i : NasSwitchInfo) : x.conf i = x.value i.nextBoot := by cases x <;> rfl

theorem value_requested (d n : Settings) (x : Vxlan) (call : SetCall) :
    x.value (call.requested d n) = (x.asked d call).getD (x.value n) := by
  cases x <;> cases call <;> rfl

end Vxlan

/-! ## What the setters do not show -/

/-- A call of a getter, with what its output arguments point to. -/
inductive GetCall where
  | currentProfile (out : Option CString) (len : Nat)
  | defaultProfile (out : Option CString) (len : Nat)
  | confProfile (startup : Option (List (CpsObject SwAttr))) (out : Option CString) (len : Nat)
  | supportedProfiles (cpsObj : List ProfileName)
  | numProfiles (out : Option UInt32)
  | currentUft (out : Option UInt32)
  | confUft (startup : Option (List (CpsObject SwAttr))) (out : Option UInt32)
  | uftNumModes (out : Option UInt32)
  | uftInfo (c : SwConsts) (uftMode : UInt32) (outs : Option UftSizes)
  | uftDefaultModeInfo (defUftMode : Option UInt32) (outs : Option UftSizes)
  | curMaxEcmpPerGrp (out : Option UInt32)
  | confMaxEcmpPerGrp (startup : Option (List (CpsObject SwAttr))) (out : Option UInt32)
  | curIpv6ExtPrefixRoutes (out : Option UInt32)
  | confIpv6ExtPrefixRoutes (startup : Option (List (CpsObject SwAttr))) (out : Option UInt32)
  | maxIpv6ExtPrefixRoutes (out : Option UInt32)
  | ipv6ExtPrefixRouteLpmBlkSize (out : Option UInt32)
  | curDeepBufferMode (out : Option Bool)
  | confDeepBufferMode (startup : Option (List (CpsObject SwAttr))) (out : Option Bool)
  | rifTableSize (out : UInt32)
  | l3NexthopTableSize (out : UInt32)
  | vxlan (x : Vxlan)

inductive GetAnswer where
  | name (r : StdError × Option CString)
  | names (r : StdError × List ProfileName)
  | num (r : StdError × Option UInt32)
  | flag (r : StdError × Option Bool)
  | size (r : StdError × UInt32)
  | sizes (r : StdError × Option UftSizes)
  | defaultMode (r : StdError × Option UInt32 × Option UftSizes)

/-- Of a VXLAN getter, the current value. -/
def getAnswer (i : NasSwitchInfo) : GetCall → GetAnswer
  | .currentProfile out len => .name (nasSwProfileCurrentProfileGet i out len)
  | .defaultProfile out len => .name (nasSwProfileDefaultProfileGet i out len)
  | .confProfile startup out len => .name (nasSwProfileConfProfileGet i startup out len)
  | .supportedProfiles cpsObj => .names (nasSwProfileSupportedProfilesGet i cpsObj)
  | .numProfiles out => .num (nasSwProfileNumProfilesGet i out)
  | .currentUft out => .num (nasSwProfileCurrentUftGet i out)
  | .confUft startup out => .num (nasSwProfileConfUftGet i startup out)
  | .uftNumModes out => .num (nasSwProfileUftNumModesGet i out)
  | .uftInfo c uftMode outs => .sizes (nasSwProfileUftInfoGet c i uftMode outs)
  | .uftDefaultModeInfo defUftMode outs => .defaultMode (nasSwProfileUftDefaultModeInfoGet i defUftMode outs)
  | .curMaxEcmpPerGrp out => .num (nasSwProfileCurMaxEcmpPerGrpGet i out)
  | .confMaxEcmpPerGrp startup out => .num (nasSwProfileConfMaxEcmpPerGrpGet i startup out)
  | .curIpv6ExtPrefixRoutes out => .num (nasSwProfileCurIpv6ExtPrefixRoutesGet i out)
  | .confIpv6ExtPrefixRoutes startup out => .num (nasSwProfileConfIpv6ExtPrefixRoutesGet i startup out)
  | .maxIpv6ExtPrefixRoutes out => .num (nasSwProfileMaxIpv6ExtPrefixRoutesGet i out)
  | .ipv6ExtPrefixRouteLpmBlkSize out => .num (nasSwProfileIpv6ExtPrefixRouteLpmBlkSizeGet i out)
  | .curDeepBufferMode out => .flag (nasSwProfileCurDeepBufferModeGet i out)
  | .confDeepBufferMode startup out => .flag (nasSwProfileConfDeepBufferModeGet i startup out)
  | .rifTableSize out => .size (nasSwProfileRifTableSizeGet i out)
  | .l3NexthopTableSize out => .size (nasSwProfileL3NexthopTableSizeGet i out)
  | .vxlan x => .size ((x.get i).1, x.cur i)

theorem getAnswer_frame (i : NasSwitchInfo) (g : GetCall) : getAnswer i.frame g = getAnswer i g := by
  cases g with
  | vxlan x => cases x <;> rfl
  | _ => rfl

/-- The frame after any calls. -/
theorem setters_frame (c : SwConsts) (calls : List SetCall) : ∀ i : NasSwitchInfo, Ipv6BlockSized i →
    (Runs.final (setStep c) i calls).frame = i.frame := by
  induction calls with
  | nil => intro i _; rfl
  | cons call calls ih =>
    intro i hblk
    have hframe := setStep_frame c hblk call
    exact (ih _ (ipv6BlockSized_frame hframe hblk)).trans hframe

/-- Whatever is configured, a getter answers what it did before. -/
theorem getAnswer_run (c : SwConsts) {i : NasSwitchInfo} (hblk : Ipv6BlockSized i) (calls : List SetCall) (g : GetCall) :
    getAnswer (Runs.final (setStep c) i calls) g = getAnswer i g := by
  rw [← getAnswer_frame, setters_frame c calls i hblk, getAnswer_frame]

/-! ## What they do -/

/-- One call: a VXLAN value as configured is what the call asked for, if it was accepted. -/
theorem vxlan_conf_step (c : SwConsts) {i : NasSwitchInfo} (hblk : Ipv6BlockSized i) (x : Vxlan) (call : SetCall) :
    x.conf (setStep c i call).2 = (x.accepted i.defaults call (setStep c i call).1).getD (x.conf i) := by
  rcases setStep_result c hblk call with ⟨sub, kind, priv, h⟩ | ⟨j, h, -, hnext, -⟩
  · rw [h]
    rfl
  · rw [h]
    show x.conf j = (x.asked i.defaults call).getD (x.conf i)
    rw [Vxlan.conf_eq, Vxlan.conf_eq, hnext, Vxlan.value_requested]

/-- Over any calls: what the last accepted call of the setting's setter asked for. -/
theorem vxlan_conf_last (c : SwConsts) {i : NasSwitchInfo} (hblk : Ipv6BlockSized i) (x : Vxlan) (calls : List SetCall) :
    x.conf (Runs.final (setStep c) i calls) =
      (Runs.lastWritten (x.accepted i.defaults) (calls.zip (Runs.answers (setStep c) i calls))).getD (x.conf i) := by
  refine Runs.cell_final_answers (I := fun s => Ipv6BlockSized s ∧ s.defaults = i.defaults) (fun s call hs => ?_)
    (fun s call hs => ?_) calls i ⟨hblk, rfl⟩
  · have hframe := setStep_frame c hs.1 call
    refine ⟨ipv6BlockSized_frame hframe hs.1, ?_⟩
    show (setStep c s call).2.frame.defaults = i.defaults
    rw [hframe]
    exact hs.2
  · rw [← hs.2]
    exact vxlan_conf_step c hs.1 x call

end NasCommon.SwProfile
