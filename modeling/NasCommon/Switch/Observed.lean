/-
  NasCommon.Switch.Observed — what is reported of the settings from a boot to the next
  (`nas_sw_parse_db_and_update`, the `nas_sw_profile_*_set` and `nas_sw_profile_*_get`
  functions).

  The boot publishes the settings in force in the running config. From then on they are
  reported by the getters, while any calls configure those of the next boot.
  - `reported_iff_published`: the getters that do not refuse report what was published,
    and all of it, but for a profile that switch.xml does not have: that one is in force
    and reported, not published.
  - `riot_conf_current_iff`: the hardware is given the VXLAN values in force exactly when
    the last accepted calls asked for these.
-/

import NasCommon.SwProfile.Getters
import NasCommon.Switch.Reboot

namespace NasCommon.Switch

open SwProfile

/-! ## The settings in force -/

inductive Setting where
  | profile
  | uftmode
  | maxEcmpPerGrp
  | ipv6ExtPrefixRoutes
  | vxlan (x : Vxlan)
  | deepBufferMode
  deriving DecidableEq, Repr

/-- The caller's variables. -/
structure Outs where
  name : CString
  len : Nat
  num : UInt32
  flag : Bool

/-- What a getter that succeeds reports. -/
def okValue {α : Type} (val : α → CpsVal) (r : StdError × Option α) : Option CpsVal :=
  if r.1 = .ok then r.2.map val else none

theorem okValue_confGet {α : Type} (val : α → CpsVal) (nullErr : StdError) (closed : Prop) [Decidable closed] (priv : ErrPriv)
    (value out : α) :
    okValue val (confGet nullErr (if closed then some (confParam priv) else none) value (some out)) =
      if closed then none else some (val value) := by
  by_cases h : closed
  · simp [h, okValue, confGet, confParam]
  · simp [h, okValue, confGet]

theorem okValue_guardedGet {α : Type} (val : α → CpsVal) (nullErr : StdError) (closed : Prop) [Decidable closed]
    (priv : ErrPriv) (value out : α) :
    okValue val (guardedGet (if closed then some (confParam priv) else none) nullErr value (some out)) =
      if closed then none else some (val value) := by
  by_cases h : closed
  · simp [h, okValue, guardedGet, confParam]
  · simp [h, okValue, guardedGet, confGet]

namespace Setting

def attr : Setting → SwAttr
  | profile => .switchProfile
  | uftmode => .uftMode
  | maxEcmpPerGrp => .maxEcmpEntryPerGroup
  | ipv6ExtPrefixRoutes => .ipv6ExtendedPrefixRoutes
  | vxlan .riotStatus => .vxlanRiotEnable
  | vxlan .maxOverlayRifs => .maxVxlanOverlayRifs
  | vxlan .maxOverlayNhs => .maxVxlanOverlayNexthops
  | deepBufferMode => .deepBufferModeEnable

/-- The getter of the value in force. -/
def reported (i : NasSwitchInfo) (outs : Outs) : Setting → Option CpsVal
  | profile => okValue .bin (nasSwProfileCurrentProfileGet i (some outs.name) outs.len)
  | uftmode => okValue .u32 (nasSwProfileCurrentUftGet i (some outs.num))
  | maxEcmpPerGrp => okValue .u32 (nasSwProfileCurMaxEcmpPerGrpGet i (some outs.num))
  | ipv6ExtPrefixRoutes => okValue .u32 (nasSwProfileCurIpv6ExtPrefixRoutesGet i (some outs.num))
  | vxlan x => okValue .u32 ((x.get i).1, some (x.cur i))
  | deepBufferMode => okValue (fun b => .u32 (boolU32 b)) (nasSwProfileCurDeepBufferModeGet i (some outs.flag))

def value (n : Settings) : Setting → CpsVal
  | profile => .bin n.profile
  | uftmode => .u32 n.uftmode
  | maxEcmpPerGrp => .u32 n.maxEcmpPerGrp
  | ipv6ExtPrefixRoutes => .u32 n.ipv6ExtPrefixRoutes
  | vxlan x => .u32 (x.value n)
  | deepBufferMode => .u32 (boolU32 n.deepBufferMode)

/-- switch.xml offers the setting. -/
def offered (i : NasSwitchInfo) : Setting → Bool
  | profile => i.numProfiles != 0
  | uftmode => i.numUftModes != 0
  | ipv6ExtPrefixRoutes => nasSwProfileIsIpv6ExtPrefixConfigRequired i
  | deepBufferMode => nasSwProfileIsDeepBufferModeConfigRequired i
  | _ => true

/-- A profile is one that switch.xml has. Of the other settings nothing is asked: a UFT mode
    that switch.xml does not list is published like any. -/
def knownProfile (i : NasSwitchInfo) (n : Settings) (x : Setting) : Prop :=
  x = profile → i.nasSwProfileSupported (some n.profile) = true

theorem reported_eq (i : NasSwitchInfo) {outs : Outs} (hlen : nasCmnProfileNameSize < outs.len) (x : Setting) :
    x.reported i outs = if x.offered i then some (x.value i.current) else none := by
  cases x with
  | profile =>
    have hfits : safestrncpy outs.name i.currentProfile.name outs.len = i.currentProfile.name :=
      safestrncpy_fits (Nat.lt_of_le_of_lt i.currentProfile.fits hlen)
    show okValue .bin (confGet _ _ (safestrncpy outs.name i.currentProfile.name outs.len) _) = _
    rw [hfits, okValue_confGet]
    simp [offered, value, NasSwitchInfo.current]
  | uftmode =>
    rw [reported, nasSwProfileCurrentUftGet, okValue_confGet]
    simp [offered, value, NasSwitchInfo.current]
  | maxEcmpPerGrp => rfl
  | ipv6ExtPrefixRoutes =>
    rw [reported, nasSwProfileCurIpv6ExtPrefixRoutesGet, ipv6ExtPrefixGet, okValue_guardedGet]
    cases h : nasSwProfileIsIpv6ExtPrefixConfigRequired i <;> simp [offered, value, NasSwitchInfo.current, h]
  | vxlan x => cases x <;> rfl
  | deepBufferMode =>
    rw [reported, nasSwProfileCurDeepBufferModeGet, okValue_guardedGet]
    cases h : nasSwProfileIsDeepBufferModeConfigRequired i <;> simp [offered, value, NasSwitchInfo.current, h]

theorem published_iff (swId : UInt32) (i : NasSwitchInfo) (x : Setting) (v : CpsVal) :
    (x.attr, v) ∈ (swRunningObject swId i).attrs ↔ v = x.value i.current ∧ x.knownProfile i i.current := by
  cases x with
  | profile =>
    cases h : i.nasSwProfileSupported (some i.currentProfile.name) <;>
      simp [attr, swRunningObject, knownProfile, value, NasSwitchInfo.current, h]
  | vxlan x => cases x <;> simp [attr, swRunningObject, knownProfile, value, Vxlan.value, NasSwitchInfo.current]
  | _ => simp [attr, swRunningObject, knownProfile, value, NasSwitchInfo.current]

end Setting

/-! ## From the boot on -/

theorem boot_published {swId : UInt32} {db : CpsDb} {i : NasSwitchInfo} {r : SwRunning}
    (h : (nasSwParseDbAndUpdate swId db i).running = some r) :
    r = swRunningObject swId (beforeAcl db i) ∧
      (nasSwParseDbAndUpdate swId db i).acl.info.current = (beforeAcl db i).current := by
  simp only [nasSwParseDbAndUpdate] at h ⊢
  split at h
  · cases h
  split at h
  · cases h
  rename_i hcreate hcommit
  simp only [hcreate, hcommit, if_false]
  exact ⟨(Option.some.inj h).symm,
    (parseAclDb_keeps swId db.aclStartup db.aclCommitOk ⟨beforeAcl db i, [], false⟩).1⟩

section Boot

variable (c : SwConsts) (swId : UInt32) (db : CpsDb) {i : NasSwitchInfo}

theorem boot_blockSized (hblk : Ipv6BlockSized i) : Ipv6BlockSized (nasSwParseDbAndUpdate swId db i).acl.info := by
  have hfixed := boot_fixed swId db i
  show Ipv6BlockSized (nasSwParseDbAndUpdate swId db i).acl.info.fixed
  rw [hfixed]
  exact hblk

/-- From a boot that published on, whatever is configured: no getter but the VXLAN ones
    tells that anything was; and a setting is reported (a profile, with a name that
    switch.xml has) exactly when it was published so and switch.xml offers it. -/
theorem reported_iff_published {r : SwRunning} (hblk : Ipv6BlockSized i)
    (hr : (nasSwParseDbAndUpdate swId db i).running = some r) (calls : List SetCall) :
    let o := (nasSwParseDbAndUpdate swId db i).acl.info
    let j := Runs.final (setStep c) o calls
    (∀ g, getAnswer j g = getAnswer o g) ∧
    ∀ (outs : Outs) (x : Setting) (v : CpsVal), nasCmnProfileNameSize < outs.len →
      (x.reported j outs = some v ∧ x.knownProfile i o.current ↔ (x.attr, v) ∈ r.attrs ∧ x.offered i = true) := by
  intro o j
  obtain ⟨hpub, hcur⟩ := boot_published hr
  have hcur : o.current = (beforeAcl db i).current := hcur
  have hblk : Ipv6BlockSized o := boot_blockSized swId db hblk
  have hframe : j.frame = o.frame := setters_frame c calls o hblk
  have hfixed : j.fixed = i.fixed := (fixed_of_frame hframe).trans (boot_fixed swId db i)
  refine ⟨fun g => getAnswer_run c hblk calls g, fun outs x v hlen => ?_⟩
  have hoffered : x.offered j = x.offered i := by
    show x.offered j.fixed = x.offered i.fixed
    rw [hfixed]
  have hjcur : j.current = o.current := by
    show j.frame.current = o.frame.current
    rw [hframe]
  have hknown : x.knownProfile (beforeAcl db i) o.current ↔ x.knownProfile i o.current := by
    show x.knownProfile (beforeAcl db i).fixed o.current ↔ x.knownProfile i.fixed o.current
    rw [beforeAcl_fixed]
  rw [x.reported_eq j hlen, hoffered, hjcur, hpub, x.published_iff, ← hcur, hknown]
  cases x.offered i with
  | true => simp [eq_comm]
  | false => simp

/-- switch.xml with profile "a" alone, and IPv6 routes in blocks of 4. -/
def oneProfile : NasSwitchInfo := { profileInfo with ipv6ExtPrefixRouteBlkSize := 4 }

/-- Profile "b" stored: in force and reported, whatever is configured, and not published. -/
theorem reported_iff_published_unlisted :
    let db := storedDb [⟨.switchProfile, 0, ['b']⟩]
    let o := (nasSwParseDbAndUpdate 0 db oneProfile).acl.info
    let j := Runs.final (setStep ⟨1, 4, 1, 2⟩) o [.profile (some ['a']) (.other 3), .uft 1 (.other 3)]
    (nasSwParseDbAndUpdate 0 db oneProfile).running = some (swRunningObject 0 (beforeAcl db oneProfile)) ∧
    Setting.profile.reported j ⟨[], 65, 0, false⟩ = some (.bin ['b']) ∧
    (SwAttr.switchProfile, CpsVal.bin ['b']) ∉ (swRunningObject 0 (beforeAcl db oneProfile)).attrs := by
  intro db o j
  have hblk : Ipv6BlockSized oneProfile := by unfold Ipv6BlockSized; decide
  refine ⟨rfl, by decide, fun hmem => ?_⟩
  have h := (reported_iff_published ⟨1, 4, 1, 2⟩ 0 db hblk rfl [.profile (some ['a']) (.other 3), .uft 1 (.other 3)]).2
    ⟨[], 65, 0, false⟩ .profile (.bin ['b']) (by decide)
  exact absurd ((h.mpr ⟨hmem, by decide⟩).2 rfl) (by decide)

theorem riotConfGet_eq_iff (j : NasSwitchInfo) :
    nasSwProfileVxlanRiotConfGet j = (.ok, Vxlan.riotStatus.cur j, Vxlan.maxOverlayRifs.cur j, Vxlan.maxOverlayNhs.cur j) ↔
      ∀ x : Vxlan, x.conf j = x.cur j := by
  constructor
  · intro h x
    simp only [nasSwProfileVxlanRiotConfGet, Prod.mk.injEq, true_and] at h
    cases x with
    | riotStatus => exact h.1
    | maxOverlayRifs => exact h.2.1
    | maxOverlayNhs => exact h.2.2
  · intro h
    rw [← h .riotStatus, ← h .maxOverlayRifs, ← h .maxOverlayNhs]
    rfl

/-- From a boot on, whatever is configured: the hardware is given the VXLAN values in
    force exactly when, of each, the last accepted call asked for the one in force. -/
theorem riot_conf_current_iff (hblk : Ipv6BlockSized i) (calls : List SetCall) :
    let o := (nasSwParseDbAndUpdate swId db i).acl.info
    let j := Runs.final (setStep c) o calls
    nasSwProfileVxlanRiotConfGet j = (.ok, Vxlan.riotStatus.cur j, Vxlan.maxOverlayRifs.cur j, Vxlan.maxOverlayNhs.cur j) ↔
      ∀ (x : Vxlan) (v : UInt32),
        Runs.lastWritten (x.accepted i.defaults) (calls.zip (Runs.answers (setStep c) o calls)) = some v → v = x.cur o := by
  intro o j
  have hblk : Ipv6BlockSized o := boot_blockSized swId db hblk
  have hdefaults : o.defaults = i.defaults := by
    show o.fixed.defaults = i.fixed.defaults
    rw [boot_fixed]
  have hbooted : o.nextBoot = o.current := (boot_settings swId db i).2.trans (boot_settings swId db i).1.symm
  rw [riotConfGet_eq_iff]
  refine forall_congr' fun x => ?_
  have hcur : x.cur j = x.cur o := by
    rw [x.cur_eq, x.cur_eq]
    show x.value j.frame.current = x.value o.frame.current
    rw [setters_frame c calls o hblk]
  rw [hcur, vxlan_conf_last c hblk x calls, hdefaults, x.conf_eq o, hbooted, ← x.cur_eq]
  cases Runs.lastWritten (x.accepted i.defaults) (calls.zip (Runs.answers (setStep c) o calls)) with
  | none => simp
  | some v => simp

/-- RIOT on at boot and configured off: the hardware is given "off". -/
theorem riot_conf_current_iff_off :
    let o := (nasSwParseDbAndUpdate 0 (storedDb []) riotInfo).acl.info
    let j := Runs.final (setStep ⟨1, 4, 1, 2⟩) o [.vxlanRiotStatus 0 (.other 3)]
    nasSwProfileVxlanRiotConfGet j = (.ok, 0, 16, 8) ∧
    ¬ nasSwProfileVxlanRiotConfGet j =
      (.ok, Vxlan.riotStatus.cur j, Vxlan.maxOverlayRifs.cur j, Vxlan.maxOverlayNhs.cur j) := by
  intro o j
  have hblk : Ipv6BlockSized riotInfo := by unfold Ipv6BlockSized; decide
  refine ⟨by decide, fun h => ?_⟩
  have h := (riot_conf_current_iff ⟨1, 4, 1, 2⟩ 0 (storedDb []) hblk [.vxlanRiotStatus 0 (.other 3)]).mp h .riotStatus 0
    (by decide)
  exact absurd h (by decide)

end Boot

end NasCommon.Switch
