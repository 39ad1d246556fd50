/-
  NasCommon.SwProfile.Setters — configuring the settings of the next boot
  (the `nas_sw_profile_*_set` functions).

  A setter refuses a value (a name or mode not in its list, a number out of range or
  not a multiple of its block), restores the default on DELETE, or stores the value as
  the next-boot one.
  - `setStep_right`: what one call does, where no block size is 0.
  - `setters_next_boot_only`: over any calls, nothing but the next-boot settings
    changes, each call does what it answers, and settings that are valid or default
    stay so.
-/

import NasCommon.Lib.Runs
import NasCommon.SwProfile.ConfGet
import NasCommon.SwProfile.Parse

namespace NasCommon.SwProfile

/-- `cps_api_operation_types_t`. -/
inductive CpsOper where
  | delete
  | other (op : Nat)
  deriving DecidableEq, Repr

/-! ## What a setter accepts -/

def nasSwUftModeSupported (c : SwConsts) (i : NasSwitchInfo) (mode : UInt32) : Bool :=
  if i.numUftModes = 0 then false
  else if mode < c.baseSwitchUftModeMin ∨ mode > c.baseSwitchUftModeMax then false
  else (i.uftInfo.take i.numUftModes.toNat).any fun u => u.mode = mode

def nasCmnMaxEcmpEntriesPerGrpMin : UInt32 := 2
def nasCmnMaxEcmpEntriesPerGrpMax : UInt32 := 1024

def nasSwMaxEcmpPerGrpSupported (maxEcmpPerGrp : UInt32) : Bool :=
  if maxEcmpPerGrp < nasCmnMaxEcmpEntriesPerGrpMin ∨ maxEcmpPerGrp > nasCmnMaxEcmpEntriesPerGrpMax then false
  else true

/-- What a call comes to: it returns, or divides by zero. -/
inductive SetOutcome where
  | ret (rc : StdError)
  | divideByZero
  deriving DecidableEq, Repr

def nasSwProfileValidateIpv6ExtPrefixRoutesSize (i : NasSwitchInfo) (ipv6ExtPrefixRoutes : UInt32) : SetOutcome :=
  if ipv6ExtPrefixRoutes > i.maxIpv6ExtPrefixRoutes then .ret (confParam .eParam)
  else if i.ipv6ExtPrefixRouteBlkSize = 0 then .divideByZero
  else if ipv6ExtPrefixRoutes % i.ipv6ExtPrefixRouteBlkSize ≠ 0 then .ret (confParam .eParam)
  else .ret .ok

/-! ## The setters -/

def nasSwProfileConfProfileSet (i : NasSwitchInfo) (confProfile : Option CString) (op : CpsOper) :
    SetOutcome × NasSwitchInfo :=
  if op = .delete then (.ret .ok, { i with nextBootProfile := .copy i.defProfile.name })
  else if i.nasSwProfileSupported confProfile = false then (.ret (confParam (.num 2)), i)
  else (.ret .ok, { i with nextBootProfile := .copy (confProfile.getD []) })

def nasSwProfileConfUftSet (c : SwConsts) (i : NasSwitchInfo) (confUft : UInt32) (op : CpsOper) :
    SetOutcome × NasSwitchInfo :=
  if op = .delete then (.ret .ok, { i with nextBootUftmode := i.defUftmode })
  else if nasSwUftModeSupported c i confUft = false then (.ret (confParam (.num 2)), i)
  else (.ret .ok, { i with nextBootUftmode := confUft })

def nasSwProfileConfMaxEcmpPerGrpSet (i : NasSwitchInfo) (confMaxEcmpPerGrp : UInt32) (op : CpsOper) :
    SetOutcome × NasSwitchInfo :=
  if op = .delete then (.ret .ok, { i with nextBootMaxEcmpPerGrp := i.defMaxEcmpPerGrp })
  else if nasSwMaxEcmpPerGrpSupported confMaxEcmpPerGrp = false then (.ret (confParam (.num 2)), i)
  else (.ret .ok, { i with nextBootMaxEcmpPerGrp := confMaxEcmpPerGrp })

def nasSwProfileConfIpv6ExtPrefixRoutesSet (i : NasSwitchInfo) (confIpv6ExtPrefixRoutes : UInt32) (op : CpsOper) :
    SetOutcome × NasSwitchInfo :=
  if nasSwProfileIsIpv6ExtPrefixConfigRequired i = false then (.ret (confParam .eNotSupported), i)
  else if op = .delete then (.ret .ok, { i with nextIpv6ExtPrefixRoutes := i.defIpv6ExtPrefixRoutes })
  else
    match nasSwProfileValidateIpv6ExtPrefixRoutesSize i confIpv6ExtPrefixRoutes with
    | .ret .ok => (.ret .ok, { i with nextIpv6ExtPrefixRoutes := confIpv6ExtPrefixRoutes })
    | r => (r, i)

def nasSwProfileVxlanRiotStatusSet (i : NasSwitchInfo) (confVxlanRiotStatus : UInt32) (op : CpsOper) :
    SetOutcome × NasSwitchInfo :=
  if i.defVxlanRiotEnable = false then (.ret (confParam .eNotSupported), i)
  else if op = .delete then (.ret .ok, { i with nextBootVxlanRiotEnable := i.defVxlanRiotEnable })
  else (.ret .ok, { i with nextBootVxlanRiotEnable := confVxlanRiotStatus != 0 })

/-- The setter of an overlay count with its block size and default; `put` stores it. -/
def maxVxlanOverlaySet (blockSize dflt : UInt32) (put : UInt32 → NasSwitchInfo) (i : NasSwitchInfo) (conf : UInt32)
    (op : CpsOper) : SetOutcome × NasSwitchInfo :=
  if i.defVxlanRiotEnable = false ∨ blockSize = 0 then (.ret (confParam .eNotSupported), i)
  else if op = .delete then (.ret .ok, put dflt)
  else if conf % blockSize ≠ 0 then (.ret (confParam .eParam), i)
  else (.ret .ok, put conf)

def nasSwProfileMaxVxlanOverlayRifsSet (i : NasSwitchInfo) (confVxlanOverlayRifs : UInt32) (op : CpsOper) :
    SetOutcome × NasSwitchInfo :=
  maxVxlanOverlaySet i.rifBlockSize i.defMaxVxlanOverlayRifs (fun v => { i with nextBootMaxVxlanOverlayRifs := v })
    i confVxlanOverlayRifs op

def nasSwProfileMaxVxlanOverlayNhsSet (i : NasSwitchInfo) (confVxlanOverlayNhs : UInt32) (op : CpsOper) :
    SetOutcome × NasSwitchInfo :=
  maxVxlanOverlaySet i.l3NexthopBlockSize i.defMaxVxlanOverlayNexthops
    (fun v => { i with nextBootMaxVxlanOverlayNexthops := v }) i confVxlanOverlayNhs op

def nasSwProfileConfDeepBufferModeSet (i : NasSwitchInfo) (enable : Bool) : SetOutcome × NasSwitchInfo :=
  if nasSwProfileIsDeepBufferModeConfigRequired i = false then (.ret (confParam .eNotSupported), i)
  else (.ret .ok, { i with nextBootDeepBufferMode := enable })

inductive SetCall where
  | profile (confProfile : Option CString) (op : CpsOper)
  | uft (confUft : UInt32) (op : CpsOper)
  | maxEcmpPerGrp (conf : UInt32) (op : CpsOper)
  | ipv6ExtPrefixRoutes (conf : UInt32) (op : CpsOper)
  | vxlanRiotStatus (conf : UInt32) (op : CpsOper)
  | maxVxlanOverlayRifs (conf : UInt32) (op : CpsOper)
  | maxVxlanOverlayNhs (conf : UInt32) (op : CpsOper)
  | deepBufferMode (enable : Bool)
  deriving DecidableEq, Repr

def setStep (c : SwConsts) (i : NasSwitchInfo) : SetCall → SetOutcome × NasSwitchInfo
  | .profile conf op => nasSwProfileConfProfileSet i conf op
  | .uft conf op => nasSwProfileConfUftSet c i conf op
  | .maxEcmpPerGrp conf op => nasSwProfileConfMaxEcmpPerGrpSet i conf op
  | .ipv6ExtPrefixRoutes conf op => nasSwProfileConfIpv6ExtPrefixRoutesSet i conf op
  | .vxlanRiotStatus conf op => nasSwProfileVxlanRiotStatusSet i conf op
  | .maxVxlanOverlayRifs conf op => nasSwProfileMaxVxlanOverlayRifsSet i conf op
  | .maxVxlanOverlayNhs conf op => nasSwProfileMaxVxlanOverlayNhsSet i conf op
  | .deepBufferMode enable => nasSwProfileConfDeepBufferModeSet i enable

/-! ## What a call may change -/

/-- The settings with the next-boot ones blanked: all that no setter may touch. -/
def NasSwitchInfo.frame (i : NasSwitchInfo) : NasSwitchInfo :=
  { i with
    nextBootProfile := .copy []
    nextBootUftmode := 0
    nextBootMaxEcmpPerGrp := 0
    nextIpv6ExtPrefixRoutes := 0
    nextBootVxlanRiotEnable := false
    nextBootMaxVxlanOverlayRifs := 0
    nextBootMaxVxlanOverlayNexthops := 0
    nextBootDeepBufferMode := false }

/-- And with the current ones and the app groups blanked: what the boot leaves too. -/
def NasSwitchInfo.fixed (i : NasSwitchInfo) : NasSwitchInfo :=
  { i.frame with
    currentProfile := .copy []
    currentUftmode := 0
    curMaxEcmpPerGrp := 0
    curIpv6ExtPrefixRoutes := 0
    curVxlanRiotEnable := false
    curMaxVxlanOverlayRifs := 0
    curMaxVxlanOverlayNexthops := 0
    curDeepBufferMode := false
    aclProfileAppGroupInfo := [] }

def orDefaultOn {α : Type} (op : CpsOper) (dflt conf : α) : α := if op = .delete then dflt else conf

/-- The next-boot settings `n` after a call that succeeds, the defaults being `d`. -/
def SetCall.requested (d n : Settings) : SetCall → Settings
  | .profile conf op => { n with profile := orDefaultOn op d.profile (conf.getD []) }
  | .uft conf op => { n with uftmode := orDefaultOn op d.uftmode conf }
  | .maxEcmpPerGrp conf op => { n with maxEcmpPerGrp := orDefaultOn op d.maxEcmpPerGrp conf }
  | .ipv6ExtPrefixRoutes conf op => { n with ipv6ExtPrefixRoutes := orDefaultOn op d.ipv6ExtPrefixRoutes conf }
  | .vxlanRiotStatus conf op => { n with vxlanRiotEnable := orDefaultOn op d.vxlanRiotEnable (conf != 0) }
  | .maxVxlanOverlayRifs conf op => { n with maxVxlanOverlayRifs := orDefaultOn op d.maxVxlanOverlayRifs conf }
  | .maxVxlanOverlayNhs conf op => { n with maxVxlanOverlayNexthops := orDefaultOn op d.maxVxlanOverlayNexthops conf }
  | .deepBufferMode enable => { n with deepBufferMode := enable }

/-- A count of whole blocks. -/
def Multiple (blockSize n : UInt32) : Prop := blockSize.toNat ∣ n.toNat

/-- Each setting is its default or valid. -/
structure ValidOrDefault (c : SwConsts) (i : NasSwitchInfo) (n : Settings) : Prop where
  profile : n.profile = i.defProfile.name ∨ i.nasSwProfileSupported (some n.profile) = true
  uftmode : n.uftmode = i.defUftmode ∨ nasSwUftModeSupported c i n.uftmode = true
  maxEcmpPerGrp : n.maxEcmpPerGrp = i.defMaxEcmpPerGrp ∨ (2 ≤ n.maxEcmpPerGrp ∧ n.maxEcmpPerGrp ≤ 1024)
  ipv6ExtPrefixRoutes : n.ipv6ExtPrefixRoutes = i.defIpv6ExtPrefixRoutes ∨
    (n.ipv6ExtPrefixRoutes ≤ i.maxIpv6ExtPrefixRoutes ∧ Multiple i.ipv6ExtPrefixRouteBlkSize n.ipv6ExtPrefixRoutes)
  maxVxlanOverlayRifs : n.maxVxlanOverlayRifs = i.defMaxVxlanOverlayRifs ∨ Multiple i.rifBlockSize n.maxVxlanOverlayRifs
  maxVxlanOverlayNexthops : n.maxVxlanOverlayNexthops = i.defMaxVxlanOverlayNexthops ∨
    Multiple i.l3NexthopBlockSize n.maxVxlanOverlayNexthops

/-- A call does what its answer says: an error changes nothing; success sets the call's
    own next-boot setting as requested, and nothing else. -/
def CallRight (c : SwConsts) (i : NasSwitchInfo) (call : SetCall) : Prop :=
  match setStep c i call with
  | (.ret .ok, j) => j.frame = i.frame ∧ j.nextBoot = call.requested i.defaults i.nextBoot
  | (.ret (.err _ _ _), j) => j = i
  | (.divideByZero, _) => False

/-- Where IPv6 configuration is required, its block size is not 0. -/
def Ipv6BlockSized (i : NasSwitchInfo) : Prop := i.isIpv6ExtPrefixCfgReq ≠ 0 → i.ipv6ExtPrefixRouteBlkSize ≠ 0

/-! ## One call -/

/-- A setter's result: refused, or its next-boot setting as requested and valid if all
    were. -/
def StepResult (c : SwConsts) (i : NasSwitchInfo) (call : SetCall) (r : SetOutcome × NasSwitchInfo) : Prop :=
  (∃ sub kind priv, r = (.ret (.err sub kind priv), i)) ∨
    ∃ j, r = (.ret .ok, j) ∧ j.frame = i.frame ∧ j.nextBoot = call.requested i.defaults i.nextBoot ∧
      (ValidOrDefault c i i.nextBoot → ValidOrDefault c i (call.requested i.defaults i.nextBoot))

theorem supported_fits {i : NasSwitchInfo} {s : CString} (h : i.nasSwProfileSupported (some s) = true) :
    s.length ≤ nasCmnProfileNameSize := by
  unfold NasSwitchInfo.nasSwProfileSupported at h
  dsimp only at h
  split at h
  · cases h
  · obtain ⟨p, _, hp⟩ := List.any_eq_true.mp h
    rw [of_decide_eq_true hp]
    exact p.fits

theorem multiple_iff (blockSize n : UInt32) : Multiple blockSize n ↔ n % blockSize = 0 := by
  rw [Multiple, Nat.dvd_iff_mod_eq_zero, ← UInt32.toNat_inj, UInt32.toNat_mod]
  rfl

/-- A setter that restores the default on DELETE, and else refuses or stores the value. -/
theorem setter_result {c : SwConsts} {i : NasSwitchInfo} {call : SetCall} {α : Type} (put : α → NasSwitchInfo)
    {op : CpsOper} {dflt conf : α} {refused : Prop} [Decidable refused] {priv : ErrPriv}
    (hframe : ∀ v, (put v).frame = i.frame)
    (hdelete : op = .delete → (put dflt).nextBoot = call.requested i.defaults i.nextBoot ∧
      (ValidOrDefault c i i.nextBoot → ValidOrDefault c i (call.requested i.defaults i.nextBoot)))
    (hset : op ≠ .delete → ¬ refused → (put conf).nextBoot = call.requested i.defaults i.nextBoot ∧
      (ValidOrDefault c i i.nextBoot → ValidOrDefault c i (call.requested i.defaults i.nextBoot))) :
    StepResult c i call (if op = .delete then (.ret .ok, put dflt)
      else if refused then (.ret (confParam priv), i) else (.ret .ok, put conf)) := by
  by_cases hop : op = .delete
  · rw [if_pos hop]
    exact Or.inr ⟨put dflt, rfl, hframe _, hdelete hop⟩
  · rw [if_neg hop]
    by_cases href : refused
    · rw [if_pos href]
      exact Or.inl ⟨_, _, _, rfl⟩
    · rw [if_neg href]
      exact Or.inr ⟨put conf, rfl, hframe _, hset hop href⟩

/-- A setter that first asks whether its setting can be configured at all. -/
theorem guarded_result {c : SwConsts} {i : NasSwitchInfo} {call : SetCall} {closed : Prop} [Decidable closed]
    {priv : ErrPriv} {r : SetOutcome × NasSwitchInfo} (h : ¬ closed → StepResult c i call r) :
    StepResult c i call (if closed then (.ret (confParam priv), i) else r) := by
  by_cases hc : closed
  · rw [if_pos hc]
    exact Or.inl ⟨_, _, _, rfl⟩
  · rw [if_neg hc]
    exact h hc

theorem orDefaultOn_delete {α : Type} {op : CpsOper} (h : op = .delete) (dflt conf : α) :
    orDefaultOn op dflt conf = dflt := if_pos h

theorem orDefaultOn_other {α : Type} {op : CpsOper} (h : op ≠ .delete) (dflt conf : α) :
    orDefaultOn op dflt conf = conf := if_neg h

theorem confProfileSet_result (c : SwConsts) (i : NasSwitchInfo) (conf : Option CString) (op : CpsOper) :
    StepResult c i (.profile conf op) (nasSwProfileConfProfileSet i conf op) := by
  refine setter_result (fun s => { i with nextBootProfile := .copy s }) (fun _ => rfl) (fun hop => ?_) (fun hop hsup => ?_)
  · simp only [SetCall.requested, orDefaultOn_delete hop, NasSwitchInfo.nextBoot, ProfileName.copy_name]
    exact ⟨rfl, fun h => ⟨Or.inl rfl, h.2, h.3, h.4, h.5, h.6⟩⟩
  · cases conf with
    | none => exact absurd rfl hsup
    | some s =>
      have hs : i.nasSwProfileSupported (some s) = true := by simpa using hsup
      have hname : (ProfileName.copy s).name = s := (copy_eq_iff s).mpr (supported_fits hs)
      simp only [SetCall.requested, orDefaultOn_other hop, NasSwitchInfo.nextBoot, Option.getD_some, hname]
      exact ⟨trivial, fun h => ⟨Or.inr hs, h.2, h.3, h.4, h.5, h.6⟩⟩

theorem confUftSet_result (c : SwConsts) (i : NasSwitchInfo) (conf : UInt32) (op : CpsOper) :
    StepResult c i (.uft conf op) (nasSwProfileConfUftSet c i conf op) := by
  refine setter_result (fun v => { i with nextBootUftmode := v }) (fun _ => rfl) (fun hop => ?_) (fun hop hsup => ?_)
  · rw [SetCall.requested, orDefaultOn_delete hop]
    exact ⟨rfl, fun h => ⟨h.1, Or.inl rfl, h.3, h.4, h.5, h.6⟩⟩
  · rw [SetCall.requested, orDefaultOn_other hop]
    exact ⟨rfl, fun h => ⟨h.1, Or.inr (by simpa using hsup), h.3, h.4, h.5, h.6⟩⟩

theorem maxEcmp_supported_iff (v : UInt32) : nasSwMaxEcmpPerGrpSupported v = true ↔ 2 ≤ v ∧ v ≤ 1024 := by
  unfold nasSwMaxEcmpPerGrpSupported nasCmnMaxEcmpEntriesPerGrpMin nasCmnMaxEcmpEntriesPerGrpMax
  split
  · rename_i h
    refine iff_of_false (by decide) fun h' => ?_
    rcases h with h | h
    · exact UInt32.not_lt.mpr h'.1 h
    · exact UInt32.not_lt.mpr h'.2 h
  · rename_i h
    obtain ⟨h1, h2⟩ := not_or.mp h
    exact iff_of_true rfl ⟨UInt32.not_lt.mp h1, UInt32.not_lt.mp h2⟩

theorem confMaxEcmpSet_result (c : SwConsts) (i : NasSwitchInfo) (conf : UInt32) (op : CpsOper) :
    StepResult c i (.maxEcmpPerGrp conf op) (nasSwProfileConfMaxEcmpPerGrpSet i conf op) := by
  refine setter_result (fun v => { i with nextBootMaxEcmpPerGrp := v }) (fun _ => rfl) (fun hop => ?_) (fun hop hsup => ?_)
  · rw [SetCall.requested, orDefaultOn_delete hop]
    exact ⟨rfl, fun h => ⟨h.1, h.2, Or.inl rfl, h.4, h.5, h.6⟩⟩
  · have hs : nasSwMaxEcmpPerGrpSupported conf = true := by simpa using hsup
    rw [SetCall.requested, orDefaultOn_other hop]
    exact ⟨rfl, fun h => ⟨h.1, h.2, Or.inr ((maxEcmp_supported_iff conf).mp hs), h.4, h.5, h.6⟩⟩

/-- The IPv6 size check passes the counts of whole blocks up to the maximum. -/
theorem validateIpv6_ok {i : NasSwitchInfo} {v : UInt32}
    (h : nasSwProfileValidateIpv6ExtPrefixRoutesSize i v = .ret .ok) :
    v ≤ i.maxIpv6ExtPrefixRoutes ∧ Multiple i.ipv6ExtPrefixRouteBlkSize v := by
  unfold nasSwProfileValidateIpv6ExtPrefixRoutesSize at h
  split at h
  · cases h
  rename_i hmax
  split at h
  · cases h
  split at h
  · cases h
  rename_i hmod
  exact ⟨UInt32.not_lt.mp hmax, (multiple_iff _ _).mpr (not_not.mp hmod)⟩

theorem validateIpv6_divideByZero_iff (i : NasSwitchInfo) (v : UInt32) :
    nasSwProfileValidateIpv6ExtPrefixRoutesSize i v = .divideByZero ↔
      ¬ v > i.maxIpv6ExtPrefixRoutes ∧ i.ipv6ExtPrefixRouteBlkSize = 0 := by
  unfold nasSwProfileValidateIpv6ExtPrefixRoutesSize
  split
  · rename_i hmax
    exact iff_of_false (by simp) fun h => h.1 hmax
  rename_i hmax
  split
  · rename_i hblk
    exact iff_of_true rfl ⟨hmax, hblk⟩
  rename_i hblk
  refine iff_of_false ?_ fun h => hblk h.2
  split <;> simp

theorem ipv6ConfigRequired_iff (i : NasSwitchInfo) :
    nasSwProfileIsIpv6ExtPrefixConfigRequired i = false ↔ i.isIpv6ExtPrefixCfgReq = 0 := by
  simp [nasSwProfileIsIpv6ExtPrefixConfigRequired]

/-- The IPv6 call is refused, restores the default, or does as the size check says. -/
theorem confIpv6Set_cases (i : NasSwitchInfo) (v : UInt32) (op : CpsOper) :
    (i.isIpv6ExtPrefixCfgReq = 0 ∧
      nasSwProfileConfIpv6ExtPrefixRoutesSet i v op = (.ret (confParam .eNotSupported), i)) ∨
    (i.isIpv6ExtPrefixCfgReq ≠ 0 ∧ op = .delete ∧ nasSwProfileConfIpv6ExtPrefixRoutesSet i v op =
      (.ret .ok, { i with nextIpv6ExtPrefixRoutes := i.defIpv6ExtPrefixRoutes })) ∨
    (i.isIpv6ExtPrefixCfgReq ≠ 0 ∧ op ≠ .delete ∧ nasSwProfileConfIpv6ExtPrefixRoutesSet i v op =
      (nasSwProfileValidateIpv6ExtPrefixRoutesSize i v,
        if nasSwProfileValidateIpv6ExtPrefixRoutesSize i v = .ret .ok then { i with nextIpv6ExtPrefixRoutes := v }
        else i)) := by
  unfold nasSwProfileConfIpv6ExtPrefixRoutesSet
  by_cases hreq : nasSwProfileIsIpv6ExtPrefixConfigRequired i = false
  · rw [if_pos hreq]
    exact Or.inl ⟨(ipv6ConfigRequired_iff i).mp hreq, rfl⟩
  have hreq' : i.isIpv6ExtPrefixCfgReq ≠ 0 := fun h => hreq ((ipv6ConfigRequired_iff i).mpr h)
  rw [if_neg hreq]
  by_cases hop : op = .delete
  · rw [if_pos hop]
    exact Or.inr (Or.inl ⟨hreq', hop, rfl⟩)
  · rw [if_neg hop]
    refine Or.inr (Or.inr ⟨hreq', hop, ?_⟩)
    split
    · rename_i hv
      rw [hv, if_pos rfl]
    · rename_i hv
      rw [if_neg hv]

theorem confIpv6Set_result (c : SwConsts) {i : NasSwitchInfo} (hblk : Ipv6BlockSized i) (conf : UInt32) (op : CpsOper) :
    StepResult c i (.ipv6ExtPrefixRoutes conf op) (nasSwProfileConfIpv6ExtPrefixRoutesSet i conf op) := by
  rcases confIpv6Set_cases i conf op with ⟨-, hr⟩ | ⟨-, hop, hr⟩ | ⟨hreq, hop, hr⟩
  · rw [hr]
    exact Or.inl ⟨_, _, _, rfl⟩
  · rw [hr]
    refine Or.inr ⟨_, rfl, rfl, ?_, fun h => ?_⟩
    · rw [SetCall.requested, orDefaultOn_delete hop]; rfl
    · rw [SetCall.requested, orDefaultOn_delete hop]
      exact ⟨h.1, h.2, h.3, Or.inl rfl, h.5, h.6⟩
  · rw [hr]
    cases hv : nasSwProfileValidateIpv6ExtPrefixRoutesSize i conf with
    | divideByZero => exact absurd ((validateIpv6_divideByZero_iff i conf).mp hv).2 (hblk hreq)
    | ret rc =>
      cases rc with
      | err => exact Or.inl ⟨_, _, _, rfl⟩
      | ok =>
        refine Or.inr ⟨_, rfl, rfl, ?_, fun h => ?_⟩
        · rw [SetCall.requested, orDefaultOn_other hop]; rfl
        · rw [SetCall.requested, orDefaultOn_other hop]
          exact ⟨h.1, h.2, h.3, Or.inr (validateIpv6_ok hv), h.5, h.6⟩

theorem vxlanRiotStatusSet_result (c : SwConsts) (i : NasSwitchInfo) (conf : UInt32) (op : CpsOper) :
    StepResult c i (.vxlanRiotStatus conf op) (nasSwProfileVxlanRiotStatusSet i conf op) := by
  refine guarded_result fun _ => ?_
  by_cases hop : op = .delete
  · rw [if_pos hop]
    refine Or.inr ⟨_, rfl, rfl, ?_, fun h => ⟨h.1, h.2, h.3, h.4, h.5, h.6⟩⟩
    rw [SetCall.requested, orDefaultOn_delete hop]; rfl
  · rw [if_neg hop]
    refine Or.inr ⟨_, rfl, rfl, ?_, fun h => ⟨h.1, h.2, h.3, h.4, h.5, h.6⟩⟩
    rw [SetCall.requested, orDefaultOn_other hop]; rfl

theorem maxVxlanOverlayRifsSet_result (c : SwConsts) (i : NasSwitchInfo) (conf : UInt32) (op : CpsOper) :
    StepResult c i (.maxVxlanOverlayRifs conf op) (nasSwProfileMaxVxlanOverlayRifsSet i conf op) := by
  refine guarded_result fun _ => setter_result (fun v => { i with nextBootMaxVxlanOverlayRifs := v }) (fun _ => rfl)
    (fun hop => ?_) (fun hop hmod => ?_)
  · rw [SetCall.requested, orDefaultOn_delete hop]
    exact ⟨rfl, fun h => ⟨h.1, h.2, h.3, h.4, Or.inl rfl, h.6⟩⟩
  · rw [SetCall.requested, orDefaultOn_other hop]
    exact ⟨rfl, fun h => ⟨h.1, h.2, h.3, h.4, Or.inr ((multiple_iff _ _).mpr (not_not.mp hmod)), h.6⟩⟩

theorem maxVxlanOverlayNhsSet_result (c : SwConsts) (i : NasSwitchInfo) (conf : UInt32) (op : CpsOper) :
    StepResult c i (.maxVxlanOverlayNhs conf op) (nasSwProfileMaxVxlanOverlayNhsSet i conf op) := by
  refine guarded_result fun _ => setter_result (fun v => { i with nextBootMaxVxlanOverlayNexthops := v }) (fun _ => rfl)
    (fun hop => ?_) (fun hop hmod => ?_)
  · rw [SetCall.requested, orDefaultOn_delete hop]
    exact ⟨rfl, fun h => ⟨h.1, h.2, h.3, h.4, h.5, Or.inl rfl⟩⟩
  · rw [SetCall.requested, orDefaultOn_other hop]
    exact ⟨rfl, fun h => ⟨h.1, h.2, h.3, h.4, h.5, Or.inr ((multiple_iff _ _).mpr (not_not.mp hmod))⟩⟩

theorem confDeepBufferModeSet_result (c : SwConsts) (i : NasSwitchInfo) (enable : Bool) :
    StepResult c i (.deepBufferMode enable) (nasSwProfileConfDeepBufferModeSet i enable) :=
  guarded_result fun _ => Or.inr ⟨_, rfl, rfl, rfl, fun h => ⟨h.1, h.2, h.3, h.4, h.5, h.6⟩⟩

/-- What one call does. -/
theorem setStep_result (c : SwConsts) {i : NasSwitchInfo} (hblk : Ipv6BlockSized i) (call : SetCall) :
    StepResult c i call (setStep c i call) := by
  cases call with
  | profile conf op => exact confProfileSet_result c i conf op
  | uft conf op => exact confUftSet_result c i conf op
  | maxEcmpPerGrp conf op => exact confMaxEcmpSet_result c i conf op
  | ipv6ExtPrefixRoutes conf op => exact confIpv6Set_result c hblk conf op
  | vxlanRiotStatus conf op => exact vxlanRiotStatusSet_result c i conf op
  | maxVxlanOverlayRifs conf op => exact maxVxlanOverlayRifsSet_result c i conf op
  | maxVxlanOverlayNhs conf op => exact maxVxlanOverlayNhsSet_result c i conf op
  | deepBufferMode enable => exact confDeepBufferModeSet_result c i enable

/-! ## Over any calls -/

theorem setStep_right (c : SwConsts) {i : NasSwitchInfo} (hblk : Ipv6BlockSized i) (call : SetCall) :
    CallRight c i call := by
  unfold CallRight
  rcases setStep_result c hblk call with ⟨sub, kind, priv, h⟩ | ⟨j, h, hframe, hnext, -⟩
  · rw [h]
  · rw [h]; exact ⟨hframe, hnext⟩

theorem setStep_frame (c : SwConsts) {i : NasSwitchInfo} (hblk : Ipv6BlockSized i) (call : SetCall) :
    (setStep c i call).2.frame = i.frame := by
  rcases setStep_result c hblk call with ⟨sub, kind, priv, h⟩ | ⟨j, h, hframe, -, -⟩
  · rw [h]
  · rw [h]; exact hframe

/-- Validity is judged by what neither the setters nor the boot change. -/
theorem validOrDefault_fixed {c : SwConsts} {i j : NasSwitchInfo} (h : j.fixed = i.fixed) (n : Settings) :
    ValidOrDefault c j n ↔ ValidOrDefault c i n := by
  have hfixed : ∀ k : NasSwitchInfo, ValidOrDefault c k n ↔ ValidOrDefault c k.fixed n := fun _ =>
    ⟨fun h => ⟨h.1, h.2, h.3, h.4, h.5, h.6⟩, fun h => ⟨h.1, h.2, h.3, h.4, h.5, h.6⟩⟩
  rw [hfixed j, h, ← hfixed i]

theorem fixed_of_frame {i j : NasSwitchInfo} (h : j.frame = i.frame) : j.fixed = i.fixed := by
  show j.frame.fixed = i.frame.fixed
  rw [h]

theorem setStep_valid (c : SwConsts) {i : NasSwitchInfo} (hblk : Ipv6BlockSized i) (call : SetCall)
    (h : ValidOrDefault c i i.nextBoot) : ValidOrDefault c (setStep c i call).2 (setStep c i call).2.nextBoot := by
  rw [validOrDefault_fixed (fixed_of_frame (setStep_frame c hblk call))]
  rcases setStep_result c hblk call with ⟨sub, kind, priv, hr⟩ | ⟨j, hr, -, hnext, hvalid⟩
  · rw [hr]; exact h
  · rw [hr]
    show ValidOrDefault c i j.nextBoot
    rw [hnext]
    exact hvalid h

theorem ipv6BlockSized_frame {i j : NasSwitchInfo} (h : j.frame = i.frame) (hblk : Ipv6BlockSized i) :
    Ipv6BlockSized j := by
  have hreq : j.frame.isIpv6ExtPrefixCfgReq = i.frame.isIpv6ExtPrefixCfgReq := by rw [h]
  have hsize : j.frame.ipv6ExtPrefixRouteBlkSize = i.frame.ipv6ExtPrefixRouteBlkSize := by rw [h]
  intro hj
  have hi : i.isIpv6ExtPrefixCfgReq ≠ 0 := fun e => hj (hreq.trans e)
  exact fun e => hblk hi (hsize.symm.trans e)

/-- The setters touch the next-boot settings alone, each its own and only when it
    succeeds, and keep them valid. -/
theorem setters_next_boot_only (c : SwConsts) (calls : List SetCall) : ∀ i : NasSwitchInfo, Ipv6BlockSized i →
    Runs.Steps (setStep c) (CallRight c) i calls ∧
    (Runs.final (setStep c) i calls).frame = i.frame ∧
    (ValidOrDefault c i i.nextBoot →
      ValidOrDefault c (Runs.final (setStep c) i calls) (Runs.final (setStep c) i calls).nextBoot) := by
  induction calls with
  | nil => intro i _; exact ⟨trivial, rfl, id⟩
  | cons call calls ih =>
    intro i hblk
    have hframe := setStep_frame c hblk call
    obtain ⟨h1, h2, h3⟩ := ih (setStep c i call).2 (ipv6BlockSized_frame hframe hblk)
    exact ⟨⟨setStep_right c hblk call, h1⟩, h2.trans hframe, fun h => h3 (setStep_valid c hblk call h)⟩

/-- switch.xml with IPv6 prefix routes in blocks of 4, up to 64. -/
def ipv6Config : NasSwitchInfo :=
  nasSwitchUpdateIpv6ExtendedPrefixInfo (.mk [] [("config_required", "1".toList), ("default_routes", "8".toList),
    ("max_routes", "64".toList), ("lpm_block_size", "4".toList)] []) .zero

theorem setters_next_boot_only_run :
    let calls : List SetCall := [.ipv6ExtPrefixRoutes 16 (.other 3), .ipv6ExtPrefixRoutes 18 (.other 3), .uft 1 .delete]
    Runs.Steps (setStep ⟨1, 4, 1, 2⟩) (CallRight ⟨1, 4, 1, 2⟩) ipv6Config calls ∧
    (Runs.final (setStep ⟨1, 4, 1, 2⟩) ipv6Config calls).frame = ipv6Config.frame ∧
    (Runs.final (setStep ⟨1, 4, 1, 2⟩) ipv6Config calls).nextIpv6ExtPrefixRoutes = 16 :=
  have hblk : Ipv6BlockSized ipv6Config := by unfold Ipv6BlockSized; decide
  ⟨(setters_next_boot_only _ _ ipv6Config hblk).1, (setters_next_boot_only _ _ ipv6Config hblk).2.1, by decide⟩

end NasCommon.SwProfile
