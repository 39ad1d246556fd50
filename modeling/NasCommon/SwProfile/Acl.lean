/-
  NasCommon.SwProfile.Acl — the ACL profile's app groups at boot
  (`nas_sw_acl_profile_parse_db_and_update`).

  The loops over the app groups run over ingress plus egress pools, whatever the
  table's size: `fault` says that one of them passed its end. None of this touches the
  settings (`parseAclDb_keeps`).
-/

import NasCommon.SwProfile.Info

namespace NasCommon.SwProfile

/-- The bound of the loops over the app groups. -/
def NasSwitchInfo.aclPools (i : NasSwitchInfo) : Nat :=
  i.aclProfileMaxIngressPoolCount.toNat + i.aclProfileMaxEgressPoolCount.toNat

structure AclSt where
  info : NasSwitchInfo
  running : List (RunningObject AclAttr)
  fault : Bool

def aclParam : StdError := .err .halcom .param (.num 2)
def aclFail : StdError := .err .halcom .fail (.num 2)

/-- `nas_switch_acl_profile_update_cache`, from index `idx` with `fuel` to go. A pool
    count is kept in eight bits. -/
def updateCacheFrom (appGroupName : CString) (nextBootPoolCount : UInt32) (updateCurrentCount : Bool) :
    Nat → Nat → AclSt → StdError × AclSt
  | 0, _, s => (aclParam, s)
  | fuel + 1, idx, s =>
    match s.info.aclProfileAppGroupInfo[idx]? with
    | none =>
      updateCacheFrom appGroupName nextBootPoolCount updateCurrentCount fuel (idx + 1) { s with fault := true }
    | some g =>
      if appGroupName = g.appGroupName.name then
        let g := { g with nextBootPoolCount := nextBootPoolCount.toUInt8 }
        let g := if updateCurrentCount then { g with currentPoolCount := nextBootPoolCount.toUInt8 } else g
        (.ok, { s with info.aclProfileAppGroupInfo := s.info.aclProfileAppGroupInfo.set idx g })
      else updateCacheFrom appGroupName nextBootPoolCount updateCurrentCount fuel (idx + 1) s

def nasSwitchAclProfileUpdateCache (appGroupName : CString) (nextBootPoolCount : UInt32) (updateCurrentCount : Bool)
    (s : AclSt) : StdError × AclSt :=
  if ¬ s.info.aclProfileValid then (aclParam, s)
  else updateCacheFrom appGroupName nextBootPoolCount updateCurrentCount s.info.aclPools 0 s

/-- The running-config object of one app group. -/
def aclRunningObject (swId : UInt32) (g : AclProfileAppGroupInfo) : RunningObject AclAttr :=
  [(.switchId, .u32 swId), (.appGroupId, .bin g.appGroupName.name),
   (.appGroupPoolCount, .u32 g.nextBootPoolCount.toUInt32)]

/-- `nas_switch_upd_acl_profile_info_to_running_cps_db`; `commitOk` is what each commit
    returns. It stops at the first that fails. -/
def updRunningFrom (swId : UInt32) (commitOk : Nat → Bool) : Nat → Nat → AclSt → StdError × AclSt
  | 0, _, s => (.ok, s)
  | fuel + 1, idx, s =>
    match s.info.aclProfileAppGroupInfo[idx]? with
    | none =>
      let s := { s with fault := true }
      if commitOk idx then updRunningFrom swId commitOk fuel (idx + 1) s else (aclFail, s)
    | some g =>
      if commitOk idx then
        updRunningFrom swId commitOk fuel (idx + 1) { s with running := s.running ++ [aclRunningObject swId g] }
      else (aclFail, s)

def nasSwitchUpdAclProfileInfoToRunningCpsDb (swId : UInt32) (commitOk : Nat → Bool) (s : AclSt) : StdError × AclSt :=
  updRunningFrom swId commitOk s.info.aclPools 0 s

/-- What the loop over one startup object has read. -/
structure AclEntry where
  appGroupName : CString
  nextBootPoolCount : UInt32
  appGroupIdFound : Bool
  nextBootPoolCountFound : Bool

def readAclAttr (e : AclEntry) (a : CpsAttr AclAttr) : AclEntry :=
  match a.id with
  | .switchId => e
  | .appGroupId => { e with appGroupName := a.dataBin, appGroupIdFound := true }
  | .appGroupPoolCount => { e with nextBootPoolCount := a.dataU32, nextBootPoolCountFound := true }
  | .other _ => e

/-- One startup object: its name and count are applied when it has both. What was read
    stays for the next object, not found. -/
def applyAclObject (acc : AclEntry × AclSt) (obj : CpsObject AclAttr) : AclEntry × AclSt :=
  let e := obj.foldl readAclAttr acc.1
  let s := if ¬ e.appGroupIdFound ∨ ¬ e.nextBootPoolCountFound then acc.2
    else (nasSwitchAclProfileUpdateCache e.appGroupName e.nextBootPoolCount true acc.2).2
  ({ e with appGroupIdFound := false, nextBootPoolCountFound := false }, s)

def nasSwAclProfileParseDbAndUpdate (swId : UInt32) (startup : Option (List (CpsObject AclAttr)))
    (commitOk : Nat → Bool) (s : AclSt) : StdError × AclSt :=
  if ¬ s.info.aclProfileValid then (.ok, s)
  else
    let s := ((startup.getD []).foldl applyAclObject (⟨[], 0, false, false⟩, s)).2
    (.ok, (nasSwitchUpdAclProfileInfoToRunningCpsDb swId commitOk s).2)

/-! ## The app groups alone change -/

def OnlyAcl (s t : AclSt) : Prop :=
  ∃ groups, t.info = { s.info with aclProfileAppGroupInfo := groups }

theorem OnlyAcl.refl (s : AclSt) : OnlyAcl s s := ⟨s.info.aclProfileAppGroupInfo, rfl⟩

theorem OnlyAcl.trans {s t u : AclSt} (h : OnlyAcl s t) (h' : OnlyAcl t u) : OnlyAcl s u := by
  obtain ⟨g, hg⟩ := h
  obtain ⟨g', hg'⟩ := h'
  exact ⟨g', by rw [hg', hg]⟩

theorem updateCacheFrom_onlyAcl (name : CString) (count : UInt32) (cur : Bool) (fuel : Nat) :
    ∀ idx s, OnlyAcl s (updateCacheFrom name count cur fuel idx s).2 := by
  induction fuel with
  | zero => intro idx s; exact OnlyAcl.refl s
  | succ fuel ih =>
    intro idx s
    simp only [updateCacheFrom]
    split
    · exact OnlyAcl.trans ⟨_, rfl⟩ (ih _ _)
    · split
      · exact ⟨_, rfl⟩
      · exact ih _ _

theorem updRunningFrom_onlyAcl (swId : UInt32) (commitOk : Nat → Bool) (fuel : Nat) :
    ∀ idx s, OnlyAcl s (updRunningFrom swId commitOk fuel idx s).2 := by
  induction fuel with
  | zero => intro idx s; exact OnlyAcl.refl s
  | succ fuel ih =>
    intro idx s
    simp only [updRunningFrom]
    cases s.info.aclProfileAppGroupInfo[idx]? with
    | none =>
      cases commitOk idx with
      | true => exact OnlyAcl.trans ⟨_, rfl⟩ (ih _ _)
      | false => exact ⟨_, rfl⟩
    | some g =>
      cases commitOk idx with
      | true => exact OnlyAcl.trans ⟨_, rfl⟩ (ih _ _)
      | false => exact OnlyAcl.refl s

theorem applyAclObject_onlyAcl (acc : AclEntry × AclSt) (obj : CpsObject AclAttr) :
    OnlyAcl acc.2 (applyAclObject acc obj).2 := by
  simp only [applyAclObject]
  split
  · exact OnlyAcl.refl _
  · unfold nasSwitchAclProfileUpdateCache
    split
    · exact OnlyAcl.refl _
    · exact updateCacheFrom_onlyAcl _ _ _ _ _ _

theorem parseAclDb_onlyAcl (swId : UInt32) (startup : Option (List (CpsObject AclAttr))) (commitOk : Nat → Bool)
    (s : AclSt) : OnlyAcl s (nasSwAclProfileParseDbAndUpdate swId startup commitOk s).2 := by
  unfold nasSwAclProfileParseDbAndUpdate
  split
  · exact OnlyAcl.refl s
  · have hobjs : ∀ (objs : List (CpsObject AclAttr)) acc, OnlyAcl acc.2 (objs.foldl applyAclObject acc).2 := by
      intro objs
      induction objs with
      | nil => intro acc; exact OnlyAcl.refl _
      | cons o objs ih => intro acc; exact (applyAclObject_onlyAcl acc o).trans (ih _)
    exact (hobjs _ _).trans (updRunningFrom_onlyAcl _ _ _ _ _)

/-- Reading the ACL startup entries leaves every setting as it was. -/
theorem parseAclDb_keeps (swId : UInt32) (startup : Option (List (CpsObject AclAttr))) (commitOk : Nat → Bool) (s : AclSt) :
    let i := (nasSwAclProfileParseDbAndUpdate swId startup commitOk s).2.info
    i.current = s.info.current ∧ i.nextBoot = s.info.nextBoot ∧ i.defaults = s.info.defaults := by
  obtain ⟨g, hg⟩ := parseAclDb_onlyAcl swId startup commitOk s
  simp only [hg]
  exact ⟨rfl, rfl, rfl⟩

end NasCommon.SwProfile
