/-
  NasCommon.SwProfile.AclQuery — the ACL profile as the other clients see it
  (`nas_sw_acl_profile_num_db_get`, `nas_sw_acl_profile_db_get_next`,
  `nas_sw_acl_profile_info_get`, `nas_sw_acl_profile_app_group_info_get` and
  `nas_sw_acl_profile_app_group_info_set`).

  All of them loop over ingress plus egress pools, whatever the number of app groups
  and the table's size; `none` is a read past an end. Only some look at
  `acl_profile_valid`.
-/

import NasCommon.SwProfile.AclTable
import NasCommon.SwProfile.Setters

namespace NasCommon.SwProfile

/-! ## Finding an app group -/

/-- `app_group_name == NULL`, or `strcmp` finds no difference. -/
def namedOrNull (appGroupName : Option CString) (g : AclProfileAppGroupInfo) : Bool :=
  match appGroupName with
  | none => true
  | some name => name = g.appGroupName.name

/-- The loop up to the first group of a name. -/
def findAppGroup (i : NasSwitchInfo) (appGroupName : Option CString) : Table.Found AclProfileAppGroupInfo :=
  Table.scan (namedOrNull appGroupName) i.aclProfileAppGroupInfo i.aclPools

/-- `nas_sw_acl_profile_num_db_get`. -/
def nasSwAclProfileNumDbGet (i : NasSwitchInfo) : StdError × Nat :=
  if ¬ i.aclProfileValid then (.ok, 0) else (.ok, i.aclPools)

/-! ## The walk -/

/-- What a walker is handed for a group: its name and current pool count. -/
def aclRow (g : AclProfileAppGroupInfo) : CString × UInt32 :=
  (safestrncpy [] g.appGroupName.name nasCmnProfileNameSize, g.currentPoolCount.toUInt32)

/-- What a call comes to. -/
inductive DbNext where
  | ok (row : CString × UInt32)
  | err (e : StdError)
  | pastEnd
  deriving DecidableEq

def rowAt (i : NasSwitchInfo) (idx : Nat) : DbNext :=
  match i.aclProfileAppGroupInfo[idx]? with
  | none => .pastEnd
  | some g => .ok (aclRow g)

/-- `nas_sw_acl_profile_db_get_next`: for a name, the group after it. -/
def nasSwAclProfileDbGetNext (i : NasSwitchInfo) (appGroupName : Option CString) : DbNext :=
  match findAppGroup i appGroupName with
  | .missing => .err aclParam
  | .pastEnd => .pastEnd
  | .hit idx _ =>
    if appGroupName = none then rowAt i idx
    else if i.aclPools ≤ idx + 1 then .err aclParam
    else rowAt i (idx + 1)

/-! ## What may be configured -/

/-- The pools of a group's stage. -/
def stageNumPools (c : SwConsts) (i : NasSwitchInfo) (g : AclProfileAppGroupInfo) : Nat :=
  if g.stageType.toUInt32 = c.baseAclStageIngress then i.aclProfileMaxIngressPoolCount.toNat
  else if g.stageType.toUInt32 = c.baseAclStageEgress then i.aclProfileMaxEgressPoolCount.toNat
  else 0

/-- `nas_sw_acl_profile_db_config_supported`: the loop returns or breaks at the first
    group that it looks at. -/
def nasSwAclProfileDbConfigSupported (c : SwConsts) (i : NasSwitchInfo) (appGroupName : Option CString) : Option Bool :=
  if ¬ i.aclProfileValid then some false
  else
    match findAppGroup i appGroupName with
    | .missing => some false
    | .pastEnd => none
    | .hit _ g => if stageNumPools c i g ≤ 1 then some false else some true

/-! ## Objects -/

/-- The attributes of `BASE_ACL_SWITCHING_ENTITY` and of its app groups. -/
inductive AclObjAttr where
  | maxIngressAclPoolCount
  | maxEgressAclPoolCount
  | appGroup (idx : Nat)
  | switchId
  | appGroupId
  | appGroupStage
  | appGroupDepth
  | appGroupDefaultPoolCount
  | appGroupPoolCount
  | applicationAppId (idx : Nat)
  | applicationNumUnitsPerEntry (idx : Nat)
  deriving DecidableEq, Repr

abbrev AclObject := RunningObject AclObjAttr

/-- The names of the groups from index `idx` on. -/
def groupNamesFrom (i : NasSwitchInfo) : Nat → Nat → Option AclObject
  | 0, _ => some []
  | fuel + 1, idx =>
    match i.aclProfileAppGroupInfo[idx]? with
    | none => none
    | some g => (groupNamesFrom i fuel (idx + 1)).map fun rest => (.appGroup idx, .bin g.appGroupName.name) :: rest

/-- `nas_sw_acl_profile_info_get`: what it adds to the object. -/
def nasSwAclProfileInfoGet (c : SwConsts) (i : NasSwitchInfo) : Option (StdError × AclObject) :=
  match nasSwAclProfileDbConfigSupported c i none with
  | none => none
  | some false => some (aclParam, [])
  | some true =>
    (groupNamesFrom i i.aclPools 0).map fun names =>
      (.ok, (.maxIngressAclPoolCount, .u32 i.aclProfileMaxIngressPoolCount.toUInt32) ::
        (.maxEgressAclPoolCount, .u32 i.aclProfileMaxEgressPoolCount.toUInt32) :: names)

/-- `strncmp (s, t, len) == 0`. -/
def strncmpEq (s t : CString) (len : Nat) : Bool := s.take len = t.take len

/-- The startup objects, and how long each app-group id is stored. -/
structure AclStartup where
  list : Option (List (CpsObject AclAttr))
  attrLen : CpsAttr AclAttr → Nat

/-- `nas_sw_acl_profile_startup_db_info_get`: the first object with the name and a count. -/
def nasSwAclProfileStartupDbInfoGet (startup : AclStartup) (appGroupName : CString) : Option UInt32 :=
  (startup.list.getD []).findSome? fun obj =>
    if obj.any fun a => a.id = .appGroupId && strncmpEq appGroupName a.dataBin (startup.attrLen a) then
      (Attrs.last CpsAttr.id .appGroupPoolCount obj).map CpsAttr.dataU32
    else none

/-- `cps_api_qualifier_t`. -/
inductive CpsQualifier where
  | target
  | observed
  | other (q : Nat)
  deriving DecidableEq, Repr

def nasCmnDefaultSwitchId : UInt32 := 0

def appAttrs (idx : Nat) (app : AclProfileAppInfo) : AclObject :=
  [(.applicationAppId idx, .bin app.appName.name), (.applicationNumUnitsPerEntry idx, .u32 app.numUnitsPerEntry)]

/-- The object of a group that is in the table. -/
def appGroupObject (startup : AclStartup) (qualifier : CpsQualifier) (g : AclProfileAppGroupInfo) : AclObject :=
  let poolCount := match qualifier with
    | .target => [(AclObjAttr.appGroupPoolCount, CpsVal.u32
        ((nasSwAclProfileStartupDbInfoGet startup g.appGroupName.name).getD g.currentPoolCount.toUInt32))]
    | .observed => [(.appGroupPoolCount, .u32 g.currentPoolCount.toUInt32)]
    | .other _ => []
  [(.switchId, .u32 nasCmnDefaultSwitchId), (.appGroupId, .bin g.appGroupName.name),
    (.appGroupStage, .u32 g.stageType.toUInt32), (.appGroupDepth, .u32 g.depthPerPool.toUInt32),
    (.appGroupDefaultPoolCount, .u32 g.defaultPoolCount.toUInt32)] ++ poolCount ++
    ((g.appInfo.take g.numApp.toNat).mapIdx appAttrs).flatten

/-- What `cps_api_object_create` with its key and `cps_api_object_list_append` come to
    for each index. -/
structure AclObjEnv where
  created : Nat → Bool
  appended : Nat → Bool

/-- `nas_sw_acl_profile_app_group_info_to_obj`, below the bound: `some none` is a null
    object, `none` a read past the apps of a group. -/
def nasSwAclProfileAppGroupInfoToObj (env : AclObjEnv) (startup : AclStartup) (qualifier : CpsQualifier) (idx : Nat)
    (g : AclProfileAppGroupInfo) : Option (Option AclObject) :=
  if ¬ env.created idx then some none
  else if g.appInfo.length < g.numApp.toNat then none
  else some (some (appGroupObject startup qualifier g))

/-- The loop of `nas_sw_acl_profile_app_group_info_get`. -/
def appGroupInfoFrom (i : NasSwitchInfo) (env : AclObjEnv) (startup : AclStartup) (qualifier : CpsQualifier)
    (appGroupName : Option CString) (isGetAll : Bool) : Nat → Nat → List AclObject → Option (StdError × List AclObject)
  | 0, _, list => some (.ok, list)
  | fuel + 1, idx, list =>
    match i.aclProfileAppGroupInfo[idx]? with
    | none => none
    | some g =>
      if isGetAll || namedOrNull appGroupName g then
        match nasSwAclProfileAppGroupInfoToObj env startup qualifier idx g with
        | none => none
        | some obj =>
          if obj.isSome && ! env.appended idx then some (aclParam, list)
          else
            let list := list ++ obj.toList
            if isGetAll then appGroupInfoFrom i env startup qualifier appGroupName isGetAll fuel (idx + 1) list
            else some (.ok, list)
      else appGroupInfoFrom i env startup qualifier appGroupName isGetAll fuel (idx + 1) list

/-- `nas_sw_acl_profile_app_group_info_get`. -/
def nasSwAclProfileAppGroupInfoGet (i : NasSwitchInfo) (env : AclObjEnv) (startup : AclStartup)
    (appGroupName : Option CString) (isGetAll : Bool) (list : List AclObject) (qualifier : CpsQualifier) :
    Option (StdError × List AclObject) :=
  if isGetAll = false ∧ appGroupName = none then some (aclParam, list)
  else appGroupInfoFrom i env startup qualifier appGroupName isGetAll i.aclPools 0 list

/-! ## Configuring -/

/-- `nas_switch_acl_profile_reset_cache_to_default`. -/
def nasSwitchAclProfileResetCacheToDefault (appGroupName : CString) (s : AclSt) : StdError × AclSt :=
  match findAppGroup s.info (some appGroupName) with
  | .missing => (aclParam, s)
  | .pastEnd => (aclParam, { s with fault := true })
  | .hit idx g =>
    (.ok, { s with
      info.aclProfileAppGroupInfo :=
        s.info.aclProfileAppGroupInfo.set idx { g with nextBootPoolCount := g.defaultPoolCount } })

/-- `nas_sw_acl_profile_app_group_info_set`. -/
def nasSwAclProfileAppGroupInfoSet (c : SwConsts) (appGroupName : Option CString) (nextBootPoolReq : UInt32)
    (op : CpsOper) (s : AclSt) : StdError × AclSt :=
  match nasSwAclProfileDbConfigSupported c s.info appGroupName with
  | none => (aclParam, { s with fault := true })
  | some false => (aclParam, s)
  | some true =>
    match appGroupName with
    | none => (aclParam, s)
    | some name =>
      if op = .delete then nasSwitchAclProfileResetCacheToDefault name s
      else nasSwitchAclProfileUpdateCache name nextBootPoolReq false s

/-! ## What the loops find -/

/-- Group `k` is the first of its name and below the bound of the loops. -/
def FirstBelow (groups : List AclProfileAppGroupInfo) (bound k : Nat) (g : AclProfileAppGroupInfo) : Prop :=
  k < bound ∧ groups[k]? = some g ∧
    ∀ j < k, ∀ b, groups[j]? = some b → b.appGroupName.name ≠ g.appGroupName.name

theorem find_hit_iff {i : NasSwitchInfo} {name : CString} {k : Nat} {g : AclProfileAppGroupInfo} :
    findAppGroup i (some name) = .hit k g ↔
      FirstBelow i.aclProfileAppGroupInfo i.aclPools k g ∧ g.appGroupName.name = name := by
  have hname : ∀ b : AclProfileAppGroupInfo, namedOrNull (some name) b = true ↔ b.appGroupName.name = name := by
    intro b
    simp [namedOrNull, eq_comm]
  unfold findAppGroup
  rw [Table.scan_hit_iff, hname]
  constructor
  · intro h
    obtain ⟨hk, hg, hp, hbefore⟩ := h
    refine ⟨⟨hk, hg, fun j hj b hb heq => ?_⟩, hp⟩
    have hno := hbefore j hj b hb
    rw [(hname b).mpr (by rw [heq, hp])] at hno
    cases hno
  · intro h
    obtain ⟨⟨hk, hg, hbefore⟩, hp⟩ := h
    refine ⟨hk, hg, hp, fun j hj b hb => Bool.eq_false_iff.mpr fun hyes => hbefore j hj b hb ?_⟩
    exact ((hname b).mp hyes).trans hp.symm

theorem find_null (i : NasSwitchInfo) : findAppGroup i none =
    if i.aclPools = 0 then .missing
    else match i.aclProfileAppGroupInfo[0]? with
      | none => .pastEnd
      | some g => .hit 0 g := by
  unfold findAppGroup Table.scan
  cases i.aclPools with
  | zero => rfl
  | succ n =>
    unfold Table.scanFrom
    cases i.aclProfileAppGroupInfo[0]? <;> rfl

theorem rowAt_ne_err (i : NasSwitchInfo) (idx : Nat) (e : StdError) : rowAt i idx ≠ .err e := by
  unfold rowAt
  split <;> simp

/-- The first call. -/
theorem next_null (i : NasSwitchInfo) :
    nasSwAclProfileDbGetNext i none = if i.aclPools = 0 then .err aclParam else rowAt i 0 := by
  unfold nasSwAclProfileDbGetNext rowAt
  rw [find_null]
  by_cases hpools : i.aclPools = 0
  · rw [if_pos hpools, if_pos hpools]
  · rw [if_neg hpools, if_neg hpools]
    cases hx : i.aclProfileAppGroupInfo[0]? with
    | none => rfl
    | some g => simp [hx]

/-! ## A profile -/

/-- The table as the parser leaves it: the app groups, each under a name of its own and
    below the pools, and blanks behind them. -/
structure AppGroups (i : NasSwitchInfo) (groups : List AclProfileAppGroupInfo) : Prop where
  table : ∃ blanks, i.aclProfileAppGroupInfo = groups ++ blanks
  distinct : (groups.map fun g => g.appGroupName.name).Nodup
  fits : groups.length ≤ i.aclPools

/-- A profile that was accepted. -/
structure Profile (i : NasSwitchInfo) (groups : List AclProfileAppGroupInfo) : Prop extends AppGroups i groups where
  valid : i.aclProfileValid = true

theorem AppGroups.getElem? {i : NasSwitchInfo} {groups : List AclProfileAppGroupInfo} (h : AppGroups i groups) {k : Nat}
    (hk : k < groups.length) : i.aclProfileAppGroupInfo[k]? = groups[k]? := by
  obtain ⟨blanks, htable⟩ := h.table
  rw [htable, List.getElem?_append_left hk]

/-- Each app group is found under its name. -/
theorem AppGroups.find {i : NasSwitchInfo} {groups : List AclProfileAppGroupInfo} (h : AppGroups i groups) {k : Nat}
    {g : AclProfileAppGroupInfo} (hg : groups[k]? = some g) : findAppGroup i (some g.appGroupName.name) = .hit k g := by
  have hk : k < groups.length := (List.getElem?_eq_some_iff.mp hg).1
  refine find_hit_iff.mpr ⟨⟨Nat.lt_of_lt_of_le hk h.fits, (h.getElem? hk).trans hg, fun j hj b hb heq => ?_⟩, rfl⟩
  rw [h.getElem? (Nat.lt_trans hj hk)] at hb
  have hlen : j < (groups.map fun g => g.appGroupName.name).length := by rw [List.length_map]; omega
  have hjk : j = k := (List.getElem?_inj hlen h.distinct).mp (by simp [hb, hg, heq])
  omega

def Profile.Short (groups : List AclProfileAppGroupInfo) : Prop :=
  ∀ g ∈ groups, g.appGroupName.name.length < nasCmnProfileNameSize

/-! ## The profile that was parsed -/

/-- The stored name of an app group. -/
def groupName (node : ConfigNode) : CString := (ProfileName.update node "name" (.copy [])).name

theorem groupEntries_names (c : SwConsts) (allocApps : Nat → Bool) (elems : List AclElem) : ∀ l idx,
    (groupEntries c allocApps l idx elems).map (fun g => g.appGroupName.name) =
      (elems.flatMap AclElem.groups).map groupName := by
  induction elems with
  | nil => intro l idx; rfl
  | cons e elems ih =>
    intro l idx
    cases e with
    | stage node => exact ih _ _
    | group node => exact congrArg (groupName node :: ·) (ih _ _)

theorem parsedEntries_names (c : SwConsts) (allocApps : Nat → Bool) (node : ConfigNode) :
    (parsedEntries c allocApps node).map (fun g => g.appGroupName.name) = (aclGroups node).map groupName := by
  rw [parsedEntries, groupEntries_names, aclElems_groups]
  rfl

theorem length_groupName (node : ConfigNode) : (groupName node).length < nasCmnProfileNameSize := by
  show (nasStdCfgStrAttrUpdate node "name" _).length < _
  unfold nasStdCfgStrAttrUpdate
  split
  · decide
  · exact Nat.lt_of_le_of_lt (length_safestrncpy (by decide)) (by decide)

section Parsed

variable {c : SwConsts} {allocGroups : Bool} {allocApps : Nat → Bool} {node : ConfigNode} {i : NasSwitchInfo}
  {s : AclParse}

theorem parsed_aclPools (h : nasSwitchUpdateAclProfileInfo c allocGroups allocApps node i = (.ok, s))
    (hin : s.fault = false) :
    s.info.aclPools = configuredPools node i := by
  obtain ⟨-, hingress, hegress, -⟩ := aclParse_ok h hin
  rw [NasSwitchInfo.aclPools, hingress, hegress]
  rfl

theorem profile_of_parse (h : nasSwitchUpdateAclProfileInfo c allocGroups allocApps node i = (.ok, s))
    (hin : s.fault = false) (hnodup : ((aclGroups node).map groupName).Nodup)
    (hfits : (aclGroups node).length ≤ configuredPools node i) :
    Profile s.info (parsedEntries c allocApps node) := by
  obtain ⟨hvalid, -, -, htable⟩ := aclParse_ok h hin
  refine ⟨⟨⟨_, htable⟩, ?_, ?_⟩, hvalid⟩
  · rwa [parsedEntries_names]
  · rwa [length_parsedEntries, parsed_aclPools h hin]

theorem parsed_short (c : SwConsts) (allocApps : Nat → Bool) (node : ConfigNode) :
    Profile.Short (parsedEntries c allocApps node) := by
  intro g hg
  have hmem : g.appGroupName.name ∈ (aclGroups node).map groupName := by
    rw [← parsedEntries_names c allocApps]
    exact List.mem_map_of_mem hg
  obtain ⟨node', -, hname⟩ := List.mem_map.mp hmem
  rw [← hname]
  exact length_groupName node'

end Parsed

end NasCommon.SwProfile
