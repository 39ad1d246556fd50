/-
  NasCommon.SwProfile.AclObjects — what a client reads of the ACL profile
  (`nas_sw_acl_profile_info_get`, `nas_sw_acl_profile_app_group_info_get` and
  `nas_sw_acl_profile_db_get_next`).

  A client can get every app group's object at once, ask for the objects name by name,
  the names from `nas_sw_acl_profile_info_get`, or walk the names. The names that are
  asked about find the first group that has them.
  - `get_all_reads_back`: the objects, got at once, read back as the groups below the
    bound of the loops.
  - `named_gets_iff`: asking name by name gives the same objects exactly when groups of
    one name have one object.
  - `walk_gets_iff`: the walk gives the names and counts of the observed objects exactly
    when the names are all different.
-/

import NasCommon.SwProfile.AclWalk

namespace NasCommon.SwProfile

/-! ## Reading an object -/

/-- A number of an object. -/
def AclObject.u32 (o : AclObject) (id : AclObjAttr) : Option UInt32 :=
  match Attrs.first Prod.fst id o with
  | some (_, .u32 v) => some v
  | _ => none

/-- A text of an object. -/
def AclObject.bin (o : AclObject) (id : AclObjAttr) : Option CString :=
  match Attrs.first Prod.fst id o with
  | some (_, .bin s) => some s
  | _ => none

/-- The applications from an index on, up to the first that is not there. -/
def readApps (o : AclObject) : Nat → Nat → List (CString × UInt32)
  | 0, _ => []
  | fuel + 1, idx =>
    match o.bin (.applicationAppId idx), o.u32 (.applicationNumUnitsPerEntry idx) with
    | some name, some units => (name, units) :: readApps o fuel (idx + 1)
    | _, _ => []

/-- An app group as a client has it. -/
structure GroupView where
  switchId : UInt32
  name : CString
  stage : UInt32
  depth : UInt32
  defaultPoolCount : UInt32
  poolCount : Option UInt32
  apps : List (CString × UInt32)
  deriving DecidableEq

def readGroup (o : AclObject) : Option GroupView :=
  match o.u32 .switchId, o.bin .appGroupId, o.u32 .appGroupStage, o.u32 .appGroupDepth, o.u32 .appGroupDefaultPoolCount with
  | some switchId, some name, some stage, some depth, some defaultPoolCount =>
    some ⟨switchId, name, stage, depth, defaultPoolCount, o.u32 .appGroupPoolCount, readApps o o.length 0⟩
  | _, _, _, _, _ => none

/-- The pool count that the object of a group has. -/
def poolCountOf (startup : AclStartup) (qualifier : CpsQualifier) (g : AclProfileAppGroupInfo) : Option UInt32 :=
  match qualifier with
  | .target => some ((nasSwAclProfileStartupDbInfoGet startup g.appGroupName.name).getD g.currentPoolCount.toUInt32)
  | .observed => some g.currentPoolCount.toUInt32
  | .other _ => none

def appsOf (g : AclProfileAppGroupInfo) : List AclProfileAppInfo := g.appInfo.take g.numApp.toNat

/-- A group of the table as its object tells it. -/
def viewOf (startup : AclStartup) (qualifier : CpsQualifier) (g : AclProfileAppGroupInfo) : GroupView where
  switchId := nasCmnDefaultSwitchId
  name := g.appGroupName.name
  stage := g.stageType.toUInt32
  depth := g.depthPerPool.toUInt32
  defaultPoolCount := g.defaultPoolCount.toUInt32
  poolCount := poolCountOf startup qualifier g
  apps := (appsOf g).map fun a => (a.appName.name, a.numUnitsPerEntry)

/-! ## The applications -/

/-- The attributes of the applications from index `idx` on. -/
def appAttrsFrom (idx : Nat) (apps : List AclProfileAppInfo) : AclObject :=
  (apps.mapIdx fun k => appAttrs (idx + k)).flatten

theorem appAttrsFrom_cons (idx : Nat) (a : AclProfileAppInfo) (apps : List AclProfileAppInfo) :
    appAttrsFrom idx (a :: apps) = appAttrs idx a ++ appAttrsFrom (idx + 1) apps := by
  unfold appAttrsFrom
  rw [List.mapIdx_cons, List.flatten_cons]
  congr 3
  funext k
  rw [Nat.add_right_comm, Nat.add_assoc]

/-- An application's two attributes are under its own index. -/
theorem first_appAttrs (apps : List AclProfileAppInfo) : ∀ idx k : Nat,
    Attrs.first Prod.fst (.applicationAppId (idx + k)) (appAttrsFrom idx apps) =
        (apps[k]?).map (fun a => (.applicationAppId (idx + k), .bin a.appName.name)) ∧
      Attrs.first Prod.fst (.applicationNumUnitsPerEntry (idx + k)) (appAttrsFrom idx apps) =
        (apps[k]?).map (fun a => (.applicationNumUnitsPerEntry (idx + k), .u32 a.numUnitsPerEntry)) := by
  induction apps with
  | nil => intro idx k; exact ⟨rfl, rfl⟩
  | cons a apps ih =>
    intro idx k
    rw [appAttrsFrom_cons]
    unfold Attrs.first
    rw [List.find?_append, List.find?_append]
    cases k with
    | zero => simp [appAttrs]
    | succ k =>
      obtain ⟨h1, h2⟩ := ih (idx + 1) k
      unfold Attrs.first at h1 h2
      rw [show idx + 1 + k = idx + (k + 1) by omega] at h1 h2
      simp [appAttrs, h1, h2]

theorem appAttrsFrom_ids {apps : List AclProfileAppInfo} : ∀ {idx : Nat} {p : AclObjAttr × CpsVal},
    p ∈ appAttrsFrom idx apps → ∃ k, p.1 = .applicationAppId k ∨ p.1 = .applicationNumUnitsPerEntry k := by
  induction apps with
  | nil => intro idx p h; cases h
  | cons a apps ih =>
    intro idx p h
    rw [appAttrsFrom_cons, List.mem_append] at h
    rcases h with h | h
    · simp only [appAttrs, List.mem_cons, List.not_mem_nil, or_false] at h
      rcases h with rfl | rfl
      · exact ⟨idx, Or.inl rfl⟩
      · exact ⟨idx, Or.inr rfl⟩
    · exact ih h

/-! ## An object is read back -/

/-- The attributes of a group's object before its applications. -/
def groupAttrs (startup : AclStartup) (qualifier : CpsQualifier) (g : AclProfileAppGroupInfo) : AclObject :=
  [(.switchId, .u32 nasCmnDefaultSwitchId), (.appGroupId, .bin g.appGroupName.name),
    (.appGroupStage, .u32 g.stageType.toUInt32), (.appGroupDepth, .u32 g.depthPerPool.toUInt32),
    (.appGroupDefaultPoolCount, .u32 g.defaultPoolCount.toUInt32)] ++
  ((poolCountOf startup qualifier g).map fun v => (AclObjAttr.appGroupPoolCount, CpsVal.u32 v)).toList

section Object

variable (startup : AclStartup) (qualifier : CpsQualifier) (g : AclProfileAppGroupInfo)

theorem appGroupObject_eq :
    appGroupObject startup qualifier g = groupAttrs startup qualifier g ++ appAttrsFrom 0 (appsOf g) := by
  have happs : appAttrsFrom 0 (appsOf g) = ((g.appInfo.take g.numApp.toNat).mapIdx appAttrs).flatten := by
    unfold appAttrsFrom appsOf
    congr 2
    funext k
    rw [Nat.zero_add]
  rw [happs]
  cases qualifier <;> rfl

/-- An attribute that is not an application's is in front of them. -/
theorem first_groupAttr {id : AclObjAttr} (hid : ∀ k, id ≠ .applicationAppId k ∧ id ≠ .applicationNumUnitsPerEntry k) :
    Attrs.first Prod.fst id (appGroupObject startup qualifier g) =
      Attrs.first Prod.fst id (groupAttrs startup qualifier g) := by
  have hnone : (appAttrsFrom 0 (appsOf g)).find? (fun p => p.1 = id) = none := by
    refine List.find?_eq_none.mpr fun p hp heq => ?_
    obtain ⟨k, hk⟩ := appAttrsFrom_ids hp
    have heq : p.1 = id := by simpa using heq
    rcases hk with hk | hk
    · exact (hid k).1 (heq.symm.trans hk)
    · exact (hid k).2 (heq.symm.trans hk)
  unfold Attrs.first
  rw [appGroupObject_eq, List.find?_append, hnone, Option.or_none]

theorem readApps_object (fuel : Nat) : ∀ idx, readApps (appGroupObject startup qualifier g) fuel idx =
    (((appsOf g).drop idx).take fuel).map fun a => (a.appName.name, a.numUnitsPerEntry) := by
  have hfirst : ∀ {id : AclObjAttr}, (groupAttrs startup qualifier g).find? (fun p => p.1 = id) = none →
      Attrs.first Prod.fst id (appGroupObject startup qualifier g) = Attrs.first Prod.fst id (appAttrsFrom 0 (appsOf g)) := by
    intro id hno
    unfold Attrs.first
    rw [appGroupObject_eq, List.find?_append, hno, Option.none_or]
  have hfront : ∀ k, (groupAttrs startup qualifier g).find? (fun p => p.1 = .applicationAppId k) = none ∧
      (groupAttrs startup qualifier g).find? (fun p => p.1 = .applicationNumUnitsPerEntry k) = none := by
    intro k
    cases qualifier <;> simp [groupAttrs, poolCountOf]
  induction fuel with
  | zero => intro idx; rfl
  | succ fuel ih =>
    intro idx
    obtain ⟨hname, hunits⟩ := first_appAttrs (appsOf g) 0 idx
    rw [Nat.zero_add] at hname hunits
    rw [readApps, AclObject.bin, AclObject.u32, hfirst (hfront idx).1, hfirst (hfront idx).2, hname, hunits]
    cases hx : (appsOf g)[idx]? with
    | none => simp [List.drop_eq_nil_of_le (List.getElem?_eq_none_iff.mp hx)]
    | some a =>
      obtain ⟨hlt, ha⟩ := List.getElem?_eq_some_iff.mp hx
      rw [List.drop_eq_getElem_cons hlt, ha]
      simp [ih]

/-- A client reads from a group's object what the table has. -/
theorem readGroup_object : readGroup (appGroupObject startup qualifier g) = some (viewOf startup qualifier g) := by
  have hlen : (appsOf g).length ≤ (appGroupObject startup qualifier g).length := by
    have happs : ∀ (apps : List AclProfileAppInfo) idx, (appAttrsFrom idx apps).length = 2 * apps.length := by
      intro apps
      induction apps with
      | nil => intro idx; rfl
      | cons a apps ih =>
        intro idx
        rw [appAttrsFrom_cons, List.length_append, ih, List.length_cons]
        show 2 + _ = _
        omega
    rw [appGroupObject_eq, List.length_append, happs]
    omega
  have hfirst : ∀ id : AclObjAttr, (∀ k, id ≠ .applicationAppId k ∧ id ≠ .applicationNumUnitsPerEntry k) →
      Attrs.first Prod.fst id (appGroupObject startup qualifier g) =
        Attrs.first Prod.fst id (groupAttrs startup qualifier g) :=
    fun id hid => first_groupAttr startup qualifier g hid
  have hpool : AclObject.u32 (appGroupObject startup qualifier g) .appGroupPoolCount = poolCountOf startup qualifier g := by
    rw [AclObject.u32, hfirst _ (by simp)]
    cases qualifier <;> rfl
  have happs : readApps (appGroupObject startup qualifier g) (appGroupObject startup qualifier g).length 0 =
      (appsOf g).map fun a => (a.appName.name, a.numUnitsPerEntry) := by
    rw [readApps_object, List.drop_zero, List.take_of_length_le hlen]
  rw [readGroup, hpool, happs]
  rw [AclObject.u32, AclObject.bin, AclObject.u32, AclObject.u32, AclObject.u32, hfirst _ (by simp), hfirst _ (by simp),
    hfirst _ (by simp), hfirst _ (by simp), hfirst _ (by simp)]
  rfl

end Object

/-! ## Getting the objects -/

/-- The entries that the loops look at. -/
def below (i : NasSwitchInfo) : List AclProfileAppGroupInfo := i.aclProfileAppGroupInfo.take i.aclPools

/-- The loops stay inside the table, and inside each group's applications. -/
structure Readable (i : NasSwitchInfo) : Prop where
  room : i.aclPools ≤ i.aclProfileAppGroupInfo.length
  apps : ∀ g ∈ i.aclProfileAppGroupInfo, g.numApp.toNat ≤ g.appInfo.length

/-- An app group that is accepted has its applications. -/
theorem groupEntries_apps (c : SwConsts) (allocApps : Nat → Bool) (elems : List AclElem) : ∀ l idx,
    accepted allocApps idx (elems.flatMap AclElem.groups) = (elems.flatMap AclElem.groups).length →
      ∀ g ∈ groupEntries c allocApps l idx elems, g.numApp.toNat ≤ g.appInfo.length := by
  induction elems with
  | nil => intro l idx _ g hg; cases hg
  | cons e elems ih =>
    intro l idx hall g hg
    cases e with
    | stage node => exact ih _ idx hall g hg
    | group node =>
      rw [show (AclElem.group node :: elems).flatMap AclElem.groups = node :: elems.flatMap AclElem.groups from rfl,
        accepted, List.length_cons] at hall
      split at hall
      · omega
      · rename_i hrejects
        have halloc : allocApps idx = true := by
          simp only [rejectsGroup, Bool.or_eq_true, Bool.not_eq_true', not_or] at hrejects
          simpa using hrejects.2
        rcases List.mem_cons.mp hg with rfl | hg
        · simp only [AclLocals.entry, halloc, if_true, List.length_map, UInt8.toNat_ofNat']
          exact Nat.mod_le _ _
        · exact ih _ (idx + 1) (by omega) g hg

/-- An accepted profile is, its table having room for the pools. -/
theorem readable_of_parse {c : SwConsts} {allocGroups : Bool} {allocApps : Nat → Bool} {node : ConfigNode}
    {i : NasSwitchInfo} {s : AclParse} (h : nasSwitchUpdateAclProfileInfo c allocGroups allocApps node i = (.ok, s))
    (hin : s.fault = false) (hroom : s.info.aclPools ≤ s.info.aclProfileAppGroupInfo.length) : Readable s.info := by
  obtain ⟨-, -, -, htable⟩ := aclParse_ok h hin
  have hall : accepted allocApps 0 (aclGroups node) = (aclGroups node).length := by
    cases allocGroups with
    | false =>
      have hrc := (aclParse_noAlloc c allocApps node i).1
      rw [h] at hrc
      cases hrc
    | true =>
      have hrc := (aclParse_spec c allocApps node i).rc
      rw [h] at hrc
      by_contra hne
      rw [if_neg hne] at hrc
      cases hrc
  refine ⟨hroom, fun g hg => ?_⟩
  rw [htable] at hg
  rcases List.mem_append.mp hg with hg | hg
  · exact groupEntries_apps c allocApps (aclElems node.children) _ 0 (by rw [aclElems_groups]; exact hall) g hg
  · rw [List.eq_of_mem_replicate hg]
    exact Nat.zero_le _

/-- Every object is created, and appended to the client's list. -/
structure AclObjEnv.Serves (env : AclObjEnv) : Prop where
  created : ∀ k, env.created k = true
  appended : ∀ k, env.appended k = true

section Get

variable {i : NasSwitchInfo} {env : AclObjEnv} (startup : AclStartup) (qualifier : CpsQualifier)

theorem infoToObj_eq (h : Readable i) (he : env.Serves) {idx : Nat} {g : AclProfileAppGroupInfo}
    (hg : i.aclProfileAppGroupInfo[idx]? = some g) :
    nasSwAclProfileAppGroupInfoToObj env startup qualifier idx g = some (some (appGroupObject startup qualifier g)) := by
  have happs := h.apps g (List.mem_of_getElem? hg)
  rw [nasSwAclProfileAppGroupInfoToObj, if_neg (by simp [he.created]), if_neg (by omega)]

/-- All from an index on. -/
theorem appGroupInfoFrom_all (h : Readable i) (he : env.Serves) (name : Option CString) (fuel : Nat) : ∀ idx list,
    idx + fuel ≤ i.aclProfileAppGroupInfo.length →
      appGroupInfoFrom i env startup qualifier name true fuel idx list =
        some (.ok, list ++ ((i.aclProfileAppGroupInfo.drop idx).take fuel).map (appGroupObject startup qualifier)) := by
  induction fuel with
  | zero => intro idx list _; simp [appGroupInfoFrom]
  | succ fuel ih =>
    intro idx list hlen
    have hidx : idx < i.aclProfileAppGroupInfo.length := by omega
    have hg := List.getElem?_eq_getElem hidx
    rw [appGroupInfoFrom, hg]
    simp only [Bool.true_or, if_true, infoToObj_eq startup qualifier h he hg, Option.isSome_some, he.appended,
      Bool.not_true, Bool.and_false, Bool.false_eq_true, if_false, Option.toList_some]
    rw [ih (idx + 1) _ (by omega), List.drop_eq_getElem_cons hidx, List.take_succ_cons, List.map_cons, List.append_assoc]
    rfl

theorem get_all_eq (h : Readable i) (he : env.Serves) (name : Option CString) (list : List AclObject) :
    nasSwAclProfileAppGroupInfoGet i env startup name true list qualifier =
      some (.ok, list ++ (below i).map (appGroupObject startup qualifier)) := by
  rw [nasSwAclProfileAppGroupInfoGet, if_neg (by simp),
    appGroupInfoFrom_all startup qualifier h he name i.aclPools 0 list (by rw [Nat.zero_add]; exact h.room)]
  rfl

/-- The first of a name, from an index on. -/
theorem appGroupInfoFrom_one (h : Readable i) (he : env.Serves) (name : CString) (fuel : Nat) : ∀ idx list,
    idx + fuel ≤ i.aclProfileAppGroupInfo.length →
      appGroupInfoFrom i env startup qualifier (some name) false fuel idx list =
        some (.ok, list ++ ((((i.aclProfileAppGroupInfo.drop idx).take fuel).find? (namedOrNull (some name))).map
          (appGroupObject startup qualifier)).toList) := by
  induction fuel with
  | zero => intro idx list _; simp [appGroupInfoFrom]
  | succ fuel ih =>
    intro idx list hlen
    have hidx : idx < i.aclProfileAppGroupInfo.length := by omega
    have hg := List.getElem?_eq_getElem hidx
    rw [appGroupInfoFrom, hg, List.drop_eq_getElem_cons hidx, List.take_succ_cons]
    simp only [Bool.false_or, infoToObj_eq startup qualifier h he hg, Option.isSome_some, he.appended, Bool.not_true,
      Bool.and_false, Bool.false_eq_true, if_false, Option.toList_some]
    cases hname : namedOrNull (some name) i.aclProfileAppGroupInfo[idx] with
    | true => rw [if_pos rfl, List.find?_cons_of_pos hname]; rfl
    | false => rw [if_neg (by simp), List.find?_cons_of_neg (by simp [hname]), ih (idx + 1) list (by omega)]

theorem get_one_eq (h : Readable i) (he : env.Serves) (name : CString) (list : List AclObject) :
    nasSwAclProfileAppGroupInfoGet i env startup (some name) false list qualifier =
      some (.ok, list ++ (((below i).find? (namedOrNull (some name))).map (appGroupObject startup qualifier)).toList) := by
  rw [nasSwAclProfileAppGroupInfoGet, if_neg (by simp),
    appGroupInfoFrom_one startup qualifier h he name i.aclPools 0 list (by rw [Nat.zero_add]; exact h.room)]
  rfl

/-- Every app group below the bound, got at once, reads back as the table has it. -/
theorem get_all_reads_back (h : Readable i) (he : env.Serves) (name : Option CString) :
    ∃ objs, nasSwAclProfileAppGroupInfoGet i env startup name true [] qualifier = some (.ok, objs) ∧
      objs.map readGroup = (below i).map fun g => some (viewOf startup qualifier g) := by
  refine ⟨_, get_all_eq startup qualifier h he name [], ?_⟩
  rw [List.nil_append, List.map_map]
  exact List.map_congr_left fun g _ => readGroup_object startup qualifier g

end Get

/-- The two groups of `twoGroups`, in two pools. -/
def twoGroupsInfo : NasSwitchInfo :=
  (nasSwitchUpdateAclProfileInfo aclConsts true (fun _ => true) (twoGroups "2") .zero).2.info

theorem twoGroups_readable : Readable twoGroupsInfo :=
  readable_of_parse (i := .zero) (Prod.ext (by decide) rfl) (by decide) (by decide)

def serving : AclObjEnv := ⟨fun _ => true, fun _ => true⟩

theorem serving_serves : serving.Serves := ⟨fun _ => rfl, fun _ => rfl⟩

def noStartup : AclStartup := ⟨none, fun _ => 0⟩

theorem get_all_reads_back_two :
    ∃ objs, nasSwAclProfileAppGroupInfoGet twoGroupsInfo serving noStartup none true [] .target = some (.ok, objs) ∧
      objs.map readGroup = (below twoGroupsInfo).map fun g => some (viewOf noStartup .target g) :=
  get_all_reads_back noStartup .target twoGroups_readable serving_serves none

/-! ## Name by name -/

/-- The names in an object of `nas_sw_acl_profile_info_get`. -/
def groupIds (o : AclObject) : List CString :=
  o.filterMap fun p => match p with
    | (.appGroup _, .bin s) => some s
    | _ => none

/-- A client that asks for one name after the other, onto one list. -/
def askEach (i : NasSwitchInfo) (env : AclObjEnv) (startup : AclStartup) (qualifier : CpsQualifier) :
    List CString → List AclObject → Option (StdError × List AclObject)
  | [], list => some (.ok, list)
  | name :: names, list =>
    match nasSwAclProfileAppGroupInfoGet i env startup (some name) false list qualifier with
    | some (.ok, list) => askEach i env startup qualifier names list
    | r => r

theorem groupNamesFrom_ids (i : NasSwitchInfo) (fuel : Nat) : ∀ idx o, groupNamesFrom i fuel idx = some o →
    groupIds o = ((i.aclProfileAppGroupInfo.drop idx).take fuel).map fun g => g.appGroupName.name := by
  induction fuel with
  | zero => intro idx o h; cases h; rfl
  | succ fuel ih =>
    intro idx o h
    unfold groupNamesFrom at h
    cases hg : i.aclProfileAppGroupInfo[idx]? with
    | none => rw [hg] at h; cases h
    | some g =>
      rw [hg] at h
      obtain ⟨rest, hrest, rfl⟩ := Option.map_eq_some_iff.mp h
      obtain ⟨hidx, rfl⟩ := List.getElem?_eq_some_iff.mp hg
      rw [List.drop_eq_getElem_cons hidx, List.take_succ_cons, List.map_cons, ← ih (idx + 1) rest hrest]
      rfl

/-- The names that a client is given. -/
theorem infoGet_ids {c : SwConsts} {i : NasSwitchInfo} {o : AclObject} (h : nasSwAclProfileInfoGet c i = some (.ok, o)) :
    groupIds o = (below i).map fun g => g.appGroupName.name := by
  unfold nasSwAclProfileInfoGet at h
  cases hsup : nasSwAclProfileDbConfigSupported c i none with
  | none => rw [hsup] at h; cases h
  | some b =>
    rw [hsup] at h
    cases b with
    | false => cases h
    | true =>
      obtain ⟨names, hnames, he⟩ := Option.map_eq_some_iff.mp h
      cases he
      exact groupNamesFrom_ids i i.aclPools 0 names hnames

section AskEach

variable {i : NasSwitchInfo} {env : AclObjEnv} (startup : AclStartup) (qualifier : CpsQualifier)

theorem askEach_eq (h : Readable i) (he : env.Serves) (names : List CString) : ∀ list,
    askEach i env startup qualifier names list = some (.ok, list ++ names.flatMap fun name =>
      (((below i).find? (namedOrNull (some name))).map (appGroupObject startup qualifier)).toList) := by
  induction names with
  | nil => intro list; rw [List.flatMap_nil, List.append_nil]; rfl
  | cons name names ih =>
    intro list
    rw [askEach, get_one_eq startup qualifier h he name list, List.flatMap_cons]
    show askEach i env startup qualifier names _ = _
    rw [ih, List.append_assoc]

/-- The group that the name of an entry finds. -/
theorem find_own (i : NasSwitchInfo) {g : AclProfileAppGroupInfo} (hg : g ∈ below i) :
    ∃ g', (below i).find? (namedOrNull (some g.appGroupName.name)) = some g' ∧ g' ∈ below i ∧
      g'.appGroupName.name = g.appGroupName.name := by
  have hself : namedOrNull (some g.appGroupName.name) g = true := by simp [namedOrNull]
  have hsome : ((below i).find? (namedOrNull (some g.appGroupName.name))).isSome = true :=
    List.find?_isSome.mpr ⟨g, hg, hself⟩
  obtain ⟨g', hg'⟩ := Option.isSome_iff_exists.mp hsome
  have hname := List.find?_some hg'
  simp only [namedOrNull, decide_eq_true_eq] at hname
  exact ⟨g', hg', List.mem_of_find?_eq_some hg', hname.symm⟩

/-- A client that asks for each of the names it is given gets the objects that it would
    get at once exactly when no two groups of one name have different objects. -/
theorem named_gets_iff (h : Readable i) (he : env.Serves) {c : SwConsts} {o : AclObject}
    (hinfo : nasSwAclProfileInfoGet c i = some (.ok, o)) :
    askEach i env startup qualifier (groupIds o) [] =
        nasSwAclProfileAppGroupInfoGet i env startup none true [] qualifier ↔
      ∀ g ∈ below i, ∀ g' ∈ below i, g.appGroupName.name = g'.appGroupName.name →
        appGroupObject startup qualifier g = appGroupObject startup qualifier g' := by
  rw [askEach_eq startup qualifier h he, get_all_eq startup qualifier h he, infoGet_ids hinfo, List.flatMap_map]
  simp only [List.nil_append, Option.some.injEq, Prod.mk.injEq, true_and]
  have hgets : ((below i).flatMap fun g =>
      (((below i).find? (namedOrNull (some g.appGroupName.name))).map (appGroupObject startup qualifier)).toList) =
      (below i).map fun g => appGroupObject startup qualifier
        (((below i).find? (namedOrNull (some g.appGroupName.name))).getD g) := by
    rw [List.map_eq_flatMap]
    refine List.flatMap_congr fun g hg => ?_
    obtain ⟨g', hfind, -, -⟩ := find_own i hg
    rw [hfind]
    rfl
  rw [hgets, List.map_inj_left]
  constructor
  · intro hsame g hg g' hg' hname
    -- both have the object of the first of their name
    have hfirst := hsame g hg
    rw [hname] at hfirst
    obtain ⟨g0, hfind, -, -⟩ := find_own i hg'
    have hfirst' := hsame g' hg'
    rw [hfind, Option.getD_some] at hfirst hfirst'
    exact hfirst.symm.trans hfirst'
  · intro hsame g hg
    obtain ⟨g0, hfind, hmem, hname⟩ := find_own i hg
    rw [hfind, Option.getD_some]
    exact hsame g0 hmem g hg hname

end AskEach

theorem named_gets_iff_two :
    askEach twoGroupsInfo serving noStartup .target ["g0".toList, "g1".toList] [] =
      nasSwAclProfileAppGroupInfoGet twoGroupsInfo serving noStartup none true [] .target :=
  (named_gets_iff noStartup .target twoGroups_readable serving_serves (c := aclConsts)
    (o := [(.maxIngressAclPoolCount, .u32 2), (.maxEgressAclPoolCount, .u32 0), (.appGroup 0, .bin "g0".toList),
      (.appGroup 1, .bin "g1".toList)]) (by decide)).mpr (by decide)

/-! ## The walk -/

/-- The name and the pool count that an object gives, as a walker is handed them. -/
def rowOf (o : AclObject) : Option (CString × UInt32) :=
  (readGroup o).bind fun v => v.poolCount.map fun count => (v.name, count)

/-- A walk goes on from each of its rows. -/
theorem DbWalk.after {i : NasSwitchInfo} {name : Option CString} {rows : List (CString × UInt32)} (h : DbWalk i name rows) :
    ∀ {k : Nat} {row : CString × UInt32}, rows[k]? = some row → DbWalk i (some row.1) (rows.drop (k + 1)) := by
  induction h with
  | stop h => intro k row hk; cases hk
  | next h rest ih =>
    intro k row hk
    cases k with
    | zero =>
      cases hk
      exact rest
    | succ k => exact ih hk

section Walk

variable {i : NasSwitchInfo}

theorem below_getElem? {k : Nat} {g : AclProfileAppGroupInfo} (hg : (below i)[k]? = some g) :
    k < i.aclPools ∧ i.aclProfileAppGroupInfo[k]? = some g := by
  rw [below, List.getElem?_take] at hg
  split at hg
  · rename_i hlt
    exact ⟨hlt, hg⟩
  · cases hg

theorem Readable.length_below (h : Readable i) : (below i).length = i.aclPools := by
  rw [below, List.length_take, Nat.min_eq_left h.room]

/-- Asked with a name that an earlier group has too, the walk goes back to behind the
    first of the name. -/
theorem Readable.next_back (h : Readable i) (hshort : Profile.Short (below i)) {j k : Nat} {g g' : AclProfileAppGroupInfo}
    (hjk : j < k) (hj : (below i)[j]? = some g) (hk : (below i)[k]? = some g')
    (hname : g.appGroupName.name = g'.appGroupName.name) :
    ∃ m b, m ≤ k ∧ (below i)[m]? = some b ∧
      nasSwAclProfileDbGetNext i (some g'.appGroupName.name) = .ok (nameCount b) := by
  obtain ⟨g0, hfind, -, -⟩ := find_own i (List.mem_of_getElem? hk)
  have hlen := h.length_below
  have hkn : k < (below i).length := (List.getElem?_eq_some_iff.mp hk).1
  -- the first index that has the name
  obtain ⟨hfound, hbefore⟩ := List.find?_eq_some_iff_getElem.mp hfind
  obtain ⟨j0, hj0, hg0, hmin⟩ := hbefore
  have hle : j0 ≤ j := by
    by_contra hlt
    have hlt : j < j0 := by omega
    have hno := hmin j hlt
    obtain ⟨hjn, he⟩ := List.getElem?_eq_some_iff.mp hj
    rw [he] at hno
    simp [namedOrNull, hname] at hno
  have hhit : findAppGroup i (some g'.appGroupName.name) = .hit j0 g0 := by
    have hget : (below i)[j0]? = some g0 := by rw [List.getElem?_eq_getElem hj0, hg0]
    have hname0 : g'.appGroupName.name = g0.appGroupName.name := by simpa [namedOrNull] using hfound
    refine find_hit_iff.mpr ⟨⟨(below_getElem? hget).1, (below_getElem? hget).2, fun m hm b hb heq => ?_⟩, hname0.symm⟩
    have hno := hmin m hm
    have hbm : (below i)[m]? = some b := by
      rw [below, List.getElem?_take, if_pos (Nat.lt_trans hm (below_getElem? hget).1), hb]
    obtain ⟨hmn, he⟩ := List.getElem?_eq_some_iff.mp hbm
    rw [he] at hno
    simp [namedOrNull, hname0, heq] at hno
  have hnext : j0 + 1 < (below i).length := by omega
  have hrow := List.getElem?_eq_getElem hnext
  refine ⟨j0 + 1, _, by omega, hrow, ?_⟩
  have hne : ¬ i.aclPools ≤ j0 + 1 := by omega
  simp only [nasSwAclProfileDbGetNext, hhit, reduceCtorEq, if_false, if_neg hne]
  rw [rowAt, (below_getElem? hrow).2, ← aclRow_eq (hshort _ (List.getElem_mem hnext))]

/-- Two groups of one name keep the walk from ending. -/
theorem Readable.walk_repeats (h : Readable i) (hshort : Profile.Short (below i))
    (hwalk : DbWalk i none ((below i).map nameCount)) : ∀ d j k g g', k + d + 1 = i.aclPools → j < k →
      (below i)[j]? = some g → (below i)[k]? = some g' → g.appGroupName.name ≠ g'.appGroupName.name := by
  intro d
  induction d with
  | zero =>
    intro j k g g' hlast hjk hj hk hname
    obtain ⟨m, b, -, -, hnext⟩ := h.next_back hshort hjk hj hk hname
    have hrest := hwalk.after (k := k) (by rw [List.getElem?_map, hk]; rfl)
    have hlen := h.length_below
    rw [List.drop_eq_nil_of_le (by rw [List.length_map]; omega)] at hrest
    obtain ⟨e, he⟩ := dbWalk_nil_iff.mp hrest
    exact absurd (hnext.symm.trans he) (by simp)
  | succ d ih =>
    intro j k g g' hlast hjk hj hk hname
    obtain ⟨m, b, hm, hb, hnext⟩ := h.next_back hshort hjk hj hk hname
    have hlen := h.length_below
    have hk1 : k + 1 < (below i).length := by omega
    have hrest := hwalk.after (k := k) (by rw [List.getElem?_map, hk]; rfl)
    rw [← List.map_drop, List.drop_eq_getElem_cons hk1, List.map_cons] at hrest
    have hrow := hnext.symm.trans (dbWalk_cons_iff.mp hrest).1
    have hname' : b.appGroupName.name = ((below i)[k + 1]).appGroupName.name := by
      have := (DbNext.ok.inj hrow)
      exact congrArg Prod.fst this
    exact ih m (k + 1) b _ (by omega) (by omega) hb (List.getElem?_eq_getElem hk1) hname'

/-- The walk hands out the names and pool counts of the objects that are got at once for
    the observed state, and then an error, exactly when the names below the bound are all
    different. -/
theorem walk_gets_iff (h : Readable i) (hshort : Profile.Short (below i))
    {env : AclObjEnv} (he : env.Serves) (startup : AclStartup) :
    ∃ objs, nasSwAclProfileAppGroupInfoGet i env startup none true [] .observed = some (.ok, objs) ∧
      (DbWalk i none (objs.filterMap rowOf) ↔ ((below i).map fun g => g.appGroupName.name).Nodup) := by
  refine ⟨_, get_all_eq startup .observed h he none [], ?_⟩
  have hrows : (([] : List AclObject) ++ (below i).map (appGroupObject startup .observed)).filterMap rowOf =
      (below i).map nameCount := by
    rw [List.nil_append, List.filterMap_map, ← List.filterMap_eq_map]
    refine List.filterMap_congr fun g _ => ?_
    rw [Function.comp_apply, rowOf, readGroup_object]
    rfl
  rw [hrows]
  constructor
  · intro hwalk
    rw [List.nodup_iff_getElem?_ne_getElem?]
    intro j k hjk hk heq
    rw [List.length_map] at hk
    have hj := List.getElem?_eq_getElem (Nat.lt_trans hjk hk)
    have hk' := List.getElem?_eq_getElem hk
    rw [List.getElem?_map, List.getElem?_map, hj, hk'] at heq
    have hlen := h.length_below
    exact h.walk_repeats hshort hwalk (i.aclPools - (k + 1)) j k _ _ (by omega) hjk hj hk' (Option.some.inj heq)
  · intro hnodup
    have hp : AppGroups i (below i) := ⟨⟨_, (List.take_append_drop _ _).symm⟩, hnodup, by
      rw [h.length_below]⟩
    exact (hp.walk_iff hshort).mpr h.length_below

end Walk

theorem walk_gets_iff_two :
    ∃ objs, nasSwAclProfileAppGroupInfoGet twoGroupsInfo serving noStartup none true [] .observed = some (.ok, objs) ∧
      (DbWalk twoGroupsInfo none (objs.filterMap rowOf) ↔
        ((below twoGroupsInfo).map fun g => g.appGroupName.name).Nodup) :=
  walk_gets_iff twoGroups_readable (by unfold Profile.Short; decide) serving_serves noStartup

end NasCommon.SwProfile
