/-
  NasCommon.Switch.Configured — pool counts configured between boots
  (`nas_sw_acl_profile_app_group_info_set`,
  `nas_switch_upd_acl_profile_info_to_running_cps_db`,
  `nas_sw_acl_profile_parse_db_and_update`).

  A request gives an app group a count for the next boot. The running config has it once
  the groups are published again, the startup config once the running one is saved, and
  a boot takes the startup config's counts and publishes them. Each boot may be of
  another switch.xml and find the running config lost or stale, and any commit may fail.
  - `group_refines`: over any run of boots, requests, publications and saves, what
    becomes of an app group is what becomes of one count in memory and one in each of
    the two configs (`GroupSt.step`).
  - `takes_effect`: the count that a boot makes current is the one that was asked for
    last before the last publication before the last save.
-/

import NasCommon.Lib.Refinement
import NasCommon.SwProfile.AclSupport
import NasCommon.Switch.Reboot

namespace NasCommon.Switch

open SwProfile

/-! ## Requests -/

/-- A call of `nas_sw_acl_profile_app_group_info_set`. -/
structure AclRequest where
  appGroupName : Option CString
  nextBootPoolReq : UInt32
  op : CpsOper

def AclRequest.run (c : SwConsts) (s : AclSt) (r : AclRequest) : StdError × AclSt :=
  nasSwAclProfileAppGroupInfoSet c r.appGroupName r.nextBootPoolReq r.op s

/-- A group that the request is for. -/
def AclRequest.put (r : AclRequest) (g : AclProfileAppGroupInfo) : AclProfileAppGroupInfo :=
  { g with nextBootPoolCount := if r.op = .delete then g.defaultPoolCount else r.nextBootPoolReq.toUInt8 }

theorem findAppGroup_ne_pastEnd {i : NasSwitchInfo} (hroom : i.aclPools ≤ i.aclProfileAppGroupInfo.length)
    (name : Option CString) : findAppGroup i name ≠ .pastEnd :=
  Table.scanFrom_ne_pastEnd (by rwa [Nat.zero_add])

/-- A request is refused, or is put into the group that its name finds. -/
theorem AclRequest.run_cases (c : SwConsts) (r : AclRequest) {s : AclSt}
    (hroom : s.info.aclPools ≤ s.info.aclProfileAppGroupInfo.length) :
    (r.run c s = (aclParam, s) ∧
      ∀ name, r.appGroupName = some name → nasSwAclProfileDbConfigSupported c s.info (some name) ≠ some true) ∨
    ∃ name j g, r.appGroupName = some name ∧ nasSwAclProfileDbConfigSupported c s.info (some name) = some true ∧
      findAppGroup s.info (some name) = .hit j g ∧
      r.run c s = (.ok, { s with info.aclProfileAppGroupInfo := s.info.aclProfileAppGroupInfo.set j (r.put g) }) := by
  have hsome : nasSwAclProfileDbConfigSupported c s.info r.appGroupName ≠ none := by
    unfold nasSwAclProfileDbConfigSupported
    cases hfind : findAppGroup s.info r.appGroupName with
    | missing => simp
    | pastEnd => exact absurd hfind (findAppGroup_ne_pastEnd hroom _)
    | hit j g =>
      dsimp only
      split
      · simp
      · split <;> simp
  unfold AclRequest.run nasSwAclProfileAppGroupInfoSet
  cases hsup : nasSwAclProfileDbConfigSupported c s.info r.appGroupName with
  | none => exact absurd hsup hsome
  | some b =>
    cases b with
    | false => exact Or.inl ⟨rfl, fun name hname h => by rw [hname, h] at hsup; cases hsup⟩
    | true =>
      cases hname : r.appGroupName with
      | none => exact Or.inl ⟨rfl, fun name h => by cases h⟩
      | some name =>
        rw [hname] at hsup
        obtain ⟨hvalid, j, g, hfind⟩ := supported_finds hsup
        refine Or.inr ⟨name, j, g, rfl, hsup, hfind, ?_⟩
        dsimp only
        by_cases hop : r.op = .delete
        · rw [if_pos hop, nasSwitchAclProfileResetCacheToDefault, hfind]
          simp [AclRequest.put, hop]
        · rw [if_neg hop, updateCache_eq _ _ _ hvalid, hfind]
          simp [AclRequest.put, putCount, hop]

/-! ## Boots, requests, publications and saves -/

/-- The app group that an object is keyed by. -/
def groupId (o : RunningObject AclAttr) : Option CString :=
  o.findSome? fun a =>
    match a with
    | (.appGroupId, .bin name) => some name
    | _ => none

/-- A copy of the running config to the startup config, in whatever order: for each key
    what was SET last. -/
structure Saver (cast : CpsCast) where
  save : List (RunningObject AclAttr) → List (CpsObject AclAttr)
  of : ∀ running, ∀ obj ∈ save running, ∃ p, Attrs.last groupId (groupId p) running = some p ∧ ReadsBack cast obj p
  all : ∀ running p, Attrs.last groupId (groupId p) running = some p → ∃ obj ∈ save running, ReadsBack cast obj p

/-- A switch.xml, parsed: its bound is within its table, and below it the group stands once
    at most. -/
structure SwitchXml (name : CString) where
  info : NasSwitchInfo
  place : Option Nat
  placed : Placed name info place

/-- What the switch keeps: the memory with the running config, and the startup config. -/
structure Box where
  acl : AclSt
  startup : Option (List (CpsObject AclAttr))

/-- Before the first boot. -/
def Box.off (startup : Option (List (CpsObject AclAttr))) : Box := ⟨⟨.zero, [], false⟩, startup⟩

inductive Event (cast : CpsCast) (name : CString) where
  /-- `db`, less its `aclStartup`, is what else the database gives and answers; `stale`
      says that the running config is still there. -/
  | boot (xml : SwitchXml name) (db : CpsDb) (stale : Bool)
  | request (r : AclRequest)
  | publish (commitOk : Nat → Bool)
  | save (saver : Saver cast)

section Step

variable {cast : CpsCast} {name : CString}

def Box.step (c : SwConsts) (b : Box) : Event cast name → Box
  | .boot xml db stale =>
    let running := if stale then b.acl.running else []
    let o := (nasSwParseDbAndUpdate nasCmnDefaultSwitchId { db with aclStartup := b.startup } xml.info).acl
    { b with acl := ⟨o.info, running ++ o.running, b.acl.fault || o.fault⟩ }
  | .request r => { b with acl := (r.run c b.acl).2 }
  | .publish commitOk =>
    { b with acl := (nasSwitchUpdAclProfileInfoToRunningCpsDb nasCmnDefaultSwitchId commitOk b.acl).2 }
  | .save saver => { b with startup := some (saver.save b.acl.running) }

/-! ## One app group -/

/-- The group in memory: where it is, whether the profile is valid, how many pools its
    stage has. -/
structure Loaded where
  idx : Nat
  valid : Bool
  numPools : Nat
  group : AclProfileAppGroupInfo

/-- What there is of an app group: in memory, where the profile has it, and its count in
    the two configs. -/
structure GroupSt where
  loaded : Option Loaded
  running : Option UInt8
  startup : Option UInt32

def SwitchXml.load (c : SwConsts) (xml : SwitchXml name) : Option Loaded :=
  xml.place.bind fun k => (xml.info.aclProfileAppGroupInfo[k]?).map fun g =>
    ⟨k, xml.info.aclProfileValid, stageNumPools c xml.info g, g⟩

/-- The startup config is read: the boot does not fail before, and the profile is valid. -/
def adopts (xml : SwitchXml name) (db : CpsDb) : Bool := db.createOk && db.commitOk && xml.info.aclProfileValid

/-- No commit up to the group's fails. -/
def Loaded.commits (l : Loaded) (commitOk : Nat → Bool) : Bool := (List.range (l.idx + 1)).all commitOk

/-- What a publication SETs of the group. -/
def Loaded.published (commitOk : Nat → Bool) (l : Loaded) : Option UInt8 :=
  if l.commits commitOk then some l.group.nextBootPoolCount else none

def GroupSt.publish (commitOk : Nat → Bool) (t : GroupSt) : GroupSt :=
  { t with running := (t.loaded.bind (Loaded.published commitOk)).or t.running }

def Loaded.accepts (l : Loaded) (name : CString) (r : AclRequest) : Bool :=
  decide (r.appGroupName = some name) && l.valid && decide (1 < l.numPools)

def Loaded.request (l : Loaded) (name : CString) (r : AclRequest) : Loaded :=
  if l.accepts name r then { l with group := r.put l.group } else l

def GroupSt.step (c : SwConsts) (t : GroupSt) : Event cast name → GroupSt
  | .boot xml db stale =>
    let running := if stale then t.running else none
    if adopts xml db then
      GroupSt.publish db.aclCommitOk
        { t with loaded := (xml.load c).map fun l => { l with group := putLast t.startup l.group }, running }
    else { t with loaded := xml.load c, running }
  | .request r => { t with loaded := t.loaded.map fun l => l.request name r }
  | .publish commitOk => t.publish commitOk
  | .save _ => { t with startup := t.running.map UInt8.toUInt32 }

/-- An object that was published. -/
def countObject (name : CString) (count : UInt8) : RunningObject AclAttr :=
  [(.switchId, .u32 nasCmnDefaultSwitchId), (.appGroupId, .bin name), (.appGroupPoolCount, .u32 count.toUInt32)]

/-- The memory holds the group. -/
structure InMemory (c : SwConsts) (name : CString) (i : NasSwitchInfo) (loaded : Option Loaded) : Prop where
  placed : Placed name i (loaded.map Loaded.idx)
  row : ∀ l, loaded = some l → i.aclProfileAppGroupInfo[l.idx]? = some l.group ∧ i.aclProfileValid = l.valid ∧
    stageNumPools c i l.group = l.numPools

/-- The switch holds the group, and has not read past its table. -/
structure Holds (c : SwConsts) (name : CString) (b : Box) (t : GroupSt) : Prop where
  sound : b.acl.fault = false
  memory : InMemory c name b.acl.info t.loaded
  published : ∀ p ∈ b.acl.running, ∃ g, p = aclRunningObject nasCmnDefaultSwitchId g
  running : Attrs.last groupId (some name) b.acl.running = t.running.map (countObject name)
  startup : lastCount name (b.startup.getD []) = t.startup

/-! ## Publishing -/

/-- The objects that a publication SETs. -/
def publishedBy (commitOk : Nat → Bool) (i : NasSwitchInfo) : List (RunningObject AclAttr) :=
  (i.aclProfileAppGroupInfo.take (committed commitOk i.aclPools 0)).map (aclRunningObject nasCmnDefaultSwitchId)

theorem publish_eq (commitOk : Nat → Bool) {s : AclSt} (hroom : s.info.aclPools ≤ s.info.aclProfileAppGroupInfo.length) :
    (nasSwitchUpdAclProfileInfoToRunningCpsDb nasCmnDefaultSwitchId commitOk s).2 =
      { s with running := s.running ++ publishedBy commitOk s.info } :=
  updRunningFrom_eq nasCmnDefaultSwitchId commitOk s.info.aclPools 0 s (by rwa [Nat.zero_add])

theorem Placed.name_eq {i : NasSwitchInfo} {k : Nat} (h : Placed name i (some k)) :
    k < i.aclPools ∧ ∃ g, i.aclProfileAppGroupInfo[k]? = some g ∧ g.appGroupName.name = name := by
  obtain ⟨hk, hname⟩ := (h.iff k).mpr rfl
  rw [aclNames, List.getElem?_map, Option.map_eq_some_iff] at hname
  exact ⟨hk, hname⟩

/-- A group of the name below the bound of a publication is the one that is loaded. -/
theorem InMemory.published_group {c : SwConsts} {i : NasSwitchInfo} {loaded : Option Loaded} (h : InMemory c name i loaded)
    {commitOk : Nat → Bool} {g : AclProfileAppGroupInfo}
    (hg : g ∈ i.aclProfileAppGroupInfo.take (committed commitOk i.aclPools 0)) (hname : g.appGroupName.name = name) :
    ∃ l, loaded = some l ∧ l.group = g ∧ l.commits commitOk = true := by
  obtain ⟨j, hj⟩ := List.mem_iff_getElem?.mp hg
  rw [List.getElem?_take] at hj
  split at hj
  · rename_i hlt
    obtain ⟨hbound, hok⟩ := (lt_committed_iff commitOk _ 0 j).mp hlt
    have hplace := (h.placed.iff j).mp ⟨hbound, by rw [aclNames, List.getElem?_map, hj, Option.map_some, hname]⟩
    obtain ⟨l, hl, rfl⟩ := Option.map_eq_some_iff.mp hplace
    have hrow := (h.row l hl).1
    rw [hj] at hrow
    refine ⟨l, hl, (Option.some.inj hrow).symm, List.all_eq_true.mpr fun m hm => ?_⟩
    rw [← hok m (by simpa [Nat.lt_succ_iff] using hm), Nat.zero_add]
  · cases hj

/-- What a publication SETs of the group. -/
theorem InMemory.last_published {c : SwConsts} {i : NasSwitchInfo} {loaded : Option Loaded} (h : InMemory c name i loaded)
    (commitOk : Nat → Bool) : Attrs.last groupId (some name) (publishedBy commitOk i) =
      (loaded.bind (Loaded.published commitOk)).map (countObject name) := by
  have hkey : ∀ g : AclProfileAppGroupInfo, (fun _ => true) g = true →
      groupId (aclRunningObject nasCmnDefaultSwitchId g) = (fun g : AclProfileAppGroupInfo => some g.appGroupName.name) g :=
    fun _ _ => rfl
  have hlast := Attrs.last_map hkey (k := some name) (by simp)
    (i.aclProfileAppGroupInfo.take (committed commitOk i.aclPools 0))
  rw [List.filter_true] at hlast
  rw [publishedBy, hlast]
  cases hpub : loaded.bind (Loaded.published commitOk) with
  | none =>
    rw [Option.map_none, Option.map_eq_none_iff]
    refine Attrs.last_eq_none_iff.mpr fun g hg hname => ?_
    obtain ⟨l, rfl, rfl, hok⟩ := h.published_group hg (Option.some.inj hname)
    simp [Loaded.published, hok] at hpub
  | some v =>
    obtain ⟨l, rfl, hl⟩ := Option.bind_eq_some_iff.mp hpub
    unfold Loaded.published at hl
    split at hl
    · rename_i hok
      cases hl
      obtain ⟨hbound, g, hg, hname⟩ := h.placed.name_eq
      obtain rfl : g = l.group := Option.some.inj (hg.symm.trans (h.row l rfl).1)
      refine Attrs.last_map_eq_some ⟨l.group, ?_, congrArg some hname⟩ fun g' hg' hname' => ?_
      · refine List.mem_iff_getElem?.mpr ⟨l.idx, ?_⟩
        rw [List.getElem?_take, if_pos, hg]
        refine (lt_committed_iff commitOk _ 0 _).mpr ⟨hbound, fun j hj => ?_⟩
        rw [Nat.zero_add]
        exact List.all_eq_true.mp hok j (List.mem_range.mpr (Nat.lt_succ_of_le hj))
      · obtain ⟨l', hl', rfl, -⟩ := h.published_group hg' (Option.some.inj hname')
        cases hl'
        rw [← hname]
        rfl
    · cases hl

/-- The memory stays, the objects are SET. -/
theorem Holds.publish {c : SwConsts} {b : Box} {t : GroupSt} (h : Holds c name b t) (commitOk : Nat → Bool) :
    Holds c name { b with acl := { b.acl with running := b.acl.running ++ publishedBy commitOk b.acl.info } }
      (t.publish commitOk) where
  sound := h.sound
  memory := h.memory
  published := by
    intro p hp
    rcases List.mem_append.mp hp with hp | hp
    · exact h.published p hp
    · obtain ⟨g, -, rfl⟩ := List.mem_map.mp hp
      exact ⟨g, rfl⟩
  running := by
    show Attrs.last groupId (some name) (b.acl.running ++ publishedBy commitOk b.acl.info) = _
    rw [Attrs.last_append, h.memory.last_published, h.running, ← Option.map_or]
    rfl
  startup := h.startup

theorem Holds.reload {c : SwConsts} {b : Box} {t : GroupSt} (h : Holds c name b t) {i : NasSwitchInfo} {loaded : Option Loaded}
    (hmem : InMemory c name i loaded) : Holds c name { b with acl := { b.acl with info := i } } { t with loaded := loaded } :=
  ⟨h.sound, hmem, h.published, h.running, h.startup⟩

/-! ## Booting -/

theorem SwitchXml.inMemory (c : SwConsts) (xml : SwitchXml name) : InMemory c name xml.info (xml.load c) := by
  have hload : (xml.load c).map Loaded.idx = xml.place := by
    unfold SwitchXml.load
    cases hplace : xml.place with
    | none => rfl
    | some k =>
      obtain ⟨-, g, hg, -⟩ := (hplace ▸ xml.placed).name_eq
      rw [Option.bind_some, hg]
      rfl
  refine ⟨hload ▸ xml.placed, fun l hl => ?_⟩
  obtain ⟨k, -, hk⟩ := Option.bind_eq_some_iff.mp hl
  obtain ⟨g, hg, rfl⟩ := Option.map_eq_some_iff.mp hk
  exact ⟨hg, rfl, rfl⟩

/-- The group is found under its name. -/
theorem InMemory.findsAt {c : SwConsts} {i : NasSwitchInfo} {loaded : Option Loaded} (h : InMemory c name i loaded)
    {l : Loaded} (hl : loaded = some l) : FindsAt i name l.idx := by
  have hiff := h.placed.iff
  rw [hl] at hiff
  obtain ⟨hbound, hname⟩ := (hiff l.idx).mpr rfl
  refine ⟨hbound, hname, fun j hj hj' => ?_⟩
  have hplace := (hiff j).mp ⟨Nat.lt_trans hj hbound, hj'⟩
  exact Nat.ne_of_lt hj (Option.some.inj hplace).symm

/-- The settings that are adopted leave the groups as they are. -/
theorem InMemory.adopted {c : SwConsts} {i : NasSwitchInfo} {loaded : Option Loaded} (h : InMemory c name i loaded)
    (db : CpsDb) : InMemory c name (beforeAcl db i) loaded := by
  refine ⟨h.placed.congr (beforeAcl_sameNames db i), fun l hl => ?_⟩
  obtain ⟨hg, hvalid, hpools⟩ := h.row l hl
  refine ⟨by rw [beforeAcl_groups, hg], (beforeAcl_sameNames db i).valid.trans hvalid, ?_⟩
  rw [← hpools]
  show stageNumPools c (beforeAcl db i).fixed l.group = stageNumPools c i.fixed l.group
  rw [beforeAcl_fixed]

theorem applyAll_sound (objs : List (CpsObject AclAttr)) : ∀ acc : AclEntry × AclSt,
    acc.2.info.aclProfileValid = true → acc.2.info.aclPools ≤ acc.2.info.aclProfileAppGroupInfo.length →
      (objs.foldl applyAclObject acc).2.fault = acc.2.fault := by
  induction objs with
  | nil => intro acc _ _; rfl
  | cons obj objs ih =>
    intro acc hvalid hroom
    have hobj : (applyAclObject acc obj).2.fault = acc.2.fault ∧ SameNames acc.2.info (applyAclObject acc obj).2.info := by
      simp only [applyAclObject]
      split
      · exact ⟨rfl, SameNames.refl _⟩
      · refine ⟨?_, updateCache_sameNames _ _ _ hvalid⟩
        rw [updateCache_eq _ _ _ hvalid]
        split
        · rfl
        · rename_i hfind
          exact absurd hfind (findAppGroup_ne_pastEnd hroom _)
        · rfl
    obtain ⟨hfault, hsame⟩ := hobj
    have hroom' : (applyAclObject acc obj).2.info.aclPools ≤ (applyAclObject acc obj).2.info.aclProfileAppGroupInfo.length := by
      rw [hsame.pools, sameNames_length hsame]
      exact hroom
    rw [List.foldl_cons, ih _ (hsame.valid.trans hvalid) hroom', hfault]

/-- The startup objects, put into the groups; then everything is published. -/
theorem InMemory.parse {c : SwConsts} {i : NasSwitchInfo} {loaded : Option Loaded} (h : InMemory c name i loaded)
    (hvalid : i.aclProfileValid = true) (startup : Option (List (CpsObject AclAttr))) (commitOk : Nat → Bool) :
    let o := (nasSwAclProfileParseDbAndUpdate nasCmnDefaultSwitchId startup commitOk ⟨i, [], false⟩).2
    InMemory c name o.info (loaded.map fun l => { l with group := putLast (lastCount name (startup.getD [])) l.group }) ∧
      o.running = publishedBy commitOk o.info ∧ o.fault = false := by
  intro o
  obtain ⟨hsame, hget⟩ := parseAclDb_getElem? nasCmnDefaultSwitchId startup commitOk (s := ⟨i, [], false⟩) hvalid
  obtain ⟨groups, hgroups⟩ := parseAclDb_onlyAcl nasCmnDefaultSwitchId startup commitOk ⟨i, [], false⟩
  have hplaced : Placed name o.info (loaded.map Loaded.idx) := h.placed.congr hsame
  refine ⟨⟨?_, fun l' hl' => ?_⟩, ?_⟩
  · rw [Option.map_map]
    exact hplaced
  · obtain ⟨l, hl, rfl⟩ := Option.map_eq_some_iff.mp hl'
    obtain ⟨hrow, hv, hpools⟩ := h.row l hl
    have hfinds := h.findsAt hl
    refine ⟨?_, hsame.valid.trans hv, ?_⟩
    · show o.info.aclProfileAppGroupInfo[l.idx]? = _
      rw [hget, hrow, Option.map_some, hfinds.name_eq hrow, if_pos hfinds]
    · rw [← hpools, show o.info = { i with aclProfileAppGroupInfo := groups } from hgroups]
      cases lastCount name (startup.getD []) <;> rfl
  · -- the counts are put in first, then the table is gone through
    obtain ⟨e, s, hs⟩ : ∃ e s, (startup.getD []).foldl applyAclObject (⟨[], 0, false, false⟩, ⟨i, [], false⟩) = (e, s) :=
      ⟨_, _, rfl⟩
    have hrun := applyAll_running (startup.getD []) (⟨[], 0, false, false⟩, ⟨i, [], false⟩)
    have hsound := applyAll_sound (startup.getD []) (⟨[], 0, false, false⟩, ⟨i, [], false⟩) hvalid h.placed.room
    have ho : o = (nasSwitchUpdAclProfileInfoToRunningCpsDb nasCmnDefaultSwitchId commitOk s).2 := by
      show (nasSwAclProfileParseDbAndUpdate _ _ _ _).2 = _
      unfold nasSwAclProfileParseDbAndUpdate
      rw [if_neg (by simp [hvalid])]
      dsimp only
      rw [hs]
    rw [hs] at hrun hsound
    have hinfo : o.info = s.info := by
      rw [ho]
      exact updRunningFrom_info _ _ _ _ _
    have hroom : s.info.aclPools ≤ s.info.aclProfileAppGroupInfo.length := hinfo ▸ hplaced.room
    rw [ho, publish_eq commitOk hroom]
    dsimp only at hrun hsound ⊢
    rw [hrun]
    exact ⟨rfl, hsound⟩

/-- The startup objects are read, or nothing but the settings is adopted. -/
theorem boot_acl (swId : UInt32) (db : CpsDb) (xml : SwitchXml name) : (nasSwParseDbAndUpdate swId db xml.info).acl =
    if adopts xml db then
      (nasSwAclProfileParseDbAndUpdate swId db.aclStartup db.aclCommitOk ⟨beforeAcl db xml.info, [], false⟩).2
    else ⟨beforeAcl db xml.info, [], false⟩ := by
  have hvalid : (beforeAcl db xml.info).aclProfileValid = xml.info.aclProfileValid := (beforeAcl_sameNames db xml.info).valid
  have hboot : (nasSwParseDbAndUpdate swId db xml.info).acl =
      if db.createOk && db.commitOk then
        (nasSwAclProfileParseDbAndUpdate swId db.aclStartup db.aclCommitOk ⟨beforeAcl db xml.info, [], false⟩).2
      else ⟨beforeAcl db xml.info, [], false⟩ := by
    cases hcreate : db.createOk <;> cases hcommit : db.commitOk <;> simp only [nasSwParseDbAndUpdate, hcreate, hcommit] <;> rfl
  rw [hboot, adopts]
  cases hv : xml.info.aclProfileValid with
  | true => rw [Bool.and_true]
  | false =>
    rw [Bool.and_false, if_neg Bool.false_ne_true]
    split
    · unfold nasSwAclProfileParseDbAndUpdate
      rw [if_pos (by simp [hvalid, hv])]
    · rfl

/-- The running config is still there, or it is not. -/
theorem Holds.stale {c : SwConsts} {b : Box} {t : GroupSt} (h : Holds c name b t) (stale : Bool) :
    Holds c name { b with acl := { b.acl with running := if stale then b.acl.running else [] } }
      { t with running := if stale then t.running else none } := by
  cases stale with
  | true => exact h
  | false => exact ⟨h.sound, h.memory, fun p hp => absurd hp List.not_mem_nil, rfl, h.startup⟩

theorem Holds.boot {c : SwConsts} {b : Box} {t : GroupSt} (h : Holds c name b t) (xml : SwitchXml name) (db : CpsDb)
    (stale : Bool) :
    Holds c name (b.step c (.boot xml db stale : Event cast name)) (t.step c (.boot xml db stale : Event cast name)) := by
  have hmem : InMemory c name (beforeAcl { db with aclStartup := b.startup } xml.info) (xml.load c) := (xml.inMemory c).adopted _
  have hboot := boot_acl nasCmnDefaultSwitchId { db with aclStartup := b.startup } xml
  unfold Box.step GroupSt.step
  dsimp only
  rw [hboot]
  cases hadopts : adopts xml db with
  | false =>
    have hadopts' : adopts xml { db with aclStartup := b.startup } = false := hadopts
    rw [hadopts', if_neg Bool.false_ne_true, if_neg Bool.false_ne_true, List.append_nil, Bool.or_false]
    exact (h.stale stale).reload hmem
  | true =>
    have hadopts' : adopts xml { db with aclStartup := b.startup } = true := hadopts
    have hvalid : xml.info.aclProfileValid = true := by
      simp only [adopts, Bool.and_eq_true] at hadopts
      exact hadopts.2
    obtain ⟨hmem', hrunning, hfault⟩ := hmem.parse ((beforeAcl_sameNames _ xml.info).valid.trans hvalid) b.startup db.aclCommitOk
    rw [h.startup] at hmem'
    rw [hadopts', if_pos rfl, if_pos rfl, hrunning, hfault, Bool.or_false]
    exact ((h.stale stale).reload hmem').publish db.aclCommitOk

/-! ## Requests and saves -/

theorem InMemory.supported_iff {c : SwConsts} {i : NasSwitchInfo} {loaded : Option Loaded} (h : InMemory c name i loaded)
    {l : Loaded} (hl : loaded = some l) :
    nasSwAclProfileDbConfigSupported c i (some name) = some true ↔ l.valid = true ∧ 1 < l.numPools := by
  obtain ⟨hrow, hvalid, hpools⟩ := h.row l hl
  obtain ⟨g, hfind⟩ := findsAt_iff.mp (h.findsAt hl)
  obtain rfl : g = l.group := Option.some.inj ((find_hit_iff.mp hfind).1.2.1.symm.trans hrow)
  unfold nasSwAclProfileDbConfigSupported
  rw [hvalid, hfind]
  dsimp only
  rw [hpools]
  cases l.valid with
  | false => simp
  | true =>
    by_cases hle : l.numPools ≤ 1
    · simp [hle]
    · simp [hle, Nat.lt_of_not_le hle]

theorem sameNames_set {i : NasSwitchInfo} {j : Nat} {g : AclProfileAppGroupInfo} (hg : i.aclProfileAppGroupInfo[j]? = some g)
    {g' : AclProfileAppGroupInfo} (hname : g'.appGroupName = g.appGroupName) :
    SameNames i { i with aclProfileAppGroupInfo := i.aclProfileAppGroupInfo.set j g' } := by
  refine ⟨?_, rfl, rfl⟩
  have hself : (aclNames i)[j]? = some g'.appGroupName.name := by rw [aclNames, List.getElem?_map, hg, hname]; rfl
  obtain ⟨hlt, hself⟩ := List.getElem?_eq_some_iff.mp hself
  unfold aclNames at hself hlt ⊢
  rw [List.map_set, ← hself, List.set_getElem_self]

theorem map_request_idx (loaded : Option Loaded) (r : AclRequest) :
    (loaded.map fun l => l.request name r).map Loaded.idx = loaded.map Loaded.idx := by
  rw [Option.map_map]
  congr 1
  funext l
  simp only [Function.comp, Loaded.request]
  split <;> rfl

/-- The row of the group that is loaded, once a request has been given its group. -/
theorem InMemory.request_row {c : SwConsts} {i : NasSwitchInfo} {loaded : Option Loaded} (h : InMemory c name i loaded)
    {l : Loaded} (hl : loaded = some l) {r : AclRequest} {name' : CString} {j : Nat} {g : AclProfileAppGroupInfo}
    (hname' : r.appGroupName = some name') (hsup : nasSwAclProfileDbConfigSupported c i (some name') = some true)
    (hfind : findAppGroup i (some name') = .hit j g) :
    (i.aclProfileAppGroupInfo.set j (r.put g))[(l.request name r).idx]? = some (l.request name r).group ∧
      i.aclProfileValid = (l.request name r).valid ∧ stageNumPools c i (l.request name r).group = (l.request name r).numPools := by
  obtain ⟨⟨-, hg, -⟩, hgname⟩ := find_hit_iff.mp hfind
  obtain ⟨hrow, hvalid, hpools⟩ := h.row l hl
  by_cases heq : name' = name
  · -- the name finds the group that is loaded
    subst heq
    obtain ⟨hv, hp⟩ := (h.supported_iff hl).mp hsup
    have hfind' := findsAt_iff.mp (h.findsAt hl)
    obtain ⟨g', hfind'⟩ := hfind'
    rw [hfind] at hfind'
    cases hfind'
    obtain rfl : g = l.group := Option.some.inj (hg.symm.trans hrow)
    have hacc : l.accepts name' r = true := by simp [Loaded.accepts, hname', hv, hp]
    rw [Loaded.request, if_pos hacc]
    exact ⟨List.getElem?_set_self (List.getElem?_eq_some_iff.mp hg).1, hvalid, hpools⟩
  · have hacc : l.accepts name r = false := by simp [Loaded.accepts, hname', heq]
    have hne : j ≠ l.idx := by
      intro hj
      rw [hj, hrow] at hg
      exact heq (hgname.symm.trans (Option.some.inj hg ▸ (h.findsAt hl).name_eq hrow))
    rw [Loaded.request, if_neg (by simp [hacc])]
    exact ⟨(List.getElem?_set_ne hne).trans hrow, hvalid, hpools⟩

/-- A request of the name, or of another. -/
theorem InMemory.request {c : SwConsts} {s : AclSt} {loaded : Option Loaded} (h : InMemory c name s.info loaded)
    (r : AclRequest) :
    InMemory c name (r.run c s).2.info (loaded.map fun l => l.request name r) ∧ (r.run c s).2.running = s.running ∧
      (r.run c s).2.fault = s.fault ∧
      (r.appGroupName = some name → (r.run c s).1 = if loaded.any fun l => l.accepts name r then .ok else aclParam) := by
  rcases r.run_cases c h.placed.room with ⟨hrun, hrefused⟩ | ⟨name', j, g, hname', hsup, hfind, hrun⟩
  · have hnot : ∀ l, loaded = some l → l.accepts name r = false := by
      intro l hl
      by_contra hacc
      simp only [Loaded.accepts, Bool.not_eq_false, Bool.and_eq_true, decide_eq_true_eq] at hacc
      exact hrefused name hacc.1.1 ((h.supported_iff hl).mpr ⟨hacc.1.2, hacc.2⟩)
    rw [hrun]
    cases loaded with
    | none => exact ⟨h, rfl, rfl, fun _ => rfl⟩
    | some l =>
      have hno := hnot l rfl
      rw [Option.map_some, Loaded.request, hno]
      refine ⟨h, rfl, rfl, fun _ => ?_⟩
      simp [hno]
  · obtain ⟨⟨hbound, hg, -⟩, hgname⟩ := find_hit_iff.mp hfind
    have hplaced := h.placed.congr (sameNames_set (g := g) hg (rfl : (r.put g).appGroupName = _))
    rw [hrun]
    refine ⟨⟨by rw [map_request_idx]; exact hplaced, fun l' hl' => ?_⟩, rfl, rfl, fun hname => ?_⟩
    · obtain ⟨l, hl, rfl⟩ := Option.map_eq_some_iff.mp hl'
      exact h.request_row hl hname' hsup hfind
    · obtain rfl : name' = name := Option.some.inj (hname'.symm.trans hname)
      have hplace := (h.placed.iff j).mp ⟨hbound, by rw [aclNames, List.getElem?_map, hg, Option.map_some, hgname]⟩
      obtain ⟨l, rfl, -⟩ := Option.map_eq_some_iff.mp hplace
      obtain ⟨hv, hp⟩ := (h.supported_iff rfl).mp hsup
      simp [Loaded.accepts, hname, hv, hp]

theorem Holds.request {c : SwConsts} {b : Box} {t : GroupSt} (h : Holds c name b t) (r : AclRequest) :
    Holds c name (b.step c (.request r : Event cast name)) (t.step c (.request r : Event cast name)) := by
  obtain ⟨hmem, hrunning, hfault, -⟩ := h.memory.request r
  exact ⟨hfault.trans h.sound, hmem, fun p hp => h.published p (hrunning ▸ hp),
    (congrArg (Attrs.last groupId (some name)) hrunning).trans h.running, h.startup⟩

theorem Holds.save {c : SwConsts} {b : Box} {t : GroupSt} (h : Holds c name b t) (saver : Saver cast) :
    Holds c name (b.step c (.save saver : Event cast name)) (t.step c (.save saver : Event cast name)) := by
  refine ⟨h.sound, h.memory, h.published, h.running, ?_⟩
  show (Attrs.last Prod.fst name ((saver.save b.acl.running).filterMap aclEntry)).map Prod.snd = _
  -- an entry of the name is of the object that has the name as its key
  have hentry : ∀ e ∈ (saver.save b.acl.running).filterMap aclEntry, e.1 = name →
      ∃ v, t.running = some v ∧ e.2 = v.toUInt32 := by
    intro e he hname
    obtain ⟨obj, hobj, hentry⟩ := List.mem_filterMap.mp he
    obtain ⟨p, hp, hback⟩ := saver.of _ obj hobj
    obtain ⟨g, rfl⟩ := h.published p (Attrs.last_mem hp).1
    rw [aclEntry_saved hback] at hentry
    cases hentry
    obtain rfl : g.appGroupName.name = name := hname
    obtain ⟨v, hv, hobj⟩ := Option.map_eq_some_iff.mp (h.running.symm.trans hp)
    refine ⟨v, hv, ?_⟩
    simpa [countObject, aclRunningObject] using hobj.symm
  cases hrun : t.running with
  | none =>
    rw [Attrs.last_eq_none_iff.mpr]
    · simp only [GroupSt.step, hrun]
      rfl
    · intro e he hname
      obtain ⟨v, hv, -⟩ := hentry e he hname
      rw [hrun] at hv
      cases hv
  | some v =>
    have hlast := h.running
    rw [hrun] at hlast
    obtain ⟨obj, hobj, hback⟩ := saver.all b.acl.running (countObject name v) hlast
    obtain ⟨g, hg⟩ := h.published _ (Attrs.last_mem hlast).1
    rw [hg] at hback
    have hgname : g.appGroupName.name = name := by
      have := congrArg groupId hg
      exact (Option.some.inj this).symm
    simp only [GroupSt.step, hrun]
    refine Attrs.last_map_eq_some ⟨_, List.mem_filterMap.mpr ⟨obj, hobj, aclEntry_saved hback⟩, hgname⟩ ?_
    intro e he hname
    obtain ⟨w, hw, he⟩ := hentry e he hname
    rw [hrun] at hw
    cases hw
    exact he

/-- One event. -/
theorem Holds.step {c : SwConsts} {b : Box} {t : GroupSt} (h : Holds c name b t) (e : Event cast name) :
    Holds c name (b.step c e) (t.step c e) := by
  cases e with
  | boot xml db stale => exact h.boot xml db stale
  | request r => exact h.request r
  | publish commitOk =>
    show Holds c name { b with acl := _ } _
    rw [publish_eq commitOk h.memory.placed.room]
    exact h.publish commitOk
  | save saver => exact h.save saver

/-! ## Over a run -/

theorem holds_off (c : SwConsts) (name : CString) (startup : Option (List (CpsObject AclAttr))) :
    Holds c name (.off startup) ⟨none, none, lastCount name (startup.getD [])⟩ := by
  refine ⟨rfl, ⟨⟨Nat.le_refl 0, fun j => iff_of_false ?_ (by simp)⟩, fun l hl => by cases hl⟩, ?_, rfl, rfl⟩
  · intro h
    exact Nat.not_lt_zero j h.1
  · intro p hp
    cases hp

theorem Holds.run {c : SwConsts} {b : Box} {t : GroupSt} (h : Holds c name b t) (events : List (Event cast name)) :
    Holds c name (events.foldl (Box.step c) b) (events.foldl (GroupSt.step c) t) :=
  List.foldl_rel (r := Holds c name) h fun e _ _ _ h => h.step e

/-- Over any run of boots, each of its own switch.xml, requests, publications and saves,
    whatever the database answers: the groups in memory and the two configs hold what is
    there of the group on its own, a request of its name is taken just when the profile
    was accepted and has it below its bound, in a stage of more than one pool as kept, and
    no call reads past the table. -/
theorem group_refines (c : SwConsts) (startup : Option (List (CpsObject AclAttr))) (events : List (Event cast name)) :
    let b := events.foldl (Box.step c) (.off startup)
    let t := events.foldl (GroupSt.step c) ⟨none, none, lastCount name (startup.getD [])⟩
    Holds c name b t ∧ ∀ r, r.appGroupName = some name →
      (r.run c b.acl).1 = if t.loaded.any fun l => l.accepts name r then .ok else aclParam := by
  intro b t
  have h : Holds c name b t := (holds_off c name startup).run events
  exact ⟨h, fun r => (h.memory.request r).2.2.2⟩

end Step

/-! ## Parsed files -/

/-- Each object as it was SET last, in the order it has there. -/
def plainSaver : Saver plainCast where
  save running := (running.filter fun p => decide (Attrs.last groupId (groupId p) running = some p)).map
    fun p => p.map (readBack plainCast)
  of running obj hobj := by
    obtain ⟨p, hp, rfl⟩ := List.mem_map.mp hobj
    exact ⟨p, by simpa using (List.mem_filter.mp hp).2, List.Perm.refl _⟩
  all running p hp := by
    have hmem : p ∈ running.filter fun p => decide (Attrs.last groupId (groupId p) running = some p) :=
      List.mem_filter.mpr ⟨(Attrs.last_mem hp).1, by simpa using hp⟩
    exact ⟨_, List.mem_map_of_mem hmem, List.Perm.refl _⟩

/-- The switch.xml of an accepted section whose names are all different. -/
def SwitchXml.ofParse {name : CString} {c : SwConsts} {allocGroups : Bool} {allocApps : Nat → Bool} {node : ConfigNode}
    {i : NasSwitchInfo} {s : AclParse} (h : nasSwitchUpdateAclProfileInfo c allocGroups allocApps node i = (.ok, s))
    (hin : s.fault = false) (hsum : poolSum node < 2 ^ 32) (hpools : configuredPools node i ≤ poolSum node)
    (hnodup : ((aclGroups node).map groupName).Nodup) (hname : name ≠ []) : SwitchXml name where
  info := s.info
  place := placeOf node i name
  placed := placed_of_parse h hin hsum hpools hnodup hname

/-- The group g1 behind g0, before it, and not there. -/
def g1Behind : SwitchXml "g1".toList :=
  .ofParse (@parsedIngress_eq ["g0", "g1"] (by decide)) (by decide) (by decide) (by decide) (by decide) (by decide)

def g1Before : SwitchXml "g1".toList :=
  .ofParse (@parsedIngress_eq ["g1", "g0"] (by decide)) (by decide) (by decide) (by decide) (by decide) (by decide)

def noG1 : SwitchXml "g1".toList :=
  .ofParse (@parsedIngress_eq ["g0"] (by decide)) (by decide) (by decide) (by decide) (by decide) (by decide)

def askG1 (count : UInt32) : Event plainCast "g1".toList := .request ⟨some "g1".toList, count, .other 0⟩

/-- The group goes and comes back elsewhere: its request is taken again. -/
theorem group_refines_parsed :
    let b := [.boot g1Behind (storedDb []) false, askG1 3, .publish fun _ => true, .save plainSaver,
      .boot noG1 (storedDb []) true, askG1 4, .boot g1Before (storedDb []) false].foldl (Box.step aclConsts) (.off none)
    b.acl.fault = false ∧ (AclRequest.run aclConsts b.acl ⟨some "g1".toList, 5, .other 0⟩).1 = .ok := by
  obtain ⟨h, hrequest⟩ := group_refines aclConsts none [.boot g1Behind (storedDb []) false, askG1 3, .publish fun _ => true,
    .save plainSaver, .boot noG1 (storedDb []) true, askG1 4, .boot g1Before (storedDb []) false]
  exact ⟨h.sound, hrequest ⟨some "g1".toList, 5, .other 0⟩ rfl⟩

/-! ## What takes effect -/

section TakesEffect

variable {cast : CpsCast} {name : CString}

def Event.isBoot : Event cast name → Bool
  | .boot _ _ _ => true
  | _ => false

/-- The count that an event asks for the group, and is given. -/
def asked (l : Loaded) : Event cast name → Option UInt8
  | .request r => if l.accepts name r then some (r.put l.group).nextBootPoolCount else none
  | _ => none

/-- The group with another next-boot count. -/
def Loaded.withNext (l : Loaded) (count : UInt8) : Loaded :=
  { l with group := { l.group with nextBootPoolCount := count } }

theorem asked_withNext (l : Loaded) (count : UInt8) :
    (asked (l.withNext count) : Event cast name → Option UInt8) = asked l := by
  funext e
  cases e <;> rfl

theorem step_loaded (c : SwConsts) {t : GroupSt} {l : Loaded} (hl : t.loaded = some l) {e : Event cast name}
    (he : e.isBoot = false) :
    (t.step c e).loaded = some (l.withNext ((asked l e).getD l.group.nextBootPoolCount)) := by
  cases e with
  | boot xml db stale => cases he
  | request r =>
    show t.loaded.map (fun l => l.request name r) = _
    rw [hl, Option.map_some, Loaded.request, asked]
    split <;> rfl
  | publish commitOk => exact hl
  | save saver => exact hl

/-- Between two boots the group has the count that was asked for last. -/
theorem uptime_loaded (c : SwConsts) (es : List (Event cast name)) : ∀ (t : GroupSt) (l : Loaded), t.loaded = some l →
    (∀ e ∈ es, e.isBoot = false) → (es.foldl (GroupSt.step c) t).loaded =
      some (l.withNext (((es.filterMap (asked l)).getLast?).getD l.group.nextBootPoolCount)) := by
  induction es with
  | nil => intro t l hl _; exact hl
  | cons e es ih =>
    intro t l hl hup
    have hstep := step_loaded c hl (hup e List.mem_cons_self)
    rw [List.foldl_cons, ih _ _ hstep fun e' he' => hup e' (List.mem_cons_of_mem _ he'), asked_withNext,
      Runs.last_filterMap_cons]
    rfl

/-- The running config keeps the count while no publication gets to the group. -/
theorem uptime_running (c : SwConsts) (es : List (Event cast name)) : ∀ (t : GroupSt) (l : Loaded), t.loaded = some l →
    (∀ e ∈ es, e.isBoot = false) → (∀ commitOk, .publish commitOk ∈ es → l.commits commitOk = false) →
      (es.foldl (GroupSt.step c) t).running = t.running := by
  induction es with
  | nil => intro t l _ _ _; rfl
  | cons e es ih =>
    intro t l hl hup hpub
    have hstep := step_loaded c hl (hup e List.mem_cons_self)
    rw [List.foldl_cons, ih _ _ hstep (fun e' he' => hup e' (List.mem_cons_of_mem _ he'))
      (fun commitOk hmem => hpub commitOk (List.mem_cons_of_mem _ hmem))]
    cases e with
    | boot xml db stale => cases hup _ List.mem_cons_self
    | request r => rfl
    | publish commitOk =>
      show (t.loaded.bind (Loaded.published commitOk)).or t.running = _
      rw [hl, Option.bind_some, Loaded.published, hpub commitOk List.mem_cons_self]
      rfl
    | save saver => rfl

/-- The startup config changes with a save alone. -/
theorem startup_kept (c : SwConsts) (es : List (Event cast name)) : ∀ t : GroupSt, (∀ saver, .save saver ∉ es) →
    (es.foldl (GroupSt.step c) t).startup = t.startup := by
  induction es with
  | nil => intro t _; rfl
  | cons e es ih =>
    intro t hsave
    rw [List.foldl_cons, ih _ fun saver hmem => hsave saver (List.mem_cons_of_mem _ hmem)]
    cases e with
    | boot xml db stale =>
      simp only [GroupSt.step]
      split <;> rfl
    | request r => rfl
    | publish commitOk => rfl
    | save saver => exact absurd List.mem_cons_self (hsave saver)

/-- The group after a boot, as switch.xml has it but for its counts. -/
theorem boot_loaded (c : SwConsts) (t : GroupSt) {xml : SwitchXml name} (db : CpsDb) (stale : Bool) {l : Loaded}
    (hl : xml.load c = some l) : (t.step c (.boot xml db stale : Event cast name)).loaded =
      some (if adopts xml db then { l with group := putLast t.startup l.group } else l) := by
  unfold GroupSt.step
  dsimp only
  cases adopts xml db with
  | false => exact hl
  | true =>
    show (xml.load c).map _ = _
    rw [hl]
    rfl

theorem asked_putLast (l : Loaded) (count : Option UInt32) :
    (asked { l with group := putLast count l.group } : Event cast name → Option UInt8) = asked l := by
  funext e
  cases count <;> cases e <;> rfl

theorem putLast_toUInt32 (count : UInt8) (g : AclProfileAppGroupInfo) :
    putLast (some count.toUInt32) g = { g with nextBootPoolCount := count, currentPoolCount := count } := by
  simp only [putLast, putCount, UInt8.toUInt8_toUInt32, if_true]

/-- An uptime with a publication that gets to the group and then a save, and none of
    either that comes later: what is saved is the count that the group had last. -/
theorem uptime_saved (c : SwConsts) {t : GroupSt} {l : Loaded} (hl : t.loaded = some l) {pre mid post : List (Event cast name)}
    (hup : ∀ e ∈ pre ++ mid ++ post, e.isBoot = false) {commitOk : Nat → Bool} (hcommit : l.commits commitOk = true)
    (hmid : ∀ commitOk, .publish commitOk ∈ mid → l.commits commitOk = false) (saver : Saver cast)
    (hpost : ∀ saver, .save saver ∉ post) :
    ((pre ++ [Event.publish commitOk] ++ mid ++ [Event.save saver] ++ post).foldl (GroupSt.step c) t).startup =
      some (((pre.filterMap (asked l)).getLast?).getD l.group.nextBootPoolCount).toUInt32 := by
  have hup' : ∀ es, es ⊆ pre ++ mid ++ post → ∀ e ∈ es, e.isBoot = false := fun es hsub e he => hup e (hsub he)
  simp only [List.foldl_append, List.foldl_cons, List.foldl_nil]
  have hpre := uptime_loaded c pre t l hl (hup' pre fun e he => by simp [he])
  generalize ((pre.filterMap (asked l)).getLast?).getD l.group.nextBootPoolCount = v at hpre ⊢
  generalize pre.foldl (GroupSt.step c) t = t1 at hpre ⊢
  have hpublished : (t1.step c (.publish commitOk : Event cast name)).running = some v := by
    show (t1.loaded.bind (Loaded.published commitOk)).or t1.running = _
    rw [hpre, Option.bind_some, Loaded.published, if_pos (show (l.withNext v).commits commitOk = true from hcommit)]
    rfl
  have hloaded : (t1.step c (.publish commitOk : Event cast name)).loaded = some (l.withNext v) := hpre
  have hrunning := uptime_running c mid _ _ hloaded (hup' mid fun e he => by simp [he]) hmid
  rw [startup_kept c post _ hpost]
  exact congrArg (Option.map UInt8.toUInt32) (hrunning.trans hpublished)

/-- From any reachable state: between a boot and the next, both of a switch.xml that has
    the group, there is a publication that gets to it and then a save, and none of either
    that comes later. If the settings of the next boot are created and committed and its
    profile was accepted, it makes current the count that the group was given last before
    the publication, or else had at the first of the boots. -/
theorem takes_effect (c : SwConsts) (startup : Option (List (CpsObject AclAttr))) (before : List (Event cast name))
    {xml xml' : SwitchXml name} (db : CpsDb) {db' : CpsDb} (stale stale' : Bool) {l l' : Loaded} (hl : xml.load c = some l)
    (hl' : xml'.load c = some l') (hadopts : adopts xml' db' = true) {pre mid post : List (Event cast name)}
    (hup : ∀ e ∈ pre ++ mid ++ post, e.isBoot = false) {commitOk : Nat → Bool} (hcommit : l.commits commitOk = true)
    (hmid : ∀ commitOk, .publish commitOk ∈ mid → l.commits commitOk = false) (saver : Saver cast)
    (hpost : ∀ saver, .save saver ∉ post) :
    let b := (before ++ [Event.boot xml db stale]).foldl (Box.step c) (.off startup)
    let b' := (pre ++ [Event.publish commitOk] ++ mid ++ [Event.save saver] ++ post ++ [Event.boot xml' db' stale']).foldl (Box.step c) b
    ∃ g, b.acl.info.aclProfileAppGroupInfo[l.idx]? = some g ∧
      let v := ((pre.filterMap (asked l)).getLast?).getD g.nextBootPoolCount
      b'.acl.info.aclProfileAppGroupInfo[l'.idx]? = some { l'.group with nextBootPoolCount := v, currentPoolCount := v } := by
  intro b b'
  have hb := (holds_off c name startup).run (before ++ [Event.boot xml db stale])
  -- the group as the first boot leaves it
  generalize ht : (before ++ [Event.boot xml db stale]).foldl (GroupSt.step c) _ = t at hb
  obtain ⟨l1, hl1, hidx, hasked⟩ : ∃ l1, t.loaded = some l1 ∧ l1.idx = l.idx ∧
      (asked l1 : Event cast name → Option UInt8) = asked l := by
    rw [List.foldl_append, List.foldl_cons, List.foldl_nil] at ht
    refine ⟨_, by rw [← ht]; exact boot_loaded c _ db stale hl, ?_, ?_⟩
    · split <;> rfl
    · split
      · exact asked_putLast l _
      · rfl
  have hcommits : l1.commits = l.commits := by
    unfold Loaded.commits
    rw [hidx]
  have hcommit1 : l1.commits commitOk = true := by rw [hcommits, hcommit]
  have hsaved := uptime_saved c hl1 hup hcommit1 (by rw [hcommits]; exact hmid) saver hpost
  rw [hasked] at hsaved
  refine ⟨l1.group, hidx ▸ (hb.memory.row l1 hl1).1, ?_⟩
  -- and as the next one finds it
  have hb' := hb.run (pre ++ [Event.publish commitOk] ++ mid ++ [Event.save saver] ++ post)
  generalize (pre ++ [Event.publish commitOk] ++ mid ++ [Event.save saver] ++ post).foldl (GroupSt.step c) t = t' at hb' hsaved
  have hboot : (t'.step c (.boot xml' db' stale' : Event cast name)).loaded = _ := boot_loaded c t' db' stale' hl'
  rw [hadopts, if_pos rfl, hsaved, putLast_toUInt32] at hboot
  have hlast : b' = ((pre ++ [Event.publish commitOk] ++ mid ++ [Event.save saver] ++ post).foldl (Box.step c) b).step c
      (.boot xml' db' stale' : Event cast name) := List.foldl_append
  rw [hlast]
  exact ((hb'.step (.boot xml' db' stale')).memory.row _ hboot).1

end TakesEffect

/-- 3 pools are asked for and published, 4 are saved too early, 5 published too late. -/
theorem takes_effect_moved :
    let b := [.boot g1Behind (storedDb []) false, askG1 3, .publish fun _ => true, askG1 4, .save plainSaver, askG1 5,
      .publish fun _ => true, .boot g1Before (storedDb []) false].foldl (Box.step aclConsts) (.off none)
    (b.acl.info.aclProfileAppGroupInfo[0]?).map AclProfileAppGroupInfo.currentPoolCount = some 3 := by
  obtain ⟨g, -, h⟩ := takes_effect aclConsts none [] (storedDb []) false false
    (rfl : g1Behind.load aclConsts = some ⟨1, true, 2, _⟩)
    (rfl : g1Before.load aclConsts = some ⟨0, true, 2, _⟩) (rfl : adopts g1Before (storedDb []) = true)
    (by decide : ∀ e ∈ [askG1 3] ++ [askG1 4] ++ [askG1 5, .publish fun _ => true], e.isBoot = false)
    (rfl : Loaded.commits _ (fun _ => true) = true) (by simp [askG1]) plainSaver (by simp [askG1])
  exact congrArg (Option.map AclProfileAppGroupInfo.currentPoolCount) h

end NasCommon.Switch
