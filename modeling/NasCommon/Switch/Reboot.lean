/-
  NasCommon.Switch.Reboot — the settings over any number of reboots
  (`nas_sw_parse_db_and_update`, `nas_switch_upd_acl_profile_info_to_running_cps_db`).

  A boot publishes the settings and the app groups' pool counts in the running config.
  Once that is saved, the next boot reads it as the startup config, its objects and
  their attributes in whatever order, and may be of another switch.xml. The profile
  name is published only where switch.xml has the profile.
  - `settings_survive_iff`: the settings are those of the first boot for ever exactly
    when at each reboot the profile is one that switch.xml had, or is its default now.
  - `reboots_settle`: with one switch.xml the settings, and what is published of them, do
    not change from the second boot on, nor what is published of app groups whose names
    are all different.
  - `pools_survive`: the pools of an app group are those of the first boot, wherever below
    its bound the switch.xml of the day puts the group and whatever it says of its pools.
-/

import NasCommon.Switch.Adopted
import NasCommon.SwProfile.AclStartup

namespace NasCommon.Switch

open SwProfile

/-! ## What is read back -/

/-- What a reader of the other kind makes of a value. -/
structure CpsCast where
  u32OfBin : CString → UInt32
  binOfU32 : UInt32 → CString

/-- A value as an attribute that is read. -/
def readBack (cast : CpsCast) {Id : Type} (p : Id × CpsVal) : CpsAttr Id :=
  match p.2 with
  | .u32 v => ⟨p.1, v, cast.binOfU32 v⟩
  | .bin s => ⟨p.1, cast.u32OfBin s, s⟩

/-- The object is what was published, its attributes in any order. -/
def ReadsBack (cast : CpsCast) {Id : Type} (obj : CpsObject Id) (o : RunningObject Id) : Prop :=
  obj.Perm (o.map (readBack cast))

/-- The startup config is what the boot published, saved. -/
structure Saved (cast : CpsCast) (o : BootOut) (db : CpsDb) : Prop where
  sw : ∃ r obj, o.running = some r ∧ db.startup = some [obj] ∧ ReadsBack cast obj r.attrs
  acl : ∃ objs, db.aclStartup = some objs ∧ (∀ obj ∈ objs, ∃ p ∈ o.acl.running, ReadsBack cast obj p) ∧
    ∀ p ∈ o.acl.running, ∃ obj ∈ objs, ReadsBack cast obj p

theorem ReadsBack.mem {cast : CpsCast} {Id : Type} {obj : CpsObject Id} {o : RunningObject Id} (h : ReadsBack cast obj o)
    {a : CpsAttr Id} : a ∈ obj ↔ ∃ p ∈ o, readBack cast p = a :=
  h.mem_iff.trans List.mem_map

theorem readBack_id (cast : CpsCast) {Id : Type} (p : Id × CpsVal) : (readBack cast p).id = p.1 := by
  obtain ⟨id, v⟩ := p
  cases v <;> rfl

/-- An attribute that was published once reads as its value, wherever it stands. -/
theorem ReadsBack.last_eq {cast : CpsCast} {Id : Type} [DecidableEq Id] {obj : CpsObject Id} {o : RunningObject Id}
    (h : ReadsBack cast obj o) {id : Id} {v : CpsVal} (hmem : (id, v) ∈ o) (honce : ∀ w, (id, w) ∈ o → w = v) :
    Attrs.last CpsAttr.id id obj = some (readBack cast (id, v)) := by
  have hall : ∀ a ∈ obj, a.id = id → (fun a => a) a = readBack cast (id, v) := by
    intro a ha hid
    obtain ⟨⟨id', w⟩, hp, rfl⟩ := h.mem.mp ha
    obtain rfl : id' = id := (readBack_id cast (id', w)).symm.trans hid
    rw [honce w hp]
  have hlast := Attrs.last_map_eq_some ⟨_, h.mem.mpr ⟨_, hmem, rfl⟩, readBack_id cast (id, v)⟩ hall
  rwa [Option.map_id'] at hlast

theorem ReadsBack.last_none {cast : CpsCast} {Id : Type} [DecidableEq Id] {obj : CpsObject Id} {o : RunningObject Id}
    (h : ReadsBack cast obj o) {id : Id} (hno : ∀ w, (id, w) ∉ o) : Attrs.last CpsAttr.id id obj = none := by
  refine Attrs.last_eq_none_iff.mpr fun a ha hid => ?_
  obtain ⟨⟨id', w⟩, hp, rfl⟩ := h.mem.mp ha
  obtain rfl : id' = id := (readBack_id cast (id', w)).symm.trans hid
  exact hno w hp

/-! ## One boot -/

/-- The settings adopted, the app groups as switch.xml has them. -/
def beforeAcl (db : CpsDb) (i : NasSwitchInfo) : NasSwitchInfo :=
  setCurrent (setDefaults ((db.startup.getD []).foldl (fun s obj => obj.foldl parseAttr s)
    ⟨{ i with currentProfile := .copy [], nextBootProfile := .copy [] }, false, false, false, false, false, false⟩))

/-- The database takes whatever is published. -/
structure Answers (db : CpsDb) : Prop where
  createOk : db.createOk = true
  commitOk : db.commitOk = true
  aclCommitOk : ∀ k, db.aclCommitOk k = true

theorem boot_eq {db : CpsDb} (h : Answers db) (swId : UInt32) (i : NasSwitchInfo) :
    (nasSwParseDbAndUpdate swId db i).running = some (swRunningObject swId (beforeAcl db i)) ∧
      (nasSwParseDbAndUpdate swId db i).acl =
        (nasSwAclProfileParseDbAndUpdate swId db.aclStartup db.aclCommitOk ⟨beforeAcl db i, [], false⟩).2 := by
  simp only [nasSwParseDbAndUpdate, h.createOk, h.commitOk]
  exact ⟨rfl, rfl⟩

theorem beforeAcl_current {db : CpsDb} (h : Answers db) (i : NasSwitchInfo) :
    (beforeAcl db i).current = adopted i db.attrs := by
  have hkeeps := parseAclDb_keeps 0 db.aclStartup db.aclCommitOk ⟨beforeAcl db i, [], false⟩
  rw [← (boot_settings 0 db i).1, (boot_eq h 0 i).2]
  exact hkeeps.1.symm

/-- What neither the settings of the next boot nor the current ones are part of. -/
theorem beforeAcl_keeps {γ : Type} (φ : NasSwitchInfo → γ) (hframe : ∀ i, φ i.frame = φ i)
    (hset : ∀ i, φ (setCurrent i) = φ i) (db : CpsDb) (i : NasSwitchInfo) :
    φ (beforeAcl db i) = φ { i with currentProfile := .copy [], nextBootProfile := .copy [] } := by
  have hflat : ∀ s, (db.startup.getD []).foldl (fun s obj => obj.foldl parseAttr s) s = db.attrs.foldl parseAttr s :=
    fun s => List.foldl_flatten.symm
  rw [beforeAcl, hset, hflat, ← hframe, setDefaults_frame, parse_frame, hframe]

/-! ## The settings -/

/-- A setting that is published once, as the next boot reads it. -/
theorem ReadsBack.read_eq {cast : CpsCast} {obj : CpsObject SwAttr} {o : RunningObject SwAttr} (h : ReadsBack cast obj o)
    {id : SwAttr} {v : CpsVal} (hmem : (id, v) ∈ o) (honce : ∀ w, (id, w) ∈ o → w = v) {α : Type}
    (f : CpsAttr SwAttr → α) (old : α) : SwProfile.read obj id f old = f (readBack cast (id, v)) := by
  unfold SwProfile.read stored
  rw [h.last_eq hmem honce]
  rfl

/-- What the next boot adopts: what was published, and for a profile name that was not
    the default of its own switch.xml. -/
theorem adopted_saved {cast : CpsCast} {obj : CpsObject SwAttr} {swId : UInt32} {i : NasSwitchInfo}
    (h : ReadsBack cast obj (swRunningObject swId i).attrs) (i' : NasSwitchInfo) :
    adopted i' obj = { i.current with
      profile := if i.nasSwProfileSupported (some i.current.profile) then i.current.profile else i'.defProfile.name } := by
  have hbool : ∀ b : Bool, (boolU32 b != 0) = b := by decide
  have hriot : (stored obj .vxlanRiotEnable).isSome = true := by
    rw [stored, h.last_eq (v := .u32 (boolU32 i.curVxlanRiotEnable)) (by simp [swRunningObject]) (by simp [swRunningObject])]
    rfl
  have hprofile : SwProfile.read obj .switchProfile (fun a => (ProfileName.copy a.dataBin).name) i'.defProfile.name =
      if i.nasSwProfileSupported (some i.current.profile) then i.current.profile else i'.defProfile.name := by
    cases hs : i.nasSwProfileSupported (some i.current.profile) with
    | true =>
      have hs : i.nasSwProfileSupported (some i.currentProfile.name) = true := hs
      rw [h.read_eq (v := .bin i.currentProfile.name) (by simp [swRunningObject, hs]) (by simp [swRunningObject, hs])]
      show (ProfileName.copy i.currentProfile.name).name = _
      rw [ProfileName.copy_name]
      rfl
    | false =>
      have hs : i.nasSwProfileSupported (some i.currentProfile.name) = false := hs
      rw [SwProfile.read, stored, h.last_none (by simp [swRunningObject, hs])]
      rfl
  simp only [adopted, resolve, sharedFlag, hriot, if_true, hprofile, NasSwitchInfo.current, Settings.mk.injEq, true_and]
  refine ⟨?_, ?_, ?_, ?_, ?_, ?_, ?_⟩
  · exact h.read_eq (v := .u32 i.currentUftmode) (by simp [swRunningObject]) (by simp [swRunningObject]) _ _
  · exact h.read_eq (v := .u32 i.curMaxEcmpPerGrp) (by simp [swRunningObject]) (by simp [swRunningObject]) _ _
  · exact h.read_eq (v := .u32 i.curIpv6ExtPrefixRoutes) (by simp [swRunningObject]) (by simp [swRunningObject]) _ _
  · exact (h.read_eq (v := .u32 (boolU32 i.curVxlanRiotEnable)) (by simp [swRunningObject])
      (by simp [swRunningObject]) _ _).trans (hbool _)
  · exact h.read_eq (v := .u32 i.curMaxVxlanOverlayRifs) (by simp [swRunningObject]) (by simp [swRunningObject]) _ _
  · exact h.read_eq (v := .u32 i.curMaxVxlanOverlayNexthops) (by simp [swRunningObject]) (by simp [swRunningObject]) _ _
  · exact (h.read_eq (v := .u32 (boolU32 i.curDeepBufferMode)) (by simp [swRunningObject])
      (by simp [swRunningObject]) _ _).trans (hbool _)

/-! ## Over the reboots -/

/-- Boot `n`, of the switch.xml and the database of the day. -/
def bootAt (file : Nat → NasSwitchInfo) (db : Nat → CpsDb) (n : Nat) : BootOut :=
  nasSwParseDbAndUpdate nasCmnDefaultSwitchId (db n) (file n)

/-- Each boot reads what the one before published. -/
structure Reboots (cast : CpsCast) (file : Nat → NasSwitchInfo) (db : Nat → CpsDb) : Prop where
  answers : ∀ n, Answers (db n)
  saved : ∀ n, Saved cast (bootAt file db n) (db (n + 1))

def settingsAt (file : Nat → NasSwitchInfo) (db : Nat → CpsDb) (n : Nat) : Settings := (bootAt file db n).acl.info.current

section Reboots

variable {cast : CpsCast} {file : Nat → NasSwitchInfo} {db : Nat → CpsDb}

theorem beforeAcl_fixed (db : CpsDb) (i : NasSwitchInfo) : (beforeAcl db i).fixed = i.fixed :=
  beforeAcl_keeps NasSwitchInfo.fixed (fun _ => rfl) (fun _ => rfl) db i

theorem beforeAcl_supported (db : CpsDb) (i : NasSwitchInfo) (name : Option CString) :
    (beforeAcl db i).nasSwProfileSupported name = i.nasSwProfileSupported name := by
  show (beforeAcl db i).fixed.nasSwProfileSupported name = i.fixed.nasSwProfileSupported name
  rw [beforeAcl_fixed]

theorem settingsAt_eq {n : Nat} (h : Answers (db n)) : settingsAt file db n = (beforeAcl (db n) (file n)).current := by
  rw [beforeAcl_current h, settingsAt, bootAt, (boot_settings nasCmnDefaultSwitchId (db n) (file n)).1]

/-- One reboot. -/
theorem Reboots.settings_step (h : Reboots cast file db) (n : Nat) :
    settingsAt file db (n + 1) = { settingsAt file db n with
      profile := if (file n).nasSwProfileSupported (some (settingsAt file db n).profile) then (settingsAt file db n).profile
        else (file (n + 1)).defProfile.name } := by
  obtain ⟨r, obj, hr, hdb, hobj⟩ := (h.saved n).sw
  have hrunning : (bootAt file db n).running = some (swRunningObject nasCmnDefaultSwitchId (beforeAcl (db n) (file n))) :=
    (boot_eq (h.answers n) nasCmnDefaultSwitchId (file n)).1
  rw [hrunning] at hr
  cases hr
  have hattrs : (db (n + 1)).attrs = obj := by
    rw [CpsDb.attrs, hdb]
    exact List.append_nil obj
  rw [settingsAt_eq (h.answers (n + 1)), beforeAcl_current (h.answers (n + 1)), hattrs, adopted_saved hobj,
    beforeAcl_supported, settingsAt_eq (h.answers n)]

/-- Over any number of reboots, each of what the one before published and of its own
    switch.xml: the settings are those of the first boot for ever exactly when each
    switch.xml has the profile, or the one after it has the profile as its default. -/
theorem settings_survive_iff (h : Reboots cast file db) :
    (∀ n, settingsAt file db n = settingsAt file db 0) ↔
      ∀ n, (file n).nasSwProfileSupported (some (settingsAt file db 0).profile) = true ∨
        (file (n + 1)).defProfile.name = (settingsAt file db 0).profile := by
  have hstep : ∀ n, settingsAt file db n = settingsAt file db 0 →
      (settingsAt file db (n + 1) = settingsAt file db 0 ↔
        (file n).nasSwProfileSupported (some (settingsAt file db 0).profile) = true ∨
          (file (n + 1)).defProfile.name = (settingsAt file db 0).profile) := by
    intro n hn
    rw [h.settings_step n, hn]
    generalize settingsAt file db 0 = first
    obtain ⟨profile, _, _, _, _, _, _, _⟩ := first
    cases (file n).nasSwProfileSupported (some profile) <;> simp
  constructor
  · intro hall n
    exact (hstep n (hall n)).mp (hall (n + 1))
  · intro hall n
    induction n with
    | zero => rfl
    | succ n ih => exact (hstep n ih).mpr (hall n)

theorem swRunning_congr {i j : NasSwitchInfo} (swId : UInt32) (hcur : i.current = j.current)
    (hsup : ∀ name, i.nasSwProfileSupported name = j.nasSwProfileSupported name) :
    swRunningObject swId i = swRunningObject swId j := by
  simp only [NasSwitchInfo.current, Settings.mk.injEq] at hcur
  obtain ⟨h1, h2, h3, h4, h5, h6, h7, h8⟩ := hcur
  simp only [swRunningObject, h1, h2, h3, h4, h5, h6, h7, h8, hsup]

/-- With one switch.xml: whatever the first boot read, from the second on every boot
    adopts the same settings. -/
theorem Reboots.settings_settle {i : NasSwitchInfo} (h : Reboots cast (fun _ => i) db) (n : Nat) :
    settingsAt (fun _ => i) db (n + 1) = settingsAt (fun _ => i) db 1 := by
  have hstep : ∀ n, settingsAt (fun _ => i) db (n + 2) = settingsAt (fun _ => i) db (n + 1) := by
    intro n
    -- a name that was not published is the default, published or not
    rw [h.settings_step (n + 1), h.settings_step n]
    generalize settingsAt (fun _ => i) db n = s
    obtain ⟨profile, _, _, _, _, _, _, _⟩ := s
    cases hs : i.nasSwProfileSupported (some profile) with
    | true => simp [hs]
    | false => simp
  induction n with
  | zero => rfl
  | succ n ih => exact (hstep n).trans ih

end Reboots

/-! ## What is published, saved as it is -/

def saveDb (cast : CpsCast) (o : BootOut) : CpsDb where
  startup := some [((o.running.map SwRunning.attrs).getD []).map (readBack cast)]
  aclStartup := some (o.acl.running.map fun p => p.map (readBack cast))
  createOk := true
  commitOk := true
  aclCommitOk _ := true

def dbAt (cast : CpsCast) (file : Nat → NasSwitchInfo) (first : CpsDb) : Nat → CpsDb
  | 0 => first
  | n + 1 => saveDb cast (nasSwParseDbAndUpdate nasCmnDefaultSwitchId (dbAt cast file first n) (file n))

theorem reboots_dbAt (cast : CpsCast) (file : Nat → NasSwitchInfo) {first : CpsDb} (h : Answers first) :
    Reboots cast file (dbAt cast file first) := by
  have hanswers : ∀ n, Answers (dbAt cast file first n) := by
    intro n
    cases n with
    | zero => exact h
    | succ n => exact ⟨rfl, rfl, fun _ => rfl⟩
  refine ⟨hanswers, fun n => ⟨?_, _, rfl, fun obj hobj => ?_, fun p hp => ?_⟩⟩
  · obtain ⟨hrunning, -⟩ := boot_eq (hanswers n) nasCmnDefaultSwitchId (file n)
    refine ⟨_, _, hrunning, rfl, ?_⟩
    rw [hrunning]
    exact List.Perm.refl _
  · obtain ⟨p, hp, rfl⟩ := List.mem_map.mp hobj
    exact ⟨p, hp, List.Perm.refl _⟩
  · exact ⟨_, List.mem_map_of_mem hp, List.Perm.refl _⟩

/-- A reader that sees nothing of the other kind. -/
def plainCast : CpsCast := ⟨fun _ => 0, fun _ => []⟩

theorem storedDb_answers (l : CpsObject SwAttr) : Answers (storedDb l) := ⟨rfl, rfl, fun _ => rfl⟩

/-- A switch.xml with VXLAN RIOT defaults, and from the second boot on one without. -/
def riotOnce : Nat → NasSwitchInfo
  | 0 => riotInfo
  | _ + 1 => .zero

theorem settings_survive_iff_riotOnce :
    settingsAt riotOnce (dbAt plainCast riotOnce (storedDb [])) 3 =
      settingsAt riotOnce (dbAt plainCast riotOnce (storedDb [])) 0 :=
  (settings_survive_iff (reboots_dbAt plainCast riotOnce (storedDb_answers []))).mpr (fun _ => Or.inr rfl) 3

/-! ## The app groups' pools -/

theorem beforeAcl_groups (db : CpsDb) (i : NasSwitchInfo) :
    (beforeAcl db i).aclProfileAppGroupInfo = i.aclProfileAppGroupInfo :=
  beforeAcl_keeps NasSwitchInfo.aclProfileAppGroupInfo (fun _ => rfl) (fun _ => rfl) db i

/-- How many groups are published from index `idx` on. -/
def committed (commitOk : Nat → Bool) : Nat → Nat → Nat
  | 0, _ => 0
  | fuel + 1, idx => if commitOk idx then committed commitOk fuel (idx + 1) + 1 else 0

theorem lt_committed_iff (commitOk : Nat → Bool) (fuel : Nat) : ∀ idx k,
    k < committed commitOk fuel idx ↔ k < fuel ∧ ∀ j ≤ k, commitOk (idx + j) = true := by
  induction fuel with
  | zero => intro idx k; exact iff_of_false (Nat.not_lt_zero k) fun h => Nat.not_lt_zero k h.1
  | succ fuel ih =>
    intro idx k
    unfold committed
    cases hok : commitOk idx with
    | false => exact iff_of_false (by simp) fun h => by simpa [hok] using h.2 0 (Nat.zero_le k)
    | true =>
      rw [if_pos rfl]
      cases k with
      | zero =>
        refine iff_of_true (Nat.succ_pos _) ⟨Nat.succ_pos _, fun j hj => ?_⟩
        rw [Nat.le_zero.mp hj]
        exact hok
      | succ k =>
        rw [Nat.succ_lt_succ_iff, Nat.succ_lt_succ_iff, ih]
        refine and_congr_right fun _ => ⟨fun h j hj => ?_, fun h j hj => ?_⟩
        · cases j with
          | zero => exact hok
          | succ j => rw [← h j (by omega), Nat.add_assoc, Nat.add_comm 1 j]
        · rw [← h (j + 1) (by omega), Nat.add_assoc, Nat.add_comm 1 j]

theorem updRunningFrom_eq (swId : UInt32) (commitOk : Nat → Bool) (fuel : Nat) : ∀ idx (s : AclSt),
    idx + fuel ≤ s.info.aclProfileAppGroupInfo.length → (updRunningFrom swId commitOk fuel idx s).2 =
      { s with running := s.running ++
          ((s.info.aclProfileAppGroupInfo.drop idx).take (committed commitOk fuel idx)).map (aclRunningObject swId) } := by
  induction fuel with
  | zero => intro idx s _; simp [updRunningFrom, committed]
  | succ fuel ih =>
    intro idx s hlen
    have hidx : idx < s.info.aclProfileAppGroupInfo.length := by omega
    rw [updRunningFrom, List.getElem?_eq_getElem hidx, committed]
    cases commitOk idx with
    | false => simp
    | true =>
      simp only [if_true]
      rw [ih (idx + 1) _ (by show idx + 1 + fuel ≤ s.info.aclProfileAppGroupInfo.length; omega),
        List.drop_eq_getElem_cons hidx, List.take_succ_cons, List.map_cons, List.append_assoc]
      rfl

/-- Every entry below the bound is published, the commits all done. -/
theorem updRunningFrom_all {swId : UInt32} {commitOk : Nat → Bool} (hok : ∀ k, commitOk k = true) {fuel idx : Nat} {s : AclSt}
    (hlen : idx + fuel ≤ s.info.aclProfileAppGroupInfo.length) :
    (updRunningFrom swId commitOk fuel idx s).2.running =
      s.running ++ ((s.info.aclProfileAppGroupInfo.drop idx).take fuel).map (aclRunningObject swId) := by
  have hall : committed commitOk fuel idx = fuel := by
    refine eq_of_forall_lt_iff fun k => ?_
    rw [lt_committed_iff]
    exact and_iff_left fun j _ => hok (idx + j)
  rw [updRunningFrom_eq swId commitOk fuel idx s hlen, hall]

/-- An update leaves the table's size. -/
theorem sameNames_length {i j : NasSwitchInfo} (h : SameNames i j) :
    j.aclProfileAppGroupInfo.length = i.aclProfileAppGroupInfo.length := by
  simpa [aclNames] using congrArg List.length h.names

/-- The table has a group of the name at `place`, if any, below the bound, and no other;
    the bound is within the table. -/
structure Placed (name : CString) (i : NasSwitchInfo) (place : Option Nat) : Prop where
  room : i.aclPools ≤ i.aclProfileAppGroupInfo.length
  iff : ∀ j, (j < i.aclPools ∧ (aclNames i)[j]? = some name) ↔ place = some j

theorem Placed.congr {name : CString} {i j : NasSwitchInfo} {place : Option Nat} (h : Placed name i place)
    (hsame : SameNames i j) : Placed name j place := by
  refine ⟨?_, ?_⟩
  · rw [hsame.pools, sameNames_length hsame]
    exact h.room
  · rw [hsame.pools, hsame.names]
    exact h.iff

/-- And the profile was accepted. -/
structure HasGroup (i : NasSwitchInfo) (name : CString) (k : Nat) : Prop where
  valid : i.aclProfileValid = true
  placed : Placed name i (some k)

theorem hasGroup_iff {i : NasSwitchInfo} {name : CString} {k : Nat} : HasGroup i name k ↔
    i.aclProfileValid = true ∧ i.aclPools ≤ i.aclProfileAppGroupInfo.length ∧ k < i.aclPools ∧
      ∀ j < i.aclPools, (aclNames i)[j]? = some name ↔ j = k := by
  constructor
  · intro h
    refine ⟨h.valid, h.placed.room, ((h.placed.iff k).mpr rfl).1, fun j hj => ?_⟩
    rw [← and_iff_right (b := (aclNames i)[j]? = some name) hj, h.placed.iff j, Option.some.injEq, eq_comm]
  · intro h
    obtain ⟨hvalid, hroom, hbelow, halone⟩ := h
    refine ⟨hvalid, hroom, fun j => ?_⟩
    rw [Option.some.injEq]
    refine ⟨fun hj => ((halone j hj.1).mp hj.2).symm, fun hj => ?_⟩
    subst hj
    exact ⟨hbelow, (halone k hbelow).mpr rfl⟩

theorem HasGroup.below {i : NasSwitchInfo} {name : CString} {k : Nat} (h : HasGroup i name k) : k < i.aclPools :=
  (hasGroup_iff.mp h).2.2.1

theorem HasGroup.alone {i : NasSwitchInfo} {name : CString} {k : Nat} (h : HasGroup i name k) {j : Nat}
    (hj : j < i.aclPools) : (aclNames i)[j]? = some name ↔ j = k :=
  (hasGroup_iff.mp h).2.2.2 j hj

theorem HasGroup.findsAt {i : NasSwitchInfo} {name : CString} {k : Nat} (h : HasGroup i name k) : FindsAt i name k :=
  ⟨h.below, (h.alone h.below).mpr rfl,
    fun _ hj heq => Nat.ne_of_lt hj ((h.alone (Nat.lt_trans hj h.below)).mp heq)⟩

theorem HasGroup.congr {i j : NasSwitchInfo} {name : CString} {k : Nat} (h : HasGroup i name k) (hsame : SameNames i j) :
    HasGroup j name k :=
  ⟨hsame.valid.trans h.valid, h.placed.congr hsame⟩

/-- Where a switch.xml has a group of the name. -/
def placeOf (node : ConfigNode) (i : NasSwitchInfo) (name : CString) : Option Nat :=
  (((aclGroups node).map groupName).take (configuredPools node i)).idxOf? name

theorem placeOf_eq_some_iff {node : ConfigNode} {i : NasSwitchInfo} {name : CString} {j : Nat}
    (hnodup : ((aclGroups node).map groupName).Nodup) :
    placeOf node i name = some j ↔ j < configuredPools node i ∧ ((aclGroups node).map groupName)[j]? = some name := by
  have htake : (((aclGroups node).map groupName).take (configuredPools node i))[j]? = some name ↔
      j < configuredPools node i ∧ ((aclGroups node).map groupName)[j]? = some name := by
    rw [List.getElem?_take]
    split
    · rename_i hlt
      exact (and_iff_right hlt).symm
    · rename_i hlt
      exact iff_of_false (by simp) fun hand => hlt hand.1
  rw [← htake, placeOf, List.idxOf?_eq_some_iff, List.getElem?_eq_some_iff]
  constructor
  · intro h
    obtain ⟨hlt, heq, -⟩ := h
    exact ⟨hlt, heq⟩
  · intro h
    obtain ⟨hlt, heq⟩ := h
    refine ⟨hlt, heq, fun m hm heq' => ?_⟩
    exact Nat.ne_of_lt hm ((List.Nodup.getElem_inj_iff hnodup.take).mp (heq'.trans heq.symm))

/-- An accepted section's table has its names; the entries behind them have none. -/
theorem parsed_name_iff {c : SwConsts} {allocGroups : Bool} {allocApps : Nat → Bool} {node : ConfigNode} {i : NasSwitchInfo}
    {s : AclParse} (h : nasSwitchUpdateAclProfileInfo c allocGroups allocApps node i = (.ok, s)) (hin : s.fault = false)
    {name : CString} (hname : name ≠ []) (j : Nat) :
    (aclNames s.info)[j]? = some name ↔ ((aclGroups node).map groupName)[j]? = some name := by
  obtain ⟨-, -, -, htable⟩ := aclParse_ok h hin
  have hnames : aclNames s.info = (aclGroups node).map groupName ++
      List.replicate ((totalPools node).toNat - (aclGroups node).length) [] := by
    rw [aclNames, htable, List.map_append, parsedEntries_names, List.map_replicate]
    rfl
  rw [hnames]
  by_cases hj : j < ((aclGroups node).map groupName).length
  · rw [List.getElem?_append_left hj]
  · refine iff_of_false (fun heq => ?_) fun heq => hj (List.getElem?_eq_some_iff.mp heq).1
    rw [List.getElem?_append_right (Nat.not_lt.mp hj)] at heq
    exact hname (List.eq_of_mem_replicate (List.mem_of_getElem? heq))

/-- After an accepted section whose names are all different, its counts are within its
    table: a name that is not empty has the place that switch.xml gives it. -/
theorem placed_of_parse {c : SwConsts} {allocGroups : Bool} {allocApps : Nat → Bool} {node : ConfigNode}
    {i : NasSwitchInfo} {s : AclParse} (h : nasSwitchUpdateAclProfileInfo c allocGroups allocApps node i = (.ok, s))
    (hin : s.fault = false) (hsum : poolSum node < 2 ^ 32) (hpools : configuredPools node i ≤ poolSum node)
    (hnodup : ((aclGroups node).map groupName).Nodup) {name : CString} (hname : name ≠ []) :
    Placed name s.info (placeOf node i name) := by
  have hbound := parsed_aclPools h hin
  refine ⟨?_, fun j => ?_⟩
  · obtain ⟨-, -, -, htable⟩ := aclParse_ok h hin
    rw [hbound, htable, List.length_append, List.length_replicate, length_parsedEntries, totalPools_of_lt hsum]
    omega
  · rw [hbound, parsed_name_iff h hin hname, placeOf_eq_some_iff hnodup]

theorem hasGroup_of_parse {c : SwConsts} {allocGroups : Bool} {allocApps : Nat → Bool} {node : ConfigNode}
    {i : NasSwitchInfo} {s : AclParse} (h : nasSwitchUpdateAclProfileInfo c allocGroups allocApps node i = (.ok, s))
    (hin : s.fault = false) (hsum : poolSum node < 2 ^ 32) (hpools : configuredPools node i ≤ poolSum node)
    (hnodup : ((aclGroups node).map groupName).Nodup) {name : CString} (hname : name ≠ []) {k : Nat}
    (hk : placeOf node i name = some k) : HasGroup s.info name k :=
  ⟨(aclParse_ok h hin).1, hk ▸ placed_of_parse h hin hsum hpools hnodup hname⟩

/-- The entry of a group that was published. -/
theorem aclEntry_saved {cast : CpsCast} {swId : UInt32} {g : AclProfileAppGroupInfo} {obj : CpsObject AclAttr}
    (h : ReadsBack cast obj (aclRunningObject swId g)) :
    aclEntry obj = some (g.appGroupName.name, g.nextBootPoolCount.toUInt32) := by
  have hname : Attrs.last CpsAttr.id .appGroupId obj = some (readBack cast (.appGroupId, .bin g.appGroupName.name)) :=
    h.last_eq (by simp [aclRunningObject]) (by simp [aclRunningObject])
  have hcount : Attrs.last CpsAttr.id .appGroupPoolCount obj =
      some (readBack cast (.appGroupPoolCount, .u32 g.nextBootPoolCount.toUInt32)) :=
    h.last_eq (by simp [aclRunningObject]) (by simp [aclRunningObject])
  rw [aclEntry, hname, hcount]
  rfl

/-- The count of a name that one entry alone has. -/
theorem lastCount_saved {cast : CpsCast} {swId : UInt32} {i : NasSwitchInfo} {name : CString} {k : Nat}
    (h : HasGroup i name k) {g : AclProfileAppGroupInfo} (hg : i.aclProfileAppGroupInfo[k]? = some g)
    {objs : List (CpsObject AclAttr)} {running : List (RunningObject AclAttr)}
    (hrunning : running = (i.aclProfileAppGroupInfo.take i.aclPools).map (aclRunningObject swId))
    (hof : ∀ obj ∈ objs, ∃ p ∈ running, ReadsBack cast obj p) (hall : ∀ p ∈ running, ∃ obj ∈ objs, ReadsBack cast obj p) :
    lastCount name objs = some g.nextBootPoolCount.toUInt32 := by
  have hname : g.appGroupName.name = name := h.findsAt.name_eq hg
  have hentry : ∀ e ∈ objs.filterMap aclEntry, ∃ j b, j < i.aclPools ∧ i.aclProfileAppGroupInfo[j]? = some b ∧
      e = (b.appGroupName.name, b.nextBootPoolCount.toUInt32) := by
    intro e he
    obtain ⟨obj, hobj, hentry⟩ := List.mem_filterMap.mp he
    obtain ⟨p, hp, hback⟩ := hof obj hobj
    rw [hrunning] at hp
    obtain ⟨b, hb, rfl⟩ := List.mem_map.mp hp
    obtain ⟨j, hj⟩ := List.mem_iff_getElem?.mp hb
    rw [List.getElem?_take] at hj
    split at hj
    · rename_i hlt
      rw [aclEntry_saved hback] at hentry
      exact ⟨j, b, hlt, hj, (Option.some.inj hentry).symm⟩
    · cases hj
  refine Attrs.last_map_eq_some ?_ fun e he hkey => ?_
  · have hmem : aclRunningObject swId g ∈ running := by
      rw [hrunning]
      refine List.mem_map_of_mem (List.mem_iff_getElem?.mpr ⟨k, ?_⟩)
      rw [List.getElem?_take, if_pos h.below, hg]
    obtain ⟨obj, hobj, hback⟩ := hall _ hmem
    exact ⟨_, List.mem_filterMap.mpr ⟨obj, hobj, aclEntry_saved hback⟩, hname⟩
  · obtain ⟨j, b, hlt, hb, rfl⟩ := hentry e he
    have hj : (aclNames i)[j]? = some name := by rw [aclNames, List.getElem?_map, hb, Option.map_some, ← hkey]
    obtain rfl : j = k := (h.alone hlt).mp hj
    rw [hg] at hb
    cases hb
    rfl

theorem beforeAcl_sameNames (db : CpsDb) (i : NasSwitchInfo) : SameNames i (beforeAcl db i) where
  names := by rw [aclNames, beforeAcl_groups, aclNames]
  pools := by
    show (beforeAcl db i).fixed.aclPools = i.fixed.aclPools
    rw [beforeAcl_fixed]
  valid := by
    show (beforeAcl db i).fixed.aclProfileValid = i.fixed.aclProfileValid
    rw [beforeAcl_fixed]

section Pools

variable {cast : CpsCast} {file : Nat → NasSwitchInfo} {db : Nat → CpsDb} {name : CString} {k : Nat → Nat}

/-- The app groups as boot `n` leaves them. -/
def groupsAt (file : Nat → NasSwitchInfo) (db : Nat → CpsDb) (n : Nat) : List AclProfileAppGroupInfo :=
  (bootAt file db n).acl.info.aclProfileAppGroupInfo

/-- A boot leaves the names of an accepted profile, and its bound. -/
theorem Reboots.sameNames (h : Reboots cast file db) (n : Nat) (hvalid : (file n).aclProfileValid = true) :
    SameNames (file n) (bootAt file db n).acl.info := by
  have hbefore := beforeAcl_sameNames (db n) (file n)
  rw [bootAt, (boot_eq (h.answers n) _ _).2]
  exact hbefore.trans (parseAclDb_getElem? nasCmnDefaultSwitchId (db n).aclStartup (db n).aclCommitOk
    (s := ⟨beforeAcl (db n) (file n), [], false⟩) (hbefore.valid.trans hvalid)).1

/-- The names of the groups are switch.xml's, and their counts those of the last startup
    object with the name. -/
theorem Reboots.groupsAt_eq (h : Reboots cast file db) (n : Nat) (hgroup : HasGroup (file n) name (k n)) :
    HasGroup (bootAt file db n).acl.info name (k n) ∧
      (groupsAt file db n)[k n]? = ((file n).aclProfileAppGroupInfo[k n]?).map
        (putLast (lastCount name ((db n).aclStartup.getD []))) := by
  have hsame := beforeAcl_sameNames (db n) (file n)
  refine ⟨hgroup.congr (h.sameNames n hgroup.valid), ?_⟩
  rw [groupsAt, bootAt, (boot_eq (h.answers n) _ _).2, (parseAclDb_getElem? nasCmnDefaultSwitchId (db n).aclStartup
    (db n).aclCommitOk (s := ⟨beforeAcl (db n) (file n), [], false⟩) (hsame.valid.trans hgroup.valid)).2, beforeAcl_groups]
  cases hg : (file n).aclProfileAppGroupInfo[k n]? with
  | none => rfl
  | some g =>
    have hfinds := (hgroup.congr hsame).findsAt
    have hname : g.appGroupName.name = name := hgroup.findsAt.name_eq hg
    rw [Option.map_some, Option.map_some, hname, if_pos hfinds]

/-- What boot `n` publishes of its app groups. -/
theorem Reboots.published (h : Reboots cast file db) (n : Nat) (hvalid : (file n).aclProfileValid = true)
    (hroom : (file n).aclPools ≤ (file n).aclProfileAppGroupInfo.length) :
    (bootAt file db n).acl.running = ((groupsAt file db n).take (bootAt file db n).acl.info.aclPools).map
      (aclRunningObject nasCmnDefaultSwitchId) := by
  have hsame := h.sameNames n hvalid
  have hvalid' : (beforeAcl (db n) (file n)).aclProfileValid = true := (beforeAcl_sameNames (db n) (file n)).valid.trans hvalid
  rw [← sameNames_length hsame, ← hsame.pools] at hroom
  rw [groupsAt]
  rw [bootAt, (boot_eq (h.answers n) _ _).2] at hroom ⊢
  unfold nasSwAclProfileParseDbAndUpdate nasSwitchUpdAclProfileInfoToRunningCpsDb at hroom ⊢
  rw [if_neg (by simp [hvalid'])] at hroom ⊢
  dsimp only at hroom ⊢
  rw [updRunningFrom_info] at hroom ⊢
  rw [updRunningFrom_all (h.answers n).aclCommitOk (by omega), applyAll_running]
  rfl

/-- One reboot: the group is switch.xml's, with the pools it was published with. -/
theorem Reboots.pools_step (h : Reboots cast file db) (hgroup : ∀ n, HasGroup (file n) name (k n)) {n : Nat}
    {g : AclProfileAppGroupInfo} (hg : (groupsAt file db n)[k n]? = some g) :
    (groupsAt file db (n + 1))[k (n + 1)]? = ((file (n + 1)).aclProfileAppGroupInfo[k (n + 1)]?).map
      fun g' => { g' with nextBootPoolCount := g.nextBootPoolCount, currentPoolCount := g.nextBootPoolCount } := by
  obtain ⟨objs, hdb, hof, hall⟩ := (h.saved n).acl
  have hcount := lastCount_saved (h.groupsAt_eq n (hgroup n)).1 hg
    (h.published n (hgroup n).valid (hgroup n).placed.room) hof hall
  rw [(h.groupsAt_eq (n + 1) (hgroup (n + 1))).2, hdb, Option.getD_some, hcount]
  have hput : ∀ g', putLast (some g.nextBootPoolCount.toUInt32) g' =
      { g' with nextBootPoolCount := g.nextBootPoolCount, currentPoolCount := g.nextBootPoolCount } := by
    intro g'
    simp only [putLast, putCount, UInt8.toUInt8_toUInt32, if_true]
  simp only [funext hput]

theorem Reboots.group_there (h : Reboots cast file db) (hgroup : ∀ n, HasGroup (file n) name (k n)) (n : Nat) :
    ∃ g, (groupsAt file db n)[k n]? = some g := by
  have hgroup' := (h.groupsAt_eq n (hgroup n)).1
  exact ⟨_, List.getElem?_eq_getElem (Nat.lt_of_lt_of_le hgroup'.below hgroup'.placed.room)⟩

/-- Over any number of reboots, each of what the one before published and of its own
    switch.xml: an app group that each accepted profile names once below its pool counts,
    these within its table, wherever, has for ever the next-boot pools of the first boot,
    whatever its switch.xml says of them, and from the second boot on they are the current
    ones; the rest of it is switch.xml's. -/
theorem pools_survive (h : Reboots cast file db) (hgroup : ∀ n, HasGroup (file n) name (k n)) :
    ∃ pools : UInt8, ((groupsAt file db 0)[k 0]?).map (fun g => g.nextBootPoolCount) = some pools ∧
      ∀ n, (groupsAt file db (n + 1))[k (n + 1)]? = ((file (n + 1)).aclProfileAppGroupInfo[k (n + 1)]?).map
        fun g => { g with nextBootPoolCount := pools, currentPoolCount := pools } := by
  obtain ⟨g0, hg0⟩ := h.group_there hgroup 0
  refine ⟨g0.nextBootPoolCount, by rw [hg0]; rfl, fun n => ?_⟩
  induction n with
  | zero => exact h.pools_step hgroup hg0
  | succ n ih =>
    obtain ⟨g, hg⟩ := h.group_there hgroup (n + 1)
    rw [h.pools_step hgroup hg]
    rw [hg] at ih
    obtain ⟨g', -, rfl⟩ := Option.map_eq_some_iff.mp ih.symm
    rfl

/-- The app groups below the bound have names of their own, and the bound is within the
    table. -/
structure NamesApart (i : NasSwitchInfo) : Prop where
  room : i.aclPools ≤ i.aclProfileAppGroupInfo.length
  distinct : ((aclNames i).take i.aclPools).Nodup

theorem NamesApart.hasGroup {i : NasSwitchInfo} (h : NamesApart i) (hvalid : i.aclProfileValid = true) {k : Nat}
    (hk : k < i.aclPools) : ∃ name, HasGroup i name k := by
  have hlen : (aclNames i).length = i.aclProfileAppGroupInfo.length := List.length_map _
  have hroom := h.room
  have htake : ∀ j < i.aclPools, ((aclNames i).take i.aclPools)[j]? = (aclNames i)[j]? := fun j hj => by
    rw [List.getElem?_take, if_pos hj]
  refine ⟨(aclNames i)[k], hasGroup_iff.mpr ⟨hvalid, h.room, hk, fun j hj => ?_⟩⟩
  rw [← List.getElem?_eq_getElem, ← htake j hj, ← htake k hk]
  refine ⟨fun heq => ?_, fun heq => by rw [heq]⟩
  exact (List.getElem?_inj (by rw [List.length_take]; omega) h.distinct).mp heq

/-- A group of one switch.xml is the same from the second boot on: the next boot's pools
    are those it was given then. -/
theorem Reboots.group_settles {i : NasSwitchInfo} {k : Nat} (h : Reboots cast (fun _ => i) db) (hgroup : HasGroup i name k)
    (n : Nat) : (groupsAt (fun _ => i) db (n + 1))[k]? = (groupsAt (fun _ => i) db 1)[k]? := by
  have hthere := h.group_there (k := fun _ => k) fun _ => hgroup
  have hstep : ∀ {m g}, (groupsAt (fun _ => i) db m)[k]? = some g → (groupsAt (fun _ => i) db (m + 1))[k]? =
      (i.aclProfileAppGroupInfo[k]?).map fun g' =>
        { g' with nextBootPoolCount := g.nextBootPoolCount, currentPoolCount := g.nextBootPoolCount } :=
    fun hg => h.pools_step (k := fun _ => k) (fun _ => hgroup) hg
  induction n with
  | zero => rfl
  | succ n ih =>
    obtain ⟨g, hg⟩ := hthere n
    obtain ⟨g1, hg1⟩ := hthere (n + 1)
    rw [hstep hg1, ← ih, hstep hg]
    rw [hstep hg] at hg1
    obtain ⟨g', -, rfl⟩ := Option.map_eq_some_iff.mp hg1
    rfl

/-- The groups of one switch.xml, from the second boot on. -/
theorem Reboots.groups_settle {i : NasSwitchInfo} (h : Reboots cast (fun _ => i) db) (hapart : NamesApart i) (n : Nat) :
    (bootAt (fun _ => i) db (n + 1)).acl.running = (bootAt (fun _ => i) db 1).acl.running := by
  cases hvalid : i.aclProfileValid with
  | false =>
    have hnone : ∀ m, (bootAt (fun _ => i) db m).acl.running = [] := by
      intro m
      have hbefore : (beforeAcl (db m) i).aclProfileValid = false := (beforeAcl_sameNames (db m) i).valid.trans hvalid
      rw [bootAt, (boot_eq (h.answers m) _ _).2, nasSwAclProfileParseDbAndUpdate, if_pos (by simp [hbefore])]
    rw [hnone, hnone]
  | true =>
    rw [h.published (n + 1) hvalid hapart.room, h.published 1 hvalid hapart.room, (h.sameNames (n + 1) hvalid).pools,
      (h.sameNames 1 hvalid).pools]
    congr 1
    refine List.ext_getElem? fun k => ?_
    rw [List.getElem?_take, List.getElem?_take]
    split
    · rename_i hk
      obtain ⟨name, hgroup⟩ := hapart.hasGroup hvalid hk
      exact h.group_settles hgroup n
    · rfl

/-- With one switch.xml: whatever the first boot read, from the second on every boot
    adopts the same settings and publishes the same settings' object; and where the names
    of the app groups are all different, the same objects of these. -/
theorem reboots_settle {i : NasSwitchInfo} (h : Reboots cast (fun _ => i) db) (n : Nat) :
    settingsAt (fun _ => i) db (n + 1) = settingsAt (fun _ => i) db 1 ∧
      (bootAt (fun _ => i) db (n + 1)).running = (bootAt (fun _ => i) db 1).running ∧
      (NamesApart i → (bootAt (fun _ => i) db (n + 1)).acl.running = (bootAt (fun _ => i) db 1).acl.running) := by
  have hsettings := h.settings_settle n
  refine ⟨hsettings, ?_, fun hapart => h.groups_settle hapart n⟩
  rw [settingsAt_eq (h.answers _), settingsAt_eq (h.answers _)] at hsettings
  rw [bootAt, bootAt, (boot_eq (h.answers _) _ _).1, (boot_eq (h.answers _) _ _).1, swRunning_congr _ hsettings]
  intro name
  rw [beforeAcl_supported, beforeAcl_supported]

end Pools

theorem reboots_settle_riot :
    settingsAt (fun _ => riotInfo) (dbAt plainCast (fun _ => riotInfo) (storedDb [])) 3 =
      settingsAt (fun _ => riotInfo) (dbAt plainCast (fun _ => riotInfo) (storedDb [])) 1 :=
  (reboots_settle (reboots_dbAt plainCast (fun _ => riotInfo) (storedDb_answers [])) 2).1

/-- An ingress stage of two pools with the groups of the names, and what its parse leaves. -/
def ingressNode (names : List String) : ConfigNode :=
  aclProfileNode [aclStageNode "ingress" "2" (names.map fun name =>
    aclGroupNode [("name", name.toList), ("default_pool_count", "1".toList)])]

def parsedIngress (names : List String) : AclParse :=
  (nasSwitchUpdateAclProfileInfo aclConsts true (fun _ => true) (ingressNode names) .zero).2

theorem parsedIngress_eq {names : List String}
    (h : (nasSwitchUpdateAclProfileInfo aclConsts true (fun _ => true) (ingressNode names) .zero).1 = .ok) :
    nasSwitchUpdateAclProfileInfo aclConsts true (fun _ => true) (ingressNode names) .zero = (.ok, parsedIngress names) :=
  Prod.ext h rfl

/-- The groups g0 and g1, and from the second boot on g1 and g0. -/
def swappedGroups : Nat → NasSwitchInfo
  | 0 => (parsedIngress ["g0", "g1"]).info
  | _ + 1 => (parsedIngress ["g1", "g0"]).info

/-- The first boot reads 3 pools for g1. -/
theorem pools_survive_swapped :
    let db := dbAt plainCast swappedGroups { storedDb [] with aclStartup := some mixedObjects }
    ∃ pools : UInt8, ((groupsAt swappedGroups db 0)[1]?).map (fun g => g.nextBootPoolCount) = some pools ∧
      ∀ n, (groupsAt swappedGroups db (n + 1))[0]? = ((swappedGroups (n + 1)).aclProfileAppGroupInfo[0]?).map
        fun g => { g with nextBootPoolCount := pools, currentPoolCount := pools } := by
  refine @pools_survive _ _ _ "g1".toList (fun n => if n = 0 then 1 else 0)
    (reboots_dbAt plainCast swappedGroups ⟨rfl, rfl, fun _ => rfl⟩) fun n => ?_
  cases n with
  | zero =>
    exact hasGroup_of_parse (@parsedIngress_eq ["g0", "g1"] (by decide)) (by decide) (by decide) (by decide)
      (by decide) (by decide) (by decide)
  | succ n =>
    exact hasGroup_of_parse (@parsedIngress_eq ["g1", "g0"] (by decide)) (by decide) (by decide) (by decide)
      (by decide) (by decide) (by rw [if_neg (Nat.succ_ne_zero n)]; decide)

end NasCommon.Switch
