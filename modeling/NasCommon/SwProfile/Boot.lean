/-
  NasCommon.SwProfile.Boot — the settings adopted at boot
  (`nas_sw_parse_db_and_update`).

  A loop over the startup objects stores each attribute's value as the next-boot one
  and notes that it was found. Settings not found then take their default, and the
  current values are the next-boot ones. The three VXLAN settings share one found
  flag, that of VXLAN_RIOT_ENABLE.
  - `boot_settings`: what the next-boot and current values are, from the last
    occurrence of each attribute.
  - `boot_resolves_iff`: they are the stored value where there is one and the default
    where there is none exactly when the shared flag does no harm (and no stored name
    is over 64 characters).
  - `riot_enable_alone`: VXLAN_RIOT_ENABLE stored alone leaves the two counts at 0.
-/

import NasCommon.SwProfile.Acl

namespace NasCommon.SwProfile

/-! ## The call -/

/-- What the CPS database gives and answers. -/
structure CpsDb where
  /-- `nas_sw_profile_startup_cps_db_get`. -/
  startup : Option (List (CpsObject SwAttr))
  aclStartup : Option (List (CpsObject AclAttr))
  createOk : Bool
  commitOk : Bool
  aclCommitOk : Nat → Bool

structure ParseSt where
  info : NasSwitchInfo
  profileFound : Bool
  uftFound : Bool
  ecmpFound : Bool
  ipv6ExtPrefixFound : Bool
  vxlanRiotConfFound : Bool
  deepBufferModeFound : Bool

def parseAttr (s : ParseSt) (a : CpsAttr SwAttr) : ParseSt :=
  match a.id with
  | .switchProfile => { s with info.nextBootProfile := .copy a.dataBin, profileFound := true }
  | .uftMode => { s with info.nextBootUftmode := a.dataU32, uftFound := true }
  | .maxEcmpEntryPerGroup => { s with info.nextBootMaxEcmpPerGrp := a.dataU32, ecmpFound := true }
  | .ipv6ExtendedPrefixRoutes => { s with info.nextIpv6ExtPrefixRoutes := a.dataU32, ipv6ExtPrefixFound := true }
  | .vxlanRiotEnable => { s with info.nextBootVxlanRiotEnable := a.dataU32 != 0, vxlanRiotConfFound := true }
  | .maxVxlanOverlayRifs => { s with info.nextBootMaxVxlanOverlayRifs := a.dataU32 }
  | .maxVxlanOverlayNexthops => { s with info.nextBootMaxVxlanOverlayNexthops := a.dataU32 }
  | .deepBufferModeEnable => { s with info.nextBootDeepBufferMode := a.dataU32 != 0, deepBufferModeFound := true }
  | .other _ => s

def defaultProfile (i : NasSwitchInfo) : NasSwitchInfo := { i with nextBootProfile := .copy i.defProfile.name }
def defaultUftmode (i : NasSwitchInfo) : NasSwitchInfo := { i with nextBootUftmode := i.defUftmode }
def defaultMaxEcmpPerGrp (i : NasSwitchInfo) : NasSwitchInfo := { i with nextBootMaxEcmpPerGrp := i.defMaxEcmpPerGrp }
def defaultIpv6ExtPrefixRoutes (i : NasSwitchInfo) : NasSwitchInfo :=
  { i with nextIpv6ExtPrefixRoutes := i.defIpv6ExtPrefixRoutes }
def defaultVxlanRiot (i : NasSwitchInfo) : NasSwitchInfo :=
  { i with
    nextBootVxlanRiotEnable := i.defVxlanRiotEnable
    nextBootMaxVxlanOverlayRifs := i.defMaxVxlanOverlayRifs
    nextBootMaxVxlanOverlayNexthops := i.defMaxVxlanOverlayNexthops }
def defaultDeepBufferMode (i : NasSwitchInfo) : NasSwitchInfo := { i with nextBootDeepBufferMode := i.defDeepBufferMode }

def orDefault (found : Bool) (dflt : NasSwitchInfo → NasSwitchInfo) (i : NasSwitchInfo) : NasSwitchInfo :=
  if found = false then dflt i else i

/-- The settings not found take their default. -/
def setDefaults (s : ParseSt) : NasSwitchInfo :=
  let i := orDefault s.profileFound defaultProfile s.info
  let i := orDefault s.uftFound defaultUftmode i
  let i := orDefault s.ecmpFound defaultMaxEcmpPerGrp i
  let i := orDefault s.ipv6ExtPrefixFound defaultIpv6ExtPrefixRoutes i
  let i := orDefault s.vxlanRiotConfFound defaultVxlanRiot i
  orDefault s.deepBufferModeFound defaultDeepBufferMode i

/-- On the boot the current values are the next-boot ones. -/
def setCurrent (i : NasSwitchInfo) : NasSwitchInfo :=
  { i with
    currentProfile := .copy i.nextBootProfile.name
    currentUftmode := i.nextBootUftmode
    curMaxEcmpPerGrp := i.nextBootMaxEcmpPerGrp
    curIpv6ExtPrefixRoutes := i.nextIpv6ExtPrefixRoutes
    curDeepBufferMode := i.nextBootDeepBufferMode
    curVxlanRiotEnable := i.nextBootVxlanRiotEnable
    curMaxVxlanOverlayRifs := i.nextBootMaxVxlanOverlayRifs
    curMaxVxlanOverlayNexthops := i.nextBootMaxVxlanOverlayNexthops }

def boolU32 (b : Bool) : UInt32 := if b then 1 else 0

/-- The running-config object: its key's switch id and its attributes. -/
structure SwRunning where
  swId : UInt32
  attrs : RunningObject SwAttr

def swRunningObject (swId : UInt32) (i : NasSwitchInfo) : SwRunning where
  swId := swId
  attrs :=
    (if i.nasSwProfileSupported (some i.currentProfile.name) then [(.switchProfile, .bin i.currentProfile.name)] else []) ++
    [(.uftMode, .u32 i.currentUftmode), (.maxEcmpEntryPerGroup, .u32 i.curMaxEcmpPerGrp),
     (.ipv6ExtendedPrefixRoutes, .u32 i.curIpv6ExtPrefixRoutes),
     (.vxlanRiotEnable, .u32 (boolU32 i.curVxlanRiotEnable)), (.maxVxlanOverlayRifs, .u32 i.curMaxVxlanOverlayRifs),
     (.maxVxlanOverlayNexthops, .u32 i.curMaxVxlanOverlayNexthops),
     (.deepBufferModeEnable, .u32 (boolU32 i.curDeepBufferMode))]

structure BootOut where
  rc : StdError
  /-- The running-config object, if it was committed. -/
  running : Option SwRunning
  acl : AclSt

def bootFail : StdError := .err .halcom .fail (.num 2)

def nasSwParseDbAndUpdate (swId : UInt32) (db : CpsDb) (i : NasSwitchInfo) : BootOut :=
  let i := { i with currentProfile := .copy [], nextBootProfile := .copy [] }
  let s := (db.startup.getD []).foldl (fun s obj => obj.foldl parseAttr s) ⟨i, false, false, false, false, false, false⟩
  let i := setCurrent (setDefaults s)
  if ¬ db.createOk then ⟨bootFail, none, i, [], false⟩
  else if ¬ db.commitOk then ⟨bootFail, none, i, [], false⟩
  else
    let r := nasSwAclProfileParseDbAndUpdate swId db.aclStartup db.aclCommitOk ⟨i, [], false⟩
    ⟨if r.1 ≠ .ok then bootFail else .ok, some (swRunningObject swId i), r.2⟩

/-! ## What the loop reads -/

/-- Every startup attribute, in order. -/
def CpsDb.attrs (db : CpsDb) : CpsObject SwAttr := (db.startup.getD []).flatten

/-- The stored attribute. -/
def stored (l : CpsObject SwAttr) (id : SwAttr) : Option (CpsAttr SwAttr) := Attrs.last CpsAttr.id id l

/-- A field that the loop sets from one attribute. -/
def read {α : Type} (l : CpsObject SwAttr) (id : SwAttr) (f : CpsAttr SwAttr → α) (old : α) : α :=
  ((stored l id).map f).getD old

theorem read_nil {α : Type} (id : SwAttr) (f : CpsAttr SwAttr → α) (old : α) : read [] id f old = old := rfl

theorem read_cons {α : Type} (a : CpsAttr SwAttr) (l : CpsObject SwAttr) (id : SwAttr) (f : CpsAttr SwAttr → α) (old : α) :
    read (a :: l) id f old = read l id f (if a.id = id then f a else old) := by
  unfold read stored
  by_cases h : a.id = id
  · rw [Attrs.last_cons_self h, if_pos h]
    cases Attrs.last CpsAttr.id id l <;> rfl
  · rw [Attrs.last_cons_other h, if_neg h]

theorem found_cons (a : CpsAttr SwAttr) (l : CpsObject SwAttr) (id : SwAttr) :
    (stored (a :: l) id).isSome = (decide (a.id = id) || (stored l id).isSome) := by
  unfold stored
  by_cases h : a.id = id
  · rw [Attrs.last_cons_self h]
    cases Attrs.last CpsAttr.id id l <;> simp [h]
  · rw [Attrs.last_cons_other h]; simp [h]

/-- The loop: each field from its attribute's last occurrence, each flag from whether
    there is one. -/
theorem parse_spec (l : CpsObject SwAttr) : ∀ s : ParseSt, l.foldl parseAttr s =
    { info := { s.info with
        nextBootProfile := read l .switchProfile (fun a => .copy a.dataBin) s.info.nextBootProfile
        nextBootUftmode := read l .uftMode CpsAttr.dataU32 s.info.nextBootUftmode
        nextBootMaxEcmpPerGrp := read l .maxEcmpEntryPerGroup CpsAttr.dataU32 s.info.nextBootMaxEcmpPerGrp
        nextIpv6ExtPrefixRoutes := read l .ipv6ExtendedPrefixRoutes CpsAttr.dataU32 s.info.nextIpv6ExtPrefixRoutes
        nextBootVxlanRiotEnable := read l .vxlanRiotEnable (fun a => a.dataU32 != 0) s.info.nextBootVxlanRiotEnable
        nextBootMaxVxlanOverlayRifs := read l .maxVxlanOverlayRifs CpsAttr.dataU32 s.info.nextBootMaxVxlanOverlayRifs
        nextBootMaxVxlanOverlayNexthops :=
          read l .maxVxlanOverlayNexthops CpsAttr.dataU32 s.info.nextBootMaxVxlanOverlayNexthops
        nextBootDeepBufferMode := read l .deepBufferModeEnable (fun a => a.dataU32 != 0) s.info.nextBootDeepBufferMode }
      profileFound := s.profileFound || (stored l .switchProfile).isSome
      uftFound := s.uftFound || (stored l .uftMode).isSome
      ecmpFound := s.ecmpFound || (stored l .maxEcmpEntryPerGroup).isSome
      ipv6ExtPrefixFound := s.ipv6ExtPrefixFound || (stored l .ipv6ExtendedPrefixRoutes).isSome
      vxlanRiotConfFound := s.vxlanRiotConfFound || (stored l .vxlanRiotEnable).isSome
      deepBufferModeFound := s.deepBufferModeFound || (stored l .deepBufferModeEnable).isSome } := by
  induction l with
  | nil => intro s; simp [read_nil, stored]
  | cons a l ih =>
    intro s
    rw [List.foldl_cons, ih]
    simp only [read_cons, found_cons]
    cases h : a.id <;> simp [parseAttr, h]

/-! ## What the boot adopts -/

/-- The stored values over the defaults. -/
def resolve (d : Settings) (l : CpsObject SwAttr) : Settings where
  profile := read l .switchProfile CpsAttr.dataBin d.profile
  uftmode := read l .uftMode CpsAttr.dataU32 d.uftmode
  maxEcmpPerGrp := read l .maxEcmpEntryPerGroup CpsAttr.dataU32 d.maxEcmpPerGrp
  ipv6ExtPrefixRoutes := read l .ipv6ExtendedPrefixRoutes CpsAttr.dataU32 d.ipv6ExtPrefixRoutes
  vxlanRiotEnable := read l .vxlanRiotEnable (fun a => a.dataU32 != 0) d.vxlanRiotEnable
  maxVxlanOverlayRifs := read l .maxVxlanOverlayRifs CpsAttr.dataU32 d.maxVxlanOverlayRifs
  maxVxlanOverlayNexthops := read l .maxVxlanOverlayNexthops CpsAttr.dataU32 d.maxVxlanOverlayNexthops
  deepBufferMode := read l .deepBufferModeEnable (fun a => a.dataU32 != 0) d.deepBufferMode

/-- A count whose found flag is VXLAN_RIOT_ENABLE's: `old` is the field before the boot. -/
def sharedFlag (l : CpsObject SwAttr) (id : SwAttr) (old dflt : UInt32) : UInt32 :=
  if (stored l .vxlanRiotEnable).isSome then read l id CpsAttr.dataU32 old else dflt

/-- What the boot adopts. -/
def adopted (i : NasSwitchInfo) (l : CpsObject SwAttr) : Settings :=
  { resolve i.defaults l with
    profile := read l .switchProfile (fun a => (ProfileName.copy a.dataBin).name) i.defProfile.name
    maxVxlanOverlayRifs := sharedFlag l .maxVxlanOverlayRifs i.nextBootMaxVxlanOverlayRifs i.defMaxVxlanOverlayRifs
    maxVxlanOverlayNexthops :=
      sharedFlag l .maxVxlanOverlayNexthops i.nextBootMaxVxlanOverlayNexthops i.defMaxVxlanOverlayNexthops }

theorem setCurrent_current (i : NasSwitchInfo) : (setCurrent i).current = i.nextBoot ∧ (setCurrent i).nextBoot = i.nextBoot := by
  simp [setCurrent, NasSwitchInfo.current, NasSwitchInfo.nextBoot, ProfileName.copy_name]

/-- `dflt` does `g` to the next-boot settings, from the defaults, which it leaves. -/
structure Defaulting (dflt : NasSwitchInfo → NasSwitchInfo) (g : Settings → Settings → Settings) : Prop where
  nextBoot : ∀ i, (dflt i).nextBoot = g i.defaults i.nextBoot
  defaults : ∀ i, (dflt i).defaults = i.defaults

theorem Defaulting.orDefault_nextBoot {dflt : NasSwitchInfo → NasSwitchInfo} {g : Settings → Settings → Settings}
    (h : Defaulting dflt g) (found : Bool) (i : NasSwitchInfo) :
    (orDefault found dflt i).nextBoot = if found = false then g i.defaults i.nextBoot else i.nextBoot := by
  unfold orDefault
  cases found with
  | false => exact h.nextBoot i
  | true => rfl

theorem Defaulting.orDefault_defaults {dflt : NasSwitchInfo → NasSwitchInfo} {g : Settings → Settings → Settings}
    (h : Defaulting dflt g) (found : Bool) (i : NasSwitchInfo) : (orDefault found dflt i).defaults = i.defaults := by
  unfold orDefault
  cases found with
  | false => exact h.defaults i
  | true => rfl

theorem defaultProfile_spec : Defaulting defaultProfile fun d n => { n with profile := d.profile } :=
  ⟨fun i => by simp only [NasSwitchInfo.nextBoot, defaultProfile, ProfileName.copy_name]; rfl, fun _ => rfl⟩

theorem defaultUftmode_spec : Defaulting defaultUftmode fun d n => { n with uftmode := d.uftmode } :=
  ⟨fun _ => rfl, fun _ => rfl⟩

theorem defaultMaxEcmpPerGrp_spec :
    Defaulting defaultMaxEcmpPerGrp fun d n => { n with maxEcmpPerGrp := d.maxEcmpPerGrp } := ⟨fun _ => rfl, fun _ => rfl⟩

theorem defaultIpv6ExtPrefixRoutes_spec :
    Defaulting defaultIpv6ExtPrefixRoutes fun d n => { n with ipv6ExtPrefixRoutes := d.ipv6ExtPrefixRoutes } :=
  ⟨fun _ => rfl, fun _ => rfl⟩

theorem defaultVxlanRiot_spec : Defaulting defaultVxlanRiot fun d n =>
    { n with
      vxlanRiotEnable := d.vxlanRiotEnable
      maxVxlanOverlayRifs := d.maxVxlanOverlayRifs
      maxVxlanOverlayNexthops := d.maxVxlanOverlayNexthops } := ⟨fun _ => rfl, fun _ => rfl⟩

theorem defaultDeepBufferMode_spec :
    Defaulting defaultDeepBufferMode fun d n => { n with deepBufferMode := d.deepBufferMode } :=
  ⟨fun _ => rfl, fun _ => rfl⟩

/-- The defaults, setting by setting. -/
theorem setDefaults_spec (s : ParseSt) :
    let d := s.info.defaults
    let n := s.info.nextBoot
    (setDefaults s).nextBoot =
      { profile := if s.profileFound = false then d.profile else n.profile
        uftmode := if s.uftFound = false then d.uftmode else n.uftmode
        maxEcmpPerGrp := if s.ecmpFound = false then d.maxEcmpPerGrp else n.maxEcmpPerGrp
        ipv6ExtPrefixRoutes := if s.ipv6ExtPrefixFound = false then d.ipv6ExtPrefixRoutes else n.ipv6ExtPrefixRoutes
        vxlanRiotEnable := if s.vxlanRiotConfFound = false then d.vxlanRiotEnable else n.vxlanRiotEnable
        maxVxlanOverlayRifs := if s.vxlanRiotConfFound = false then d.maxVxlanOverlayRifs else n.maxVxlanOverlayRifs
        maxVxlanOverlayNexthops :=
          if s.vxlanRiotConfFound = false then d.maxVxlanOverlayNexthops else n.maxVxlanOverlayNexthops
        deepBufferMode := if s.deepBufferModeFound = false then d.deepBufferMode else n.deepBufferMode } := by
  obtain ⟨i, b1, b2, b3, b4, b5, b6⟩ := s
  simp only [setDefaults, defaultDeepBufferMode_spec.orDefault_nextBoot, defaultVxlanRiot_spec.orDefault_nextBoot,
    defaultVxlanRiot_spec.orDefault_defaults, defaultIpv6ExtPrefixRoutes_spec.orDefault_nextBoot,
    defaultIpv6ExtPrefixRoutes_spec.orDefault_defaults, defaultMaxEcmpPerGrp_spec.orDefault_nextBoot,
    defaultMaxEcmpPerGrp_spec.orDefault_defaults, defaultUftmode_spec.orDefault_nextBoot,
    defaultUftmode_spec.orDefault_defaults, defaultProfile_spec.orDefault_nextBoot,
    defaultProfile_spec.orDefault_defaults]
  cases b1 <;> cases b2 <;> cases b3 <;> cases b4 <;> cases b5 <;> cases b6 <;> rfl

/-- A setting with its own found flag: the stored value, or its default. -/
theorem read_default {α β : Type} (l : CpsObject SwAttr) (id : SwAttr) (f : CpsAttr SwAttr → α) (g : α → β) (old : α)
    (dflt : β) :
    (if (stored l id).isSome = false then dflt else g (read l id f old)) = read l id (fun a => g (f a)) dflt := by
  unfold read
  cases stored l id <;> rfl

theorem sharedFlag_eq (l : CpsObject SwAttr) (id : SwAttr) (old dflt : UInt32) :
    (if (stored l .vxlanRiotEnable).isSome = false then dflt else read l id CpsAttr.dataU32 old) =
      sharedFlag l id old dflt := by
  unfold sharedFlag
  cases stored l .vxlanRiotEnable <;> rfl

/-- What is adopted at boot, whatever the database answers to the commits. -/
theorem boot_settings (swId : UInt32) (db : CpsDb) (i : NasSwitchInfo) :
    let i' := (nasSwParseDbAndUpdate swId db i).acl.info
    i'.current = adopted i db.attrs ∧ i'.nextBoot = adopted i db.attrs := by
  have hflat : ∀ s, (db.startup.getD []).foldl (fun s obj => obj.foldl parseAttr s) s = db.attrs.foldl parseAttr s :=
    fun s => List.foldl_flatten.symm
  have hnext : ∀ s, s = db.attrs.foldl parseAttr
      ⟨{ i with currentProfile := .copy [], nextBootProfile := .copy [] }, false, false, false, false, false, false⟩ →
      (setDefaults s).nextBoot = adopted i db.attrs := by
    intro s hs
    rw [setDefaults_spec, hs, parse_spec]
    simp only [Bool.false_or, NasSwitchInfo.nextBoot, NasSwitchInfo.defaults, sharedFlag_eq, adopted, resolve]
    congr 1
    · exact read_default _ _ _ ProfileName.name _ _
    · exact read_default _ _ _ id _ _
    · exact read_default _ _ _ id _ _
    · exact read_default _ _ _ id _ _
    · exact read_default _ _ _ id _ _
    · exact read_default _ _ _ id _ _
  simp only [nasSwParseDbAndUpdate, hflat]
  generalize hs : db.attrs.foldl parseAttr _ = s
  have hn := hnext s hs.symm
  have hc := setCurrent_current (setDefaults s)
  rw [hn] at hc
  split
  · exact hc
  split
  · exact hc
  · obtain ⟨h1, h2, -⟩ := parseAclDb_keeps swId db.aclStartup db.aclCommitOk ⟨setCurrent (setDefaults s), [], false⟩
    exact ⟨h1.trans hc.1, h2.trans hc.2⟩

/-! ## When it is the stored value or the default -/

/-- The flag shared by the three VXLAN settings does no harm, and no stored name is cut. -/
structure SharedFlagFits (d : Settings) (l : CpsObject SwAttr) : Prop where
  /-- RIOT_ENABLE stored: a count that is not has default 0. -/
  absent : (stored l .vxlanRiotEnable).isSome = true →
    (stored l .maxVxlanOverlayRifs = none → d.maxVxlanOverlayRifs = 0) ∧
      (stored l .maxVxlanOverlayNexthops = none → d.maxVxlanOverlayNexthops = 0)
  /-- RIOT_ENABLE not stored: a count that is is its default. -/
  present : stored l .vxlanRiotEnable = none →
    (∀ a, stored l .maxVxlanOverlayRifs = some a → a.dataU32 = d.maxVxlanOverlayRifs) ∧
      (∀ a, stored l .maxVxlanOverlayNexthops = some a → a.dataU32 = d.maxVxlanOverlayNexthops)
  name : ∀ a, stored l .switchProfile = some a → a.dataBin.length ≤ nasCmnProfileNameSize

theorem sharedFlag_iff (l : CpsObject SwAttr) (id : SwAttr) (dflt : UInt32) :
    sharedFlag l id 0 dflt = read l id CpsAttr.dataU32 dflt ↔
      ((stored l .vxlanRiotEnable).isSome = true → stored l id = none → dflt = 0) ∧
        (stored l .vxlanRiotEnable = none → ∀ a, stored l id = some a → a.dataU32 = dflt) := by
  unfold sharedFlag read
  cases hr : stored l .vxlanRiotEnable with
  | some r =>
    cases h : stored l id with
    | none => simp [eq_comm]
    | some a => simp
  | none =>
    cases h : stored l id with
    | none => simp
    | some a => simp [eq_comm]

theorem copy_eq_iff (s : CString) : (ProfileName.copy s).name = s ↔ s.length ≤ nasCmnProfileNameSize := by
  refine ⟨fun h => ?_, fun h => safestrncpy_fits (d := []) (Nat.lt_succ_of_le h)⟩
  rw [← h]
  exact (ProfileName.copy s).fits

theorem name_iff (l : CpsObject SwAttr) (dflt : CString) :
    read l .switchProfile (fun a => (ProfileName.copy a.dataBin).name) dflt = read l .switchProfile CpsAttr.dataBin dflt ↔
      ∀ a, stored l .switchProfile = some a → a.dataBin.length ≤ nasCmnProfileNameSize := by
  unfold read
  cases stored l .switchProfile with
  | none => simp
  | some a => simp [copy_eq_iff]

theorem adopted_eq_iff (i : NasSwitchInfo) (l : CpsObject SwAttr) (hr : i.nextBootMaxVxlanOverlayRifs = 0)
    (hn : i.nextBootMaxVxlanOverlayNexthops = 0) :
    adopted i l = resolve i.defaults l ↔ SharedFlagFits i.defaults l := by
  have hfields := and_congr (name_iff l i.defaults.profile)
    (and_congr (sharedFlag_iff l .maxVxlanOverlayRifs i.defaults.maxVxlanOverlayRifs)
      (sharedFlag_iff l .maxVxlanOverlayNexthops i.defaults.maxVxlanOverlayNexthops))
  simp only [adopted, resolve, Settings.mk.injEq, true_and, and_true, hr, hn]
  refine hfields.trans ⟨fun ⟨h1, h2, h3⟩ => ⟨fun h => ⟨h2.1 h, h3.1 h⟩, fun h => ⟨h2.2 h, h3.2 h⟩, h1⟩,
    fun hf => ⟨hf.name, ⟨fun h => (hf.absent h).1, fun h => (hf.present h).1⟩,
      ⟨fun h => (hf.absent h).2, fun h => (hf.present h).2⟩⟩⟩

/-- From next-boot VXLAN counts of zero, the boot makes each setting's next-boot and
    current value the stored one, or the default where none is, exactly when the shared
    flag fits. -/
theorem boot_resolves_iff (swId : UInt32) (db : CpsDb) (i : NasSwitchInfo) (hr : i.nextBootMaxVxlanOverlayRifs = 0)
    (hn : i.nextBootMaxVxlanOverlayNexthops = 0) :
    ((nasSwParseDbAndUpdate swId db i).acl.info.nextBoot = resolve i.defaults db.attrs ∧
      (nasSwParseDbAndUpdate swId db i).acl.info.current = resolve i.defaults db.attrs) ↔
    SharedFlagFits i.defaults db.attrs := by
  obtain ⟨h1, h2⟩ := boot_settings swId db i
  rw [h1, h2, and_self]
  exact adopted_eq_iff i db.attrs hr hn

/-- switch.xml with VXLAN RIOT on, 16 RIFs and 8 next hops. -/
def riotInfo : NasSwitchInfo :=
  nasSwitchUpdateVxlanRiotInfo
    (fun attr => if attr = "enable" then some 1 else if attr = "max_overlay_rifs" then some 16 else some 8) .zero

def storedDb (l : CpsObject SwAttr) : CpsDb := ⟨some [l], none, true, true, fun _ => true⟩

theorem boot_resolves_iff_all :
    (nasSwParseDbAndUpdate 0 (storedDb [⟨.maxVxlanOverlayRifs, 32, []⟩, ⟨.vxlanRiotEnable, 1, []⟩,
      ⟨.maxVxlanOverlayNexthops, 4, []⟩]) riotInfo).acl.info.current =
      resolve riotInfo.defaults [⟨.maxVxlanOverlayRifs, 32, []⟩, ⟨.vxlanRiotEnable, 1, []⟩,
        ⟨.maxVxlanOverlayNexthops, 4, []⟩] := by
  refine ((boot_resolves_iff 0 (storedDb [⟨.maxVxlanOverlayRifs, 32, []⟩, ⟨.vxlanRiotEnable, 1, []⟩,
    ⟨.maxVxlanOverlayNexthops, 4, []⟩]) riotInfo rfl rfl).mpr ⟨fun _ => ⟨fun h => ?_, fun h => ?_⟩, fun h => ?_, fun a h => ?_⟩).2
  · cases h
  · cases h
  · cases h
  · cases h

/-- VXLAN_RIOT_ENABLE stored alone: the two counts are 0, not their defaults 16 and 8. -/
theorem riot_enable_alone :
    let i := (nasSwParseDbAndUpdate 0 (storedDb [⟨.vxlanRiotEnable, 1, []⟩]) riotInfo).acl.info
    ¬ (i.nextBoot = resolve riotInfo.defaults (storedDb [⟨.vxlanRiotEnable, 1, []⟩]).attrs ∧
      i.current = resolve riotInfo.defaults (storedDb [⟨.vxlanRiotEnable, 1, []⟩]).attrs) ∧
    riotInfo.defMaxVxlanOverlayRifs = 16 ∧ i.curMaxVxlanOverlayRifs = 0 ∧
    riotInfo.defMaxVxlanOverlayNexthops = 8 ∧ i.curMaxVxlanOverlayNexthops = 0 := by
  refine ⟨fun h => ?_, rfl, rfl, rfl, rfl⟩
  exact absurd (congrArg Settings.maxVxlanOverlayRifs h.2) (by decide)

end NasCommon.SwProfile
