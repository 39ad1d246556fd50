/-
  NasCommon.Switch.Adopted — the settings adopted at boot, against the values their
  setters accept.

  The boot takes what the startup database stores as it is: no value is checked.
  - `boot_valid_iff`: the adopted settings are all valid or default exactly when the
    stored values are.
  - `stored_ecmp_adopted`: a stored ECMP limit of 1 becomes the current one.
-/

import NasCommon.Switch.Walk
import NasCommon.SwProfile.Setters

namespace NasCommon.Switch

open SwProfile

/-- A setting with a found flag of its own, as it is stored. -/
def StoredOk {α : Type} (l : CpsObject SwAttr) (id : SwAttr) (f : SwProfile.CpsAttr SwAttr → α) (P : α → Prop) : Prop :=
  ∀ a, stored l id = some a → P (f a)

/-- Each stored value is its default or valid. The overlay counts are only looked at
    when VXLAN_RIOT_ENABLE is stored. -/
structure StoredValid (c : SwConsts) (i : NasSwitchInfo) (l : CpsObject SwAttr) : Prop where
  profile : StoredOk l .switchProfile (fun a => (ProfileName.copy a.dataBin).name) fun s =>
    s = i.defProfile.name ∨ i.nasSwProfileSupported (some s) = true
  uftmode : StoredOk l .uftMode CpsAttr.dataU32 fun v => v = i.defUftmode ∨ nasSwUftModeSupported c i v = true
  maxEcmpPerGrp : StoredOk l .maxEcmpEntryPerGroup CpsAttr.dataU32 fun v =>
    v = i.defMaxEcmpPerGrp ∨ (2 ≤ v ∧ v ≤ 1024)
  ipv6ExtPrefixRoutes : StoredOk l .ipv6ExtendedPrefixRoutes CpsAttr.dataU32 fun v =>
    v = i.defIpv6ExtPrefixRoutes ∨ (v ≤ i.maxIpv6ExtPrefixRoutes ∧ Multiple i.ipv6ExtPrefixRouteBlkSize v)
  maxVxlanOverlayRifs : (stored l .vxlanRiotEnable).isSome = true → StoredOk l .maxVxlanOverlayRifs CpsAttr.dataU32 fun v =>
    v = i.defMaxVxlanOverlayRifs ∨ Multiple i.rifBlockSize v
  maxVxlanOverlayNexthops : (stored l .vxlanRiotEnable).isSome = true →
    StoredOk l .maxVxlanOverlayNexthops CpsAttr.dataU32 fun v =>
      v = i.defMaxVxlanOverlayNexthops ∨ Multiple i.l3NexthopBlockSize v

/-! ## What is adopted -/

/-- A setting that is its default when it is not stored. -/
theorem read_ok_iff {α : Type} {l : CpsObject SwAttr} {id : SwAttr} {f : CpsAttr SwAttr → α} {P : α → Prop} (dflt : α)
    (hdflt : P dflt) : P (SwProfile.read l id f dflt) ↔ StoredOk l id f P := by
  unfold SwProfile.read StoredOk
  cases stored l id with
  | none => simp [hdflt]
  | some a => simp

/-- An overlay count, which is 0 when RIOT_ENABLE is stored and it is not. -/
theorem sharedFlag_ok_iff {l : CpsObject SwAttr} {id : SwAttr} {P : UInt32 → Prop} (dflt : UInt32) (hzero : P 0)
    (hdflt : P dflt) :
    P (sharedFlag l id 0 dflt) ↔ ((stored l .vxlanRiotEnable).isSome = true → StoredOk l id CpsAttr.dataU32 P) := by
  unfold sharedFlag
  cases hr : (stored l .vxlanRiotEnable).isSome with
  | false => simp [hdflt]
  | true =>
    rw [if_pos rfl, read_ok_iff 0 hzero]
    simp

theorem multiple_zero (blockSize : UInt32) : Multiple blockSize 0 := Nat.dvd_zero _

theorem adopted_valid_iff (c : SwConsts) {i : NasSwitchInfo} (l : CpsObject SwAttr)
    (hr : i.nextBootMaxVxlanOverlayRifs = 0) (hn : i.nextBootMaxVxlanOverlayNexthops = 0) :
    ValidOrDefault c i (adopted i l) ↔ StoredValid c i l := by
  have hrifs : (adopted i l).maxVxlanOverlayRifs = sharedFlag l .maxVxlanOverlayRifs 0 i.defMaxVxlanOverlayRifs := by
    rw [← hr]; rfl
  have hnhs : (adopted i l).maxVxlanOverlayNexthops =
      sharedFlag l .maxVxlanOverlayNexthops 0 i.defMaxVxlanOverlayNexthops := by
    rw [← hn]; rfl
  constructor
  · intro h
    have h5 := h.maxVxlanOverlayRifs
    have h6 := h.maxVxlanOverlayNexthops
    rw [hrifs] at h5
    rw [hnhs] at h6
    exact ⟨(read_ok_iff i.defProfile.name (Or.inl rfl)).mp h.profile, (read_ok_iff i.defUftmode (Or.inl rfl)).mp h.uftmode,
      (read_ok_iff i.defMaxEcmpPerGrp (Or.inl rfl)).mp h.maxEcmpPerGrp,
      (read_ok_iff i.defIpv6ExtPrefixRoutes (Or.inl rfl)).mp h.ipv6ExtPrefixRoutes,
      (sharedFlag_ok_iff i.defMaxVxlanOverlayRifs (Or.inr (multiple_zero _)) (Or.inl rfl)).mp h5,
      (sharedFlag_ok_iff i.defMaxVxlanOverlayNexthops (Or.inr (multiple_zero _)) (Or.inl rfl)).mp h6⟩
  · intro h
    refine ⟨(read_ok_iff i.defProfile.name (Or.inl rfl)).mpr h.profile, (read_ok_iff i.defUftmode (Or.inl rfl)).mpr h.uftmode,
      (read_ok_iff i.defMaxEcmpPerGrp (Or.inl rfl)).mpr h.maxEcmpPerGrp,
      (read_ok_iff i.defIpv6ExtPrefixRoutes (Or.inl rfl)).mpr h.ipv6ExtPrefixRoutes, ?_, ?_⟩
    · rw [hrifs]
      exact (sharedFlag_ok_iff i.defMaxVxlanOverlayRifs (Or.inr (multiple_zero _)) (Or.inl rfl)).mpr h.maxVxlanOverlayRifs
    · rw [hnhs]
      exact (sharedFlag_ok_iff i.defMaxVxlanOverlayNexthops (Or.inr (multiple_zero _)) (Or.inl rfl)).mpr
        h.maxVxlanOverlayNexthops

/-! ## The rest of the settings at boot -/

theorem parseAttr_frame (s : ParseSt) (a : SwProfile.CpsAttr SwAttr) : (parseAttr s a).info.frame = s.info.frame := by
  unfold parseAttr
  cases a.id <;> rfl

theorem parse_frame (l : CpsObject SwAttr) : ∀ s : ParseSt, (l.foldl parseAttr s).info.frame = s.info.frame := by
  induction l with
  | nil => intro s; rfl
  | cons a l ih => intro s; exact (ih _).trans (parseAttr_frame s a)

theorem orDefault_frame {dflt : NasSwitchInfo → NasSwitchInfo} (h : ∀ i, (dflt i).frame = i.frame) (found : Bool)
    (i : NasSwitchInfo) : (orDefault found dflt i).frame = i.frame := by
  unfold orDefault
  split
  · exact h i
  · rfl

/-- The defaults are of the next boot's settings. -/
theorem setDefaults_frame (s : ParseSt) : (setDefaults s).frame = s.info.frame := by
  simp only [setDefaults]
  have h1 : ∀ i, (defaultProfile i).frame = i.frame := fun _ => rfl
  have h2 : ∀ i, (defaultUftmode i).frame = i.frame := fun _ => rfl
  have h3 : ∀ i, (defaultMaxEcmpPerGrp i).frame = i.frame := fun _ => rfl
  have h4 : ∀ i, (defaultIpv6ExtPrefixRoutes i).frame = i.frame := fun _ => rfl
  have h5 : ∀ i, (defaultVxlanRiot i).frame = i.frame := fun _ => rfl
  have h6 : ∀ i, (defaultDeepBufferMode i).frame = i.frame := fun _ => rfl
  rw [orDefault_frame h6, orDefault_frame h5, orDefault_frame h4, orDefault_frame h3, orDefault_frame h2,
    orDefault_frame h1]

/-- The boot sets the current and next-boot settings and the app groups alone. -/
theorem boot_fixed (swId : UInt32) (db : CpsDb) (i : NasSwitchInfo) :
    (nasSwParseDbAndUpdate swId db i).acl.info.fixed = i.fixed := by
  have hflat : ∀ s, (db.startup.getD []).foldl (fun s obj => obj.foldl parseAttr s) s = db.attrs.foldl parseAttr s :=
    fun s => List.foldl_flatten.symm
  simp only [nasSwParseDbAndUpdate, hflat]
  generalize hs : db.attrs.foldl parseAttr _ = s
  have hset : (setCurrent (setDefaults s)).fixed = i.fixed := by
    show (setDefaults s).fixed = i.fixed
    rw [fixed_of_frame (setDefaults_frame s), ← hs, fixed_of_frame (parse_frame db.attrs _)]
    rfl
  split
  · exact hset
  split
  · exact hset
  · obtain ⟨groups, hg⟩ := parseAclDb_onlyAcl swId db.aclStartup db.aclCommitOk ⟨setCurrent (setDefaults s), [], false⟩
    rw [hg]
    exact hset

/-! ## From switch.xml and the database -/

/-- Every current and next-boot setting is its switch.xml default or valid exactly when
    what the database stores is. -/
theorem boot_valid_iff (env : ParserEnv) (visits : List Visit) (swId : UInt32) (db : CpsDb) :
    let i := (walk env .init visits).info
    let o := (nasSwParseDbAndUpdate swId db i).acl.info
    (ValidOrDefault env.consts o o.current ∧ ValidOrDefault env.consts o o.nextBoot) ↔
      StoredValid env.consts i db.attrs := by
  intro i o
  obtain ⟨hrifs, hnhs⟩ := walk_sameOverlay env visits .init
  obtain ⟨hcur, hnext⟩ := boot_settings swId db i
  have hfixed : o.fixed = i.fixed := boot_fixed swId db i
  rw [validOrDefault_fixed hfixed, validOrDefault_fixed hfixed]
  show ValidOrDefault env.consts i o.current ∧ ValidOrDefault env.consts i o.nextBoot ↔ _
  rw [show o.current = adopted i db.attrs from hcur, show o.nextBoot = adopted i db.attrs from hnext, and_self]
  exact adopted_valid_iff env.consts db.attrs hrifs hnhs

/-- switch.xml's ECMP section: a default of 64. -/
def ecmpVisit : Visit where
  node := .mk "switch_ecmp".toList [("default_max_ecmp_per_grp", "64".toList)] []
  alloc _ := true
  locals := ⟨0, 0⟩

/-- A limit of 1 in the database: adopted, neither the default nor in range. -/
theorem stored_ecmp_adopted :
    let env : ParserEnv := ⟨⟨1, 4, 1, 2⟩, fun s => some [s]⟩
    let o := (nasSwParseDbAndUpdate 0 (storedDb [⟨.maxEcmpEntryPerGroup, 1, []⟩]) (walk env .init [ecmpVisit]).info).acl.info
    o.curMaxEcmpPerGrp = 1 ∧ o.defMaxEcmpPerGrp = 64 ∧
      ¬ (ValidOrDefault env.consts o o.current ∧ ValidOrDefault env.consts o o.nextBoot) := by
  refine ⟨by decide, by decide, fun h => ?_⟩
  exact absurd h.1.maxEcmpPerGrp (by decide)

end NasCommon.Switch
