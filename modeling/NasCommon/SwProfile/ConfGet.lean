/-
  NasCommon.SwProfile.ConfGet — the configured values reported from the startup
  database against the ones the next boot adopts from it.

  Each `nas_sw_profile_conf_*_get` fills in the default and then, from the first
  startup object, the stored value over it. `nas_sw_profile_conf_profile_get` copies
  the stored name into the room the default name took.
  - `conf_gets_eq_boot_iff`: with at most one startup object and each attribute in it
    at most once, the five reported values are the ones the boot makes current exactly
    when the stored profile name is no longer than the default's.
  - `longer_name_cut`: default "a", stored "ab", reported "a".
-/

import Mathlib.Data.List.TakeDrop
import NasCommon.SwProfile.Boot

namespace NasCommon.SwProfile

/-! ## The getters -/

/-- A startup attribute as the getters look it up: in the first object. -/
def confAttr (startup : Option (List (CpsObject SwAttr))) (id : SwAttr) : Option (CpsAttr SwAttr) :=
  match startup with
  | none => none
  | some list =>
    match list.head? with
    | none => none
    | some obj => CpsObject.getData obj id

/-- The default, and the stored value over it. -/
def confValue {α : Type} (startup : Option (List (CpsObject SwAttr))) (id : SwAttr) (value : CpsAttr SwAttr → α)
    (dflt : α) : α :=
  match confAttr startup id with
  | none => dflt
  | some a => value a

def confParam (priv : ErrPriv) : StdError := .err .halcom .param priv

/-- A getter of a number: `out` is its output argument, `none` when it is NULL, and
    `refused` the error of its other check. -/
def confGet {α : Type} (nullErr : StdError) (refused : Option StdError) (value : α) (out : Option α) :
    StdError × Option α :=
  match out with
  | none => (nullErr, none)
  | some old =>
    match refused with
    | some e => (e, some old)
    | none => (.ok, some value)

def nasSwProfileConfUftGet (i : NasSwitchInfo) (startup : Option (List (CpsObject SwAttr))) (confUft : Option UInt32) :
    StdError × Option UInt32 :=
  confGet (confParam (.num 2)) (if i.numUftModes = 0 then some (confParam (.num 2)) else none)
    (confValue startup .uftMode CpsAttr.dataU32 i.defUftmode) confUft

def nasSwProfileConfMaxEcmpPerGrpGet (i : NasSwitchInfo) (startup : Option (List (CpsObject SwAttr)))
    (confMaxEcmpPerGrp : Option UInt32) : StdError × Option UInt32 :=
  confGet (confParam (.num 2)) none (confValue startup .maxEcmpEntryPerGroup CpsAttr.dataU32 i.defMaxEcmpPerGrp)
    confMaxEcmpPerGrp

def nasSwProfileIsIpv6ExtPrefixConfigRequired (i : NasSwitchInfo) : Bool := i.isIpv6ExtPrefixCfgReq != 0

def nasSwProfileConfIpv6ExtPrefixRoutesGet (i : NasSwitchInfo) (startup : Option (List (CpsObject SwAttr)))
    (confIpv6ExtPrefixRoutes : Option UInt32) : StdError × Option UInt32 :=
  confGet (confParam .eParam)
    (if nasSwProfileIsIpv6ExtPrefixConfigRequired i = false then some (confParam .eNotSupported) else none)
    (confValue startup .ipv6ExtendedPrefixRoutes CpsAttr.dataU32 i.defIpv6ExtPrefixRoutes) confIpv6ExtPrefixRoutes

def nasSwProfileIsDeepBufferModeConfigRequired (i : NasSwitchInfo) : Bool := i.isDeepBufferModeCfgReq

def nasSwProfileConfDeepBufferModeGet (i : NasSwitchInfo) (startup : Option (List (CpsObject SwAttr)))
    (confDeepBufferMode : Option Bool) : StdError × Option Bool :=
  confGet (confParam .eParam)
    (if nasSwProfileIsDeepBufferModeConfigRequired i = false then some (confParam .eNotSupported) else none)
    (confValue startup .deepBufferModeEnable (fun a => a.dataU32 != 0) i.defDeepBufferMode) confDeepBufferMode

/-- The stored name is copied into `strlen (conf_profile) + 1` characters, the default
    name being there. -/
def nasSwProfileConfProfileGet (i : NasSwitchInfo) (startup : Option (List (CpsObject SwAttr)))
    (confProfile : Option CString) (len : Nat) : StdError × Option CString :=
  match confProfile with
  | none => (confParam (.num 2), none)
  | some buf =>
    if i.numProfiles = 0 then (confParam (.num 2), some buf)
    else
      let buf := safestrncpy buf i.defProfile.name len
      match confAttr startup .switchProfile with
      | none => (.ok, some buf)
      | some a => (.ok, some (safestrncpy buf a.dataBin (buf.length + 1)))

/-! ## Against the boot -/

/-- With at most one object and each attribute at most once, the getters look up what
    the boot reads. -/
theorem confAttr_eq_stored {db : CpsDb} (hone : (db.startup.getD []).length ≤ 1)
    (honce : ∀ id, Attrs.AtMostOnce CpsAttr.id id db.attrs) (id : SwAttr) : confAttr db.startup id = stored db.attrs id := by
  have h := honce id
  unfold CpsDb.attrs at h ⊢
  cases hs : db.startup with
  | none => rfl
  | some list =>
    rw [hs] at hone h
    cases list with
    | nil => rfl
    | cons o rest =>
      have hrest : rest = [] := by simpa using hone
      subst hrest
      simp only [Option.getD_some, List.flatten_cons, List.flatten_nil, List.append_nil] at h ⊢
      exact Attrs.first_eq_last h

theorem confValue_eq_read {α : Type} {db : CpsDb} (hone : (db.startup.getD []).length ≤ 1)
    (honce : ∀ id, Attrs.AtMostOnce CpsAttr.id id db.attrs) (id : SwAttr) (value : CpsAttr SwAttr → α) (dflt : α) :
    confValue db.startup id value dflt = read db.attrs id value dflt := by
  unfold confValue read
  rw [confAttr_eq_stored hone honce]
  cases stored db.attrs id <;> rfl

/-- The profile reported: the stored name, cut to the default name's length. -/
theorem confProfileGet_spec {db : CpsDb} {i : NasSwitchInfo} (hone : (db.startup.getD []).length ≤ 1)
    (honce : ∀ id, Attrs.AtMostOnce CpsAttr.id id db.attrs) (hprof : i.numProfiles ≠ 0) (buf : CString) {len : Nat}
    (hlen : nasCmnProfileNameSize + 1 ≤ len) :
    nasSwProfileConfProfileGet i db.startup (some buf) len =
      (.ok, some (read db.attrs .switchProfile (fun a => a.dataBin.take i.defProfile.name.length) i.defProfile.name)) := by
  have hdef : safestrncpy buf i.defProfile.name len = i.defProfile.name :=
    safestrncpy_fits (Nat.lt_of_le_of_lt i.defProfile.fits hlen)
  unfold nasSwProfileConfProfileGet read
  simp only [hprof, if_false, confAttr_eq_stored hone honce, hdef]
  cases stored db.attrs .switchProfile with
  | none => rfl
  | some a => simp [safestrncpy]

/-- Profiles and UFT modes present, IPv6 and deep-buffer configuration required, a
    buffer for the longest name; at most one startup object, each attribute in it at
    most once, its name not over 64 characters. The five getters return the values that
    the boot makes current exactly when the stored profile name, if there is one, is no
    longer than the default name. -/
theorem conf_gets_eq_boot_iff (swId : UInt32) (db : CpsDb) (i : NasSwitchInfo) (buf : CString) (len : Nat)
    (uft ecmp ipv6 : UInt32) (dbm : Bool) (hlen : nasCmnProfileNameSize + 1 ≤ len) (hprof : i.numProfiles ≠ 0)
    (huft : i.numUftModes ≠ 0) (hipv6 : i.isIpv6ExtPrefixCfgReq ≠ 0) (hdbm : i.isDeepBufferModeCfgReq = true)
    (hone : (db.startup.getD []).length ≤ 1) (honce : ∀ id, Attrs.AtMostOnce CpsAttr.id id db.attrs)
    (hname : ∀ a, stored db.attrs .switchProfile = some a → a.dataBin.length ≤ nasCmnProfileNameSize) :
    let booted := (nasSwParseDbAndUpdate swId db i).acl.info.current
    (nasSwProfileConfProfileGet i db.startup (some buf) len = (.ok, some booted.profile) ∧
      nasSwProfileConfUftGet i db.startup (some uft) = (.ok, some booted.uftmode) ∧
      nasSwProfileConfMaxEcmpPerGrpGet i db.startup (some ecmp) = (.ok, some booted.maxEcmpPerGrp) ∧
      nasSwProfileConfIpv6ExtPrefixRoutesGet i db.startup (some ipv6) = (.ok, some booted.ipv6ExtPrefixRoutes) ∧
      nasSwProfileConfDeepBufferModeGet i db.startup (some dbm) = (.ok, some booted.deepBufferMode)) ↔
    ∀ a, stored db.attrs .switchProfile = some a → a.dataBin.length ≤ i.defProfile.name.length := by
  intro booted
  have hb : booted = adopted i db.attrs := (boot_settings swId db i).1
  have hv := fun {α : Type} => confValue_eq_read (α := α) hone honce
  -- the four numbers always agree
  have hu : nasSwProfileConfUftGet i db.startup (some uft) = (.ok, some booted.uftmode) := by
    rw [hb]; simp [nasSwProfileConfUftGet, confGet, huft, hv, adopted, resolve, NasSwitchInfo.defaults]
  have he : nasSwProfileConfMaxEcmpPerGrpGet i db.startup (some ecmp) = (.ok, some booted.maxEcmpPerGrp) := by
    rw [hb]; simp [nasSwProfileConfMaxEcmpPerGrpGet, confGet, hv, adopted, resolve, NasSwitchInfo.defaults]
  have h6 : nasSwProfileConfIpv6ExtPrefixRoutesGet i db.startup (some ipv6) = (.ok, some booted.ipv6ExtPrefixRoutes) := by
    rw [hb]
    simp [nasSwProfileConfIpv6ExtPrefixRoutesGet, nasSwProfileIsIpv6ExtPrefixConfigRequired, confGet, hipv6, hv, adopted,
      resolve, NasSwitchInfo.defaults]
  have hd : nasSwProfileConfDeepBufferModeGet i db.startup (some dbm) = (.ok, some booted.deepBufferMode) := by
    rw [hb]
    simp [nasSwProfileConfDeepBufferModeGet, nasSwProfileIsDeepBufferModeConfigRequired, confGet, hdbm, hv, adopted,
      resolve, NasSwitchInfo.defaults]
  have hp : nasSwProfileConfProfileGet i db.startup (some buf) len = (.ok, some booted.profile) ↔
      ∀ a, stored db.attrs .switchProfile = some a → a.dataBin.length ≤ i.defProfile.name.length := by
    rw [confProfileGet_spec hone honce hprof buf hlen, hb]
    simp only [adopted, Prod.mk.injEq, true_and, Option.some.injEq, read]
    cases hs : stored db.attrs .switchProfile with
    | none => simp
    | some a =>
      have hcopy := (copy_eq_iff a.dataBin).mpr (hname a hs)
      simp [hcopy]
  rw [hp]
  exact ⟨fun h => h.1, fun h => ⟨h, hu, he, h6, hd⟩⟩

/-- switch.xml with profiles, UFT modes, IPv6 and deep-buffer configuration, default
    profile "a". -/
def profileInfo : NasSwitchInfo :=
  { NasSwitchInfo.zero with
    numProfiles := 1, profiles := [.copy ['a']], defProfile := .copy ['a'], numUftModes := 1
    uftInfo := [⟨1, 0, 0, 0⟩], isIpv6ExtPrefixCfgReq := 1, isDeepBufferModeCfgReq := true }

theorem once_singleton (a : CpsAttr SwAttr) (id : SwAttr) : Attrs.AtMostOnce CpsAttr.id id [a] := by
  unfold Attrs.AtMostOnce
  by_cases h : a.id = id <;> simp [h]

theorem conf_gets_eq_boot_iff_same_length :
    nasSwProfileConfProfileGet profileInfo (storedDb [⟨.switchProfile, 0, ['b']⟩]).startup (some []) 65 =
      (.ok, some (nasSwParseDbAndUpdate 0 (storedDb [⟨.switchProfile, 0, ['b']⟩]) profileInfo).acl.info.current.profile) := by
  refine ((conf_gets_eq_boot_iff 0 (storedDb [⟨.switchProfile, 0, ['b']⟩]) profileInfo [] 65 0 0 0 false (by decide)
    (by decide) (by decide) (by decide) rfl (by decide) (once_singleton _) (fun a h => ?_)).mpr (fun a h => ?_)).1
  · cases h; decide
  · cases h; decide

/-- Default "a", stored "ab": the boot adopts "ab", the getter reports "a". -/
theorem longer_name_cut :
    let db := storedDb [⟨.switchProfile, 0, ['a', 'b']⟩]
    let reported := nasSwProfileConfProfileGet profileInfo db.startup (some []) 65
    let booted := (nasSwParseDbAndUpdate 0 db profileInfo).acl.info.current.profile
    reported ≠ (.ok, some booted) ∧ reported = (.ok, some ['a']) ∧ booted = ['a', 'b'] := by decide

end NasCommon.SwProfile
