/-
  NasCommon.Switch.Init — initialisation of the switch mapping (`nas_switch_init`).

  The configuration is walked and then the startup database is read. The walk's
  verdict, a root not found included, is kept in `rc`, and the database's is assigned
  over it.
  - `init_sound_iff`: STD_ERR_OK means a good configuration exactly when the walk meets
    no failing element of a root that was found, or the call returns an error for
    another reason (no configuration, or a running-config object not committed).
  - `bad_id_accepted`: a switch id out of range, and STD_ERR_OK.
-/

import NasCommon.Switch.Walk
import NasCommon.SwProfile.Boot

namespace NasCommon.Switch

open SwProfile (CpsDb nasSwParseDbAndUpdate)

/-- What the call meets outside. -/
structure InitEnv where
  parser : ParserEnv
  /-- `std_config_load`, and then `std_config_get_root`: `none` for NULL. -/
  config : Option (Option ConfigNode)
  /-- The elements that `std_config_for_each_node` calls back for. -/
  forEachNode : ConfigNode → List ConfigNode
  alloc : Nat → AllocSite → Bool
  locals : Nat → SwProfile.DeepBufferLocals
  db : CpsDb
  /-- `NAS_SWITCH_INTERFACE_FILE_NAME` can be opened. -/
  noCreate : Bool

def InitEnv.visits (env : InitEnv) (root : ConfigNode) : List Visit :=
  (env.forEachNode root).zipIdx.map fun x => ⟨x.1, env.alloc x.2, env.locals x.2⟩

def initFail : StdError := .err .halcom .fail (.num 0)

/-- The walk and its verdict. -/
def readConfig (env : InitEnv) (root : Option ConfigNode) (s : SwitchSt) : StdError × SwitchSt :=
  let r := match root with
    | none => (initFail, s)
    | some node => (.ok, walk env.parser s (env.visits node))
  if r.2.failed then (initFail, r.2) else r

/-- `nas_switch_init`. -/
def nasSwitchInit (env : InitEnv) (s : SwitchSt) : StdError × SwitchSt :=
  match env.config with
  | none => (initFail, s)
  | some root =>
    -- the first `rc` goes no further
    let s := (readConfig env root s).2
    let b := nasSwParseDbAndUpdate 0 env.db s.info
    let s := { s with info := b.acl.info, fault := s.fault || b.acl.fault }
    if b.rc ≠ .ok then (initFail, s) else (b.rc, { s with nasSwOsEventFlag := !env.noCreate })

/-! ## A good configuration -/

/-- No call of the walk has set `failed`. -/
def NoCallFails (env : InitEnv) (root : ConfigNode) : Prop :=
  ∀ l, l <+: env.visits root → (walk env.parser .init l).failed = false

/-- Loaded, its root found, walked without failure, and the database read. -/
def GoodConfig (env : InitEnv) : Prop :=
  ∃ root, env.config = some (some root) ∧ NoCallFails env root ∧
    (nasSwParseDbAndUpdate 0 env.db (walk env.parser .init (env.visits root)).info).rc = .ok

theorem noCallFails_iff (env : InitEnv) (root : ConfigNode) :
    NoCallFails env root ↔ ¬ WalkFails env.parser 0 (env.visits root) := by
  rw [← walk_failed_false_iff]
  constructor
  · intro h
    exact h _ (List.prefix_refl _)
  · intro hok l hl
    obtain ⟨r, hr⟩ := hl
    -- a prefix that failed makes the whole walk fail
    rw [← hr, walk_append] at hok
    exact walk_started hok

/-- The database is read without error when the running-config object is created and
    committed: what becomes of the ACL objects is not looked at. -/
theorem parseDb_ok_iff (db : CpsDb) (i : SwProfile.NasSwitchInfo) :
    (nasSwParseDbAndUpdate 0 db i).rc = .ok ↔ db.createOk = true ∧ db.commitOk = true := by
  have hacl : ∀ s, (SwProfile.nasSwAclProfileParseDbAndUpdate 0 db.aclStartup db.aclCommitOk s).1 = .ok := by
    intro s
    unfold SwProfile.nasSwAclProfileParseDbAndUpdate
    split <;> rfl
  simp only [nasSwParseDbAndUpdate]
  cases hc : db.createOk with
  | false => simp [SwProfile.bootFail]
  | true =>
    cases hm : db.commitOk with
    | false => simp [SwProfile.bootFail]
    | true => simp [hacl]

theorem nasSwitchInit_ok_iff (env : InitEnv) (s : SwitchSt) :
    (nasSwitchInit env s).1 = .ok ↔ env.config ≠ none ∧ env.db.createOk = true ∧ env.db.commitOk = true := by
  unfold nasSwitchInit
  cases env.config with
  | none => simp [initFail]
  | some root =>
    simp only [ne_eq, reduceCtorEq, not_false_eq_true, true_and]
    rw [← parseDb_ok_iff env.db (readConfig env root s).2.info]
    split
    · rename_i hrc
      exact iff_of_false (by simp [initFail]) hrc
    · rename_i hrc
      exact iff_of_true (not_not.mp hrc) (not_not.mp hrc)

/-- What makes STD_ERR_OK mean a good configuration. -/
theorem init_sound_iff (env : InitEnv) : ((nasSwitchInit env .init).1 = .ok → GoodConfig env) ↔
    (env.config = none ∨ env.db.createOk = false ∨ env.db.commitOk = false ∨
      ∃ root, env.config = some (some root) ∧ ¬ WalkFails env.parser 0 (env.visits root)) := by
  have hdb := fun root => parseDb_ok_iff env.db (walk env.parser .init (env.visits root)).info
  rw [nasSwitchInit_ok_iff]
  constructor
  · intro h
    by_cases hn : env.config = none
    · exact Or.inl hn
    cases hc : env.db.createOk with
    | false => exact Or.inr (Or.inl rfl)
    | true =>
      cases hm : env.db.commitOk with
      | false => exact Or.inr (Or.inr (Or.inl rfl))
      | true =>
        obtain ⟨root, hroot, hcalls, -⟩ := h ⟨hn, hc, hm⟩
        exact Or.inr (Or.inr (Or.inr ⟨root, hroot, (noCallFails_iff env root).mp hcalls⟩))
  · rintro (hn | hc | hm | ⟨root, hroot, hwalk⟩) ⟨h1, h2, h3⟩
    · exact absurd hn h1
    · rw [hc] at h2; cases h2
    · rw [hm] at h3; cases h3
    · exact ⟨root, hroot, (noCallFails_iff env root).mpr hwalk, (hdb root).mpr ⟨h2, h3⟩⟩

/-! ## A switch id out of range -/

/-- switch.xml with the one switch 0, and an entry for a switch 5. -/
def badIdRoot : ConfigNode :=
  .mk "switches".toList []
    [.mk "switch_topology".toList [("switch_ids", "0".toList)] [],
     .mk "switch".toList [("id", "5".toList), ("npus", "0".toList)] []]

def badIdEnv : InitEnv where
  parser := ⟨⟨1, 4, 1, 2⟩, fun s => some [s]⟩
  config := some (some badIdRoot)
  forEachNode root := root :: root.children
  alloc _ _ := true
  locals _ := ⟨0, 0⟩
  db := ⟨none, none, true, true, fun _ => true⟩
  noCreate := false

/-- The walk failed, and the call returns STD_ERR_OK. -/
theorem bad_id_accepted : (nasSwitchInit badIdEnv .init).1 = .ok ∧ ¬ GoodConfig badIdEnv := by
  refine ⟨(nasSwitchInit_ok_iff badIdEnv .init).mpr ⟨by simp [badIdEnv], rfl, rfl⟩, ?_⟩
  intro h
  obtain ⟨root, hroot, hcalls, -⟩ := h
  cases hroot
  exact absurd (hcalls _ (List.prefix_refl _)) (by decide)

end NasCommon.Switch
