/-
  NasCommon.Switch.Dispatch — which handlers a call of `_fn_switch_parser` runs.

  The tests of the element's name are made one after the other; a handler may end the
  call. Two of them compare whole names, and the others only the characters that the
  element's name has, so any prefix of the section's name passes.
  - `runSections_state`: the handlers in that order are the call.
  - `handler_only`: each changes the state of its own section alone.
  - `dispatched_iff`: a section's handler is run exactly for its name, and one section
    at most changed, unless the name begins a longer one of a section whose test is
    reached.
-/

import NasCommon.Switch.Parser
import NasCommon.SwProfile.AclTable

namespace NasCommon.Switch

/-- The sections, in the order of their tests. -/
inductive Section where
  | switchTopology
  | switch
  | switchFeature
  | switchMulticastConfig
  | switchProfile
  | switchNpuProfile
  | switchForwardingMode
  | switchResilientHash
  | switchEcmp
  | ipv6ExtendedPrefix
  | switchAclProfile
  | vxlanRiotConfig
  | l3TableSize
  | deepBufferMode
  deriving DecidableEq, Repr

namespace Section

def name : Section → String
  | switchTopology => "switch_topology"
  | switch => "switch"
  | switchFeature => "switch_feature"
  | switchMulticastConfig => "switch_multicast_config"
  | switchProfile => "switch_profile"
  | switchNpuProfile => "switch_npu_profile"
  | switchForwardingMode => "switch_forwarding_mode"
  | switchResilientHash => "switch_resilient_hash"
  | switchEcmp => "switch_ecmp"
  | ipv6ExtendedPrefix => "ipv6_extended_prefix"
  | switchAclProfile => "switch_acl_profile"
  | vxlanRiotConfig => "vxlan-riot-config"
  | l3TableSize => "l3-table-size"
  | deepBufferMode => "deep_buffer_mode"

/-- Compared with `strcmp`; the others are with `strncmp`. -/
def whole : Section → Bool
  | switchTopology => true
  | switch => true
  | _ => false

def test (x : Section) (name : CString) : Bool :=
  if x.whole then name = x.name.toList else startsSection name x.name

/-- Whether the call goes on, and the state. -/
def handler (env : ParserEnv) (v : Visit) : Section → SwitchSt → Bool × SwitchSt
  | switchTopology, s => Switch.switchTopology env v s
  | switch, s => switchElem env v s
  | switchFeature, s => Switch.switchFeature v s
  | switchMulticastConfig, s => (true, Switch.switchMulticastConfig v s)
  | switchProfile, s => (true, Switch.switchProfile v s)
  | switchNpuProfile, s => (true, Switch.switchNpuProfile v s)
  | switchForwardingMode, s => (true, Switch.switchForwardingMode env v s)
  | switchResilientHash, s => (true, Switch.switchResilientHash v s)
  | switchEcmp, s => (true, Switch.switchEcmp v s)
  | ipv6ExtendedPrefix, s => (true, Switch.ipv6ExtendedPrefix v s)
  | switchAclProfile, s => (true, Switch.switchAclProfile env v s)
  | vxlanRiotConfig, s => (true, Switch.vxlanRiotConfig v s)
  | l3TableSize, s => (true, Switch.l3TableSize v s)
  | deepBufferMode, s => (true, Switch.deepBufferMode v s)

/-- The state without what the section sets up. -/
def others (s : SwitchSt) : Section → SwitchSt
  | switchTopology => { s with failed := false, switchList := none, numberOfSwitches := 0, switchCfg := [] }
  | switch => { s with failed := false, switchCfg := [], numSwitches := 0, fault := false }
  | switchFeature => { s with nasSwFcSupported := false }
  | switchMulticastConfig => { s with nasSwL2mcVlanPortLookupEnabled := false }
  | switchProfile => { s with
      info.defProfile := .copy []
      info.currentProfile := .copy []
      info.profiles := []
      info.numProfiles := 0 }
  | switchNpuProfile => { s with npuProfileKvpair := [] }
  | switchForwardingMode => { s with
      info.defUftmode := 0
      info.currentUftmode := 0
      info.uftInfo := []
      info.numUftModes := 0 }
  | switchResilientHash => { s with lagSupported := false, ecmpSupported := false }
  | switchEcmp => { s with info.defMaxEcmpPerGrp := 0, info.curMaxEcmpPerGrp := 0 }
  | ipv6ExtendedPrefix => { s with
      info.isIpv6ExtPrefixCfgReq := 0
      info.defIpv6ExtPrefixRoutes := 0
      info.maxIpv6ExtPrefixRoutes := 0
      info.ipv6ExtPrefixRouteBlkSize := 0
      info.curIpv6ExtPrefixRoutes := 0
      info.nextIpv6ExtPrefixRoutes := 0 }
  | switchAclProfile => { s with
      info.aclProfileAppGroupInfo := []
      info.aclProfileMaxIngressPoolCount := 0
      info.aclProfileMaxEgressPoolCount := 0
      info.aclProfileValid := false
      fault := false }
  | vxlanRiotConfig => { s with
      info.defVxlanRiotEnable := false
      info.defMaxVxlanOverlayRifs := 0
      info.defMaxVxlanOverlayNexthops := 0
      info.curVxlanRiotEnable := false
      info.curMaxVxlanOverlayRifs := 0
      info.curMaxVxlanOverlayNexthops := 0 }
  | l3TableSize => { s with
      info.rifTableSize := 0
      info.rifBlockSize := 0
      info.l3NexthopTableSize := 0
      info.l3NexthopBlockSize := 0 }
  | deepBufferMode => { s with
      info.isDeepBufferModeCfgReq := false
      info.defDeepBufferMode := false
      info.curDeepBufferMode := false
      info.nextBootDeepBufferMode := false }

/-- Those after `switch_feature`, whose handlers always go on. -/
def plain : List Section :=
  [switchMulticastConfig, switchProfile, switchNpuProfile, switchForwardingMode, switchResilientHash, switchEcmp,
   ipv6ExtendedPrefix, switchAclProfile, vxlanRiotConfig, l3TableSize, deepBufferMode]

def all : List Section := switchTopology :: switch :: switchFeature :: plain

theorem mem_all (x : Section) : x ∈ all := by cases x <;> decide

theorem name_inj {x y : Section} (h : x.name.toList = y.name.toList) : x = y := by
  have hnodup : (all.map fun x => x.name.toList).Nodup := by decide
  exact List.inj_on_of_nodup_map hnodup (mem_all x) (mem_all y) h

end Section

def OnlyChanges (x : Section) (s t : SwitchSt) : Prop := x.others t = x.others s

theorem OnlyChanges.trans {x : Section} {s t u : SwitchSt} (h : OnlyChanges x s t) (h' : OnlyChanges x t u) :
    OnlyChanges x s u := Eq.trans h' h

/-! ## The handlers in their order -/

/-- The handlers that are run, and the state after them. -/
def runSections (env : ParserEnv) (v : Visit) : List Section → SwitchSt → List Section × SwitchSt
  | [], s => ([], s)
  | x :: l, s =>
    if x.test v.node.name then
      let r := x.handler env v s
      if r.1 then (x :: (runSections env v l r.2).1, (runSections env v l r.2).2) else ([x], r.2)
    else runSections env v l s

def handlersRun (env : ParserEnv) (s : SwitchSt) (v : Visit) : List Section :=
  if s.failed then [] else (runSections env v Section.all s).1

theorem runSections_skip {env : ParserEnv} {v : Visit} {x : Section} (h : x.test v.node.name = false) (l : List Section)
    (s : SwitchSt) : runSections env v (x :: l) s = runSections env v l s := by
  rw [runSections, if_neg (by simp [h])]

theorem runSections_ends {env : ParserEnv} {v : Visit} {x : Section} (h : x.test v.node.name = true) {s : SwitchSt}
    (hends : (x.handler env v s).1 = false) (l : List Section) :
    runSections env v (x :: l) s = ([x], (x.handler env v s).2) := by
  rw [runSections, if_pos h]
  exact if_neg (by simp [hends])

theorem runSections_goesOn {env : ParserEnv} {v : Visit} {x : Section} (h : x.test v.node.name = true) {s : SwitchSt}
    (hon : (x.handler env v s).1 = true) (l : List Section) :
    runSections env v (x :: l) s =
      (x :: (runSections env v l (x.handler env v s).2).1, (runSections env v l (x.handler env v s).2).2) := by
  rw [runSections, if_pos h]
  exact if_pos hon

/-- A test and its handler are one part of the call. -/
theorem runSections_cons (env : ParserEnv) (v : Visit) (x : Section) (l : List Section) (s : SwitchSt) :
    (runSections env v (x :: l) s).2 =
      andThen (if x.test v.node.name then x.handler env v s else (true, s)) fun s => (runSections env v l s).2 := by
  cases htest : x.test v.node.name with
  | false =>
    rw [runSections_skip htest]
    rfl
  | true =>
    cases hon : (x.handler env v s).1 with
    | false =>
      rw [runSections_ends htest hon, if_pos rfl]
      unfold andThen
      rw [if_neg (by simp [hon])]
    | true =>
      rw [runSections_goesOn htest hon, if_pos rfl]
      unfold andThen
      rw [if_pos hon]

theorem plain_goesOn {x : Section} (hx : x ∈ Section.plain) (env : ParserEnv) (v : Visit) (s : SwitchSt) :
    (x.handler env v s).1 = true := by
  have hall : ∀ x ∈ Section.plain, (x.handler env v s).1 = true := by
    simp only [Section.plain, List.forall_mem_cons]
    exact ⟨rfl, rfl, rfl, rfl, rfl, rfl, rfl, rfl, rfl, rfl, rfl, fun _ h => absurd h List.not_mem_nil⟩
  exact hall x hx

theorem plain_not_whole {x : Section} (hx : x ∈ Section.plain) : x.whole = false := by
  have hall : ∀ x ∈ Section.plain, x.whole = false := by decide
  exact hall x hx

theorem runSections_plain (env : ParserEnv) (v : Visit) (s : SwitchSt) :
    (runSections env v Section.plain s).2 = sections env v s := by
  have hfold : ∀ (l : List Section), (∀ x ∈ l, x ∈ Section.plain) → ∀ s, (runSections env v l s).2 =
      (l.map fun x => (x.name, fun s => (x.handler env v s).2)).foldl (onSection v) s := by
    intro l
    induction l with
    | nil => intro _ s; rfl
    | cons x l ih =>
      intro hl s
      have hx := hl x List.mem_cons_self
      have htest : x.test v.node.name = startsSection v.node.name x.name := if_neg (by simp [plain_not_whole hx])
      rw [runSections_cons, htest, List.map_cons, List.foldl_cons]
      unfold andThen onSection
      cases startsSection v.node.name x.name with
      | false => exact ih (fun y hy => hl y (List.mem_cons_of_mem _ hy)) s
      | true =>
        rw [if_pos rfl, if_pos (plain_goesOn hx env v s), if_pos rfl]
        exact ih (fun y hy => hl y (List.mem_cons_of_mem _ hy)) _
  exact hfold Section.plain (fun _ h => h) s

theorem runSections_after (env : ParserEnv) (v : Visit) (s : SwitchSt) :
    (runSections env v (.switchFeature :: Section.plain) s).2 = afterSwitches env v s := by
  rw [runSections_cons]
  unfold afterSwitches
  congr 1
  funext s
  exact runSections_plain env v s

theorem runSections_state (env : ParserEnv) {s : SwitchSt} (v : Visit) (hs : s.failed = false) :
    (runSections env v Section.all s).2 = fnSwitchParser env s v := by
  have hcall : fnSwitchParser env s v =
      andThen (if Section.switchTopology.test v.node.name then switchTopology env v s else (true, s)) fun s =>
      andThen (if Section.switch.test v.node.name then switchElem env v s else (true, s)) (afterSwitches env v) := by
    unfold fnSwitchParser
    rw [if_neg (by simp [hs])]
    simp only [Section.test, Section.whole, if_true, decide_eq_true_eq]
    rfl
  rw [hcall]
  unfold Section.all
  rw [runSections_cons]
  congr 1
  funext s
  rw [runSections_cons]
  congr 1
  funext s
  exact runSections_after env v s

/-! ## What a handler changes -/

theorem handler_only (env : ParserEnv) (v : Visit) (x : Section) (s : SwitchSt) :
    OnlyChanges x s (x.handler env v s).2 := by
  unfold OnlyChanges
  cases x with
  | switchTopology =>
    simp only [Section.handler, switchTopology]
    repeat' split
    all_goals rfl
  | switch =>
    simp only [Section.handler, switchElem]
    repeat' split
    all_goals rfl
  | switchFeature =>
    simp only [Section.handler, switchFeature]
    repeat' split
    all_goals rfl
  | switchMulticastConfig =>
    simp only [Section.handler, switchMulticastConfig]
    split <;> rfl
  | switchProfile =>
    simp only [Section.handler, switchProfile, SwProfile.nasSwitchUpdateProfileInfo]
    repeat' split
    all_goals rfl
  | switchForwardingMode =>
    simp only [Section.handler, switchForwardingMode, SwProfile.nasSwitchUpdateUftInfo]
    repeat' split
    all_goals rfl
  | ipv6ExtendedPrefix =>
    simp only [Section.handler, ipv6ExtendedPrefix, SwProfile.nasSwitchUpdateIpv6ExtendedPrefixInfo]
    split <;> rfl
  | switchAclProfile =>
    obtain ⟨table, ingress, egress, valid, h⟩ := SwProfile.aclParse_only env.consts (v.alloc .aclGroups)
      (fun idx => v.alloc (.aclApps idx)) v.node s.info
    simp only [Section.handler, switchAclProfile, h]
    rfl
  | vxlanRiotConfig =>
    simp only [Section.handler, vxlanRiotConfig, SwProfile.nasSwitchUpdateVxlanRiotInfo]
    split <;> rfl
  | deepBufferMode =>
    simp only [Section.handler, deepBufferMode, SwProfile.nasSwitchUpdateDeepBufferModeInfo]
    split <;> rfl
  | switchNpuProfile => rfl
  | switchResilientHash => rfl
  | switchEcmp => rfl
  | l3TableSize => rfl

/-- What each handler that is run keeps, the call keeps. -/
theorem runSections_rel {R : SwitchSt → SwitchSt → Prop} (hrefl : ∀ s, R s s) (htrans : ∀ s t u, R s t → R t u → R s u)
    {env : ParserEnv} {v : Visit} (l : List Section) : ∀ s : SwitchSt,
    (∀ x ∈ (runSections env v l s).1, ∀ s, R s (x.handler env v s).2) → R s (runSections env v l s).2 := by
  induction l with
  | nil => intro s _; exact hrefl s
  | cons x l ih =>
    intro s hkeep
    cases htest : x.test v.node.name with
    | false =>
      rw [runSections_skip htest] at hkeep ⊢
      exact ih s hkeep
    | true =>
      cases hon : (x.handler env v s).1 with
      | false =>
        rw [runSections_ends htest hon] at hkeep ⊢
        exact hkeep x List.mem_cons_self s
      | true =>
        rw [runSections_goesOn htest hon] at hkeep ⊢
        exact htrans _ _ _ (hkeep x List.mem_cons_self s) (ih _ fun y hy => hkeep y (List.mem_cons_of_mem _ hy))

/-- So a call that runs no other handler changes that section alone. -/
theorem runSections_only {env : ParserEnv} {v : Visit} {x : Section} (l : List Section) (s : SwitchSt)
    (hx : ∀ y ∈ (runSections env v l s).1, y = x) : OnlyChanges x s (runSections env v l s).2 := by
  refine runSections_rel (R := OnlyChanges x) (fun _ => rfl) (fun _ _ _ => OnlyChanges.trans) l s fun y hy s => ?_
  rw [hx y hy]
  exact handler_only env v x s

/-! ## Which handlers run -/

theorem runSections_passed {env : ParserEnv} {v : Visit} (l : List Section) :
    ∀ (s : SwitchSt), ∀ x ∈ (runSections env v l s).1,
    x ∈ l ∧ x.test v.node.name = true := by
  induction l with
  | nil => intro s x hx; cases hx
  | cons y l ih =>
    intro s x hx
    cases htest : y.test v.node.name with
    | false =>
      rw [runSections_skip htest] at hx
      exact ⟨List.mem_cons_of_mem _ (ih s x hx).1, (ih s x hx).2⟩
    | true =>
      cases hon : (y.handler env v s).1 with
      | false =>
        rw [runSections_ends htest hon, List.mem_singleton] at hx
        rw [hx]
        exact ⟨List.mem_cons_self, htest⟩
      | true =>
        rw [runSections_goesOn htest hon] at hx
        rcases List.mem_cons.mp hx with rfl | hx
        · exact ⟨List.mem_cons_self, htest⟩
        · exact ⟨List.mem_cons_of_mem _ (ih _ x hx).1, (ih _ x hx).2⟩

/-- The first test that is passed runs its handler. -/
theorem runSections_some (env : ParserEnv) {v : Visit} (l : List Section) :
    ∀ s : SwitchSt, (∃ x ∈ l, x.test v.node.name = true) → ∃ y, y ∈ (runSections env v l s).1 := by
  induction l with
  | nil =>
    intro s h
    obtain ⟨x, hx, -⟩ := h
    cases hx
  | cons y l ih =>
    intro s h
    cases htest : y.test v.node.name with
    | false =>
      rw [runSections_skip htest]
      refine ih s ?_
      obtain ⟨x, hx, hpassed⟩ := h
      rcases List.mem_cons.mp hx with rfl | hx
      · rw [htest] at hpassed; cases hpassed
      · exact ⟨x, hx, hpassed⟩
    | true =>
      cases hon : (y.handler env v s).1 with
      | false => rw [runSections_ends htest hon]; exact ⟨y, List.mem_cons_self⟩
      | true => rw [runSections_goesOn htest hon]; exact ⟨y, List.mem_cons_self⟩

/-- The handlers run are those of the element's name, and one section's state at most
    is changed. -/
structure DispatchedByName (env : ParserEnv) (s : SwitchSt) (v : Visit) : Prop where
  byName : ∀ x, x ∈ handlersRun env s v ↔ v.node.name = x.name.toList
  oneSection : ∃ x, OnlyChanges x s (fnSwitchParser env s v)

/-- The name only begins the section's, and passes its test. -/
def Begins (name : CString) (x : Section) : Prop := x.test name = true ∧ name ≠ x.name.toList

/-- A `switch` element whose handler ends the call: without id or NPUs, or with an id
    out of range. -/
def SwitchEnds (s : SwitchSt) (v : Visit) : Prop :=
  v.node.name = "switch".toList ∧ (v.node.attr "id" = none ∨ v.node.attr "npus" = none ∨
    ∃ id, v.node.attr "id" = some id ∧ s.numberOfSwitches ≤ switchIx id)

theorem switchElem_ends_iff (env : ParserEnv) (s : SwitchSt) (v : Visit) :
    (switchElem env v s).1 = false ↔ v.node.attr "id" = none ∨ v.node.attr "npus" = none ∨
      ∃ id, v.node.attr "id" = some id ∧ s.numberOfSwitches ≤ switchIx id := by
  unfold switchElem
  cases v.node.attr "id" with
  | none => simp
  | some id =>
    cases v.node.attr "npus" with
    | none => simp
    | some npus => by_cases hix : s.numberOfSwitches ≤ switchIx id <;> simp [hix]

theorem test_name (x : Section) : x.test x.name.toList = true := by
  have hall : ∀ x ∈ Section.all, x.test x.name.toList = true := by decide
  exact hall x (Section.mem_all x)

/-- Of the sections' names only `switch` begins another. -/
theorem begins_name {x y : Section} (h : Begins y.name.toList x) : y = .switch := by
  have hall : ∀ y ∈ Section.all, y ≠ .switch →
      ∀ x ∈ Section.all, x.test y.name.toList = true → y.name.toList = x.name.toList := by decide
  by_contra hy
  exact h.2 (hall y (Section.mem_all y) hy x (Section.mem_all x) h.1)

theorem handlersRun_eq {env : ParserEnv} {s : SwitchSt} (v : Visit) (hs : s.failed = false) :
    handlersRun env s v = (runSections env v Section.all s).1 := if_neg (by simp [hs])

theorem byName_oneSection {env : ParserEnv} {s : SwitchSt} {v : Visit} (hs : s.failed = false)
    (h : ∀ x, x ∈ handlersRun env s v → v.node.name = x.name.toList) :
    ∃ x, OnlyChanges x s (fnSwitchParser env s v) := by
  rw [handlersRun_eq v hs] at h
  rw [← runSections_state env v hs]
  by_cases hx : ∃ x : Section, v.node.name = x.name.toList
  · obtain ⟨x, hx⟩ := hx
    exact ⟨x, runSections_only _ s fun y hy => Section.name_inj ((h y hy).symm.trans hx)⟩
  · exact ⟨.switch, runSections_only _ s fun y hy => absurd ⟨y, h y hy⟩ hx⟩

/-- Where no name is begun by this one, its own section's handler runs alone. -/
theorem byName_of_begins_none {env : ParserEnv} {s : SwitchSt} {v : Visit} (hs : s.failed = false)
    (h : ¬ ∃ x, Begins v.node.name x) (x : Section) : x ∈ handlersRun env s v ↔ v.node.name = x.name.toList := by
  have hrun : ∀ y, y ∈ (runSections env v Section.all s).1 → v.node.name = y.name.toList := by
    intro y hy
    by_contra hne
    exact h ⟨y, (runSections_passed _ s y hy).2, hne⟩
  rw [handlersRun_eq v hs]
  constructor
  · exact hrun x
  · intro hx
    obtain ⟨y, hy⟩ := runSections_some env Section.all s ⟨x, Section.mem_all x, hx ▸ test_name x⟩
    rwa [← Section.name_inj ((hrun y hy).symm.trans hx)]

theorem runSections_switch {env : ParserEnv} {v : Visit} (s : SwitchSt) (hname : v.node.name = "switch".toList) :
    runSections env v Section.all s = runSections env v (.switch :: .switchFeature :: Section.plain) s := by
  refine runSections_skip ?_ _ s
  rw [hname]
  decide

theorem byName_of_switchEnds {env : ParserEnv} {s : SwitchSt} {v : Visit} (hs : s.failed = false) (h : SwitchEnds s v)
    (x : Section) : x ∈ handlersRun env s v ↔ v.node.name = x.name.toList := by
  obtain ⟨hname, hends⟩ := h
  have htest : Section.switch.test v.node.name = true := by rw [hname]; decide
  rw [handlersRun_eq v hs, runSections_switch s hname, runSections_ends htest ((switchElem_ends_iff env s v).mpr hends),
    List.mem_singleton, hname]
  constructor
  · intro hx
    rw [hx]
    rfl
  · intro hx
    exact (Section.name_inj (x := .switch) hx).symm

/-- A `switch` element that goes on runs a handler after its own. -/
theorem switch_runs_on {env : ParserEnv} {s : SwitchSt} {v : Visit} (hs : s.failed = false)
    (hname : v.node.name = "switch".toList) (hon : (switchElem env v s).1 = true) :
    ∃ y ∈ handlersRun env s v, v.node.name ≠ y.name.toList := by
  have htest : Section.switch.test v.node.name = true := by rw [hname]; decide
  have hfeature : Section.switchFeature.test v.node.name = true := by rw [hname]; decide
  obtain ⟨y, hy⟩ := runSections_some env (.switchFeature :: Section.plain) (switchElem env v s).2
    ⟨_, List.mem_cons_self, hfeature⟩
  refine ⟨y, ?_, fun h => ?_⟩
  · rw [handlersRun_eq v hs, runSections_switch s hname, runSections_goesOn htest hon]
    exact List.mem_cons_of_mem _ hy
  · have hswitch : Section.switch = y := Section.name_inj (hname.symm.trans h)
    have hnot : Section.switch ∉ Section.switchFeature :: Section.plain := by decide
    exact hnot (hswitch ▸ (runSections_passed _ _ y hy).1)

/-- A call is dispatched by name when no section's name is only begun by the element's,
    or it is `switch` and its handler ends the call. -/
theorem dispatched_iff (env : ParserEnv) (s : SwitchSt) (v : Visit) (hs : s.failed = false) :
    DispatchedByName env s v ↔ (¬ ∃ x, Begins v.node.name x) ∨ SwitchEnds s v := by
  constructor
  · intro h
    by_contra hnot
    rw [not_or, not_not] at hnot
    obtain ⟨hbegins, hon⟩ := hnot
    by_cases hname : v.node.name = "switch".toList
    · have hon : (switchElem env v s).1 = true := by
        rw [← Bool.not_eq_false, switchElem_ends_iff]
        exact fun hends => hon ⟨hname, hends⟩
      obtain ⟨y, hy, hne⟩ := switch_runs_on hs hname hon
      exact hne ((h.byName y).mp hy)
    · -- a handler runs, though the name is no section's
      obtain ⟨x, hx⟩ := hbegins
      obtain ⟨y, hy⟩ := runSections_some env Section.all s ⟨x, Section.mem_all x, hx.1⟩
      have hy : v.node.name = y.name.toList := (h.byName y).mp (by rwa [handlersRun_eq v hs])
      rw [hy] at hx hname
      exact hname (congrArg (fun x : Section => x.name.toList) (begins_name hx))
  · intro h
    have hbyName : ∀ x, x ∈ handlersRun env s v ↔ v.node.name = x.name.toList := by
      rcases h with h | h
      · exact byName_of_begins_none hs h
      · exact byName_of_switchEnds hs h
    exact ⟨hbyName, byName_oneSection hs fun x => (hbyName x).mp⟩

/-- `<switch_ fc_enabled="1" lag_enabled="1"/>`. -/
def beginsVisit : Visit where
  node := .mk "switch_".toList [("fc_enabled", "1".toList), ("lag_enabled", "1".toList)] []
  alloc _ := true
  locals := ⟨0, 0⟩

/-- `<switch id="0" npus="0"/>`. -/
def switchVisit : Visit where
  node := .mk "switch".toList [("id", "0".toList), ("npus", "0".toList)] []
  alloc _ := true
  locals := ⟨0, 0⟩

/-- Behind a topology of the one switch 0. -/
def oneSwitch : SwitchSt := { SwitchSt.init with switchList := some [0], numberOfSwitches := 1, switchCfg := [.zero] }

def oneTokenEnv : ParserEnv := ⟨⟨1, 4, 1, 2⟩, fun s => some [s]⟩

/-- Without a topology the id is out of range. -/
theorem dispatched_iff_out_of_range : DispatchedByName oneTokenEnv .init switchVisit :=
  (dispatched_iff oneTokenEnv .init switchVisit rfl).mpr
    (Or.inr ⟨rfl, Or.inr (Or.inr ⟨"0".toList, rfl, Nat.zero_le _⟩)⟩)

/-! ## Names that begin several -/

theorem OnlyChanges.fcSupported {x : Section} {s t : SwitchSt} (h : OnlyChanges x s t) (hx : x ≠ .switchFeature) :
    t.nasSwFcSupported = s.nasSwFcSupported := by
  have h : (x.others t).nasSwFcSupported = (x.others s).nasSwFcSupported := congrArg SwitchSt.nasSwFcSupported h
  cases x with
  | switchFeature => exact absurd rfl hx
  | _ => exact h

/-- `switch_` sets flow control as the `switch_feature` section does and resilient hash
    as its own does; a good `switch` element runs the handler of `switch_feature`. -/
theorem begins_runs_others :
    (∀ x, ¬ OnlyChanges x .init (fnSwitchParser oneTokenEnv .init beginsVisit)) ∧
      ¬ DispatchedByName oneTokenEnv .init beginsVisit ∧ ¬ DispatchedByName oneTokenEnv oneSwitch switchVisit := by
  have htwo : ∀ x, ¬ OnlyChanges x .init (fnSwitchParser oneTokenEnv .init beginsVisit) := by
    intro x h
    by_cases hx : x = .switchFeature
    · rw [hx] at h
      exact absurd (congrArg SwitchSt.lagSupported h) (by decide)
    · exact absurd (h.fcSupported hx) (by decide)
  refine ⟨htwo, fun h => ?_, fun h => ?_⟩
  · obtain ⟨x, hx⟩ := h.oneSection
    exact htwo x hx
  · have hon : (switchElem oneTokenEnv switchVisit oneSwitch).1 = true := by decide
    obtain ⟨y, hy, hne⟩ := switch_runs_on rfl rfl hon
    exact hne ((h.byName y).mp hy)

end NasCommon.Switch
