/-
  NasCommon.Switch.Lookup — what is read back of the configuration: the switch of an NPU
  and the features (`nas_find_switch_id_by_npu`, `nas_switch_get_*`).

  The lookup goes through the table by counts: the number of switches and each entry's
  number of NPUs. Where an id list did not parse or memory ran out, a count is left
  without its list, and the walk has failed.
  - `find_by_npu_iff`: after any walk that does not fail the lookup stays inside the
    table and the lists, and gives the first switch that has the NPU, or none.
  - `details_last`: after such a walk a switch's hardware info and CPU port are as the last
    element said that spoke of its entry.
  - `feature_last`: after any walk a feature is as the last element said that ran its
    section with its attribute, and off before.
  - `resilient_stays_on`: resilient hashing is on once any element mentions it, whatever
    it says.
-/

import NasCommon.Lib.Refinement
import NasCommon.Lib.Table
import NasCommon.Switch.Inventory

namespace NasCommon.Switch

open Table (Found)

/-! ## The switch of an NPU -/

/-- The loop over a switch's NPUs; a NULL list has no elements. -/
def findNpu (npuId : UInt32) (d : NasSwitchDetail) : Found UInt32 :=
  Table.scan (fun n => n == npuId) (d.npus.getD []) d.numberOfNpus

/-- The loop over the switches from `ix`, `fuel` of them to go. -/
def findSwitchFrom (npuId : UInt32) (switchCfg : List NasSwitchDetail) : Nat → Nat → Found NasSwitchDetail
  | 0, _ => .missing
  | fuel + 1, ix =>
    match switchCfg[ix]? with
    | none => .pastEnd
    | some d =>
      match findNpu npuId d with
      | .hit _ _ => .hit ix d
      | .pastEnd => .pastEnd
      | .missing => findSwitchFrom npuId switchCfg fuel (ix + 1)

/-- `nas_find_switch_id_by_npu`: the index of the switch, none, or a read past a list. -/
def nasFindSwitchIdByNpu (s : SwitchSt) (npuId : UInt32) : Found NasSwitchDetail :=
  findSwitchFrom npuId s.switchCfg s.numberOfSwitches 0

/-! ## The lists have the entries' counts -/

def Counted (d : NasSwitchDetail) : Prop := (d.npus.getD []).length = d.numberOfNpus

/-- In a table whose walk has not failed. -/
def AllCounted (s : SwitchSt) : Prop := s.failed = false → ∀ d ∈ s.switchCfg, Counted d

theorem AllCounted.congr {s t : SwitchSt} (h : SameSwitches s t) : AllCounted t ↔ AllCounted s := by
  unfold AllCounted
  rw [h.failed, h.switchCfg]

theorem switchDetail_counted {env : ParserEnv} {v : Visit} {npus : CString} {d : NasSwitchDetail}
    (h : (switchDetail env v npus d).npus.isNone = false) : Counted (switchDetail env v npus d) := by
  unfold switchDetail at h ⊢
  unfold Counted intArrayFromString at *
  cases hp : env.parseString npus with
  | none => simp [hp] at h
  | some tokens =>
    cases ha : v.alloc .npus with
    | false => simp [hp, ha] at h
    | true => simp

theorem switchTopology_counted (env : ParserEnv) (v : Visit) {s : SwitchSt} (h : AllCounted s) :
    AllCounted (switchTopology env v s).2 := by
  unfold switchTopology
  cases hids : v.node.attr "switch_ids" with
  | none => exact h
  | some switchIds =>
    simp only
    split
    · intro hf
      cases hf
    · split
      · intro _ d hd
        rw [List.eq_of_mem_replicate hd]
        rfl
      · intro hf
        cases hf

theorem switchElem_counted (env : ParserEnv) (v : Visit) {s : SwitchSt} (hs : s.failed = false) (h : AllCounted s) :
    AllCounted (switchElem env v s).2 := by
  unfold switchElem
  split
  · rename_i id npus _ _
    split
    · intro hf
      cases hf
    · intro hf d hd
      simp only [hs, Bool.false_or] at hf
      rcases List.mem_or_eq_of_mem_set hd with hd | rfl
      · exact h hs d hd
      · exact switchDetail_counted hf
  · exact h

theorem fnSwitchParser_counted (env : ParserEnv) (s : SwitchSt) (v : Visit) (h : AllCounted s) :
    AllCounted (fnSwitchParser env s v) := by
  by_cases hs : s.failed = true
  · rwa [fnSwitchParser_sticky env v hs]
  have hs : s.failed = false := by simpa using hs
  by_cases htop : v.node.name = "switch_topology".toList
  · rw [AllCounted.congr (fnSwitchParser_topology env hs htop)]
    exact switchTopology_counted env v h
  by_cases hsw : v.node.name = "switch".toList
  · rw [AllCounted.congr (fnSwitchParser_switch env hs hsw)]
    exact switchElem_counted env v hs h
  · rwa [AllCounted.congr (fnSwitchParser_other env htop hsw)]

theorem walk_counted (env : ParserEnv) (visits : List Visit) : AllCounted (walk env .init visits) := by
  have hinit : AllCounted SwitchSt.init := fun _ d hd => (nomatch hd)
  show AllCounted (Runs.final (parserStep env) SwitchSt.init visits)
  exact Runs.final_invariant (fnSwitchParser_counted env) visits SwitchSt.init hinit

/-! ## The loop, inside the table -/

/-- The switch has the NPU. -/
def Lists (npuId : UInt32) (d : NasSwitchDetail) : Prop := npuId ∈ d.npus.getD []

theorem findNpu_hit_iff {npuId : UInt32} {d : NasSwitchDetail} (h : Counted d) :
    (∃ j n, findNpu npuId d = .hit j n) ↔ Lists npuId d := by
  unfold findNpu Lists
  rw [Table.scan_found_iff h]
  simp

theorem findNpu_not_pastEnd {npuId : UInt32} {d : NasSwitchDetail} (h : Counted d) : findNpu npuId d ≠ .pastEnd :=
  Table.scanFrom_ne_pastEnd (by rw [Nat.zero_add, h])

/-- In a table of such switches the loop is a search for one that has the NPU. -/
theorem findSwitchFrom_eq {npuId : UInt32} {switchCfg : List NasSwitchDetail} (hcounted : ∀ d ∈ switchCfg, Counted d) :
    ∀ fuel ix : Nat, findSwitchFrom npuId switchCfg fuel ix =
      Table.scanFrom (fun d => decide (npuId ∈ d.npus.getD [])) switchCfg fuel ix := by
  intro fuel
  induction fuel with
  | zero => intro ix; rfl
  | succ fuel ih =>
    intro ix
    unfold findSwitchFrom Table.scanFrom
    cases hd : switchCfg[ix]? with
    | none => rfl
    | some d =>
      have hc : Counted d := hcounted d (List.mem_of_getElem? hd)
      simp only
      cases hf : findNpu npuId d with
      | pastEnd => exact absurd hf (findNpu_not_pastEnd hc)
      | hit j n =>
        have hlists : npuId ∈ d.npus.getD [] := (findNpu_hit_iff hc).mp ⟨j, n, hf⟩
        rw [decide_eq_true hlists, if_pos rfl]
      | missing =>
        have hnot : npuId ∉ d.npus.getD [] := fun hl => by
          obtain ⟨j, n, hj⟩ := (findNpu_hit_iff hc).mpr hl
          rw [hf] at hj
          cases hj
        rw [decide_eq_false hnot, if_neg Bool.false_ne_true]
        exact ih (ix + 1)

/-- After any walk over a file's elements that does not fail: the lookup never reads past
    a table or a list, NULL ones included; it gives the switch at the least index whose
    list has the NPU, with its entry; and it finds none just when no switch has it. -/
theorem find_by_npu_iff (env : ParserEnv) (visits : List Visit) (npuId : UInt32)
    (hok : (walk env .init visits).failed = false) :
    let s := walk env .init visits
    nasFindSwitchIdByNpu s npuId ≠ .pastEnd ∧
    (∀ ix d, nasFindSwitchIdByNpu s npuId = .hit ix d ↔ s.switchCfg[ix]? = some d ∧ Lists npuId d ∧
      ∀ k e, k < ix → s.switchCfg[k]? = some e → ¬ Lists npuId e) ∧
    (nasFindSwitchIdByNpu s npuId = .missing ↔ ∀ d ∈ s.switchCfg, ¬ Lists npuId d) := by
  intro s
  have hsized : s.switchCfg.length = s.numberOfSwitches := walk_sized env visits (fun _ => rfl) hok
  have hscan : nasFindSwitchIdByNpu s npuId =
      Table.scan (fun d => decide (npuId ∈ d.npus.getD [])) s.switchCfg s.numberOfSwitches :=
    findSwitchFrom_eq (walk_counted env visits hok) s.numberOfSwitches 0
  have hin : nasFindSwitchIdByNpu s npuId ≠ .pastEnd := by
    rw [hscan]
    exact Table.scanFrom_ne_pastEnd (by rw [Nat.zero_add, hsized])
  have hiff : ∀ ix d, nasFindSwitchIdByNpu s npuId = .hit ix d ↔ s.switchCfg[ix]? = some d ∧ Lists npuId d ∧
      ∀ k e, k < ix → s.switchCfg[k]? = some e → ¬ Lists npuId e := by
    intro ix d
    rw [hscan, Table.scan_hit_iff]
    simp only [decide_eq_true_eq, decide_eq_false_iff_not]
    constructor
    · intro h
      obtain ⟨-, hd, hl, hno⟩ := h
      exact ⟨hd, hl, fun k e hk => hno k hk e⟩
    · intro h
      obtain ⟨hd, hl, hno⟩ := h
      obtain ⟨hlt, -⟩ := List.getElem?_eq_some_iff.mp hd
      exact ⟨hsized ▸ hlt, hd, hl, fun k hk e => hno k e hk⟩
  refine ⟨hin, hiff, ?_⟩
  rw [hscan, Table.scan_missing_iff hsized]
  simp only [decide_eq_false_iff_not]
  rfl

/-- One NPU in the one switch of the file. -/
theorem find_by_npu_iff_oneSwitch :
    nasFindSwitchIdByNpu (walk oneTokenEnv .init [topologyVisit "0", switchVisit]) 1 ≠ .pastEnd :=
  (find_by_npu_iff oneTokenEnv [topologyVisit "0", switchVisit] 1 (by decide)).1

-- without memory for the NPUs' list, its count is left, and the lookup reads NULL
example : nasFindSwitchIdByNpu
    (walk oneTokenEnv .init [topologyVisit "0", { switchVisit with alloc := fun _ => false }]) 1 = .pastEnd := rfl

/-! ## A switch's details -/

def nasSwitchGetHwInfo (s : SwitchSt) (switchId : UInt32) : Option CString :=
  (nasSwitch s switchId).map NasSwitchDetail.hwInfo

def nasSwitchGetCpuPortId (s : SwitchSt) (switchId : UInt32) : UInt32 :=
  ((nasSwitch s switchId).map NasSwitchDetail.cpuPortId).getD 0

/-- What an element says of an entry: a new table has it blank or does not have it, a
    `switch` element fills it. -/
inductive EntrySaid where
  | missing
  | blank
  | filled (v : Visit)

namespace EntrySaid

def hwInfo : EntrySaid → Option CString
  | missing => none
  | blank => some []
  | filled v => some (((v.node.attr "hw_info").map fun text => text.take (maxHwInfoSz - 1)).getD [])

def cpuPortId : EntrySaid → UInt32
  | filled v => ((v.node.attr "cpu_port_id").map fun text => (atoi text).toUInt32).getD 0
  | _ => 0

end EntrySaid

/-- What the element says of the entry at `ix`, if anything. -/
def entrySaid (env : ParserEnv) (ix : Nat) (v : Visit) : Option EntrySaid :=
  if v.node.name = "switch_topology".toList then
    (v.node.attr "switch_ids").map fun ids => if ix < ((env.parseString ids).getD []).length then .blank else .missing
  else if v.node.name = "switch".toList then
    match v.node.attr "id", v.node.attr "npus" with
    | some id, some _ => if switchIx id = ix then some (.filled v) else none
    | _, _ => none
  else none

/-- The entry has the details that were said of it. -/
structure Detailed (entry : Option NasSwitchDetail) (said : EntrySaid) : Prop where
  hwInfo : entry.map NasSwitchDetail.hwInfo = said.hwInfo
  cpuPortId : (entry.map NasSwitchDetail.cpuPortId).getD 0 = said.cpuPortId

theorem switchTopology_detailed (env : ParserEnv) (v : Visit) {s : SwitchSt} {ix : Nat} {said : EntrySaid}
    (h : Detailed s.switchCfg[ix]? said) (hok : (switchTopology env v s).2.failed = false) :
    Detailed (switchTopology env v s).2.switchCfg[ix]? (((v.node.attr "switch_ids").map fun ids =>
      if ix < ((env.parseString ids).getD []).length then EntrySaid.blank else .missing).getD said) := by
  unfold switchTopology at hok ⊢
  cases hids : v.node.attr "switch_ids" with
  | none => exact h
  | some ids =>
    cases hp : env.parseString ids with
    | none => simp [hids, hp, intArrayFromString] at hok
    | some tokens =>
      cases hl : v.alloc .switchList with
      | false => simp [hids, hp, hl, intArrayFromString] at hok
      | true =>
        cases hc : v.alloc .switchCfg with
        | false => simp [hids, hp, hl, hc, intArrayFromString] at hok
        | true =>
          simp only [hp, intArrayFromString, if_true, Option.isNone_some, Bool.false_eq_true, if_false, Option.map_some,
            Option.getD_some, List.getElem?_replicate]
          by_cases hix : ix < tokens.length
          · rw [if_pos hix, if_pos hix]
            exact ⟨rfl, rfl⟩
          · rw [if_neg hix, if_neg hix]
            exact ⟨rfl, rfl⟩

theorem switchDetail_detailed (env : ParserEnv) (v : Visit) (npus : CString) (d : NasSwitchDetail) :
    Detailed (some (switchDetail env v npus d)) (.filled v) := by
  constructor
  · simp only [Option.map_some, switchDetail, EntrySaid.hwInfo]
    cases v.node.attr "hw_info" <;> rfl
  · simp only [Option.map_some, Option.getD_some, switchDetail, EntrySaid.cpuPortId]
    cases v.node.attr "cpu_port_id" <;> rfl

theorem switchElem_detailed (env : ParserEnv) (v : Visit) {s : SwitchSt} {ix : Nat} {said : EntrySaid}
    (h : Detailed s.switchCfg[ix]? said) (hsized : s.switchCfg.length = s.numberOfSwitches)
    (hok : (switchElem env v s).2.failed = false) :
    Detailed (switchElem env v s).2.switchCfg[ix]? ((match v.node.attr "id", v.node.attr "npus" with
      | some id, some _ => if switchIx id = ix then some (EntrySaid.filled v) else none
      | _, _ => none).getD said) := by
  unfold switchElem at hok ⊢
  cases hid : v.node.attr "id" with
  | none => exact h
  | some id =>
    cases hnpus : v.node.attr "npus" with
    | none => exact h
    | some npus =>
      by_cases hlt : s.numberOfSwitches ≤ switchIx id
      · simp [hid, hnpus, hlt] at hok
      · simp only [if_neg hlt]
        by_cases hix : switchIx id = ix
        · subst hix
          rw [List.getElem?_set_self (by omega), if_pos rfl]
          exact switchDetail_detailed env v npus _
        · rw [List.getElem?_set_ne hix, if_neg hix]
          exact h

/-- One element of a walk that does not fail. -/
theorem fnSwitchParser_detailed (env : ParserEnv) (v : Visit) {s : SwitchSt} {ix : Nat} {said : EntrySaid}
    (h : Detailed s.switchCfg[ix]? said) (hsized : TableSized s) (hok : (fnSwitchParser env s v).failed = false) :
    Detailed (fnSwitchParser env s v).switchCfg[ix]? ((entrySaid env ix v).getD said) := by
  have hs : s.failed = false := walk_started (l := [v]) hok
  unfold entrySaid
  by_cases htop : v.node.name = "switch_topology".toList
  · have hsame := fnSwitchParser_topology env hs htop
    rw [hsame.failed] at hok
    rw [hsame.switchCfg, if_pos htop]
    exact switchTopology_detailed env v h hok
  rw [if_neg htop]
  by_cases hsw : v.node.name = "switch".toList
  · have hsame := fnSwitchParser_switch env hs hsw
    rw [hsame.failed] at hok
    rw [hsame.switchCfg, if_pos hsw]
    exact switchElem_detailed env v h (hsized hs) hok
  · rw [(fnSwitchParser_other env htop hsw).switchCfg, if_neg hsw]
    exact h

/-- Over a walk, from the last of its elements. -/
theorem walk_detailed (env : ParserEnv) (ix : Nat) (visits : List Visit) (hok : (walk env .init visits).failed = false) :
    Detailed (walk env .init visits).switchCfg[ix]? (((visits.filterMap (entrySaid env ix)).getLast?).getD .missing) := by
  induction visits using List.reverseRecOn with
  | nil => exact ⟨rfl, rfl⟩
  | append_singleton visits v ih =>
    rw [walk_append] at hok ⊢
    have hstep : Detailed (fnSwitchParser env (walk env .init visits) v).switchCfg[ix]? _ :=
      fnSwitchParser_detailed env v (ih (walk_started hok)) (walk_sized env visits fun _ => rfl) hok
    show Detailed (fnSwitchParser env (walk env .init visits) v).switchCfg[ix]? _
    rw [List.filterMap_append]
    cases hsaid : entrySaid env ix v with
    | none => simpa [hsaid] using hstep
    | some said => simpa [hsaid] using hstep

/-- After any walk over a file's elements that does not fail: a switch has the hardware
    info and the CPU port that the last element to speak of its entry gave it. -/
theorem details_last (env : ParserEnv) (visits : List Visit) (hok : (walk env .init visits).failed = false)
    (switchId : UInt32) :
    let s := walk env .init visits
    let said := ((visits.filterMap (entrySaid env switchId.toNat)).getLast?).getD .missing
    nasSwitchGetHwInfo s switchId = said.hwInfo ∧ nasSwitchGetCpuPortId s switchId = said.cpuPortId := by
  intro s said
  have hsized : s.switchCfg.length = s.numberOfSwitches := walk_sized env visits (fun _ => rfl) hok
  have hentry : nasSwitch s switchId = s.switchCfg[switchId.toNat]? := by
    unfold nasSwitch
    split
    · rename_i hle
      rw [List.getElem?_eq_none (hsized ▸ hle)]
    · rfl
  obtain ⟨hhw, hcpu⟩ := walk_detailed env switchId.toNat visits hok
  rw [nasSwitchGetHwInfo, nasSwitchGetCpuPortId, hentry]
  exact ⟨hhw, hcpu⟩

/-- The second element for switch 0 counts, and it has no CPU port. -/
theorem details_last_again :
    let first : Visit := { switchVisit with
      node := .mk "switch".toList [("id", ['0']), ("npus", ['1']), ("hw_info", ['a']), ("cpu_port_id", ['9'])] [] }
    let second : Visit := { first with
      node := .mk "switch".toList [("id", ['0']), ("npus", ['1']), ("hw_info", ['b'])] [] }
    let s := walk oneTokenEnv .init [topologyVisit "0", first, second]
    nasSwitchGetHwInfo s 0 = some ['b'] ∧ nasSwitchGetCpuPortId s 0 = 0 := by
  intro first second
  exact details_last oneTokenEnv [topologyVisit "0", first, second] (by decide) 0

/-! ## Features -/

def nasSwitchGetFcSupported (s : SwitchSt) : Bool := s.nasSwFcSupported

def nasSwitchGetL2mcVlanPortLookupEnabled (s : SwitchSt) : Bool := s.nasSwL2mcVlanPortLookupEnabled

def nasSwitchResilientHashLagSupported (s : SwitchSt) : Bool := s.lagSupported

def nasSwitchResilientHashEcmpSupported (s : SwitchSt) : Bool := s.ecmpSupported

inductive Feature where
  | fc
  | l2mcVlanPortLookup
  | resilientHashLag
  | resilientHashEcmp
  deriving DecidableEq, Repr

namespace Feature

def supported (s : SwitchSt) : Feature → Bool
  | fc => nasSwitchGetFcSupported s
  | l2mcVlanPortLookup => nasSwitchGetL2mcVlanPortLookupEnabled s
  | resilientHashLag => nasSwitchResilientHashLagSupported s
  | resilientHashEcmp => nasSwitchResilientHashEcmpSupported s

def sect : Feature → Section
  | fc => .switchFeature
  | l2mcVlanPortLookup => .switchMulticastConfig
  | resilientHashLag | resilientHashEcmp => .switchResilientHash

def attr : Feature → String
  | fc => "fc_enabled"
  | l2mcVlanPortLookup => "l2mc_vlan_port_lookup_enabled"
  | resilientHashLag => "lag_enabled"
  | resilientHashEcmp => "ecmp_enabled"

/-- What the attribute's text says. -/
def reads (text : CString) : Feature → Bool
  | fc | l2mcVlanPortLookup => atoi text != 0
  | resilientHashLag | resilientHashEcmp => true

/-- What the element says of the feature, if its section is run. -/
def write (env : ParserEnv) (x : Feature) (s : SwitchSt) (v : Visit) : Option Bool :=
  if x.sect ∈ handlersRun env s v then (v.node.attr x.attr).map fun text => reads text x else none

end Feature

open Feature

/-- The section's handler sets the feature to what the element says. -/
theorem handler_feature (env : ParserEnv) (v : Visit) (x : Feature) (s : SwitchSt) :
    supported (x.sect.handler env v s).2 x = ((v.node.attr x.attr).map fun text => reads text x).getD (supported s x) := by
  cases x with
  | fc =>
    simp only [Section.handler, sect, switchFeature, attr]
    cases v.node.attr "fc_enabled" <;> rfl
  | l2mcVlanPortLookup =>
    simp only [Section.handler, sect, switchMulticastConfig, attr]
    cases v.node.attr "l2mc_vlan_port_lookup_enabled" <;> rfl
  | resilientHashLag =>
    simp only [Section.handler, sect, switchResilientHash, attr, supported, nasSwitchResilientHashLagSupported]
    cases v.node.attr "lag_enabled" <;> simp [reads]
  | resilientHashEcmp =>
    simp only [Section.handler, sect, switchResilientHash, attr, supported, nasSwitchResilientHashEcmpSupported]
    cases v.node.attr "ecmp_enabled" <;> simp [reads]

theorem OnlyChanges.feature {y : Section} {s t : SwitchSt} (h : OnlyChanges y s t) {x : Feature} (hxy : y ≠ x.sect) :
    supported t x = supported s x := by
  have hother : ∀ u, supported (y.others u) x = supported u x := by
    intro u
    cases x <;> cases y <;> first | rfl | exact absurd rfl hxy
  rw [← hother t, ← hother s, h]

/-- The sections that are run, each once: the feature's own sets it. -/
theorem runSections_feature {env : ParserEnv} {v : Visit} (x : Feature) : ∀ (l : List Section), l.Nodup → ∀ s : SwitchSt,
    supported (runSections env v l s).2 x =
      (if x.sect ∈ (runSections env v l s).1 then (v.node.attr x.attr).map fun text => reads text x
        else none).getD (supported s x) := by
  intro l
  induction l with
  | nil => intro _ s; rfl
  | cons y l ih =>
    intro hnodup s
    obtain ⟨hy, hl⟩ := List.nodup_cons.mp hnodup
    cases htest : y.test v.node.name with
    | false =>
      rw [runSections_skip htest]
      exact ih hl s
    | true =>
      -- what `y` itself does to the feature
      have hown : supported (y.handler env v s).2 x =
          (if x.sect = y then (v.node.attr x.attr).map fun text => reads text x else none).getD (supported s x) := by
        by_cases hxy : x.sect = y
        · rw [if_pos hxy, ← hxy]
          exact handler_feature env v x s
        · rw [if_neg hxy]
          exact (handler_only env v y s).feature (Ne.symm hxy)
      cases hon : (y.handler env v s).1 with
      | false =>
        rw [runSections_ends htest hon, hown]
        simp only [List.mem_singleton]
      | true =>
        rw [runSections_goesOn htest hon]
        simp only [List.mem_cons]
        rw [ih hl, hown]
        by_cases hxy : x.sect = y
        · have hnot : x.sect ∉ (runSections env v l (y.handler env v s).2).1 :=
            fun hm => hy (hxy ▸ (runSections_passed l _ _ hm).1)
          rw [if_neg hnot, if_pos hxy, if_pos (Or.inl hxy)]
          rfl
        · rw [if_neg hxy]
          simp only [hxy, false_or]
          rfl

theorem fnSwitchParser_feature (env : ParserEnv) (x : Feature) (s : SwitchSt) (v : Visit) :
    supported (fnSwitchParser env s v) x = (write env x s v).getD (supported s x) := by
  by_cases hs : s.failed = true
  · rw [fnSwitchParser_sticky env v hs]
    simp [write, handlersRun, hs]
  · have hs : s.failed = false := by simpa using hs
    rw [← runSections_state env v hs, runSections_feature x Section.all (by decide) s]
    simp [write, handlersRun, hs]

/-- What the elements of a walk say of a feature, in their order. -/
def said (env : ParserEnv) (x : Feature) (visits : List Visit) : List Bool :=
  (Runs.labels (parserStep env) (write env x) .init visits).reduceOption

/-- From any state: as the last element said, or as it was. -/
theorem walk_supported (env : ParserEnv) (x : Feature) (visits : List Visit) (s : SwitchSt) :
    supported (walk env s visits) x =
      ((Runs.labels (parserStep env) (write env x) s visits).reduceOption.getLast?).getD (supported s x) := by
  have hwrite : ∀ s v, True → supported (parserStep env s v).2 x = (write env x s v).getD (supported s x) :=
    fun s v _ => fnSwitchParser_feature env x s v
  exact Runs.cell_final (I := fun _ => True) (fun s => supported s x) (write env x) (fun _ _ _ => trivial) hwrite visits s trivial

theorem supported_init (x : Feature) : supported SwitchSt.init x = false := by
  cases x <;> rfl

/-- After any walk, failing or not, a feature is as the last element said whose section
    was run with the attribute, and off where there is none. -/
theorem feature_last (env : ParserEnv) (x : Feature) (visits : List Visit) :
    supported (walk env .init visits) x = ((said env x visits).getLast?).getD false := by
  rw [walk_supported, supported_init]
  rfl

/-- Of resilient hashing an element that says anything says that it is on. -/
theorem write_resilient_iff (env : ParserEnv) {x : Feature} (hx : x.sect = .switchResilientHash) (s : SwitchSt) (v : Visit)
    (b : Bool) : write env x s v = some b ↔
      b = true ∧ .switchResilientHash ∈ handlersRun env s v ∧ (v.node.attr x.attr).isSome = true := by
  have hreads : ∀ text, reads text x = true := by
    intro text
    cases x <;> first | rfl | cases hx
  unfold write
  rw [hx]
  split
  · rename_i hrun
    cases v.node.attr x.attr with
    | none => simp
    | some text => simp [hreads, hrun, eq_comm]
  · rename_i hrun
    simp [hrun]

/-- Resilient hashing is on just when some element of the walk mentions it where its
    section is run, whatever the attribute says; nothing turns it off. -/
theorem resilient_stays_on (env : ParserEnv) (visits : List Visit) (x : Feature) (hx : x.sect = .switchResilientHash) :
    supported (walk env .init visits) x = true ↔ ∃ before v after, visits = before ++ v :: after ∧
      .switchResilientHash ∈ handlersRun env (walk env .init before) v ∧ (v.node.attr x.attr).isSome = true := by
  have hsaid : ∀ b, b ∈ said env x visits ↔ b = true ∧ ∃ before v after, visits = before ++ v :: after ∧
      .switchResilientHash ∈ handlersRun env (walk env .init before) v ∧ (v.node.attr x.attr).isSome = true := by
    intro b
    rw [said, List.reduceOption_mem_iff, Runs.mem_labels_iff]
    simp only [write_resilient_iff env hx]
    exact ⟨fun ⟨before, v, after, he, hb, h⟩ => ⟨hb, before, v, after, he, h⟩,
      fun ⟨hb, before, v, after, he, h⟩ => ⟨before, v, after, he, hb, h⟩⟩
  rw [walk_supported, supported_init]
  show ((said env x visits).getLast?).getD false = true ↔ _
  cases hlast : (said env x visits).getLast? with
  | none =>
    rw [List.getLast?_eq_none_iff] at hlast
    refine iff_of_false Bool.false_ne_true fun h => ?_
    have hmem := (hsaid true).mpr ⟨rfl, h⟩
    rw [hlast] at hmem
    cases hmem
  | some b =>
    obtain ⟨rfl, h⟩ := (hsaid b).mp (List.mem_of_getLast? hlast)
    exact iff_of_true rfl h

/-- `lag_enabled="0"` turns it on. -/
theorem resilient_stays_on_zero :
    let zero : Visit := { switchVisit with node := .mk "switch_resilient_hash".toList [("lag_enabled", "0".toList)] [] }
    supported (walk oneTokenEnv .init [beginsVisit, zero, switchVisit]) .resilientHashLag = true := by
  intro zero
  exact (resilient_stays_on oneTokenEnv [beginsVisit, zero, switchVisit] .resilientHashLag rfl).mpr
    ⟨[beginsVisit], zero, [switchVisit], rfl, by decide, rfl⟩

end NasCommon.Switch
