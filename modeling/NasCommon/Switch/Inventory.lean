/-
  NasCommon.Switch.Inventory — what the walk over switch.xml leaves for the clients that
  ask about the switches (`nas_switch_inventory`, `nas_switch`, `nas_switch_get_max_npus`).

  A `switch_topology` element lists the switches' ids and allocates a table of as many
  entries; each `switch` element fills the entry at its id and adds its NPUs to a running
  total.
  - `max_npus_iff`: along a run the total is the table's sum exactly when no table with
    NPUs is replaced and no entry with NPUs is set again.
  - `switchesFound_iff`: each listed switch has its element's entry, and no well-formed
    element is rejected, exactly when ids are indexes of the table.
-/

import NasCommon.Lib.Runs
import NasCommon.Lib.Table
import NasCommon.Switch.Walk

namespace NasCommon.Switch

/-! ## The total of the NPUs -/

def nasSwitchGetMaxNpus (s : SwitchSt) : Nat := s.numSwitches

def tableNpus (switchCfg : List NasSwitchDetail) : Nat := (switchCfg.map NasSwitchDetail.numberOfNpus).sum

def TotalRight (s : SwitchSt) : Prop := nasSwitchGetMaxNpus s = tableNpus s.switchCfg

/-- The table has an entry for each listed switch. -/
def TableSized (s : SwitchSt) : Prop := s.failed = false → s.switchCfg.length = s.numberOfSwitches

/-- The table is replaced, by a new one or by none. -/
def ReplacesTable (env : ParserEnv) (v : Visit) : Prop :=
  ∃ switchIds, v.node.attr "switch_ids" = some switchIds ∧ (env.parseString switchIds).isSome = true ∧
    v.alloc .switchList = true

/-- The entry that a `switch` element sets. -/
def SetsEntry (s : SwitchSt) (v : Visit) (d : NasSwitchDetail) : Prop :=
  ∃ id npus, v.node.attr "id" = some id ∧ v.node.attr "npus" = some npus ∧ s.switchCfg[switchIx id]? = some d

/-- A call that counts neither replaces a table with NPUs nor sets an entry that has
    NPUs. -/
structure CountsOnce (env : ParserEnv) (s : SwitchSt) (v : Visit) : Prop where
  topology : s.failed = false → v.node.name = "switch_topology".toList → ReplacesTable env v →
    tableNpus s.switchCfg = 0
  switch : s.failed = false → v.node.name = "switch".toList → ∀ d, SetsEntry s v d → d.numberOfNpus = 0

theorem tableNpus_set {switchCfg : List NasSwitchDetail} {ix : Nat} {d : NasSwitchDetail} (h : switchCfg[ix]? = some d)
    (d' : NasSwitchDetail) :
    tableNpus (switchCfg.set ix d') + d.numberOfNpus = tableNpus switchCfg + d'.numberOfNpus :=
  Table.sum_map_set NasSwitchDetail.numberOfNpus h d'

theorem tableNpus_replicate (n : Nat) : tableNpus (List.replicate n .zero) = 0 := by
  unfold tableNpus
  simp [NasSwitchDetail.zero]

theorem switchTopology_total (env : ParserEnv) (v : Visit) (s : SwitchSt) :
    (switchTopology env v s).2.numSwitches = s.numSwitches ∧
      (TableSized s → TableSized (switchTopology env v s).2) ∧
      (ReplacesTable env v → tableNpus (switchTopology env v s).2.switchCfg = 0) ∧
      (¬ ReplacesTable env v → (switchTopology env v s).2.switchCfg = s.switchCfg) := by
  unfold switchTopology ReplacesTable TableSized
  cases hids : v.node.attr "switch_ids" with
  | none => simp
  | some switchIds =>
    cases hp : env.parseString switchIds with
    | none => simp [intArrayFromString, hp]
    | some tokens =>
      cases hl : v.alloc .switchList <;> cases hc : v.alloc .switchCfg <;>
        simp [intArrayFromString, hp, tableNpus_replicate, show tableNpus [] = 0 from rfl]

/-- A `switch` element sets its entry and counts it, or does neither. -/
theorem switchElem_total (env : ParserEnv) (v : Visit) {s : SwitchSt}
    (hsized : s.switchCfg.length = s.numberOfSwitches) :
    (switchElem env v s).2.switchCfg.length = (switchElem env v s).2.numberOfSwitches ∧
      ((∃ ix d d', (∀ e, SetsEntry s v e ↔ e = d) ∧ s.switchCfg[ix]? = some d ∧
          (switchElem env v s).2.switchCfg = s.switchCfg.set ix d' ∧
          (switchElem env v s).2.numSwitches = s.numSwitches + d'.numberOfNpus) ∨
        ((∀ d, ¬ SetsEntry s v d) ∧ (switchElem env v s).2.switchCfg = s.switchCfg ∧
          (switchElem env v s).2.numSwitches = s.numSwitches)) := by
  unfold switchElem SetsEntry
  cases hid : v.node.attr "id" with
  | none => exact ⟨hsized, Or.inr ⟨by simp, rfl, rfl⟩⟩
  | some id =>
    cases hnpus : v.node.attr "npus" with
    | none => exact ⟨hsized, Or.inr ⟨by simp, rfl, rfl⟩⟩
    | some npus =>
      by_cases hix : s.numberOfSwitches ≤ switchIx id
      · simp only [if_pos hix]
        refine ⟨hsized, Or.inr ⟨fun d h => ?_, trivial, trivial⟩⟩
        obtain ⟨_, _, hid, -, hd⟩ := h
        cases hid
        rw [List.getElem?_eq_none (by omega)] at hd
        cases hd
      · have hlt : switchIx id < s.switchCfg.length := by omega
        simp only [if_neg hix]
        refine ⟨by rw [List.length_set]; exact hsized, Or.inl ⟨switchIx id, s.switchCfg[switchIx id], _, fun e => ?_,
          List.getElem?_eq_getElem hlt, rfl, rfl⟩⟩
        simp [List.getElem?_eq_getElem hlt, eq_comm]

theorem TotalRight.congr {s t : SwitchSt} (h : SameSwitches s t) : TotalRight t ↔ TotalRight s := by
  unfold TotalRight nasSwitchGetMaxNpus
  rw [h.numSwitches, h.switchCfg]

theorem TableSized.congr {s t : SwitchSt} (h : SameSwitches s t) : TableSized t ↔ TableSized s := by
  unfold TableSized
  rw [h.failed, h.switchCfg, h.numberOfSwitches]

theorem fnSwitchParser_sized (env : ParserEnv) (s : SwitchSt) (v : Visit) (h : TableSized s) :
    TableSized (fnSwitchParser env s v) := by
  by_cases hs : s.failed = true
  · rwa [fnSwitchParser_sticky env v hs]
  have hs : s.failed = false := by simpa using hs
  by_cases htop : v.node.name = "switch_topology".toList
  · rw [TableSized.congr (fnSwitchParser_topology env hs htop)]
    exact (switchTopology_total env v s).2.1 h
  by_cases hsw : v.node.name = "switch".toList
  · rw [TableSized.congr (fnSwitchParser_switch env hs hsw)]
    exact fun _ => (switchElem_total env v (h hs)).1
  · rwa [TableSized.congr (fnSwitchParser_other env htop hsw)]

theorem switchTopology_totalRight_iff (env : ParserEnv) (v : Visit) {s : SwitchSt} (htotal : TotalRight s) :
    TotalRight (switchTopology env v s).2 ↔ (ReplacesTable env v → tableNpus s.switchCfg = 0) := by
  obtain ⟨hnum, -, hreplaced, hkept⟩ := switchTopology_total env v s
  unfold TotalRight nasSwitchGetMaxNpus at htotal ⊢
  rw [hnum, htotal]
  by_cases hrep : ReplacesTable env v
  · rw [hreplaced hrep]
    exact ⟨fun h0 _ => h0, fun h0 => h0 hrep⟩
  · rw [hkept hrep]
    exact iff_of_true rfl fun h => absurd h hrep

theorem switchElem_totalRight_iff (env : ParserEnv) (v : Visit) {s : SwitchSt}
    (hsized : s.switchCfg.length = s.numberOfSwitches) (htotal : TotalRight s) :
    TotalRight (switchElem env v s).2 ↔ ∀ d, SetsEntry s v d → d.numberOfNpus = 0 := by
  obtain ⟨-, hset⟩ := switchElem_total env v hsized
  unfold TotalRight nasSwitchGetMaxNpus at htotal ⊢
  rcases hset with ⟨ix, d, d', hentry, hd, hcfg, hnum⟩ | ⟨hnone, hcfg, hnum⟩
  · have hsum := tableNpus_set hd d'
    rw [hcfg, hnum, htotal]
    -- what the entry had is counted still
    have hzero : tableNpus s.switchCfg + d'.numberOfNpus = tableNpus (s.switchCfg.set ix d') ↔
        d.numberOfNpus = 0 := by omega
    rw [hzero]
    constructor
    · intro h0 e he
      rw [(hentry e).mp he]
      exact h0
    · intro h0
      exact h0 d ((hentry d).mpr rfl)
  · rw [hcfg, hnum]
    exact iff_of_true htotal fun d hd => absurd hd (hnone d)

/-- A call keeps the total right exactly when it counts each NPU once. -/
theorem totalRight_step_iff (env : ParserEnv) (s : SwitchSt) (v : Visit) (h : TableSized s) (htotal : TotalRight s) :
    TotalRight (fnSwitchParser env s v) ↔ CountsOnce env s v := by
  by_cases hs : s.failed = true
  · rw [fnSwitchParser_sticky env v hs]
    have hno : s.failed ≠ false := by simp [hs]
    exact iff_of_true htotal ⟨fun h => absurd h hno, fun h => absurd h hno⟩
  have hs : s.failed = false := by simpa using hs
  by_cases htop : v.node.name = "switch_topology".toList
  · have hsw : v.node.name ≠ "switch".toList := by rw [htop]; decide
    rw [TotalRight.congr (fnSwitchParser_topology env hs htop), switchTopology_totalRight_iff env v htotal]
    exact ⟨fun h0 => ⟨fun _ _ => h0, fun _ hname => absurd hname hsw⟩, fun hC => hC.topology hs htop⟩
  by_cases hsw : v.node.name = "switch".toList
  · rw [TotalRight.congr (fnSwitchParser_switch env hs hsw), switchElem_totalRight_iff env v (h hs) htotal]
    exact ⟨fun h0 => ⟨fun _ hname => absurd hname htop, fun _ _ => h0⟩, fun hC => hC.switch hs hsw⟩
  · rw [TotalRight.congr (fnSwitchParser_other env htop hsw)]
    exact iff_of_true htotal ⟨fun _ hname => absurd hname htop, fun _ hname => absurd hname hsw⟩

def parserStep (env : ParserEnv) (s : SwitchSt) (v : Visit) : Unit × SwitchSt := ((), fnSwitchParser env s v)

/-- The total is right after each element exactly when each call counts each NPU once. -/
theorem max_npus_iff (env : ParserEnv) (visits : List Visit) :
    Runs.Always (parserStep env) TotalRight .init visits ↔ Runs.Steps (parserStep env) (CountsOnce env) .init visits :=
  Runs.always_iff_steps (fnSwitchParser_sized env) (totalRight_step_iff env) visits SwitchSt.init (fun _ => rfl) rfl

/-- `<switch_topology switch_ids="ids"/>`. -/
def topologyVisit (ids : String) : Visit where
  node := .mk "switch_topology".toList [("switch_ids", ids.toList)] []
  alloc _ := true
  locals := ⟨0, 0⟩

/-- Switch 0 again: two NPUs are counted and the table has one. -/
theorem repeated_id_counted_twice :
    ¬ Runs.Always (parserStep oneTokenEnv) TotalRight .init [topologyVisit "0", switchVisit, switchVisit] := by
  intro h
  exact absurd (h _ (List.prefix_refl _)) (by unfold TotalRight; decide)

/-! ## Looking a switch up -/

/-- `nas_switch`: the entry, or NULL. -/
def nasSwitch (s : SwitchSt) (switchId : UInt32) : Option NasSwitchDetail :=
  if s.numberOfSwitches ≤ switchId.toNat then none else s.switchCfg[switchId.toNat]?

/-- `nas_switch_inventory`. -/
def nasSwitchInventory (s : SwitchSt) : Option (List UInt32) × Nat := (s.switchList, s.numberOfSwitches)

/-- An id as a `nas_switch_id_t`. -/
def switchId (id : CString) : UInt32 := (atoi id).toUInt32

def elemId (v : Visit) : Option UInt32 := (v.node.attr "id").map switchId

def listedIds (env : ParserEnv) (top : Visit) : List UInt32 :=
  (((top.node.attr "switch_ids").bind env.parseString).getD []).map switchId

/-- A `switch_topology` element, and for each id it lists one `switch` element. -/
structure SwitchConfig (env : ParserEnv) (top : Visit) (elems : List Visit) : Prop where
  topology : top.node.name = "switch_topology".toList
  named : ∀ v ∈ elems, v.node.name = "switch".toList
  listed : ∀ v ∈ elems, ∃ i ∈ listedIds env top, elemId v = some i
  each : ∀ i ∈ listedIds env top, ∃ v ∈ elems, elemId v = some i
  once : (elems.map elemId).Nodup

/-- The element sets the entry at `r`. -/
def Fills (v : Visit) (r : Nat) : Prop :=
  ∃ id npus, v.node.attr "id" = some id ∧ v.node.attr "npus" = some npus ∧ switchIx id = r

def ParsedFrom (env : ParserEnv) (v : Visit) (d : NasSwitchDetail) : Prop :=
  ∃ npus, v.node.attr "npus" = some npus ∧ d = switchDetail env v npus .zero

def WellFormed (env : ParserEnv) (v : Visit) : Prop :=
  ∃ id npus, v.node.attr "id" = some id ∧ v.node.attr "npus" = some npus ∧ (env.parseString npus).isSome = true ∧
    v.alloc .npus = true

/-- An index that an id can be is the id, unless the id is negative. -/
theorem switchIx_small {id : CString} (h : switchIx id < 2 ^ 32) : switchIx id = (switchId id).toNat := by
  unfold switchIx switchId at *
  generalize atoi id = x at h ⊢
  have hx : x.toInt64.toUInt64.toNat = (x.toUInt32.toBitVec.signExtend 64).toNat := rfl
  have hlt := x.toUInt32.toBitVec.isLt
  have hset : (BitVec.setWidth 64 x.toUInt32.toBitVec).toNat = x.toUInt32.toBitVec.toNat :=
    BitVec.toNat_setWidth_of_le (by omega)
  rw [hx, BitVec.toNat_signExtend, hset] at h ⊢
  split at h
  · omega
  · rename_i hmsb
    rw [if_neg hmsb]
    rfl

theorem switchElem_fills (env : ParserEnv) (v : Visit) {s : SwitchSt} (hsized : s.switchCfg.length = s.numberOfSwitches)
    (hok : (switchElem env v s).2.failed = false) :
    (switchElem env v s).2.switchList = s.switchList ∧
      (∀ r, ¬ Fills v r → (switchElem env v s).2.switchCfg[r]? = s.switchCfg[r]?) ∧
      ∀ r, Fills v r → r < s.numberOfSwitches ∧
        ∃ d, ParsedFrom env v d ∧ d.npus ≠ none ∧ (switchElem env v s).2.switchCfg[r]? = some d := by
  unfold switchElem Fills ParsedFrom at *
  cases hid : v.node.attr "id" with
  | none => exact ⟨rfl, fun _ _ => rfl, fun r h => by simp at h⟩
  | some id =>
    cases hnpus : v.node.attr "npus" with
    | none => exact ⟨rfl, fun _ _ => rfl, fun r h => by simp at h⟩
    | some npus =>
      by_cases hix : s.numberOfSwitches ≤ switchIx id
      · simp [hid, hnpus, hix] at hok
      · simp only [hid, hnpus, if_neg hix, Bool.or_eq_false_iff] at hok ⊢
        refine ⟨trivial, fun r hr => ?_, fun r hr => ?_⟩
        · exact List.getElem?_set_ne fun h => hr ⟨id, npus, rfl, rfl, h⟩
        · obtain ⟨_, _, hid', hnpus', rfl⟩ := hr
          cases hid'
          cases hnpus'
          refine ⟨by omega, _, ⟨_, rfl, rfl⟩, ?_, ?_⟩
          · cases hp : env.parseString npus with
            | none => simp [switchDetail, intArrayFromString, hp] at hok
            | some tokens => cases hn : v.alloc .npus <;> simp [switchDetail, intArrayFromString, hp, hn] at hok ⊢
          · rw [List.getElem?_set_self (by omega)]
            cases hp : env.parseString npus with
            | none => simp [switchDetail, intArrayFromString, hp] at hok
            | some tokens => simp [switchDetail, intArrayFromString, hp]

theorem elem_fills (env : ParserEnv) {v : Visit} {s : SwitchSt} (hname : v.node.name = "switch".toList)
    (hsized : TableSized s) (hs : s.failed = false) (hok : (fnSwitchParser env s v).failed = false) :
    (fnSwitchParser env s v).switchList = s.switchList ∧
      (fnSwitchParser env s v).numberOfSwitches = s.numberOfSwitches ∧
      (∀ r, ¬ Fills v r → (fnSwitchParser env s v).switchCfg[r]? = s.switchCfg[r]?) ∧
      ∀ r, Fills v r → r < s.numberOfSwitches ∧
        ∃ d, ParsedFrom env v d ∧ d.npus ≠ none ∧ (fnSwitchParser env s v).switchCfg[r]? = some d := by
  have hsame := fnSwitchParser_switch env hs hname
  rw [hsame.failed] at hok
  obtain ⟨hlist, hkept, hset⟩ := switchElem_fills env v (hsized hs) hok
  rw [hsame.switchList, hsame.numberOfSwitches, hsame.switchCfg]
  exact ⟨hlist, (switchElem_spec env v s hs).2, hkept, hset⟩

theorem walk_sized (env : ParserEnv) (l : List Visit) {s : SwitchSt} (h : TableSized s) :
    TableSized (walk env s l) := by
  show TableSized (Runs.final (parserStep env) s l)
  exact Runs.final_invariant (fnSwitchParser_sized env) l s h

/-- What the `switch` elements keep. -/
theorem walk_keeps (env : ParserEnv) (l : List Visit) : ∀ s : SwitchSt, (∀ v ∈ l, v.node.name = "switch".toList) →
    TableSized s → (walk env s l).failed = false →
    (walk env s l).switchList = s.switchList ∧ (walk env s l).numberOfSwitches = s.numberOfSwitches ∧
      ∀ r, (∀ v ∈ l, ¬ Fills v r) → (walk env s l).switchCfg[r]? = s.switchCfg[r]? := by
  induction l with
  | nil => intro s _ _ _; exact ⟨rfl, rfl, fun _ _ => rfl⟩
  | cons v l ih =>
    intro s hnamed hsized hok
    have hv : (fnSwitchParser env s v).failed = false := walk_started hok
    have hs : s.failed = false := walk_started (l := [v]) hv
    obtain ⟨hlist, hnum, hkept, -⟩ := elem_fills env (hnamed v List.mem_cons_self) hsized hs hv
    obtain ⟨hlist', hnum', hkept'⟩ := ih (fnSwitchParser env s v) (fun u hu => hnamed u (List.mem_cons_of_mem v hu))
      (fnSwitchParser_sized env s v hsized) hok
    refine ⟨hlist'.trans hlist, hnum'.trans hnum, fun r hr => ?_⟩
    exact (hkept' r fun u hu => hr u (List.mem_cons_of_mem v hu)).trans (hkept r (hr v List.mem_cons_self))

/-- An element's entry, as it is set. -/
theorem walk_sets (env : ParserEnv) {before after : List Visit} {v : Visit} {s : SwitchSt} {r : Nat}
    (hnamed : ∀ u ∈ before ++ v :: after, u.node.name = "switch".toList) (hsized : TableSized s)
    (hok : (walk env s (before ++ v :: after)).failed = false) (hv : Fills v r) :
    r < s.numberOfSwitches ∧
      ∃ d, ParsedFrom env v d ∧ d.npus ≠ none ∧ (fnSwitchParser env (walk env s before) v).switchCfg[r]? = some d := by
  rw [walk_append] at hok
  have hmid : (fnSwitchParser env (walk env s before) v).failed = false := walk_started hok
  have hpre : (walk env s before).failed = false := walk_started (l := [v]) hmid
  obtain ⟨-, -, -, hset⟩ := elem_fills env (hnamed v (by simp)) (walk_sized env before hsized) hpre hmid
  obtain ⟨-, hnum, -⟩ := walk_keeps env before s (fun u hu => hnamed u (by simp [hu])) hsized hpre
  rw [← hnum]
  exact hset r hv

/-- An element's entry at the end, where it is not set again. -/
theorem walk_fills (env : ParserEnv) {before after : List Visit} {v : Visit} {s : SwitchSt} {r : Nat}
    (hnamed : ∀ u ∈ before ++ v :: after, u.node.name = "switch".toList) (hsized : TableSized s)
    (hok : (walk env s (before ++ v :: after)).failed = false) (hv : Fills v r) (hafter : ∀ u ∈ after, ¬ Fills u r) :
    r < s.numberOfSwitches ∧ ∃ d, ParsedFrom env v d ∧ (walk env s (before ++ v :: after)).switchCfg[r]? = some d := by
  obtain ⟨hlt, d, hparsed, -, hd⟩ := walk_sets env hnamed hsized hok hv
  rw [walk_append] at hok ⊢
  obtain ⟨-, -, hkept⟩ := walk_keeps env after _ (fun u hu => hnamed u (by simp [hu]))
    (fnSwitchParser_sized env _ v (walk_sized env before hsized)) hok
  exact ⟨hlt, d, hparsed, (hkept r hafter).trans hd⟩

/-- What a `switch_topology` element leaves: its ids, and a blank table for them. -/
theorem topology_spec (env : ParserEnv) {top : Visit} (hname : top.node.name = "switch_topology".toList)
    (hok : (fnSwitchParser env .init top).failed = false) :
    (nasSwitchInventory (fnSwitchParser env .init top)).1.getD [] = listedIds env top ∧
      (fnSwitchParser env .init top).numberOfSwitches = (listedIds env top).length ∧
      ∀ (r : Nat) (d : NasSwitchDetail), (fnSwitchParser env .init top).switchCfg[r]? = some d → d = .zero := by
  have hsame := fnSwitchParser_topology env (s := .init) rfl hname
  unfold nasSwitchInventory
  rw [hsame.failed] at hok
  rw [hsame.switchList, hsame.numberOfSwitches, hsame.switchCfg]
  unfold switchTopology listedIds at *
  cases hids : top.node.attr "switch_ids" with
  | none => exact ⟨rfl, rfl, fun r d h => by cases h⟩
  | some switchIds =>
    cases hp : env.parseString switchIds with
    | none => simp [hids, intArrayFromString, hp] at hok
    | some tokens =>
      cases hl : top.alloc .switchList with
      | false => simp [hids, intArrayFromString, hp, hl] at hok
      | true =>
        cases hc : top.alloc .switchCfg with
        | false => simp [hids, intArrayFromString, hp, hl, hc] at hok
        | true =>
          simp only [intArrayFromString, hp, if_true, Option.isNone_some, Bool.false_eq_true, if_false,
            Option.bind_some, Option.getD_some, List.length_map]
          refine ⟨rfl, trivial, fun r d h => ?_⟩
          exact List.eq_of_mem_replicate (List.mem_of_getElem? h)

/-! ## Each listed switch -/

/-- The walk leaves every listed id its element's detail, and rejects no well-formed
    element. -/
structure SwitchesFound (env : ParserEnv) (top : Visit) (elems : List Visit) : Prop where
  found : let s := walk env .init (top :: elems)
    s.failed = false → ∀ i ∈ (nasSwitchInventory s).1.getD [],
      ∃ v ∈ elems, elemId v = some i ∧ ∃ d, ParsedFrom env v d ∧ nasSwitch s i = some d
  accepted : ∀ before v after, elems = before ++ v :: after → WellFormed env v →
    (walk env .init (top :: before)).failed = false → (walk env .init (top :: (before ++ [v]))).failed = false

/-- Where no element fails, each sets the entry at its id; and the id of each well-formed
    one that is come to is an index of the table. -/
structure IdsAreIndexes (env : ParserEnv) (top : Visit) (elems : List Visit) : Prop where
  sets : ¬ WalkFails env 0 (top :: elems) → ∀ v ∈ elems, ∃ i, elemId v = some i ∧ Fills v i.toNat
  inRange : ∀ before v after, elems = before ++ v :: after → WellFormed env v → ¬ WalkFails env 0 (top :: before) →
    ∀ id, v.node.attr "id" = some id → switchIx id < (listedIds env top).length

theorem Fills.elemId {v : Visit} {i : UInt32} (h : Fills v i.toNat) : elemId v = some i := by
  obtain ⟨id, npus, hid, -, hix⟩ := h
  have hsmall : switchIx id = (switchId id).toNat := switchIx_small (hix ▸ i.toNat_lt)
  unfold Switch.elemId
  rw [hid, Option.map_some, UInt32.toNat_inj.mp (hsmall.symm.trans hix)]

theorem ParsedFrom.unique {env : ParserEnv} {v : Visit} {d d' : NasSwitchDetail} (h : ParsedFrom env v d)
    (h' : ParsedFrom env v d') : d' = d := by
  obtain ⟨npus, hnpus, rfl⟩ := h
  obtain ⟨npus', hnpus', rfl⟩ := h'
  rw [hnpus] at hnpus'
  cases hnpus'
  rfl

namespace SwitchConfig

variable {env : ParserEnv} {top : Visit} {elems : List Visit}

theorem elem_unique (h : SwitchConfig env top elems) {u v : Visit} (hu : u ∈ elems) (hv : v ∈ elems)
    (hid : elemId u = elemId v) : u = v := List.inj_on_of_nodup_map h.once hu hv hid

/-- What `nas_switch` gives for an id: its element's detail, or an entry that is blank. -/
theorem nasSwitch_spec (h : SwitchConfig env top elems) (hok : (walk env .init (top :: elems)).failed = false)
    {v : Visit} (hv : v ∈ elems) {i : UInt32} (hid : elemId v = some i) :
    (Fills v i.toNat → ∃ d, ParsedFrom env v d ∧ nasSwitch (walk env .init (top :: elems)) i = some d) ∧
      (¬ Fills v i.toNat → ∀ d, nasSwitch (walk env .init (top :: elems)) i = some d → d = .zero) := by
  have hsized : TableSized (fnSwitchParser env .init top) := fnSwitchParser_sized env _ top fun _ => rfl
  have hstart : (fnSwitchParser env .init top).failed = false := walk_started hok
  obtain ⟨-, hnum, hkept⟩ := walk_keeps env elems _ h.named hsized hok
  have hwalk : walk env .init (top :: elems) = walk env (fnSwitchParser env .init top) elems := rfl
  rw [hwalk] at hok ⊢
  unfold nasSwitch
  rw [hnum]
  constructor
  · intro hfills
    obtain ⟨before, after, rfl⟩ := List.append_of_mem hv
    -- no other element has the id, so none sets its entry
    have hafter : ∀ u ∈ after, ¬ Fills u i.toNat := by
      intro u hu hfu
      have honce := h.once
      rw [List.map_append, List.map_cons, List.nodup_append] at honce
      exact (List.nodup_cons.mp honce.2.1).1 (List.mem_map.mpr ⟨u, hu, hfu.elemId.trans hid.symm⟩)
    obtain ⟨hlt, d, hparsed, hd⟩ := walk_fills env h.named hsized hok hfills hafter
    refine ⟨d, hparsed, ?_⟩
    rw [if_neg (Nat.not_le.mpr hlt)]
    exact hd
  · intro hnot d hd
    have hnone : ∀ u ∈ elems, ¬ Fills u i.toNat := by
      intro u hu hfu
      rw [h.elem_unique hu hv (hfu.elemId.trans hid.symm)] at hfu
      exact hnot hfu
    split at hd
    · cases hd
    · rw [hkept _ hnone] at hd
      exact (topology_spec env h.topology hstart).2.2 _ d hd

theorem found_iff (h : SwitchConfig env top elems) (hok : (walk env .init (top :: elems)).failed = false) :
    (∀ i ∈ (nasSwitchInventory (walk env .init (top :: elems))).1.getD [], ∃ v ∈ elems, elemId v = some i ∧
        ∃ d, ParsedFrom env v d ∧ nasSwitch (walk env .init (top :: elems)) i = some d) ↔
      ∀ v ∈ elems, ∃ i, elemId v = some i ∧ Fills v i.toNat := by
  have hsized : TableSized (fnSwitchParser env .init top) := fnSwitchParser_sized env _ top fun _ => rfl
  have hlist : (nasSwitchInventory (walk env .init (top :: elems))).1.getD [] = listedIds env top := by
    show (walk env (fnSwitchParser env .init top) elems).switchList.getD [] = _
    rw [(walk_keeps env elems _ h.named hsized hok).1]
    exact (topology_spec env h.topology (walk_started hok)).1
  rw [hlist]
  constructor
  · intro hfound v hv
    obtain ⟨i, hi, hid⟩ := h.listed v hv
    obtain ⟨u, hu, huid, d, hparsed, hd⟩ := hfound i hi
    rw [h.elem_unique hu hv (huid.trans hid.symm)] at hparsed
    refine ⟨i, hid, ?_⟩
    by_contra hnot
    -- a blank entry has no NPUs, and the detail parsed has
    have hzero := (h.nasSwitch_spec hok hv hid).2 hnot d hd
    obtain ⟨npus, hnpus⟩ : ∃ npus, v.node.attr "npus" = some npus := hparsed.imp fun _ h => h.1
    obtain ⟨id, hidattr, -⟩ := Option.map_eq_some_iff.mp hid
    obtain ⟨before, after, rfl⟩ := List.append_of_mem hv
    obtain ⟨-, d', hparsed', hsome, -⟩ := walk_sets env h.named hsized hok ⟨id, npus, hidattr, hnpus, rfl⟩
    rw [hparsed.unique hparsed', hzero] at hsome
    exact hsome rfl
  · intro hsets i hi
    obtain ⟨v, hv, hid⟩ := h.each i hi
    obtain ⟨j, hj, hfills⟩ := hsets v hv
    rw [hid] at hj
    cases hj
    exact ⟨v, hv, hid, (h.nasSwitch_spec hok hv hid).1 hfills⟩

/-- A well-formed element that the walk comes to fails it when its id is out of range. -/
theorem accepted_iff (h : SwitchConfig env top elems) {before after : List Visit} {v : Visit}
    (hsplit : elems = before ++ v :: after) (hv : WellFormed env v) (hpre : ¬ WalkFails env 0 (top :: before)) :
    (walk env .init (top :: (before ++ [v]))).failed = false ↔
      ∀ id, v.node.attr "id" = some id → switchIx id < (listedIds env top).length := by
  subst hsplit
  rw [← walk_failed_false_iff] at hpre
  have hsized : TableSized (fnSwitchParser env .init top) := fnSwitchParser_sized env _ top fun _ => rfl
  obtain ⟨-, hnum, -⟩ := walk_keeps env before _ (fun u hu => h.named u (by simp [hu])) hsized hpre
  have hnum : (walk env .init (top :: before)).numberOfSwitches = (listedIds env top).length :=
    hnum.trans (topology_spec env h.topology (walk_started hpre)).2.1
  have hname : v.node.name = "switch".toList := h.named v (by simp)
  have hstep : walk env .init (top :: (before ++ [v])) = fnSwitchParser env (walk env .init (top :: before)) v :=
    walk_append env (fnSwitchParser env .init top) before [v]
  have hsame := fnSwitchParser_switch env hpre hname
  obtain ⟨id, npus, hid, hnpus, hparse, halloc⟩ := hv
  rw [hstep, hsame.failed, ← Bool.not_eq_true, (switchElem_spec env v _ hpre).1, hnum]
  constructor
  · intro hok id' hid'
    rw [hid] at hid'
    cases hid'
    exact Nat.not_le.mp fun hle => hok ⟨id, npus, hid, hnpus, Or.inl hle⟩
  · intro hrange hfails
    obtain ⟨id', npus', hid', hnpus', hcause⟩ := hfails
    rw [hnpus] at hnpus'
    cases hnpus'
    rcases hcause with hle | hnone | hno
    · exact Nat.not_le.mpr (hrange id' hid') hle
    · rw [hnone] at hparse; cases hparse
    · rw [hno] at halloc; cases halloc

end SwitchConfig

/-- Every listed switch is found and every well-formed element accepted exactly when ids
    are indexes. -/
theorem switchesFound_iff (env : ParserEnv) (top : Visit) (elems : List Visit) (h : SwitchConfig env top elems) :
    SwitchesFound env top elems ↔ IdsAreIndexes env top elems := by
  constructor
  · intro hfound
    refine ⟨fun hok => ?_, fun before v after hsplit hv hpre => ?_⟩
    · rw [← walk_failed_false_iff] at hok
      exact (h.found_iff hok).mp (hfound.found hok)
    · have hok := (walk_failed_false_iff env _).mpr hpre
      exact (h.accepted_iff hsplit hv hpre).mp (hfound.accepted before v after hsplit hv hok)
  · intro hids
    refine ⟨fun hok => ?_, fun before v after hsplit hv hpre => ?_⟩
    · exact (h.found_iff hok).mpr (hids.sets ((walk_failed_false_iff env _).mp hok))
    · have hpre := (walk_failed_false_iff env _).mp hpre
      exact (h.accepted_iff hsplit hv hpre).mpr (hids.inRange before v after hsplit hv hpre)

/-! ## One switch -/

theorem one_config {env : ParserEnv} {top v : Visit} {i : UInt32} (htop : top.node.name = "switch_topology".toList)
    (hname : v.node.name = "switch".toList) (hids : listedIds env top = [i]) (hid : elemId v = some i) :
    SwitchConfig env top [v] := by
  refine ⟨htop, ?_, ?_, ?_, List.nodup_singleton _⟩
  · simpa using hname
  · simpa [hids] using hid
  · simpa [hids] using hid

/-- The only switch is 0, and its element has NPUs. -/
theorem switchesFound_iff_zero : SwitchesFound oneTokenEnv (topologyVisit "0") [switchVisit] := by
  refine (switchesFound_iff oneTokenEnv (topologyVisit "0") [switchVisit] (one_config rfl rfl rfl rfl)).mpr ⟨?_, ?_⟩
  · intro _ v hv
    rw [List.mem_singleton.mp hv]
    exact ⟨0, rfl, "0".toList, "0".toList, rfl, rfl, by decide⟩
  · intro before v after hsplit _ _ id hid
    have hv : v ∈ [switchVisit] := by rw [hsplit]; simp
    rw [List.mem_singleton.mp hv] at hid
    cases hid
    decide

/-- `<switch id="1" npus="0"/>`. -/
def switchOne : Visit where
  node := .mk "switch".toList [("id", "1".toList), ("npus", "0".toList)] []
  alloc _ := true
  locals := ⟨0, 0⟩

/-- `<switch id="0" cpu_port_id="5"/>`. -/
def switchNoNpus : Visit where
  node := .mk "switch".toList [("id", "0".toList), ("cpu_port_id", "5".toList)] []
  alloc _ := true
  locals := ⟨0, 0⟩

/-- The only listed switch is rejected when its id is 1, and without NPUs it is looked up
    as a blank entry. -/
theorem listed_not_found :
    (SwitchConfig oneTokenEnv (topologyVisit "1") [switchOne] ∧
        ¬ SwitchesFound oneTokenEnv (topologyVisit "1") [switchOne]) ∧
      SwitchConfig oneTokenEnv (topologyVisit "0") [switchNoNpus] ∧
      ¬ SwitchesFound oneTokenEnv (topologyVisit "0") [switchNoNpus] := by
  refine ⟨⟨one_config rfl rfl rfl rfl, fun h => ?_⟩, one_config rfl rfl rfl rfl, fun h => ?_⟩
  · have hwell : WellFormed oneTokenEnv switchOne := ⟨_, _, rfl, rfl, rfl, rfl⟩
    exact absurd (h.accepted [] switchOne [] rfl hwell (by decide)) (by decide)
  · obtain ⟨v, hv, -, d, hparsed, -⟩ := h.found (by decide) 0 (by decide)
    rw [List.mem_singleton.mp hv] at hparsed
    obtain ⟨npus, hnpus, -⟩ := hparsed
    cases hnpus

end NasCommon.Switch
