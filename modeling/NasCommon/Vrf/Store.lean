/-
  NasCommon.Vrf.Store — the VRFs by name (`nas_vrf_utils.cpp`).

  The hash map's keys are C strings, hashed and compared by their characters, so it is
  a finite map; the order in which it is iterated is its own affair (`Iteration`). An
  insertion leaves a name that is there as it is, an update of a name that is not does
  nothing, and `nas_update_vrf_info` drops what either returns.
  - `tookEffect_iff`: a call that returns STD_ERR_OK took effect exactly when it is due
    to: an ADD finds its name absent and memory for the key, or the name there with the
    same IDs; an UPD with an ID finds its name.
  - `all_tookEffect_iff`: the same over a run.
-/

import Mathlib.Data.List.AList
import NasCommon.Lib.Runs
import NasCommon.Types

namespace NasCommon.Vrf

def nasVrfNameSz : Nat := 32

/-- `char vrf_name[NAS_VRF_NAME_SZ+1]`. -/
structure VrfName where
  name : CString
  fits : name.length ≤ nasVrfNameSz
  deriving DecidableEq

abbrev HalVrfId := UInt32
abbrev NasObjId := UInt64

/-- `nas_vrf_ctrl_t`. -/
structure NasVrfCtrl where
  vrfName : VrfName
  vrfIntId : HalVrfId
  vrfId : NasObjId
  deriving DecidableEq

/-- `vrf_map`. -/
abbrev VrfMap := AList fun _ : CString => NasVrfCtrl

/-! ## The calls -/

inductive NasVrfOp where
  | add
  | del
  | upd
  deriving DecidableEq, Repr

/-- `keyMem` and `recMem` say whether `malloc` and `new` find memory. -/
structure VrfCall where
  op : NasVrfOp
  p : NasVrfCtrl
  keyMem : Bool
  recMem : Bool

/-- What a call comes to: it returns, or `new` throws. -/
inductive VrfOutcome where
  | ret (rc : StdError)
  | badAlloc
  deriving DecidableEq, Repr

def locate (s : VrfMap) (vrfName : CString) : Option NasVrfCtrl := s.lookup vrfName

/-- `_add`: `none` when `new` throws. -/
def add (rec : NasVrfCtrl) (keyMem recMem : Bool) (s : VrfMap) : Option Bool × VrfMap :=
  if ¬ keyMem then (some false, s)
  else if ¬ recMem then (none, s)
  else (some true, if rec.vrfName.name ∈ s then s else s.insert rec.vrfName.name rec)

/-- `_update`. -/
def update (rec : NasVrfCtrl) (s : VrfMap) : Bool × VrfMap :=
  match locate s rec.vrfName.name with
  | none => (false, s)
  | some _p =>
    (true, if rec.vrfIntId ≠ 0 then s.insert rec.vrfName.name { _p with vrfIntId := rec.vrfIntId } else s)

/-- `_cleanup`. -/
def cleanup (rec : NasVrfCtrl) (s : VrfMap) : VrfMap :=
  match locate s rec.vrfName.name with
  | none => s
  | some _ => s.erase rec.vrfName.name

/-- `nas_update_vrf_info`. -/
def nasUpdateVrfInfo (s : VrfMap) (c : VrfCall) : VrfOutcome × VrfMap :=
  match c.op with
  | .add =>
    match add c.p c.keyMem c.recMem s with
    | (none, s) => (.badAlloc, s)
    | (some _, s) => (.ret .ok, s)
  | .upd => (.ret .ok, (update c.p s).2)
  | .del => (.ret .ok, cleanup c.p s)

def comParam : StdError := .err .com .param (.num 0)

/-- A getter that puts `f` of the record it finds over `out`. -/
def getVrf {α : Type} (f : NasVrfCtrl → α) (s : VrfMap) (vrfName : CString) (out : α) : StdError × α :=
  match locate s vrfName with
  | none => (comParam, out)
  | some _p => (.ok, f _p)

def nasGetVrfObjIdFromVrfName : VrfMap → CString → NasObjId → StdError × NasObjId := getVrf NasVrfCtrl.vrfId

def nasGetVrfInternalIdFromVrfName : VrfMap → CString → HalVrfId → StdError × HalVrfId := getVrf NasVrfCtrl.vrfIntId

def nasGetVrfCtrlFromVrfName : VrfMap → CString → NasVrfCtrl → StdError × NasVrfCtrl := getVrf id

/-- The order in which a map is iterated. -/
structure Iteration where
  order : VrfMap → List NasVrfCtrl
  perm : ∀ s, (order s).Perm (s.entries.map Sigma.snd)

def nasGetAllVrfCtrl (it : Iteration) (s : VrfMap) (v : List NasVrfCtrl) : List NasVrfCtrl := v ++ it.order s

/-! ## Taking effect -/

/-- The three getters find a record with the IDs of `p`. -/
structure Finds (s : VrfMap) (vrfName : CString) (p : NasVrfCtrl) : Prop where
  objId : ∀ out, nasGetVrfObjIdFromVrfName s vrfName out = (.ok, p.vrfId)
  internalId : ∀ out, nasGetVrfInternalIdFromVrfName s vrfName out = (.ok, p.vrfIntId)
  ctrl : ∀ out, ∃ r, nasGetVrfCtrlFromVrfName s vrfName out = (.ok, r) ∧ r.vrfId = p.vrfId ∧ r.vrfIntId = p.vrfIntId

/-- The three getters fail. -/
structure Fails (s : VrfMap) (vrfName : CString) : Prop where
  objId : ∀ out, nasGetVrfObjIdFromVrfName s vrfName out = (comParam, out)
  internalId : ∀ out, nasGetVrfInternalIdFromVrfName s vrfName out = (comParam, out)
  ctrl : ∀ out, nasGetVrfCtrlFromVrfName s vrfName out = (comParam, out)

/-- The answers for every other name, and the list of the other entries, as before. -/
structure OthersKept (it : Iteration) (s s' : VrfMap) (vrfName : CString) : Prop where
  objId : ∀ other, other ≠ vrfName → nasGetVrfObjIdFromVrfName s' other = nasGetVrfObjIdFromVrfName s other
  internalId : ∀ other, other ≠ vrfName → nasGetVrfInternalIdFromVrfName s' other = nasGetVrfInternalIdFromVrfName s other
  ctrl : ∀ other, other ≠ vrfName → nasGetVrfCtrlFromVrfName s' other = nasGetVrfCtrlFromVrfName s other
  all : ((nasGetAllVrfCtrl it s' []).filter fun r => r.vrfName.name ≠ vrfName).Perm
    ((nasGetAllVrfCtrl it s []).filter fun r => r.vrfName.name ≠ vrfName)

/-- What STD_ERR_OK promises. -/
def TookEffect (it : Iteration) (s : VrfMap) (c : VrfCall) : Prop :=
  (nasUpdateVrfInfo s c).1 = .ret .ok →
    let s' := (nasUpdateVrfInfo s c).2
    (c.op = .add → Finds s' c.p.vrfName.name c.p) ∧
    (c.op = .upd → c.p.vrfIntId ≠ 0 →
      ∀ out, nasGetVrfInternalIdFromVrfName s' c.p.vrfName.name out = (.ok, c.p.vrfIntId)) ∧
    (c.op = .del → c.p.vrfName.name ∈ s → Fails s' c.p.vrfName.name) ∧
    OthersKept it s s' c.p.vrfName.name

/-- A record under the name has the IDs of `p`. -/
def HasIds (s : VrfMap) (p : NasVrfCtrl) : Prop :=
  ∃ r, s.lookup p.vrfName.name = some r ∧ r.vrfId = p.vrfId ∧ r.vrfIntId = p.vrfIntId

/-- A call that is due to take effect if it returns STD_ERR_OK. -/
def EffectDue (s : VrfMap) (c : VrfCall) : Prop :=
  match c.op with
  | .add => (c.keyMem = true ∧ (c.recMem = false ∨ c.p.vrfName.name ∉ s)) ∨ HasIds s c.p
  | .upd => c.p.vrfIntId ≠ 0 → c.p.vrfName.name ∈ s
  | .del => True

/-! ## The getters and the map -/

theorem finds_iff {s : VrfMap} {p : NasVrfCtrl} : Finds s p.vrfName.name p ↔ HasIds s p := by
  constructor
  · intro h
    have hobj := h.objId p.vrfId
    have hint := h.internalId p.vrfIntId
    cases hl : s.lookup p.vrfName.name with
    | none => simp [nasGetVrfObjIdFromVrfName, getVrf, locate, hl, comParam] at hobj
    | some r =>
      refine ⟨r, hl, ?_, ?_⟩
      · simpa [nasGetVrfObjIdFromVrfName, getVrf, locate, hl] using hobj
      · simpa [nasGetVrfInternalIdFromVrfName, getVrf, locate, hl] using hint
  · intro h
    obtain ⟨r, hl, h1, h2⟩ := h
    refine ⟨fun out => ?_, fun out => ?_, fun out => ⟨r, ?_, h1, h2⟩⟩
    · simp [nasGetVrfObjIdFromVrfName, getVrf, locate, hl, h1]
    · simp [nasGetVrfInternalIdFromVrfName, getVrf, locate, hl, h2]
    · simp [nasGetVrfCtrlFromVrfName, getVrf, locate, hl]

theorem fails_of_lookup {s : VrfMap} {vrfName : CString} (h : s.lookup vrfName = none) : Fails s vrfName := by
  refine ⟨fun out => ?_, fun out => ?_, fun out => ?_⟩
  · simp [nasGetVrfObjIdFromVrfName, getVrf, locate, h]
  · simp [nasGetVrfInternalIdFromVrfName, getVrf, locate, h]
  · simp [nasGetVrfCtrlFromVrfName, getVrf, locate, h]

theorem internalId_iff {s : VrfMap} {vrfName : CString} {i : HalVrfId} :
    (∀ out, nasGetVrfInternalIdFromVrfName s vrfName out = (.ok, i)) ↔ ∃ r, s.lookup vrfName = some r ∧ r.vrfIntId = i := by
  cases hl : s.lookup vrfName with
  | none => simp [nasGetVrfInternalIdFromVrfName, getVrf, locate, hl, comParam]
  | some r => simp [nasGetVrfInternalIdFromVrfName, getVrf, locate, hl]

/-- A record is kept under its own name. -/
def NamedByKey (s : VrfMap) : Prop := ∀ e ∈ s.entries, e.2.vrfName.name = e.1

/-- What is listed beside a name. -/
theorem others_listed (it : Iteration) {s : VrfMap} (hs : NamedByKey s) (vrfName : CString) :
    ((nasGetAllVrfCtrl it s []).filter fun r => r.vrfName.name ≠ vrfName).Perm
      ((s.entries.filter fun e => e.1 ≠ vrfName).map Sigma.snd) := by
  have hfilter : s.entries.filter (fun e => e.1 ≠ vrfName) = s.entries.filter fun e => e.2.vrfName.name ≠ vrfName :=
    List.filter_congr fun e he => by rw [hs e he]
  rw [hfilter]
  have hperm := (it.perm s).filter fun r => r.vrfName.name ≠ vrfName
  rw [List.filter_map] at hperm
  exact hperm

theorem filter_kerase (k : CString) (l : List (Sigma fun _ : CString => NasVrfCtrl)) :
    (l.kerase k).filter (fun e => e.1 ≠ k) = l.filter fun e => e.1 ≠ k := by
  induction l with
  | nil => rfl
  | cons e l ih =>
    by_cases h : k = e.1
    · rw [List.kerase_cons_eq h]
      simp [← h]
    · rw [List.kerase_cons_ne h, List.filter_cons, List.filter_cons, ih]

/-- Two maps that differ under one name alone. -/
theorem othersKept (it : Iteration) {s s' : VrfMap} (hs : NamedByKey s) (hs' : NamedByKey s') {vrfName : CString}
    (hlookup : ∀ other, other ≠ vrfName → s'.lookup other = s.lookup other)
    (hentries : s'.entries.filter (fun e => e.1 ≠ vrfName) = s.entries.filter fun e => e.1 ≠ vrfName) :
    OthersKept it s s' vrfName := by
  refine ⟨fun other h => ?_, fun other h => ?_, fun other h => ?_, ?_⟩
  · funext out; simp only [nasGetVrfObjIdFromVrfName, getVrf, locate, hlookup other h]
  · funext out; simp only [nasGetVrfInternalIdFromVrfName, getVrf, locate, hlookup other h]
  · funext out; simp only [nasGetVrfCtrlFromVrfName, getVrf, locate, hlookup other h]
  · have h := others_listed it hs' vrfName
    rw [hentries] at h
    exact h.trans (others_listed it hs vrfName).symm

/-! ## Each call -/

/-- A map whose names are its keys, and that differs from `s` under one name alone. -/
structure Kept (it : Iteration) (s s' : VrfMap) (vrfName : CString) : Prop where
  named : NamedByKey s'
  others : OthersKept it s s' vrfName

theorem kept_self (it : Iteration) {s : VrfMap} (hs : NamedByKey s) (vrfName : CString) : Kept it s s vrfName :=
  ⟨hs, othersKept it hs hs (fun _ _ => rfl) rfl⟩

theorem kept_insert (it : Iteration) {s : VrfMap} (hs : NamedByKey s) {r : NasVrfCtrl} {vrfName : CString}
    (hr : r.vrfName.name = vrfName) : Kept it s (s.insert vrfName r) vrfName := by
  have hnamed : NamedByKey (s.insert vrfName r) := by
    intro e he
    rw [AList.entries_insert] at he
    rcases List.mem_cons.mp he with rfl | he
    · exact hr
    · exact hs e ((List.kerase_sublist _ _).mem he)
  refine ⟨hnamed, othersKept it hs hnamed (fun other h => AList.lookup_insert_ne h) ?_⟩
  rw [AList.entries_insert, List.filter_cons, filter_kerase]
  simp

theorem kept_erase (it : Iteration) {s : VrfMap} (hs : NamedByKey s) (vrfName : CString) :
    Kept it s (s.erase vrfName) vrfName := by
  have hnamed : NamedByKey (s.erase vrfName) := fun e he => hs e ((List.kerase_sublist _ _).mem he)
  exact ⟨hnamed, othersKept it hs hnamed (fun other h => AList.lookup_erase_ne h) (filter_kerase _ _)⟩

theorem name_of_lookup {s : VrfMap} (hs : NamedByKey s) {vrfName : CString} {r : NasVrfCtrl}
    (h : s.lookup vrfName = some r) : r.vrfName.name = vrfName :=
  hs ⟨vrfName, r⟩ (AList.mem_lookup_iff.mp h)

/-- No call touches another name. -/
theorem call_kept (it : Iteration) {s : VrfMap} (hs : NamedByKey s) (c : VrfCall) :
    Kept it s (nasUpdateVrfInfo s c).2 c.p.vrfName.name := by
  unfold nasUpdateVrfInfo
  cases c.op with
  | add =>
    unfold add
    cases c.keyMem with
    | false => exact kept_self it hs _
    | true =>
      cases c.recMem with
      | false => exact kept_self it hs _
      | true =>
        by_cases h : c.p.vrfName.name ∈ s
        · simp only [h, if_true]; exact kept_self it hs _
        · simp only [h, if_false]; exact kept_insert it hs rfl
  | upd =>
    show Kept it s (update c.p s).2 _
    unfold update
    cases hl : locate s c.p.vrfName.name with
    | none => exact kept_self it hs _
    | some r =>
      by_cases h : c.p.vrfIntId ≠ 0
      · simp only [if_pos h]; exact kept_insert it hs (name_of_lookup hs (r := r) hl)
      · simp only [if_neg h]; exact kept_self it hs _
  | del =>
    show Kept it s (cleanup c.p s) _
    unfold cleanup
    cases locate s c.p.vrfName.name with
    | none => exact kept_self it hs _
    | some r => exact kept_erase it hs _

/-- What an ADD leaves under its name. -/
theorem add_hasIds_iff {s : VrfMap} {c : VrfCall} (hop : c.op = .add) :
    ((nasUpdateVrfInfo s c).1 = .ret .ok → HasIds (nasUpdateVrfInfo s c).2 c.p) ↔ EffectDue s c := by
  unfold nasUpdateVrfInfo EffectDue add
  rw [hop]
  cases c.keyMem with
  | false => simp
  | true =>
    cases c.recMem with
    | false => simp
    | true =>
      by_cases h : c.p.vrfName.name ∈ s
      · simp [h]
      · simp [h, HasIds, AList.lookup_insert]

/-- What an UPD with an ID leaves. -/
theorem upd_internalId_iff {s : VrfMap} {c : VrfCall} (hop : c.op = .upd) (hid : c.p.vrfIntId ≠ 0) :
    (∃ r, (nasUpdateVrfInfo s c).2.lookup c.p.vrfName.name = some r ∧ r.vrfIntId = c.p.vrfIntId) ↔ EffectDue s c := by
  unfold nasUpdateVrfInfo EffectDue update locate
  rw [hop]
  cases hl : s.lookup c.p.vrfName.name with
  | none => simp [hl, hid, AList.lookup_eq_none.mp hl]
  | some r =>
    have hmem : c.p.vrfName.name ∈ s := AList.lookup_isSome.mp (by rw [hl]; rfl)
    simp [hid, hmem, AList.lookup_insert]

theorem del_fails {s : VrfMap} {c : VrfCall} (hop : c.op = .del) : Fails (nasUpdateVrfInfo s c).2 c.p.vrfName.name := by
  apply fails_of_lookup
  unfold nasUpdateVrfInfo cleanup locate
  rw [hop]
  cases hl : s.lookup c.p.vrfName.name with
  | none => exact hl
  | some r => exact AList.lookup_erase _ _

/-- A call keeps its promise exactly when it is due to. -/
theorem tookEffect_iff (it : Iteration) {s : VrfMap} (hs : NamedByKey s) (c : VrfCall) :
    TookEffect it s c ↔ EffectDue s c := by
  have hkept := (call_kept it hs c).others
  unfold TookEffect
  cases hop : c.op with
  | add =>
    rw [← add_hasIds_iff hop]
    apply imp_congr_right
    intro _
    simp only [true_implies, reduceCtorEq, false_implies, hkept, and_true]
    exact finds_iff
  | upd =>
    have hok : (nasUpdateVrfInfo s c).1 = .ret .ok := by unfold nasUpdateVrfInfo; rw [hop]
    by_cases hid : c.p.vrfIntId ≠ 0
    · rw [← upd_internalId_iff hop hid]
      simp only [hok, true_implies, reduceCtorEq, false_implies, true_and, hkept, and_true]
      exact (imp_iff_right hid).trans internalId_iff
    · simp only [hid, false_implies, implies_true, reduceCtorEq, true_and, hkept, true_iff]
      unfold EffectDue
      rw [hop]
      exact fun h => absurd h hid
  | del =>
    refine iff_of_true (fun _ => ⟨fun h => ?_, fun h => ?_, fun _ _ => del_fails hop, hkept⟩) ?_
    · cases h
    · cases h
    · unfold EffectDue; rw [hop]; trivial

/-- Over any run of calls, from the empty map. -/
theorem all_tookEffect_iff (it : Iteration) (calls : List VrfCall) :
    Runs.Steps nasUpdateVrfInfo (TookEffect it) ∅ calls ↔ Runs.Steps nasUpdateVrfInfo EffectDue ∅ calls := by
  refine Runs.steps_congr (I := NamedByKey) (fun s c hs => (call_kept it hs c).named)
    (fun s c hs => tookEffect_iff it hs c) calls ∅ ?_
  intro e he
  cases he

/-! ## A name added twice -/

def red (vrfIntId : HalVrfId) (vrfId : NasObjId) : NasVrfCtrl := ⟨⟨"red".toList, by decide⟩, vrfIntId, vrfId⟩

def addTwice : List VrfCall := [⟨.add, red 1 10, true, true⟩, ⟨.add, red 2 20, true, true⟩]

def entryOrder : Iteration := ⟨fun s => s.entries.map Sigma.snd, fun _ => List.Perm.refl _⟩

/-- The second ADD returns STD_ERR_OK, and its name still has the IDs of the first. -/
theorem second_add_dropped : ¬ Runs.Steps nasUpdateVrfInfo (TookEffect entryOrder) ∅ addTwice ∧
    Runs.answers nasUpdateVrfInfo ∅ addTwice = [.ret .ok, .ret .ok] ∧
    nasGetVrfObjIdFromVrfName (Runs.final nasUpdateVrfInfo ∅ addTwice) "red".toList 0 = (.ok, 10) := by
  refine ⟨fun h => ?_, by decide, by decide⟩
  have hfinds := (h.2.1 (by decide)).1 rfl
  exact absurd (hfinds.objId 0) (by decide)

end NasCommon.Vrf
