/-
  NasCommon.Bridge.UntagVid — the untagged VLAN IDs of the 1D bridges
  (`nas_com_bridge_utils.cpp`).

  A map from bridge names to VLAN IDs, and one reserved VLAN ID that is answered for
  every bridge not in it, 0 being none. A name in the map keeps its VLAN ID until it is
  deleted: an addition of it is refused. The calls take a lock each, so any order of
  them is a run.
  - `untag_vid_after`: what a get answers after any run, from the calls alone: the first
    addition behind the last delete, or else the last reserved VLAN ID.
  - `taken_balance`: of one name, the additions taken are the deletes taken, and one
    more where it is there.
-/

import Mathlib.Data.List.AList
import Mathlib.Data.List.Induction
import NasCommon.Lib.Runs
import NasCommon.Types

namespace NasCommon.Bridge

abbrev HalVlanId := UInt16

/-- `bridge_to_vlan_id_map` and `reserved_untagged_vlanid`. -/
structure BridgeVids where
  map : AList fun _ : CString => HalVlanId
  reservedUntaggedVlanid : HalVlanId

/-- As they are when the library is loaded. -/
def BridgeVids.init : BridgeVids := ⟨∅, 0⟩

def interfaceParam : StdError := .err .interface .param (.num 0)

/-! ## The calls -/

/-- `nas_com_get_1d_br_reserved_vid`. -/
def nasComGet1dBrReservedVid (s : BridgeVids) : HalVlanId := s.reservedUntaggedVlanid

/-- `nas_com_get_1d_br_untag_vid`: `vlanId` is what the caller's variable holds. -/
def nasComGet1dBrUntagVid (name : Option CString) (vlanId : HalVlanId) (s : BridgeVids) : StdError × HalVlanId :=
  match name with
  | none => (interfaceParam, vlanId)
  | some brName =>
    match s.map.lookup brName with
    | none =>
      let vlanId := nasComGet1dBrReservedVid s
      if vlanId = 0 then (interfaceParam, vlanId) else (.ok, vlanId)
    | some vid => (.ok, vid)

/-- `nas_com_add_1d_br_untag_vid`. -/
def nasComAdd1dBrUntagVid (name : Option CString) (vlanId : HalVlanId) (s : BridgeVids) : StdError × BridgeVids :=
  match name with
  | none => (interfaceParam, s)
  | some brName =>
    match s.map.lookup brName with
    | none => (.ok, { s with map := s.map.insert brName vlanId })
    | some _ => (interfaceParam, s)

/-- `nas_com_del_1d_br_untag_vid`. -/
def nasComDel1dBrUntagVid (name : Option CString) (s : BridgeVids) : StdError × BridgeVids :=
  match name with
  | none => (interfaceParam, s)
  | some brName =>
    match s.map.lookup brName with
    | none => (interfaceParam, s)
    | some _ => (.ok, { s with map := s.map.erase brName })

/-- `nas_com_set_1d_br_reserved_vid`. -/
def nasComSet1dBrReservedVid (vlanId : HalVlanId) (s : BridgeVids) : StdError × BridgeVids :=
  (.ok, { s with reservedUntaggedVlanid := vlanId })

inductive BridgeCall where
  | get (name : Option CString) (vlanId : HalVlanId)
  | add (name : Option CString) (vlanId : HalVlanId)
  | del (name : Option CString)
  | setReserved (vlanId : HalVlanId)
  deriving DecidableEq

def step (s : BridgeVids) : BridgeCall → StdError × BridgeVids
  | .get name vlanId => ((nasComGet1dBrUntagVid name vlanId s).1, s)
  | .add name vlanId => nasComAdd1dBrUntagVid name vlanId s
  | .del name => nasComDel1dBrUntagVid name s
  | .setReserved vlanId => nasComSet1dBrReservedVid vlanId s

/-! ## One call -/

/-- What a call makes of the VLAN ID of a name: a delete of it takes it away, an addition
    of it stays behind one that is there. -/
def BridgeCall.onVid (name : CString) : BridgeCall → Option HalVlanId → Option HalVlanId
  | .add (some brName) vlanId, vid => if brName = name then vid.or (some vlanId) else vid
  | .del (some brName), vid => if brName = name then none else vid
  | _, vid => vid

theorem step_lookup (s : BridgeVids) (c : BridgeCall) (name : CString) :
    (step s c).2.map.lookup name = c.onVid name (s.map.lookup name) := by
  cases c with
  | get brName vlanId => rfl
  | setReserved vlanId => rfl
  | add brName vlanId =>
    cases brName with
    | none => rfl
    | some brName =>
      simp only [step, nasComAdd1dBrUntagVid, BridgeCall.onVid]
      by_cases he : brName = name
      · subst he
        cases hl : s.map.lookup brName with
        | none => simp
        | some vid => simp [hl]
      · cases hl : s.map.lookup brName with
        | none => simp [AList.lookup_insert_ne (Ne.symm he), he]
        | some vid => simp [he]
  | del brName =>
    cases brName with
    | none => rfl
    | some brName =>
      simp only [step, nasComDel1dBrUntagVid, BridgeCall.onVid]
      by_cases he : brName = name
      · subst he
        cases hl : s.map.lookup brName with
        | none => simp [hl]
        | some vid => simp
      · cases hl : s.map.lookup brName with
        | none => simp [he]
        | some vid => simp [AList.lookup_erase_ne (Ne.symm he), he]

theorem step_reserved (s : BridgeVids) (c : BridgeCall) : (step s c).2.reservedUntaggedVlanid =
    match c with
    | .setReserved vlanId => vlanId
    | _ => s.reservedUntaggedVlanid := by
  cases c with
  | get name vlanId => rfl
  | setReserved vlanId => rfl
  | add name vlanId =>
    cases name with
    | none => rfl
    | some brName => simp only [step, nasComAdd1dBrUntagVid]; cases s.map.lookup brName <;> rfl
  | del name =>
    cases name with
    | none => rfl
    | some brName => simp only [step, nasComDel1dBrUntagVid]; cases s.map.lookup brName <;> rfl

/-! ## What a run leaves -/

/-- The VLAN ID that a call asks to add for the name. -/
def BridgeCall.adds (name : CString) : BridgeCall → Option HalVlanId
  | .add (some brName) vlanId => if brName = name then some vlanId else none
  | _ => none

def BridgeCall.reserves : BridgeCall → Option HalVlanId
  | .setReserved vlanId => some vlanId
  | _ => none

/-- The calls behind the last delete of the name. -/
def sinceDel (name : CString) (calls : List BridgeCall) : List BridgeCall :=
  (calls.reverse.takeWhile fun c => c ≠ .del (some name)).reverse

/-- The first addition behind the last delete. -/
def firstAdd (name : CString) (calls : List BridgeCall) : Option HalVlanId := (sinceDel name calls).findSome? (·.adds name)

/-- The last VLAN ID that was reserved, or 0. -/
def lastReserved (calls : List BridgeCall) : HalVlanId := (calls.reverse.findSome? BridgeCall.reserves).getD 0

theorem sinceDel_snoc (name : CString) (calls : List BridgeCall) (c : BridgeCall) :
    sinceDel name (calls ++ [c]) = if c = .del (some name) then [] else sinceDel name calls ++ [c] := by
  unfold sinceDel
  rw [List.reverse_append, List.reverse_singleton, List.singleton_append]
  by_cases hc : c = .del (some name)
  · rw [List.takeWhile_cons_of_neg (by simpa using hc), if_pos hc]
    rfl
  · rw [List.takeWhile_cons_of_pos (by simpa using hc), if_neg hc, List.reverse_cons]

theorem firstAdd_snoc (name : CString) (calls : List BridgeCall) (c : BridgeCall) :
    firstAdd name (calls ++ [c]) = c.onVid name (firstAdd name calls) := by
  unfold firstAdd
  rw [sinceDel_snoc]
  by_cases hc : c = .del (some name)
  · subst hc
    simp [BridgeCall.onVid]
  · rw [if_neg hc, List.findSome?_append]
    cases c with
    | get brName vlanId => simp [BridgeCall.onVid, BridgeCall.adds]
    | setReserved vlanId => simp [BridgeCall.onVid, BridgeCall.adds]
    | add brName vlanId =>
      cases brName with
      | none => simp [BridgeCall.onVid, BridgeCall.adds]
      | some brName => by_cases he : brName = name <;> simp [BridgeCall.onVid, BridgeCall.adds, he]
    | del brName =>
      cases brName with
      | none => simp [BridgeCall.onVid, BridgeCall.adds]
      | some brName =>
        have he : brName ≠ name := fun he => hc (by rw [he])
        simp [BridgeCall.onVid, BridgeCall.adds, he]

theorem lookup_final (name : CString) (calls : List BridgeCall) :
    (Runs.final step .init calls).map.lookup name = firstAdd name calls := by
  induction calls using List.reverseRecOn with
  | nil => rfl
  | append_singleton calls c ih =>
    rw [Runs.final_append, Runs.final_cons, Runs.final_nil, step_lookup, ih, firstAdd_snoc]

theorem reserved_final (calls : List BridgeCall) :
    (Runs.final step .init calls).reservedUntaggedVlanid = lastReserved calls := by
  induction calls using List.reverseRecOn with
  | nil => rfl
  | append_singleton calls c ih =>
    rw [Runs.final_append, Runs.final_cons, Runs.final_nil, step_reserved, ih]
    unfold lastReserved
    rw [List.reverse_append, List.reverse_singleton, List.singleton_append, List.findSome?_cons]
    cases c <;> rfl

/-- After any run of calls a get answers the first VLAN ID that was added for the bridge
    behind its last delete; for a bridge without one, the last that was reserved, and an
    error where that is 0. -/
theorem untag_vid_after (calls : List BridgeCall) (name : CString) (vlanId : HalVlanId) :
    nasComGet1dBrUntagVid (some name) vlanId (Runs.final step .init calls) =
      match firstAdd name calls with
      | some vid => (.ok, vid)
      | none => if lastReserved calls = 0 then (interfaceParam, 0) else (.ok, lastReserved calls) := by
  simp only [nasComGet1dBrUntagVid, nasComGet1dBrReservedVid, lookup_final, reserved_final]
  cases firstAdd name calls with
  | some vid => rfl
  | none =>
    by_cases h : lastReserved calls = 0
    · simp [h]
    · simp [h]

/-- The reserved VLAN ID is answered again once the bridge's own is deleted. -/
example : nasComGet1dBrUntagVid (some ['b']) 0 (Runs.final step .init
    [.setReserved 4000, .add (some ['b']) 10, .add (some ['b']) 20, .del (some ['b'])]) = (.ok, 4000) := by
  decide

/-! ## Additions and deletes -/

/-- Additions of the name that were taken. -/
def takenAdds (name : CString) (s : BridgeVids) (calls : List BridgeCall) : Nat :=
  (calls.zip (Runs.answers step s calls)).countP fun p => (p.1.adds name).isSome && p.2 = .ok

/-- Deletes of it that were. -/
def takenDels (name : CString) (s : BridgeVids) (calls : List BridgeCall) : Nat :=
  (calls.zip (Runs.answers step s calls)).countP fun p => p.1 = .del (some name) && p.2 = .ok

def there (vid : Option HalVlanId) : Nat := if vid.isSome then 1 else 0

/-- One call: an addition that is taken finds no VLAN ID, a delete that is taken does. -/
theorem step_balance (s : BridgeVids) (c : BridgeCall) (name : CString) :
    there (s.map.lookup name) + (if (c.adds name).isSome && (step s c).1 = .ok then 1 else 0) =
      there ((step s c).2.map.lookup name) + (if c = .del (some name) && (step s c).1 = .ok then 1 else 0) := by
  rw [step_lookup]
  cases c with
  | get brName vlanId => simp [BridgeCall.adds, BridgeCall.onVid]
  | setReserved vlanId => simp [BridgeCall.adds, BridgeCall.onVid]
  | add brName vlanId =>
    cases brName with
    | none => simp [BridgeCall.adds, BridgeCall.onVid]
    | some brName =>
      by_cases he : brName = name
      · subst he
        cases hl : s.map.lookup brName <;>
          simp [BridgeCall.adds, BridgeCall.onVid, there, step, nasComAdd1dBrUntagVid, hl, interfaceParam]
      · simp [BridgeCall.adds, BridgeCall.onVid, he]
  | del brName =>
    cases brName with
    | none => simp [BridgeCall.adds, BridgeCall.onVid]
    | some brName =>
      by_cases he : brName = name
      · subst he
        cases hl : s.map.lookup brName <;>
          simp [BridgeCall.adds, BridgeCall.onVid, there, step, nasComDel1dBrUntagVid, hl, interfaceParam]
      · simp [BridgeCall.adds, BridgeCall.onVid, he]

theorem run_balance (name : CString) (calls : List BridgeCall) : ∀ s : BridgeVids,
    there (s.map.lookup name) + takenAdds name s calls =
      there ((Runs.final step s calls).map.lookup name) + takenDels name s calls := by
  induction calls with
  | nil => intro s; rfl
  | cons c calls ih =>
    intro s
    have hstep := step_balance s c name
    have hrest := ih (step s c).2
    simp only [takenAdds, takenDels, Runs.answers, List.zip_cons_cons, List.countP_cons, Runs.final_cons] at hrest ⊢
    omega

/-- In every run, of a bridge's additions and deletes as many are taken, and one addition
    more where it has a VLAN ID at the end: they take turns. -/
theorem taken_balance (calls : List BridgeCall) (name : CString) :
    takenAdds name .init calls = takenDels name .init calls + there (firstAdd name calls) := by
  have h := run_balance name calls .init
  rw [lookup_final] at h
  have h0 : there (BridgeVids.init.map.lookup name) = 0 := rfl
  omega

end NasCommon.Bridge
