/-
  NasCommon.Base.RollingBack — the three operations while a transaction is rolled back
  (`rolling_back` true).

  A push that throws is logged and the loop goes on; nothing is tracked, so nothing is
  undone. So each operation makes all its pushes, whatever they come to.
  - `Attempts`: what a loop over a list of pushes does.
  - `rolling_back_completes`: create, delete and modify throw nothing, make each push
    they owe once and no other, and leave each NPU with the effect of those of its
    pushes that returned true.
-/

import NasCommon.Base.Atomic

namespace NasCommon.Base

open UndoLog (replay)

variable {V : Type} {env : Env V}

/-! ## Pushes and their effect -/

/-- What a push of an object does where it returns true. -/
def callEffect (obj : BaseObj V) : Callback → Hw V → Hw V
  | .pushCreateObjToNpu _ npuId => createOn npuId obj.allocFillNdiObj
  | .pushDeleteObjToNpu _ npuId => deleteOn npuId
  | .pushLeafAttrToNpu _ attrId npuId => setOn attrId npuId (obj.value attrId)
  | _ => id

/-- The NPU of a push. -/
def Callback.on : Callback → Option NpuId
  | .pushCreateObjToNpu _ npuId => some npuId
  | .pushDeleteObjToNpu _ npuId => some npuId
  | .pushLeafAttrToNpu _ _ npuId => some npuId
  | _ => none

/-- The pushes that return true, the first being the `k`-th callback run. -/
def returnedTrue (env : Env V) : Nat → List Callback → List Callback
  | _, [] => []
  | k, c :: calls =>
    if env.outcome k = .pushed then c :: returnedTrue env (k + 1) calls else returnedTrue env (k + 1) calls

theorem returnedTrue_append (a b : List Callback) : ∀ k,
    returnedTrue env k (a ++ b) = returnedTrue env k a ++ returnedTrue env (k + a.length) b := by
  induction a with
  | nil => intro k; rfl
  | cons c a ih =>
    intro k
    have hk : k + (c :: a).length = k + 1 + a.length := by rw [List.length_cons]; omega
    rw [List.cons_append, returnedTrue, returnedTrue, ih, hk]
    split <;> rfl

theorem callEffect_other (obj : BaseObj V) {c : Callback} {n : NpuId} (h : c.on ≠ some n) (hw : Hw V) :
    callEffect obj c hw n = hw n := by
  cases c with
  | pushCreateObjToNpu o m => exact Function.update_of_ne (fun e => h (congrArg some e.symm)) _ _
  | pushDeleteObjToNpu o m => exact Function.update_of_ne (fun e => h (congrArg some e.symm)) _ _
  | pushLeafAttrToNpu o a m => exact Function.update_of_ne (fun e => h (congrArg some e.symm)) _ _
  | pushNonLeafAttrNdi => rfl
  | rollbackNonLeafAttrInNpu => rfl
  | rollbackCreateAttrInNpu => rfl
  | rollbackDeleteAttrInNpu => rfl

/-- A push reads its own NPU alone. -/
theorem callEffect_congr (obj : BaseObj V) (c : Callback) {n : NpuId} {hw hw' : Hw V} (h : hw n = hw' n) :
    callEffect obj c hw n = callEffect obj c hw' n := by
  by_cases hon : c.on = some n
  · cases c with
    | pushCreateObjToNpu o m => cases hon; simp [callEffect, createOn]
    | pushDeleteObjToNpu o m => cases hon; simp [callEffect, deleteOn]
    | pushLeafAttrToNpu o a m => cases hon; simp [callEffect, setOn, h]
    | pushNonLeafAttrNdi => exact h
    | rollbackNonLeafAttrInNpu => exact h
    | rollbackCreateAttrInNpu => exact h
    | rollbackDeleteAttrInNpu => exact h
  · rw [callEffect_other obj hon, callEffect_other obj hon, h]

/-- What pushes leave on an NPU is what those to it leave. -/
theorem replay_on (obj : BaseObj V) (n : NpuId) (calls : List Callback) : ∀ {hw hw' : Hw V}, hw n = hw' n →
    replay (callEffect obj) calls hw n = replay (callEffect obj) (calls.filter fun c => c.on = some n) hw' n := by
  induction calls with
  | nil => intro hw hw' h; exact h
  | cons c calls ih =>
    intro hw hw' h
    rw [UndoLog.replay_cons]
    by_cases hon : c.on = some n
    · rw [List.filter_cons_of_pos (by simpa using hon), UndoLog.replay_cons]
      exact ih (callEffect_congr obj c h)
    · rw [List.filter_cons_of_neg (by simpa using hon)]
      exact ih ((callEffect_other obj hon hw).trans h)

/-! ## The loops -/

/-- All the pushes are made, and those that return true take effect. -/
structure Attempts (env : Env V) (obj : BaseObj V) (pushes : List Callback) (s : St V)
    (r : Option BaseException × St V) : Prop where
  throws : r.1 = none
  calls : r.2.calls = s.calls ++ pushes
  hw : r.2.hw = replay (callEffect obj) (returnedTrue env s.calls.length pushes) s.hw

theorem Attempts.nil (obj : BaseObj V) (s : St V) : Attempts env obj [] s (none, s) :=
  ⟨rfl, (List.append_nil _).symm, rfl⟩

theorem Attempts.andThen {obj : BaseObj V} {p q : List Callback} {s : St V} {r : Option BaseException × St V}
    {f : St V → Option BaseException × St V} (h : Attempts env obj p s r) (hf : ∀ t, Attempts env obj q t (f t)) :
    Attempts env obj (p ++ q) s (andThen r f) := by
  obtain ⟨e, t⟩ := r
  obtain ⟨hthrows, hcalls, hhw⟩ := h
  cases hthrows
  obtain ⟨hthrows', hcalls', hhw'⟩ := hf t
  dsimp only at hcalls hhw
  refine ⟨hthrows', ?_, ?_⟩
  · show (f t).2.calls = _
    rw [hcalls', hcalls, List.append_assoc]
  · show (f t).2.hw = _
    rw [hhw', hhw, hcalls, returnedTrue_append, UndoLog.replay_append, List.length_append]

/-- One push. -/
theorem push_attempts (env : Env V) (obj : BaseObj V) (c : Callback) (s : St V) :
    Attempts env obj [c] s (none, (push env c (callEffect obj c) s).2) := by
  refine ⟨rfl, rfl, ?_⟩
  show (if env.outcome s.calls.length = .pushed then callEffect obj c s.hw else s.hw) = _
  unfold returnedTrue returnedTrue
  split <;> rfl

/-- The push loop goes on past every outcome. -/
theorem pushEach_attempts {obj : BaseObj V} {c : NpuId → Callback} {elem : NpuId → RollbkElem} (npus : List NpuId) :
    ∀ s, Attempts env obj (npus.map c) s
      (pushEach (fun n => push env (c n) (callEffect obj (c n))) elem true npus s) := by
  induction npus with
  | nil => exact Attempts.nil obj
  | cons n npus ih =>
    intro s
    have h := (push_attempts env obj (c n) s).andThen ih
    have hstep : pushEach (fun n => push env (c n) (callEffect obj (c n))) elem true (n :: npus) s =
        pushEach (fun n => push env (c n) (callEffect obj (c n))) elem true npus
          (push env (c n) (callEffect obj (c n)) s).2 := by
      rw [pushEach]
      cases hout : env.outcome s.calls.length <;> simp [push, hout]
    rw [hstep]
    exact h

def createPushes (npus : NpuSet) : List Callback := npus.elems.map (.pushCreateObjToNpu .objNew)
def deletePushes (npus : NpuSet) : List Callback := npus.elems.map (.pushDeleteObjToNpu .objOld)
def leafPushes (attrs : List AttrId) (npus : NpuSet) : List Callback :=
  attrs.flatMap fun attrId => npus.elems.map (.pushLeafAttrToNpu .objNew attrId)

/-- The pushes of `base_modify_obj_ndi`. -/
def modifyPushes (objNew objOld : BaseObj V) : List Callback :=
  let npus := compare objNew.npuList objOld.npuList
  createPushes npus.onlyMine ++ (deletePushes npus.onlySecond ++
    leafPushes objNew.dirtyAttributes.attributes.elems npus.inBoth)

theorem create_attempts (objNew : BaseObj V) (npus : NpuSet) (s : St V) :
    Attempts env objNew (createPushes npus) s (createObjNpulistNdi env objNew npus true s) :=
  pushEach_attempts npus.elems s

theorem delete_attempts (obj : BaseObj V) (npus : NpuSet) (s : St V) :
    Attempts env obj (deletePushes npus) s (deleteObjNpulistNdi env npus true s) :=
  pushEach_attempts npus.elems s

theorem modify_attempts {objNew : BaseObj V} (npus : NpuSet) :
    ∀ (attrs : List AttrId), (∀ a ∈ attrs, objNew.isLeafAttr a = true) →
      ∀ s, Attempts env objNew (leafPushes attrs npus) s (modifyAttrs env objNew npus true attrs s) := by
  intro attrs
  induction attrs with
  | nil => intro _ s; exact Attempts.nil objNew s
  | cons a attrs ih =>
    intro hl s
    have hleaf := hl a List.mem_cons_self
    have hone : Attempts env objNew (npus.elems.map (.pushLeafAttrToNpu .objNew a)) s
        (modifyAttr env objNew npus true a s) := by
      simp only [modifyAttr, hleaf, if_true]
      exact pushEach_attempts npus.elems s
    exact hone.andThen (ih fun b hb => hl b (List.mem_cons_of_mem _ hb))

theorem modifyTry_attempts {objNew : BaseObj V} (objOld : BaseObj V) (hl : LeafOnly objNew) (s : St V) :
    Attempts env objNew (modifyPushes objNew objOld) s (modifyTry env objNew objOld true s) :=
  (create_attempts objNew _ s).andThen fun s =>
    (delete_attempts objNew _ s).andThen fun s => modify_attempts _ _ hl s

/-! ## The pushes an operation owes -/

/-- What a modify owes each NPU. -/
inductive Owed (objNew objOld : BaseObj V) : Callback → Prop
  | create {n : NpuId} (hnew : n ∈ objNew.npuList) (hold : n ∉ objOld.npuList) :
      Owed objNew objOld (.pushCreateObjToNpu .objNew n)
  | delete {n : NpuId} (hold : n ∈ objOld.npuList) (hnew : n ∉ objNew.npuList) :
      Owed objNew objOld (.pushDeleteObjToNpu .objOld n)
  | leaf {a : AttrId} {n : NpuId} (ha : a ∈ objNew.dirtyAttributes.attributes) (hnew : n ∈ objNew.npuList)
      (hold : n ∈ objOld.npuList) : Owed objNew objOld (.pushLeafAttrToNpu .objNew a n)

theorem mem_modifyPushes (objNew objOld : BaseObj V) (c : Callback) :
    c ∈ modifyPushes objNew objOld ↔ Owed objNew objOld c := by
  have hp := compare_partition objNew.npuList objOld.npuList
  simp only [modifyPushes, createPushes, deletePushes, leafPushes, List.mem_append, List.mem_map, List.mem_flatMap,
    ← OrdSet.mem_def]
  constructor
  · intro h
    rcases h with ⟨n, hn, rfl⟩ | ⟨n, hn, rfl⟩ | ⟨a, ha, n, hn, rfl⟩
    · exact .create ((hp n).1.mp hn).1 ((hp n).1.mp hn).2
    · exact .delete ((hp n).2.1.mp hn).1 ((hp n).2.1.mp hn).2
    · exact .leaf ha ((hp n).2.2.mp hn).1 ((hp n).2.2.mp hn).2
  · intro h
    cases h with
    | create hnew hold => exact Or.inl ⟨_, (hp _).1.mpr ⟨hnew, hold⟩, rfl⟩
    | delete hold hnew => exact Or.inr (Or.inl ⟨_, (hp _).2.1.mpr ⟨hold, hnew⟩, rfl⟩)
    | leaf ha hnew hold => exact Or.inr (Or.inr ⟨_, ha, _, (hp _).2.2.mpr ⟨hnew, hold⟩, rfl⟩)

theorem createPushes_nodup (npus : NpuSet) : (createPushes npus).Nodup :=
  npus.nodup.map fun _ _ h => by cases h; rfl

theorem deletePushes_nodup (npus : NpuSet) : (deletePushes npus).Nodup :=
  npus.nodup.map fun _ _ h => by cases h; rfl

theorem modifyPushes_nodup (objNew objOld : BaseObj V) : (modifyPushes objNew objOld).Nodup := by
  have hleaf :
      (leafPushes objNew.dirtyAttributes.attributes.elems (compare objNew.npuList objOld.npuList).inBoth).Nodup := by
    refine List.nodup_flatMap.mpr ⟨fun a _ => (OrdSet.nodup _).map fun _ _ h => by cases h; rfl, ?_⟩
    refine objNew.dirtyAttributes.attributes.nodup.imp fun {x y} hxy => ?_
    intro c hx hy
    obtain ⟨n, -, rfl⟩ := List.mem_map.mp hx
    obtain ⟨m, -, h⟩ := List.mem_map.mp hy
    cases h
    exact hxy rfl
  refine List.nodup_append'.mpr ⟨createPushes_nodup _, List.nodup_append'.mpr ⟨deletePushes_nodup _, hleaf, ?_⟩, ?_⟩
  · intro c hd hl
    obtain ⟨n, -, rfl⟩ := List.mem_map.mp hd
    obtain ⟨a, -, h⟩ := List.mem_flatMap.mp hl
    obtain ⟨m, -, h⟩ := List.mem_map.mp h
    cases h
  · intro c hc h
    obtain ⟨n, -, rfl⟩ := List.mem_map.mp hc
    rcases List.mem_append.mp h with h | h
    · obtain ⟨m, -, h⟩ := List.mem_map.mp h
      cases h
    · obtain ⟨a, -, h⟩ := List.mem_flatMap.mp h
      obtain ⟨m, -, h⟩ := List.mem_map.mp h
      cases h

/-! ## The three operations -/

/-- An operation throws nothing, makes each push it owes once and no other, and leaves
    each NPU with the effect of those of its pushes that returned true. -/
structure NeverStops (env : Env V) (obj : BaseObj V) (owed : Callback → Prop) (s : St V) (r : Option Fault × St V) :
    Prop where
  throws : r.1 = none
  pushes : ∃ pushes, r.2.calls = s.calls ++ pushes ∧ pushes.Nodup ∧ (∀ c, c ∈ pushes ↔ owed c) ∧
    ∀ n, r.2.hw n =
      replay (callEffect obj) ((returnedTrue env s.calls.length pushes).filter fun c => c.on = some n) s.hw n

theorem Attempts.neverStops {obj : BaseObj V} {pushes : List Callback} {owed : Callback → Prop} {s : St V}
    {r : Option BaseException × St V} (h : Attempts env obj pushes { s with rTrakr := [] } r) (hnodup : pushes.Nodup)
    (howed : ∀ c, c ∈ pushes ↔ owed c) (rollback : St V → Option Fault × St V) :
    NeverStops env obj owed s (rollbackAndThrow rollback r) := by
  obtain ⟨e, t⟩ := r
  obtain ⟨hthrows, hcalls, hhw⟩ := h
  cases hthrows
  refine ⟨rfl, pushes, hcalls, hnodup, howed, fun n => ?_⟩
  show t.hw n = _
  rw [hhw]
  exact replay_on obj n _ rfl

/-- While a transaction is rolled back, for any objects with leaf attributes and any
    outcomes of the pushes. -/
theorem rolling_back_completes (env : Env V) (objNew objOld : BaseObj V) (hl : LeafOnly objNew) (s : St V) :
    NeverStops env objNew (fun c => ∃ n ∈ objNew.npuList, c = .pushCreateObjToNpu .objNew n) s
      ((baseCreateObjNdi env objNew true s).1, (baseCreateObjNdi env objNew true s).2.2) ∧
    NeverStops env objOld (fun c => ∃ n ∈ objOld.npuList, c = .pushDeleteObjToNpu .objOld n) s
      (baseDeleteObjNdi env objOld true s) ∧
    NeverStops env objNew (Owed objNew objOld) s (baseModifyObjNdi env objNew objOld true s) := by
  refine ⟨?_, ?_, ?_⟩
  · refine (create_attempts objNew objNew.npuList _).neverStops (createPushes_nodup _) (fun c => ?_) _
    simp [createPushes, OrdSet.mem_def, eq_comm]
  · refine (delete_attempts objOld objOld.npuList _).neverStops (deletePushes_nodup _) (fun c => ?_) _
    simp [deletePushes, OrdSet.mem_def, eq_comm]
  · exact (modifyTry_attempts objOld hl _).neverStops (modifyPushes_nodup objNew objOld) (mem_modifyPushes objNew objOld) _

/-- The delete from NPU 1 throws; NPU 3 is created and NPU 2 set all the same. -/
theorem rolling_back_completes_fails :
    NeverStops (failsAt 1) objOn23 (Owed objOn23 objOn12) ⟨hwOn12, [], []⟩
      (baseModifyObjNdi (failsAt 1) objOn23 objOn12 true ⟨hwOn12, [], []⟩) :=
  (rolling_back_completes (failsAt 1) objOn23 objOn12 (fun _ _ => rfl) ⟨hwOn12, [], []⟩).2.2

end NasCommon.Base
