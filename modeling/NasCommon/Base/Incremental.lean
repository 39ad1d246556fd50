/-
  NasCommon.Base.Incremental — `commit_modify` ends in the hardware that deleting the
  old object and creating the new one ends in.

  When every push takes effect, an operation replays its whole plan (`Completes`). What
  a plan does to one NPU depends only on which of its three parts the NPU is in
  (`replay_createPlan`, `replay_deletePlan`, `replay_modifyPlan`), and `compare` puts it
  in the part that its membership in the two objects' sets says.
  - `modify_eq_delete_create`: the two end in the same hardware.
-/

import NasCommon.Base.Atomic

namespace NasCommon.Base

open UndoLog (replay)

variable {V : Type} {env : Env V}

/-! ## What a plan does to one NPU -/

theorem replay_createPlan (objNew : BaseObj V) (l : List NpuId) (hw : Hw V) (n : NpuId) :
    replay (effect objNew) (createPlan l) hw n = if n ∈ l then some objNew.value else hw n := by
  induction l generalizing hw with
  | nil => rfl
  | cons m l ih =>
    refine (ih _).trans ?_
    by_cases hl : n ∈ l
    · simp [hl]
    · by_cases e : n = m
      · subst e
        simp [hl, createElem, effect, createOn, BaseObj.allocFillNdiObj]
      · simp [hl, e, createElem, effect, createOn]

theorem replay_deletePlan (objNew : BaseObj V) (l : List NpuId) (hw : Hw V) (n : NpuId) :
    replay (effect objNew) (deletePlan l) hw n = if n ∈ l then none else hw n := by
  induction l generalizing hw with
  | nil => rfl
  | cons m l ih =>
    refine (ih _).trans ?_
    by_cases hl : n ∈ l
    · simp [hl]
    · by_cases e : n = m
      · subst e
        simp [hl, deleteElem, effect, deleteOn]
      · simp [hl, e, deleteElem, effect, deleteOn]

/-- One attribute, on each NPU. -/
theorem replay_modifyElems (objNew : BaseObj V) (attrId : AttrId) (l : List NpuId) (hw : Hw V) (n : NpuId) :
    replay (effect objNew) (l.map (modifyElem attrId)) hw n =
      if n ∈ l then (hw n).map fun im => Function.update im attrId (objNew.value attrId) else hw n := by
  induction l generalizing hw with
  | nil => rfl
  | cons m l ih =>
    refine (ih _).trans ?_
    by_cases e : n = m
    · subst e
      by_cases hl : n ∈ l <;> simp [hl, modifyElem, effect, setOn, Function.comp_def]
    · simp [e, modifyElem, effect, setOn]

theorem replay_modifyPlan (objNew : BaseObj V) (attrs : List AttrId) (l : List NpuId) (hw : Hw V) (n : NpuId) :
    replay (effect objNew) (modifyPlan attrs l) hw n =
      if n ∈ l then (hw n).map fun im attrId => if attrId ∈ attrs then objNew.value attrId else im attrId
      else hw n := by
  induction attrs generalizing hw with
  | nil =>
    have hid : (fun im : Image V => fun attrId => im attrId) = id := rfl
    by_cases hl : n ∈ l <;> simp [modifyPlan, hl, hid]
  | cons a attrs ih =>
    have happ : modifyPlan (a :: attrs) l = l.map (modifyElem a) ++ modifyPlan attrs l := rfl
    rw [happ, UndoLog.replay_append, ih, replay_modifyElems]
    by_cases hl : n ∈ l
    · cases hn : hw n with
      | none => simp [hl]
      | some im =>
        simp only [hl, if_true, Option.map_some, Option.some.injEq]
        funext b
        by_cases hb : b ∈ attrs
        · simp [hb]
        · by_cases e : b = a
          · subst e; simp [hb]
          · simp [hb, e]
    · simp [hl]

/-! ## When every push takes effect -/

/-- Every callback from here on takes effect. -/
def AllPushed (env : Env V) (s : St V) : Prop := ∀ k, s.calls.length ≤ k → env.outcome k = .pushed

structure Completes (objNew : BaseObj V) (plan : List RollbkElem) (s : St V) (r : Option BaseException × St V) : Prop where
  ok : r.1 = none
  hw : r.2.hw = replay (effect objNew) plan s.hw
  grows : s.calls.length ≤ r.2.calls.length

theorem AllPushed.later {s t : St V} (h : AllPushed env s) (hle : s.calls.length ≤ t.calls.length) : AllPushed env t :=
  fun k hk => h k (hle.trans hk)

theorem Completes.andThen {objNew : BaseObj V} {p q : List RollbkElem} {s : St V} {r : Option BaseException × St V}
    {f : St V → Option BaseException × St V} (hs : AllPushed env s) (h : Completes objNew p s r)
    (hf : ∀ t, AllPushed env t → Completes objNew q t (f t)) : Completes objNew (p ++ q) s (andThen r f) := by
  obtain ⟨x, t⟩ := r
  obtain ⟨rfl, hhw, hg⟩ := h
  have h2 := hf t (hs.later hg)
  refine ⟨h2.ok, ?_, hg.trans h2.grows⟩
  show (f t).2.hw = _
  rw [h2.hw, UndoLog.replay_append]
  exact congrArg _ hhw

theorem pushEach_completes (objNew : BaseObj V) {c : NpuId → Callback} (elem : NpuId → RollbkElem) (rollingBack : Bool)
    (npus : List NpuId) : ∀ s, AllPushed env s → Completes objNew (npus.map elem) s
      (pushEach (fun n => push env (c n) (effect objNew (elem n))) elem rollingBack npus s) := by
  induction npus with
  | nil => intro s _; exact ⟨rfl, rfl, Nat.le_refl _⟩
  | cons n npus ih =>
    intro s hs
    have ho := hs s.calls.length (Nat.le_refl _)
    simp only [pushEach, push, ho, if_true]
    generalize ht : (if rollingBack = true then
      { s with hw := effect objNew (elem n) s.hw, calls := s.calls ++ [c n] } else _ : St V) = t
    have hhw : t.hw = effect objNew (elem n) s.hw := by rw [← ht]; split <;> rfl
    have hcalls : t.calls = s.calls ++ [c n] := by rw [← ht]; split <;> rfl
    have hg : s.calls.length ≤ t.calls.length := by simp [hcalls]
    obtain ⟨h1, h2, h3⟩ := ih t (hs.later hg)
    refine ⟨h1, ?_, hg.trans h3⟩
    rw [List.map_cons, UndoLog.replay_cons, ← hhw]
    exact h2

theorem modifyAttrs_completes {objNew : BaseObj V} (npus : NpuSet) (rollingBack : Bool) :
    ∀ (attrs : List AttrId), (∀ a ∈ attrs, objNew.isLeafAttr a = true) → ∀ s, AllPushed env s →
      Completes objNew (modifyPlan attrs npus.elems) s (modifyAttrs env objNew npus rollingBack attrs s) := by
  intro attrs
  induction attrs with
  | nil => intro _ s _; exact ⟨rfl, rfl, Nat.le_refl _⟩
  | cons a attrs ih =>
    intro hl s hs
    have h1 : Completes objNew (npus.elems.map (modifyElem a)) s (modifyAttr env objNew npus rollingBack a s) := by
      simp only [modifyAttr, hl a List.mem_cons_self, if_true]
      exact pushEach_completes objNew (modifyElem a) rollingBack npus.elems s hs
    exact h1.andThen hs (ih fun b hb => hl b (List.mem_cons_of_mem _ hb))

theorem modifyTry_completes (objNew objOld : BaseObj V) (hl : LeafOnly objNew) (rollingBack : Bool)
    {s : St V} (hs : AllPushed env s) :
    Completes objNew (commitPlan objNew objOld) s (modifyTry env objNew objOld rollingBack s) :=
  Completes.andThen hs (pushEach_completes objNew createElem rollingBack _ s hs) fun t ht =>
    Completes.andThen ht (pushEach_completes objNew deleteElem rollingBack _ t ht) fun u hu =>
      modifyAttrs_completes _ rollingBack _ hl u hu

/-- Nothing is rolled back. -/
theorem Completes.rollbackAndThrow {objNew : BaseObj V} {plan : List RollbkElem} {s : St V}
    {r : Option BaseException × St V} (rollback : St V → Option Fault × St V) (h : Completes objNew plan s r) :
    rollbackAndThrow rollback r = (none, r.2) := by
  obtain ⟨x, t⟩ := r
  obtain ⟨rfl, -, -⟩ := h
  rfl

theorem create_completes (objNew : BaseObj V) (rollingBack : Bool) {s : St V} (hs : AllPushed env s) :
    let r := baseCreateObjNdi env objNew rollingBack s
    r.1 = none ∧ r.2.2.hw = replay (effect objNew) (createPlan objNew.npuList.elems) s.hw := by
  have h := pushEach_completes objNew createElem (c := .pushCreateObjToNpu .objNew) rollingBack
    objNew.npuList.elems { s with rTrakr := [] } hs
  have hr := h.rollbackAndThrow (rollbackCreateObjNdi env)
  exact ⟨congrArg Prod.fst hr, (congrArg (fun r => r.2.hw) hr).trans h.hw⟩

theorem delete_completes (objNew objOld : BaseObj V) (rollingBack : Bool) {s : St V} (hs : AllPushed env s) :
    let r := baseDeleteObjNdi env objOld rollingBack s
    r.1 = none ∧ r.2.hw = replay (effect objNew) (deletePlan objOld.npuList.elems) s.hw ∧ AllPushed env r.2 := by
  have h := pushEach_completes objNew deleteElem (c := .pushDeleteObjToNpu .objOld) rollingBack
    objOld.npuList.elems { s with rTrakr := [] } hs
  have hr := h.rollbackAndThrow (rollbackDeleteObjNdi env objOld)
  refine ⟨congrArg Prod.fst hr, (congrArg (fun r => r.2.hw) hr).trans h.hw, hs.later ?_⟩
  exact h.grows.trans_eq (congrArg (fun r => r.2.calls.length) hr).symm

theorem modify_completes (objNew objOld : BaseObj V) (hl : LeafOnly objNew) (rollingBack : Bool) {s : St V}
    (hs : AllPushed env s) :
    let r := baseModifyObjNdi env objNew objOld rollingBack s
    r.1 = none ∧ r.2.hw = replay (effect objNew) (commitPlan objNew objOld) s.hw := by
  have h := modifyTry_completes objNew objOld hl rollingBack (s := { s with rTrakr := [] }) hs
  have hr := h.rollbackAndThrow (rollbackModifyObjNdi env objOld)
  exact ⟨congrArg Prod.fst hr, (congrArg (fun r => r.2.hw) hr).trans h.hw⟩

/-! ## Modify against delete and create -/

/-- Filling in the switch's NPUs changes neither what the object holds nor what is dirty. -/
theorem fillNpus_eq (sw : BaseSwitch) (o : BaseObj V) : ∃ npus following, ∀ attrs : AttrSet,
    fillNpus sw { o with setAttributes := attrs } =
      { o with setAttributes := attrs, npus := npus, followingSwitchNpus := following } := by
  by_cases h : o.npus.isEmpty = true
  · exact ⟨sw.npus, true, fun attrs => by simp [fillNpus, h]⟩
  · exact ⟨o.npus, o.followingSwitchNpus, fun attrs => by simp [fillNpus, h]⟩

/-- `commit_modify`, when every push takes effect. -/
theorem commitModify_completes (sw : BaseSwitch) (o objOld : BaseObj V) (rollingBack : Bool) {s : St V}
    (hcreated : o.isCreatedInNdi = true) (hl : LeafOnly o) (hs : AllPushed env s) :
    let r := commitModify env sw o objOld rollingBack s
    r.1 = .ok o.dirtyAttributes ∧
      r.2.2.hw = replay (effect (fillNpus sw o)) (commitPlan (fillNpus sw o) objOld) s.hw := by
  obtain ⟨npus, following, hfill⟩ := fillNpus_eq sw o
  have hfilled : modifyFilled sw o = _ := hfill (o.setAttributes.union o.dirtyAttributes)
  have hl' : LeafOnly (modifyFilled sw o) := by rw [hfilled]; exact hl
  obtain ⟨h1, hhw⟩ := modify_completes (modifyFilled sw o) objOld hl' rollingBack hs
  rw [commitModify_eq env sw objOld rollingBack hcreated]
  refine ⟨?_, ?_⟩
  · rw [h1, hfilled]
    rfl
  · refine hhw.trans ?_
    rw [hfilled, show fillNpus sw o = _ from hfill o.setAttributes]
    rfl

theorem commitPlan_eq {objNew objOld : BaseObj V} {hw : Hw V}
    (hdirty : ∀ a, a ∉ objNew.dirtyAttributes.attributes → objNew.value a = objOld.value a)
    (hold : ∀ n ∈ objOld.npuList, hw n = some objOld.value) :
    replay (effect objNew) (commitPlan objNew objOld) hw =
      replay (effect objNew) (deletePlan objOld.npuList.elems ++ createPlan objNew.npuList.elems) hw := by
  funext n
  obtain ⟨h1, h2, h3⟩ := compare_partition objNew.npuList objOld.npuList n
  simp only [OrdSet.mem_def] at h1 h2 h3 hold
  simp only [commitPlan, UndoLog.replay_append, replay_modifyPlan, replay_deletePlan, replay_createPlan, h1, h2, h3]
  by_cases hn : n ∈ objNew.npuList.elems
  · by_cases ho : n ∈ objOld.npuList.elems
    · -- kept: the dirty attributes are pushed, the others are the old object's
      simp only [hn, ho, not_true, and_false, and_self, if_true, if_false, hold n ho, Option.map_some, Option.some.injEq]
      funext a
      by_cases ha : a ∈ objNew.dirtyAttributes.attributes.elems
      · simp [ha]
      · simp [ha, hdirty a ha]
    · simp [hn, ho]
  · by_cases ho : n ∈ objOld.npuList.elems <;> simp [hn, ho]

/-- A modify of a created object (leaf attributes, `obj_new` equal to `obj_old` but for
    its dirty ones, any NPUs) whose pushes all take effect, from hardware that holds
    `obj_old` on its NPUs: it ends in the hardware that deleting `obj_old` and creating
    `obj_new`, with the switch's NPUs where it has none, ends in. -/
theorem modify_eq_delete_create (env : Env V) (sw : BaseSwitch) (objNew objOld : BaseObj V) (rollingBack : Bool) (s : St V)
    (hcreated : objNew.isCreatedInNdi = true) (hl : LeafOnly objNew)
    (hdirty : ∀ a, a ∉ objNew.dirtyAttributes.attributes → objNew.value a = objOld.value a)
    (hold : ∀ n ∈ objOld.npuList, s.hw n = some objOld.value) (hs : AllPushed env s) :
    let modified := commitModify env sw objNew objOld rollingBack s
    let deleted := baseDeleteObjNdi env objOld rollingBack s
    let created := baseCreateObjNdi env (fillNpus sw objNew) rollingBack deleted.2
    modified.1 = .ok objNew.dirtyAttributes ∧ deleted.1 = none ∧ created.1 = none ∧
      modified.2.2.hw = created.2.2.hw := by
  intro modified deleted created
  obtain ⟨hm, hmhw⟩ := commitModify_completes sw objNew objOld rollingBack hcreated hl hs
  obtain ⟨hd, hdhw, hs'⟩ := delete_completes (fillNpus sw objNew) objOld rollingBack hs
  obtain ⟨hc, hchw⟩ := create_completes (fillNpus sw objNew) rollingBack hs'
  have hdirty' : ∀ a, a ∉ (fillNpus sw objNew).dirtyAttributes.attributes →
      (fillNpus sw objNew).value a = objOld.value a := by
    obtain ⟨npus, following, hfill⟩ := fillNpus_eq sw objNew
    rw [show fillNpus sw objNew = _ from hfill objNew.setAttributes]
    exact hdirty
  refine ⟨hm, hd, hc, ?_⟩
  calc modified.2.2.hw
      = replay (effect (fillNpus sw objNew)) (commitPlan (fillNpus sw objNew) objOld) s.hw := hmhw
    _ = replay (effect (fillNpus sw objNew))
          (deletePlan objOld.npuList.elems ++ createPlan (fillNpus sw objNew).npuList.elems) s.hw :=
        commitPlan_eq hdirty' hold
    _ = created.2.2.hw := by rw [UndoLog.replay_append, ← hdhw]; exact hchw.symm

def everyPush : Env Nat := ⟨fun _ => .pushed, fun _ => [], fun _ hw => hw⟩

/-- Attribute 7 set, NPU 3 for NPU 1. -/
theorem modify_eq_delete_create_moved :
    (commitModify everyPush ⟨.empty⟩ objOn23 objOn12 false ⟨hwOn12, [], []⟩).2.2.hw =
      (baseCreateObjNdi everyPush (fillNpus ⟨.empty⟩ objOn23) false
        (baseDeleteObjNdi everyPush objOn12 false ⟨hwOn12, [], []⟩).2).2.2.hw := by
  refine (modify_eq_delete_create everyPush ⟨.empty⟩ objOn23 objOn12 false ⟨hwOn12, [], []⟩ rfl
    (fun _ _ => rfl) (fun a ha => ?_) (fun n hn => if_pos (objOn12_npus hn)) (fun _ _ => rfl)).2.2.2
  have ha7 : a ≠ 7 := by simpa [objOn23, AttrSet.add, AttrSet.empty] using ha
  simp [objOn23, objOn12, BaseObj.new, ha7]

end NasCommon.Base
