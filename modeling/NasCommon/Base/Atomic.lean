/-
  NasCommon.Base.Atomic — a failed commit leaves the hardware as it was.

  Each operation is a plan, the list of elements it would track if every push took
  effect. The pushes that do take effect are a sublist of it, and the tracker is that
  sublist (`Forward`), so the hardware is the plan's sublist replayed and the rollback
  is an unwinding of the tracker. The elements of a plan touch different NPUs or
  different attributes (`Indep`), which is what `UndoLog` asks for.
  - `commit_atomic`: when create, delete or modify fails and the undo pushes succeed,
    the hardware is the one before the call, and no assertion fails.
-/

import Mathlib.Data.List.Nodup
import NasCommon.Base.Commit
import NasCommon.Lib.UndoLog

namespace NasCommon.Base

open UndoLog (replay unwind Compensates)

variable {V : Type} {env : Env V}

/-! ## Elements as actions -/

/-- What a tracked push did. -/
def effect (objNew : BaseObj V) (e : RollbkElem) (hw : Hw V) : Hw V :=
  match e.rlbkType, e.attrHierarchy with
  | .createObj, _ => createOn e.npuId objNew.allocFillNdiObj hw
  | .deleteObj, _ => deleteOn e.npuId hw
  | .modifyAttr, [attrId] => setOn attrId e.npuId (objNew.value attrId) hw
  | _, _ => hw

/-- What its undo does. -/
def undoEffect (objOld : BaseObj V) (e : RollbkElem) (hw : Hw V) : Hw V :=
  match e.rlbkType, e.attrHierarchy with
  | .createObj, _ => deleteOn e.npuId hw
  | .deleteObj, _ => createOn e.npuId objOld.allocFillNdiObj hw
  | .modifyAttr, [attrId] => setOn attrId e.npuId (objOld.value attrId) hw
  | _, _ => hw

/-- The NPU holds what the undo of `e` puts back. -/
def Ready (objOld : BaseObj V) (e : RollbkElem) (hw : Hw V) : Prop :=
  match e.rlbkType, e.attrHierarchy with
  | .createObj, _ => hw e.npuId = none
  | .deleteObj, _ => hw e.npuId = some objOld.value
  | .modifyAttr, [attrId] => ∀ im, hw e.npuId = some im → im attrId = objOld.value attrId
  | _, _ => False

def Indep (a b : RollbkElem) : Prop :=
  a.npuId ≠ b.npuId ∨ ∃ x y, a = modifyElem x a.npuId ∧ b = modifyElem y b.npuId ∧ x ≠ y

theorem setOn_restore {attrId : AttrId} {npuId : NpuId} {v w : V} {hw : Hw V}
    (h : ∀ im, hw npuId = some im → im attrId = w) : setOn attrId npuId w (setOn attrId npuId v hw) = hw := by
  funext n
  by_cases e : n = npuId
  · subst e
    cases hn : hw n with
    | none => simp [setOn, hn]
    | some im =>
      have := h im hn
      subst this
      simp [setOn, hn]
  · simp [setOn, e]

theorem setOn_ready {objOld : BaseObj V} {x y : AttrId} {n m : NpuId} {v : V} {hw : Hw V} (hxy : x ≠ y)
    (h : Ready objOld (modifyElem y m) hw) : Ready objOld (modifyElem y m) (setOn x n v hw) := by
  intro im him
  by_cases e : m = n
  · subst e
    simp only [modifyElem, setOn, Function.update_self, Option.map_eq_some_iff] at him
    obtain ⟨im0, h0, rfl⟩ := him
    simpa [Ne.symm hxy] using h im0 h0
  · exact h im (by simpa [modifyElem, setOn, e] using him)

/-- An element changes only its own NPU. -/
theorem effect_other (objNew : BaseObj V) (e : RollbkElem) (hw : Hw V) {n : NpuId} (h : n ≠ e.npuId) :
    effect objNew e hw n = hw n := by
  obtain ⟨ty, m, hier⟩ := e
  have hm : n ≠ m := h
  cases ty with
  | createObj => simp [effect, createOn, hm]
  | deleteObj => simp [effect, deleteOn, hm]
  | modifyAttr =>
    cases hier with
    | nil => rfl
    | cons a rest =>
      cases rest with
      | nil => simp [effect, setOn, hm]
      | cons b rest => rfl
  | createAttr => rfl
  | deleteAttr => rfl

theorem ready_congr {objOld : BaseObj V} {e : RollbkElem} {hw hw' : Hw V} (h : hw' e.npuId = hw e.npuId) :
    Ready objOld e hw → Ready objOld e hw' := by
  unfold Ready
  rw [h]
  exact id

theorem compensates (objNew objOld : BaseObj V) :
    Compensates (effect objNew) (undoEffect objOld) (Ready objOld) Indep where
  undo_act e hw h := by
    obtain ⟨ty, m, hier⟩ := e
    cases ty with
    | createObj =>
      have hm : hw m = none := h
      simp [effect, undoEffect, createOn, deleteOn, ← hm]
    | deleteObj =>
      have hm : hw m = some objOld.allocFillNdiObj := h
      simp [effect, undoEffect, createOn, deleteOn, ← hm]
    | modifyAttr =>
      cases hier with
      | nil => exact h.elim
      | cons a rest =>
        cases rest with
        | nil => exact setOn_restore h
        | cons b rest => exact h.elim
    | createAttr => exact h.elim
    | deleteAttr => exact h.elim
  ready_act a b hw hi h := by
    rcases hi with hne | ⟨x, y, ha, hb, hxy⟩
    · exact ready_congr (effect_other objNew a hw (Ne.symm hne)) h
    · rw [hb] at h ⊢
      rw [ha]
      exact setOn_ready hxy h

/-! ## Plans -/

def createPlan (npus : List NpuId) : List RollbkElem := npus.map createElem
def deletePlan (npus : List NpuId) : List RollbkElem := npus.map deleteElem
def modifyPlan (attrs : List AttrId) (npus : List NpuId) : List RollbkElem :=
  attrs.flatMap fun attrId => npus.map (modifyElem attrId)

/-- The plan of `base_modify_obj_ndi`. -/
def commitPlan (objNew objOld : BaseObj V) : List RollbkElem :=
  let npus := compare objNew.npuList objOld.npuList
  createPlan npus.onlyMine.elems ++ (deletePlan npus.onlySecond.elems ++
    modifyPlan objNew.dirtyAttributes.attributes.elems npus.inBoth.elems)

theorem map_indep {f : NpuId → RollbkElem} (hf : ∀ n, (f n).npuId = n) (s : NpuSet) :
    (s.elems.map f).Pairwise Indep := by
  refine List.pairwise_map.mpr (s.nodup.imp fun h => Or.inl ?_)
  rwa [hf, hf]

theorem modifyPlan_indep (attrs : OrdSet AttrId) (s : NpuSet) : (modifyPlan attrs.elems s.elems).Pairwise Indep := by
  refine List.pairwise_flatMap.mpr ⟨fun a _ => map_indep (fun _ => rfl) s, attrs.nodup.imp fun {x y} hxy a ha b hb => ?_⟩
  obtain ⟨n, _, rfl⟩ := List.mem_map.mp ha
  obtain ⟨m, _, rfl⟩ := List.mem_map.mp hb
  exact Or.inr ⟨x, y, rfl, rfl, hxy⟩

theorem npuId_mem_map {f : NpuId → RollbkElem} (hf : ∀ n, (f n).npuId = n) {l : List NpuId} {e : RollbkElem}
    (h : e ∈ l.map f) : e.npuId ∈ l := by
  obtain ⟨n, hn, rfl⟩ := List.mem_map.mp h
  rwa [hf]

theorem npuId_mem_modifyPlan {attrs : List AttrId} {l : List NpuId} {e : RollbkElem} (h : e ∈ modifyPlan attrs l) :
    e.npuId ∈ l := by
  obtain ⟨a, _, h⟩ := List.mem_flatMap.mp h
  exact npuId_mem_map (fun _ => rfl) h

theorem commitPlan_indep (objNew objOld : BaseObj V) : (commitPlan objNew objOld).Pairwise Indep := by
  refine List.pairwise_append.mpr ⟨map_indep (fun _ => rfl) _, List.pairwise_append.mpr
    ⟨map_indep (fun _ => rfl) _, modifyPlan_indep _ _, fun a ha b hb => Or.inl fun e => ?_⟩,
    fun a ha b hb => Or.inl fun e => ?_⟩
  · -- a deleted NPU is not an unchanged one
    have h1 := (compare_partition objNew.npuList objOld.npuList a.npuId).2.1.mp (npuId_mem_map (fun _ => rfl) ha)
    have h2 := (compare_partition objNew.npuList objOld.npuList b.npuId).2.2.mp (npuId_mem_modifyPlan hb)
    rw [e] at h1
    exact h1.2 h2.1
  · -- an added NPU is neither
    have h1 := (compare_partition objNew.npuList objOld.npuList a.npuId).1.mp (npuId_mem_map (fun _ => rfl) ha)
    rw [e] at h1
    rcases List.mem_append.mp hb with hb | hb
    · have h2 := (compare_partition objNew.npuList objOld.npuList b.npuId).2.1.mp (npuId_mem_map (fun _ => rfl) hb)
      exact h1.2 h2.1
    · have h2 := (compare_partition objNew.npuList objOld.npuList b.npuId).2.2.mp (npuId_mem_modifyPlan hb)
      exact h1.2 h2.2

theorem createPlan_ready (objOld : BaseObj V) {hw : Hw V} {s : NpuSet} (h : ∀ n ∈ s, hw n = none) :
    ∀ e ∈ createPlan s.elems, Ready objOld e hw := by
  intro e he
  obtain ⟨n, hn, rfl⟩ := List.mem_map.mp he
  exact h n hn

theorem deletePlan_ready {objOld : BaseObj V} {hw : Hw V} {s : NpuSet} (h : ∀ n ∈ s, hw n = some objOld.value) :
    ∀ e ∈ deletePlan s.elems, Ready objOld e hw := by
  intro e he
  obtain ⟨n, hn, rfl⟩ := List.mem_map.mp he
  exact h n hn

theorem modifyPlan_ready {objOld : BaseObj V} {hw : Hw V} {s : NpuSet} (h : ∀ n ∈ s, hw n = some objOld.value)
    (attrs : List AttrId) : ∀ e ∈ modifyPlan attrs s.elems, Ready objOld e hw := by
  intro e he
  obtain ⟨a, _, he⟩ := List.mem_flatMap.mp he
  obtain ⟨n, hn, rfl⟩ := List.mem_map.mp he
  intro im him
  have := h n hn
  simp only [modifyElem] at him
  rw [this] at him
  cases him; rfl

theorem commitPlan_ready {objNew objOld : BaseObj V} {hw : Hw V} (hold : ∀ n ∈ objOld.npuList, hw n = some objOld.value)
    (hnew : ∀ n ∈ objNew.npuList, n ∉ objOld.npuList → hw n = none) :
    ∀ e ∈ commitPlan objNew objOld, Ready objOld e hw := by
  intro e he
  have hp := compare_partition objNew.npuList objOld.npuList
  rcases List.mem_append.mp he with he | he
  · exact createPlan_ready objOld (fun n hn => hnew n ((hp n).1.mp hn).1 ((hp n).1.mp hn).2) e he
  rcases List.mem_append.mp he with he | he
  · exact deletePlan_ready (fun n hn => hold n ((hp n).2.1.mp hn).1) e he
  · exact modifyPlan_ready (fun n hn => hold n ((hp n).2.2.mp hn).2) _ e he

/-! ## The forward pushes -/

/-- What running a plan's pushes does: part of the plan takes effect and is tracked, and
    an exception is one of the outcomes met on the way. -/
structure Forward (env : Env V) (objNew : BaseObj V) (plan : List RollbkElem) (s : St V)
    (r : Option BaseException × St V) : Prop where
  taken : ∃ t, t.Sublist plan ∧ r.2.hw = replay (effect objNew) t s.hw ∧ r.2.rTrakr = s.rTrakr ++ t
  grows : s.calls.length ≤ r.2.calls.length
  thrown : ∀ e, r.1 = some e → ∃ k, s.calls.length ≤ k ∧ k < r.2.calls.length ∧ env.outcome k = .throws e

theorem Forward.nil (objNew : BaseObj V) (s : St V) : Forward env objNew [] s (none, s) :=
  ⟨⟨[], List.Sublist.refl _, rfl, by simp⟩, Nat.le_refl _, fun _ h => (by cases h)⟩

theorem Forward.andThen {objNew : BaseObj V} {p q : List RollbkElem} {s : St V} {r : Option BaseException × St V}
    {f : St V → Option BaseException × St V} (h : Forward env objNew p s r) (hf : ∀ t, Forward env objNew q t (f t)) :
    Forward env objNew (p ++ q) s (andThen r f) := by
  obtain ⟨x, s1⟩ := r
  obtain ⟨t, ht, hhw, htr⟩ := h.taken
  cases x with
  | some e => exact ⟨⟨t, ht.trans (List.sublist_append_left _ _), hhw, htr⟩, h.grows, h.thrown⟩
  | none =>
    have h2 := hf s1
    obtain ⟨t2, ht2, hhw2, htr2⟩ := h2.taken
    refine ⟨⟨t ++ t2, ht.append ht2, ?_, ?_⟩, h.grows.trans h2.grows, fun e he => ?_⟩
    · show (f s1).2.hw = _
      rw [hhw2, UndoLog.replay_append]
      exact congrArg _ hhw
    · show (f s1).2.rTrakr = _
      rw [htr2, show s1.rTrakr = s.rTrakr ++ t from htr, List.append_assoc]
    · obtain ⟨k, hk, hlt, ho⟩ := h2.thrown e he
      exact ⟨k, h.grows.trans hk, hlt, ho⟩

/-- The push loop, over any callback that pushes its element's effect. -/
theorem pushEach_forward {objNew : BaseObj V} {c : NpuId → Callback} {elem : NpuId → RollbkElem} (npus : List NpuId) :
    ∀ s, Forward env objNew (npus.map elem) s
      (pushEach (fun n => push env (c n) (effect objNew (elem n))) elem false npus s) := by
  induction npus with
  | nil => exact Forward.nil objNew
  | cons n npus ih =>
    intro s
    -- one push, as a plan of one element
    have hone : ∀ o, env.outcome s.calls.length = o →
        Forward env objNew [elem n] s
          (match o with
            | .throws e => (some e, (push env (c n) (effect objNew (elem n)) s).2)
            | .notPushed => (none, (push env (c n) (effect objNew (elem n)) s).2)
            | .pushed =>
              (none, { (push env (c n) (effect objNew (elem n)) s).2 with rTrakr := s.rTrakr ++ [elem n] })) := by
      intro o ho
      cases o with
      | pushed =>
        exact ⟨⟨[elem n], List.Sublist.refl _, by simp [push, ho], rfl⟩, by simp [push], fun _ h => (by cases h)⟩
      | notPushed =>
        exact ⟨⟨[], List.nil_sublist _, by simp [push, ho], by simp [push]⟩, by simp [push], fun _ h => (by cases h)⟩
      | throws e =>
        refine ⟨⟨[], List.nil_sublist _, by simp [push, ho], by simp [push]⟩, by simp [push], fun e' h => ?_⟩
        cases h
        exact ⟨s.calls.length, Nat.le_refl _, by simp [push], ho⟩
    have h := (hone _ rfl).andThen ih
    simp only [pushEach]
    cases ho : env.outcome s.calls.length with
    | pushed => simpa [push, ho, andThen] using h
    | notPushed => simpa [push, ho, andThen] using h
    | throws e => simpa [push, ho, andThen] using h

theorem create_forward (objNew : BaseObj V) (npus : NpuSet) (s : St V) :
    Forward env objNew (createPlan npus.elems) s (createObjNpulistNdi env objNew npus false s) :=
  pushEach_forward npus.elems s

theorem delete_forward (objNew : BaseObj V) (npus : NpuSet) (s : St V) :
    Forward env objNew (deletePlan npus.elems) s (deleteObjNpulistNdi env npus false s) :=
  pushEach_forward npus.elems s

/-- The dirty attributes are leaves. -/
def LeafOnly (o : BaseObj V) : Prop := ∀ a ∈ o.dirtyAttributes.attributes, o.isLeafAttr a = true

theorem modify_forward {objNew : BaseObj V} (npus : NpuSet) :
    ∀ (attrs : List AttrId), (∀ a ∈ attrs, objNew.isLeafAttr a = true) →
      ∀ s, Forward env objNew (modifyPlan attrs npus.elems) s (modifyAttrs env objNew npus false attrs s) := by
  intro attrs
  induction attrs with
  | nil => intro _ s; exact Forward.nil objNew s
  | cons a attrs ih =>
    intro hl s
    have hleaf := hl a List.mem_cons_self
    have h1 : Forward env objNew (npus.elems.map (modifyElem a)) s (modifyAttr env objNew npus false a s) := by
      simp only [modifyAttr, hleaf, if_true]
      exact pushEach_forward npus.elems s
    exact h1.andThen (ih fun b hb => hl b (List.mem_cons_of_mem _ hb))

theorem modifyTry_forward {objNew : BaseObj V} (objOld : BaseObj V) (hl : LeafOnly objNew) (s : St V) :
    Forward env objNew (commitPlan objNew objOld) s (modifyTry env objNew objOld false s) :=
  (create_forward objNew _ s).andThen fun s =>
    (delete_forward objNew _ s).andThen fun s => modify_forward _ _ hl s

/-! ## The rollback -/

/-- The undo pushes succeed: from call `k0` on, every push after the first exception. -/
def UndoSucceeds (env : Env V) (k0 : Nat) : Prop :=
  ∀ j k, k0 ≤ j → j < k → (env.outcome j).isThrow = true → env.outcome k = .pushed

theorem push_pushed {c : Callback} {eff : Hw V → Hw V} {s : St V} (h : env.outcome s.calls.length = .pushed) :
    (push env c eff s).2 = { s with hw := eff s.hw, calls := s.calls ++ [c] } := by
  simp [push, h]

/-- An undo loop whose every step undoes its element, run on the whole tracker. -/
theorem undoLoop_unwinds (undoOne : RollbkElem → St V → Option Fault × St V) (undo : RollbkElem → Hw V → Hw V) {k : Nat}
    (l : List RollbkElem) (hone : ∀ e ∈ l, ∀ s : St V, k ≤ s.calls.length → ∃ c, undoOne e s =
      (none, { s with hw := undo e s.hw, calls := s.calls ++ [c] })) :
    ∀ s : St V, k ≤ s.calls.length → (undoLoop undoOne l s).1 = none ∧
      (undoLoop undoOne l s).2.hw = l.foldl (fun hw e => undo e hw) s.hw := by
  induction l with
  | nil => intro s _; exact ⟨rfl, rfl⟩
  | cons e l ih =>
    intro s hk
    obtain ⟨c, hc⟩ := hone e List.mem_cons_self s hk
    simp only [undoLoop, hc, List.foldl_cons]
    exact ih (fun e' he' => hone e' (List.mem_cons_of_mem _ he')) _ (by simp; omega)

/-- The undo of each element of a plan is one push of what takes the element back. -/
def UndoPushes (env : Env V) (objOld : BaseObj V) (plan : List RollbkElem)
    (undoOne : RollbkElem → St V → Option Fault × St V) : Prop :=
  ∀ e ∈ plan, ∃ c, ∀ t, undoOne e t = (none, (push env c (undoEffect objOld e) t).2)

theorem create_undoPushes (env : Env V) (objOld : BaseObj V) (l : List NpuId) :
    UndoPushes env objOld (createPlan l) (fun e s =>
      if e.rlbkType = .createObj then (none, rollbackCreateObjInNpu env e.npuId s) else (some .assertFail, s)) := by
  intro e he
  obtain ⟨n, _, rfl⟩ := List.mem_map.mp he
  exact ⟨.pushDeleteObjToNpu .objNew n, fun _ => rfl⟩

theorem delete_undoPushes (env : Env V) (objOld : BaseObj V) (l : List NpuId) :
    UndoPushes env objOld (deletePlan l) (fun e s =>
      if e.rlbkType = .deleteObj then (none, rollbackDeleteObjInNpu env e.npuId objOld.allocFillNdiObj s)
      else (some .assertFail, s)) := by
  intro e he
  obtain ⟨n, _, rfl⟩ := List.mem_map.mp he
  exact ⟨.pushCreateObjToNpu .objOld n, fun _ => rfl⟩

theorem modify_undoPushes (env : Env V) (objNew objOld : BaseObj V) :
    UndoPushes env objOld (commitPlan objNew objOld) (rollbackElem env objOld) := by
  intro e he
  rcases List.mem_append.mp he with he | he
  · obtain ⟨n, _, rfl⟩ := List.mem_map.mp he
    exact ⟨.pushDeleteObjToNpu .objNew n, fun _ => rfl⟩
  rcases List.mem_append.mp he with he | he
  · obtain ⟨n, _, rfl⟩ := List.mem_map.mp he
    exact ⟨.pushCreateObjToNpu .objOld n, fun _ => rfl⟩
  · obtain ⟨a, _, he⟩ := List.mem_flatMap.mp he
    obtain ⟨n, _, rfl⟩ := List.mem_map.mp he
    exact ⟨.pushLeafAttrToNpu .objOld a n, fun _ => rfl⟩

/-- A failed operation: its tracker unwound from the plan's part that took effect. -/
theorem rollback_restores (objNew objOld : BaseObj V) {plan : List RollbkElem} {s : St V}
    {r : Option BaseException × St V} {undoOne : RollbkElem → St V → Option Fault × St V}
    (hfw : Forward env objNew plan { s with rTrakr := [] } r) (hind : plan.Pairwise Indep)
    (hready : ∀ e ∈ plan, Ready objOld e s.hw) (hundo : UndoSucceeds env s.calls.length)
    (hone : UndoPushes env objOld plan undoOne) {f : Fault} {s' : St V}
    (h : rollbackAndThrow (fun s => undoLoop undoOne s.rTrakr.reverse s) r = (some f, s')) :
    s'.hw = s.hw ∧ f ≠ .assertFail := by
  obtain ⟨x, s1⟩ := r
  cases x with
  | none => simp [rollbackAndThrow] at h
  | some e =>
    obtain ⟨t, ht, hhw, htr⟩ := hfw.taken
    obtain ⟨k, hk, hlt, ho⟩ := hfw.thrown e rfl
    simp only [List.nil_append] at htr hhw hk hlt
    have hpushed : ∀ j, s1.calls.length ≤ j → env.outcome j = .pushed := fun j hj =>
      hundo k j hk (by omega) (by simp [ho, Outcome.isThrow])
    have hundone : ∀ e ∈ t.reverse, ∀ u : St V, s1.calls.length ≤ u.calls.length → ∃ c, undoOne e u =
        (none, { u with hw := undoEffect objOld e u.hw, calls := u.calls ++ [c] }) := by
      intro e he u hu
      obtain ⟨c, hc⟩ := hone e (ht.subset (List.mem_reverse.mp he))
      exact ⟨c, by rw [hc, push_pushed (hpushed _ hu)]⟩
    have hloop := undoLoop_unwinds undoOne (undoEffect objOld) t.reverse hundone s1 (Nat.le_refl _)
    simp only [rollbackAndThrow, htr] at h
    generalize hl : undoLoop undoOne t.reverse s1 = l at h hloop
    obtain ⟨y, s2⟩ := l
    obtain ⟨rfl, hs2⟩ := hloop
    simp only [Prod.mk.injEq, Option.some.injEq] at h
    obtain ⟨rfl, rfl⟩ := h
    refine ⟨?_, by simp⟩
    calc s2.hw = unwind (undoEffect objOld) t s1.hw := by rw [← UndoLog.unwind_eq_foldl]; exact hs2
      _ = unwind (undoEffect objOld) t (replay (effect objNew) t s.hw) := by rw [hhw]
      _ = s.hw := UndoLog.unwind_replay_sublist (compensates objNew objOld) ht hind hready

/-- When a create, a delete or a modify (`rolling_back` false, leaf attributes) fails and
    the undo pushes succeed, every NPU holds what it held before, and the failure is not
    an assertion. Before, the old object's NPUs hold its image and those to be created
    on hold none. -/
theorem commit_atomic (env : Env V) (objNew objOld : BaseObj V) (s : St V)
    (hundo : UndoSucceeds env s.calls.length) :
    ((∀ n ∈ objNew.npuList, s.hw n = none) →
      ∀ f, (baseCreateObjNdi env objNew false s).1 = some f →
        (baseCreateObjNdi env objNew false s).2.2.hw = s.hw ∧ f ≠ .assertFail) ∧
    ((∀ n ∈ objOld.npuList, s.hw n = some objOld.value) →
      ∀ f, (baseDeleteObjNdi env objOld false s).1 = some f →
        (baseDeleteObjNdi env objOld false s).2.hw = s.hw ∧ f ≠ .assertFail) ∧
    (LeafOnly objNew → (∀ n ∈ objOld.npuList, s.hw n = some objOld.value) →
      (∀ n ∈ objNew.npuList, n ∉ objOld.npuList → s.hw n = none) →
      ∀ f, (baseModifyObjNdi env objNew objOld false s).1 = some f →
        (baseModifyObjNdi env objNew objOld false s).2.hw = s.hw ∧ f ≠ .assertFail) := by
  refine ⟨fun hnone f h => ?_, fun hold f h => ?_, fun hl hold hnew f h => ?_⟩
  · exact rollback_restores objNew objOld (create_forward objNew objNew.npuList _) (map_indep (fun _ => rfl) _)
      (createPlan_ready objOld hnone) hundo (create_undoPushes env objOld _) (Prod.ext h rfl)
  · exact rollback_restores objOld objOld (delete_forward objOld objOld.npuList _) (map_indep (fun _ => rfl) _)
      (deletePlan_ready hold) hundo (delete_undoPushes env objOld _) (Prod.ext h rfl)
  · exact rollback_restores objNew objOld (modifyTry_forward objOld hl _) (commitPlan_indep objNew objOld)
      (commitPlan_ready hold hnew) hundo (modify_undoPushes env objNew objOld) (Prod.ext h rfl)

/-! ## A run -/

def ndiFail : BaseException := ⟨nasBaseEFull, "NDI failure"⟩

/-- Every callback pushes but the `k`-th, which throws. -/
def failsAt (k : Nat) : Env Nat :=
  ⟨fun j => if j = k then .throws ndiFail else .pushed, fun _ => [], fun _ hw => hw⟩

theorem failsAt_undoSucceeds (k k0 : Nat) : UndoSucceeds (failsAt k) k0 := by
  intro i j _ hij hi
  by_cases e : i = k
  · subst e
    have hj : j ≠ i := by omega
    simp [failsAt, hj]
  · simp [failsAt, e, Outcome.isThrow] at hi

/-- On NPUs 1 and 2, attribute 7 at 0. -/
def objOn12 : BaseObj Nat :=
  { BaseObj.new (fun _ => true) (fun _ => 0) with ndiCreated := true, npus := (OrdSet.empty.insert 1).insert 2 }

/-- Moved to NPUs 2 and 3, attribute 7 set to 5. -/
def objOn23 : BaseObj Nat :=
  { objOn12 with
    dirtyAttributes := AttrSet.empty.add 7, npus := (OrdSet.empty.insert 2).insert 3,
    value := Function.update (fun _ => 0) 7 5 }

def hwOn12 : Hw Nat := fun n => if n = 1 ∨ n = 2 then some objOn12.value else none

theorem objOn12_npus {n : NpuId} (h : n ∈ objOn12.npuList) : n = 1 ∨ n = 2 := by
  simpa [objOn12, BaseObj.npuList, or_comm] using h

theorem objOn23_npus {n : NpuId} (h : n ∈ objOn23.npuList) : n = 2 ∨ n = 3 := by
  simpa [objOn23, BaseObj.npuList, or_comm] using h

/-- The second create, the second delete, and, in the modify, the push to NPU 2 fail. -/
theorem commit_atomic_fails :
    (baseCreateObjNdi (failsAt 1) objOn23 false ⟨fun _ => none, [], []⟩).2.2.hw = (fun _ => none) ∧
    (baseDeleteObjNdi (failsAt 1) objOn12 false ⟨hwOn12, [], []⟩).2.hw = hwOn12 ∧
    (baseModifyObjNdi (failsAt 2) objOn23 objOn12 false ⟨hwOn12, [], []⟩).2.hw = hwOn12 := by
  have hold : ∀ n ∈ objOn12.npuList, hwOn12 n = some objOn12.value := fun n hn => if_pos (objOn12_npus hn)
  refine ⟨?_, ?_, ?_⟩
  · exact ((commit_atomic (failsAt 1) objOn23 objOn12 ⟨fun _ => none, [], []⟩ (failsAt_undoSucceeds _ _)).1
      (fun _ _ => rfl) (.throws ndiFail) (by decide)).1
  · exact ((commit_atomic (failsAt 1) objOn23 objOn12 ⟨hwOn12, [], []⟩ (failsAt_undoSucceeds _ _)).2.1
      hold (.throws ndiFail) (by decide)).1
  · refine ((commit_atomic (failsAt 2) objOn23 objOn12 ⟨hwOn12, [], []⟩ (failsAt_undoSucceeds _ _)).2.2
      (fun _ _ => rfl) hold (fun n hn hno => ?_) (.throws ndiFail) (by decide)).1
    rcases objOn23_npus hn with rfl | rfl
    · exact absurd (by decide) hno
    · rfl

end NasCommon.Base
