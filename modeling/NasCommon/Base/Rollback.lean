/-
  NasCommon.Base.Rollback — what the rollback of a modify does when undo callbacks throw.

  The undo of a create, a delete and a leaf attribute logs an exception and goes on.
  The undos of non-leaf attributes (`rollback_non_leaf_attr_in_npu`,
  `rollback_create_attr_in_npu`, `rollback_delete_attr_in_npu`) are called with no
  handler, and theirs leaves the loop.
  - `rollback_complete_iff`: the rollback undoes every tracked element once, from the
    last to the first, and throws on what caused it exactly when none of those throws.
  - `rollback_abandoned`: one that does leaves an earlier push in the hardware and its
    own exception in place of the one that caused the rollback.
-/

import NasCommon.Base.NdiUtl

namespace NasCommon.Base

variable {V : Type} {env : Env V}

/-- The undo of an element, as the callback it runs. -/
def undoCall (e : RollbkElem) : Callback :=
  match e.rlbkType with
  | .createObj => .pushDeleteObjToNpu .objNew e.npuId
  | .deleteObj => .pushCreateObjToNpu .objOld e.npuId
  | .modifyAttr =>
    match e.attrHierarchy with
    | [attrId] => .pushLeafAttrToNpu .objOld attrId e.npuId
    | hierarchy => .rollbackNonLeafAttrInNpu .objOld hierarchy e.npuId
  | .createAttr => .rollbackCreateAttrInNpu .objNew e.attrHierarchy e.npuId
  | .deleteAttr => .rollbackDeleteAttrInNpu .objOld e.attrHierarchy e.npuId

/-- An exception of its undo is caught. -/
def guarded (e : RollbkElem) : Bool :=
  match e.rlbkType with
  | .createObj | .deleteObj => true
  | .modifyAttr => e.attrHierarchy.length == 1
  | .createAttr | .deleteAttr => false

/-- The undo of `e`, the `k`-th callback run, does not throw out of the rollback. -/
def UndoReturns (env : Env V) (e : RollbkElem) (k : Nat) : Prop := guarded e = true ∨ (env.outcome k).isThrow = false

/-- Every element tracked in `s` undone once, from the last to the first, none left,
    and `e` thrown on. -/
def RolledBack (e : BaseException) (s : St V) (r : Option Fault × St V) : Prop :=
  r.1 = some (.throws e) ∧ r.2.rTrakr = [] ∧ r.2.calls = s.calls ++ s.rTrakr.reverse.map undoCall

/-! ## One element -/

/-- `r` is the undo of `e` from `s`: it ran its callback and left the tracker alone, and
    failed when the callback threw and was not guarded. -/
def Undone (env : Env V) (e : RollbkElem) (s : St V) (r : Option Fault × St V) : Prop :=
  ∃ hw,
    (UndoReturns env e s.calls.length → r = (none, { s with hw := hw, calls := s.calls ++ [undoCall e] })) ∧
    (¬ UndoReturns env e s.calls.length → ∃ f, r = (some f, { s with hw := hw, calls := s.calls ++ [undoCall e] }))

theorem unguarded_undone {e : RollbkElem} {c : Callback} (hg : guarded e = false) (hc : undoCall e = c) (s : St V) :
    Undone env e s (unguarded env c s) := by
  have hret : UndoReturns env e s.calls.length ↔ (env.outcome s.calls.length).isThrow = false := by
    simp [UndoReturns, hg]
  unfold Undone
  rw [hret, hc]
  refine ⟨env.touch s.calls.length s.hw, ?_⟩
  cases ho : env.outcome s.calls.length with
  | throws f => exact ⟨nofun, fun _ => ⟨.throws f, by simp [unguarded, voidCallback, ho]⟩⟩
  | pushed => exact ⟨fun _ => by simp [unguarded, voidCallback, ho], fun h => absurd rfl h⟩
  | notPushed => exact ⟨fun _ => by simp [unguarded, voidCallback, ho], fun h => absurd rfl h⟩

theorem guarded_undone {e : RollbkElem} (hg : guarded e = true) (s : St V) {hw : Hw V} :
    Undone env e s (none, { s with hw := hw, calls := s.calls ++ [undoCall e] }) :=
  ⟨hw, fun _ => rfl, fun h => absurd (Or.inl hg) h⟩

theorem rollbackElem_undone (env : Env V) (objOld : BaseObj V) (e : RollbkElem) (s : St V) :
    Undone env e s (rollbackElem env objOld e s) := by
  obtain ⟨ty, n, hier⟩ := e
  cases ty with
  | createObj => exact guarded_undone rfl s
  | deleteObj => exact guarded_undone rfl s
  | modifyAttr =>
    -- a hierarchy of one attribute is a leaf's
    cases hier with
    | nil => exact unguarded_undone rfl rfl s
    | cons a rest =>
      cases rest with
      | nil => exact guarded_undone rfl s
      | cons b rest => exact unguarded_undone rfl rfl s
  | createAttr => exact unguarded_undone rfl rfl s
  | deleteAttr => exact unguarded_undone rfl rfl s

/-! ## The undo loop -/

theorem undoLoop_complete (objOld : BaseObj V) (l : List RollbkElem) : ∀ s : St V, s.rTrakr.reverse = l →
    (∀ p ∈ l.zipIdx s.calls.length, UndoReturns env p.1 p.2) →
    let r := undoLoop (rollbackElem env objOld) l s
    r.1 = none ∧ r.2.rTrakr = [] ∧ r.2.calls = s.calls ++ l.map undoCall := by
  induction l with
  | nil =>
    intro s hs _
    exact ⟨rfl, List.reverse_eq_nil_iff.mp hs, by simp [undoLoop]⟩
  | cons e l ih =>
    intro s hs hret
    rw [List.zipIdx_cons] at hret
    obtain ⟨hw, hok, -⟩ := rollbackElem_undone env objOld e s
    have hstep := hok (hret _ List.mem_cons_self)
    obtain ⟨h1, h2, h3⟩ := ih { s with hw := hw, calls := s.calls ++ [undoCall e], rTrakr := s.rTrakr.dropLast }
      (by rw [← List.tail_reverse, hs]; rfl)
      (fun p hp => hret p (List.mem_cons_of_mem _ (by simpa using hp)))
    simp only [undoLoop, hstep]
    exact ⟨h1, h2, by rw [h3]; simp⟩

theorem undoLoop_stuck (objOld : BaseObj V) (l : List RollbkElem) : ∀ s : St V, s.rTrakr.reverse = l →
    ¬ (∀ p ∈ l.zipIdx s.calls.length, UndoReturns env p.1 p.2) →
    let r := undoLoop (rollbackElem env objOld) l s
    (∃ f, r.1 = some f) ∧ r.2.rTrakr ≠ [] := by
  induction l with
  | nil => intro s _ h; exact absurd (fun _ hp => by cases hp) h
  | cons e l ih =>
    intro s hs hret
    obtain ⟨hw, hok, hfail⟩ := rollbackElem_undone env objOld e s
    by_cases he : UndoReturns env e s.calls.length
    · have hrest := ih { s with hw := hw, calls := s.calls ++ [undoCall e], rTrakr := s.rTrakr.dropLast }
        (by rw [← List.tail_reverse, hs]; rfl) (fun h => hret fun p hp => ?_)
      · simp only [undoLoop, hok he]
        exact hrest
      · rw [List.zipIdx_cons] at hp
        rcases List.mem_cons.mp hp with rfl | hp
        · exact he
        · exact h p (by simpa using hp)
    · obtain ⟨f, hf⟩ := hfail he
      simp only [undoLoop, hf]
      refine ⟨⟨f, rfl⟩, fun h => ?_⟩
      rw [h] at hs; cases hs

/-- A modify whose pushes end in `e`, the tracker being what they tracked in `s`: it is
    rolled back exactly when no unguarded undo of it throws. -/
theorem rollback_complete_iff (objNew objOld : BaseObj V) (rollingBack : Bool) (s0 s : St V) (e : BaseException)
    (h : modifyTry env objNew objOld rollingBack { s0 with rTrakr := [] } = (some e, s)) :
    RolledBack e s (baseModifyObjNdi env objNew objOld rollingBack s0) ↔
      ∀ p ∈ s.rTrakr.reverse.zipIdx s.calls.length, UndoReturns env p.1 p.2 := by
  unfold baseModifyObjNdi rollbackAndThrow rollbackModifyObjNdi
  rw [h]
  simp only
  refine ⟨fun hr => ?_, fun hret => ?_⟩
  · by_contra hret
    obtain ⟨⟨f, hf⟩, hne⟩ := undoLoop_stuck objOld _ s rfl hret
    generalize undoLoop (rollbackElem env objOld) s.rTrakr.reverse s = r at hr hf hne
    obtain ⟨x, t⟩ := r
    cases hf
    exact hne hr.2.1
  · obtain ⟨hn, htr, hc⟩ := undoLoop_complete objOld _ s rfl hret
    generalize undoLoop (rollbackElem env objOld) s.rTrakr.reverse s = r at hn htr hc
    obtain ⟨x, t⟩ := r
    cases hn
    exact ⟨rfl, htr, hc⟩

/-! ## Runs -/

def pushFail : BaseException := ⟨nasBaseEFull, "push failed"⟩
def undoFail : BaseException := ⟨nasBaseEParam, "undo failed"⟩

/-- The leaf attribute is pushed, the non-leaf one tracks a change of its sub-attribute
    and throws, and then `undo` is what each undo does. -/
def nonLeafFails (undo : Outcome) : Env Nat where
  outcome k := if k = 0 then .pushed else if k = 1 then .throws pushFail else undo
  tracked _ := [⟨.modifyAttr, 0, [2, 5]⟩]
  touch _ hw := hw

/-- On NPU 0, with leaf attribute 1 and non-leaf attribute 2 at `v`. -/
def objLeafNonLeaf (v : Nat) : BaseObj Nat :=
  { BaseObj.new (fun a => a ≠ 2) (fun _ => v) with
    dirtyAttributes := (AttrSet.empty.add 1).add 2, ndiCreated := true, npus := OrdSet.empty.insert 0 }

def onNpu0 : St Nat := ⟨fun n => if n = 0 then some (fun _ => 0) else none, [], []⟩

/-- The pushes of the modify, up to its exception. -/
def afterPushes (undo : Outcome) : St Nat :=
  (modifyTry (nonLeafFails undo) (objLeafNonLeaf 7) (objLeafNonLeaf 0) false onNpu0).2

theorem rollback_complete_iff_pushed : RolledBack pushFail (afterPushes .pushed)
    (baseModifyObjNdi (nonLeafFails .pushed) (objLeafNonLeaf 7) (objLeafNonLeaf 0) false onNpu0) :=
  (rollback_complete_iff (objLeafNonLeaf 7) (objLeafNonLeaf 0) false onNpu0 (afterPushes .pushed) pushFail
    (Prod.ext (by decide) rfl)).mpr (fun p hp => by
      have hp : p ∈ [((⟨.modifyAttr, 0, [2, 5]⟩ : RollbkElem), 2), (⟨.modifyAttr, 0, [1]⟩, 3)] := hp
      simp only [List.mem_cons, List.not_mem_nil, or_false] at hp
      rcases hp with rfl | rfl <;> exact Or.inr rfl)

/-- The non-leaf undo throws: it is the exception thrown, both elements stay in the
    tracker and the leaf attribute's undo is never run. -/
theorem rollback_abandoned :
    modifyTry (nonLeafFails (.throws undoFail)) (objLeafNonLeaf 7) (objLeafNonLeaf 0) false onNpu0 =
      (some pushFail, afterPushes (.throws undoFail)) ∧
    (let r := baseModifyObjNdi (nonLeafFails (.throws undoFail)) (objLeafNonLeaf 7) (objLeafNonLeaf 0) false onNpu0
    r.1 = some (.throws undoFail) ∧ r.2.rTrakr.length = 2 ∧ .pushLeafAttrToNpu .objOld 1 0 ∉ r.2.calls ∧
      ¬ RolledBack pushFail (afterPushes (.throws undoFail)) r) := by
  refine ⟨Prod.ext (by decide) rfl, by decide, by decide, by decide, fun h => ?_⟩
  exact absurd h.1 (by decide)

end NasCommon.Base
