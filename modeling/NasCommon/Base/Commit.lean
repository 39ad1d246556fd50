/-
  NasCommon.Base.Commit — committing an object to NDI (`commit_create`,
  `commit_modify`, `commit_delete` of `base_obj_t`).

  A commit that the created flag lets through does what `base_*_obj_ndi` does with the
  filled object (`commitCreate_eq`, `commitModify_eq`, `commitDelete_eq`), and ends in
  one of three ways (`commitCreate_cases`, `commitModify_cases`, `commitDelete_cases`).
-/

import NasCommon.Base.NdiUtl

namespace NasCommon.Base

variable {V : Type} (env : Env V)

def alreadyInNdi : BaseException := ⟨nasBaseEParam, "Cannot create object that is already pushed to NDI"⟩
def cannotModify : BaseException := ⟨nasBaseEParam, "Cannot modify object that is not in NDI"⟩
def cannotDelete : BaseException := ⟨nasBaseEParam, "Cannot delete object that is not in NDI"⟩

/-- With no NPUs set, take all of the logical switch. -/
def fillNpus (sw : BaseSwitch) (o : BaseObj V) : BaseObj V :=
  if o.npus.isEmpty then { o with followingSwitchNpus := true, npus := sw.npus } else o

/-- The failure, if any, and the object after the call. -/
def commitCreate (sw : BaseSwitch) (o : BaseObj V) (rollingBack : Bool) (s : St V) : Option Fault × BaseObj V × St V :=
  if o.isCreatedInNdi then (some (.throws alreadyInNdi), o, s)
  else
    let o := fillNpus sw { o with setAttributes := o.dirtyAttributes }
    match baseCreateObjNdi env o rollingBack s with
    | (some f, o, s) => (some f, o, s)
    | (none, o, s) => (none, o.clearAllDirtyFlags, s)

/-- On success, the attributes modified. -/
def commitModify (sw : BaseSwitch) (o objOld : BaseObj V) (rollingBack : Bool) (s : St V) :
    Except Fault AttrSet × BaseObj V × St V :=
  if ¬ o.isCreatedInNdi then (.error (.throws cannotModify), o, s)
  else
    let o := fillNpus sw { o with setAttributes := o.setAttributes.union o.dirtyAttributes }
    match baseModifyObjNdi env o objOld rollingBack s with
    | (some f, s) => (.error f, o, s)
    | (none, s) => (.ok o.dirtyAttributes, o.clearAllDirtyFlags, s)

def commitDelete (o : BaseObj V) (rollingBack : Bool) (s : St V) : Option Fault × BaseObj V × St V :=
  if ¬ o.isCreatedInNdi then (some (.throws cannotDelete), o, s)
  else
    match baseDeleteObjNdi env o rollingBack s with
    | (some f, s) => (some f, o, s)
    | (none, s) => (none, o.clearAllDirtyFlags, s)

/-! ## What is pushed, and what comes of it -/

/-- The object that `commit_create` pushes. -/
def createFilled (sw : BaseSwitch) (o : BaseObj V) : BaseObj V := fillNpus sw { o with setAttributes := o.dirtyAttributes }

/-- The object that `commit_modify` pushes. -/
def modifyFilled (sw : BaseSwitch) (o : BaseObj V) : BaseObj V :=
  fillNpus sw { o with setAttributes := o.setAttributes.union o.dirtyAttributes }

theorem commitCreate_refused (sw : BaseSwitch) {o : BaseObj V} (rollingBack : Bool) (hcreated : o.isCreatedInNdi = true)
    (s : St V) : commitCreate env sw o rollingBack s = (some (.throws alreadyInNdi), o, s) := if_pos hcreated

theorem commitModify_refused (sw : BaseSwitch) {o : BaseObj V} (objOld : BaseObj V) (rollingBack : Bool)
    (hcreated : ¬ o.isCreatedInNdi = true) (s : St V) :
    commitModify env sw o objOld rollingBack s = (.error (.throws cannotModify), o, s) := if_pos hcreated

theorem commitDelete_refused {o : BaseObj V} (rollingBack : Bool) (hcreated : ¬ o.isCreatedInNdi = true) (s : St V) :
    commitDelete env o rollingBack s = (some (.throws cannotDelete), o, s) := if_pos hcreated

theorem commitCreate_eq (sw : BaseSwitch) {o : BaseObj V} (rollingBack : Bool)
    (hcreated : o.isCreatedInNdi = false) (s : St V) :
    let r := baseCreateObjNdi env (createFilled sw o) rollingBack s
    commitCreate env sw o rollingBack s = (r.1,
      if r.1 = none then (createFilled sw o).markNdiCreated.clearAllDirtyFlags else createFilled sw o, r.2.2) := by
  intro r
  have hr : commitCreate env sw o rollingBack s = match r with
    | (some f, o, s) => (some f, o, s)
    | (none, o, s) => (none, o.clearAllDirtyFlags, s) := if_neg (by simp [hcreated])
  have hobj : r.2.1 = if r.1 = none then (createFilled sw o).markNdiCreated else createFilled sw o := rfl
  rw [hr]
  clear_value r
  obtain ⟨x, o1, s1⟩ := r
  cases x with
  | none => exact congrArg (fun o : BaseObj V => (none, o.clearAllDirtyFlags, s1)) hobj
  | some f => exact congrArg (fun o : BaseObj V => (some f, o, s1)) hobj

/-- What `commit_modify` returns. -/
def modifyResult (dirty : AttrSet) : Option Fault → Except Fault AttrSet
  | none => .ok dirty
  | some f => .error f

theorem commitModify_eq (sw : BaseSwitch) {o : BaseObj V} (objOld : BaseObj V) (rollingBack : Bool)
    (hcreated : o.isCreatedInNdi = true) (s : St V) :
    let r := baseModifyObjNdi env (modifyFilled sw o) objOld rollingBack s
    commitModify env sw o objOld rollingBack s = (modifyResult (modifyFilled sw o).dirtyAttributes r.1,
      if r.1 = none then (modifyFilled sw o).clearAllDirtyFlags else modifyFilled sw o, r.2) := by
  intro r
  have hr : commitModify env sw o objOld rollingBack s = match r with
    | (some f, s) => (.error f, modifyFilled sw o, s)
    | (none, s) => (.ok (modifyFilled sw o).dirtyAttributes, (modifyFilled sw o).clearAllDirtyFlags, s) :=
    if_neg (by simp [hcreated])
  rw [hr]
  clear_value r
  obtain ⟨x, s1⟩ := r
  cases x <;> rfl

theorem commitDelete_eq {o : BaseObj V} (rollingBack : Bool) (hcreated : o.isCreatedInNdi = true) (s : St V) :
    let r := baseDeleteObjNdi env o rollingBack s
    commitDelete env o rollingBack s = (r.1, if r.1 = none then o.clearAllDirtyFlags else o, r.2) := by
  intro r
  have hr : commitDelete env o rollingBack s = match r with
    | (some f, s) => (some f, o, s)
    | (none, s) => (none, o.clearAllDirtyFlags, s) := if_neg (by simp [hcreated])
  rw [hr]
  clear_value r
  obtain ⟨x, s1⟩ := r
  cases x <;> rfl

/-! A commit is refused and does nothing, fails and leaves the filled object, or succeeds. -/

theorem commitCreate_cases (sw : BaseSwitch) (o : BaseObj V) (rollingBack : Bool) (s : St V) :
    let r := commitCreate env sw o rollingBack s
    (o.isCreatedInNdi = true ∧ r = (some (.throws alreadyInNdi), o, s)) ∨
    (o.isCreatedInNdi = false ∧ ∃ f s', r = (some f, createFilled sw o, s')) ∨
    (o.isCreatedInNdi = false ∧ ∃ s', r = (none, (createFilled sw o).markNdiCreated.clearAllDirtyFlags, s')) := by
  cases h : o.isCreatedInNdi with
  | true => exact Or.inl ⟨rfl, commitCreate_refused env sw rollingBack h s⟩
  | false =>
    rw [commitCreate_eq env sw rollingBack h]
    generalize baseCreateObjNdi env (createFilled sw o) rollingBack s = r
    obtain ⟨x, o1, s1⟩ := r
    cases x with
    | some f => exact Or.inr (Or.inl ⟨rfl, f, s1, rfl⟩)
    | none => exact Or.inr (Or.inr ⟨rfl, s1, rfl⟩)

theorem commitModify_cases (sw : BaseSwitch) (o objOld : BaseObj V) (rollingBack : Bool) (s : St V) :
    let r := commitModify env sw o objOld rollingBack s
    (o.isCreatedInNdi = false ∧ r = (.error (.throws cannotModify), o, s)) ∨
    (o.isCreatedInNdi = true ∧ ∃ f s', r = (.error f, modifyFilled sw o, s')) ∨
    (o.isCreatedInNdi = true ∧
      ∃ s', r = (.ok (modifyFilled sw o).dirtyAttributes, (modifyFilled sw o).clearAllDirtyFlags, s')) := by
  cases h : o.isCreatedInNdi with
  | false => exact Or.inl ⟨rfl, commitModify_refused env sw objOld rollingBack (by simp [h]) s⟩
  | true =>
    rw [commitModify_eq env sw objOld rollingBack h]
    generalize baseModifyObjNdi env (modifyFilled sw o) objOld rollingBack s = r
    obtain ⟨x, s1⟩ := r
    cases x with
    | some f => exact Or.inr (Or.inl ⟨rfl, f, s1, rfl⟩)
    | none => exact Or.inr (Or.inr ⟨rfl, s1, rfl⟩)

theorem commitDelete_cases (o : BaseObj V) (rollingBack : Bool) (s : St V) :
    let r := commitDelete env o rollingBack s
    (o.isCreatedInNdi = false ∧ r = (some (.throws cannotDelete), o, s)) ∨
    (o.isCreatedInNdi = true ∧ ∃ f s', r = (some f, o, s')) ∨
    (o.isCreatedInNdi = true ∧ ∃ s', r = (none, o.clearAllDirtyFlags, s')) := by
  cases h : o.isCreatedInNdi with
  | false => exact Or.inl ⟨rfl, commitDelete_refused env rollingBack (by simp [h]) s⟩
  | true =>
    rw [commitDelete_eq env rollingBack h]
    generalize baseDeleteObjNdi env o rollingBack s = r
    obtain ⟨x, s1⟩ := r
    cases x with
    | some f => exact Or.inr (Or.inl ⟨rfl, f, s1, rfl⟩)
    | none => exact Or.inr (Or.inr ⟨rfl, s1, rfl⟩)

end NasCommon.Base
