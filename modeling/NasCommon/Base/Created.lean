/-
  NasCommon.Base.Created — the created flag over an object's life.

  The flag gates every commit: a create is refused when it is set, a modify and a
  delete when it is not. A successful create sets it (`mark_ndi_created`).
  `mark_ndi_removed`, which clears it, is called nowhere, `base_delete_obj_ndi`
  included, so a deleted object stays created.
  - `created_tracks_iff`: over any run of commits and changes between them, the flag
    says that the last create or delete that succeeded was a create exactly when no
    delete succeeds, that is when every one is refused or has a push that throws. A
    failed commit leaves the flag as it was.
  - `deleted_stays_created`: create, delete, and a second delete succeeds.
-/

import NasCommon.Base.Incremental
import NasCommon.Lib.Runs

namespace NasCommon.Base.Created

variable {V : Type} (env : Env V) (sw : BaseSwitch)

/-! ## The life of an object -/

/-- The commits, and the object's changes between them. -/
inductive Op (V : Type) where
  | commitCreate
  | commitModify (objOld : BaseObj V)
  | commitDelete
  | markAttrDirty (attrId : AttrId)
  | addNpu (npuId : NpuId) (reset : Bool)
  | resetNpus

structure Life (V : Type) where
  obj : BaseObj V
  st : St V
  /-- The last create or delete commit that returned was a create. -/
  lastIsCreate : Bool

def step (s : Life V) : Op V → Option Fault × Life V
  | .commitCreate =>
    let r := commitCreate env sw s.obj false s.st
    (r.1, ⟨r.2.1, r.2.2, if r.1 = none then true else s.lastIsCreate⟩)
  | .commitModify objOld =>
    let r := commitModify env sw s.obj objOld false s.st
    (match r.1 with | .ok _ => none | .error f => some f, ⟨r.2.1, r.2.2, s.lastIsCreate⟩)
  | .commitDelete =>
    let r := commitDelete env s.obj false s.st
    (r.1, ⟨r.2.1, r.2.2, if r.1 = none then false else s.lastIsCreate⟩)
  | .markAttrDirty attrId => (none, { s with obj := s.obj.markAttrDirty attrId })
  | .addNpu npuId reset =>
    match s.obj.addNpu sw npuId reset with
    | .ok o => (none, { s with obj := o })
    | .error e => (some (.throws e), s)
  | .resetNpus => (none, { s with obj := s.obj.resetNpus })

def Tracks (s : Life V) : Prop := s.obj.isCreatedInNdi = s.lastIsCreate

instance (s : Life V) : Decidable (Tracks s) := inferInstanceAs (Decidable (_ = _))

/-- A delete is refused, or one of its pushes throws. -/
def DeleteFails (s : Life V) : Op V → Prop
  | .commitDelete => s.obj.isCreatedInNdi = false ∨
      ∃ i < s.obj.npuList.size, (env.outcome (s.st.calls.length + i)).isThrow = true
  | _ => True

/-! ## What the commits do to the flag -/

variable {env sw}

/-- A push loop ends without an exception exactly when none of its pushes throws. -/
theorem pushEach_none_iff {c : NpuId → Callback} {eff : NpuId → Hw V → Hw V} {elem : NpuId → RollbkElem}
    (l : List NpuId) : ∀ s : St V, (pushEach (fun n => push env (c n) (eff n)) elem false l s).1 = none ↔
      ∀ i < l.length, (env.outcome (s.calls.length + i)).isThrow = false := by
  induction l with
  | nil => intro s; simp [pushEach]
  | cons n l ih =>
    intro s
    have hsplit : (∀ i < (n :: l).length, (env.outcome (s.calls.length + i)).isThrow = false) ↔
        (env.outcome s.calls.length).isThrow = false ∧
          ∀ i < l.length, (env.outcome (s.calls.length + 1 + i)).isThrow = false := by
      refine ⟨fun h => ⟨h 0 (by simp), fun i hi => ?_⟩, fun h i hi => ?_⟩
      · have := h (i + 1) (by simpa using hi)
        rwa [show s.calls.length + (i + 1) = s.calls.length + 1 + i by omega] at this
      · cases i with
        | zero => exact h.1
        | succ i =>
          have := h.2 i (by simpa using hi)
          rwa [show s.calls.length + 1 + i = s.calls.length + (i + 1) by omega] at this
    rw [hsplit]
    simp only [pushEach]
    cases ho : env.outcome s.calls.length with
    | pushed => simp [push, ho, ih, Outcome.isThrow]
    | notPushed => simp [push, ho, ih, Outcome.isThrow]
    | throws e => simp [push, ho, Outcome.isThrow]

theorem rollbackAndThrow_none_iff {rollback : St V → Option Fault × St V} {r : Option BaseException × St V} :
    (rollbackAndThrow rollback r).1 = none ↔ r.1 = none := by
  obtain ⟨x, s⟩ := r
  cases x with
  | none => simp [rollbackAndThrow]
  | some e =>
    simp only [rollbackAndThrow]
    split <;> simp

theorem fillNpus_created (o : BaseObj V) : (fillNpus sw o).ndiCreated = o.ndiCreated := by
  unfold fillNpus
  split <;> rfl

/-- A create that returns sets the flag, one that fails leaves it. -/
theorem commitCreate_flag (o : BaseObj V) (rollingBack : Bool) (s : St V) :
    let r := commitCreate env sw o rollingBack s
    r.2.1.ndiCreated = if r.1 = none then true else o.ndiCreated := by
  rcases commitCreate_cases env sw o rollingBack s with ⟨-, h⟩ | ⟨-, f, s', h⟩ | ⟨-, s', h⟩ <;> rw [h]
  · rfl
  · exact fillNpus_created _
  · rfl

/-- A modify leaves it. -/
theorem commitModify_flag (o objOld : BaseObj V) (rollingBack : Bool) (s : St V) :
    (commitModify env sw o objOld rollingBack s).2.1.ndiCreated = o.ndiCreated := by
  rcases commitModify_cases env sw o objOld rollingBack s with ⟨-, h⟩ | ⟨-, f, s', h⟩ | ⟨-, s', h⟩ <;> rw [h]
  · exact fillNpus_created _
  · exact fillNpus_created _

/-- So does a delete, also one that returns. -/
theorem commitDelete_flag (o : BaseObj V) (rollingBack : Bool) (s : St V) :
    (commitDelete env o rollingBack s).2.1.ndiCreated = o.ndiCreated := by
  rcases commitDelete_cases env o rollingBack s with ⟨-, h⟩ | ⟨-, f, s', h⟩ | ⟨-, s', h⟩ <;> rw [h]
  rfl

theorem commitDelete_none_iff (env : Env V) (o : BaseObj V) (s : St V) : (commitDelete env o false s).1 = none ↔
    o.ndiCreated = true ∧ ∀ i < o.npuList.size, (env.outcome (s.calls.length + i)).isThrow = false := by
  by_cases h : o.ndiCreated = true
  · have hb : (baseDeleteObjNdi env o false s).1 = none ↔
        ∀ i < o.npuList.size, (env.outcome (s.calls.length + i)).isThrow = false :=
      rollbackAndThrow_none_iff.trans (pushEach_none_iff o.npuList.elems { s with rTrakr := [] })
    rw [commitDelete_eq env false h]
    exact hb.trans (by simp [h])
  · simp [commitDelete, BaseObj.isCreatedInNdi, h]

theorem addNpu_flag {o o' : BaseObj V} {npuId : NpuId} {reset : Bool} (h : o.addNpu sw npuId reset = .ok o') :
    o'.ndiCreated = o.ndiCreated := by
  obtain ⟨-, npus, -, rfl⟩ := BaseObj.addNpu_ok h
  rfl

/-- A step that fails leaves the flag as it was. -/
theorem step_failed (s : Life V) (op : Op V) {f : Fault} (h : (step env sw s op).1 = some f) :
    (step env sw s op).2.obj.isCreatedInNdi = s.obj.isCreatedInNdi := by
  cases op with
  | commitCreate =>
    simp only [step] at h ⊢
    exact (commitCreate_flag _ _ _).trans (by rw [h]; simp; rfl)
  | commitModify objOld => exact commitModify_flag _ _ _ _
  | commitDelete => exact commitDelete_flag _ _ _
  | markAttrDirty attrId => rfl
  | addNpu npuId reset =>
    simp only [step] at h ⊢
    split at h
    · cases h
    · rfl
  | resetNpus => rfl

/-- From a state that tracks, the next one does exactly when no delete returns. -/
theorem step_tracks (s : Life V) (op : Op V) (h : Tracks s) : Tracks (step env sw s op).2 ↔ DeleteFails env s op := by
  cases op with
  | commitCreate =>
    refine iff_of_true ?_ trivial
    show (commitCreate env sw s.obj false s.st).2.1.ndiCreated = _
    rw [commitCreate_flag]
    simp only [step]
    split
    · rfl
    · exact h
  | commitModify objOld => exact iff_of_true ((commitModify_flag _ _ _ _).trans h) trivial
  | commitDelete =>
    have hflag : (step env sw s .commitDelete).2.obj.isCreatedInNdi = s.obj.isCreatedInNdi := commitDelete_flag _ _ _
    have hn := commitDelete_none_iff env s.obj s.st
    unfold Tracks at h ⊢
    rw [hflag]
    simp only [step, DeleteFails]
    by_cases hr : (commitDelete env s.obj false s.st).1 = none
    · -- the delete returns: the flag stays set
      obtain ⟨hc, hall⟩ := hn.mp hr
      refine iff_of_false ?_ ?_
      · simp [hr, BaseObj.isCreatedInNdi, hc]
      · intro h
        rcases h with h0 | ⟨i, hi, ht⟩
        · simp [BaseObj.isCreatedInNdi, hc] at h0
        · rw [hall i hi] at ht; cases ht
    · refine iff_of_true (by simpa [hr] using h) ?_
      by_contra hno
      rw [not_or] at hno
      refine hr (hn.mpr ⟨by simpa [BaseObj.isCreatedInNdi] using hno.1, fun i hi => ?_⟩)
      cases ht : (env.outcome (s.st.calls.length + i)).isThrow with
      | false => rfl
      | true => exact absurd ⟨i, hi, ht⟩ hno.2
  | markAttrDirty attrId => exact iff_of_true h trivial
  | addNpu npuId reset =>
    refine iff_of_true ?_ trivial
    simp only [step]
    split
    · rename_i o' ho; exact (addNpu_flag ho).trans h
    · exact h
  | resetNpus => exact iff_of_true h trivial

/-- What the flag tells the next commit. -/
theorem removed_gates (s : Life V) (h : s.obj.isCreatedInNdi = false) :
    (step env sw s .commitDelete).1 = some (.throws cannotDelete) ∧
      (∀ objOld, (step env sw s (.commitModify objOld)).1 = some (.throws cannotModify)) ∧
      (AllPushed env s.st → (step env sw s .commitCreate).1 = none) := by
  refine ⟨by simp [step, commitDelete, h], fun objOld => by simp [step, commitModify, h], fun hs => ?_⟩
  have hc := (create_completes (createFilled sw s.obj) false hs).1
  show (commitCreate env sw s.obj false s.st).1 = none
  rw [commitCreate_eq env sw false h]
  exact hc

/-- Over the runs of a new object: the flag tracks the hardware in every state exactly
    when no delete returns; where it tracks and the last one that returned was a
    delete, the gates refuse a delete and a modify and let a create through; and a
    commit that fails leaves the flag. -/
theorem created_tracks_iff (env : Env V) (sw : BaseSwitch) (isLeafAttr : AttrId → Bool) (value : Image V) (s : St V)
    (ops : List (Op V)) :
    (Runs.Always (step env sw) Tracks ⟨.new isLeafAttr value, s, false⟩ ops ↔
      Runs.Steps (step env sw) (DeleteFails env) ⟨.new isLeafAttr value, s, false⟩ ops) ∧
    (∀ t : Life V, Tracks t → t.lastIsCreate = false →
      (step env sw t .commitDelete).1 = some (.throws cannotDelete) ∧
        (∀ objOld, (step env sw t (.commitModify objOld)).1 = some (.throws cannotModify)) ∧
        (AllPushed env t.st → (step env sw t .commitCreate).1 = none)) ∧
    (∀ (t : Life V) op f, (step env sw t op).1 = some f →
      (step env sw t op).2.obj.isCreatedInNdi = t.obj.isCreatedInNdi) := by
  refine ⟨?_, fun t ht hl => removed_gates t (ht.trans hl), fun t op f h => step_failed t op h⟩
  exact Runs.always_iff_steps (I := fun _ => True) (fun _ _ _ => trivial) (fun t op _ h => step_tracks t op h) ops _
    trivial rfl

/-- Created and deleted, the flag still says created, and a second delete returns. -/
theorem deleted_stays_created :
    ¬ Runs.Always (step everyPush ⟨OrdSet.empty.insert 1⟩) Tracks
        ⟨.new (fun _ => true) (fun _ => 0), ⟨fun _ => none, [], []⟩, false⟩ [.commitCreate, .commitDelete] ∧
    Runs.answers (step everyPush ⟨OrdSet.empty.insert 1⟩)
        ⟨.new (fun _ => true) (fun _ => 0), ⟨fun _ => none, [], []⟩, false⟩
        [.commitCreate, .commitDelete, .commitDelete] = [none, none, none] := by
  refine ⟨fun h => ?_, by decide⟩
  exact absurd (h _ (List.prefix_refl _)) (by decide)

end NasCommon.Base.Created
