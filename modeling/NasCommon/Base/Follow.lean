/-
  NasCommon.Base.Follow — the NPU lists of the objects of one switch.

  An object with no NPUs takes all of its switch's when it is committed and from then on
  follows the switch (`following_switch_npus`: "Does this object have all NPUs of the
  logical switch to which it belongs"). The list is a copy, which `base_switch_t::add_npu`
  does not reach, and a later commit fills only an empty one. So an object that follows
  the switch can be committed without the NPUs the switch gained since.
  - `follow_iff`: over any run, each commit that succeeds leaves its object with NPUs of
    the switch only, and with all of them where it follows the switch, exactly when none
    of them is of an object that follows the switch and has missed an NPU (`Current`).
  - `created_then_gained`: create, an NPU for the switch, modify.
-/

import NasCommon.Base.Incremental
import NasCommon.Lib.Runs

namespace NasCommon.Base.Follow

variable {V : Type} (env : Env V)

/-! ## A switch and its objects -/

abbrev ObjId := Nat

structure World (V : Type) where
  sw : BaseSwitch
  objs : ObjId → BaseObj V
  st : St V
  /-- The switch gained an NPU since the object's list was last empty. -/
  gained : ObjId → Bool

/-- New objects of a switch. -/
def World.new (sw : BaseSwitch) (isLeafAttr : ObjId → AttrId → Bool) (value : ObjId → Image V) (st : St V) : World V :=
  ⟨sw, fun id => .new (isLeafAttr id) (value id), st, fun _ => false⟩

inductive Op (V : Type) where
  | switchAddNpu (npuId : NpuId)
  | addNpu (id : ObjId) (npuId : NpuId) (reset : Bool)
  | resetNpus (id : ObjId)
  | markAttrDirty (id : ObjId) (attrId : AttrId)
  | commitCreate (id : ObjId) (rollingBack : Bool)
  | commitModify (id : ObjId) (objOld : BaseObj V) (rollingBack : Bool)
  | commitDelete (id : ObjId) (rollingBack : Bool)

def World.set (w : World V) (id : ObjId) (o : BaseObj V) (st : St V) : World V :=
  { w with objs := Function.update w.objs id o, st := st }

def step (w : World V) : Op V → Option Fault × World V
  | .switchAddNpu npuId =>
    (none, { w with
      sw := w.sw.addNpu npuId
      gained := fun id => w.gained id || (!w.sw.npus.contains npuId && !(w.objs id).npus.isEmpty) })
  | .addNpu id npuId reset =>
    match (w.objs id).addNpu w.sw npuId reset with
    | .ok o => (none, w.set id o w.st)
    | .error e => (some (.throws e), w)
  | .resetNpus id =>
    (none, { w.set id (w.objs id).resetNpus w.st with gained := Function.update w.gained id false })
  | .markAttrDirty id attrId => (none, w.set id ((w.objs id).markAttrDirty attrId) w.st)
  | .commitCreate id rollingBack =>
    let r := commitCreate env w.sw (w.objs id) rollingBack w.st
    (r.1, w.set id r.2.1 r.2.2)
  | .commitModify id objOld rollingBack =>
    let r := commitModify env w.sw (w.objs id) objOld rollingBack w.st
    (match r.1 with | .ok _ => none | .error f => some f, w.set id r.2.1 r.2.2)
  | .commitDelete id rollingBack =>
    let r := commitDelete env (w.objs id) rollingBack w.st
    (r.1, w.set id r.2.1 r.2.2)

/-- The object that a create or a modify commits. -/
def Op.commits : Op V → Option ObjId
  | .commitCreate id _ => some id
  | .commitModify id _ _ => some id
  | _ => none

/-- The object has NPUs of the switch, and all of them if it follows it. -/
def Follows (sw : BaseSwitch) (o : BaseObj V) : Prop :=
  (∀ n ∈ o.npuList, n ∈ sw.npus) ∧ (o.followingSwitchNpus = true → o.npuList = sw.npus)

/-- What is asked of a commit that succeeds. -/
def CommitFollows (w : World V) (op : Op V) : Prop :=
  ∀ id, op.commits = some id → (step env w op).1 = none → Follows (step env w op).2.sw ((step env w op).2.objs id)

/-- The object to be committed does not follow the switch, or has missed none of its NPUs. -/
def Current (w : World V) (op : Op V) : Prop :=
  ∀ id, op.commits = some id → ¬ ((w.objs id).followingSwitchNpus = true ∧ w.gained id = true)

/-! ## What each operation does to a list -/

variable {env} {sw : BaseSwitch} {o o' : BaseObj V} {gained : Bool}

/-- What an object's list and flag tell of the switch. -/
structure Listed (sw : BaseSwitch) (o : BaseObj V) (gained : Bool) : Prop where
  within : ∀ n ∈ o.npus, n ∈ sw.npus
  fresh : o.npus.isEmpty = true → gained = false
  full : o.followingSwitchNpus = true → o.npus.isEmpty = false → (gained = false ↔ o.npus = sw.npus)

theorem Listed.congr (h : Listed sw o gained) (hn : o'.npus = o.npus)
    (hf : o'.followingSwitchNpus = o.followingSwitchNpus) : Listed sw o' gained := by
  refine ⟨?_, ?_, ?_⟩
  · rw [hn]; exact h.within
  · rw [hn]; exact h.fresh
  · rw [hn, hf]; exact h.full

theorem Listed.new (sw : BaseSwitch) (isLeafAttr : AttrId → Bool) (value : Image V) :
    Listed sw (.new isLeafAttr value) false where
  within n hn := absurd hn (by simp [BaseObj.new])
  fresh _ := rfl
  full h := by cases h

theorem Listed.switchAddNpu (h : Listed sw o gained) (npuId : NpuId) :
    Listed (sw.addNpu npuId) o (gained || (!sw.npus.contains npuId && !o.npus.isEmpty)) := by
  by_cases hin : npuId ∈ sw.npus
  · -- the switch has it: nothing is gained
    have hsame : sw.addNpu npuId = sw := by
      have hset : sw.npus.insert npuId = sw.npus := by
        ext n
        simp only [OrdSet.mem_insert, or_iff_right_iff_imp]
        rintro rfl
        exact hin
      exact congrArg BaseSwitch.mk hset
    rw [hsame, OrdSet.contains_iff.mpr hin]
    simpa using h
  · have hnot : sw.npus.contains npuId = false := by simpa [← OrdSet.contains_iff] using hin
    refine ⟨fun n hn => OrdSet.mem_insert.mpr (Or.inr (h.within n hn)), fun he => ?_, fun _ he => ?_⟩
    · simp [h.fresh he, he]
    · refine iff_of_false (by simp [hnot, he]) fun e => hin (h.within npuId ?_)
      rw [e]
      exact OrdSet.mem_insert.mpr (Or.inl rfl)

/-- The object stops following. -/
theorem Listed.addNpu {npuId : NpuId} {reset : Bool} (h : Listed sw o gained)
    (ho : o.addNpu sw npuId reset = .ok o') : Listed sw o' gained := by
  obtain ⟨hin, npus, hn, rfl⟩ := BaseObj.addNpu_ok ho
  refine ⟨fun n hm => ?_, fun he => ?_, fun hfo => by cases hfo⟩
  · rcases OrdSet.mem_insert.mp hm with rfl | hm
    · exact hin
    · rcases hn with rfl | rfl
      · exact h.within n hm
      · exact absurd hm (by simp)
  · exact absurd (OrdSet.mem_insert.mpr (Or.inl rfl)) (OrdSet.isEmpty_iff.mp he npuId)

/-- Following is left to the next commit, which fills the list. -/
theorem Listed.resetNpus (sw : BaseSwitch) (o : BaseObj V) : Listed sw o.resetNpus false where
  within n hn := absurd hn (by simp [BaseObj.resetNpus])
  fresh _ := rfl
  full _ h := by cases h

/-- The list and the flag that a commit leaves. -/
def Filled (sw : BaseSwitch) (o o' : BaseObj V) : Prop :=
  o'.npus = (fillNpus sw o).npus ∧ o'.followingSwitchNpus = (fillNpus sw o).followingSwitchNpus

theorem Listed.filled (h : Listed sw o gained) (hf : Filled sw o o') : Listed sw o' gained := by
  by_cases he : o.npus.isEmpty = true
  · have hn : o'.npus = sw.npus := hf.1.trans (by simp [fillNpus, he])
    refine ⟨fun n hm => by rwa [hn] at hm, fun _ => h.fresh he, fun _ _ => iff_of_true (h.fresh he) hn⟩
  · exact h.congr (hf.1.trans (by simp [fillNpus, he])) (hf.2.trans (by simp [fillNpus, he]))

/-- A filled object is as asked exactly when it had missed no NPU while following. -/
theorem Listed.follows_iff (h : Listed sw o gained) (hf : Filled sw o o') :
    Follows sw o' ↔ ¬ (o.followingSwitchNpus = true ∧ gained = true) := by
  by_cases he : o.npus.isEmpty = true
  · have hn : o'.npus = sw.npus := hf.1.trans (by simp [fillNpus, he])
    refine iff_of_true ⟨fun n hm => ?_, fun _ => hn⟩ fun hc => ?_
    · rwa [show o'.npuList = sw.npus from hn] at hm
    · rw [h.fresh he] at hc
      exact absurd hc.2 (by decide)
  · have hne : o.npus.isEmpty = false := by simpa using he
    have hn : o'.npuList = o.npus := hf.1.trans (by simp [fillNpus, he])
    have hfl : o'.followingSwitchNpus = o.followingSwitchNpus := hf.2.trans (by simp [fillNpus, he])
    unfold Follows
    rw [hn, hfl, not_and, Bool.not_eq_true]
    constructor
    · rintro ⟨-, hall⟩ hfo
      exact (h.full hfo hne).mpr (hall hfo)
    · intro hall
      exact ⟨h.within, fun hfo => (h.full hfo hne).mp (hall hfo)⟩

theorem fillNpus_filled (sw : BaseSwitch) (o : BaseObj V) (attrs : AttrSet) :
    Filled sw o (fillNpus sw { o with setAttributes := attrs }) := by
  obtain ⟨npus, following, hfill⟩ := fillNpus_eq sw o
  rw [Filled, hfill, show fillNpus sw o = _ from hfill o.setAttributes]
  exact ⟨rfl, rfl⟩

/-- A create is refused and leaves the object, or fills it. -/
theorem commitCreate_filled (env : Env V) (sw : BaseSwitch) (o : BaseObj V) (rollingBack : Bool) (st : St V) :
    let r := commitCreate env sw o rollingBack st
    (r.1 ≠ none ∧ r.2.1 = o) ∨ Filled sw o r.2.1 := by
  rcases commitCreate_cases env sw o rollingBack st with ⟨-, h⟩ | ⟨-, f, st', h⟩ | ⟨-, st', h⟩ <;> rw [h]
  · exact Or.inl ⟨by simp, rfl⟩
  · exact Or.inr (fillNpus_filled sw o _)
  · exact Or.inr (fillNpus_filled sw o _)

/-- So is a modify, or it fills it. -/
theorem commitModify_filled (env : Env V) (sw : BaseSwitch) (o objOld : BaseObj V) (rollingBack : Bool) (st : St V) :
    let r := commitModify env sw o objOld rollingBack st
    (r.1 = .error (.throws cannotModify) ∧ r.2.1 = o) ∨ Filled sw o r.2.1 := by
  rcases commitModify_cases env sw o objOld rollingBack st with ⟨-, h⟩ | ⟨-, f, st', h⟩ | ⟨-, st', h⟩ <;> rw [h]
  · exact Or.inl ⟨rfl, rfl⟩
  · exact Or.inr (fillNpus_filled sw o _)
  · exact Or.inr (fillNpus_filled sw o _)

theorem commitDelete_list (env : Env V) (o : BaseObj V) (rollingBack : Bool) (st : St V) :
    let r := commitDelete env o rollingBack st
    r.2.1.npus = o.npus ∧ r.2.1.followingSwitchNpus = o.followingSwitchNpus := by
  rcases commitDelete_cases env o rollingBack st with ⟨-, h⟩ | ⟨-, f, st', h⟩ | ⟨-, st', h⟩ <;> rw [h]
  · exact ⟨rfl, rfl⟩
  · exact ⟨rfl, rfl⟩
  · exact ⟨rfl, rfl⟩

/-! ## Runs -/

/-- Every object's list and flag tell that of the switch. -/
def Inv (w : World V) : Prop := ∀ id, Listed w.sw (w.objs id) (w.gained id)

theorem Inv.set {w : World V} (h : Inv w) (id : ObjId) {o : BaseObj V} (st : St V)
    (ho : Listed w.sw o (w.gained id)) : Inv (w.set id o st) := by
  intro i
  by_cases e : i = id
  · subst e
    simpa [World.set] using ho
  · simpa [World.set, e] using h i

theorem step_inv (env : Env V) (w : World V) (op : Op V) (h : Inv w) : Inv (step env w op).2 := by
  cases op with
  | switchAddNpu npuId => exact fun id => (h id).switchAddNpu npuId
  | addNpu id npuId reset =>
    simp only [step]
    cases ho : (w.objs id).addNpu w.sw npuId reset with
    | ok o => exact h.set id w.st ((h id).addNpu ho)
    | error e => exact h
  | resetNpus id =>
    intro i
    by_cases e : i = id
    · subst e
      simpa [step, World.set] using Listed.resetNpus w.sw (w.objs i)
    · simpa [step, World.set, e] using h i
  | markAttrDirty id attrId => exact h.set id w.st ((h id).congr rfl rfl)
  | commitCreate id rollingBack =>
    apply h.set id
    rcases commitCreate_filled env w.sw (w.objs id) rollingBack w.st with ⟨-, he⟩ | hf
    · rw [he]; exact h id
    · exact (h id).filled hf
  | commitModify id objOld rollingBack =>
    apply h.set id
    rcases commitModify_filled env w.sw (w.objs id) objOld rollingBack w.st with ⟨-, he⟩ | hf
    · rw [he]; exact h id
    · exact (h id).filled hf
  | commitDelete id rollingBack =>
    obtain ⟨hn, hf⟩ := commitDelete_list env (w.objs id) rollingBack w.st
    exact h.set id _ ((h id).congr hn hf)

theorem step_committed (w : World V) (op : Op V) (id : ObjId) (hc : op.commits = some id)
    (hok : (step env w op).1 = none) :
    (step env w op).2.sw = w.sw ∧ Filled w.sw (w.objs id) ((step env w op).2.objs id) := by
  cases op with
  | commitCreate i rollingBack =>
    cases hc
    refine ⟨rfl, ?_⟩
    rcases commitCreate_filled env w.sw (w.objs id) rollingBack w.st with ⟨hne, -⟩ | hf
    · exact absurd hok hne
    · simpa [step, World.set] using hf
  | commitModify i objOld rollingBack =>
    cases hc
    refine ⟨rfl, ?_⟩
    rcases commitModify_filled env w.sw (w.objs id) objOld rollingBack w.st with ⟨he, -⟩ | hf
    · simp [step, he] at hok
    · simpa [step, World.set] using hf
  | switchAddNpu npuId => cases hc
  | addNpu i npuId reset => cases hc
  | resetNpus i => cases hc
  | markAttrDirty i attrId => cases hc
  | commitDelete i rollingBack => cases hc

theorem step_commitFollows_iff (env : Env V) (w : World V) (op : Op V) (h : Inv w) :
    CommitFollows env w op ↔ ((step env w op).1 = none → Current w op) := by
  have hiff : ∀ id, op.commits = some id → (step env w op).1 = none →
      (Follows (step env w op).2.sw ((step env w op).2.objs id) ↔
        ¬ ((w.objs id).followingSwitchNpus = true ∧ w.gained id = true)) := by
    intro id hc hok
    obtain ⟨hsw, hf⟩ := step_committed w op id hc hok
    rw [hsw]
    exact (h id).follows_iff hf
  constructor
  · intro hall hok id hc
    exact (hiff id hc hok).mp (hall id hc hok)
  · intro hall id hc hok
    exact (hiff id hc hok).mpr (hall hok id hc)

/-- Over the runs of a switch and new objects of it. If no create or modify is of an
    object that follows the switch and whose switch gained an NPU since its list was last
    empty, each that succeeds leaves its object with NPUs of the switch only, and with all
    of them where it follows the switch. And each does so exactly when none that succeeds
    is of such an object. -/
theorem follow_iff (env : Env V) (sw : BaseSwitch) (isLeafAttr : ObjId → AttrId → Bool) (value : ObjId → Image V)
    (st : St V) (ops : List (Op V)) :
    (Runs.Steps (step env) Current (.new sw isLeafAttr value st) ops →
      Runs.Steps (step env) (CommitFollows env) (.new sw isLeafAttr value st) ops) ∧
    (Runs.Steps (step env) (CommitFollows env) (.new sw isLeafAttr value st) ops ↔
      Runs.Steps (step env) (fun w op => (step env w op).1 = none → Current w op) (.new sw isLeafAttr value st) ops) := by
  have hnew : Inv (.new sw isLeafAttr value st : World V) := fun id => Listed.new sw (isLeafAttr id) (value id)
  have hiff := Runs.steps_congr (I := Inv) (step_inv env) (step_commitFollows_iff env) ops _ hnew
  refine ⟨fun h => hiff.mpr (Runs.Steps.imp (fun w op hc => ?_) h), hiff⟩
  exact fun _ => hc

/-- NPU 1 in the switch: an object created without NPUs follows it, the switch gains NPU
    2, and the modify succeeds without it. -/
theorem created_then_gained :
    let ops : List (Op Nat) := [.commitCreate 0 false, .switchAddNpu 2, .commitModify 0 objOn12 false]
    let w : World Nat := .new ⟨OrdSet.empty.insert 1⟩ (fun _ _ => true) (fun _ _ => 0) ⟨fun _ => none, [], []⟩
    Runs.answers (step everyPush) w ops = [none, none, none] ∧
      ¬ Runs.Steps (step everyPush) (CommitFollows everyPush) w ops := by
  intro ops w
  refine ⟨by decide, fun h => ?_⟩
  obtain ⟨-, -, h, -⟩ := h
  have hall := (h 0 rfl (by decide)).2 (by decide)
  exact absurd hall (by decide)

end NasCommon.Base.Follow
