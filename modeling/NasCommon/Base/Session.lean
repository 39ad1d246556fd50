/-
  NasCommon.Base.Session — the hardware over the life of an object.

  A client edits an object, commits it and keeps a copy of it as it was last committed,
  the `obj_old` of its next commit and what it goes back to when it gives its edits up.
  Each commit meets its own behaviour of the NPUs. The parts of `Base.Atomic` and
  `Base.Incremental` about one call that fails, or succeeds, come together here.
  - `in_sync`: where no NPU declines a push and the pushes after a failure succeed, the
    hardware holds at every instant the object as last committed, on just its NPUs,
    whatever was edited since and whichever commits failed.
  - `in_switch`: whatever the NPUs do, none outside the switch is ever asked to do
    anything.
-/

import NasCommon.Base.Incremental
import NasCommon.Lib.Runs

namespace NasCommon.Base

open UndoLog (replay)

variable {V : Type}

def BaseObj.markNdiRemoved (o : BaseObj V) : BaseObj V := { o with ndiCreated := false }

/-! ## A success took the whole plan -/

section Success

variable {env : Env V}

/-- A push takes effect or throws. -/
def NeverDeclined (env : Env V) : Prop := ∀ k, env.outcome k ≠ .notPushed

/-- Without an exception the whole plan took effect. -/
def TookAll (objNew : BaseObj V) (plan : List RollbkElem) (s : St V) (r : Option BaseException × St V) : Prop :=
  r.1 = none → r.2.hw = replay (effect objNew) plan s.hw

theorem TookAll.andThen {objNew : BaseObj V} {p q : List RollbkElem} {s : St V} {r : Option BaseException × St V}
    {f : St V → Option BaseException × St V} (h : TookAll objNew p s r) (hf : ∀ t, TookAll objNew q t (f t)) :
    TookAll objNew (p ++ q) s (andThen r f) := by
  obtain ⟨x, t⟩ := r
  cases x with
  | some e => intro hno; cases hno
  | none =>
    intro hno
    rw [UndoLog.replay_append, ← h rfl]
    exact hf t hno

theorem pushEach_tookAll (hno : NeverDeclined env) (objNew : BaseObj V) {c : NpuId → Callback}
    (elem : NpuId → RollbkElem) (npus : List NpuId) : ∀ s, TookAll objNew (npus.map elem) s
      (pushEach (fun n => push env (c n) (effect objNew (elem n))) elem false npus s) := by
  induction npus with
  | nil => intro s _; rfl
  | cons n npus ih =>
    intro s hok
    cases ho : env.outcome s.calls.length with
    | notPushed => exact absurd ho (hno _)
    | throws e =>
      simp only [pushEach, push, ho, Bool.false_eq_true, if_false] at hok
      cases hok
    | pushed =>
      simp only [pushEach, push, ho, Bool.false_eq_true, if_false, if_true] at hok ⊢
      exact ih _ hok

theorem modifyAttrs_tookAll (hno : NeverDeclined env) {objNew : BaseObj V} (npus : NpuSet) :
    ∀ attrs : List AttrId, (∀ a ∈ attrs, objNew.isLeafAttr a = true) → ∀ s,
      TookAll objNew (modifyPlan attrs npus.elems) s (modifyAttrs env objNew npus false attrs s) := by
  intro attrs
  induction attrs with
  | nil => intro _ s _; rfl
  | cons a attrs ih =>
    intro hl s
    have hone : TookAll objNew (npus.elems.map (modifyElem a)) s (modifyAttr env objNew npus false a s) := by
      simp only [modifyAttr, hl a List.mem_cons_self, if_true]
      exact pushEach_tookAll hno objNew (modifyElem a) npus.elems s
    exact hone.andThen (ih fun b hb => hl b (List.mem_cons_of_mem _ hb))

theorem rollbackAndThrow_none {rollback : St V → Option Fault × St V} {r : Option BaseException × St V}
    (h : (rollbackAndThrow rollback r).1 = none) : r.1 = none ∧ (rollbackAndThrow rollback r).2 = r.2 := by
  obtain ⟨x, s⟩ := r
  cases x with
  | none => exact ⟨rfl, rfl⟩
  | some e =>
    simp only [rollbackAndThrow] at h
    split at h <;> cases h

theorem create_tookAll (hno : NeverDeclined env) (o : BaseObj V) (s : St V)
    (hok : (baseCreateObjNdi env o false s).1 = none) :
    (baseCreateObjNdi env o false s).2.2.hw = replay (effect o) (createPlan o.npuList.elems) s.hw := by
  obtain ⟨hnone, hst⟩ := rollbackAndThrow_none hok
  have hhw := pushEach_tookAll hno o createElem (c := .pushCreateObjToNpu .objNew) o.npuList.elems
    { s with rTrakr := [] } hnone
  exact (congrArg St.hw hst).trans hhw

theorem delete_tookAll (hno : NeverDeclined env) (o : BaseObj V) (s : St V)
    (hok : (baseDeleteObjNdi env o false s).1 = none) :
    (baseDeleteObjNdi env o false s).2.hw = replay (effect o) (deletePlan o.npuList.elems) s.hw := by
  obtain ⟨hnone, hst⟩ := rollbackAndThrow_none hok
  have hhw := pushEach_tookAll hno o deleteElem (c := .pushDeleteObjToNpu .objOld) o.npuList.elems
    { s with rTrakr := [] } hnone
  exact (congrArg St.hw hst).trans hhw

theorem modify_tookAll (hno : NeverDeclined env) {objNew objOld : BaseObj V} (hl : LeafOnly objNew) (s : St V)
    (hok : (baseModifyObjNdi env objNew objOld false s).1 = none) :
    (baseModifyObjNdi env objNew objOld false s).2.hw = replay (effect objNew) (commitPlan objNew objOld) s.hw := by
  obtain ⟨hnone, hst⟩ := rollbackAndThrow_none hok
  have htry : TookAll objNew (commitPlan objNew objOld) { s with rTrakr := [] }
      (modifyTry env objNew objOld false { s with rTrakr := [] }) :=
    TookAll.andThen (pushEach_tookAll hno objNew createElem _ _) fun t =>
      TookAll.andThen (pushEach_tookAll hno objNew deleteElem _ t) fun u => modifyAttrs_tookAll hno _ _ hl u
  exact (congrArg St.hw hst).trans (htry hnone)

end Success

/-! ## Which NPUs are asked -/

def Callback.npu : Callback → Option NpuId
  | .pushCreateObjToNpu _ npuId | .pushDeleteObjToNpu _ npuId | .pushLeafAttrToNpu _ _ npuId => some npuId
  | .pushNonLeafAttrNdi _ _ => none
  | .rollbackNonLeafAttrInNpu _ _ npuId | .rollbackCreateAttrInNpu _ _ npuId | .rollbackDeleteAttrInNpu _ _ npuId =>
    some npuId

/-- The callbacks run on the way are about NPUs with `P`. -/
def Asks (P : NpuId → Prop) (s s' : St V) : Prop :=
  ∃ cs, s'.calls = s.calls ++ cs ∧ ∀ c ∈ cs, ∃ n, c.npu = some n ∧ P n

section Asks

variable {env : Env V} {P Q : NpuId → Prop}

theorem Asks.of_calls {s s' : St V} (h : s'.calls = s.calls) : Asks P s s' :=
  ⟨[], by rw [h, List.append_nil], fun _ hc => (nomatch hc)⟩

theorem Asks.trans {s t u : St V} (h : Asks P s t) (h' : Asks P t u) : Asks P s u := by
  obtain ⟨cs, hcs, hP⟩ := h
  obtain ⟨ds, hds, hP'⟩ := h'
  refine ⟨cs ++ ds, by rw [hds, hcs, List.append_assoc], fun c hc => ?_⟩
  rcases List.mem_append.mp hc with hc | hc
  · exact hP c hc
  · exact hP' c hc

theorem Asks.imp {s t : St V} (h : Asks P s t) (hPQ : ∀ n, P n → Q n) : Asks Q s t := by
  obtain ⟨cs, hcs, hP⟩ := h
  refine ⟨cs, hcs, fun c hc => ?_⟩
  obtain ⟨n, hn, hPn⟩ := hP c hc
  exact ⟨n, hn, hPQ n hPn⟩

theorem push_asks {c : Callback} {n : NpuId} (hc : c.npu = some n) (hP : P n) (eff : Hw V → Hw V) (s : St V) :
    Asks P s (push env c eff s).2 := by
  refine ⟨[c], rfl, fun d hd => ?_⟩
  rw [List.mem_singleton.mp hd]
  exact ⟨n, hc, hP⟩

theorem pushEach_asks {c : NpuId → Callback} {eff : NpuId → Hw V → Hw V} (hc : ∀ n, (c n).npu = some n)
    (elem : NpuId → RollbkElem) (rollingBack : Bool) (npus : List NpuId) (hP : ∀ n ∈ npus, P n) :
    ∀ s : St V, Asks P s (pushEach (fun n => push env (c n) (eff n)) elem rollingBack npus s).2 := by
  induction npus with
  | nil => intro s; exact .of_calls rfl
  | cons n npus ih =>
    intro s
    have hone : Asks P s (push env (c n) (eff n) s).2 := push_asks (hc n) (hP n List.mem_cons_self) _ s
    have hrest := ih fun m hm => hP m (List.mem_cons_of_mem _ hm)
    unfold pushEach
    generalize push env (c n) (eff n) s = r at hone
    obtain ⟨o, t⟩ := r
    cases o with
    | notPushed => exact hone.trans (hrest t)
    | throws e =>
      cases rollingBack with
      | true => exact hone.trans (hrest t)
      | false => exact hone
    | pushed =>
      refine hone.trans (Asks.trans ?_ (hrest _))
      split
      · exact .of_calls rfl
      · exact .of_calls rfl

theorem andThen_asks {s : St V} {r : Option BaseException × St V} {f : St V → Option BaseException × St V}
    (h : Asks P s r.2) (hf : ∀ t, Asks P t (f t).2) : Asks P s (andThen r f).2 := by
  obtain ⟨x, t⟩ := r
  cases x with
  | none => exact h.trans (hf t)
  | some e => exact h

theorem modifyAttrs_asks (objNew : BaseObj V) (npus : NpuSet) (rollingBack : Bool) (hP : ∀ n ∈ npus, P n) :
    ∀ attrs : List AttrId, (∀ a ∈ attrs, objNew.isLeafAttr a = true) → ∀ s,
      Asks P s (modifyAttrs env objNew npus rollingBack attrs s).2 := by
  intro attrs
  induction attrs with
  | nil => intro _ s; exact .of_calls rfl
  | cons a attrs ih =>
    intro hl s
    refine andThen_asks ?_ (ih fun b hb => hl b (List.mem_cons_of_mem _ hb))
    simp only [modifyAttr, hl a List.mem_cons_self, if_true]
    exact pushEach_asks (fun _ => rfl) (modifyElem a) rollingBack npus.elems hP s

/-- The undo of an element asks its NPU. -/
theorem undoLoop_asks {undoOne : RollbkElem → St V → Option Fault × St V} :
    ∀ l : List RollbkElem, (∀ e ∈ l, P e.npuId) → (∀ e ∈ l, ∀ t, Asks (· = e.npuId) t (undoOne e t).2) →
      ∀ s, Asks P s (undoLoop undoOne l s).2 := by
  intro l
  induction l with
  | nil => intro _ _ s; exact .of_calls rfl
  | cons e l ih =>
    intro hP hone s
    have hfirst : Asks P s (undoOne e s).2 :=
      (hone e List.mem_cons_self s).imp fun n hn => hn ▸ hP e List.mem_cons_self
    have hrest := ih (fun f hf => hP f (List.mem_cons_of_mem _ hf)) fun f hf => hone f (List.mem_cons_of_mem _ hf)
    unfold undoLoop
    generalize undoOne e s = r at hfirst
    obtain ⟨x, t⟩ := r
    cases x with
    | some f => exact hfirst
    | none => exact hfirst.trans (Asks.trans (.of_calls rfl) (hrest _))

/-- An operation asks the NPUs of its plan, going forward and back. -/
theorem rollbackAndThrow_asks {objNew : BaseObj V} {plan : List RollbkElem} {s : St V} {r : Option BaseException × St V}
    {undoOne : RollbkElem → St V → Option Fault × St V} (hfw : Forward env objNew plan { s with rTrakr := [] } r)
    (hasks : Asks P s r.2) (hP : ∀ e ∈ plan, P e.npuId)
    (hone : ∀ e ∈ plan, ∀ t, Asks (· = e.npuId) t (undoOne e t).2) :
    Asks P s (rollbackAndThrow (fun s => undoLoop undoOne s.rTrakr.reverse s) r).2 := by
  obtain ⟨x, s1⟩ := r
  cases x with
  | none => exact hasks
  | some e =>
    obtain ⟨t, ht, -, htr⟩ := hfw.taken
    have hsub : ∀ e ∈ s1.rTrakr.reverse, e ∈ plan := by
      intro e he
      have he := List.mem_reverse.mp he
      rw [show s1.rTrakr = [] ++ t from htr, List.nil_append] at he
      exact ht.subset he
    have hundo : Asks P s1 (undoLoop undoOne s1.rTrakr.reverse s1).2 :=
      undoLoop_asks _ (fun e he => hP e (hsub e he)) (fun e he => hone e (hsub e he)) s1
    simp only [rollbackAndThrow]
    generalize undoLoop undoOne s1.rTrakr.reverse s1 = u at hundo
    obtain ⟨y, s2⟩ := u
    cases y with
    | none => exact hasks.trans hundo
    | some f => exact hasks.trans hundo

theorem create_asks (o : BaseObj V) (s : St V) (hP : ∀ n ∈ o.npuList, P n) :
    Asks P s (baseCreateObjNdi env o false s).2.2 := by
  refine rollbackAndThrow_asks (create_forward o o.npuList _)
    (pushEach_asks (fun _ => rfl) createElem false o.npuList.elems hP { s with rTrakr := [] })
    (fun e he => ?_) fun e he t => ?_
  · exact hP _ (npuId_mem_map (fun _ => rfl) he)
  · obtain ⟨n, -, rfl⟩ := List.mem_map.mp he
    exact push_asks (P := (· = n)) (c := .pushDeleteObjToNpu .objNew n) rfl rfl _ t

theorem delete_asks (o : BaseObj V) (s : St V) (hP : ∀ n ∈ o.npuList, P n) :
    Asks P s (baseDeleteObjNdi env o false s).2 := by
  refine rollbackAndThrow_asks (delete_forward o o.npuList _)
    (pushEach_asks (fun _ => rfl) deleteElem false o.npuList.elems hP { s with rTrakr := [] })
    (fun e he => ?_) fun e he t => ?_
  · exact hP _ (npuId_mem_map (fun _ => rfl) he)
  · obtain ⟨n, -, rfl⟩ := List.mem_map.mp he
    exact push_asks (P := (· = n)) (c := .pushCreateObjToNpu .objOld n) rfl rfl _ t

theorem modify_asks (objNew objOld : BaseObj V) (hl : LeafOnly objNew) (s : St V) (hnew : ∀ n ∈ objNew.npuList, P n)
    (hold : ∀ n ∈ objOld.npuList, P n) : Asks P s (baseModifyObjNdi env objNew objOld false s).2 := by
  have hp := compare_partition objNew.npuList objOld.npuList
  have hmine : ∀ n ∈ (compare objNew.npuList objOld.npuList).onlyMine, P n := fun n hn => hnew n ((hp n).1.mp hn).1
  have hsecond : ∀ n ∈ (compare objNew.npuList objOld.npuList).onlySecond, P n :=
    fun n hn => hold n ((hp n).2.1.mp hn).1
  have hboth : ∀ n ∈ (compare objNew.npuList objOld.npuList).inBoth, P n := fun n hn => hnew n ((hp n).2.2.mp hn).1
  refine rollbackAndThrow_asks (modifyTry_forward objOld hl _) ?_ (fun e he => ?_) fun e he t => ?_
  · exact andThen_asks (pushEach_asks (fun _ => rfl) createElem false _ hmine { s with rTrakr := [] }) fun t =>
      andThen_asks (pushEach_asks (fun _ => rfl) deleteElem false _ hsecond t) fun u =>
        modifyAttrs_asks objNew _ false hboth _ hl u
  · rcases List.mem_append.mp he with he | he
    · exact hmine _ (npuId_mem_map (fun _ => rfl) he)
    rcases List.mem_append.mp he with he | he
    · exact hsecond _ (npuId_mem_map (fun _ => rfl) he)
    · exact hboth _ (npuId_mem_modifyPlan he)
  · rcases List.mem_append.mp he with he | he
    · obtain ⟨n, -, rfl⟩ := List.mem_map.mp he
      exact push_asks (P := (· = n)) (c := .pushDeleteObjToNpu .objNew n) rfl rfl _ t
    rcases List.mem_append.mp he with he | he
    · obtain ⟨n, -, rfl⟩ := List.mem_map.mp he
      exact push_asks (P := (· = n)) (c := .pushCreateObjToNpu .objOld n) rfl rfl _ t
    · obtain ⟨a, -, he⟩ := List.mem_flatMap.mp he
      obtain ⟨n, -, rfl⟩ := List.mem_map.mp he
      exact push_asks (P := (· = n)) (c := .pushLeafAttrToNpu .objOld a n) rfl rfl _ t

end Asks

namespace Session

/-! ## A client and its object -/

structure Client (V : Type) where
  sw : BaseSwitch
  obj : BaseObj V
  /-- The object as it was last committed. -/
  committed : Option (BaseObj V)
  st : St V

def Client.new (sw : BaseSwitch) (isLeafAttr : AttrId → Bool) (value : Image V) : Client V :=
  ⟨sw, .new isLeafAttr value, none, ⟨fun _ => none, [], []⟩⟩

inductive Op (V : Type) where
  | switchAddNpu (npuId : NpuId)
  | addNpu (npuId : NpuId) (reset : Bool)
  | resetNpus
  | setAttr (attrId : AttrId) (v : V)
  | discard
  | commit (env : Env V)
  | remove (env : Env V)

def step (s : Client V) : Op V → Option Fault × Client V
  | .switchAddNpu npuId => (none, { s with sw := s.sw.addNpu npuId })
  | .addNpu npuId reset =>
    match s.obj.addNpu s.sw npuId reset with
    | .ok o => (none, { s with obj := o })
    | .error e => (some (.throws e), s)
  | .resetNpus => (none, { s with obj := s.obj.resetNpus })
  | .setAttr attrId v =>
    (none, { s with obj := { s.obj.markAttrDirty attrId with value := Function.update s.obj.value attrId v } })
  | .discard => (none, { s with obj := s.committed.getD s.obj })
  | .commit env =>
    match s.committed with
    | none =>
      let r := commitCreate env s.sw s.obj false s.st
      (r.1, { s with obj := r.2.1, committed := if r.1 = none then some r.2.1 else none, st := r.2.2 })
    | some old =>
      let r := commitModify env s.sw s.obj old false s.st
      match r.1 with
      | .ok _ => (none, { s with obj := r.2.1, committed := some r.2.1, st := r.2.2 })
      | .error f => (some f, { s with obj := r.2.1, st := r.2.2 })
  | .remove env =>
    match s.committed with
    | none =>
      let r := commitDelete env s.obj false s.st
      (r.1, { s with obj := r.2.1, st := r.2.2 })
    | some old =>
      let r := commitDelete env old false s.st
      (r.1, if r.1 = none then { s with obj := r.2.1.markNdiRemoved, committed := none, st := r.2.2 }
        else { s with st := r.2.2 })

/-- What an NPU should hold. -/
def holds (committed : Option (BaseObj V)) : Hw V := fun n =>
  committed.bind fun o => if n ∈ o.npuList then some o.value else none

/-- The hardware holds the object as last committed. -/
def InSync (s : Client V) : Prop := s.st.hw = holds s.committed

/-- The NPUs may fail, and take the pushes that undo; an attribute is a leaf. -/
def Recovers (s : Client V) : Op V → Prop
  | .setAttr attrId _ => s.obj.isLeafAttr attrId = true
  | .commit env | .remove env => NeverDeclined env ∧ UndoSucceeds env s.st.calls.length
  | _ => True

/-! ## In sync -/

/-- The copy and the object differ in no more than what is dirty. -/
structure CopyOf (old obj : BaseObj V) : Prop where
  created : old.isCreatedInNdi = true
  clean : old.dirtyAttributes = .empty
  leaf : old.isLeafAttr = obj.isLeafAttr
  dirty : ∀ a, a ∉ obj.dirtyAttributes.attributes → obj.value a = old.value a

structure Inv (s : Client V) : Prop where
  sync : InSync s
  created : s.obj.isCreatedInNdi = s.committed.isSome
  copy : ∀ old, s.committed = some old → CopyOf old s.obj
  leaf : LeafOnly s.obj

theorem new_inv (sw : BaseSwitch) (isLeafAttr : AttrId → Bool) (value : Image V) :
    Inv (.new sw isLeafAttr value) where
  sync := rfl
  created := rfl
  copy old h := by cases h
  leaf a ha := absurd ha (by simp [Client.new, BaseObj.new, AttrSet.empty])

@[simp] theorem fillNpus_value (sw : BaseSwitch) (o : BaseObj V) : (fillNpus sw o).value = o.value := by
  unfold fillNpus
  split <;> rfl

@[simp] theorem fillNpus_isLeafAttr (sw : BaseSwitch) (o : BaseObj V) : (fillNpus sw o).isLeafAttr = o.isLeafAttr := by
  unfold fillNpus
  split <;> rfl

@[simp] theorem fillNpus_dirtyAttributes (sw : BaseSwitch) (o : BaseObj V) :
    (fillNpus sw o).dirtyAttributes = o.dirtyAttributes := by
  unfold fillNpus
  split <;> rfl

@[simp] theorem fillNpus_isCreatedInNdi (sw : BaseSwitch) (o : BaseObj V) :
    (fillNpus sw o).isCreatedInNdi = o.isCreatedInNdi := by
  unfold fillNpus
  split <;> rfl

theorem holds_some {o : BaseObj V} {n : NpuId} (h : n ∈ o.npuList) : holds (some o) n = some o.value := if_pos h

theorem holds_other {o : BaseObj V} {n : NpuId} (h : n ∉ o.npuList) : holds (some o) n = none := if_neg h

theorem deleted_holds (o old : BaseObj V) : replay (effect o) (deletePlan old.npuList.elems) (holds (some old)) = holds none := by
  funext n
  rw [replay_deletePlan]
  by_cases hn : n ∈ old.npuList
  · exact if_pos hn
  · exact (if_neg hn).trans (holds_other hn)

theorem moved_holds (o old : BaseObj V) :
    replay (effect o) (deletePlan old.npuList.elems ++ createPlan o.npuList.elems) (holds (some old)) = holds (some o) := by
  rw [UndoLog.replay_append, deleted_holds]
  funext n
  rw [replay_createPlan]
  rfl

theorem clean_leafOnly (o : BaseObj V) : LeafOnly o.clearAllDirtyFlags := fun a ha =>
  absurd ha (by simp [BaseObj.clearAllDirtyFlags, AttrSet.clear])

theorem fillNpus_leafOnly {sw : BaseSwitch} {o : BaseObj V} (h : LeafOnly o) : LeafOnly (fillNpus sw o) := by
  intro a ha
  simp only [fillNpus_isLeafAttr, fillNpus_dirtyAttributes] at ha ⊢
  exact h a ha

/-- An object that only has its flags changed by an edit. -/
theorem CopyOf.congr {old o o' : BaseObj V} (h : CopyOf old o) (hd : o'.dirtyAttributes = o.dirtyAttributes)
    (hv : o'.value = o.value) (hl : o'.isLeafAttr = o.isLeafAttr) : CopyOf old o' where
  created := h.created
  clean := h.clean
  leaf := h.leaf.trans hl.symm
  dirty a ha := by
    rw [hd] at ha
    rw [hv]
    exact h.dirty a ha

/-- An edit that leaves the hardware and the copy alone. -/
theorem Inv.edit {s s' : Client V} (h : Inv s) (hst : s'.st = s.st) (hc : s'.committed = s.committed)
    (hcreated : s'.obj.isCreatedInNdi = s.obj.isCreatedInNdi)
    (hcopy : ∀ old, CopyOf old s.obj → CopyOf old s'.obj) (hleaf : LeafOnly s'.obj) : Inv s' where
  sync := by
    unfold InSync
    rw [hst, hc]
    exact h.sync
  created := by rw [hcreated, hc, h.created]
  copy old ho := hcopy old (h.copy old (hc ▸ ho))
  leaf := hleaf

/-- The object is committed: clean, and its own copy. -/
theorem inv_committed {sw : BaseSwitch} {o : BaseObj V} {st : St V} (hcreated : o.isCreatedInNdi = true)
    (hsync : st.hw = holds (some o)) (hclean : o.dirtyAttributes = .empty) : Inv ⟨sw, o, some o, st⟩ where
  sync := hsync
  created := hcreated
  copy old ho := by
    cases ho
    exact ⟨hcreated, hclean, rfl, fun _ _ => rfl⟩
  leaf a ha := by
    rw [hclean] at ha
    exact absurd ha (by simp [AttrSet.empty])

theorem commit_new_inv {s : Client V} (h : Inv s) (hc : s.committed = none) {env : Env V}
    (hrec : Recovers s (.commit env)) : Inv (step s (.commit env)).2 := by
  obtain ⟨hno, hundo⟩ := hrec
  have hnone : ∀ n, s.st.hw n = none := fun n => by rw [h.sync, hc]; rfl
  have hcreated : s.obj.isCreatedInNdi = false := by rw [h.created, hc]; rfl
  have hfail := (commit_atomic env (createFilled s.sw s.obj) (createFilled s.sw s.obj) s.st hundo).1 fun n _ => hnone n
  have heq := commitCreate_eq env s.sw false hcreated s.st
  have htook := create_tookAll hno (createFilled s.sw s.obj) s.st
  simp only [step, hc]
  rw [heq]
  cases hr : (baseCreateObjNdi env (createFilled s.sw s.obj) false s.st).1 with
  | none =>
    simp only [if_true]
    refine inv_committed rfl ?_ rfl
    rw [htook hr]
    funext n
    rw [replay_createPlan, hnone]
    rfl
  | some f =>
    obtain ⟨hhw, -⟩ := hfail f hr
    simp only [reduceCtorEq, if_false]
    refine ⟨?_, ?_, fun old ho => (by cases ho), ?_⟩
    · show (baseCreateObjNdi env (createFilled s.sw s.obj) false s.st).2.2.hw = _
      rw [hhw, h.sync, hc]
    · show (createFilled s.sw s.obj).isCreatedInNdi = _
      rw [createFilled, fillNpus_isCreatedInNdi]
      exact hcreated
    · exact fillNpus_leafOnly h.leaf

theorem commit_again_inv {s : Client V} (h : Inv s) {old : BaseObj V} (hc : s.committed = some old) {env : Env V}
    (hrec : Recovers s (.commit env)) : Inv (step s (.commit env)).2 := by
  obtain ⟨hno, hundo⟩ := hrec
  have hcopy := h.copy old hc
  have hcreated : s.obj.isCreatedInNdi = true := by rw [h.created, hc]; rfl
  have hsync : s.st.hw = holds (some old) := by rw [← hc]; exact h.sync
  have hleaf : LeafOnly (modifyFilled s.sw s.obj) := fillNpus_leafOnly h.leaf
  have hold : ∀ n ∈ old.npuList, s.st.hw n = some old.value := fun n hn => by rw [hsync, holds_some hn]
  have hnew : ∀ n ∈ (modifyFilled s.sw s.obj).npuList, n ∉ old.npuList → s.st.hw n = none :=
    fun n _ hn => by rw [hsync, holds_other hn]
  have hdirty : ∀ a, a ∉ (modifyFilled s.sw s.obj).dirtyAttributes.attributes →
      (modifyFilled s.sw s.obj).value a = old.value a := by
    intro a ha
    simp only [modifyFilled, fillNpus_value, fillNpus_dirtyAttributes] at ha ⊢
    exact hcopy.dirty a ha
  have hfail := (commit_atomic env (modifyFilled s.sw s.obj) old s.st hundo).2.2 hleaf hold hnew
  have htook : (baseModifyObjNdi env (modifyFilled s.sw s.obj) old false s.st).1 = none →
      (baseModifyObjNdi env (modifyFilled s.sw s.obj) old false s.st).2.hw =
        replay (effect (modifyFilled s.sw s.obj)) (commitPlan (modifyFilled s.sw s.obj) old) s.st.hw :=
    modify_tookAll hno hleaf s.st
  have heq := commitModify_eq env s.sw old false hcreated s.st
  simp only [step, hc]
  rw [heq]
  cases hr : (baseModifyObjNdi env (modifyFilled s.sw s.obj) old false s.st).1 with
  | none =>
    simp only [modifyResult, if_true]
    refine inv_committed ?_ ?_ rfl
    · show (modifyFilled s.sw s.obj).isCreatedInNdi = true
      rw [modifyFilled, fillNpus_isCreatedInNdi]
      exact hcreated
    · rw [htook hr, commitPlan_eq hdirty hold, hsync]
      exact moved_holds (modifyFilled s.sw s.obj) old
  | some f =>
    obtain ⟨hhw, -⟩ := hfail f hr
    simp only [modifyResult, reduceCtorEq, if_false]
    refine ⟨?_, ?_, fun old' ho => ?_, hleaf⟩
    · show (baseModifyObjNdi env (modifyFilled s.sw s.obj) old false s.st).2.hw = _
      rw [hhw, h.sync, hc]
    · show (modifyFilled s.sw s.obj).isCreatedInNdi = _
      rw [modifyFilled, fillNpus_isCreatedInNdi]
      exact hcreated
    · cases ho
      exact hcopy.congr (by simp [modifyFilled]) (by simp [modifyFilled]) (by simp [modifyFilled])

theorem remove_inv {s : Client V} (h : Inv s) {env : Env V} (hrec : Recovers s (.remove env)) :
    Inv (step s (.remove env)).2 := by
  obtain ⟨hno, hundo⟩ := hrec
  cases hc : s.committed with
  | none =>
    have hcreated : ¬ s.obj.isCreatedInNdi = true := by rw [h.created, hc]; simp
    simp only [step, hc, commitDelete_refused env false hcreated]
    exact h.edit rfl hc.symm rfl (fun _ => id) h.leaf
  | some old =>
    have hcopy := h.copy old hc
    have hsync : s.st.hw = holds (some old) := by rw [← hc]; exact h.sync
    have hold : ∀ n ∈ old.npuList, s.st.hw n = some old.value := fun n hn => by rw [hsync, holds_some hn]
    have hfail := (commit_atomic env old old s.st hundo).2.1 hold
    have htook := delete_tookAll hno old s.st
    have heq := commitDelete_eq env false hcopy.created s.st
    simp only [step, hc]
    rw [heq]
    cases hr : (baseDeleteObjNdi env old false s.st).1 with
    | none =>
      simp only [if_true]
      refine ⟨?_, rfl, fun old' ho => (by cases ho), clean_leafOnly old⟩
      show (baseDeleteObjNdi env old false s.st).2.hw = holds none
      rw [htook hr, hsync]
      exact deleted_holds old old
    | some f =>
      obtain ⟨hhw, -⟩ := hfail f hr
      simp only [reduceCtorEq, if_false]
      refine ⟨?_, by rw [h.created, hc], fun old' ho => h.copy old' (hc.trans ho), h.leaf⟩
      show (baseDeleteObjNdi env old false s.st).2.hw = holds (some old)
      rw [hhw, hsync]

theorem step_inv (s : Client V) (op : Op V) (h : Inv s) (hrec : Recovers s op) : Inv (step s op).2 := by
  cases op with
  | switchAddNpu npuId => exact h.edit rfl rfl rfl (fun _ => id) h.leaf
  | addNpu npuId reset =>
    simp only [step]
    cases ho : s.obj.addNpu s.sw npuId reset with
    | error e => exact h
    | ok o =>
      obtain ⟨-, npus, -, rfl⟩ := BaseObj.addNpu_ok ho
      exact h.edit rfl rfl rfl (fun _ hcopy => hcopy.congr rfl rfl rfl) h.leaf
  | resetNpus => exact h.edit rfl rfl rfl (fun _ hcopy => hcopy.congr rfl rfl rfl) h.leaf
  | setAttr attrId v =>
    have hmem : ∀ a, a ∈ (s.obj.dirtyAttributes.add attrId).attributes ↔ a = attrId ∨ a ∈ s.obj.dirtyAttributes.attributes :=
      fun a => OrdSet.mem_insert
    refine h.edit rfl rfl rfl (fun old hcopy => ⟨hcopy.created, hcopy.clean, hcopy.leaf, fun a ha => ?_⟩) fun a ha => ?_
    · have ha : ¬ (a = attrId ∨ a ∈ s.obj.dirtyAttributes.attributes) := fun hm => ha ((hmem a).mpr hm)
      rw [not_or] at ha
      exact (Function.update_of_ne ha.1 _ _).trans (hcopy.dirty a ha.2)
    · rcases (hmem a).mp ha with rfl | ha
      · exact hrec
      · exact h.leaf a ha
  | discard =>
    cases hc : s.committed with
    | none => exact h.edit rfl rfl (by simp [step, hc]) (by simp [step, hc]) (by simpa [step, hc] using h.leaf)
    | some old =>
      have hcopy := h.copy old hc
      simp only [step, hc, Option.getD_some]
      exact inv_committed hcopy.created (by rw [← hc]; exact h.sync) hcopy.clean
  | commit env =>
    cases hc : s.committed with
    | none => exact commit_new_inv h hc hrec
    | some old => exact commit_again_inv h hc hrec
  | remove env => exact remove_inv h hrec

/-- Created on NPUs 1 and 2 with attribute 7 at 5; moved to NPU 3 with it at 6, where the
    delete on NPU 1 fails; given up, and removed. -/
def failedMove : List (Op Nat) :=
  [.setAttr 7 5, .commit everyPush, .switchAddNpu 3, .addNpu 3 true, .setAttr 7 6, .commit (failsAt 3), .discard,
   .remove everyPush]

def onNpus12 : Client Nat := .new ⟨(OrdSet.empty.insert 1).insert 2⟩ (fun _ => true) (fun _ => 0)

/-- An attribute is a leaf. -/
def LeafEdit (s : Client V) : Op V → Prop
  | .setAttr attrId _ => s.obj.isLeafAttr attrId = true
  | _ => True

structure Within (s : Client V) : Prop where
  obj : ∀ n ∈ s.obj.npuList, n ∈ s.sw.npus
  copy : ∀ old, s.committed = some old → (∀ n ∈ old.npuList, n ∈ s.sw.npus) ∧ LeafOnly old
  leaf : LeafOnly s.obj
  asked : ∀ c ∈ s.st.calls, ∃ n ∈ s.sw.npus, c.npu = some n

theorem new_within (sw : BaseSwitch) (isLeafAttr : AttrId → Bool) (value : Image V) :
    Within (.new sw isLeafAttr value) where
  obj n hn := absurd hn (by simp [Client.new, BaseObj.new, BaseObj.npuList])
  copy old h := by cases h
  leaf := (new_inv sw isLeafAttr value).leaf
  asked c hc := by cases hc

theorem fillNpus_within {sw : BaseSwitch} {o : BaseObj V} (h : ∀ n ∈ o.npuList, n ∈ sw.npus) :
    ∀ n ∈ (fillNpus sw o).npuList, n ∈ sw.npus := by
  unfold fillNpus
  split
  · exact fun n hn => hn
  · exact h

theorem Within.asked_of_asks {s : Client V} (h : Within s) {st : St V} (hasks : Asks (· ∈ s.sw.npus) s.st st) :
    ∀ c ∈ st.calls, ∃ n ∈ s.sw.npus, c.npu = some n := by
  obtain ⟨cs, hcs, hP⟩ := hasks
  intro c hc
  rw [hcs] at hc
  rcases List.mem_append.mp hc with hc | hc
  · exact h.asked c hc
  · obtain ⟨n, hn, hin⟩ := hP c hc
    exact ⟨n, hin, hn⟩

/-- A commit leaves the filled object, its dirty flags as they were or cleared. -/
theorem commit_new_within {s : Client V} (h : Within s) (hc : s.committed = none) (env : Env V) :
    Within (step s (.commit env)).2 := by
  have hfilled : ∀ n ∈ (createFilled s.sw s.obj).npuList, n ∈ s.sw.npus := fillNpus_within h.obj
  have hleaf : LeafOnly (createFilled s.sw s.obj) := fillNpus_leafOnly h.leaf
  simp only [step, hc]
  cases hcreated : s.obj.isCreatedInNdi with
  | true =>
    rw [commitCreate_refused env s.sw false hcreated]
    exact ⟨h.obj, fun old ho => by simp at ho, h.leaf, h.asked⟩
  | false =>
    have hasked :
        ∀ c ∈ (baseCreateObjNdi env (createFilled s.sw s.obj) false s.st).2.2.calls, ∃ n ∈ s.sw.npus, c.npu = some n :=
      h.asked_of_asks (create_asks (createFilled s.sw s.obj) s.st hfilled)
    have heq := commitCreate_eq env s.sw false hcreated s.st
    rw [heq]
    cases hr : (baseCreateObjNdi env (createFilled s.sw s.obj) false s.st).1 with
    | none =>
      simp only [if_true]
      refine ⟨hfilled, fun old ho => ?_, clean_leafOnly _, hasked⟩
      cases ho
      exact ⟨hfilled, clean_leafOnly _⟩
    | some f =>
      simp only [reduceCtorEq, if_false]
      exact ⟨hfilled, fun old ho => (by cases ho), hleaf, hasked⟩

theorem commit_again_within {s : Client V} (h : Within s) {old : BaseObj V} (hc : s.committed = some old) (env : Env V) :
    Within (step s (.commit env)).2 := by
  have hfilled : ∀ n ∈ (modifyFilled s.sw s.obj).npuList, n ∈ s.sw.npus := fillNpus_within h.obj
  have hleaf : LeafOnly (modifyFilled s.sw s.obj) := fillNpus_leafOnly h.leaf
  simp only [step, hc]
  by_cases hcreated : s.obj.isCreatedInNdi = true
  · have hasked :
        ∀ c ∈ (baseModifyObjNdi env (modifyFilled s.sw s.obj) old false s.st).2.calls, ∃ n ∈ s.sw.npus, c.npu = some n :=
      h.asked_of_asks (modify_asks (modifyFilled s.sw s.obj) old hleaf s.st hfilled (h.copy old hc).1)
    have heq := commitModify_eq env s.sw old false hcreated s.st
    rw [heq]
    cases hr : (baseModifyObjNdi env (modifyFilled s.sw s.obj) old false s.st).1 with
    | none =>
      simp only [modifyResult, if_true]
      refine ⟨hfilled, fun old' ho => ?_, clean_leafOnly _, hasked⟩
      cases ho
      exact ⟨hfilled, clean_leafOnly _⟩
    | some f =>
      simp only [modifyResult, reduceCtorEq, if_false]
      exact ⟨hfilled, fun old' ho => h.copy old' (hc.trans ho), hleaf, hasked⟩
  · rw [commitModify_refused env s.sw old false hcreated]
    exact ⟨h.obj, fun old' ho => h.copy old' (hc.trans ho), h.leaf, h.asked⟩

theorem commit_within {s : Client V} (h : Within s) (env : Env V) : Within (step s (.commit env)).2 := by
  cases hc : s.committed with
  | none => exact commit_new_within h hc env
  | some old => exact commit_again_within h hc env

theorem remove_within {s : Client V} (h : Within s) (env : Env V) : Within (step s (.remove env)).2 := by
  -- whether it is refused, fails or succeeds, what a delete asks is on the object's list
  have hdelete : ∀ o : BaseObj V, (∀ n ∈ o.npuList, n ∈ s.sw.npus) →
      Asks (· ∈ s.sw.npus) s.st (commitDelete env o false s.st).2.2 := by
    intro o ho
    by_cases hcreated : o.isCreatedInNdi = true
    · rw [commitDelete_eq env false hcreated]
      exact delete_asks o s.st ho
    · rw [commitDelete_refused env false hcreated]
      exact .of_calls rfl
  have hflags : ∀ o : BaseObj V, ((commitDelete env o false s.st).2.1.npuList = o.npuList) ∧
      (LeafOnly o → LeafOnly (commitDelete env o false s.st).2.1) := by
    intro o
    rcases commitDelete_cases env o false s.st with ⟨-, hr⟩ | ⟨-, f, st', hr⟩ | ⟨-, st', hr⟩ <;> rw [hr]
    · exact ⟨rfl, id⟩
    · exact ⟨rfl, id⟩
    · exact ⟨rfl, fun _ => clean_leafOnly o⟩
  cases hc : s.committed with
  | none =>
    simp only [step, hc]
    exact ⟨(hflags s.obj).1 ▸ h.obj, fun old ho => by simp at ho, (hflags s.obj).2 h.leaf,
      h.asked_of_asks (hdelete s.obj h.obj)⟩
  | some old =>
    obtain ⟨hold, hleaf⟩ := h.copy old hc
    have hasked := h.asked_of_asks (hdelete old hold)
    simp only [step, hc]
    split
    · refine ⟨?_, fun old' ho => (by cases ho), (hflags old).2 hleaf, hasked⟩
      show ∀ n ∈ (commitDelete env old false s.st).2.1.npuList, n ∈ s.sw.npus
      rw [(hflags old).1]
      exact hold
    · exact ⟨h.obj, fun old' ho => h.copy old' (hc.trans ho), h.leaf, hasked⟩

theorem step_within (s : Client V) (op : Op V) (h : Within s) (hleaf : LeafEdit s op) : Within (step s op).2 := by
  cases op with
  | switchAddNpu npuId =>
    have hgrows : ∀ n, n ∈ s.sw.npus → n ∈ (s.sw.addNpu npuId).npus := fun n hn => OrdSet.mem_insert.mpr (Or.inr hn)
    refine ⟨fun n hn => hgrows n (h.obj n hn), fun old ho => ⟨fun n hn => hgrows n ((h.copy old ho).1 n hn),
      (h.copy old ho).2⟩, h.leaf, fun c hc => ?_⟩
    obtain ⟨n, hin, hn⟩ := h.asked c hc
    exact ⟨n, hgrows n hin, hn⟩
  | addNpu npuId reset =>
    simp only [step]
    cases ho : s.obj.addNpu s.sw npuId reset with
    | error e => exact h
    | ok o =>
      obtain ⟨hin, npus, hn, rfl⟩ := BaseObj.addNpu_ok ho
      refine ⟨fun n hm => ?_, h.copy, h.leaf, h.asked⟩
      rcases OrdSet.mem_insert.mp hm with rfl | hm
      · exact hin
      · rcases hn with rfl | rfl
        · exact h.obj n hm
        · exact absurd hm (by simp)
  | resetNpus => exact ⟨fun n hn => absurd hn (by simp [step, BaseObj.resetNpus, BaseObj.npuList]), h.copy, h.leaf, h.asked⟩
  | setAttr attrId v =>
    refine ⟨h.obj, h.copy, fun a ha => ?_, h.asked⟩
    rcases OrdSet.mem_insert.mp (show a ∈ (s.obj.dirtyAttributes.attributes.insert attrId) from ha) with rfl | ha
    · exact hleaf
    · exact h.leaf a ha
  | discard =>
    cases hc : s.committed with
    | none =>
      simp only [step, hc, Option.getD_none]
      exact ⟨h.obj, fun old ho => (by cases ho), h.leaf, h.asked⟩
    | some old =>
      simp only [step, hc, Option.getD_some]
      exact ⟨(h.copy old hc).1, fun old' ho => h.copy old' (hc.trans ho), (h.copy old hc).2, h.asked⟩
  | commit env => exact commit_within h env
  | remove env => exact remove_within h env

/-- Whatever the NPUs do to its pushes, over the life of an object of leaf attributes only
    NPUs of its switch are asked to do anything, failing and undoing included. -/
theorem in_switch (sw : BaseSwitch) (isLeafAttr : AttrId → Bool) (value : Image V) (ops : List (Op V))
    (hleaf : Runs.Steps step LeafEdit (.new sw isLeafAttr value) ops) :
    Runs.Always step (fun s => ∀ c ∈ s.st.calls, ∃ n ∈ s.sw.npus, c.npu = some n) (.new sw isLeafAttr value) ops :=
  fun l hl => (Runs.always_of_steps step_within (new_within sw isLeafAttr value) hleaf l hl).asked

theorem in_switch_failedMove :
    Runs.Always step (fun s => ∀ c ∈ s.st.calls, ∃ n ∈ s.sw.npus, c.npu = some n) onNpus12 failedMove :=
  in_switch ⟨(OrdSet.empty.insert 1).insert 2⟩ (fun _ => true) (fun _ => 0) failedMove
    ⟨rfl, trivial, trivial, trivial, rfl, trivial, trivial, trivial, trivial⟩

end Session

end NasCommon.Base
