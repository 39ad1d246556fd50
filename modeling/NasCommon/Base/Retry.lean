/-
  NasCommon.Base.Retry — a commit that failed can be retried.

  A push, and the undo of one, is overwritten when the same element is pushed again, and
  commutes with the plan's other elements. So replaying a plan ends the same from the
  hardware an attempt at it left (`attempt_absorbed`), whatever was there before and
  whether or not the rollback took effect. What the failed commit did to the object
  before its pushes, it does again to no effect.
  - `retry_eq_first`: a retry whose pushes take effect ends in the result, the object and
    the hardware that the commit ends in when it is called for the first time.
-/

import NasCommon.Base.Incremental

namespace NasCommon.Base

open UndoLog (replay)

variable {V : Type} {env : Env V}

/-! ## What one element writes -/

/-- `f` writes to NPU `n` alone, a value of what it holds. -/
def AtNpu (n : NpuId) (f : Hw V → Hw V) : Prop :=
  ∃ g : Option (Image V) → Option (Image V), ∀ hw, f hw = Function.update hw n (g (hw n))

theorem AtNpu.refl (n : NpuId) : AtNpu n (fun hw : Hw V => hw) := ⟨id, fun hw => by simp⟩

theorem AtNpu.comm {n m : NpuId} {f g : Hw V → Hw V} (hf : AtNpu n f) (hg : AtNpu m g) (h : n ≠ m) (hw : Hw V) :
    f (g hw) = g (f hw) := by
  obtain ⟨f', hf⟩ := hf
  obtain ⟨g', hg⟩ := hg
  simp only [hf, hg, Function.update_of_ne h, Function.update_of_ne (Ne.symm h)]
  exact Function.update_comm (Ne.symm h) _ _ _

theorem createOn_atNpu (n : NpuId) (im : Image V) : AtNpu n (createOn n im) := ⟨fun _ => some im, fun _ => rfl⟩

theorem deleteOn_atNpu (n : NpuId) : AtNpu n (deleteOn (V := V) n) := ⟨fun _ => none, fun _ => rfl⟩

theorem setOn_atNpu (attrId : AttrId) (n : NpuId) (v : V) : AtNpu n (setOn attrId n v) :=
  ⟨Option.map fun im => Function.update im attrId v, fun _ => rfl⟩

/-- What an element's push and its undo are. -/
theorem element_cases (objNew objOld : BaseObj V) (e : RollbkElem) :
    (effect objNew e = createOn e.npuId objNew.value ∧ undoEffect objOld e = deleteOn e.npuId) ∨
    (effect objNew e = deleteOn e.npuId ∧ undoEffect objOld e = createOn e.npuId objOld.value) ∨
    (∃ a, effect objNew e = setOn a e.npuId (objNew.value a) ∧ undoEffect objOld e = setOn a e.npuId (objOld.value a)) ∨
    (effect objNew e = (fun hw => hw) ∧ undoEffect objOld e = fun hw => hw) := by
  obtain ⟨ty, n, hier⟩ := e
  cases ty with
  | createObj => exact Or.inl ⟨rfl, rfl⟩
  | deleteObj => exact Or.inr (Or.inl ⟨rfl, rfl⟩)
  | modifyAttr =>
    rcases hier with _ | ⟨a, _ | ⟨b, rest⟩⟩
    · exact Or.inr (Or.inr (Or.inr ⟨rfl, rfl⟩))
    · exact Or.inr (Or.inr (Or.inl ⟨a, rfl, rfl⟩))
    · exact Or.inr (Or.inr (Or.inr ⟨rfl, rfl⟩))
  | createAttr => exact Or.inr (Or.inr (Or.inr ⟨rfl, rfl⟩))
  | deleteAttr => exact Or.inr (Or.inr (Or.inr ⟨rfl, rfl⟩))

theorem element_atNpu (objNew objOld : BaseObj V) (e : RollbkElem) :
    AtNpu e.npuId (effect objNew e) ∧ AtNpu e.npuId (undoEffect objOld e) := by
  rcases element_cases objNew objOld e with ⟨h, hu⟩ | ⟨h, hu⟩ | ⟨a, h, hu⟩ | ⟨h, hu⟩ <;> rw [h, hu]
  · exact ⟨createOn_atNpu _ _, deleteOn_atNpu _⟩
  · exact ⟨deleteOn_atNpu _, createOn_atNpu _ _⟩
  · exact ⟨setOn_atNpu _ _ _, setOn_atNpu _ _ _⟩
  · exact ⟨.refl _, .refl _⟩

theorem setOn_setOn (attrId : AttrId) (n : NpuId) (v w : V) (hw : Hw V) :
    setOn attrId n v (setOn attrId n w hw) = setOn attrId n v hw := by
  simp [setOn, Function.comp_def]

theorem setOn_comm {x y : AttrId} (hxy : x ≠ y) (n m : NpuId) (v w : V) (hw : Hw V) :
    setOn x n v (setOn y m w hw) = setOn y m w (setOn x n v hw) := by
  by_cases e : n = m
  · subst e
    have himage : ∀ im : Image V, Function.update (Function.update im y w) x v =
        Function.update (Function.update im x v) y w := fun im => Function.update_comm (Ne.symm hxy) _ _ _
    simp [setOn, Function.comp_def, himage]
  · exact (setOn_atNpu x n v).comm (setOn_atNpu y m w) e hw

/-! ## A plan and what was done before it -/

/-- Pushing an element overwrites an earlier push of it, and the undo of one. -/
theorem effect_overwrites (objNew objOld : BaseObj V) (e : RollbkElem) (hw : Hw V) :
    effect objNew e (effect objNew e hw) = effect objNew e hw ∧
      effect objNew e (undoEffect objOld e hw) = effect objNew e hw := by
  rcases element_cases objNew objOld e with ⟨h, hu⟩ | ⟨h, hu⟩ | ⟨a, h, hu⟩ | ⟨h, hu⟩ <;> rw [h, hu]
  · exact ⟨Function.update_idem _ _ _, Function.update_idem _ _ _⟩
  · exact ⟨Function.update_idem _ _ _, Function.update_idem _ _ _⟩
  · exact ⟨setOn_setOn _ _ _ _ hw, setOn_setOn _ _ _ _ hw⟩
  · exact ⟨rfl, rfl⟩

theorem Indep.symm {a b : RollbkElem} (h : Indep a b) : Indep b a := by
  rcases h with h | ⟨x, y, ha, hb, hxy⟩
  · exact Or.inl (Ne.symm h)
  · exact Or.inr ⟨y, x, hb, ha, Ne.symm hxy⟩

/-- Pushing an element commutes with another's push, and with its undo. -/
theorem Indep.comm (objNew objOld : BaseObj V) {a b : RollbkElem} (h : Indep a b) (hw : Hw V) :
    effect objNew b (effect objNew a hw) = effect objNew a (effect objNew b hw) ∧
      effect objNew b (undoEffect objOld a hw) = undoEffect objOld a (effect objNew b hw) := by
  rcases h with h | ⟨x, y, ha, hb, hxy⟩
  · obtain ⟨hea, hua⟩ := element_atNpu objNew objOld a
    obtain ⟨heb, -⟩ := element_atNpu objNew objOld b
    exact ⟨heb.comm hea (Ne.symm h) hw, heb.comm hua (Ne.symm h) hw⟩
  · rw [ha, hb]
    exact ⟨setOn_comm (Ne.symm hxy) _ _ _ _ hw, setOn_comm (Ne.symm hxy) _ _ _ _ hw⟩

/-- The elements of a plan but `a` are independent of it. -/
theorem indep_of_ne {plan : List RollbkElem} (hind : plan.Pairwise Indep) {a b : RollbkElem} (ha : a ∈ plan)
    (hb : b ∈ plan) (hne : b ≠ a) : Indep a b :=
  have : Std.Symm Indep := ⟨fun _ _ => Indep.symm⟩
  hind.forall ha hb (Ne.symm hne)

theorem replay_effect_first (objNew : BaseObj V) {plan : List RollbkElem} (hind : plan.Pairwise Indep)
    {e : RollbkElem} (he : e ∈ plan) (hw : Hw V) :
    replay (effect objNew) plan (effect objNew e hw) = replay (effect objNew) plan hw :=
  UndoLog.replay_absorbs (fun hw => (effect_overwrites objNew objNew e hw).1) plan he
    (fun _ hb hne hw => ((indep_of_ne hind he hb hne).comm objNew objNew hw).1) hw

theorem replay_undo_first (objNew objOld : BaseObj V) {plan : List RollbkElem} (hind : plan.Pairwise Indep)
    {e : RollbkElem} (he : e ∈ plan) (hw : Hw V) :
    replay (effect objNew) plan (undoEffect objOld e hw) = replay (effect objNew) plan hw :=
  UndoLog.replay_absorbs (fun hw => (effect_overwrites objNew objOld e hw).2) plan he
    (fun _ hb hne hw => ((indep_of_ne hind he hb hne).comm objNew objOld hw).2) hw

/-- The part of a plan that took effect is absorbed too. -/
theorem replay_taken_first (objNew : BaseObj V) {plan : List RollbkElem} (hind : plan.Pairwise Indep) :
    ∀ (taken : List RollbkElem), (∀ e ∈ taken, e ∈ plan) → ∀ hw,
      replay (effect objNew) plan (replay (effect objNew) taken hw) = replay (effect objNew) plan hw := by
  intro taken
  induction taken with
  | nil => intro _ hw; rfl
  | cons e taken ih =>
    intro ht hw
    rw [UndoLog.replay_cons, ih fun e' he' => ht e' (List.mem_cons_of_mem _ he')]
    exact replay_effect_first objNew hind (ht e List.mem_cons_self) hw

/-! ## A failed attempt -/

/-- The undo loop keeps what each of its undos keeps. -/
theorem undoLoop_keeps (undoOne : RollbkElem → St V → Option Fault × St V) (P : Hw V → Prop) (l : List RollbkElem)
    (hone : ∀ e ∈ l, ∀ s : St V, P s.hw → P (undoOne e s).2.hw) : ∀ s : St V, P s.hw → P (undoLoop undoOne l s).2.hw := by
  induction l with
  | nil => intro s hs; exact hs
  | cons e l ih =>
    intro s hs
    have he := hone e List.mem_cons_self s hs
    simp only [undoLoop]
    generalize undoOne e s = r at he
    obtain ⟨x, t⟩ := r
    cases x with
    | none => exact ih (fun e' he' => hone e' (List.mem_cons_of_mem _ he')) _ he
    | some f => exact he

/-- An undo's push, whatever its outcome. -/
theorem push_hw (c : Callback) (eff : Hw V → Hw V) (s : St V) :
    (push env c eff s).2.hw = eff s.hw ∨ (push env c eff s).2.hw = s.hw := by
  by_cases h : env.outcome s.calls.length = .pushed
  · exact Or.inl (by simp [push, h])
  · exact Or.inr (by simp [push, h])

/-- A plan replayed from the hardware that an attempt at it left, rolled back or not, ends
    as from the hardware before the attempt. -/
theorem attempt_absorbed (objNew objOld : BaseObj V) {plan : List RollbkElem} {s : St V}
    {r : Option BaseException × St V} {undoOne : RollbkElem → St V → Option Fault × St V}
    (hfw : Forward env objNew plan { s with rTrakr := [] } r) (hind : plan.Pairwise Indep)
    (hone : UndoPushes env objOld plan undoOne) :
    replay (effect objNew) plan (rollbackAndThrow (fun s => undoLoop undoOne s.rTrakr.reverse s) r).2.hw =
      replay (effect objNew) plan s.hw := by
  obtain ⟨x, t⟩ := r
  obtain ⟨taken, htaken, hhw, htr⟩ := hfw.taken
  simp only [List.nil_append] at htr hhw
  have ht : replay (effect objNew) plan t.hw = replay (effect objNew) plan s.hw := by
    rw [hhw]
    exact replay_taken_first objNew hind taken (fun e he => htaken.subset he) s.hw
  cases x with
  | none => exact ht
  | some e =>
    have hloop := undoLoop_keeps undoOne
      (fun hw => replay (effect objNew) plan hw = replay (effect objNew) plan s.hw) t.rTrakr.reverse
      (fun e he u hu => ?_) t ht
    · simp only [rollbackAndThrow]
      generalize undoLoop undoOne t.rTrakr.reverse t = l at hloop
      obtain ⟨y, u⟩ := l
      cases y <;> exact hloop
    · have hep : e ∈ plan := htaken.subset (by rw [← htr]; exact List.mem_reverse.mp he)
      obtain ⟨c, hc⟩ := hone e hep
      rw [hc]
      rcases push_hw c (undoEffect objOld e) u with h | h <;> rw [h]
      · rw [replay_undo_first objNew objOld hind hep]
        exact hu
      · exact hu

theorem create_absorbed (env : Env V) (objNew : BaseObj V) (s : St V) :
    replay (effect objNew) (createPlan objNew.npuList.elems) (baseCreateObjNdi env objNew false s).2.2.hw =
      replay (effect objNew) (createPlan objNew.npuList.elems) s.hw :=
  attempt_absorbed objNew objNew (create_forward objNew objNew.npuList _) (map_indep (fun _ => rfl) _)
    (create_undoPushes env objNew _)

theorem delete_absorbed (env : Env V) (objOld : BaseObj V) (s : St V) :
    replay (effect objOld) (deletePlan objOld.npuList.elems) (baseDeleteObjNdi env objOld false s).2.hw =
      replay (effect objOld) (deletePlan objOld.npuList.elems) s.hw :=
  attempt_absorbed objOld objOld (delete_forward objOld objOld.npuList _) (map_indep (fun _ => rfl) _)
    (delete_undoPushes env objOld _)

theorem modify_absorbed (env : Env V) {objNew : BaseObj V} (objOld : BaseObj V) (hl : LeafOnly objNew) (s : St V) :
    replay (effect objNew) (commitPlan objNew objOld) (baseModifyObjNdi env objNew objOld false s).2.hw =
      replay (effect objNew) (commitPlan objNew objOld) s.hw :=
  attempt_absorbed objNew objOld (modifyTry_forward objOld hl _) (commitPlan_indep objNew objOld)
    (modify_undoPushes env objNew objOld)

/-! ## What a failed commit did to the object, it does again -/

theorem fillNpus_fillNpus (sw : BaseSwitch) (o : BaseObj V) : fillNpus sw (fillNpus sw o) = fillNpus sw o := by
  by_cases h : o.npus.isEmpty = true
  · by_cases hs : sw.npus.isEmpty = true <;> simp [fillNpus, h, hs]
  · simp [fillNpus, h]

theorem foldl_insert_mem (l : List AttrId) :
    ∀ (s : OrdSet AttrId) (b : AttrId), b ∈ l.foldl (fun t a => t.insert a) s ↔ b ∈ s ∨ b ∈ l := by
  induction l with
  | nil => simp
  | cons a l ih =>
    intro s b
    simp only [List.foldl_cons, ih, OrdSet.mem_insert, List.mem_cons]
    tauto

theorem le_union_max (s d : AttrSet) : d.maxAttrId ≤ (s.union d).maxAttrId := by
  by_cases h : s.maxAttrId > d.maxAttrId
  · exact (le_of_lt h).trans_eq (if_pos h).symm
  · exact le_of_eq (if_neg h).symm

/-- Adding the same attributes again adds none. -/
theorem union_union (s d : AttrSet) : (s.union d).union d = s.union d := by
  have hmax : ((s.union d).union d).maxAttrId = (s.union d).maxAttrId := by
    by_cases h : (s.union d).maxAttrId > d.maxAttrId
    · exact if_pos h
    · exact (if_neg h).trans (le_antisymm (le_union_max s d) (not_lt.mp h))
  have hattrs : ((s.union d).union d).attributes = (s.union d).attributes := by
    ext b
    simp only [AttrSet.union, foldl_insert_mem]
    tauto
  calc (s.union d).union d = ⟨((s.union d).union d).maxAttrId, ((s.union d).union d).attributes⟩ := rfl
    _ = s.union d := by rw [hmax, hattrs]

theorem createFilled_idem (sw : BaseSwitch) (o : BaseObj V) : createFilled sw (createFilled sw o) = createFilled sw o := by
  obtain ⟨npus, following, hfill⟩ := fillNpus_eq sw o
  have h : ({ createFilled sw o with setAttributes := (createFilled sw o).dirtyAttributes } : BaseObj V) =
      createFilled sw o := by simp only [createFilled, hfill]
  calc createFilled sw (createFilled sw o) = fillNpus sw (createFilled sw o) := congrArg (fillNpus sw) h
    _ = createFilled sw o := fillNpus_fillNpus sw _

theorem modifyFilled_idem (sw : BaseSwitch) (o : BaseObj V) : modifyFilled sw (modifyFilled sw o) = modifyFilled sw o := by
  obtain ⟨npus, following, hfill⟩ := fillNpus_eq sw o
  have h : ({ modifyFilled sw o with
      setAttributes := (modifyFilled sw o).setAttributes.union (modifyFilled sw o).dirtyAttributes } : BaseObj V) =
      modifyFilled sw o := by simp only [modifyFilled, hfill, union_union]
  calc modifyFilled sw (modifyFilled sw o) = fillNpus sw (modifyFilled sw o) := congrArg (fillNpus sw) h
    _ = modifyFilled sw o := fillNpus_fillNpus sw _

/-! ## The three commits -/

/-- Two calls end the same: in what they return, in the object and in the hardware. -/
def SameEnd {ρ : Type} (r r' : ρ × BaseObj V × St V) : Prop :=
  r.1 = r'.1 ∧ r.2.1 = r'.2.1 ∧ r.2.2.hw = r'.2.2.hw

theorem retry_create {env retry once : Env V} {sw : BaseSwitch} {o o' : BaseObj V} {s s' : St V} {f : Fault}
    (h : commitCreate env sw o false s = (some f, o', s')) (hretry : AllPushed retry s') (honce : AllPushed once s) :
    SameEnd (commitCreate retry sw o' false s') (commitCreate once sw o false s) := by
  by_cases hcreated : o.isCreatedInNdi = true
  · -- refused, the second time as the first
    rw [commitCreate_refused env sw false hcreated] at h
    cases h
    rw [commitCreate_refused retry sw false hcreated, commitCreate_refused once sw false hcreated]
    exact ⟨rfl, rfl, rfl⟩
  · have hfresh : o.isCreatedInNdi = false := by simpa using hcreated
    have hfresh' : (createFilled sw o).isCreatedInNdi = false := by
      obtain ⟨npus, following, hfill⟩ := fillNpus_eq sw o
      rw [createFilled, hfill]
      exact hfresh
    rw [commitCreate_eq env sw false hfresh] at h
    obtain ⟨hf, ho, hs'⟩ : _ ∧ _ ∧ _ := by simpa only [Prod.mk.injEq] using h
    have ho' : o' = createFilled sw o := ho.symm.trans (if_neg (by simp [hf]))
    subst ho'
    obtain ⟨h1, hhw⟩ := create_completes (createFilled sw o) false hretry
    obtain ⟨h2, hhw2⟩ := create_completes (createFilled sw o) false honce
    rw [commitCreate_eq retry sw false hfresh', commitCreate_eq once sw false hfresh, createFilled_idem]
    refine ⟨h1.trans h2.symm, (if_pos h1).trans (if_pos h2).symm, ?_⟩
    calc (baseCreateObjNdi retry (createFilled sw o) false s').2.2.hw
        = replay (effect (createFilled sw o)) (createPlan (createFilled sw o).npuList.elems) s'.hw := hhw
      _ = replay (effect (createFilled sw o)) (createPlan (createFilled sw o).npuList.elems) s.hw := by
          rw [← hs']; exact create_absorbed env _ s
      _ = (baseCreateObjNdi once (createFilled sw o) false s).2.2.hw := hhw2.symm

theorem retry_modify {env retry once : Env V} {sw : BaseSwitch} {o o' objOld : BaseObj V} {s s' : St V} {f : Fault}
    (hl : LeafOnly o) (h : commitModify env sw o objOld false s = (.error f, o', s')) (hretry : AllPushed retry s')
    (honce : AllPushed once s) :
    SameEnd (commitModify retry sw o' objOld false s') (commitModify once sw o objOld false s) := by
  by_cases hcreated : o.isCreatedInNdi = true
  · obtain ⟨npus, following, hfill⟩ := fillNpus_eq sw o
    have hfilled : modifyFilled sw o = _ := hfill (o.setAttributes.union o.dirtyAttributes)
    have hcreated' : (modifyFilled sw o).isCreatedInNdi = true := by rw [hfilled]; exact hcreated
    have hl' : LeafOnly (modifyFilled sw o) := by rw [hfilled]; exact hl
    rw [commitModify_eq env sw objOld false hcreated] at h
    obtain ⟨hf, ho, hs'⟩ : _ ∧ _ ∧ _ := by simpa only [Prod.mk.injEq] using h
    have hthrown : (baseModifyObjNdi env (modifyFilled sw o) objOld false s).1 ≠ none := by
      intro e
      rw [e] at hf
      cases hf
    have ho' : o' = modifyFilled sw o := ho.symm.trans (if_neg hthrown)
    subst ho'
    obtain ⟨h1, hhw⟩ := modify_completes (modifyFilled sw o) objOld hl' false hretry
    obtain ⟨h2, hhw2⟩ := modify_completes (modifyFilled sw o) objOld hl' false honce
    rw [commitModify_eq retry sw objOld false hcreated', commitModify_eq once sw objOld false hcreated, modifyFilled_idem]
    refine ⟨congrArg (modifyResult _) (h1.trans h2.symm), (if_pos h1).trans (if_pos h2).symm, ?_⟩
    calc (baseModifyObjNdi retry (modifyFilled sw o) objOld false s').2.hw
        = replay (effect (modifyFilled sw o)) (commitPlan (modifyFilled sw o) objOld) s'.hw := hhw
      _ = replay (effect (modifyFilled sw o)) (commitPlan (modifyFilled sw o) objOld) s.hw := by
          rw [← hs']; exact modify_absorbed env objOld hl' s
      _ = (baseModifyObjNdi once (modifyFilled sw o) objOld false s).2.hw := hhw2.symm
  · rw [commitModify_refused env sw objOld false hcreated] at h
    cases h
    rw [commitModify_refused retry sw objOld false hcreated, commitModify_refused once sw objOld false hcreated]
    exact ⟨rfl, rfl, rfl⟩

theorem retry_delete {env retry once : Env V} {o o' : BaseObj V} {s s' : St V} {f : Fault}
    (h : commitDelete env o false s = (some f, o', s')) (hretry : AllPushed retry s') (honce : AllPushed once s) :
    SameEnd (commitDelete retry o' false s') (commitDelete once o false s) := by
  by_cases hcreated : o.isCreatedInNdi = true
  · rw [commitDelete_eq env false hcreated] at h
    obtain ⟨hf, ho, hs'⟩ : _ ∧ _ ∧ _ := by simpa only [Prod.mk.injEq] using h
    have ho' : o' = o := ho.symm.trans (if_neg (by simp [hf]))
    subst ho'
    obtain ⟨h1, hhw, -⟩ := delete_completes o' o' false hretry
    obtain ⟨h2, hhw2, -⟩ := delete_completes o' o' false honce
    rw [commitDelete_eq retry false hcreated, commitDelete_eq once false hcreated]
    refine ⟨h1.trans h2.symm, (if_pos h1).trans (if_pos h2).symm, ?_⟩
    calc (baseDeleteObjNdi retry o' false s').2.hw
        = replay (effect o') (deletePlan o'.npuList.elems) s'.hw := hhw
      _ = replay (effect o') (deletePlan o'.npuList.elems) s.hw := by rw [← hs']; exact delete_absorbed env o' s
      _ = (baseDeleteObjNdi once o' false s).2.hw := hhw2.symm
  · rw [commitDelete_refused env false hcreated] at h
    cases h
    rw [commitDelete_refused retry false hcreated, commitDelete_refused once false hcreated]
    exact ⟨rfl, rfl, rfl⟩

/-- A commit (leaf attributes, `rolling_back` false) that failed, called again with the
    same switch and every push taking effect, ends as that call made at the start: the
    same result, object and hardware. It needs nothing of the hardware, nor that the
    rollback of the failed call succeeded. -/
theorem retry_eq_first (env retry once : Env V) (sw : BaseSwitch) (o objOld : BaseObj V) (s : St V) (hl : LeafOnly o)
    (honce : AllPushed once s) :
    (∀ f o' s', commitCreate env sw o false s = (some f, o', s') → AllPushed retry s' →
      SameEnd (commitCreate retry sw o' false s') (commitCreate once sw o false s)) ∧
    (∀ f o' s', commitModify env sw o objOld false s = (.error f, o', s') → AllPushed retry s' →
      SameEnd (commitModify retry sw o' objOld false s') (commitModify once sw o objOld false s)) ∧
    (∀ f o' s', commitDelete env o false s = (some f, o', s') → AllPushed retry s' →
      SameEnd (commitDelete retry o' false s') (commitDelete once o false s)) :=
  ⟨fun _ _ _ h hretry => retry_create h hretry honce, fun _ _ _ h hretry => retry_modify hl h hretry honce,
    fun _ _ _ h hretry => retry_delete h hretry honce⟩

/-- The retries of a create and a delete whose second push failed and of a modify whose
    third did. -/
theorem retry_eq_first_moved :
    (let fresh := { objOn23 with ndiCreated := false }
     let failed := commitCreate (failsAt 1) ⟨.empty⟩ fresh false ⟨fun _ => none, [], []⟩
     SameEnd (commitCreate everyPush ⟨.empty⟩ failed.2.1 false failed.2.2)
       (commitCreate everyPush ⟨.empty⟩ fresh false ⟨fun _ => none, [], []⟩)) ∧
    (let failed := commitModify (failsAt 2) ⟨.empty⟩ objOn23 objOn12 false ⟨hwOn12, [], []⟩
     SameEnd (commitModify everyPush ⟨.empty⟩ failed.2.1 objOn12 false failed.2.2)
       (commitModify everyPush ⟨.empty⟩ objOn23 objOn12 false ⟨hwOn12, [], []⟩)) ∧
    (let failed := commitDelete (failsAt 1) objOn12 false ⟨hwOn12, [], []⟩
     SameEnd (commitDelete everyPush failed.2.1 false failed.2.2)
       (commitDelete everyPush objOn12 false ⟨hwOn12, [], []⟩)) := by
  refine ⟨?_, ?_, ?_⟩
  · exact (retry_eq_first (failsAt 1) everyPush everyPush ⟨.empty⟩ { objOn23 with ndiCreated := false } objOn12
      ⟨fun _ => none, [], []⟩ (fun _ _ => rfl) (fun _ _ => rfl)).1 (.throws ndiFail) _ _
      (Prod.ext (by decide) rfl) (fun _ _ => rfl)
  · exact (retry_eq_first (failsAt 2) everyPush everyPush ⟨.empty⟩ objOn23 objOn12 ⟨hwOn12, [], []⟩
      (fun _ _ => rfl) (fun _ _ => rfl)).2.1 (.throws ndiFail) _ _ (Prod.ext (by decide) rfl) (fun _ _ => rfl)
  · exact (retry_eq_first (failsAt 1) everyPush everyPush ⟨.empty⟩ objOn12 objOn12 ⟨hwOn12, [], []⟩
      (fun _ _ => rfl) (fun _ _ => rfl)).2.2 (.throws ndiFail) _ _ (Prod.ext (by decide) rfl) (fun _ _ => rfl)

end NasCommon.Base
