/-
  NasCommon.Lib.Refinement — a machine that refines an abstract one, and a heap read as
  the set of the values in it.

  `abs` reads an abstract state off a concrete one, `lab` an abstract call off a concrete
  call and the state it is made in.
  - `refines`: where each step answers as the abstract one and ends where it does, so
    does a run, and its answers are those of the abstract run.
  - `refines_same`: two runs with one abstract run give the same answers.
  - `simulates`: the same for states that a relation holds of; `simulates_tally` counts
    what the calls of such a run come to.
  - `cell_final`: a cell that some of the calls write holds what was written last;
    `cell_final_answers` tells it by the calls and their answers.
  - `values_insert`, `values_replace`, `values_erase`: what an update of the heap does to
    the set of the values, where no other reference holds the old one.
-/

import Mathlib.Data.List.ReduceOption
import Mathlib.Data.Set.Insert
import NasCommon.Lib.Runs

namespace Runs

variable {α β γ σ τ : Type*} {step : σ → α → β × σ} {astep : τ → γ → β × τ}

/-- The abstract calls of a run. -/
def labels (step : σ → α → β × σ) (lab : σ → α → γ) : σ → List α → List γ
  | _, [] => []
  | s, a :: l => lab s a :: labels step lab (step s a).2 l

/-- A label is that of some call, in the state that the calls before lead to. -/
theorem mem_labels_iff {lab : σ → α → γ} {c : γ} : ∀ {l : List α} {s : σ}, c ∈ labels step lab s l ↔
    ∃ before a after, l = before ++ a :: after ∧ lab (final step s before) a = c := by
  intro l
  induction l with
  | nil =>
    intro s
    exact iff_of_false List.not_mem_nil fun ⟨before, a, after, he, _⟩ => by simp at he
  | cons a l ih =>
    intro s
    rw [labels, List.mem_cons, ih]
    constructor
    · rintro (rfl | ⟨before, b, after, rfl, hb⟩)
      · exact ⟨[], a, l, rfl, rfl⟩
      · exact ⟨a :: before, b, after, rfl, hb⟩
    · rintro ⟨before, b, after, he, hb⟩
      cases before with
      | nil =>
        cases he
        exact Or.inl hb.symm
      | cons a' before =>
        cases he
        exact Or.inr ⟨before, b, after, rfl, hb⟩

/-- The last thing that a list says, or else the old one: said by the head or by the rest. -/
theorem last_filterMap_cons (f : α → Option γ) (a : α) (l : List α) (old : γ) :
    ((a :: l).filterMap f).getLast?.getD old = (l.filterMap f).getLast?.getD ((f a).getD old) := by
  cases hf : f a with
  | none => rw [List.filterMap_cons_none hf]; rfl
  | some v => rw [List.filterMap_cons_some hf, List.getLast?_cons]; rfl

/-- Under an invariant, a cell of the state that some calls write holds what was written last. -/
theorem cell_final {I : σ → Prop} (cell : σ → γ) (write : σ → α → Option γ) (hI : ∀ s a, I s → I (step s a).2)
    (hwrite : ∀ s a, I s → cell (step s a).2 = (write s a).getD (cell s)) : ∀ (l : List α) (s : σ), I s →
    cell (final step s l) = ((labels step write s l).reduceOption.getLast?).getD (cell s) := by
  intro l
  induction l with
  | nil => intro s _; rfl
  | cons a l ih =>
    intro s hs
    rw [final_cons, ih _ (hI s a hs), hwrite s a hs, labels]
    exact (last_filterMap_cons id (write s a) _ _).symm

/-- What the last of the calls to write anything wrote, by the calls and their answers. -/
def lastWritten (wrote : α → β → Option γ) (calls : List (α × β)) : Option γ :=
  (calls.filterMap fun p => wrote p.1 p.2).getLast?

theorem labels_answers (wrote : α → β → γ) : ∀ (l : List α) (s : σ),
    labels step (fun s a => wrote a (step s a).1) s l = (l.zip (answers step s l)).map fun p => wrote p.1 p.2 := by
  intro l
  induction l with
  | nil => intro s; rfl
  | cons a l ih =>
    intro s
    rw [labels, answers, List.zip_cons_cons, List.map_cons, ih]

/-- The same where each call and its answer tell what was written. -/
theorem cell_final_answers {I : σ → Prop} {cell : σ → γ} {wrote : α → β → Option γ} (hI : ∀ s a, I s → I (step s a).2)
    (hwrote : ∀ s a, I s → cell (step s a).2 = (wrote a (step s a).1).getD (cell s)) (l : List α) (s : σ) (hs : I s) :
    cell (final step s l) = (lastWritten wrote (l.zip (answers step s l))).getD (cell s) := by
  rw [cell_final cell _ hI hwrote l s hs, labels_answers, List.reduceOption, List.filterMap_map]
  rfl

/-- One step of the machine is one of the abstract machine. -/
def StepRefines (step : σ → α → β × σ) (astep : τ → γ → β × τ) (abs : σ → τ) (lab : σ → α → γ) (s : σ) (a : α) : Prop :=
  (step s a).1 = (astep (abs s) (lab s a)).1 ∧ abs (step s a).2 = (astep (abs s) (lab s a)).2

section Refines

variable {I : σ → Prop} {C : σ → α → Prop} {abs : σ → τ} {lab : σ → α → γ}

/-- Under an invariant that calls with `C` keep. -/
theorem refines (hI : ∀ s a, I s → C s a → I (step s a).2)
    (hstep : ∀ s a, I s → C s a → StepRefines step astep abs lab s a) :
    ∀ (l : List α) (s : σ), I s → Steps step C s l →
      answers step s l = answers astep (abs s) (labels step lab s l) ∧
        abs (final step s l) = final astep (abs s) (labels step lab s l) := by
  intro l
  induction l with
  | nil => intro s _ _; exact ⟨rfl, rfl⟩
  | cons a l ih =>
    intro s hs hC
    obtain ⟨hanswer, hnext⟩ := hstep s a hs hC.1
    obtain ⟨hanswers, hfinal⟩ := ih _ (hI s a hs hC.1) hC.2
    rw [hnext] at hanswers hfinal
    refine ⟨?_, hfinal⟩
    show (step s a).1 :: answers step (step s a).2 l = _ :: _
    rw [hanswer, hanswers]

theorem refines_same (hI : ∀ s a, I s → C s a → I (step s a).2)
    (hstep : ∀ s a, I s → C s a → StepRefines step astep abs lab s a) {l m : List α} {s t : σ} (hs : I s) (ht : I t)
    (hl : Steps step C s l) (hm : Steps step C t m) (habs : abs s = abs t)
    (hlab : labels step lab s l = labels step lab t m) :
    answers step s l = answers step t m ∧ abs (final step s l) = abs (final step t m) := by
  obtain ⟨h1, h2⟩ := refines hI hstep l s hs hl
  obtain ⟨h3, h4⟩ := refines hI hstep m t ht hm
  rw [h1, h2, h3, h4, habs, hlab]
  exact ⟨rfl, rfl⟩

end Refines

/-! ## Simulation -/

/-- What the calls of a run come to, each in the state it is made in. -/
def tally (step : σ → α → β × σ) (w : σ → α → Nat) : σ → List α → Nat
  | _, [] => 0
  | s, a :: l => w s a + tally step w (step s a).2 l

theorem tally_eq_zero {w : σ → α → Nat} {l : List α} : ∀ {s : σ},
    tally step w s l = 0 ↔ Steps step (fun s a => w s a = 0) s l := by
  induction l with
  | nil => intro s; exact iff_of_true rfl trivial
  | cons a l ih => intro s; exact Nat.add_eq_zero_iff.trans (and_congr_right fun _ => ih)

section Simulates

variable {R : σ → τ → Prop} {lab : σ → α → γ}

/-- One step of the machine is one of the abstract machine, from related states to related states. -/
structure StepSimulates (step : σ → α → β × σ) (astep : τ → γ → β × τ) (R : σ → τ → Prop) (lab : σ → α → γ)
    (s : σ) (t : τ) (a : α) : Prop where
  answer : (step s a).1 = (astep t (lab s a)).1
  next : R (step s a).2 (astep t (lab s a)).2

theorem simulates (hstep : ∀ s t a, R s t → StepSimulates step astep R lab s t a) : ∀ (l : List α) (s : σ) (t : τ), R s t →
    answers step s l = answers astep t (labels step lab s l) ∧ R (final step s l) (final astep t (labels step lab s l)) := by
  intro l
  induction l with
  | nil => intro s t h; exact ⟨rfl, h⟩
  | cons a l ih =>
    intro s t h
    obtain ⟨hanswer, hnext⟩ := hstep s t a h
    obtain ⟨hanswers, hfinal⟩ := ih _ _ hnext
    refine ⟨?_, hfinal⟩
    show (step s a).1 :: answers step (step s a).2 l = _ :: _
    rw [hanswer, hanswers]

/-- Where each step adds to a measure what the abstract call comes to, so does a run. -/
theorem simulates_tally (hstep : ∀ s t a, R s t → StepSimulates step astep R lab s t a) {m : σ → Int} {w : τ → γ → Nat}
    (hm : ∀ s t a, R s t → m (step s a).2 = m s + w t (lab s a)) : ∀ (l : List α) (s : σ) (t : τ), R s t →
    m (final step s l) = m s + tally astep w t (labels step lab s l) := by
  intro l
  induction l with
  | nil => intro s t _; exact (Int.add_zero _).symm
  | cons a l ih =>
    intro s t h
    show m (final step (step s a).2 l) = m s + ((w t (lab s a) + tally astep w _ (labels step lab _ l) : Nat) : Int)
    rw [ih _ _ (hstep s t a h).next, hm s t a h]
    omega

end Simulates

end Runs

namespace HeapValues

variable {P R V : Type*}

/-- What the references hold, seen through `view`. -/
def values (heap : P → Option R) (view : R → V) : Set V := {v | ∃ p r, heap p = some r ∧ view r = v}

variable {heap : P → Option R} {view view' : R → V} {p : P} {r : R}

theorem mem_values (hp : heap p = some r) : view r ∈ values heap view := ⟨p, r, hp, rfl⟩

variable [DecidableEq P]

theorem values_insert (hp : heap p = none) (r : R) :
    values (Function.update heap p (some r)) view = insert (view r) (values heap view) := by
  ext v
  rw [Set.mem_insert_iff]
  constructor
  · intro h
    obtain ⟨q, r', hq, hv⟩ := h
    by_cases e : q = p
    · rw [e, Function.update_self] at hq
      cases hq
      exact Or.inl hv.symm
    · rw [Function.update_of_ne e] at hq
      exact Or.inr ⟨q, r', hq, hv⟩
  · intro h
    rcases h with hv | ⟨q, r', hq, hv⟩
    · exact ⟨p, r, Function.update_self _ _ _, hv.symm⟩
    · have e : q ≠ p := fun e => by rw [e, hp] at hq; cases hq
      exact ⟨q, r', by rwa [Function.update_of_ne e], hv⟩

/-- Only `p` holds the value of `r`. -/
def Alone (heap : P → Option R) (view : R → V) (p : P) (r : R) : Prop :=
  ∀ q r', heap q = some r' → view r' = view r → q = p

omit [DecidableEq P] in
/-- The values at the other references are the set without the one at `p`. -/
theorem values_others (hp : heap p = some r) (halone : Alone heap view p r)
    (hothers : ∀ q r', q ≠ p → heap q = some r' → view' r' = view r') (v : V) :
    (∃ q r', q ≠ p ∧ heap q = some r' ∧ view' r' = v) ↔ v ∈ values heap view \ {view r} := by
  rw [Set.mem_sdiff, Set.mem_singleton_iff]
  constructor
  · intro h
    obtain ⟨q, r', hq, hr', hv⟩ := h
    rw [hothers q r' hq hr'] at hv
    exact ⟨⟨q, r', hr', hv⟩, fun he => hq (halone q r' hr' (hv.trans he))⟩
  · intro h
    obtain ⟨⟨q, r', hr', hv⟩, hne⟩ := h
    have hq : q ≠ p := by
      intro e
      rw [e, hp] at hr'
      cases hr'
      exact hne hv.symm
    exact ⟨q, r', hq, hr', (hothers q r' hq hr').trans hv⟩

theorem values_erase (hp : heap p = some r) (halone : Alone heap view p r)
    (hothers : ∀ q r', q ≠ p → heap q = some r' → view' r' = view r') :
    values (Function.update heap p none) view' = values heap view \ {view r} := by
  ext v
  rw [← values_others hp halone hothers]
  constructor
  · intro h
    obtain ⟨q, r', hq, hv⟩ := h
    by_cases e : q = p
    · rw [e, Function.update_self] at hq
      cases hq
    · rw [Function.update_of_ne e] at hq
      exact ⟨q, r', e, hq, hv⟩
  · intro h
    obtain ⟨q, r', e, hq, hv⟩ := h
    exact ⟨q, r', by rwa [Function.update_of_ne e], hv⟩

theorem values_replace (hp : heap p = some r) (halone : Alone heap view p r)
    (hothers : ∀ q r', q ≠ p → heap q = some r' → view' r' = view r') (s : R) :
    values (Function.update heap p (some s)) view' = insert (view' s) (values heap view \ {view r}) := by
  have htwice : Function.update heap p (some s) = Function.update (Function.update heap p none) p (some s) :=
    (Function.update_idem _ _ _).symm
  rw [htwice, values_insert (Function.update_self _ _ _), values_erase hp halone hothers]

end HeapValues
