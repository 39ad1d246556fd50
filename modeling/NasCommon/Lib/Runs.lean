/-
  NasCommon.Lib.Runs — runs of a machine that answers each call (`step : σ → α → β × σ`).

  `final` is the state after a list of calls, `answers` what they returned. `Always P`
  holds of a run when `P` holds in every state it passes through, `Steps C` when every
  call meets `C` in the state it is made in.
  - `final_invariant`: a property every step keeps holds at the end of every run.
  - `final_of_steps`, `always_of_steps`: the same for a property that calls with `C` keep.
  - `Steps.imp`: calls that meet a condition meet a weaker one.
  - `steps_congr`: conditions that agree under an invariant agree along a run.
  - `always_iff_steps`: where a step keeps `P` exactly when it meets `C`, a run keeps
    `P` throughout exactly when all its steps meet `C`; `always_iff_steps_of` where the
    calls are known to meet something, and `always_and_steps_iff` adds what such steps give.
-/

import Mathlib.Data.List.Basic

namespace Runs

variable {α β σ : Type*} (step : σ → α → β × σ)

def final (s : σ) (l : List α) : σ := l.foldl (fun s a => (step s a).2) s

def answers : σ → List α → List β
  | _, [] => []
  | s, a :: l => (step s a).1 :: answers (step s a).2 l

def Steps (C : σ → α → Prop) : σ → List α → Prop
  | _, [] => True
  | s, a :: l => C s a ∧ Steps C (step s a).2 l

def Always (P : σ → Prop) (s : σ) (l : List α) : Prop := ∀ l', l' <+: l → P (final step s l')

@[simp] theorem final_nil (s : σ) : final step s [] = s := rfl

@[simp] theorem final_cons (s : σ) (a : α) (l : List α) : final step s (a :: l) = final step (step s a).2 l := rfl

variable {step}

theorem final_invariant {P : σ → Prop} (hstep : ∀ s a, P s → P (step s a).2) :
    ∀ (l : List α) (s : σ), P s → P (final step s l) := by
  intro l
  induction l with
  | nil => intro s h; exact h
  | cons a l ih => intro s h; exact ih _ (hstep s a h)

theorem always_nil {P : σ → Prop} {s : σ} : Always step P s [] ↔ P s := by
  constructor
  · intro h; exact h [] (List.prefix_refl _)
  · intro h l' hl'
    rw [List.prefix_nil.mp hl']; exact h

theorem always_cons {P : σ → Prop} {s : σ} {a : α} {l : List α} :
    Always step P s (a :: l) ↔ P s ∧ Always step P (step s a).2 l := by
  constructor
  · intro h
    exact ⟨h [] List.nil_prefix, fun l' hl' => h (a :: l') ((List.prefix_cons_inj a).mpr hl')⟩
  · rintro ⟨h0, h⟩ l' hl'
    cases l' with
    | nil => exact h0
    | cons b m =>
      obtain ⟨rfl, hm⟩ := List.cons_prefix_cons.mp hl'
      exact h m hm

theorem Steps.imp {C D : σ → α → Prop} (h : ∀ s a, C s a → D s a) :
    ∀ {l : List α} {s : σ}, Steps step C s l → Steps step D s l := by
  intro l
  induction l with
  | nil => intro s _; trivial
  | cons a l ih => intro s hs; exact ⟨h s a hs.1, ih hs.2⟩

theorem final_append (s : σ) (l m : List α) : final step s (l ++ m) = final step (final step s l) m := by
  unfold final
  exact List.foldl_append

theorem steps_append {C : σ → α → Prop} {l m : List α} : ∀ {s : σ},
    Steps step C s (l ++ m) ↔ Steps step C s l ∧ Steps step C (final step s l) m := by
  induction l with
  | nil => intro s; exact (and_iff_right trivial).symm
  | cons a l ih => intro s; exact (and_congr_right fun _ => ih).trans and_assoc.symm

/-- An invariant that calls with `C` keep. -/
theorem final_of_steps {I : σ → Prop} {C : σ → α → Prop} (hI : ∀ s a, I s → C s a → I (step s a).2) :
    ∀ (l : List α) (s : σ), I s → Steps step C s l → I (final step s l) := by
  intro l
  induction l with
  | nil => intro s hs _; exact hs
  | cons a l ih => intro s hs hC; exact ih _ (hI s a hs hC.1) hC.2

theorem always_of_steps {I : σ → Prop} {C : σ → α → Prop} (hI : ∀ s a, I s → C s a → I (step s a).2) {l : List α} {s : σ}
    (hs : I s) (hC : Steps step C s l) : Always step I s l := by
  intro l' hl'
  obtain ⟨m, rfl⟩ := hl'
  exact final_of_steps hI l' s hs (steps_append.mp hC).1

/-- Under an invariant, calls that meet `C` just when they meet `D` make runs that do. -/
theorem steps_congr {I : σ → Prop} {C D : σ → α → Prop} (hI : ∀ s a, I s → I (step s a).2)
    (h : ∀ s a, I s → (C s a ↔ D s a)) : ∀ (l : List α) (s : σ), I s → (Steps step C s l ↔ Steps step D s l) := by
  intro l
  induction l with
  | nil => intro s _; exact Iff.rfl
  | cons a l ih => intro s hs; exact and_congr (h s a hs) (ih _ (hI s a hs))

/-- Under an invariant `I`, a step from a state with `P` keeps `P` exactly when it meets `C`. -/
theorem always_iff_steps {I P : σ → Prop} {C : σ → α → Prop} (hI : ∀ s a, I s → I (step s a).2)
    (hstep : ∀ s a, I s → P s → (P (step s a).2 ↔ C s a)) :
    ∀ (l : List α) (s : σ), I s → P s → (Always step P s l ↔ Steps step C s l) := by
  intro l
  induction l with
  | nil => intro s _ hP; simpa [Steps, always_nil] using hP
  | cons a l ih =>
    intro s hIs hPs
    rw [always_cons]
    constructor
    · intro h
      obtain ⟨_, h⟩ := h
      have hP' : P (step s a).2 := h [] List.nil_prefix
      exact ⟨(hstep s a hIs hPs).mp hP', (ih _ (hI s a hIs) hP').mp h⟩
    · intro h
      obtain ⟨hC, h⟩ := h
      have hP' := (hstep s a hIs hPs).mpr hC
      exact ⟨hPs, (ih _ (hI s a hIs) hP').mpr h⟩

/-- The same where the calls are known to meet `D`. -/
theorem always_iff_steps_of {P : σ → Prop} {C D : σ → α → Prop}
    (hstep : ∀ s a, D s a → P s → (P (step s a).2 ↔ C s a)) :
    ∀ (l : List α) (s : σ), P s → Steps step D s l → (Always step P s l ↔ Steps step C s l) := by
  intro l
  induction l with
  | nil => intro s hP _; simpa [Steps, always_nil] using hP
  | cons a l ih =>
    intro s hP hD
    rw [always_cons, and_iff_right hP]
    constructor
    · intro h
      have hP' : P (step s a).2 := h [] List.nil_prefix
      exact ⟨(hstep s a hD.1 hP).mp hP', (ih _ hP' hD.2).mp h⟩
    · intro h
      exact (ih _ ((hstep s a hD.1 hP).mpr h.1) hD.2).mpr h.2

/-- What a call that meets `C` gives beside, where `P` is kept. -/
theorem always_and_steps_iff {I P : σ → Prop} {C Q : σ → α → Prop} (hI : ∀ s a, I s → I (step s a).2)
    (hstep : ∀ s a, I s → P s → (P (step s a).2 ↔ C s a)) (hQ : ∀ s a, I s → P s → C s a → Q s a) :
    ∀ (l : List α) (s : σ), I s → P s → (Always step P s l ∧ Steps step Q s l ↔ Steps step C s l) := by
  have hgives : ∀ (l : List α) (s : σ), I s → P s → Steps step C s l → Steps step Q s l := by
    intro l
    induction l with
    | nil => intro s _ _ _; trivial
    | cons a l ih =>
      intro s hIs hPs hC
      exact ⟨hQ s a hIs hPs hC.1, ih _ (hI s a hIs) ((hstep s a hIs hPs).mpr hC.1) hC.2⟩
  intro l s hIs hPs
  rw [always_iff_steps hI hstep l s hIs hPs]
  exact ⟨And.left, fun hC => ⟨hC, hgives l s hIs hPs hC⟩⟩

end Runs
