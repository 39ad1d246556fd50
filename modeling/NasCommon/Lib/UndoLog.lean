/-
  NasCommon.Lib.UndoLog — actions with an undo, logged as they take effect.

  `replay` performs a list of actions in order, `unwind` undoes a log from its last
  entry to its first. An action is undone exactly when the state it starts from is
  `ready` for it, and an independent action leaves it ready (`Compensates`). Then
  whatever part of a pairwise independent plan took effect, unwinding its log gives
  back the state the plan started from (`unwind_replay`), and replaying the plan ends
  the same from a state that one of its actions, or the undo of one, was run on before
  (`replay_absorbs`).
-/

import Mathlib.Data.List.Pairwise

namespace UndoLog

variable {α σ : Type*}

def replay (act : α → σ → σ) (l : List α) (s : σ) : σ := l.foldl (fun s a => act a s) s

def unwind (undo : α → σ → σ) (l : List α) (s : σ) : σ := l.foldr undo s

variable (act undo : α → σ → σ)

@[simp] theorem replay_nil (s : σ) : replay act [] s = s := rfl

@[simp] theorem replay_cons (a : α) (l : List α) (s : σ) : replay act (a :: l) s = replay act l (act a s) := rfl

@[simp] theorem replay_append (l m : List α) (s : σ) : replay act (l ++ m) s = replay act m (replay act l s) := by
  simp [replay]

@[simp] theorem unwind_cons (a : α) (l : List α) (s : σ) : unwind undo (a :: l) s = undo a (unwind undo l s) := rfl

/-- The undo loop's own order: the last entry first. -/
theorem unwind_eq_foldl (l : List α) (s : σ) : l.reverse.foldl (fun s a => undo a s) s = unwind undo l s := by
  simp [unwind]

/-- `ready a s`: from `s`, `undo a` takes back `act a`; actions `indep` of `a` keep it so. -/
structure Compensates (ready : α → σ → Prop) (indep : α → α → Prop) : Prop where
  undo_act : ∀ a s, ready a s → undo a (act a s) = s
  ready_act : ∀ a b s, indep a b → ready b s → ready b (act a s)

variable {act undo}

/-- Unwinding the log of a pairwise independent list restores the state it ran from. -/
theorem unwind_replay {ready : α → σ → Prop} {indep : α → α → Prop} (h : Compensates act undo ready indep) :
    ∀ (l : List α) (s : σ), l.Pairwise indep → (∀ a ∈ l, ready a s) → unwind undo l (replay act l s) = s := by
  intro l
  induction l with
  | nil => intro s _ _; rfl
  | cons a l ih =>
    intro s hp hr
    obtain ⟨ha, hl⟩ := List.pairwise_cons.mp hp
    have hready : ∀ b ∈ l, ready b (act a s) := fun b hb => h.ready_act a b s (ha b hb) (hr b (List.mem_cons_of_mem _ hb))
    rw [replay_cons, unwind_cons, ih _ hl hready]
    exact h.undo_act a s (hr a List.mem_cons_self)

/-- The same for the part of a plan that took effect. -/
theorem unwind_replay_sublist {ready : α → σ → Prop} {indep : α → α → Prop} (h : Compensates act undo ready indep)
    {taken plan : List α} (ht : taken.Sublist plan) (hp : plan.Pairwise indep) {s : σ} (hr : ∀ a ∈ plan, ready a s) :
    unwind undo taken (replay act taken s) = s :=
  unwind_replay h taken s (hp.sublist ht) fun a ha => hr a (ht.subset ha)

/-- A plan absorbs what was done before it, where one of its actions overwrites that and
    the others commute with it. -/
theorem replay_absorbs {before : σ → σ} {a : α} (hover : ∀ s, act a (before s) = act a s) :
    ∀ (plan : List α), a ∈ plan → (∀ b ∈ plan, b ≠ a → ∀ s, act b (before s) = before (act b s)) →
      ∀ s, replay act plan (before s) = replay act plan s := by
  intro plan
  induction plan with
  | nil => intro ha; cases ha
  | cons b plan ih =>
    intro ha hcomm s
    by_cases e : b = a
    · subst e
      rw [replay_cons, replay_cons, hover]
    · have ha' : a ∈ plan := (List.mem_cons.mp ha).resolve_left (Ne.symm e)
      rw [replay_cons, replay_cons, hcomm b List.mem_cons_self e]
      exact ih ha' (fun c hc => hcomm c (List.mem_cons_of_mem _ hc)) _

end UndoLog
