/-
  NasCommon.Lib.Owners — places that hold tokens of a store, one each at most.

  A token is live from `acquire` to `free`. Places are `Exclusive` when what each holds
  is live and held by no other, and the store is `Covered` when each live token is held.
  - `exclusive_put_iff`: a place that is handed a token of elsewhere shares it, or holds
    a dead one.
  - `exclusive_free_iff`: a token freed where it is still held.
  - `exclusive_release`, `exclusive_acquire`: giving up a token and taking a new one.
-/

import Mathlib.Logic.Function.Basic

structure Owners (P D T : Type*) where
  held : P → Option D
  store : D → Option T

namespace Owners

variable {P D T : Type*} {o : Owners P D T} {p q : P} {d e : D}

def Exclusive (o : Owners P D T) : Prop :=
  ∀ p d, o.held p = some d → (o.store d).isSome = true ∧ ∀ q, o.held q = some d → q = p

def Covered (o : Owners P D T) : Prop := ∀ d, (o.store d).isSome = true → ∃ p, o.held p = some d

/-! ## Handing over -/

section Put

variable [DecidableEq P]

def put (o : Owners P D T) (p : P) (x : Option D) : Owners P D T := { o with held := Function.update o.held p x }

theorem put_held_self (o : Owners P D T) (p : P) (x : Option D) : (o.put p x).held p = x := Function.update_self _ _ _

theorem put_held_other (h : q ≠ p) (x : Option D) : (o.put p x).held q = o.held q := Function.update_of_ne h _ _

theorem put_none (hp : o.held p = none) : o.put p none = o := by
  unfold put
  rw [← hp, Function.update_eq_self]

theorem exclusive_put_iff (h : Exclusive o) (hcov : Covered o) (hp : o.held p = none) {x : Option D} :
    Exclusive (o.put p x) ↔ x = none := by
  constructor
  · intro hput
    cases x with
    | none => rfl
    | some d =>
      -- the token is live, so it is held elsewhere
      obtain ⟨hlive, hone⟩ := hput p d (put_held_self o p _)
      obtain ⟨q, hq⟩ := hcov d hlive
      have hqp : q ≠ p := fun he => by rw [he, hp] at hq; cases hq
      exact absurd (hone q ((put_held_other hqp _).trans hq)) hqp
  · intro hx
    rwa [hx, put_none hp]

theorem covered_put (h : Covered o) (hp : o.held p = none) (x : Option D) : Covered (o.put p x) := by
  intro d hd
  obtain ⟨q, hq⟩ := h d hd
  have hqp : q ≠ p := fun he => by rw [he, hp] at hq; cases hq
  exact ⟨q, (put_held_other hqp _).trans hq⟩

end Put

/-! ## Freeing -/

variable [DecidableEq D]

/-- The token is no more; the place still names it. -/
def free (o : Owners P D T) (p : P) : Owners P D T :=
  match o.held p with
  | none => o
  | some d => { o with store := Function.update o.store d none }

theorem free_none (h : o.held p = none) : o.free p = o := by
  unfold free
  rw [h]

theorem free_some (h : o.held p = some d) : o.free p = { o with store := Function.update o.store d none } := by
  unfold free
  rw [h]

theorem free_held (o : Owners P D T) (p : P) : (o.free p).held = o.held := by
  unfold free
  split <;> rfl

theorem free_store_self (h : o.held p = some d) : (o.free p).store d = none := by
  rw [free_some h]
  exact Function.update_self _ _ _

theorem free_store_other (h : o.held p ≠ some e) : (o.free p).store e = o.store e := by
  cases hp : o.held p with
  | none => rw [free_none hp]
  | some d =>
    rw [free_some hp]
    refine Function.update_of_ne (fun he => h ?_) _ _
    rw [he, hp]

theorem exclusive_free_iff (h : Exclusive o) : Exclusive (o.free p) ↔ o.held p = none := by
  constructor
  · intro hfree
    cases hp : o.held p with
    | none => rfl
    | some d =>
      have hlive := (hfree p d (by rw [free_held, hp])).1
      rw [free_store_self hp] at hlive
      cases hlive
  · intro hp
    rwa [free_none hp]

theorem covered_free (h : Covered o) : Covered (o.free p) := by
  intro d hd
  rw [free_held]
  refine h d ?_
  by_cases hp : o.held p = some d
  · rw [free_store_self hp] at hd
    cases hd
  · rwa [free_store_other hp] at hd

/-! ## Releasing and acquiring -/

variable [DecidableEq P]

def release (o : Owners P D T) (p : P) : Owners P D T := (o.free p).put p none

def acquire (o : Owners P D T) (p : P) (d : D) (t : T) : Owners P D T :=
  ⟨Function.update o.held p (some d), Function.update o.store d (some t)⟩

theorem release_held_self (o : Owners P D T) (p : P) : (o.release p).held p = none := put_held_self _ _ _

theorem release_held_other (h : q ≠ p) : (o.release p).held q = o.held q := by
  unfold release
  rw [put_held_other h, free_held]

theorem acquire_held_self (o : Owners P D T) (p : P) (d : D) (t : T) : (o.acquire p d t).held p = some d :=
  Function.update_self _ _ _

theorem acquire_held_other (h : q ≠ p) (d : D) (t : T) : (o.acquire p d t).held q = o.held q :=
  Function.update_of_ne h _ _

theorem acquire_store_self (o : Owners P D T) (p : P) (d : D) (t : T) : (o.acquire p d t).store d = some t :=
  Function.update_self _ _ _

theorem acquire_store_other (h : e ≠ d) (p : P) (t : T) : (o.acquire p d t).store e = o.store e :=
  Function.update_of_ne h _ _

theorem exclusive_release (h : Exclusive o) (p : P) : Exclusive (o.release p) := by
  intro q d hq
  have hqp : q ≠ p := by
    intro he
    rw [he, release_held_self] at hq
    cases hq
  rw [release_held_other hqp] at hq
  obtain ⟨hlive, hone⟩ := h q d hq
  have hother : o.held p ≠ some d := fun hp => hqp (hone p hp).symm
  refine ⟨?_, fun q' hq' => ?_⟩
  · show ((o.free p).store d).isSome = true
    rwa [free_store_other hother]
  · have hq'p : q' ≠ p := by
      intro he
      rw [he, release_held_self] at hq'
      cases hq'
    rw [release_held_other hq'p] at hq'
    exact hone q' hq'

theorem covered_release (h : Covered o) (p : P) : Covered (o.release p) := by
  intro d hd
  have hd : ((o.free p).store d).isSome = true := hd
  obtain ⟨q, hq⟩ := covered_free h d hd
  rw [free_held] at hq
  have hqp : q ≠ p := by
    -- the token of `p` is the one that was freed
    intro he
    rw [he] at hq
    rw [free_store_self hq] at hd
    cases hd
  exact ⟨q, (release_held_other hqp).trans hq⟩

theorem exclusive_acquire (h : Exclusive o) (hfresh : o.store d = none) (p : P) (t : T) :
    Exclusive (o.acquire p d t) := by
  have hnone : ∀ q, o.held q ≠ some d := by
    intro q hq
    have hlive := (h q d hq).1
    rw [hfresh] at hlive
    cases hlive
  intro q e hq
  by_cases hqp : q = p
  · rw [hqp, acquire_held_self] at hq
    cases hq
    refine ⟨by rw [acquire_store_self]; rfl, fun q' hq' => ?_⟩
    by_contra hne
    rw [acquire_held_other (hqp ▸ hne)] at hq'
    exact hnone q' hq'
  · rw [acquire_held_other hqp] at hq
    obtain ⟨hlive, hone⟩ := h q e hq
    have hed : e ≠ d := fun he => hnone q (he ▸ hq)
    refine ⟨by rwa [acquire_store_other hed], fun q' hq' => ?_⟩
    have hq'p : q' ≠ p := by
      intro he
      rw [he, acquire_held_self] at hq'
      exact hed (Option.some.inj hq').symm
    rw [acquire_held_other hq'p] at hq'
    exact hone q' hq'

theorem covered_acquire (h : Covered o) (hp : o.held p = none) (d : D) (t : T) : Covered (o.acquire p d t) := by
  intro e he
  by_cases hed : e = d
  · exact ⟨p, hed ▸ acquire_held_self o p d t⟩
  · rw [acquire_store_other hed] at he
    obtain ⟨q, hq⟩ := h e he
    have hqp : q ≠ p := fun heq => by rw [heq, hp] at hq; cases hq
    exact ⟨q, (acquire_held_other hqp _ _).trans hq⟩

end Owners
