/-
  NasCommon.Base.AllocHelper — the blocks that are freed with their helper
  (`mem_alloc_helper_t`).

  `alloc` makes a block and tracks it, or frees it again where it can not; `add` tracks a
  block that the caller has. The destructor frees what is tracked, each as often as it
  is. The rest of the program allocates and frees too. A call that throws, or any code
  after a call, may take the helper out of scope.
  - `destroy_iff`: the destructor frees no block twice exactly when the tracked blocks
    are live and different.
  - `freed_once_iff`: whenever a helper goes out of scope it frees the blocks it tracks,
    each once, exactly when every `add` hands over a live block that it does not track,
    and nobody else frees one that it does.
-/

import Mathlib.Data.List.ReduceOption
import Mathlib.Logic.Function.Basic
import NasCommon.Lib.Runs

namespace NasCommon.Base

/-! ## The heap -/

abbrev Block := Nat

structure Heap where
  live : Block → Bool
  /-- A block was freed that is not live. -/
  doubleFree : Bool

namespace Heap

def make (p : Block) (h : Heap) : Heap := { h with live := Function.update h.live p true }

/-- `free`: nothing for NULL. -/
def free (h : Heap) : Option Block → Heap
  | none => h
  | some p => if h.live p then { h with live := Function.update h.live p false } else { h with doubleFree := true }

end Heap

/-! ## The helper -/

structure MemAllocHelper where
  heap : Heap
  ptrList : List (Option Block)

/-- A call of the helper, with what `calloc` gives it and whether `push_back` has room, or
    of the rest of the program. -/
inductive AllocCall where
  | alloc (block : Option Block) (room : Bool)
  | add (ptr : Option Block) (room : Bool)
  | malloc (block : Block)
  | free (ptr : Option Block)

inductive AllocAnswer where
  | ret (ptr : Option Block)
  | threw
  deriving DecidableEq, Repr

namespace MemAllocHelper

def start (live : Block → Bool) : MemAllocHelper := ⟨⟨live, false⟩, []⟩

def alloc (block : Option Block) (room : Bool) (s : MemAllocHelper) : AllocAnswer × MemAllocHelper :=
  match block with
  | none => (.threw, s)
  | some p =>
    let heap := s.heap.make p
    if room then (.ret (some p), ⟨heap, s.ptrList ++ [some p]⟩) else (.threw, ⟨heap.free (some p), s.ptrList⟩)

def add (ptr : Option Block) (room : Bool) (s : MemAllocHelper) : AllocAnswer × MemAllocHelper :=
  if room then (.ret none, ⟨s.heap, s.ptrList ++ [ptr]⟩) else (.threw, s)

/-- `~mem_alloc_helper_t`. -/
def destroy (s : MemAllocHelper) : Heap := s.ptrList.foldl Heap.free s.heap

def step (s : MemAllocHelper) : AllocCall → AllocAnswer × MemAllocHelper
  | .alloc block room => s.alloc block room
  | .add ptr room => s.add ptr room
  | .malloc p => (.ret (some p), ⟨s.heap.make p, s.ptrList⟩)
  | .free ptr => (.ret none, ⟨s.heap.free ptr, s.ptrList⟩)

/-- The allocator gives out no live block. -/
def Fresh (s : MemAllocHelper) : AllocCall → Prop
  | .alloc (some p) _ => s.heap.live p = false
  | .malloc p => s.heap.live p = false
  | _ => True

/-- A live block that the helper does not track. -/
def Spare (s : MemAllocHelper) (p : Block) : Prop := s.heap.live p = true ∧ some p ∉ s.ptrList

/-- A block is handed to the helper, or freed by others, only while it is theirs. -/
def HandsOver (s : MemAllocHelper) : AllocCall → Prop
  | .add (some p) true => s.Spare p
  | .free (some p) => s.Spare p
  | _ => True

/-! ## The destructor -/

/-- The tracked blocks are live and different. -/
structure Owned (s : MemAllocHelper) : Prop where
  live : ∀ p, some p ∈ s.ptrList → s.heap.live p = true
  distinct : s.ptrList.reduceOption.Nodup
  once : s.heap.doubleFree = false

end MemAllocHelper

theorem Heap.freeAll_live (l : List (Option Block)) (q : Block) : ∀ h : Heap,
    (l.foldl Heap.free h).live q = true ↔ h.live q = true ∧ some q ∉ l := by
  induction l with
  | nil => intro h; simp
  | cons ptr l ih =>
    intro h
    rw [List.foldl_cons, ih, List.mem_cons, not_or]
    cases ptr with
    | none => simp [Heap.free]
    | some p =>
      by_cases hq : q = p
      · subst hq
        cases hlive : h.live q <;> simp [Heap.free, hlive]
      · cases hlive : h.live p <;> simp [Heap.free, hlive, hq]

/-- The blocks of a list are live without `p` exactly when they are and `p` is none of them. -/
theorem Heap.live_but_iff {live : Block → Bool} {p : Block} (hlive : live p = true) (l : List (Option Block)) :
    (∀ q, some q ∈ l → Function.update live p false q = true) ↔ (∀ q, some q ∈ l → live q = true) ∧ some p ∉ l := by
  constructor
  · intro hall
    refine ⟨fun q hq => ?_, fun hp => ?_⟩
    · by_cases hqp : q = p
      · rw [hqp]; exact hlive
      · simpa [hqp] using hall q hq
    · simpa using hall p hp
  · rintro ⟨hall, hp⟩ q hq
    have hqp : q ≠ p := fun e => hp (e ▸ hq)
    simpa [hqp] using hall q hq

theorem Heap.freeAll_once (l : List (Option Block)) : ∀ h : Heap, (l.foldl Heap.free h).doubleFree = false ↔
    h.doubleFree = false ∧ (∀ p, some p ∈ l → h.live p = true) ∧ l.reduceOption.Nodup := by
  induction l with
  | nil => intro h; simp
  | cons ptr l ih =>
    intro h
    rw [List.foldl_cons, ih]
    cases ptr with
    | none => simp [Heap.free]
    | some p =>
      rw [List.reduceOption_cons_of_some, List.nodup_cons, List.reduceOption_mem_iff]
      cases hlive : h.live p with
      | false => simp [Heap.free, hlive]
      | true =>
        -- `p` is dead behind its own free: the rest must not have it again
        have hhead : (∀ q, some q ∈ some p :: l → h.live q = true) ↔ ∀ q, some q ∈ l → h.live q = true := by
          simp [hlive]
        simp only [Heap.free, hlive, if_true]
        rw [live_but_iff hlive, hhead, and_assoc]

namespace MemAllocHelper

theorem destroy_iff (s : MemAllocHelper) : s.destroy.doubleFree = false ↔ s.Owned := by
  rw [destroy, Heap.freeAll_once]
  exact ⟨fun ⟨honce, hlive, hdistinct⟩ => ⟨hlive, hdistinct, honce⟩, fun h => ⟨h.once, h.live, h.distinct⟩⟩

/-! ## The calls -/

theorem Owned.tracked_ne {s : MemAllocHelper} (h : s.Owned) {p : Block} (hp : s.heap.live p = false) : some p ∉ s.ptrList :=
  fun hmem => by simp [h.live p hmem] at hp

/-- A block made while the helper does not track it. -/
theorem Owned.make {s : MemAllocHelper} (h : s.Owned) (p : Block) : Owned ⟨s.heap.make p, s.ptrList⟩ where
  live q hq := by
    by_cases hqp : q = p
    · simp [Heap.make, hqp]
    · simpa [Heap.make, hqp] using h.live q hq
  distinct := h.distinct
  once := h.once

theorem Owned.track_iff {s : MemAllocHelper} (h : s.Owned) (p : Block) :
    Owned ⟨s.heap, s.ptrList ++ [some p]⟩ ↔ s.Spare p := by
  have hdistinct : (s.ptrList ++ [some p]).reduceOption.Nodup ↔ some p ∉ s.ptrList := by
    have hone : [p].Nodup := by simp
    rw [List.reduceOption_append, List.reduceOption_singleton, List.nodup_append, Option.toList_some,
      ← List.reduceOption_mem_iff]
    simp only [h.distinct, hone, true_and, List.mem_singleton, forall_eq]
    exact ⟨fun hne hmem => hne p hmem rfl, fun hnew q hq e => hnew (e ▸ hq)⟩
  constructor
  · intro h'
    exact ⟨h'.live p (by simp), hdistinct.mp h'.distinct⟩
  · rintro ⟨hlive, hnew⟩
    refine ⟨fun q hq => ?_, hdistinct.mpr hnew, h.once⟩
    rcases List.mem_append.mp hq with hq | hq
    · exact h.live q hq
    · simp only [List.mem_singleton, Option.some.injEq] at hq
      rw [hq]; exact hlive

theorem Owned.free_iff {s : MemAllocHelper} (h : s.Owned) (p : Block) :
    Owned ⟨s.heap.free (some p), s.ptrList⟩ ↔ s.Spare p := by
  cases hlive : s.heap.live p with
  | false =>
    constructor
    · intro h'
      have honce := h'.once
      simp [Heap.free, hlive] at honce
    · intro hspare
      rw [hspare.1] at hlive
      cases hlive
  | true =>
    constructor
    · intro h'
      refine ⟨hlive, fun hmem => ?_⟩
      have hdead := h'.live p hmem
      simp [Heap.free, hlive] at hdead
    · rintro ⟨-, hnew⟩
      refine ⟨fun q hq => ?_, h.distinct, ?_⟩
      · have hqp : q ≠ p := fun e => hnew (e ▸ hq)
        simpa [Heap.free, hlive, hqp] using h.live q hq
      · simpa [Heap.free, hlive] using h.once

/-- A call keeps the tracked blocks live and different exactly when it hands over what it may. -/
theorem step_owned_iff (s : MemAllocHelper) (call : AllocCall) (hfresh : s.Fresh call) (h : s.Owned) :
    (s.step call).2.Owned ↔ s.HandsOver call := by
  cases call with
  | malloc p => exact iff_of_true (h.make p) trivial
  | free ptr =>
    cases ptr with
    | none => exact iff_of_true h trivial
    | some p => exact h.free_iff p
  | add ptr room =>
    cases room with
    | false => cases ptr <;> exact iff_of_true h trivial
    | true =>
      cases ptr with
      | none =>
        refine iff_of_true ⟨fun q hq => h.live q (by simpa [step, add] using hq), ?_, h.once⟩ trivial
        simpa [step, add, List.reduceOption_append] using h.distinct
      | some p => exact h.track_iff p
  | alloc block room =>
    cases block with
    | none => exact iff_of_true h trivial
    | some p =>
      have hspare : Spare ⟨s.heap.make p, s.ptrList⟩ p := ⟨by simp [Heap.make], h.tracked_ne hfresh⟩
      cases room with
      | false => exact iff_of_true (((h.make p).free_iff p).mpr hspare) trivial
      | true => exact iff_of_true (((h.make p).track_iff p).mpr hspare) trivial

/-! ## Over any calls -/

/-- In any run of a helper's calls and the rest of the program's, with an allocator that
    gives out no live block: wherever the helper goes out of scope, it frees the blocks
    that it tracks and no block twice, exactly when what every call hands to the helper,
    or frees beside it, is a live block that the helper does not track. -/
theorem freed_once_iff (live : Block → Bool) (calls : List AllocCall) (hfresh : Runs.Steps step Fresh (start live) calls) :
    (∀ l', l' <+: calls →
      let s := Runs.final step (start live) l'
      s.destroy.doubleFree = false ∧ ∀ p, s.destroy.live p = true ↔ s.heap.live p = true ∧ some p ∉ s.ptrList) ↔
    Runs.Steps step HandsOver (start live) calls := by
  have hstart : (start live).Owned := ⟨fun p hp => absurd hp List.not_mem_nil, List.nodup_nil, rfl⟩
  rw [← Runs.always_iff_steps_of step_owned_iff calls _ hstart hfresh]
  refine forall₂_congr fun l' _ => ?_
  rw [← destroy_iff]
  exact and_iff_left fun p => Heap.freeAll_live _ p _

/-- Block 7 handed over twice: freed twice. -/
theorem freed_once_iff_added_twice :
    let s := Runs.final step (start (· = 7)) [.alloc (some 1) true, .add (some 7) true, .add (some 7) true]
    s.destroy.doubleFree = true ∧
    ¬ ∀ l', l' <+: [AllocCall.alloc (some 1) true, .add (some 7) true, .add (some 7) true] →
      let s := Runs.final step (start (· = 7)) l'
      s.destroy.doubleFree = false ∧ ∀ p, s.destroy.live p = true ↔ s.heap.live p = true ∧ some p ∉ s.ptrList := by
  refine ⟨by decide, fun h => ?_⟩
  have hsteps := (freed_once_iff (· = 7) [.alloc (some 1) true, .add (some 7) true, .add (some 7) true]
    ⟨rfl, trivial, trivial, trivial⟩).mp h
  exact absurd hsteps.2.2.1.2 (by decide)

end MemAllocHelper

end NasCommon.Base
