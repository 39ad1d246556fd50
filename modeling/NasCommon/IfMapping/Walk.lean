/-
  NasCommon.IfMapping.Walk — walking `if_indexes` (`dn_hal_get_next_ifindex`) while
  other clients register and deregister.

  A client asks first with a null ifindex and then with each one it is given, until an
  error; any calls of others come between two of its own. A null ifindex is answered
  with what `begin` points to, which on an empty set is the end.
  - `next_answers_iff`: in any reachable state a call gives the next ifindex or the
    error exactly when its ifindex is not null or the set is not empty.
  - `ifIndex_walk`: the walk ends, what it returns ascends, each was in the set at its
    call, and an ifindex in the set at all the calls is returned once.
-/

import Mathlib.Data.Fintype.EquivFin
import NasCommon.IfMapping.Indexes
import NasCommon.Lib.OrdScan

namespace NasCommon.IfMapping

open OrdSet (Ahead Scan)

/-- What a call comes to; on an empty set a null ifindex reads the end iterator. -/
inductive NextIfindex where
  | ok (nextIfindex : HalIfindex)
  | err (e : StdError)
  | readsEnd
  deriving DecidableEq, Repr

/-- `dn_hal_get_next_ifindex`. -/
def dnHalGetNextIfindex (ifindex : Option HalIfindex) (s : Registry) : NextIfindex :=
  match ifindex with
  | none =>
    match s.ifIndexes.first with
    | some it => .ok it
    | none => .readsEnd
  | some i =>
    match s.ifIndexes.upperBound i with
    | some it => .ok it
    | none => .err errParam

/-- The registry at the walk's `n`-th call, others doing `others n` after it. -/
def stateAt (others : Nat → List Op) (s : Registry) : Nat → Registry
  | 0 => s
  | n + 1 => Runs.final step (stateAt others s n) (others n)

/-- The results of the walk from its `n`-th call on, up to the error. -/
inductive Walk (others : Nat → List Op) (s : Registry) : Nat → Option HalIfindex → List HalIfindex → Prop
  | stop {n : Nat} {ifindex : Option HalIfindex} {e : StdError}
      (h : dnHalGetNextIfindex ifindex (stateAt others s n) = .err e) : Walk others s n ifindex []
  | next {n : Nat} {ifindex : Option HalIfindex} {i : HalIfindex} {seen : List HalIfindex}
      (h : dnHalGetNextIfindex ifindex (stateAt others s n) = .ok i) (rest : Walk others s (n + 1) (some i) seen) :
      Walk others s n ifindex (i :: seen)

/-! ## The walk is a scan of the sets -/

instance : WellFoundedGT HalIfindex :=
  have : Finite Int32 := Finite.of_injective (fun i : Int32 => i.toBitVec.toFin) fun _ _ h =>
    Int32.toBitVec_inj.mp (BitVec.toFin_inj.mp h)
  inferInstance

theorem next_ok_iff (ifindex : Option HalIfindex) (s : Registry) (i : HalIfindex) :
    dnHalGetNextIfindex ifindex s = .ok i ↔ s.ifIndexes.next ifindex = some i := by
  cases ifindex with
  | none =>
    cases h : s.ifIndexes.first <;> simp [dnHalGetNextIfindex, OrdSet.next, h]
  | some c =>
    cases h : s.ifIndexes.upperBound c <;> simp [dnHalGetNextIfindex, OrdSet.next, h]

theorem next_err_iff (ifindex : Option HalIfindex) (s : Registry) :
    (∃ e, dnHalGetNextIfindex ifindex s = .err e) ↔ ifindex ≠ none ∧ s.ifIndexes.next ifindex = none := by
  cases ifindex with
  | none =>
    cases h : s.ifIndexes.first <;> simp [dnHalGetNextIfindex, h]
  | some c =>
    cases h : s.ifIndexes.upperBound c <;> simp [dnHalGetNextIfindex, OrdSet.next, h]

/-! ## One call -/

/-- The least ifindex over the one asked with (of all, for a null one), or an error
    where there is none. -/
def AnswersNext (s : Registry) (ifindex : Option HalIfindex) : NextIfindex → Prop
  | .ok i => i ∈ s.ifIndexes ∧ Ahead ifindex i ∧ ∀ j ∈ s.ifIndexes, Ahead ifindex j → i ≤ j
  | .err _ => ∀ j ∈ s.ifIndexes, ¬ Ahead ifindex j
  | .readsEnd => False

theorem answersNext_iff (s : Registry) (ifindex : Option HalIfindex) :
    AnswersNext s ifindex (dnHalGetNextIfindex ifindex s) ↔ (ifindex = none → s.ifIndexes.isEmpty = false) := by
  cases hnext : s.ifIndexes.next ifindex with
  | some i =>
    rw [(next_ok_iff ifindex s i).mpr hnext]
    refine iff_of_true (OrdSet.next_some hnext) fun _ => Bool.eq_false_iff.mpr fun hempty => ?_
    exact OrdSet.isEmpty_iff.mp hempty i (OrdSet.next_some hnext).1
  | none =>
    cases ifindex with
    | none =>
      have hend : dnHalGetNextIfindex none s = .readsEnd := by
        unfold dnHalGetNextIfindex
        rw [show s.ifIndexes.first = none from hnext]
      have hempty : s.ifIndexes.isEmpty = true :=
        OrdSet.isEmpty_iff.mpr fun i hi => OrdSet.next_none hnext i hi trivial
      rw [hend, hempty]
      exact iff_of_false id fun h => by cases h rfl
    | some c =>
      obtain ⟨e, he⟩ := (next_err_iff (some c) s).mpr ⟨Option.some_ne_none c, hnext⟩
      rw [he]
      exact iff_of_true (OrdSet.next_none hnext) fun h => by cases h

/-- Where `if_indexes` is exact, it is empty when no interface of VRF 0 is registered. -/
theorem Exact.isEmpty_iff {s : Registry} (h : Exact s) :
    s.ifIndexes.isEmpty = false ↔ ∃ i, InDefaultVrf s i := by
  rw [← Bool.not_eq_true, OrdSet.isEmpty_iff, not_forall_not]
  exact exists_congr h

/-- In every reachable state and for every argument, null included. The set is empty,
    where every deregistration of the run agrees with its record, when no interface of
    VRF 0 is registered. -/
theorem next_answers_iff (ops : List Op) (ifindex : Option HalIfindex) :
    let s := Runs.final step Registry.empty ops
    (AnswersNext s ifindex (dnHalGetNextIfindex ifindex s) ↔ (ifindex = none → s.ifIndexes.isEmpty = false)) ∧
    (Runs.Steps step DeregAgrees Registry.empty ops → (s.ifIndexes.isEmpty = false ↔ ∃ i, InDefaultVrf s i)) := by
  intro s
  refine ⟨answersNext_iff s ifindex, fun hagrees => ?_⟩
  have hexact := (Runs.always_iff_steps step_inv step_exact_iff ops _ empty_inv empty_exact).mpr hagrees
  exact (hexact ops (List.prefix_refl _)).isEmpty_iff

/-- The only interface is in VRF 1: a null ifindex reads the end iterator. -/
theorem null_reads_end :
    let s := Runs.final step Registry.empty [.register .reg { eth0 with vrfId := 1 } (some 0)]
    s.ifRecords.elems = [0] ∧ dnHalGetNextIfindex none s = .readsEnd ∧
      ¬ AnswersNext s none (dnHalGetNextIfindex none s) :=
  ⟨by decide, by decide, id⟩

/-! ## The walk's steps -/

def setAt (others : Nat → List Op) (s : Registry) (n : Nat) : OrdSet HalIfindex := (stateAt others s n).ifIndexes

theorem Walk.scan {others : Nat → List Op} {s : Registry} {n : Nat} {ifindex : Option HalIfindex}
    {seen : List HalIfindex} (h : Walk others s n ifindex seen) : Scan (setAt others s) n ifindex seen := by
  induction h with
  | stop h => exact .stop ((next_err_iff _ _).mp ⟨_, h⟩).2
  | next h _ ih => exact .next ((next_ok_iff _ _ _).mp h) ih

/-- A scan that gets past its first call is a walk. -/
theorem walk_of_scan {others : Nat → List Op} {s : Registry} {n : Nat} {ifindex : Option HalIfindex}
    {seen : List HalIfindex} (h : Scan (setAt others s) n ifindex seen) :
    ifindex ≠ none ∨ seen ≠ [] → Walk others s n ifindex seen := by
  induction h with
  | stop h =>
    intro hne
    obtain ⟨e, he⟩ := (next_err_iff _ _).mpr ⟨hne.resolve_right (by simp), h⟩
    exact .stop he
  | next h _ ih => exact fun _ => .next ((next_ok_iff _ _ _).mpr h) (ih (Or.inl (Option.some_ne_none _)))

/-! ## The walk -/

/-- From a null ifindex on a set that is not empty, whatever others do in between. -/
theorem ifIndex_walk (others : Nat → List Op) (s : Registry) (hne : s.ifIndexes.isEmpty = false) :
    (∃ seen, Walk others s 0 none seen) ∧
    ∀ seen, Walk others s 0 none seen →
      seen.Pairwise (· < ·) ∧
      (∀ k i, seen[k]? = some i → i ∈ (stateAt others s k).ifIndexes) ∧
      ∀ i, (∀ k ≤ seen.length, i ∈ (stateAt others s k).ifIndexes) → seen.count i = 1 := by
  constructor
  · obtain ⟨seen, hseen⟩ := OrdSet.exists_scan (setAt others s) 0 none
    refine ⟨seen, walk_of_scan hseen (Or.inr ?_)⟩
    rintro rfl
    -- the first call finds an element
    cases hseen with
    | stop h =>
      have hempty : s.ifIndexes.isEmpty = true :=
        OrdSet.isEmpty_iff.mpr fun i hi => OrdSet.next_none h i hi trivial
      rw [hne] at hempty; cases hempty
  · intro seen h
    have hscan := h.scan
    refine ⟨hscan.sorted, fun k i hk => ?_, fun i hi => ?_⟩
    · have := hscan.member k i hk
      rwa [Nat.zero_add] at this
    · have hmem : i ∈ seen := hscan.complete i trivial fun k hk => by rw [Nat.zero_add]; exact hi k hk
      exact List.count_eq_one_of_mem (hscan.sorted.imp fun h => ne_of_lt h) hmem

/-- After the first call the interface it found is deregistered. -/
def firstRemoved : Nat → List Op
  | 0 => [.register .dereg eth0 none]
  | _ => []

theorem ifIndex_walk_removed :
    (∃ seen, Walk firstRemoved (Runs.final step .empty [.register .reg eth0 (some 0)]) 0 none seen) ∧
    ∀ seen, Walk firstRemoved (Runs.final step .empty [.register .reg eth0 (some 0)]) 0 none seen →
      seen.Pairwise (· < ·) :=
  have h := ifIndex_walk firstRemoved (Runs.final step .empty [.register .reg eth0 (some 0)]) (by decide)
  ⟨h.1, fun seen hw => (h.2 seen hw).1⟩

end NasCommon.IfMapping
