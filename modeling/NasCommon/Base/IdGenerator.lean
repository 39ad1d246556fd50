/-
  NasCommon.Base.IdGenerator — free IDs for NAS objects (`id_generator_t`).

  A generator over `max_ids` IDs holds a bit array with bit `i` set while `i` is free,
  its length `max_ids + 1` (bit 0 is never allocated), and a hint `pos` where the next
  search starts. `allocId` searches from the hint, then from 1. The bit arrays are
  opx-common-utils' (`StdBitmap`): an array of `n` bits starts with those `n` set, what
  lies past them is unspecified, and a search may find it.

  Proved, over every run of calls from a new generator:
  - `inv`: a bit is set exactly when its ID is not in use, where the IDs in use are
    read off the calls' answers (`usedAfter`), and the hint stays in `1 .. max_ids + 1`.
  - `alloc_exact`: an allocation gives the least free ID from the hint on, else the
    least of all, and takes that one; it fails exactly when all are in use.
  - `move_transfers`: a moved-to generator answers as the source did, after an
    assignment exactly when both have one bound: `operator=` leaves `maxIds` behind
    (`move_assign_keeps_bound`).
-/

import Mathlib.Algebra.Ring.Int.Defs
import Mathlib.Algebra.Ring.Nat
import Mathlib.Logic.Function.Basic
import NasCommon.Lib.Runs
import NasCommon.Types

namespace NasCommon.Base.IdGenerator

/-! ## Bit arrays -/

abbrev Bits := Nat → Bool

/-- `std_bitmap_create_array` and `std_find_first_bit`. -/
structure StdBitmap where
  createArray : Nat → Option Bits
  findFirstBit : Bits → Nat → Nat → Int
  /-- A new array's bits are set. -/
  create_set : ∀ n bits, createArray n = some bits → ∀ i, i < n → bits i = true
  /-- The least set bit at or after `s`, or -1 when there is none below `n`. -/
  find_spec : ∀ bits n s,
    (findFirstBit bits n s = -1 ∧ ∀ i, s ≤ i → i < n → bits i = false) ∨
      ∃ p : Nat, findFirstBit bits n s = p ∧ s ≤ p ∧ bits p = true ∧ ∀ i, s ≤ i → i < p → bits i = false

/-- An array kept in whole bytes, every bit of its last byte set and searched. -/
def byteBitmap : StdBitmap where
  createArray n := some fun i => decide (i < 8 * ((n + 7) / 8))
  findFirstBit bits n s :=
    match (List.range (8 * ((n + 7) / 8))).find? fun i => decide (s ≤ i) && bits i with
    | some p => p
    | none => -1
  create_set n bits h i hi := by
    cases h
    simp only [decide_eq_true_eq]
    omega
  find_spec bits n s := by
    cases h : (List.range (8 * ((n + 7) / 8))).find? fun i => decide (s ≤ i) && bits i with
    | none =>
      refine Or.inl ⟨rfl, fun i hs hn => ?_⟩
      have := List.find?_range_eq_none.mp h i (by omega)
      simpa [hs] using this
    | some p =>
      obtain ⟨hp, -, hlt⟩ := List.find?_range_eq_some.mp h
      simp only [Bool.and_eq_true, decide_eq_true_eq] at hp
      refine Or.inr ⟨p, rfl, hp.1, hp.2, fun i hs hi => ?_⟩
      simpa [hs] using hlt i hi

/-! ## The generator -/

structure IdGen where
  maxIds : Nat
  pos : Nat
  /-- `none`: NULL, after a move. -/
  idBitmap : Option Bits

inductive Call where
  | allocId
  | reserveId (id : Nat)
  | releaseId (id : Nat)
  deriving DecidableEq, Repr

inductive Answer where
  | id (n : Nat)
  | throws (e : BaseException)
  | bool (b : Bool)
  | void
  /-- The bit array is NULL: the call is undefined. -/
  | nullBitmap
  deriving DecidableEq, Repr

def intMax : Nat := 2 ^ 31 - 1

/-- The conversion of a `size_t` to `int`. -/
def toInt (n : Nat) : Int := Int.bmod n (2 ^ 32)

variable (B : StdBitmap)

/-- The constructor; `none`: it throws `bad_alloc`. -/
def new (maxIds : Nat) : Option IdGen :=
  let n := (maxIds + 1) % 2 ^ 64
  match B.createArray n with
  | some bits => some ⟨n, 1, some bits⟩
  | none => none

def noFreeIds : BaseException := ⟨nasBaseEFull, "No more free IDs"⟩

/-- Clear the bit found and return its position, the hint moving past it. -/
def takeBit (g : IdGen) (bits : Bits) (freepos : Int) : Answer × IdGen :=
  (.id freepos.toNat, { g with pos := freepos.toNat + 1, idBitmap := some (Function.update bits freepos.toNat false) })

def allocId (g : IdGen) : Answer × IdGen :=
  match g.idBitmap with
  | none => (.nullBitmap, g)
  | some bits =>
    let freepos := B.findFirstBit bits g.maxIds g.pos
    if g.pos < g.maxIds ∧ freepos ≠ -1 ∧ freepos < toInt g.maxIds then takeBit g bits freepos
    else
      let freepos := B.findFirstBit bits g.maxIds 1
      if freepos ≠ -1 ∧ freepos < toInt g.maxIds then takeBit g bits freepos
      else (.throws noFreeIds, { g with pos := 1 })

def reserveId (g : IdGen) (id : Nat) : Answer × IdGen :=
  if id ≥ g.maxIds then (.bool false, g)
  else match g.idBitmap with
    | none => (.nullBitmap, g)
    | some bits =>
      if bits id then (.bool true, { g with idBitmap := some (Function.update bits id false) }) else (.bool false, g)

def releaseId (g : IdGen) (id : Nat) : Answer × IdGen :=
  if id < g.maxIds then
    match g.idBitmap with
    | none => (.nullBitmap, g)
    | some bits => (.void, { g with idBitmap := some (Function.update bits id true) })
  else (.void, g)

def step (g : IdGen) : Call → Answer × IdGen
  | .allocId => allocId B g
  | .reserveId id => reserveId g id
  | .releaseId id => releaseId g id

/-- `id_generator_t (id_generator_t&& move)`: the new generator and what is left of `move`. -/
def moveConstruct (move : IdGen) : IdGen × IdGen :=
  (⟨move.maxIds, move.pos, move.idBitmap⟩, { move with idBitmap := none })

/-- `operator= (id_generator_t&& move)`; `_max_ids` is const and stays. -/
def moveAssign (this move : IdGen) : IdGen × IdGen :=
  ({ this with pos := move.pos, idBitmap := move.idBitmap }, { move with idBitmap := none })

/-! ## The IDs in use -/

/-- The IDs in use after a call: those allocated or reserved since their last release. -/
def usedAfter (used : Nat → Bool) : Call → Answer → Nat → Bool
  | .allocId, .id n => Function.update used n true
  | .reserveId id, .bool true => Function.update used id true
  | .releaseId id, _ => Function.update used id false
  | _, _ => used

/-- A generator and the IDs its callers hold. -/
structure Tracked where
  gen : IdGen
  used : Nat → Bool

def trackedStep (t : Tracked) (c : Call) : Answer × Tracked :=
  let r := step B t.gen c
  (r.1, ⟨r.2, usedAfter t.used c r.1⟩)

/-- The state after `calls` to a new generator. -/
def after (g : IdGen) (calls : List Call) : Tracked := Runs.final (trackedStep B) ⟨g, fun _ => false⟩ calls

/-- The generator's own record of an ID: in range and its bit set. -/
def isFree (g : IdGen) (id : Nat) : Prop := id < g.maxIds ∧ ∃ bits, g.idBitmap = some bits ∧ bits id = true

structure Inv (maxIds : Nat) (t : Tracked) : Prop where
  bound : t.gen.maxIds = maxIds + 1
  hint : 1 ≤ t.gen.pos ∧ t.gen.pos ≤ maxIds + 1
  bits : ∃ bits, t.gen.idBitmap = some bits ∧ ∀ i, i ≤ maxIds → bits i = !t.used i
  inRange : ∀ i, t.used i = true → i ≤ maxIds

theorem toInt_eq {n : Nat} (h : n ≤ intMax) : toInt n = n := by
  unfold toInt
  unfold intMax at h
  rw [Int.bmod_def]
  omega

theorem new_inv {maxIds : Nat} {g : IdGen} (hmax : maxIds + 1 ≤ intMax) (h : new B maxIds = some g) :
    Inv maxIds ⟨g, fun _ => false⟩ := by
  unfold intMax at hmax
  have hn : (maxIds + 1) % 2 ^ 64 = maxIds + 1 := Nat.mod_eq_of_lt (by omega)
  simp only [new, hn] at h
  split at h
  · rename_i bits hb
    cases h
    exact ⟨rfl, ⟨Nat.le_refl _, by simp⟩, ⟨bits, rfl, fun i hi => B.create_set _ _ hb i (by omega)⟩,
      fun i hi => by cases hi⟩
  · cases h

/-! ## One call -/

/-- The least free ID from `s` on. -/
def LeastFree (maxIds : Nat) (used : Nat → Bool) (s id : Nat) : Prop :=
  s ≤ id ∧ id ≤ maxIds ∧ used id = false ∧ ∀ i, s ≤ i → i < id → used i = true

variable {B}

/-- A search of the array: the least free ID, or none is free. -/
theorem find_cases {maxIds : Nat} {used : Nat → Bool} {bits : Bits} (hmax : maxIds + 1 ≤ intMax)
    (hb : ∀ i, i ≤ maxIds → bits i = !used i) (s : Nat) :
    let freepos := B.findFirstBit bits (maxIds + 1) s
    ((freepos ≠ -1 ∧ freepos < toInt (maxIds + 1)) ∧ LeastFree maxIds used s freepos.toNat) ∨
      (¬ (freepos ≠ -1 ∧ freepos < toInt (maxIds + 1)) ∧ ∀ i, s ≤ i → i ≤ maxIds → used i = true) := by
  intro freepos
  rw [toInt_eq hmax]
  rcases B.find_spec bits (maxIds + 1) s with ⟨hf, hnone⟩ | ⟨p, hf, hsp, hp, hlt⟩
  · refine Or.inr ⟨fun h => h.1 hf, fun i hs hi => ?_⟩
    have := hnone i hs (by omega)
    rw [hb i hi] at this
    simpa using this
  · have hfp : freepos = p := hf
    rw [hfp]
    by_cases hpm : p ≤ maxIds
    · refine Or.inl ⟨by omega, hsp, hpm, ?_, fun i hs hi => ?_⟩
      · have := hb p hpm
        rw [hp] at this
        simpa using this
      · have := hlt i hs hi
        rw [hb i (by omega)] at this
        simpa using this
    · -- a bit past the array: the search failed
      refine Or.inr ⟨by omega, fun i hs hi => ?_⟩
      have := hlt i hs (by omega)
      rw [hb i hi] at this
      simpa using this

/-- What an allocation does: it takes the least free ID from the hint, or from 1 when
    none is free from the hint on, or fails with none free. -/
theorem alloc_cases {maxIds : Nat} {t : Tracked} (hmax : maxIds + 1 ≤ intMax) (h : Inv maxIds t) :
    ∃ bits, t.gen.idBitmap = some bits ∧
      ((∃ id, (LeastFree maxIds t.used t.gen.pos id ∨
            (∀ i, t.gen.pos ≤ i → i ≤ maxIds → t.used i = true) ∧ LeastFree maxIds t.used 1 id) ∧
          allocId B t.gen = (.id id, { t.gen with pos := id + 1, idBitmap := some (Function.update bits id false) })) ∨
        ((∀ i, 1 ≤ i → i ≤ maxIds → t.used i = true) ∧
          allocId B t.gen = (.throws noFreeIds, { t.gen with pos := 1 }))) := by
  obtain ⟨bits, hbits, hb⟩ := h.bits
  refine ⟨bits, hbits, ?_⟩
  have hhint := find_cases (B := B) hmax hb t.gen.pos
  have hwrap := find_cases (B := B) hmax hb 1
  simp only [allocId, hbits, h.bound]
  rcases hhint with ⟨hf, hleast⟩ | ⟨hf, hfull⟩
  · have hpos : t.gen.pos < maxIds + 1 := by have := hleast.1; have := hleast.2.1; omega
    rw [if_pos ⟨hpos, hf⟩]
    exact Or.inl ⟨_, Or.inl hleast, by simp only [takeBit, h.bound]⟩
  · rw [if_neg fun hc => hf hc.2]
    rcases hwrap with ⟨hf1, hleast⟩ | ⟨hf1, hall⟩
    · rw [if_pos hf1]
      exact Or.inl ⟨_, Or.inr ⟨hfull, hleast⟩, by simp only [takeBit, h.bound]⟩
    · rw [if_neg hf1]
      exact Or.inr ⟨hall, rfl⟩

/-- The bits after setting or clearing one, against the IDs in use. -/
theorem bits_update {maxIds : Nat} {used : Nat → Bool} {bits : Bits} (hb : ∀ i, i ≤ maxIds → bits i = !used i)
    (id : Nat) (v : Bool) :
    ∀ i, i ≤ maxIds → Function.update bits id v i = !Function.update used id (!v) i := by
  intro i hi
  by_cases e : i = id
  · subst e; simp
  · simp [e, hb i hi]

theorem used_update {maxIds : Nat} {used : Nat → Bool} (h : ∀ i, used i = true → i ≤ maxIds) {id : Nat} {v : Bool}
    (hid : v = true → id ≤ maxIds) : ∀ i, Function.update used id v i = true → i ≤ maxIds := by
  intro i hi
  by_cases e : i = id
  · subst e; exact hid (by simpa using hi)
  · exact h i (by simpa [e] using hi)

theorem step_inv {maxIds : Nat} (hmax : maxIds + 1 ≤ intMax) (t : Tracked) (c : Call) (h : Inv maxIds t) :
    Inv maxIds (trackedStep B t c).2 := by
  obtain ⟨bits, hbits, hb⟩ := h.bits
  cases c with
  | allocId =>
    obtain ⟨bits', hbits', hcase⟩ := alloc_cases (B := B) hmax h
    cases hbits.symm.trans hbits'
    rcases hcase with ⟨id, hleast, ha⟩ | ⟨_, ha⟩
    · have hid : id ≤ maxIds := by rcases hleast with hl | ⟨_, hl⟩ <;> exact hl.2.1
      simp only [trackedStep, step, ha, usedAfter]
      exact ⟨h.bound, ⟨by simp, by simpa using hid⟩, ⟨_, rfl, bits_update hb id false⟩,
        used_update h.inRange fun _ => hid⟩
    · simp only [trackedStep, step, ha, usedAfter]
      exact ⟨h.bound, ⟨Nat.le_refl _, by simp⟩, ⟨bits, hbits, hb⟩, h.inRange⟩
  | reserveId id =>
    simp only [trackedStep, step, reserveId, hbits]
    split
    · exact h
    · rename_i hid
      have hbd := h.bound
      split
      · exact ⟨h.bound, h.hint, ⟨_, rfl, bits_update hb id false⟩, used_update h.inRange fun _ => by omega⟩
      · exact h
  | releaseId id =>
    simp only [trackedStep, step, releaseId, hbits]
    split
    · exact ⟨h.bound, h.hint, ⟨_, rfl, bits_update hb id true⟩, used_update h.inRange fun hv => by cases hv⟩
    · rename_i hid
      have hbd := h.bound
      -- an ID out of range is not in use, so its release changes nothing
      refine ⟨h.bound, h.hint, ⟨bits, hbits, fun i hi => ?_⟩, used_update h.inRange fun hv => by cases hv⟩
      have hne : i ≠ id := by omega
      simpa [usedAfter, hne] using hb i hi

theorem inv {maxIds : Nat} {g : IdGen} (hmax : maxIds + 1 ≤ intMax) (hnew : new B maxIds = some g)
    (calls : List Call) : Inv maxIds (after B g calls) :=
  Runs.final_invariant (fun t c => step_inv hmax t c) calls _ (new_inv B hmax hnew)

theorem isFree_iff {maxIds : Nat} {t : Tracked} (h : Inv maxIds t) (id : Nat) :
    isFree t.gen id ↔ id ≤ maxIds ∧ t.used id = false := by
  obtain ⟨bits, hbits, hb⟩ := h.bits
  unfold isFree
  rw [h.bound]
  refine ⟨fun ⟨hid, bits', hbits', hset⟩ => ?_, fun ⟨hid, hu⟩ => ?_⟩
  · cases hbits.symm.trans hbits'
    refine ⟨by omega, ?_⟩
    rw [hb id (by omega)] at hset
    simpa using hset
  · exact ⟨by omega, bits, hbits, by rw [hb id hid, hu]; rfl⟩

theorem reserve_exact {maxIds : Nat} {t : Tracked} (h : Inv maxIds t) (id : Nat) :
    (reserveId t.gen id).1 = .bool (decide (id ≤ maxIds ∧ t.used id = false)) := by
  obtain ⟨bits, hbits, hb⟩ := h.bits
  simp only [reserveId, hbits, h.bound]
  split
  · have : ¬ id ≤ maxIds := by omega
    simp [this]
  · have hid : id ≤ maxIds := by omega
    rw [hb id hid]
    cases hu : t.used id <;> simp [hid]

/-! ## Every run -/

/-- After any calls to a new generator: the next allocation gives the least free ID from
    the hint on, or the least of all when none is, and takes only that one; it throws
    exactly when `1 .. maxIds` are all in use, and changes no ID then; a reservation
    succeeds exactly for a free ID in `0 .. maxIds`. -/
theorem alloc_exact (maxIds : Nat) (hmax : maxIds + 1 ≤ intMax) (g : IdGen)
    (hnew : new B maxIds = some g) (calls : List Call) :
    let t := after B g calls
    let r := allocId B t.gen
    (∀ id, isFree t.gen id ↔ id ≤ maxIds ∧ t.used id = false) ∧
    ((∃ id, r.1 = .id id) ∨ r.1 = .throws noFreeIds) ∧
    (∀ id, r.1 = .id id → (1 ≤ id ∧ id ≤ maxIds ∧ t.used id = false) ∧
      (LeastFree maxIds t.used t.gen.pos id ∨
        (∀ i, t.gen.pos ≤ i → i ≤ maxIds → t.used i = true) ∧ LeastFree maxIds t.used 1 id) ∧
      ∀ i, isFree r.2 i ↔ isFree t.gen i ∧ i ≠ id) ∧
    (r.1 = .throws noFreeIds ↔ ∀ i, 1 ≤ i → i ≤ maxIds → t.used i = true) ∧
    (r.1 = .throws noFreeIds → ∀ i, isFree r.2 i ↔ isFree t.gen i) ∧
    (∀ id, (reserveId t.gen id).1 = .bool (decide (id ≤ maxIds ∧ t.used id = false))) := by
  intro t r
  have h : Inv maxIds t := inv hmax hnew calls
  obtain ⟨bits, hbits, hcase⟩ := alloc_cases (B := B) hmax h
  rcases hcase with ⟨id, hleast, ha⟩ | ⟨hall, ha⟩
  · have hr : r = (.id id, { t.gen with pos := id + 1, idBitmap := some (Function.update bits id false) }) := ha
    have hid : 1 ≤ id ∧ id ≤ maxIds ∧ t.used id = false := by
      have := h.hint
      rcases hleast with hl | ⟨_, hl⟩ <;> exact ⟨by have := hl.1; omega, hl.2.1, hl.2.2.1⟩
    refine ⟨isFree_iff h, Or.inl ⟨id, by rw [hr]⟩, fun id' he => ?_, ⟨fun he => ?_, fun hall => ?_⟩, fun he => ?_,
      reserve_exact h⟩
    · rw [hr] at he
      cases he
      refine ⟨hid, hleast, fun i => ?_⟩
      by_cases e : i = id
      · simp [hr, isFree, e]
      · simp [hr, isFree, hbits, e]
    · rw [hr] at he; cases he
    · have := hall id hid.1 hid.2.1
      rw [hid.2.2] at this; cases this
    · rw [hr] at he; cases he
  · have hr : r = (.throws noFreeIds, { t.gen with pos := 1 }) := ha
    refine ⟨isFree_iff h, Or.inr (by rw [hr]), fun id' he => ?_, ⟨fun _ => hall, fun _ => by rw [hr]⟩, fun _ i => ?_,
      reserve_exact h⟩
    · rw [hr] at he; cases he
    · rw [hr]; rfl

/-- Six IDs, one reserved and two allocated. -/
theorem alloc_exact_six :
    let t := after byteBitmap ⟨7, 1, some fun i => decide (i < 8)⟩ [.reserveId 1, .allocId, .allocId]
    (allocId byteBitmap t.gen).1 = .id 4 ∧ 1 ≤ 4 ∧ t.used 4 = false := by
  intro t
  have h := (alloc_exact (B := byteBitmap) 6 (by decide) ⟨7, 1, some fun i => decide (i < 8)⟩ rfl
    [.reserveId 1, .allocId, .allocId]).2.2.1 4 (by decide)
  exact ⟨by decide, h.1.1, h.1.2.2⟩

/-! ## Moves -/

theorem step_frame (g : IdGen) (c : Call) :
    (step B g c).2.maxIds = g.maxIds ∧ ((step B g c).2.idBitmap.isSome = g.idBitmap.isSome) := by
  cases hb : g.idBitmap with
  | none => cases c <;> simp only [step, allocId, reserveId, releaseId, hb] <;> (repeat' split) <;> simp [hb]
  | some bits => cases c <;> simp only [step, allocId, reserveId, releaseId, hb, takeBit] <;> (repeat' split) <;> simp [hb]

/-- A generator in use has a bit array. -/
theorem final_some {maxIds : Nat} {g : IdGen} (hnew : new B maxIds = some g) (calls : List Call) :
    (Runs.final (step B) g calls).idBitmap.isSome = true := by
  refine Runs.final_invariant (P := fun g => g.idBitmap.isSome = true) (fun g c h => ?_) calls g ?_
  · exact (step_frame g c).2.trans h
  · unfold new at hnew
    dsimp only at hnew
    split at hnew <;> cases hnew
    rfl

/-- Release, then reserve, an ID: the answer tells whether it is in range. -/
theorem release_reserve {g : IdGen} (h : g.idBitmap.isSome = true) (id : Nat) :
    Runs.answers (step B) g [.releaseId id, .reserveId id] = [.void, .bool (decide (id < g.maxIds))] := by
  obtain ⟨bits, hb⟩ := Option.isSome_iff_exists.mp h
  by_cases hid : id < g.maxIds
  · simp [Runs.answers, step, releaseId, reserveId, hb, hid, Nat.not_le.mpr hid]
  · simp [Runs.answers, step, releaseId, reserveId, hid, Nat.not_lt.mp hid]

/-- A generator moved into a new one answers every further call as before. Moved into an
    existing one it does exactly when the two have the same bound. -/
theorem move_transfers (a b0 : IdGen) (maxIds : Nat) (hb : new B maxIds = some b0) (calls0 : List Call) :
    let b := Runs.final (step B) b0 calls0
    (∀ calls, Runs.answers (step B) (moveConstruct b).1 calls = Runs.answers (step B) b calls) ∧
    ((∀ calls, Runs.answers (step B) (moveAssign a b).1 calls = Runs.answers (step B) b calls) ↔
      a.maxIds = b.maxIds) := by
  intro b
  refine ⟨fun calls => rfl, fun h => ?_, fun h calls => ?_⟩
  · have hbs : b.idBitmap.isSome = true := final_some hb calls0
    have has : (moveAssign a b).1.idBitmap.isSome = true := hbs
    -- the smaller bound, as an ID, tells the two apart
    have hm := h [.releaseId (min a.maxIds b.maxIds), .reserveId (min a.maxIds b.maxIds)]
    rw [release_reserve has, release_reserve hbs] at hm
    simp only [List.cons.injEq, Answer.bool.injEq, and_true, true_and] at hm
    have hiff : min a.maxIds b.maxIds < a.maxIds ↔ min a.maxIds b.maxIds < b.maxIds := decide_eq_decide.mp hm
    omega
  · have he : (moveAssign a b).1 = b := by simp only [moveAssign, h]
    rw [he]

/-- `b`, over six IDs, assigned into `a`, over two: ID 5 was accepted and is now refused. -/
theorem move_assign_keeps_bound :
    ∃ a0 b0, new byteBitmap 2 = some a0 ∧ new byteBitmap 6 = some b0 ∧
      Runs.answers (step byteBitmap) b0 [.reserveId 5] = [.bool true] ∧
      Runs.answers (step byteBitmap) (moveAssign a0 b0).1 [.reserveId 5] = [.bool false] :=
  ⟨_, _, rfl, rfl, by decide, by decide⟩

theorem move_transfers_six :
    let a : IdGen := ⟨3, 2, some fun i => decide (i = 2)⟩
    let b : IdGen := ⟨7, 1, some fun i => decide (i < 8)⟩
    ¬ ∀ calls, Runs.answers (step byteBitmap) (moveAssign a b).1 calls = Runs.answers (step byteBitmap) b calls := by
  intro a b h
  exact absurd ((move_transfers (B := byteBitmap) a b 6 rfl []).2.mp h) (by decide)

end NasCommon.Base.IdGenerator
