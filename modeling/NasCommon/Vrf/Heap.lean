/-
  NasCommon.Vrf.Heap — the blocks of the VRF store (`nas_vrf_utils.cpp`).

  An entry of `vrf_map` is two pointers, to the name's copy (`malloc`) and to the record
  (`new`), and a find compares the names that it reads there. A DEL frees both. An ADD
  whose name is there keeps neither of its blocks in the map and frees neither, and one
  whose `new` throws has lost its key. `fault` is set when a block that is not live is
  read or freed.
  - `heap_refines`: over any run the pointers answer as the map of `Vrf.Store` does, and
    no call and no getter reads or frees a block that is not live.
  - `blocks_balance`: at the end of a run the live keys and records are the entries' and,
    for each ADD that found its name there or lost its key, what it lost; each live block
    is an entry's exactly when there was no such ADD.
-/

import NasCommon.Lib.Refinement
import NasCommon.Vrf.Store

namespace NasCommon.Vrf

abbrev Ptr := Nat

structure VrfHeap where
  keys : AList fun _ : Ptr => CString
  recs : AList fun _ : Ptr => NasVrfCtrl
  vrfMap : List (Ptr × Ptr)
  fault : Bool

namespace VrfHeap

def init : VrfHeap := ⟨∅, ∅, [], false⟩

/-! ## The calls -/

/-- What `vrf_map->find` and `insert` read: at most each entry's key. -/
def readKeys (h : VrfHeap) : VrfHeap := { h with fault := h.fault || h.vrfMap.any fun e => e.1 ∉ h.keys }

/-- `vrf_map->find`. -/
def find (h : VrfHeap) (vrfName : CString) : Option (Ptr × Ptr) :=
  h.vrfMap.find? fun e => h.keys.lookup e.1 = some vrfName

/-- `_add`, where `malloc` and `new` answer with `key` and `p`, blocks that are not live. -/
def add (rec : NasVrfCtrl) (key p : Option Ptr) (h : VrfHeap) : Option Bool × VrfHeap :=
  match key.filter fun a => a ∉ h.keys with
  | none => (some false, h)
  | some key =>
    let name := safestrncpy [] rec.vrfName.name (nasVrfNameSz + 1)
    let withKey := { h with keys := h.keys.insert key name }
    match p.filter fun a => a ∉ h.recs with
    | none => (none, withKey)
    | some p =>
      let withRec := { withKey with recs := h.recs.insert p rec }.readKeys
      (some true, if (h.find name).isSome then withRec else { withRec with vrfMap := (key, p) :: h.vrfMap })

/-- A write through a record's pointer. -/
def writeRec (p : Ptr) (f : NasVrfCtrl → NasVrfCtrl) (h : VrfHeap) : VrfHeap :=
  match h.recs.lookup p with
  | none => { h with fault := true }
  | some r => { h with recs := h.recs.insert p (f r) }

/-- `_update`. -/
def update (rec : NasVrfCtrl) (h : VrfHeap) : Bool × VrfHeap :=
  match h.find rec.vrfName.name with
  | none => (false, h.readKeys)
  | some e =>
    (true, if rec.vrfIntId ≠ 0 then h.readKeys.writeRec e.2 fun _p => { _p with vrfIntId := rec.vrfIntId } else h.readKeys)

def freeKey (a : Ptr) (h : VrfHeap) : VrfHeap := { h with keys := h.keys.erase a, fault := h.fault || a ∉ h.keys }

def deleteRec (a : Ptr) (h : VrfHeap) : VrfHeap := { h with recs := h.recs.erase a, fault := h.fault || a ∉ h.recs }

/-- `_cleanup`. -/
def cleanup (rec : NasVrfCtrl) (h : VrfHeap) : VrfHeap :=
  match h.find rec.vrfName.name with
  | none => h.readKeys
  | some e =>
    let h := h.readKeys.freeKey e.1
    { h with vrfMap := h.vrfMap.erase e }.deleteRec e.2

end VrfHeap

/-- A call, with what `malloc` and `new` answer. -/
structure HeapCall where
  op : NasVrfOp
  p : NasVrfCtrl
  keyMem : Option Ptr
  recMem : Option Ptr

/-- `nas_update_vrf_info`. -/
def heapUpdateVrfInfo (h : VrfHeap) (c : HeapCall) : VrfOutcome × VrfHeap :=
  match c.op with
  | .add =>
    match h.add c.p c.keyMem c.recMem with
    | (none, h) => (.badAlloc, h)
    | (some _, h) => (.ret .ok, h)
  | .upd => (.ret .ok, (h.update c.p).2)
  | .del => (.ret .ok, h.cleanup c.p)

/-- A getter, and the store after it: it reads the keys and the record. -/
def heapGetVrf {α : Type} (f : NasVrfCtrl → α) (h : VrfHeap) (vrfName : CString) (out : α) : (StdError × α) × VrfHeap :=
  match h.find vrfName with
  | none => ((comParam, out), h.readKeys)
  | some e =>
    match h.recs.lookup e.2 with
    | none => ((.ok, out), { h.readKeys with fault := true })
    | some _p => ((.ok, f _p), h.readKeys)

/-- `nas_get_all_vrf_ctrl`: a record that is not live is a fault and gives nothing. -/
def heapGetAllVrfCtrl (h : VrfHeap) (v : List NasVrfCtrl) : List NasVrfCtrl × VrfHeap :=
  (v ++ h.vrfMap.filterMap fun e => h.recs.lookup e.2, { h with fault := h.fault || h.vrfMap.any fun e => e.2 ∉ h.recs })

/-- The call as the map sees it. -/
def vrfCall (h : VrfHeap) (c : HeapCall) : VrfCall :=
  ⟨c.op, c.p, (c.keyMem.filter fun a => a ∉ h.keys).isSome, (c.recMem.filter fun a => a ∉ h.recs).isSome⟩

/-! ## The pointers and the map -/

/-- An entry whose blocks are live. -/
structure Row (h : VrfHeap) (e : Ptr × Ptr) (vrfName : CString) (r : NasVrfCtrl) : Prop where
  mem : e ∈ h.vrfMap
  keyAt : h.keys.lookup e.1 = some vrfName
  recAt : h.recs.lookup e.2 = some r

/-- The entries are the map's, each with its own blocks. -/
structure Holds (h : VrfHeap) (s : VrfMap) : Prop where
  sound : h.fault = false
  live : ∀ e ∈ h.vrfMap, ∃ vrfName r, Row h e vrfName r
  keyOnce : (h.vrfMap.map Prod.fst).Nodup
  recOnce : (h.vrfMap.map Prod.snd).Nodup
  nameOnce : ∀ e ∈ h.vrfMap, ∀ e' ∈ h.vrfMap, h.keys.lookup e.1 = h.keys.lookup e'.1 → e = e'
  agrees : ∀ vrfName r, s.lookup vrfName = some r ↔ ∃ e, Row h e vrfName r

section Holds

variable {h h' : VrfHeap} {s : VrfMap} {e : Ptr × Ptr} {vrfName : CString} {r : NasVrfCtrl}

theorem Row.key_mem (hrow : Row h e vrfName r) : e.1 ∈ h.keys := AList.lookup_isSome.mp (by rw [hrow.keyAt]; rfl)

theorem Row.rec_mem (hrow : Row h e vrfName r) : e.2 ∈ h.recs := AList.lookup_isSome.mp (by rw [hrow.recAt]; rfl)

theorem Holds.readKeys_eq (hh : Holds h s) : h.readKeys = h := by
  have hany : (h.vrfMap.any fun e => e.1 ∉ h.keys) = false := by
    rw [List.any_eq_false]
    intro e he hdead
    obtain ⟨vrfName, r, hrow⟩ := hh.live e he
    exact of_decide_eq_true hdead hrow.key_mem
  unfold VrfHeap.readKeys
  rw [hany, Bool.or_false]

theorem find_spec (hf : h.find vrfName = some e) : e ∈ h.vrfMap ∧ h.keys.lookup e.1 = some vrfName := by
  refine ⟨List.mem_of_find?_eq_some hf, ?_⟩
  unfold VrfHeap.find at hf
  simpa using List.find?_some hf

/-- A find gives the entry with the name. -/
theorem Holds.find_of_row (hh : Holds h s) (hrow : Row h e vrfName r) : h.find vrfName = some e := by
  cases hf : h.find vrfName with
  | none =>
    have hno := List.find?_eq_none.mp hf e hrow.mem
    exact absurd (decide_eq_true hrow.keyAt) hno
  | some e' =>
    obtain ⟨hmem, hkey⟩ := find_spec hf
    rw [hh.nameOnce e' hmem e hrow.mem (hkey.trans hrow.keyAt.symm)]

theorem Holds.row_of_find (hh : Holds h s) (hf : h.find vrfName = some e) : ∃ r, Row h e vrfName r := by
  obtain ⟨hmem, hkey⟩ := find_spec hf
  obtain ⟨name, r, hrow⟩ := hh.live e hmem
  have hname : name = vrfName := Option.some.inj (hrow.keyAt.symm.trans hkey)
  exact ⟨r, hname ▸ hrow⟩

theorem Holds.lookup_of_row (hh : Holds h s) (hrow : Row h e vrfName r) : s.lookup vrfName = some r :=
  (hh.agrees vrfName r).mpr ⟨e, hrow⟩

theorem Holds.find_none_iff (hh : Holds h s) : h.find vrfName = none ↔ s.lookup vrfName = none := by
  constructor
  · intro hf
    cases hl : s.lookup vrfName with
    | none => rfl
    | some r =>
      obtain ⟨e, hrow⟩ := (hh.agrees vrfName r).mp hl
      rw [hh.find_of_row hrow] at hf
      cases hf
  · intro hl
    cases hf : h.find vrfName with
    | none => rfl
    | some e =>
      obtain ⟨r, hrow⟩ := hh.row_of_find hf
      rw [hh.lookup_of_row hrow] at hl
      cases hl

/-! ## What a call does to the entries -/

/-- Blocks that no entry holds may come and go. -/
theorem Holds.others (hh : Holds h s) (hmap : h'.vrfMap = h.vrfMap) (hfault : h'.fault = false)
    (hkeys : ∀ e ∈ h.vrfMap, h'.keys.lookup e.1 = h.keys.lookup e.1)
    (hrecs : ∀ e ∈ h.vrfMap, h'.recs.lookup e.2 = h.recs.lookup e.2) : Holds h' s := by
  have hrow : ∀ e vrfName r, Row h' e vrfName r ↔ Row h e vrfName r := by
    intro e vrfName r
    constructor
    · intro hr
      have hmem : e ∈ h.vrfMap := hmap ▸ hr.mem
      exact ⟨hmem, hkeys e hmem ▸ hr.keyAt, hrecs e hmem ▸ hr.recAt⟩
    · intro hr
      exact ⟨hmap ▸ hr.mem, (hkeys e hr.mem).trans hr.keyAt, (hrecs e hr.mem).trans hr.recAt⟩
  refine ⟨hfault, ?_, ?_, ?_, ?_, ?_⟩
  · intro e he
    obtain ⟨vrfName, r, hr⟩ := hh.live e (hmap ▸ he)
    exact ⟨vrfName, r, (hrow e vrfName r).mpr hr⟩
  · rw [hmap]; exact hh.keyOnce
  · rw [hmap]; exact hh.recOnce
  · intro e he e' he' heq
    rw [hmap] at he he'
    rw [hkeys e he, hkeys e' he'] at heq
    exact hh.nameOnce e he e' he' heq
  · intro vrfName r
    rw [hh.agrees]
    exact exists_congr fun e => (hrow e vrfName r).symm

theorem row_cons_iff {e e' : Ptr × Ptr} {name : CString} {r' : NasVrfCtrl} :
    Row { h with vrfMap := e :: h.vrfMap } e' name r' ↔
      (e' = e ∧ h.keys.lookup e.1 = some name ∧ h.recs.lookup e.2 = some r') ∨ Row h e' name r' := by
  constructor
  · intro hrow
    rcases List.mem_cons.mp hrow.mem with rfl | he'
    · exact Or.inl ⟨rfl, hrow.keyAt, hrow.recAt⟩
    · exact Or.inr ⟨he', hrow.keyAt, hrow.recAt⟩
  · intro hor
    rcases hor with ⟨rfl, hkeyAt, hrecAt⟩ | hrow
    · exact ⟨List.mem_cons_self, hkeyAt, hrecAt⟩
    · exact ⟨List.mem_cons_of_mem _ hrow.mem, hrow.keyAt, hrow.recAt⟩

/-- A new entry. -/
theorem Holds.cons (hh : Holds h s) (hkey : ∀ e' ∈ h.vrfMap, e'.1 ≠ e.1) (hrec : ∀ e' ∈ h.vrfMap, e'.2 ≠ e.2)
    (hkeyAt : h.keys.lookup e.1 = some vrfName) (hrecAt : h.recs.lookup e.2 = some r) (hnew : s.lookup vrfName = none) :
    Holds { h with vrfMap := e :: h.vrfMap } (s.insert vrfName r) := by
  have hother : ∀ e' ∈ h.vrfMap, h.keys.lookup e'.1 ≠ some vrfName := by
    intro e' he' hl
    obtain ⟨name, r', hrow⟩ := hh.live e' he'
    rw [hrow.keyAt] at hl
    cases hl
    rw [hh.lookup_of_row hrow] at hnew
    cases hnew
  refine ⟨hh.sound, ?_, ?_, ?_, ?_, ?_⟩
  · intro e' he'
    rcases List.mem_cons.mp he' with rfl | he'
    · exact ⟨vrfName, r, row_cons_iff.mpr (Or.inl ⟨rfl, hkeyAt, hrecAt⟩)⟩
    · obtain ⟨name, r', hrow⟩ := hh.live e' he'
      exact ⟨name, r', row_cons_iff.mpr (Or.inr hrow)⟩
  · refine List.nodup_cons.mpr ⟨fun hmem => ?_, hh.keyOnce⟩
    obtain ⟨e', he', heq⟩ := List.mem_map.mp hmem
    exact hkey e' he' heq
  · refine List.nodup_cons.mpr ⟨fun hmem => ?_, hh.recOnce⟩
    obtain ⟨e', he', heq⟩ := List.mem_map.mp hmem
    exact hrec e' he' heq
  · intro e1 he1 e2 he2 heq
    have heq : h.keys.lookup e1.1 = h.keys.lookup e2.1 := heq
    have he1 : e1 ∈ e :: h.vrfMap := he1
    have he2 : e2 ∈ e :: h.vrfMap := he2
    rcases List.mem_cons.mp he1 with hnew1 | hold1
    · rcases List.mem_cons.mp he2 with hnew2 | hold2
      · exact hnew1.trans hnew2.symm
      · rw [hnew1] at heq
        exact absurd (heq.symm.trans hkeyAt) (hother e2 hold2)
    · rcases List.mem_cons.mp he2 with hnew2 | hold2
      · rw [hnew2] at heq
        exact absurd (heq.trans hkeyAt) (hother e1 hold1)
      · exact hh.nameOnce e1 hold1 e2 hold2 heq
  · intro name r'
    by_cases hname : name = vrfName
    · subst hname
      rw [AList.lookup_insert]
      constructor
      · intro heq
        cases heq
        exact ⟨e, row_cons_iff.mpr (Or.inl ⟨rfl, hkeyAt, hrecAt⟩)⟩
      · intro hex
        obtain ⟨e', hrow⟩ := hex
        rcases row_cons_iff.mp hrow with ⟨-, -, hrecAt'⟩ | hrow
        · exact hrecAt.symm.trans hrecAt'
        · exact absurd hrow.keyAt (hother e' hrow.mem)
    · rw [AList.lookup_insert_ne hname, hh.agrees]
      refine exists_congr fun e' => ?_
      rw [row_cons_iff, or_iff_right]
      intro hnew
      exact hname (Option.some.inj (hnew.2.1.symm.trans hkeyAt))

/-- An entry goes. -/
theorem Holds.erase (hh : Holds h s) (hrow : Row h e vrfName r) :
    Holds { h with vrfMap := h.vrfMap.erase e } (s.erase vrfName) := by
  have hmem : ∀ e', e' ∈ h.vrfMap.erase e ↔ e' ≠ e ∧ e' ∈ h.vrfMap := fun _ => (List.Nodup.of_map _ hh.keyOnce).mem_erase_iff
  refine ⟨hh.sound, ?_, ?_, ?_, ?_, ?_⟩
  · intro e' he'
    obtain ⟨name, r', hrow'⟩ := hh.live e' ((hmem e').mp he').2
    exact ⟨name, r', he', hrow'.keyAt, hrow'.recAt⟩
  · exact (List.Sublist.map _ List.erase_sublist).nodup hh.keyOnce
  · exact (List.Sublist.map _ List.erase_sublist).nodup hh.recOnce
  · intro e1 he1 e2 he2
    exact hh.nameOnce e1 ((hmem e1).mp he1).2 e2 ((hmem e2).mp he2).2
  · intro name r'
    by_cases hname : name = vrfName
    · subst hname
      rw [AList.lookup_erase]
      refine iff_of_false (by simp) ?_
      intro hex
      obtain ⟨e', hrow'⟩ := hex
      obtain ⟨hne, he'⟩ := (hmem e').mp hrow'.mem
      exact hne (hh.nameOnce e' he' e hrow.mem (hrow'.keyAt.trans hrow.keyAt.symm))
    · rw [AList.lookup_erase_ne hname, hh.agrees]
      refine exists_congr fun e' => ⟨fun hrow' => ⟨(hmem e').mpr ⟨?_, hrow'.mem⟩, hrow'.keyAt, hrow'.recAt⟩,
        fun hrow' => ⟨((hmem e').mp hrow'.mem).2, hrow'.keyAt, hrow'.recAt⟩⟩
      rintro rfl
      exact hname (Option.some.inj (hrow'.keyAt.symm.trans hrow.keyAt))

/-- An entry's record changes. -/
theorem Holds.write (hh : Holds h s) (hrow : Row h e vrfName r) (r' : NasVrfCtrl) :
    Holds { h with recs := h.recs.insert e.2 r' } (s.insert vrfName r') := by
  have hother : ∀ e' ∈ h.vrfMap, e' ≠ e → (h.recs.insert e.2 r').lookup e'.2 = h.recs.lookup e'.2 := by
    intro e' he' hne
    refine AList.lookup_insert_ne fun heq => hne ?_
    exact List.inj_on_of_nodup_map hh.recOnce he' hrow.mem heq
  refine ⟨hh.sound, ?_, hh.keyOnce, hh.recOnce, hh.nameOnce, ?_⟩
  · intro e' he'
    by_cases hne : e' = e
    · exact ⟨vrfName, r', he', hne ▸ hrow.keyAt, hne ▸ AList.lookup_insert _⟩
    · obtain ⟨name, r0, hrow'⟩ := hh.live e' he'
      exact ⟨name, r0, he', hrow'.keyAt, (hother e' he' hne).trans hrow'.recAt⟩
  · intro name r0
    by_cases hname : name = vrfName
    · subst hname
      rw [AList.lookup_insert]
      constructor
      · intro heq
        cases heq
        exact ⟨e, hrow.mem, hrow.keyAt, AList.lookup_insert _⟩
      · intro hex
        obtain ⟨e', hrow'⟩ := hex
        have he' : e' = e := hh.nameOnce e' hrow'.mem e hrow.mem (hrow'.keyAt.trans hrow.keyAt.symm)
        have hrec := hrow'.recAt
        rw [he', AList.lookup_insert] at hrec
        exact hrec
    · rw [AList.lookup_insert_ne hname, hh.agrees]
      refine exists_congr fun e' => ?_
      have hne : h.keys.lookup e'.1 = some name → e' ≠ e := by
        rintro hkey rfl
        exact hname (Option.some.inj (hkey.symm.trans hrow.keyAt))
      constructor
      · intro hrow'
        exact ⟨hrow'.mem, hrow'.keyAt, (hother e' hrow'.mem (hne hrow'.keyAt)).trans hrow'.recAt⟩
      · intro hrow'
        exact ⟨hrow'.mem, hrow'.keyAt, (hother e' hrow'.mem (hne hrow'.keyAt)).symm.trans hrow'.recAt⟩

/-! ## Each call -/

theorem length_keys_insert {β : Type} {m : AList fun _ : Ptr => β} {a : Ptr} (ha : a ∉ m) (b : β) :
    (m.insert a b).keys.length = m.keys.length + 1 := by
  rw [AList.keys_insert, List.length_cons, List.erase_of_not_mem ha]

/-- A block that was not live is no entry's. -/
theorem Holds.key_ne (hh : Holds h s) {a : Ptr} (ha : a ∉ h.keys) : ∀ e ∈ h.vrfMap, e.1 ≠ a := by
  rintro e he rfl
  obtain ⟨name, r, hrow⟩ := hh.live e he
  exact ha hrow.key_mem

theorem Holds.rec_ne (hh : Holds h s) {b : Ptr} (hb : b ∉ h.recs) : ∀ e ∈ h.vrfMap, e.2 ≠ b := by
  rintro e he rfl
  obtain ⟨name, r, hrow⟩ := hh.live e he
  exact hb hrow.rec_mem

theorem Holds.insert_key (hh : Holds h s) {a : Ptr} (ha : a ∉ h.keys) (name : CString) :
    Holds { h with keys := h.keys.insert a name } s :=
  hh.others rfl hh.sound (fun e he => AList.lookup_insert_ne (hh.key_ne ha e he)) fun _ _ => rfl

theorem Holds.insert_rec (hh : Holds h s) {b : Ptr} (hb : b ∉ h.recs) (r : NasVrfCtrl) :
    Holds { h with recs := h.recs.insert b r } s :=
  hh.others rfl hh.sound (fun _ _ => rfl) fun e he => AList.lookup_insert_ne (hh.rec_ne hb e he)

theorem Holds.find_isSome_iff (hh : Holds h s) : (h.find vrfName).isSome = true ↔ vrfName ∈ s := by
  rw [← AList.lookup_isSome, Option.isSome_iff_ne_none, Option.isSome_iff_ne_none, Ne, Ne, hh.find_none_iff]

/-- What an ADD can come to. -/
theorem Holds.add_cases (hh : Holds h s) (rec : NasVrfCtrl) (key p : Option Ptr) :
    (key.filter (fun a => a ∉ h.keys) = none ∧ h.add rec key p = (some false, h)) ∨
    ∃ a, key.filter (fun a => a ∉ h.keys) = some a ∧ a ∉ h.keys ∧
      ((p.filter (fun b => b ∉ h.recs) = none ∧
          h.add rec key p = (none, { h with keys := h.keys.insert a rec.vrfName.name })) ∨
        ∃ b, p.filter (fun b => b ∉ h.recs) = some b ∧ b ∉ h.recs ∧
          h.add rec key p = (some true,
            { h with
              keys := h.keys.insert a rec.vrfName.name
              recs := h.recs.insert b rec
              vrfMap := if rec.vrfName.name ∈ s then h.vrfMap else (a, b) :: h.vrfMap })) := by
  have hname : safestrncpy [] rec.vrfName.name (nasVrfNameSz + 1) = rec.vrfName.name :=
    safestrncpy_fits (Nat.lt_succ_of_le rec.vrfName.fits)
  unfold VrfHeap.add
  cases hk : key.filter fun a => a ∉ h.keys with
  | none => exact Or.inl ⟨rfl, rfl⟩
  | some a =>
    have ha : a ∉ h.keys := of_decide_eq_true (Option.filter_eq_some_iff.mp hk).2
    refine Or.inr ⟨a, rfl, ha, ?_⟩
    cases hp : p.filter fun b => b ∉ h.recs with
    | none =>
      refine Or.inl ⟨rfl, ?_⟩
      rw [hname]
    | some b =>
      have hb : b ∉ h.recs := of_decide_eq_true (Option.filter_eq_some_iff.mp hp).2
      refine Or.inr ⟨b, rfl, hb, ?_⟩
      have hread := ((hh.insert_key ha rec.vrfName.name).insert_rec hb rec).readKeys_eq
      simp only [hname, hread, hh.find_isSome_iff]
      split <;> rfl

/-- The new entry of an ADD that finds its name absent. -/
theorem Holds.add_entry (hh : Holds h s) {rec : NasVrfCtrl} {a b : Ptr} (ha : a ∉ h.keys) (hb : b ∉ h.recs)
    (hnew : rec.vrfName.name ∉ s) :
    Holds { h with
      keys := h.keys.insert a rec.vrfName.name
      recs := h.recs.insert b rec
      vrfMap := (a, b) :: h.vrfMap } (s.insert rec.vrfName.name rec) :=
  ((hh.insert_key ha rec.vrfName.name).insert_rec hb rec).cons (e := (a, b)) (hh.key_ne ha) (hh.rec_ne hb)
    (AList.lookup_insert _) (AList.lookup_insert _) (AList.lookup_eq_none.mpr hnew)

/-- What an UPD can come to. -/
theorem Holds.update_cases (hh : Holds h s) (rec : NasVrfCtrl) :
    (s.lookup rec.vrfName.name = none ∧ h.update rec = (false, h)) ∨
    ∃ e r, Row h e rec.vrfName.name r ∧ h.update rec = (true,
      if rec.vrfIntId ≠ 0 then { h with recs := h.recs.insert e.2 { r with vrfIntId := rec.vrfIntId } } else h) := by
  unfold VrfHeap.update
  rw [hh.readKeys_eq]
  cases hf : h.find rec.vrfName.name with
  | none => exact Or.inl ⟨hh.find_none_iff.mp hf, rfl⟩
  | some e =>
    obtain ⟨r, hrow⟩ := hh.row_of_find hf
    refine Or.inr ⟨e, r, hrow, ?_⟩
    simp only [VrfHeap.writeRec, hrow.recAt]

/-- What a DEL can come to. -/
theorem Holds.cleanup_cases (hh : Holds h s) (rec : NasVrfCtrl) :
    (s.lookup rec.vrfName.name = none ∧ h.cleanup rec = h) ∨
    ∃ e r, Row h e rec.vrfName.name r ∧ h.cleanup rec =
      { h with keys := h.keys.erase e.1, recs := h.recs.erase e.2, vrfMap := h.vrfMap.erase e } := by
  unfold VrfHeap.cleanup
  rw [hh.readKeys_eq]
  cases hf : h.find rec.vrfName.name with
  | none => exact Or.inl ⟨hh.find_none_iff.mp hf, rfl⟩
  | some e =>
    obtain ⟨r, hrow⟩ := hh.row_of_find hf
    refine Or.inr ⟨e, r, hrow, ?_⟩
    simp only [VrfHeap.freeKey, VrfHeap.deleteRec, hrow.key_mem, hrow.rec_mem, not_true, decide_false, Bool.or_false]

/-- The entry's blocks go with it. -/
theorem Holds.erase_blocks (hh : Holds h s) (hrow : Row h e vrfName r) :
    Holds { h with keys := h.keys.erase e.1, recs := h.recs.erase e.2, vrfMap := h.vrfMap.erase e } (s.erase vrfName) := by
  have hmem : ∀ e' ∈ h.vrfMap.erase e, e' ≠ e ∧ e' ∈ h.vrfMap := fun _ =>
    (List.Nodup.of_map _ hh.keyOnce).mem_erase_iff.mp
  refine (hh.erase hrow).others rfl hh.sound (fun e' he' => ?_) fun e' he' => ?_
  · obtain ⟨hne, he'⟩ := hmem e' he'
    exact AList.lookup_erase_ne fun heq => hne (List.inj_on_of_nodup_map hh.keyOnce he' hrow.mem heq)
  · obtain ⟨hne, he'⟩ := hmem e' he'
    exact AList.lookup_erase_ne fun heq => hne (List.inj_on_of_nodup_map hh.recOnce he' hrow.mem heq)

theorem Holds.step (hh : Holds h s) (c : HeapCall) :
    Runs.StepSimulates heapUpdateVrfInfo nasUpdateVrfInfo Holds vrfCall h s c := by
  cases hop : c.op with
  | add =>
    rcases hh.add_cases c.p c.keyMem c.recMem with ⟨hk, hadd⟩ | ⟨a, hk, ha, ⟨hp, hadd⟩ | ⟨b, hp, hb, hadd⟩⟩
    · constructor
      · simp only [heapUpdateVrfInfo, nasUpdateVrfInfo, vrfCall, Vrf.add, hop, hk, hadd]
        rfl
      · simp only [heapUpdateVrfInfo, nasUpdateVrfInfo, vrfCall, Vrf.add, hop, hk, hadd]
        exact hh
    · constructor
      · simp only [heapUpdateVrfInfo, nasUpdateVrfInfo, vrfCall, Vrf.add, hop, hk, hp, hadd]
        rfl
      · simp only [heapUpdateVrfInfo, nasUpdateVrfInfo, vrfCall, Vrf.add, hop, hk, hp, hadd]
        exact hh.insert_key ha _
    · constructor
      · simp only [heapUpdateVrfInfo, nasUpdateVrfInfo, vrfCall, Vrf.add, hop, hk, hp, hadd]
        rfl
      · simp only [heapUpdateVrfInfo, nasUpdateVrfInfo, vrfCall, Vrf.add, hop, hk, hp, hadd]
        by_cases hmem : c.p.vrfName.name ∈ s
        · simp only [hmem, if_true]
          exact (hh.insert_key ha _).insert_rec hb _
        · simp only [hmem, if_false]
          exact hh.add_entry ha hb hmem
  | upd =>
    refine ⟨by simp only [heapUpdateVrfInfo, nasUpdateVrfInfo, vrfCall, hop], ?_⟩
    simp only [heapUpdateVrfInfo, nasUpdateVrfInfo, vrfCall, Vrf.update, Vrf.locate, hop]
    rcases hh.update_cases c.p with ⟨hl, hupd⟩ | ⟨e, r, hrow, hupd⟩
    · rw [hupd, hl]
      exact hh
    · rw [hupd, hh.lookup_of_row hrow]
      by_cases hid : c.p.vrfIntId ≠ 0
      · simpa only [if_pos hid] using hh.write hrow _
      · simpa only [if_neg hid] using hh
  | del =>
    refine ⟨by simp only [heapUpdateVrfInfo, nasUpdateVrfInfo, vrfCall, hop], ?_⟩
    simp only [heapUpdateVrfInfo, nasUpdateVrfInfo, vrfCall, Vrf.cleanup, Vrf.locate, hop]
    rcases hh.cleanup_cases c.p with ⟨hl, hdel⟩ | ⟨e, r, hrow, hdel⟩
    · rw [hdel, hl]
      exact hh
    · rw [hdel, hh.lookup_of_row hrow]
      exact hh.erase_blocks hrow

theorem Holds.getVrf_eq (hh : Holds h s) {α : Type} (f : NasVrfCtrl → α) (vrfName : CString) (out : α) :
    heapGetVrf f h vrfName out = (getVrf f s vrfName out, h) := by
  unfold heapGetVrf getVrf locate
  rw [hh.readKeys_eq]
  cases hf : h.find vrfName with
  | none => rw [hh.find_none_iff.mp hf]
  | some e =>
    obtain ⟨r, hrow⟩ := hh.row_of_find hf
    simp only [hrow.recAt, hh.lookup_of_row hrow]

/-- The name and the record of an entry. -/
def VrfHeap.row (h : VrfHeap) (e : Ptr × Ptr) : Option (Sigma fun _ : CString => NasVrfCtrl) :=
  (h.keys.lookup e.1).bind fun vrfName => (h.recs.lookup e.2).map fun r => ⟨vrfName, r⟩

theorem Row.row_eq (hrow : Row h e vrfName r) : h.row e = some ⟨vrfName, r⟩ := by
  unfold VrfHeap.row
  rw [hrow.keyAt, hrow.recAt]
  rfl

theorem Holds.rows_perm (hh : Holds h s) : (h.vrfMap.filterMap h.row).Perm s.entries := by
  have hnodup : (h.vrfMap.filterMap h.row).Nodup := by
    rw [List.Nodup, List.pairwise_filterMap]
    refine (List.Nodup.of_map _ hh.keyOnce).pairwise_of_forall_ne fun e he e' he' hne row hrow row' hrow' heq => hne ?_
    obtain ⟨vrfName, r, h1⟩ := hh.live e he
    obtain ⟨vrfName', r', h2⟩ := hh.live e' he'
    rw [h1.row_eq] at hrow
    rw [h2.row_eq] at hrow'
    have hname := congrArg Sigma.fst ((Option.some.inj hrow).trans (heq.trans (Option.some.inj hrow').symm))
    exact hh.nameOnce e he e' he' (by rw [h1.keyAt, h2.keyAt]; exact congrArg some hname)
  rw [List.perm_ext_iff_of_nodup hnodup s.nodupKeys.nodup]
  intro hex
  obtain ⟨vrfName, r⟩ := hex
  rw [← AList.mem_lookup_iff, Option.mem_def, hh.agrees, List.mem_filterMap]
  constructor
  · intro hex
    obtain ⟨e, he, hrow⟩ := hex
    obtain ⟨name, r', h1⟩ := hh.live e he
    rw [h1.row_eq] at hrow
    cases hrow
    exact ⟨e, h1⟩
  · intro hex
    obtain ⟨e, hrow⟩ := hex
    exact ⟨e, hrow.mem, hrow.row_eq⟩

/-- The records are the map's, in the order of the entries. -/
theorem Holds.getAll (hh : Holds h s) :
    (heapGetAllVrfCtrl h []).1.Perm (s.entries.map Sigma.snd) ∧ (heapGetAllVrfCtrl h []).2 = h := by
  have hrecs : (h.vrfMap.filterMap fun e => h.recs.lookup e.2) = (h.vrfMap.filterMap h.row).map Sigma.snd := by
    rw [List.map_filterMap]
    refine List.filterMap_congr fun e he => ?_
    obtain ⟨vrfName, r, hrow⟩ := hh.live e he
    rw [hrow.recAt, hrow.row_eq]
    rfl
  have hany : (h.vrfMap.any fun e => e.2 ∉ h.recs) = false := by
    rw [List.any_eq_false]
    intro e he hdead
    obtain ⟨vrfName, r, hrow⟩ := hh.live e he
    exact of_decide_eq_true hdead hrow.rec_mem
  unfold heapGetAllVrfCtrl
  rw [List.nil_append, hrecs, hany, Bool.or_false]
  exact ⟨hh.rows_perm.map _, rfl⟩

end Holds

theorem holds_init : Holds .init ∅ := by
  refine ⟨rfl, ?_, List.nodup_nil, List.nodup_nil, ?_, fun vrfName r => ?_⟩
  · intro e he
    cases he
  · intro e he
    cases he
  · refine iff_of_false (by simp) ?_
    intro h
    obtain ⟨e, hrow⟩ := h
    cases hrow.mem

/-- Over any run, whatever the allocator answers, the pointers answer as the map does
    and the getters find what it has, and no block that is not live is read or freed. -/
theorem heap_refines (calls : List HeapCall) :
    let h := Runs.final heapUpdateVrfInfo .init calls
    let vcalls := Runs.labels heapUpdateVrfInfo vrfCall .init calls
    let s := Runs.final nasUpdateVrfInfo ∅ vcalls
    Runs.answers heapUpdateVrfInfo .init calls = Runs.answers nasUpdateVrfInfo ∅ vcalls ∧ h.fault = false ∧
      (∀ (α : Type) (f : NasVrfCtrl → α) (vrfName : CString) (out : α),
        heapGetVrf f h vrfName out = (getVrf f s vrfName out, h)) ∧
      (heapGetAllVrfCtrl h []).1.Perm (s.entries.map Sigma.snd) ∧ (heapGetAllVrfCtrl h []).2 = h := by
  intro h vcalls s
  obtain ⟨hanswers, hh⟩ := Runs.simulates (fun _ _ a hh => Holds.step hh a) calls .init ∅ holds_init
  exact ⟨hanswers, hh.sound, fun _ => hh.getVrf_eq, hh.getAll⟩

/-! ## The blocks that nothing frees -/

/-- An ADD that makes a key and leaves it out of the map. -/
def losesKey (s : VrfMap) (c : VrfCall) : Bool :=
  c.op = .add && c.keyMem && (!c.recMem || decide (c.p.vrfName.name ∈ s))

/-- An ADD that makes a record and leaves it out of the map. -/
def losesRec (s : VrfMap) (c : VrfCall) : Bool :=
  c.op = .add && c.keyMem && c.recMem && decide (c.p.vrfName.name ∈ s)

/-- The live keys, less those of entries. -/
def spareKeys (h : VrfHeap) : Int := h.keys.keys.length - h.vrfMap.length

def spareRecs (h : VrfHeap) : Int := h.recs.keys.length - h.vrfMap.length

section Spare

variable {h : VrfHeap} {s : VrfMap}

theorem length_keys_insert_mem {β : Type} {m : AList fun _ : Ptr => β} {a : Ptr} (ha : a ∈ m) (b : β) :
    (m.insert a b).keys.length = m.keys.length := by
  rw [AList.keys_insert, List.length_cons, List.length_erase_of_mem (AList.mem_keys.mp ha)]
  have := List.length_pos_of_mem (AList.mem_keys.mp ha)
  omega

theorem length_keys_erase {β : Type} {m : AList fun _ : Ptr => β} {a : Ptr} (ha : a ∈ m) :
    (m.erase a).keys.length + 1 = m.keys.length := by
  rw [AList.keys_erase, List.length_erase_of_mem (AList.mem_keys.mp ha)]
  have := List.length_pos_of_mem (AList.mem_keys.mp ha)
  omega

/-- A call adds to the spare blocks what it loses. -/
theorem Holds.step_spare (hh : Holds h s) (c : HeapCall) :
    spareKeys (heapUpdateVrfInfo h c).2 = spareKeys h + (losesKey s (vrfCall h c)).toNat ∧
      spareRecs (heapUpdateVrfInfo h c).2 = spareRecs h + (losesRec s (vrfCall h c)).toNat := by
  unfold spareKeys spareRecs losesKey losesRec vrfCall heapUpdateVrfInfo
  cases hop : c.op with
  | add =>
    rcases hh.add_cases c.p c.keyMem c.recMem with ⟨hk, hadd⟩ | ⟨a, hk, ha, ⟨hp, hadd⟩ | ⟨b, hp, hb, hadd⟩⟩
    · simp only [hk, hadd, Option.isSome_none, Bool.and_false, Bool.false_and, Bool.toNat_false]
      omega
    · simp only [hk, hp, hadd, length_keys_insert ha, Option.isSome_none, Option.isSome_some, Bool.and_false, Bool.false_and,
        Bool.not_false, Bool.true_or, Bool.and_true, decide_true, Bool.toNat_false, Bool.toNat_true]
      omega
    · simp only [hk, hp, hadd, length_keys_insert ha, length_keys_insert hb, Option.isSome_some, Bool.not_true, Bool.false_or,
        Bool.and_true, decide_true, Bool.true_and]
      by_cases hmem : c.p.vrfName.name ∈ s
      · simp only [hmem, if_true, decide_true, Bool.toNat_true]
        omega
      · simp only [hmem, if_false, decide_false, Bool.toNat_false, List.length_cons]
        omega
  | upd =>
    simp only [reduceCtorEq, decide_false, Bool.false_and, Bool.toNat_false]
    rcases hh.update_cases c.p with ⟨-, hupd⟩ | ⟨e, r, hrow, hupd⟩
    · simp only [hupd]
      omega
    · rw [hupd]
      by_cases hid : c.p.vrfIntId ≠ 0
      · simp only [if_pos hid, length_keys_insert_mem hrow.rec_mem]
        omega
      · simp only [if_neg hid]
        omega
  | del =>
    simp only [reduceCtorEq, decide_false, Bool.false_and, Bool.toNat_false]
    rcases hh.cleanup_cases c.p with ⟨-, hdel⟩ | ⟨e, r, hrow, hdel⟩
    · rw [hdel]
      omega
    · have hkey := length_keys_erase hrow.key_mem
      have hrec := length_keys_erase hrow.rec_mem
      have hmap := List.length_erase_of_mem hrow.mem
      have hpos := List.length_pos_of_mem hrow.mem
      rw [hdel]
      simp only
      omega

/-- A part that is as long as the whole is all of it. -/
theorem all_mem_iff_length {l m : List Ptr} (hl : l.Nodup) (hm : m.Nodup) (hsub : l ⊆ m) :
    (∀ a ∈ m, a ∈ l) ↔ (m.length : Int) - l.length = 0 := by
  have hsubperm : l.Subperm m := List.subperm_of_subset hl hsub
  constructor
  · intro hall
    have hle := (List.subperm_of_subset hm hall).length_le
    have hge := hsubperm.length_le
    omega
  · intro hlen a ha
    exact (hsubperm.perm_of_length_le (by omega)).mem_iff.mpr ha

/-- Each live block is an entry's just when there are no more of them than entries. -/
theorem Holds.held_iff (hh : Holds h s) :
    ((∀ a ∈ h.keys, ∃ e ∈ h.vrfMap, e.1 = a) ∧ ∀ b ∈ h.recs, ∃ e ∈ h.vrfMap, e.2 = b) ↔
      spareKeys h = 0 ∧ spareRecs h = 0 := by
  have hkeys : h.vrfMap.map Prod.fst ⊆ h.keys.keys := by
    intro a ha
    obtain ⟨e, he, rfl⟩ := List.mem_map.mp ha
    obtain ⟨vrfName, r, hrow⟩ := hh.live e he
    exact AList.mem_keys.mp hrow.key_mem
  have hrecs : h.vrfMap.map Prod.snd ⊆ h.recs.keys := by
    intro b hb
    obtain ⟨e, he, rfl⟩ := List.mem_map.mp hb
    obtain ⟨vrfName, r, hrow⟩ := hh.live e he
    exact AList.mem_keys.mp hrow.rec_mem
  have h1 := all_mem_iff_length hh.keyOnce h.keys.keys_nodup hkeys
  have h2 := all_mem_iff_length hh.recOnce h.recs.keys_nodup hrecs
  simp only [List.mem_map, List.length_map, ← AList.mem_keys] at h1 h2
  exact and_congr h1 h2

theorem losesKey_of_losesRec {c : VrfCall} (h : losesRec s c = true) : losesKey s c = true := by
  unfold losesRec at h
  unfold losesKey
  simp only [Bool.and_eq_true] at h ⊢
  exact ⟨h.1.1, by rw [h.2, Bool.or_true]⟩

end Spare

/-- At the end of any run the live keys are the entries' and one for each ADD that found
    its name there or whose `new` threw, the live records the entries' and one for each
    ADD that found its name there. Each live block is an entry's exactly when there was
    no such ADD. -/
theorem blocks_balance (calls : List HeapCall) :
    let h := Runs.final heapUpdateVrfInfo .init calls
    let vcalls := Runs.labels heapUpdateVrfInfo vrfCall .init calls
    h.keys.keys.length = h.vrfMap.length + Runs.tally nasUpdateVrfInfo (fun s c => (losesKey s c).toNat) ∅ vcalls ∧
      h.recs.keys.length = h.vrfMap.length + Runs.tally nasUpdateVrfInfo (fun s c => (losesRec s c).toNat) ∅ vcalls ∧
      (((∀ a ∈ h.keys, ∃ e ∈ h.vrfMap, e.1 = a) ∧ ∀ b ∈ h.recs, ∃ e ∈ h.vrfMap, e.2 = b) ↔
        Runs.Steps nasUpdateVrfInfo (fun s c => losesKey s c = false) ∅ vcalls) := by
  intro h vcalls
  have hstep := fun (g : VrfHeap) (s : VrfMap) a (hh : Holds g s) => hh.step a
  have hh : Holds h (Runs.final nasUpdateVrfInfo ∅ vcalls) := (Runs.simulates hstep calls .init ∅ holds_init).2
  have hkeys := Runs.simulates_tally hstep (m := spareKeys) (w := fun s c => (losesKey s c).toNat)
    (fun _ _ a hh => (hh.step_spare a).1) calls .init ∅ holds_init
  have hrecs := Runs.simulates_tally hstep (m := spareRecs) (w := fun s c => (losesRec s c).toNat)
    (fun _ _ a hh => (hh.step_spare a).2) calls .init ∅ holds_init
  have hkeys : spareKeys h = 0 + Runs.tally nasUpdateVrfInfo (fun s c => (losesKey s c).toNat) ∅ vcalls := hkeys
  have hrecs : spareRecs h = 0 + Runs.tally nasUpdateVrfInfo (fun s c => (losesRec s c).toNat) ∅ vcalls := hrecs
  have hnone : ∀ {w : VrfMap → VrfCall → Bool}, Runs.tally nasUpdateVrfInfo (fun s c => (w s c).toNat) ∅ vcalls = 0 ↔
      Runs.Steps nasUpdateVrfInfo (fun s c => w s c = false) ∅ vcalls := by
    intro w
    simp only [Runs.tally_eq_zero, Bool.toNat_eq_zero]
  refine ⟨?_, ?_, hh.held_iff.trans ?_⟩
  · unfold spareKeys at hkeys
    omega
  · unfold spareRecs at hrecs
    omega
  · rw [← hnone]
    constructor
    · intro h0
      omega
    · intro h0
      -- an ADD that loses its record loses its key
      have hsteps := Runs.Steps.imp (fun s c hk => Bool.eq_false_iff.mpr fun hr =>
        Bool.eq_false_iff.mp hk (losesKey_of_losesRec hr)) (hnone.mp h0)
      have h1 := hnone.mpr hsteps
      omega

end NasCommon.Vrf
