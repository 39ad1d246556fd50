/-
  NasCommon.NdiTable.Codec — the NPU to NDI object ID table and its form in a CPS
  object (`nas_ndi_obj_id_table.cpp`).

  The encoder adds two leaves for each entry below the hierarchy given, at an instance
  number of the entry's own. The decoder reads every child of the hierarchy's attribute
  as an entry, in whatever order, into a table that replaces the destination. An empty
  table adds nothing, so its decoder finds no attribute.
  - `serialize_encodes`: what an encoder that returns true leaves under the hierarchy.
  - `unserialize_encoded`: the decoder gives back the entries of such a list.
  - `round_trip_iff`: the table comes back exactly when it has an entry, or when the
    hierarchy's container was there all along.
-/

import Mathlib.Data.Finmap
import Mathlib.Data.List.Permutation
import NasCommon.Lib.AttrTree

namespace NasCommon.NdiTable

open AttrTree (Adds under)

/-! ## CPS objects -/

abbrev AttrId := Nat

inductive CpsData where
  | u32 (v : UInt32)
  | u64 (v : UInt64)
  deriving DecidableEq, Repr

abbrev CpsAttr := AttrTree.Attr AttrId CpsData

/-- The CPS object functions. -/
structure CpsApi where
  Obj : Type
  /-- The attributes of an object. -/
  attrs : Obj → List CpsAttr
  /-- `cps_api_object_e_add`. -/
  eAdd : Obj → List AttrId → CpsData → Bool × Obj
  /-- What `cps_api_object_it_inside` iterates over. -/
  inside : CpsAttr → List CpsAttr
  dataU32 : CpsAttr → UInt32
  dataU64 : CpsAttr → UInt64
  eAdd_adds : ∀ o p d o', eAdd o p d = (true, o') → Adds p d (attrs o) (attrs o')
  inside_container : ∀ a kids, inside (.container a kids) = kids
  dataU32_leaf : ∀ a v, dataU32 (.leaf a (.u32 v)) = v
  dataU64_leaf : ∀ a v, dataU64 (.leaf a (.u64 v)) = v

/-- `cps_api_object_it`. -/
def CpsApi.it (A : CpsApi) (o : A.Obj) (path : List AttrId) : Option CpsAttr := AttrTree.find path (A.attrs o)

/-! ## The table -/

abbrev NpuId := Int32
abbrev NdiObjId := UInt64

/-- `std::unordered_map <npu_id_t, ndi_obj_id_t>`, its entries in the order of iteration. -/
abbrev NdiObjIdTable := AList fun _ : NpuId => NdiObjId

def opaqueInstAttrIdStart : AttrId := 1
def opaqueNpuAttrId : AttrId := 1
def opaqueNdiObjAttrId : AttrId := 2

variable (A : CpsApi)

def serializeFrom (attrIdList : List AttrId) : AttrId → List (Sigma fun _ : NpuId => NdiObjId) → A.Obj → Bool × A.Obj
  | _, [], o => (true, o)
  | inst, ⟨npuId, ndiObjId⟩ :: elems, o =>
    match A.eAdd o (attrIdList ++ [inst, opaqueNpuAttrId]) (.u32 npuId.toUInt32) with
    | (false, o) => (false, o)
    | (true, o) =>
      match A.eAdd o (attrIdList ++ [inst, opaqueNdiObjAttrId]) (.u64 ndiObjId) with
      | (false, o) => (false, o)
      | (true, o) => serializeFrom attrIdList (inst + 1) elems o

/-- `ndi_obj_id_table_cps_serialize`. -/
def serialize (table : NdiObjIdTable) (cpsObj : A.Obj) (attrIdList : List AttrId) : Bool × A.Obj :=
  serializeFrom A attrIdList opaqueInstAttrIdStart table.entries cpsObj

/-- An entry's IDs, from its attributes: 0 where there is none. -/
def readAttr (e : NpuId × NdiObjId) (a : CpsAttr) : NpuId × NdiObjId :=
  if a.id = opaqueNpuAttrId then ((A.dataU32 a).toInt32, e.2)
  else if a.id = opaqueNdiObjAttrId then (e.1, A.dataU64 a)
  else e

def readEntry (mapEntry : CpsAttr) : NpuId × NdiObjId := (A.inside mapEntry).foldl (readAttr A) (0, 0)

def addEntry (tempTable : NdiObjIdTable) (mapEntry : CpsAttr) : NdiObjIdTable :=
  tempTable.insert (readEntry A mapEntry).1 (readEntry A mapEntry).2

/-- `ndi_obj_id_table_cps_unserialize`. -/
def unserialize (table : NdiObjIdTable) (cpsObj : A.Obj) (attrIdList : List AttrId) : Bool × NdiObjIdTable :=
  match A.it cpsObj attrIdList with
  | none => (false, table)
  | some a => (true, (A.inside a).foldl (addEntry A) ∅)

/-! ## What the encoder leaves -/

abbrev Entry := Sigma fun _ : NpuId => NdiObjId

/-- The attribute of one entry: its two leaves, in some order. -/
def EncodesEntry (inst : Nat) (e : Entry) (a : CpsAttr) : Prop :=
  ∃ kids, a = .container inst kids ∧
    kids.Perm [.leaf opaqueNpuAttrId (.u32 e.1.toUInt32), .leaf opaqueNdiObjAttrId (.u64 e.2)]

/-- The attributes of a list of entries, numbered on from `inst`. -/
def EncodesFrom : Nat → List Entry → List CpsAttr → Prop
  | _, [], l => l = []
  | inst, e :: es, l => ∃ a rest, l = a :: rest ∧ EncodesEntry inst e a ∧ EncodesFrom (inst + 1) es rest

/-- The same from the first number on, in any order. -/
def Encodes (es : List Entry) (l : List CpsAttr) : Prop :=
  ∃ l', l.Perm l' ∧ EncodesFrom opaqueInstAttrIdStart es l'

theorem EncodesFrom.snoc {es : List Entry} {e : Entry} {a : CpsAttr} :
    ∀ {inst : Nat} {l : List CpsAttr}, EncodesFrom inst es l → EncodesEntry (inst + es.length) e a →
      EncodesFrom inst (es ++ [e]) (l ++ [a]) := by
  induction es with
  | nil =>
    intro inst l h ha
    subst h
    exact ⟨a, [], rfl, ha, rfl⟩
  | cons e' es ih =>
    intro inst l h ha
    obtain ⟨b, rest, rfl, hb, hrest⟩ := h
    refine ⟨b, rest ++ [a], rfl, hb, ih hrest ?_⟩
    rwa [show inst + 1 + es.length = inst + (e' :: es).length by simp only [List.length_cons]; omega]

theorem EncodesFrom.ids {es : List Entry} : ∀ {inst : Nat} {l : List CpsAttr},
    EncodesFrom inst es l → ∀ n ∈ l, n.id < inst + es.length := by
  induction es with
  | nil =>
    intro inst l h n hn
    rw [h] at hn; cases hn
  | cons e es ih =>
    intro inst l h n hn
    obtain ⟨a, rest, rfl, ⟨kids, rfl, _⟩, hrest⟩ := h
    simp only [List.length_cons]
    rcases List.mem_cons.mp hn with rfl | hn
    · show inst < inst + (es.length + 1)
      omega
    · exact Nat.lt_of_lt_of_eq (ih hrest n hn) (by omega)

/-- The two leaves of a new instance. -/
theorem adds_entry {inst : Nat} {e : Entry} {l l1 l2 : List CpsAttr} (hnew : ∀ n ∈ l, n.id ≠ inst)
    (h1 : Adds [inst, opaqueNpuAttrId] (.u32 e.1.toUInt32) l l1)
    (h2 : Adds [inst, opaqueNdiObjAttrId] (.u64 e.2) l1 l2) : ∃ a, l2.Perm (a :: l) ∧ EncodesEntry inst e a := by
  cases h1 with
  | inside hl h => exact absurd rfl (hnew _ (List.mem_append_right _ List.mem_cons_self))
  | @create _ _ _ l r kids hl h1 =>
    -- the second leaf goes into the container the first one made
    obtain ⟨kids', rfl, h3⟩ := h2.of_container (List.cons_ne_nil _ _) fun n hn => hl n (List.mem_append_left _ hn)
    have hkids := List.perm_singleton.mp h1.of_leaf
    refine ⟨_, List.perm_middle, kids', rfl, ?_⟩
    rw [hkids] at h3
    exact h3.of_leaf.trans (List.Perm.swap _ _ _)

variable {A}

theorem serializeFrom_encodes {path : List AttrId} (es : List Entry) :
    ∀ (done : List Entry) {o o' : A.Obj}, Encodes done ((under path (A.attrs o)).getD []) →
      serializeFrom A path (opaqueInstAttrIdStart + done.length : Nat) es o = (true, o') →
      Encodes (done ++ es) ((under path (A.attrs o')).getD []) := by
  induction es with
  | nil =>
    intro done o o' hd h
    cases h
    rwa [List.append_nil]
  | cons e es ih =>
    intro done o o' hd h
    unfold serializeFrom at h
    split at h
    · cases h
    rename_i o1 h1
    split at h
    · cases h
    rename_i o2 h2
    obtain ⟨kids1, hu1, ha1⟩ := (A.eAdd_adds _ _ _ _ h1).under (List.cons_ne_nil _ _)
    obtain ⟨kids2, hu2, ha2⟩ := (A.eAdd_adds _ _ _ _ h2).under (List.cons_ne_nil _ _)
    rw [hu1] at ha2
    obtain ⟨l, hperm, hl⟩ := hd
    have hnew : ∀ n ∈ (under path (A.attrs o)).getD [], n.id ≠ opaqueInstAttrIdStart + done.length := by
      intro n hn
      exact Nat.ne_of_lt (hl.ids n (hperm.mem_iff.mp hn))
    obtain ⟨a, hkids, hentry⟩ := adds_entry hnew ha1 ha2
    have hdone : Encodes (done ++ [e]) ((under path (A.attrs o2)).getD []) := by
      rw [hu2]
      exact ⟨l ++ [a], hkids.trans ((hperm.cons a).trans (List.perm_append_singleton a l).symm), hl.snoc hentry⟩
    have := ih (done ++ [e]) hdone (by rwa [List.length_append, List.length_singleton, ← Nat.add_assoc])
    rwa [List.append_assoc] at this

/-- What an encoder that returns true leaves below a hierarchy that held nothing. -/
theorem serialize_encodes {table : NdiObjIdTable} {o o' : A.Obj} {path : List AttrId}
    (hempty : (under path (A.attrs o)).getD [] = []) (h : serialize A table o path = (true, o')) :
    Encodes table.entries ((under path (A.attrs o')).getD []) :=
  serializeFrom_encodes table.entries [] (by rw [hempty]; exact ⟨[], List.Perm.nil, rfl⟩) h

/-! ## What the decoder makes of it -/

theorem readEntry_of_encodes {inst : Nat} {e : Entry} {a : CpsAttr} (h : EncodesEntry inst e a) :
    readEntry A a = (e.1, e.2) := by
  obtain ⟨kids, rfl, hk⟩ := h
  unfold readEntry
  rw [A.inside_container]
  rcases List.perm_pair.mp hk with rfl | rfl <;>
    simp [readAttr, opaqueNpuAttrId, opaqueNdiObjAttrId, A.dataU32_leaf, A.dataU64_leaf]

variable (A) in
def entryOf (a : CpsAttr) : Entry := ⟨(readEntry A a).1, (readEntry A a).2⟩

theorem EncodesFrom.map_entryOf {es : List Entry} : ∀ {inst : Nat} {l : List CpsAttr}, EncodesFrom inst es l →
    l.map (entryOf A) = es := by
  induction es with
  | nil => intro inst l h; rw [h]; rfl
  | cons e es ih =>
    intro inst l h
    obtain ⟨a, rest, rfl, ha, hrest⟩ := h
    rw [List.map_cons, ih hrest]
    simp [entryOf, readEntry_of_encodes ha]

theorem lookup_foldl_addEntry (l : List CpsAttr) (npu : NpuId) : ∀ (t : NdiObjIdTable),
    (l.foldl (addEntry A) t).lookup npu = ((l.map (entryOf A)).reverse.dlookup npu).or (t.lookup npu) := by
  induction l with
  | nil => intro t; rfl
  | cons a l ih =>
    intro t
    rw [List.foldl_cons, ih, List.map_cons, List.reverse_cons, List.dlookup_append]
    by_cases e : npu = (readEntry A a).1
    · subst e
      simp [addEntry, entryOf, List.dlookup_cons_eq]
    · simp [addEntry, entryOf, AList.lookup_insert_ne e, List.dlookup_cons_ne, e]

/-- The entries come back, whatever the order of the attributes. -/
theorem foldl_addEntry_encoded {t : NdiObjIdTable} {l : List CpsAttr} (h : Encodes t.entries l) :
    (l.foldl (addEntry A) ∅).toFinmap = t.toFinmap := by
  obtain ⟨l', hperm, hl⟩ := h
  have hentries : (l.map (entryOf A)).reverse.Perm t.entries := by
    rw [← EncodesFrom.map_entryOf hl]
    exact (List.reverse_perm _).trans (hperm.map _)
  apply Finmap.ext_lookup
  intro npu
  rw [Finmap.lookup_toFinmap, Finmap.lookup_toFinmap, lookup_foldl_addEntry,
    List.perm_dlookup npu ((List.perm_nodupKeys hentries).mpr t.nodupKeys) hentries]
  simp [AList.lookup]

/-! ## The round trip -/

/-- No attribute at the hierarchy, or an empty container. -/
def HoldsNothing (o : A.Obj) (path : List AttrId) : Prop :=
  A.it o path = none ∨ ∃ a, A.it o path = some (.container a [])

theorem Encodes.ne_nil {es : List Entry} {l : List CpsAttr} (h : Encodes es l) (hes : es ≠ []) : l ≠ [] := by
  rintro rfl
  obtain ⟨l', hperm, hl⟩ := h
  rw [List.nil_perm.mp hperm] at hl
  cases es with
  | nil => exact hes rfl
  | cons e es =>
    obtain ⟨a, rest, e', _⟩ := hl
    cases e'

/-- An encoded table with an entry is decoded to the same table. -/
theorem unserialize_encoded {table t0 : NdiObjIdTable} {o : A.Obj} {path : List AttrId} (hpath : path ≠ [])
    (hne : table.entries ≠ []) (h : Encodes table.entries ((under path (A.attrs o)).getD [])) :
    (unserialize A t0 o path).1 = true ∧ (unserialize A t0 o path).2.toFinmap = table.toFinmap := by
  have hkids : (under path (A.attrs o)).getD [] ≠ [] := h.ne_nil hne
  cases hu : under path (A.attrs o) with
  | none =>
    rw [hu] at hkids
    exact absurd rfl hkids
  | some kids =>
    rw [hu] at h
    obtain ⟨a, ha⟩ := AttrTree.find_of_under hpath hu
    have hit : A.it o path = some (.container a kids) := ha
    unfold unserialize
    rw [hit]
    refine ⟨rfl, ?_⟩
    show ((A.inside (.container a kids)).foldl (addEntry A) ∅).toFinmap = _
    rw [A.inside_container]
    exact foldl_addEntry_encoded h

/-- A table comes back from an object that held nothing at its hierarchy exactly when
    it has an entry, or when the container was there before. -/
theorem round_trip_iff {table t0 : NdiObjIdTable} {o o' : A.Obj} {path : List AttrId} (hpath : path ≠ [])
    (hempty : HoldsNothing o path) (h : serialize A table o path = (true, o')) :
    ((unserialize A t0 o' path).1 = true ∧ (unserialize A t0 o' path).2.toFinmap = table.toFinmap) ↔
      (table.entries ≠ [] ∨ A.it o path ≠ none) := by
  by_cases hne : table.entries = []
  · -- nothing is added: the decoder sees the object as it was
    have ho : o' = o := by
      unfold serialize at h
      rw [hne] at h
      cases h; rfl
    subst ho
    have htable : table = ∅ := AList.ext hne
    rcases hempty with hnone | ⟨a, ha⟩
    · rw [hnone]
      have : (unserialize A t0 o' path).1 = false := by unfold unserialize; rw [hnone]
      simp [this, hne]
    · have hres : unserialize A t0 o' path = (true, ∅) := by
        unfold unserialize
        rw [ha]
        show (true, (A.inside (.container a [])).foldl (addEntry A) ∅) = _
        rw [A.inside_container]; rfl
      rw [hres, ha, htable]
      simp
  · have henc := serialize_encodes (AttrTree.under_of_find hempty hpath) h
    exact iff_of_true (unserialize_encoded hpath hne henc) (Or.inl hne)

/-! ## An object that adds at the end -/

def appendApi : CpsApi where
  Obj := List CpsAttr
  attrs o := o
  eAdd o p d :=
    match AttrTree.insert d p o with
    | some o' => (true, o')
    | none => (false, o)
  inside
    | .container _ kids => kids
    | .leaf _ _ => []
  dataU32
    | .leaf _ (.u32 v) => v
    | _ => 0
  dataU64
    | .leaf _ (.u64 v) => v
    | _ => 0
  eAdd_adds o p d o' h := by
    split at h
    · rename_i o1 hi
      cases h
      exact AttrTree.insert_adds d p hi
    · cases h
  inside_container _ _ := rfl
  dataU32_leaf _ _ := rfl
  dataU64_leaf _ _ := rfl

def twoNpus : NdiObjIdTable := (∅ : NdiObjIdTable).insert 2 6 |>.insert 1 4

theorem round_trip_two :
    (unserialize appendApi ((∅ : NdiObjIdTable).insert 9 9) (serialize appendApi twoNpus [] [5, 6]).2 [5, 6]).1 = true ∧
      (unserialize appendApi ((∅ : NdiObjIdTable).insert 9 9) (serialize appendApi twoNpus [] [5, 6]).2 [5, 6]).2.toFinmap
        = twoNpus.toFinmap :=
  (round_trip_iff (A := appendApi) (o := ([] : List CpsAttr)) (by decide) (Or.inl rfl) rfl).mpr (Or.inl (by decide))

/-- An empty table is encoded with success and then not found. -/
theorem empty_not_found : HoldsNothing (A := appendApi) ([] : List CpsAttr) [5] ∧
    serialize appendApi ∅ ([] : List CpsAttr) [5] = (true, ([] : List CpsAttr)) ∧
    (unserialize appendApi ((∅ : NdiObjIdTable).insert 9 9) ([] : List CpsAttr) [5]).1 = false :=
  ⟨Or.inl rfl, rfl, rfl⟩

end NasCommon.NdiTable
