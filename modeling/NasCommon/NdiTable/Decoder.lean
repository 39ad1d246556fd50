/-
  NasCommon.NdiTable.Decoder — what the decoder makes of any object
  (`ndi_obj_id_table_cps_unserialize`).

  An entry's two IDs are 0 until an attribute of it sets them, and the pair goes into
  the table whether or not one did. A pair is replaced by that of a later entry for the
  same NPU, 0 where a later one names none.
  - `lookup_decoded_iff`: the pairs of the table are those of the entries that no later
    one replaces.
  - `invents_nothing_iff`: each is carried by an entry exactly when each of these has
    both attributes, or falls back on a pair that another entry carries.
  - `npu_0_invented`: an entry with an NDI object alone.
-/

import NasCommon.Lib.Attrs
import NasCommon.NdiTable.Codec

namespace NasCommon.NdiTable

variable (A : CpsApi)

/-- An attribute of the entry gives the NPU, and one the NDI object. -/
def Carries (e : CpsAttr) (npuId : NpuId) (ndiObjId : NdiObjId) : Prop :=
  (∃ a ∈ A.inside e, a.id = opaqueNpuAttrId ∧ (A.dataU32 a).toInt32 = npuId) ∧
    ∃ a ∈ A.inside e, a.id = opaqueNdiObjAttrId ∧ A.dataU64 a = ndiObjId

/-- It has both attributes. -/
def Complete (e : CpsAttr) : Prop :=
  (∃ a ∈ A.inside e, a.id = opaqueNpuAttrId) ∧ ∃ a ∈ A.inside e, a.id = opaqueNdiObjAttrId

/-- What its last attribute of each kind gives, 0 where it has none. -/
def entryPair (e : CpsAttr) : NpuId × NdiObjId :=
  (((Attrs.last AttrTree.Attr.id opaqueNpuAttrId (A.inside e)).map fun a => (A.dataU32 a).toInt32).getD 0,
    ((Attrs.last AttrTree.Attr.id opaqueNdiObjAttrId (A.inside e)).map A.dataU64).getD 0)

/-- No entry behind it is for the same NPU. -/
def Stays (l : List CpsAttr) (e : CpsAttr) : Prop :=
  ∃ before after, l = before ++ e :: after ∧ ∀ e' ∈ after, (entryPair A e').1 ≠ (entryPair A e).1

/-- Every pair of a table that was decoded is carried by an entry of the list, and a
    table that was not is as before. -/
structure InventsNothing (table : NdiObjIdTable) (cpsObj : A.Obj) (attrIdList : List AttrId) : Prop where
  carried : (unserialize A table cpsObj attrIdList).1 = true →
    ∀ npuId ndiObjId, (unserialize A table cpsObj attrIdList).2.lookup npuId = some ndiObjId →
      ∃ a, A.it cpsObj attrIdList = some a ∧ ∃ e ∈ A.inside a, Carries A e npuId ndiObjId
  unchanged : (unserialize A table cpsObj attrIdList).1 = false → (unserialize A table cpsObj attrIdList).2 = table

variable {A}

/-! ## One entry -/

/-- The last attribute of each kind sets its ID. -/
theorem foldl_readAttr (l : List CpsAttr) : ∀ e : NpuId × NdiObjId, l.foldl (readAttr A) e =
    (((Attrs.last AttrTree.Attr.id opaqueNpuAttrId l).map fun a => (A.dataU32 a).toInt32).getD e.1,
      ((Attrs.last AttrTree.Attr.id opaqueNdiObjAttrId l).map A.dataU64).getD e.2) := by
  induction l with
  | nil => intro e; rfl
  | cons a l ih =>
    intro e
    rw [List.foldl_cons, ih]
    by_cases hnpu : a.id = opaqueNpuAttrId
    · have hndi : a.id ≠ opaqueNdiObjAttrId := by rw [hnpu]; decide
      rw [Attrs.last_cons_self hnpu, Attrs.last_cons_other hndi]
      cases Attrs.last AttrTree.Attr.id opaqueNpuAttrId l <;> simp [readAttr, hnpu]
    · rw [Attrs.last_cons_other hnpu]
      by_cases hndi : a.id = opaqueNdiObjAttrId
      · have hread : readAttr A e a = (e.1, A.dataU64 a) := by
          unfold readAttr
          rw [if_neg hnpu, if_pos hndi]
        rw [Attrs.last_cons_self hndi, hread]
        cases Attrs.last AttrTree.Attr.id opaqueNdiObjAttrId l <;> rfl
      · rw [Attrs.last_cons_other hndi]
        simp [readAttr, hnpu, hndi]

theorem readEntry_eq (e : CpsAttr) : readEntry A e = entryPair A e := foldl_readAttr (A.inside e) (0, 0)

theorem addEntry_eq (table : NdiObjIdTable) (e : CpsAttr) :
    addEntry A table e = table.insert (entryPair A e).1 (entryPair A e).2 := by
  unfold addEntry
  rw [readEntry_eq]

/-- An entry with both attributes carries its pair. -/
theorem Complete.carries {e : CpsAttr} (h : Complete A e) : Carries A e (entryPair A e).1 (entryPair A e).2 := by
  obtain ⟨a, ha⟩ := Attrs.last_isSome_iff.mpr h.1
  obtain ⟨b, hb⟩ := Attrs.last_isSome_iff.mpr h.2
  have hpair : entryPair A e = ((A.dataU32 a).toInt32, A.dataU64 b) := by
    unfold entryPair
    rw [ha, hb]
    rfl
  rw [hpair]
  exact ⟨⟨a, (Attrs.last_mem ha).1, (Attrs.last_mem ha).2, rfl⟩, ⟨b, (Attrs.last_mem hb).1, (Attrs.last_mem hb).2, rfl⟩⟩

/-! ## The table -/

/-- Behind an entry comes another: it stays, and so do those of other NPUs. -/
theorem stays_append_iff {l : List CpsAttr} {e d : CpsAttr} :
    Stays A (l ++ [e]) d ↔ d = e ∨ (Stays A l d ∧ (entryPair A e).1 ≠ (entryPair A d).1) := by
  constructor
  · intro h
    obtain ⟨before, after, hl, hafter⟩ := h
    rcases List.eq_nil_or_concat after with rfl | ⟨after, e', rfl⟩
    · obtain ⟨-, hd⟩ := List.append_inj' hl rfl
      cases hd
      exact Or.inl rfl
    · rw [← List.concat_cons, List.concat_eq_append, ← List.append_assoc] at hl
      obtain ⟨hbefore, he⟩ := List.append_inj' hl rfl
      cases he
      exact Or.inr ⟨⟨before, after, hbefore, fun x hx => hafter x (by simp [hx])⟩, hafter e (by simp)⟩
  · intro h
    rcases h with rfl | ⟨⟨before, after, rfl, hafter⟩, hne⟩
    · exact ⟨l, [], rfl, fun _ h => absurd h List.not_mem_nil⟩
    · refine ⟨before, after ++ [e], by simp, fun x hx => ?_⟩
      rcases List.mem_append.mp hx with hx | hx
      · exact hafter x hx
      · rwa [List.mem_singleton.mp hx]

theorem lookup_decoded_iff (l : List CpsAttr) : ∀ (npuId : NpuId) (ndiObjId : NdiObjId),
    (l.foldl (addEntry A) ∅).lookup npuId = some ndiObjId ↔ ∃ e, Stays A l e ∧ entryPair A e = (npuId, ndiObjId) := by
  induction l using List.reverseRecOn with
  | nil =>
    intro npuId ndiObjId
    refine iff_of_false (by simp) fun h => ?_
    obtain ⟨e, ⟨before, after, hl, -⟩, -⟩ := h
    simp at hl
  | append_singleton l e ih =>
    intro npuId ndiObjId
    rw [List.foldl_append, List.foldl_cons, List.foldl_nil]
    by_cases hnpu : npuId = (entryPair A e).1
    · -- the last entry's pair is the one in the table
      subst hnpu
      rw [addEntry_eq, AList.lookup_insert, Option.some.injEq]
      constructor
      · intro h
        exact ⟨e, stays_append_iff.mpr (Or.inl rfl), by rw [← h]⟩
      · intro h
        obtain ⟨d, hd, hpair⟩ := h
        rcases stays_append_iff.mp hd with rfl | ⟨-, hne⟩
        · rw [hpair]
        · exact absurd (by rw [hpair]) hne
    · rw [addEntry_eq, AList.lookup_insert_ne hnpu, ih]
      refine exists_congr fun d => and_congr_left fun hpair => ?_
      have hne : (entryPair A e).1 ≠ (entryPair A d).1 := by
        rw [hpair]
        exact Ne.symm hnpu
      rw [stays_append_iff, and_iff_left hne]
      refine ⟨Or.inr, fun h => h.resolve_left fun heq => hne (by rw [heq])⟩

/-- For any object and any table before: every pair comes from an entry that carries it,
    and a decoder that fails changes nothing, exactly when each entry that no later one
    replaces has both attributes, or falls back on a pair that another entry carries. -/
theorem invents_nothing_iff (table : NdiObjIdTable) (cpsObj : A.Obj) (attrIdList : List AttrId) :
    InventsNothing A table cpsObj attrIdList ↔
      ∀ a, A.it cpsObj attrIdList = some a → ∀ e, Stays A (A.inside a) e →
        Complete A e ∨ ∃ e' ∈ A.inside a, Carries A e' (entryPair A e).1 (entryPair A e).2 := by
  cases hit : A.it cpsObj attrIdList with
  | none =>
    have hres : unserialize A table cpsObj attrIdList = (false, table) := by unfold unserialize; rw [hit]
    refine iff_of_true ⟨fun h => ?_, fun _ => by rw [hres]⟩ fun a ha => by cases ha
    rw [hres] at h
    cases h
  | some a =>
    have hres : unserialize A table cpsObj attrIdList = (true, (A.inside a).foldl (addEntry A) ∅) := by
      unfold unserialize
      rw [hit]
    constructor
    · intro h b hb e he
      cases hb
      obtain ⟨b, hb, e', he', hcarries⟩ := h.carried (by rw [hres]) _ _
        (by rw [hres]; exact (lookup_decoded_iff _ _ _).mpr ⟨e, he, rfl⟩)
      rw [hit] at hb
      cases hb
      exact Or.inr ⟨e', he', hcarries⟩
    · intro h
      refine ⟨fun _ npuId ndiObjId hlookup => ?_, fun hf => by rw [hres] at hf; cases hf⟩
      rw [hres] at hlookup
      obtain ⟨e, he, hpair⟩ := (lookup_decoded_iff _ _ _).mp hlookup
      have hcarried := h a rfl e he
      rw [hpair] at hcarried
      refine ⟨a, hit, ?_⟩
      rcases hcarried with hcomplete | hother
      · have hmem : e ∈ A.inside a := by
          obtain ⟨before, after, hl, -⟩ := he
          rw [hl]
          simp
        have hcarries := hcomplete.carries
        rw [hpair] at hcarries
        exact ⟨e, hmem, hcarries⟩
      · exact hother

/-- A list of one entry, which has an NDI object and no NPU. -/
def ndiAlone : List CpsAttr := [.container 5 [.container 1 [.leaf opaqueNdiObjAttrId (.u64 7)]]]

/-- It is decoded as NPU 0's. -/
theorem npu_0_invented :
    (unserialize appendApi ∅ ndiAlone [5]).1 = true ∧ (unserialize appendApi ∅ ndiAlone [5]).2.lookup 0 = some 7 ∧
      ¬ InventsNothing appendApi ∅ ndiAlone [5] := by
  have hlookup : (unserialize appendApi ∅ ndiAlone [5]).2.lookup 0 = some 7 := by decide
  refine ⟨by decide, hlookup, fun h => ?_⟩
  obtain ⟨a, ha, e, he, ⟨b, hb, hid, -⟩, -⟩ := h.carried (by decide) 0 7 hlookup
  cases ha
  cases List.mem_singleton.mp he
  cases List.mem_singleton.mp hb
  exact absurd hid (by decide)

end NasCommon.NdiTable
