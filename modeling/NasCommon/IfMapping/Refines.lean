/-
  NasCommon.IfMapping.Refines — the registry as a set of interfaces.

  What the registry is for: a set of interfaces, each with its description, found by any
  of their keys. `Store` is that set and nothing else: no pointer, no index, no buffer.
  `abs` reads it off a registry, and a client's call, its answer without pointers, is
  the store's (`call_refines`), where the calls keep the owners of the descriptions
  (`KeepsOwners`).
  - `registry_refines`: every answer of such a run is the store's, and the maps that it
    leaves are the store's set.
  - `answers_same`: which addresses the allocator returned is never seen: from the same
    interfaces and ifindexes two runs of the same calls, in which the same allocations
    succeed, give the same answers.
-/

import NasCommon.IfMapping.Descs
import NasCommon.IfMapping.Walk
import NasCommon.Lib.Refinement

namespace NasCommon.IfMapping

open HeapValues
open Registry

/-! ## The store -/

/-- An interface as a client knows it: its fields but for the pointer, and its description. -/
@[ext] structure Entry where
  fields : InterfaceCtrl
  text : Option CString

structure Store where
  entries : Set Entry
  ifIndexes : OrdSet HalIfindex

def Store.empty : Store := ⟨∅, .empty⟩

inductive Answer where
  | code (rc : StdError)
  | info (e : Entry)
  | ifindex (n : NextIfindex)

inductive StoreCall where
  | register (detail : InterfaceCtrl) (memory : Bool)
  | deregister (detail : InterfaceCtrl)
  | updateIntfMac (ifx : HalIfindex) (mac : CString)
  | updateRouterIntfInfo (vrfId : HalVrfId) (ifx : HalIfindex) (info : L3IntfInfo)
  | updateIntfDesc (q : InterfaceCtrl) (desc : CString) (memory : Bool)
  | getInterfaceInfo (q : InterfaceCtrl)
  | getNextIfindex (ifindex : Option HalIfindex)

namespace Store

open Classical in
/-- The interface with the key that is asked for. -/
noncomputable def find (S : Store) (t : IntfInfo) (q : InterfaceCtrl) : Option Entry :=
  if h : ∃ e, e ∈ S.entries ∧ Finds t q e.fields then some h.choose else none

/-- It may be added: it has a key, and no interface has one of its keys. -/
def Free (S : Store) (detail : InterfaceCtrl) : Prop :=
  (∃ t, hasKey t detail = true) ∧ ∀ t, ∀ e ∈ S.entries, ¬ Finds t detail e.fields

open Classical in
noncomputable def register (S : Store) (detail : InterfaceCtrl) (memory : Bool) : StdError × Store :=
  if memory = true ∧ S.Free detail then
    (.ok, { entries := insert ⟨{ detail with desc := none }, none⟩ S.entries,
            ifIndexes := if detail.vrfId = 0 then S.ifIndexes.insert detail.ifIndex else S.ifIndexes })
  else (errParam, S)

noncomputable def deregister (S : Store) (detail : InterfaceCtrl) : StdError × Store :=
  match allQueriesT.findSome? fun t => S.find t detail with
  | none => (.ok, S)
  | some e =>
    (.ok, { entries := S.entries \ {e},
            ifIndexes := if detail.vrfId = 0 then S.ifIndexes.erase e.fields.ifIndex else S.ifIndexes })

/-- The interface that is found is changed. -/
noncomputable def change (S : Store) (q : InterfaceCtrl) (f : Entry → Entry) : StdError × Store :=
  match S.find q.qType q with
  | none => (errParam, S)
  | some e => (.ok, { S with entries := insert (f e) (S.entries \ {e}) })

noncomputable def updateIntfDesc (S : Store) (q : InterfaceCtrl) (desc : CString) (memory : Bool) : StdError × Store :=
  if maxIntfDescLen < desc.length then (errParam, S)
  else if clearsDesc desc then S.change q fun e => ⟨e.fields, none⟩
  else if memory then S.change q fun e => ⟨e.fields, some desc⟩
  else (errParam, S)

noncomputable def step (S : Store) : StoreCall → Answer × Store
  | .register detail memory => let r := S.register detail memory; (.code r.1, r.2)
  | .deregister detail => let r := S.deregister detail; (.code r.1, r.2)
  | .updateIntfMac ifx mac =>
    let r := S.change { InterfaceCtrl.zero with ifIndex := ifx, qType := .fromIf } fun e =>
      ⟨{ e.fields with macAddr := mac.take (macStrSz - 1) }, e.text⟩
    (.code r.1, r.2)
  | .updateRouterIntfInfo vrfId ifx info =>
    let r := S.change { InterfaceCtrl.zero with vrfId := vrfId, ifIndex := ifx, qType := .fromIf } fun e =>
      ⟨{ e.fields with l3IntfInfo := info }, e.text⟩
    (.code r.1, r.2)
  | .updateIntfDesc q desc memory => let r := S.updateIntfDesc q desc memory; (.code r.1, r.2)
  | .getInterfaceInfo q =>
    (match S.find q.qType (asked q) with
      | none => .code errParam
      | some e => .info e, S)
  | .getNextIfindex ifindex =>
    (.ifindex (match S.ifIndexes.next ifindex with
      | some i => .ok i
      | none => if ifindex = none then .readsEnd else .err errParam), S)

end Store

/-! ## The registry, as its clients see it -/

inductive Call where
  | op (op : Op)
  | getInterfaceInfo (q : InterfaceCtrl)
  | getNextIfindex (ifindex : Option HalIfindex)

/-- A record, its description read through the pointer. -/
def entryOf (descs : DescPtr → Option CString) (r : InterfaceCtrl) : Entry :=
  ⟨{ r with desc := none }, r.desc.bind descs⟩

def callStep (s : Registry) : Call → Answer × Registry
  | .op op => let r := step s op; (.code r.1, r.2)
  | .getInterfaceInfo q =>
    let r := dnHalGetInterfaceInfo q s
    (if r.1 = .ok then .info (entryOf r.2.2.descs r.2.1) else .code r.1, r.2.2)
  | .getNextIfindex ifindex => (.ifindex (dnHalGetNextIfindex ifindex s), s)

def Registry.abs (s : Registry) : Store := ⟨values s.heap (entryOf s.descs), s.ifIndexes⟩

/-- Whether `new` finds memory, for the record or for the description. -/
def memoryFound (s : Registry) : Op → Bool
  | .register _ _ mem => (mem.filter fun p => (s.heap p).isNone).isSome
  | .updateIntfDesc q _ mem =>
    match (s.locate q.qType q).bind s.heap with
    | none => false
    | some r => (mem.filter fun d => ((s.deleteDesc r.desc).descs d).isNone).isSome
  | _ => false

/-- A call without its addresses. -/
def storeCall (s : Registry) : Call → StoreCall
  | .op (.register .reg detail mem) => .register detail (memoryFound s (.register .reg detail mem))
  | .op (.register .dereg detail _) => .deregister detail
  | .op (.updateIntfMac ifx mac) => .updateIntfMac ifx mac
  | .op (.updateRouterIntfInfo vrfId ifx info) => .updateRouterIntfInfo vrfId ifx info
  | .op (.updateIntfDesc q desc mem) => .updateIntfDesc q desc (memoryFound s (.updateIntfDesc q desc mem))
  | .getInterfaceInfo q => .getInterfaceInfo q
  | .getNextIfindex ifindex => .getNextIfindex ifindex

/-! ## Finding an interface -/

theorem Inv.find_none {s : Registry} (hi : Inv s) {t : IntfInfo} {q : InterfaceCtrl} (h : s.locate t q = none) :
    s.abs.find t q = none := by
  refine dif_neg fun ⟨e, ⟨p, r, hp, he⟩, hf⟩ => ?_
  subst he
  rw [hi.locate_iff.mpr ⟨r, hp, hf⟩] at h
  cases h

theorem Inv.find_some {s : Registry} (hi : Inv s) {t : IntfInfo} {q : InterfaceCtrl} {p : Ptr} {r : InterfaceCtrl}
    (h : s.locate t q = some p) (hp : s.heap p = some r) : s.abs.find t q = some (entryOf s.descs r) := by
  obtain ⟨r', hp', hf⟩ := hi.locate_iff.mp h
  rw [hp] at hp'
  cases hp'
  have hex : ∃ e, e ∈ s.abs.entries ∧ Finds t q e.fields := ⟨entryOf s.descs r, mem_values hp, hf⟩
  obtain ⟨⟨p', r', hp', he⟩, hf'⟩ := hex.choose_spec
  rw [Store.find, dif_pos hex, Option.some.injEq, ← he]
  -- what was chosen is at the pointer that is located
  rw [← he] at hf'
  rw [hi.locate_iff.mpr ⟨r', hp', hf'⟩] at h
  cases h
  rw [hp] at hp'
  cases hp'
  rfl

/-- A record with a key is the only one with its fields. -/
theorem Inv.alone {s : Registry} (hi : Inv s) {t : IntfInfo} {p : Ptr} {r : InterfaceCtrl} (hp : s.heap p = some r)
    (hk : hasKey t r = true) : Alone s.heap (entryOf s.descs) p r := by
  intro q r' hq he
  have hfields : ({ r' with desc := none } : InterfaceCtrl) = { r with desc := none } := congrArg Entry.fields he
  have hown : Finds t r r := finds_iff.mpr ⟨hk, hk, by split <;> rfl⟩
  have hf : Finds t r (entryOf s.descs r').fields := by
    show Finds t r { r' with desc := none }
    rw [hfields]
    exact hown
  have h1 := hi.locate_iff.mpr ⟨r', hq, hf⟩
  rw [hi.locate_own hp hk] at h1
  cases h1
  rfl

theorem Inv.alone_of_locate {s : Registry} (hi : Inv s) {t : IntfInfo} {q : InterfaceCtrl} {p : Ptr} {r : InterfaceCtrl}
    (h : s.locate t q = some p) (hp : s.heap p = some r) : Alone s.heap (entryOf s.descs) p r := by
  obtain ⟨r', hp', hf⟩ := hi.locate_iff.mp h
  rw [hp] at hp'
  cases hp'
  exact hi.alone hp (finds_iff.mp hf).2.1

/-! ## The descriptions of the others -/

/-- Deleting one record's buffer leaves what the others say. -/
theorem OneOwner.entryOf_deleteDesc {s : Registry} (ho : OneOwner s) (hi : Inv s) {p q : Ptr} {r r' : InterfaceCtrl}
    (hp : s.heap p = some r) (hq : s.heap q = some r') (hne : q ≠ p) :
    entryOf (s.deleteDesc r.desc).descs r' = entryOf s.descs r' := by
  refine Entry.ext rfl ?_
  show r'.desc.bind (s.deleteDesc r.desc).descs = r'.desc.bind s.descs
  cases hd : r.desc with
  | none => rfl
  | some d =>
    cases hd' : r'.desc with
    | none => rfl
    | some d' =>
      have hdiff : d' ≠ d := by
        intro he
        rcases ho.owned p r (hi.live.mpr hp) with hnone | ⟨e, hde, -, hone⟩
        · rw [hnone] at hd
          cases hd
        · rw [hd] at hde
          cases hde
          exact hne (hone q r' (hi.live.mpr hq) (he ▸ hd'))
      show Function.update s.descs d none d' = s.descs d'
      exact Function.update_of_ne hdiff _ _

/-- A new buffer is no other record's. -/
theorem OneOwner.entryOf_newDesc {s : Registry} (ho : OneOwner s) (hi : Inv s) {p q : Ptr} {r r' : InterfaceCtrl}
    {d : DescPtr} (text : CString) (hp : s.heap p = some r) (hq : s.heap q = some r') (hne : q ≠ p)
    (hfresh : (s.deleteDesc r.desc).descs d = none) :
    entryOf (Function.update (s.deleteDesc r.desc).descs d (some text)) r' = entryOf s.descs r' := by
  rw [← ho.entryOf_deleteDesc hi hp hq hne]
  refine Entry.ext rfl ?_
  show r'.desc.bind (Function.update _ _ _) = r'.desc.bind _
  cases hd' : r'.desc with
  | none => rfl
  | some d' =>
    have hdiff : d' ≠ d := by
      intro he
      -- the other's buffer is live, and still so once the old one is deleted
      have hsame := congrArg Entry.text (ho.entryOf_deleteDesc hi hp hq hne)
      rcases ho.owned q r' (hi.live.mpr hq) with hnone | ⟨e, hde, hlive, -⟩
      · rw [hnone] at hd'
        cases hd'
      · rw [hd'] at hde
        cases hde
        have hsame : (s.deleteDesc r.desc).descs d' = s.descs d' := by simpa [entryOf, hd'] using hsame
        rw [← hsame, he, hfresh] at hlive
        cases hlive
    exact Function.update_of_ne hdiff _ _

/-! ## Each call -/

/-- What a call of the registry comes to is what one of the store does. -/
def Matches (r : StdError × Registry) (R : StdError × Store) : Prop := r.1 = R.1 ∧ r.2.abs = R.2

theorem memoryFound_register {s : Registry} {regOpt : HalIntfRegOpType} {detail : InterfaceCtrl} {mem : Option Ptr} :
    memoryFound s (.register regOpt detail mem) = true ↔ FindsMemory s mem := by
  show (mem.filter fun p => (s.heap p).isNone).isSome = true ↔ _
  cases mem with
  | none => exact iff_of_false (by simp) fun ⟨p, hp, _⟩ => by cases hp
  | some p =>
    cases hp : s.heap p with
    | none => exact iff_of_true (by simp [Option.filter, hp]) ⟨p, rfl, hp⟩
    | some r =>
      refine iff_of_false (by simp [Option.filter, hp]) fun ⟨p', he, hp'⟩ => ?_
      cases he
      rw [hp] at hp'
      cases hp'

theorem free_iff {s : Registry} (hi : Inv s) (detail : InterfaceCtrl) : s.abs.Free detail ↔ MayRegister s detail := by
  rw [mayRegister_iff hi, any_hasKey]
  refine and_congr_right fun _ => ?_
  have hnone : ∀ t, (∀ e ∈ s.abs.entries, ¬ Finds t detail e.fields) ↔ s.locate t detail = none := by
    intro t
    rw [Option.eq_none_iff_forall_ne_some]
    simp only [ne_eq, hi.locate_iff]
    refine ⟨fun h p ⟨r, hp, hf⟩ => h _ (mem_values hp) hf, fun h e ⟨p, r, hp, he⟩ hf => ?_⟩
    subst he
    exact h p ⟨r, hp, hf⟩
  refine ⟨fun h t _ => (hnone t).mp (h t), fun h t => (hnone t).mpr ?_⟩
  by_cases ht : t ∈ allQueriesT
  · exact h t ht
  · rw [mem_allQueriesT, not_not] at ht
    subst ht
    rfl

theorem register_matches {s : Registry} (hi : Inv s) {detail : InterfaceCtrl} {mem : Option Ptr}
    (hkeeps : KeepsOwners s (.register .reg detail mem)) :
    Matches (dnHalIfRegister .reg detail mem s)
      (s.abs.register detail (memoryFound s (.register .reg detail mem))) := by
  obtain ⟨hok, -⟩ := register_ok_iff hi detail mem
  have hcond : (memoryFound s (.register .reg detail mem) = true ∧ s.abs.Free detail) ↔
      (FindsMemory s mem ∧ MayRegister s detail) := and_congr memoryFound_register (free_iff hi detail)
  rcases register_cases hi detail mem with hrefused | ⟨p, hm, hfree, -, hkey, hdone⟩
  · have hno : ¬ (memoryFound s (.register .reg detail mem) = true ∧ s.abs.Free detail) := by
      rw [hcond, ← hok, hrefused]
      simp [errParam]
    rw [hrefused, Store.register, if_neg hno]
    exact ⟨rfl, rfl⟩
  · have hboth : FindsMemory s mem ∧ MayRegister s detail := hok.mp (by rw [hdone])
    have hdesc : detail.desc = none := hkeeps hboth.1 hboth.2
    rw [hdone, Store.register, if_pos (hcond.mpr hboth)]
    refine ⟨rfl, ?_⟩
    rw [addAll_spec]
    have hentry : entryOf s.descs detail = ⟨{ detail with desc := none }, none⟩ := by
      rw [entryOf, hdesc]
      rfl
    show Store.mk (values (Function.update s.heap p (some detail)) (entryOf s.descs)) _ = _
    rw [values_insert hfree, hentry]
    simp only [hkey, true_and]
    rfl

theorem findSome_abs {s : Registry} (hi : Inv s) (q : InterfaceCtrl) : ∀ ts : List IntfInfo,
    (ts.findSome? fun t => s.abs.find t q) =
      (ts.findSome? fun t => s.locate t q).bind fun p => (s.heap p).map (entryOf s.descs) := by
  intro ts
  induction ts with
  | nil => rfl
  | cons t ts ih =>
    cases hl : s.locate t q with
    | none => simp only [List.findSome?_cons, hi.find_none hl, hl, ih]
    | some p =>
      obtain ⟨r, hp⟩ := hi.locate_live hl
      simp only [List.findSome?_cons, hi.find_some hl hp, hl, Option.bind_some, hp, Option.map_some]

theorem deregister_matches {s : Registry} (hi : Inv s) (ho : OneOwner s) (detail : InterfaceCtrl) (mem : Option Ptr) :
    Matches (dnHalIfRegister .dereg detail mem s) (s.abs.deregister detail) := by
  have hfind := findSome_abs hi detail allQueriesT
  cases hl : s.locateAny detail with
  | none =>
    have hnone : (allQueriesT.findSome? fun t => s.abs.find t detail) = none := by
      rw [hfind]
      show (s.locateAny detail).bind _ = none
      rw [hl]
      rfl
    refine ⟨?_, ?_⟩ <;> simp [dnHalIfRegister, Registry.cleanup, hl, Store.deregister, hnone]
  | some p =>
    obtain ⟨t, -, ht⟩ := List.exists_of_findSome?_eq_some hl
    obtain ⟨r, hp⟩ := hi.locate_live ht
    have hsome : (allQueriesT.findSome? fun t => s.abs.find t detail) = some (entryOf s.descs r) := by
      rw [hfind]
      show (s.locateAny detail).bind _ = _
      rw [hl, Option.bind_some, hp]
      rfl
    have hcleanup : dnHalIfRegister .dereg detail mem s = (.ok, s.cleanupAt detail p r) := by
      simp [dnHalIfRegister, Registry.cleanup, hl, hp]
    obtain ⟨hheap, -, -, -, hidx⟩ := cleanupAt_spec s detail p r
    have hdescs := (cleanupAt_descs s detail p r).1
    rw [hcleanup, Store.deregister, hsome]
    refine ⟨rfl, ?_⟩
    show Store.mk (values (s.cleanupAt detail p r).heap (entryOf (s.cleanupAt detail p r).descs))
      (s.cleanupAt detail p r).ifIndexes = _
    rw [hheap, hdescs, hidx, values_erase hp (hi.alone_of_locate ht hp) fun q r' hne hq =>
      ho.entryOf_deleteDesc hi hp hq hne]
    rfl

/-- An update of the record that is located is one of the interface that is found. -/
theorem updateLocated_matches {s : Registry} (hi : Inv s) {q : InterfaceCtrl}
    {change : Ptr → InterfaceCtrl → Registry → StdError × Registry} {f : Entry → Entry}
    (hchange : ∀ p r, s.locate q.qType q = some p → s.heap p = some r →
      ∃ r' : InterfaceCtrl, (change p r s).1 = .ok ∧ (change p r s).2.heap = Function.update s.heap p (some r') ∧
        (change p r s).2.ifIndexes = s.ifIndexes ∧ entryOf (change p r s).2.descs r' = f (entryOf s.descs r) ∧
        ∀ p' r', p' ≠ p → s.heap p' = some r' → entryOf (change p r s).2.descs r' = entryOf s.descs r') :
    Matches (updateLocated q change s) (s.abs.change q f) := by
  cases hl : s.locate q.qType q with
  | none =>
    unfold updateLocated Store.change
    rw [hl, hi.find_none hl]
    exact ⟨rfl, rfl⟩
  | some p =>
    obtain ⟨r, hp⟩ := hi.locate_live hl
    obtain ⟨r', hrc, hheap, hidx, hentry, hothers⟩ := hchange p r hl hp
    unfold updateLocated Store.change
    rw [hl, hi.find_some hl hp]
    simp only [hp]
    refine ⟨hrc, ?_⟩
    show Store.mk (values (change p r s).2.heap (entryOf (change p r s).2.descs)) (change p r s).2.ifIndexes = _
    rw [hheap, hidx, values_replace hp (hi.alone_of_locate hl hp) hothers, hentry]
    rfl

theorem updateIntfMac_matches {s : Registry} (hi : Inv s) (ifx : HalIfindex) (mac : CString) :
    Matches (dnHalUpdateIntfMac ifx mac s)
      (s.abs.change { InterfaceCtrl.zero with ifIndex := ifx, qType := .fromIf } fun e =>
        ⟨{ e.fields with macAddr := mac.take (macStrSz - 1) }, e.text⟩) := by
  -- the query's MAC is no part of what it asks for
  have hm : Matches (dnHalUpdateIntfMac ifx mac s)
      (s.abs.change { InterfaceCtrl.zero with
        ifIndex := ifx, qType := .fromIf, macAddr := safestrncpy [] mac macStrSz } fun e =>
        ⟨{ e.fields with macAddr := mac.take (macStrSz - 1) }, e.text⟩) := by
    refine updateLocated_matches hi fun p r _ _ => ⟨_, rfl, rfl, rfl, ?_, fun _ _ _ _ => rfl⟩
    simp [entryOf, safestrncpy, macStrSz]
  exact hm

theorem updateRouterIntfInfo_matches {s : Registry} (hi : Inv s) (vrfId : HalVrfId) (ifx : HalIfindex)
    (info : L3IntfInfo) :
    Matches (nasCmnUpdateRouterIntfInfo vrfId ifx info s)
      (s.abs.change { InterfaceCtrl.zero with vrfId := vrfId, ifIndex := ifx, qType := .fromIf } fun e =>
        ⟨{ e.fields with l3IntfInfo := info }, e.text⟩) :=
  updateLocated_matches hi fun _ _ _ _ => ⟨_, rfl, rfl, rfl, rfl, fun _ _ _ _ => rfl⟩

theorem memoryFound_updateIntfDesc {s : Registry} {q : InterfaceCtrl} {desc : CString} {mem : Option DescPtr} {p : Ptr}
    {r : InterfaceCtrl} (hl : s.locate q.qType q = some p) (hp : s.heap p = some r) :
    memoryFound s (.updateIntfDesc q desc mem) =
      (mem.filter fun d => ((s.deleteDesc r.desc).descs d).isNone).isSome := by
  simp only [memoryFound, hl, Option.bind_some, hp]

/-- The text of a new buffer is the whole of what was asked for. -/
theorem safestrncpy_whole (desc : CString) : safestrncpy [] desc (desc.length + 1) = desc :=
  safestrncpy_fits (Nat.lt_succ_self _)

theorem findsBuffer_of_filter {s : Registry} {r : InterfaceCtrl} {mem : Option DescPtr} {d : DescPtr}
    (h : mem.filter (fun d => ((s.deleteDesc r.desc).descs d).isNone) = some d) :
    (s.deleteDesc r.desc).descs d = none := by
  obtain ⟨-, hfree⟩ := Option.filter_eq_some_iff.mp h
  simpa using hfree

theorem updateIntfDesc_matches {s : Registry} (hi : Inv s) (ho : OneOwner s) {q : InterfaceCtrl} {desc : CString}
    {mem : Option DescPtr} (hkeeps : KeepsOwners s (.updateIntfDesc q desc mem)) :
    Matches (dnHalUpdateIntfDesc q desc mem s)
      (s.abs.updateIntfDesc q desc (memoryFound s (.updateIntfDesc q desc mem))) := by
  unfold dnHalUpdateIntfDesc Store.updateIntfDesc
  by_cases hlen : maxIntfDescLen < desc.length
  · rw [if_pos hlen, if_pos hlen]
    exact ⟨rfl, rfl⟩
  rw [if_neg hlen, if_neg hlen]
  cases hclears : clearsDesc desc with
  | true =>
    rw [if_pos rfl]
    simp only [if_true]
    refine updateLocated_matches hi fun p r _ hp => ⟨{ r with desc := none }, rfl, ?_, ?_, rfl, ?_⟩
    · simp only [deleteDesc_heap]
    · simp only [deleteDesc_ifIndexes]
    · exact fun p' r' hne hp' => ho.entryOf_deleteDesc hi hp hp' hne
  | false =>
    simp only [Bool.false_eq_true, if_false]
    cases hfound : memoryFound s (.updateIntfDesc q desc mem) with
    | true =>
      rw [if_pos rfl]
      refine updateLocated_matches hi fun p r hl hp => ?_
      rw [memoryFound_updateIntfDesc hl hp] at hfound
      obtain ⟨d, hmem⟩ := Option.isSome_iff_exists.mp hfound
      simp only [hmem, safestrncpy_whole]
      refine ⟨{ r with desc := some d }, trivial, ?_, ?_, ?_, ?_⟩
      · simp only [deleteDesc_heap]
      · simp only [deleteDesc_ifIndexes]
      · simp only [entryOf, Option.bind_some, Function.update_self]
      · exact fun p' r' hne hp' => ho.entryOf_newDesc hi desc hp hp' hne (findsBuffer_of_filter hmem)
    | false =>
      -- without memory the record has no description, so nothing is deleted
      simp only [Bool.false_eq_true, if_false]
      unfold updateLocated
      cases hl : s.locate q.qType q with
      | none => exact ⟨rfl, rfl⟩
      | some p =>
        obtain ⟨r, hp⟩ := hi.locate_live hl
        rw [memoryFound_updateIntfDesc hl hp] at hfound
        have hnone : r.desc = none := by
          by_contra hsome
          obtain ⟨d, hm, hd⟩ := hkeeps (Nat.not_lt.mp hlen) hclears p r hl (hi.live.mpr hp) hsome
          rw [hm] at hfound
          simp [Option.filter, hd] at hfound
        rw [Option.isSome_eq_false_iff, Option.isNone_iff_eq_none, hnone] at hfound
        simp only [hp, hnone, hfound]
        exact ⟨rfl, rfl⟩

theorem getInterfaceInfo_matches {s : Registry} (hi : Inv s) (q : InterfaceCtrl) :
    callStep s (.getInterfaceInfo q) = ((match s.abs.find q.qType (asked q) with
      | none => .code errParam
      | some e => .info e), s) := by
  have hq : (asked q).qType = q.qType := by
    unfold asked
    split <;> rfl
  cases hl : s.locate q.qType (asked q) with
  | none =>
    simp only [callStep, dnHalGetInterfaceInfo_none (hq.symm ▸ hl), hi.find_none hl]
    simp [errParam]
  | some p =>
    obtain ⟨r, hp⟩ := hi.locate_live hl
    simp only [callStep, dnHalGetInterfaceInfo_some (hq.symm ▸ hl) hp, hi.find_some hl hp, if_true]

theorem getNextIfindex_eq (s : Registry) (ifindex : Option HalIfindex) :
    dnHalGetNextIfindex ifindex s = match s.ifIndexes.next ifindex with
      | some i => .ok i
      | none => if ifindex = none then .readsEnd else .err errParam := by
  cases ifindex with
  | none => cases h : s.ifIndexes.first <;> simp [dnHalGetNextIfindex, OrdSet.next, h]
  | some i => cases h : s.ifIndexes.upperBound i <;> simp [dnHalGetNextIfindex, OrdSet.next, h]

/-! ## Runs -/

/-- The condition on the calls that change the registry. -/
def OnOps (C : Registry → Op → Prop) (s : Registry) : Call → Prop
  | .op op => C s op
  | _ => True

structure Owned (s : Registry) : Prop where
  inv : Inv s
  owner : OneOwner s
  covered : (owners s).Covered

theorem empty_owned : Owned Registry.empty := ⟨empty_inv, empty_oneOwner, empty_covered⟩

theorem callStep_owned (s : Registry) (c : Call) (h : Owned s) (hkeeps : OnOps KeepsOwners s c) :
    Owned (callStep s c).2 := by
  cases c with
  | op op =>
    exact ⟨step_inv s op h.inv, (oneOwner_step_iff h.inv h.owner h.covered op).mpr hkeeps,
      covered_step h.inv h.covered op⟩
  | getInterfaceInfo q =>
    rw [getInterfaceInfo_matches h.inv]
    exact h
  | getNextIfindex ifindex => exact h

theorem call_refines (s : Registry) (c : Call) (h : Owned s) (hkeeps : OnOps KeepsOwners s c) :
    Runs.StepRefines callStep Store.step Registry.abs storeCall s c := by
  have hcode : ∀ {r : StdError × Registry} {R : StdError × Store}, Matches r R →
      Answer.code r.1 = Answer.code R.1 ∧ r.2.abs = R.2 := fun hm => ⟨congrArg _ hm.1, hm.2⟩
  cases c with
  | op op =>
    cases op with
    | register regOpt detail mem =>
      cases regOpt with
      | reg => exact hcode (register_matches h.inv hkeeps)
      | dereg => exact hcode (deregister_matches h.inv h.owner detail mem)
    | updateIntfMac ifx mac => exact hcode (updateIntfMac_matches h.inv ifx mac)
    | updateRouterIntfInfo vrfId ifx info => exact hcode (updateRouterIntfInfo_matches h.inv vrfId ifx info)
    | updateIntfDesc q desc mem => exact hcode (updateIntfDesc_matches h.inv h.owner hkeeps)
  | getInterfaceInfo q =>
    unfold Runs.StepRefines
    rw [getInterfaceInfo_matches h.inv]
    exact ⟨rfl, rfl⟩
  | getNextIfindex ifindex => exact ⟨congrArg Answer.ifindex (getNextIfindex_eq s ifindex), rfl⟩

theorem empty_abs : Registry.empty.abs = Store.empty := by
  show Store.mk _ _ = Store.mk _ _
  congr 1
  ext e
  exact iff_of_false (fun ⟨p, r, hp, _⟩ => by cases hp) (Set.notMem_empty e)

/-! ## The maps are the set -/

/-- Each interface of the set is one record that is live, and the other way round; the
    indexes have exactly the interfaces' keys and names, at their records. -/
structure Represents (s : Registry) (S : Store) : Prop where
  entries : ∀ e, e ∈ S.entries ↔ ∃! p, ∃ r, Live s p r ∧ entryOf s.descs r = e
  records : ∀ p, p ∈ s.ifRecords ↔ ∃ r, s.heap p = some r ∧ entryOf s.descs r ∈ S.entries
  mappings : ∀ t k p, s.ifMappings t k = some p ↔
    ∃ r, Live s p r ∧ entryOf s.descs r ∈ S.entries ∧ keyOf t (entryOf s.descs r).fields = some k
  names : ∀ name p, s.ifNameMap name = some p ↔
    ∃ r, Live s p r ∧ entryOf s.descs r ∈ S.entries ∧ nameOf (entryOf s.descs r).fields = some name
  ifIndexes : s.ifIndexes = S.ifIndexes

/-- Every record has a key. -/
def Keyed (s : Registry) : Prop := ∀ p r, s.heap p = some r → ∃ t, hasKey t r = true

theorem hasKey_updated (t : IntfInfo) (r : InterfaceCtrl) (mac : CString) (desc : Option DescPtr) (l3 : L3IntfInfo) :
    hasKey t { r with macAddr := mac, desc := desc, l3IntfInfo := l3 } = hasKey t r := by
  cases t <;> rfl

/-- The heap is changed at one pointer. -/
theorem Keyed.update {s s' : Registry} (hk : Keyed s) {p : Ptr} {x : Option InterfaceCtrl}
    (hheap : s'.heap = Function.update s.heap p x) (hx : ∀ r, x = some r → ∃ t, hasKey t r = true) : Keyed s' := by
  intro q r hq
  rw [hheap] at hq
  by_cases e : q = p
  · rw [e, Function.update_self] at hq
    exact hx r hq
  · rw [Function.update_of_ne e] at hq
    exact hk q r hq

theorem Updated.keyed {s s' : Registry} (h : Updated s s') (hk : Keyed s) : Keyed s' := by
  rcases h.heap with hheap | ⟨p, r, mac, desc, l3, hp, hheap⟩
  · exact fun q r' hq => hk q r' (hheap ▸ hq)
  · refine hk.update hheap fun r' hr' => ?_
    cases hr'
    exact (hk p r hp).imp fun t ht => (hasKey_updated t r mac desc l3).trans ht

theorem register_keyed {s : Registry} (hi : Inv s) (hk : Keyed s) (regOpt : HalIntfRegOpType) (detail : InterfaceCtrl)
    (mem : Option Ptr) : Keyed (dnHalIfRegister regOpt detail mem s).2 := by
  cases regOpt with
  | reg =>
    rcases register_cases hi detail mem with h | ⟨p, -, -, -, hkey, h⟩
    · rw [h]
      exact hk
    · rw [h, addAll_spec]
      refine @Keyed.update s _ hk p (some detail) rfl fun r hr => ?_
      cases hr
      exact any_hasKey.mp hkey
  | dereg =>
    show Keyed (s.cleanup detail)
    unfold Registry.cleanup
    split
    · exact hk
    · split
      · exact hk
      · exact hk.update (cleanupAt_spec s detail _ _).1 fun r hr => by cases hr

theorem callStep_keyed (s : Registry) (c : Call) (h : Inv s ∧ Keyed s) : Inv (callStep s c).2 ∧ Keyed (callStep s c).2 := by
  obtain ⟨hi, hk⟩ := h
  cases c with
  | op op =>
    refine ⟨step_inv s op hi, ?_⟩
    cases op with
    | register regOpt detail mem => exact register_keyed hi hk regOpt detail mem
    | updateIntfMac ifx mac => exact (updateIntfMac_updated s ifx mac).keyed hk
    | updateRouterIntfInfo vrfId ifx info => exact (updateRouterIntfInfo_updated s vrfId ifx info).keyed hk
    | updateIntfDesc q desc mem => exact (updateIntfDesc_updated s q desc mem).keyed hk
  | getInterfaceInfo q =>
    rw [getInterfaceInfo_matches hi]
    exact ⟨hi, hk⟩
  | getNextIfindex ifindex => exact ⟨hi, hk⟩

/-- In a coherent registry whose records have keys, the maps are the set that is read off
    the heap. -/
theorem Inv.represents {s : Registry} (hi : Inv s) (hk : Keyed s) : Represents s s.abs := by
  have hmem : ∀ {p r}, Live s p r → entryOf s.descs r ∈ s.abs.entries := fun hlive => mem_values hlive.2
  refine ⟨fun e => ⟨fun h => ?_, fun h => ?_⟩, fun p => ?_, fun t k p => ?_, fun name p => ?_, rfl⟩
  · obtain ⟨p, r, hp, rfl⟩ := h
    obtain ⟨t, ht⟩ := hk p r hp
    exact ⟨p, ⟨r, hi.live.mpr hp, rfl⟩, fun q hq => by
      obtain ⟨r', hlive, he⟩ := hq
      exact hi.alone hp ht q r' hlive.2 he⟩
  · obtain ⟨p, ⟨r, hlive, rfl⟩, -⟩ := h
    exact hmem hlive
  · rw [hi.records p, Option.isSome_iff_exists]
    exact exists_congr fun r => ⟨fun hp => ⟨hp, mem_values hp⟩, And.left⟩
  · rw [hi.keys t k p]
    exact exists_congr fun r => ⟨fun h => ⟨hi.live.mpr h.1, mem_values h.1, h.2⟩, fun h => ⟨h.1.2, h.2.2⟩⟩
  · rw [hi.names name p]
    exact exists_congr fun r => ⟨fun h => ⟨hi.live.mpr h.1, mem_values h.1, h.2⟩, fun h => ⟨h.1.2, h.2.2⟩⟩

/-- For every run of calls and queries that keep the owners of the descriptions: each
    answer is that of the set of interfaces, and the maps that it leaves are the set. -/
theorem registry_refines (calls : List Call) (hkeeps : Runs.Steps callStep (OnOps KeepsOwners) Registry.empty calls) :
    let acalls := Runs.labels callStep storeCall Registry.empty calls
    Runs.answers callStep Registry.empty calls = Runs.answers Store.step Store.empty acalls ∧
      Represents (Runs.final callStep Registry.empty calls) (Runs.final Store.step Store.empty acalls) := by
  have h := Runs.refines callStep_owned call_refines calls Registry.empty empty_owned hkeeps
  obtain ⟨hi, hk⟩ := Runs.final_invariant callStep_keyed calls Registry.empty ⟨empty_inv, fun p r hp => by cases hp⟩
  rw [empty_abs] at h
  exact ⟨h.1, h.2 ▸ hi.represents hk⟩

/-- An interface is registered, described, asked for and deregistered; the allocator
    returns the pointers `p` and `d`. -/
def described (p : Ptr) (d : DescPtr) : List Call :=
  [.op (.register .reg eth0 (some p)), .op (.updateIntfDesc (queryBy .fromIfName eth0) ['u', 'p'] (some d)),
   .getInterfaceInfo (queryBy .fromIfName eth0), .getNextIfindex none, .op (.register .dereg eth0 none)]

theorem deleteDesc_free {s : Registry} {d : DescPtr} (h : s.descs d = none) (x : Option DescPtr) :
    (s.deleteDesc x).descs d = none := by
  cases x with
  | none => exact h
  | some e =>
    show Function.update s.descs e none d = none
    by_cases hd : d = e
    · rw [hd, Function.update_self]
    · rwa [Function.update_of_ne hd]

theorem described_keeps (p : Ptr) (d : DescPtr) :
    Runs.Steps callStep (OnOps KeepsOwners) Registry.empty (described p d) :=
  ⟨fun _ _ => rfl, fun _ _ _ _ _ _ _ => ⟨d, rfl, deleteDesc_free rfl _⟩, trivial, trivial, trivial, trivial⟩

theorem registry_refines_described :
    let acalls := Runs.labels callStep storeCall Registry.empty (described 0 0)
    Runs.answers callStep Registry.empty (described 0 0) = Runs.answers Store.step Store.empty acalls ∧
      Represents (Runs.final callStep Registry.empty (described 0 0)) (Runs.final Store.step Store.empty acalls) :=
  registry_refines (described 0 0) (described_keeps 0 0)

/-- Two histories that leave the same interfaces and the same ifindexes, in whatever order
    and at whatever addresses: further calls that differ in no more than the addresses
    give the same answers and leave the same. The ifindexes may differ over one set of
    interfaces: a deregistration that names another VRF leaves one behind. -/
theorem answers_same (hist hist' calls calls' : List Call)
    (hkeeps : Runs.Steps callStep (OnOps KeepsOwners) Registry.empty (hist ++ calls))
    (hkeeps' : Runs.Steps callStep (OnOps KeepsOwners) Registry.empty (hist' ++ calls'))
    (hset : (Runs.final callStep Registry.empty hist).abs = (Runs.final callStep Registry.empty hist').abs)
    (hcalls : Runs.labels callStep storeCall (Runs.final callStep Registry.empty hist) calls =
      Runs.labels callStep storeCall (Runs.final callStep Registry.empty hist') calls') :
    Runs.answers callStep (Runs.final callStep Registry.empty hist) calls =
        Runs.answers callStep (Runs.final callStep Registry.empty hist') calls' ∧
      (Runs.final callStep Registry.empty (hist ++ calls)).abs =
        (Runs.final callStep Registry.empty (hist' ++ calls')).abs := by
  obtain ⟨hh, hc⟩ := Runs.steps_append.mp hkeeps
  obtain ⟨hh', hc'⟩ := Runs.steps_append.mp hkeeps'
  have ho := Runs.final_of_steps callStep_owned hist Registry.empty empty_owned hh
  have ho' := Runs.final_of_steps callStep_owned hist' Registry.empty empty_owned hh'
  rw [Runs.final_append, Runs.final_append]
  exact Runs.refines_same callStep_owned call_refines ho ho' hc hc' hset hcalls

/-- Two interfaces, registered in either order. -/
def eth1 : InterfaceCtrl := { eth0 with ifName := ['e', 't', 'h', '1'], ifIndex := 6 }

def registered (a b : InterfaceCtrl) : List Call := [.op (.register .reg a (some 0)), .op (.register .reg b (some 1))]

theorem registered_abs : (Runs.final callStep Registry.empty (registered eth0 eth1)).abs =
    (Runs.final callStep Registry.empty (registered eth1 eth0)).abs := by
  have hfree : ∀ r : InterfaceCtrl, Function.update (fun _ : Ptr => (none : Option InterfaceCtrl)) 0 (some r) 1 = none :=
    fun r => Function.update_of_ne (by decide) _ _
  show Store.mk (values (Function.update (Function.update (fun _ => none) 0 (some eth0)) 1 (some eth1))
      (entryOf fun _ => none)) ((OrdSet.empty.insert 5).insert 6) =
    Store.mk (values (Function.update (Function.update (fun _ => none) 0 (some eth1)) 1 (some eth0))
      (entryOf fun _ => none)) ((OrdSet.empty.insert 6).insert 5)
  rw [values_insert (hfree eth0), values_insert (hfree eth1), values_insert rfl, values_insert rfl, Set.insert_comm,
    OrdSet.insert_comm]

theorem answers_same_registered :
    let ask : List Call := [.getInterfaceInfo (queryBy .fromIfName eth1), .getNextIfindex (some 5)]
    Runs.answers callStep (Runs.final callStep Registry.empty (registered eth0 eth1)) ask =
        Runs.answers callStep (Runs.final callStep Registry.empty (registered eth1 eth0)) ask ∧
      (Runs.final callStep Registry.empty (registered eth0 eth1 ++ ask)).abs =
        (Runs.final callStep Registry.empty (registered eth1 eth0 ++ ask)).abs := by
  intro ask
  have hasked : ∀ s, Runs.labels callStep storeCall s ask =
      [.getInterfaceInfo (queryBy .fromIfName eth1), .getNextIfindex (some 5)] := fun _ => rfl
  exact answers_same (registered eth0 eth1) (registered eth1 eth0) ask ask
    ⟨fun _ _ => rfl, fun _ _ => rfl, trivial, trivial, trivial⟩
    ⟨fun _ _ => rfl, fun _ _ => rfl, trivial, trivial, trivial⟩ registered_abs ((hasked _).trans (hasked _).symm)

end NasCommon.IfMapping
