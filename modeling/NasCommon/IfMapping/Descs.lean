/-
  NasCommon.IfMapping.Descs — who owns the description buffers.

  `dn_hal_update_intf_desc` allocates a record's buffer and deletes the one it had; a
  deregistration deletes it too. But a query copies a record whole into the caller's
  struct and a registration copies the struct whole into a record, the pointer with it,
  and an update deletes the old buffer before it knows that there is memory for a new.
  - `covered_step`: whatever is called, each live buffer is some live record's.
  - `descs_owned_iff`: along a run each live record owns its buffer alone, nothing is
    deleted twice and a failed update changes nothing, exactly when no struct that was
    filled with a description is registered and no update of one runs out of memory.
  - `filled_desc_dangles`: the documented way to change an interface's other fields.
-/

import NasCommon.IfMapping.Query
import NasCommon.IfMapping.Restore
import NasCommon.Lib.Owners

namespace NasCommon.IfMapping

open Registry

/-- The live records' buffers. -/
def owners (s : Registry) : Owners Ptr DescPtr CString where
  held p := (s.heap p).bind InterfaceCtrl.desc
  store := s.descs

structure OneOwner (s : Registry) : Prop where
  owned : ∀ p r, Live s p r → r.desc = none ∨ ∃ d, r.desc = some d ∧ (s.descs d).isSome = true ∧
    ∀ q r', Live s q r' → r'.desc = some d → q = p
  once : s.fault = false

theorem held_iff {s : Registry} (hi : Inv s) {p : Ptr} {d : DescPtr} :
    (owners s).held p = some d ↔ ∃ r, Live s p r ∧ r.desc = some d := by
  refine Option.bind_eq_some_iff.trans (exists_congr fun r => and_congr hi.live.symm Iff.rfl)

theorem oneOwner_iff {s : Registry} (hi : Inv s) : OneOwner s ↔ (owners s).Exclusive ∧ s.fault = false := by
  constructor
  · intro h
    refine ⟨fun p d hp => ?_, h.once⟩
    obtain ⟨r, hl, hd⟩ := (held_iff hi).mp hp
    rcases h.owned p r hl with hnone | ⟨e, he, hlive, hone⟩
    · rw [hnone] at hd
      cases hd
    · rw [hd] at he
      cases he
      refine ⟨hlive, fun q hq => ?_⟩
      obtain ⟨r', hl', hd'⟩ := (held_iff hi).mp hq
      exact hone q r' hl' hd'
  · intro h
    obtain ⟨hexcl, hfault⟩ := h
    refine ⟨fun p r hl => ?_, hfault⟩
    cases hd : r.desc with
    | none => exact Or.inl rfl
    | some d =>
      obtain ⟨hlive, hone⟩ := hexcl p d ((held_iff hi).mpr ⟨r, hl, hd⟩)
      exact Or.inr ⟨d, rfl, hlive, fun q r' hl' hd' => hone q ((held_iff hi).mpr ⟨r', hl', hd'⟩)⟩

/-! ## What a call does to the buffers -/

theorem held_of_heap {s : Registry} {p : Ptr} {r : InterfaceCtrl} (hp : s.heap p = some r) :
    (owners s).held p = r.desc := by
  show (s.heap p).bind InterfaceCtrl.desc = r.desc
  rw [hp]
  rfl

theorem held_update (heap : Ptr → Option InterfaceCtrl) (p : Ptr) (x : Option InterfaceCtrl) :
    (fun q => (Function.update heap p x q).bind InterfaceCtrl.desc) =
      Function.update (fun q => (heap q).bind InterfaceCtrl.desc) p (x.bind InterfaceCtrl.desc) := by
  funext q
  by_cases hq : q = p
  · subst hq
    rw [Function.update_self, Function.update_self]
  · rw [Function.update_of_ne hq, Function.update_of_ne hq]

theorem owners_of_heap {s s' : Registry} {p : Ptr} {x : Option InterfaceCtrl}
    (hheap : s'.heap = Function.update s.heap p x) (hdescs : s'.descs = s.descs) :
    owners s' = (owners s).put p (x.bind InterfaceCtrl.desc) := by
  unfold owners Owners.put
  rw [hheap, hdescs, held_update]

theorem owners_deleteDesc {s : Registry} {p : Ptr} {r : InterfaceCtrl} (hp : s.heap p = some r) :
    owners (s.deleteDesc r.desc) = (owners s).free p := by
  have hheld := held_of_heap hp
  cases hd : r.desc with
  | none =>
    rw [Owners.free_none (hheld.trans hd)]
    rfl
  | some d =>
    rw [Owners.free_some (hheld.trans hd)]
    rfl

theorem OneOwner.deleteDesc_fault {s : Registry} (h : OneOwner s) (hi : Inv s) {p : Ptr} {r : InterfaceCtrl}
    (hp : s.heap p = some r) : (s.deleteDesc r.desc).fault = false := by
  rcases h.owned p r (hi.live.mpr hp) with hnone | ⟨d, hd, hlive, -⟩
  · rw [hnone]
    exact h.once
  · rw [hd]
    show (s.fault || (s.descs d).isNone) = false
    rw [h.once]
    simpa using hlive

theorem cleanupAt_descs (s : Registry) (r : InterfaceCtrl) (p : Ptr) (_r : InterfaceCtrl) :
    (s.cleanupAt r p _r).descs = (s.deleteDesc _r.desc).descs ∧
      (s.cleanupAt r p _r).fault = (s.deleteDesc _r.desc).fault := by
  unfold Registry.cleanupAt
  rw [eraseKeys_spec]
  cases _r.desc with
  | none => constructor <;> (simp only; repeat' split) <;> rfl
  | some d => constructor <;> (simp only; repeat' split) <;> rfl

/-- A deregistration releases its record's buffer, where it finds one. -/
theorem cleanup_owners {s : Registry} (hi : Inv s) (detail : InterfaceCtrl) :
    s.cleanup detail = s ∨ ∃ p r, s.heap p = some r ∧ owners (s.cleanup detail) = (owners s).release p ∧
      (s.cleanup detail).fault = (s.deleteDesc r.desc).fault := by
  cases hloc : s.locateAny detail with
  | none => exact Or.inl (by simp only [Registry.cleanup, hloc])
  | some p =>
    obtain ⟨t, -, ht⟩ := List.exists_of_findSome?_eq_some hloc
    obtain ⟨r, hp⟩ := hi.locate_live ht
    have hcleanup : s.cleanup detail = s.cleanupAt detail p r := by simp only [Registry.cleanup, hloc, hp]
    obtain ⟨hdescs, hfault⟩ := cleanupAt_descs s detail p r
    rw [hcleanup]
    refine Or.inr ⟨p, r, hp, ?_, hfault⟩
    unfold Owners.release
    rw [← owners_deleteDesc hp]
    refine owners_of_heap (x := none) ?_ hdescs
    rw [(cleanupAt_spec s detail p r).1, deleteDesc_heap]

/-- A registration that is accepted hands its detail's buffer to the new record. -/
theorem register_owners {s : Registry} (hi : Inv s) (detail : InterfaceCtrl) (mem : Option Ptr) :
    ((dnHalIfRegister .reg detail mem s).2 = s ∧ ¬ (FindsMemory s mem ∧ MayRegister s detail)) ∨
      ∃ p, (owners s).held p = none ∧ owners (dnHalIfRegister .reg detail mem s).2 = (owners s).put p detail.desc ∧
        (dnHalIfRegister .reg detail mem s).2.fault = s.fault ∧ FindsMemory s mem ∧ MayRegister s detail := by
  obtain ⟨hok, -⟩ := register_ok_iff hi detail mem
  rcases register_cases hi detail mem with hrefused | ⟨p, -, hfree, -, -, hdone⟩
  · refine Or.inl ⟨by rw [hrefused], fun h => ?_⟩
    have := hok.mpr h
    rw [hrefused] at this
    cases this
  · refine Or.inr ⟨p, ?_, ?_, ?_, hok.mp (by rw [hdone])⟩
    · show (s.heap p).bind InterfaceCtrl.desc = none
      rw [hfree]
      rfl
    · rw [hdone, addAll_spec]
      exact owners_of_heap (x := some detail) rfl rfl
    · rw [hdone, addAll_spec]

/-- The MAC and router interface updates have no part in it. -/
theorem updateLocated_owners {s : Registry} (hi : Inv s) {q : InterfaceCtrl} {f : InterfaceCtrl → InterfaceCtrl}
    (hf : ∀ r, (f r).desc = r.desc) :
    let s' := (updateLocated q (fun p r s => (.ok, { s with heap := Function.update s.heap p (some (f r)) })) s).2
    owners s' = owners s ∧ s'.fault = s.fault := by
  unfold updateLocated
  cases hloc : s.locate q.qType q with
  | none => exact ⟨rfl, rfl⟩
  | some p =>
    obtain ⟨r, hp⟩ := hi.locate_live hloc
    have hput : owners { s with heap := Function.update s.heap p (some (f r)) } = (owners s).put p (f r).desc :=
      owners_of_heap (x := some (f r)) rfl rfl
    simp only [hp]
    refine ⟨hput.trans ?_, trivial⟩
    unfold Owners.put
    rw [hf, ← held_of_heap hp, Function.update_eq_self]

theorem updateIntfMac_owners {s : Registry} (hi : Inv s) (ifx : HalIfindex) (mac : CString) :
    owners (dnHalUpdateIntfMac ifx mac s).2 = owners s ∧ (dnHalUpdateIntfMac ifx mac s).2.fault = s.fault :=
  updateLocated_owners hi
    (f := fun r => { r with macAddr := safestrncpy r.macAddr (safestrncpy [] mac macStrSz) macStrSz }) fun _ => rfl

theorem updateRouterIntfInfo_owners {s : Registry} (hi : Inv s) (vrfId : HalVrfId) (ifx : HalIfindex)
    (info : L3IntfInfo) :
    owners (nasCmnUpdateRouterIntfInfo vrfId ifx info s).2 = owners s ∧
      (nasCmnUpdateRouterIntfInfo vrfId ifx info s).2.fault = s.fault :=
  updateLocated_owners hi (f := fun r => { r with l3IntfInfo := info }) fun _ => rfl

/-- `new char []` finds memory, the record's old buffer deleted. -/
def FindsBuffer (s : Registry) (r : InterfaceCtrl) (mem : Option DescPtr) : Prop :=
  ∃ d, mem = some d ∧ (s.deleteDesc r.desc).descs d = none

/-- A description's update: an error with nothing done, the buffer released, released and
    a new one acquired, or deleted under the record. -/
inductive DescUpdate (s : Registry) (q : InterfaceCtrl) (desc : CString) (mem : Option DescPtr) :
    StdError × Registry → Prop
  | refused (h : maxIntfDescLen < desc.length ∨ s.locate q.qType q = none) : DescUpdate s q desc mem (errParam, s)
  | cleared (p : Ptr) (r : InterfaceCtrl) (s' : Registry) (hp : s.heap p = some r) (hclears : clearsDesc desc = true)
      (howners : owners s' = (owners s).release p) (hfault : s'.fault = (s.deleteDesc r.desc).fault) :
      DescUpdate s q desc mem (.ok, s')
  | changed (p : Ptr) (r : InterfaceCtrl) (d : DescPtr) (text : CString) (s' : Registry)
      (hlocate : s.locate q.qType q = some p) (hp : s.heap p = some r) (hfinds : FindsBuffer s r mem)
      (hfresh : (s.deleteDesc r.desc).descs d = none) (howners : owners s' = ((owners s).release p).acquire p d text)
      (hfault : s'.fault = (s.deleteDesc r.desc).fault) : DescUpdate s q desc mem (.ok, s')
  | failed (p : Ptr) (r : InterfaceCtrl) (hlen : desc.length ≤ maxIntfDescLen) (hlocate : s.locate q.qType q = some p)
      (hp : s.heap p = some r) (hkeeps : clearsDesc desc = false) (hno : ¬ FindsBuffer s r mem) :
      DescUpdate s q desc mem (errParam, s.deleteDesc r.desc)

theorem updateIntfDesc_cases {s : Registry} (hi : Inv s) (q : InterfaceCtrl) (desc : CString) (mem : Option DescPtr) :
    DescUpdate s q desc mem (dnHalUpdateIntfDesc q desc mem s) := by
  unfold dnHalUpdateIntfDesc
  by_cases hlen : desc.length > maxIntfDescLen
  · rw [if_pos hlen]
    exact .refused (Or.inl hlen)
  rw [if_neg hlen]
  unfold updateLocated
  cases hloc : s.locate q.qType q with
  | none => exact .refused (Or.inr hloc)
  | some p =>
    obtain ⟨r, hp⟩ := hi.locate_live hloc
    simp only [hp]
    -- the record, once its buffer is deleted, is given another pointer
    have hput : ∀ (x : Option DescPtr) (descs : DescPtr → Option CString),
        owners { s.deleteDesc r.desc with
          heap := Function.update (s.deleteDesc r.desc).heap p (some { r with desc := x }), descs := descs } =
        ⟨Function.update (owners s).held p x, descs⟩ := by
      intro x descs
      unfold owners
      simp only [held_update, deleteDesc_heap]
      rfl
    cases hclears : clearsDesc desc with
    | true =>
      simp only [if_true]
      refine .cleared p r _ hp hclears ?_ rfl
      rw [hput none (s.deleteDesc r.desc).descs]
      unfold Owners.release Owners.put
      rw [← owners_deleteDesc hp]
      unfold owners
      simp only [deleteDesc_heap]
    | false =>
      simp only [Bool.false_eq_true, if_false]
      cases hmem : mem.filter (fun d => ((s.deleteDesc r.desc).descs d).isNone) with
      | none =>
        refine .failed p r (Nat.not_lt.mp hlen) hloc hp hclears fun h => ?_
        obtain ⟨d, rfl, hd⟩ := h
        simp [Option.filter, hd] at hmem
      | some d =>
        obtain ⟨hd, hfree⟩ := Option.filter_eq_some_iff.mp hmem
        have hfresh : (s.deleteDesc r.desc).descs d = none := by simpa using hfree
        refine .changed p r d (safestrncpy [] desc (desc.length + 1)) _ hloc hp ⟨d, hd, hfresh⟩ hfresh ?_ rfl
        rw [hput (some d)]
        unfold Owners.acquire Owners.release Owners.put
        rw [← owners_deleteDesc hp]
        unfold owners
        simp only [deleteDesc_heap, Function.update_idem]

/-! ## One call -/

/-- A detail that is registered has no description, and where a description is replaced
    there is memory for the new one. -/
def KeepsOwners (s : Registry) : Op → Prop
  | .register .reg detail mem => FindsMemory s mem → MayRegister s detail → detail.desc = none
  | .updateIntfDesc q desc mem => desc.length ≤ maxIntfDescLen → clearsDesc desc = false →
      ∀ p r, s.locate q.qType q = some p → Live s p r → r.desc ≠ none → FindsBuffer s r mem
  | _ => True

/-- An update of a description that returns an error leaves every record's as it was. -/
def ErrorKeepsDescs (s : Registry) : Op → Prop
  | .updateIntfDesc q desc mem =>
    let r := dnHalUpdateIntfDesc q desc mem s
    r.1 ≠ .ok → ∀ p _p, Live s p _p →
      ∃ _p', Live r.2 p _p' ∧ _p'.desc = _p.desc ∧ _p.desc.bind r.2.descs = _p.desc.bind s.descs
  | _ => True

/-- Every live buffer is some live record's. -/
theorem covered_step {s : Registry} (hi : Inv s) (hcov : (owners s).Covered) (op : Op) :
    (owners (step s op).2).Covered := by
  cases op with
  | register regOpt detail mem =>
    cases regOpt with
    | dereg =>
      show (owners (s.cleanup detail)).Covered
      rcases cleanup_owners hi detail with hsame | ⟨p, r, -, howners, -⟩
      · rwa [hsame]
      · rw [howners]
        exact Owners.covered_release hcov p
    | reg =>
      show (owners (dnHalIfRegister .reg detail mem s).2).Covered
      rcases register_owners hi detail mem with ⟨hsame, -⟩ | ⟨p, hfree, howners, -, -⟩
      · rwa [hsame]
      · rw [howners]
        exact Owners.covered_put hcov hfree _
  | updateIntfMac ifx mac =>
    exact (updateIntfMac_owners hi ifx mac).1.symm ▸ hcov
  | updateRouterIntfInfo vrfId ifx info =>
    exact (updateRouterIntfInfo_owners hi vrfId ifx info).1.symm ▸ hcov
  | updateIntfDesc q desc mem =>
    show (owners (dnHalUpdateIntfDesc q desc mem s).2).Covered
    have hcase := updateIntfDesc_cases hi q desc mem
    generalize dnHalUpdateIntfDesc q desc mem s = r at hcase
    cases hcase with
    | refused => exact hcov
    | cleared p _ _ _ _ howners => exact howners.symm ▸ Owners.covered_release hcov p
    | changed p _ d text _ _ _ _ _ howners =>
      exact howners.symm ▸ Owners.covered_acquire (Owners.covered_release hcov p) (Owners.release_held_self _ p) d text
    | failed p _ _ _ hp =>
      show (owners (s.deleteDesc _)).Covered
      rw [owners_deleteDesc hp]
      exact Owners.covered_free hcov

theorem cleanup_oneOwner {s : Registry} (hi : Inv s) (h : OneOwner s) (detail : InterfaceCtrl) :
    (owners (s.cleanup detail)).Exclusive ∧ (s.cleanup detail).fault = false := by
  obtain ⟨hexcl, hfault⟩ := (oneOwner_iff hi).mp h
  rcases cleanup_owners hi detail with hsame | ⟨p, r, hp, howners, hf⟩
  · rw [hsame]
    exact ⟨hexcl, hfault⟩
  · rw [howners, hf, h.deleteDesc_fault hi hp]
    exact ⟨Owners.exclusive_release hexcl p, rfl⟩

theorem register_oneOwner_iff {s : Registry} (hi : Inv s) (h : OneOwner s) (hcov : (owners s).Covered)
    (detail : InterfaceCtrl) (mem : Option Ptr) :
    ((owners (dnHalIfRegister .reg detail mem s).2).Exclusive ∧ (dnHalIfRegister .reg detail mem s).2.fault = false) ↔
      (FindsMemory s mem → MayRegister s detail → detail.desc = none) := by
  obtain ⟨hexcl, hfault⟩ := (oneOwner_iff hi).mp h
  rcases register_owners hi detail mem with ⟨hsame, hmay⟩ | ⟨p, hfree, howners, hf, hmem, hmay⟩
  · rw [hsame]
    exact iff_of_true ⟨hexcl, hfault⟩ fun h1 h2 => absurd ⟨h1, h2⟩ hmay
  · rw [howners, hf, Owners.exclusive_put_iff hexcl hcov hfree]
    exact ⟨fun hdesc _ _ => hdesc.1, fun hdesc => ⟨hdesc hmem hmay, hfault⟩⟩

theorem updateIntfDesc_oneOwner_iff {s : Registry} (hi : Inv s) (h : OneOwner s) (q : InterfaceCtrl) (desc : CString)
    (mem : Option DescPtr) :
    ((owners (dnHalUpdateIntfDesc q desc mem s).2).Exclusive ∧ (dnHalUpdateIntfDesc q desc mem s).2.fault = false) ↔
      KeepsOwners s (.updateIntfDesc q desc mem) := by
  obtain ⟨hexcl, hfault⟩ := (oneOwner_iff hi).mp h
  -- the record that is located is the one the condition speaks of
  have hsame : ∀ {p p' : Ptr} {r r' : InterfaceCtrl}, s.locate q.qType q = some p → s.heap p = some r →
      s.locate q.qType q = some p' → Live s p' r' → r' = r := by
    intro p p' r r' hlocate hp hlocate' hl
    rw [hlocate] at hlocate'
    cases hlocate'
    exact Option.some.inj (hl.2.symm.trans hp)
  have hcase := updateIntfDesc_cases hi q desc mem
  generalize dnHalUpdateIntfDesc q desc mem s = r at hcase
  cases hcase with
  | refused hno =>
    refine iff_of_true ⟨hexcl, hfault⟩ fun hlen _ p r hlocate _ _ => ?_
    rcases hno with hno | hno
    · exact absurd hlen (Nat.not_le.mpr hno)
    · rw [hno] at hlocate
      cases hlocate
  | cleared p r s' hp hclears howners hf =>
    refine iff_of_true ⟨howners.symm ▸ Owners.exclusive_release hexcl p, hf.trans (h.deleteDesc_fault hi hp)⟩ ?_
    intro _ hkeeps
    rw [hclears] at hkeeps
    cases hkeeps
  | changed p r d text s' hlocate hp hfinds hfresh howners hf =>
    have hfresh : ((owners s).release p).store d = none := by
      show ((owners s).free p).store d = none
      rw [← owners_deleteDesc hp]
      exact hfresh
    refine iff_of_true ⟨howners.symm ▸ Owners.exclusive_acquire (Owners.exclusive_release hexcl p) hfresh p text,
      hf.trans (h.deleteDesc_fault hi hp)⟩ fun _ _ p' r' hlocate' hl _ => ?_
    rw [hsame hlocate hp hlocate' hl]
    exact hfinds
  | failed p r hlen hlocate hp hkeeps hno =>
    show (owners (s.deleteDesc r.desc)).Exclusive ∧ _ ↔ _
    rw [owners_deleteDesc hp, Owners.exclusive_free_iff hexcl, held_of_heap hp, h.deleteDesc_fault hi hp]
    constructor
    · intro hnone _ _ p' r' hlocate' hl hsome
      rw [hsame hlocate hp hlocate' hl] at hsome
      exact absurd hnone.1 hsome
    · intro hC
      refine ⟨?_, rfl⟩
      by_contra hsome
      exact hno (hC hlen hkeeps p r hlocate (hi.live.mpr hp) hsome)

/-- Where each record owns its buffer, a call keeps that exactly under the condition. -/
theorem oneOwner_step_iff {s : Registry} (hi : Inv s) (h : OneOwner s) (hcov : (owners s).Covered) (op : Op) :
    OneOwner (step s op).2 ↔ KeepsOwners s op := by
  rw [oneOwner_iff (step_inv s op hi)]
  cases op with
  | register regOpt detail mem =>
    cases regOpt with
    | dereg => exact iff_of_true (cleanup_oneOwner hi h detail) trivial
    | reg => exact register_oneOwner_iff hi h hcov detail mem
  | updateIntfMac ifx mac =>
    obtain ⟨hexcl, hfault⟩ := (oneOwner_iff hi).mp h
    obtain ⟨howners, hf⟩ := updateIntfMac_owners hi ifx mac
    exact iff_of_true ⟨howners.symm ▸ hexcl, hf.trans hfault⟩ trivial
  | updateRouterIntfInfo vrfId ifx info =>
    obtain ⟨hexcl, hfault⟩ := (oneOwner_iff hi).mp h
    obtain ⟨howners, hf⟩ := updateRouterIntfInfo_owners hi vrfId ifx info
    exact iff_of_true ⟨howners.symm ▸ hexcl, hf.trans hfault⟩ trivial
  | updateIntfDesc q desc mem => exact updateIntfDesc_oneOwner_iff hi h q desc mem

theorem keepsOwners_error {s : Registry} (hi : Inv s) {op : Op} (h : KeepsOwners s op) : ErrorKeepsDescs s op := by
  cases op with
  | register => trivial
  | updateIntfMac => trivial
  | updateRouterIntfInfo => trivial
  | updateIntfDesc q desc mem =>
    have hsame : (dnHalUpdateIntfDesc q desc mem s).1 ≠ .ok → (dnHalUpdateIntfDesc q desc mem s).2 = s := by
      have hcase := updateIntfDesc_cases hi q desc mem
      generalize dnHalUpdateIntfDesc q desc mem s = r at hcase
      cases hcase with
      | refused => intro _; rfl
      | cleared => intro hne; exact absurd rfl hne
      | changed => intro hne; exact absurd rfl hne
      | failed p r hlen hlocate hp hkeeps hno =>
        intro _
        have hnone : r.desc = none := by
          by_contra hsome
          exact hno (h hlen hkeeps p r hlocate (hi.live.mpr hp) hsome)
        rw [hnone]
        rfl
    intro hne p _p hl
    rw [hsame hne]
    exact ⟨_p, hl, rfl, rfl⟩

/-! ## Runs with the structs that queries fill in -/

structure Clients where
  registry : Registry
  filled : List InterfaceCtrl

def Clients.start : Clients := ⟨Registry.empty, []⟩

inductive ClientOp where
  | call (op : Op)
  | getInterfaceInfo (p : InterfaceCtrl)

def clientStep (s : Clients) : ClientOp → StdError × Clients
  | .call op => ((step s.registry op).1, ⟨(step s.registry op).2, s.filled⟩)
  | .getInterfaceInfo p =>
    let r := dnHalGetInterfaceInfo p s.registry
    (r.1, ⟨r.2.2, if r.1 = .ok then r.2.1 :: s.filled else s.filled⟩)

/-- A registered detail's description is null, or as a query filled it in. -/
def Documented (s : Clients) : ClientOp → Prop
  | .call (.register .reg detail _) => detail.desc = none ∨ ∃ p ∈ s.filled, p.desc = detail.desc
  | _ => True

/-- A condition on the calls that are not queries. -/
def OnCalls (C : Registry → Op → Prop) (s : Clients) : ClientOp → Prop
  | .call op => C s.registry op
  | .getInterfaceInfo _ => True

theorem dnHalGetInterfaceInfo_registry {s : Registry} (hi : Inv s) (p : InterfaceCtrl) :
    (dnHalGetInterfaceInfo p s).2.2 = s := by
  cases hloc : s.locate (asked p).qType (asked p) with
  | none => rw [dnHalGetInterfaceInfo_none hloc]
  | some ptr =>
    obtain ⟨_p, hp⟩ := hi.locate_live hloc
    rw [dnHalGetInterfaceInfo_some hloc hp]

theorem clientStep_inv (s : Clients) (op : ClientOp) (h : Inv s.registry ∧ (owners s.registry).Covered) :
    Inv (clientStep s op).2.registry ∧ (owners (clientStep s op).2.registry).Covered := by
  cases op with
  | call op => exact ⟨step_inv s.registry op h.1, covered_step h.1 h.2 op⟩
  | getInterfaceInfo p =>
    show Inv (dnHalGetInterfaceInfo p s.registry).2.2 ∧ (owners (dnHalGetInterfaceInfo p s.registry).2.2).Covered
    rwa [dnHalGetInterfaceInfo_registry h.1]

theorem clientStep_oneOwner_iff (s : Clients) (op : ClientOp) (h : Inv s.registry ∧ (owners s.registry).Covered)
    (howner : OneOwner s.registry) : OneOwner (clientStep s op).2.registry ↔ OnCalls KeepsOwners s op := by
  cases op with
  | call op => exact oneOwner_step_iff h.1 howner h.2 op
  | getInterfaceInfo p =>
    show OneOwner (dnHalGetInterfaceInfo p s.registry).2.2 ↔ True
    rw [dnHalGetInterfaceInfo_registry h.1]
    exact iff_of_true howner trivial

theorem empty_oneOwner : OneOwner Registry.empty :=
  ⟨fun _ _ hl => (nomatch hl.2), rfl⟩

theorem empty_covered : (owners Registry.empty).Covered := fun _ hd => by cases hd

/-- Along any run: each live record owns its buffer alone, no buffer is deleted twice and
    a failed update leaves the descriptions, exactly when every call keeps the owners. -/
theorem descs_owned_iff (ops : List ClientOp) :
    (Runs.Always clientStep (fun s => OneOwner s.registry) .start ops ∧
        Runs.Steps clientStep (OnCalls ErrorKeepsDescs) .start ops) ↔
      Runs.Steps clientStep (OnCalls KeepsOwners) .start ops := by
  refine Runs.always_and_steps_iff clientStep_inv clientStep_oneOwner_iff ?_ ops Clients.start
    ⟨empty_inv, empty_covered⟩ empty_oneOwner
  intro s op h _ hkeeps
  cases op with
  | call op => exact keepsOwners_error h.1 hkeeps
  | getInterfaceInfo p => trivial

/-! ## A filled-in description, and no memory -/

/-- The interface is described, asked for, and registered anew with another MAC; and then
    deregistered. -/
def changeMac : List ClientOp :=
  [.call (.register .reg eth0 (some 0)),
   .call (.updateIntfDesc (queryBy .fromIfName eth0) ['u', 'p'] (some 0)),
   .getInterfaceInfo (queryBy .fromIfName eth0),
   .call (.register .dereg { eth0 with desc := some 0 } none),
   .call (.register .reg { eth0 with desc := some 0, macAddr := ['1'] } (some 0)),
   .call (.register .dereg { eth0 with desc := some 0 } none)]

/-- A second description, without memory for it. -/
def redescribe : List ClientOp :=
  [.call (.register .reg eth0 (some 0)),
   .call (.updateIntfDesc (queryBy .fromIfName eth0) ['u', 'p'] (some 0)),
   .call (.updateIntfDesc (queryBy .fromIfName eth0) ['c', 'o', 'r', 'e'] none)]

/-- The record's description is deleted before it is registered again, and twice in all;
    and a failed update deletes one. -/
theorem filled_desc_dangles :
    (Runs.Steps clientStep Documented .start changeMac ∧
        ¬ Runs.Always clientStep (fun s => OneOwner s.registry) .start changeMac ∧
        (Runs.final clientStep .start changeMac).registry.fault = true) ∧
      Runs.Steps clientStep Documented .start redescribe ∧
      ¬ Runs.Steps clientStep (OnCalls ErrorKeepsDescs) .start redescribe := by
  have hfault : (Runs.final clientStep .start changeMac).registry.fault = true := by decide
  refine ⟨⟨⟨Or.inl rfl, trivial, trivial, trivial, Or.inr ?_, trivial, trivial⟩, fun h => ?_, hfault⟩,
    ⟨Or.inl rfl, trivial, trivial, trivial⟩, fun h => ?_⟩
  · exact ⟨{ eth0 with desc := some 0 }, by decide, rfl⟩
  · have honce := (h changeMac (List.prefix_refl _)).once
    rw [hfault] at honce
    cases honce
  · obtain ⟨-, -, herror, -⟩ := h
    obtain ⟨r', -, hdesc, htext⟩ := herror (by decide) 0 { eth0 with desc := some 0 } ⟨by decide, by decide⟩
    exact absurd htext (by decide)

end NasCommon.IfMapping
