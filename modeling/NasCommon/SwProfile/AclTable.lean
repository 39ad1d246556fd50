/-
  NasCommon.SwProfile.AclTable — what parsing an ACL profile leaves: the pool counts and
  the table of app groups (`nas_switch_update_acl_profile_info`).

  The first loop reads each stage's type and pool count, the second each stage's app
  groups, and both keep what they last read for an element that lacks the attribute
  (`AclLocals`). The groups are written from index 0 on, whatever the table's size, and
  the parse stops at the first that is rejected: without apps, or without memory for
  them.
  - `aclStagePools_fold`: the counts and the table's size after the first loop.
  - `aclElems_spec`: what the second loop writes; the nested loops are one over stages
    and groups (`aclStages_eq`).
  - `aclParse_spec`: the whole call; `aclParse_ok`: an accepted profile.
  - `aclParse_inside_iff`: the writes and reads stay in the table exactly when there are no
    more groups than pools, and the counts are no more than these, as they are after no
    pools (`configuredPools_le`). Nothing checks either (`second_group_past_end`).
-/

import Mathlib.Data.UInt
import NasCommon.Lib.Table
import NasCommon.SwProfile.Acl
import NasCommon.SwProfile.Parse

namespace NasCommon.SwProfile

/-! ## The first loop -/

/-- Each stage element's type and pool count, with what was last read where it has none. -/
def stagePools : CString → UInt32 → List ConfigNode → List (CString × UInt32)
  | _, _, [] => []
  | stage, maxPoolCount, node :: nodes =>
    let stage := nasStdCfgStrAttrUpdate node "type" stage
    let maxPoolCount := nasStdCfgAttrUpdate (nums node) "max_pool_avail" maxPoolCount
    (stage, maxPoolCount) :: stagePools stage maxPoolCount nodes

/-- The last pool count of a stage type, in eight bits, or the one before the loop. -/
def lastPool (type : String) (old : UInt8) (l : List (CString × UInt32)) : UInt8 :=
  ((Attrs.last Prod.fst type.toList l).map fun e => e.2.toUInt8).getD old

theorem lastPool_cons (type : String) (old : UInt8) (e : CString × UInt32) (l : List (CString × UInt32)) :
    lastPool type old (e :: l) = lastPool type (if e.1 = type.toList then e.2.toUInt8 else old) l := by
  unfold lastPool
  by_cases h : e.1 = type.toList
  · rw [Attrs.last_cons_self h, if_pos h]
    cases Attrs.last Prod.fst type.toList l <;> rfl
  · rw [Attrs.last_cons_other h, if_neg h]

/-- The last element's value of something that every element sets. -/
def lastOf {α β : Type} (f : α → β) (old : β) (l : List α) : β := (l.getLast?.map f).getD old

theorem lastOf_cons {α β : Type} (f : α → β) (old : β) (a : α) (l : List α) :
    lastOf f old (a :: l) = lastOf f (f a) l := by
  cases l with
  | nil => rfl
  | cons b l => simp [lastOf, List.getLast?_cons_cons, List.getLast?_eq_some_getLast (List.cons_ne_nil b l)]

theorem aclStagePools_fold (nodes : List ConfigNode) : ∀ s : AclParse,
    nodes.foldl aclStagePools s =
      let l := stagePools s.stage s.maxPoolCount nodes
      { s with
        stage := lastOf Prod.fst s.stage l
        maxPoolCount := lastOf Prod.snd s.maxPoolCount l
        totalPoolCount := s.totalPoolCount + (l.map Prod.snd).sum
        info.aclProfileMaxIngressPoolCount := lastPool "ingress" s.info.aclProfileMaxIngressPoolCount l
        info.aclProfileMaxEgressPoolCount := lastPool "egress" s.info.aclProfileMaxEgressPoolCount l } := by
  have hne : "ingress".toList ≠ "egress".toList := by decide
  induction nodes with
  | nil => intro s; simp [stagePools, lastOf, lastPool]
  | cons node nodes ih =>
    intro s
    rw [List.foldl_cons, ih]
    simp only [stagePools, lastOf_cons, lastPool_cons, List.map_cons, List.sum_cons, ← UInt32.add_assoc]
    simp only [aclStagePools]
    by_cases hin : nasStdCfgStrAttrUpdate node "type" s.stage = "ingress".toList
    · simp only [hin, if_true, if_neg hne]
    · by_cases hout : nasStdCfgStrAttrUpdate node "type" s.stage = "egress".toList
      · simp only [hout, if_true, if_neg hne.symm]
      · simp only [if_neg hin, if_neg hout]

/-- The stages of a profile, with their pool counts. -/
def aclPoolList (node : ConfigNode) : List (CString × UInt32) := stagePools [] 0 node.children

/-- All the pools, as no 32-bit sum cuts them. -/
def poolSum (node : ConfigNode) : Nat := ((aclPoolList node).map fun e => e.2.toNat).sum

/-- What `total_pool_count` comes to. -/
def totalPools (node : ConfigNode) : UInt32 := ((aclPoolList node).map Prod.snd).sum

def ingressPools (node : ConfigNode) (old : UInt8) : UInt8 := lastPool "ingress" old (aclPoolList node)

def egressPools (node : ConfigNode) (old : UInt8) : UInt8 := lastPool "egress" old (aclPoolList node)

theorem toNat_sum (l : List UInt32) : l.sum.toNat = (l.map UInt32.toNat).sum % 2 ^ 32 := by
  induction l with
  | nil => rfl
  | cons v l ih => rw [List.sum_cons, UInt32.toNat_add, ih, List.map_cons, List.sum_cons, Nat.add_mod_mod]

theorem totalPools_eq (node : ConfigNode) : (totalPools node).toNat = poolSum node % 2 ^ 32 := by
  unfold totalPools poolSum
  rw [toNat_sum, List.map_map]
  rfl

theorem lastPool_le (type : String) (l : List (CString × UInt32)) :
    (lastPool type 0 l).toNat ≤ ((l.filter fun e => e.1 = type.toList).map fun e => e.2.toNat).sum := by
  have hle : ∀ (old : UInt8) (l : List (CString × UInt32)), (lastPool type old l).toNat ≤
      old.toNat + ((l.filter fun e => e.1 = type.toList).map fun e => e.2.toNat).sum := by
    intro old l
    induction l generalizing old with
    | nil => exact Nat.le_refl _
    | cons e l ih =>
      rw [lastPool_cons]
      by_cases h : e.1 = type.toList
      · have hcut : e.2.toUInt8.toNat ≤ e.2.toNat := by
          rw [UInt32.toNat_toUInt8]; exact Nat.mod_le _ _
        rw [if_pos h, List.filter_cons_of_pos (by simpa using h), List.map_cons, List.sum_cons]
        have := ih e.2.toUInt8
        omega
      · rw [if_neg h, List.filter_cons_of_neg (by simpa using h)]
        exact ih old
  simpa using hle 0 l

/-- The two counts are among the pools. -/
theorem pools_le_sum (node : ConfigNode) :
    (ingressPools node 0).toNat + (egressPools node 0).toNat ≤ poolSum node := by
  have hsplit : ∀ l : List (CString × UInt32),
      ((l.filter fun e => e.1 = "ingress".toList).map fun e => e.2.toNat).sum +
        ((l.filter fun e => e.1 = "egress".toList).map fun e => e.2.toNat).sum ≤ (l.map fun e => e.2.toNat).sum := by
    intro l
    induction l with
    | nil => exact Nat.le_refl _
    | cons e l ih =>
      have hne : "ingress".toList ≠ "egress".toList := by decide
      by_cases hin : e.1 = "ingress".toList
      · simp only [List.filter_cons, hin, decide_true, decide_false, if_true, if_false, List.map_cons,
          List.sum_cons, Bool.false_eq_true, hne]
        omega
      · by_cases hout : e.1 = "egress".toList
        · simp only [List.filter_cons, hout, decide_true, decide_false, if_true, if_false, List.map_cons,
            List.sum_cons, Bool.false_eq_true, hne.symm]
          omega
        · simp only [List.filter_cons, hin, hout, decide_false, if_false, List.map_cons, List.sum_cons,
            Bool.false_eq_true]
          omega
  exact Nat.le_trans (Nat.add_le_add (lastPool_le "ingress" _) (lastPool_le "egress" _)) (hsplit _)

/-- The pools the loops are bounded by, as the first loop leaves them: a count that no stage
    sets is kept from before. -/
def configuredPools (node : ConfigNode) (i : NasSwitchInfo) : Nat :=
  (ingressPools node i.aclProfileMaxIngressPoolCount).toNat + (egressPools node i.aclProfileMaxEgressPoolCount).toNat

theorem totalPools_of_lt {node : ConfigNode} (hsum : poolSum node < 2 ^ 32) : (totalPools node).toNat = poolSum node := by
  rw [totalPools_eq, Nat.mod_eq_of_lt hsum]

/-! ## One app group -/

/-- What the second loop carries from one element to the next. -/
structure AclLocals where
  stage : CString
  stageType : UInt32
  defaultPoolCount : UInt32
  depthPerPool : UInt32

def AclParse.locals (s : AclParse) : AclLocals := ⟨s.stage, s.stageType, s.defaultPoolCount, s.depthPerPool⟩

/-- The locals at the app groups of a stage. -/
def AclLocals.atStage (c : SwConsts) (l : AclLocals) (node : ConfigNode) : AclLocals :=
  let stage := nasStdCfgStrAttrUpdate node "type" l.stage
  { l with
    stage := stage
    stageType :=
      if stage = "ingress".toList then c.baseAclStageIngress
      else if stage = "egress".toList then c.baseAclStageEgress
      else l.stageType }

/-- The locals from an app group on. -/
def AclLocals.atGroup (l : AclLocals) (node : ConfigNode) : AclLocals :=
  { l with
    defaultPoolCount := nasStdCfgAttrUpdate (nums node) "default_pool_count" l.defaultPoolCount
    depthPerPool := nasStdCfgAttrUpdate (nums node) "depth_per_pool" l.depthPerPool }

/-- The entry of an app group, and whether its apps find memory. -/
def AclLocals.entry (l : AclLocals) (apps : Bool) (node : ConfigNode) : AclProfileAppGroupInfo where
  numApp := UInt8.ofNat node.children.length
  defaultPoolCount := l.defaultPoolCount.toUInt8
  currentPoolCount := l.defaultPoolCount.toUInt8
  nextBootPoolCount := l.defaultPoolCount.toUInt8
  depthPerPool := l.depthPerPool.toUInt16
  stageType := l.stageType.toUInt16
  appGroupName := .update node "name" (.copy [])
  appInfo := if apps then node.children.map aclApp else []

/-- The group at an index is written and then the parse returns an error. -/
def rejectsGroup (allocApps : Nat → Bool) (idx : Nat) (node : ConfigNode) : Bool :=
  node.children.length = 0 || ! allocApps idx

theorem write_eq (s : AclParse) (f : AclProfileAppGroupInfo → AclProfileAppGroupInfo) : s.write f =
    { s with
      info.aclProfileAppGroupInfo := s.info.aclProfileAppGroupInfo.modify s.appGroupIdx f
      fault := s.fault || decide (s.info.aclProfileAppGroupInfo.length ≤ s.appGroupIdx) } := by
  unfold AclParse.write
  cases hx : s.info.aclProfileAppGroupInfo[s.appGroupIdx]? with
  | none =>
    have hlen := List.getElem?_eq_none_iff.mp hx
    rw [List.modify_eq_self hlen]
    simp [hlen]
  | some g =>
    obtain ⟨hlt, hg⟩ := List.getElem?_eq_some_iff.mp hx
    rw [List.modify_eq_set_getElem? , hx]
    simp [Nat.not_le.mpr hlt]

/-- The table is blank from the next index on. -/
def Blank (s : AclParse) : Prop :=
  ∀ j, s.appGroupIdx ≤ j → ∀ g, s.info.aclProfileAppGroupInfo[j]? = some g → g = .zero

/-- One app group: its entry is written, or lost past the end of the table. -/
theorem aclAppGroup_eq (allocApps : Nat → Bool) {s : AclParse} (hblank : Blank s) (node : ConfigNode) :
    aclAppGroup allocApps s node =
      let l := s.locals.atGroup node
      (if rejectsGroup allocApps s.appGroupIdx node then parseParam else .ok,
       { s with
         info.aclProfileAppGroupInfo :=
           s.info.aclProfileAppGroupInfo.set s.appGroupIdx (l.entry (allocApps s.appGroupIdx) node)
         defaultPoolCount := l.defaultPoolCount
         depthPerPool := l.depthPerPool
         appGroupIdx := if rejectsGroup allocApps s.appGroupIdx node then s.appGroupIdx else s.appGroupIdx + 1
         fault := s.fault || decide (s.info.aclProfileAppGroupInfo.length ≤ s.appGroupIdx) }) := by
  -- each write finds the entry as the call allocated it
  have hset : ∀ f : AclProfileAppGroupInfo → AclProfileAppGroupInfo,
      s.info.aclProfileAppGroupInfo.modify s.appGroupIdx f =
      s.info.aclProfileAppGroupInfo.set s.appGroupIdx (f .zero) := by
    intro f
    cases hx : s.info.aclProfileAppGroupInfo[s.appGroupIdx]? with
    | none =>
      have hlen := List.getElem?_eq_none_iff.mp hx
      rw [List.modify_eq_self hlen, List.set_eq_of_length_le hlen]
    | some g => rw [List.modify_eq_set_getElem?, hx, hblank _ (Nat.le_refl _) g hx]; rfl
  simp only [aclAppGroup, aclDepth, aclPoolCounts, aclName, write_eq, List.modify_modify_eq, List.length_modify]
  simp only [hset, Function.comp]
  by_cases hnil : node.children.length = 0
  · have hchildren : node.children = [] := List.eq_nil_of_length_eq_zero hnil
    simp [hchildren, rejectsGroup, AclLocals.entry, AclLocals.atGroup, AclParse.locals, AclProfileAppGroupInfo.zero]
  · cases halloc : allocApps s.appGroupIdx with
    | true =>
      simp [hnil, halloc, rejectsGroup, AclLocals.entry, AclLocals.atGroup, AclParse.locals,
        AclProfileAppGroupInfo.zero]
    | false =>
      simp [hnil, halloc, rejectsGroup, AclLocals.entry, AclLocals.atGroup, AclParse.locals,
        AclProfileAppGroupInfo.zero]

/-! ## The second loop -/

/-- What the nested loops meet, in order. -/
inductive AclElem where
  | stage (node : ConfigNode)
  | group (node : ConfigNode)

def stageElems (st : ConfigNode) : List AclElem := .stage st :: st.children.map AclElem.group

def aclElems (stages : List ConfigNode) : List AclElem := stages.flatMap stageElems

def AclElem.groups : AclElem → List ConfigNode
  | .stage _ => []
  | .group node => [node]

def aclElem (c : SwConsts) (allocApps : Nat → Bool) (s : AclParse) : AclElem → StdError × AclParse
  | .stage node => (.ok, aclStageType c node s)
  | .group node => aclAppGroup allocApps s node

section Loops

variable {σ α β : Type} {f : σ → α → StdError × σ}

theorem untilError_ok {s t : σ} {a : α} (h : f s a = (.ok, t)) (l : List α) :
    untilError f s (a :: l) = untilError f t l := by
  simp only [untilError, h]

theorem untilError_err {s : σ} {a : α} (h : (f s a).1 ≠ .ok) (l : List α) : untilError f s (a :: l) = f s a := by
  unfold untilError
  split
  · rename_i t ht
    rw [ht] at h
    exact absurd rfl h
  · rfl

theorem untilError_append {l : List α} (l' : List α) : ∀ {s t : σ}, untilError f s l = (.ok, t) →
    untilError f s (l ++ l') = untilError f t l' := by
  induction l with
  | nil => rintro s t ⟨⟩; rfl
  | cons a l ih =>
    intro s t h
    rcases hf : f s a with ⟨rc, u⟩
    cases rc with
    | ok => rw [untilError_ok hf] at h; rw [List.cons_append, untilError_ok hf, ih h]
    | err => rw [untilError_err (by rw [hf]; simp), hf] at h; cases h

theorem untilError_append_err {l : List α} (l' : List α) : ∀ {s : σ}, (untilError f s l).1 ≠ .ok →
    untilError f s (l ++ l') = untilError f s l := by
  induction l with
  | nil => intro s h; exact absurd rfl h
  | cons a l ih =>
    intro s h
    rcases hf : f s a with ⟨rc, u⟩
    cases rc with
    | ok => rw [untilError_ok hf] at h; rw [List.cons_append, untilError_ok hf, untilError_ok hf, ih h]
    | err =>
      have hne : (f s a).1 ≠ .ok := by rw [hf]; simp
      rw [List.cons_append, untilError_err hne, untilError_err hne]

theorem untilError_map (g : β → α) (l : List β) : ∀ s : σ,
    untilError f s (l.map g) = untilError (fun s b => f s (g b)) s l := by
  induction l with
  | nil => intro s; rfl
  | cons b l ih =>
    intro s
    rw [List.map_cons]
    unfold untilError
    split
    · exact ih _
    · rfl

end Loops

/-- The nested loops are one. -/
theorem aclStages_eq (c : SwConsts) (allocApps : Nat → Bool) (stages : List ConfigNode) : ∀ s,
    untilError (aclStage c allocApps) s stages = untilError (aclElem c allocApps) s (aclElems stages) := by
  induction stages with
  | nil => intro s; rfl
  | cons st stages ih =>
    intro s
    have hstage : untilError (aclElem c allocApps) s (stageElems st) = aclStage c allocApps s st := by
      show untilError _ (aclStageType c st s) (st.children.map AclElem.group) = _
      rw [untilError_map]
      rfl
    rw [aclElems, List.flatMap_cons]
    rcases hst : aclStage c allocApps s st with ⟨rc, t⟩
    cases rc with
    | ok => rw [untilError_append _ (hstage.trans hst), untilError_ok hst]; exact ih t
    | err =>
      have hne : (aclStage c allocApps s st).1 ≠ .ok := by rw [hst]; simp
      rw [untilError_append_err _ (by rwa [hstage]), hstage, untilError_err hne]

def AclLocals.after (c : SwConsts) (l : AclLocals) : AclElem → AclLocals
  | .stage node => l.atStage c node
  | .group node => l.atGroup node

/-- The entries of the app groups, had the table room for all and the parse no end. -/
def groupEntries (c : SwConsts) (allocApps : Nat → Bool) : AclLocals → Nat → List AclElem → List AclProfileAppGroupInfo
  | _, _, [] => []
  | l, idx, .stage node :: elems => groupEntries c allocApps (l.atStage c node) idx elems
  | l, idx, .group node :: elems =>
    (l.atGroup node).entry (allocApps idx) node :: groupEntries c allocApps (l.atGroup node) (idx + 1) elems

/-- How many app groups are parsed before one is rejected. -/
def accepted (allocApps : Nat → Bool) : Nat → List ConfigNode → Nat
  | _, [] => 0
  | idx, node :: nodes => if rejectsGroup allocApps idx node then 0 else accepted allocApps (idx + 1) nodes + 1

/-- How many are written: the rejected one is too. -/
def reached (allocApps : Nat → Bool) : Nat → List ConfigNode → Nat
  | _, [] => 0
  | idx, node :: nodes => if rejectsGroup allocApps idx node then 1 else reached allocApps (idx + 1) nodes + 1

theorem reached_le (allocApps : Nat → Bool) (nodes : List ConfigNode) : ∀ idx,
    reached allocApps idx nodes ≤ nodes.length := by
  induction nodes with
  | nil => intro idx; exact Nat.le_refl _
  | cons n nodes ih =>
    intro idx
    have := ih (idx + 1)
    simp only [reached, List.length_cons]
    split <;> omega

theorem reached_eq (allocApps : Nat → Bool) (nodes : List ConfigNode) : ∀ idx,
    reached allocApps idx nodes = min (accepted allocApps idx nodes + 1) nodes.length := by
  induction nodes with
  | nil => intro idx; rfl
  | cons n nodes ih =>
    intro idx
    simp only [reached, accepted, List.length_cons, ih (idx + 1)]
    split <;> omega

theorem length_groupEntries (c : SwConsts) (allocApps : Nat → Bool) (elems : List AclElem) : ∀ l idx,
    (groupEntries c allocApps l idx elems).length = (elems.flatMap AclElem.groups).length := by
  induction elems with
  | nil => intro l idx; rfl
  | cons e elems ih =>
    intro l idx
    rw [List.flatMap_cons, List.length_append]
    cases e with
    | stage node => exact (ih _ _).trans (Nat.zero_add _).symm
    | group node => exact (congrArg Nat.succ (ih _ _)).trans (Nat.add_comm _ 1)

/-- The app groups of a profile, those of all its stages. -/
def aclGroups (node : ConfigNode) : List ConfigNode := node.children.flatMap ConfigNode.children

theorem groups_flatMap (l : List ConfigNode) : (l.map AclElem.group).flatMap AclElem.groups = l := by
  induction l with
  | nil => rfl
  | cons n l ih => rw [List.map_cons, List.flatMap_cons, ih]; rfl

theorem aclElems_groups (stages : List ConfigNode) :
    (aclElems stages).flatMap AclElem.groups = stages.flatMap ConfigNode.children := by
  rw [aclElems, List.flatMap_assoc]
  exact List.flatMap_congr fun st _ => groups_flatMap st.children

/-- The first loop's last stage is still there when the second begins. -/
def startLocals (node : ConfigNode) : AclLocals := ⟨lastOf Prod.fst [] (aclPoolList node), 0, 0, 0⟩

def parsedEntries (c : SwConsts) (allocApps : Nat → Bool) (node : ConfigNode) : List AclProfileAppGroupInfo :=
  groupEntries c allocApps (startLocals node) 0 (aclElems node.children)

theorem length_parsedEntries (c : SwConsts) (allocApps : Nat → Bool) (node : ConfigNode) :
    (parsedEntries c allocApps node).length = (aclGroups node).length := by
  rw [parsedEntries, length_groupEntries, aclElems_groups]
  rfl

/-- The second loop from index `s.appGroupIdx` on: `n` groups are accepted, `m` written. -/
structure Fills (s : AclParse) (entries : List AclProfileAppGroupInfo) (groups n m : Nat) (r : StdError × AclParse) :
    Prop where
  rc : r.1 = if n = groups then .ok else parseParam
  info : r.2.info =
    { s.info with
      aclProfileAppGroupInfo := Table.overlay s.info.aclProfileAppGroupInfo s.appGroupIdx (entries.take m) }
  idx : r.2.appGroupIdx = s.appGroupIdx + n
  fault : r.2.fault = (s.fault || decide (0 < m ∧ s.info.aclProfileAppGroupInfo.length < s.appGroupIdx + m))

/-- The state behind an app group that is accepted. -/
def AclParse.accept (allocApps : Nat → Bool) (s : AclParse) (node : ConfigNode) : AclParse :=
  { s with
    info.aclProfileAppGroupInfo := s.info.aclProfileAppGroupInfo.set s.appGroupIdx
      ((s.locals.atGroup node).entry (allocApps s.appGroupIdx) node)
    defaultPoolCount := (s.locals.atGroup node).defaultPoolCount
    depthPerPool := (s.locals.atGroup node).depthPerPool
    appGroupIdx := s.appGroupIdx + 1
    fault := s.fault || decide (s.info.aclProfileAppGroupInfo.length ≤ s.appGroupIdx) }

theorem Blank.accept {s : AclParse} (h : Blank s) (allocApps : Nat → Bool) (node : ConfigNode) :
    Blank (s.accept allocApps node) := by
  intro j hj g hg
  have hne : s.appGroupIdx ≠ j := Nat.ne_of_lt hj
  replace hg : (s.info.aclProfileAppGroupInfo.set s.appGroupIdx _)[j]? = some g := hg
  rw [List.getElem?_set_ne hne] at hg
  exact h j (Nat.le_of_succ_le hj) g hg

theorem aclElem_accepted (c : SwConsts) {allocApps : Nat → Bool} {s : AclParse} (h : Blank s) {node : ConfigNode}
    (haccept : rejectsGroup allocApps s.appGroupIdx node = false) :
    aclElem c allocApps s (.group node) = (.ok, s.accept allocApps node) := by
  have hgroup := aclAppGroup_eq allocApps h node
  simp only [haccept, Bool.false_eq_true, if_false] at hgroup
  exact hgroup

theorem aclElems_spec (c : SwConsts) (allocApps : Nat → Bool) (elems : List AclElem) : ∀ s, Blank s →
    Fills s (groupEntries c allocApps s.locals s.appGroupIdx elems) (elems.flatMap AclElem.groups).length
      (accepted allocApps s.appGroupIdx (elems.flatMap AclElem.groups))
      (reached allocApps s.appGroupIdx (elems.flatMap AclElem.groups)) (untilError (aclElem c allocApps) s elems) := by
  induction elems with
  | nil => intro s _; exact ⟨rfl, rfl, rfl, by simp [untilError, reached]⟩
  | cons e elems ih =>
    intro s hblank
    cases e with
    | stage node =>
      obtain ⟨hrc, hinfo, hidx, hfault⟩ := ih (aclStageType c node s) hblank
      exact ⟨hrc, hinfo, hidx, hfault⟩
    | group node =>
      by_cases hrej : rejectsGroup allocApps s.appGroupIdx node
      · -- the loop ends here, with the entry written
        have hgroup := aclAppGroup_eq allocApps hblank node
        simp only [hrej, if_true] at hgroup
        have hne : (aclElem c allocApps s (.group node)).1 ≠ .ok := by
          show (aclAppGroup allocApps s node).1 ≠ .ok
          rw [hgroup]; simp [parseParam]
        rw [untilError_err hne]
        show Fills _ _ _ _ _ (aclAppGroup allocApps s node)
        rw [hgroup, List.flatMap_cons, AclElem.groups, List.singleton_append, List.length_cons]
        simp only [accepted, reached, hrej, if_true, groupEntries]
        refine ⟨(if_neg (by omega)).symm, rfl, rfl, ?_⟩
        exact congrArg (s.fault || ·) (decide_eq_decide.mpr (by omega))
      · rw [untilError_ok (aclElem_accepted c hblank (by simpa using hrej))]
        obtain ⟨hrc, hinfo, hidx, hfault⟩ := ih (s.accept allocApps node) (hblank.accept allocApps node)
        rw [List.flatMap_cons, AclElem.groups, List.singleton_append, List.length_cons]
        simp only [accepted, reached, hrej, Bool.false_eq_true, if_false, groupEntries]
        refine ⟨?_, hinfo, ?_, ?_⟩
        · rw [hrc]
          exact if_congr Nat.add_right_cancel_iff.symm rfl rfl
        · rw [hidx]
          simp only [AclParse.accept]
          omega
        · rw [hfault]
          simp only [AclParse.accept, List.length_set]
          rw [Bool.or_assoc]
          congr 1
          rw [← Bool.decide_or, decide_eq_decide]
          omega

/-- The call, the table's allocation done. -/
structure AclParsed (c : SwConsts) (allocApps : Nat → Bool) (node : ConfigNode) (i : NasSwitchInfo)
    (r : StdError × AclParse) : Prop where
  rc : r.1 = if accepted allocApps 0 (aclGroups node) = (aclGroups node).length then .ok else parseParam
  table : r.2.info.aclProfileAppGroupInfo =
    (parsedEntries c allocApps node).take (min (totalPools node).toNat (reached allocApps 0 (aclGroups node))) ++
      List.replicate ((totalPools node).toNat - reached allocApps 0 (aclGroups node)) .zero
  ingress : r.2.info.aclProfileMaxIngressPoolCount = ingressPools node i.aclProfileMaxIngressPoolCount
  egress : r.2.info.aclProfileMaxEgressPoolCount = egressPools node i.aclProfileMaxEgressPoolCount
  valid : r.2.info.aclProfileValid = (i.aclProfileValid || decide (r.1 = .ok))
  idx : r.2.appGroupIdx = accepted allocApps 0 (aclGroups node)
  fault : r.2.fault = decide ((totalPools node).toNat < reached allocApps 0 (aclGroups node))

/-- What the second loop starts from. -/
def aclStart (node : ConfigNode) (i : NasSwitchInfo) : AclParse where
  info := { i with
    aclProfileAppGroupInfo := List.replicate (totalPools node).toNat .zero
    aclProfileMaxIngressPoolCount := ingressPools node i.aclProfileMaxIngressPoolCount
    aclProfileMaxEgressPoolCount := egressPools node i.aclProfileMaxEgressPoolCount }
  stage := lastOf Prod.fst [] (aclPoolList node)
  stageType := 0
  maxPoolCount := lastOf Prod.snd 0 (aclPoolList node)
  totalPoolCount := totalPools node
  appGroupIdx := 0
  defaultPoolCount := 0
  depthPerPool := 0
  fault := false

theorem aclParse_eq (c : SwConsts) (allocApps : Nat → Bool) (node : ConfigNode) (i : NasSwitchInfo) :
    nasSwitchUpdateAclProfileInfo c true allocApps node i =
      match untilError (aclElem c allocApps) (aclStart node i) (aclElems node.children) with
      | (.ok, s) => (.ok, { s with info := setAclProfileValid s.info })
      | r => r := by
  simp only [nasSwitchUpdateAclProfileInfo, aclStagePools_fold, aclAlloc, if_true, not_true, if_false, UInt32.zero_add,
    ← aclStages_eq]
  rfl

theorem aclParse_spec (c : SwConsts) (allocApps : Nat → Bool) (node : ConfigNode) (i : NasSwitchInfo) :
    AclParsed c allocApps node i (nasSwitchUpdateAclProfileInfo c true allocApps node i) := by
  have hblank : Blank (aclStart node i) := by
    intro j _ g hg
    exact List.eq_of_mem_replicate (List.mem_of_getElem? hg)
  obtain ⟨hrc, hinfo, hidx, hfault⟩ := aclElems_spec c allocApps (aclElems node.children) (aclStart node i) hblank
  rw [aclElems_groups] at hrc hinfo hidx hfault
  have hlen := length_parsedEntries c allocApps node
  have hreached : reached allocApps 0 (aclGroups node) ≤ (aclGroups node).length := reached_le _ _ _
  have htable : Table.overlay (List.replicate (totalPools node).toNat AclProfileAppGroupInfo.zero) 0
      ((parsedEntries c allocApps node).take (reached allocApps 0 (aclGroups node))) =
      (parsedEntries c allocApps node).take (min (totalPools node).toNat (reached allocApps 0 (aclGroups node))) ++
        List.replicate ((totalPools node).toNat - reached allocApps 0 (aclGroups node)) .zero := by
    have hmin : min (reached allocApps 0 (aclGroups node)) (parsedEntries c allocApps node).length =
        reached allocApps 0 (aclGroups node) := by omega
    rw [Table.overlay_replicate, List.take_take, List.length_take, hmin]
  have hpast : decide (0 < reached allocApps 0 (aclGroups node) ∧
        (List.replicate (totalPools node).toNat AclProfileAppGroupInfo.zero).length <
          0 + reached allocApps 0 (aclGroups node)) =
      decide ((totalPools node).toNat < reached allocApps 0 (aclGroups node)) := by
    rw [List.length_replicate, decide_eq_decide]
    omega
  rw [aclParse_eq]
  generalize untilError (aclElem c allocApps) (aclStart node i) (aclElems node.children) = r at hrc hinfo hidx hfault
  obtain ⟨rc, t⟩ := r
  have hinfo' : t.info = _ :=
    hinfo.trans (congrArg (fun l => { (aclStart node i).info with aclProfileAppGroupInfo := l }) htable)
  cases rc with
  | ok =>
    refine ⟨hrc, ?_, ?_, ?_, ?_, hidx.trans (Nat.zero_add _), hfault.trans hpast⟩
    all_goals simp [setAclProfileValid, hinfo', aclStart]
  | err =>
    refine ⟨hrc, ?_, ?_, ?_, ?_, hidx.trans (Nat.zero_add _), hfault.trans hpast⟩
    all_goals simp [hinfo', aclStart]

/-- The table keeps the size it was allocated with, where the groups fit it. -/
theorem AclParsed.length {c : SwConsts} {allocApps : Nat → Bool} {node : ConfigNode} {i : NasSwitchInfo}
    {r : StdError × AclParse} (h : AclParsed c allocApps node i r)
    (hfits : reached allocApps 0 (aclGroups node) ≤ (totalPools node).toNat) :
    r.2.info.aclProfileAppGroupInfo.length = (totalPools node).toNat := by
  have hlen := length_parsedEntries c allocApps node
  have hgroups : reached allocApps 0 (aclGroups node) ≤ (aclGroups node).length := reached_le _ _ _
  rw [h.table, List.length_append, List.length_take, List.length_replicate]
  omega

/-- Without memory for the table there is none, and no pools. -/
theorem aclParse_noAlloc (c : SwConsts) (allocApps : Nat → Bool) (node : ConfigNode) (i : NasSwitchInfo) :
    let r := nasSwitchUpdateAclProfileInfo c false allocApps node i
    r.1 = parseParam ∧ r.2.fault = false ∧ r.2.info.aclProfileAppGroupInfo = [] ∧ r.2.info.aclPools = 0 ∧
      r.2.info.aclProfileValid = i.aclProfileValid := by
  simp only [nasSwitchUpdateAclProfileInfo, aclStagePools_fold, aclAlloc]
  exact ⟨rfl, rfl, rfl, rfl, rfl⟩

/-- The call changes the ACL settings alone. -/
theorem aclParse_only (c : SwConsts) (allocGroups : Bool) (allocApps : Nat → Bool) (node : ConfigNode)
    (i : NasSwitchInfo) :
    ∃ table ingress egress valid, (nasSwitchUpdateAclProfileInfo c allocGroups allocApps node i).2.info =
      { i with
        aclProfileAppGroupInfo := table
        aclProfileMaxIngressPoolCount := ingress
        aclProfileMaxEgressPoolCount := egress
        aclProfileValid := valid } := by
  cases allocGroups with
  | false =>
    simp only [nasSwitchUpdateAclProfileInfo, aclStagePools_fold, aclAlloc]
    exact ⟨[], 0, 0, i.aclProfileValid, rfl⟩
  | true =>
    have hblank : Blank (aclStart node i) := by
      intro j _ g hg
      exact List.eq_of_mem_replicate (List.mem_of_getElem? hg)
    have hinfo := (aclElems_spec c allocApps (aclElems node.children) (aclStart node i) hblank).info
    rw [aclParse_eq]
    generalize untilError (aclElem c allocApps) (aclStart node i) (aclElems node.children) = r at hinfo
    obtain ⟨rc, t⟩ := r
    replace hinfo : t.info = _ := hinfo
    cases rc with
    | ok =>
      refine ⟨t.info.aclProfileAppGroupInfo, t.info.aclProfileMaxIngressPoolCount, t.info.aclProfileMaxEgressPoolCount,
        true, ?_⟩
      show setAclProfileValid t.info = _
      rw [hinfo]
      rfl
    | err =>
      refine ⟨t.info.aclProfileAppGroupInfo, t.info.aclProfileMaxIngressPoolCount, t.info.aclProfileMaxEgressPoolCount,
        t.info.aclProfileValid, ?_⟩
      show t.info = _
      rw [hinfo]
      rfl

/-- A profile that was accepted, its table holding all its app groups. -/
theorem aclParse_ok {c : SwConsts} {allocGroups : Bool} {allocApps : Nat → Bool} {node : ConfigNode}
    {i : NasSwitchInfo} {s : AclParse} (h : nasSwitchUpdateAclProfileInfo c allocGroups allocApps node i = (.ok, s))
    (hin : s.fault = false) :
    s.info.aclProfileValid = true ∧
      s.info.aclProfileMaxIngressPoolCount = ingressPools node i.aclProfileMaxIngressPoolCount ∧
      s.info.aclProfileMaxEgressPoolCount = egressPools node i.aclProfileMaxEgressPoolCount ∧
      s.info.aclProfileAppGroupInfo = parsedEntries c allocApps node ++
        List.replicate ((totalPools node).toNat - (aclGroups node).length) .zero := by
  cases allocGroups with
  | false =>
    have hrc := (aclParse_noAlloc c allocApps node i).1
    rw [h] at hrc
    cases hrc
  | true =>
    have hp := aclParse_spec c allocApps node i
    rw [h] at hp
    obtain ⟨hrc, htable, hingress, hegress, hvalid, -, hfault⟩ := hp
    -- every group was accepted, and every write fitted
    have hall : accepted allocApps 0 (aclGroups node) = (aclGroups node).length := by
      by_contra hne
      rw [if_neg hne] at hrc
      cases hrc
    have hreached : reached allocApps 0 (aclGroups node) = (aclGroups node).length := by
      rw [reached_eq, hall]; omega
    have hle : (aclGroups node).length ≤ (totalPools node).toNat := by
      have := hfault.symm.trans hin
      rw [decide_eq_false_iff_not, hreached] at this
      omega
    refine ⟨by rw [hvalid]; simp, hingress, hegress, ?_⟩
    rw [htable, hreached, Nat.min_eq_right hle,
      List.take_of_length_le (Nat.le_of_eq (length_parsedEntries c allocApps node))]

/-! ## The table's bounds -/

/-- From whatever an earlier section left, and where the pools do not overflow their sum:
    every write is inside the table, and so is every group the loops bounded by the two
    counts read, exactly where no more app groups are written than there are pools, and
    the counts, kept from before for a stage that is not there, are no more either. -/
theorem aclParse_inside_iff (c : SwConsts) (allocGroups : Bool) (allocApps : Nat → Bool) (node : ConfigNode)
    (i : NasSwitchInfo) (hsum : poolSum node < 2 ^ 32) :
    let s := (nasSwitchUpdateAclProfileInfo c allocGroups allocApps node i).2
    (s.fault = false ∧ ∀ idx < s.info.aclPools, idx < s.info.aclProfileAppGroupInfo.length) ↔
      (allocGroups = true → reached allocApps 0 (aclGroups node) ≤ poolSum node ∧ configuredPools node i ≤ poolSum node) := by
  cases allocGroups with
  | false =>
    obtain ⟨-, hfault, -, hpools, -⟩ := aclParse_noAlloc c allocApps node i
    refine iff_of_true ⟨hfault, fun idx hidx => ?_⟩ (fun h => by cases h)
    rw [hpools] at hidx
    cases hidx
  | true =>
    have hparsed := aclParse_spec c allocApps node i
    have hpools : (nasSwitchUpdateAclProfileInfo c true allocApps node i).2.info.aclPools = configuredPools node i := by
      rw [NasSwitchInfo.aclPools, hparsed.ingress, hparsed.egress]
      rfl
    dsimp only
    rw [hparsed.fault, decide_eq_false_iff_not, Nat.not_lt, totalPools_of_lt hsum, hpools]
    simp only [true_implies]
    refine and_congr_right fun hreached => ?_
    rw [hparsed.length (by rwa [totalPools_of_lt hsum]), totalPools_of_lt hsum]
    exact ⟨fun h => le_of_forall_lt h, fun h idx hidx => Nat.lt_of_lt_of_le hidx h⟩

/-- From no pools the counts are always among the pools. -/
theorem configuredPools_le {node : ConfigNode} {i : NasSwitchInfo} (hstart : i.aclPools = 0) :
    configuredPools node i ≤ poolSum node := by
  have hzero : i.aclProfileMaxIngressPoolCount = 0 ∧ i.aclProfileMaxEgressPoolCount = 0 := by
    unfold NasSwitchInfo.aclPools at hstart
    constructor
    · apply UInt8.toNat_inj.mp; simp; omega
    · apply UInt8.toNat_inj.mp; simp; omega
  rw [configuredPools, hzero.1, hzero.2]
  exact pools_le_sum node

/-- The values `dell-base-acl.h` gives the two stages. -/
def aclConsts : SwConsts := ⟨0, 0, 1, 2⟩

def aclAppNode (app : String) : ConfigNode := .mk "app".toList [("app", app.toList)] []

def aclGroupNode (attrs : List (String × CString)) : ConfigNode := .mk "app-group".toList attrs [aclAppNode "a"]

def aclStageNode (type maxPoolAvail : String) (groups : List ConfigNode) : ConfigNode :=
  .mk "stage".toList [("type", type.toList), ("max_pool_avail", maxPoolAvail.toList)] groups

def aclProfileNode (stages : List ConfigNode) : ConfigNode := .mk "acl-profile".toList [] stages

/-- Two app groups, in the pools of one stage. -/
def twoGroups (maxPoolAvail : String) : ConfigNode :=
  aclProfileNode [aclStageNode "ingress" maxPoolAvail
    [aclGroupNode [("name", "g0".toList)], aclGroupNode [("name", "g1".toList)]]]

theorem aclParse_inside_iff_two :
    let s := (nasSwitchUpdateAclProfileInfo aclConsts true (fun _ => true) (twoGroups "2") .zero).2
    s.fault = false ∧ ∀ idx < s.info.aclPools, idx < s.info.aclProfileAppGroupInfo.length :=
  (aclParse_inside_iff aclConsts true (fun _ => true) (twoGroups "2") .zero (by decide)).mpr fun _ => by decide

/-- In one pool, the second is written past the table's end. -/
theorem second_group_past_end : poolSum (twoGroups "1") < 2 ^ 32 ∧
    (nasSwitchUpdateAclProfileInfo aclConsts true (fun _ => true) (twoGroups "1") .zero).1 = .ok ∧
      (nasSwitchUpdateAclProfileInfo aclConsts true (fun _ => true) (twoGroups "1") .zero).2.fault = true := by
  decide

-- a section after one with five egress pools: its table has one entry, the loops go on to six
example :
    let first := aclProfileNode [aclStageNode "egress" "5" []]
    let second := aclProfileNode [aclStageNode "ingress" "1" [aclGroupNode [("name", "g0".toList)]]]
    let i := (nasSwitchUpdateAclProfileInfo aclConsts true (fun _ => true) first .zero).2.info
    let s := (nasSwitchUpdateAclProfileInfo aclConsts true (fun _ => true) second i).2
    reached (fun _ => true) 0 (aclGroups second) ≤ poolSum second ∧ s.fault = false ∧ s.info.aclPools = 6 ∧
      s.info.aclProfileAppGroupInfo.length = 1 := by
  decide

end NasCommon.SwProfile
