/-
  NasCommon.SwProfile.AclSupport — which ACL profile the other clients see.

  `nas_sw_acl_profile_db_config_supported` answers for a name, and in general for a null
  one; both loops stop at the first group they look at.
  - `acl_supported_iff`: the two agree exactly where the first group's stage has more
    than one pool or no group's has.
  - `rejected_invisible_iff`: a rejected profile is seen by no query exactly where its
    stages have no pools or its table no memory; the others forget to look at
    `acl_profile_valid`.
-/

import NasCommon.SwProfile.AclQuery

namespace NasCommon.SwProfile

/-! ## The general support check and the per-group one -/

theorem stageNumPools_le (c : SwConsts) (i : NasSwitchInfo) (g : AclProfileAppGroupInfo) :
    stageNumPools c i g ≤ i.aclPools := by
  unfold stageNumPools NasSwitchInfo.aclPools
  split
  · omega
  split <;> omega

theorem supported_null_iff (c : SwConsts) {i : NasSwitchInfo} (hvalid : i.aclProfileValid = true) :
    nasSwAclProfileDbConfigSupported c i none = some true ↔
      ∃ g, i.aclProfileAppGroupInfo[0]? = some g ∧ 1 < stageNumPools c i g := by
  unfold nasSwAclProfileDbConfigSupported
  rw [if_neg (by simp [hvalid]), find_null]
  by_cases hpools : i.aclPools = 0
  · refine iff_of_false (by simp [hpools]) ?_
    intro h
    obtain ⟨g, -, hg⟩ := h
    have := stageNumPools_le c i g
    omega
  · rw [if_neg hpools]
    cases i.aclProfileAppGroupInfo[0]? with
    | none => simp
    | some g => by_cases hg : stageNumPools c i g ≤ 1 <;> simp [hg]; omega

theorem supported_name_iff (c : SwConsts) {i : NasSwitchInfo} (hvalid : i.aclProfileValid = true) (name : CString) :
    nasSwAclProfileDbConfigSupported c i (some name) = some true ↔
      ∃ k g, FirstBelow i.aclProfileAppGroupInfo i.aclPools k g ∧ g.appGroupName.name = name ∧
        1 < stageNumPools c i g := by
  unfold nasSwAclProfileDbConfigSupported
  rw [if_neg (by simp [hvalid])]
  have hhit : ∀ k g, FirstBelow i.aclProfileAppGroupInfo i.aclPools k g → g.appGroupName.name = name →
      findAppGroup i (some name) = .hit k g := fun _ _ hfirst hname => find_hit_iff.mpr ⟨hfirst, hname⟩
  cases hfind : findAppGroup i (some name) with
  | missing =>
    refine iff_of_false (by simp) fun ⟨k, g, hfirst, hname, _⟩ => ?_
    rw [hhit k g hfirst hname] at hfind
    cases hfind
  | pastEnd =>
    refine iff_of_false (by simp) fun ⟨k, g, hfirst, hname, _⟩ => ?_
    rw [hhit k g hfirst hname] at hfind
    cases hfind
  | hit k g =>
    obtain ⟨hfirst, hname⟩ := find_hit_iff.mp hfind
    refine ⟨fun h => ⟨k, g, hfirst, hname, ?_⟩, fun ⟨k', g', hfirst', hname', hlt⟩ => ?_⟩
    · by_contra hle
      simp [Nat.not_lt.mp hle] at h
    · have hsame := (hhit k' g' hfirst' hname').symm.trans hfind
      cases hsame
      simp [Nat.not_le.mpr hlt]

/-- Blanks behind the app groups do not matter to the name of one. -/
theorem firstBelow_append {groups blanks : List AclProfileAppGroupInfo} {bound k : Nat} {g g' : AclProfileAppGroupInfo}
    (hmem : g' ∈ groups) (hname : g.appGroupName.name = g'.appGroupName.name) :
    FirstBelow (groups ++ blanks) bound k g ↔ FirstBelow groups bound k g := by
  obtain ⟨j, hj⟩ := List.mem_iff_getElem?.mp hmem
  have hjlen : j < groups.length := (List.getElem?_eq_some_iff.mp hj).1
  have hget : ∀ {m}, m < groups.length → (groups ++ blanks)[m]? = groups[m]? := fun hm => List.getElem?_append_left hm
  constructor
  · intro h
    obtain ⟨hk, hg, hbefore⟩ := h
    have hklen : k ≤ j := by
      by_contra hlt
      exact hbefore j (by omega) g' ((hget hjlen).trans hj) hname.symm
    exact ⟨hk, (hget (by omega)).symm.trans hg, fun m hm b hb => hbefore m hm b ((hget (by omega)).trans hb)⟩
  · intro h
    obtain ⟨hk, hg, hbefore⟩ := h
    have hklen : k < groups.length := (List.getElem?_eq_some_iff.mp hg).1
    exact ⟨hk, (hget hklen).trans hg, fun m hm b hb => hbefore m hm b ((hget (by omega)).symm.trans hb)⟩

/-- Group `k` alone has its name. -/
def OnlyNamed (groups : List AclProfileAppGroupInfo) (k : Nat) (g : AclProfileAppGroupInfo) : Prop :=
  groups[k]? = some g ∧ ∀ j b, groups[j]? = some b → b.appGroupName.name = g.appGroupName.name → j = k

section Supported

variable {c : SwConsts} {i : NasSwitchInfo} {groups blanks : List AclProfileAppGroupInfo}

theorem supported_group_iff (hvalid : i.aclProfileValid = true) (htable : i.aclProfileAppGroupInfo = groups ++ blanks)
    {g' : AclProfileAppGroupInfo} (hmem : g' ∈ groups) :
    nasSwAclProfileDbConfigSupported c i (some g'.appGroupName.name) = some true ↔
      ∃ k g, FirstBelow groups i.aclPools k g ∧ g.appGroupName.name = g'.appGroupName.name ∧
        1 < stageNumPools c i g := by
  rw [supported_name_iff c hvalid, htable]
  refine exists_congr fun k => exists_congr fun g => ?_
  constructor
  · intro h
    obtain ⟨hfirst, hname, hlt⟩ := h
    exact ⟨(firstBelow_append hmem hname).mp hfirst, hname, hlt⟩
  · intro h
    obtain ⟨hfirst, hname, hlt⟩ := h
    exact ⟨(firstBelow_append hmem hname).mpr hfirst, hname, hlt⟩

/-- Some group is supported. -/
theorem supported_any_iff (hvalid : i.aclProfileValid = true) (htable : i.aclProfileAppGroupInfo = groups ++ blanks) :
    (∃ g ∈ groups, nasSwAclProfileDbConfigSupported c i (some g.appGroupName.name) = some true) ↔
      ∃ k g, FirstBelow groups i.aclPools k g ∧ 1 < stageNumPools c i g := by
  constructor
  · intro h
    obtain ⟨g', hmem, hsup⟩ := h
    obtain ⟨k, g, hfirst, -, hlt⟩ := (supported_group_iff hvalid htable hmem).mp hsup
    exact ⟨k, g, hfirst, hlt⟩
  · intro h
    obtain ⟨k, g, hfirst, hlt⟩ := h
    have hmem : g ∈ groups := List.mem_of_getElem? hfirst.2.1
    exact ⟨g, hmem, (supported_group_iff hvalid htable hmem).mpr ⟨k, g, hfirst, rfl, hlt⟩⟩

/-- The general answer is that of the first group. -/
theorem general_agrees_iff (hvalid : i.aclProfileValid = true) (htable : i.aclProfileAppGroupInfo = groups ++ blanks)
    (hblank : ∀ g ∈ blanks, stageNumPools c i g ≤ 1) :
    (nasSwAclProfileDbConfigSupported c i none = some true ↔
        ∃ g ∈ groups, nasSwAclProfileDbConfigSupported c i (some g.appGroupName.name) = some true) ↔
      ∀ g₀, groups.head? = some g₀ →
        1 < stageNumPools c i g₀ ∨ ∀ k g, FirstBelow groups i.aclPools k g → stageNumPools c i g ≤ 1 := by
  rw [supported_any_iff hvalid htable, supported_null_iff c hvalid, htable]
  cases groups with
  | nil =>
    refine iff_of_true (iff_of_false ?_ ?_) (fun g₀ h => by cases h)
    · intro h
      obtain ⟨g, hg, hlt⟩ := h
      have := hblank g (List.mem_of_getElem? hg)
      omega
    · intro h
      obtain ⟨k, g, ⟨-, hg, -⟩, -⟩ := h
      cases hg
  | cons g₀ rest =>
    simp only [List.cons_append, List.getElem?_cons_zero, List.head?_cons, Option.some.injEq, exists_eq_left',
      forall_eq']
    by_cases hfirst : 1 < stageNumPools c i g₀
    · have hpools := stageNumPools_le c i g₀
      refine iff_of_true (iff_of_true hfirst ⟨0, g₀, ⟨by omega, rfl, fun j hj => by omega⟩, hfirst⟩) (Or.inl hfirst)
    · constructor
      · intro h
        refine Or.inr fun k g hg => Nat.not_lt.mp fun hlt => hfirst (h.mpr ⟨k, g, hg, hlt⟩)
      · intro h
        refine iff_of_false hfirst ?_
        intro h
        obtain ⟨k, g, hg, hlt⟩ := h
        have := h.resolve_left hfirst k g hg
        omega

/-- The answer for a name that one group has. -/
theorem named_agrees_iff (hvalid : i.aclProfileValid = true) (htable : i.aclProfileAppGroupInfo = groups ++ blanks) :
    (∀ k g, OnlyNamed groups k g →
        (nasSwAclProfileDbConfigSupported c i (some g.appGroupName.name) = some true ↔ 1 < stageNumPools c i g)) ↔
      ∀ k g, OnlyNamed groups k g → 1 < stageNumPools c i g → k < i.aclPools := by
  constructor
  · intro h k g honly hlt
    obtain ⟨k', g', hfirst, hname, -⟩ :=
      (supported_group_iff hvalid htable (List.mem_of_getElem? honly.1)).mp ((h k g honly).mpr hlt)
    rw [← honly.2 k' g' hfirst.2.1 hname]
    exact hfirst.1
  · intro h k g honly
    rw [supported_group_iff hvalid htable (List.mem_of_getElem? honly.1)]
    constructor
    · intro h
      obtain ⟨k', g', hfirst, hname, hlt⟩ := h
      have hk := honly.2 k' g' hfirst.2.1 hname
      subst hk
      have := hfirst.2.1.symm.trans honly.1
      cases this
      exact hlt
    · intro hlt
      refine ⟨k, g, ⟨h k g honly hlt, honly.1, fun j hj b hb hname => ?_⟩, rfl, hlt⟩
      have := honly.2 j b hb hname
      omega

end Supported

/-- Over an accepted profile: the general answer is yes exactly where some group's is,
    and a name that one group has is supported exactly where its stage has more than one
    pool, if and only if the first group's stage has more than one pool or no group that
    the loop can reach has, and every such group is below the bound of the loop. -/
theorem acl_supported_iff {c : SwConsts} {allocGroups : Bool} {allocApps : Nat → Bool} {node : ConfigNode}
    {i : NasSwitchInfo} {s : AclParse} (h : nasSwitchUpdateAclProfileInfo c allocGroups allocApps node i = (.ok, s))
    (hin : s.fault = false) (hconsts : c.baseAclStageIngress ≠ 0 ∧ c.baseAclStageEgress ≠ 0) :
    let groups := parsedEntries c allocApps node
    ((nasSwAclProfileDbConfigSupported c s.info none = some true ↔
        ∃ g ∈ groups, nasSwAclProfileDbConfigSupported c s.info (some g.appGroupName.name) = some true) ∧
      ∀ k g, OnlyNamed groups k g →
        (nasSwAclProfileDbConfigSupported c s.info (some g.appGroupName.name) = some true ↔ 1 < stageNumPools c s.info g)) ↔
    (∀ g₀, groups.head? = some g₀ →
        1 < stageNumPools c s.info g₀ ∨
          ∀ k g, FirstBelow groups (configuredPools node i) k g → stageNumPools c s.info g ≤ 1) ∧
      ∀ k g, OnlyNamed groups k g → 1 < stageNumPools c s.info g → k < configuredPools node i := by
  obtain ⟨hvalid, -, -, htable⟩ := aclParse_ok h hin
  have hblank : ∀ g ∈ List.replicate ((totalPools node).toNat - (aclGroups node).length) AclProfileAppGroupInfo.zero,
      stageNumPools c s.info g ≤ 1 := by
    intro g hg
    rw [List.eq_of_mem_replicate hg]
    have hzero : AclProfileAppGroupInfo.zero.stageType.toUInt32 = 0 := rfl
    unfold stageNumPools
    rw [hzero, if_neg hconsts.1.symm, if_neg hconsts.2.symm]
    omega
  rw [← parsed_aclPools h hin]
  exact and_congr (general_agrees_iff hvalid htable hblank) (named_agrees_iff hvalid htable)

/-- An app group in each of two stages. -/
def twoStages (ingress egress : String) : ConfigNode :=
  aclProfileNode [aclStageNode "ingress" ingress [aclGroupNode [("name", "g0".toList)]],
    aclStageNode "egress" egress [aclGroupNode [("name", "g1".toList)]]]

theorem acl_supported_iff_two :
    let s := (nasSwitchUpdateAclProfileInfo aclConsts true (fun _ => true) (twoStages "2" "1") .zero).2
    nasSwAclProfileDbConfigSupported aclConsts s.info none = some true ↔
      ∃ g ∈ parsedEntries aclConsts (fun _ => true) (twoStages "2" "1"),
        nasSwAclProfileDbConfigSupported aclConsts s.info (some g.appGroupName.name) = some true :=
  ((acl_supported_iff (Prod.ext (by decide) rfl) (by decide) (by decide)).mpr
    ⟨fun g₀ h => by cases h; exact Or.inl (by decide),
      fun _ _ honly _ => Nat.lt_of_lt_of_le (List.getElem?_eq_some_iff.mp honly.1).1 (by decide)⟩).1

/-- One ingress pool and two egress pools: a group may be configured, but not in general. -/
theorem general_refuses_group :
    let r := nasSwitchUpdateAclProfileInfo aclConsts true (fun _ => true) (twoStages "1" "2") .zero
    r.1 = .ok ∧ r.2.fault = false ∧ nasSwAclProfileDbConfigSupported aclConsts r.2.info none = some false ∧
      ∃ g ∈ parsedEntries aclConsts (fun _ => true) (twoStages "1" "2"),
        nasSwAclProfileDbConfigSupported aclConsts r.2.info (some g.appGroupName.name) = some true := by
  decide

/-! ## A rejected profile -/

/-- The queries answer as if there were no ACL profile. -/
structure Invisible (c : SwConsts) (i : NasSwitchInfo) : Prop where
  numDbGet : nasSwAclProfileNumDbGet i = (.ok, 0)
  dbGetNext : ∃ e, nasSwAclProfileDbGetNext i none = .err e
  appGroupInfoGet : ∀ env startup appGroupName list qualifier, ∃ rc,
    nasSwAclProfileAppGroupInfoGet i env startup appGroupName true list qualifier = some (rc, list)
  infoGet : nasSwAclProfileInfoGet c i = some (aclParam, [])
  appGroupInfoSet : ∀ s : AclSt, s.info = i → ∀ appGroupName nextBootPoolReq op,
    nasSwAclProfileAppGroupInfoSet c appGroupName nextBootPoolReq op s = (aclParam, s)

theorem supported_not_valid (c : SwConsts) {i : NasSwitchInfo} (hvalid : i.aclProfileValid = false)
    (name : Option CString) :
    nasSwAclProfileDbConfigSupported c i name = some false := by
  unfold nasSwAclProfileDbConfigSupported
  rw [if_pos (by simp [hvalid])]

/-- The queries that do not look at `acl_profile_valid` see the pools. -/
theorem invisible_iff (c : SwConsts) {i : NasSwitchInfo} (hvalid : i.aclProfileValid = false) :
    Invisible c i ↔ i.aclPools = 0 := by
  constructor
  · intro h
    by_contra hpools
    obtain ⟨e, he⟩ := h.dbGetNext
    rw [next_null, if_neg hpools] at he
    exact rowAt_ne_err _ _ _ he
  · intro hpools
    refine ⟨?_, ⟨aclParam, ?_⟩, ?_, ?_, ?_⟩
    · unfold nasSwAclProfileNumDbGet
      rw [if_pos (by simp [hvalid])]
    · rw [next_null, if_pos hpools]
    · intro env startup name list qualifier
      refine ⟨.ok, ?_⟩
      unfold nasSwAclProfileAppGroupInfoGet
      rw [if_neg (by simp), hpools]
      rfl
    · unfold nasSwAclProfileInfoGet
      rw [supported_not_valid c hvalid]
    · rintro s rfl name count op
      unfold nasSwAclProfileAppGroupInfoSet
      rw [supported_not_valid c hvalid]

/-- From no profile: one that is rejected is invisible exactly where its table found no
    memory or its stages have no pools. -/
theorem rejected_invisible_iff (c : SwConsts) (allocGroups : Bool) (allocApps : Nat → Bool) (node : ConfigNode)
    (i : NasSwitchInfo) (hvalid : i.aclProfileValid = false)
    (herr : (nasSwitchUpdateAclProfileInfo c allocGroups allocApps node i).1 ≠ .ok) :
    Invisible c (nasSwitchUpdateAclProfileInfo c allocGroups allocApps node i).2.info ↔
      allocGroups = false ∨ configuredPools node i = 0 := by
  cases allocGroups with
  | false =>
    obtain ⟨-, -, -, hnone, hsame⟩ := aclParse_noAlloc c allocApps node i
    exact iff_of_true ((invisible_iff c (hsame.trans hvalid)).mpr hnone) (Or.inl rfl)
  | true =>
    obtain ⟨-, -, hingress, hegress, hsame, -, -⟩ := aclParse_spec c allocApps node i
    have hstill : (nasSwitchUpdateAclProfileInfo c true allocApps node i).2.info.aclProfileValid = false := by
      rw [hsame, hvalid, decide_eq_false herr]
      rfl
    rw [invisible_iff c hstill, NasSwitchInfo.aclPools, hingress, hegress]
    simp [configuredPools]

/-- A stage whose one app group has no apps. -/
def noApps (type : String) : ConfigNode :=
  aclProfileNode [aclStageNode type "1" [.mk "app-group".toList [("name", "g0".toList)] []]]

theorem rejected_invisible_iff_other :
    Invisible aclConsts (nasSwitchUpdateAclProfileInfo aclConsts true (fun _ => true) (noApps "other") .zero).2.info :=
  (rejected_invisible_iff aclConsts true (fun _ => true) (noApps "other") .zero rfl (by decide)).mpr (Or.inr (by decide))

/-- The rejected group is handed to a walker. -/
theorem rejected_group_visible :
    let r := nasSwitchUpdateAclProfileInfo aclConsts true (fun _ => true) (noApps "ingress") .zero
    r.1 = parseParam ∧ nasSwAclProfileDbGetNext r.2.info none = .ok ("g0".toList, 0) ∧
      ¬ Invisible aclConsts r.2.info := by
  refine ⟨by decide, by decide, fun h => ?_⟩
  obtain ⟨e, h⟩ := h.dbGetNext
  cases h

end NasCommon.SwProfile
