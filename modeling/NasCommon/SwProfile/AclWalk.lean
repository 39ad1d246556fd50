/-
  NasCommon.SwProfile.AclWalk — walking the app groups with
  `nas_sw_acl_profile_db_get_next`.

  A walker asks first with a null name and then with each name it is given, until an
  error. The loop is bounded by the pools, so where there are fewer app groups the walk
  goes on to entries that were never filled.
  - `AppGroups.walk_iff`: over any table, the answers are its app groups when they are
    as many as the pools, and only then.
  - `acl_walk_iff`: so over an accepted one. `unfilled_entry_walked`: three pools, two
    groups.
-/

import NasCommon.SwProfile.AclQuery

namespace NasCommon.SwProfile

/-- The answers of a walk, up to the error: a name is asked about with the name before. -/
inductive DbWalk (i : NasSwitchInfo) : Option CString → List (CString × UInt32) → Prop
  | stop {appGroupName : Option CString} {e : StdError} (h : nasSwAclProfileDbGetNext i appGroupName = .err e) :
      DbWalk i appGroupName []
  | next {appGroupName : Option CString} {row : CString × UInt32} {rows : List (CString × UInt32)}
      (h : nasSwAclProfileDbGetNext i appGroupName = .ok row) (rest : DbWalk i (some row.1) rows) :
      DbWalk i appGroupName (row :: rows)

theorem dbWalk_nil_iff {i : NasSwitchInfo} {name : Option CString} :
    DbWalk i name [] ↔ ∃ e, nasSwAclProfileDbGetNext i name = .err e := by
  constructor
  · intro h
    obtain ⟨h⟩ := h
    exact ⟨_, h⟩
  · intro h
    obtain ⟨e, h⟩ := h
    exact .stop h

theorem dbWalk_cons_iff {i : NasSwitchInfo} {name : Option CString} {row : CString × UInt32}
    {rows : List (CString × UInt32)} :
    DbWalk i name (row :: rows) ↔ nasSwAclProfileDbGetNext i name = .ok row ∧ DbWalk i (some row.1) rows := by
  constructor
  · intro h
    cases h with
    | next h rest => exact ⟨h, rest⟩
  · intro h
    obtain ⟨h, rest⟩ := h
    exact .next h rest

/-- A group's name, as it is found under, and its current pool count. -/
def nameCount (g : AclProfileAppGroupInfo) : CString × UInt32 := (g.appGroupName.name, g.currentPoolCount.toUInt32)

theorem aclRow_eq {g : AclProfileAppGroupInfo} (h : g.appGroupName.name.length < nasCmnProfileNameSize) :
    aclRow g = nameCount g := by
  unfold aclRow nameCount
  rw [safestrncpy_fits h]

/-- A call with a group's name. -/
theorem AppGroups.next_eq {i : NasSwitchInfo} {groups : List AclProfileAppGroupInfo} (h : AppGroups i groups) {k : Nat}
    {g : AclProfileAppGroupInfo} (hg : groups[k]? = some g) :
    nasSwAclProfileDbGetNext i (some g.appGroupName.name) =
      if i.aclPools ≤ k + 1 then .err aclParam else rowAt i (k + 1) := by
  unfold nasSwAclProfileDbGetNext
  rw [h.find hg]
  rfl

/-- From a group on, the walk answers with those behind it when these are all the pools. -/
theorem AppGroups.walk_after {i : NasSwitchInfo} {groups : List AclProfileAppGroupInfo} (h : AppGroups i groups)
    (hshort : Profile.Short groups) (after : List AclProfileAppGroupInfo) : ∀ before g, groups = before ++ g :: after →
    (DbWalk i (some g.appGroupName.name) (after.map nameCount) ↔ groups.length = i.aclPools) := by
  induction after with
  | nil =>
    intro before g hgroups
    have hlen : groups.length = before.length + 1 := by rw [hgroups]; simp
    have hfits := h.fits
    rw [List.map_nil, dbWalk_nil_iff, h.next_eq (k := before.length) (by rw [hgroups]; simp)]
    split
    · exact iff_of_true ⟨_, rfl⟩ (by omega)
    · refine iff_of_false ?_ (by omega)
      intro h
      obtain ⟨e, he⟩ := h
      exact rowAt_ne_err _ _ _ he
  | cons g' after ih =>
    intro before g hgroups
    have hg' : groups[before.length + 1]? = some g' := by
      rw [hgroups, List.getElem?_append_right (by omega)]
      simp
    have hlen : before.length + 1 < groups.length := (List.getElem?_eq_some_iff.mp hg').1
    have hrow : nasSwAclProfileDbGetNext i (some g.appGroupName.name) = .ok (nameCount g') := by
      have hfits := h.fits
      rw [h.next_eq (k := before.length) (by rw [hgroups]; simp), if_neg (by omega), rowAt, h.getElem? hlen, hg',
        ← aclRow_eq (hshort g' (List.mem_of_getElem? hg'))]
    rw [List.map_cons, dbWalk_cons_iff]
    refine ⟨fun hw => (ih (before ++ [g]) g' (by rw [hgroups]; simp)).mp hw.2, fun hn => ⟨hrow, ?_⟩⟩
    exact (ih (before ++ [g]) g' (by rw [hgroups]; simp)).mpr hn

/-- The walk from a null name answers with the app groups in order, and then with an
    error, exactly where there are as many as pools. -/
theorem AppGroups.walk_iff {i : NasSwitchInfo} {groups : List AclProfileAppGroupInfo} (h : AppGroups i groups)
    (hshort : Profile.Short groups) : DbWalk i none (groups.map nameCount) ↔ groups.length = i.aclPools := by
  cases groups with
  | nil =>
    rw [List.map_nil, dbWalk_nil_iff, next_null]
    by_cases hpools : i.aclPools = 0
    · rw [if_pos hpools]
      exact iff_of_true ⟨_, rfl⟩ hpools.symm
    · rw [if_neg hpools]
      refine iff_of_false ?_ (fun he => hpools he.symm)
      intro h
      obtain ⟨e, he⟩ := h
      exact rowAt_ne_err _ _ _ he
  | cons g after =>
    have hpools : i.aclPools ≠ 0 := by
      have := h.fits
      rw [List.length_cons] at this
      omega
    have hrow : nasSwAclProfileDbGetNext i none = .ok (nameCount g) := by
      rw [next_null, if_neg hpools, rowAt, h.getElem? (Nat.succ_pos _), List.getElem?_cons_zero,
        ← aclRow_eq (hshort g List.mem_cons_self)]
    rw [List.map_cons, dbWalk_cons_iff]
    refine ⟨fun hw => (h.walk_after hshort after [] g rfl).mp hw.2, fun hn => ⟨hrow, ?_⟩⟩
    exact (h.walk_after hshort after [] g rfl).mpr hn

/-! ## Over an accepted profile -/

/-- Over an accepted profile, its groups' names different and no more of them than
    pools, the walk answers with every app group in order, and then with an error,
    exactly where there are as many as pools. -/
theorem acl_walk_iff {c : SwConsts} {allocGroups : Bool} {allocApps : Nat → Bool} {node : ConfigNode}
    {i : NasSwitchInfo} {s : AclParse} (h : nasSwitchUpdateAclProfileInfo c allocGroups allocApps node i = (.ok, s))
    (hin : s.fault = false) (hnodup : ((aclGroups node).map groupName).Nodup)
    (hfits : (aclGroups node).length ≤ configuredPools node i) :
    DbWalk s.info none ((parsedEntries c allocApps node).map nameCount) ↔
      (aclGroups node).length = configuredPools node i := by
  rw [(profile_of_parse h hin hnodup hfits).walk_iff (parsed_short c allocApps node), length_parsedEntries,
    parsed_aclPools h hin]

theorem acl_walk_iff_two :
    DbWalk (nasSwitchUpdateAclProfileInfo aclConsts true (fun _ => true) (twoGroups "2") .zero).2.info none
      ((parsedEntries aclConsts (fun _ => true) (twoGroups "2")).map nameCount) :=
  (acl_walk_iff (Prod.ext (by decide) rfl) (by decide) (by decide) (by decide)).mpr (by decide)

/-- In three pools, the walk goes on to an entry without a name. -/
theorem unfilled_entry_walked :
    let r := nasSwitchUpdateAclProfileInfo aclConsts true (fun _ => true) (twoGroups "3") .zero
    r.1 = .ok ∧ r.2.fault = false ∧ ((aclGroups (twoGroups "3")).map groupName) = ["g0".toList, "g1".toList] ∧
      (aclGroups (twoGroups "3")).length ≤ r.2.info.aclPools ∧
      nasSwAclProfileDbGetNext r.2.info (some "g1".toList) = .ok ([], 0) ∧
      ¬ DbWalk r.2.info none ((parsedEntries aclConsts (fun _ => true) (twoGroups "3")).map nameCount) := by
  refine ⟨by decide, by decide, by decide, by decide, by decide, fun h => ?_⟩
  obtain ⟨-, h⟩ := dbWalk_cons_iff.mp h
  obtain ⟨-, h⟩ := dbWalk_cons_iff.mp h
  obtain ⟨e, h⟩ := dbWalk_nil_iff.mp h
  cases h

end NasCommon.SwProfile
