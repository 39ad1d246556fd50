/-
  NasCommon.SwProfile.AclStartup — the app groups' pool counts, configured
  (`nas_sw_acl_profile_app_group_info_set`) and taken from the startup database
  (`nas_sw_acl_profile_parse_db_and_update`).

  Both put a 32-bit count into the first group of the name, where it is kept in eight
  bits. What one startup object gives is its entry, a name and a count (`aclEntry`).
  - `applyAll_applied`: after the startup objects, each group that its name finds has
    the count of the last entry of the name.
  - `startup_counts`: over a profile whose groups all are found.
  - `counts_kept_iff`: a count that is accepted is the count that was asked for where it
    is below 256 and its name finds the group.
-/

import NasCommon.SwProfile.AclQuery

namespace NasCommon.SwProfile

/-! ## One update -/

/-- A group with the count put into it. -/
def putCount (nextBootPoolCount : UInt32) (updateCurrentCount : Bool) (g : AclProfileAppGroupInfo) :
    AclProfileAppGroupInfo :=
  { g with
    nextBootPoolCount := nextBootPoolCount.toUInt8
    currentPoolCount := if updateCurrentCount then nextBootPoolCount.toUInt8 else g.currentPoolCount }

/-- Past the table's end nothing is found any more. -/
theorem updateCacheFrom_past (name : CString) (count : UInt32) (cur : Bool) (fuel : Nat) : ∀ idx (s : AclSt),
    s.info.aclProfileAppGroupInfo.length ≤ idx → s.fault = true →
      updateCacheFrom name count cur fuel idx s = (aclParam, s) := by
  induction fuel with
  | zero => intro idx s _ _; rfl
  | succ fuel ih =>
    intro idx s hlen hfault
    have hsame : { s with fault := true } = s := by rw [← hfault]
    unfold updateCacheFrom
    rw [List.getElem?_eq_none hlen]
    show updateCacheFrom name count cur fuel (idx + 1) { s with fault := true } = _
    rw [hsame]
    exact ih _ _ (Nat.le_succ_of_le hlen) hfault

theorem updateCacheFrom_eq (name : CString) (count : UInt32) (cur : Bool) (fuel : Nat) : ∀ idx (s : AclSt),
    updateCacheFrom name count cur fuel idx s =
      match Table.scanFrom (namedOrNull (some name)) s.info.aclProfileAppGroupInfo fuel idx with
      | .missing => (aclParam, s)
      | .pastEnd => (aclParam, { s with fault := true })
      | .hit k g => (.ok, { s with
          info.aclProfileAppGroupInfo := s.info.aclProfileAppGroupInfo.set k (putCount count cur g) }) := by
  induction fuel with
  | zero => intro idx s; rfl
  | succ fuel ih =>
    intro idx s
    unfold updateCacheFrom Table.scanFrom
    cases hx : s.info.aclProfileAppGroupInfo[idx]? with
    | none =>
      have hlen := List.getElem?_eq_none_iff.mp hx
      exact updateCacheFrom_past name count cur fuel (idx + 1) { s with fault := true } (Nat.le_succ_of_le hlen) rfl
    | some g =>
      by_cases hname : name = g.appGroupName.name
      · have hp : namedOrNull (some name) g = true := by simp [namedOrNull, hname]
        simp only [if_pos hname, hp, if_true]
        cases cur <;> rfl
      · have hp : namedOrNull (some name) g = false := by simp [namedOrNull, hname]
        simp only [if_neg hname, hp, Bool.false_eq_true, if_false]
        exact ih _ _

theorem updateCache_eq (name : CString) (count : UInt32) (cur : Bool) {s : AclSt}
    (hvalid : s.info.aclProfileValid = true) :
    nasSwitchAclProfileUpdateCache name count cur s =
      match findAppGroup s.info (some name) with
      | .missing => (aclParam, s)
      | .pastEnd => (aclParam, { s with fault := true })
      | .hit k g => (.ok, { s with
          info.aclProfileAppGroupInfo := s.info.aclProfileAppGroupInfo.set k (putCount count cur g) }) := by
  unfold nasSwitchAclProfileUpdateCache
  rw [if_neg (by simp [hvalid])]
  exact updateCacheFrom_eq name count cur _ 0 s

/-! ## Which groups the names find -/

/-- The names of the table. -/
def aclNames (i : NasSwitchInfo) : List CString := i.aclProfileAppGroupInfo.map fun g => g.appGroupName.name

/-- A name finds the group at index `k`: the first of the name, below the bound. -/
def FindsAt (i : NasSwitchInfo) (name : CString) (k : Nat) : Prop :=
  k < i.aclPools ∧ (aclNames i)[k]? = some name ∧ ∀ j < k, (aclNames i)[j]? ≠ some name

instance (i : NasSwitchInfo) (name : CString) (k : Nat) : Decidable (FindsAt i name k) :=
  inferInstanceAs (Decidable (_ ∧ _ ∧ _))

theorem findsAt_iff {i : NasSwitchInfo} {name : CString} {k : Nat} :
    FindsAt i name k ↔ ∃ g, findAppGroup i (some name) = .hit k g := by
  unfold FindsAt aclNames
  constructor
  · intro h
    obtain ⟨hk, hname, hbefore⟩ := h
    rw [List.getElem?_map, Option.map_eq_some_iff] at hname
    obtain ⟨g, hg, hname⟩ := hname
    refine ⟨g, find_hit_iff.mpr ⟨⟨hk, hg, fun j hj b hb heq => hbefore j hj ?_⟩, hname⟩⟩
    rw [List.getElem?_map, hb, Option.map_some, heq, hname]
  · intro h
    obtain ⟨g, h⟩ := h
    obtain ⟨⟨hk, hg, hbefore⟩, hname⟩ := find_hit_iff.mp h
    refine ⟨hk, by rw [List.getElem?_map, hg, Option.map_some, hname], fun j hj hj' => ?_⟩
    rw [List.getElem?_map, Option.map_eq_some_iff] at hj'
    obtain ⟨b, hb, hbname⟩ := hj'
    exact hbefore j hj b hb (hbname.trans hname.symm)

theorem not_findsAt {i : NasSwitchInfo} {name : CString} {k : Nat} (h : ∀ g, findAppGroup i (some name) ≠ .hit k g) :
    ¬ FindsAt i name k := by
  intro hfinds
  obtain ⟨g, hg⟩ := findsAt_iff.mp hfinds
  exact h g hg

/-- What an update changes: nothing but the counts. -/
structure SameNames (i j : NasSwitchInfo) : Prop where
  names : aclNames j = aclNames i
  pools : j.aclPools = i.aclPools
  valid : j.aclProfileValid = i.aclProfileValid

theorem SameNames.findsAt {i j : NasSwitchInfo} (h : SameNames i j) (name : CString) (k : Nat) :
    FindsAt j name k ↔ FindsAt i name k := by
  unfold FindsAt
  rw [h.names, h.pools]

theorem SameNames.refl (i : NasSwitchInfo) : SameNames i i := ⟨rfl, rfl, rfl⟩

theorem SameNames.trans {i j k : NasSwitchInfo} (h : SameNames i j) (h' : SameNames j k) : SameNames i k :=
  ⟨h'.names.trans h.names, h'.pools.trans h.pools, h'.valid.trans h.valid⟩

/-- An update puts the count into the group that the name finds, if any. -/
theorem updateCache_getElem? (name : CString) (count : UInt32) (cur : Bool) {s : AclSt}
    (hvalid : s.info.aclProfileValid = true) (k : Nat) :
    (nasSwitchAclProfileUpdateCache name count cur s).2.info.aclProfileAppGroupInfo[k]? =
      (s.info.aclProfileAppGroupInfo[k]?).map fun g => if FindsAt s.info name k then putCount count cur g else g := by
  rw [updateCache_eq name count cur hvalid]
  cases hfind : findAppGroup s.info (some name) with
  | missing =>
    have hno : ¬ FindsAt s.info name k := not_findsAt (by rw [hfind]; simp)
    simp [hno]
  | pastEnd =>
    have hno : ¬ FindsAt s.info name k := not_findsAt (by rw [hfind]; simp)
    simp [hno]
  | hit j g =>
    have hg : s.info.aclProfileAppGroupInfo[j]? = some g := (find_hit_iff.mp hfind).1.2.1
    have hj : j < s.info.aclProfileAppGroupInfo.length := (List.getElem?_eq_some_iff.mp hg).1
    by_cases hk : j = k
    · subst hk
      have hyes : FindsAt s.info name j := findsAt_iff.mpr ⟨g, hfind⟩
      rw [List.getElem?_set_self hj, hg, Option.map_some, if_pos hyes]
    · have hno : ¬ FindsAt s.info name k := not_findsAt (by rw [hfind]; simp [hk])
      simp [List.getElem?_set_ne hk, hno]

theorem updateCache_sameNames (name : CString) (count : UInt32) (cur : Bool) {s : AclSt}
    (hvalid : s.info.aclProfileValid = true) :
    SameNames s.info (nasSwitchAclProfileUpdateCache name count cur s).2.info := by
  have honly : OnlyAcl s (nasSwitchAclProfileUpdateCache name count cur s).2 := by
    unfold nasSwitchAclProfileUpdateCache
    rw [if_neg (by simp [hvalid])]
    exact updateCacheFrom_onlyAcl _ _ _ _ _ _
  obtain ⟨groups, hgroups⟩ := honly
  refine ⟨?_, by rw [hgroups]; rfl, by rw [hgroups]⟩
  apply List.ext_getElem?
  intro k
  unfold aclNames
  rw [List.getElem?_map, List.getElem?_map, updateCache_getElem? name count cur hvalid, Option.map_map]
  congr 1
  funext g
  show (if FindsAt s.info name k then putCount count cur g else g).appGroupName.name = _
  split <;> rfl

/-! ## The startup objects -/

/-- What an object gives: the last name and the last count in it, if it has both. -/
def aclEntry (obj : CpsObject AclAttr) : Option (CString × UInt32) :=
  (Attrs.last CpsAttr.id .appGroupId obj).bind fun name =>
    (Attrs.last CpsAttr.id .appGroupPoolCount obj).map fun count => (name.dataBin, count.dataU32)

/-- The loop over an object's attributes keeps the last of each. -/
theorem readAclAttr_foldl (obj : CpsObject AclAttr) : ∀ e : AclEntry,
    obj.foldl readAclAttr e =
      { appGroupName := ((Attrs.last CpsAttr.id .appGroupId obj).map CpsAttr.dataBin).getD e.appGroupName
        nextBootPoolCount :=
          ((Attrs.last CpsAttr.id .appGroupPoolCount obj).map CpsAttr.dataU32).getD e.nextBootPoolCount
        appGroupIdFound := e.appGroupIdFound || (Attrs.last CpsAttr.id .appGroupId obj).isSome
        nextBootPoolCountFound :=
          e.nextBootPoolCountFound || (Attrs.last CpsAttr.id .appGroupPoolCount obj).isSome } := by
  induction obj with
  | nil => intro e; simp
  | cons a obj ih =>
    intro e
    rw [List.foldl_cons, ih]
    have hself : ∀ {id}, a.id = id →
        Attrs.last CpsAttr.id id (a :: obj) = (Attrs.last CpsAttr.id id obj).or (some a) :=
      fun h => Attrs.last_cons_self h obj
    have hother : ∀ {id}, a.id ≠ id → Attrs.last CpsAttr.id id (a :: obj) = Attrs.last CpsAttr.id id obj :=
      fun h => Attrs.last_cons_other h obj
    cases hid : a.id with
    | switchId => rw [hother (by simp [hid]), hother (by simp [hid])]; simp [readAclAttr, hid]
    | appGroupId =>
      rw [hself hid, hother (by simp [hid])]
      cases Attrs.last CpsAttr.id .appGroupId obj <;> simp [readAclAttr, hid]
    | appGroupPoolCount =>
      rw [hother (by simp [hid]), hself hid]
      cases Attrs.last CpsAttr.id .appGroupPoolCount obj <;> simp [readAclAttr, hid]
    | other n => rw [hother (by simp [hid]), hother (by simp [hid])]; simp [readAclAttr, hid]

/-- Nothing of an object is left for the next but what it does not look at. -/
theorem applyAclObject_eq {e : AclEntry} (hname : e.appGroupIdFound = false) (hcount : e.nextBootPoolCountFound = false)
    (s : AclSt) (obj : CpsObject AclAttr) :
    (applyAclObject (e, s) obj).2 =
      (match aclEntry obj with
        | none => s
        | some (name, count) => (nasSwitchAclProfileUpdateCache name count true s).2) ∧
    (applyAclObject (e, s) obj).1.appGroupIdFound = false ∧
      (applyAclObject (e, s) obj).1.nextBootPoolCountFound = false := by
  refine ⟨?_, rfl, rfl⟩
  simp only [applyAclObject, readAclAttr_foldl, aclEntry, hname, hcount]
  cases Attrs.last CpsAttr.id .appGroupId obj with
  | none => simp
  | some name =>
    cases Attrs.last CpsAttr.id .appGroupPoolCount obj with
    | none => simp
    | some count => simp

/-- The count of the last entry with the name. -/
def lastCount (name : CString) (objs : List (CpsObject AclAttr)) : Option UInt32 :=
  (Attrs.last Prod.fst name (objs.filterMap aclEntry)).map Prod.snd

def putLast (count : Option UInt32) (g : AclProfileAppGroupInfo) : AclProfileAppGroupInfo :=
  match count with
  | none => g
  | some v => putCount v true g

theorem lastCount_append (name : CString) (objs objs' : List (CpsObject AclAttr)) :
    lastCount name (objs ++ objs') = (lastCount name objs').or (lastCount name objs) := by
  rw [lastCount, List.filterMap_append, Attrs.last_append, Option.map_or]
  rfl

theorem lastCount_singleton_some {obj : CpsObject AclAttr} {name : CString} {count : UInt32}
    (h : aclEntry obj = some (name, count)) : lastCount name [obj] = some count := by
  rw [lastCount, List.filterMap_cons_some h, Attrs.last_cons_self (a := (name, count)) rfl]
  rfl

/-- An object that does not give the name a count. -/
theorem lastCount_singleton_none {obj : CpsObject AclAttr} {name : CString} (h : ∀ v, aclEntry obj ≠ some (name, v)) :
    lastCount name [obj] = none := by
  unfold lastCount
  cases hentry : aclEntry obj with
  | none =>
    rw [List.filterMap_cons_none hentry]
    rfl
  | some entry =>
    have hne : entry.1 ≠ name := fun hname => h entry.2 (by rw [hentry, ← hname])
    rw [List.filterMap_cons_some hentry, Attrs.last_cons_other hne]
    rfl

theorem putLast_or (count later : Option UInt32) (g : AclProfileAppGroupInfo) :
    putLast (later.or count) g = putLast later (putLast count g) := by
  cases later <;> cases count <;> rfl

theorem putLast_name (count : Option UInt32) (g : AclProfileAppGroupInfo) :
    (putLast count g).appGroupName = g.appGroupName := by
  cases count <;> rfl

theorem FindsAt.name_eq {i : NasSwitchInfo} {name : CString} {k : Nat} (h : FindsAt i name k)
    {g : AclProfileAppGroupInfo} (hg : i.aclProfileAppGroupInfo[k]? = some g) : g.appGroupName.name = name := by
  have hname := h.2.1
  rw [aclNames, List.getElem?_map, hg, Option.map_some] at hname
  exact Option.some.inj hname

/-- Each group that its name finds is as after the last entry of the name in `objs`. -/
def Applied (objs : List (CpsObject AclAttr)) (s t : AclSt) : Prop :=
  SameNames s.info t.info ∧ ∀ k, t.info.aclProfileAppGroupInfo[k]? =
    (s.info.aclProfileAppGroupInfo[k]?).map fun g =>
      if FindsAt s.info g.appGroupName.name k then putLast (lastCount g.appGroupName.name objs) g else g

theorem Applied.nil (s : AclSt) : Applied [] s s :=
  ⟨SameNames.refl _, fun k => by simp [lastCount, putLast]⟩

theorem Applied.append {objs objs' : List (CpsObject AclAttr)} {s t u : AclSt} (h : Applied objs s t)
    (h' : Applied objs' t u) : Applied (objs ++ objs') s u := by
  obtain ⟨hsame, hget⟩ := h
  obtain ⟨hsame', hget'⟩ := h'
  refine ⟨hsame.trans hsame', fun k => ?_⟩
  rw [hget', hget, Option.map_map]
  congr 1
  funext g
  simp only [Function.comp, hsame.findsAt]
  by_cases hfinds : FindsAt s.info g.appGroupName.name k
  · simp only [if_pos hfinds, putLast_name, lastCount_append, putLast_or]
  · simp only [if_neg hfinds]

/-- One startup object. -/
theorem applyAclObject_applied {e : AclEntry} (hname : e.appGroupIdFound = false)
    (hcount : e.nextBootPoolCountFound = false) {s : AclSt} (hvalid : s.info.aclProfileValid = true)
    (obj : CpsObject AclAttr) :
    Applied [obj] s (applyAclObject (e, s) obj).2 := by
  rw [(applyAclObject_eq hname hcount s obj).1]
  cases hentry : aclEntry obj with
  | none =>
    refine ⟨SameNames.refl _, fun k => ?_⟩
    have hnone : ∀ name, lastCount name [obj] = none := fun name =>
      lastCount_singleton_none (fun v h => by rw [hentry] at h; cases h)
    simp [hnone, putLast]
  | some entry =>
    obtain ⟨name, count⟩ := entry
    refine ⟨updateCache_sameNames name count true hvalid, fun k => ?_⟩
    show (nasSwitchAclProfileUpdateCache name count true s).2.info.aclProfileAppGroupInfo[k]? = _
    rw [updateCache_getElem? name count true hvalid]
    cases hg : s.info.aclProfileAppGroupInfo[k]? with
    | none => rfl
    | some g =>
      rw [Option.map_some, Option.map_some]
      by_cases heq : g.appGroupName.name = name
      · rw [heq, lastCount_singleton_some hentry]
        rfl
      · -- the group has another name, so this one does not find it
        have hno : ¬ FindsAt s.info name k := fun hfinds => heq (hfinds.name_eq hg)
        have hnone : lastCount g.appGroupName.name [obj] = none :=
          lastCount_singleton_none (fun v h => by rw [hentry] at h; cases h; exact heq rfl)
        rw [if_neg hno, hnone]
        exact congrArg some (ite_self g).symm

/-- The startup objects one by one. -/
theorem applyAll_applied (objs : List (CpsObject AclAttr)) : ∀ (e : AclEntry) (s : AclSt),
    e.appGroupIdFound = false → e.nextBootPoolCountFound = false → s.info.aclProfileValid = true →
      Applied objs s (objs.foldl applyAclObject (e, s)).2 := by
  induction objs with
  | nil => intro e s _ _ _; exact Applied.nil s
  | cons obj objs ih =>
    intro e s hname hcount hvalid
    have hobj := applyAclObject_applied hname hcount hvalid obj
    obtain ⟨-, hname', hcount'⟩ := applyAclObject_eq hname hcount s obj
    exact hobj.append (ih _ _ hname' hcount' (hobj.1.valid.trans hvalid))

/-! ## The whole call -/

theorem updRunningFrom_info (swId : UInt32) (commitOk : Nat → Bool) (fuel : Nat) : ∀ idx (s : AclSt),
    (updRunningFrom swId commitOk fuel idx s).2.info = s.info := by
  induction fuel with
  | zero => intro idx s; rfl
  | succ fuel ih =>
    intro idx s
    simp only [updRunningFrom]
    cases s.info.aclProfileAppGroupInfo[idx]? with
    | none =>
      cases commitOk idx with
      | true => exact ih _ _
      | false => rfl
    | some g =>
      cases commitOk idx with
      | true => exact ih _ _
      | false => rfl

theorem updRunningFrom_prefix (swId : UInt32) (commitOk : Nat → Bool) (fuel : Nat) : ∀ idx (s : AclSt),
    s.running <+: (updRunningFrom swId commitOk fuel idx s).2.running := by
  induction fuel with
  | zero => intro idx s; exact List.prefix_refl _
  | succ fuel ih =>
    intro idx s
    simp only [updRunningFrom]
    cases s.info.aclProfileAppGroupInfo[idx]? with
    | none =>
      cases commitOk idx with
      | true => exact ih (idx + 1) { s with fault := true }
      | false => exact List.prefix_refl _
    | some g =>
      cases commitOk idx with
      | true =>
        exact (List.prefix_append _ _).trans
          (ih (idx + 1) { s with running := s.running ++ [aclRunningObject swId g] })
      | false => exact List.prefix_refl _

/-- What is published for the group at index `k`, the commits up to it done. -/
theorem updRunningFrom_getElem? (swId : UInt32) (commitOk : Nat → Bool) {k : Nat} {g : AclProfileAppGroupInfo}
    (fuel : Nat) : ∀ idx (s : AclSt), s.info.aclProfileAppGroupInfo[k]? = some g → (∀ j ≤ k, commitOk j = true) →
      idx ≤ k → k < idx + fuel →
        (updRunningFrom swId commitOk fuel idx s).2.running[s.running.length + (k - idx)]? =
          some (aclRunningObject swId g) := by
  induction fuel with
  | zero => intro idx s _ _ hle hlt; omega
  | succ fuel ih =>
    intro idx s hg hcommit hle hlt
    have hk : k < s.info.aclProfileAppGroupInfo.length := (List.getElem?_eq_some_iff.mp hg).1
    simp only [updRunningFrom]
    cases hx : s.info.aclProfileAppGroupInfo[idx]? with
    | none =>
      have := List.getElem?_eq_none_iff.mp hx
      omega
    | some b =>
      simp only [hcommit idx hle, if_true]
      by_cases heq : idx = k
      · -- this one; the objects behind it come after
        subst heq
        rw [hg] at hx
        cases hx
        have hpre := updRunningFrom_prefix swId commitOk fuel (idx + 1)
          { s with running := s.running ++ [aclRunningObject swId g] }
        obtain ⟨rest, hrest⟩ := hpre
        rw [← hrest, Nat.sub_self, Nat.add_zero, List.getElem?_append_left (by simp)]
        simp
      · have := ih (idx + 1) { s with running := s.running ++ [aclRunningObject swId b] } hg hcommit (by omega) (by omega)
        rw [List.length_append, List.length_singleton] at this
        rw [show s.running.length + (k - idx) = s.running.length + 1 + (k - (idx + 1)) by omega]
        exact this

theorem updateCache_running (name : CString) (count : UInt32) (cur : Bool) (s : AclSt) :
    (nasSwitchAclProfileUpdateCache name count cur s).2.running = s.running := by
  unfold nasSwitchAclProfileUpdateCache
  split
  · rfl
  · rw [updateCacheFrom_eq]
    split <;> rfl

theorem applyAll_running (objs : List (CpsObject AclAttr)) : ∀ acc : AclEntry × AclSt,
    (objs.foldl applyAclObject acc).2.running = acc.2.running := by
  induction objs with
  | nil => intro acc; rfl
  | cons obj objs ih =>
    intro acc
    rw [List.foldl_cons, ih]
    simp only [applyAclObject]
    split
    · rfl
    · exact updateCache_running _ _ _ _

/-- The groups after the call. -/
theorem parseAclDb_getElem? (swId : UInt32) (startup : Option (List (CpsObject AclAttr))) (commitOk : Nat → Bool)
    {s : AclSt} (hvalid : s.info.aclProfileValid = true) :
    SameNames s.info (nasSwAclProfileParseDbAndUpdate swId startup commitOk s).2.info ∧
    ∀ k, (nasSwAclProfileParseDbAndUpdate swId startup commitOk s).2.info.aclProfileAppGroupInfo[k]? =
      (s.info.aclProfileAppGroupInfo[k]?).map fun g =>
        if FindsAt s.info g.appGroupName.name k then putLast (lastCount g.appGroupName.name (startup.getD [])) g
        else g := by
  unfold nasSwAclProfileParseDbAndUpdate nasSwitchUpdAclProfileInfoToRunningCpsDb
  rw [if_neg (by simp [hvalid])]
  dsimp only
  rw [updRunningFrom_info]
  exact applyAll_applied (startup.getD []) ⟨[], 0, false, false⟩ s rfl rfl hvalid

theorem toUInt8_toUInt32_eq_iff (v : UInt32) : v.toUInt8.toUInt32 = v ↔ v < 256 := by
  rw [← UInt32.toNat_inj, UInt32.lt_iff_toNat_lt]
  have h : v.toUInt8.toUInt32.toNat = v.toNat % 256 := by simp
  rw [h]
  show v.toNat % 256 = v.toNat ↔ v.toNat < 256
  omega

theorem lastCount_mem {name : CString} {objs : List (CpsObject AclAttr)} {v : UInt32}
    (h : lastCount name objs = some v) :
    ∃ obj ∈ objs, aclEntry obj = some (name, v) := by
  obtain ⟨entry, hlast, hv⟩ := Option.map_eq_some_iff.mp h
  obtain ⟨hmem, hname⟩ := Attrs.last_mem hlast
  obtain ⟨obj, hobj, hentry⟩ := List.mem_filterMap.mp hmem
  exact ⟨obj, hobj, by rw [hentry, ← hname, ← hv]⟩

/-- An object that does not give the name a count is as if it were not there. -/
theorem lastCount_skip {name : CString} {obj : CpsObject AclAttr} (h : ∀ v, aclEntry obj ≠ some (name, v))
    (before after : List (CpsObject AclAttr)) :
    lastCount name (before ++ obj :: after) = lastCount name (before ++ after) := by
  rw [lastCount_append, lastCount_append, ← List.singleton_append, lastCount_append, lastCount_singleton_none h,
    Option.or_none]

theorem Profile.findsAt {i : NasSwitchInfo} {groups : List AclProfileAppGroupInfo} (h : Profile i groups) {k : Nat}
    {g : AclProfileAppGroupInfo} (hg : groups[k]? = some g) : FindsAt i g.appGroupName.name k :=
  findsAt_iff.mpr ⟨g, h.find hg⟩

/-- A group as it is after its last entry, if it has one. -/
theorem Profile.startup_getElem? {s : AclSt} {groups : List AclProfileAppGroupInfo} (h : Profile s.info groups)
    (swId : UInt32) (startup : Option (List (CpsObject AclAttr))) (commitOk : Nat → Bool) {k : Nat}
    {g : AclProfileAppGroupInfo} (hg : groups[k]? = some g) :
    (nasSwAclProfileParseDbAndUpdate swId startup commitOk s).2.info.aclProfileAppGroupInfo[k]? =
      some (putLast (lastCount g.appGroupName.name (startup.getD [])) g) := by
  have hk : k < groups.length := (List.getElem?_eq_some_iff.mp hg).1
  rw [(parseAclDb_getElem? swId startup commitOk h.valid).2, h.getElem? hk, hg, Option.map_some, if_pos (h.findsAt hg)]

/-- Over a profile whose groups' names are all different and below the bound, and counts
    below 256: each group's counts are those of the last object with its name and a
    count, or as before where there is none. An object without both, or with another
    name, might as well not be there. -/
theorem startup_counts {s : AclSt} {groups : List AclProfileAppGroupInfo} (h : Profile s.info groups)
    (swId : UInt32) (startup : Option (List (CpsObject AclAttr))) (commitOk : Nat → Bool)
    (hsmall : ∀ obj ∈ startup.getD [], ∀ name v, aclEntry obj = some (name, v) → v < 256) :
    ∀ (k : Nat) (g : AclProfileAppGroupInfo), groups[k]? = some g →
      (∃ g', (nasSwAclProfileParseDbAndUpdate swId startup commitOk s).2.info.aclProfileAppGroupInfo[k]? = some g' ∧
        match lastCount g.appGroupName.name (startup.getD []) with
        | some v => g'.currentPoolCount.toUInt32 = v ∧ g'.nextBootPoolCount.toUInt32 = v
        | none => g'.currentPoolCount = g.currentPoolCount ∧ g'.nextBootPoolCount = g.nextBootPoolCount) ∧
      ∀ before obj after, startup = some (before ++ obj :: after) →
        (∀ v, aclEntry obj ≠ some (g.appGroupName.name, v)) →
        (nasSwAclProfileParseDbAndUpdate swId startup commitOk s).2.info.aclProfileAppGroupInfo[k]? =
          (nasSwAclProfileParseDbAndUpdate swId (some (before ++ after)) commitOk s).2.info.aclProfileAppGroupInfo[k]? := by
  intro k g hg
  refine ⟨⟨_, h.startup_getElem? swId startup commitOk hg, ?_⟩, ?_⟩
  · cases hlast : lastCount g.appGroupName.name (startup.getD []) with
    | none => exact ⟨rfl, rfl⟩
    | some v =>
      obtain ⟨obj, hobj, hentry⟩ := lastCount_mem hlast
      have hv := (toUInt8_toUInt32_eq_iff v).mpr (hsmall obj hobj _ v hentry)
      exact ⟨hv, hv⟩
  · rintro before obj after rfl hother
    rw [h.startup_getElem? swId _ commitOk hg, h.startup_getElem? swId _ commitOk hg]
    show some (putLast (lastCount _ (before ++ obj :: after)) g) = some (putLast (lastCount _ (before ++ after)) g)
    rw [lastCount_skip hother]

/-- The two groups of `twoGroups`, in two pools. -/
def twoGroupsSt (maxPoolAvail : String) : AclSt :=
  ⟨(nasSwitchUpdateAclProfileInfo aclConsts true (fun _ => true) (twoGroups maxPoolAvail) .zero).2.info, [], false⟩

theorem twoGroups_profile :
    Profile (twoGroupsSt "2").info (parsedEntries aclConsts (fun _ => true) (twoGroups "2")) :=
  profile_of_parse (i := .zero) (Prod.ext (by decide) rfl) (by decide) (by decide) (by decide)

/-- A count without a name, then a name without a count, then both. -/
def mixedObjects : List (CpsObject AclAttr) :=
  [[⟨.appGroupPoolCount, 7, []⟩], [⟨.switchId, 0, []⟩, ⟨.appGroupId, 0, "g1".toList⟩],
    [⟨.appGroupPoolCount, 3, []⟩, ⟨.appGroupId, 0, "g1".toList⟩]]

theorem startup_counts_mixed :
    ∃ g', (nasSwAclProfileParseDbAndUpdate 0 (some mixedObjects) (fun _ => true) (twoGroupsSt "2")).2.info
      |>.aclProfileAppGroupInfo[1]? = some g' ∧ g'.currentPoolCount.toUInt32 = 3 ∧ g'.nextBootPoolCount.toUInt32 = 3 := by
  obtain ⟨g', hg', hcounts⟩ := (startup_counts twoGroups_profile 0 (some mixedObjects) (fun _ => true) (by
    intro obj hobj name v hentry
    simp only [Option.getD_some, mixedObjects, List.mem_cons, List.not_mem_nil, or_false] at hobj
    rcases hobj with rfl | rfl | rfl
    · cases hentry
    · cases hentry
    · cases hentry
      decide) 1 _ rfl).1
  exact ⟨g', hg', hcounts⟩

/-! ## Counts that are accepted -/

/-- A name that may be configured finds a group. -/
theorem supported_finds {c : SwConsts} {i : NasSwitchInfo} {name : CString}
    (h : nasSwAclProfileDbConfigSupported c i (some name) = some true) :
    i.aclProfileValid = true ∧ ∃ j g, findAppGroup i (some name) = .hit j g := by
  unfold nasSwAclProfileDbConfigSupported at h
  split at h
  · cases h
  · rename_i hvalid
    refine ⟨by simpa using hvalid, ?_⟩
    cases hfind : findAppGroup i (some name) with
    | missing => rw [hfind] at h; cases h
    | pastEnd => rw [hfind] at h; cases h
    | hit j g => exact ⟨j, g, rfl⟩

/-- A set either is refused and changes no group, or puts the count into the group that
    the name finds. -/
theorem aclSet_cases (c : SwConsts) (name : CString) (v : UInt32) {op : CpsOper} (hop : op ≠ .delete) (s : AclSt) :
    let r := nasSwAclProfileAppGroupInfoSet c (some name) v op s
    (nasSwAclProfileDbConfigSupported c s.info (some name) ≠ some true ∧ r.1 ≠ .ok ∧ r.2.info = s.info) ∨
      (nasSwAclProfileDbConfigSupported c s.info (some name) = some true ∧ r.1 = .ok ∧
        ∀ k, r.2.info.aclProfileAppGroupInfo[k]? =
          (s.info.aclProfileAppGroupInfo[k]?).map fun g =>
            if FindsAt s.info name k then putCount v false g else g) := by
  cases hsup : nasSwAclProfileDbConfigSupported c s.info (some name) with
  | none =>
    refine Or.inl ⟨by simp, ?_⟩
    unfold nasSwAclProfileAppGroupInfoSet
    rw [hsup]
    exact ⟨by simp [aclParam], rfl⟩
  | some b =>
    cases b with
    | false =>
      refine Or.inl ⟨by simp, ?_⟩
      unfold nasSwAclProfileAppGroupInfoSet
      rw [hsup]
      exact ⟨by simp [aclParam], rfl⟩
    | true =>
      obtain ⟨hvalid, j, g, hfind⟩ := supported_finds hsup
      have hset : nasSwAclProfileAppGroupInfoSet c (some name) v op s =
          nasSwitchAclProfileUpdateCache name v false s := by
        unfold nasSwAclProfileAppGroupInfoSet
        rw [hsup]
        exact if_neg hop
      refine Or.inr ⟨rfl, ?_, ?_⟩
      · rw [hset, updateCache_eq name v false hvalid, hfind]
      · rw [hset]
        exact updateCache_getElem? name v false hvalid

/-- A walker's call that answers with group `k`: the first with a null name, and the one
    with a name whose first group is before it. -/
def AsksFor (i : NasSwitchInfo) (name : Option CString) (k : Nat) : Prop :=
  match name with
  | none => k = 0
  | some name => ∃ j, k = j + 1 ∧ FindsAt i name j

/-- The call's answer, if the group is below the bound. -/
theorem AsksFor.next_eq {i : NasSwitchInfo} {name : Option CString} {k : Nat} (h : AsksFor i name k) (hk : k < i.aclPools) :
    nasSwAclProfileDbGetNext i name = rowAt i k := by
  cases name with
  | none =>
    have hzero : k = 0 := h
    subst hzero
    rw [next_null, if_neg (by omega)]
  | some name =>
    obtain ⟨j, rfl, hfinds⟩ := h
    obtain ⟨g, hfind⟩ := findsAt_iff.mp hfinds
    have hbound : ¬ i.aclPools ≤ j + 1 := by omega
    simp only [nasSwAclProfileDbGetNext, hfind, reduceCtorEq, if_false, if_neg hbound]

/-- The count of group `k` as it is kept, reported to a walker that asks for it and, where
    all commits up to it are done, published behind the `n` objects that were there. -/
structure CountIs (swId : UInt32) (commitOk : Nat → Bool) (n k : Nat) (v : UInt32) (s : AclSt) : Prop where
  kept : ∃ g, s.info.aclProfileAppGroupInfo[k]? = some g ∧
    g.currentPoolCount.toUInt32 = v ∧ g.nextBootPoolCount.toUInt32 = v
  reported : k < s.info.aclPools → ∃ g, s.info.aclProfileAppGroupInfo[k]? = some g ∧
    ∀ name, AsksFor s.info name k → nasSwAclProfileDbGetNext s.info name = .ok ((aclRow g).1, v)
  published : k < s.info.aclPools → (∀ j ≤ k, commitOk j = true) → ∃ g, s.info.aclProfileAppGroupInfo[k]? = some g ∧
    s.running[n + k]? = some
      [(.switchId, .u32 swId), (.appGroupId, .bin g.appGroupName.name), (.appGroupPoolCount, .u32 v)]

/-- What is kept is what is handed out. -/
theorem countIs_of_kept {s : AclSt} (hvalid : s.info.aclProfileValid = true) {swId : UInt32}
    {startup : Option (List (CpsObject AclAttr))} {commitOk : Nat → Bool} {k : Nat} {v : UInt32}
    {g : AclProfileAppGroupInfo}
    (hg : (nasSwAclProfileParseDbAndUpdate swId startup commitOk s).2.info.aclProfileAppGroupInfo[k]? = some g)
    (hcur : g.currentPoolCount.toUInt32 = v) (hnext : g.nextBootPoolCount.toUInt32 = v) :
    CountIs swId commitOk s.running.length k v (nasSwAclProfileParseDbAndUpdate swId startup commitOk s).2 := by
  refine ⟨⟨g, hg, hcur, hnext⟩, fun hk => ⟨g, hg, fun name hasks => ?_⟩, fun hk hcommit => ⟨g, hg, ?_⟩⟩
  · rw [hasks.next_eq hk, rowAt, hg, ← hcur]
    rfl
  · rw [← hnext]
    have hrun := applyAll_running (startup.getD []) (⟨[], 0, false, false⟩, s)
    unfold nasSwAclProfileParseDbAndUpdate nasSwitchUpdAclProfileInfoToRunningCpsDb at hg hk ⊢
    rw [if_neg (by simp [hvalid])] at hg hk ⊢
    dsimp only at hg hk hrun ⊢
    rw [updRunningFrom_info] at hg hk
    have hpub := updRunningFrom_getElem? swId commitOk _ 0 _ hg hcommit (Nat.zero_le k) (by rw [Nat.zero_add]; exact hk)
    rw [hrun] at hpub
    exact hpub

/-- The next-boot count is as asked for: a count put in is, below 256. -/
theorem putCount_next_iff {P : Prop} [Decidable P] (v : UInt32) (cur : Bool) (g : AclProfileAppGroupInfo) :
    (if P then putCount v cur g else g).nextBootPoolCount.toUInt32 = v ↔
      if P then v < 256 else g.nextBootPoolCount.toUInt32 = v := by
  split
  · exact toUInt8_toUInt32_eq_iff v
  · rfl

/-- And the current count, where the update puts it in too. -/
theorem putCount_both_iff {P : Prop} [Decidable P] (v : UInt32) (g : AclProfileAppGroupInfo) :
    ((if P then putCount v true g else g).currentPoolCount.toUInt32 = v ∧
      (if P then putCount v true g else g).nextBootPoolCount.toUInt32 = v) ↔
        if P then v < 256 else g.currentPoolCount.toUInt32 = v ∧ g.nextBootPoolCount.toUInt32 = v := by
  split
  · exact (and_self_iff).trans (toUInt8_toUInt32_eq_iff v)
  · rfl

theorem set_kept_iff (c : SwConsts) {s : AclSt} {k : Nat} {g : AclProfileAppGroupInfo}
    (hg : s.info.aclProfileAppGroupInfo[k]? = some g) (v : UInt32) {op : CpsOper} (hop : op ≠ .delete) :
    let r := nasSwAclProfileAppGroupInfoSet c (some g.appGroupName.name) v op s
    (r.1 = .ok → ∃ g', r.2.info.aclProfileAppGroupInfo[k]? = some g' ∧ g'.nextBootPoolCount.toUInt32 = v) ∧
      (r.1 ≠ .ok → r.2.info = s.info) ↔
    (nasSwAclProfileDbConfigSupported c s.info (some g.appGroupName.name) = some true →
      if FindsAt s.info g.appGroupName.name k then v < 256 else g.nextBootPoolCount.toUInt32 = v) := by
  dsimp only
  rcases aclSet_cases c g.appGroupName.name v hop s with ⟨hsup, hrc, hsame⟩ | ⟨hsup, hrc, hget⟩
  · exact iff_of_true ⟨fun h => absurd h hrc, fun _ => hsame⟩ (fun h => absurd h hsup)
  · have hgot := hget k
    rw [hg, Option.map_some] at hgot
    rw [← putCount_next_iff v false g]
    constructor
    · intro h _
      obtain ⟨g', hg', hnext⟩ := h.1 hrc
      cases hgot.symm.trans hg'
      exact hnext
    · intro h
      exact ⟨fun _ => ⟨_, hgot, h hsup⟩, fun hne => absurd hrc hne⟩

theorem startup_kept_iff {s : AclSt} (hvalid : s.info.aclProfileValid = true) {k : Nat} {g : AclProfileAppGroupInfo}
    (hg : s.info.aclProfileAppGroupInfo[k]? = some g) (swId : UInt32) {startup : Option (List (CpsObject AclAttr))}
    (commitOk : Nat → Bool) {v : UInt32} (hlast : lastCount g.appGroupName.name (startup.getD []) = some v) :
    let r := nasSwAclProfileParseDbAndUpdate swId startup commitOk s
    (r.1 = .ok → CountIs swId commitOk s.running.length k v r.2) ∧ (r.1 ≠ .ok → r.2.info = s.info) ↔
      if FindsAt s.info g.appGroupName.name k then v < 256
      else g.currentPoolCount.toUInt32 = v ∧ g.nextBootPoolCount.toUInt32 = v := by
  have hrc : (nasSwAclProfileParseDbAndUpdate swId startup commitOk s).1 = .ok := by
    unfold nasSwAclProfileParseDbAndUpdate
    rw [if_neg (by simp [hvalid])]
  have hgot := (parseAclDb_getElem? swId startup commitOk hvalid).2 k
  rw [hg, Option.map_some, hlast] at hgot
  dsimp only
  rw [← putCount_both_iff v g]
  constructor
  · intro h
    obtain ⟨g', hg', hcur, hnext⟩ := (h.1 hrc).kept
    cases hgot.symm.trans hg'
    exact ⟨hcur, hnext⟩
  · intro h
    exact ⟨fun _ => countIs_of_kept hvalid hgot h.1 h.2, fun hne => absurd hrc hne⟩

/-- For a group of a valid profile and any 32-bit count. A set: accepted, it leaves the
    count as the group's next-boot one, and otherwise no group's changes, exactly where
    the count is below 256 and its name finds the group (or the group, behind another
    of its name, has the count already), if the name may be configured at all. A startup
    entry, the last of the name: the same of all the group's counts. -/
theorem counts_kept_iff (c : SwConsts) {s : AclSt} {groups blanks : List AclProfileAppGroupInfo}
    (hvalid : s.info.aclProfileValid = true) (htable : s.info.aclProfileAppGroupInfo = groups ++ blanks) {k : Nat}
    {g : AclProfileAppGroupInfo} (hg : groups[k]? = some g) (v : UInt32) :
    (∀ op, op ≠ .delete →
      let r := nasSwAclProfileAppGroupInfoSet c (some g.appGroupName.name) v op s
      ((r.1 = .ok → ∃ g', r.2.info.aclProfileAppGroupInfo[k]? = some g' ∧ g'.nextBootPoolCount.toUInt32 = v) ∧
        (r.1 ≠ .ok → r.2.info = s.info) ↔
      (nasSwAclProfileDbConfigSupported c s.info (some g.appGroupName.name) = some true →
        if FindsAt s.info g.appGroupName.name k then v < 256 else g.nextBootPoolCount.toUInt32 = v))) ∧
    ∀ swId startup commitOk, lastCount g.appGroupName.name (startup.getD []) = some v →
      let r := nasSwAclProfileParseDbAndUpdate swId startup commitOk s
      ((r.1 = .ok → CountIs swId commitOk s.running.length k v r.2) ∧ (r.1 ≠ .ok → r.2.info = s.info) ↔
        if FindsAt s.info g.appGroupName.name k then v < 256
        else g.currentPoolCount.toUInt32 = v ∧ g.nextBootPoolCount.toUInt32 = v) := by
  have hk : k < groups.length := (List.getElem?_eq_some_iff.mp hg).1
  have hg' : s.info.aclProfileAppGroupInfo[k]? = some g := by rw [htable, List.getElem?_append_left hk, hg]
  exact ⟨fun op hop => set_kept_iff c hg' v hop,
    fun swId startup commitOk hlast => startup_kept_iff hvalid hg' swId commitOk hlast⟩

theorem counts_kept_iff_two :
    let r := nasSwAclProfileAppGroupInfoSet aclConsts (some "g1".toList) 200 (.other 0) (twoGroupsSt "2")
    (r.1 = .ok → ∃ g', r.2.info.aclProfileAppGroupInfo[1]? = some g' ∧ g'.nextBootPoolCount.toUInt32 = 200) ∧
      (r.1 ≠ .ok → r.2.info = (twoGroupsSt "2").info) :=
  ((counts_kept_iff aclConsts (s := twoGroupsSt "2") (k := 1) (by decide) (List.append_nil _).symm rfl 200).1
    (.other 0) (by decide)).mpr (by decide)

/-- A count of 256 is accepted and kept as 0. -/
theorem count_256_kept_as_0 :
    let r := nasSwAclProfileAppGroupInfoSet aclConsts (some "g0".toList) 256 (.other 0) (twoGroupsSt "2")
    r.1 = .ok ∧ r.2.info.aclProfileAppGroupInfo[0]?.map AclProfileAppGroupInfo.nextBootPoolCount = some 0 := by
  decide

end NasCommon.SwProfile
