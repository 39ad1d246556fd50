/-
  NasCommon.SwProfile.AclLeaks — what one configuration element leaves in the next.

  `nas_switch_update_acl_profile_info` keeps the stage type and the pool counts it last
  read in variables of its own, and an absent attribute leaves its variable alone: so
  an incomplete app group takes over a sibling's values.
  `nas_switch_update_deep_buffer_mode_info` does not even set them first.
  - `entry_eq`: the entry of an app group, from what the elements before it left.
  - `settings_local_iff`: an entry depends on its own elements alone, absent numbers
    being zero, exactly where both its numbers are there and its stage's own type is one
    of the two; the deep buffer settings do where no local is read before it is set.
-/

import NasCommon.SwProfile.AclTable

namespace NasCommon.SwProfile

/-! ## The locals at an app group -/

theorem groupEntries_append (c : SwConsts) (allocApps : Nat → Bool) (b : List AclElem) (a : List AclElem) : ∀ l idx,
    groupEntries c allocApps l idx (a ++ b) = groupEntries c allocApps l idx a ++
      groupEntries c allocApps (a.foldl (AclLocals.after c) l) (idx + (a.flatMap AclElem.groups).length) b := by
  induction a with
  | nil => intro l idx; rfl
  | cons e a ih =>
    intro l idx
    rw [List.cons_append, List.foldl_cons, List.flatMap_cons, List.length_append]
    cases e with
    | stage node =>
      rw [show (AclElem.stage node).groups.length = 0 from rfl, Nat.zero_add]
      exact ih _ _
    | group node =>
      rw [show (AclElem.group node).groups.length = 1 from rfl, ← Nat.add_assoc]
      exact congrArg (_ :: ·) (ih _ _)

/-- App groups leave the stage alone. -/
theorem after_groups_stageType (c : SwConsts) (gs : List ConfigNode) : ∀ l : AclLocals,
    ((gs.map AclElem.group).foldl (AclLocals.after c) l).stageType = l.stageType := by
  induction gs with
  | nil => intro l; rfl
  | cons g gs ih => intro l; exact ih _

/-- Where an app group is in a profile, in a stage element with the attributes `attrs`. -/
structure Place (node : ConfigNode) (attrs : List (String × CString)) (g : ConfigNode) where
  before : List ConfigNode
  after : List ConfigNode
  name : CString
  first : List ConfigNode
  rest : List ConfigNode
  stages : node.children = before ++ .mk name attrs (first ++ g :: rest) :: after

namespace Place

variable {node : ConfigNode} {attrs : List (String × CString)} {g : ConfigNode} (p : Place node attrs g)

def stage : ConfigNode := .mk p.name attrs (p.first ++ g :: p.rest)

def index : Nat := (p.before.flatMap ConfigNode.children).length + p.first.length

/-- What the loop has met before the group. -/
def elems : List AclElem := aclElems p.before ++ .stage p.stage :: p.first.map AclElem.group

theorem length_elems : (p.elems.flatMap AclElem.groups).length = p.index := by
  rw [elems, List.flatMap_append, List.flatMap_cons, groups_flatMap, aclElems_groups, List.length_append]
  rfl

theorem aclElems_eq : aclElems node.children =
    p.elems ++ .group g :: (p.rest.map AclElem.group ++ aclElems p.after) := by
  rw [p.stages, elems]
  simp [aclElems, stageElems, stage, ConfigNode.children]

/-- The locals at the group. -/
def locals (c : SwConsts) : AclLocals := (p.elems.foldl (AclLocals.after c) (startLocals node)).atGroup g

theorem entry_eq (c : SwConsts) (allocApps : Nat → Bool) :
    (parsedEntries c allocApps node)[p.index]? = some ((p.locals c).entry (allocApps p.index) g) := by
  rw [parsedEntries, p.aclElems_eq, groupEntries_append, p.length_elems, Nat.zero_add, List.getElem?_append_right,
    length_groupEntries, p.length_elems, Nat.sub_self]
  · rfl
  · rw [length_groupEntries, p.length_elems]

/-- The stage type is what the stage's element leaves. -/
theorem locals_stageType (c : SwConsts) : (p.locals c).stageType =
    (((aclElems p.before).foldl (AclLocals.after c) (startLocals node)).atStage c p.stage).stageType := by
  show (p.elems.foldl (AclLocals.after c) (startLocals node)).stageType = _
  rw [elems, List.foldl_append, List.foldl_cons, after_groups_stageType]
  rfl

end Place

/-- An entry that some profile leaves for an app group that it gets to, with memory for
    its apps. -/
inductive ParsedAs (c : SwConsts) (attrs : List (String × CString)) (g : ConfigNode) : AclProfileAppGroupInfo → Prop
  | mk {node : ConfigNode} (p : Place node attrs g) (allocApps : Nat → Bool) (i : NasSwitchInfo) {e : AclProfileAppGroupInfo}
      (got : p.index < reached allocApps 0 (aclGroups node)) (apps : allocApps p.index = true)
      (entry : (nasSwitchUpdateAclProfileInfo c true allocApps node i).2.info.aclProfileAppGroupInfo[p.index]? = some e) :
      ParsedAs c attrs g e

theorem Place.parsed_eq {node : ConfigNode} {attrs : List (String × CString)} {g : ConfigNode} (p : Place node attrs g)
    (c : SwConsts) {allocApps : Nat → Bool} (i : NasSwitchInfo) (got : p.index < reached allocApps 0 (aclGroups node)) :
    (nasSwitchUpdateAclProfileInfo c true allocApps node i).2.info.aclProfileAppGroupInfo[p.index]? =
      if p.index < (totalPools node).toNat then some ((p.locals c).entry (allocApps p.index) g) else none := by
  rw [(aclParse_spec c allocApps node i).table]
  have hlen := length_parsedEntries c allocApps node
  have hreached : reached allocApps 0 (aclGroups node) ≤ (aclGroups node).length := reached_le _ _ _
  split
  · rename_i hin
    rw [List.getElem?_append_left (by rw [List.length_take]; omega), List.getElem?_take_of_lt (by omega), p.entry_eq]
  · rename_i hout
    rw [List.getElem?_eq_none]
    rw [List.length_append, List.length_take, List.length_replicate]
    omega

theorem ParsedAs.eq {c : SwConsts} {attrs : List (String × CString)} {g : ConfigNode} {e : AclProfileAppGroupInfo}
    (h : ParsedAs c attrs g e) : ∃ (node : ConfigNode) (p : Place node attrs g), e = (p.locals c).entry true g := by
  obtain ⟨p, allocApps, i, got, apps, entry⟩ := h
  rw [p.parsed_eq c i got, apps] at entry
  split at entry
  · cases entry
    exact ⟨_, p, rfl⟩
  · cases entry

/-! ## What an entry may depend on -/

/-- Nothing is left to a sibling: both numbers are there, and the stage has a type. -/
structure Complete (attrs : List (String × CString)) (g : ConfigNode) : Prop where
  pools : (nums g "default_pool_count").isSome
  depth : (nums g "depth_per_pool").isSome
  stage : attrs.lookup "type" = some "ingress".toList ∨ attrs.lookup "type" = some "egress".toList

/-- An absent number reads as zero. -/
structure ReadsZero (g : ConfigNode) (e : AclProfileAppGroupInfo) : Prop where
  pools : nums g "default_pool_count" = none →
    e.defaultPoolCount = 0 ∧ e.currentPoolCount = 0 ∧ e.nextBootPoolCount = 0
  depth : nums g "depth_per_pool" = none → e.depthPerPool = 0
  units : ∀ (k : Nat) (app : ConfigNode) (a : AclProfileAppInfo), g.children[k]? = some app →
    nums app "num_units_per_entry" = none → e.appInfo[k]? = some a → a.numUnitsPerEntry = 0

/-- Any two profiles with the element and its stage's attributes leave the same entry. -/
structure Local (c : SwConsts) (attrs : List (String × CString)) (g : ConfigNode) : Prop where
  same : ∀ e e', ParsedAs c attrs g e → ParsedAs c attrs g e' → e = e'
  zero : ∀ e, ParsedAs c attrs g e → ReadsZero g e

theorem strAttrUpdate_short {node : ConfigNode} {attr : String} {s : CString} (h : node.attr attr = some s)
    (hlen : s.length < nasCmnProfileNameSize) (dest : CString) : nasStdCfgStrAttrUpdate node attr dest = s := by
  unfold nasStdCfgStrAttrUpdate
  rw [h]
  exact safestrncpy_fits hlen

/-- With a type of its own, a stage's groups get its stage type. -/
theorem Place.stageType_own {node : ConfigNode} {attrs : List (String × CString)} {g : ConfigNode}
    (p : Place node attrs g) (c : SwConsts) :
    (attrs.lookup "type" = some "ingress".toList → (p.locals c).stageType = c.baseAclStageIngress) ∧
      (attrs.lookup "type" = some "egress".toList → (p.locals c).stageType = c.baseAclStageEgress) := by
  have hne : "egress".toList ≠ "ingress".toList := by decide
  rw [p.locals_stageType]
  constructor
  · intro h
    have hattr : p.stage.attr "type" = some "ingress".toList := h
    show (if nasStdCfgStrAttrUpdate p.stage "type" _ = "ingress".toList then _ else _) = _
    rw [strAttrUpdate_short hattr (by decide), if_pos rfl]
  · intro h
    have hattr : p.stage.attr "type" = some "egress".toList := h
    show (if nasStdCfgStrAttrUpdate p.stage "type" _ = "ingress".toList then _ else _) = _
    rw [strAttrUpdate_short hattr (by decide), if_neg hne, if_pos rfl]

theorem entry_readsZero_units (l : AclLocals) (g : ConfigNode) (k : Nat) (app : ConfigNode) (a : AclProfileAppInfo)
    (happ : g.children[k]? = some app) (hnone : nums app "num_units_per_entry" = none)
    (ha : (l.entry true g).appInfo[k]? = some a) : a.numUnitsPerEntry = 0 := by
  have hmap : (l.entry true g).appInfo = g.children.map aclApp := rfl
  rw [hmap, List.getElem?_map, happ] at ha
  cases ha
  show nasStdCfgAttrUpdate (nums app) "num_units_per_entry" 0 = 0
  rw [nasStdCfgAttrUpdate, hnone]
  rfl

/-- What is there is read, whatever came before. -/
theorem attrUpdate_some {node : ConfigAttrs} {attr : String} {v : UInt32} (h : node attr = some v) (dest : UInt32) :
    nasStdCfgAttrUpdate node attr dest = v := by
  rw [nasStdCfgAttrUpdate, h]
  rfl

theorem entry_congr {l l' : AclLocals} (hstage : l.stageType = l'.stageType)
    (hpools : l.defaultPoolCount = l'.defaultPoolCount) (hdepth : l.depthPerPool = l'.depthPerPool) (g : ConfigNode) :
    l.entry true g = l'.entry true g := by
  unfold AclLocals.entry
  rw [hstage, hpools, hdepth]

theorem local_of_complete {c : SwConsts} {attrs : List (String × CString)} {g : ConfigNode} (h : Complete attrs g) :
    Local c attrs g := by
  obtain ⟨n, hn⟩ := Option.isSome_iff_exists.mp h.pools
  obtain ⟨d, hd⟩ := Option.isSome_iff_exists.mp h.depth
  constructor
  · intro e e' he he'
    obtain ⟨node, p, rfl⟩ := he.eq
    obtain ⟨node', p', rfl⟩ := he'.eq
    apply entry_congr
    · rcases h.stage with hin | hout
      · rw [(p.stageType_own c).1 hin, (p'.stageType_own c).1 hin]
      · rw [(p.stageType_own c).2 hout, (p'.stageType_own c).2 hout]
    · exact (attrUpdate_some hn _).trans (attrUpdate_some hn _).symm
    · exact (attrUpdate_some hd _).trans (attrUpdate_some hd _).symm
  · intro e he
    obtain ⟨node, p, rfl⟩ := he.eq
    refine ⟨fun hnone => ?_, fun hnone => ?_, entry_readsZero_units _ g⟩
    · rw [hnone] at hn; cases hn
    · rw [hnone] at hd; cases hd

/-! ## A sibling that leaves something -/

/-- A profile with the element behind a complete one of a stage before. -/
def behindSibling (type maxPoolAvail count : String) (attrs : List (String × CString)) (g : ConfigNode) : ConfigNode :=
  .mk "acl-profile".toList []
    [.mk "stage".toList [("type", type.toList), ("max_pool_avail", maxPoolAvail.toList)]
      [.mk "app-group".toList [("default_pool_count", count.toList), ("depth_per_pool", count.toList)]
        [.mk "app".toList [] []]],
     .mk "stage".toList attrs [g]]

def behindSiblingPlace (type maxPoolAvail count : String) (attrs : List (String × CString)) (g : ConfigNode) :
    Place (behindSibling type maxPoolAvail count attrs g) attrs g where
  before := [.mk "stage".toList [("type", type.toList), ("max_pool_avail", maxPoolAvail.toList)]
      [.mk "app-group".toList [("default_pool_count", count.toList), ("depth_per_pool", count.toList)]
        [.mk "app".toList [] []]]]
  after := []
  name := "stage".toList
  first := []
  rest := []
  stages := rfl

theorem totalPools_behindSibling (type maxPoolAvail count : String) (attrs : List (String × CString)) (g : ConfigNode) :
    totalPools (behindSibling type maxPoolAvail count attrs g) =
      let n := (strtoul maxPoolAvail.toList).toUInt32
      n + nasStdCfgAttrUpdate (nums (.mk "stage".toList attrs [g])) "max_pool_avail" n := by
  have hsibling : ∀ dest, nasStdCfgAttrUpdate (nums (.mk "stage".toList
      [("type", type.toList), ("max_pool_avail", maxPoolAvail.toList)]
      [.mk "app-group".toList [("default_pool_count", count.toList), ("depth_per_pool", count.toList)]
        [.mk "app".toList [] []]])) "max_pool_avail" dest = (strtoul maxPoolAvail.toList).toUInt32 :=
    fun dest => attrUpdate_some rfl dest
  simp only [totalPools, aclPoolList, behindSibling, ConfigNode.children, stagePools, hsibling, List.map_cons, List.map_nil,
    List.sum_cons, List.sum_nil, UInt32.add_zero]

/-- One of two pool counts leaves room for the element. -/
theorem behindSibling_room (type count : String) (attrs : List (String × CString)) (g : ConfigNode) :
    ∃ maxPoolAvail, 1 < (totalPools (behindSibling type maxPoolAvail count attrs g)).toNat := by
  have htwo : (strtoul "2".toList).toUInt32 = 2 := by decide
  have hfour : (strtoul "4".toList).toUInt32 = 4 := by decide
  have hsum : ∀ m : UInt32, (2 + m).toNat = (2 + m.toNat) % 2 ^ 32 ∧ (4 + m).toNat = (4 + m.toNat) % 2 ^ 32 :=
    fun m => ⟨UInt32.toNat_add 2 m, UInt32.toNat_add 4 m⟩
  cases hm : nums (.mk "stage".toList attrs [g]) "max_pool_avail" with
  | none =>
    refine ⟨"2", ?_⟩
    simp only [totalPools_behindSibling, htwo, nasStdCfgAttrUpdate, hm, Option.getD_none]
    decide
  | some m =>
    -- with two more pools the sum may wrap around to none or one
    by_cases htwoFit : 1 < (2 + m).toNat
    · refine ⟨"2", ?_⟩
      simp only [totalPools_behindSibling, htwo, nasStdCfgAttrUpdate, hm, Option.getD_some]
      exact htwoFit
    · refine ⟨"4", ?_⟩
      simp only [totalPools_behindSibling, hfour, nasStdCfgAttrUpdate, hm, Option.getD_some]
      have hlt := m.toNat_lt
      have := hsum m
      omega

/-- The entry that the element gets behind the sibling. -/
theorem parsedAs_behindSibling (c : SwConsts) (type count : String) (attrs : List (String × CString)) (g : ConfigNode) :
    ∃ maxPoolAvail, ParsedAs c attrs g
      (((behindSiblingPlace type maxPoolAvail count attrs g).locals c).entry true g) := by
  obtain ⟨maxPoolAvail, hroom⟩ := behindSibling_room type count attrs g
  refine ⟨maxPoolAvail, ?_⟩
  have hgot : (behindSiblingPlace type maxPoolAvail count attrs g).index <
      reached (fun _ => true) 0 (aclGroups (behindSibling type maxPoolAvail count attrs g)) := by
    show 1 < reached (fun _ => true) 1 [g] + 1
    simp only [reached]
    split <;> omega
  refine .mk (behindSiblingPlace type maxPoolAvail count attrs g) (fun _ => true) .zero hgot rfl ?_
  rw [Place.parsed_eq _ c .zero hgot]
  exact if_pos hroom

/-- What the sibling leaves in the counts. -/
theorem behindSibling_counts (c : SwConsts) (type maxPoolAvail count : String) (attrs : List (String × CString))
    (g : ConfigNode) :
    let l := (behindSiblingPlace type maxPoolAvail count attrs g).locals c
    let n := (strtoul count.toList).toUInt32
    l.defaultPoolCount = nasStdCfgAttrUpdate (nums g) "default_pool_count" n ∧
      l.depthPerPool = nasStdCfgAttrUpdate (nums g) "depth_per_pool" n :=
  ⟨rfl, rfl⟩

theorem safestrncpy_eq_short {d s w : CString} {n : Nat} (h : safestrncpy d s (n + 1) = w) (hw : w.length < n) :
    s = w := by
  have htake : s.take n = w := h
  have hlen := congrArg List.length htake
  rw [List.length_take] at hlen
  rwa [List.take_of_length_le (by omega)] at htake

/-- The two stage types, as a stage element leaves them. -/
inductive KnownStage (c : SwConsts) : AclLocals → Prop
  | ingress {l : AclLocals} (hstage : l.stage = "ingress".toList) (htype : l.stageType = c.baseAclStageIngress) :
      KnownStage c l
  | egress {l : AclLocals} (hstage : l.stage = "egress".toList) (htype : l.stageType = c.baseAclStageEgress) :
      KnownStage c l

/-- An element without a type of its own leaves the stage type as it was. -/
theorem KnownStage.atStage {c : SwConsts} {l : AclLocals} (h : KnownStage c l) (node : ConfigNode)
    (hown : ¬ (node.attr "type" = some "ingress".toList ∨ node.attr "type" = some "egress".toList)) :
    (l.atStage c node).stageType = l.stageType := by
  have hne : "egress".toList ≠ "ingress".toList := by decide
  show (if nasStdCfgStrAttrUpdate node "type" l.stage = "ingress".toList then c.baseAclStageIngress
    else if nasStdCfgStrAttrUpdate node "type" l.stage = "egress".toList then c.baseAclStageEgress else l.stageType) = _
  cases hattr : node.attr "type" with
  | none =>
    unfold nasStdCfgStrAttrUpdate
    rw [hattr]
    cases h with
    | ingress hstage htype => rw [if_pos hstage, htype]
    | egress hstage htype => rw [if_neg (by rw [hstage]; exact hne), if_pos hstage, htype]
  | some s =>
    have hcut : nasStdCfgStrAttrUpdate node "type" l.stage = safestrncpy l.stage s (63 + 1) := by
      unfold nasStdCfgStrAttrUpdate
      rw [hattr]
      rfl
    rw [hattr] at hown
    rw [hcut, if_neg fun hs => hown (Or.inl (congrArg some (safestrncpy_eq_short hs (by decide)))),
      if_neg fun hs => hown (Or.inr (congrArg some (safestrncpy_eq_short hs (by decide))))]

/-- Without a type of its own, the stage's groups get the stage type of the one before. -/
theorem behindSibling_stageType (c : SwConsts) (maxPoolAvail count : String) {attrs : List (String × CString)}
    (g : ConfigNode)
    (hown : ¬ (attrs.lookup "type" = some "ingress".toList ∨ attrs.lookup "type" = some "egress".toList)) :
    ((behindSiblingPlace "ingress" maxPoolAvail count attrs g).locals c).stageType = c.baseAclStageIngress ∧
      ((behindSiblingPlace "egress" maxPoolAvail count attrs g).locals c).stageType = c.baseAclStageEgress := by
  constructor
  · rw [Place.locals_stageType]
    exact KnownStage.atStage (.ingress rfl rfl) (Place.stage _) hown
  · rw [Place.locals_stageType]
    exact KnownStage.atStage (.egress rfl rfl) (Place.stage _) hown

theorem complete_of_local {c : SwConsts} {attrs : List (String × CString)} {g : ConfigNode}
    (hconsts : c.baseAclStageIngress.toUInt16 ≠ c.baseAclStageEgress.toUInt16) (h : Local c attrs g) :
    Complete attrs g := by
  have hone : (strtoul "1".toList).toUInt32 = 1 := by decide
  refine ⟨?_, ?_, ?_⟩
  · by_contra hnone
    rw [Bool.not_eq_true, Option.isSome_eq_false_iff, Option.isNone_iff_eq_none] at hnone
    obtain ⟨m, hparsed⟩ := parsedAs_behindSibling c "ingress" "1" attrs g
    have hzero := ((h.zero _ hparsed).pools hnone).1
    have hcount := (behindSibling_counts c "ingress" m "1" attrs g).1
    rw [hone, nasStdCfgAttrUpdate, hnone] at hcount
    have : (1 : UInt32).toUInt8 = 0 := (congrArg UInt32.toUInt8 hcount).symm.trans hzero
    exact absurd this (by decide)
  · by_contra hnone
    rw [Bool.not_eq_true, Option.isSome_eq_false_iff, Option.isNone_iff_eq_none] at hnone
    obtain ⟨m, hparsed⟩ := parsedAs_behindSibling c "ingress" "1" attrs g
    have hzero := (h.zero _ hparsed).depth hnone
    have hcount := (behindSibling_counts c "ingress" m "1" attrs g).2
    rw [hone, nasStdCfgAttrUpdate, hnone] at hcount
    have : (1 : UInt32).toUInt16 = 0 := (congrArg UInt32.toUInt16 hcount).symm.trans hzero
    exact absurd this (by decide)
  · by_contra hown
    obtain ⟨m, hin⟩ := parsedAs_behindSibling c "ingress" "1" attrs g
    obtain ⟨m', hout⟩ := parsedAs_behindSibling c "egress" "1" attrs g
    have hstage := congrArg AclProfileAppGroupInfo.stageType (h.same _ _ hin hout)
    apply hconsts
    rw [← (behindSibling_stageType c m "1" g hown).1, ← (behindSibling_stageType c m' "1" g hown).2]
    exact hstage

/-! ## The deep buffer settings -/

/-- No local is read before it is set. -/
def DeepBufferSet (node : ConfigNode) : Prop :=
  ∃ required, nums node "config_required" = some required ∧ (required ≠ 0 → (nums node "default_dbm").isSome)

theorem deepBuffer_local_iff (node : ConfigNode) :
    (∀ locals locals' i,
      nasSwitchUpdateDeepBufferModeInfo locals node i = nasSwitchUpdateDeepBufferModeInfo locals' node i) ↔
      DeepBufferSet node := by
  constructor
  · intro h
    cases hreq : nums node "config_required" with
    | none =>
      have := congrArg NasSwitchInfo.isDeepBufferModeCfgReq (h ⟨0, 0⟩ ⟨1, 0⟩ .zero)
      simp [nasSwitchUpdateDeepBufferModeInfo, nasStdCfgAttrUpdate, hreq] at this
    | some required =>
      refine ⟨required, hreq, fun hne => ?_⟩
      by_contra hnone
      rw [Bool.not_eq_true, Option.isSome_eq_false_iff, Option.isNone_iff_eq_none] at hnone
      have := congrArg NasSwitchInfo.defDeepBufferMode (h ⟨0, 0⟩ ⟨0, 1⟩ .zero)
      simp [nasSwitchUpdateDeepBufferModeInfo, nasStdCfgAttrUpdate, hreq, hnone, hne] at this
  · rintro ⟨required, hreq, hdbm⟩ locals locals' i
    simp only [nasSwitchUpdateDeepBufferModeInfo, attrUpdate_some hreq]
    by_cases hne : required = 0
    · simp [hne]
    · obtain ⟨dbm, hsome⟩ := Option.isSome_iff_exists.mp (hdbm hne)
      simp only [attrUpdate_some hsome]

/-- An app group's entry depends on its own elements alone, and the deep buffer settings
    on theirs, exactly where these are complete. -/
theorem settings_local_iff (c : SwConsts) (hconsts : c.baseAclStageIngress.toUInt16 ≠ c.baseAclStageEgress.toUInt16) :
    (∀ attrs g, Local c attrs g ↔ Complete attrs g) ∧
      ∀ node, (∀ locals locals' i, nasSwitchUpdateDeepBufferModeInfo locals node i =
        nasSwitchUpdateDeepBufferModeInfo locals' node i) ↔ DeepBufferSet node :=
  ⟨fun _ _ => ⟨complete_of_local hconsts, local_of_complete⟩, deepBuffer_local_iff⟩

theorem settings_local_iff_complete : Local aclConsts [("type", "ingress".toList)]
    (aclGroupNode [("default_pool_count", "1".toList), ("depth_per_pool", "256".toList)]) :=
  ((settings_local_iff aclConsts (by decide)).1 _ _).mpr ⟨by decide, by decide, Or.inl (by decide)⟩

/-- The default count of an app group without one, behind a sibling with `count`. -/
def leakedCount (count : String) : Option UInt8 :=
  (nasSwitchUpdateAclProfileInfo aclConsts true (fun _ => true)
    (behindSibling "ingress" "2" count [("type", "ingress".toList)] (aclGroupNode [("name", "g1".toList)])) .zero).2.info
    |>.aclProfileAppGroupInfo[1]?.map AclProfileAppGroupInfo.defaultPoolCount

theorem sibling_count_leaks : leakedCount "0" = some 0 ∧ leakedCount "7" = some 7 ∧
    ¬ Local aclConsts [("type", "ingress".toList)] (aclGroupNode [("name", "g1".toList)]) ∧
    (nasSwitchUpdateDeepBufferModeInfo ⟨0, 0⟩ (.mk [] [] []) .zero).isDeepBufferModeCfgReq = false ∧
    (nasSwitchUpdateDeepBufferModeInfo ⟨1, 0⟩ (.mk [] [] []) .zero).isDeepBufferModeCfgReq = true := by
  refine ⟨by decide, by decide, fun h => ?_, by decide, by decide⟩
  have hcomplete := complete_of_local (by decide) h
  exact absurd hcomplete.pools (by decide)

end NasCommon.SwProfile
