/-
  NasCommon.SwProfile.Uft — the table sizes of the UFT modes
  (`nas_sw_profile_uft_info_get`, `nas_sw_profile_uft_default_mode_info_get`).

  The first asks whether the mode is supported; the second takes the default mode as it
  was parsed. Both then go over the whole table, where the last entry of the mode
  decides and a mode without one leaves the caller's variables alone. A rejected element
  is an entry of mode 0.
  - `default_agrees_iff`: the two agree, for every section and default mode, exactly
    when the default mode is an accepted element's.
  - `no_default_mode`: without a default, the second succeeds and writes nothing.
-/

import NasCommon.SwProfile.Setters

namespace NasCommon.SwProfile

structure UftSizes where
  l2Size : UInt32
  l3Size : UInt32
  hostSize : UInt32
  deriving DecidableEq, Repr

def UftInfo.sizes (u : UftInfo) : UftSizes := ⟨u.l2TableSize, u.l3RouteTableSize, u.l3HostTableSize⟩

/-! ## The queries -/

/-- `_nas_sw_fill_uft_info`: it does not stop at an entry of the mode. -/
def nasSwFillUftInfo (i : NasSwitchInfo) (uftMode : UInt32) (outs : UftSizes) : UftSizes :=
  (i.uftInfo.take i.numUftModes.toNat).foldl (fun outs u => if u.mode = uftMode then u.sizes else outs) outs

/-- `nas_sw_profile_uft_info_get`; `outs` is what its three output arguments point to,
    `none` when one is NULL. -/
def nasSwProfileUftInfoGet (c : SwConsts) (i : NasSwitchInfo) (uftMode : UInt32) (outs : Option UftSizes) :
    StdError × Option UftSizes :=
  if nasSwUftModeSupported c i uftMode = false then (confParam (.num 2), outs)
  else
    match outs with
    | none => (confParam (.num 2), none)
    | some outs => (.ok, some (nasSwFillUftInfo i uftMode outs))

/-- `nas_sw_profile_uft_default_mode_info_get`. -/
def nasSwProfileUftDefaultModeInfoGet (i : NasSwitchInfo) (defUftMode : Option UInt32) (outs : Option UftSizes) :
    StdError × Option UInt32 × Option UftSizes :=
  if i.numUftModes = 0 then (confParam (.num 2), defUftMode, outs)
  else
    match defUftMode, outs with
    | some _, some outs => (.ok, some i.defUftmode, some (nasSwFillUftInfo i i.defUftmode outs))
    | defUftMode, outs => (confParam (.num 2), defUftMode, outs)

/-! ## The elements -/

/-- An element's mode, 0 where it has none. -/
def elemMode (chldNode : ConfigNode) : UInt32 := nasStdCfgAttrUpdate (nums chldNode) "mode" 0

def uftAccepted (c : SwConsts) (chldNode : ConfigNode) : Bool :=
  ¬ (elemMode chldNode < c.baseSwitchUftModeMin ∨ elemMode chldNode > c.baseSwitchUftModeMax)

theorem uftElem_accepted {c : SwConsts} {chldNode : ConfigNode} (h : uftAccepted c chldNode = true) :
    (uftElem c chldNode).mode = elemMode chldNode :=
  congrArg UftInfo.mode (if_neg (of_decide_eq_true h))

theorem uftElem_rejected {c : SwConsts} {chldNode : ConfigNode} (h : uftAccepted c chldNode = false) :
    uftElem c chldNode = ⟨0, 0, 0, 0⟩ :=
  if_pos (not_not.mp (of_decide_eq_false h))

/-- The last accepted element of the mode. -/
def lastAccepted (c : SwConsts) (node : ConfigNode) (mode : UInt32) : Option ConfigNode :=
  Attrs.last elemMode mode (node.children.filter (uftAccepted c))

/-- It is the last entry of the mode, where the mode is not 0. -/
theorem last_uftElem (c : SwConsts) (node : ConfigNode) {mode : UInt32} (hmode : mode ≠ 0) :
    Attrs.last UftInfo.mode mode (node.children.map (uftElem c)) = (lastAccepted c node mode).map (uftElem c) := by
  refine Attrs.last_map (p := uftAccepted c) (fun a ha => uftElem_accepted ha) (fun a ha => ?_) _
  rw [uftElem_rejected ha]
  exact Ne.symm hmode

/-! ## The two queries -/

/-- After a section, for any variables of the caller: the two queries succeed together,
    and then both write the sizes of the last accepted element of the default mode. -/
structure DefaultAgrees (c : SwConsts) (node : ConfigNode) (i : NasSwitchInfo) (old : UInt32) (outs : Option UftSizes) :
    Prop where
  ok : (nasSwProfileUftDefaultModeInfoGet i (some old) outs).1 = .ok ↔
    (nasSwProfileUftInfoGet c i i.defUftmode outs).1 = .ok
  sizes : (nasSwProfileUftDefaultModeInfoGet i (some old) outs).1 = .ok →
    ∃ e, lastAccepted c node i.defUftmode = some e ∧
      (nasSwProfileUftDefaultModeInfoGet i (some old) outs).2 = (some i.defUftmode, some (uftElem c e).sizes) ∧
      (nasSwProfileUftInfoGet c i i.defUftmode outs).2 = some (uftElem c e).sizes

/-- The section's default mode, the one so far where it names none. -/
def sectionDefault (node : ConfigNode) (i₀ : NasSwitchInfo) : UInt32 :=
  nasStdCfgAttrUpdate (nums node) "default_mode" i₀.defUftmode

/-- A section of 1 to 255 elements, parsed. -/
theorem uftInfo_parsed {c : SwConsts} {node : ConfigNode} (i₀ : NasSwitchInfo) (hone : node.children.length ≠ 0) :
    nasSwitchUpdateUftInfo c true node i₀ =
      (.ok, { i₀ with
        defUftmode := sectionDefault node i₀
        uftInfo := node.children.map (uftElem c)
        currentUftmode := sectionDefault node i₀
        numUftModes := UInt8.ofNat node.children.length }) := by
  simp only [nasSwitchUpdateUftInfo, sectionDefault]
  rw [if_neg hone, if_neg (by simp)]

/-- Over the whole table, the last accepted element of the mode decides. -/
theorem fillUftInfo_eq {c : SwConsts} {node : ConfigNode} {i : NasSwitchInfo}
    (htable : i.uftInfo = node.children.map (uftElem c)) (hnum : i.numUftModes.toNat = node.children.length)
    {mode : UInt32} (hmode : mode ≠ 0) (outs : UftSizes) :
    nasSwFillUftInfo i mode outs =
      ((lastAccepted c node mode).map fun e => (uftElem c e).sizes).getD outs := by
  unfold nasSwFillUftInfo
  rw [htable, hnum, List.take_of_length_le (Nat.le_of_eq (List.length_map _)),
    Attrs.foldl_overwrite UftInfo.sizes mode, last_uftElem c node hmode, Option.map_map]
  rfl

/-- A mode is supported when an accepted element has it. -/
theorem uftModeSupported_iff {c : SwConsts} {node : ConfigNode} {i : NasSwitchInfo}
    (htable : i.uftInfo = node.children.map (uftElem c)) (hnum : i.numUftModes.toNat = node.children.length)
    (hone : i.numUftModes ≠ 0) (hmin : 0 < c.baseSwitchUftModeMin) (mode : UInt32) :
    nasSwUftModeSupported c i mode = true ↔ ∃ e ∈ node.children, uftAccepted c e = true ∧ elemMode e = mode := by
  unfold nasSwUftModeSupported
  rw [if_neg hone, htable, hnum, List.take_of_length_le (Nat.le_of_eq (List.length_map _))]
  by_cases hrange : mode < c.baseSwitchUftModeMin ∨ mode > c.baseSwitchUftModeMax
  · rw [if_pos hrange]
    refine iff_of_false (by simp) fun h => ?_
    obtain ⟨e, -, haccepted, hmode⟩ := h
    rw [← hmode] at hrange
    exact of_decide_eq_true haccepted hrange
  · rw [if_neg hrange, List.any_map, List.any_eq_true]
    refine exists_congr fun e => and_congr_right fun _ => ?_
    simp only [Function.comp, decide_eq_true_eq]
    cases hacc : uftAccepted c e with
    | true => rw [uftElem_accepted hacc]; simp
    | false =>
      -- a rejected element's entry is of mode 0, which is out of range
      rw [uftElem_rejected hacc]
      refine iff_of_false (fun h => hrange (Or.inl ?_)) (by simp)
      rw [← h]
      exact hmin

theorem lastAccepted_isSome_iff {c : SwConsts} {node : ConfigNode} {mode : UInt32} :
    (∃ e, lastAccepted c node mode = some e) ↔ ∃ e ∈ node.children, uftAccepted c e = true ∧ elemMode e = mode := by
  unfold lastAccepted
  rw [Attrs.last_isSome_iff]
  simp only [List.mem_filter, and_assoc]

/-! ## Where they agree -/

/-- Without a table both fail. -/
theorem defaultAgrees_no_modes (c : SwConsts) (node : ConfigNode) {i : NasSwitchInfo} (hnone : i.numUftModes = 0)
    (old : UInt32) (outs : Option UftSizes) : DefaultAgrees c node i old outs := by
  refine ⟨?_, fun h => ?_⟩
  · simp [nasSwProfileUftDefaultModeInfoGet, nasSwProfileUftInfoGet, nasSwUftModeSupported, hnone]
  · simp [nasSwProfileUftDefaultModeInfoGet, hnone, confParam] at h

/-- So they do with a NULL output argument. -/
theorem defaultAgrees_null (c : SwConsts) (node : ConfigNode) {i : NasSwitchInfo} (hmodes : i.numUftModes ≠ 0)
    (old : UInt32) : DefaultAgrees c node i old none := by
  refine ⟨?_, fun h => ?_⟩
  · cases hs : nasSwUftModeSupported c i i.defUftmode <;>
      simp [nasSwProfileUftDefaultModeInfoGet, nasSwProfileUftInfoGet, hmodes, hs]
  · simp [nasSwProfileUftDefaultModeInfoGet, hmodes, confParam] at h

theorem defaultGet_some {i : NasSwitchInfo} (hmodes : i.numUftModes ≠ 0) (old : UInt32) (outs : UftSizes) :
    nasSwProfileUftDefaultModeInfoGet i (some old) (some outs) =
      (.ok, some i.defUftmode, some (nasSwFillUftInfo i i.defUftmode outs)) := by
  unfold nasSwProfileUftDefaultModeInfoGet
  rw [if_neg hmodes]

theorem uftGet_supported {c : SwConsts} {i : NasSwitchInfo} {mode : UInt32} (hs : nasSwUftModeSupported c i mode = true)
    (outs : UftSizes) : nasSwProfileUftInfoGet c i mode (some outs) = (.ok, some (nasSwFillUftInfo i mode outs)) := by
  unfold nasSwProfileUftInfoGet
  rw [if_neg (by simp [hs])]

theorem uftGet_ok {c : SwConsts} {i : NasSwitchInfo} {mode : UInt32} {outs : Option UftSizes}
    (h : (nasSwProfileUftInfoGet c i mode outs).1 = .ok) : nasSwUftModeSupported c i mode = true := by
  by_contra hs
  unfold nasSwProfileUftInfoGet at h
  rw [if_pos (by simpa using hs)] at h
  cases h

theorem supported_ne_zero {c : SwConsts} (hmin : 0 < c.baseSwitchUftModeMin) {i : NasSwitchInfo}
    (hmodes : i.numUftModes ≠ 0) {mode : UInt32} (hs : nasSwUftModeSupported c i mode = true) : mode ≠ 0 := by
  intro h
  unfold nasSwUftModeSupported at hs
  rw [if_neg hmodes, if_pos (Or.inl (by rw [h]; exact hmin))] at hs
  cases hs

/-- Otherwise the second succeeds, and the first decides. -/
theorem defaultAgrees_some_iff {c : SwConsts} (hmin : 0 < c.baseSwitchUftModeMin) {node : ConfigNode}
    {i : NasSwitchInfo} (htable : i.uftInfo = node.children.map (uftElem c))
    (hnum : i.numUftModes.toNat = node.children.length) (hmodes : i.numUftModes ≠ 0) (old : UInt32) (outs : UftSizes) :
    DefaultAgrees c node i old (some outs) ↔
      ∃ e ∈ node.children, uftAccepted c e = true ∧ elemMode e = i.defUftmode := by
  have hdefault := defaultGet_some hmodes old outs
  rw [← uftModeSupported_iff htable hnum hmodes hmin i.defUftmode]
  constructor
  · intro h
    exact uftGet_ok (h.ok.mp (by rw [hdefault]))
  · intro hs
    obtain ⟨e, he⟩ := lastAccepted_isSome_iff.mpr ((uftModeSupported_iff htable hnum hmodes hmin i.defUftmode).mp hs)
    have hfill : nasSwFillUftInfo i i.defUftmode outs = (uftElem c e).sizes := by
      rw [fillUftInfo_eq htable hnum (supported_ne_zero hmin hmodes hs), he]
      rfl
    refine ⟨by rw [hdefault, uftGet_supported hs], fun _ => ⟨e, he, ?_, ?_⟩⟩
    · rw [hdefault, hfill]
    · rw [uftGet_supported hs, hfill]

/-- For every section of 1 to 255 elements, whatever its modes and its default: the two
    queries agree on the default mode exactly when it is an accepted element's, or both
    fail anyway (no memory for the first table, or an output argument NULL). -/
theorem default_agrees_iff (c : SwConsts) (hmin : 0 < c.baseSwitchUftModeMin) (alloc : Bool) (node : ConfigNode)
    (hone : 1 ≤ node.children.length) (hmax : node.children.length ≤ 255) (i₀ : NasSwitchInfo)
    (hfirst : alloc = false → i₀.numUftModes = 0) (old : UInt32) (outs : Option UftSizes) :
    DefaultAgrees c node (nasSwitchUpdateUftInfo c alloc node i₀).2 old outs ↔
      (alloc = true → outs ≠ none →
        ∃ e ∈ node.children, uftAccepted c e = true ∧ elemMode e = sectionDefault node i₀) := by
  cases alloc with
  | false =>
    have hnone : (nasSwitchUpdateUftInfo c false node i₀).2.numUftModes = 0 := by
      simp only [nasSwitchUpdateUftInfo]
      rw [if_neg (by omega)]
      exact hfirst rfl
    exact iff_of_true (defaultAgrees_no_modes c node hnone old outs) fun h => by cases h
  | true =>
    obtain ⟨i, hi⟩ : ∃ i, i = (nasSwitchUpdateUftInfo c true node i₀).2 := ⟨_, rfl⟩
    have hparsed := hi.trans (congrArg Prod.snd (uftInfo_parsed i₀ (by omega)))
    have hdefault : i.defUftmode = sectionDefault node i₀ := by rw [hparsed]
    have htable : i.uftInfo = node.children.map (uftElem c) := by rw [hparsed]
    have hnum : i.numUftModes.toNat = node.children.length := by
      rw [hparsed]
      exact UInt8.toNat_ofNat_of_lt' (by show _ < 2 ^ 8; omega)
    rw [← hi]
    have hmodes : i.numUftModes ≠ 0 := by
      intro h
      rw [h] at hnum
      exact absurd hnum (by show ¬ 0 = _; omega)
    cases outs with
    | none => exact iff_of_true (defaultAgrees_null c node hmodes old) fun _ h => absurd rfl h
    | some outs =>
      rw [defaultAgrees_some_iff hmin htable hnum hmodes old outs, hdefault]
      exact ⟨fun h _ _ => h, fun h => h rfl (Option.some_ne_none outs)⟩

/-- Modes 1 to 4, and an element of mode 2 twice. -/
def uftConsts : SwConsts := ⟨1, 4, 1, 2⟩

def uftNode (attrs : List (String × CString)) : ConfigNode :=
  let mode := fun l2Max => ConfigNode.mk "mode".toList [("mode", "2".toList), ("l2_max", l2Max)] []
  .mk "switch_forwarding_mode".toList attrs [mode "8".toList, mode "9".toList]

theorem default_agrees_iff_two :
    DefaultAgrees uftConsts (uftNode [("default_mode", "2".toList)])
      (nasSwitchUpdateUftInfo uftConsts true (uftNode [("default_mode", "2".toList)]) .zero).2 7 (some ⟨7, 7, 7⟩) :=
  (default_agrees_iff uftConsts (by decide) true (uftNode [("default_mode", "2".toList)]) (by decide) (by decide) .zero
    (fun _ => rfl) 7 (some ⟨7, 7, 7⟩)).mpr fun _ _ => ⟨_, List.mem_cons_self, by decide, by decide⟩

/-- Without a default mode: the query for it succeeds with mode 0, and the caller's
    variables are as they were; the query for mode 0 fails. -/
theorem no_default_mode :
    let i := (nasSwitchUpdateUftInfo uftConsts true (uftNode []) .zero).2
    nasSwProfileUftDefaultModeInfoGet i (some 7) (some ⟨7, 7, 7⟩) = (.ok, some 0, some ⟨7, 7, 7⟩) ∧
      (nasSwProfileUftInfoGet uftConsts i 0 (some ⟨7, 7, 7⟩)).1 = confParam (.num 2) ∧
      ¬ DefaultAgrees uftConsts (uftNode []) i 7 (some ⟨7, 7, 7⟩) := by
  refine ⟨by decide, by decide, fun h => ?_⟩
  have hok := h.ok.mp (by decide)
  exact absurd hok (by decide)

end NasCommon.SwProfile
