/-
  NasCommon.SwProfile.BlockSizes — the setters that divide by a block size, under any
  configuration.

  switch.xml may leave each block size out, or give it as 0. The setters of the two
  overlay counts refuse to configure one whose block size is 0 before anything else. The
  one of the IPv6 prefix routes asks only whether configuration is required, which the
  element says apart from its block size.
  - `block_setters_iff`: for any settings, value and operation, when each call divides
    by zero, and when what it stores on success is of whole blocks of a size not 0: a
    value that it checks always is, a default that DELETE restores need not be.
  - `ipv6_element_iff`: the elements after which no IPv6 call divides by zero.
  - `no_block_size_divides`: an element without `lpm_block_size`.
-/

import NasCommon.SwProfile.Setters

namespace NasCommon.SwProfile

/-- A call does not divide by zero, and what is stored on success is of whole blocks. -/
def WholeBlocks (blockSize stored : UInt32) (r : SetOutcome) : Prop :=
  r ≠ .divideByZero ∧ (r = .ret .ok → blockSize ≠ 0 ∧ Multiple blockSize stored)

/-- The call returns before the remainder, or its divisor is not 0. -/
def Ipv6DividesSafely (i : NasSwitchInfo) (conf : UInt32) (op : CpsOper) : Prop :=
  i.isIpv6ExtPrefixCfgReq = 0 ∨ op = .delete ∨ conf > i.maxIpv6ExtPrefixRoutes ∨ i.ipv6ExtPrefixRouteBlkSize ≠ 0

/-- The default is of whole blocks if it is to be restored. -/
def DefaultWhole (blockSize dflt : UInt32) (op : CpsOper) : Prop :=
  op = .delete → blockSize ≠ 0 ∧ Multiple blockSize dflt

theorem wholeBlocks_refused (blockSize stored : UInt32) (priv : ErrPriv) :
    WholeBlocks blockSize stored (.ret (confParam priv)) :=
  ⟨by simp, by simp [confParam]⟩

theorem wholeBlocks_stored {blockSize stored : UInt32} :
    WholeBlocks blockSize stored (.ret .ok) ↔ blockSize ≠ 0 ∧ Multiple blockSize stored :=
  ⟨fun h => h.2 rfl, fun h => ⟨by simp, fun _ => h⟩⟩

/-! ## The IPv6 prefix routes -/

theorem confIpv6Set_safe_iff (i : NasSwitchInfo) (v : UInt32) (op : CpsOper) :
    (nasSwProfileConfIpv6ExtPrefixRoutesSet i v op).1 ≠ .divideByZero ↔ Ipv6DividesSafely i v op := by
  unfold Ipv6DividesSafely
  rcases confIpv6Set_cases i v op with ⟨hreq, hr⟩ | ⟨hreq, hop, hr⟩ | ⟨hreq, hop, hr⟩
  · rw [hr]
    exact iff_of_true (by simp) (Or.inl hreq)
  · rw [hr]
    exact iff_of_true (by simp) (Or.inr (Or.inl hop))
  · rw [hr, ne_eq, validateIpv6_divideByZero_iff, not_and_or, not_not]
    simp only [hreq, hop, false_or, ne_eq]

theorem confIpv6Set_whole_iff (i : NasSwitchInfo) (v : UInt32) (op : CpsOper) :
    WholeBlocks i.ipv6ExtPrefixRouteBlkSize (nasSwProfileConfIpv6ExtPrefixRoutesSet i v op).2.nextIpv6ExtPrefixRoutes
      (nasSwProfileConfIpv6ExtPrefixRoutesSet i v op).1 ↔
    Ipv6DividesSafely i v op ∧
      (i.isIpv6ExtPrefixCfgReq ≠ 0 → DefaultWhole i.ipv6ExtPrefixRouteBlkSize i.defIpv6ExtPrefixRoutes op) := by
  rcases confIpv6Set_cases i v op with ⟨hreq, hr⟩ | ⟨hreq, hop, hr⟩ | ⟨hreq, hop, hr⟩
  · rw [hr]
    exact iff_of_true (wholeBlocks_refused _ _ _) ⟨Or.inl hreq, fun h => absurd hreq h⟩
  · rw [hr, wholeBlocks_stored]
    exact ⟨fun h => ⟨Or.inr (Or.inl hop), fun _ _ => h⟩, fun h => h.2 hreq hop⟩
  · rw [← confIpv6Set_safe_iff, WholeBlocks]
    refine and_congr_right fun hno => iff_of_true (fun hok => ?_) fun _ h => absurd h hop
    -- a value that passed the check was divided by a size not 0
    rw [hr] at hok hno
    obtain ⟨hmax, hmultiple⟩ := validateIpv6_ok hok
    rw [hr]
    dsimp only
    rw [if_pos hok]
    refine ⟨fun hblk => hno ?_, hmultiple⟩
    exact (validateIpv6_divideByZero_iff i v).mpr ⟨UInt32.not_lt.mpr hmax, hblk⟩

/-! ## The overlay counts -/

theorem maxVxlanOverlaySet_never (blockSize dflt : UInt32) (put : UInt32 → NasSwitchInfo) (i : NasSwitchInfo)
    (v : UInt32) (op : CpsOper) : (maxVxlanOverlaySet blockSize dflt put i v op).1 ≠ .divideByZero := by
  unfold maxVxlanOverlaySet
  split
  · simp
  split
  · simp
  split <;> simp

/-- `field` is the setting that `put` stores. -/
theorem maxVxlanOverlaySet_whole_iff (field : NasSwitchInfo → UInt32) (blockSize dflt : UInt32)
    {put : UInt32 → NasSwitchInfo} (hput : ∀ v, field (put v) = v) (i : NasSwitchInfo) (v : UInt32) (op : CpsOper) :
    WholeBlocks blockSize (field (maxVxlanOverlaySet blockSize dflt put i v op).2)
      (maxVxlanOverlaySet blockSize dflt put i v op).1 ↔
    (i.defVxlanRiotEnable = true → blockSize ≠ 0 → DefaultWhole blockSize dflt op) := by
  unfold maxVxlanOverlaySet
  by_cases hclosed : i.defVxlanRiotEnable = false ∨ blockSize = 0
  · rw [if_pos hclosed]
    refine iff_of_true (wholeBlocks_refused _ _ _) fun hriot hblk => ?_
    rcases hclosed with h | h
    · rw [h] at hriot; cases hriot
    · exact absurd h hblk
  obtain ⟨hriot, hblk⟩ := not_or.mp hclosed
  have hriot' : i.defVxlanRiotEnable = true := by simpa using hriot
  rw [if_neg hclosed]
  by_cases hop : op = .delete
  · rw [if_pos hop, wholeBlocks_stored, hput]
    exact ⟨fun h _ _ _ => h, fun h => h hriot' hblk hop⟩
  rw [if_neg hop]
  by_cases hmod : v % blockSize = 0
  · rw [if_neg (not_not_intro hmod), wholeBlocks_stored, hput]
    exact iff_of_true ⟨hblk, (multiple_iff _ _).mpr hmod⟩ fun _ _ h => absurd h hop
  · rw [if_pos hmod]
    exact iff_of_true (wholeBlocks_refused _ _ _) fun _ _ h => absurd h hop

/-! ## Under any configuration -/

/-- For any settings, value and operation: the IPv6 setter divides by zero exactly where
    it gets as far as the remainder with a block size of 0, and the overlay counts'
    never. Besides, what a success stores is of whole blocks of a size not 0, unless
    DELETE restores a default that is not. -/
theorem block_setters_iff (i : NasSwitchInfo) (v : UInt32) (op : CpsOper) :
    let ipv6 := nasSwProfileConfIpv6ExtPrefixRoutesSet i v op
    let rifs := nasSwProfileMaxVxlanOverlayRifsSet i v op
    let nhs := nasSwProfileMaxVxlanOverlayNhsSet i v op
    ((ipv6.1 ≠ .divideByZero ↔ Ipv6DividesSafely i v op) ∧ rifs.1 ≠ .divideByZero ∧ nhs.1 ≠ .divideByZero) ∧
    (WholeBlocks i.ipv6ExtPrefixRouteBlkSize ipv6.2.nextIpv6ExtPrefixRoutes ipv6.1 ↔ Ipv6DividesSafely i v op ∧
      (i.isIpv6ExtPrefixCfgReq ≠ 0 → DefaultWhole i.ipv6ExtPrefixRouteBlkSize i.defIpv6ExtPrefixRoutes op)) ∧
    (WholeBlocks i.rifBlockSize rifs.2.nextBootMaxVxlanOverlayRifs rifs.1 ↔
      (i.defVxlanRiotEnable = true → i.rifBlockSize ≠ 0 → DefaultWhole i.rifBlockSize i.defMaxVxlanOverlayRifs op)) ∧
    (WholeBlocks i.l3NexthopBlockSize nhs.2.nextBootMaxVxlanOverlayNexthops nhs.1 ↔
      (i.defVxlanRiotEnable = true → i.l3NexthopBlockSize ≠ 0 →
        DefaultWhole i.l3NexthopBlockSize i.defMaxVxlanOverlayNexthops op)) := by
  intro ipv6 rifs nhs
  refine ⟨⟨confIpv6Set_safe_iff i v op, maxVxlanOverlaySet_never _ _ _ i v op, maxVxlanOverlaySet_never _ _ _ i v op⟩,
    confIpv6Set_whole_iff i v op, ?_, ?_⟩
  · exact maxVxlanOverlaySet_whole_iff NasSwitchInfo.nextBootMaxVxlanOverlayRifs _ _ (fun _ => rfl) i v op
  · exact maxVxlanOverlaySet_whole_iff NasSwitchInfo.nextBootMaxVxlanOverlayNexthops _ _ (fun _ => rfl) i v op

/-- The elements after which no IPv6 call divides by zero: one that asks for
    configuration gives a block size. Otherwise a request for no routes at all does. -/
theorem ipv6_element_iff (node : ConfigNode) :
    (∀ v op, (nasSwProfileConfIpv6ExtPrefixRoutesSet (nasSwitchUpdateIpv6ExtendedPrefixInfo node .zero) v op).1 ≠
      .divideByZero) ↔
    (nasStdCfgAttrUpdate (nums node) "config_required" 0 ≠ 0 →
      nasStdCfgAttrUpdate (nums node) "lpm_block_size" 0 ≠ 0) := by
  have hreq : (nasSwitchUpdateIpv6ExtendedPrefixInfo node .zero).isIpv6ExtPrefixCfgReq =
      nasStdCfgAttrUpdate (nums node) "config_required" 0 := by
    unfold nasSwitchUpdateIpv6ExtendedPrefixInfo
    dsimp only
    split <;> rfl
  have hblk : nasStdCfgAttrUpdate (nums node) "config_required" 0 ≠ 0 →
      (nasSwitchUpdateIpv6ExtendedPrefixInfo node .zero).ipv6ExtPrefixRouteBlkSize =
        nasStdCfgAttrUpdate (nums node) "lpm_block_size" 0 := by
    intro h
    have h' : (nasStdCfgAttrUpdate (nums node) "config_required" 0 != 0) = true := by simpa using h
    unfold nasSwitchUpdateIpv6ExtendedPrefixInfo
    exact congrArg NasSwitchInfo.ipv6ExtPrefixRouteBlkSize (if_pos h')
  simp only [confIpv6Set_safe_iff, Ipv6DividesSafely, hreq]
  refine ⟨fun h hne => ?_, fun h v op => ?_⟩
  · -- 0 is never above the maximum
    rcases h 0 (.other 0) with h | h | h | h
    · exact absurd h hne
    · cases h
    · exact absurd h (UInt32.not_lt.mpr UInt32.zero_le)
    · rwa [hblk hne] at h
  · by_cases hne : nasStdCfgAttrUpdate (nums node) "config_required" 0 = 0
    · exact Or.inl hne
    · exact Or.inr (Or.inr (Or.inr (by rw [hblk hne]; exact h hne)))

/-- switch.xml's element with `lpm_block_size` left out. -/
def noBlockSize : NasSwitchInfo :=
  nasSwitchUpdateIpv6ExtendedPrefixInfo
    (.mk [] [("config_required", "1".toList), ("default_routes", "8".toList), ("max_routes", "64".toList)] []) .zero

/-- Any request up to the maximum divides by zero, here one for no routes at all. -/
theorem no_block_size_divides :
    (nasSwProfileConfIpv6ExtPrefixRoutesSet noBlockSize 0 (.other 3)).1 = .divideByZero := by
  decide

end NasCommon.SwProfile
