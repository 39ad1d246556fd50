/-
  NasCommon.Switch.Walk — what a call of `_fn_switch_parser`, and a walk of them, leaves
  of the verdict and of the switches.

  Two elements have a part in them. What the other handlers change is their own
  section's (`handler_only`), and no handler sets the next-boot VXLAN counts.
  - `fnSwitchParser_topology`, `fnSwitchParser_switch`, `fnSwitchParser_other`: a call's
    part in the switches is its element's.
  - `fnSwitchParser_spec`: what sets `failed`, from the element, the number of switches
    so far and the allocations.
  - `walk_failed_iff`: the same for a whole walk.
-/

import NasCommon.Switch.Dispatch

namespace NasCommon.Switch

open SwProfile (SameOverlay)

/-! ## The two elements' part of a call -/

/-- The same verdict, list, table and total. -/
structure SameSwitches (s t : SwitchSt) : Prop where
  failed : t.failed = s.failed
  switchList : t.switchList = s.switchList
  numberOfSwitches : t.numberOfSwitches = s.numberOfSwitches
  numSwitches : t.numSwitches = s.numSwitches
  switchCfg : t.switchCfg = s.switchCfg

theorem SameSwitches.refl (s : SwitchSt) : SameSwitches s s := ⟨rfl, rfl, rfl, rfl, rfl⟩

theorem SameSwitches.trans {s t u : SwitchSt} (h : SameSwitches s t) (h' : SameSwitches t u) : SameSwitches s u :=
  ⟨h'.failed.trans h.failed, h'.switchList.trans h.switchList, h'.numberOfSwitches.trans h.numberOfSwitches,
    h'.numSwitches.trans h.numSwitches, h'.switchCfg.trans h.switchCfg⟩

theorem OnlyChanges.sameSwitches {x : Section} {s t : SwitchSt} (h : OnlyChanges x s t) (hx : x.whole = false) :
    SameSwitches s t := by
  have hf := congrArg SwitchSt.failed h
  have hl := congrArg SwitchSt.switchList h
  have hn := congrArg SwitchSt.numberOfSwitches h
  have ht := congrArg SwitchSt.numSwitches h
  have hc := congrArg SwitchSt.switchCfg h
  cases x with
  | switchTopology => cases hx
  | switch => cases hx
  | _ => exact ⟨hf, hl, hn, ht, hc⟩

theorem runSections_sameSwitches {env : ParserEnv} {v : Visit} {l : List Section} (hl : ∀ x ∈ l, x.whole = false)
    (s : SwitchSt) : SameSwitches s (runSections env v l s).2 := by
  refine runSections_rel SameSwitches.refl (fun _ _ _ => SameSwitches.trans) l s fun x hx s => ?_
  exact (handler_only env v x s).sameSwitches (hl x (runSections_passed l _ x hx).1)

theorem afterSwitches_same (env : ParserEnv) (v : Visit) (s : SwitchSt) : SameSwitches s (afterSwitches env v s) := by
  rw [← runSections_after]
  exact runSections_sameSwitches (by decide) s

theorem andThen_same {f : SwitchSt → SwitchSt} (hf : ∀ s, SameSwitches s (f s)) (r : Bool × SwitchSt) :
    SameSwitches r.2 (andThen r f) := by
  unfold andThen
  split
  · exact hf r.2
  · exact .refl r.2

theorem fnSwitchParser_topology (env : ParserEnv) {s : SwitchSt} {v : Visit} (hs : s.failed = false)
    (hname : v.node.name = "switch_topology".toList) :
    SameSwitches (switchTopology env v s).2 (fnSwitchParser env s v) := by
  have hsw : v.node.name ≠ "switch".toList := by rw [hname]; decide
  unfold fnSwitchParser
  rw [if_neg (by simp [hs]), if_pos hname]
  simp only [if_neg hsw]
  exact andThen_same (afterSwitches_same env v) _

theorem fnSwitchParser_switch (env : ParserEnv) {s : SwitchSt} {v : Visit} (hs : s.failed = false)
    (hname : v.node.name = "switch".toList) : SameSwitches (switchElem env v s).2 (fnSwitchParser env s v) := by
  have htop : v.node.name ≠ "switch_topology".toList := by rw [hname]; decide
  unfold fnSwitchParser
  rw [if_neg (by simp [hs]), if_neg htop]
  simp only [if_pos hname]
  exact andThen_same (afterSwitches_same env v) _

theorem fnSwitchParser_other (env : ParserEnv) {s : SwitchSt} {v : Visit}
    (htop : v.node.name ≠ "switch_topology".toList) (hsw : v.node.name ≠ "switch".toList) :
    SameSwitches s (fnSwitchParser env s v) := by
  unfold fnSwitchParser
  by_cases hs : s.failed = true
  · rw [if_pos hs]
    exact .refl s
  · rw [if_neg hs, if_neg htop]
    simp only [if_neg hsw]
    exact afterSwitches_same env v s

/-! ## What sets `failed` -/

/-- A `switch_topology` element with IDs that do not parse, or without memory. -/
def TopologyFails (env : ParserEnv) (v : Visit) : Prop :=
  ∃ switchIds, v.node.attr "switch_ids" = some switchIds ∧
    (env.parseString switchIds = none ∨ v.alloc .switchList = false ∨ v.alloc .switchCfg = false)

/-- A `switch` element with an ID out of range, NPUs that do not parse, or without memory. -/
def SwitchFails (env : ParserEnv) (number : Nat) (v : Visit) : Prop :=
  ∃ id npus, v.node.attr "id" = some id ∧ v.node.attr "npus" = some npus ∧
    (number ≤ switchIx id ∨ env.parseString npus = none ∨ v.alloc .npus = false)

def ElementFails (env : ParserEnv) (number : Nat) (v : Visit) : Prop :=
  (v.node.name = "switch_topology".toList ∧ TopologyFails env v) ∨
    (v.node.name = "switch".toList ∧ SwitchFails env number v)

/-- The number of switches after an element. -/
def numberAfter (env : ParserEnv) (number : Nat) (v : Visit) : Nat :=
  if v.node.name = "switch_topology".toList then
    (((v.node.attr "switch_ids").bind env.parseString).map List.length).getD number
  else number

def WalkFails (env : ParserEnv) : Nat → List Visit → Prop
  | _, [] => False
  | number, v :: visits => ElementFails env number v ∨ WalkFails env (numberAfter env number v) visits

theorem switchTopology_spec (env : ParserEnv) (v : Visit) (s : SwitchSt) (hs : s.failed = false) :
    ((switchTopology env v s).2.failed = true ↔ TopologyFails env v) ∧
      (switchTopology env v s).2.numberOfSwitches =
        (((v.node.attr "switch_ids").bind env.parseString).map List.length).getD s.numberOfSwitches := by
  unfold switchTopology TopologyFails
  cases hids : v.node.attr "switch_ids" with
  | none => simp [hs]
  | some switchIds =>
    cases hp : env.parseString switchIds with
    | none => simp [intArrayFromString, hp]
    | some tokens => cases hl : v.alloc .switchList <;> cases hc : v.alloc .switchCfg <;>
        simp [intArrayFromString, hp, hs]

theorem switchElem_spec (env : ParserEnv) (v : Visit) (s : SwitchSt) (hs : s.failed = false) :
    ((switchElem env v s).2.failed = true ↔ SwitchFails env s.numberOfSwitches v) ∧
      (switchElem env v s).2.numberOfSwitches = s.numberOfSwitches := by
  unfold switchElem SwitchFails
  cases hid : v.node.attr "id" with
  | none => simp [hs]
  | some id =>
    cases hnpus : v.node.attr "npus" with
    | none => simp [hs]
    | some npus =>
      by_cases hix : s.numberOfSwitches ≤ switchIx id
      · simp [hix]
      · cases hp : env.parseString npus with
        | none => simp [hs, hix, hp, switchDetail, intArrayFromString]
        | some tokens => cases hn : v.alloc .npus <;> simp [hs, hix, hp, hn, switchDetail, intArrayFromString]

/-- What a call makes of the verdict and the number of switches. -/
theorem fnSwitchParser_spec (env : ParserEnv) (v : Visit) (s : SwitchSt) (hs : s.failed = false) :
    ((fnSwitchParser env s v).failed = true ↔ ElementFails env s.numberOfSwitches v) ∧
      (fnSwitchParser env s v).numberOfSwitches = numberAfter env s.numberOfSwitches v := by
  unfold ElementFails numberAfter
  by_cases htop : v.node.name = "switch_topology".toList
  · have hsw : v.node.name ≠ "switch".toList := by rw [htop]; decide
    have hsame := fnSwitchParser_topology env hs htop
    obtain ⟨hf, hn⟩ := switchTopology_spec env v s hs
    rw [hsame.failed, hsame.numberOfSwitches, hf, hn, if_pos htop]
    exact ⟨⟨fun h => Or.inl ⟨htop, h⟩, fun h => (h.resolve_right fun h => hsw h.1).2⟩, rfl⟩
  by_cases hsw : v.node.name = "switch".toList
  · have hsame := fnSwitchParser_switch env hs hsw
    obtain ⟨hf, hn⟩ := switchElem_spec env v s hs
    rw [hsame.failed, hsame.numberOfSwitches, hf, hn, if_neg htop]
    exact ⟨⟨fun h => Or.inr ⟨hsw, h⟩, fun h => (h.resolve_left fun h => htop h.1).2⟩, rfl⟩
  · have hsame := fnSwitchParser_other env (s := s) htop hsw
    rw [hsame.failed, hsame.numberOfSwitches, hs, if_neg htop]
    refine ⟨iff_of_false (by decide) fun h => ?_, rfl⟩
    rcases h with h | h
    · exact htop h.1
    · exact hsw h.1

/-- A walk fails when one of its elements does. -/
theorem walk_failed_iff (env : ParserEnv) (visits : List Visit) : ∀ s : SwitchSt, s.failed = false →
    ((walk env s visits).failed = true ↔ WalkFails env s.numberOfSwitches visits) := by
  induction visits with
  | nil => intro s hs; simp [walk, WalkFails, hs]
  | cons v visits ih =>
    intro s hs
    obtain ⟨hf, hn⟩ := fnSwitchParser_spec env v s hs
    show (walk env (fnSwitchParser env s v) visits).failed = true ↔ _
    by_cases hv : (fnSwitchParser env s v).failed = true
    · rw [walk_sticky env visits hv]
      exact iff_of_true hv (Or.inl (hf.mp hv))
    · rw [ih _ (by simpa using hv), hn]
      show _ ↔ ElementFails env s.numberOfSwitches v ∨ _
      exact ⟨Or.inr, fun h => h.resolve_left fun he => hv (hf.mpr he)⟩

theorem walk_failed_false_iff (env : ParserEnv) (visits : List Visit) :
    (walk env .init visits).failed = false ↔ ¬ WalkFails env 0 visits := by
  rw [← Bool.not_eq_true, walk_failed_iff env visits .init rfl]
  rfl

/-! ## The next-boot VXLAN counts -/

theorem OnlyChanges.sameOverlay {x : Section} {s t : SwitchSt} (h : OnlyChanges x s t) : SameOverlay s.info t.info := by
  have hrifs := congrArg (fun s : SwitchSt => s.info.nextBootMaxVxlanOverlayRifs) h
  have hnhs := congrArg (fun s : SwitchSt => s.info.nextBootMaxVxlanOverlayNexthops) h
  cases x <;> exact ⟨hrifs, hnhs⟩

theorem fnSwitchParser_sameOverlay (env : ParserEnv) (s : SwitchSt) (v : Visit) :
    SameOverlay s.info (fnSwitchParser env s v).info := by
  by_cases hs : s.failed = true
  · rw [fnSwitchParser_sticky env v hs]
    exact SameOverlay.refl _
  · rw [← runSections_state env v (by simpa using hs)]
    exact runSections_rel (R := fun s t => SameOverlay s.info t.info) (fun s => SameOverlay.refl s.info)
      (fun _ _ _ => SameOverlay.trans) _ s fun x _ s => (handler_only env v x s).sameOverlay

/-- Reading switch.xml leaves the next-boot VXLAN counts alone. -/
theorem walk_sameOverlay (env : ParserEnv) (visits : List Visit) : ∀ s : SwitchSt,
    SameOverlay s.info (walk env s visits).info := by
  induction visits with
  | nil => intro s; exact SameOverlay.refl _
  | cons v visits ih => intro s; exact (fnSwitchParser_sameOverlay env s v).trans (ih _)

end NasCommon.Switch
