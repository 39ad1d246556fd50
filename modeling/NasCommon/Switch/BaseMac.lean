/-
  NasCommon.Switch.BaseMac — waiting for the base MAC address
  (`nas_switch_utl.cpp`).

  Two loops ask the CPS database until it answers with an address: that of the switching
  entity, and that of the chassis once the platform service is there. What the database
  answers to each request is a parameter, and a request is open from its `init` to its
  `close`.
  - `base_mac_returns_iff`: the loops return exactly when some answer has an address,
    with the first such one; the first leaves no request open and the second one for
    each attempt that failed. With a null buffer neither returns.
-/

import NasCommon.Lib.Attempts

namespace NasCommon.Switch

/-- What the attempts return: `STD_ERR_OK`, or `STD_ERR (BOARD, PARAM, 0)` and so on. -/
inductive BaseMacRc where
  | ok
  | boardParam
  | boardFail
  | comFail
  deriving DecidableEq, Repr

/-- What comes of one request: whether its key is made and `cps_api_get` succeeds, and
    the objects it gets, each with its address if it has one. -/
structure MacAnswer (M : Type) where
  keyOk : Bool
  getOk : Bool
  objs : List (Option M)

/-- The caller's buffer, `none` for null, and the requests that are open. -/
structure MacSt (M : Type) where
  macBase : Option M
  opened : Nat

variable {M : Type}

/-- `nas_switch_get_sys_mac_base`. -/
def nasSwitchGetSysMacBase (a : MacAnswer M) (s : MacSt M) : BaseMacRc × MacSt M :=
  match s.macBase with
  | none => (.boardParam, s)
  | some _ =>
    let s := { s with opened := s.opened + 1 }
    let r :=
      if ¬ a.keyOk then (.boardFail, s)
      else if ¬ a.getOk then (.boardFail, s)
      else
        match a.objs with
        | [] => (.boardFail, s)
        | none :: _ => (.boardFail, s)
        | some mac :: _ => (.ok, { s with macBase := some mac })
    (r.1, { r.2 with opened := r.2.opened - 1 })

/-- An attempt of `nas_switch_wait_for_sys_base_mac`. -/
def sysAttempt (env : Nat → MacAnswer M) (k : Nat) (s : MacSt M) : MacSt M ⊕ MacSt M :=
  let r := nasSwitchGetSysMacBase (env k) s
  if r.1 = .ok then .inl r.2 else .inr r.2

/-- `nas_switch_wait_for_sys_base_mac`, the sleeps left out. -/
def nasSwitchWaitForSysBaseMac (env : Nat → MacAnswer M) (fuel : Nat) (s : MacSt M) : Option (MacSt M) :=
  Attempts.loop (sysAttempt env) fuel 0 s

/-- `nas_fetch_base_mac`: `none` where an attribute of a null object is asked for. The
    request is closed at the end alone. -/
def nasFetchBaseMac (a : MacAnswer M) (s : MacSt M) : Option (BaseMacRc × MacSt M) :=
  match s.macBase with
  | none => some (.comFail, s)
  | some _ =>
    let s := { s with opened := s.opened + 1 }
    if ¬ a.getOk then some (.boardFail, s)
    else
      match a.objs with
      | [] => none
      | none :: _ => some (.comFail, s)
      | some mac :: _ => some (.ok, { macBase := some mac, opened := s.opened - 1 })

/-- An attempt of `nas_get_platform_base_mac_address`. -/
def chassisAttempt (env : Nat → MacAnswer M) (k : Nat) (s : MacSt M) : Option (BaseMacRc × MacSt M) ⊕ MacSt M :=
  match nasFetchBaseMac (env k) s with
  | none => .inl none
  | some r => if r.1 = .ok then .inl (some (.ok, r.2)) else .inr r.2

/-- `nas_get_platform_base_mac_address`: a loop until the platform service is registered,
    then one until the address is there. -/
def nasGetPlatformBaseMacAddress (registered : Nat → Bool) (env : Nat → MacAnswer M) (fuel : Nat) (s : MacSt M) :
    Option (Option (BaseMacRc × MacSt M)) :=
  match Attempts.loop (fun k (_ : Unit) => if registered k then .inl () else .inr ()) fuel 0 () with
  | none => none
  | some () => Attempts.loop (chassisAttempt env) fuel 0 s

/-! ## When they return -/

/-- The address of the first object, if the answer has it. -/
def MacAnswer.sysMac (a : MacAnswer M) : Option M := if a.keyOk && a.getOk then a.objs.head?.join else none

/-- The same of the chassis, `some none` for no object at all. -/
def MacAnswer.chassisMac (a : MacAnswer M) : Option (Option M) :=
  if a.getOk then
    match a.objs with
    | [] => some none
    | none :: _ => none
    | some mac :: _ => some (some mac)
  else none

theorem sysMac_attempt (a : MacAnswer M) {s : MacSt M} (hbuf : s.macBase.isSome = true) :
    nasSwitchGetSysMacBase a s =
      match a.sysMac with
      | none => (.boardFail, s)
      | some mac => (.ok, { s with macBase := some mac }) := by
  obtain ⟨keyOk, getOk, objs⟩ := a
  obtain ⟨_ | old, opened⟩ := s
  · cases hbuf
  · cases keyOk <;> cases getOk <;> rcases objs with _ | ⟨_ | mac, objs⟩ <;> rfl

theorem chassisMac_attempt (a : MacAnswer M) {s : MacSt M} (hbuf : s.macBase.isSome = true) :
    nasFetchBaseMac a s =
      match a.chassisMac with
      | none => some (if a.getOk then .comFail else .boardFail, { s with opened := s.opened + 1 })
      | some none => none
      | some (some mac) => some (.ok, { s with macBase := some mac }) := by
  obtain ⟨keyOk, getOk, objs⟩ := a
  obtain ⟨_ | old, opened⟩ := s
  · cases hbuf
  · cases getOk <;> rcases objs with _ | ⟨_ | mac, objs⟩ <;> rfl

theorem sysMac_returns_iff (env : Nat → MacAnswer M) (s r : MacSt M) :
    (∃ fuel, nasSwitchWaitForSysBaseMac env fuel s = some r) ↔
      s.macBase.isSome = true ∧ ∃ n mac, (env n).sysMac = some mac ∧ (∀ j < n, (env j).sysMac = none) ∧
        r = { s with macBase := some mac } := by
  obtain ⟨_ | old, opened⟩ := s
  · refine (Attempts.returns_iff (f := sysAttempt env) (fun _ => ⟨none, opened⟩) (fun _ => none) fun k => rfl).trans ?_
    simp
  · have hattempt : ∀ k, sysAttempt env k ⟨some old, opened⟩ =
        ((env k).sysMac.map fun mac => (⟨some mac, opened⟩ : MacSt M)).elim (.inr ⟨some old, opened⟩) .inl := by
      intro k
      rw [sysAttempt, sysMac_attempt (env k) rfl]
      cases (env k).sysMac <;> rfl
    refine (Attempts.returns_iff (fun _ => _) _ hattempt).trans ?_
    simp only [Option.map_eq_some_iff, Option.map_eq_none_iff]
    constructor
    · intro h
      obtain ⟨n, ⟨mac, hmac, rfl⟩, hno⟩ := h
      exact ⟨rfl, n, mac, hmac, hno, rfl⟩
    · intro h
      obtain ⟨-, n, mac, hmac, hno, rfl⟩ := h
      exact ⟨n, ⟨mac, hmac, rfl⟩, hno⟩

theorem chassisMac_returns_iff (env : Nat → MacAnswer M) (s : MacSt M) (r : Option (BaseMacRc × MacSt M)) :
    (∃ fuel, Attempts.loop (chassisAttempt env) fuel 0 s = some r) ↔
      s.macBase.isSome = true ∧ ∃ n mac, (env n).chassisMac = some mac ∧ (∀ j < n, (env j).chassisMac = none) ∧
        r = mac.map fun mac => (.ok, { macBase := some mac, opened := s.opened + n }) := by
  obtain ⟨_ | old, opened⟩ := s
  · refine (Attempts.returns_iff (f := chassisAttempt env) (fun _ => ⟨none, opened⟩) (fun _ => none) fun k => rfl).trans ?_
    simp
  · have hattempt : ∀ k, chassisAttempt env k ⟨some old, opened + k⟩ =
        ((env k).chassisMac.map fun mac => mac.map fun mac => (BaseMacRc.ok, (⟨some mac, opened + k⟩ : MacSt M))).elim
          (.inr ⟨some old, opened + (k + 1)⟩) .inl := by
      intro k
      rw [chassisAttempt, chassisMac_attempt (env k) rfl]
      rcases (env k).chassisMac with _ | _ | mac
      · cases (env k).getOk <;> rfl
      · rfl
      · rfl
    refine (Attempts.returns_iff (f := chassisAttempt env) (fun k => ⟨some old, opened + k⟩) _ hattempt).trans ?_
    simp only [Option.map_eq_some_iff, Option.map_eq_none_iff]
    constructor
    · intro h
      obtain ⟨n, ⟨mac, hmac, rfl⟩, hno⟩ := h
      exact ⟨rfl, n, mac, hmac, hno, rfl⟩
    · intro h
      obtain ⟨-, n, mac, hmac, hno, rfl⟩ := h
      exact ⟨n, ⟨mac, hmac, rfl⟩, hno⟩

/-- The loops return exactly when, for the second, the platform service is registered at
    some time, the buffer is not null, and some answer has an address, with the first
    that has. The second goes wrong at the first answer without an object. It leaves a
    request open for each attempt that failed, the first loop none. -/
theorem base_mac_returns_iff (registered : Nat → Bool) (env : Nat → MacAnswer M) (s : MacSt M) :
    (∀ r, (∃ fuel, nasSwitchWaitForSysBaseMac env fuel s = some r) ↔
      s.macBase.isSome = true ∧ ∃ n mac, (env n).sysMac = some mac ∧ (∀ j < n, (env j).sysMac = none) ∧
        r = { s with macBase := some mac }) ∧
    ∀ r, (∃ fuel, nasGetPlatformBaseMacAddress registered env fuel s = some r) ↔
      (∃ k, registered k = true) ∧ s.macBase.isSome = true ∧ ∃ n mac, (env n).chassisMac = some mac ∧
        (∀ j < n, (env j).chassisMac = none) ∧
        r = mac.map fun mac => (.ok, { macBase := some mac, opened := s.opened + n }) := by
  refine ⟨sysMac_returns_iff env s, fun r => ?_⟩
  have hreg := Attempts.returns_some_iff (f := fun k (_ : Unit) => if registered k then Sum.inl () else Sum.inr ())
    (fun _ => ()) (fun k => if registered k then some () else none) fun k => by cases registered k <;> rfl
  have hreg' : (∃ fuel a, Attempts.loop (fun k (_ : Unit) => if registered k then Sum.inl () else Sum.inr ()) fuel 0 () = some a) ↔
      ∃ k, registered k = true := by
    rw [hreg]
    simp
  rw [← hreg', ← chassisMac_returns_iff]
  constructor
  · intro h
    obtain ⟨fuel, h⟩ := h
    unfold nasGetPlatformBaseMacAddress at h
    split at h
    · cases h
    · rename_i hloop
      exact ⟨⟨fuel, (), hloop⟩, fuel, h⟩
  · intro h
    obtain ⟨⟨fuel, a, hloop⟩, fuel', h⟩ := h
    -- as many attempts for both as the longer one takes
    refine ⟨max fuel fuel', ?_⟩
    unfold nasGetPlatformBaseMacAddress
    rw [Attempts.loop_mono hloop (le_max_left fuel fuel')]
    exact Attempts.loop_mono h (le_max_right fuel fuel')

end NasCommon.Switch
