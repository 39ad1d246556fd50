/-
  NasCommon.IfMapping.IetfTypes — the interface types under their IETF names
  (`nas_to_ietf_if_type_get`, `ietf_to_nas_if_type_get`, `ietf_to_nas_os_if_type_get`).

  Three tables, each with its own list of the names. The names' texts are generated, so
  they are a parameter; no one is the beginning of another (`Apart`). A name is written
  into a buffer of the caller's, and cut where the buffer is too small.
  - `ietf_round_trip`: a type that is written reads back as itself where its name fits, as
    nothing where it is cut, and no other text reads as the type; every text that reads
    as a type is an OS interface's, but for that of the 1D bridges.
-/

import Mathlib.Data.List.Infix
import NasCommon.IfMapping.Registry

namespace NasCommon.IfMapping

/-- The names `IF_INTERFACE_TYPE_IANAIFT_IANA_INTERFACE_TYPE_*`. -/
inductive IetfType where
  | baseIfCpu
  | ianaiftEthernetcsmacd
  | ianaiftL2vlan
  | ianaiftIeee8023adlag
  | ianaiftSoftwareloopback
  | ianaiftFibrechannel
  | baseIfMacvlan
  | baseIfManagement
  | baseIfVxlan
  | baseIfVlansubinterface
  | baseIfVirtualnetwork
  deriving DecidableEq, Repr

/-- `BASE_CMN_INTERFACE_TYPE_t`, as far as the table has it. -/
inductive BaseCmnInterfaceType where
  | cpu
  | l3Port
  | vlan
  | lag
  | loopback
  | macvlan
  | management
  | vxlan
  | vlanSubintf
  deriving DecidableEq, Repr

def nasToIetfIfTypes : List (NasIntType × IetfType) :=
  [(.cpu, .baseIfCpu), (.port, .ianaiftEthernetcsmacd), (.vlan, .ianaiftL2vlan), (.lag, .ianaiftIeee8023adlag),
   (.lpbk, .ianaiftSoftwareloopback), (.fc, .ianaiftFibrechannel), (.macvlan, .baseIfMacvlan),
   (.mgmt, .baseIfManagement), (.vxlan, .baseIfVxlan), (.vlansubIntf, .baseIfVlansubinterface),
   (.dot1dBridge, .baseIfVirtualnetwork)]

def ietfToNasTypes : List (IetfType × NasIntType) :=
  [(.baseIfCpu, .cpu), (.ianaiftEthernetcsmacd, .port), (.ianaiftL2vlan, .vlan), (.ianaiftIeee8023adlag, .lag),
   (.ianaiftSoftwareloopback, .lpbk), (.ianaiftFibrechannel, .fc), (.baseIfMacvlan, .macvlan),
   (.baseIfManagement, .mgmt), (.baseIfVxlan, .vxlan), (.baseIfVlansubinterface, .vlansubIntf),
   (.baseIfVirtualnetwork, .dot1dBridge)]

def ietfToNasOsTypes : List (IetfType × BaseCmnInterfaceType) :=
  [(.baseIfCpu, .cpu), (.ianaiftEthernetcsmacd, .l3Port), (.ianaiftL2vlan, .vlan), (.ianaiftIeee8023adlag, .lag),
   (.ianaiftSoftwareloopback, .loopback), (.ianaiftFibrechannel, .l3Port), (.baseIfMacvlan, .macvlan),
   (.baseIfManagement, .management), (.baseIfVxlan, .vxlan), (.baseIfVlansubinterface, .vlanSubintf)]

section Texts

variable (text : IetfType → CString)

/-- `nas_to_ietf_if_type_get`; the buffer is `none` for NULL. -/
def nasToIetfIfTypeGet (ifType : NasIntType) (ietfType : Option CString) (size : Nat) : Bool × Option CString :=
  match nasToIetfIfTypes.lookup ifType with
  | none => (false, ietfType)
  | some t =>
    match ietfType with
    | none => (false, none)
    | some old => (true, some (safestrncpy old (text t) size))

/-- A table looked up by text. -/
def ofText {α : Type} (table : List (IetfType × α)) (s : CString) : Option α :=
  (table.find? fun e => text e.1 = s).map Prod.snd

/-- The out parameter is left alone where nothing is found. -/
def typeGet {α : Type} (table : List (IetfType × α)) (ietfType : CString) (ifType : α) : Bool × α :=
  match ofText text table ietfType with
  | none => (false, ifType)
  | some t => (true, t)

def ietfToNasIfTypeGet (ietfType : CString) (ifType : NasIntType) : Bool × NasIntType :=
  typeGet text ietfToNasTypes ietfType ifType

def ietfToNasOsIfTypeGet (ietfType : CString) (ifType : BaseCmnInterfaceType) : Bool × BaseCmnInterfaceType :=
  typeGet text ietfToNasOsTypes ietfType ifType

/-- No name is the beginning of another. -/
def Apart : Prop := ∀ a b, text a <+: text b → a = b

variable {text}

theorem Apart.text_inj (h : Apart text) {a b : IetfType} : text a = text b ↔ a = b :=
  ⟨fun e => h a b (e ▸ List.prefix_refl _), congrArg text⟩

/-- The entry of a name, in a table that has each name once. -/
theorem ofText_eq_some_iff (h : Apart text) {α : Type} {table : List (IetfType × α)} (hnodup : (table.map Prod.fst).Nodup)
    {s : CString} {v : α} : ofText text table s = some v ↔ ∃ t, text t = s ∧ (t, v) ∈ table := by
  unfold ofText
  rw [Option.map_eq_some_iff]
  constructor
  · intro hs
    obtain ⟨⟨t, w⟩, hfind, rfl⟩ := hs
    exact ⟨t, by simpa using List.find?_some hfind, List.mem_of_find?_eq_some hfind⟩
  · intro hs
    obtain ⟨t, rfl, hmem⟩ := hs
    refine ⟨(t, v), ?_, rfl⟩
    obtain ⟨e, he⟩ : ∃ e, table.find? (fun e => decide (text e.1 = text t)) = some e :=
      Option.isSome_iff_exists.mp (List.find?_isSome.mpr ⟨_, hmem, by simp⟩)
    have hkey : e.1 = t := h.text_inj.mp (by simpa using List.find?_some he)
    rw [he, List.inj_on_of_nodup_map hnodup (List.mem_of_find?_eq_some he) hmem hkey]

/-- The one table is the other, read from the right. -/
theorem nasToIetf_lookup_iff {t : NasIntType} {e : IetfType} :
    nasToIetfIfTypes.lookup t = some e ↔ (e, t) ∈ ietfToNasTypes := by
  cases t <;> cases e <;> decide

theorem ietfToNas_keys : (ietfToNasTypes.map Prod.fst).Nodup := by decide

theorem ietfToNasOs_keys : (ietfToNasOsTypes.map Prod.fst).Nodup := by decide

theorem ofText_nas_iff (h : Apart text) {s : CString} {t : NasIntType} :
    ofText text ietfToNasTypes s = some t ↔ ∃ e, text e = s ∧ nasToIetfIfTypes.lookup t = some e := by
  simp only [ofText_eq_some_iff h ietfToNas_keys, nasToIetf_lookup_iff]

theorem typeGet_eq_true_iff {α : Type} {table : List (IetfType × α)} {s : CString} {out v : α} :
    typeGet text table s out = (true, v) ↔ ofText text table s = some v := by
  unfold typeGet
  cases ofText text table s <;> simp

/-- A name that is cut is none of the names. -/
theorem ofText_cut (h : Apart text) {α : Type} {table : List (IetfType × α)} (hnodup : (table.map Prod.fst).Nodup)
    {e : IetfType} {n : Nat} (hcut : n < (text e).length) : ofText text table ((text e).take n) = none := by
  rw [Option.eq_none_iff_forall_not_mem]
  intro v hv
  obtain ⟨e', he', -⟩ := (ofText_eq_some_iff h hnodup).mp hv
  obtain rfl : e' = e := h e' e (he' ▸ List.take_prefix n (text e))
  have hlen := congrArg List.length he'
  rw [List.length_take] at hlen
  omega

/-- The OS table lacks the name of the 1D bridges. -/
theorem os_mem_iff {e : IetfType} : (∃ v, (e, v) ∈ ietfToNasOsTypes) ↔ ∃ t, t ≠ .dot1dBridge ∧ (e, t) ∈ ietfToNasTypes := by
  cases e <;> simp [ietfToNasOsTypes, ietfToNasTypes]

/-- For any interface type and any buffer: the name that is written reads back as the
    type where it fits and as nothing where it is cut. A text that reads as a type is
    what the type is written as. It reads as an OS type too exactly where the type is not
    that of the 1D bridges. -/
theorem ietf_round_trip (h : Apart text) :
    (∀ ifType e, nasToIetfIfTypes.lookup ifType = some e → ∀ old size out, 0 < size →
      ∃ s, nasToIetfIfTypeGet text ifType (some old) size = (true, some s) ∧
        ietfToNasIfTypeGet text s out = if (text e).length < size then (true, ifType) else (false, out)) ∧
    (∀ s ifType out, ietfToNasIfTypeGet text s out = (true, ifType) → ∀ old size, s.length < size →
      nasToIetfIfTypeGet text ifType (some old) size = (true, some s)) ∧
    ∀ s out outOs, (ietfToNasOsIfTypeGet text s outOs).1 = true ↔
      ∃ t, t ≠ .dot1dBridge ∧ ietfToNasIfTypeGet text s out = (true, t) := by
  refine ⟨fun ifType e he old size out hsize => ?_, fun s ifType out hs old size hlt => ?_, fun s out outOs => ?_⟩
  · refine ⟨safestrncpy old (text e) size, by rw [nasToIetfIfTypeGet, he], ?_⟩
    by_cases hfits : (text e).length < size
    · rw [if_pos hfits, safestrncpy_fits hfits]
      exact typeGet_eq_true_iff.mpr ((ofText_nas_iff h).mpr ⟨e, rfl, he⟩)
    · rw [if_neg hfits, safestrncpy, if_neg (by omega), ietfToNasIfTypeGet, typeGet,
        ofText_cut h ietfToNas_keys (by omega)]
  · obtain ⟨e, rfl, he⟩ := (ofText_nas_iff h).mp (typeGet_eq_true_iff.mp hs)
    rw [nasToIetfIfTypeGet, he]
    dsimp only
    rw [safestrncpy_fits hlt]
  · have hos : (ietfToNasOsIfTypeGet text s outOs).1 = true ↔ ∃ v, ofText text ietfToNasOsTypes s = some v := by
      unfold ietfToNasOsIfTypeGet typeGet
      cases ofText text ietfToNasOsTypes s <;> simp
    have hnas : ∀ t, ietfToNasIfTypeGet text s out = (true, t) ↔ ofText text ietfToNasTypes s = some t :=
      fun t => typeGet_eq_true_iff
    simp only [hos, hnas, ofText_eq_some_iff h ietfToNas_keys, ofText_eq_some_iff h ietfToNasOs_keys]
    constructor
    · intro hv
      obtain ⟨v, e, hs, hmem⟩ := hv
      obtain ⟨t, ht, hmem⟩ := os_mem_iff.mp ⟨v, hmem⟩
      exact ⟨t, ht, e, hs, hmem⟩
    · intro ht
      obtain ⟨t, ht, e, hs, hmem⟩ := ht
      obtain ⟨v, hmem⟩ := os_mem_iff.mpr ⟨t, ht, hmem⟩
      exact ⟨v, e, hs, hmem⟩

end Texts

/-- The names as YANG identities. -/
def identityText : IetfType → CString
  | .baseIfCpu => "base-if:cpu".toList
  | .ianaiftEthernetcsmacd => "ianaift:ethernetCsmacd".toList
  | .ianaiftL2vlan => "ianaift:l2vlan".toList
  | .ianaiftIeee8023adlag => "ianaift:ieee8023adLag".toList
  | .ianaiftSoftwareloopback => "ianaift:softwareLoopback".toList
  | .ianaiftFibrechannel => "ianaift:fibreChannel".toList
  | .baseIfMacvlan => "base-if:macvlan".toList
  | .baseIfManagement => "base-if:management".toList
  | .baseIfVxlan => "base-if:vxlan".toList
  | .baseIfVlansubinterface => "base-if:vlanSubInterface".toList
  | .baseIfVirtualnetwork => "base-if:virtualNetwork".toList

theorem ietf_round_trip_cut :
    ietfToNasIfTypeGet identityText (safestrncpy [] (identityText .ianaiftL2vlan) 10) .invalid = (false, .invalid) := by
  obtain ⟨s, hs, hread⟩ := (ietf_round_trip (by intro a b; cases a <;> cases b <;> decide : Apart identityText)).1
    .vlan .ianaiftL2vlan rfl [] 10 .invalid (by decide)
  obtain rfl : s = safestrncpy [] (identityText .ianaiftL2vlan) 10 := by
    cases hs
    rfl
  exact hread

end NasCommon.IfMapping
