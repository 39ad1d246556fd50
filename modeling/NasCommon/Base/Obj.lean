/-
  NasCommon.Base.Obj — the switch and object base classes and the callbacks of the
  classes derived from them (`base_switch_t`, `base_obj_t`, `nas_base_obj.h`).

  An object's derived class is the values its attributes have and which of them are
  leaves. Its callbacks reach the hardware (NDI), a map from NPU to the image of the
  object on it: a push that returns true creates, deletes or sets there, one that
  returns false or throws does nothing. What each callback does is the environment's
  choice (`Env`), by the number of callbacks run before it; `St.calls` records them.
-/

import Mathlib.Logic.Function.Basic
import NasCommon.Base.Sets
import NasCommon.Types

namespace NasCommon.Base

/-! ## Switch and object -/

/-- `base_switch_t`'s NPUs. -/
structure BaseSwitch where
  npus : NpuSet

def BaseSwitch.addNpu (sw : BaseSwitch) (npuId : NpuId) : BaseSwitch := ⟨sw.npus.insert npuId⟩

/-- An object's image: each attribute's value. -/
abbrev Image (V : Type) := AttrId → V

structure BaseObj (V : Type) where
  dirtyAttributes : AttrSet
  setAttributes : AttrSet
  ndiCreated : Bool
  npus : NpuSet
  npuListDirty : Bool
  followingSwitchNpus : Bool
  /-- The derived class: `is_leaf_attr` and the attributes' values. -/
  isLeafAttr : AttrId → Bool
  value : Image V

namespace BaseObj

variable {V : Type}

/-- A new object. -/
def new (isLeafAttr : AttrId → Bool) (value : Image V) : BaseObj V :=
  ⟨.empty, .empty, false, .empty, false, false, isLeafAttr, value⟩

def isCreatedInNdi (o : BaseObj V) : Bool := o.ndiCreated
def npuList (o : BaseObj V) : NpuSet := o.npus
def markNdiCreated (o : BaseObj V) : BaseObj V := { o with ndiCreated := true }
def markAttrDirty (o : BaseObj V) (attrId : AttrId) : BaseObj V :=
  { o with dirtyAttributes := o.dirtyAttributes.add attrId }
def clearAllDirtyFlags (o : BaseObj V) : BaseObj V :=
  { o with dirtyAttributes := o.dirtyAttributes.clear, npuListDirty := false }
def resetNpus (o : BaseObj V) : BaseObj V := { o with npus := .empty }

/-- `alloc_fill_ndi_obj`: the object's full image. -/
def allocFillNdiObj (o : BaseObj V) : Image V := o.value

def notInSwitch (npuId : NpuId) : BaseException :=
  ⟨nasBaseEParam, "NPU " ++ toString npuId ++ "does not belong to Table's Logical Switch"⟩

def addNpu (sw : BaseSwitch) (o : BaseObj V) (npuId : NpuId) (reset : Bool) : Except BaseException (BaseObj V) :=
  if ¬ sw.npus.contains npuId then .error (notInSwitch npuId)
  else
    let o := if ¬ o.npuListDirty then { o with npus := if reset then .empty else o.npus, npuListDirty := true } else o
    .ok { o with followingSwitchNpus := false, npus := o.npus.insert npuId }

/-- An NPU that is accepted is the switch's; it joins the list, which may be cleared first. -/
theorem addNpu_ok {sw : BaseSwitch} {o o' : BaseObj V} {npuId : NpuId} {reset : Bool}
    (h : o.addNpu sw npuId reset = .ok o') : npuId ∈ sw.npus ∧ ∃ npus : NpuSet, (npus = o.npus ∨ npus = .empty) ∧
      o' = { o with npuListDirty := true, followingSwitchNpus := false, npus := npus.insert npuId } := by
  by_cases hin : npuId ∈ sw.npus
  · simp only [addNpu, OrdSet.contains_iff, hin, not_true, if_false, Except.ok.injEq] at h
    refine ⟨hin, ?_⟩
    by_cases hd : o.npuListDirty = true
    · refine ⟨o.npus, Or.inl rfl, ?_⟩
      simp [← h, hd]
    · cases reset with
      | true => exact ⟨.empty, Or.inr rfl, by simp [← h, hd]⟩
      | false => exact ⟨o.npus, Or.inl rfl, by simp [← h, hd]⟩
  · simp [addNpu, hin] at h

end BaseObj

/-! ## Rollback tracking -/

inductive RollbkType where
  | createObj
  | deleteObj
  | modifyAttr
  | createAttr
  | deleteAttr
  deriving DecidableEq, Repr

structure RollbkElem where
  rlbkType : RollbkType
  npuId : NpuId
  attrHierarchy : List AttrId
  deriving DecidableEq, Repr

/-! ## Callbacks and the hardware -/

inductive Which where
  | objNew
  | objOld
  deriving DecidableEq, Repr

inductive Callback where
  | pushCreateObjToNpu (o : Which) (npuId : NpuId)
  | pushDeleteObjToNpu (o : Which) (npuId : NpuId)
  | pushLeafAttrToNpu (o : Which) (attrId : AttrId) (npuId : NpuId)
  | pushNonLeafAttrNdi (o : Which) (attrId : AttrId)
  | rollbackNonLeafAttrInNpu (o : Which) (attrHierarchy : List AttrId) (npuId : NpuId)
  | rollbackCreateAttrInNpu (o : Which) (attrHierarchy : List AttrId) (npuId : NpuId)
  | rollbackDeleteAttrInNpu (o : Which) (attrHierarchy : List AttrId) (npuId : NpuId)
  deriving DecidableEq, Repr

inductive Outcome where
  | pushed
  | notPushed
  | throws (e : BaseException)
  deriving DecidableEq, Repr

def Outcome.isThrow : Outcome → Bool
  | .throws _ => true
  | _ => false

abbrev Hw (V : Type) := NpuId → Option (Image V)

/-- What the callbacks do, the `k`-th one run by number: its outcome, and, for the ones
    about non-leaf attributes, what it appends to the tracker and does to the hardware. -/
structure Env (V : Type) where
  outcome : Nat → Outcome
  tracked : Nat → List RollbkElem
  touch : Nat → Hw V → Hw V

structure St (V : Type) where
  hw : Hw V
  calls : List Callback
  rTrakr : List RollbkElem

variable {V : Type} (env : Env V)

/-- A push: it takes effect when it returns true. -/
def push (c : Callback) (eff : Hw V → Hw V) (s : St V) : Outcome × St V :=
  let o := env.outcome s.calls.length
  (o, { s with hw := if o = .pushed then eff s.hw else s.hw, calls := s.calls ++ [c] })

def createOn (npuId : NpuId) (im : Image V) (hw : Hw V) : Hw V := Function.update hw npuId (some im)

def deleteOn (npuId : NpuId) (hw : Hw V) : Hw V := Function.update hw npuId none

/-- Set one attribute of the image on one NPU. -/
def setOn (attrId : AttrId) (npuId : NpuId) (v : V) (hw : Hw V) : Hw V :=
  Function.update hw npuId ((hw npuId).map fun im => Function.update im attrId v)

def pushCreateObjToNpu (o : Which) (ndiObj : Image V) (npuId : NpuId) : St V → Outcome × St V :=
  push env (.pushCreateObjToNpu o npuId) (createOn npuId ndiObj)

def pushDeleteObjToNpu (o : Which) (npuId : NpuId) : St V → Outcome × St V :=
  push env (.pushDeleteObjToNpu o npuId) (deleteOn npuId)

def pushLeafAttrToNpu (o : Which) (obj : BaseObj V) (attrId : AttrId) (npuId : NpuId) : St V → Outcome × St V :=
  push env (.pushLeafAttrToNpu o attrId npuId) (setOn attrId npuId (obj.value attrId))

/-- A callback about a non-leaf attribute: void, so it returns or throws. -/
def voidCallback (c : Callback) (s : St V) : Option BaseException × St V :=
  let k := s.calls.length
  let s' := { s with hw := env.touch k s.hw, calls := s.calls ++ [c] }
  match env.outcome k with
  | .throws e => (some e, s')
  | _ => (none, s')

/-- `push_non_leaf_attr_ndi` also appends to the tracker, whether or not it throws. -/
def pushNonLeafAttrNdi (attrId : AttrId) (s : St V) : Option BaseException × St V :=
  voidCallback env (.pushNonLeafAttrNdi .objNew attrId)
    { s with rTrakr := s.rTrakr ++ env.tracked s.calls.length }

end NasCommon.Base
