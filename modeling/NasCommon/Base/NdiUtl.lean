/-
  NasCommon.Base.NdiUtl — pushing an object's create, delete and modify to its NPUs,
  with rollback (`nas_base_ndi_utl.cpp`).

  Every push that takes effect is appended to a tracker. When one throws, the tracker
  is undone from its end and the exception passed on. The three push loops are one
  loop, over the callback each runs and the element each tracks (`pushEach`).
-/

import NasCommon.Base.Obj

namespace NasCommon.Base

variable {V : Type} (env : Env V)

/-! ## Forward -/

/-- One callback on each NPU, tracked when it takes effect. While rolling back, an
    exception is logged and the loop goes on; nothing is tracked. -/
def pushEach (cb : NpuId → St V → Outcome × St V) (elem : NpuId → RollbkElem) (rollingBack : Bool) :
    List NpuId → St V → Option BaseException × St V
  | [], s => (none, s)
  | npuId :: npus, s =>
    match cb npuId s with
    | (.notPushed, s) => pushEach cb elem rollingBack npus s
    | (.throws e, s) => if rollingBack then pushEach cb elem rollingBack npus s else (some e, s)
    | (.pushed, s) =>
      pushEach cb elem rollingBack npus (if rollingBack then s else { s with rTrakr := s.rTrakr ++ [elem npuId] })

def createElem (npuId : NpuId) : RollbkElem := ⟨.createObj, npuId, []⟩
def deleteElem (npuId : NpuId) : RollbkElem := ⟨.deleteObj, npuId, []⟩
def modifyElem (attrId : AttrId) (npuId : NpuId) : RollbkElem := ⟨.modifyAttr, npuId, [attrId]⟩

def createObjNpulistNdi (objNew : BaseObj V) (npuList : NpuSet) (rollingBack : Bool) (s : St V) :
    Option BaseException × St V :=
  pushEach (pushCreateObjToNpu env .objNew objNew.allocFillNdiObj) createElem rollingBack npuList.elems s

def deleteObjNpulistNdi (npuList : NpuSet) (rollingBack : Bool) (s : St V) : Option BaseException × St V :=
  pushEach (pushDeleteObjToNpu env .objOld) deleteElem rollingBack npuList.elems s

/-- Go on unless an exception was thrown. -/
def andThen (r : Option BaseException × St V) (f : St V → Option BaseException × St V) : Option BaseException × St V :=
  match r with
  | (none, s) => f s
  | (some e, s) => (some e, s)

def modifyAttr (objNew : BaseObj V) (npuList : NpuSet) (rollingBack : Bool) (attrId : AttrId) (s : St V) :
    Option BaseException × St V :=
  if objNew.isLeafAttr attrId then
    pushEach (pushLeafAttrToNpu env .objNew objNew attrId) (modifyElem attrId) rollingBack npuList.elems s
  else pushNonLeafAttrNdi env attrId s

def modifyAttrs (objNew : BaseObj V) (npuList : NpuSet) (rollingBack : Bool) :
    List AttrId → St V → Option BaseException × St V
  | [], s => (none, s)
  | attrId :: attrs, s =>
    andThen (modifyAttr env objNew npuList rollingBack attrId s) (modifyAttrs objNew npuList rollingBack attrs)

def modifyObjNpulistNdi (objNew : BaseObj V) (npuList : NpuSet) (rollingBack : Bool) (s : St V) :
    Option BaseException × St V :=
  modifyAttrs env objNew npuList rollingBack objNew.dirtyAttributes.attributes.elems s

/-! ## Rollback -/

/-- How a call can fail: by an exception, or at a `STD_ASSERT`. -/
inductive Fault where
  | throws (e : BaseException)
  | assertFail
  deriving DecidableEq, Repr

/-! The three callbacks guarded by a handler: an exception is logged. -/

def rollbackCreateObjInNpu (npuId : NpuId) (s : St V) : St V := (pushDeleteObjToNpu env .objNew npuId s).2

def rollbackDeleteObjInNpu (npuId : NpuId) (ndiObj : Image V) (s : St V) : St V :=
  (pushCreateObjToNpu env .objOld ndiObj npuId s).2

def rollbackModifyAttrInNpu (objOld : BaseObj V) (attrId : AttrId) (npuId : NpuId) (s : St V) : St V :=
  (pushLeafAttrToNpu env .objOld objOld attrId npuId s).2

/-- The three that are not: an exception leaves the rollback. -/
def unguarded (c : Callback) (s : St V) : Option Fault × St V :=
  let r := voidCallback env c s
  (r.1.map .throws, r.2)

/-- The undo loop: the tracker's last element first, popped once its undo returned.
    The list is the tracker from its end. -/
def undoLoop (undoOne : RollbkElem → St V → Option Fault × St V) : List RollbkElem → St V → Option Fault × St V
  | [], s => (none, s)
  | e :: es, s =>
    match undoOne e s with
    | (none, s) => undoLoop undoOne es { s with rTrakr := s.rTrakr.dropLast }
    | (some f, s) => (some f, s)

def rollbackCreateObjNdi (s : St V) : Option Fault × St V :=
  undoLoop (fun e s =>
    if e.rlbkType = .createObj then (none, rollbackCreateObjInNpu env e.npuId s) else (some .assertFail, s))
    s.rTrakr.reverse s

def rollbackDeleteObjNdi (objOld : BaseObj V) (s : St V) : Option Fault × St V :=
  undoLoop (fun e s =>
    if e.rlbkType = .deleteObj then (none, rollbackDeleteObjInNpu env e.npuId objOld.allocFillNdiObj s)
    else (some .assertFail, s))
    s.rTrakr.reverse s

/-- One element of a modify's tracker. -/
def rollbackElem (objOld : BaseObj V) (e : RollbkElem) (s : St V) : Option Fault × St V :=
  match e.rlbkType with
  | .createObj => (none, rollbackCreateObjInNpu env e.npuId s)
  | .deleteObj => (none, rollbackDeleteObjInNpu env e.npuId objOld.allocFillNdiObj s)
  | .modifyAttr =>
    match e.attrHierarchy with
    | [attrId] => (none, rollbackModifyAttrInNpu env objOld attrId e.npuId s)
    | hierarchy => unguarded env (.rollbackNonLeafAttrInNpu .objOld hierarchy e.npuId) s
  | .createAttr => unguarded env (.rollbackCreateAttrInNpu .objNew e.attrHierarchy e.npuId) s
  | .deleteAttr => unguarded env (.rollbackDeleteAttrInNpu .objOld e.attrHierarchy e.npuId) s

def rollbackModifyObjNdi (objOld : BaseObj V) (s : St V) : Option Fault × St V :=
  undoLoop (rollbackElem env objOld) s.rTrakr.reverse s

/-! ## The three operations -/

/-- The handler: roll back and throw again, unless the rollback fails itself. -/
def rollbackAndThrow (rollback : St V → Option Fault × St V) (r : Option BaseException × St V) :
    Option Fault × St V :=
  match r with
  | (none, s) => (none, s)
  | (some e, s) =>
    match rollback s with
    | (none, s) => (some (.throws e), s)
    | (some f, s) => (some f, s)

def baseCreateObjNdi (objNew : BaseObj V) (rollingBack : Bool) (s : St V) : Option Fault × BaseObj V × St V :=
  let r := rollbackAndThrow (rollbackCreateObjNdi env)
    (createObjNpulistNdi env objNew objNew.npuList rollingBack { s with rTrakr := [] })
  (r.1, if r.1 = none then objNew.markNdiCreated else objNew, r.2)

def baseDeleteObjNdi (objOld : BaseObj V) (rollingBack : Bool) (s : St V) : Option Fault × St V :=
  rollbackAndThrow (rollbackDeleteObjNdi env objOld)
    (deleteObjNpulistNdi env objOld.npuList rollingBack { s with rTrakr := [] })

/-- The `try` block of `base_modify_obj_ndi`. -/
def modifyTry (objNew objOld : BaseObj V) (rollingBack : Bool) (s : St V) : Option BaseException × St V :=
  let npus := compare objNew.npuList objOld.npuList
  andThen (createObjNpulistNdi env objNew npus.onlyMine rollingBack s) fun s =>
  andThen (deleteObjNpulistNdi env npus.onlySecond rollingBack s) fun s =>
  modifyObjNpulistNdi env objNew npus.inBoth rollingBack s

def baseModifyObjNdi (objNew objOld : BaseObj V) (rollingBack : Bool) (s : St V) : Option Fault × St V :=
  rollbackAndThrow (rollbackModifyObjNdi env objOld) (modifyTry env objNew objOld rollingBack { s with rTrakr := [] })

end NasCommon.Base
