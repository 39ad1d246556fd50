/-
  NasCommon.Config — the elements of a configuration file (`std_config_node_t`), and
  the numbers in their attributes as `atoi` and `strtoul` read them.
-/

import Mathlib.Algebra.Ring.Int.Defs
import Mathlib.Algebra.Ring.Nat
import NasCommon.Types

namespace NasCommon

/-- An element: its name, its attributes and its child elements. -/
inductive ConfigNode where
  | mk (name : CString) (attrs : List (String × CString)) (children : List ConfigNode)

namespace ConfigNode

/-- `std_config_name_get`. -/
def name : ConfigNode → CString
  | mk name _ _ => name

/-- `std_config_attr_get`. -/
def attr : ConfigNode → String → Option CString
  | mk _ attrs _, a => attrs.lookup a

/-- What `std_config_get_child` and then `std_config_next_node` step through. -/
def children : ConfigNode → List ConfigNode
  | mk _ _ children => children

end ConfigNode

/-! ## Numbers in strings -/

def isSpace (c : Char) : Bool := c = ' ' || (9 ≤ c.toNat && c.toNat ≤ 13)

def digitVal (c : Char) : Option Nat :=
  if 48 ≤ c.toNat ∧ c.toNat ≤ 57 then some (c.toNat - 48)
  else if 97 ≤ c.toNat ∧ c.toNat ≤ 122 then some (c.toNat - 87)
  else if 65 ≤ c.toNat ∧ c.toNat ≤ 90 then some (c.toNat - 55)
  else none

def digitIn (base : Nat) (c : Char) : Option Nat := (digitVal c).filter fun d => d < base

/-- The number that the leading digits go on to spell. -/
def readDigits (base : Nat) : Nat → CString → Nat
  | acc, [] => acc
  | acc, c :: s =>
    match digitIn base c with
    | some d => readDigits base (acc * base + d) s
    | none => acc

def readSign : CString → Bool × CString
  | [] => (false, [])
  | c :: s => if c = '-' then (true, s) else if c = '+' then (false, s) else (false, c :: s)

/-- Base 0: hexadecimal after 0x, else octal after 0, else decimal. -/
def readBase : CString → Nat × CString
  | [] => (10, [])
  | c :: s =>
    if c = '0' then
      match s with
      | x :: d :: s => if (x = 'x' ∨ x = 'X') ∧ (digitIn 16 d).isSome then (16, d :: s) else (8, x :: d :: s)
      | s => (8, s)
    else (10, c :: s)

/-- `strtoul (s, NULL, 0)`: what is too large reads as `ULONG_MAX`. -/
def strtoul (s : CString) : UInt64 :=
  let r := readSign (s.dropWhile isSpace)
  let b := readBase r.2
  let v := readDigits b.1 0 b.2
  if 2 ^ 64 ≤ v then UInt64.ofNat (2 ^ 64 - 1)
  else if r.1 then 0 - UInt64.ofNat v
  else UInt64.ofNat v

/-- `atoi`: `strtol (s, NULL, 10)`, which stops at the ends of a `long`, as an `int`. -/
def atoi (s : CString) : Int32 :=
  let r := readSign (s.dropWhile isSpace)
  let v := readDigits 10 0 r.2
  if r.1 then Int32.ofInt (max (-(v : Int)) (-2 ^ 63)) else Int32.ofInt (min (v : Int) (2 ^ 63 - 1))

example : strtoul (" 0x1F,".toList) = 31 ∧ strtoul ("010".toList) = 8 ∧ strtoul ("12k".toList) = 12 := by decide

end NasCommon
