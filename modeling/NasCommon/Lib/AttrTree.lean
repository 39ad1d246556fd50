/-
  NasCommon.Lib.AttrTree — objects whose attributes nest.

  An attribute is a leaf with data or a container of attributes. `find` follows a path
  of ids, taking the first attribute with each id, and `under` gives what the container
  it ends at holds. `Adds p d l l'` says that `l'` is `l` with the leaf `d` added at the
  path `p`: into the first container there is for each id, or a new one, at any place
  among its siblings.
  - `Adds.under`: what is added below a container is added to what it holds.
  - `insert_adds`: adding at the end of each level is one way to do it.
-/

import Mathlib.Data.List.Basic

namespace AttrTree

variable {κ δ : Type}

inductive Attr (κ δ : Type) where
  | leaf (id : κ) (data : δ)
  | container (id : κ) (kids : List (Attr κ δ))

def Attr.id : Attr κ δ → κ
  | leaf id _ => id
  | container id _ => id

@[simp] theorem id_leaf (a : κ) (d : δ) : (Attr.leaf a d).id = a := rfl
@[simp] theorem id_container (a : κ) (kids : List (Attr κ δ)) : (Attr.container a kids).id = a := rfl

inductive Adds : List κ → δ → List (Attr κ δ) → List (Attr κ δ) → Prop
  | leaf (a : κ) (d : δ) (l r : List (Attr κ δ)) : Adds [a] d (l ++ r) (l ++ .leaf a d :: r)
  | inside {a : κ} {p : List κ} {d : δ} {l r kids kids' : List (Attr κ δ)} (hl : ∀ n ∈ l, n.id ≠ a)
      (h : Adds p d kids kids') : Adds (a :: p) d (l ++ .container a kids :: r) (l ++ .container a kids' :: r)
  | create {a : κ} {p : List κ} {d : δ} {l r kids' : List (Attr κ δ)} (hl : ∀ n ∈ l ++ r, n.id ≠ a)
      (h : Adds p d [] kids') : Adds (a :: p) d (l ++ r) (l ++ .container a kids' :: r)

theorem Adds.path_ne_nil {p : List κ} {d : δ} {l l' : List (Attr κ δ)} (h : Adds p d l l') : p ≠ [] := by
  cases h <;> exact List.cons_ne_nil _ _

/-- Below the first attribute with its id. -/
theorem Adds.of_container {a : κ} {p : List κ} {d : δ} {l r kids l' : List (Attr κ δ)} (hp : p ≠ [])
    (hl : ∀ n ∈ l, n.id ≠ a) (h : Adds (a :: p) d (l ++ .container a kids :: r) l') :
    ∃ kids', l' = l ++ .container a kids' :: r ∧ Adds p d kids kids' := by
  classical
  generalize hk : l ++ Attr.container a kids :: r = l1 at h
  cases h with
  | leaf => exact absurd rfl hp
  | create hl1 =>
    rw [← hk] at hl1
    exact absurd rfl (hl1 (.container a kids) (by simp))
  | @inside _ _ _ l1 r1 kids1 kids' hl1 h =>
    -- both prefixes end at the first attribute with the id
    have hpre : ∀ (s : List (Attr κ δ)) (c : Attr κ δ) (u : List (Attr κ δ)), (∀ n ∈ s, n.id ≠ a) → c.id = a →
        (s ++ c :: u).takeWhile (fun n => n.id ≠ a) = s := by
      intro s c u hs hc
      rw [List.takeWhile_append_of_pos (by simpa using hs)]
      simp [hc]
    have e : l = l1 := by
      rw [← hpre l (.container a kids) r hl rfl, hk, hpre l1 (.container a kids1) r1 hl1 rfl]
    subst e
    obtain ⟨hc, rfl⟩ := List.cons.inj (List.append_cancel_left hk)
    cases hc
    exact ⟨kids', rfl, h⟩

/-- One leaf, added among others. -/
theorem Adds.of_leaf {a : κ} {d : δ} {l l' : List (Attr κ δ)} (h : Adds [a] d l l') : l'.Perm (.leaf a d :: l) := by
  cases h with
  | leaf a d l r => exact List.perm_middle
  | inside _ h => exact absurd rfl h.path_ne_nil
  | create _ h => exact absurd rfl h.path_ne_nil

variable [DecidableEq κ]

/-! ## Following a path -/

/-- The first attribute with the id. -/
def child (a : κ) (l : List (Attr κ δ)) : Option (Attr κ δ) := l.find? fun n => n.id = a

def find : List κ → List (Attr κ δ) → Option (Attr κ δ)
  | [], _ => none
  | [a], l => child a l
  | a :: p, l =>
    match child a l with
    | some (.container _ kids) => find p kids
    | _ => none

def under : List κ → List (Attr κ δ) → Option (List (Attr κ δ))
  | [], l => some l
  | a :: p, l =>
    match child a l with
    | some (.container _ kids) => under p kids
    | _ => none

theorem child_of_first {a : κ} {l r : List (Attr κ δ)} {n : Attr κ δ} (hl : ∀ m ∈ l, m.id ≠ a) (hn : n.id = a) :
    child a (l ++ n :: r) = some n := by
  have hnone : l.find? (fun n => decide (n.id = a)) = none := by simpa using hl
  simp [child, List.find?_append, hnone, hn]

theorem child_eq_none {a : κ} {l : List (Attr κ δ)} (hl : ∀ m ∈ l, m.id ≠ a) : child a l = none := by
  simpa [child] using hl

theorem under_empty (p : List κ) : (under p ([] : List (Attr κ δ))).getD [] = [] := by
  cases p <;> rfl

theorem find_of_under {p : List κ} (hp : p ≠ []) {l kids : List (Attr κ δ)} (h : under p l = some kids) :
    ∃ a, find p l = some (.container a kids) := by
  induction p generalizing l with
  | nil => exact absurd rfl hp
  | cons a p ih =>
    unfold under at h
    cases p with
    | nil =>
      split at h
      · rename_i b ks hc
        cases h
        exact ⟨b, hc⟩
      · cases h
    | cons b p =>
      unfold find
      split at h
      · exact ih (List.cons_ne_nil _ _) h
      · cases h

theorem under_of_find {p : List κ} {l : List (Attr κ δ)} (h : find p l = none ∨ ∃ a, find p l = some (.container a [])) :
    p ≠ [] → (under p l).getD [] = [] := by
  intro hp
  cases hu : under p l with
  | none => rfl
  | some kids =>
    obtain ⟨a, ha⟩ := find_of_under hp hu
    rcases h with h | ⟨b, hb⟩
    · rw [ha] at h; cases h
    · rw [ha] at hb; cases hb; rfl

/-- What is added below `p` is added to what `p` holds. -/
theorem Adds.under {q : List κ} (hq : q ≠ []) {d : δ} (p : List κ) : ∀ {l l' : List (Attr κ δ)}, Adds (p ++ q) d l l' →
    ∃ kids', under p l' = some kids' ∧ Adds q d ((under p l).getD []) kids' := by
  induction p with
  | nil => intro l l' h; exact ⟨l', rfl, h⟩
  | cons a p ih =>
    intro l l' h
    rw [List.cons_append] at h
    generalize hpq : p ++ q = s at h
    cases h with
    | leaf =>
      obtain ⟨-, e⟩ := List.append_eq_nil_iff.mp hpq
      exact absurd e hq
    | inside hl h =>
      rw [← hpq] at h
      obtain ⟨kids', hu, ha⟩ := ih h
      refine ⟨kids', ?_, ?_⟩
      · rw [AttrTree.under, child_of_first hl rfl]; exact hu
      · rw [AttrTree.under, child_of_first hl rfl]; exact ha
    | create hl h =>
      rw [← hpq] at h
      obtain ⟨kids', hu, ha⟩ := ih h
      rw [under_empty] at ha
      refine ⟨kids', ?_, ?_⟩
      · rw [AttrTree.under, child_of_first (fun n hn => hl n (List.mem_append_left _ hn)) rfl]; exact hu
      · rw [AttrTree.under, child_eq_none hl]; exact ha

/-! ## Adding at the end -/

/-- `f` on the container of the first attribute with the id, which `f []` makes at the
    end when there is none. -/
def updateKids (a : κ) (f : List (Attr κ δ) → Option (List (Attr κ δ))) :
    List (Attr κ δ) → Option (List (Attr κ δ))
  | [] => (f []).map fun kids => [.container a kids]
  | n :: l =>
    if n.id = a then
      match n with
      | .leaf _ _ => none
      | .container b kids => (f kids).map fun kids => .container b kids :: l
    else (updateKids a f l).map fun l => n :: l

def insert (d : δ) : List κ → List (Attr κ δ) → Option (List (Attr κ δ))
  | [], _ => none
  | [a], l => some (l ++ [.leaf a d])
  | a :: p, l => updateKids a (insert d p) l

theorem updateKids_adds {a : κ} {p : List κ} {d : δ} {f : List (Attr κ δ) → Option (List (Attr κ δ))}
    (hf : ∀ kids kids', f kids = some kids' → Adds p d kids kids') (l : List (Attr κ δ)) :
    ∀ (done : List (Attr κ δ)) (l' : List (Attr κ δ)), (∀ n ∈ done, n.id ≠ a) → updateKids a f l = some l' →
      Adds (a :: p) d (done ++ l) (done ++ l') := by
  induction l with
  | nil =>
    intro done l' hdone h
    obtain ⟨kids, hk, rfl⟩ := Option.map_eq_some_iff.mp h
    exact Adds.create (r := []) (by simpa using hdone) (hf _ _ hk)
  | cons n l ih =>
    intro done l' hdone h
    unfold updateKids at h
    split at h
    · rename_i hn
      cases n with
      | leaf => cases h
      | container b kids =>
        obtain ⟨kids', hk, rfl⟩ := Option.map_eq_some_iff.mp h
        subst hn
        exact Adds.inside hdone (hf _ _ hk)
    · rename_i hn
      obtain ⟨l'', hl, rfl⟩ := Option.map_eq_some_iff.mp h
      have hdone' : ∀ m ∈ done ++ [n], m.id ≠ a := by
        intro m hm
        rcases List.mem_append.mp hm with hm | hm
        · exact hdone m hm
        · rw [List.mem_singleton.mp hm]; exact hn
      simpa using ih (done ++ [n]) l'' hdone' hl

theorem insert_adds (d : δ) (p : List κ) : ∀ {l l' : List (Attr κ δ)}, insert d p l = some l' → Adds p d l l' := by
  induction p with
  | nil => intro l l' h; cases h
  | cons a p ih =>
    intro l l' h
    cases p with
    | nil =>
      cases h
      simpa using Adds.leaf a d l []
    | cons b p => exact updateKids_adds (fun kids kids' hk => ih hk) l [] l' (by simp) h

end AttrTree
