import Mathlib.Data.List.Sort
import Mathlib.Tactic.Common

/-!
# Node containers and their iterators

A linked container (list, map, multimap) is the list of its CELLS in iteration order.  Every cell
carries the identity of its node; an iterator is such an identity, so that an iterator to an
erased node is told from one to a live node.

* `eraseNode l n`   erase through the iterator `n`; `none` if no cell has the node `n`
                    (an invalid iterator);
* `insertUpper c l` insert before the first cell with a greater key, as an ordered map or multimap
                    does;
* `eraseNode_perm`  erasing the node of a cell removes exactly this cell;
* `eraseNode_insertUpper`   erasing the node just inserted gives the container back;
* `eraseNode_eq_filter`     erasing the only cell with a property filters it out;
* `filter_insertUpper`, `filter_insertUpper_only`   an insertion seen through a filter;
* `nodup_insertUpper`, `nodup_append_fresh`   a new node is not one of those there are;
* `pairwise_insertUpper`, `pairwise_eraseNode`   both keep the keys sorted.
-/

universe u v

/-- a node of a container: its identity, its key and its value -/
structure Cell (κ : Type u) (α : Type v) where
  node : ℕ
  key : κ
  val : α
deriving DecidableEq

namespace Cell
variable {κ : Type u} {α : Type v}

/-! ## erasing through an iterator -/

def eraseNode (l : List (Cell κ α)) (n : ℕ) : Option (List (Cell κ α)) :=
  if l.any (fun c => c.node == n) then some (l.eraseP (fun c => c.node == n)) else none

theorem eraseNode_eq_some {l l' : List (Cell κ α)} {n : ℕ} (h : eraseNode l n = some l') :
    l' = l.eraseP (fun c => c.node == n) := by
  unfold eraseNode at h
  split at h
  · exact (Option.some.inj h).symm
  · cases h

theorem eraseNode_of_mem {l : List (Cell κ α)} {c : Cell κ α} (hc : c ∈ l) :
    ∃ l', eraseNode l c.node = some l' := by
  have hany : l.any (fun d => d.node == c.node) = true := List.any_eq_true.mpr ⟨c, hc, by simp⟩
  exact ⟨_, if_pos hany⟩

theorem eraseNode_sublist {l l' : List (Cell κ α)} {n : ℕ} (h : eraseNode l n = some l') :
    l'.Sublist l := by
  rw [eraseNode_eq_some h]
  exact List.eraseP_sublist

/-- The container from which the last cell is erased. -/
theorem nodes_of_eraseNode {l : List (Cell κ α)} {n : ℕ} (h : eraseNode l n = some []) :
    l.map node = [n] := by
  unfold eraseNode at h
  split at h
  · rename_i hany
    cases l with
    | nil => cases hany
    | cons c l =>
      have herase : (c :: l).eraseP (fun c => c.node == n) = [] := Option.some.inj h
      by_cases hc : c.node = n
      · rw [List.eraseP_cons_of_pos (by simp [hc])] at herase
        rw [herase, List.map_singleton, hc]
      · rw [List.eraseP_cons_of_neg (by simp [hc])] at herase
        cases herase
  · cases h

theorem mem_of_mem_eraseNode {l l' : List (Cell κ α)} {n : ℕ} (h : eraseNode l n = some l')
    {d : Cell κ α} (hd : d ∈ l') : d ∈ l :=
  (eraseNode_sublist h).subset hd

/-- **Erasing is exact.**  With distinct nodes, the erased cell is the one the iterator was taken
from. -/
theorem eraseNode_perm {l l' : List (Cell κ α)} {c : Cell κ α} (hn : (l.map node).Nodup)
    (hc : c ∈ l) (h : eraseNode l c.node = some l') : l.Perm (c :: l') := by
  rw [eraseNode_eq_some h]
  clear h
  induction l with
  | nil => cases hc
  | cons d l ih =>
    rw [List.map_cons, List.nodup_cons] at hn
    by_cases hd : d.node = c.node
    · have e : d = c := by
        rcases List.mem_cons.mp hc with rfl | hcl
        · rfl
        · exact absurd (hd ▸ List.mem_map_of_mem hcl) hn.1
      rw [List.eraseP_cons_of_pos (by simp [hd]), e]
    · have hcl : c ∈ l := by
        rcases List.mem_cons.mp hc with rfl | hcl
        · exact absurd rfl hd
        · exact hcl
      rw [List.eraseP_cons_of_neg (by simp [hd])]
      exact ((ih hn.2 hcl).cons d).trans (List.Perm.swap c d _)

/-- Erasing the only cell with a property leaves those without it, in their order. -/
theorem eraseNode_eq_filter {l : List (Cell κ α)} {c : Cell κ α} {p : Cell κ α → Bool}
    (hn : (l.map node).Nodup) (hp : l.filter p = [c]) :
    eraseNode l c.node = some (l.filter fun d => !p d) := by
  have hc : c ∈ l := List.mem_of_mem_filter (hp ▸ List.mem_singleton_self c)
  obtain ⟨l', hl'⟩ := eraseNode_of_mem hc
  rw [hl', eraseNode_eq_some hl', Option.some_inj]
  clear hl'
  induction l with
  | nil => cases hc
  | cons d l ih =>
    rw [List.map_cons, List.nodup_cons] at hn
    by_cases hd : p d = true
    · rw [List.filter_cons_of_pos hd] at hp
      obtain ⟨rfl, hnil⟩ := List.cons.inj hp
      rw [List.eraseP_cons_of_pos (by simp), List.filter_cons_of_neg (by simp [hd])]
      refine (List.filter_eq_self.mpr fun e he => ?_).symm
      simpa using List.filter_eq_nil_iff.mp hnil e he
    · rw [List.filter_cons_of_neg hd] at hp
      have hcl : c ∈ l := List.mem_of_mem_filter (hp ▸ List.mem_singleton_self c)
      have hne : d.node ≠ c.node := fun heq => hn.1 (heq ▸ List.mem_map_of_mem hcl)
      rw [List.eraseP_cons_of_neg (by simp [hne]), List.filter_cons_of_pos (by simp [hd]),
        ih hn.2 hp hcl]

/-- What is left after erasing one of the cells of a container with known contents. -/
theorem eraseNode_rest {l l' m : List (Cell κ α)} {c : Cell κ α} (hn : (l.map node).Nodup)
    (hl : l.Perm (c :: m)) (h : eraseNode l c.node = some l') : l'.Perm m := by
  have hc : c ∈ l := hl.mem_iff.mpr List.mem_cons_self
  exact List.Perm.cons_inv ((eraseNode_perm hn hc h).symm.trans hl)

theorem nodup_eraseNode {l l' : List (Cell κ α)} {n : ℕ} (hn : (l.map node).Nodup)
    (h : eraseNode l n = some l') : (l'.map node).Nodup :=
  hn.sublist ((eraseNode_sublist h).map node)

/-! ## inserting by key -/

/-- An insertion is not seen through a filter that the new element does not pass. -/
theorem filter_orderedInsert {β : Type u} {r : β → β → Prop} [DecidableRel r] {p : β → Bool} {b : β}
    (hb : ¬ p b = true) (l : List β) : (l.orderedInsert r b).filter p = l.filter p := by
  rw [List.orderedInsert_eq_take_drop, List.filter_append, List.filter_cons_of_neg hb,
    ← List.filter_append, List.takeWhile_append_dropWhile]

section
variable [LT κ] [DecidableLT κ]

/-- before the first cell with a greater key -/
def insertUpper (c : Cell κ α) (l : List (Cell κ α)) : List (Cell κ α) :=
  l.orderedInsert (fun a b => a.key < b.key) c

theorem insertUpper_perm (c : Cell κ α) (l : List (Cell κ α)) :
    (insertUpper c l).Perm (c :: l) :=
  List.perm_orderedInsert _ c l

theorem mem_insertUpper {c d : Cell κ α} {l : List (Cell κ α)} :
    d ∈ insertUpper c l ↔ d = c ∨ d ∈ l := by
  rw [(insertUpper_perm c l).mem_iff, List.mem_cons]

theorem filter_insertUpper {c : Cell κ α} {p : Cell κ α → Bool} (hc : p c = false)
    (l : List (Cell κ α)) : (insertUpper c l).filter p = l.filter p :=
  filter_orderedInsert (by simp [hc]) l

theorem filter_insertUpper_only {c : Cell κ α} {p : Cell κ α → Bool} {l : List (Cell κ α)}
    (hc : p c = true) (hl : ∀ d ∈ l, p d = false) : (insertUpper c l).filter p = [c] := by
  have hperm := (insertUpper_perm c l).filter p
  have hnil : l.filter p = [] := List.filter_eq_nil_iff.mpr fun d hd => by simp [hl d hd]
  rw [List.filter_cons_of_pos hc, hnil] at hperm
  exact List.perm_singleton.mp hperm

/-- Erasing the node that was inserted gives the container back. -/
theorem eraseNode_insertUpper {c : Cell κ α} {l : List (Cell κ α)} (h : ∀ d ∈ l, d.node ≠ c.node) :
    eraseNode (insertUpper c l) c.node = some l := by
  have hany : (insertUpper c l).any (fun d => d.node == c.node) = true :=
    List.any_eq_true.mpr ⟨c, mem_insertUpper.mpr (Or.inl rfl), beq_self_eq_true _⟩
  unfold eraseNode
  rw [if_pos hany, Option.some_inj]
  clear hany
  unfold insertUpper
  induction l with
  | nil => exact List.eraseP_cons_of_pos (beq_self_eq_true c.node)
  | cons d l ih =>
    rw [List.orderedInsert_cons]
    split
    · exact List.eraseP_cons_of_pos (beq_self_eq_true c.node)
    · have hd : (d.node == c.node) = false := beq_false_of_ne (h d List.mem_cons_self)
      rw [List.eraseP_cons_of_neg (by rw [hd]; exact Bool.false_ne_true),
        ih fun e he => h e (List.mem_cons_of_mem d he)]

end

/-! ## new nodes -/

section
variable {c : Cell κ α} {l : List (Cell κ α)} {n m : ℕ}

/-- A new node is above all nodes there are. -/
theorem nodup_cons_fresh (hn : (l.map node).Nodup) (hlt : ∀ d ∈ l, d.node < n) (hc : n ≤ c.node) :
    ((c :: l).map node).Nodup := by
  rw [List.map_cons, List.nodup_cons]
  refine ⟨fun hmem => ?_, hn⟩
  obtain ⟨d, hd, hdn⟩ := List.mem_map.mp hmem
  have hbelow := hlt d hd
  omega

theorem nodup_append_fresh (hn : (l.map node).Nodup) (hlt : ∀ d ∈ l, d.node < n)
    (hc : n ≤ c.node) : ((l ++ [c]).map node).Nodup :=
  ((List.perm_append_singleton c l).map node).nodup_iff.mpr (nodup_cons_fresh hn hlt hc)

theorem node_lt_append (hlt : ∀ d ∈ l, d.node < n) (hnm : n ≤ m) (hc : c.node < m) :
    ∀ d ∈ l ++ [c], d.node < m := by
  intro d hd
  rcases List.mem_append.mp hd with hd | hd
  · exact (hlt d hd).trans_le hnm
  · rw [List.mem_singleton.mp hd]
    exact hc

variable [LT κ] [DecidableLT κ]

theorem nodup_insertUpper (hn : (l.map node).Nodup) (hlt : ∀ d ∈ l, d.node < n)
    (hc : n ≤ c.node) : ((insertUpper c l).map node).Nodup :=
  ((insertUpper_perm c l).map node).nodup_iff.mpr (nodup_cons_fresh hn hlt hc)

theorem node_lt_insertUpper (hlt : ∀ d ∈ l, d.node < n) (hnm : n ≤ m) (hc : c.node < m) :
    ∀ d ∈ insertUpper c l, d.node < m := by
  intro d hd
  rcases mem_insertUpper.mp hd with rfl | hd
  · exact hc
  · exact (hlt d hd).trans_le hnm

end

/-! ## sorted keys -/

section
variable [LE κ]

/-- the keys are in order -/
def SortedKeys (l : List (Cell κ α)) : Prop := l.Pairwise (fun a b => a.key ≤ b.key)

theorem pairwise_eraseNode {l l' : List (Cell κ α)} {n : ℕ} (hl : SortedKeys l)
    (h : eraseNode l n = some l') : SortedKeys l' :=
  hl.sublist (eraseNode_sublist h)

variable [Std.IsLinearOrder κ]

/-- the first key is the least one -/
theorem SortedKeys.head_le {c d : Cell κ α} {l : List (Cell κ α)} (h : SortedKeys (c :: l))
    (hd : d ∈ c :: l) : c.key ≤ d.key := by
  rcases List.mem_cons.mp hd with rfl | hd
  · exact Std.le_refl _
  · exact (List.pairwise_cons.mp h).1 d hd

variable [LT κ] [Std.LawfulOrderLT κ] [DecidableLT κ]

theorem pairwise_insertUpper (c : Cell κ α) (l : List (Cell κ α)) (h : SortedKeys l) :
    SortedKeys (insertUpper c l) := by
  induction l with
  | nil => exact List.pairwise_singleton _ _
  | cons d l ih =>
    obtain ⟨hd, hl⟩ := List.pairwise_cons.mp h
    unfold insertUpper
    rw [List.orderedInsert_cons]
    split
    · rename_i hlt
      refine List.pairwise_cons.mpr ⟨fun e he => ?_, h⟩
      rcases List.mem_cons.mp he with rfl | he
      · exact Std.le_of_lt hlt
      · exact Std.le_trans (Std.le_of_lt hlt) (hd e he)
    · rename_i hge
      refine List.pairwise_cons.mpr ⟨fun e he => ?_, ih hl⟩
      rcases mem_insertUpper.mp he with rfl | he
      · exact Std.not_lt.mp hge
      · exact hd e he

end

end Cell
