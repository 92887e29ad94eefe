import Mathlib.Algebra.BigOperators.Group.Finset.Basic
import Mathlib.Algebra.Order.Group.Multiset

/-!
# Tokens in the hands of holders

Each holder of a family has a multiset of tokens.  A step that changes the hands of one holder
changes the total by what this holder gives away and takes in.

* `total S held`     the tokens of the holders in `S` together;
* `total_transfer`   the change of the total;
* `sum_map_set`, `mem_sum_map`, `holder_unique`   the same for a list of holders: the change of the
                     total, and that each token of a total without duplicates has one holder.
-/

universe u v

namespace Tokens
variable {ι : Type u} {β : Type v}

/-- the tokens of the holders in `S` -/
def total (S : Finset ι) (held : ι → Multiset β) : Multiset β := ∑ i ∈ S, held i

variable {S : Finset ι} {held held' : ι → Multiset β} {i : ι} {given taken : Multiset β}

/-- **One holder gives and takes,** the others keep what they have. -/
theorem total_transfer [DecidableEq ι] (hi : i ∉ S → held' i = held i)
    (hne : ∀ j, j ≠ i → held' j = held j) (h : held' i + given = held i + taken) :
    total S held' + given = total S held + taken := by
  unfold total
  by_cases hS : i ∈ S
  · have hrest : ∑ j ∈ S.erase i, held' j = ∑ j ∈ S.erase i, held j :=
      Finset.sum_congr rfl fun j hj => hne j (Finset.ne_of_mem_erase hj)
    rw [← Finset.add_sum_erase S held' hS, ← Finset.add_sum_erase S held hS, hrest,
      add_right_comm, h, add_right_comm]
  · have hsame : ∑ j ∈ S, held' j = ∑ j ∈ S, held j := by
      refine Finset.sum_congr rfl fun j hj => hne j fun hji => hS ?_
      rw [← hji]
      exact hj
    rw [hi hS] at h
    rw [hsame, add_left_cancel h]

/-- One entry of a list of holders is replaced. -/
theorem sum_map_set {α γ : Type*} [AddCommMonoid γ] (f : α → γ) {l : List α} {i : ℕ} {a b : α}
    (h : l[i]? = some a) : ((l.set i b).map f).sum + f a = (l.map f).sum + f b := by
  induction l generalizing i with
  | nil => cases h
  | cons c l ih =>
    cases i with
    | zero =>
      obtain rfl : c = a := Option.some.inj h
      rw [List.set_cons_zero, List.map_cons, List.sum_cons, List.map_cons, List.sum_cons]
      exact (add_comm _ _).trans (add_left_comm _ _ _) |>.trans (by rw [add_comm (f b), add_assoc])
    | succ i =>
      have hl := ih (i := i) h
      rw [List.set_cons_succ, List.map_cons, List.sum_cons, List.map_cons, List.sum_cons, add_assoc,
        hl,
        add_assoc]

section
variable {α : Type*} {f : α → Multiset β} {l : List α} {b : β}

theorem mem_sum_map : b ∈ (l.map f).sum ↔ ∃ i : ℕ, ∃ a, l[i]? = some a ∧ b ∈ f a := by
  induction l with
  | nil =>
    constructor
    · exact fun h => absurd h (Multiset.notMem_zero b)
    · rintro ⟨i, a, hi, -⟩
      cases hi
  | cons c l ih =>
    rw [List.map_cons, List.sum_cons, Multiset.mem_add, ih]
    constructor
    · rintro (h | ⟨i, a, hi, ha⟩)
      · exact ⟨0, c, rfl, h⟩
      · exact ⟨i + 1, a, hi, ha⟩
    · rintro ⟨i, a, hi, ha⟩
      cases i with
      | zero =>
        obtain rfl : c = a := Option.some.inj hi
        exact Or.inl ha
      | succ i => exact Or.inr ⟨i, a, hi, ha⟩

/-- Where no token is there twice, each has one holder. -/
theorem holder_unique {i j : ℕ} {a c : α} (hn : (l.map f).sum.Nodup) (hi : l[i]? = some a)
    (hj : l[j]? = some c) (ha : b ∈ f a) (hc : b ∈ f c) : i = j := by
  induction l generalizing i j with
  | nil => cases hi
  | cons d l ih =>
    rw [List.map_cons, List.sum_cons] at hn
    obtain ⟨-, hrest, hdisj⟩ := Multiset.nodup_add.mp hn
    cases i with
    | zero =>
      cases j with
      | zero => rfl
      | succ j =>
        obtain rfl : d = a := Option.some.inj hi
        exact absurd (mem_sum_map.mpr ⟨j, c, hj, hc⟩) (Multiset.disjoint_left.mp hdisj ha)
    | succ i =>
      cases j with
      | zero =>
        obtain rfl : d = c := Option.some.inj hj
        exact absurd (mem_sum_map.mpr ⟨i, a, hi, ha⟩) (Multiset.disjoint_left.mp hdisj hc)
      | succ j => exact congrArg (· + 1) (ih hrest hi hj)

end

theorem count_total [DecidableEq β] (b : β) : (total S held).count b = ∑ i ∈ S, (held i).count b :=
  Multiset.count_sum'

end Tokens
