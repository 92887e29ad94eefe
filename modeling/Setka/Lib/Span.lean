import Mathlib.Data.Nat.Notation
import Mathlib.Tactic.Common

/-!
# What a memory holds at a position

`At mem p xs` says that the list `xs` stands in `mem` from the position `p` on.  The rules take such
a fact apart along the structure of `xs`, and turn it into what a read at a position gives.
`Agree n mem mem'` says that two memories are the same in their first `n` places.
-/

universe u

namespace Span
variable {α : Type u}

/-- `xs` stands in `mem` from the position `p` on -/
def At (mem : List α) (p : ℕ) (xs : List α) : Prop := xs <+: mem.drop p

instance [DecidableEq α] (mem : List α) (p : ℕ) (xs : List α) : Decidable (At mem p xs) :=
  inferInstanceAs (Decidable (xs <+: mem.drop p))

variable {mem xs ys : List α} {p : ℕ} {x : α}

theorem At.left (h : At mem p (xs ++ ys)) : At mem p xs :=
  (List.prefix_append xs ys).trans h

theorem At.right (h : At mem p (xs ++ ys)) : At mem (p + xs.length) ys := by
  obtain ⟨rest, hrest⟩ := h
  refine ⟨rest, ?_⟩
  rw [List.append_assoc] at hrest
  rw [← List.drop_drop, ← hrest, List.drop_left]

theorem At.head (h : At mem p (x :: xs)) : mem[p]? = some x := by
  obtain ⟨rest, hrest⟩ := h
  have h0 : (mem.drop p)[0]? = some x := by
    rw [← hrest]
    rfl
  rw [List.getElem?_drop] at h0
  exact h0

theorem At.tail (h : At mem p (x :: xs)) : At mem (p + 1) xs := by
  have hcons : At mem p ([x] ++ xs) := h
  exact hcons.right

theorem At.append (hx : At mem p xs) (hy : At mem (p + xs.length) ys) : At mem p (xs ++ ys) := by
  obtain ⟨rest, hrest⟩ := hx
  unfold At at hy ⊢
  rw [← List.drop_drop, ← hrest, List.drop_left] at hy
  rw [← hrest]
  exact (List.prefix_append_right_inj xs).mpr hy

theorem At.singleton (h : mem[p]? = some x) : At mem p [x] := by
  obtain ⟨hp, rfl⟩ := List.getElem?_eq_some_iff.mp h
  exact ⟨mem.drop (p + 1), (List.drop_eq_getElem_cons hp).symm⟩

theorem At.take (h : At mem p xs) : (mem.drop p).take xs.length = xs := by
  obtain ⟨rest, hrest⟩ := h
  rw [← hrest, List.take_left]

theorem At.le (h : At mem p (x :: xs)) : p + xs.length < mem.length := by
  have hlen := h.length_le
  rw [List.length_drop, List.length_cons] at hlen
  omega

/-- A longer memory holds what a part of it holds. -/
theorem At.of_take {n : ℕ} (h : At (mem.take n) p xs) : At mem p xs := by
  rw [At, List.drop_take] at h
  exact h.trans (List.take_prefix _ _)

theorem at_append (mem xs rest : List α) : At (mem ++ (xs ++ rest)) mem.length xs := by
  unfold At
  rw [List.drop_left]
  exact List.prefix_append xs rest

/-- A part of the memory that is long enough holds it too. -/
theorem At.in_take {n : ℕ} (h : At mem p xs) (hn : p + xs.length ≤ n) : At (mem.take n) p xs := by
  unfold At
  rw [List.drop_take]
  refine List.prefix_of_prefix_length_le h (List.take_prefix _ _) ?_
  have hlen := h.length_le
  rw [List.length_take]
  omega

/-- The end of a shorter memory is the head of what stands there. -/
theorem At.drop_take_prefix {n : ℕ} (h : At mem p xs) (hn : n ≤ p + xs.length) :
    (mem.take n).drop p <+: xs := by
  rw [List.drop_take, ← h.take]
  exact List.take_prefix_take_left (by omega)

/-- A memory goes on with what its end is the head of. -/
theorem prefix_take_append (h : mem.drop p <+: xs) : mem <+: mem.take p ++ xs := by
  have hcat : mem.take p ++ mem.drop p <+: mem.take p ++ xs :=
    (List.prefix_append_right_inj _).mpr h
  rw [List.take_append_drop] at hcat
  exact hcat

/-! ## two memories -/

/-- The memories are the same in their first `n` places. -/
def Agree (n : ℕ) (mem mem' : List α) : Prop := mem.take n = mem'.take n

variable {mem' : List α} {n : ℕ}

instance [DecidableEq α] : Decidable (Agree n mem mem') := inferInstanceAs (Decidable (_ = _))

theorem Agree.symm (h : Agree n mem mem') : Agree n mem' mem := Eq.symm h

theorem Agree.getElem? (h : Agree n mem mem') {i : ℕ} (hi : i < n) : mem[i]? = mem'[i]? := by
  rw [← List.getElem?_take_of_lt hi, h, List.getElem?_take_of_lt hi]

/-- A slice of the common part. -/
theorem Agree.slice (h : Agree n mem mem') {k : ℕ} (hp : p + k ≤ n) :
    (mem.drop p).take k = (mem'.drop p).take k := by
  have hcut : ∀ l : List α, (l.drop p).take k = ((l.take n).drop p).take k := by
    intro l
    rw [List.drop_take, List.take_take, Nat.min_eq_left (by omega)]
  rw [hcut mem, h, ← hcut mem']

end Span
