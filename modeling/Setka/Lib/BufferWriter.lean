import Mathlib.Data.Nat.Notation
import Setka.Lib.Effects

/-!
# Writing into an array through a pointer

A program that fills an array of fixed size from its start, with a pointer that moves on.

* `Buffer`      the cells of the array, the pointer, and whether an assertion has failed;
* `store`, `storeAll`, `check`   what the program does; a write outside of it is an exception;
* `written n xs`   an array of `n` cells of which `xs` is written;
* `Appends x xs`   the program `x` writes `xs` where the pointer is, and no assertion fails in it;
                   the rules follow the program.
-/

universe u

/-- an array with a pointer into it; a cell that was not written yet holds `none` -/
structure Buffer (α : Type u) where
  cells : List (Option α)
  p : ℕ
  failed : Bool := false
deriving DecidableEq, Repr

/-- an access outside of the array -/
inductive Overrun : Type u where
  | overrun
deriving DecidableEq, Repr

abbrev BufferWriter (α : Type u) (β : Type u) := EStateM Overrun (Buffer α) β

namespace BufferWriter
variable {α : Type u}

/-- `*p = x; ++p` -/
def store (x : α) : BufferWriter α PUnit := do
  let b ← get
  if b.p < b.cells.length then set { b with cells := b.cells.set b.p (some x), p := b.p + 1 }
  else throw .overrun

/-- the elements of a list one after another -/
def storeAll : List α → BufferWriter α PUnit
  | [] => pure ⟨⟩
  | x :: xs => do
    store x
    storeAll xs

/-- an assertion about the state; the program goes on when it fails -/
def check (holds : Buffer α → Bool) : BufferWriter α PUnit :=
  modify fun b => { b with failed := b.failed || !holds b }

/-! ## what is written -/

/-- an array of `n` cells of which the first ones hold `xs`; the pointer is after them -/
def written (n : ℕ) (xs : List α) : Buffer α where
  cells := xs.map some ++ List.replicate (n - xs.length) none
  p := xs.length

/-- The program writes `xs` where the pointer is, and nothing else. -/
def Appends (n : ℕ) (x : BufferWriter α PUnit) (xs : List α) : Prop :=
  ∀ ys : List α, ys.length + xs.length ≤ n → x (written n ys) = .ok ⟨⟩ (written n (ys ++ xs))

section
variable {n : ℕ} {x y : BufferWriter α PUnit} {xs ys : List α}

theorem written_length (h : ys.length ≤ n) : (written n ys).cells.length = n := by
  show (ys.map some ++ List.replicate (n - ys.length) none).length = n
  rw [List.length_append, List.length_map, List.length_replicate, Nat.add_sub_cancel' h]

/-- The cells before the pointer are the written ones. -/
theorem written_take : (written n ys).cells.take ys.length = ys.map some := by
  show (ys.map some ++ List.replicate (n - ys.length) none).take ys.length = ys.map some
  rw [List.take_append_of_le_length (Nat.le_of_eq (List.length_map some).symm),
    List.take_of_length_le (Nat.le_of_eq (List.length_map some))]

/-- the program on an array that was not written yet -/
theorem Appends.start (hx : Appends n x xs) (h : xs.length ≤ n) :
    x (written n []) = .ok ⟨⟩ (written n xs) :=
  hx [] (by rw [List.length_nil]; omega)

theorem appends_pure : Appends n (pure ⟨⟩ : BufferWriter α PUnit) [] := by
  intro ys _
  rw [List.append_nil]
  rfl

/-- Writing the next cell. -/
theorem set_written (a : α) (h : ys.length < n) :
    (written n ys).cells.set ys.length (some a) = (written n (ys ++ [a])).cells := by
  show (ys.map some ++ List.replicate (n - ys.length) none).set ys.length (some a) =
    (ys ++ [a]).map some ++ List.replicate (n - (ys ++ [a]).length) none
  rw [List.set_append_right _ _ (Nat.le_of_eq (List.length_map some)), List.length_map,
    Nat.sub_self, show n - ys.length = n - (ys.length + 1) + 1 by omega, List.replicate_succ,
    List.set_cons_zero, List.map_append, List.length_append, List.append_assoc]
  rfl

theorem store_of_lt {b : Buffer α} (a : α) (h : b.p < b.cells.length) :
    store a b = .ok ⟨⟩ { b with cells := b.cells.set b.p (some a), p := b.p + 1 } := by
  show (if b.p < b.cells.length then _ else _ : BufferWriter α PUnit) b = _
  rw [if_pos h]
  rfl

theorem appends_store (a : α) : Appends n (store a) [a] := by
  intro ys h
  rw [List.length_singleton] at h
  have hlen : (written n ys).cells.length = n := written_length (by omega)
  have hp : (written n (ys ++ [a])).p = ys.length + 1 := List.length_append
  rw [store_of_lt a (show ys.length < _ by omega)]
  refine congrArg (EStateM.Result.ok PUnit.unit) ?_
  show Buffer.mk ((written n ys).cells.set ys.length (some a)) (ys.length + 1) false = _
  rw [set_written a (by omega), ← hp]
  rfl

/-- **Sequencing** appends. -/
theorem Appends.seq (hx : Appends n x xs) (hy : Appends n y ys) :
    Appends n (do x; y) (xs ++ ys) := by
  intro zs h
  rw [List.length_append] at h
  have hfirst := hx zs (by omega)
  show (x >>= fun _ => y) _ = _
  rw [EStateM.bind_of_ok hfirst, hy (zs ++ xs) (by rw [List.length_append]; omega),
    List.append_assoc]

theorem appends_storeAll (xs : List α) : Appends n (storeAll xs) xs := by
  induction xs with
  | nil => exact appends_pure
  | cons x xs ih => exact (appends_store x).seq ih

/-- An assertion that holds does nothing. -/
theorem appends_check {holds : Buffer α → Bool}
    (h : ∀ zs : List α, zs.length ≤ n → holds (written n zs) = true) :
    Appends n (check holds) [] := by
  intro zs hlen
  rw [List.append_nil]
  show EStateM.Result.ok _ { written n zs with failed := false || !holds (written n zs) } = _
  rw [h zs hlen]
  rfl

end

end BufferWriter
