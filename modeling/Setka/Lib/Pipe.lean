import Mathlib.Data.List.Infix
import Mathlib.Tactic.Common

/-!
# Pipes

A `Pipe` takes the elements a writer puts in and gives them to a reader, in order, through a part
that is on the way and a part that has arrived.  It can be closed by the writer, which the reader
learns when everything has arrived.  It can break at the end of the reader, who still gets what has
arrived, and at the end of the writer, who can put nothing in any more; the two ends break one
without the other.

* the fields `order`, `whole`, `last`   nothing is lost, repeated or reordered unless it breaks;
* `push`, `carry`, `pull`, `close`, `finish`, `breakOff`, `refuse`   what the two sides and the way
                           do;
* `Readable`, `Writable`   the reader learns something, and the writer can put something in or is
                           told that it cannot; nobody else ends this;
* `read_beginning`, `read_eq_written`   what was read is what was written, up to the rest and in
                                        full.
-/

universe u

/-- what was put into a pipe, and where it is -/
structure Pipe (α : Type u) where
  written : List α := []
  read : List α := []
  arrived : List α := []
  onWay : List α := []
  /-- the writer puts nothing in any more -/
  closed : Bool := false
  /-- the reader is told so -/
  ended : Bool := false
  /-- nothing arrives any more, and the reader is told so -/
  broken : Bool := false
  /-- the writer is told that the pipe is broken -/
  refused : Bool := false
  order : read ++ arrived <+: written := by exact List.prefix_rfl
  whole : broken = false → read ++ (arrived ++ onWay) = written := by exact fun _ => rfl
  last : ended = true → closed = true ∧ onWay = [] := by exact nofun

namespace Pipe
variable {α : Type u} (p : Pipe α)

/-! ## the two sides and the way -/

/-- The writer puts `d` in. -/
def push (d : List α) (h : p.refused = false ∧ p.closed = false) : Pipe α where
  written := p.written ++ d
  read := p.read
  arrived := p.arrived
  onWay := p.onWay ++ d
  broken := p.broken
  order := p.order.trans (List.prefix_append _ _)
  whole := fun hb => by
    rw [← p.whole hb, List.append_assoc, List.append_assoc]
  last := fun he => absurd ((p.last he).1.symm.trans h.2) (by decide)

/-- The next `n` elements arrive. -/
def carry (n : ℕ) (h : p.broken = false) : Pipe α where
  written := p.written
  read := p.read
  arrived := p.arrived ++ p.onWay.take n
  onWay := p.onWay.drop n
  closed := p.closed
  ended := p.ended
  refused := p.refused
  order := by
    rw [← p.whole h, List.prefix_append_right_inj, List.prefix_append_right_inj]
    exact List.take_prefix _ _
  whole := fun _ => by
    rw [List.append_assoc, List.take_append_drop]
    exact p.whole h
  last := fun he => by
    rw [(p.last he).2]
    exact ⟨(p.last he).1, List.drop_nil⟩

/-- The reader takes `n` elements. -/
def pull (n : ℕ) : Pipe α where
  written := p.written
  read := p.read ++ p.arrived.take n
  arrived := p.arrived.drop n
  onWay := p.onWay
  closed := p.closed
  ended := p.ended
  broken := p.broken
  refused := p.refused
  order := by
    rw [List.append_assoc, List.take_append_drop]
    exact p.order
  whole := by
    rw [List.append_assoc, ← List.append_assoc (p.arrived.take n), List.take_append_drop]
    exact p.whole
  last := p.last

/-- The writer closes. -/
def close : Pipe α :=
  { p with
    closed := true
    last := fun he => ⟨rfl, (p.last he).2⟩ }

/-- The reader is told that the writer has closed. -/
def finish (h : p.closed = true ∧ p.onWay = [] ∧ p.broken = false) : Pipe α :=
  { p with
    ended := true
    last := fun _ => ⟨h.1, h.2.1⟩ }

/-- The pipe breaks at the end of the reader, who keeps the next `n` elements that have arrived. -/
def breakOff (n : ℕ) : Pipe α :=
  { p with
    arrived := p.arrived.take n
    broken := true
    order := ((List.prefix_append_right_inj _).mpr (List.take_prefix _ _)).trans p.order
    whole := nofun }

/-- The writer is told that the pipe is broken. -/
def refuse : Pipe α := { p with refused := true }

section
variable {p : Pipe α} {n : ℕ} {d : List α}

@[simp] theorem push_written {h} : (p.push d h).written = p.written ++ d := rfl
@[simp] theorem push_read {h} : (p.push d h).read = p.read := rfl
@[simp] theorem push_closed {h} : (p.push d h).closed = false := rfl
@[simp] theorem push_broken {h} : (p.push d h).broken = p.broken := rfl

@[simp] theorem carry_written {h} : (p.carry n h).written = p.written := rfl
@[simp] theorem carry_read {h} : (p.carry n h).read = p.read := rfl
@[simp] theorem carry_closed {h} : (p.carry n h).closed = p.closed := rfl
@[simp] theorem carry_broken {h} : (p.carry n h).broken = false := rfl

@[simp] theorem pull_written : (p.pull n).written = p.written := rfl
@[simp] theorem pull_read : (p.pull n).read = p.read ++ p.arrived.take n := rfl
@[simp] theorem pull_closed : (p.pull n).closed = p.closed := rfl
@[simp] theorem pull_broken : (p.pull n).broken = p.broken := rfl

@[simp] theorem close_written : (p.close).written = p.written := rfl
@[simp] theorem close_read : (p.close).read = p.read := rfl
@[simp] theorem close_closed : (p.close).closed = true := rfl
@[simp] theorem close_broken : (p.close).broken = p.broken := rfl

@[simp] theorem finish_written {h} : (p.finish h).written = p.written := rfl
@[simp] theorem finish_read {h} : (p.finish h).read = p.read := rfl
@[simp] theorem finish_closed {h} : (p.finish h).closed = p.closed := rfl
@[simp] theorem finish_broken {h} : (p.finish h).broken = p.broken := rfl

@[simp] theorem breakOff_written : (p.breakOff n).written = p.written := rfl
@[simp] theorem breakOff_read : (p.breakOff n).read = p.read := rfl
@[simp] theorem breakOff_closed : (p.breakOff n).closed = p.closed := rfl
@[simp] theorem breakOff_broken : (p.breakOff n).broken = true := rfl

@[simp] theorem refuse_written : p.refuse.written = p.written := rfl
@[simp] theorem refuse_read : p.refuse.read = p.read := rfl
@[simp] theorem refuse_closed : p.refuse.closed = p.closed := rfl
@[simp] theorem refuse_broken : p.refuse.broken = p.broken := rfl

end

/-! ## what the two sides see -/

/-- something to read, the end, or the break -/
def Readable : Prop := p.arrived ≠ [] ∨ p.ended = true ∨ p.broken = true

/-- space for another element on the way, or the refusal -/
def Writable (capacity : ℕ) : Prop := p.onWay.length < capacity ∨ p.refused = true

instance : Decidable p.Readable :=
  decidable_of_iff (p.arrived.isEmpty = false ∨ p.ended = true ∨ p.broken = true)
    (or_congr_left List.isEmpty_eq_false_iff)

instance (capacity : ℕ) : Decidable (p.Writable capacity) :=
  inferInstanceAs (Decidable (_ ∨ _))

variable {p} {n capacity : ℕ} {d : List α}

theorem Readable.push {h} (hp : p.Readable) : (p.push d h).Readable := by
  rcases hp with hp | hp | hp
  · exact .inl hp
  · exact absurd ((p.last hp).1.symm.trans h.2) (by decide)
  · exact .inr (.inr hp)

theorem Readable.carry {h} (hp : p.Readable) : (p.carry n h).Readable := by
  rcases hp with hp | hp | hp
  · exact .inl fun hnil => hp (List.append_eq_nil_iff.mp hnil).1
  · exact .inr (.inl hp)
  · exact absurd (hp.symm.trans h) (by decide)

theorem Readable.close (hp : p.Readable) : p.close.Readable := hp

theorem readable_finish {h} : (p.finish h).Readable := .inr (.inl rfl)

theorem readable_breakOff : (p.breakOff n).Readable := .inr (.inr rfl)

theorem Readable.refuse (hp : p.Readable) : p.refuse.Readable := hp

theorem Writable.carry {h} (hp : p.Writable capacity) : (p.carry n h).Writable capacity := by
  refine hp.imp_left fun hlt => ?_
  show (p.onWay.drop n).length < capacity
  rw [List.length_drop]
  omega

theorem Writable.pull (hp : p.Writable capacity) : (p.pull n).Writable capacity := hp

theorem Writable.finish {h} (hp : p.Writable capacity) : (p.finish h).Writable capacity := hp

theorem Writable.breakOff (hp : p.Writable capacity) : (p.breakOff n).Writable capacity := hp

theorem writable_refuse : p.refuse.Writable capacity := .inr rfl

/-! ## what was read -/

/-- What was read is the beginning of what was written. -/
theorem read_beginning (p : Pipe α) : p.read <+: p.written := (List.prefix_append _ _).trans p.order

/-- At the end, everything was read that was written. -/
theorem read_eq_written (hb : p.broken = false) (he : p.ended = true) (ha : p.arrived = []) :
    p.read = p.written := by
  have hw := p.whole hb
  rw [ha, (p.last he).2, List.append_nil, List.append_nil] at hw
  exact hw

/-- The reader was told of the end and has everything that was written. -/
structure Finished (p : Pipe α) : Prop where
  ended : p.ended = true
  arrived : p.arrived = []
  read : p.read = p.written

theorem finished (hb : p.broken = false) (he : p.ended = true) (ha : p.arrived = []) :
    p.Finished := ⟨he, ha, read_eq_written hb he ha⟩

theorem Finished.not_push (hp : p.Finished) (h : p.refused = false ∧ p.closed = false) : False :=
  absurd ((p.last hp.ended).1.symm.trans h.2) (by decide)

theorem Finished.carry {h} (hp : p.Finished) : (p.carry n h).Finished where
  ended := hp.ended
  arrived := by
    show p.arrived ++ p.onWay.take n = []
    rw [hp.arrived, (p.last hp.ended).2, List.take_nil, List.append_nil]
  read := hp.read

theorem Finished.pull (hp : p.Finished) : (p.pull n).Finished where
  ended := hp.ended
  arrived := by
    show p.arrived.drop n = []
    rw [hp.arrived, List.drop_nil]
  read := by
    show p.read ++ p.arrived.take n = p.written
    rw [hp.arrived, List.take_nil, List.append_nil, hp.read]

theorem Finished.close (hp : p.Finished) : p.close.Finished := ⟨hp.ended, hp.arrived, hp.read⟩

theorem Finished.finish {h} (hp : p.Finished) : (p.finish h).Finished := ⟨rfl, hp.arrived, hp.read⟩

theorem Finished.breakOff (hp : p.Finished) : (p.breakOff n).Finished where
  ended := hp.ended
  arrived := by
    show p.arrived.take n = []
    rw [hp.arrived, List.take_nil]
  read := hp.read

theorem Finished.refuse (hp : p.Finished) : p.refuse.Finished := ⟨hp.ended, hp.arrived, hp.read⟩

end Pipe
