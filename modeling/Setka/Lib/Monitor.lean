import Mathlib.Algebra.Order.Group.Nat
import Mathlib.Tactic.Common

/-!
# Monitors

A monitor is a deterministic automaton that reads a log of events, the newest event first.
`next q ev = none` says that `ev` must not happen in the state `q`.

* `after log`       the state after a log, `none` if an event was not allowed;
* `after_append`, `after_cons_some`   the state along a log;
* `countP_add_le`   what the events of a kind cost is bounded by what the start state has to spend;
* `mark_of_mem`     what an event leads to, and no event leads out of, lasts;
* `mem_older`       a state that is only entered by an event of a kind has such an event behind it.
-/

universe u v

/-- an automaton that reads events -/
structure Monitor (ε : Type u) (σ : Type v) where
  start : σ
  next : σ → ε → Option σ

namespace Monitor
variable {ε : Type u} {σ : Type v}

/-- the state after a log, the newest event first -/
def after (M : Monitor ε σ) : List ε → Option σ
  | [] => some M.start
  | ev :: older => (M.after older).bind (M.next · ev)

variable {M : Monitor ε σ} {log newer older es : List ε} {ev : ε} {q q' : σ}

theorem after_cons (h : M.after log = some q) : M.after (ev :: log) = M.next q ev := by
  show (M.after log).bind _ = _
  rw [h]
  rfl

theorem after_cons_some (h : M.after (ev :: older) = some q') :
    ∃ q, M.after older = some q ∧ M.next q ev = some q' :=
  Option.bind_eq_some_iff.mp h

/-- What was accepted before. -/
theorem after_append (h : M.after (newer ++ older) = some q') : ∃ q, M.after older = some q := by
  induction newer generalizing q' with
  | nil => exact ⟨q', h⟩
  | cons ev newer ih =>
    obtain ⟨q, hq, _⟩ := after_cons_some h
    exact ih hq

/-- Events that leave every state as it is. -/
theorem after_quiet (h : ∀ ev ∈ es, ∀ q, M.next q ev = some q) :
    M.after (es ++ log) = M.after log := by
  induction es with
  | nil => rfl
  | cons ev es ih =>
    obtain ⟨hev, hes⟩ := List.forall_mem_cons.mp h
    show (M.after (es ++ log)).bind _ = _
    rw [ih hes]
    cases hq : M.after log with
    | none => rfl
    | some q => exact hev q

/-- **Potential rule.**  The state has something to spend, and every event of the kind `p` costs
one. -/
theorem countP_add_le {p : ε → Bool} (left : σ → ℕ)
    (hstep : ∀ q ev q', M.next q ev = some q' → (if p ev then 1 else 0) + left q' ≤ left q)
    (h : M.after log = some q) : log.countP p + left q ≤ left M.start := by
  induction log generalizing q with
  | nil =>
    cases h
    exact Nat.le_of_eq (Nat.zero_add _)
  | cons ev log ih =>
    obtain ⟨q₀, hq₀, hev⟩ := after_cons_some h
    have hold := ih hq₀
    have hcost := hstep q₀ ev q hev
    rw [List.countP_cons]
    omega

/-- **Lasting states.**  What an event leads to, and no event leads out of, lasts. -/
theorem mark_of_mem (mark : σ → Prop) (hev : ∀ q q', M.next q ev = some q' → mark q')
    (hstep : ∀ q ev q', mark q → M.next q ev = some q' → mark q')
    (h : M.after log = some q) (hmem : ev ∈ log) : mark q := by
  induction log generalizing q with
  | nil => cases hmem
  | cons ev' log ih =>
    obtain ⟨q₀, hq₀, hq⟩ := after_cons_some h
    rcases List.mem_cons.mp hmem with rfl | hmem
    · exact hev q₀ q hq
    · exact hstep q₀ ev' q (ih hq₀ hmem) hq

/-- **Entered states.**  A state that only an event of the kind `p` leads to has one behind it. -/
theorem mem_older (mark : σ → Prop) {p : ε → Prop} (h0 : ¬ mark M.start)
    (hstep : ∀ q ev q', M.next q ev = some q' → mark q' → mark q ∨ p ev)
    (h : M.after log = some q) (hq : mark q) : ∃ ev ∈ log, p ev := by
  induction log generalizing q with
  | nil =>
    cases h
    exact absurd hq h0
  | cons ev log ih =>
    obtain ⟨q₀, hq₀, hev⟩ := after_cons_some h
    rcases hstep q₀ ev q hev hq with hmark | hp
    · obtain ⟨ev', hmem, hp⟩ := ih hq₀ hmark
      exact ⟨ev', List.mem_cons_of_mem _ hmem, hp⟩
    · exact ⟨ev, List.mem_cons_self, hp⟩

end Monitor
