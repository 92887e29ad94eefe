import Mathlib.Data.Set.Basic
import Mathlib.Tactic.Common

/-!
# Transition systems with guarded runs

A `Machine` has a set of start states and a partial step function: `step a s = none` says that
the action `a` is not possible in `s`.

* `Reach G s`         `s` is the last state of a run all of whose steps meet the condition `G` on
                      the state before the step and the action;
* `Reach.invariant`   what holds at the start and is kept by every step holds in every state of
                      such a run;
* `run`, `exists_reach`   executable runs: a list of actions that evaluates to a state with a
                      property gives a reachable state with this property;
* `no_trap`           a relation along which a rank decreases has no set of points each of which
                      is related to a point of the set.
-/

universe u v

/-- start states and a partial step function -/
structure Machine (σ : Type u) (α : Type v) where
  init : σ → Prop
  step : α → σ → Option σ

namespace Machine
variable {σ : Type u} {α : Type v}

/-- the states of the runs whose steps all meet `G` -/
inductive Reach (M : Machine σ α) (G : σ → α → Prop) : σ → Prop
  | init {s : σ} : M.init s → Reach M G s
  | step {s s' : σ} {a : α} : Reach M G s → G s a → M.step a s = some s' → Reach M G s'

variable {M : Machine σ α} {G : σ → α → Prop}

theorem Reach.mono {H : σ → α → Prop} (hG : ∀ s a, G s a → H s a) {s : σ} (h : M.Reach G s) :
    M.Reach H s := by
  induction h with
  | init hs => exact .init hs
  | step _ hg hs ih => exact .step ih (hG _ _ hg) hs

/-- **Invariant rule.**  A step may use that its start state is reachable. -/
theorem Reach.invariant {I : σ → Prop} (h0 : ∀ s, M.init s → I s)
    (hstep : ∀ s a s', M.Reach G s → I s → G s a → M.step a s = some s' → I s') {s : σ}
    (h : M.Reach G s) : I s := by
  induction h with
  | init hs => exact h0 _ hs
  | step hr hg hs ih => exact hstep _ _ _ hr ih hg hs

/-! ## executable runs -/

section
variable (M G) [∀ s a, Decidable (G s a)]

/-- the state after a list of actions; `none` if a step is not possible or does not meet `G` -/
def run : List α → σ → Option σ
  | [], s => some s
  | a :: as, s => if G s a then (M.step a s).bind (run as) else none

end

variable [∀ s a, Decidable (G s a)] {as : List α} {s s0 : σ}

theorem Reach.run (hs : M.Reach G s0) (h : M.run G as s0 = some s) : M.Reach G s := by
  induction as generalizing s0 with
  | nil =>
    cases h
    exact hs
  | cons a as ih =>
    unfold Machine.run at h
    split at h
    · rename_i hg
      obtain ⟨t, ht, h'⟩ := Option.bind_eq_some_iff.mp h
      exact ih (.step hs hg ht) h'
    · cases h

theorem exists_run (M : Machine σ α) (G : σ → α → Prop) [∀ s a, Decidable (G s a)] (as : List α)
    (s0 : σ) (p : σ → Bool) (h : (M.run G as s0).any p = true) :
    ∃ s, M.run G as s0 = some s ∧ p s = true := by
  cases hr : M.run G as s0 with
  | none =>
    rw [hr] at h
    cases h
  | some s =>
    rw [hr] at h
    exact ⟨s, rfl, h⟩

/-- A list of actions that runs to a state with the property `p`. -/
theorem exists_reach (G : σ → α → Prop) [∀ s a, Decidable (G s a)] (as : List α) (p : σ → Bool)
    (h0 : M.init s0) (h : (M.run G as s0).any p = true) :
    ∃ s, M.Reach G s ∧ p s = true := by
  obtain ⟨s, hr, hp⟩ := exists_run M G as s0 p h
  exact ⟨s, (Reach.init h0).run hr, hp⟩

end Machine

/-- **No trap.**  If a rank decreases along two successive arrows, no nonempty set is such that
each of its points has an arrow into the set. -/
theorem no_trap {β : Type u} {R : β → β → Prop} (rank : β → ℕ)
    (hrank : ∀ a b c, R a b → R b c → rank b < rank a) {S : Set β} (hS : S.Nonempty) :
    ¬ ∀ a ∈ S, ∃ b ∈ S, R a b := by
  intro hR
  have key : ∀ n, ∀ a ∈ S, rank a = n → False := by
    intro n
    induction n using Nat.strong_induction_on with
    | _ n ih =>
      intro a ha hn
      obtain ⟨b, hb, hab⟩ := hR a ha
      obtain ⟨c, _, hbc⟩ := hR b hb
      have hlt := hrank a b c hab hbc
      exact ih (rank b) (hn ▸ hlt) b hb rfl
  obtain ⟨a, ha⟩ := hS
  exact key _ a ha rfl
