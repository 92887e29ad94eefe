import Mathlib.Data.Nat.Nth
import Setka.Lib.Machine

/-!
# Runs from a state, finite and infinite

* `Steps`         the finite runs of a machine from a state, with their actions;
* `Steps.countP_add_le`   a rank bounds how many actions of a kind a run has;
* `Trace`         the infinite runs;
* `Trace.exists_of_stages`   stages, each of which can be left for the next one by an action, make
                  an infinite run;
* `Account`       what is paid at some times has been earned at others, or was there at the start:
                  if it is earned finitely often it is paid finitely often;
* `count_le_of_between`   events between which another one lies.
-/

universe u v

namespace Machine
variable {σ : Type u} {α : Type v}

/-- the runs from the state `s` all of whose steps meet `G` -/
inductive Steps (M : Machine σ α) (G : σ → α → Prop) (s : σ) : List α → σ → Prop
  | nil : Steps M G s [] s
  | snoc {as : List α} {a : α} {s₁ s₂ : σ} : Steps M G s as s₁ → G s₁ a → M.step a s₁ = some s₂ →
      Steps M G s (as ++ [a]) s₂

variable {M : Machine σ α} {G H : σ → α → Prop} {s s' : σ} {as : List α}

theorem Steps.reach (h : M.Steps G s as s') (hG : ∀ s a, G s a → H s a) (hs : M.Reach H s) :
    M.Reach H s' := by
  induction h with
  | nil => exact hs
  | snoc _ hg hstep ih => exact .step ih (hG _ _ hg) hstep

theorem Steps.cons {a : α} {s₁ : σ} (hg : G s a) (hstep : M.step a s = some s₁)
    (h : M.Steps G s₁ as s') : M.Steps G s (a :: as) s' := by
  induction h with
  | nil => exact (Steps.nil : M.Steps G s [] s).snoc hg hstep
  | snoc _ hg' hstep' ih => exact .snoc ih hg' hstep'

theorem Steps.of_run [∀ s a, Decidable (G s a)] (h : M.run G as s = some s') :
    M.Steps G s as s' := by
  induction as generalizing s with
  | nil =>
    cases h
    exact .nil
  | cons a as ih =>
    unfold Machine.run at h
    split at h
    · rename_i hg
      obtain ⟨t, ht, h'⟩ := Option.bind_eq_some_iff.mp h
      exact .cons hg ht (ih h')
    · cases h

/-- **Ranking rule.**  If the actions of a kind lower a rank that no action raises, the rank of the
first state bounds how many of them there are. -/
theorem Steps.countP_add_le {I : σ → Prop} {p : α → Bool} (rank : σ → ℕ)
    (hstep : ∀ s a s', I s → G s a → M.step a s = some s' →
      I s' ∧ (if p a then 1 else 0) + rank s' ≤ rank s)
    (h : M.Steps G s as s') (h0 : I s) : I s' ∧ as.countP p + rank s' ≤ rank s := by
  induction h with
  | nil => exact ⟨h0, Nat.le_of_eq (Nat.zero_add _)⟩
  | snoc _ hg hs ih =>
    obtain ⟨hI, hle⟩ := ih
    obtain ⟨hI', hle'⟩ := hstep _ _ _ hI hg hs
    refine ⟨hI', ?_⟩
    rw [List.countP_append, List.countP_singleton]
    omega

/-! ## infinite runs -/

/-- an infinite run: the states and the actions -/
structure Trace (M : Machine σ α) where
  state : ℕ → σ
  act : ℕ → α
  step : ∀ n, M.step (act n) (state n) = some (state (n + 1))

theorem Trace.reach (tr : M.Trace) (h0 : M.Reach (fun _ _ => True) (tr.state 0)) (n : ℕ) :
    M.Reach (fun _ _ => True) (tr.state n) := by
  induction n with
  | zero => exact h0
  | succ n ih => exact .step ih trivial (tr.step n)

/-- If the action of each stage leads to the next stage, there is an infinite run through the
stages. -/
theorem Trace.exists_of_stages {act : ℕ → α} {P : ℕ → σ → Prop} (h0 : P 0 s)
    (hstep : ∀ n s, P n s → ∃ s', M.step (act n) s = some s' ∧ P (n + 1) s') :
    ∃ tr : M.Trace, tr.state 0 = s ∧ tr.act = act ∧ ∀ n, P n (tr.state n) := by
  choose! next hnext hP using hstep
  let state : ℕ → σ := fun n => n.rec s (fun n s => next n s)
  have hall : ∀ n, P n (state n) := by
    intro n
    induction n with
    | zero => exact h0
    | succ n ih => exact hP n _ ih
  exact ⟨⟨state, act, fun n => hnext n _ (hall n)⟩, rfl, rfl, hall⟩

end Machine

/-! ## counting along a run -/

/-- `μ n` is what is left at the time `n`: it is paid at the times of `A`, and earned at the times
of `B` only, one at a time. -/
structure Account (A B : ℕ → Prop) (μ : ℕ → ℕ) : Prop where
  pays : ∀ n, A n → μ (n + 1) < μ n
  earns : ∀ n, μ (n + 1) ≤ μ n ∨ (B n ∧ μ (n + 1) ≤ μ n + 1)

section
variable {A B : ℕ → Prop} {μ : ℕ → ℕ} [DecidablePred A] [DecidablePred B]

theorem Account.count_add_le (h : Account A B μ) (n : ℕ) :
    Nat.count A n + μ n ≤ μ 0 + Nat.count B n := by
  induction n with
  | zero => simp
  | succ n ih =>
    rw [Nat.count_succ, Nat.count_succ]
    have hearn := h.earns n
    by_cases hA : A n
    · have hpay := h.pays n hA
      rw [if_pos hA]
      omega
    · rw [if_neg hA]
      rcases hearn with hle | ⟨hB, hle⟩
      · omega
      · rw [if_pos hB]
        omega

/-- The times of `A` have a time of `B` between any two of them. -/
theorem count_le_of_between
    (h : ∀ i j, i < j → A i → A j → ∃ n, i < n ∧ n < j ∧ B n) (n : ℕ) :
    Nat.count A n ≤ Nat.count B n + 1 := by
  -- the stronger bound holds while `B` has come after the last time of `A`
  have key : ∀ n, Nat.count A n ≤ Nat.count B n ∨ (Nat.count A n ≤ Nat.count B n + 1 ∧
      ∃ i < n, A i ∧ ∀ j, i < j → j < n → ¬ B j) := by
    intro n
    induction n with
    | zero => exact .inl (Nat.le_refl _)
    | succ n ih =>
      rw [Nat.count_succ, Nat.count_succ]
      by_cases hA : A n
      · rw [if_pos hA]
        rcases ih with hle | ⟨hle, i, hi, hAi, hnone⟩
        · by_cases hB : B n
          · rw [if_pos hB]
            exact .inl (by omega)
          · rw [if_neg hB]
            refine .inr ⟨by omega, n, Nat.lt_succ_self n, hA, fun j hj hj' => ?_⟩
            omega
        · obtain ⟨j, hij, hjn, hB⟩ := h i n hi hAi hA
          exact absurd hB (hnone j hij hjn)
      · rw [if_neg hA]
        by_cases hB : B n
        · rw [if_pos hB]
          exact .inl (by omega)
        · rw [if_neg hB]
          rcases ih with hle | ⟨hle, i, hi, hAi, hnone⟩
          · exact .inl hle
          · refine .inr ⟨hle, i, by omega, hAi, fun j hij hj => ?_⟩
            rcases Nat.lt_succ_iff_lt_or_eq.mp hj with hj | rfl
            · exact hnone j hij hj
            · exact hB
  rcases key n with hle | ⟨hle, _⟩
  · omega
  · exact hle

/-- Events that are counted by those of a finite set are finitely many. -/
theorem finite_of_count_le {b : ℕ} (h : ∀ n, Nat.count A n ≤ Nat.count B n + b)
    (hB : {n | B n}.Finite) : {n | A n}.Finite := by
  by_contra hA
  have hle := h (Nat.nth A (hB.toFinset.card + b + 1))
  rw [Nat.count_nth_of_infinite hA] at hle
  have hcard : Nat.count B (Nat.nth A (hB.toFinset.card + b + 1)) ≤ hB.toFinset.card :=
    Nat.count_le_card hB _
  omega

theorem Account.finite (h : Account A B μ) (hB : {n | B n}.Finite) : {n | A n}.Finite := by
  refine finite_of_count_le (b := μ 0) (fun n => ?_) hB
  have hn := h.count_add_le n
  omega

end
