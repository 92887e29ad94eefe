import Mathlib.Tactic.Common

/-!
# What was true when an event happened

A log lists events, the newest first.  `Always P log` says that `P` holds of every event of the log
and the log before it.
-/

universe u

namespace History
variable {α : Type u} {P : α → List α → Prop} {ev : α} {es log : List α}

/-- `P` holds of every event, with the log before it -/
def Always (P : α → List α → Prop) (log : List α) : Prop :=
  ∀ newer ev older, log = newer ++ ev :: older → P ev older

theorem Always.nil : Always P [] := by
  intro newer ev older h
  cases newer <;> cases h

theorem Always.cons (hev : P ev log) (h : Always P log) : Always P (ev :: log) := by
  intro newer ev' older heq
  cases newer with
  | nil =>
    cases heq
    exact hev
  | cons a newer =>
    obtain ⟨_, heq⟩ := List.cons.inj heq
    exact h newer ev' older heq

/-- Events that `P` holds of whatever was before them. -/
theorem Always.append (hes : ∀ ev ∈ es, ∀ older, P ev older) (h : Always P log) :
    Always P (es ++ log) := by
  induction es with
  | nil => exact h
  | cons ev es ih =>
    obtain ⟨hev, hes⟩ := List.forall_mem_cons.mp hes
    exact (ih hes).cons (hev _)

/-- An event of the log, at its place. -/
theorem Always.of_mem (h : Always P log) (hev : ev ∈ log) :
    ∃ newer older, log = newer ++ ev :: older ∧ P ev older := by
  obtain ⟨newer, older, heq⟩ := List.append_of_mem hev
  exact ⟨newer, older, heq, h newer ev older heq⟩

end History
