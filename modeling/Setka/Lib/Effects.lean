import Mathlib.Tactic.Common

/-!
# Programs that throw

`EStateM ε σ α` is a program over the state `σ` that returns or throws; what it did to the state
before the exception stays done.

* `Triple P x Q E`  from every state with `P` the program `x` returns with `Q`, or throws with `E`;
* the rules         for `pure`, `throw`, sequencing, branches and handlers;
* `Triple.final`    a property that holds at both exits holds of the state the program leaves;
* `EStateM.bind_of_ok`, `tryCatch_of_error` and so on   the same for one run.
-/

universe u

variable {ε σ α β : Type u}

namespace EStateM
variable {x : EStateM ε σ α} {s t : σ}

/-! ## one run -/

theorem bind_of_ok {f : α → EStateM ε σ β} {a : α} (h : x s = .ok a t) : (x >>= f) s = f a t := by
  show EStateM.bind x f s = _
  unfold EStateM.bind
  rw [h]

theorem bind_of_error {f : α → EStateM ε σ β} {e : ε} (h : x s = .error e t) :
    (x >>= f) s = .error e t := by
  show EStateM.bind x f s = _
  unfold EStateM.bind
  rw [h]

theorem tryCatch_of_ok {f : ε → EStateM ε σ α} {a : α} (h : x s = .ok a t) :
    (tryCatch x f : EStateM ε σ α) s = .ok a t := by
  show EStateM.tryCatch x f s = _
  unfold EStateM.tryCatch
  rw [h]

theorem tryCatch_of_error {f : ε → EStateM ε σ α} {e : ε} (h : x s = .error e t) :
    (tryCatch x f : EStateM ε σ α) s = f e t := by
  show EStateM.tryCatch x f s = _
  unfold EStateM.tryCatch
  rw [h]
  rfl

end EStateM

/-! ## all runs -/

def Triple (P : σ → Prop) (x : EStateM ε σ α) (Q : α → σ → Prop) (E : ε → σ → Prop) : Prop :=
  ∀ s, P s → match x s with
    | .ok a t => Q a t
    | .error e t => E e t

namespace EStateM.Result

/-- the state a program leaves -/
def state : EStateM.Result ε σ α → σ
  | .ok _ t => t
  | .error _ t => t

end EStateM.Result

namespace Triple
variable {P P' : σ → Prop} {Q Q' : α → σ → Prop} {R : β → σ → Prop} {E E' : ε → σ → Prop}
  {x y : EStateM ε σ α}

theorem final {I : σ → Prop} (h : Triple P x (fun _ => I) (fun _ => I)) {s : σ} (hs : P s) :
    I (x s).state := by
  have hx := h s hs
  cases hr : x s with
  | ok a t => rw [hr] at hx; exact hx
  | error e t => rw [hr] at hx; exact hx

theorem conseq (h : Triple P x Q E) (hP : ∀ s, P' s → P s) (hQ : ∀ a s, Q a s → Q' a s)
    (hE : ∀ e s, E e s → E' e s) : Triple P' x Q' E' := by
  intro s hs
  have hx := h s (hP s hs)
  cases hr : x s with
  | ok a t => rw [hr] at hx; exact hQ a t hx
  | error e t => rw [hr] at hx; exact hE e t hx

theorem pre (h : Triple P x Q E) (hP : ∀ s, P' s → P s) : Triple P' x Q E :=
  h.conseq hP (fun _ _ h => h) fun _ _ h => h

theorem post (h : Triple P x Q E) (hQ : ∀ a s, Q a s → Q' a s) : Triple P x Q' E :=
  h.conseq (fun _ h => h) hQ fun _ _ h => h

theorem postError (h : Triple P x Q E) (hE : ∀ e s, E e s → E' e s) : Triple P x Q E' :=
  h.conseq (fun _ h => h) (fun _ _ h => h) hE

theorem and (h : Triple P x Q E) (h' : Triple P' x Q' E') :
    Triple (fun s => P s ∧ P' s) x (fun a s => Q a s ∧ Q' a s) fun e s => E e s ∧ E' e s := by
  rintro s ⟨hs, hs'⟩
  have hx := h s hs
  have hx' := h' s hs'
  cases hr : x s with
  | ok a t =>
    rw [hr] at hx hx'
    exact ⟨hx, hx'⟩
  | error e t =>
    rw [hr] at hx hx'
    exact ⟨hx, hx'⟩

/-- A fact that is not about the state. -/
theorem fact {F : Prop} (h : F → Triple P x Q E) : Triple (fun s => P s ∧ F) x Q E :=
  fun s hs => h hs.2 s hs.1

theorem pure {a : α} (h : ∀ s, P s → Q a s) : Triple P (Pure.pure a : EStateM ε σ α) Q E := h

theorem throw {e : ε} (h : ∀ s, P s → E e s) :
    Triple P (MonadExcept.throw e : EStateM ε σ α) Q E := h

/-- **Sequencing.** -/
theorem bind {z : EStateM ε σ β} {f : β → EStateM ε σ α} (hz : Triple P z R E)
    (hf : ∀ b, Triple (R b) (f b) Q E) : Triple P (z >>= f) Q E := by
  intro s hs
  have hx := hz s hs
  show match EStateM.bind z f s with
    | .ok a t => Q a t
    | .error e t => E e t
  unfold EStateM.bind
  cases hr : z s with
  | ok b t => rw [hr] at hx; exact hf b t hx
  | error e t => rw [hr] at hx; exact hx

theorem ite {c : Prop} [Decidable c] (hx : c → Triple P x Q E) (hy : ¬ c → Triple P y Q E) :
    Triple P (if c then x else y) Q E := by
  split
  · rename_i h
    exact hx h
  · rename_i h
    exact hy h

/-- **Handlers.**  The handler starts from the state the exception left. -/
theorem tryCatch {f : ε → EStateM ε σ α} (hx : Triple P x Q E) (hf : ∀ e, Triple (E e) (f e) Q E') :
    Triple P (tryCatch x f) Q E' := by
  intro s hs
  have h := hx s hs
  show match EStateM.tryCatch x f s with
    | .ok a t => Q a t
    | .error e t => E' e t
  unfold EStateM.tryCatch
  cases hr : x s with
  | ok a t => rw [hr] at h; exact h
  | error e t => rw [hr] at h; exact hf e t h

end Triple
