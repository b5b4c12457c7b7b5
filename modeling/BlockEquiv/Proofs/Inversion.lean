import Mathlib.Init

/-!
# Taking computations apart

What the parts of a computation gave if the whole gave a result, and what holds at the end of a
computation that carries a state, whether it gives a result or fails.
-/

namespace BlockEquiv

variable {ε σ α β : Type}

/-- A sequence gives a result exactly if its parts do. -/
theorem bind_eq_ok_iff {x : Except ε α} {f : α → Except ε β} {b : β} :
    x >>= f = .ok b ↔ ∃ a, x = .ok a ∧ f a = .ok b := by
  cases x with
  | error e => simp [bind, Except.bind]
  | ok a => simp [bind, Except.bind]

/-- A sequence of steps with a state gives a result exactly if its parts do, one after the other. -/
theorem run_bind_eq_ok_iff {x : EStateM ε σ α} {f : α → EStateM ε σ β} {s t : σ} {b : β} :
    (x >>= f) s = .ok b t ↔ ∃ a s', x s = .ok a s' ∧ f a s' = .ok b t := by
  change EStateM.bind x f s = _ ↔ _
  unfold EStateM.bind
  cases x s with
  | error e s' => simp
  | ok a s' =>
    constructor
    · exact fun h => ⟨a, s', rfl, h⟩
    · rintro ⟨_, _, ⟨⟩, h⟩
      exact h

/-- A sequence runs the second step from where the first one ends, unless that fails. -/
theorem run_bind (x : EStateM ε σ α) (f : α → EStateM ε σ β) (s : σ) : (x >>= f) s =
    match x s with
    | .ok a t => f a t
    | .error e t => .error e t := rfl

/-- A given result leaves the state as it is. -/
theorem run_pure (a : α) (s : σ) : (pure a : EStateM ε σ α) s = .ok a s := rfl

/-- A failure leaves the state as it is. -/
theorem run_throw (e : ε) (s : σ) : (throw e : EStateM ε σ α) s = .error e s := rfl

/-- Reading the state leaves it as it is. -/
theorem run_get (s : σ) : (get : EStateM ε σ σ) s = .ok s s := rfl

/-- Changing the state gives the changed one. -/
theorem run_modify (f : σ → σ) (s : σ) : (modify f : EStateM ε σ PUnit) s = .ok ⟨⟩ (f s) := rfl

/-- From the state, the computation gives a result with `Q` or fails with `E`. -/
def Ends (x : EStateM ε σ α) (s : σ) (Q : α → σ → Prop) (E : ε → σ → Prop) : Prop :=
  match x s with
  | .ok a t => Q a t
  | .error e t => E e t

variable {x : EStateM ε σ α} {f : α → EStateM ε σ β} {s : σ} {Q Q' : α → σ → Prop}
  {E E' : ε → σ → Prop}

/-- What holds of the result of a computation. -/
theorem Ends.of_ok (h : Ends x s Q E) {a : α} {t : σ} (ht : x s = .ok a t) : Q a t := by
  rw [Ends, ht] at h
  exact h

/-- What holds of the failure of a computation. -/
theorem Ends.of_error (h : Ends x s Q E) {e : ε} {t : σ} (ht : x s = .error e t) : E e t := by
  rw [Ends, ht] at h
  exact h

/-- A computation that gives a result with the property ends so. -/
theorem ends_of_eq_ok {a : α} {t : σ} (h : x s = .ok a t) (hQ : Q a t) : Ends x s Q E := by
  rw [Ends, h]
  exact hQ

/-- A computation that fails with the property ends so. -/
theorem ends_of_eq_error {e : ε} {t : σ} (h : x s = .error e t) (hE : E e t) : Ends x s Q E := by
  rw [Ends, h]
  exact hE

/-- What holds at the end of a computation depends on how it runs from the state alone. -/
theorem ends_congr {y : EStateM ε σ α} {t : σ} (h : x s = y t) :
    Ends x s Q E ↔ Ends y t Q E := by
  rw [Ends, h, Ends]

/-- A computation that ends with stronger properties ends with weaker ones. -/
theorem Ends.mono (h : Ends x s Q E) (hQ : ∀ a t, Q a t → Q' a t) (hE : ∀ e t, E e t → E' e t) :
    Ends x s Q' E' := by
  unfold Ends at h ⊢
  split at h
  · exact hQ _ _ h
  · exact hE _ _ h

/-- What two accounts of a computation say of its result holds together. -/
theorem Ends.and (h : Ends x s Q E) (h' : Ends x s Q' E') :
    Ends x s (fun a t => Q a t ∧ Q' a t) E' := by
  unfold Ends at h h' ⊢
  cases hx : x s with
  | ok a t =>
    rw [hx] at h h'
    exact ⟨h, h'⟩
  | error e t =>
    rw [hx] at h'
    exact h'

/-- What holds at the end of a sequence holds at the end of its second step. -/
theorem ends_bind {R : β → σ → Prop} :
    Ends (x >>= f) s R E ↔ Ends x s (fun a t => Ends (f a) t R E) E := by
  unfold Ends
  change (match EStateM.bind x f s with | .ok b t => R b t | .error e t => E e t) ↔ _
  unfold EStateM.bind
  cases x s <;> rfl

/-- A sequence ends with a property if its second step does from wherever the first one ends. -/
theorem Ends.bind {R : β → σ → Prop} (h : Ends x s Q E)
    (hf : ∀ a t, Q a t → Ends (f a) t R E) : Ends (x >>= f) s R E :=
  ends_bind.mpr (h.mono hf fun _ _ he => he)

/-- The state at the end of a computation, whether it gave a result or failed. -/
def endState : EStateM.Result ε σ α → σ
  | .ok _ s => s
  | .error _ s => s

/-- A property of the state alone holds at every end exactly if it holds of the last state. -/
theorem ends_iff_endState {P : σ → Prop} :
    Ends x s (fun _ => P) (fun _ => P) ↔ P (endState (x s)) := by
  unfold Ends
  cases x s <;> rfl

end BlockEquiv
