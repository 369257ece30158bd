import Mathlib.Logic.Basic
import Mathlib.Order.Defs.Unbundled

/-!
# Effects — what actions with a state and exceptions ensure

`Ensures x s Q E` is the weakest precondition of the action `x` at the state `s`: it returns with
`Q`, or raises with `E`.  Its rules are equivalences, so that a straight-line action is executed by
rewriting.  `Respects R x` is the frame rule's side of it: however `x` ends, the state before and
the state after it are related by `R`.
-/

namespace Streaming

universe u

variable {ε σ α β : Type u}

/-! ## Weakest preconditions -/

/-- `x` started in `s` returns with `Q` or raises with `E`. -/
def Ensures (x : EStateM ε σ α) (s : σ) (Q : α → σ → Prop) (E : ε → σ → Prop) : Prop :=
  match x.run s with
  | .ok a s' => Q a s'
  | .error e s' => E e s'

/-- `try`: what follows when `x` returns, and what handles its exception. -/
def attempt (x : EStateM ε σ α) (f : α → EStateM ε σ β) (g : ε → EStateM ε σ β) :
    EStateM ε σ β := fun s =>
  match x s with
  | .ok a s => f a s
  | .error e s => g e s

section Ensures

variable {x : EStateM ε σ α} {f : α → EStateM ε σ β} {s s' : σ} {a : α} {e : ε}
  {Q Q' : α → σ → Prop} {R : β → σ → Prop} {E E' : ε → σ → Prop}

theorem ensures_of_run_ok (h : x.run s = .ok a s') : Ensures x s Q E ↔ Q a s' := by
  simp [Ensures, h]

theorem ensures_of_run_error (h : x.run s = .error e s') : Ensures x s Q E ↔ E e s' := by
  simp [Ensures, h]

/-- Actions that run alike ensure the same. -/
theorem ensures_of_run_eq {y : EStateM ε σ α} (h : x.run s = y.run s') :
    Ensures x s Q E ↔ Ensures y s' Q E := by
  simp [Ensures, h]

@[simp] theorem ensures_pure : Ensures (pure a : EStateM ε σ α) s Q E ↔ Q a s := Iff.rfl

@[simp] theorem ensures_throw : Ensures (throw e : EStateM ε σ α) s Q E ↔ E e s := Iff.rfl

@[simp] theorem ensures_get {Q : σ → σ → Prop} :
    Ensures (get : EStateM ε σ σ) s Q E ↔ Q s s := Iff.rfl

@[simp] theorem ensures_modify {g : σ → σ} {Q : PUnit → σ → Prop} :
    Ensures (modify g : EStateM ε σ PUnit) s Q E ↔ Q ⟨⟩ (g s) := Iff.rfl

@[simp] theorem ensures_bind :
    Ensures (x >>= f) s R E ↔ Ensures x s (fun a s' => Ensures (f a) s' R E) E := by
  unfold Ensures
  rw [EStateM.run_bind]
  cases x.run s with
  | ok a s' => rfl
  | error e s' => rfl

@[simp] theorem ensures_ite {c : Prop} [Decidable c] {y : EStateM ε σ α} :
    Ensures (if c then x else y) s Q E ↔
      (c → Ensures x s Q E) ∧ (¬ c → Ensures y s Q E) := by
  by_cases hc : c
  · simp [hc]
  · simp [hc]

theorem Ensures.mono (h : Ensures x s Q E) (hQ : ∀ a s', Q a s' → Q' a s')
    (hE : ∀ e s', E e s' → E' e s') : Ensures x s Q' E' := by
  unfold Ensures at *
  cases hx : x.run s with
  | ok a s' =>
      rw [hx] at h
      exact hQ a s' h
  | error e s' =>
      rw [hx] at h
      exact hE e s' h

theorem Ensures.and (h : Ensures x s Q E) (h' : Ensures x s Q' E') :
    Ensures x s (fun a s => Q a s ∧ Q' a s) fun e s => E e s ∧ E' e s := by
  unfold Ensures at *
  cases hx : x.run s with
  | ok a s' =>
      rw [hx] at h h'
      exact ⟨h, h'⟩
  | error e s' =>
      rw [hx] at h h'
      exact ⟨h, h'⟩

/-- What follows an action that returned. -/
theorem run_bind_ok (h : x s = .ok a s') : (x >>= f) s = f a s' := by
  simp [bind, EStateM.bind, h]

/-- What reads the state first is given it. -/
theorem run_get_bind {k : σ → EStateM ε σ β} : (get >>= k) s = k s s := rfl

/-- What follows an action that raised is not run. -/
theorem run_bind_error (h : x s = .error e s') : (x >>= f) s = .error e s' := by
  simp [bind, EStateM.bind, h]

theorem ensures_attempt {g : ε → EStateM ε σ β} {Q : β → σ → Prop} :
    Ensures (attempt x f g) s Q E ↔
      Ensures x s (fun a s => Ensures (f a) s Q E) (fun e s => Ensures (g e) s Q E) := by
  unfold Ensures attempt EStateM.run
  cases hx : x s with
  | ok a s' => simp only [hx]
  | error e s' => simp only [hx]

/-- An action that ensures not to raise returns. -/
theorem Ensures.exists_run_ok (h : Ensures x s Q fun _ _ => False) :
    ∃ a s', x.run s = .ok a s' ∧ Q a s' := by
  unfold Ensures at h
  cases hx : x.run s with
  | ok a s' =>
      rw [hx] at h
      exact ⟨a, s', rfl, h⟩
  | error e s' =>
      rw [hx] at h
      exact h.elim

end Ensures

/-! ## Frames -/

/-- The state an action leaves. -/
def finalState : EStateM.Result ε σ α → σ
  | .ok _ s => s
  | .error _ s => s

@[simp] theorem finalState_ok (a : α) (s : σ) :
    finalState (.ok a s : EStateM.Result ε σ α) = s := rfl

@[simp] theorem finalState_error (e : ε) (s : σ) :
    finalState (.error e s : EStateM.Result ε σ α) = s := rfl

theorem ensures_finalState {x : EStateM ε σ α} {s : σ} {P : σ → Prop} :
    Ensures x s (fun _ => P) (fun _ => P) ↔ P (finalState (x.run s)) := by
  unfold Ensures
  cases x.run s with
  | ok a s' => rfl
  | error e s' => rfl

/-- However `x` ends, `R` relates the states before and after it. -/
def Respects (R : σ → σ → Prop) (x : EStateM ε σ α) : Prop :=
  ∀ s, R s (finalState (x.run s))

section Respects

variable {R : σ → σ → Prop} {x y : EStateM ε σ α} {f : α → EStateM ε σ β}

theorem respects_pure [Std.Refl R] (a : α) : Respects R (pure a : EStateM ε σ α) :=
  fun s => refl_of R s

theorem respects_throw [Std.Refl R] (e : ε) : Respects R (throw e : EStateM ε σ α) :=
  fun s => refl_of R s

theorem respects_get [Std.Refl R] : Respects R (get : EStateM ε σ σ) :=
  fun s => refl_of R s

theorem finalState_bind [IsTrans σ R] {s : σ} (hx : R s (finalState (x.run s)))
    (hf : ∀ a, Respects R (f a)) : R s (finalState ((x >>= f).run s)) := by
  rw [EStateM.run_bind]
  cases hrun : x.run s with
  | ok a s' =>
      rw [hrun] at hx
      exact trans_of R hx (hf a s')
  | error e s' =>
      rw [hrun] at hx
      exact hx

/-- What reads the state first depends on it alone. -/
theorem finalState_get {k : σ → EStateM ε σ β} {s : σ} (hk : Respects R (k s)) :
    R s (finalState ((get >>= k).run s)) :=
  hk s

theorem respects_bind [IsTrans σ R] (hx : Respects R x) (hf : ∀ a, Respects R (f a)) :
    Respects R (x >>= f) :=
  fun s => finalState_bind (hx s) hf

theorem respects_ite {c : Prop} [Decidable c] (hx : c → Respects R x)
    (hy : ¬ c → Respects R y) : Respects R (if c then x else y) := by
  by_cases hc : c
  · simpa [hc] using hx hc
  · simpa [hc] using hy hc

/-- What an action respects holds of every state it ends in. -/
theorem Respects.ensures (h : Respects R x) (s : σ) :
    Ensures x s (fun _ => R s) (fun _ => R s) :=
  ensures_finalState.2 (h s)

theorem respects_attempt [IsTrans σ R] {g : ε → EStateM ε σ β} (hx : Respects R x)
    (hf : ∀ a, Respects R (f a)) (hg : ∀ e, Respects R (g e)) : Respects R (attempt x f g) := by
  intro s
  refine ensures_finalState.1 (ensures_attempt.2 (Ensures.mono (hx.ensures s) ?_ ?_))
  · intro a s' hs
    refine Ensures.mono ((hf a).ensures s') ?_ ?_
    · exact fun _ _ hnext => trans_of R hs hnext
    · exact fun _ _ hnext => trans_of R hs hnext
  · intro e s' hs
    refine Ensures.mono ((hg e).ensures s') ?_ ?_
    · exact fun _ _ hnext => trans_of R hs hnext
    · exact fun _ _ hnext => trans_of R hs hnext

end Respects

end Streaming
