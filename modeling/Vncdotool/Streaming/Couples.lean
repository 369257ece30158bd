import Mathlib.Tactic.SplitIfs
import Vncdotool.Streaming.Effects

/-!
# Couples — two actions that keep two states related

A relation between two types of states, and two actions, one on each.  The actions are coupled if
from related states they both return the same value, or both raise the same exception, and leave
related states.  The rules follow the constructs of a `do` block, one lemma for each, so that two
instances of one program are coupled if the calls in which they differ are.
-/

namespace Streaming

universe u

variable {ε σ σ' α β : Type u}

/-- Two results of one kind, with related states. -/
def Coupled (R : σ → σ' → Prop) : EStateM.Result ε σ α → EStateM.Result ε σ' α → Prop
  | .ok a s, .ok a' s' => a' = a ∧ R s s'
  | .error e s, .error e' s' => e' = e ∧ R s s'
  | _, _ => False

/-- From related states the two actions do the same. -/
def Couples (R : σ → σ' → Prop) (x : EStateM ε σ α) (x' : EStateM ε σ' α) : Prop :=
  ∀ s s', R s s' → Coupled R (x s) (x' s')

variable {R : σ → σ' → Prop} {x : EStateM ε σ α} {x' : EStateM ε σ' α}
  {f : α → EStateM ε σ β} {f' : α → EStateM ε σ' β} {s : σ} {s' : σ'}

/-! ## Results -/

/-- What else holds of the states that are left. -/
theorem Coupled.and {Q : σ → σ' → Prop} {r : EStateM.Result ε σ α} {r' : EStateM.Result ε σ' α}
    (h : Coupled R r r') (hQ : Q (finalState r) (finalState r')) :
    Coupled (fun t t' => R t t' ∧ Q t t') r r' := by
  cases r with
  | ok a t =>
      cases r' with
      | ok a' t' => exact ⟨h.1, h.2, hQ⟩
      | error e' t' => exact h.elim
  | error e t =>
      cases r' with
      | ok a' t' => exact h.elim
      | error e' t' => exact ⟨h.1, h.2, hQ⟩

theorem Coupled.mono {R' : σ → σ' → Prop} {r : EStateM.Result ε σ α} {r' : EStateM.Result ε σ' α}
    (h : Coupled R r r') (hR : ∀ t t', R t t' → R' t t') : Coupled R' r r' := by
  cases r with
  | ok a t =>
      cases r' with
      | ok a' t' => exact ⟨h.1, hR _ _ h.2⟩
      | error e' t' => exact h.elim
  | error e t =>
      cases r' with
      | ok a' t' => exact h.elim
      | error e' t' => exact ⟨h.1, hR _ _ h.2⟩

/-! ## Rules -/

theorem couples_pure (a : α) : Couples R (pure a : EStateM ε σ α) (pure a) :=
  fun _ _ h => ⟨rfl, h⟩

theorem couples_throw (e : ε) : Couples R (throw e : EStateM ε σ α) (throw e) :=
  fun _ _ h => ⟨rfl, h⟩

/-- Reading two states, and going on with what was read. -/
theorem couples_get {k : σ → EStateM ε σ β} {k' : σ' → EStateM ε σ' β}
    (h : ∀ s s', R s s' → Couples R (k s) (k' s')) : Couples R (get >>= k) (get >>= k') :=
  fun s s' hR => h s s' hR s s' hR

theorem couples_modify {g : σ → σ} {g' : σ' → σ'} (h : ∀ s s', R s s' → R (g s) (g' s')) :
    Couples R (modify g : EStateM ε σ PUnit) (modify g') :=
  fun s s' hR => ⟨rfl, h s s' hR⟩

/-- After coupled results, coupled continuations are coupled, also by a weaker relation. -/
theorem couples_bind_at {R' : σ → σ' → Prop} (hR : ∀ t t', R t t' → R' t t')
    (hx : Coupled R (x s) (x' s')) (hf : ∀ a t t', R t t' → Coupled R' (f a t) (f' a t')) :
    Coupled R' ((x >>= f) s) ((x' >>= f') s') := by
  cases hres : x s with
  | ok a t =>
      cases hres' : x' s' with
      | ok a' t' =>
          rw [hres, hres'] at hx
          rcases hx with ⟨rfl, hrel⟩
          rw [run_bind_ok hres, run_bind_ok hres']
          exact hf a' t t' hrel
      | error e' t' =>
          rw [hres, hres'] at hx
          exact hx.elim
  | error e t =>
      cases hres' : x' s' with
      | ok a' t' =>
          rw [hres, hres'] at hx
          exact hx.elim
      | error e' t' =>
          rw [hres, hres'] at hx
          rw [run_bind_error hres, run_bind_error hres']
          exact ⟨hx.1, hR t t' hx.2⟩

theorem couples_bind (hx : Couples R x x') (hf : ∀ a, Couples R (f a) (f' a)) :
    Couples R (x >>= f) (x' >>= f') :=
  fun s s' hR => couples_bind_at (fun _ _ h => h) (hx s s' hR) hf

/-- The same condition is decided on both sides. -/
theorem couples_ite {c : Prop} [Decidable c] {y : EStateM ε σ α} {y' : EStateM ε σ' α}
    (hx : c → Couples R x x') (hy : ¬ c → Couples R y y') :
    Couples R (if c then x else y) (if c then x' else y') := by
  split_ifs with hc
  · exact hx hc
  · exact hy hc

end Streaming
