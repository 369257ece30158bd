import Mathlib.Computability.StateTransition
import Mathlib.Data.List.Basic
import Mathlib.Order.WellFounded

/-!
# Loop — deterministic loops and the receive loops of stream parsers

A `while` loop over a state is a partial step `σ → Option σ`: `none` says that the loop condition
is false.  Mathlib's `StateTransition.Reaches` is its trace; this module adds

* `HaltsAt` / `Terminates` with the two rules that decide them (a decreasing measure, and an
  invariant under which the loop can always step again);
* an executable `run` with a step budget, and its agreement with `HaltsAt`;
* `ReceiveLoop`: a loop fed by deliveries of input.  When delivering more input later commutes with
  the steps already possible, how the input was cut into deliveries cannot matter.
-/

namespace Streaming

open StateTransition

variable {σ : Type*} {α : Type*} {step : σ → Option σ}

/-! ## Coming to rest -/

/-- Iterating `step` from `s` comes to rest in `t`. -/
def HaltsAt (step : σ → Option σ) (s t : σ) : Prop :=
  Reaches step s t ∧ step t = none

/-- Iterating `step` from `s` comes to rest. -/
def Terminates (step : σ → Option σ) (s : σ) : Prop :=
  ∃ t, HaltsAt step s t

/-- A loop's trace is one of every loop that takes the same steps under an invariant. -/
theorem reaches_of_agree {step' : σ → Option σ} {I : σ → Prop}
    (hagree : ∀ s, I s → step s = step' s) (hstep : ∀ s s', step s = some s' → I s → I s')
    {s t : σ} (h : Reaches step s t) (hs : I s) : Reaches step' s t ∧ I t := by
  induction h with
  | refl => exact ⟨Relation.ReflTransGen.refl, hs⟩
  | @tail b c _ hbc ih =>
      have hbc' : step' b = some c := (hagree b ih.2).symm.trans hbc
      exact ⟨ih.1.tail hbc', hstep b c hbc ih.2⟩

namespace HaltsAt

theorem refl {s : σ} (h : step s = none) : HaltsAt step s s :=
  ⟨Relation.ReflTransGen.refl, h⟩

theorem head {s s' t : σ} (h : step s = some s') (ht : HaltsAt step s' t) : HaltsAt step s t :=
  ⟨Relation.ReflTransGen.head h ht.1, ht.2⟩

theorem unique {s t t' : σ} (h : HaltsAt step s t) (h' : HaltsAt step s t') : t = t' := by
  have hmem : t ∈ eval step s := mem_eval.2 h
  have hmem' : t' ∈ eval step s := mem_eval.2 h'
  exact Part.mem_unique hmem hmem'

theorem eq_of_none {s t : σ} (hs : step s = none) (h : HaltsAt step s t) : t = s :=
  h.unique (refl hs)

theorem iff_of_reaches {s m t : σ} (hsm : Reaches step s m) :
    HaltsAt step s t ↔ HaltsAt step m t := by
  constructor
  · rintro ⟨hst, hnone⟩
    rcases reaches_total hsm hst with hmt | htm
    · exact ⟨hmt, hnone⟩
    · have heq : m = t := (eval_maximal (mem_eval.2 ⟨Relation.ReflTransGen.refl, hnone⟩)).1 htm
      subst heq
      exact refl hnone
  · rintro ⟨hmt, hnone⟩
    exact ⟨hsm.trans hmt, hnone⟩

theorem iff_of_step {s s' t : σ} (h : step s = some s') :
    HaltsAt step s t ↔ HaltsAt step s' t :=
  iff_of_reaches (Relation.ReflTransGen.single h)

/-- Loops that agree as long as an invariant of theirs holds come to rest in the same states. -/
theorem congr {step' : σ → Option σ} {I : σ → Prop} (hagree : ∀ s, I s → step s = step' s)
    (hstep : ∀ s s', step s = some s' → I s → I s') {s t : σ} (hs : I s) :
    HaltsAt step s t ↔ HaltsAt step' s t := by
  have hstep' (s s' : σ) (hss' : step' s = some s') (hs : I s) : I s' :=
    hstep s s' ((hagree s hs).trans hss') hs
  constructor
  · rintro ⟨hreach, hnone⟩
    rcases reaches_of_agree hagree hstep hreach hs with ⟨hreach', ht⟩
    exact ⟨hreach', (hagree t ht).symm.trans hnone⟩
  · rintro ⟨hreach, hnone⟩
    rcases reaches_of_agree (fun s hs => (hagree s hs).symm) hstep' hreach hs with ⟨hreach', ht⟩
    exact ⟨hreach', (hagree t ht).trans hnone⟩

end HaltsAt

theorem terminates_iff_of_reaches {s m : σ} (hsm : Reaches step s m) :
    Terminates step s ↔ Terminates step m :=
  exists_congr fun _ => HaltsAt.iff_of_reaches hsm

/-- What every step preserves holds at every state the loop passes through. -/
theorem reaches_invariant {I : σ → Prop} (hstep : ∀ s s', step s = some s' → I s → I s')
    {s t : σ} (h : Reaches step s t) (hs : I s) : I t := by
  induction h with
  | refl => exact hs
  | tail _ hlast ih => exact hstep _ _ hlast ih

/-- A loop whose steps decrease a well-founded measure, as long as an invariant holds, comes to
rest. -/
theorem terminates_of_measure {β : Type*} {r : β → β → Prop} (hwf : WellFounded r)
    (measure : σ → β) {I : σ → Prop}
    (hstep : ∀ s s', step s = some s' → I s → I s' ∧ r (measure s') (measure s))
    {s : σ} (hs : I s) : Terminates step s := by
  have key : ∀ b s, measure s = b → I s → Terminates step s := by
    intro b
    induction b using hwf.induction with
    | h b ih =>
      intro s hb hs
      cases hnext : step s with
      | none => exact ⟨s, HaltsAt.refl hnext⟩
      | some s' =>
          rcases hstep s s' hnext hs with ⟨hs', hlt⟩
          rcases ih (measure s') (hb ▸ hlt) s' rfl hs' with ⟨t, ht⟩
          exact ⟨t, HaltsAt.head hnext ht⟩
  exact key (measure s) s rfl hs

/-- A loop that can always step again under an invariant never comes to rest. -/
theorem not_terminates_of_invariant {I : σ → Prop}
    (hstep : ∀ s, I s → ∃ s', step s = some s' ∧ I s') {s : σ} (hs : I s) :
    ¬ Terminates step s := by
  rintro ⟨t, hreach, hnone⟩
  have hinv : I t := by
    refine @reaches_invariant _ step I ?_ _ _ hreach hs
    intro a b hab ha
    rcases hstep a ha with ⟨b', hab', hb'⟩
    have hbb : b' = b := Option.some.inj (hab'.symm.trans hab)
    exact hbb ▸ hb'
  rcases hstep t hinv with ⟨t', ht', _⟩
  rw [hnone] at ht'
  cases ht'

/-! ## Running with a budget -/

/-- At most `n` iterations; `none` when the loop is still running after them. -/
def run (step : σ → Option σ) : ℕ → σ → Option σ
  | 0, s => if (step s).isNone then some s else none
  | n + 1, s =>
      match step s with
      | none => some s
      | some s' => run step n s'

theorem haltsAt_of_run {n : ℕ} : ∀ {s t : σ}, run step n s = some t → HaltsAt step s t := by
  induction n with
  | zero =>
      intro s t h
      cases hs : step s with
      | none =>
          have hst : s = t := by simpa [run, hs] using h
          exact hst ▸ HaltsAt.refl hs
      | some s' => simp [run, hs] at h
  | succ n ih =>
      intro s t h
      cases hs : step s with
      | none =>
          have hst : s = t := by simpa [run, hs] using h
          exact hst ▸ HaltsAt.refl hs
      | some s' =>
          have hrun : run step n s' = some t := by simpa [run, hs] using h
          exact HaltsAt.head hs (ih hrun)

theorem exists_run_of_haltsAt {s t : σ} (h : HaltsAt step s t) : ∃ n, run step n s = some t := by
  rcases h with ⟨hreach, hnone⟩
  induction hreach using Relation.ReflTransGen.head_induction_on with
  | refl => exact ⟨0, by simp [run, hnone]⟩
  | head hab _ ih =>
      rcases ih with ⟨n, hn⟩
      have hab' : step _ = some _ := hab
      exact ⟨n + 1, by simp [run, hab', hn]⟩

/-- The executable loop computes exactly the states the loop comes to rest in. -/
theorem exists_run_iff_haltsAt {s t : σ} : (∃ n, run step n s = some t) ↔ HaltsAt step s t :=
  ⟨fun ⟨_, h⟩ => haltsAt_of_run h, exists_run_of_haltsAt⟩

/-- The state after exactly `n` iterations, if the loop gets that far. -/
def after (step : σ → Option σ) : ℕ → σ → Option σ
  | 0, s => some s
  | n + 1, s => (step s).bind (after step n)

theorem reaches_of_after {n : ℕ} : ∀ {s t : σ}, after step n s = some t → Reaches step s t := by
  induction n with
  | zero =>
      intro s t h
      cases h
      exact Relation.ReflTransGen.refl
  | succ n ih =>
      intro s t h
      rcases Option.bind_eq_some_iff.1 h with ⟨s', hs, ht⟩
      exact Relation.ReflTransGen.head hs (ih ht)

/-! ## Receive loops -/

/-- A loop that is handed its input in deliveries.  `step_deliver` says that a step which can be
taken now takes the same way when more input has already been delivered behind it. -/
structure ReceiveLoop (σ : Type*) (α : Type*) where
  step : σ → Option σ
  deliver : σ → List α → σ
  deliver_nil : ∀ s, deliver s [] = s
  deliver_deliver : ∀ s a b, deliver (deliver s a) b = deliver s (a ++ b)
  step_deliver : ∀ s s' a, step s = some s' → step (deliver s a) = some (deliver s' a)

namespace ReceiveLoop

variable (L : ReceiveLoop σ α)

/-- Deliver the chunks one after the other, letting the loop come to rest after each. -/
def Receives : σ → List (List α) → σ → Prop
  | s, [], t => s = t
  | s, chunk :: chunks, t =>
      ∃ m, HaltsAt L.step (L.deliver s chunk) m ∧ Receives m chunks t

theorem reaches_deliver {s t : σ} (a : List α) (h : Reaches L.step s t) :
    Reaches L.step (L.deliver s a) (L.deliver t a) := by
  induction h with
  | refl => exact Relation.ReflTransGen.refl
  | tail _ hlast ih => exact ih.tail (L.step_deliver _ _ a hlast)

/-- A loop that comes to rest with more input behind it comes to rest without it. -/
theorem terminates_of_deliver {s t : σ} {a : List α}
    (h : HaltsAt L.step (L.deliver s a) t) : Terminates L.step s := by
  rcases exists_run_of_haltsAt h with ⟨n, hn⟩
  clear h
  induction n generalizing s with
  | zero =>
      cases hs : L.step s with
      | none => exact ⟨s, HaltsAt.refl hs⟩
      | some s' => simp [run, L.step_deliver s s' a hs] at hn
  | succ n ih =>
      cases hs : L.step s with
      | none => exact ⟨s, HaltsAt.refl hs⟩
      | some s' =>
          have hn' : run L.step n (L.deliver s' a) = some t := by
            simpa [run, L.step_deliver s s' a hs] using hn
          rcases ih hn' with ⟨m, hm⟩
          exact ⟨m, HaltsAt.head hs hm⟩

/-- One delivery of `a ++ b` is a delivery of `a` followed by one of `b`. -/
theorem haltsAt_append_iff {s t : σ} {a b : List α} :
    HaltsAt L.step (L.deliver s (a ++ b)) t ↔
      ∃ m, HaltsAt L.step (L.deliver s a) m ∧ HaltsAt L.step (L.deliver m b) t := by
  rw [← L.deliver_deliver]
  constructor
  · intro h
    rcases L.terminates_of_deliver h with ⟨m, hm⟩
    exact ⟨m, hm, (HaltsAt.iff_of_reaches (L.reaches_deliver b hm.1)).1 h⟩
  · rintro ⟨m, hm, ht⟩
    exact (HaltsAt.iff_of_reaches (L.reaches_deliver b hm.1)).2 ht

/-- Receiving chunks is receiving their concatenation at once. -/
theorem receives_iff_flatten {chunks : List (List α)} :
    ∀ {s t : σ}, L.step s = none →
      (L.Receives s chunks t ↔ HaltsAt L.step (L.deliver s chunks.flatten) t) := by
  induction chunks with
  | nil =>
      intro s t hs
      rw [List.flatten_nil, L.deliver_nil]
      exact ⟨fun h => h ▸ HaltsAt.refl hs, fun h => (h.eq_of_none hs).symm⟩
  | cons chunk chunks ih =>
      intro s t _
      rw [List.flatten_cons, L.haltsAt_append_iff]
      exact exists_congr fun m => and_congr_right fun hm => ih hm.2

/-- Two ways of cutting the same input into chunks lead to the same state. -/
theorem receives_congr {chunks chunks' : List (List α)} {s t : σ} (hs : L.step s = none)
    (hflat : chunks.flatten = chunks'.flatten) (h : L.Receives s chunks t) :
    L.Receives s chunks' t := by
  rw [L.receives_iff_flatten hs] at h ⊢
  exact hflat ▸ h

end ReceiveLoop

end Streaming
