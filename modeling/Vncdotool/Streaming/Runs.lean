import Mathlib.Data.List.Infix

/-!
# Runs — a property of every state, a condition on every step

A deterministic system is a step function on states and actions, and a run is a list of actions.
`Always` says that a property holds in every state a run passes through, `Throughout` that a
condition on a state and the action taken there holds at each of its steps, `ExactlyOne` that it
holds at one of them and at no other.  When the condition is
what keeps the property, under an invariant, the two say the same: `always_iff_throughout`.  Where
a step that misses the condition does its harm only later, `throughout_or_doomed` says what comes
of it.
-/

namespace Streaming

variable {σ α : Type*} (step : σ → α → σ)

/-- `P` holds in every state of the run, the first one included. -/
def Always (P : σ → Prop) (s : σ) (actions : List α) : Prop :=
  ∀ before, before <+: actions → P (before.foldl step s)

/-- `M` holds at every step of the run. -/
def Throughout (M : σ → α → Prop) (s : σ) (actions : List α) : Prop :=
  ∀ before action, before ++ [action] <+: actions → M (before.foldl step s) action

/-- `F` holds at one step of the run and at no other. -/
def ExactlyOne (F : σ → α → Prop) (s : σ) (actions : List α) : Prop :=
  ∃ before action after, actions = before ++ action :: after ∧
    Throughout step (fun s action => ¬ F s action) s before ∧ F (before.foldl step s) action ∧
    Throughout step (fun s action => ¬ F s action) (step (before.foldl step s) action) after

variable {step} {P I : σ → Prop} {M : σ → α → Prop} {s : σ} {action : α} {actions : List α}

theorem always_nil : Always step P s [] ↔ P s := by
  constructor
  · exact fun h => h [] List.nil_prefix
  · intro h before hleads
    exact List.prefix_nil.1 hleads ▸ h

theorem always_cons :
    Always step P s (action :: actions) ↔ P s ∧ Always step P (step s action) actions := by
  constructor
  · intro h
    refine ⟨h [] List.nil_prefix, fun before hleads => ?_⟩
    exact h (action :: before) (List.cons_prefix_cons.2 ⟨rfl, hleads⟩)
  · rintro ⟨hs, hrest⟩ before hleads
    cases before with
    | nil => exact hs
    | cons first before =>
        rcases List.cons_prefix_cons.1 hleads with ⟨rfl, hleads'⟩
        exact hrest before hleads'

theorem throughout_nil : Throughout step M s [] :=
  fun before action hleads => absurd (List.prefix_nil.1 hleads) (by simp)

theorem throughout_cons :
    Throughout step M s (action :: actions) ↔
      M s action ∧ Throughout step M (step s action) actions := by
  constructor
  · intro h
    refine ⟨h [] action (by simp), fun before action' hleads => ?_⟩
    exact h (action :: before) action' (List.cons_prefix_cons.2 ⟨rfl, hleads⟩)
  · rintro ⟨hs, hrest⟩ before action' hleads
    cases before with
    | nil =>
        have heq : action' = action := (List.cons_prefix_cons.1 hleads).1
        exact heq ▸ hs
    | cons first before =>
        rcases List.cons_prefix_cons.1 hleads with ⟨rfl, hleads'⟩
        exact hrest before action' hleads'

theorem not_exactlyOne_nil : ¬ ExactlyOne step M s [] := by
  rintro ⟨before, action, after, hsplit, _⟩
  exact List.append_ne_nil_of_right_ne_nil before (List.cons_ne_nil action after) hsplit.symm

theorem exactlyOne_cons :
    ExactlyOne step M s (action :: actions) ↔
      (M s action ∧ Throughout step (fun s action => ¬ M s action) (step s action) actions) ∨
        (¬ M s action ∧ ExactlyOne step M (step s action) actions) := by
  constructor
  · rintro ⟨before, action', after, hsplit, hbefore, hone, hafter⟩
    cases before with
    | nil =>
        cases hsplit
        exact Or.inl ⟨hone, hafter⟩
    | cons first before =>
        cases hsplit
        rcases throughout_cons.1 hbefore with ⟨hfirst, hbefore⟩
        exact Or.inr ⟨hfirst, before, action', after, rfl, hbefore, hone, hafter⟩
  · rintro (⟨hone, hafter⟩ | ⟨hfirst, before, action', after, rfl, hbefore, hone, hafter⟩)
    · exact ⟨[], action, actions, rfl, throughout_nil, hone, hafter⟩
    · have hleads := throughout_cons.2 ⟨hfirst, hbefore⟩
      exact ⟨action :: before, action', after, rfl, hleads, hone, hafter⟩

instance decidableThroughout [∀ s action, Decidable (M s action)] :
    ∀ (s : σ) (actions : List α), Decidable (Throughout step M s actions)
  | _, [] => isTrue throughout_nil
  | s, action :: actions =>
      have := decidableThroughout (step s action) actions
      decidable_of_iff _ throughout_cons.symm

theorem Throughout.mono {Q : σ → α → Prop} (himp : ∀ s action, Q s action → M s action)
    (h : Throughout step Q s actions) : Throughout step M s actions :=
  fun before action hleads => himp _ action (h before action hleads)

/-- The rule for invariants: what every step that meets the condition preserves holds always. -/
theorem always_of_throughout (hstep : ∀ s action, I s → M s action → I (step s action))
    (hs : I s) (h : Throughout step M s actions) : Always step I s actions := by
  induction actions generalizing s with
  | nil => exact always_nil.2 hs
  | cons action actions ih =>
      rcases throughout_cons.1 h with ⟨hmeets, hrest⟩
      exact always_cons.2 ⟨hs, ih (hstep s action hs hmeets) hrest⟩

/-- A property that holds under an invariant, that steps which meet the condition preserve the
invariant of, and that any other step breaks. -/
theorem always_iff_throughout (hP : ∀ s, I s → P s)
    (hstep : ∀ s action, I s → M s action → I (step s action))
    (hbreaks : ∀ s action, I s → P (step s action) → M s action) (hs : I s) :
    Always step P s actions ↔ Throughout step M s actions := by
  constructor
  · intro h
    induction actions generalizing s with
    | nil => exact throughout_nil
    | cons action actions ih =>
        have hrest := (always_cons.1 h).2
        have hmeets : M s action := hbreaks s action hs (hrest [] List.nil_prefix)
        exact throughout_cons.2 ⟨hmeets, ih (hstep s action hs hmeets) hrest⟩
  · intro h before hleads
    exact hP _ (always_of_throughout hstep hs h before hleads)

/-- A step that misses the condition leaves something behind that no later step mends; `J` holds
in any case. -/
theorem throughout_or_doomed {J D : σ → Prop} (hkeeps : ∀ s action, J s → J (step s action))
    (hstep : ∀ s action, J s → I s → M s action → I (step s action))
    (hbreaks : ∀ s action, J s → I s → ¬ M s action → D (step s action))
    (hdooms : ∀ s action, J s → D s → D (step s action)) (hJ : J s) (hI : I s)
    (actions : List α) :
    (Throughout step M s actions ∧ I (actions.foldl step s)) ∨
      (¬ Throughout step M s actions ∧ D (actions.foldl step s)) := by
  have hdoomed : ∀ {actions : List α} {s : σ}, J s → D s → D (actions.foldl step s) := by
    intro actions
    induction actions with
    | nil => exact fun _ hD => hD
    | cons action actions ih => exact fun hJ hD => ih (hkeeps _ action hJ) (hdooms _ action hJ hD)
  induction actions generalizing s with
  | nil => exact Or.inl ⟨throughout_nil, hI⟩
  | cons action actions ih =>
      rw [throughout_cons]
      by_cases hmeets : M s action
      · rcases ih (hkeeps s action hJ) (hstep s action hJ hI hmeets) with ⟨hrest, hend⟩ | ⟨hrest, hend⟩
        · exact Or.inl ⟨⟨hmeets, hrest⟩, hend⟩
        · exact Or.inr ⟨fun h => hrest h.2, hend⟩
      · have hD := @hdoomed actions _ (hkeeps s action hJ) (hbreaks s action hJ hI hmeets)
        exact Or.inr ⟨fun h => hmeets h.1, hD⟩

end Streaming
