import Mathlib.Data.Finite.Prod
import Mathlib.Order.OrderIsoNat
import Vncdotool.Streaming.Loop

/-!
# Expansion — words that stand for more words

A machine takes commands from the front of a list of words, over a state of its own.  Some words
are the names of scripts: such a name is replaced by the words of its script, which are commands in
their turn.  So the list grows as well as shrinks, and the machine may never get through it.

A script *recurs* when its name, taken by itself, leads to its name again in the same state.
`terminates_iff` says that, with finitely many scripts and states, this is the only way in which
the machine can go on for ever.
-/

namespace Parsing

open Streaming StateTransition

/-- A machine over words.  A step takes some of them, whatever stands behind those, and puts words
in their place only when it takes the name of a script. -/
structure Expander (σ τ : Type) where
  step : σ × List τ → Option (σ × List τ)
  Script : τ → Prop
  step_spec : ∀ s words s' words', step (s, words) = some (s', words') →
    ∃ taken produced rest, taken ≠ [] ∧ words = taken ++ rest ∧ words' = produced ++ rest ∧
      (∀ behind, step (s, taken ++ behind) = some (s', produced ++ behind)) ∧
        (produced = [] ∨ ∃ word, taken = [word] ∧ Script word)

namespace Expander

variable {σ τ : Type} (M : Expander σ τ)

/-- Taken by itself, the word leads to itself again. -/
def Recurs (s : σ) (word : τ) : Prop :=
  ∃ more, Reaches₁ M.step (s, [word]) (s, word :: more)

variable {M} {s s' : σ} {word : τ} {words words' : List τ}

/-! ## More words behind -/

/-- A step does not depend on the words behind. -/
theorem step_append (h : M.step (s, words) = some (s', words')) (behind : List τ) :
    M.step (s, words ++ behind) = some (s', words' ++ behind) := by
  rcases M.step_spec s words s' words' h with ⟨taken, produced, rest, _, rfl, rfl, hany, _⟩
  rw [List.append_assoc, List.append_assoc]
  exact hany (rest ++ behind)

/-- Nor does a run. -/
theorem reaches₁_append {start last : σ × List τ} (h : Reaches₁ M.step start last)
    (behind : List τ) :
    Reaches₁ M.step (start.1, start.2 ++ behind) (last.1, last.2 ++ behind) := by
  induction h with
  | single hstep => exact Relation.TransGen.single (step_append hstep behind)
  | tail _ hstep ih => exact ih.tail (step_append hstep behind)

/-- A step that leaves the words behind alone could be taken without them. -/
theorem step_without {behind : List τ} (hne : words ≠ [])
    (h : M.step (s, words ++ behind) = some (s', words'))
    (hlong : behind.length < words'.length) :
    ∃ left, words' = left ++ behind ∧ M.step (s, words) = some (s', left) := by
  rcases M.step_spec s _ s' words' h with ⟨taken, produced, rest, _, hwords, rfl, hany, hkind⟩
  -- The words that are taken are all in front.
  have hinside : ∃ middle, words = taken ++ middle ∧ rest = middle ++ behind := by
    rcases List.append_eq_append_iff.1 hwords with
      ⟨part, htaken, hbehind⟩ | ⟨middle, hmiddle, hrest⟩
    · rcases hkind with rfl | ⟨word, rfl, _⟩
      · have hshort := congrArg List.length hbehind
        rw [List.length_append] at hshort
        rw [List.nil_append] at hlong
        omega
      · cases words with
        | nil => exact absurd rfl hne
        | cons first more =>
            have hnil : more ++ part = [] := (List.cons.inj htaken).2.symm
            rcases List.append_eq_nil_iff.1 hnil with ⟨rfl, rfl⟩
            exact ⟨[], htaken.symm, hbehind.symm⟩
    · exact ⟨middle, hmiddle, hrest⟩
  rcases hinside with ⟨middle, rfl, rfl⟩
  refine ⟨produced ++ middle, (List.append_assoc _ _ _).symm, ?_⟩
  exact hany middle

/-! ## A script that recurs -/

/-- What is certain to be reached again is never left for good. -/
theorem not_terminates_of_recurs (hrecurs : M.Recurs s word) (behind : List τ) :
    ¬ Terminates M.step (s, word :: behind) := by
  rcases hrecurs with ⟨more, hmore⟩
  have hagain (behind : List τ) :
      Reaches₁ M.step (s, word :: behind) (s, word :: (more ++ behind)) :=
    reaches₁_append hmore behind
  -- The invariant: the name is still ahead.
  refine @not_terminates_of_invariant _ M.step
    (fun config => ∃ behind, Reaches₁ M.step config (s, word :: behind)) ?_ _
    ⟨more ++ behind, hagain behind⟩
  rintro config ⟨ahead, hahead⟩
  rcases Relation.TransGen.head'_iff.1 hahead with ⟨next, hstep, hreaches⟩
  refine ⟨next, hstep, ?_⟩
  rcases Relation.reflTransGen_iff_eq_or_transGen.1 hreaches with heq | hlater
  · rw [← heq]
    exact ⟨more ++ ahead, hagain ahead⟩
  · exact ⟨ahead, hlater⟩

/-! ## A run without an end -/

/-- A run that goes on for ever, configuration by configuration. -/
structure Endless (M : Expander σ τ) (run : ℕ → σ × List τ) : Prop where
  step : ∀ n, M.step (run n) = some (run (n + 1))

theorem exists_endless {start : σ × List τ} (h : ¬ Terminates M.step start) :
    ∃ run, M.Endless run ∧ run 0 = start := by
  have hnext (config : σ × List τ) (hreaches : Reaches M.step start config) :
      ∃ next, M.step config = some next := by
    cases hstep : M.step config with
    | none => exact absurd ⟨config, hreaches, hstep⟩ h
    | some next => exact ⟨next, rfl⟩
  have hsub (config : { config // Reaches M.step start config }) :
      ∃ next : { config // Reaches M.step start config }, M.step config.1 = some next.1 := by
    rcases hnext config.1 config.2 with ⟨next, hstep⟩
    exact ⟨⟨next, config.2.tail hstep⟩, hstep⟩
  choose next hstep using hsub
  let run (n : ℕ) : { config // Reaches M.step start config } :=
    Nat.rec ⟨start, Relation.ReflTransGen.refl⟩ (fun _ config => next config) n
  exact ⟨fun n => (run n).1, ⟨fun n => hstep (run n)⟩, rfl⟩

namespace Endless

variable {run : ℕ → σ × List τ}

theorem reaches (h : M.Endless run) (n : ℕ) : Reaches M.step (run 0) (run n) := by
  induction n with
  | zero => exact Relation.ReflTransGen.refl
  | succ n ih => exact ih.tail (h.step n)

/-- There are never again fewer words than now. -/
def Lowest (run : ℕ → σ × List τ) (i : ℕ) : Prop :=
  ∀ j, i ≤ j → (run i).2.length ≤ (run j).2.length

/-- The list is at its shortest again and again. -/
theorem exists_lowest (run : ℕ → σ × List τ) (n : ℕ) : ∃ i, n < i ∧ Lowest run i := by
  rcases (measure fun i => (run i).2.length).wf.has_min {i | n < i} ⟨n + 1, Nat.lt_succ_self n⟩ with
    ⟨i, hi, hmin⟩
  exact ⟨i, hi, fun j hj => Nat.not_lt.1 (hmin j (lt_of_lt_of_le hi hj))⟩

/-- At its shortest the list grows, so that a script is named. -/
theorem script_of_lowest (h : M.Endless run) {i : ℕ} (hlowest : Lowest run i) :
    ∃ word rest, (run i).2 = word :: rest ∧ M.Script word := by
  rcases M.step_spec (run i).1 (run i).2 (run (i + 1)).1 (run (i + 1)).2 (h.step i) with
    ⟨taken, produced, rest, hne, hbefore, hafter, _, hkind⟩
  rcases hkind with rfl | ⟨word, rfl, hscript⟩
  · have hle := hlowest (i + 1) (Nat.le_succ i)
    rw [hbefore, hafter, List.nil_append, List.length_append] at hle
    have hpos := List.length_pos_iff.2 hne
    omega
  · exact ⟨word, rest, hbefore, hscript⟩

/-- What happens after that could happen with nothing behind the name. -/
theorem reaches₁_alone (h : M.Endless run) {i : ℕ} (hlowest : Lowest run i) {word : τ}
    {rest : List τ} (hwords : (run i).2 = word :: rest) (n : ℕ) :
    ∃ left, left ≠ [] ∧ (run (i + 1 + n)).2 = left ++ rest ∧
      Reaches₁ M.step ((run i).1, [word]) ((run (i + 1 + n)).1, left) := by
  have hlong (j : ℕ) (hj : i ≤ j) : rest.length < (run j).2.length := by
    have hle := hlowest j hj
    rw [hwords, List.length_cons] at hle
    exact hle
  have hturn (j : ℕ) (hj : i ≤ j) {words : List τ} (hne : words ≠ [])
      (hj' : (run j).2 = words ++ rest) :
      ∃ left, left ≠ [] ∧ (run (j + 1)).2 = left ++ rest ∧
        M.step ((run j).1, words) = some ((run (j + 1)).1, left) := by
    have hstep : M.step ((run j).1, words ++ rest) = some ((run (j + 1)).1, (run (j + 1)).2) := by
      rw [← hj']
      exact h.step j
    have hnext := hlong (j + 1) (Nat.le_succ_of_le hj)
    rcases step_without hne hstep hnext with ⟨left, hleft, halone⟩
    refine ⟨left, ?_, hleft, halone⟩
    rintro rfl
    rw [hleft] at hnext
    exact lt_irrefl _ hnext
  induction n with
  | zero =>
      rcases hturn i le_rfl (List.cons_ne_nil word []) hwords with ⟨left, hne, hleft, hstep⟩
      exact ⟨left, hne, hleft, Relation.TransGen.single hstep⟩
  | succ n ih =>
      rcases ih with ⟨words, hne, hwords', hreaches⟩
      have hle : i ≤ i + 1 + n := Nat.le_trans (Nat.le_succ i) (Nat.le_add_right (i + 1) n)
      rcases hturn (i + 1 + n) hle hne hwords' with ⟨left, hne', hleft, hstep⟩
      exact ⟨left, hne', hleft, hreaches.tail hstep⟩

/-- Of infinitely many scripts named at the shortest, two are the same. -/
theorem exists_recurs [Finite σ] (h : M.Endless run) (hscripts : {word | M.Script word}.Finite) :
    ∃ i word rest, (run i).2 = word :: rest ∧ M.Recurs (run i).1 word := by
  rcases Nat.exists_strictMono_subsequence (exists_lowest run) with ⟨lowest, hmono, hlowest⟩
  have hnamed (n : ℕ) : ∃ word rest, (run (lowest n)).2 = word :: rest ∧ M.Script word :=
    h.script_of_lowest (hlowest n)
  choose word rest hwords hscript using hnamed
  have hfinite : (Set.univ ×ˢ {word | M.Script word} : Set (σ × τ)).Finite :=
    Set.finite_univ.prod hscripts
  have hmem (n : ℕ) :
      ((run (lowest n)).1, word n) ∈ (Set.univ ×ˢ {word | M.Script word} : Set (σ × τ)) :=
    ⟨Set.mem_univ _, hscript n⟩
  rcases hfinite.exists_lt_map_eq_of_forall_mem hmem with ⟨a, b, hlt, heq⟩
  rcases Prod.mk.inj heq with ⟨hstate, hword⟩
  -- From the one to the other the run could do without the words behind.
  rcases Nat.exists_eq_add_of_lt (hmono hlt) with ⟨n, hn⟩
  rcases h.reaches₁_alone (hlowest a) (hwords a) n with ⟨left, hne, hleft, hreaches⟩
  have hlater : lowest b = lowest a + 1 + n := by omega
  rw [← hlater] at hleft hreaches
  refine ⟨lowest a, word a, rest a, hwords a, ?_⟩
  cases left with
  | nil => exact absurd rfl hne
  | cons first more =>
      have hfirst : word b = first := by
        have hcons := (hwords b).symm.trans hleft
        exact (List.cons.inj hcons).1
      subst hfirst
      refine ⟨more, ?_⟩
      rw [hstate, hword] at hreaches ⊢
      exact hreaches

end Endless

/-- The machine comes to rest just where no script that it names recurs. -/
theorem terminates_iff [Finite σ] (hscripts : {word | M.Script word}.Finite)
    {start : σ × List τ} :
    Terminates M.step start ↔
      ∀ s word rest, Reaches M.step start (s, word :: rest) → ¬ M.Recurs s word := by
  constructor
  · intro hends s word rest hreaches hrecurs
    exact not_terminates_of_recurs hrecurs rest ((terminates_iff_of_reaches hreaches).1 hends)
  · intro hnone
    by_contra hforever
    rcases exists_endless hforever with ⟨run, hendless, rfl⟩
    rcases hendless.exists_recurs hscripts with ⟨i, word, rest, hwords, hrecurs⟩
    have hreaches : Reaches M.step (run 0) ((run i).1, word :: rest) := by
      rw [← hwords]
      exact hendless.reaches i
    exact hnone _ word rest hreaches hrecurs

end Expander

end Parsing
