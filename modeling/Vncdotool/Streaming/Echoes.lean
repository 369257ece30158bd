import Vncdotool.Streaming.Taps

/-!
# Echoes — reading a recording again

What a coroutine records of a dialogue can be fed to it as a dialogue of its own.  An `Echo` pairs
a turn with the turns that read what was recorded for it, none or several of them.  `Parallel` runs
the coroutine on a dialogue and on its echoes side by side, in states that stay related; the rule
`Follows.parallel` needs one step of that relation.  What the second reader ends with, however the
recording is cut, is then read off the bytes alone: `SyncedAt.settled`.
-/

namespace Streaming

variable {τ μ α : Type*}

/-- A turn as the recording has it. -/
def Turn.kept (turn : Turn τ α) : Turn τ α :=
  ⟨turn.tap, turn.recorded, turn.recorded⟩

variable [DecidableEq τ]

/-- A turn, and the turns that read what was recorded for it: all of its tap and none empty. -/
structure Echo (τ α : Type*) [DecidableEq τ] where
  turn : Turn τ α
  block : List (Turn τ α)
  ofTap : ∀ u ∈ block, u.tap = turn.tap
  nonempty : ∀ u ∈ block, u.bytes ≠ []
  bytes : tapBytes turn.tap block = turn.recorded
  recorded : tapRecorded turn.tap block = turn.recorded

namespace Echo

/-- Nothing was recorded. -/
def silent (turn : Turn τ α) (h : turn.recorded = []) : Echo τ α where
  turn := turn
  block := []
  ofTap := nofun
  nonempty := nofun
  bytes := h.symm
  recorded := h.symm

/-- What was recorded is read, and recorded, as it stands. -/
def verbatim (turn : Turn τ α) (h : turn.recorded ≠ []) : Echo τ α where
  turn := turn
  block := [turn.kept]
  ofTap := by
    intro u hmem
    rw [List.mem_singleton.1 hmem, Turn.kept]
  nonempty := by
    intro u hmem
    rw [List.mem_singleton.1 hmem]
    exact h
  bytes := by simp [Turn.kept]
  recorded := by simp [Turn.kept]

end Echo

/-- The dialogue. -/
def said (plan : List (Echo τ α)) : List (Turn τ α) :=
  plan.map Echo.turn

/-- The dialogue that reads its recording. -/
def echoed (plan : List (Echo τ α)) : List (Turn τ α) :=
  plan.flatMap Echo.block

section Plans

variable {a b plan : List (Echo τ α)} {t : τ}

@[simp] theorem said_append : said (a ++ b) = said a ++ said b :=
  List.map_append

@[simp] theorem echoed_append : echoed (a ++ b) = echoed a ++ echoed b :=
  List.flatMap_append

theorem nonempty_of_mem_echoed {u : Turn τ α} (hmem : u ∈ echoed plan) : u.bytes ≠ [] := by
  rcases List.mem_flatMap.1 hmem with ⟨echo, _, hblock⟩
  exact echo.nonempty u hblock

theorem exists_said_of_mem_echoed {u : Turn τ α} (hmem : u ∈ echoed plan) :
    ∃ v ∈ said plan, v.tap = u.tap := by
  rcases List.mem_flatMap.1 hmem with ⟨echo, hecho, hblock⟩
  exact ⟨echo.turn, List.mem_map_of_mem hecho, (echo.ofTap u hblock).symm⟩

/-- A tap that is not in the dialogue is not in its echoes. -/
theorem echoed_ne_of_said_ne (h : ∀ v ∈ said plan, v.tap ≠ t) : ∀ u ∈ echoed plan, u.tap ≠ t := by
  intro u hmem hu
  rcases exists_said_of_mem_echoed hmem with ⟨v, hv, htap⟩
  exact h v hv (htap.trans hu)

theorem tapBytes_block (echo : Echo τ α) :
    tapBytes t echo.block = if echo.turn.tap = t then echo.turn.recorded else [] := by
  by_cases htap : echo.turn.tap = t
  · rw [if_pos htap, ← htap]
    exact echo.bytes
  · rw [if_neg htap]
    refine tapBytes_eq_nil ?_
    intro u hmem hu
    exact htap ((echo.ofTap u hmem).symm.trans hu)

theorem tapRecorded_block (echo : Echo τ α) :
    tapRecorded t echo.block = if echo.turn.tap = t then echo.turn.recorded else [] := by
  by_cases htap : echo.turn.tap = t
  · rw [if_pos htap, ← htap]
    exact echo.recorded
  · rw [if_neg htap]
    refine tapRecorded_eq_nil ?_
    intro u hmem hu
    exact htap ((echo.ofTap u hmem).symm.trans hu)

/-- The echoes send what was recorded of the dialogue. -/
theorem tapBytes_echoed : tapBytes t (echoed plan) = tapRecorded t (said plan) := by
  induction plan with
  | nil => rfl
  | cons echo plan ih =>
      have hcons : echoed (echo :: plan) = echo.block ++ echoed plan := rfl
      have hsaid : said (echo :: plan) = echo.turn :: said plan := rfl
      rw [hcons, hsaid, tapBytes_append, tapBytes_block, tapRecorded_cons, ih]

/-- And they are recorded as they are. -/
theorem tapRecorded_echoed : tapRecorded t (echoed plan) = tapRecorded t (said plan) := by
  induction plan with
  | nil => rfl
  | cons echo plan ih =>
      have hcons : echoed (echo :: plan) = echo.block ++ echoed plan := rfl
      have hsaid : said (echo :: plan) = echo.turn :: said plan := rfl
      rw [hcons, hsaid, tapRecorded_append, tapRecorded_block, tapRecorded_cons, ih]

theorem tapBytes_kept {script : List (Turn τ α)} :
    tapBytes t (script.map Turn.kept) = tapRecorded t script := by
  induction script with
  | nil => rfl
  | cons turn script ih =>
      rw [List.map_cons, tapBytes_cons, tapRecorded_cons, ih]
      rfl

omit [DecidableEq τ] in
/-- Blocks that are not empty may change taps anywhere. -/
theorem Switches.of_nonempty {script : List (Turn τ α)} (h : ∀ u ∈ script, u.bytes ≠ []) :
    ∀ last, Switches last script := by
  induction script with
  | nil => exact fun _ => trivial
  | cons turn script ih =>
      intro last
      refine ⟨fun _ => h turn List.mem_cons_self, ih ?_ _⟩
      intro u hmem
      exact h u (List.mem_cons_of_mem _ hmem)

end Plans

/-! ## The causal order of the echoes -/

/-- The causal order, at each place where a dialogue can be cut in two. -/
theorem answers_iff {script : List (Turn τ α)} {fed : τ → List α} {t : τ} :
    Answers script fed t ↔
      ∀ pre u post, script = pre ++ u :: post → u.tap = t →
        (tapBytes t pre).length < (fed t).length →
          ∀ t', (tapBytes t' pre).length ≤ (fed t').length := by
  constructor
  · rintro h pre u post rfl rfl hahead t'
    by_cases hany : ∃ v ∈ pre, v.tap = t'
    · rcases hany with ⟨v, hv, rfl⟩
      exact h.apply hahead v hv
    · have hnil : tapBytes t' pre = [] := tapBytes_eq_nil fun v hv htap => hany ⟨v, hv, htap⟩
      rw [hnil]
      exact Nat.zero_le _
  · intro h i hi htap hahead turn _
    refine h (script.take i) script[i] (script.drop (i + 1)) ?_ htap hahead turn.tap
    rw [List.getElem_cons_drop, List.take_append_drop]

/-- A recording that is read in the order of the dialogue is read in the order of its echoes. -/
theorem Answers.echoed {plan : List (Echo τ α)} {fed : τ → List α} {t : τ}
    (h : Answers ((said plan).map Turn.kept) fed t) : Answers (echoed plan) fed t := by
  rw [answers_iff] at h ⊢
  intro pre u post hsplit hu hahead t'
  -- The echo that `u` belongs to, and what of it comes before `u`.
  have hplace : ∃ before echo after front, plan = before ++ echo :: after ∧
      pre = Streaming.echoed before ++ front ∧ front <+: echo.block ∧ echo.turn.tap = u.tap := by
    clear hahead h
    induction plan generalizing pre with
    | nil => exact absurd hsplit (by simp [Streaming.echoed])
    | cons echo plan ih =>
        have hcons : echo.block ++ Streaming.echoed plan = pre ++ u :: post := hsplit
        rcases List.append_eq_append_iff.1 hcons with ⟨w, hw, hrest⟩ | ⟨w, hw, hrest⟩
        · rcases ih w hrest with ⟨before, echo', after, front, rfl, rfl, hfront, htap⟩
          refine ⟨echo :: before, echo', after, front, rfl, ?_, hfront, htap⟩
          rw [hw, ← List.append_assoc]
          rfl
        · cases w with
          | nil =>
              rcases ih [] hrest.symm with ⟨before, echo', after, front, rfl, hnil, hfront, htap⟩
              refine ⟨echo :: before, echo', after, front, rfl, ?_, hfront, htap⟩
              rw [List.append_nil] at hw
              have hall : Streaming.echoed (echo :: before) ++ front =
                  echo.block ++ (Streaming.echoed before ++ front) := List.append_assoc _ _ _
              rw [hall, ← hnil, List.append_nil, hw]
          | cons v w =>
              cases hrest
              refine ⟨[], echo, plan, pre, rfl, rfl, ⟨u :: w, hw.symm⟩, ?_⟩
              exact (echo.ofTap u (hw ▸ by simp)).symm
  rcases hplace with ⟨before, echo, after, front, rfl, rfl, hfront, htap⟩
  have hkept (t : τ) :
      tapBytes t ((said before).map Turn.kept) = tapBytes t (Streaming.echoed before) := by
    rw [tapBytes_kept, tapBytes_echoed]
  have hmap : (said (before ++ echo :: after)).map Turn.kept =
      (said before).map Turn.kept ++ echo.turn.kept :: (said after).map Turn.kept := by
    rw [said_append, List.map_append]
    rfl
  by_cases hsame : t' = t
  · rw [hsame]
    exact hahead.le
  · have hfrontnil : tapBytes t' front = [] := by
      refine tapBytes_eq_nil ?_
      intro v hv hvtap
      have hin : v.tap = echo.turn.tap := echo.ofTap v (hfront.subset hv)
      exact hsame (hvtap.symm.trans (hin.trans (htap.trans hu)))
    have hbefore := h _ _ _ hmap (htap.trans hu)
      (by
        rw [hkept]
        rw [tapBytes_append, List.length_append] at hahead
        omega) t'
    rwa [tapBytes_append, hfrontnil, List.append_nil, ← hkept]

/-- The causal order with one more turn at the end. -/
theorem Answers.snoc {script : List (Turn τ α)} {z : Turn τ α} {fed : τ → List α} {t : τ}
    (h : Answers script fed t)
    (hz : z.tap = t → (tapBytes t script).length < (fed t).length →
      ∀ t', (tapBytes t' script).length ≤ (fed t').length) :
    Answers (script ++ [z]) fed t := by
  rw [answers_iff] at h ⊢
  intro pre u post hsplit hu hahead t'
  rcases List.append_eq_append_iff.1 hsplit with ⟨w, rfl, hz'⟩ | ⟨w, rfl, hz'⟩
  · cases w with
    | nil =>
        cases hz'
        rw [List.append_nil] at hahead ⊢
        exact hz hu hahead t'
    | cons v w => exact absurd (congrArg List.length hz') (by simp)
  · cases w with
    | nil =>
        cases hz'
        rw [List.append_nil] at hz
        exact hz hu hahead t'
    | cons v w =>
        cases hz'
        exact h pre u w rfl hu hahead t'

/-- Once more has been fed on a tap than was recorded there, everything that was recorded has been
fed, if nothing is recorded after the last turn of the tap. -/
theorem Answers.whole {script pre post : List (Turn τ α)} {u : Turn τ α} {fed : τ → List α}
    {t : τ} (h : Answers (script.map Turn.kept) fed t) (hscript : script = pre ++ u :: post)
    (hu : u.tap = t) (hpost : ∀ v ∈ post, v.recorded = [])
    (hahead : (tapRecorded t script).length < (fed t).length) (t' : τ) :
    (tapRecorded t' script).length ≤ (fed t').length := by
  have hnothing (t : τ) : tapRecorded t post = [] := by
    refine List.flatMap_eq_nil_iff.2 ?_
    intro v hv
    rw [hpost v hv]
    split_ifs <;> rfl
  have hsplit (t : τ) : tapRecorded t script =
      tapRecorded t pre ++ if u.tap = t then u.recorded else [] := by
    rw [hscript, tapRecorded_append, tapRecorded_cons, hnothing, List.append_nil]
  by_cases hsame : t' = t
  · rw [hsame]
    exact hahead.le
  · have hmap : script.map Turn.kept = pre.map Turn.kept ++ u.kept :: post.map Turn.kept := by
      rw [hscript, List.map_append, List.map_cons]
    have hbefore := answers_iff.1 h _ _ _ hmap hu
    simp only [tapBytes_kept] at hbefore
    have hne : ¬ u.tap = t' := fun htap => hsame (htap.symm.trans hu)
    rw [hsplit t', if_neg hne, List.append_nil]
    refine hbefore ?_ t'
    rw [hsplit t, List.length_append] at hahead
    omega

/-- Turns of which nothing was recorded have no echo. -/
theorem echoed_eq_nil {plan : List (Echo τ α)} (h : ∀ u ∈ said plan, u.recorded = []) :
    Streaming.echoed plan = [] := by
  refine List.flatMap_eq_nil_iff.2 ?_
  intro echo hecho
  have hnone : echo.turn.recorded = [] := h echo.turn (List.mem_map_of_mem hecho)
  cases hblock : echo.block with
  | nil => rfl
  | cons u block =>
      have hmem : u ∈ echo.block := hblock ▸ List.mem_cons_self
      have hbytes := echo.bytes
      rw [hnone, hblock, tapBytes_cons, if_pos (echo.ofTap u hmem)] at hbytes
      exact absurd (List.append_eq_nil_iff.1 hbytes).1 (echo.nonempty u hmem)

/-! ## Reading side by side -/

variable {C : Coroutine τ μ α} {R : μ → μ → Prop}

/-- From `m` the coroutine follows the dialogue and from `n` its echoes, in states related by
`R`. -/
inductive Parallel (C : Coroutine τ μ α) (R : μ → μ → Prop) :
    μ → μ → List (Echo τ α) → μ → μ → Prop
  | nil {m n : μ} (hrel : R m n) : Parallel C R m n [] m n
  | cons {m n m' n' m'' n'' : μ} {echo : Echo τ α} {plan : List (Echo τ α)} (hrel : R m n)
      (hwant : C.want m = some (echo.turn.tap, echo.turn.bytes.length))
      (hadvance : C.advance m echo.turn.bytes = (echo.turn.recorded, m'))
      (hblock : Follows C n echo.block n') (hrest : Parallel C R m' n' plan m'' n'') :
      Parallel C R m n (echo :: plan) m'' n''

namespace Parallel

variable {m n m' n' : μ} {plan a b : List (Echo τ α)}

theorem said (h : Parallel C R m n plan m' n') : Follows C m (said plan) m' := by
  induction h with
  | nil _ => exact Follows.nil _
  | cons _ hwant hadvance _ _ ih => exact Follows.cons hwant hadvance ih

theorem echoed (h : Parallel C R m n plan m' n') : Follows C n (echoed plan) n' := by
  induction h with
  | nil _ => exact Follows.nil _
  | cons _ _ _ hblock _ ih => exact hblock.append ih

theorem related (h : Parallel C R m n plan m' n') : R m' n' := by
  induction h with
  | nil hrel => exact hrel
  | cons _ _ _ _ _ ih => exact ih

theorem split (h : Parallel C R m n (a ++ b) m' n') :
    ∃ m₁ n₁, Parallel C R m n a m₁ n₁ ∧ Parallel C R m₁ n₁ b m' n' := by
  induction a generalizing m n with
  | nil =>
      refine ⟨m, n, Parallel.nil ?_, h⟩
      cases h with
      | nil hrel => exact hrel
      | cons hrel _ _ _ _ => exact hrel
  | cons echo a ih =>
      cases h with
      | cons hrel hwant hadvance hblock hrest =>
          rcases ih hrest with ⟨m₁, n₁, ha, hb⟩
          exact ⟨m₁, n₁, Parallel.cons hrel hwant hadvance hblock ha, hb⟩

end Parallel

/-- The induction rule: a step of the dialogue that ends well is answered by its echo. -/
theorem Follows.parallel {Sound : μ → Prop}
    (hback : ∀ m block, Sound (C.advance m block).2 → Sound m)
    (hstep : ∀ m n m' (turn : Turn τ α), R m n → Sound m' →
      C.want m = some (turn.tap, turn.bytes.length) →
      C.advance m turn.bytes = (turn.recorded, m') →
        ∃ (echo : Echo τ α) (n' : μ), echo.turn = turn ∧ Follows C n echo.block n' ∧ R m' n')
    {m final : μ} {script : List (Turn τ α)} (h : Follows C m script final)
    (hfinal : Sound final) :
    Sound m ∧ ∀ {n : μ}, R m n →
      ∃ plan n', said plan = script ∧ Parallel C R m n plan final n' := by
  induction h with
  | nil m => exact ⟨hfinal, fun {n} hrel => ⟨[], n, rfl, Parallel.nil hrel⟩⟩
  | cons hwant hadvance _ ih =>
      rename_i m m' final turn script _
      rcases ih hfinal with ⟨hsound, hplan⟩
      have hsound' : Sound m := hback m turn.bytes (by rwa [hadvance])
      refine ⟨hsound', ?_⟩
      intro n hrel
      rcases hstep m n m' turn hrel hsound hwant hadvance with ⟨echo, n₁, rfl, hblock, hrel'⟩
      rcases hplan hrel' with ⟨plan, n', rfl, hparallel⟩
      exact ⟨echo :: plan, n', rfl, Parallel.cons hrel hwant hadvance hblock hparallel⟩

/-! ## Where the second reader ends -/

/-- Fed the blocks `d` of its dialogue, and on no tap it still reads anything behind them, a reader
has read exactly those, and holds nothing back. -/
theorem SyncedAt.settled {start final : μ} {s : Tapped τ μ α} {fed out through : τ → List α}
    {done rest d r : List (Turn τ α)} (h : SyncedAt C start final s fed out done rest)
    (hsplit : done ++ rest = d ++ r) (hne : ∀ u ∈ d ++ r, u.bytes ≠ [])
    (hfed : ∀ t, fed t = tapBytes t d ++ through t)
    (hthrough : ∀ t, through t = [] ∨ ∀ u ∈ r, u.tap ≠ t) :
    done = d ∧ ∀ t, s.pending t = [] ∧ out t = tapRecorded t d ++ through t := by
  have hdone : done = d := by
    rcases List.append_eq_append_iff.1 hsplit with ⟨w, rfl, hrest⟩ | ⟨w, rfl, hrest⟩
    · cases w with
      | nil => exact (List.append_nil _).symm
      | cons u w =>
          -- `u` has been fed in full, so it would have been read.
          rw [List.cons_append] at hrest
          have hlag := h.lag u.tap
          rw [hrest] at hlag
          have hshort := hlag.short
          rw [hfed u.tap, tapBytes_append, tapBytes_cons, if_pos rfl] at hshort
          simp only [List.length_append] at hshort
          omega
    · cases w with
      | nil => exact List.append_nil _
      | cons u w =>
          -- `u` has been read, but nothing of it has been fed.
          have hnil : through u.tap = [] := by
            refine (hthrough u.tap).resolve_right ?_
            intro hnone
            exact hnone u (hrest ▸ by simp) rfl
          have hge := (h.lag u.tap).length_ge
          have hpos : 0 < u.bytes.length := by
            refine List.length_pos_iff.2 (hne u ?_)
            rw [hrest]
            simp
          rw [hfed u.tap, hnil, tapBytes_append, tapBytes_cons, if_pos rfl] at hge
          simp only [List.length_append, List.length_nil] at hge
          omega
  subst hdone
  have hrest : rest = r := List.append_cancel_left hsplit
  subst hrest
  refine ⟨rfl, ?_⟩
  intro t
  have heq := hfed t
  cases h.lag t with
  | asked turn script hrest htap hfed' hout hshort =>
      have hnil : through t = [] := by
        refine (hthrough t).resolve_right ?_
        intro hnone
        exact hnone turn (hrest ▸ List.mem_cons_self) htap
      have hpending : s.pending t = [] := by
        rw [hfed', hnil] at heq
        exact List.append_cancel_left heq
      exact ⟨hpending, by rw [hout, hnil, List.append_nil]⟩
  | passing through' hrest hfed' hout hpending hlater =>
      have hsame : through' = through t := by
        rw [hfed'] at heq
        exact List.append_cancel_left heq
      exact ⟨hpending, by rw [hout, hsame]⟩

end Streaming
