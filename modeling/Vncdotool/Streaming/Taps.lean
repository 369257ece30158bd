import Mathlib.Data.List.Infix
import Mathlib.Logic.Function.Basic

/-!
# Taps — a coroutine that rewrites the streams it reads from several taps

A coroutine asks for counted blocks, each from one of several taps, and says what to record in the
place of each block.  A tap that is not being asked passes its bytes through.  This module has

* `Coroutine`, the reader `feed` that buffers a tap until the block asked for is complete;
* `Follows`, the dialogues (lists of `Turn`s) a coroutine accepts;
* `Fed.Answers`, the causal order of such a dialogue: no byte of a turn comes before the turns
  of the other taps that precede it;
* `handed`, the blocks that a chunk completes and the states that take them;
* `Synced`, what holds between the bytes fed and the bytes recorded after any causal feeding,
  however the streams were cut, and what follows from it for the recording;
* `Verbatim`, a coroutine that records what it reads, which loses nothing in any order.
-/

namespace Streaming

variable {τ μ α : Type*}

/-! ## Coroutines and their reader -/

/-- A coroutine that reads counted blocks from taps and records something for each.  The rank
bounds the number of blocks it still asks for. -/
structure Coroutine (τ μ α : Type*) where
  want : μ → Option (τ × ℕ)
  advance : μ → List α → List α × μ
  rank : μ → ℕ
  rank_advance : ∀ m w block, want m = some w → rank (advance m block).2 < rank m

/-- A coroutine with the bytes held back on each tap. -/
structure Tapped (τ μ α : Type*) where
  core : μ
  pending : τ → List α

namespace Coroutine

variable [DecidableEq τ] (C : Coroutine τ μ α)

/-- The length of the block asked for from tap `t`, if it is this tap that is asked. -/
def waitingOn (m : μ) (t : τ) : Option ℕ :=
  match C.want m with
  | some (t', n) => if t' = t then some n else none
  | none => none

/-- Hand over complete blocks from the buffer of tap `t` for as long as this tap is asked: what was
recorded, the coroutine and the buffer after them. -/
def drain (t : τ) : ℕ → μ → List α → List α × μ × List α
  | 0, m, buf => ([], m, buf)
  | fuel + 1, m, buf =>
      match C.waitingOn m t with
      | none => ([], m, buf)
      | some n =>
          if buf.length < n then ([], m, buf)
          else
            let (recorded, m') := C.advance m (buf.take n)
            let (out, m'', buf') := drain t fuel m' (buf.drop n)
            (recorded ++ out, m'', buf')

/-- A chunk arrives on tap `t`: what is recorded, and the state after it.  A tap that is not asked
holds nothing back. -/
def feed (s : Tapped τ μ α) (t : τ) (data : List α) : List α × Tapped τ μ α :=
  if data.isEmpty then ([], s)
  else if (C.waitingOn s.core t).isNone then
    (s.pending t ++ data, { s with pending := Function.update s.pending t [] })
  else
    let (out, m, buf) := C.drain t (C.rank s.core) s.core (s.pending t ++ data)
    if (C.waitingOn m t).isNone then
      (out ++ buf, { core := m, pending := Function.update s.pending t [] })
    else
      (out, { core := m, pending := Function.update s.pending t buf })

/-- The states in which `drain` hands over a block, each with what the buffer then holds. -/
def handed (t : τ) : ℕ → μ → List α → List (μ × List α)
  | 0, _, _ => []
  | fuel + 1, m, buf =>
      match C.waitingOn m t with
      | none => []
      | some n =>
          if buf.length < n then []
          else (m, buf) :: handed t fuel (C.advance m (buf.take n)).2 (buf.drop n)

/-- The blocks that a chunk completes. -/
def handedBy (s : Tapped τ μ α) (t : τ) (data : List α) : List (μ × List α) :=
  if data.isEmpty then []
  else C.handed t (C.rank s.core) s.core (s.pending t ++ data)

/-- What every step leaves as it is, a chunk leaves. -/
theorem drain_invariant {β : Type*} {f : μ → β} (hf : ∀ m block, f (C.advance m block).2 = f m)
    {t : τ} : ∀ (fuel : ℕ) (m : μ) (buf : List α), f (C.drain t fuel m buf).2.1 = f m := by
  intro fuel
  induction fuel with
  | zero => exact fun m buf => rfl
  | succ fuel ih =>
      intro m buf
      unfold drain
      cases C.waitingOn m t with
      | none => rfl
      | some n =>
          dsimp only
          split_ifs
          · rfl
          · exact (ih _ _).trans (hf m _)

theorem feed_invariant {β : Type*} {f : μ → β} (hf : ∀ m block, f (C.advance m block).2 = f m)
    (s : Tapped τ μ α) (t : τ) (data : List α) : f (C.feed s t data).2.core = f s.core := by
  unfold feed
  dsimp only
  split_ifs
  · rfl
  · rfl
  · exact C.drain_invariant hf _ _ _
  · exact C.drain_invariant hf _ _ _

theorem waitingOn_eq_some_iff {m : μ} {t : τ} {n : ℕ} :
    C.waitingOn m t = some n ↔ C.want m = some (t, n) := by
  unfold waitingOn
  cases C.want m with
  | none => simp
  | some w =>
      by_cases h : w.1 = t
      · simp [h, Prod.ext_iff]
      · simp [h, Prod.ext_iff]

theorem waitingOn_eq_none_of_ne {m : μ} {t t' : τ} {n : ℕ} (h : C.want m = some (t', n))
    (hne : t' ≠ t) : C.waitingOn m t = none := by
  simp [waitingOn, h, hne]

theorem waitingOn_eq_none_of_want {m : μ} {t : τ} (h : C.want m = none) :
    C.waitingOn m t = none := by
  simp [waitingOn, h]

theorem drain_of_not_waiting {m : μ} {t : τ} {fuel : ℕ} {buf : List α}
    (h : C.waitingOn m t = none) : C.drain t fuel m buf = ([], m, buf) := by
  cases fuel with
  | zero => rfl
  | succ fuel => simp [drain, h]

theorem drain_of_short {m : μ} {t : τ} {fuel n : ℕ} {buf : List α}
    (h : C.waitingOn m t = some n) (hlen : buf.length < n) :
    C.drain t fuel m buf = ([], m, buf) := by
  cases fuel with
  | zero => rfl
  | succ fuel => simp [drain, h, hlen]

theorem drain_of_block {m m' : μ} {t : τ} {fuel : ℕ} {block recorded buf : List α}
    (h : C.waitingOn m t = some block.length) (hadvance : C.advance m block = (recorded, m')) :
    C.drain t (fuel + 1) m (block ++ buf) =
      (recorded ++ (C.drain t fuel m' buf).1, (C.drain t fuel m' buf).2) := by
  have hlen : ¬ (block ++ buf).length < block.length := by simp
  simp only [drain, h, if_neg hlen, List.take_left, List.drop_left, hadvance]

theorem handed_of_not_waiting {m : μ} {t : τ} {fuel : ℕ} {buf : List α}
    (h : C.waitingOn m t = none) : C.handed t fuel m buf = [] := by
  cases fuel with
  | zero => rfl
  | succ fuel => simp [handed, h]

theorem handed_of_short {m : μ} {t : τ} {fuel n : ℕ} {buf : List α}
    (h : C.waitingOn m t = some n) (hlen : buf.length < n) : C.handed t fuel m buf = [] := by
  cases fuel with
  | zero => rfl
  | succ fuel => simp [handed, h, hlen]

theorem handed_of_block {m m' : μ} {t : τ} {fuel : ℕ} {block recorded buf : List α}
    (h : C.waitingOn m t = some block.length) (hadvance : C.advance m block = (recorded, m')) :
    C.handed t (fuel + 1) m (block ++ buf) =
      (m, block ++ buf) :: C.handed t fuel m' buf := by
  have hlen : ¬ (block ++ buf).length < block.length := by simp
  simp only [handed, h, if_neg hlen, List.take_left, List.drop_left, hadvance]

/-- At the end of a dialogue tap `t` is not asked, or nothing more comes over it. -/
def Rests (final : μ) (t : τ) (later : List α) : Prop :=
  ∀ n, C.want final = some (t, n) → 0 < n ∧ later = []

omit [DecidableEq τ] in
theorem Rests.of_finished {final : μ} {t : τ} {later : List α} (h : C.want final = none) :
    C.Rests final t later := by
  intro n hwant
  rw [h] at hwant
  cases hwant

end Coroutine

/-! ## Dialogues -/

/-- A block of a dialogue, with what is recorded for it. -/
structure Turn (τ α : Type*) where
  tap : τ
  bytes : List α
  recorded : List α

/-- The coroutine in state `m` asks for the turns of the dialogue, records for each what the turn
says, and is in state `m'` after it. -/
inductive Follows (C : Coroutine τ μ α) : μ → List (Turn τ α) → μ → Prop
  | nil (m : μ) : Follows C m [] m
  | cons {m m' m'' : μ} {turn : Turn τ α} {script : List (Turn τ α)}
      (hwant : C.want m = some (turn.tap, turn.bytes.length))
      (hadvance : C.advance m turn.bytes = (turn.recorded, m'))
      (hrest : Follows C m' script m'') : Follows C m (turn :: script) m''

theorem Follows.append {C : Coroutine τ μ α} {m m' m'' : μ} {a b : List (Turn τ α)}
    (ha : Follows C m a m') (hb : Follows C m' b m'') : Follows C m (a ++ b) m'' := by
  induction ha with
  | nil _ => exact hb
  | cons hwant hadvance _ ih => exact Follows.cons hwant hadvance (ih hb)

theorem Follows.split {C : Coroutine τ μ α} {m m' : μ} {a b : List (Turn τ α)}
    (h : Follows C m (a ++ b) m') : ∃ n, Follows C m a n ∧ Follows C n b m' := by
  induction a generalizing m with
  | nil => exact ⟨m, Follows.nil m, h⟩
  | cons turn a ih =>
      cases h with
      | cons hwant hadvance hrest =>
          rcases ih hrest with ⟨n, ha, hb⟩
          exact ⟨n, Follows.cons hwant hadvance ha, hb⟩

/-- What every step leaves as it is. -/
theorem Follows.invariant {C : Coroutine τ μ α} {β : Type*} {f : μ → β}
    (hf : ∀ m block, f (C.advance m block).2 = f m) {m m' : μ} {script : List (Turn τ α)}
    (h : Follows C m script m') : f m' = f m := by
  induction h with
  | nil _ => rfl
  | cons _ hadvance _ ih =>
      rename_i m _ _ turn _ _ _
      have hstep := hf m turn.bytes
      rw [hadvance] at hstep
      exact ih.trans hstep

/-- The rank tells how far a dialogue has been followed. -/
theorem Follows.rank_le {C : Coroutine τ μ α} {m m' : μ} {script : List (Turn τ α)}
    (h : Follows C m script m') : C.rank m' + script.length ≤ C.rank m := by
  induction h with
  | nil _ => exact le_rfl
  | cons hwant hadvance _ ih =>
      rename_i m _ _ turn script _
      have hlt := C.rank_advance m _ turn.bytes hwant
      rw [hadvance] at hlt
      rw [List.length_cons]
      dsimp only at hlt
      omega

theorem Follows.deterministic {C : Coroutine τ μ α} {m m₁ m₂ : μ} {script : List (Turn τ α)}
    (h₁ : Follows C m script m₁) (h₂ : Follows C m script m₂) : m₁ = m₂ := by
  induction h₁ with
  | nil _ =>
      cases h₂
      rfl
  | cons hwant hadvance _ ih =>
      cases h₂ with
      | cons hwant' hadvance' hrest' =>
          rw [hadvance, Prod.mk.injEq] at hadvance'
          exact ih (hadvance'.2 ▸ hrest')

theorem Follows.eq_of_rank {C : Coroutine τ μ α} {m m₁ : μ} {a x : List (Turn τ α)}
    (ha : Follows C m a m₁) : ∀ {m₂ : μ} {b y : List (Turn τ α)}, Follows C m b m₂ →
      a ++ x = b ++ y → C.rank m₁ = C.rank m₂ → a = b ∧ m₁ = m₂ := by
  induction ha with
  | nil m =>
      intro m₂ b y hb _ hrank
      have hle := hb.rank_le
      have hlen : b = [] := List.length_eq_zero_iff.1 (by omega)
      subst hlen
      cases hb
      exact ⟨rfl, rfl⟩
  | cons hwant hadvance hrest ih =>
      intro m₂ b y hb heq hrank
      cases hb with
      | nil _ =>
          have hle := (Follows.cons hwant hadvance hrest).rank_le
          rw [List.length_cons] at hle
          omega
      | cons hwant' hadvance' hrest' =>
          rw [List.cons_append, List.cons_append, List.cons.injEq] at heq
          rcases heq with ⟨rfl, heq⟩
          rw [hadvance, Prod.mk.injEq] at hadvance'
          rcases hadvance' with ⟨-, rfl⟩
          rcases ih hrest' heq hrank with ⟨rfl, rfl⟩
          exact ⟨rfl, rfl⟩

theorem Follows.want_eq_none {C : Coroutine τ μ α} {m final : μ} (h : Follows C m ([] : List (Turn τ α)) final)
    (hfinal : C.want final = none) : C.want m = none := by
  cases h
  exact hfinal

/-- Whenever the dialogue changes taps it does so with a block that is not empty. -/
def Switches : Option τ → List (Turn τ α) → Prop
  | _, [] => True
  | last, turn :: script =>
      (last ≠ some turn.tap → turn.bytes ≠ []) ∧ Switches (some turn.tap) script

theorem Switches.append {a b : List (Turn τ α)} (hb : ∀ last, Switches last b) :
    ∀ {last : Option τ}, Switches last a → Switches last (a ++ b) := by
  induction a with
  | nil => exact fun {last} _ => hb last
  | cons turn a ih => exact fun {last} h => ⟨h.1, ih h.2⟩

theorem Switches.nonempty {turn : Turn τ α} {script : List (Turn τ α)} {t : τ}
    (h : Switches (some t) (turn :: script)) (hne : turn.tap ≠ t) : turn.bytes ≠ [] :=
  h.1 (by simpa using hne.symm)

variable [DecidableEq τ]

/-- What a dialogue sends over tap `t`. -/
def tapBytes (t : τ) (script : List (Turn τ α)) : List α :=
  script.flatMap fun turn => if turn.tap = t then turn.bytes else []

/-- What is recorded of a dialogue on tap `t`. -/
def tapRecorded (t : τ) (script : List (Turn τ α)) : List α :=
  script.flatMap fun turn => if turn.tap = t then turn.recorded else []

section Dialogue

variable {t : τ} {turn : Turn τ α} {a b script : List (Turn τ α)}

@[simp] theorem tapBytes_nil : tapBytes t ([] : List (Turn τ α)) = [] := rfl

@[simp] theorem tapBytes_cons :
    tapBytes t (turn :: script) = (if turn.tap = t then turn.bytes else []) ++ tapBytes t script :=
  rfl

@[simp] theorem tapBytes_append : tapBytes t (a ++ b) = tapBytes t a ++ tapBytes t b := by
  simp [tapBytes]

@[simp] theorem tapRecorded_nil : tapRecorded t ([] : List (Turn τ α)) = [] := rfl

@[simp] theorem tapRecorded_cons :
    tapRecorded t (turn :: script) =
      (if turn.tap = t then turn.recorded else []) ++ tapRecorded t script :=
  rfl

@[simp] theorem tapRecorded_append :
    tapRecorded t (a ++ b) = tapRecorded t a ++ tapRecorded t b := by
  simp [tapRecorded]

/-- Turns of other taps send nothing over `t`. -/
theorem tapBytes_eq_nil (h : ∀ turn ∈ script, turn.tap ≠ t) : tapBytes t script = [] := by
  simp only [tapBytes, List.flatMap_eq_nil_iff]
  intro turn hmem
  simp [h turn hmem]

theorem tapRecorded_eq_nil (h : ∀ turn ∈ script, turn.tap ≠ t) : tapRecorded t script = [] := by
  simp only [tapRecorded, List.flatMap_eq_nil_iff]
  intro turn hmem
  simp [h turn hmem]

end Dialogue

/-- Once a byte of a turn of tap `t`, or of what follows it there, has been fed, the turns before it
have been fed in full. -/
def Answers (script : List (Turn τ α)) (fed : τ → List α) (t : τ) : Prop :=
  ∀ i (_ : i < script.length), script[i].tap = t →
    (tapBytes t (script.take i)).length < (fed t).length →
      ∀ turn ∈ script.take i,
        (tapBytes turn.tap (script.take i)).length ≤ (fed turn.tap).length

instance {script : List (Turn τ α)} {fed : τ → List α} {t : τ} :
    Decidable (Answers script fed t) :=
  inferInstanceAs (Decidable (∀ i, ∀ _ : i < script.length, _))

namespace Answers

variable {done pre rest : List (Turn τ α)} {turn : Turn τ α} {fed : τ → List α} {t : τ}

theorem apply (h : Answers (done ++ turn :: rest) fed turn.tap)
    (hahead : (tapBytes turn.tap done).length < (fed turn.tap).length) :
    ∀ earlier ∈ done, (tapBytes earlier.tap done).length ≤ (fed earlier.tap).length := by
  have htake : (done ++ turn :: rest).take done.length = done := by simp
  have hlt : done.length < (done ++ turn :: rest).length := by simp
  have hget : (done ++ turn :: rest)[done.length].tap = turn.tap := by simp
  have hall := h done.length hlt hget
  rw [htake] at hall
  exact hall hahead

/-- What has been fed turn by turn keeps the order. -/
theorem of_turns {a b : List (Turn τ α)} :
    Answers (a ++ b) (fun tap => tapBytes tap a) t := by
  intro i _ _ hahead turn _
  have hmono : ∀ {tap : τ} {c d : List (Turn τ α)}, c <+: d →
      (tapBytes tap c).length ≤ (tapBytes tap d).length := by
    rintro tap c _ ⟨e, rfl⟩
    rw [tapBytes_append, List.length_append]
    exact Nat.le_add_right _ _
  by_cases hi : i ≤ a.length
  · refine hmono ?_
    rw [List.take_append_of_le_length hi]
    exact List.take_prefix i a
  · have hleads : a <+: (a ++ b).take i := by
      refine List.prefix_of_prefix_length_le (List.prefix_append a b) (List.take_prefix i _) ?_
      rw [List.length_take, List.length_append]
      omega
    exact absurd hahead (Nat.not_lt.2 (hmono hleads))

/-- What follows a dialogue that has been fed in full may come in any order. -/
theorem of_complete {script : List (Turn τ α)}
    (h : ∀ tap, (tapBytes tap script).length ≤ (fed tap).length) : Answers script fed t := by
  intro i _ _ _ turn _
  refine le_trans ?_ (h turn.tap)
  have hsplit : script = script.take i ++ script.drop i := (List.take_append_drop i script).symm
  have hlength := congrArg (fun l => (tapBytes turn.tap l).length) hsplit
  simp only [tapBytes_append, List.length_append] at hlength
  omega

/-- A tap cannot be ahead of the turn that is being read on another tap, unless the dialogue has
nothing more for it. -/
theorem no_turn_left {u : Turn τ α}
    (h : Answers (done ++ u :: (pre ++ rest)) fed t) (hne : u.tap ≠ t)
    (hshort : (fed u.tap).length < (tapBytes u.tap done).length + u.bytes.length)
    (hahead : (tapBytes t done).length < (fed t).length) (hpre : ∀ v ∈ pre, v.tap ≠ t) :
    ∀ v ∈ rest, v.tap ≠ t := by
  induction rest generalizing pre with
  | nil => exact nofun
  | cons v rest ih =>
      have hv : v.tap ≠ t := by
        intro hvt
        subst hvt
        have hnil : tapBytes v.tap (u :: pre) = [] := by
          refine tapBytes_eq_nil ?_
          intro w hw
          rcases List.mem_cons.1 hw with rfl | hw
          · exact hne
          · exact hpre w hw
        have hsplit : done ++ u :: (pre ++ v :: rest) = (done ++ u :: pre) ++ v :: rest := by simp
        rw [hsplit] at h
        have hfull := h.apply (by simpa [tapBytes_append, hnil] using hahead) u (by simp)
        simp only [tapBytes_append, tapBytes_cons, if_true, List.length_append] at hfull
        omega
      have hsplit : done ++ u :: (pre ++ v :: rest) = done ++ u :: ((pre ++ [v]) ++ rest) := by simp
      rw [hsplit] at h
      have htail := ih h (by
        intro w hw
        rcases List.mem_append.1 hw with hw | hw
        · exact hpre w hw
        · exact List.mem_singleton.1 hw ▸ hv)
      intro w hw
      rcases List.mem_cons.1 hw with rfl | hw
      · exact hv
      · exact htail w hw

end Answers

/-! ## Draining a buffer along a dialogue -/

variable {C : Coroutine τ μ α}

/-- What `drain` did from the state `m` to a buffer of tap `t` that begins like the rest of the
dialogue: it read the turns `read`, all of this tap, and stopped before one that is of another tap or
incomplete. -/
structure Drained (C : Coroutine τ μ α) (m : μ) (t : τ) (rest : List (Turn τ α)) (final : μ)
    (buf : List α) (result : List α × μ × List α) (read todo : List (Turn τ α))
    (last : Option τ) : Prop where
  split : rest = read ++ todo
  through : Follows C m read result.2.1
  ofTap : ∀ turn ∈ read, turn.tap = t
  recorded : result.1 = tapRecorded t read
  consumed : buf = tapBytes t read ++ result.2.2
  follows : Follows C result.2.1 todo final
  switches : Switches last todo
  short : ∀ turn script, todo = turn :: script → turn.tap = t →
    result.2.2.length < turn.bytes.length
  nonempty : ∀ turn script, todo = turn :: script → turn.tap ≠ t → turn.bytes ≠ []

/-- Nothing is drained when the dialogue goes on with another tap or with an incomplete block. -/
theorem Drained.stop {t : τ} {rest : List (Turn τ α)} {m final : μ} {buf : List α}
    {last : Option τ} (hfollows : Follows C m rest final) (hswitches : Switches last rest)
    (hshort : ∀ turn script, rest = turn :: script → turn.tap = t →
      buf.length < turn.bytes.length)
    (hnonempty : ∀ turn script, rest = turn :: script → turn.tap ≠ t → turn.bytes ≠ []) :
    Drained C m t rest final buf ([], m, buf) [] rest last where
  split := rfl
  through := Follows.nil m
  ofTap := nofun
  recorded := rfl
  consumed := rfl
  follows := hfollows
  switches := hswitches
  short := hshort
  nonempty := hnonempty

/-- A block that is read in front of what is drained after it. -/
theorem Drained.cons {m m' : μ} {t : τ} {turn : Turn τ α} {rest read todo : List (Turn τ α)}
    {final : μ} {buf : List α} {result : List α × μ × List α} {last : Option τ}
    (hwant : C.want m = some (turn.tap, turn.bytes.length))
    (hadvance : C.advance m turn.bytes = (turn.recorded, m')) (htap : turn.tap = t)
    (h : Drained C m' t rest final buf result read todo last) :
    Drained C m t (turn :: rest) final (turn.bytes ++ buf)
      (turn.recorded ++ result.1, result.2) (turn :: read) todo last where
  split := by simp [h.split]
  through := Follows.cons hwant hadvance h.through
  ofTap := by
    intro turn' hmem
    rcases List.mem_cons.1 hmem with rfl | hmem
    · exact htap
    · exact h.ofTap turn' hmem
  recorded := by simp [htap, h.recorded]
  consumed := by simp [htap, h.consumed]
  follows := h.follows
  switches := h.switches
  short := h.short
  nonempty := h.nonempty

theorem drain_spec {t : τ} {rest : List (Turn τ α)} {later : List α} {final : μ}
    (hfinal : C.Rests final t later) :
    ∀ {fuel : ℕ} {m : μ} {buf : List α} {last : Option τ}, C.rank m ≤ fuel →
      Follows C m rest final → Switches last rest → buf <+: tapBytes t rest ++ later →
      (∀ turn script, rest = turn :: script → turn.tap ≠ t → turn.bytes ≠ []) →
      ∃ read todo last', Drained C m t rest final buf (C.drain t fuel m buf) read todo last' := by
  induction rest with
  | nil =>
      intro fuel m buf last _ hfollows hswitches hbuf hnonempty
      have hstays : C.drain t fuel m buf = ([], m, buf) := by
        have hend : m = final := by
          cases hfollows
          rfl
        cases hask : C.waitingOn m t with
        | none => exact C.drain_of_not_waiting hask
        | some n =>
            rcases hfinal n (hend ▸ C.waitingOn_eq_some_iff.1 hask) with ⟨hpos, rfl⟩
            have hnil : buf = [] := List.prefix_nil.1 hbuf
            exact C.drain_of_short hask (by rwa [hnil, List.length_nil])
      rw [hstays]
      exact ⟨[], [], last, Drained.stop hfollows hswitches nofun hnonempty⟩
  | cons turn rest ih =>
      intro fuel m buf last hrank hfollows hswitches hbuf hnonempty
      have hfollows' := hfollows
      cases hfollows' with
      | cons hwant hadvance hrest =>
          rename_i m'
          by_cases htap : turn.tap = t
          · subst htap
            have hask : C.waitingOn m turn.tap = some turn.bytes.length :=
              C.waitingOn_eq_some_iff.2 hwant
            by_cases hlen : buf.length < turn.bytes.length
            · rw [C.drain_of_short hask hlen]
              refine ⟨[], turn :: rest, last, Drained.stop hfollows hswitches ?_ hnonempty⟩
              intro turn' script heq _
              cases heq
              exact hlen
            -- The whole block is there: its bytes are the turn's, since the buffer is cut from
            -- the same stream.
            · have hbytes : turn.bytes <+: buf := by
                refine List.prefix_of_prefix_length_le ?_ hbuf (Nat.not_lt.1 hlen)
                simp [List.append_assoc]
              rcases hbytes with ⟨buf', rfl⟩
              have hbuf' : buf' <+: tapBytes turn.tap rest ++ later := by
                simpa [List.append_assoc] using hbuf
              have hdecreases : C.rank m' < C.rank m := by
                have hlt := C.rank_advance m _ turn.bytes hwant
                rwa [hadvance] at hlt
              have hnonempty' : ∀ turn' script, rest = turn' :: script →
                  turn'.tap ≠ turn.tap → turn'.bytes ≠ [] := by
                rintro turn' script rfl hne
                exact Switches.nonempty hswitches.2 hne
              cases fuel with
              | zero => omega
              | succ fuel =>
                  have hrank' : C.rank m' ≤ fuel := by omega
                  rcases ih hrank' hrest hswitches.2 hbuf' hnonempty' with
                    ⟨read, todo, last', hdrained⟩
                  rw [C.drain_of_block hask hadvance]
                  exact ⟨turn :: read, todo, last', hdrained.cons hwant hadvance rfl⟩
          · have hnone : C.waitingOn m t = none := C.waitingOn_eq_none_of_ne hwant htap
            rw [C.drain_of_not_waiting hnone]
            refine ⟨[], turn :: rest, last, Drained.stop hfollows hswitches ?_ hnonempty⟩
            intro turn' script heq htap'
            cases heq
            exact absurd htap' htap

/-- A block is handed over exactly if the turns before it, all of this tap, and its own turn have
arrived. -/
theorem mem_handed_iff {t : τ} {rest : List (Turn τ α)} {later : List α} {m' final : μ}
    {buf' : List α} (hfinal : C.want final = none) :
    ∀ {fuel : ℕ} {m : μ} {buf : List α}, C.rank m ≤ fuel → Follows C m rest final →
      buf <+: tapBytes t rest ++ later →
      ((m', buf') ∈ C.handed t fuel m buf ↔
        ∃ read turn todo, rest = read ++ turn :: todo ∧ (∀ u ∈ read, u.tap = t) ∧ turn.tap = t ∧
          Follows C m read m' ∧ buf = tapBytes t read ++ buf' ∧
          turn.bytes.length ≤ buf'.length) := by
  induction rest with
  | nil =>
      intro fuel m buf _ hfollows _
      have hnone : C.waitingOn m t = none :=
        C.waitingOn_eq_none_of_want (hfollows.want_eq_none hfinal)
      rw [C.handed_of_not_waiting hnone]
      constructor
      · exact nofun
      · rintro ⟨read, turn, todo, hsplit, -⟩
        exact absurd hsplit (by simp)
  | cons u rest ih =>
      intro fuel m buf hrank hfollows hbuf
      have hfollows' := hfollows
      cases hfollows' with
      | cons hwant hadvance hrest =>
          rename_i m₁
          by_cases htap : u.tap = t
          · subst htap
            have hask : C.waitingOn m u.tap = some u.bytes.length :=
              C.waitingOn_eq_some_iff.2 hwant
            by_cases hlen : buf.length < u.bytes.length
            -- The first block of the tap is not complete, so nothing is handed over.
            · rw [C.handed_of_short hask hlen]
              refine ⟨nofun, ?_⟩
              rintro ⟨read, turn, todo, hsplit, -, -, -, rfl, hle⟩
              rw [List.length_append] at hlen
              cases read with
              | nil =>
                  cases hsplit
                  simp only [tapBytes_nil, List.length_nil] at hlen
                  omega
              | cons v read =>
                  cases hsplit
                  simp only [tapBytes_cons, if_true, List.length_append] at hlen
                  omega
            · have hbytes : u.bytes <+: buf := by
                refine List.prefix_of_prefix_length_le ?_ hbuf (Nat.not_lt.1 hlen)
                simp [List.append_assoc]
              rcases hbytes with ⟨buf₁, rfl⟩
              have hbuf₁ : buf₁ <+: tapBytes u.tap rest ++ later := by
                simpa [List.append_assoc] using hbuf
              have hdecreases : C.rank m₁ < C.rank m := by
                have hlt := C.rank_advance m _ u.bytes hwant
                rwa [hadvance] at hlt
              cases fuel with
              | zero => omega
              | succ fuel =>
                  have hrank₁ : C.rank m₁ ≤ fuel := by omega
                  -- The block is the first one, or it is handed over by the reader that has taken
                  -- the first one.
                  rw [C.handed_of_block hask hadvance, List.mem_cons, ih hrank₁ hrest hbuf₁]
                  constructor
                  · rintro (heq | ⟨read, turn, todo, rfl, hread, hturn, hm', rfl, hle⟩)
                    · cases heq
                      exact ⟨[], u, rest, rfl, nofun, rfl, Follows.nil _, rfl, by simp⟩
                    · refine ⟨u :: read, turn, todo, rfl, ?_, hturn,
                        Follows.cons hwant hadvance hm', by simp, hle⟩
                      intro v hmem
                      rcases List.mem_cons.1 hmem with rfl | hmem
                      · rfl
                      · exact hread v hmem
                  · rintro ⟨read, turn, todo, hsplit, hread, hturn, hm', hbytes, hle⟩
                    cases read with
                    | nil =>
                        cases hm'
                        exact Or.inl (Prod.ext rfl hbytes.symm)
                    | cons v read =>
                        cases hsplit
                        refine Or.inr ⟨read, turn, todo, rfl,
                          fun w hmem => hread w (List.mem_cons_of_mem _ hmem), hturn, ?_, ?_, hle⟩
                        · cases hm' with
                          | cons hwant' hadvance' hrest' =>
                              rw [hadvance, Prod.mk.injEq] at hadvance'
                              exact hadvance'.2 ▸ hrest'
                        · rw [tapBytes_cons, if_pos rfl, List.append_assoc] at hbytes
                          exact List.append_cancel_left hbytes
          -- The reader asks the other tap: it takes no block of this one.
          · have hnone : C.waitingOn m t = none := C.waitingOn_eq_none_of_ne hwant htap
            rw [C.handed_of_not_waiting hnone]
            refine ⟨nofun, ?_⟩
            rintro ⟨read, turn, todo, hsplit, hread, hturn, -⟩
            cases read with
            | nil =>
                cases hsplit
                exact absurd hturn htap
            | cons v read =>
                cases hsplit
                exact absurd (hread u List.mem_cons_self) htap

/-! ## What is recorded, however the streams are cut -/

/-- Where one tap stands when the turns `done` have been read and `rest` is to come, `fed` being
what has arrived on it, `out` what was recorded and `pending` what is held back.  The tap that is
asked holds back an incomplete block; any other holds nothing back, and what it has passed through
comes behind the whole dialogue. -/
inductive Lag (t : τ) (done rest : List (Turn τ α)) (fed out pending : List α) : Prop
  | asked (turn : Turn τ α) (script : List (Turn τ α)) (hrest : rest = turn :: script)
      (htap : turn.tap = t) (hfed : fed = tapBytes t done ++ pending)
      (hout : out = tapRecorded t done) (hshort : pending.length < turn.bytes.length)
  | passing (through : List α) (hrest : ∀ turn script, rest = turn :: script → turn.tap ≠ t)
      (hfed : fed = tapBytes t done ++ through) (hout : out = tapRecorded t done ++ through)
      (hpending : pending = []) (hlater : through = [] ∨ ∀ turn ∈ rest, turn.tap ≠ t)

/-- The tap that is asked has not been fed the whole of the block asked for. -/
theorem Lag.short {u : Turn τ α} {done script : List (Turn τ α)} {fed out pending : List α}
    (h : Lag u.tap done (u :: script) fed out pending) :
    fed.length < (tapBytes u.tap done).length + u.bytes.length := by
  cases h with
  | asked turn script' hrest htap hfed hout hshort =>
      cases hrest
      rw [hfed, List.length_append]
      omega
  | passing through hhead hfed hout hpending hlater =>
      exact absurd rfl (hhead u script rfl)

/-- What has been read has arrived. -/
theorem Lag.length_ge {t : τ} {done rest : List (Turn τ α)} {fed out pending : List α}
    (h : Lag t done rest fed out pending) : (tapBytes t done).length ≤ fed.length := by
  cases h with
  | asked turn script hrest htap hfed hout hshort =>
      rw [hfed, List.length_append]
      exact Nat.le_add_right _ _
  | passing through hrest hfed hout hpending hlater =>
      rw [hfed, List.length_append]
      exact Nat.le_add_right _ _

/-- A turn that has not been read has not arrived in full. -/
theorem Lag.length_lt {t : τ} {done between after : List (Turn τ α)} {u : Turn τ α}
    {fed out pending : List α} (h : Lag t done (between ++ u :: after) fed out pending)
    (htap : u.tap = t) (hu : u.bytes ≠ []) :
    fed.length < (tapBytes t (done ++ between)).length + u.bytes.length := by
  have hpos : 0 < u.bytes.length := List.length_pos_iff.2 hu
  cases h with
  | asked first script hrest hfirst hfed hout hshort =>
      cases between with
      | nil =>
          cases hrest
          rw [hfed, List.length_append, List.append_nil]
          omega
      | cons v between =>
          cases hrest
          simp only [hfed, tapBytes_append, tapBytes_cons, if_pos hfirst, List.length_append]
          omega
  | passing through hrest hfed hout hpending hlater =>
      rcases hlater with rfl | hnone
      · simp only [hfed, tapBytes_append, List.length_append, List.length_nil]
        omega
      · exact absurd htap (hnone u (by simp))

/-- A chunk that takes a tap beyond the turns read, while another tap is asked, lies behind the
whole dialogue. -/
theorem Answers.behind {done rest : List (Turn τ α)} {fed out pending : τ → List α} {t : τ}
    {arrived : List α} (h : Answers (done ++ rest) (Function.update fed t arrived) t)
    (hlag : ∀ t', t' ≠ t → Lag t' done rest (fed t') (out t') (pending t'))
    (hhead : ∀ turn script, rest = turn :: script → turn.tap ≠ t)
    (hahead : (tapBytes t done).length < arrived.length) : ∀ turn ∈ rest, turn.tap ≠ t := by
  cases rest with
  | nil => exact nofun
  | cons u rest =>
      have hne : u.tap ≠ t := hhead u rest rfl
      have hshort : (Function.update fed t arrived u.tap).length <
          (tapBytes u.tap done).length + u.bytes.length := by
        simpa [Function.update_of_ne hne] using (hlag u.tap hne).short
      have hnil : ∀ v ∈ ([] : List (Turn τ α)), v.tap ≠ t := nofun
      have hrest : ∀ turn ∈ rest, turn.tap ≠ t :=
        Answers.no_turn_left h hne hshort (by simpa using hahead) hnil
      intro turn hmem
      rcases List.mem_cons.1 hmem with hturn | hmem
      · exact hturn ▸ hne
      · exact hrest turn hmem

/-- The state of a reader that has been fed a dialogue and later traffic in a causal order. -/
structure SyncedAt (C : Coroutine τ μ α) (start final : μ) (s : Tapped τ μ α)
    (fed out : τ → List α) (done rest : List (Turn τ α)) : Prop where
  reached : Follows C start done s.core
  follows : Follows C s.core rest final
  switches : ∃ last, Switches last rest
  lag : ∀ t, Lag t done rest (fed t) (out t) (s.pending t)

def Synced (C : Coroutine τ μ α) (start final : μ) (script : List (Turn τ α)) (s : Tapped τ μ α)
    (fed out : τ → List α) : Prop :=
  ∃ done rest, script = done ++ rest ∧ SyncedAt C start final s fed out done rest

/-- Before anything has been fed. -/
theorem Synced.init {final m : μ} {script : List (Turn τ α)} (hfollows : Follows C m script final)
    (hswitches : Switches none script) :
    Synced C m final script ⟨m, fun _ => []⟩ (fun _ => []) (fun _ => []) := by
  refine ⟨[], script, rfl, Follows.nil m, hfollows, ⟨none, hswitches⟩, ?_⟩
  intro t
  cases script with
  | nil => exact Lag.passing [] nofun rfl rfl rfl (Or.inl rfl)
  | cons turn script =>
      by_cases htap : turn.tap = t
      · refine Lag.asked turn script rfl htap rfl rfl ?_
        exact List.length_pos_iff.2 (hswitches.1 nofun)
      · refine Lag.passing [] ?_ rfl rfl rfl (Or.inl rfl)
        intro turn' script' heq
        cases heq
        exact htap

namespace SyncedAt

variable {start final : μ} {s : Tapped τ μ α} {fed out : τ → List α} {done rest : List (Turn τ α)}
  {later : τ → List α} {t : τ} {data : List α}

theorem not_waiting (h : SyncedAt C start final s fed out done rest) (hfinal : C.want final = none)
    (hhead : ∀ turn script, rest = turn :: script → turn.tap ≠ t) :
    C.waitingOn s.core t = none := by
  cases h.follows with
  | nil => exact C.waitingOn_eq_none_of_want hfinal
  | cons hwant hadvance hrest => exact C.waitingOn_eq_none_of_ne hwant (hhead _ _ rfl)

/-- A tap that is asked when the dialogue is not at one of its turns gets nothing more. -/
theorem eq_nil_of_passing (h : SyncedAt C start final s fed out done rest)
    (hfinal : C.Rests final t (later t)) (hwait : C.waitingOn s.core t ≠ none)
    (hhead : ∀ turn script, rest = turn :: script → turn.tap ≠ t)
    (hwire : fed t ++ data <+: tapBytes t (done ++ rest) ++ later t) : data = [] := by
  have hge := (h.lag t).length_ge
  cases h.follows with
  | nil =>
      rcases Option.ne_none_iff_exists'.1 hwait with ⟨n, hask⟩
      rw [(hfinal n (C.waitingOn_eq_some_iff.1 hask)).2, List.append_nil, List.append_nil] at hwire
      have hle := hwire.length_le
      rw [List.length_append] at hle
      exact List.length_eq_zero_iff.1 (by omega)
  | cons hwant hadvance hrest =>
      exact absurd (C.waitingOn_eq_none_of_ne hwant (hhead _ _ rfl)) hwait

/-- Reading turns of tap `t` leaves every other tap where it stands. -/
theorem lag_other {t' : τ} {read todo : List (Turn τ α)}
    (h : SyncedAt C start final s fed out done (read ++ todo)) (hne : t' ≠ t)
    (hread : ∀ turn ∈ read, turn.tap = t)
    (hhead : ∀ turn script, read ++ todo = turn :: script → turn.tap = t)
    (hnonempty : ∀ turn script, todo = turn :: script → turn.tap ≠ t → turn.bytes ≠ []) :
    Lag t' (done ++ read) todo (fed t') (out t') (s.pending t') := by
  have hbytes : tapBytes t' read = [] :=
    tapBytes_eq_nil fun turn hmem => (hread turn hmem).symm ▸ hne.symm
  have hrecorded : tapRecorded t' read = [] :=
    tapRecorded_eq_nil fun turn hmem => (hread turn hmem).symm ▸ hne.symm
  cases h.lag t' with
  | asked turn script hrest htap hfed hout hshort =>
      exact absurd (htap.symm.trans (hhead turn script hrest)) hne
  | passing through hrest hfed hout hpending hlater =>
      by_cases hasked : ∃ turn script, todo = turn :: script ∧ turn.tap = t'
      · rcases hasked with ⟨turn, script, rfl, htap⟩
        have hthrough : through = [] := by
          rcases hlater with hnil | hnone
          · exact hnil
          · exact absurd htap (hnone turn (by simp))
        subst hthrough
        refine Lag.asked turn script rfl htap ?_ ?_ ?_
        · simp [hfed, hbytes, hpending]
        · simp [hout, hrecorded]
        · have hne' : turn.tap ≠ t := htap ▸ hne
          simpa [hpending] using List.length_pos_iff.2 (hnonempty turn script rfl hne')
      · refine Lag.passing through ?_ (by simp [hfed, hbytes]) (by simp [hout, hrecorded])
          hpending ?_
        · intro turn script heq htap
          exact hasked ⟨turn, script, heq, htap⟩
        · rcases hlater with hnil | hnone
          · exact Or.inl hnil
          · exact Or.inr fun turn hmem => hnone turn (List.mem_append_right _ hmem)

/-- A chunk on a tap that is not asked passes through. -/
theorem feed_passing (h : SyncedAt C start final s fed out done rest)
    (hwait : C.waitingOn s.core t = none) (hdata : data ≠ [])
    (hans : Answers (done ++ rest) (Function.update fed t (fed t ++ data)) t) :
    SyncedAt C start final (C.feed s t data).2 (Function.update fed t (fed t ++ data))
      (Function.update out t (out t ++ (C.feed s t data).1)) done rest := by
  have hfeed : C.feed s t data =
      (s.pending t ++ data, { s with pending := Function.update s.pending t [] }) := by
    simp [Coroutine.feed, hdata, hwait]
  rw [hfeed]
  refine ⟨h.reached, h.follows, h.switches, ?_⟩
  intro t'
  by_cases hne : t' = t
  · subst hne
    simp only [Function.update_self]
    cases h.lag t' with
    | asked turn script hrest htap hfed hout hshort =>
        subst htap
        have hfollows := h.follows
        rw [hrest] at hfollows
        cases hfollows with
        | cons hwant _ _ =>
            rw [C.waitingOn_eq_some_iff.2 hwant] at hwait
            cases hwait
    | passing through hrest hfed hout hpending hlater =>
        refine Lag.passing (through ++ data) hrest (by simp [hfed]) (by simp [hout, hpending])
          rfl (Or.inr ?_)
        refine hans.behind (fun t' _ => h.lag t') hrest ?_
        have hpos : 0 < data.length := List.length_pos_iff.2 hdata
        simp only [hfed, List.length_append]
        omega
  · simpa only [Function.update_of_ne hne] using h.lag t'

/-- A chunk on the tap that is asked advances the dialogue by the blocks it completes. -/
theorem feed_asked (h : SyncedAt C start final s fed out done rest)
    (hfinal : C.Rests final t (later t)) (hwait : C.waitingOn s.core t ≠ none) (hdata : data ≠ [])
    (hwire : fed t ++ data <+: tapBytes t (done ++ rest) ++ later t)
    (hans : Answers (done ++ rest) (Function.update fed t (fed t ++ data)) t) :
    ∃ read todo, rest = read ++ todo ∧ (∀ turn ∈ read, turn.tap = t) ∧
      SyncedAt C start final (C.feed s t data).2 (Function.update fed t (fed t ++ data))
        (Function.update out t (out t ++ (C.feed s t data).1)) (done ++ read) todo := by
  cases h.lag t with
  | passing through hrest hfed hout hpending hlater =>
      exact absurd (h.eq_nil_of_passing hfinal hwait hrest hwire) hdata
  | asked turn script hrest htap hfed hout hshort =>
      have hhead : ∀ turn' script', rest = turn' :: script' → turn'.tap = t := by
        rintro turn' script' heq
        cases hrest.symm.trans heq
        exact htap
      have hbuf : s.pending t ++ data <+: tapBytes t rest ++ later t := by
        rw [hfed, tapBytes_append, List.append_assoc, List.append_assoc] at hwire
        exact (List.prefix_append_right_inj _).1 hwire
      rcases h.switches with ⟨last, hswitches⟩
      rcases drain_spec hfinal le_rfl h.follows hswitches hbuf
          (fun turn' script' heq hne => absurd (hhead turn' script' heq) hne) with
        ⟨read, todo, last', hdrained⟩
      have hsplit := hdrained.split
      subst hsplit
      refine ⟨read, todo, rfl, hdrained.ofTap, ?_⟩
      have hother : ∀ t', t' ≠ t →
          Lag t' (done ++ read) todo (fed t') (out t') (s.pending t') := fun t' hne =>
        h.lag_other hne hdrained.ofTap hhead hdrained.nonempty
      have hconsumed : fed t ++ data = tapBytes t (done ++ read) ++
          (C.drain t (C.rank s.core) s.core (s.pending t ++ data)).2.2 := by
        rw [hfed, tapBytes_append, List.append_assoc, List.append_assoc]
        exact congrArg (tapBytes t done ++ ·) hdrained.consumed
      have hrecorded := hdrained.recorded
      have hreached := h.reached.append hdrained.through
      have hfollows := hdrained.follows
      have hincomplete := hdrained.short
      rcases hresult : C.drain t (C.rank s.core) s.core (s.pending t ++ data) with ⟨got, m, buf⟩
      rw [hresult] at hconsumed hrecorded hreached hfollows hincomplete
      dsimp only at hconsumed hrecorded hreached hfollows hincomplete
      by_cases hnext : C.waitingOn m t = none
      · have hfeed : C.feed s t data =
            (got ++ buf, { core := m, pending := Function.update s.pending t [] }) := by
          simp [Coroutine.feed, hdata, hwait, hresult, hnext]
        have hhead' : ∀ turn' script', todo = turn' :: script' → turn'.tap ≠ t := by
          rintro turn' script' rfl hturn
          cases hfollows with
          | cons hwant _ _ =>
              rw [C.waitingOn_eq_some_iff.2 (hturn ▸ hwant)] at hnext
              cases hnext
        rw [hfeed]
        refine ⟨hreached, hfollows, ⟨last', hdrained.switches⟩, ?_⟩
        intro t'
        by_cases hne : t' = t
        · subst hne
          simp only [Function.update_self]
          have hout' : out t' ++ (got ++ buf) = tapRecorded t' (done ++ read) ++ buf := by
            simp [hout, hrecorded]
          refine Lag.passing buf hhead' hconsumed hout' rfl ?_
          by_cases hbufnil : buf = []
          · exact Or.inl hbufnil
          · refine Or.inr ((List.append_assoc done read todo ▸ hans).behind hother hhead' ?_)
            have hpos : 0 < buf.length := List.length_pos_iff.2 hbufnil
            have hlen : (fed t' ++ data).length =
                (tapBytes t' (done ++ read)).length + buf.length := by
              rw [hconsumed, List.length_append]
            omega
        · simpa only [Function.update_of_ne hne] using hother t' hne
      · have hfeed : C.feed s t data =
            (got, { core := m, pending := Function.update s.pending t buf }) := by
          simp [Coroutine.feed, hdata, hwait, hresult, hnext]
        rw [hfeed]
        refine ⟨hreached, hfollows, ⟨last', hdrained.switches⟩, ?_⟩
        intro t'
        by_cases hne : t' = t
        · subst hne
          simp only [Function.update_self]
          cases hfollows with
          | nil =>
              -- It is asked again, but nothing more comes.
              rcases Option.ne_none_iff_exists'.1 hnext with ⟨n, hask⟩
              have hlater := (hfinal n (C.waitingOn_eq_some_iff.1 hask)).2
              have hbufnil : buf = [] := by
                rw [hconsumed, hlater, List.append_nil, List.append_nil] at hwire
                have hshort := hwire.length_le
                rw [List.length_append] at hshort
                exact List.length_eq_zero_iff.1 (by omega)
              refine Lag.passing [] nofun ?_ ?_ hbufnil (Or.inl rfl)
              · rw [hconsumed, hbufnil]
              · rw [hout, hrecorded, tapRecorded_append, List.append_nil]
          | cons hwant hadvance hrest' =>
              rename_i m'' turn' script'
              by_cases hturn : turn'.tap = t'
              · have hout' : out t' ++ got = tapRecorded t' (done ++ read) := by
                  simp [hout, hrecorded]
                exact Lag.asked turn' script' rfl hturn hconsumed hout'
                  (hincomplete turn' script' rfl hturn)
              · exact absurd (C.waitingOn_eq_none_of_ne hwant hturn) hnext
        · simpa only [Function.update_of_ne hne] using hother t' hne

/-- A chunk advances the dialogue by the blocks of its tap that it completes. -/
theorem feed (h : SyncedAt C start final s fed out done rest)
    (hfinal : C.Rests final t (later t))
    (hwire : fed t ++ data <+: tapBytes t (done ++ rest) ++ later t)
    (hans : Answers (done ++ rest) (Function.update fed t (fed t ++ data)) t) :
    ∃ read todo, rest = read ++ todo ∧ (∀ turn ∈ read, turn.tap = t) ∧
      SyncedAt C start final (C.feed s t data).2 (Function.update fed t (fed t ++ data))
        (Function.update out t (out t ++ (C.feed s t data).1)) (done ++ read) todo := by
  by_cases hdata : data = []
  · subst hdata
    refine ⟨[], rest, rfl, nofun, ?_⟩
    simpa [Coroutine.feed] using h
  · by_cases hwait : C.waitingOn s.core t = none
    · refine ⟨[], rest, rfl, nofun, ?_⟩
      simpa using h.feed_passing hwait hdata hans
    · exact h.feed_asked hfinal hwait hdata hwire hans

/-- Where in the stream of its tap a chunk hands over a block. -/
theorem mem_handedBy_iff (h : SyncedAt C start final s fed out done rest)
    (hfinal : C.want final = none) (hdata : data ≠ [])
    (hwire : fed t ++ data <+: tapBytes t (done ++ rest) ++ later t) {m : μ} {buf : List α} :
    (m, buf) ∈ C.handedBy s t data ↔
      ∃ read turn todo, rest = read ++ turn :: todo ∧ (∀ u ∈ read, u.tap = t) ∧ turn.tap = t ∧
        Follows C start (done ++ read) m ∧ fed t ++ data = tapBytes t (done ++ read) ++ buf ∧
        turn.bytes.length ≤ buf.length := by
  have hhanded : C.handedBy s t data = C.handed t (C.rank s.core) s.core (s.pending t ++ data) := by
    simp [Coroutine.handedBy, hdata]
  rw [hhanded]
  cases h.lag t with
  | passing through hrest hfed hout hpending hlater =>
      rw [C.handed_of_not_waiting (h.not_waiting hfinal hrest)]
      refine ⟨nofun, ?_⟩
      rintro ⟨read, turn, todo, hsplit, hread, hturn, -⟩
      cases read with
      | nil => exact absurd hturn (hrest turn todo hsplit)
      | cons u read => exact absurd (hread u List.mem_cons_self) (hrest u _ hsplit)
  | asked u script hrest htap hfed hout hshort =>
      have hbuf : s.pending t ++ data <+: tapBytes t rest ++ later t := by
        rw [hfed, tapBytes_append, List.append_assoc, List.append_assoc] at hwire
        exact (List.prefix_append_right_inj _).1 hwire
      rw [mem_handed_iff hfinal le_rfl h.follows hbuf]
      refine exists_congr fun read => exists_congr fun turn => exists_congr fun todo => ?_
      refine and_congr_right fun hsplit => and_congr_right fun hread => and_congr_right fun _ => ?_
      have hbytes : s.pending t ++ data = tapBytes t read ++ buf ↔
          fed t ++ data = tapBytes t (done ++ read) ++ buf := by
        rw [hfed, tapBytes_append, List.append_assoc, List.append_assoc,
          List.append_right_inj]
      have hpath : Follows C s.core read m ↔ Follows C start (done ++ read) m := by
        constructor
        · exact h.reached.append
        · intro hpath
          rcases hpath.split with ⟨n, hdone, hrest'⟩
          have hsame := hdone.deterministic h.reached
          exact hsame ▸ hrest'
      rw [hbytes, hpath]

end SyncedAt

namespace Synced

variable {start final : μ} {script : List (Turn τ α)} {s : Tapped τ μ α} {fed out : τ → List α}
  {later : τ → List α} {t : τ} {data : List α}

theorem feed (h : Synced C start final script s fed out) (hfinal : C.Rests final t (later t))
    (hwire : fed t ++ data <+: tapBytes t script ++ later t)
    (hans : Answers script (Function.update fed t (fed t ++ data)) t) :
    Synced C start final script (C.feed s t data).2 (Function.update fed t (fed t ++ data))
      (Function.update out t (out t ++ (C.feed s t data).1)) := by
  rcases h with ⟨done, rest, rfl, h⟩
  rcases h.feed hfinal hwire hans with ⟨read, todo, rfl, -, h'⟩
  exact ⟨done ++ read, todo, by simp, h'⟩

/-- At any point the recording of a tap is the beginning of what the dialogue records there,
followed by the later traffic. -/
theorem out_prefix (h : Synced C start final script s fed out)
    (hwire : fed t <+: tapBytes t script ++ later t) :
    out t <+: tapRecorded t script ++ later t := by
  rcases h with ⟨done, rest, rfl, h⟩
  cases h.lag t with
  | asked turn script hrest htap hfed hout hshort =>
      rw [hout, tapRecorded_append, List.append_assoc]
      exact List.prefix_append _ _
  | passing through hrest hfed hout hpending hlater =>
      rcases hlater with rfl | hnone
      · rw [hout, tapRecorded_append, List.append_nil, List.append_assoc]
        exact List.prefix_append _ _
      · rw [hfed, tapBytes_append, tapBytes_eq_nil hnone, List.append_nil] at hwire
        rw [hout, tapRecorded_append, tapRecorded_eq_nil hnone, List.append_nil]
        exact (List.prefix_append_right_inj _).2 ((List.prefix_append_right_inj _).1 hwire)

/-- When the streams have been fed in full, the recording is complete and nothing is held back. -/
theorem out_eq (h : Synced C start final script s fed out)
    (hfed : ∀ t, fed t = tapBytes t script ++ later t) :
    out t = tapRecorded t script ++ later t ∧ s.pending t = [] := by
  rcases h with ⟨done, rest, rfl, h⟩
  have hrest : rest = [] := by
    cases rest with
    | nil => rfl
    | cons u rest =>
        have hshort := (h.lag u.tap).short
        rw [hfed, tapBytes_append, tapBytes_cons, if_pos rfl] at hshort
        simp only [List.length_append] at hshort
        omega
  subst hrest
  cases h.lag t with
  | asked turn script hrest htap hfed' hout hshort => cases hrest
  | passing through hrest hfed' hout hpending hlater =>
      have hthrough : later t = through := by
        have heq := (hfed t).symm.trans hfed'
        simpa using heq
      exact ⟨by simp [hout, hthrough], hpending⟩

/-- What is held back belongs to a block of the dialogue that is incomplete. -/
theorem pending_eq_nil (h : Synced C start final script s fed out) (hwant : C.want s.core = none) :
    s.pending t = [] := by
  rcases h with ⟨done, rest, rfl, h⟩
  cases h.lag t with
  | asked turn script hrest htap hfed hout hshort =>
      have hfollows := h.follows
      rw [hrest] at hfollows
      cases hfollows with
      | cons hasked _ _ =>
          rw [hwant] at hasked
          cases hasked
  | passing through hrest hfed hout hpending hlater => exact hpending

/-- However the streams are cut, the block of a turn is handed over by the chunk that completes it,
at the offset where it stands in the stream of its tap. -/
theorem mem_handedBy_iff {before after : List (Turn τ α)} {u : Turn τ α} {m m₀ : μ}
    {buf : List α} (h : Synced C start final script s fed out) (hfinal : C.want final = none)
    (hdata : data ≠ []) (hwire : fed t ++ data <+: tapBytes t script ++ later t)
    (hans : Answers script (Function.update fed t (fed t ++ data)) t)
    (hscript : script = before ++ u :: after) (htap : u.tap = t) (hu : u.bytes ≠ [])
    (hbefore : Follows C start before m₀) (hrank : C.rank m = C.rank m₀) :
    (m, buf) ∈ C.handedBy s t data ↔
      m = m₀ ∧ fed t ++ data = tapBytes t before ++ buf ∧
        (fed t).length < (tapBytes t before).length + u.bytes.length ∧
        u.bytes.length ≤ buf.length := by
  rcases h with ⟨done, rest, rfl, h⟩
  rw [h.mem_handedBy_iff hfinal hdata hwire]
  constructor
  · rintro ⟨read, turn, todo, rfl, hread, hturn, hm, hbytes, hle⟩
    have hsplit : done ++ read ++ turn :: todo = before ++ u :: after := by
      rw [← hscript, List.append_assoc]
    rcases hm.eq_of_rank hbefore hsplit hrank with ⟨rfl, rfl⟩
    cases List.append_cancel_left hsplit
    exact ⟨rfl, hbytes, (h.lag t).length_lt htap hu, hle⟩
  · rintro ⟨rfl, hbytes, hearlier, hle⟩
    rcases h.feed (Coroutine.Rests.of_finished C hfinal) hwire hans with ⟨read, todo, rfl, hread, h'⟩
    have hlength : (fed t ++ data).length = (tapBytes t before).length + buf.length := by
      rw [hbytes, List.length_append]
    -- The turn is not behind us, or more would have arrived before.
    have hahead : ∃ w, before = done ++ w ∧ read ++ todo = w ++ u :: after := by
      rcases List.append_eq_append_iff.1 hscript with ⟨w, hw, hrest⟩ | ⟨w, hw, hrest⟩
      · exact ⟨w, hw, hrest⟩
      · cases w with
        | nil => exact ⟨[], by simpa using hw.symm, by simpa using hrest.symm⟩
        | cons v w =>
            cases hrest
            have hdone := (h.lag t).length_ge
            simp only [hw, tapBytes_append, tapBytes_cons, if_pos htap, List.length_append] at hdone
            omega
    rcases hahead with ⟨w, rfl, hrest⟩
    -- Nor is it still to come, or less would have arrived by now.
    have hcome : ∀ v, w = read ++ v → todo ≠ v ++ u :: after := by
      rintro v rfl rfl
      have hlt := (h'.lag t).length_lt htap hu
      rw [Function.update_self, List.append_assoc] at hlt
      omega
    have hread' : ∃ r, read = w ++ u :: r := by
      rcases List.append_eq_append_iff.1 hrest with ⟨v, hv, htodo⟩ | ⟨v, hv, htodo⟩
      · exact absurd htodo (hcome v hv)
      · cases v with
        | nil => exact absurd htodo.symm (hcome [] (by simpa using hv.symm))
        | cons v₁ v =>
            have heq : u = v₁ := (List.cons.inj htodo).1
            exact ⟨v, by rw [hv, heq]⟩
    rcases hread' with ⟨r, rfl⟩
    refine ⟨w, u, r ++ todo, by simp, ?_, htap, hbefore, hbytes, hle⟩
    intro v hmem
    exact hread v (List.mem_append_left _ hmem)

end Synced

/-! ## Conservation -/

namespace Coroutine

variable {C : Coroutine τ μ α} {I : μ → Prop}

omit [DecidableEq τ] in
/-- In the states of `I`, which it never leaves, a block is recorded as it was read. -/
def Verbatim (C : Coroutine τ μ α) (I : μ → Prop) : Prop :=
  ∀ m block, I m → (C.advance m block).1 = block ∧ I (C.advance m block).2

theorem Verbatim.drain (hC : C.Verbatim I) {t : τ} {fuel : ℕ} {m : μ} {buf : List α} (hm : I m) :
    (C.drain t fuel m buf).1 ++ (C.drain t fuel m buf).2.2 = buf ∧
      I (C.drain t fuel m buf).2.1 := by
  induction fuel generalizing m buf with
  | zero => exact ⟨rfl, hm⟩
  | succ fuel ih =>
      rw [Coroutine.drain]
      cases C.waitingOn m t with
      | none => exact ⟨rfl, hm⟩
      | some n =>
          dsimp only
          by_cases hshort : buf.length < n
          · rw [if_pos hshort]
            exact ⟨rfl, hm⟩
          · rw [if_neg hshort]
            -- The block goes out, and the rest of the buffer is drained behind it.
            rcases hC m (buf.take n) hm with ⟨hblock, hm'⟩
            rcases @ih (C.advance m (buf.take n)).2 (buf.drop n) hm' with ⟨hrest, hend⟩
            refine ⟨?_, hend⟩
            rw [hblock, List.append_assoc, hrest]
            exact List.take_append_drop n buf

/-- What a chunk does not bring out is held back on its tap, behind what was held back before. -/
theorem Verbatim.feed (hC : C.Verbatim I) {s : Tapped τ μ α} (hs : I s.core) (t : τ)
    (data : List α) :
    (C.feed s t data).1 ++ (C.feed s t data).2.pending t = s.pending t ++ data ∧
      (∀ t', t' ≠ t → (C.feed s t data).2.pending t' = s.pending t') ∧
        I (C.feed s t data).2.core := by
  have hdrain := @Verbatim.drain _ _ _ _ _ _ hC t (C.rank s.core) _ (s.pending t ++ data) hs
  unfold Coroutine.feed
  by_cases hempty : data.isEmpty
  · rw [if_pos hempty]
    refine ⟨?_, fun _ _ => rfl, hs⟩
    simp [List.isEmpty_iff.1 hempty]
  · rw [if_neg hempty]
    by_cases hidle : (C.waitingOn s.core t).isNone
    · rw [if_pos hidle]
      refine ⟨by simp, fun t' hne => Function.update_of_ne hne _ _, hs⟩
    · rw [if_neg hidle]
      dsimp only
      by_cases hdone : (C.waitingOn (C.drain t (C.rank s.core) s.core (s.pending t ++ data)).2.1
          t).isNone
      · rw [if_pos hdone]
        refine ⟨?_, fun t' hne => Function.update_of_ne hne _ _, hdrain.2⟩
        simpa using hdrain.1
      · rw [if_neg hdone]
        refine ⟨?_, fun t' hne => Function.update_of_ne hne _ _, hdrain.2⟩
        simpa using hdrain.1

end Coroutine

end Streaming
