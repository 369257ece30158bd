import Vncdotool.Streaming.Taps

/-!
# Dialogues — where a coroutine stands, whatever is fed to it

`Taps.lean` follows a given dialogue.  Here none is given: whatever arrives on a tap, the coroutine
has followed some dialogue of that tap, and stops at a block that is incomplete or of another tap
(`feed_block`).  Two dialogues that are cut from the same streams are the beginning of one another
(`Follows.comparable`), so that there is only one to follow.
-/

namespace Streaming

variable {τ μ α : Type*} {C : Coroutine τ μ α} {m m' : μ} {t : τ}

/-! ## Where a dialogue leads -/

theorem Follows.eq_of_nil (h : Follows C m ([] : List (Turn τ α)) m') : m = m' := by
  cases h
  rfl

/-- A coroutine that only changes taps to ask for something. -/
def Coroutine.Attentive (C : Coroutine τ μ α) : Prop :=
  ∀ m t n block t' n', C.want m = some (t, n) → C.want (C.advance m block).2 = some (t', n') →
    t' ≠ t → 0 < n'

/-- What an attentive coroutine asks for next, on changing taps. -/
theorem Follows.pos_of_ne (hattentive : C.Attentive) {script : List (Turn τ α)} {t' : τ} {n' : ℕ}
    (h : Follows C m script m') (hne : script ≠ []) (htap : ∀ u ∈ script, u.tap = t)
    (hwant : C.want m' = some (t', n')) (hother : t' ≠ t) : 0 < n' := by
  induction h with
  | nil m => exact absurd rfl hne
  | @cons m m₁ m₂ turn script hask hadvance hrest ih =>
      cases hrest with
      | nil =>
          have hturn : turn.tap = t := htap turn List.mem_cons_self
          refine hattentive m turn.tap _ turn.bytes t' n' hask ?_ (hturn ▸ hother)
          rw [hadvance]
          exact hwant
      | cons hask' hadvance' hrest' =>
          refine ih (List.cons_ne_nil _ _) (fun u hmem => htap u (List.mem_cons_of_mem _ hmem)) hwant

section Draining

variable [DecidableEq τ]

/-! ## Draining -/

/-- What `drain` hands over is a dialogue of its tap. -/
theorem drain_follows {fuel : ℕ} : ∀ {m : μ} {buf : List α}, C.rank m ≤ fuel →
    ∃ read, (∀ u ∈ read, u.tap = t) ∧ Follows C m read (C.drain t fuel m buf).2.1 ∧
      buf = tapBytes t read ++ (C.drain t fuel m buf).2.2 ∧
      (C.drain t fuel m buf).1 = tapRecorded t read ∧
      ∀ n, C.waitingOn (C.drain t fuel m buf).2.1 t = some n →
        (C.drain t fuel m buf).2.2.length < n := by
  induction fuel with
  | zero =>
      intro m buf hrank
      refine ⟨[], nofun, Follows.nil m, rfl, rfl, fun n hn => ?_⟩
      have hlt := C.rank_advance m _ [] (C.waitingOn_eq_some_iff.1 hn)
      exact absurd hlt (by omega)
  | succ fuel ih =>
      intro m buf hrank
      cases hask : C.waitingOn m t with
      | none =>
          rw [C.drain_of_not_waiting hask]
          refine ⟨[], nofun, Follows.nil m, rfl, rfl, fun n hn => ?_⟩
          exact nomatch hask.symm.trans hn
      | some n =>
          rcases Nat.lt_or_ge buf.length n with hshort | hlen
          · rw [C.drain_of_short hask hshort]
            refine ⟨[], nofun, Follows.nil m, rfl, rfl, fun n' hn' => ?_⟩
            cases hask.symm.trans hn'
            exact hshort
          -- A block is complete: it is the first turn of the dialogue, and the rank falls.
          · have hwant : C.want m = some (t, n) := C.waitingOn_eq_some_iff.1 hask
            have htake : (buf.take n).length = n := List.length_take_of_le hlen
            have hsplit : buf = buf.take n ++ buf.drop n := (List.take_append_drop n buf).symm
            have hlt := C.rank_advance m _ (buf.take n) hwant
            rcases @ih (C.advance m (buf.take n)).2 (buf.drop n) (by omega) with
              ⟨read, htap, hfollows, hbytes, hout, hstop⟩
            have hdrain := @Coroutine.drain_of_block _ _ _ _ C m (C.advance m (buf.take n)).2 t fuel
              (buf.take n) (C.advance m (buf.take n)).1 (buf.drop n) (by rw [hask, htake]) rfl
            rw [← hsplit] at hdrain
            rw [hdrain]
            refine ⟨⟨t, buf.take n, (C.advance m (buf.take n)).1⟩ :: read, ?_, ?_, ?_, ?_, hstop⟩
            · intro u hmem
              rcases List.mem_cons.1 hmem with rfl | hmem
              · rfl
              · exact htap u hmem
            · exact Follows.cons (by rw [htake]; exact hwant) rfl hfollows
            · rw [tapBytes_cons, if_pos rfl, List.append_assoc, ← hbytes]
              exact hsplit
            · rw [tapRecorded_cons, if_pos rfl, hout]

/-- A block that is asked for, and nothing else, arrives: the dialogue goes on by that block, and by
the empty ones that may come behind it. -/
theorem feed_block (hattentive : C.Attentive) {s : Tapped τ μ α} {n : ℕ} {data : List α}
    (hwant : C.want s.core = some (t, n)) (hpos : 0 < n) (hpending : s.pending t = [])
    (hdata : data.length = n) :
    ∃ read, read ≠ [] ∧ (∀ u ∈ read, u.tap = t) ∧ Follows C s.core read (C.feed s t data).2.core ∧
      tapBytes t read = data ∧ (C.feed s t data).1 = tapRecorded t read ∧
      (C.feed s t data).2.pending = s.pending ∧
      ∀ t' n', C.want (C.feed s t data).2.core = some (t', n') → 0 < n' := by
  have hask : C.waitingOn s.core t = some n := C.waitingOn_eq_some_iff.2 hwant
  have hne : data ≠ [] := fun hnil => by
    rw [hnil] at hdata
    exact absurd hdata (by simpa using Nat.ne_of_lt hpos)
  have hdrain : C.rank s.core ≤ C.rank s.core := le_rfl
  rcases @drain_follows τ μ α C t _ (C.rank s.core) s.core data hdrain with
    ⟨read, htap, hfollows, hbytes, hout, hstop⟩
  -- The first block takes all the data.
  have hread : read ≠ [] ∧ tapBytes t read = data := by
    cases read with
    | nil =>
        have hcore : s.core = (C.drain t (C.rank s.core) s.core data).2.1 := hfollows.eq_of_nil
        have hbuf : data = (C.drain t (C.rank s.core) s.core data).2.2 := by simpa using hbytes
        have hlt := hstop n (hcore ▸ hask)
        rw [← hbuf] at hlt
        exact absurd hlt (by omega)
    | cons u read =>
        refine ⟨List.cons_ne_nil _ _, ?_⟩
        have hu : u.tap = t := htap u List.mem_cons_self
        cases hfollows with
        | cons hask' hadvance' hrest' =>
            have hlen : u.bytes.length = n := by
              rw [hwant] at hask'
              exact (Prod.ext_iff.1 (Option.some.inj hask')).2.symm
            have htotal := congrArg List.length hbytes
            rw [tapBytes_cons, if_pos hu, List.length_append, List.length_append] at htotal
            have hrest : (C.drain t (C.rank s.core) s.core data).2.2 = [] :=
              List.length_eq_zero_iff.1 (by omega)
            rw [hrest, List.append_nil] at hbytes
            exact hbytes.symm
  have hbuf : (C.drain t (C.rank s.core) s.core data).2.2 = [] := by
    have h := hbytes
    rw [hread.2] at h
    simpa using h
  have hfeed : C.feed s t data =
      (tapRecorded t read, { core := (C.drain t (C.rank s.core) s.core data).2.1
                             pending := s.pending }) := by
    have hupdate : Function.update s.pending t [] = s.pending := by
      rw [← hpending]
      exact Function.update_eq_self t s.pending
    unfold Coroutine.feed
    rw [if_neg (by simpa using hne), if_neg (by simp [hask]), hpending, List.nil_append]
    dsimp only
    rw [hbuf, hupdate, List.append_nil, hout]
    split_ifs <;> rfl
  rw [hfeed]
  refine ⟨read, hread.1, htap, hfollows, hread.2, rfl, rfl, ?_⟩
  intro t' n' hwant'
  by_cases heq : t' = t
  · subst heq
    have hlt := hstop n' (C.waitingOn_eq_some_iff.2 hwant')
    rwa [hbuf] at hlt
  · exact hfollows.pos_of_ne hattentive hread.1 htap hwant' heq

/-! ## Dialogues cut from the same streams -/

/-- Of two dialogues cut from the same streams, one is the beginning of the other. -/
theorem Follows.comparable {a b : List (Turn τ α)} {m₁ m₂ : μ} {stream : τ → List α}
    (ha : Follows C m a m₁) : Follows C m b m₂ → (∀ t, tapBytes t a <+: stream t) →
      (∀ t, tapBytes t b <+: stream t) → a <+: b ∨ b <+: a := by
  induction ha generalizing b m₂ stream with
  | nil m => exact fun _ _ _ => Or.inl List.nil_prefix
  | @cons m m' m'' turn a hwant hadvance hrest ih =>
      intro hb hstream hstream'
      cases hb with
      | nil => exact Or.inr List.nil_prefix
      | @cons _ n' n'' turn' b hwant' hadvance' hrest' =>
          have hask := hwant.symm.trans hwant'
          rw [Option.some.injEq, Prod.mk.injEq] at hask
          rcases hask with ⟨htap, hlength⟩
          have hself := hstream turn.tap
          have hself' := hstream' turn.tap
          rw [tapBytes_cons, if_pos rfl] at hself
          rw [tapBytes_cons, if_pos htap.symm] at hself'
          have hbytes : turn.bytes = turn'.bytes := by
            have h₁ : turn.bytes <+: stream turn.tap := (List.prefix_append _ _).trans hself
            have h₂ : turn'.bytes <+: stream turn.tap := (List.prefix_append _ _).trans hself'
            exact (List.prefix_of_prefix_length_le h₁ h₂ hlength.le).eq_of_length hlength
          have hnext : turn.recorded = turn'.recorded ∧ m' = n' := by
            rw [hbytes, hadvance', Prod.mk.injEq] at hadvance
            exact ⟨hadvance.1.symm, hadvance.2.symm⟩
          have hturn : turn = turn' := by
            cases turn
            cases turn'
            simp only at htap hbytes hnext
            rw [htap, hbytes, hnext.1]
          subst hturn
          rcases hnext with ⟨-, rfl⟩
          -- What is left of the streams behind the common turn.
          have hdrop (script : List (Turn τ α)) (h : ∀ t, tapBytes t (turn :: script) <+: stream t)
              (t : τ) : tapBytes t script <+: (stream t).drop (tapBytes t [turn]).length := by
            rcases h t with ⟨rest, hrest⟩
            refine ⟨rest, ?_⟩
            have hcons : tapBytes t (turn :: script) = tapBytes t [turn] ++ tapBytes t script := by
              simp
            rw [← hrest, hcons, List.append_assoc, List.drop_left]
          rcases ih hrest' (hdrop a hstream) (hdrop b hstream') with h | h
          · exact Or.inl (List.cons_prefix_cons.2 ⟨rfl, h⟩)
          · exact Or.inr (List.cons_prefix_cons.2 ⟨rfl, h⟩)

end Draining

end Streaming
