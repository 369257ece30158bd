import Vncdotool.Streaming.Taps

/-!
# Settling — what a buffer makes of a coroutine

`settle t m buf` is the reader that `m` has become when it has taken every block that is complete in
the buffer of tap `t`.  A chunk settles what was held back together with the chunk, however the
bytes were cut before; and a block in front of a buffer may be taken first.
-/

namespace Streaming

variable {τ μ α : Type*} [DecidableEq τ]

namespace Coroutine

variable (C : Coroutine τ μ α)

/-- What the coroutine does not take of a buffer of tap `t`. -/
def remnant (t : τ) (m : μ) (buf : List α) : List α :=
  (C.drain t (C.rank m) m buf).2.2

/-- The reader that has taken what it asks for from a buffer of tap `t`.  If it ends up asking
another tap, the rest of the buffer has passed through. -/
def settle (t : τ) (m : μ) (buf : List α) : Tapped τ μ α :=
  let m' := (C.drain t (C.rank m) m buf).2.1
  { core := m'
    pending := if (C.waitingOn m' t).isNone then fun _ => []
      else Function.update (fun _ => []) t (C.remnant t m buf) }

variable {C} {t : τ} {m m' : μ} {n : ℕ} {block recorded buf : List α}

/-- The rank is budget enough to drain a buffer. -/
theorem drain_of_rank_le : ∀ {fuel fuel' : ℕ} {m : μ} {buf : List α}, C.rank m ≤ fuel →
    C.rank m ≤ fuel' → C.drain t fuel m buf = C.drain t fuel' m buf := by
  intro fuel
  induction fuel with
  | zero =>
      intro fuel' m buf hrank _
      -- A coroutine of rank zero asks for nothing.
      have hnone : C.waitingOn m t = none := by
        by_contra hask
        rcases Option.ne_none_iff_exists'.1 hask with ⟨n, hn⟩
        have hlt := C.rank_advance m _ buf (C.waitingOn_eq_some_iff.1 hn)
        omega
      rw [C.drain_of_not_waiting hnone, C.drain_of_not_waiting hnone]
  | succ fuel ih =>
      intro fuel' m buf hrank hrank'
      cases hask : C.waitingOn m t with
      | none => rw [C.drain_of_not_waiting hask, C.drain_of_not_waiting hask]
      | some n =>
          by_cases hshort : buf.length < n
          · rw [C.drain_of_short hask hshort, C.drain_of_short hask hshort]
          · have hlt := C.rank_advance m _ (buf.take n) (C.waitingOn_eq_some_iff.1 hask)
            cases fuel' with
            | zero => omega
            | succ fuel' =>
                have hrest :=
                  @ih fuel' (C.advance m (buf.take n)).2 (buf.drop n) (by omega) (by omega)
                simp only [drain, hask, if_neg hshort, hrest]

theorem drain_block (h : C.waitingOn m t = some block.length)
    (hadvance : C.advance m block = (recorded, m')) :
    (C.drain t (C.rank m) m (block ++ buf)).2 = (C.drain t (C.rank m') m' buf).2 := by
  have hlt := C.rank_advance m _ block (C.waitingOn_eq_some_iff.1 h)
  rw [hadvance] at hlt
  dsimp only at hlt
  rw [drain_of_rank_le le_rfl (Nat.le_succ (C.rank m)), C.drain_of_block h hadvance]
  change (C.drain t (C.rank m) m' buf).2 = _
  rw [drain_of_rank_le hlt.le le_rfl]

theorem remnant_of_short (h : C.waitingOn m t = some n) (hshort : buf.length < n) :
    C.remnant t m buf = buf :=
  congrArg (fun result => result.2.2) (C.drain_of_short h hshort)

theorem remnant_of_not_waiting (h : C.waitingOn m t = none) : C.remnant t m buf = buf :=
  congrArg (fun result => result.2.2) (C.drain_of_not_waiting h)

theorem remnant_block (h : C.waitingOn m t = some block.length)
    (hadvance : C.advance m block = (recorded, m')) :
    C.remnant t m (block ++ buf) = C.remnant t m' buf :=
  congrArg Prod.snd (drain_block h hadvance)

theorem length_remnant_le : (C.remnant t m buf).length ≤ buf.length := by
  have hdrained : ∀ (fuel : ℕ) (m : μ) (buf : List α),
      (C.drain t fuel m buf).2.2.length ≤ buf.length := by
    intro fuel
    induction fuel with
    | zero => exact fun m buf => le_rfl
    | succ fuel ih =>
        intro m buf
        unfold drain
        cases C.waitingOn m t with
        | none => exact le_rfl
        | some n =>
            dsimp only
            split_ifs
            · exact le_rfl
            · refine (ih _ _).trans ?_
              rw [List.length_drop]
              exact Nat.sub_le _ _
  exact hdrained _ m buf

theorem remnant_nil : C.remnant t m [] = [] :=
  List.length_eq_zero_iff.1 (Nat.le_zero.1 length_remnant_le)

theorem settle_of_short (h : C.waitingOn m t = some n) (hshort : buf.length < n) :
    C.settle t m buf = { core := m, pending := Function.update (fun _ => []) t buf } := by
  simp [settle, remnant_of_short h hshort, C.drain_of_short h hshort, h]

theorem settle_of_not_waiting (h : C.waitingOn m t = none) :
    C.settle t m buf = { core := m, pending := fun _ => [] } := by
  simp [settle, C.drain_of_not_waiting h, h]

/-- Nothing settles nothing, unless a block without bytes is asked for. -/
theorem settle_nil (h : C.waitingOn m t ≠ some 0) :
    C.settle t m [] = { core := m, pending := fun _ => [] } := by
  cases hask : C.waitingOn m t with
  | none => exact settle_of_not_waiting hask
  | some n =>
      have hpos : 0 < n := Nat.pos_of_ne_zero fun hzero => h (hask.trans (congrArg some hzero))
      rw [settle_of_short hask (by simpa using hpos), Function.update_eq_self]

/-- A block in front of a buffer is taken first. -/
theorem settle_block (h : C.waitingOn m t = some block.length)
    (hadvance : C.advance m block = (recorded, m')) :
    C.settle t m (block ++ buf) = C.settle t m' buf := by
  simp only [settle, remnant, drain_block h hadvance]

/-- A chunk settles what is held back with the chunk behind it. -/
theorem feed_settle {pending data : List α} (h : C.waitingOn m t = some n)
    (hshort : pending.length < n) :
    (C.feed { core := m, pending := Function.update (fun _ => []) t pending } t data).2 =
      C.settle t m (pending ++ data) := by
  by_cases hdata : data = []
  · rw [hdata, List.append_nil, settle_of_short h hshort]
    rfl
  · have hbuf : Function.update (fun _ => ([] : List α)) t pending t = pending :=
      Function.update_self _ _ _
    unfold feed settle remnant
    dsimp only
    rw [if_neg (by simpa using hdata), h, hbuf, if_neg (by simp)]
    cases C.waitingOn (C.drain t (C.rank m) m (pending ++ data)).2.1 t with
    | none => simp
    | some _ => simp

theorem feed_fresh {data : List α} (h : C.waitingOn m t = some n) (hpos : 0 < n) :
    (C.feed { core := m, pending := fun _ => [] } t data).2 = C.settle t m data := by
  have hfeed := @feed_settle _ _ _ _ C t m n [] data h (by simpa using hpos)
  rwa [Function.update_eq_self, List.nil_append] at hfeed

/-- A tap that is not asked lets a chunk through. -/
theorem feed_of_not_waiting {s : Tapped τ μ α} {data : List α} (h : C.waitingOn s.core t = none)
    (hempty : s.pending t = []) : (C.feed s t data).2 = s := by
  have hsame : Function.update s.pending t [] = s.pending := by
    rw [← hempty, Function.update_eq_self]
  unfold feed
  split_ifs
  · rfl
  · rw [hsame]
  · rename_i _ hwaits
    exact absurd (Option.isNone_iff_eq_none.2 h) hwaits

end Coroutine

end Streaming
