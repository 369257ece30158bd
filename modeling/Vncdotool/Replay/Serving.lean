import Vncdotool.Replay.Pacing
import Vncdotool.Streaming.Duplex

/-!
# Serving — what a replay server has written, told from what its client has said

`Pacing.lean` bounds what is written from above.  Here the server is also shown to go on as far as
it can: between two deliveries it `Waits` for the client.  So for a recording whose handshake is
known, the bytes written are a function of the bytes received: `served`.
-/

namespace Vncdotool

open Wire Streaming

/-! ## The request is found as soon as it is there -/

/-- Two measurements of one message agree. -/
theorem CompleteMessage.toNat_eq {b : Bytes} {n : ℕ} (h : CompleteMessage b n) :
    (lengthOfKind b (MsgC2S.lookup (field b 0 1))).toNat = n := by
  rw [h.length_eq]
  rfl

theorem takeMessages_of_requests {b : Bytes} (h : Requests b) :
    ∀ {fuel : ℕ}, b.length ≤ fuel → (takeMessages fuel b).1 = true := by
  -- By the messages that are skipped before the request.
  induction h with
  | @request b n hmessage hkind =>
      intro fuel hfuel
      have hpos := List.length_pos_iff.2 (ne_nil_of_length_ok hmessage.1)
      have hlength := hmessage.length_eq
      cases fuel with
      | zero => exact absurd hpos (by omega)
      | succ fuel =>
          unfold takeMessages
          have hnil : b.isEmpty = false := by simpa using ne_nil_of_length_ok hmessage.1
          dsimp only
          rw [hnil, if_neg Bool.false_ne_true, hlength, if_neg (by unfold unknownMessage; omega),
            if_neg, if_pos hkind]
          have hle := hmessage.2
          unfold needMore
          omega
  | @unknown b hunknown =>
      intro fuel hfuel
      have hpos := List.length_pos_iff.2 (ne_nil_of_length_ok hunknown)
      have hlength := clientMessageLength_of_pos hpos
      rw [hunknown] at hlength
      cases fuel with
      | zero => exact absurd hpos (by omega)
      | succ fuel =>
          unfold takeMessages
          have hnil : b.isEmpty = false := by simpa using ne_nil_of_length_ok hunknown
          dsimp only
          rw [hnil, if_neg Bool.false_ne_true, if_pos (Except.ok.inj hlength).symm]
  | @skip b n hmessage hrest ih =>
      intro fuel hfuel
      have hne := ne_nil_of_length_ok hmessage.1
      have hpos := List.length_pos_iff.2 hne
      have hlength := hmessage.length_eq
      have hle := hmessage.2
      cases fuel with
      | zero => exact absurd hpos (by omega)
      | succ fuel =>
          have hunknown : lengthOfKind b (MsgC2S.lookup (field b 0 1)) ≠ unknownMessage := by
            rw [hlength]
            unfold unknownMessage
            omega
          have hlong : ¬ (lengthOfKind b (MsgC2S.lookup (field b 0 1)) = needMore ∨
              b.length < lengthOfKind b (MsgC2S.lookup (field b 0 1))) := by
            rw [hlength]
            unfold needMore
            omega
          have hsome := (completeMessage_of_lengthOfKind hne hunknown hlong).2
          rw [hmessage.toNat_eq] at hsome
          unfold takeMessages
          have hnil : b.isEmpty = false := by simpa using hne
          dsimp only
          rw [hnil, if_neg Bool.false_ne_true, if_neg hunknown, if_neg hlong, hmessage.toNat_eq]
          split_ifs with hkind
          · rfl
          · refine ih ?_
            rw [List.length_drop]
            omega

theorem saw_iff_requests {b : Bytes} : (sawUpdateRequest b).1 = true ↔ Requests b :=
  ⟨requests_of_saw, fun h => takeMessages_of_requests h (Nat.le_refl _)⟩

/-- Taking messages off `b` that ask for no framebuffer leaves `b'`. -/
inductive Passes : Bytes → Bytes → Prop
  | refl (b : Bytes) : Passes b b
  | pass {b b' : Bytes} {n : ℕ} (h : CompleteMessage b n)
      (hkind : MsgC2S.lookup (field b 0 1) ≠ some .framebufferUpdateRequest)
      (hrest : Passes (b.drop n) b') : Passes b b'

theorem Passes.trans {b b' b'' : Bytes} (h : Passes b b') (h' : Passes b' b'') : Passes b b'' := by
  induction h with
  | refl b => exact h'
  | pass hmessage hkind _ ih => exact Passes.pass hmessage hkind (ih h')

theorem Passes.append {b b' : Bytes} (h : Passes b b') (x : Bytes) : Passes (b ++ x) (b' ++ x) := by
  induction h with
  | refl b => exact Passes.refl (b ++ x)
  | @pass b b' n hmessage hkind hrest ih =>
      have hpos : 1 ≤ b.length := List.length_pos_iff.2 (ne_nil_of_length_ok hmessage.1)
      refine Passes.pass (hmessage.append x) ?_ ?_
      · rw [field_append_left b x hpos]
        exact hkind
      · rw [List.drop_append_of_le_length hmessage.2]
        exact ih

/-- A request is not among the messages that were passed over. -/
theorem Passes.requests {b b' : Bytes} (h : Passes b b') : Requests b → Requests b' := by
  induction h with
  | refl b => exact id
  | @pass b b' n hmessage hkind _ ih =>
      intro hrequests
      cases hrequests with
      | request _ hrequest => exact absurd hrequest hkind
      | unknown hunknown =>
          have heq := Except.ok.inj (hmessage.1.symm.trans hunknown)
          unfold unknownMessage at heq
          exact absurd heq (by omega)
      | @skip _ m hmessage' hrest =>
          have heq := Except.ok.inj (hmessage'.1.symm.trans hmessage.1)
          rw [Int.ofNat_inj.1 heq] at hrest
          exact ih hrest

/-- A request behind messages that are passed over is found. -/
theorem Passes.of_requests {b b' : Bytes} (h : Passes b b') (hb' : Requests b') : Requests b := by
  induction h with
  | refl b => exact hb'
  | pass hmessage _ _ ih => exact Requests.skip hmessage (ih hb')

/-- What `saw_update_request` takes off without having seen a request. -/
theorem passes_takeMessages {fuel : ℕ} : ∀ {b : Bytes}, (takeMessages fuel b).1 = false →
    Passes b (takeMessages fuel b).2 := by
  induction fuel with
  | zero => exact fun {b} _ => Passes.refl b
  | succ fuel ih =>
      intro b
      unfold takeMessages
      by_cases hnil : b.isEmpty
      · rw [if_pos hnil]
        exact fun _ => Passes.refl b
      · rw [if_neg hnil]
        have hne : b ≠ [] := by simpa using hnil
        dsimp only
        by_cases hunknown : lengthOfKind b (MsgC2S.lookup (field b 0 1)) = unknownMessage
        · rw [if_pos hunknown]
          exact fun h => absurd h.symm Bool.false_ne_true
        · rw [if_neg hunknown]
          by_cases hlong : lengthOfKind b (MsgC2S.lookup (field b 0 1)) = needMore ∨
              b.length < lengthOfKind b (MsgC2S.lookup (field b 0 1))
          · rw [if_pos hlong]
            exact fun _ => Passes.refl b
          · rw [if_neg hlong]
            rcases completeMessage_of_lengthOfKind hne hunknown hlong with ⟨hmessage, _⟩
            by_cases hkind : MsgC2S.lookup (field b 0 1) = some .framebufferUpdateRequest
            · rw [if_pos hkind]
              exact fun h => absurd h.symm Bool.false_ne_true
            · rw [if_neg hkind]
              exact fun h => Passes.pass hmessage hkind (ih h)

/-! ## The version is settled once -/

namespace HandshakeScrubber

/-- Only the client's reply settles the version. -/
theorem negotiatedVersion_resume (s : HandshakeScrubber) (sent : Bytes) {suspension : Suspension}
    (h : suspension ≠ .clientHead) :
    (s.resume sent suspension).negotiatedVersion = s.negotiatedVersion := by
  have hend (s : HandshakeScrubber) (negotiated : Ver) (sectype : ℕ) :
      (s.endAuth negotiated sectype).negotiatedVersion = s.negotiatedVersion := by
    unfold endAuth
    split_ifs <;> rfl
  have hgive (s : HandshakeScrubber) (why : AbortReason) :
      (s.giveUp why).finish.negotiatedVersion = s.negotiatedVersion := by
    unfold giveUp
    split_ifs <;> rfl
  have hbegin (s : HandshakeScrubber) (negotiated : Ver) (sectype : ℕ) :
      (s.beginAuth negotiated sectype).negotiatedVersion = s.negotiatedVersion := by
    unfold beginAuth
    split_ifs
    · rfl
    · rfl
    · exact hgive _ _
    · exact hend _ _ _
  cases suspension with
  | clientHead => exact absurd rfl h
  | serverHead => rfl
  | numTypes negotiated =>
      simp only [resume]
      split_ifs <;> rfl
  | types negotiated n => rfl
  | sectype negotiated => exact hbegin _ _ _
  | auth negotiated =>
      simp only [resume]
      split_ifs
      · rfl
      · exact hbegin _ _ _
  | challenge negotiated => rfl
  | response negotiated => exact hend _ _ _
  | ardHead negotiated => rfl
  | ardModulus negotiated keyLen => rfl
  | ardServerKey negotiated keyLen => rfl
  | ardCredentials negotiated keyLen => rfl
  | ardClientKey negotiated keyLen => exact hend _ _ _
  | securityResult negotiated =>
      simp only [resume]
      split_ifs <;> rfl
  | clientInit => rfl
  | serverInit =>
      simp only [resume]
      split_ifs <;> rfl
  | serverName n => rfl

/-- A scrubber that knows the version is past the client's reply. -/
def Placed (s : HandshakeScrubber) : Prop :=
  s.negotiatedVersion ≠ none → s.rank < 13

/-- What a step asks about, and what it makes of the version. -/
theorem step_version {m m' : HandshakeScrubber} {turn : Turn Tap UInt8}
    (hwant : grammar.want m = some (turn.tap, turn.bytes.length))
    (hadvance : grammar.advance m turn.bytes = (turn.recorded, m')) (hplaced : m.Placed) :
    m'.Placed ∧ ∀ v, m.negotiatedVersion = some v → m'.negotiatedVersion = some v := by
  have hsend : m' = m.send turn.bytes := by
    rw [← advance_snd]
    exact (congrArg Prod.snd hadvance).symm
  have hlower : m'.rank < m.rank := by
    have hlt := rank_advance m _ turn.bytes hwant
    rwa [advance_snd, ← hsend] at hlt
  rcases Option.map_eq_some_iff.1 hwant with ⟨suspension, hgen, -⟩
  have hrank : m.rank = suspension.rank := by rw [rank, hgen]
  have hresume : m' = ({ m with recording := none } : HandshakeScrubber).resume turn.bytes
      suspension := by
    rw [hsend, send, hgen]
  have hknown : m.negotiatedVersion ≠ none → suspension ≠ .clientHead := by
    rintro hsome rfl
    have hlt := hplaced hsome
    rw [hrank] at hlt
    exact absurd hlt (by decide)
  constructor
  · intro hsome
    by_cases hserver : suspension = .serverHead
    -- The greeting comes before the reply.
    · subst hserver
      rw [hresume, negotiatedVersion_resume _ _ (by decide)] at hsome
      have hlt := hplaced hsome
      rw [hrank] at hlt
      exact absurd hlt (by decide)
    · have hle : suspension.rank ≤ 13 := by
        cases suspension with
        | serverHead => exact absurd rfl hserver
        | _ => simp [Suspension.rank]
      omega
  · intro v hv
    rw [hresume, negotiatedVersion_resume _ _ (hknown (by rw [hv]; exact Option.some_ne_none v))]
    exact hv

theorem placed_of_follows {m m' : HandshakeScrubber} {script : List (Turn Tap UInt8)}
    (h : Follows grammar m script m') (hplaced : m.Placed) :
    m'.Placed ∧ ∀ v, m.negotiatedVersion = some v → m'.negotiatedVersion = some v := by
  induction h with
  | nil m => exact ⟨hplaced, fun _ => id⟩
  | cons hwant hadvance _ ih =>
      rcases step_version hwant hadvance hplaced with ⟨hnext, hkept⟩
      rcases ih hnext with ⟨hlast, hrest⟩
      exact ⟨hlast, fun v hv => hrest v (hkept v hv)⟩

end HandshakeScrubber

namespace ReplayProtocol

variable {p : ReplayProtocol} {done : List (Turn Tap UInt8)} {cs : Bytes}

/-! ## The server goes on as far as it can -/

/-- Nothing is written before the client speaks. -/
inductive Waits (p : ReplayProtocol) (done : List (Turn Tap UInt8)) (cs : Bytes) : Prop
  | exhausted (h : p.exhausted = true)
  | block {n : ℕ} (hopen : p.awaitingRequest = false)
      (hwant : p.scrubber.core.want = some (.c2s, n)) (hshort : p.buffer.length < n)
  | request (hawaiting : p.awaitingRequest = true)
      (hpasses : Passes (cs.drop (tapBytes .c2s done).length) p.buffer) (hnone : ¬ Requests p.buffer)

/-- There is only one dialogue the grammar can have followed. -/
theorem Standing.unique {done' : List (Turn Tap UInt8)} {cs' : Bytes} (h : Standing p done cs)
    (h' : Standing p done' cs') (hcs : cs <+: cs') : done = done' := by
  have hnil {rest : List (Turn Tap UInt8)} {core : HandshakeScrubber}
      (hrest : Follows HandshakeScrubber.grammar core rest core) : rest = [] := by
    have hle := hrest.rank_le
    exact List.length_eq_zero_iff.1 (by omega)
  have hdone : ∀ tap, tapBytes tap done <+: streams p.capture.s2c cs' tap := by
    intro tap
    cases tap with
    | s2c => exact h.recorded
    | c2s => exact h.replied.trans hcs
  have hdone' : ∀ tap, tapBytes tap done' <+: streams p.capture.s2c cs' tap := by
    intro tap
    cases tap with
    | s2c => exact h'.recorded
    | c2s => exact h'.replied
  rcases h.follows.comparable h'.follows hdone hdone' with ⟨rest, rfl⟩ | ⟨rest, rfl⟩
  · rcases h'.follows.split with ⟨core, hcore, hrest⟩
    cases hcore.deterministic h.follows
    rw [hnil hrest, List.append_nil]
  · rcases h.follows.split with ⟨core, hcore, hrest⟩
    cases hcore.deterministic h'.follows
    rw [hnil hrest, List.append_nil]

theorem scrubber_serveSession (p : ReplayProtocol) : p.serveSession.scrubber = p.scrubber := by
  unfold serveSession
  dsimp only
  split_ifs <;> rfl

theorem Standing.serve (h : Standing p done cs) : Standing p.serveSession done cs := by
  have hscrubber := scrubber_serveSession p
  have hcapture := capture_serveSession p
  refine ⟨?_, ?_, ?_, h.replied, ?_⟩
  · rw [hscrubber]
    exact h.follows
  · rw [hscrubber]
    exact h.pending
  · rw [hcapture]
    exact h.recorded
  · rw [hscrubber]
    exact h.asks

theorem waits_serveSession
    (hpasses : Passes (cs.drop (tapBytes .c2s done).length) p.buffer) :
    p.serveSession.Waits done cs := by
  have hbuffer : (if !p.awaitingRequest && p.scrubber.core.want.isNone &&
      p.scrubber.core.width.isSome then { p with awaitingRequest := true } else p).buffer =
      p.buffer := by
    split_ifs <;> rfl
  rw [← hbuffer] at hpasses
  unfold serveSession
  dsimp only
  generalize (if !p.awaitingRequest && p.scrubber.core.want.isNone && p.scrubber.core.width.isSome
    then { p with awaitingRequest := true } else p) = q at hpasses ⊢
  cases hheld : q.awaitingRequest with
  | false =>
      rw [if_neg Bool.false_ne_true, if_pos rfl]
      exact Waits.exhausted rfl
  | true =>
      rw [if_pos rfl]
      cases hsaw : (sawUpdateRequest q.buffer).1 with
      | true =>
          rw [if_pos rfl]
          exact Waits.exhausted rfl
      | false =>
          rw [if_neg Bool.false_ne_true]
          refine Waits.request rfl (hpasses.trans (passes_takeMessages hsaw)) ?_
          intro hrequests
          have hall := (skips_of_not_saw hsaw).requests hrequests
          rw [← saw_iff_requests, hsaw] at hall
          exact Bool.false_ne_true hall

/-- The server stands somewhere, and waits there. -/
def Stands (p : ReplayProtocol) (cs : Bytes) : Prop :=
  ∃ done, Standing p done cs ∧ p.Waits done cs

theorem stands_advanceLoop {fuel : ℕ} : ∀ {p : ReplayProtocol} {done : List (Turn Tap UInt8)},
    p.scrubber.core.rank < fuel → Standing p done cs → Driving p done cs →
      (advanceLoop fuel p).Stands cs := by
  induction fuel with
  | zero => exact fun hrank => absurd hrank (Nat.not_lt_zero _)
  | succ fuel ih =>
      intro p done hrank hstanding hdriving
      have hserve : p.serveSession.Stands cs := by
        refine ⟨done, hstanding.serve, waits_serveSession ?_⟩
        rw [hdriving.buffer, List.drop_left]
        exact Passes.refl _
      unfold advanceLoop turn
      cases hwant : p.scrubber.core.want with
      | none => exact hserve
      | some w =>
          rcases w with ⟨tap, n⟩
          cases tap with
          | s2c =>
              dsimp only
              by_cases hshort : (slice p.capture.s2c p.pos n).length < n
              · rw [if_pos hshort]
                exact hserve
              · rw [if_neg hshort]
                -- A block of the server is written, and the rank of the generator falls.
                rcases hstanding.write hdriving hwant hshort with ⟨done', hstanding', hdriving', hlt⟩
                exact ih (Nat.lt_of_lt_of_le hlt (Nat.lt_succ_iff.1 hrank)) hstanding' hdriving'
          | c2s =>
              dsimp only
              by_cases hshort : p.buffer.length < n
              · rw [if_pos hshort]
                exact ⟨done, hstanding, Waits.block hdriving.awaiting hwant hshort⟩
              · rw [if_neg hshort]
                -- A block of the client is taken; the one with the version may be refused.
                rcases hstanding.read hdriving hwant hshort with ⟨done', hstanding', hdriving', hlt⟩
                dsimp only at hstanding' hdriving' hlt
                rcases versionMismatch_cases
                    { p with
                      buffer := p.buffer.drop n
                      scrubber := (p.scrubber.feed .c2s (p.buffer.take n)).2 } with
                  ⟨checked, hversion⟩ | hversion
                · rw [hversion]
                  refine @ih _ done' (Nat.lt_of_lt_of_le hlt (Nat.lt_succ_iff.1 hrank)) ?_ ?_
                  · exact ⟨hstanding'.follows, hstanding'.pending, hstanding'.recorded,
                      hstanding'.replied, hstanding'.asks⟩
                  · exact ⟨hdriving'.exhausted, hdriving'.awaiting, hdriving'.written,
                      hdriving'.pos, hdriving'.buffer⟩
                · rw [hversion]
                  exact ⟨done', ⟨hstanding'.follows, hstanding'.pending, hstanding'.recorded,
                    hstanding'.replied, hstanding'.asks⟩, Waits.exhausted rfl⟩

/-- Behind the handshake the client's messages have been passed over so far. -/
def Passing (p : ReplayProtocol) (cs : Bytes) : Prop :=
  p.awaitingRequest = true → p.exhausted = false →
    ∀ done, Standing p done cs → Passes (cs.drop (tapBytes .c2s done).length) p.buffer

theorem Paced.stands_advance (h : Paced p cs) (hpassing : p.Passing cs) : p.advance.Stands cs := by
  rcases h with ⟨done, hstanding, hphase⟩
  unfold ReplayProtocol.advance
  cases hphase with
  | handshake hdriving =>
      rw [hdriving.exhausted, if_neg Bool.false_ne_true]
      exact stands_advanceLoop (Nat.lt_succ_self _) hstanding hdriving
  | awaiting hexhausted hawaiting _ _ hwant _ _ =>
      rw [hexhausted, if_neg Bool.false_ne_true, advanceLoop, turn, hwant]
      exact ⟨done, hstanding.serve,
        waits_serveSession (hpassing hawaiting hexhausted done hstanding)⟩
  | refused hexhausted _ _ _ =>
      rw [hexhausted, if_pos rfl]
      exact ⟨done, hstanding, Waits.exhausted hexhausted⟩
  | served hexhausted _ _ _ =>
      rw [hexhausted, if_pos rfl]
      exact ⟨done, hstanding, Waits.exhausted hexhausted⟩

/-- What is heard next goes behind the messages that were passed over. -/
theorem Stands.receive (h : p.Stands cs) (data : Bytes) :
    Passing { p with buffer := p.buffer ++ data } (cs ++ data) := by
  rcases h with ⟨done, hstanding, hwaits⟩
  intro hawaiting hexhausted done' hstanding'
  have hsame : Standing p done' (cs ++ data) :=
    ⟨hstanding'.follows, hstanding'.pending, hstanding'.recorded, hstanding'.replied,
      hstanding'.asks⟩
  rw [← hstanding.unique hsame (List.prefix_append _ _)]
  cases hwaits with
  | exhausted hdone => exact nomatch hexhausted.symm.trans hdone
  | block hopen _ _ => exact nomatch hawaiting.symm.trans hopen
  | request _ hpasses _ =>
      rw [List.drop_append_of_le_length hstanding.replied.length_le]
      exact hpasses.append data

/-! ## A client is sent away for its version alone -/

/-- The client has negotiated another version than the recorded one. -/
def Mismatched (p : ReplayProtocol) : Prop :=
  ∃ archived negotiated, p.capture.negotiatedVersion = some archived ∧
    p.scrubber.core.negotiatedVersion = some negotiated ∧ archived ≠ negotiated

theorem disconnecting_serveSession (p : ReplayProtocol) :
    p.serveSession.disconnecting = p.disconnecting := by
  unfold serveSession
  dsimp only
  split_ifs <;> rfl

theorem mismatched_of_versionMismatch (hopen : p.disconnecting = false)
    (h : p.versionMismatch.2.disconnecting = true) : p.versionMismatch.2.Mismatched := by
  unfold versionMismatch at h ⊢
  cases hchecked : p.versionChecked with
  | true =>
      rw [hchecked] at h
      exact absurd (hopen.symm.trans h) Bool.false_ne_true
  | false =>
      rw [hchecked] at h
      cases hcore : p.scrubber.core.negotiatedVersion with
      | none =>
          rw [hcore] at h
          exact absurd (hopen.symm.trans h) Bool.false_ne_true
      | some negotiated =>
          rw [hcore] at h
          dsimp only at h ⊢
          cases harchived : p.capture.negotiatedVersion with
          | none =>
              rw [harchived] at h
              exact absurd (hopen.symm.trans h) Bool.false_ne_true
          | some archived =>
              rw [harchived] at h
              dsimp only at h ⊢
              by_cases heq : archived = negotiated
              · rw [if_pos heq] at h
                exact absurd (hopen.symm.trans h) Bool.false_ne_true
              · rw [if_neg heq]
                exact ⟨archived, negotiated, harchived, hcore, heq⟩

theorem mismatched_advanceLoop {fuel : ℕ} : ∀ {p : ReplayProtocol}, p.disconnecting = false →
    (advanceLoop fuel p).disconnecting = true → (advanceLoop fuel p).Mismatched := by
  induction fuel with
  | zero => exact fun hopen h => absurd (hopen.symm.trans h) Bool.false_ne_true
  | succ fuel ih =>
      intro p hopen h
      unfold advanceLoop turn at h ⊢
      cases hwant : p.scrubber.core.want with
      | none =>
          rw [hwant] at h
          exact absurd (((disconnecting_serveSession p).trans hopen).symm.trans h)
            Bool.false_ne_true
      | some w =>
          rw [hwant] at h
          rcases w with ⟨tap, n⟩
          cases tap with
          | s2c =>
              dsimp only at h ⊢
              by_cases hshort : (slice p.capture.s2c p.pos n).length < n
              · rw [if_pos hshort] at h
                exact absurd (((disconnecting_serveSession p).trans hopen).symm.trans h)
                  Bool.false_ne_true
              · rw [if_neg hshort] at h ⊢
                exact ih hopen h
          | c2s =>
              dsimp only at h ⊢
              by_cases hshort : p.buffer.length < n
              · rw [if_pos hshort] at h
                exact absurd (hopen.symm.trans h) Bool.false_ne_true
              · rw [if_neg hshort] at h ⊢
                have hmismatch := @mismatched_of_versionMismatch
                  { p with
                    buffer := p.buffer.drop n
                    scrubber := (p.scrubber.feed .c2s (p.buffer.take n)).2 } hopen
                rcases versionMismatch_cases
                    { p with
                      buffer := p.buffer.drop n
                      scrubber := (p.scrubber.feed .c2s (p.buffer.take n)).2 } with
                  ⟨checked, hversion⟩ | hversion
                · rw [hversion] at h ⊢
                  exact ih hopen h
                · rw [hversion] at h hmismatch ⊢
                  exact hmismatch rfl

theorem mismatched_advance (hkept : p.disconnecting = true → p.Mismatched)
    (hclosed : p.disconnecting = true → p.exhausted = true) :
    (p.advance.disconnecting = true → p.advance.Mismatched) := by
  intro h
  unfold ReplayProtocol.advance at h ⊢
  cases hexhausted : p.exhausted with
  | true =>
      rw [hexhausted, if_pos rfl] at h
      rw [if_pos rfl]
      exact hkept h
  | false =>
      rw [hexhausted, if_neg Bool.false_ne_true] at h
      rw [if_neg Bool.false_ne_true]
      refine mismatched_advanceLoop ?_ h
      by_contra hne
      rw [hclosed (by simpa using hne)] at hexhausted
      exact absurd hexhausted.symm Bool.false_ne_true

/-! ## Between two deliveries -/

/-- What a server is like when `cs` is what it has heard. -/
structure Standby (p : ReplayProtocol) (cs : Bytes) : Prop where
  paced : Paced p cs
  stands : p.Stands cs
  mismatched : p.disconnecting = true → p.Mismatched
  closed : p.disconnecting = true → p.exhausted = true

theorem closed_serveSession (hopen : p.disconnecting = true → p.exhausted = true) :
    p.serveSession.disconnecting = true → p.serveSession.exhausted = true := by
  rw [disconnecting_serveSession]
  intro h
  have hexhausted := hopen h
  unfold serveSession
  dsimp only
  split_ifs <;> first | rfl | exact hexhausted

theorem closed_advanceLoop {fuel : ℕ} : ∀ {p : ReplayProtocol},
    (p.disconnecting = true → p.exhausted = true) →
      (advanceLoop fuel p).disconnecting = true → (advanceLoop fuel p).exhausted = true := by
  induction fuel with
  | zero => exact fun hopen => hopen
  | succ fuel ih =>
      intro p hopen
      unfold advanceLoop turn
      cases p.scrubber.core.want with
      | none => exact closed_serveSession hopen
      | some w =>
          rcases w with ⟨tap, n⟩
          cases tap with
          | s2c =>
              dsimp only
              split_ifs
              · exact closed_serveSession hopen
              · exact ih hopen
          | c2s =>
              dsimp only
              split_ifs
              · exact hopen
              · rcases versionMismatch_cases
                    { p with
                      buffer := p.buffer.drop n
                      scrubber := (p.scrubber.feed .c2s (p.buffer.take n)).2 } with
                  ⟨checked, hversion⟩ | hversion
                · rw [hversion]
                  exact ih hopen
                · rw [hversion]
                  exact fun _ => rfl

theorem Standby.of_advance (hpaced : Paced p cs) (hpassing : p.Passing cs)
    (hmismatched : p.disconnecting = true → p.Mismatched)
    (hclosed : p.disconnecting = true → p.exhausted = true) : Standby p.advance cs := by
  refine ⟨hpaced.advance, hpaced.stands_advance hpassing, mismatched_advance hmismatched hclosed, ?_⟩
  unfold ReplayProtocol.advance
  split_ifs
  · exact hclosed
  · exact closed_advanceLoop hclosed

theorem standby_connectionMade (capture : Capture) : Standby (connectionMade capture) [] := by
  have hpaced : Paced { capture := capture } [] := by
    refine ⟨[], ⟨Follows.nil _, rfl, List.nil_prefix, List.nil_prefix, ?_⟩,
      Phase.handshake ⟨rfl, rfl, rfl, rfl, rfl⟩⟩
    intro tap n hwant
    cases hwant
    decide
  exact Standby.of_advance hpaced (fun h => absurd h Bool.false_ne_true)
    (fun h => absurd h Bool.false_ne_true) fun h => absurd h Bool.false_ne_true

/-- Whether a byte was ever received changes nothing else. -/
theorem Standby.touch (h : Standby p cs) : Standby { p with served := true } cs := by
  refine ⟨?_, ?_, h.mismatched, h.closed⟩
  · rcases h.paced with ⟨done, hstanding, hphase⟩
    refine ⟨done, ⟨hstanding.follows, hstanding.pending, hstanding.recorded, hstanding.replied,
      hstanding.asks⟩, ?_⟩
    cases hphase with
    | handshake hdriving =>
        exact Phase.handshake ⟨hdriving.exhausted, hdriving.awaiting, hdriving.written,
          hdriving.pos, hdriving.buffer⟩
    | awaiting hexhausted hawaiting hwritten hpos hwant hwidth hskips =>
        exact Phase.awaiting hexhausted hawaiting hwritten hpos hwant hwidth hskips
    | refused hexhausted hclosed hwritten hpos =>
        exact Phase.refused hexhausted hclosed hwritten hpos
    | served hexhausted hwritten hpos hreleased =>
        refine Phase.served hexhausted hwritten hpos ?_
        cases hreleased with
        | unpaced hwant hwidth => exact Released.unpaced hwant hwidth
        | truncated hwant hshort => exact Released.truncated hwant hshort
        | requested hwant hrequest => exact Released.requested hwant hrequest
  · rcases h.stands with ⟨done, hstanding, hwaits⟩
    refine ⟨done, ⟨hstanding.follows, hstanding.pending, hstanding.recorded, hstanding.replied,
      hstanding.asks⟩, ?_⟩
    cases hwaits with
    | exhausted hexhausted => exact Waits.exhausted hexhausted
    | block hopen hwant hshort => exact Waits.block hopen hwant hshort
    | request hawaiting hpasses hnone => exact Waits.request hawaiting hpasses hnone

/-- The server stands by again when it has heard more. -/
theorem Standby.dataReceived (h : Standby p cs) (data : Bytes) :
    Standby (p.dataReceived data) (cs ++ data) := by
  have hpaced := h.paced.dataReceived data
  have htouched : Standby (if data.isEmpty then p else { p with served := true }) cs := by
    split_ifs
    · exact h
    · exact h.touch
  unfold ReplayProtocol.dataReceived at hpaced ⊢
  dsimp only at hpaced ⊢
  generalize (if data.isEmpty then p else { p with served := true }) = q at hpaced htouched ⊢
  by_cases hexhausted : q.exhausted = true
  · rw [if_pos hexhausted] at hpaced ⊢
    refine ⟨hpaced, ?_, htouched.mismatched, htouched.closed⟩
    rcases htouched.stands with ⟨done, hstanding, _⟩
    exact ⟨done, ⟨hstanding.follows, hstanding.pending, hstanding.recorded,
      hstanding.replied.trans (List.prefix_append cs data), hstanding.asks⟩,
      Waits.exhausted hexhausted⟩
  · rw [if_neg hexhausted]
    exact Standby.of_advance
      (htouched.paced.receive (Bool.eq_false_of_not_eq_true hexhausted) data)
      (htouched.stands.receive data) htouched.mismatched htouched.closed

/-! ## What has been written -/

/-- The messages of a script up to the first one that the client has not said. -/
def reached : List (Turn Tap UInt8) → Bytes → List (Turn Tap UInt8)
  | [], _ => []
  | turn :: rest, cs =>
      match turn.tap with
      | .s2c => turn :: reached rest cs
      | .c2s =>
          if turn.bytes.length ≤ cs.length then turn :: reached rest (cs.drop turn.bytes.length)
          else []

/-- The bytes of the recording for a client that has said `cs`: the blocks of the handshake that
follow on what it said, or everything once it has asked for a framebuffer. -/
def servedTo (script : List (Turn Tap UInt8)) (s2c cs : Bytes) : Bytes :=
  if (sawUpdateRequest (cs.drop (tapBytes .c2s script).length)).1 then s2c
  else tapBytes .s2c (reached script cs)

theorem reached_prefix (script : List (Turn Tap UInt8)) :
    ∀ cs, reached script cs <+: script := by
  induction script with
  | nil => exact fun _ => List.prefix_refl _
  | cons turn rest ih =>
      intro cs
      unfold reached
      cases turn.tap with
      | s2c => exact List.cons_prefix_cons.2 ⟨rfl, ih cs⟩
      | c2s =>
          dsimp only
          split_ifs
          · exact List.cons_prefix_cons.2 ⟨rfl, ih _⟩
          · exact List.nil_prefix

theorem reached_mono (script : List (Turn Tap UInt8)) :
    ∀ {cs cs'}, cs <+: cs' → reached script cs <+: reached script cs' := by
  induction script with
  | nil => exact fun _ => List.prefix_refl _
  | cons turn rest ih =>
      intro cs cs' hleads
      unfold reached
      cases turn.tap with
      | s2c => exact List.cons_prefix_cons.2 ⟨rfl, ih hleads⟩
      | c2s =>
          dsimp only
          by_cases hsaid : turn.bytes.length ≤ cs.length
          · rw [if_pos hsaid, if_pos (hsaid.trans hleads.length_le)]
            exact List.cons_prefix_cons.2 ⟨rfl, ih (hleads.drop _)⟩
          · rw [if_neg hsaid]
            exact List.nil_prefix

/-- What is reached ends where a message is missing. -/
theorem reached_of_missing {turn : Turn Tap UInt8} {rest : List (Turn Tap UInt8)}
    (htap : turn.tap = .c2s) :
    ∀ {done : List (Turn Tap UInt8)} {cs : Bytes}, (tapBytes .c2s done).length ≤ cs.length →
      cs.length < (tapBytes .c2s done).length + turn.bytes.length →
      reached (done ++ turn :: rest) cs = done := by
  intro done
  induction done with
  | nil =>
      intro cs _ hmissing
      have hshort : ¬ turn.bytes.length ≤ cs.length := by
        simp only [tapBytes_nil, List.length_nil] at hmissing
        omega
      rw [List.nil_append, reached, htap]
      exact if_neg hshort
  | cons first done ih =>
      intro cs hsaid hmissing
      rw [tapBytes_cons, List.length_append] at hsaid hmissing
      rw [List.cons_append, reached]
      cases hfirst : first.tap with
      | s2c =>
          rw [hfirst, if_neg (by decide), List.length_nil, Nat.zero_add] at hsaid hmissing
          exact congrArg _ (ih hsaid hmissing)
      | c2s =>
          rw [hfirst, if_pos rfl] at hsaid hmissing
          dsimp only
          rw [if_pos (by omega), ih]
          · rw [List.length_drop]
            omega
          · rw [List.length_drop]
            omega

theorem reached_of_said {script : List (Turn Tap UInt8)} :
    ∀ {cs : Bytes}, (tapBytes .c2s script).length ≤ cs.length → reached script cs = script := by
  induction script with
  | nil => exact fun _ => rfl
  | cons first script ih =>
      intro cs hsaid
      rw [tapBytes_cons, List.length_append] at hsaid
      rw [reached]
      cases hfirst : first.tap with
      | s2c =>
          rw [hfirst, if_neg (by decide), List.length_nil, Nat.zero_add] at hsaid
          exact congrArg _ (ih hsaid)
      | c2s =>
          rw [hfirst, if_pos rfl] at hsaid
          dsimp only
          rw [if_pos (by omega), ih]
          rw [List.length_drop]
          omega

/-- What is reached goes at least as far as the client's messages. -/
theorem prefix_reached {done : List (Turn Tap UInt8)} (rest : List (Turn Tap UInt8)) :
    ∀ {cs : Bytes}, (tapBytes .c2s done).length ≤ cs.length → done <+: reached (done ++ rest) cs := by
  induction done with
  | nil => exact fun _ => List.nil_prefix
  | cons first done ih =>
      intro cs hsaid
      rw [tapBytes_cons, List.length_append] at hsaid
      rw [List.cons_append, reached]
      cases hfirst : first.tap with
      | s2c =>
          rw [hfirst, if_neg (by decide), List.length_nil, Nat.zero_add] at hsaid
          exact List.cons_prefix_cons.2 ⟨rfl, ih hsaid⟩
      | c2s =>
          rw [hfirst, if_pos rfl] at hsaid
          dsimp only
          rw [if_pos (by omega)]
          refine List.cons_prefix_cons.2 ⟨rfl, ih ?_⟩
          rw [List.length_drop]
          omega

/-- A recording that begins with a handshake the grammar follows to its end. -/
structure Recorded (capture : Capture) (script : List (Turn Tap UInt8))
    (final : HandshakeScrubber) : Prop where
  follows : Follows HandshakeScrubber.grammar ({} : HandshakeScrubber) script final
  finished : final.want = none
  width : final.width.isSome = true
  leads : tapBytes .s2c script <+: capture.s2c
  version : ∀ archived, capture.negotiatedVersion = some archived →
    final.negotiatedVersion = some archived

/-- The client has said the beginning of its side of the handshake, or all of it and more. -/
def Agreeing (script : List (Turn Tap UInt8)) (cs : Bytes) : Prop :=
  cs <+: tapBytes .c2s script ∨ tapBytes .c2s script <+: cs

theorem Agreeing.exists_client {script : List (Turn Tap UInt8)} (h : Agreeing script cs) :
    ∃ client, cs <+: client ∧ tapBytes .c2s script <+: client := by
  rcases h with hcs | hscript
  · exact ⟨tapBytes .c2s script, hcs, List.prefix_refl _⟩
  · exact ⟨cs, List.prefix_refl _, hscript⟩

section Recorded

variable {capture : Capture} {script : List (Turn Tap UInt8)} {final : HandshakeScrubber}

/-- The dialogue of the server is the beginning of the recorded handshake. -/
theorem Standing.leads_script (h : Standing p done cs)
    (hrecorded : Recorded p.capture script final) (hagreeing : Agreeing script cs) :
    ∃ todo, script = done ++ todo ∧
      Follows HandshakeScrubber.grammar p.scrubber.core todo final := by
  rcases hagreeing.exists_client with ⟨client, hcs, hscript⟩
  have hdone : ∀ tap, tapBytes tap done <+: streams p.capture.s2c client tap := by
    intro tap
    cases tap with
    | s2c => exact h.recorded
    | c2s => exact h.replied.trans hcs
  have hall : ∀ tap, tapBytes tap script <+: streams p.capture.s2c client tap := by
    intro tap
    cases tap with
    | s2c => exact hrecorded.leads
    | c2s => exact hscript
  have hleads : done <+: script := by
    rcases h.follows.comparable hrecorded.follows hdone hall with hleads | ⟨rest, rfl⟩
    · exact hleads
    · rcases h.follows.split with ⟨core, hcore, hrest⟩
      cases hcore.deterministic hrecorded.follows
      -- The recorded handshake is over: nothing follows on it.
      cases hrest with
      | nil =>
          rw [List.append_nil]
      | cons hwant _ _ => exact nomatch hrecorded.finished.symm.trans hwant
  rcases hleads with ⟨todo, rfl⟩
  rcases hrecorded.follows.split with ⟨core, hcore, hrest⟩
  cases hcore.deterministic h.follows
  exact ⟨todo, rfl, hrest⟩

/-- A client of the recorded version is not sent away. -/
theorem not_mismatched {todo : List (Turn Tap UInt8)} (hstanding : Standing p done cs)
    (hrecorded : Recorded p.capture script final)
    (htodo : Follows HandshakeScrubber.grammar p.scrubber.core todo final) : ¬ p.Mismatched := by
  rintro ⟨archived, negotiated, harchived, hnegotiated, hne⟩
  have hstart : ({} : HandshakeScrubber).Placed := fun h => absurd rfl h
  have hplaced := (HandshakeScrubber.placed_of_follows hstanding.follows hstart).1
  have hfinal := (HandshakeScrubber.placed_of_follows htodo hplaced).2 negotiated hnegotiated
  exact hne (Option.some.inj ((hrecorded.version archived harchived).symm.trans hfinal))

/-- What was written can be told from what was heard. -/
theorem Standby.written_eq (h : Standby p cs) (hrecorded : Recorded p.capture script final)
    (hagreeing : Agreeing script cs) : p.written = servedTo script p.capture.s2c cs := by
  rcases h.paced with ⟨done, hstanding, hphase⟩
  have hwaits : p.Waits done cs := by
    rcases h.stands with ⟨done', hstanding', hwaits⟩
    rw [hstanding.unique hstanding' (List.prefix_refl cs)]
    exact hwaits
  rcases hstanding.leads_script hrecorded hagreeing with ⟨todo, rfl, htodo⟩
  have hsaid : (tapBytes .c2s done).length ≤ cs.length := hstanding.replied.length_le
  -- A server that has nothing to ask for has followed the whole handshake.
  have hwhole (hwant : p.scrubber.core.want = none) : todo = [] := by
    cases htodo with
    | nil => rfl
    | cons hask _ _ => exact nomatch hwant.symm.trans hask
  have hunasked (hstop : ¬ Requests (cs.drop (tapBytes .c2s (done ++ todo)).length))
      (hreached : reached (done ++ todo) cs = done) :
      servedTo (done ++ todo) p.capture.s2c cs = tapBytes .s2c done := by
    rw [servedTo, if_neg (fun hsaw => hstop (saw_iff_requests.1 hsaw)), hreached]
  cases hphase with
  | handshake hdriving =>
      rw [hdriving.written]
      cases hwaits with
      | exhausted hexhausted => exact nomatch hdriving.exhausted.symm.trans hexhausted
      | request hawaiting _ _ => exact nomatch hdriving.awaiting.symm.trans hawaiting
      | @block n _ hwant hshort =>
          cases htodo with
          | nil => exact nomatch hrecorded.finished.symm.trans hwant
          | @cons _ _ _ turn rest hask _ _ =>
              have hturn := hwant.symm.trans hask
              rw [Option.some.injEq, Prod.mk.injEq] at hturn
              have hlength : cs.length = (tapBytes .c2s done).length + p.buffer.length := by
                conv_lhs => rw [hdriving.buffer]
                exact List.length_append
              refine (hunasked ?_ (reached_of_missing hturn.1.symm hsaid ?_)).symm
              · have hnil : cs.drop (tapBytes .c2s (done ++ turn :: rest)).length = [] := by
                  rw [List.drop_eq_nil_iff, tapBytes_append, tapBytes_cons, if_pos hturn.1.symm]
                  simp only [List.length_append]
                  omega
                rw [hnil]
                intro hrequests
                cases hrequests with
                | request hmessage _ => exact ne_nil_of_length_ok hmessage.1 rfl
                | unknown hunknown => exact ne_nil_of_length_ok hunknown rfl
                | skip hmessage _ => exact ne_nil_of_length_ok hmessage.1 rfl
              · omega
  | awaiting hexhausted hawaiting hwritten hpos hwant hwidth hskips =>
      rw [hwritten]
      cases hwhole hwant
      rw [List.append_nil] at hunasked ⊢
      refine (hunasked ?_ (reached_of_said hsaid)).symm
      cases hwaits with
      | exhausted hdone => exact nomatch hexhausted.symm.trans hdone
      | block _ hblock _ => exact nomatch hwant.symm.trans hblock
      | request _ hpasses hnone => exact fun hrequests => hnone (hpasses.requests hrequests)
  | refused _ hclosed _ _ =>
      exact absurd (h.mismatched hclosed) (not_mismatched hstanding hrecorded htodo)
  | served hexhausted hwritten hpos hreleased =>
      rw [hwritten]
      cases hreleased with
      | unpaced hwant hwidth =>
          cases hwhole hwant
          cases htodo
          have hsome := hrecorded.width
          rw [hwidth] at hsome
          exact absurd hsome Bool.false_ne_true
      | @truncated n hwant hshort =>
          cases htodo with
          | nil => exact nomatch hrecorded.finished.symm.trans hwant
          | @cons _ _ _ turn rest hask _ _ =>
              have hturn := hwant.symm.trans hask
              rw [Option.some.injEq, Prod.mk.injEq] at hturn
              have hle := hrecorded.leads.length_le
              rw [tapBytes_append, tapBytes_cons, if_pos hturn.1.symm] at hle
              simp only [List.length_append] at hle
              omega
      | requested hwant hrequest =>
          cases hwhole hwant
          rw [List.append_nil]
          exact (if_pos (saw_iff_requests.2 hrequest)).symm

/-! ## The server as one of two parties -/

theorem written_serveSession (p : ReplayProtocol) : p.written <+: p.serveSession.written := by
  have hwritten : (if !p.awaitingRequest && p.scrubber.core.want.isNone &&
      p.scrubber.core.width.isSome then { p with awaitingRequest := true } else p).written =
      p.written := by
    split_ifs <;> rfl
  rw [← hwritten]
  unfold serveSession
  dsimp only
  generalize (if !p.awaitingRequest && p.scrubber.core.want.isNone && p.scrubber.core.width.isSome
    then { p with awaitingRequest := true } else p) = q
  by_cases hsaw : (if q.awaitingRequest then sawUpdateRequest q.buffer else (true, q.buffer)).1 = true
  · rw [if_pos hsaw]
    exact List.prefix_append _ _
  · rw [if_neg hsaw]

theorem written_advanceLoop {fuel : ℕ} : ∀ p : ReplayProtocol,
    p.written <+: (advanceLoop fuel p).written := by
  induction fuel with
  | zero => exact fun _ => List.prefix_refl _
  | succ fuel ih =>
      intro p
      unfold advanceLoop turn
      cases p.scrubber.core.want with
      | none => exact written_serveSession p
      | some w =>
          rcases w with ⟨tap, n⟩
          cases tap with
          | s2c =>
              dsimp only
              by_cases hshort : (slice p.capture.s2c p.pos n).length < n
              · rw [if_pos hshort]
                exact written_serveSession p
              · rw [if_neg hshort]
                refine List.IsPrefix.trans ?_ (ih _)
                exact List.prefix_append p.written _
          | c2s =>
              dsimp only
              by_cases hshort : p.buffer.length < n
              · rw [if_pos hshort]
              · rw [if_neg hshort]
                rcases versionMismatch_cases
                    { p with
                      buffer := p.buffer.drop n
                      scrubber := (p.scrubber.feed .c2s (p.buffer.take n)).2 } with
                  ⟨checked, hversion⟩ | hversion
                · rw [hversion]
                  refine List.IsPrefix.trans ?_ (ih _)
                  exact List.prefix_refl _
                · rw [hversion]

theorem written_dataReceived (p : ReplayProtocol) (data : Bytes) :
    p.written <+: (p.dataReceived data).written := by
  have hadvance (q : ReplayProtocol) : q.written <+: q.advance.written := by
    unfold ReplayProtocol.advance
    split_ifs
    · exact List.prefix_refl _
    · exact written_advanceLoop q
  unfold ReplayProtocol.dataReceived
  dsimp only
  split_ifs
  · exact List.prefix_refl _
  · exact hadvance { p with buffer := p.buffer ++ data }
  · exact List.prefix_refl _
  · exact hadvance { p with served := true, buffer := p.buffer ++ data }

/-- As long as the server has not closed the connection, it is handed what the client says. -/
def party : Party ReplayProtocol UInt8 UInt8 where
  receive p chunk p' := p.disconnecting = false ∧ p' = p.dataReceived chunk
  said p := p.written
  said_prefix := by
    rintro p chunk p' ⟨_, rfl⟩
    exact written_dataReceived p chunk

theorem Standby.heard (h : Standby p cs) {heard : Bytes} {q : ReplayProtocol}
    (hheard : party.Heard p heard q) : Standby q (cs ++ heard) ∧ q.capture = p.capture := by
  induction hheard with
  | nil =>
      rw [List.append_nil]
      exact ⟨h, rfl⟩
  | @snoc heard chunk q q' _ hreceive ih =>
      rcases hreceive with ⟨_, rfl⟩
      rw [← List.append_assoc]
      exact ⟨ih.1.dataReceived chunk, (capture_dataReceived q chunk).trans ih.2⟩

theorem Agreeing.mono {cs' : Bytes} (h : Agreeing script cs') (hleads : cs <+: cs') :
    Agreeing script cs := by
  rcases h with hcs | hscript
  · exact Or.inl (hleads.trans hcs)
  · exact (List.prefix_or_prefix_of_prefix hleads hscript)

/-- The blocks that follow on what the client said are served. -/
theorem prefix_servedTo {done rest : List (Turn Tap UInt8)}
    (hrecorded : Recorded capture (done ++ rest) final)
    (hsaid : (tapBytes .c2s done).length ≤ cs.length) :
    tapBytes .s2c done <+: servedTo (done ++ rest) capture.s2c cs := by
  unfold servedTo
  split_ifs
  · refine List.IsPrefix.trans ?_ hrecorded.leads
    rw [tapBytes_append]
    exact List.prefix_append _ _
  · rcases prefix_reached rest hsaid with ⟨more, hmore⟩
    rw [← hmore, tapBytes_append]
    exact List.prefix_append _ _

/-- Without a request the recorded handshake is served and nothing behind it. -/
theorem servedTo_of_unasked {s2c extra : Bytes} (hextra : ¬ Requests extra) :
    servedTo script s2c (tapBytes .c2s script ++ extra) = tapBytes .s2c script := by
  rw [servedTo, List.drop_left, if_neg (fun hsaw => hextra (saw_iff_requests.1 hsaw)),
    reached_of_said (by rw [List.length_append]; omega)]

/-- A request is answered with the whole recording. -/
theorem servedTo_of_requests {s2c extra : Bytes} (hextra : Requests extra) :
    servedTo script s2c (tapBytes .c2s script ++ extra) = s2c := by
  rw [servedTo, List.drop_left, if_pos (saw_iff_requests.2 hextra)]

/-- A client that has said more is served more. -/
theorem servedTo_mono {cs' : Bytes} (hrecorded : Recorded capture script final)
    (hleads : cs <+: cs') : servedTo script capture.s2c cs <+: servedTo script capture.s2c cs' := by
  have hreached (cs : Bytes) : tapBytes .s2c (reached script cs) <+: tapBytes .s2c script := by
    rcases reached_prefix script cs with ⟨rest, hrest⟩
    conv_rhs => rw [← hrest, tapBytes_append]
    exact List.prefix_append _ _
  unfold servedTo
  by_cases hsaw : (sawUpdateRequest (cs'.drop (tapBytes .c2s script).length)).1 = true
  · rw [if_pos hsaw]
    split_ifs
    · exact List.prefix_refl _
    · exact (hreached cs).trans hrecorded.leads
  · rw [if_neg hsaw, if_neg]
    · rcases reached_mono script hleads with ⟨rest, hrest⟩
      rw [← hrest, tapBytes_append]
      exact List.prefix_append _ _
    · intro hearly
      rcases hleads.drop (tapBytes .c2s script).length with ⟨more, hmore⟩
      exact hsaw (saw_iff_requests.2 (hmore ▸ (saw_iff_requests.1 hearly).append more))

/-- What the server writes follows from what it has heard, whatever the pieces were. -/
theorem Standby.causal (h : Standby p cs) (hrecorded : Recorded p.capture script final)
    {all : Bytes} (hagreeing : Agreeing script (cs ++ all)) : party.Causal p all := by
  intro heard heard' q q' hheard hheard' hleads hall
  rcases h.heard hheard with ⟨hstandby, hcapture⟩
  rcases h.heard hheard' with ⟨hstandby', hcapture'⟩
  have hmore : cs ++ heard <+: cs ++ heard' := (List.prefix_append_right_inj cs).2 hleads
  have hlast : cs ++ heard' <+: cs ++ all := (List.prefix_append_right_inj cs).2 hall
  have hwritten := hstandby.written_eq (hcapture ▸ hrecorded)
    (hagreeing.mono (hmore.trans hlast))
  have hwritten' := hstandby'.written_eq (hcapture' ▸ hrecorded) (hagreeing.mono hlast)
  change q.written <+: q'.written
  rw [hwritten, hwritten', hcapture, hcapture']
  exact servedTo_mono hrecorded hmore

/-- A client of the recorded handshake is listened to. -/
theorem Standby.not_disconnecting (h : Standby p cs) (hrecorded : Recorded p.capture script final)
    (hagreeing : Agreeing script cs) : p.disconnecting = false := by
  rcases h.paced with ⟨done, hstanding, _⟩
  rcases hstanding.leads_script hrecorded hagreeing with ⟨todo, _, htodo⟩
  by_contra hclosed
  exact not_mismatched hstanding hrecorded htodo
    (h.mismatched (Bool.eq_true_of_not_eq_false hclosed))

theorem Standby.open (h : Standby p cs) (hrecorded : Recorded p.capture script final)
    {all : Bytes} (hagreeing : Agreeing script (cs ++ all)) : party.Open p all := by
  intro heard chunk q hheard hall
  rcases h.heard hheard with ⟨hstandby, hcapture⟩
  have hleads : cs ++ heard <+: cs ++ all :=
    (List.prefix_append_right_inj cs).2 ((List.prefix_append heard chunk).trans hall)
  refine ⟨q.dataReceived chunk, hstandby.not_disconnecting (hcapture ▸ hrecorded)
    (hagreeing.mono hleads), rfl⟩

end Recorded

end ReplayProtocol

end Vncdotool
