import Vncdotool.Api.ThreadedProxy
import Vncdotool.Streaming.Runs

/-!
# Answers — which calls of the synchronous API get their own results

Results are told apart only by their order in the queue, and what a method is run on is what the
method before it returned.  So a call is answered by its own method, run on the client, as long as
no method returns anything else or fails, and no outcome arrives after its call has timed out.
-/

namespace Vncdotool

open Streaming

namespace ThreadedVNCClientProxy

variable {V E : Type} (client : V)

/-- Methods are run on the connected client, and every call ends with the outcome of its own turn
or with its own `TimeoutError`. -/
structure Faithful (proxy : ThreadedVNCClientProxy V E) : Prop where
  onClient : proxy.notConnected = true ∨ ∀ turn ∈ proxy.turns, turn.2 = some client
  own : ∀ entry ∈ proxy.returned,
    entry.2 = .timeoutError ∨ ∃ outcome, entry.2 = .got entry.1 outcome

/-- The condition on a step: a turn finds the client, a call that gets something from the queue
does so before any outcome has arrived too late. -/
def Meets (proxy : ThreadedVNCClientProxy V E) : Action V E → Prop
  | .callback =>
      ∀ outcome, proxy.chain = .result outcome → proxy.callbacks ≠ [] →
        outcome = .value client ∨ proxy.notConnected = true
  | .get => proxy.waiting ≠ none → proxy.queue ≠ [] → proxy.late = false
  | _ => True

/-! ## The order of calls -/

/-- The calls that have not been answered, from the one nearest to its answer. -/
def pipeline (proxy : ThreadedVNCClientProxy V E) : List ℕ :=
  proxy.queue.map Prod.fst ++
    (match proxy.chain with
      | .paused call => [call]
      | _ => []) ++ proxy.callbacks ++ proxy.fromThread

/-- The calls keep their order, the application waits for the last one, and the queue holds the
outcome of no other call as long as none has come too late. -/
structure Ordered (proxy : ThreadedVNCClientProxy V E) : Prop where
  sorted : proxy.pipeline.Pairwise (· < ·)
  issued : ∀ call ∈ proxy.pipeline, call < proxy.issued
  latest : ∀ call, proxy.waiting = some call → call + 1 = proxy.issued
  onTime : proxy.late = false → ∀ entry ∈ proxy.queue, proxy.waiting = some entry.1
  overdue : proxy.late = true → ∃ entry rest, proxy.queue = entry :: rest ∧
    proxy.waiting ≠ some entry.1

variable {client} {proxy : ThreadedVNCClientProxy V E}

theorem ordered_init : Ordered ({} : ThreadedVNCClientProxy V E) where
  sorted := List.Pairwise.nil
  issued := fun _ hmem => nomatch hmem
  latest := fun _ h => nomatch h
  onTime := fun _ _ hmem => nomatch hmem
  overdue := fun h => nomatch h

/-- Nothing that the order depends on has changed. -/
theorem Ordered.congr {proxy' : ThreadedVNCClientProxy V E} (h : Ordered proxy)
    (hpipeline : proxy'.pipeline = proxy.pipeline) (hqueue : proxy'.queue = proxy.queue)
    (hissued : proxy'.issued = proxy.issued) (hwaiting : proxy'.waiting = proxy.waiting)
    (hlate : proxy'.late = proxy.late) : Ordered proxy' where
  sorted := hpipeline ▸ h.sorted
  issued := hpipeline ▸ hissued ▸ h.issued
  latest := hwaiting ▸ hissued ▸ h.latest
  onTime := hlate ▸ hqueue ▸ hwaiting ▸ h.onTime
  overdue := hlate ▸ hqueue ▸ hwaiting ▸ h.overdue

/-- An outcome arrives, of a call that comes behind those in the queue. -/
theorem Ordered.put {proxy' : ThreadedVNCClientProxy V E} {call : ℕ} {outcome : Outcome V E}
    (h : Ordered proxy) (hpipeline : proxy'.pipeline = proxy.pipeline)
    (hqueue : proxy'.queue = proxy.queue ++ [(call, outcome)])
    (hissued : proxy'.issued = proxy.issued) (hwaiting : proxy'.waiting = proxy.waiting)
    (hlate : proxy'.late = (proxy.late || proxy.waiting != some call)) : Ordered proxy' := by
  have hbehind : (proxy.queue.map Prod.fst ++ [call]).Pairwise (· < ·) := by
    have hsorted := hpipeline.symm ▸ h.sorted
    have hleads : proxy.queue.map Prod.fst ++ [call] <+: proxy'.pipeline := by
      simp only [pipeline, hqueue, List.map_append, List.map_cons, List.map_nil,
        List.append_assoc]
      exact (List.prefix_append_right_inj _).2 (List.prefix_append _ _)
    exact hsorted.sublist hleads.sublist
  have hcall : call < proxy.issued := by
    refine hissued ▸ (hissued.symm ▸ h.issued) call ?_
    rw [← hpipeline]
    simp [pipeline, hqueue]
  have hlt (entry : ℕ × Outcome V E) (hmem : entry ∈ proxy.queue) : entry.1 < call :=
    (List.pairwise_append.1 hbehind).2.2 _ (List.mem_map_of_mem hmem) call
      (List.mem_singleton_self call)
  refine ⟨hpipeline ▸ h.sorted, hpipeline ▸ hissued ▸ h.issued, hwaiting ▸ hissued ▸ h.latest,
    ?_, ?_⟩
  · intro hfalse entry hmem
    rw [hlate, Bool.or_eq_false_iff] at hfalse
    have hwait : proxy.waiting = some call := by simpa using hfalse.2
    rw [hqueue, List.mem_append, List.mem_singleton] at hmem
    rcases hmem with hmem | rfl
    · exact hwaiting.trans (h.onTime hfalse.1 entry hmem)
    · exact hwaiting.trans hwait
  · intro htrue
    rw [hlate, Bool.or_eq_true] at htrue
    cases hold : proxy.late with
    | true =>
        rcases h.overdue hold with ⟨entry, rest, heq, hne⟩
        exact ⟨entry, rest ++ [(call, outcome)], by rw [hqueue, heq]; rfl, hwaiting ▸ hne⟩
    | false =>
        -- On time until now, the queue can only hold the outcome of the latest call.
        have hne : proxy.waiting ≠ some call := by simpa [hold] using htrue
        have hempty : proxy.queue = [] := by
          rcases hq : proxy.queue with _ | ⟨entry, rest⟩
          · rfl
          · have hmem : entry ∈ proxy.queue := hq ▸ List.mem_cons_self
            have hlatest := h.latest _ (h.onTime hold entry hmem)
            exact absurd (hlt entry hmem) (by omega)
        exact ⟨(call, outcome), [], by rw [hqueue, hempty]; rfl, hwaiting ▸ hne⟩

/-! ## The steps -/

theorem ordered_call (h : Ordered proxy) : Ordered (proxy.step client .call) := by
  unfold step
  split_ifs with hnone
  · have hwaiting : proxy.waiting = none := Option.isNone_iff_eq_none.1 hnone
    have hpipeline : proxy.callableThreadedProxy.pipeline = proxy.pipeline ++ [proxy.issued] := by
      simp [pipeline, callableThreadedProxy]
    refine ⟨?_, ?_, ?_, ?_, ?_⟩
    · rw [hpipeline, List.pairwise_append]
      refine ⟨h.sorted, List.pairwise_singleton _ _, ?_⟩
      intro call hmem issued hissued
      exact List.mem_singleton.1 hissued ▸ h.issued call hmem
    · intro call hmem
      rw [hpipeline, List.mem_append, List.mem_singleton] at hmem
      rcases hmem with hmem | rfl
      · exact Nat.lt_succ_of_lt (h.issued call hmem)
      · exact Nat.lt_succ_self _
    · intro call hcall
      exact congrArg (· + 1) (Option.some.inj hcall).symm
    · intro hlate entry hmem
      exact nomatch hwaiting.symm.trans (h.onTime hlate entry hmem)
    · intro hlate
      rcases h.overdue hlate with ⟨entry, rest, heq, _⟩
      refine ⟨entry, rest, heq, fun hsome => ?_⟩
      have hmem : entry.1 ∈ proxy.pipeline := by simp [pipeline, heq]
      exact absurd (h.issued _ hmem) (by simp [Option.some.inj hsome])
  · exact h

theorem ordered_fromThread (h : Ordered proxy) : Ordered (proxy.step client .fromThread) := by
  unfold step
  cases hthread : proxy.fromThread with
  | nil => exact h
  | cons call rest =>
      refine h.congr ?_ rfl rfl rfl rfl
      simp [pipeline, hthread]

/-- A turn on the client, or of an errback when there is no client. -/
theorem ordered_callback (h : Ordered proxy) : Ordered (proxy.step client .callback) := by
  unfold step
  cases hchain : proxy.chain with
  | unfired => exact h
  | paused call => exact h
  | result outcome =>
      cases hcallbacks : proxy.callbacks with
      | nil => cases outcome <;> exact h
      | cons call rest =>
          cases outcome with
          | value v =>
              refine h.congr ?_ rfl rfl rfl rfl
              simp [pipeline, threadedCall, hchain, hcallbacks]
          | failure reason =>
              refine h.put ?_ rfl rfl rfl rfl
              simp [pipeline, errbackNotConnected, ThreadedVNCClientProxy.put, hchain, hcallbacks]

theorem ordered_completes {outcome : Outcome V E} (h : Ordered proxy) :
    Ordered (proxy.step client (.completes outcome)) := by
  unfold step
  cases hchain : proxy.chain with
  | unfired => exact h
  | result outcome' => exact h
  | paused call =>
      refine h.put ?_ rfl rfl rfl rfl
      simp [pipeline, resultCallback, ThreadedVNCClientProxy.put, hchain]

/-- On time, what is got from the queue is all there is in it. -/
theorem ordered_get (h : Ordered proxy) (hmeets : Meets client proxy .get) :
    Ordered (proxy.step client .get) := by
  unfold step
  cases hwaiting : proxy.waiting with
  | none => exact h
  | some waiting =>
      cases hqueue : proxy.queue with
      | nil => exact h
      | cons entry rest =>
          have hlate : proxy.late = false := hmeets (by simp [hwaiting]) (by simp [hqueue])
          have hpipeline : proxy.pipeline = entry.1 ::
              ({ proxy with
                queue := rest
                waiting := none
                returned := proxy.returned ++ [(waiting, .got entry.1 entry.2)] } :
                  ThreadedVNCClientProxy V E).pipeline := by
            simp [pipeline, hqueue]
          have hrest : rest = [] := by
            rcases rest with _ | ⟨next, rest⟩
            · rfl
            · have hfirst := h.onTime hlate entry (by simp [hqueue])
              have hnext := h.onTime hlate next (by simp [hqueue])
              have hlt : entry.1 < next.1 := by
                refine List.rel_of_pairwise_cons (hpipeline ▸ h.sorted) ?_
                simp [pipeline]
              exact absurd (Option.some.inj (hfirst.symm.trans hnext)) (Nat.ne_of_lt hlt)
          refine ⟨(List.pairwise_cons.1 (hpipeline ▸ h.sorted)).2, ?_, ?_, ?_, ?_⟩
          · intro call hmem
            exact h.issued call (hpipeline ▸ List.mem_cons_of_mem _ hmem)
          · exact fun _ hnone => nomatch hnone
          · intro _ entry' hmem
            rw [hrest] at hmem
            exact nomatch hmem
          · exact fun htrue => nomatch hlate.symm.trans htrue

theorem ordered_timeout (h : Ordered proxy) : Ordered (proxy.step client .timeout) := by
  unfold step
  cases hwaiting : proxy.waiting with
  | none => exact h
  | some waiting =>
      cases hqueue : proxy.queue with
      | cons entry rest => exact h
      | nil =>
          have hpipeline : proxy.pipeline = ({ proxy with
              queue := []
              waiting := none
              returned := proxy.returned ++ [(waiting, .timeoutError)] } :
                ThreadedVNCClientProxy V E).pipeline := by
            simp [pipeline, hqueue]
          refine ⟨hpipeline ▸ h.sorted, hpipeline ▸ h.issued, ?_, ?_, ?_⟩
          · exact fun _ hnone => nomatch hnone
          · exact fun _ _ hmem => nomatch hmem
          · intro hlate
            rcases h.overdue hlate with ⟨entry, rest, heq, _⟩
            exact nomatch hqueue.symm.trans heq

/-- The calls keep their order. -/
theorem ordered_step {action : Action V E} (h : Ordered proxy)
    (hmeets : Meets client proxy action) : Ordered (proxy.step client action) := by
  cases action with
  | call => exact ordered_call h
  | fromThread => exact ordered_fromThread h
  | callback => exact ordered_callback h
  | completes outcome => exact ordered_completes h
  | get => exact ordered_get h hmeets
  | timeout => exact ordered_timeout h
  | connected =>
      unfold step
      cases hchain : proxy.chain with
      | unfired =>
          refine h.congr ?_ rfl rfl rfl rfl
          simp [pipeline, hchain]
      | result outcome => exact h
      | paused call => exact h
  | connectionFailed reason =>
      unfold step
      cases hchain : proxy.chain with
      | unfired =>
          refine h.congr ?_ rfl rfl rfl rfl
          simp [pipeline, hchain]
      | result outcome => exact h
      | paused call => exact h

/-! ## Who is answered by whom -/

/-- The state records no more turns and answers than before. -/
theorem Faithful.congr {proxy' : ThreadedVNCClientProxy V E} (h : Faithful client proxy)
    (hconnected : proxy'.notConnected = proxy.notConnected) (hturns : proxy'.turns = proxy.turns)
    (hreturned : proxy'.returned = proxy.returned) : Faithful client proxy' where
  onClient := hconnected ▸ hturns ▸ h.onClient
  own := hreturned ▸ h.own

/-- A turn on the client. -/
theorem Faithful.turn {proxy' : ThreadedVNCClientProxy V E} {call : ℕ} {on : Option V}
    (h : Faithful client proxy) (hconnected : proxy'.notConnected = proxy.notConnected)
    (hturns : proxy'.turns = proxy.turns ++ [(call, on)]) (hreturned : proxy'.returned = proxy.returned)
    (hon : on = some client ∨ proxy.notConnected = true) : Faithful client proxy' := by
  refine ⟨?_, hreturned ▸ h.own⟩
  rcases hon with rfl | hnot
  · refine (hconnected ▸ h.onClient).imp_right fun hall turn hmem => ?_
    rw [hturns, List.mem_append, List.mem_singleton] at hmem
    rcases hmem with hmem | rfl
    · exact hall turn hmem
    · rfl
  · exact Or.inl (hconnected.trans hnot)

/-- An answer from the call's own turn, or none. -/
theorem Faithful.answer {proxy' : ThreadedVNCClientProxy V E} {call : ℕ} {answer : Answer V E}
    (h : Faithful client proxy) (hconnected : proxy'.notConnected = proxy.notConnected)
    (hturns : proxy'.turns = proxy.turns)
    (hreturned : proxy'.returned = proxy.returned ++ [(call, answer)])
    (hanswer : answer = .timeoutError ∨ ∃ outcome, answer = .got call outcome) :
    Faithful client proxy' := by
  refine ⟨hconnected ▸ hturns ▸ h.onClient, fun entry hmem => ?_⟩
  rw [hreturned, List.mem_append, List.mem_singleton] at hmem
  rcases hmem with hmem | rfl
  · exact h.own entry hmem
  · exact hanswer

theorem faithful_step {action : Action V E} (hordered : Ordered proxy) (h : Faithful client proxy)
    (hmeets : Meets client proxy action) : Faithful client (proxy.step client action) := by
  cases action with
  | call =>
      unfold step
      split_ifs
      · exact h.congr rfl rfl rfl
      · exact h
  | fromThread =>
      unfold step
      cases proxy.fromThread with
      | nil => exact h
      | cons call rest => exact h.congr rfl rfl rfl
  | connected =>
      unfold step
      cases proxy.chain with
      | unfired => exact h.congr rfl rfl rfl
      | result outcome => exact h
      | paused call => exact h
  | connectionFailed reason =>
      unfold step
      cases proxy.chain with
      | unfired => exact ⟨Or.inl rfl, h.own⟩
      | result outcome => exact h
      | paused call => exact h
  | callback =>
      unfold step
      cases hchain : proxy.chain with
      | unfired => exact h
      | paused call => exact h
      | result outcome =>
          cases hcallbacks : proxy.callbacks with
          | nil => cases outcome <;> exact h
          | cons call rest =>
              have hclient := hmeets outcome hchain (by simp [hcallbacks])
              cases outcome with
              | value v =>
                  refine h.turn rfl rfl rfl (hclient.imp_left fun heq => ?_)
                  cases heq
                  rfl
              | failure reason =>
                  exact h.turn rfl rfl rfl (hclient.imp_left fun heq => nomatch heq)
  | completes outcome =>
      unfold step
      cases proxy.chain with
      | unfired => exact h
      | result outcome' => exact h
      | paused call => exact h.congr rfl rfl rfl
  | get =>
      unfold step
      cases hwaiting : proxy.waiting with
      | none => exact h
      | some waiting =>
          cases hqueue : proxy.queue with
          | nil => exact h
          | cons entry rest =>
              -- On time, the entry at the head of the queue is the one that the caller waits for.
              have hlate : proxy.late = false := hmeets (by simp [hwaiting]) (by simp [hqueue])
              have hself := hordered.onTime hlate entry (by simp [hqueue])
              have heq : waiting = entry.1 := Option.some.inj (hwaiting.symm.trans hself)
              exact h.answer rfl rfl rfl (Or.inr ⟨entry.2, by rw [heq]⟩)
  | timeout =>
      unfold step
      cases proxy.waiting with
      | none => exact h
      | some waiting =>
          cases proxy.queue with
          | nil => exact h.answer rfl rfl rfl (Or.inl rfl)
          | cons entry rest => exact h

/-- A turn without the client, or an answer that is another call's, is not faithful. -/
theorem meets_of_faithful {action : Action V E} (hordered : Ordered proxy)
    (hnext : Faithful client (proxy.step client action)) : Meets client proxy action := by
  cases action with
  | callback =>
      intro outcome hchain hcallbacks
      rcases hcalls : proxy.callbacks with _ | ⟨call, rest⟩
      · exact absurd hcalls hcallbacks
      · unfold step at hnext
        rw [hchain, hcalls] at hnext
        cases outcome with
        | value v =>
            refine hnext.onClient.symm.imp_left fun hall => ?_
            have hv := hall (call, some v) (by simp [threadedCall])
            exact congrArg Outcome.value (Option.some.inj hv)
        | failure reason =>
            refine Or.inr (hnext.onClient.resolve_right fun hall => ?_)
            exact nomatch hall (call, none) (by simp [errbackNotConnected, ThreadedVNCClientProxy.put])
  | get =>
      intro hwaits hqueued
      rcases hwaiting : proxy.waiting with _ | waiting
      · exact absurd hwaiting hwaits
      · rcases hqueue : proxy.queue with _ | ⟨⟨call, outcome⟩, rest⟩
        · exact absurd hqueue hqueued
        · by_contra hlate
          rcases hordered.overdue (by simpa using hlate) with ⟨entry, rest', heq, hne⟩
          cases hqueue.symm.trans heq
          unfold step at hnext
          rw [hwaiting, hqueue] at hnext
          rcases hnext.own (waiting, .got call outcome) (by simp) with h | ⟨_, h⟩
          · exact nomatch h
          · have hself : call = waiting := (Answer.got.inj h).1
            exact hne (hself ▸ hwaiting)
  | call => trivial
  | fromThread => trivial
  | connected => trivial
  | connectionFailed reason => trivial
  | completes outcome => trivial
  | timeout => trivial

/-- Every call is run on the client and answered by itself, in every state of a run, exactly when
every step of the run meets the condition. -/
theorem faithful_iff_meets (client : V) (actions : List (Action V E)) :
    Always (fun proxy => step proxy client) (Faithful client) {} actions ↔
      Throughout (fun proxy => step proxy client) (Meets client) {} actions := by
  have hinit : Faithful client ({} : ThreadedVNCClientProxy V E) :=
    ⟨Or.inr fun _ hmem => absurd hmem List.not_mem_nil, fun _ hmem => absurd hmem List.not_mem_nil⟩
  refine always_iff_throughout (I := fun proxy => Ordered proxy ∧ Faithful client proxy)
    ?_ ?_ ?_ ⟨ordered_init, hinit⟩
  · exact fun proxy h => h.2
  · exact fun proxy action h hmeets =>
      ⟨ordered_step h.1 hmeets, faithful_step h.1 h.2 hmeets⟩
  · exact fun proxy action h hnext => meets_of_faithful h.1 hnext

/-- The first call times out, and completes while the second one waits. -/
def lateRun : List (Action Unit Unit) :=
  [.connected, .call, .fromThread, .callback, .timeout, .call, .completes (.value ()), .get]

theorem not_faithful_late :
    ¬ Always (fun proxy => step proxy ()) (Faithful ()) {} lateRun := by
  intro h
  rcases (h lateRun List.prefix_rfl).own (1, .got 0 (.value ())) (by decide) with heq | ⟨_, heq⟩
  · exact nomatch heq
  · exact nomatch heq

end ThreadedVNCClientProxy

end Vncdotool
