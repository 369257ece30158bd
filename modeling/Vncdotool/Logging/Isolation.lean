import Vncdotool.Logging.Recorder
import Vncdotool.Streaming.Runs

/-!
# Isolation — per-client recordings

A `Recording` is a proxy factory with the clients that have connected to it.  Clients connect, send
input and disconnect in any order, and a file object's buffer goes out to the disk at any time.
`Isolated` says that every session has its own file, open exactly as long as the session lives, with
a line in it for every event of the session.  The factory has one slot for the open file, so this
holds as long as a session that ends is the one that was accepted last.
-/

namespace Vncdotool

open Streaming

/-! ## Recordings -/

/-- What a client did: when it was accepted, what it sent, and whether it is still connected. -/
structure LoggedClient where
  accepted : ℤ
  events : List (ℤ × InputEvent) := []
  live : Bool := true
  deriving DecidableEq, Repr

/-- The factory, with its clients in the order they were accepted. -/
structure Recording where
  factory : VNCLoggingServerFactory
  clients : List LoggedClient := []

inductive Recording.Action
  | accept (stamp : String) (now : ℤ)
  | input (i : ℕ) (now : ℤ) (event : InputEvent)
  | connectionLost (i : ℕ)
  | flush (file : ℕ)
  deriving DecidableEq, Repr

namespace Recording

variable (encodes : ℕ → Bool)

/-- The client is connected. -/
def Live (r : Recording) (i : ℕ) : Prop :=
  ∃ client, r.clients[i]? = some client ∧ client.live = true

/-- One event of the process; nothing is delivered for a connection that is gone. -/
def step (r : Recording) : Action → Recording
  | .accept stamp now =>
      { factory := r.factory.connectionMade stamp now
        clients := r.clients ++ [{ accepted := now }] }
  | .input i now event =>
      match r.clients[i]? with
      | none => r
      | some client =>
          if client.live then
            { factory := r.factory.handleEvent encodes i now event
              clients :=
                r.clients.set i { client with events := client.events ++ [(now, event)] } }
          else r
  | .connectionLost i =>
      match r.clients[i]? with
      | none => r
      | some client =>
          if client.live then
            -- The slot of the factory is closed, whichever session it belongs to.
            { factory := r.factory.clientConnectionLost
              clients := r.clients.set i { client with live := false } }
          else r
  | .flush file => { r with factory := { r.factory with files := r.factory.files.flush 0 file } }

/-- `vnclog --file-per-client` with a directory as output. -/
def init (output : String) : Recording where
  factory := { output := output }

/-! ## What a recording should be -/

/-- One line for each event, in order; `none` when one of them has no line. -/
def transcript : Noted → List (ℤ × InputEvent) → Option (Text × Noted)
  | noted, [] => some ([], noted)
  | noted, (now, event) :: events =>
      match event.line noted now with
      | .error _ => none
      | .ok (line, noted) =>
          if line.all encodes then
            (transcript noted events).map fun rest => (line ++ rest.1, rest.2)
          else
            none

/-- The transcript of what a client has sent. -/
def LoggedClient.transcript (client : LoggedClient) : Option (Text × Noted) :=
  Recording.transcript encodes { lastEvent := client.accepted } client.events

/-- The session `i` has a file of its own, open as long as it lives, that holds one line for each of
its events. -/
def Recorded (r : Recording) (i : ℕ) (client : LoggedClient) : Prop :=
  ∃ proxy written noted, r.factory.proxies[i]? = some proxy ∧
    r.factory.files.Holds proxy.recorder (!client.live) written ∧
    LoggedClient.transcript encodes client = some (written, noted)

/-- Every session is recorded in a file of its own. -/
structure Isolated (r : Recording) : Prop where
  exclusive : r.factory.files.Exclusive
  own : ∀ (i j : ℕ) (proxy proxy' : VNCLoggingServerProxy), r.factory.proxies[i]? = some proxy →
    r.factory.proxies[j]? = some proxy' → proxy.recorder = proxy'.recorder → i = j
  recorded : ∀ i client, r.clients[i]? = some client → Recorded encodes r i client

/-- The condition on a step: a session's file is new, its keys can be written down, and a session
that ends is the one accepted last. -/
def Meets (r : Recording) : Action → Prop
  | .accept stamp _ => r.factory.outfile stamp ∉ r.factory.files.opened.map OpenFile.path
  | .input i _ event => r.Live i → event.Recordable encodes
  | .connectionLost i => r.Live i → i + 1 = r.clients.length
  | .flush _ => True

/-! ## What the proxies keep up -/

/-- The proxies, file objects and clients are numbered alike, and the factory's slot is the file of
the session accepted last, as long as that lives. -/
structure Wired (r : Recording) : Prop where
  proxies : r.factory.proxies.length = r.clients.length
  files : r.factory.files.opened.length = r.clients.length
  recorder : ∀ (i : ℕ) (proxy : VNCLoggingServerProxy), r.factory.proxies[i]? = some proxy →
    proxy.recorder = i
  out : ∀ k, r.factory.out = some k ↔ k + 1 = r.clients.length ∧ r.Live k
  noted : ∀ (i : ℕ) (proxy : VNCLoggingServerProxy) (client : LoggedClient) (written : Text)
    (noted : Noted), r.factory.proxies[i]? = some proxy → r.clients[i]? = some client →
    LoggedClient.transcript encodes client = some (written, noted) → proxy.noted = noted

variable {encodes} {r : Recording} {i : ℕ} {client : LoggedClient}

/-- The transcript behind an event that has a line. -/
theorem transcript_cons {noted noted' : Noted} {now : ℤ} {event : InputEvent} {line : Text}
    (hline : event.line noted now = .ok (line, noted')) (hall : line.all encodes = true)
    (events : List (ℤ × InputEvent)) :
    transcript encodes noted ((now, event) :: events) =
      (transcript encodes noted' events).map fun rest => (line ++ rest.1, rest.2) := by
  simp only [transcript, hline, hall, if_true]

theorem transcript_append {noted noted' : Noted} {events : List (ℤ × InputEvent)} {written : Text}
    (h : transcript encodes noted events = some (written, noted'))
    (later : List (ℤ × InputEvent)) :
    transcript encodes noted (events ++ later) =
      (transcript encodes noted' later).map fun rest => (written ++ rest.1, rest.2) := by
  induction events generalizing noted written with
  | nil =>
      cases h
      simp
  | cons first events ih =>
      rcases first with ⟨now, event⟩
      cases hline : event.line noted now with
      | error exc =>
          simp only [transcript, hline] at h
          exact nomatch h
      | ok entry =>
          rcases entry with ⟨line, noted₁⟩
          have hall : line.all encodes = true := by
            by_contra hall
            simp only [transcript, hline, if_neg hall] at h
            exact nomatch h
          rw [transcript_cons hline hall] at h
          rcases Option.map_eq_some_iff.1 h with ⟨rest, hrest, heq⟩
          cases heq
          rw [List.cons_append, transcript_cons hline hall, ih hrest, Option.map_map]
          simp only [Function.comp_def, List.append_assoc]

/-- An event that can be written down has a line. -/
theorem exists_transcript (hascii : ∀ c < 128, encodes c = true) (noted : Noted) (now : ℤ)
    {event : InputEvent} (h : event.Recordable encodes) :
    ∃ line noted', transcript encodes noted [(now, event)] = some (line, noted') ∧
      event.line noted now = .ok (line, noted') ∧ line.all encodes = true := by
  rcases (exists_line_iff hascii noted now event).2 h with ⟨line, noted', hline, hall⟩
  refine ⟨line, noted', ?_, hline, hall⟩
  rw [transcript_cons hline hall]
  simp [transcript]

theorem recordable_of_transcript (hascii : ∀ c < 128, encodes c = true) {noted : Noted} {now : ℤ}
    {event : InputEvent} {rest : Text × Noted}
    (h : transcript encodes noted [(now, event)] = some rest) : event.Recordable encodes := by
  refine (exists_line_iff hascii noted now event).1 ?_
  cases hline : event.line noted now with
  | error exc =>
      simp only [transcript, hline] at h
      exact nomatch h
  | ok entry =>
      rcases entry with ⟨line, noted'⟩
      refine ⟨line, noted', rfl, ?_⟩
      by_contra hall
      simp only [transcript, hline, if_neg hall] at h
      exact nomatch h

theorem live_iff (h : r.clients[i]? = some client) : r.Live i ↔ client.live = true := by
  constructor
  · rintro ⟨client', hclient', hlive⟩
    cases h.symm.trans hclient'
    exact hlive
  · exact fun hlive => ⟨client, h, hlive⟩

/-- What is recorded of a session depends on its proxy's recorder, the file behind it and what the
client sent. -/
theorem Recorded.congr {r' : Recording} (h : Recorded encodes r i client)
    (hproxies : ∀ proxy, r.factory.proxies[i]? = some proxy →
      ∃ proxy', r'.factory.proxies[i]? = some proxy' ∧ proxy'.recorder = proxy.recorder ∧
        ∀ written, r.factory.files.Holds proxy.recorder (!client.live) written →
          r'.factory.files.Holds proxy.recorder (!client.live) written) :
    Recorded encodes r' i client := by
  rcases h with ⟨proxy, written, noted, hproxy, hholds, htranscript⟩
  rcases hproxies proxy hproxy with ⟨proxy', hproxy', hrecorder, hframe⟩
  exact ⟨proxy', written, noted, hproxy', hrecorder ▸ hframe written hholds, htranscript⟩

/-! ## The steps -/

section Steps

variable (hisolated : Isolated encodes r) (hwired : Wired encodes r)

include hisolated hwired

/-- Accepting a connection with a file name that is new. -/
theorem isolated_accept {stamp : String} {now : ℤ}
    (hnew : r.factory.outfile stamp ∉ r.factory.files.opened.map OpenFile.path) :
    Isolated encodes (r.step encodes (.accept stamp now)) ∧
      Wired encodes (r.step encodes (.accept stamp now)) := by
  rcases hisolated.exclusive.openW hnew with ⟨hexclusive, hholds, hframe⟩
  have hproxies : (r.step encodes (.accept stamp now)).factory.proxies =
      r.factory.proxies ++ [{ recorder := r.factory.files.opened.length
                              noted := { lastEvent := now } }] := rfl
  have hclients : (r.step encodes (.accept stamp now)).clients =
      r.clients ++ [{ accepted := now }] := rfl
  have hlast : r.factory.proxies.length = r.factory.files.opened.length :=
    hwired.proxies.trans hwired.files.symm
  have hrecorder : ∀ (i : ℕ) (proxy : VNCLoggingServerProxy),
      (r.step encodes (.accept stamp now)).factory.proxies[i]? = some proxy →
        proxy.recorder = i := by
    intro i proxy hproxy
    rw [hproxies] at hproxy
    rcases getElem?_concat_cases hproxy with ⟨rfl, rfl⟩ | ⟨_, hproxy⟩
    · exact hlast.symm
    · exact hwired.recorder i proxy hproxy
  have hnoted : ∀ (i : ℕ) (proxy : VNCLoggingServerProxy) (client : LoggedClient) (written : Text)
      (noted : Noted), (r.step encodes (.accept stamp now)).factory.proxies[i]? = some proxy →
      (r.step encodes (.accept stamp now)).clients[i]? = some client →
      LoggedClient.transcript encodes client = some (written, noted) → proxy.noted = noted := by
    intro i proxy client written noted hproxy hclient htranscript
    rw [hproxies] at hproxy
    rw [hclients] at hclient
    rcases getElem?_concat_cases hproxy with ⟨hi, rfl⟩ | ⟨hlt, hproxy⟩
    · rcases getElem?_concat_cases hclient with ⟨_, rfl⟩ | ⟨hlt, _⟩
      · cases htranscript
        rfl
      · exact absurd (hi.trans hwired.proxies) (Nat.ne_of_lt hlt)
    · rcases getElem?_concat_cases hclient with ⟨hi, _⟩ | ⟨_, hclient⟩
      · exact absurd (hi.trans hwired.proxies.symm) (Nat.ne_of_lt hlt)
      · exact hwired.noted i proxy client written noted hproxy hclient htranscript
  -- The new session has the last index in all three lists; the sessions before it are where they
  -- were.
  refine ⟨⟨hexclusive, ?_, ?_⟩, ?_, ?_, hrecorder, ?_, hnoted⟩
  · intro i j proxy proxy' hi hj heq
    rw [← hrecorder i proxy hi, heq, hrecorder j proxy' hj]
  · intro i client hclient
    rw [hclients] at hclient
    rcases getElem?_concat_cases hclient with ⟨rfl, rfl⟩ | ⟨hlt, hclient⟩
    · refine ⟨{ recorder := r.factory.files.opened.length, noted := { lastEvent := now } }, [],
        { lastEvent := now }, ?_, hholds, rfl⟩
      rw [hproxies, ← hwired.proxies, List.getElem?_concat_length]
    · refine (hisolated.recorded i client hclient).congr fun proxy hproxy => ?_
      refine ⟨proxy, ?_, rfl, fun written => hframe _ _ _⟩
      rw [hproxies, List.getElem?_append_left (hwired.proxies ▸ hlt)]
      exact hproxy
  · rw [hproxies, hclients, List.length_append, List.length_append, hwired.proxies]
    rfl
  · have hopened : (r.step encodes (.accept stamp now)).factory.files.opened =
        r.factory.files.opened ++ [{ path := r.factory.outfile stamp }] := rfl
    rw [hopened, hclients, List.length_append, List.length_append, hwired.files]
    rfl
  · intro k
    have hout : (r.step encodes (.accept stamp now)).factory.out =
        some r.factory.files.opened.length := rfl
    rw [hout, Option.some.injEq, hclients, List.length_append, List.length_singleton, hwired.files]
    constructor
    · rintro rfl
      refine ⟨rfl, { accepted := now }, ?_, rfl⟩
      rw [hclients, List.getElem?_concat_length]
    · exact fun h => (Nat.succ.inj h.1).symm

/-- Nothing happens on behalf of a session that has ended. -/
theorem isolated_of_eq {r' : Recording} (h : r' = r) : Isolated encodes r' ∧ Wired encodes r' :=
  h ▸ ⟨hisolated, hwired⟩

/-- An event that can be written down, of a session that lives. -/
theorem isolated_input (hascii : ∀ c < 128, encodes c = true) {now : ℤ} {event : InputEvent}
    (hrecordable : r.Live i → event.Recordable encodes) :
    Isolated encodes (r.step encodes (.input i now event)) ∧
      Wired encodes (r.step encodes (.input i now event)) := by
  cases hclient : r.clients[i]? with
  | none => exact isolated_of_eq hisolated hwired (by simp [step, hclient])
  | some client =>
      by_cases hlive : client.live = true
      case neg => exact isolated_of_eq hisolated hwired (by simp [step, hclient, hlive])
      case pos =>
      rcases hisolated.recorded i client hclient with
        ⟨proxy, written, noted, hproxy, hholds, htranscript⟩
      have hnoted : proxy.noted = noted :=
        hwired.noted i proxy client written noted hproxy hclient htranscript
      rcases exists_transcript hascii noted now (hrecordable ((live_iff hclient).2 hlive)) with
        ⟨line, noted', hnext, hline, hall⟩
      rw [hlive, Bool.not_true] at hholds
      -- The line goes to the file of this session, and no other file changes.
      rcases hisolated.exclusive.write hholds line with
        ⟨files, hwrite, hexclusive, hlength, _, hholds', hframe⟩
      have hstep : r.step encodes (.input i now event) =
          { factory :=
              { r.factory with
                files := files
                proxies := r.factory.proxies.set i { proxy with noted := noted' } }
            clients := r.clients.set i { client with events := client.events ++ [(now, event)] } } := by
        have hhandle : r.factory.handleEvent encodes i now event =
            { r.factory with
              files := files
              proxies := r.factory.proxies.set i { proxy with noted := noted' } } := by
          simp only [VNCLoggingServerFactory.handleEvent, hproxy, hnoted, hline,
            VNCLoggingServerFactory.record, hall, if_true, hwrite, Option.map_some,
            Option.getD_some]
        simp only [step, hclient, hlive, if_true, hhandle]
      have hltp : i < r.factory.proxies.length := (List.getElem?_eq_some_iff.1 hproxy).1
      have hltc : i < r.clients.length := (List.getElem?_eq_some_iff.1 hclient).1
      have hrecorder : ∀ (j : ℕ) (proxy' : VNCLoggingServerProxy),
          (r.factory.proxies.set i { proxy with noted := noted' })[j]? = some proxy' →
            proxy'.recorder = j := by
        intro j proxy' hj
        rcases getElem?_set_cases hj with ⟨rfl, rfl⟩ | ⟨_, hj⟩
        · exact hwired.recorder j proxy hproxy
        · exact hwired.recorder j proxy' hj
      have hall_events : LoggedClient.transcript encodes
          { client with events := client.events ++ [(now, event)] } =
            some (written ++ line, noted') := by
        unfold LoggedClient.transcript at htranscript ⊢
        rw [transcript_append htranscript, hnext]
        rfl
      rw [hstep]
      -- Each part of the invariant is shown for this session, whose records have changed, and for
      -- the others, whose have not.
      refine ⟨⟨hexclusive, ?_, ?_⟩, ?_, ?_, hrecorder, ?_, ?_⟩
      · intro j k proxy₁ proxy₂ hj hk heq
        rw [← hrecorder j proxy₁ hj, heq, hrecorder k proxy₂ hk]
      · intro j client' hj
        rcases getElem?_set_cases hj with ⟨rfl, rfl⟩ | ⟨hne, hj⟩
        · refine ⟨{ proxy with noted := noted' }, written ++ line, noted',
            List.getElem?_set_self hltp, ?_, hall_events⟩
          simpa [hlive] using hholds'
        · refine (hisolated.recorded j client' hj).congr fun proxy' hproxy' => ?_
          refine ⟨proxy', ?_, rfl, fun written' hwritten' => hframe _ _ _ ?_ hwritten'⟩
          · simpa [List.getElem?_set_ne (Ne.symm hne)] using hproxy'
          · rw [hwired.recorder j proxy' hproxy', hwired.recorder i proxy hproxy]
            exact hne
      · simpa using hwired.proxies
      · simpa using hlength.trans hwired.files
      · intro k
        rw [hwired.out k, List.length_set]
        refine and_congr_right fun _ => ?_
        constructor
        · rintro ⟨client', hk, hlive'⟩
          by_cases hki : k = i
          · subst hki
            exact ⟨_, List.getElem?_set_self hltc, hlive⟩
          · exact ⟨client', by simpa [List.getElem?_set_ne (Ne.symm hki)] using hk, hlive'⟩
        · rintro ⟨client', hk, hlive'⟩
          rcases getElem?_set_cases hk with ⟨rfl, rfl⟩ | ⟨_, hk⟩
          · exact ⟨client, hclient, hlive⟩
          · exact ⟨client', hk, hlive'⟩
      · intro j proxy' client' written' noted₁ hj hj' htranscript'
        rcases getElem?_set_cases hj with ⟨rfl, rfl⟩ | ⟨hne, hj⟩
        · rw [List.getElem?_set_self hltc] at hj'
          cases hj'
          rw [hall_events] at htranscript'
          cases htranscript'
          rfl
        · rw [List.getElem?_set_ne (Ne.symm hne)] at hj'
          exact hwired.noted j proxy' client' written' noted₁ hj hj' htranscript'

/-- A session ends that is the one accepted last: the factory's slot is its own file. -/
theorem isolated_connectionLost (hlatest : r.Live i → i + 1 = r.clients.length) :
    Isolated encodes (r.step encodes (.connectionLost i)) ∧
      Wired encodes (r.step encodes (.connectionLost i)) := by
  cases hclient : r.clients[i]? with
  | none => exact isolated_of_eq hisolated hwired (by simp [step, hclient])
  | some client =>
      by_cases hlive : client.live = true
      case neg => exact isolated_of_eq hisolated hwired (by simp [step, hclient, hlive])
      case pos =>
      have hlive' : r.Live i := (live_iff hclient).2 hlive
      have hout : r.factory.out = some i := (hwired.out i).2 ⟨hlatest hlive', hlive'⟩
      rcases hisolated.recorded i client hclient with
        ⟨proxy, written, noted, hproxy, hholds, htranscript⟩
      have hrecorder : proxy.recorder = i := hwired.recorder i proxy hproxy
      rw [hlive, Bool.not_true, hrecorder] at hholds
      rcases hisolated.exclusive.close 0 hholds with ⟨hexclusive, hlength, _, hclosed, hframe⟩
      have hstep : r.step encodes (.connectionLost i) =
          { factory := { r.factory with files := r.factory.files.close 0 i, out := none }
            clients := r.clients.set i { client with live := false } } := by
        simp only [step, hclient, hlive, if_true, VNCLoggingServerFactory.clientConnectionLost, hout]
      have hltc : i < r.clients.length := (List.getElem?_eq_some_iff.1 hclient).1
      rw [hstep]
      -- The slot is empty now, and no session that lives is the latest.
      refine ⟨⟨hexclusive, hisolated.own, ?_⟩, ?_, hlength.trans ?_, hwired.recorder, ?_, ?_⟩
      · intro j client' hj
        rcases getElem?_set_cases hj with ⟨rfl, rfl⟩ | ⟨hne, hj⟩
        · refine ⟨proxy, written, noted, hproxy, ?_, htranscript⟩
          rw [hrecorder]
          exact hclosed
        · refine (hisolated.recorded j client' hj).congr fun proxy' hproxy' => ?_
          refine ⟨proxy', hproxy', rfl, fun written' => hframe _ _ _ ?_⟩
          rw [hwired.recorder j proxy' hproxy']
          exact hne
      · simpa using hwired.proxies
      · simpa using hwired.files
      · intro k
        refine iff_of_false (fun h => nomatch h) ?_
        rintro ⟨hk, client', hk', hlive''⟩
        rw [List.length_set] at hk
        have hki : k = i := Nat.succ.inj (hk.trans (hlatest hlive').symm)
        subst hki
        rw [List.getElem?_set_self hltc] at hk'
        cases hk'
        exact nomatch hlive''
      · intro j proxy' client' written' noted₁ hj hj' htranscript'
        rcases getElem?_set_cases hj' with ⟨rfl, rfl⟩ | ⟨_, hj'⟩
        · exact hwired.noted j proxy' client written' noted₁ hj hclient htranscript'
        · exact hwired.noted j proxy' client' written' noted₁ hj hj' htranscript'

theorem isolated_flush (file : ℕ) :
    Isolated encodes (r.step encodes (.flush file)) ∧
      Wired encodes (r.step encodes (.flush file)) := by
  rcases hisolated.exclusive.flush 0 file with ⟨hexclusive, hlength, _, hframe⟩
  refine ⟨⟨hexclusive, hisolated.own, ?_⟩, ?_⟩
  · intro i client hclient
    refine (hisolated.recorded i client hclient).congr fun proxy hproxy => ?_
    exact ⟨proxy, hproxy, rfl, fun written => hframe _ _ _⟩
  · exact ⟨hwired.proxies, hlength.trans hwired.files, hwired.recorder, hwired.out, hwired.noted⟩

/-- A step that meets the condition keeps the recordings isolated. -/
theorem isolated_step (hascii : ∀ c < 128, encodes c = true) {action : Action}
    (hmeets : Meets encodes r action) :
    Isolated encodes (r.step encodes action) ∧ Wired encodes (r.step encodes action) := by
  cases action with
  | accept stamp now => exact isolated_accept hisolated hwired hmeets
  | input i now event => exact isolated_input hisolated hwired hascii hmeets
  | connectionLost i => exact isolated_connectionLost hisolated hwired hmeets
  | flush file => exact isolated_flush hisolated hwired file

/-- A step that does not breaks the isolation. -/
theorem meets_of_isolated (hascii : ∀ c < 128, encodes c = true) {action : Action}
    (hnext : Isolated encodes (r.step encodes action)) : Meets encodes r action := by
  cases action with
  | accept stamp now =>
      intro hmem
      have hnodup : ((r.factory.files.openW (r.factory.outfile stamp)).opened.map
          OpenFile.path).Nodup := hnext.exclusive.nodup
      rw [Files.opened_openW, List.map_append, List.nodup_append] at hnodup
      exact hnodup.2.2 _ hmem _ (List.mem_singleton_self _) rfl
  | flush file => trivial
  | input i now event =>
      rintro ⟨client, hclient, hlive⟩
      rcases hisolated.recorded i client hclient with ⟨_, written, noted, _, _, htranscript⟩
      have hltc : i < r.clients.length := (List.getElem?_eq_some_iff.1 hclient).1
      have hclient' : (r.step encodes (.input i now event)).clients[i]? =
          some { client with events := client.events ++ [(now, event)] } := by
        simp only [step, hclient, hlive, if_true]
        exact List.getElem?_set_self hltc
      rcases hnext.recorded i _ hclient' with ⟨_, written', noted', _, _, htranscript'⟩
      unfold LoggedClient.transcript at htranscript htranscript'
      rw [transcript_append htranscript] at htranscript'
      rcases Option.map_eq_some_iff.1 htranscript' with ⟨rest, hrest, _⟩
      exact recordable_of_transcript hascii hrest
  | connectionLost i =>
      rintro ⟨client, hclient, hlive⟩
      by_contra hne
      rcases hisolated.recorded i client hclient with
        ⟨proxy, written, noted, hproxy, hholds, _⟩
      have hrecorder : proxy.recorder = i := hwired.recorder i proxy hproxy
      rw [hlive, Bool.not_true, hrecorder] at hholds
      have hltc : i < r.clients.length := (List.getElem?_eq_some_iff.1 hclient).1
      -- Another file is closed, or none: this session's stays open.
      have hopen : (r.factory.clientConnectionLost).files.Holds i false written := by
        unfold VNCLoggingServerFactory.clientConnectionLost
        cases hout : r.factory.out with
        | none => exact hholds
        | some k =>
            rcases (hwired.out k).1 hout with ⟨hk, clientk, hclientk, _⟩
            rcases hisolated.recorded k clientk hclientk with
              ⟨proxyk, writtenk, _, hproxyk, hholdsk, _⟩
            rw [hwired.recorder k proxyk hproxyk] at hholdsk
            rcases hisolated.exclusive.close 0 hholdsk with ⟨_, _, _, _, hframe⟩
            exact hframe i false written (fun heq => hne (heq ▸ hk)) hholds
      have hclient' : (r.step encodes (.connectionLost i)).clients[i]? =
          some { client with live := false } := by
        simp only [step, hclient, hlive, if_true]
        exact List.getElem?_set_self hltc
      have hfactory : (r.step encodes (.connectionLost i)).factory =
          r.factory.clientConnectionLost := by
        simp only [step, hclient, hlive, if_true]
      rcases hnext.recorded i _ hclient' with ⟨proxy', written', _, hproxy', hholds', _⟩
      have hproxies : (r.factory.clientConnectionLost).proxies = r.factory.proxies := by
        unfold VNCLoggingServerFactory.clientConnectionLost
        cases r.factory.out <;> rfl
      rw [hfactory, hproxies, hproxy] at hproxy'
      cases hproxy'
      rw [hfactory, hrecorder] at hholds'
      exact Bool.false_ne_true (hopen.unique hholds').1

end Steps

/-! ## Whole runs -/

theorem isolated_init (output : String) :
    Isolated encodes (init output) ∧ Wired encodes (init output) := by
  have hnone {α : Type} {i : ℕ} {a : α} (h : ([] : List α)[i]? = some a) : False := by
    simp at h
  refine ⟨⟨Files.exclusive_nil _, ?_, ?_⟩, rfl, rfl, ?_, ?_, ?_⟩
  · exact fun i _ proxy _ hproxy => (hnone hproxy).elim
  · exact fun i client hclient => (hnone hclient).elim
  · exact fun i proxy hproxy => (hnone hproxy).elim
  · intro k
    refine iff_of_false (fun h => nomatch h) ?_
    rintro ⟨hk, _⟩
    exact nomatch hk
  · exact fun i proxy _ _ _ hproxy => (hnone hproxy).elim

/-- The recordings are isolated in every state of a run exactly when every step of it meets the
condition. -/
theorem isolated_iff_meets (hascii : ∀ c < 128, encodes c = true) (output : String)
    (actions : List Action) :
    Always (step encodes) (Isolated encodes) (init output) actions ↔
      Throughout (step encodes) (Meets encodes) (init output) actions := by
  refine always_iff_throughout (I := fun r => Isolated encodes r ∧ Wired encodes r)
    ?_ ?_ ?_ (isolated_init output)
  · exact fun r h => h.1
  · exact fun r action h hmeets => isolated_step h.1 h.2 hascii hmeets
  · exact fun r action h hnext => meets_of_isolated h.1 h.2 hascii hnext

instance (r : Recording) (i : ℕ) : Decidable (r.Live i) :=
  match h : r.clients[i]? with
  | none => isFalse fun ⟨_, hclient, _⟩ => nomatch h.symm.trans hclient
  | some client =>
      decidable_of_iff (client.live = true) (live_iff h).symm

instance (r : Recording) (action : Action) : Decidable (Meets encodes r action) :=
  match action with
  | .accept _ _ => inferInstanceAs (Decidable (¬ _))
  | .input _ _ _ => inferInstanceAs (Decidable (_ → _))
  | .connectionLost _ => inferInstanceAs (Decidable (_ → _))
  | .flush _ => inferInstanceAs (Decidable True)

/-- Two clients, one after the other, of which the first types an `a`. -/
def sampleRun : List Action :=
  [.accept "240101-120000" 0, .input 0 15000 (.keyEvent 97 true), .connectionLost 0,
    .accept "240101-120001" 20000]

theorem isolated_iff_meets_sample :
    Throughout (step fun _ => true) (Meets fun _ => true) (init "/tmp") sampleRun ∧
      Always (step fun _ => true) (Isolated fun _ => true) (init "/tmp") sampleRun := by
  have hmeets : Throughout (step fun _ => true) (Meets fun _ => true) (init "/tmp") sampleRun := by
    decide +kernel
  exact ⟨hmeets, (isolated_iff_meets (fun _ _ => rfl) "/tmp" sampleRun).2 hmeets⟩

/-- The first of two clients to disconnect closes the file of the other one. -/
def overlap : List Action :=
  [.accept "240101-120000" 0, .accept "240101-120001" 10000, .connectionLost 0]

theorem not_isolated_overlap :
    ¬ Always (step fun _ => true) (Isolated fun _ => true) (init "/tmp") overlap := by
  intro hall
  have h := hall overlap List.prefix_rfl
  have hrecorder : ((overlap.foldl (step fun _ => true) (init "/tmp")).factory.proxies[1]?).map
      VNCLoggingServerProxy.recorder = some 1 := by decide +kernel
  have hclosed : ((overlap.foldl (step fun _ => true) (init "/tmp")).factory.files.opened[1]?).map
      OpenFile.closed = some true := by decide +kernel
  rcases h.recorded 1 { accepted := 10000 } (by decide +kernel) with
    ⟨proxy, _, _, hproxy, ⟨file, hfile, hopen, _⟩, _⟩
  rw [hproxy] at hrecorder
  rw [Option.some.inj hrecorder] at hfile
  rw [hfile] at hclosed
  exact absurd (hopen.symm.trans (Option.some.inj hclosed)) (by decide)

end Recording

end Vncdotool
