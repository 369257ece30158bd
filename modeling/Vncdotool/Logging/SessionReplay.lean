import Vncdotool.Command.CommandList
import Vncdotool.Logging.Recorder

/-!
# SessionReplay — what a recorded session sends when it is run

`vnclog` writes a session down as a script of `vncdo` commands.  `recordedText` is the text its
handlers leave, and `VNCDoCLIClient.replay` runs such a text.  Keys come back as they were recorded
as long as each of them has a name, or is a character that the file can hold and that is read back
as itself; and as long as the clock is not set back, since a pause cannot be negative.
-/

namespace Vncdotool

open Streaming VNCDoCLIClient

/-! ## The text of a session -/

variable (encodes : ℕ → Bool)

/-- What the events of a session leave in its file.  The handlers are observers: of an event that
has no line nothing remains, and of a line with a character that cannot be encoded only what has
been noted. -/
def recordedText : Noted → List (ℤ × InputEvent) → Text
  | _, [] => []
  | noted, (now, event) :: events =>
      match event.line noted now with
      | .error _ => recordedText noted events
      | .ok (line, noted) =>
          (if line.all encodes then line else []) ++ recordedText noted events

variable {encodes}

namespace VNCLoggingServerFactory

/-- One event of an open session adds its line, if it has one that can be written. -/
theorem handleEvent_holds {factory : VNCLoggingServerFactory} {i : ℕ}
    {proxy : VNCLoggingServerProxy} {written : Text} (hproxy : factory.proxies[i]? = some proxy)
    (hexclusive : factory.files.Exclusive)
    (hholds : factory.files.Holds proxy.recorder false written) (now : ℤ) (event : InputEvent)
    (events : List (ℤ × InputEvent)) :
    ∃ proxy' written', (factory.handleEvent encodes i now event).proxies[i]? = some proxy' ∧
      proxy'.recorder = proxy.recorder ∧
      (factory.handleEvent encodes i now event).files.Exclusive ∧
      (factory.handleEvent encodes i now event).files.Holds proxy.recorder false written' ∧
      written ++ recordedText encodes proxy.noted ((now, event) :: events) =
        written' ++ recordedText encodes proxy'.noted events := by
  have hlt : i < factory.proxies.length := (List.getElem?_eq_some_iff.1 hproxy).1
  simp only [handleEvent, hproxy, recordedText]
  cases hline : event.line proxy.noted now with
  | error exc => exact ⟨proxy, written, hproxy, rfl, hexclusive, hholds, rfl⟩
  | ok result =>
      rcases result with ⟨line, noted⟩
      dsimp only
      unfold record
      split_ifs with hall
      · rcases hexclusive.write hholds line with ⟨files, hwrite, hexclusive', _, _, hholds', _⟩
        refine ⟨{ proxy with noted := noted }, written ++ line, ?_, rfl, ?_, ?_,
          (List.append_assoc _ _ _).symm⟩
        · simp [hwrite, hlt]
        · simpa [hwrite] using hexclusive'
        · simpa [hwrite] using hholds'
      · refine ⟨{ proxy with noted := noted }, written, ?_, rfl, hexclusive, hholds, rfl⟩
        simp [hlt]

/-- The file of an open session holds what its events leave. -/
theorem holds_recordedText {factory : VNCLoggingServerFactory} {i : ℕ}
    {proxy : VNCLoggingServerProxy} {written : Text} (hproxy : factory.proxies[i]? = some proxy)
    (hexclusive : factory.files.Exclusive)
    (hholds : factory.files.Holds proxy.recorder false written)
    (events : List (ℤ × InputEvent)) :
    (events.foldl (fun factory event => factory.handleEvent encodes i event.1 event.2)
        factory).files.Holds proxy.recorder false
      (written ++ recordedText encodes proxy.noted events) := by
  induction events generalizing factory proxy written with
  | nil => simpa [recordedText] using hholds
  | cons event events ih =>
      rcases @handleEvent_holds encodes _ _ _ _ hproxy hexclusive hholds event.1 event.2 events
        with ⟨proxy', written', hproxy', hrecorder, hexclusive', hholds', htext⟩
      have hrest := ih hproxy' hexclusive' (hrecorder.symm ▸ hholds')
      rw [hrecorder, ← htext] at hrest
      exact hrest

end VNCLoggingServerFactory

/-! ## The words of a line -/

theorem return_not_mem {s : Text} (hs : s.all isSafe = true) : 13 ∉ s := by
  intro hmem
  exact absurd (List.all_eq_true.1 hs 13 hmem) (by decide)

theorem safe_decimal (n : ℕ) : (decimal n).all isSafe = true := by
  rw [List.all_eq_true]
  intro c hc
  have hdigit := decimal_digits hc
  have hall : ∀ c < 58, 48 ≤ c → isSafe c = true := by decide
  exact hall c (by omega) hdigit.1

theorem decimal_ne_nil (n : ℕ) : decimal n ≠ [] := by
  intro hnil
  have hvalue := digitsValue_decimal n
  rw [hnil] at hvalue
  exact absurd hvalue (by simp [digitsValue])

theorem safe_formatSeconds (t : ℤ) : (formatSeconds t).all isSafe = true := by
  have hdigit (n : ℕ) : isSafe (48 + n % 10) = true := by
    have hall : ∀ digit < 10, isSafe (48 + digit) = true := by decide
    exact hall _ (Nat.mod_lt n (by decide))
  have hsign : (if t < 0 then [45] else []).all isSafe = true := by
    split_ifs <;> decide
  unfold formatSeconds
  simp only [List.all_append, hsign, safe_decimal, List.all_cons, List.all_nil, hdigit]
  decide

theorem formatSeconds_ne_nil (t : ℤ) : formatSeconds t ≠ [] := by
  simp [formatSeconds]

/-- Quoting puts in no carriage return. -/
theorem return_not_mem_shlexQuote {s : Text} (hs : 13 ∉ s) : 13 ∉ shlexQuote s := by
  unfold shlexQuote
  split_ifs
  · decide
  · exact hs
  · intro hmem
    rcases List.mem_append.1 hmem with hmem | hmem
    · rcases List.mem_cons.1 hmem with hquote | hmem
      · exact absurd hquote (by decide)
      · rcases List.mem_flatMap.1 hmem with ⟨c, hc, hmem⟩
        split_ifs at hmem
        · exact absurd hmem (by decide)
        · exact hs (List.mem_singleton.1 hmem ▸ hc)
    · exact absurd hmem (by decide)

/-! ## Keys -/

/-- What a key is written as. -/
def keyWord (key : ℕ) : Text :=
  (reverseMap key).elim [key] text

/-- The key that is read back: a carriage return becomes the end of a line. -/
def readBack (key : ℕ) : ℕ :=
  if key = 13 then 10 else key

theorem keyWord_ne_nil (key : ℕ) : keyWord key ≠ [] := by
  unfold keyWord
  cases hname : reverseMap key with
  | none => exact List.cons_ne_nil key []
  | some name =>
      have hall : ∀ entry ∈ keymap, text entry.1 ≠ [] := by decide +kernel
      exact hall (name, key) (mem_keymap hname)

theorem decodeKey_keyWord (key : ℕ) : decodeKey (keyWord key) = .ok [key] := by
  unfold keyWord
  cases hname : reverseMap key with
  | none => exact decodeKey_char key
  | some name => exact decodeKey_name hname

theorem return_not_mem_keyWord {key : ℕ} (hkey : key ≠ 13) : 13 ∉ keyWord key := by
  unfold keyWord
  cases hname : reverseMap key with
  | none =>
      intro hmem
      exact hkey (List.mem_singleton.1 hmem).symm
  | some name =>
      have hall : ∀ entry ∈ keymap, 13 ∉ text entry.1 := by decide +kernel
      exact hall (name, key) (mem_keymap hname)

/-- The quoted word, as it is read. -/
theorem newlines_keyWord (key : ℕ) (rest : Text) :
    newlines (shlexQuote (keyWord key) ++ rest) =
      shlexQuote (keyWord (readBack key)) ++ newlines rest := by
  unfold readBack
  split_ifs with hkey
  · subst hkey
    have hword : shlexQuote (keyWord 13) = [39, 13, 39] := by decide
    have hword' : shlexQuote (keyWord 10) = [39, 10, 39] := by decide
    rw [hword, hword']
    change newlines (39 :: 13 :: 39 :: rest) = 39 :: 10 :: 39 :: newlines rest
    rw [newlines_cons (by decide), newlines_return (by decide), newlines_cons (by decide)]
  · exact newlines_append (return_not_mem_shlexQuote (return_not_mem_keyWord hkey)) rest

/-! ## Lines -/

theorem join_cons (word : Text) {words : List Text} (hne : words ≠ []) :
    join (word :: words) = word ++ [32] ++ join words := by
  cases words with
  | nil => exact absurd rfl hne
  | cons next words => simp [join, List.intercalate]

theorem join_end : join [[10]] = [10] := by
  decide

variable {delay : ℕ} {script : Text} {later : ClientAction}

/-- Words that need no quotes, each with a blank behind it. -/
theorem splits_words {words : List Text} (hsafe : ∀ word ∈ words, word.all isSafe = true)
    (hne : ∀ word ∈ words, word ≠ []) : Splits (words.flatMap (· ++ [32])) words := by
  induction words with
  | nil => exact splits_nil
  | cons word words ih =>
      have hword : Splits (word ++ [32]) [word] :=
        splits_safe (hsafe word List.mem_cons_self) (hne word List.mem_cons_self) (by decide)
      have hwords : Splits (words.flatMap (· ++ [32])) words :=
        ih (fun word hmem => hsafe word (List.mem_cons_of_mem _ hmem))
          fun word hmem => hne word (List.mem_cons_of_mem _ hmem)
      rw [List.flatMap_cons]
      exact hword.append hwords

/-- The client waits, and then it sends the key. -/
def keyAction (wait : ℤ) (key : ℕ) (down : Bool) : ClientAction :=
  pause wait >>= fun _ => keyEvent key down

theorem performs_key (wait : ℤ) (key : ℕ) (down : Bool) :
    Performs delay
      ([text "pause", formatSeconds wait] ++
        [text (if down then "keydown" else "keyup"), keyWord key])
      (keyAction wait key down) := by
  refine (performs_pause wait).append ?_
  cases down with
  | true =>
      have hdown : keyDown (keyWord key) = keyEvent key true := by
        simp [keyDown, decodeKey_keyWord]
      exact hdown ▸ performs_keyDown (keyWord key)
  | false =>
      have hup : keyUp (keyWord key) = keyEvent key false := by
        simp [keyUp, decodeKey_keyWord]
      exact hup ▸ performs_keyUp (keyWord key)

theorem plays_keyLine (h : Plays delay script later) (wait : ℤ) (key : ℕ) (down : Bool) :
    Plays delay
      (join [text "pause", formatSeconds wait, text (if down then "keydown" else "keyup"),
        shlexQuote (keyWord key), [10]] ++ script)
      (keyAction wait (readBack key) down >>= fun _ => later) := by
  let plain : List Text :=
    [text "pause", formatSeconds wait, text (if down then "keydown" else "keyup")]
  have hsafe : ∀ word ∈ plain, word.all isSafe = true := by
    intro word hword
    simp only [plain, List.mem_cons, List.not_mem_nil, or_false] at hword
    rcases hword with rfl | rfl | rfl
    · decide
    · exact safe_formatSeconds wait
    · cases down <;> decide
  have hne : ∀ word ∈ plain, word ≠ [] := by
    intro word hword
    simp only [plain, List.mem_cons, List.not_mem_nil, or_false] at hword
    rcases hword with rfl | rfl | rfl
    · decide
    · exact formatSeconds_ne_nil wait
    · cases down <;> decide
  have hreturn : 13 ∉ plain.flatMap (· ++ [32]) := by
    intro hmem
    rcases List.mem_flatMap.1 hmem with ⟨word, hword, hmem⟩
    rcases List.mem_append.1 hmem with hmem | hmem
    · exact return_not_mem (hsafe word hword) hmem
    · exact absurd hmem (by decide)
  have hjoin : join [text "pause", formatSeconds wait, text (if down then "keydown" else "keyup"),
      shlexQuote (keyWord key), [10]] =
        plain.flatMap (· ++ [32]) ++ (shlexQuote (keyWord key) ++ [32, 10]) := by
    simp [join, List.intercalate, plain]
  have hnewlines : newlines (plain.flatMap (· ++ [32]) ++ (shlexQuote (keyWord key) ++ [32, 10]) ++
      script) = plain.flatMap (· ++ [32]) ++
        (shlexQuote (keyWord (readBack key)) ++ [32] ++ [10]) ++ newlines script := by
    rw [List.append_assoc, newlines_append hreturn, List.append_assoc, newlines_keyWord,
      newlines_append (by decide)]
    simp
  have hquoted : Splits (shlexQuote (keyWord (readBack key)) ++ [32] ++ [10])
      ([keyWord (readBack key)] ++ []) :=
    (splits_quote (keyWord_ne_nil _) (by decide)).append (splits_blank (by decide))
  rw [hjoin]
  exact h.line hnewlines ((splits_words hsafe hne).append hquoted)
    (performs_key wait (readBack key) down)

/-! ## Keyboard input -/

/-- A key event, with the time of its arrival. -/
structure KeyMessage where
  time : ℤ
  key : UInt32
  down : Bool
  deriving DecidableEq, Repr

def KeyMessage.event (message : KeyMessage) : InputEvent :=
  .keyEvent message.key.toNat message.down

/-- The input of a session as its proxy sees it. -/
def keyInput (messages : List KeyMessage) : List (ℤ × InputEvent) :=
  messages.map fun message => (message.time, message.event)

/-- The key can be written down and read back. -/
def KeyMessage.Replayable (encodes : ℕ → Bool) (message : KeyMessage) : Prop :=
  message.event.Recordable encodes ∧ message.key ≠ 13

/-- The clock is not set back between these events. -/
def Steady (start : ℤ) (times : List ℤ) : Prop :=
  (start :: times).IsChain (· ≤ ·)

instance (start : ℤ) (times : List ℤ) : Decidable (Steady start times) :=
  inferInstanceAs (Decidable ((start :: times).IsChain (· ≤ ·)))

theorem steady_cons {start time : ℤ} {times : List ℤ} :
    Steady start (time :: times) ↔ start ≤ time ∧ Steady time times :=
  List.isChain_cons_cons

/-- The events that come back, when the last one came at `start`. -/
def keysSent (encodes : ℕ → Bool) : ℤ → List KeyMessage → Option (List InputEvent)
  | _, [] => some []
  | start, message :: messages =>
      if message.event.Recordable encodes then
        if start ≤ message.time then
          (keysSent encodes message.time messages).map
            (InputEvent.keyEvent (readBack message.key.toNat) message.down :: ·)
        else
          none
      else if message.key.toNat < 0x110000 then
        keysSent encodes message.time messages
      else
        keysSent encodes start messages

theorem sentAfter_pause (wait : ℤ) (action : ClientAction) (client : VNCDoCLIClient) :
    sentAfter (pause wait >>= fun _ => action) client =
      if 0 ≤ wait then sentAfter action client else none := by
  unfold pause
  split_ifs with hwait
  · rw [pure_bind]
  · rfl

theorem sentAfter_key {key : ℕ} (hkey : key < 2 ^ 32) (wait : ℤ) (down : Bool)
    (action : ClientAction) (client : VNCDoCLIClient) :
    sentAfter (keyAction wait key down >>= fun _ => action) client =
      if 0 ≤ wait then
        sentAfter action { client with sent := client.sent ++ [.keyEvent key down] }
      else none := by
  have hpacks : decide (RFBClient.Packs 4 key) = true := by
    rw [decide_eq_true_eq]
    exact ⟨Int.natCast_nonneg key, hkey⟩
  rw [keyAction, bind_assoc, sentAfter_pause, keyEvent, hpacks]
  rfl

section Encoding

variable (hascii : ∀ c < 128, encodes c = true)

include hascii

theorem recordedText_key {key : ℕ} {down : Bool} (noted : Noted) (now : ℤ)
    (events : List (ℤ × InputEvent)) (hkey : key < 0x110000) :
    recordedText encodes noted ((now, .keyEvent key down) :: events) =
      (if (InputEvent.keyEvent key down).Recordable encodes then
        join [text "pause", formatSeconds (now - noted.lastEvent),
          text (if down then "keydown" else "keyup"), shlexQuote (keyWord key), [10]]
      else []) ++ recordedText encodes { noted with lastEvent := now } events := by
  have hline : InputEvent.line noted now (.keyEvent key down) = _ :=
    keyLine_eq noted now down hkey
  have hiff := exists_line_iff hascii noted now (.keyEvent key down)
  simp only [recordedText, hline]
  congr 1
  refine if_congr ?_ rfl rfl
  rw [← hiff, hline]
  constructor
  · intro hall
    exact ⟨_, _, rfl, hall⟩
  · rintro ⟨line, noted', heq, hall⟩
    cases heq
    exact hall

/-- Running the text of a session sends what comes back of its keys. -/
theorem plays_keys (messages : List KeyMessage) (noted : Noted) :
    ∃ action, Plays delay (recordedText encodes noted (keyInput messages)) action ∧
      ∀ client, sentAfter action client =
        (keysSent encodes noted.lastEvent messages).map (client.sent ++ ·) := by
  induction messages generalizing noted with
  | nil =>
      refine ⟨pure (), plays_nil, ?_⟩
      intro client
      simp [keysSent, sentAfter, pure, EStateM.pure]
  | cons message messages ih =>
      rcases message with ⟨now, key, down⟩
      change ∃ action, Plays delay
        (recordedText encodes noted ((now, .keyEvent key.toNat down) :: keyInput messages)) action ∧ _
      by_cases hkey : key.toNat < 0x110000
      · rw [recordedText_key hascii noted now _ hkey]
        rcases ih { noted with lastEvent := now } with ⟨action, hplays, hsent⟩
        by_cases hrecord : (InputEvent.keyEvent key.toNat down).Recordable encodes
        · rw [if_pos hrecord]
          have hback : readBack key.toNat < 2 ^ 32 := by
            unfold readBack
            split_ifs <;> omega
          refine ⟨_, plays_keyLine hplays (now - noted.lastEvent) key.toNat down, ?_⟩
          intro client
          rw [sentAfter_key hback, hsent]
          simp only [keysSent, KeyMessage.event, if_pos hrecord]
          by_cases hsteady : noted.lastEvent ≤ now
          · rw [if_pos (by omega), if_pos hsteady, Option.map_map]
            refine congrArg (Option.map · _) ?_
            funext sent
            exact List.append_assoc _ _ _
          · rw [if_neg (by omega), if_neg hsteady]
            rfl
        -- The line is lost, the time of the event is not.
        · rw [if_neg hrecord]
          refine ⟨action, hplays, ?_⟩
          intro client
          rw [hsent]
          simp only [keysSent, KeyMessage.event, if_neg hrecord, if_pos hkey]
      -- `chr` raises before anything is noted.
      · have hnone : recordedText encodes noted ((now, .keyEvent key.toNat down) ::
            keyInput messages) = recordedText encodes noted (keyInput messages) := by
          simp only [recordedText, InputEvent.line, keyLine, keyText, chr, if_neg hkey]
          rfl
        have hrecord : ¬ (InputEvent.keyEvent key.toNat down).Recordable encodes := by
          intro h
          exact hkey h.1
        rcases ih noted with ⟨action, hplays, hsent⟩
        refine ⟨action, hnone.symm ▸ hplays, ?_⟩
        intro client
        rw [hsent]
        simp only [keysSent, KeyMessage.event, if_neg hrecord, if_neg hkey]

omit hascii

theorem keysSent_length {start : ℤ} {messages : List KeyMessage} {sent : List InputEvent}
    (h : keysSent encodes start messages = some sent) : sent.length ≤ messages.length := by
  induction messages generalizing start sent with
  | nil =>
      cases Option.some.inj h
      exact Nat.le_refl 0
  | cons message messages ih =>
      rw [keysSent] at h
      split_ifs at h with hrecord hsteady hkey
      · rcases Option.map_eq_some_iff.1 h with ⟨rest, hrest, rfl⟩
        exact Nat.succ_le_succ (ih hrest)
      · exact Nat.le_succ_of_le (ih h)
      · exact Nat.le_succ_of_le (ih h)

theorem readBack_event_iff (message : KeyMessage) :
    InputEvent.keyEvent (readBack message.key.toNat) message.down = message.event ↔
      message.key ≠ 13 := by
  have hthirteen : message.key.toNat = 13 ↔ message.key = 13 := by
    constructor
    · intro h
      exact UInt32.toNat_inj.1 h
    · intro h
      rw [h]
      rfl
  unfold readBack KeyMessage.event
  split_ifs with hkey
  · refine iff_of_false ?_ fun hne => hne (hthirteen.1 hkey)
    intro heq
    have hten := (InputEvent.keyEvent.inj heq).1
    omega
  · exact iff_of_true rfl fun heq => hkey (hthirteen.2 heq)

/-- All of the keys come back when none is lost, none is changed and no pause is negative. -/
theorem keysSent_iff (start : ℤ) (messages : List KeyMessage) :
    keysSent encodes start messages = some (messages.map KeyMessage.event) ↔
      Steady start (messages.map KeyMessage.time) ∧
        ∀ message ∈ messages, message.Replayable encodes := by
  induction messages generalizing start with
  | nil => simp [keysSent, Steady]
  | cons message messages ih =>
      -- An event that is lost is missing in the end.
      have hlost (start' : ℤ) :
          keysSent encodes start' messages ≠ some ((message :: messages).map KeyMessage.event) := by
        intro h
        have hlength := keysSent_length h
        rw [List.length_map, List.length_cons] at hlength
        exact Nat.not_succ_le_self _ hlength
      rw [keysSent]
      split_ifs with hrecord hsteady hkey
      · rw [Option.map_eq_some_iff, List.map_cons, List.map_cons, List.forall_mem_cons,
          steady_cons]
        have hfirst : message.Replayable encodes ↔ message.key ≠ 13 := and_iff_right hrecord
        rw [hfirst, ← readBack_event_iff]
        constructor
        · rintro ⟨rest, hrest, heq⟩
          rcases List.cons.inj heq with ⟨hevent, rfl⟩
          rcases (ih message.time).1 hrest with ⟨hsteady', hall⟩
          exact ⟨⟨hsteady, hsteady'⟩, hevent, hall⟩
        · rintro ⟨⟨_, hsteady'⟩, hevent, hall⟩
          exact ⟨_, (ih message.time).2 ⟨hsteady', hall⟩, by rw [hevent]⟩
      · refine iff_of_false (by simp) ?_
        rintro ⟨hchain, _⟩
        exact hsteady (steady_cons.1 hchain).1
      · refine iff_of_false (hlost _) ?_
        rintro ⟨_, hall⟩
        exact hrecord (hall message List.mem_cons_self).1
      · refine iff_of_false (hlost _) ?_
        rintro ⟨_, hall⟩
        exact hrecord (hall message List.mem_cons_self).1

include hascii in
/-- Running a recorded session sends the keys it was recorded from, in their order and no others,
exactly when each has a name or is a character of the file other than a carriage return, and the
clock has not been set back. -/
theorem keys_replayed_iff (delay : ℕ) (start : ℤ) (messages : List KeyMessage) :
    replay delay (recordedText encodes { lastEvent := start } (keyInput messages)) =
        some (messages.map KeyMessage.event) ↔
      Steady start (messages.map KeyMessage.time) ∧
        ∀ message ∈ messages, message.Replayable encodes := by
  have hplays : ∃ action, Plays delay
      (recordedText encodes { lastEvent := start } (keyInput messages)) action ∧
        ∀ client, sentAfter action client =
          (keysSent encodes start messages).map (client.sent ++ ·) :=
    plays_keys hascii messages { lastEvent := start }
  rcases hplays with ⟨action, hplays, hsent⟩
  have hreplay : replay delay (recordedText encodes { lastEvent := start } (keyInput messages)) =
      keysSent encodes start messages := by
    calc replay delay (recordedText encodes { lastEvent := start } (keyInput messages))
        = sentAfter action {} := hplays.replay_eq
      _ = (keysSent encodes start messages).map ([] ++ ·) := hsent {}
      _ = keysSent encodes start messages := Option.map_id_fun' ▸ rfl
  rw [hreplay]
  exact keysSent_iff start messages

end Encoding

/-- The characters that UTF-8 has an encoding for. -/
def utf8 (c : ℕ) : Bool :=
  c < 0xD800 || (0xE000 ≤ c && c < 0x110000)

theorem utf8_ascii : ∀ c < 128, utf8 c = true := by
  decide

/-- A quote, which is pressed and released. -/
def quoteKeys : List KeyMessage :=
  [⟨5, 39, true⟩, ⟨9, 39, false⟩]

theorem keys_replayed_iff_quote :
    replay 0 (recordedText utf8 { lastEvent := 2 } (keyInput quoteKeys)) =
        some (quoteKeys.map KeyMessage.event) ↔
      Steady 2 (quoteKeys.map KeyMessage.time) ∧
        ∀ message ∈ quoteKeys, message.Replayable utf8 :=
  keys_replayed_iff utf8_ascii 0 2 quoteKeys

/-- The key of the euro sign, as X11 numbers the characters of Unicode, is lost. -/
theorem not_replayed_euro :
    ¬ ∀ messages : List KeyMessage,
      replay 0 (recordedText utf8 { lastEvent := 0 } (keyInput messages)) =
        some (messages.map KeyMessage.event) := by
  intro hclaim
  exact absurd (hclaim [⟨0, 0x010020AC, true⟩]) (by decide +kernel)

end Vncdotool
