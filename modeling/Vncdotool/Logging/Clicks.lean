import Mathlib.Data.List.Destutter
import Mathlib.Data.Nat.Bitwise
import Vncdotool.Logging.SessionReplay

/-!
# Clicks — what a recorded pointer sends when it is run

`vnclog` writes a pointer event as a move, if the position is new, and a click of every button that
is held.  A click is a press and a release, so what comes back is the movement of a pointer without
buttons, with a press and a release of each held button after every event.  That is what the client
had sent, duplicates apart, exactly when its own presses were such `Clicks`.
-/

namespace Vncdotool

open Streaming VNCDoCLIClient

/-! ## Pointer input -/

/-- A pointer event, with the time of its arrival. -/
structure PointerMessage where
  time : ℤ
  x : UInt16
  y : UInt16
  buttonmask : UInt8
  deriving DecidableEq, Repr

namespace PointerMessage

def position (message : PointerMessage) : ℕ × ℕ :=
  (message.x.toNat, message.y.toNat)

def event (message : PointerMessage) : InputEvent :=
  .pointerEvent message.x.toNat message.y.toNat message.buttonmask.toNat

end PointerMessage

/-- The input of a session as its proxy sees it. -/
def pointerInput (messages : List PointerMessage) : List (ℤ × InputEvent) :=
  messages.map fun message => (message.time, message.event)

/-- Every event with a button held is of one button only, and stands between two events at the same
position with no button held. -/
def Clicks (events : List InputEvent) : Prop :=
  ∀ before x y buttonmask after, events = before ++ .pointerEvent x y buttonmask :: after →
    buttonmask ≠ 0 →
      (∃ i, buttonmask = 2 ^ i) ∧ before.getLast? = some (.pointerEvent x y 0) ∧
        after.head? = some (.pointerEvent x y 0)

/-! ## Lines -/

/-- The buttons of a mask, counted from 0. -/
def heldButtons (buttonmask : ℕ) : List ℕ :=
  (List.range 8).filter fun i => buttonmask.testBit i

/-- The words of a line, but for the pause. -/
def pointerWords (last : Option (ℕ × ℕ)) (position : ℕ × ℕ) (buttonmask : ℕ) : List Text :=
  (if last ≠ some position then [text "move", decimal position.1, decimal position.2] else []) ++
    (heldButtons buttonmask).flatMap fun i => [text "click", decimal (i + 1)]

/-- One press and release after the other. -/
def clickAll : List ℕ → ClientAction
  | [] => pure ()
  | i :: buttons => mousePress (i + 1) >>= fun _ => clickAll buttons

/-- What a line does, but for the pause. -/
def pointerAction (last : Option (ℕ × ℕ)) (position : ℕ × ℕ) (buttonmask : ℕ) : ClientAction :=
  (if last ≠ some position then mouseMove position.1 position.2 else pure ()) >>= fun _ =>
    clickAll (heldButtons buttonmask)

variable {delay : ℕ} {script : Text} {later : ClientAction}

theorem performs_clickAll (buttons : List ℕ) :
    Performs delay (buttons.flatMap fun i => [text "click", decimal (i + 1)])
      (clickAll buttons) := by
  induction buttons with
  | nil => exact performs_nil
  | cons i buttons ih =>
      rw [List.flatMap_cons]
      exact (performs_click (i + 1)).append ih

theorem performs_pointer (last : Option (ℕ × ℕ)) (position : ℕ × ℕ) (buttonmask : ℕ) :
    Performs delay (pointerWords last position buttonmask)
      (pointerAction last position buttonmask) := by
  refine Performs.append ?_ (performs_clickAll _)
  split_ifs
  · exact performs_move position.1 position.2
  · exact performs_nil

/-- A line of words that need no quotes. -/
theorem plays_words {words : List Text} {action : ClientAction} (h : Plays delay script later)
    (hsafe : ∀ word ∈ words, word.all isSafe = true) (hne : ∀ word ∈ words, word ≠ [])
    (hwords : Performs delay words action) :
    Plays delay (words.flatMap (· ++ [32]) ++ [10] ++ script) (action >>= fun _ => later) := by
  have hreturn : 13 ∉ words.flatMap (· ++ [32]) ++ [10] := by
    intro hmem
    rcases List.mem_append.1 hmem with hmem | hmem
    · rcases List.mem_flatMap.1 hmem with ⟨word, hword, hmem⟩
      rcases List.mem_append.1 hmem with hmem | hmem
      · exact return_not_mem (hsafe word hword) hmem
      · exact absurd hmem (by decide)
    · exact absurd hmem (by decide)
  have hsplits : Splits (words.flatMap (· ++ [32]) ++ [10]) (words ++ []) :=
    (splits_words hsafe hne).append (splits_blank (by decide))
  rw [List.append_nil] at hsplits
  exact h.line (newlines_append hreturn script) hsplits hwords

theorem join_flatMap (words : List Text) :
    join (words ++ [[10]]) = words.flatMap (· ++ [32]) ++ [10] := by
  induction words with
  | nil => exact join_end
  | cons word words ih =>
      rw [List.cons_append, join_cons word (by simp), ih, List.flatMap_cons, List.append_assoc,
        List.append_assoc]
      simp

theorem flatMap_move (last : Option (ℕ × ℕ)) (position : ℕ × ℕ) :
    (if last ≠ some position then
      [text "move " ++ decimal position.1 ++ [32] ++ decimal position.2] else []).flatMap
        (· ++ [32]) =
      (if last ≠ some position then
        [text "move", decimal position.1, decimal position.2] else []).flatMap (· ++ [32]) := by
  have hmove : text "move " = text "move" ++ [32] := by decide
  split_ifs
  · simp [hmove]
  · rfl

theorem flatMap_clicks (buttonmask : ℕ) :
    (clicks buttonmask).flatMap (· ++ [32]) =
      ((heldButtons buttonmask).flatMap fun i => [text "click", decimal (i + 1)]).flatMap
        (· ++ [32]) := by
  have hclick : text "click " = text "click" ++ [32] := by decide
  unfold clicks
  rw [List.flatMap_map, List.flatMap_assoc]
  simp [hclick, heldButtons]

theorem pointerLine_eq (noted : Noted) (now : ℤ) (position : ℕ × ℕ) (buttonmask : ℕ) :
    pointerLine noted now position.1 position.2 buttonmask =
      (([text "pause", formatSeconds (now - noted.lastEvent)] ++
        pointerWords noted.mouse position buttonmask).flatMap (· ++ [32]) ++ [10],
        { mouse := some position, lastEvent := now }) := by
  refine Prod.ext ?_ rfl
  simp only [pointerLine]
  rw [join_flatMap, pointerWords]
  simp only [List.flatMap_append]
  rw [← flatMap_move, flatMap_clicks]
  simp only [Prod.mk.eta, List.append_assoc]

/-- Only words that need no quotes. -/
theorem safe_pointerWords (last : Option (ℕ × ℕ)) (position : ℕ × ℕ) (buttonmask : ℕ)
    (wait : ℤ) :
    ∀ word ∈ [text "pause", formatSeconds wait] ++ pointerWords last position buttonmask,
      word.all isSafe = true ∧ word ≠ [] := by
  have hdecimal (n : ℕ) : (decimal n).all isSafe = true ∧ decimal n ≠ [] :=
    ⟨safe_decimal n, decimal_ne_nil n⟩
  intro word hword
  rcases List.mem_append.1 hword with hword | hword
  · simp only [List.mem_cons, List.not_mem_nil, or_false] at hword
    rcases hword with rfl | rfl
    · decide
    · exact ⟨safe_formatSeconds wait, formatSeconds_ne_nil wait⟩
  · rcases List.mem_append.1 hword with hword | hword
    · split_ifs at hword
      · simp only [List.mem_cons, List.not_mem_nil, or_false] at hword
        rcases hword with rfl | rfl | rfl
        · decide
        · exact hdecimal position.1
        · exact hdecimal position.2
      · exact absurd hword List.not_mem_nil
    · rcases List.mem_flatMap.1 hword with ⟨i, _, hword⟩
      simp only [List.mem_cons, List.not_mem_nil, or_false] at hword
      rcases hword with rfl | rfl
      · decide
      · exact hdecimal (i + 1)

/-! ## What is sent -/

def released (position : ℕ × ℕ) : InputEvent :=
  .pointerEvent position.1 position.2 0

def pressed (position : ℕ × ℕ) (button : ℕ) : InputEvent :=
  .pointerEvent position.1 position.2 (2 ^ button)

/-- What comes back of an event. -/
def reported (last : Option (ℕ × ℕ)) (message : PointerMessage) : List InputEvent :=
  (if last ≠ some message.position then [released message.position] else []) ++
    (heldButtons message.buttonmask.toNat).flatMap fun i =>
      [pressed message.position i, released message.position]

def echo : Option (ℕ × ℕ) → List PointerMessage → List InputEvent
  | _, [] => []
  | last, message :: messages =>
      reported last message ++ echo (some message.position) messages

/-- The client stands at this position and holds no button. -/
def resting (position : ℕ × ℕ) (sent : List InputEvent) : VNCDoCLIClient where
  x := position.1
  y := position.2
  sent := sent

theorem lt_eight_of_held {buttonmask i : ℕ} (h : i ∈ heldButtons buttonmask) : i < 8 :=
  List.mem_range.1 (List.mem_filter.1 h).1

/-- An event that fits its message goes out. -/
theorem pointerEvent_eq {x y buttonmask : ℕ} (hx : x < 2 ^ 16) (hy : y < 2 ^ 16)
    (hbuttons : buttonmask < 2 ^ 8) (client : VNCDoCLIClient) :
    pointerEvent x y buttonmask client =
      .ok () { client with sent := client.sent ++ [.pointerEvent x y buttonmask] } := by
  have hpacks : decide (RFBClient.Packs 1 buttonmask ∧ RFBClient.Packs 2 x ∧
      RFBClient.Packs 2 y) = true := by
    rw [decide_eq_true_eq]
    exact ⟨⟨Int.natCast_nonneg _, hbuttons⟩, ⟨Int.natCast_nonneg _, hx⟩,
      Int.natCast_nonneg _, hy⟩
  unfold pointerEvent
  rw [hpacks]
  rfl

theorem mouseMove_eq {position : ℕ × ℕ} (hx : position.1 < 2 ^ 16) (hy : position.2 < 2 ^ 16)
    (place : ℕ × ℕ) (sent : List InputEvent) :
    mouseMove position.1 position.2 (resting place sent) =
      .ok () (resting position (sent ++ [released position])) :=
  pointerEvent_eq hx hy (Nat.two_pow_pos 8) (resting position sent)

theorem mousePress_eq {i : ℕ} (hi : i < 8) {position : ℕ × ℕ} (hx : position.1 < 2 ^ 16)
    (hy : position.2 < 2 ^ 16) (sent : List InputEvent) :
    mousePress (i + 1) (resting position sent) =
      .ok () (resting position (sent ++ [pressed position i, released position])) := by
  have hbit : 2 ^ i < 2 ^ 8 := Nat.pow_lt_pow_right (by decide) hi
  have hclear : (2 ^ i).ldiff (2 ^ i) = 0 := by
    refine Nat.eq_of_testBit_eq fun j => ?_
    rw [Nat.testBit_ldiff, Nat.zero_testBit, Bool.and_not_self]
  have hdown : mouseDown (i + 1) (resting position sent) =
      .ok () { resting position (sent ++ [pressed position i]) with buttons := 2 ^ i } := by
    have hset : 0 ||| 2 ^ i = 2 ^ i := Nat.zero_or _
    change pointerEvent position.1 position.2 (0 ||| 2 ^ i)
      { resting position sent with buttons := 0 ||| 2 ^ i } = _
    rw [hset]
    exact pointerEvent_eq hx hy hbit _
  have hup : mouseUp (i + 1) { resting position (sent ++ [pressed position i]) with
      buttons := 2 ^ i } =
        .ok () (resting position (sent ++ [pressed position i] ++ [released position])) := by
    change pointerEvent position.1 position.2 ((2 ^ i).ldiff (2 ^ i))
      { resting position (sent ++ [pressed position i]) with
        buttons := (2 ^ i).ldiff (2 ^ i) } = _
    rw [hclear]
    exact pointerEvent_eq hx hy (by decide) _
  unfold mousePress
  change EStateM.bind (mouseDown (i + 1)) (fun _ => mouseUp (i + 1)) _ = _
  rw [EStateM.bind, hdown]
  rw [List.append_assoc] at hup
  exact hup

theorem clickAll_eq {buttons : List ℕ} (hbuttons : ∀ i ∈ buttons, i < 8) {position : ℕ × ℕ}
    (hx : position.1 < 2 ^ 16) (hy : position.2 < 2 ^ 16) (sent : List InputEvent) :
    clickAll buttons (resting position sent) =
      .ok () (resting position
        (sent ++ buttons.flatMap fun i => [pressed position i, released position])) := by
  induction buttons generalizing sent with
  | nil => simp [clickAll, pure, EStateM.pure]
  | cons i buttons ih =>
      have hfirst := mousePress_eq (hbuttons i List.mem_cons_self) hx hy sent
      have hrest := ih (fun j hj => hbuttons j (List.mem_cons_of_mem i hj))
        (sent ++ [pressed position i, released position])
      unfold clickAll
      change EStateM.bind (mousePress (i + 1)) (fun _ => clickAll buttons) _ = _
      rw [EStateM.bind, hfirst]
      rw [List.append_assoc] at hrest
      exact hrest

theorem sentAfter_bind {first : ClientAction} {client client' : VNCDoCLIClient}
    (h : first client = .ok () client') (action : ClientAction) :
    sentAfter (first >>= fun _ => action) client = sentAfter action client' := by
  have hbind : (first >>= fun _ => action) client = action client' := by
    change EStateM.bind first (fun _ => action) client = _
    rw [EStateM.bind, h]
  unfold sentAfter
  rw [hbind]

/-- A line sends what is reported of its event. -/
theorem pointerAction_eq {last : Option (ℕ × ℕ)} {place : ℕ × ℕ}
    (hlast : ∀ position, last = some position → place = position) (message : PointerMessage)
    (sent : List InputEvent) :
    pointerAction last message.position message.buttonmask.toNat (resting place sent) =
      .ok () (resting message.position (sent ++ reported last message)) := by
  have hx : message.position.1 < 2 ^ 16 := message.x.toNat_lt
  have hy : message.position.2 < 2 ^ 16 := message.y.toNat_lt
  have hbuttons : ∀ i ∈ heldButtons message.buttonmask.toNat, i < 8 :=
    fun i hi => lt_eight_of_held hi
  unfold pointerAction reported
  change EStateM.bind _ (fun _ => clickAll _) _ = _
  split_ifs with hmove
  · rw [EStateM.bind, mouseMove_eq hx hy, ← List.append_assoc]
    exact clickAll_eq hbuttons hx hy _
  · have hplace : place = message.position := hlast _ (not_not.1 hmove)
    rw [hplace, List.nil_append]
    exact clickAll_eq hbuttons hx hy sent

section Encoding

variable {encodes : ℕ → Bool} (hascii : ∀ c < 128, encodes c = true)

include hascii

theorem recordedText_pointer (noted : Noted) (message : PointerMessage)
    (messages : List PointerMessage) :
    recordedText encodes noted (pointerInput (message :: messages)) =
      ([text "pause", formatSeconds (message.time - noted.lastEvent)] ++
        pointerWords noted.mouse message.position message.buttonmask.toNat).flatMap (· ++ [32]) ++
          [10] ++ recordedText encodes { mouse := some message.position, lastEvent := message.time }
            (pointerInput messages) := by
  have hall := encodes_pointerLine hascii noted message.time message.x.toNat message.y.toNat
    message.buttonmask.toNat
  have hline := pointerLine_eq noted message.time message.position message.buttonmask.toNat
  simp only [pointerInput, List.map_cons, PointerMessage.event, recordedText, InputEvent.line]
  rw [if_pos hall]
  change (pointerLine noted message.time message.position.1 message.position.2 _).1 ++
    recordedText encodes (pointerLine noted message.time message.position.1 message.position.2 _).2
      _ = _
  rw [hline]

/-- Running the text of a session sends what is reported of its events, and fails where the clock
has been set back. -/
theorem plays_pointer (messages : List PointerMessage) (noted : Noted) :
    ∃ action, Plays delay (recordedText encodes noted (pointerInput messages)) action ∧
      ∀ place sent, (∀ position, noted.mouse = some position → place = position) →
        (sentAfter action (resting place sent) =
          if Steady noted.lastEvent (messages.map PointerMessage.time) then
            some (sent ++ echo noted.mouse messages)
          else none) := by
  induction messages generalizing noted with
  | nil =>
      refine ⟨pure (), plays_nil, ?_⟩
      intro place sent _
      simp [sentAfter, pure, EStateM.pure, resting, echo, Steady]
  | cons message messages ih =>
      rcases ih { mouse := some message.position, lastEvent := message.time } with
        ⟨action, hplays, hsent⟩
      have hwords := safe_pointerWords noted.mouse message.position message.buttonmask.toNat
        (message.time - noted.lastEvent)
      rw [recordedText_pointer hascii]
      refine ⟨_, plays_words hplays (fun word hword => (hwords word hword).1)
        (fun word hword => (hwords word hword).2)
        ((performs_pause _).append (performs_pointer _ _ _)), ?_⟩
      intro place sent hplace
      have hline : sentAfter (pointerAction noted.mouse message.position
          message.buttonmask.toNat >>= fun _ => action) (resting place sent) =
            sentAfter action (resting message.position (sent ++ reported noted.mouse message)) := by
        exact sentAfter_bind (pointerAction_eq hplace message sent) action
      have hrest := hsent message.position (sent ++ reported noted.mouse message)
        fun position hposition => Option.some.inj hposition
      rw [bind_assoc, sentAfter_pause, hline, hrest, List.map_cons]
      simp only [steady_cons, sub_nonneg, echo, List.append_assoc]
      split_ifs <;> tauto

end Encoding

/-! ## Clicks, one event at a time -/

theorem released_ne {position : ℕ × ℕ} {message : PointerMessage}
    (hmask : message.buttonmask.toNat ≠ 0) : released position ≠ message.event := by
  intro heq
  exact hmask (InputEvent.pointerEvent.inj heq).2.2.symm

/-- Without a button, an event says nothing about the clicks around it. -/
theorem clicks_released (position next : ℕ × ℕ) (events : List InputEvent) :
    Clicks (released position :: released next :: events) ↔ Clicks (released next :: events) := by
  constructor
  · intro h before x y buttonmask after heq hmask
    have hlonger := h (released position :: before) x y buttonmask after
      (congrArg (released position :: ·) heq) hmask
    cases before with
    | nil => exact absurd (InputEvent.pointerEvent.inj (List.cons.inj heq).1).2.2.symm hmask
    | cons first before =>
        rw [List.getLast?_cons_cons] at hlonger
        exact hlonger
  · intro h before x y buttonmask after heq hmask
    cases before with
    | nil => exact absurd (InputEvent.pointerEvent.inj (List.cons.inj heq).1).2.2.symm hmask
    | cons first before =>
        have hrest := h before x y buttonmask after (List.cons.inj heq).2 hmask
        cases before with
        | nil => exact absurd hrest.2.1 (by simp)
        | cons second before =>
            rw [List.getLast?_cons_cons]
            exact hrest

/-- A button is held for one event, where the pointer stands. -/
theorem clicks_pressed (position : ℕ × ℕ) {x y buttonmask : ℕ} (hmask : buttonmask ≠ 0)
    (events : List InputEvent) :
    Clicks (released position :: .pointerEvent x y buttonmask :: events) ↔
      (x, y) = position ∧ (∃ i, buttonmask = 2 ^ i) ∧
        ∃ rest, events = released position :: rest ∧ Clicks (released position :: rest) := by
  constructor
  · intro h
    rcases h [released position] x y buttonmask events rfl hmask with ⟨hsingle, hlast, hhead⟩
    have hplace : (x, y) = position := by
      have hinj := InputEvent.pointerEvent.inj (Option.some.inj hlast)
      exact Prod.ext hinj.1.symm hinj.2.1.symm
    cases events with
    | nil => exact absurd hhead (by simp)
    | cons event rest =>
        have hevent : event = released position := by
          rw [← hplace]
          exact Option.some.inj hhead
        subst hevent
        refine ⟨hplace, hsingle, rest, rfl, ?_⟩
        intro before x' y' buttonmask' after heq hmask'
        have hlonger := h (released position :: .pointerEvent x y buttonmask :: before) x' y'
          buttonmask' after
          (congrArg (fun tail => released position :: .pointerEvent x y buttonmask :: tail) heq)
          hmask'
        cases before with
        | nil => exact absurd (InputEvent.pointerEvent.inj (List.cons.inj heq).1).2.2.symm hmask'
        | cons first before =>
            rw [List.getLast?_cons_cons, List.getLast?_cons_cons] at hlonger
            exact hlonger
  · rintro ⟨rfl, hsingle, rest, rfl, hrest⟩ before x' y' buttonmask' after heq hmask'
    cases before with
    | nil => exact absurd (InputEvent.pointerEvent.inj (List.cons.inj heq).1).2.2.symm hmask'
    | cons first before =>
        rcases List.cons.inj heq with ⟨rfl, heq'⟩
        cases before with
        | nil =>
            rcases List.cons.inj heq' with ⟨hpress, rfl⟩
            rcases InputEvent.pointerEvent.inj hpress with ⟨rfl, rfl, rfl⟩
            exact ⟨hsingle, rfl, rfl⟩
        | cons second before =>
            rcases List.cons.inj heq' with ⟨rfl, heq''⟩
            have hshort := hrest before x' y' buttonmask' after heq'' hmask'
            cases before with
            | nil => exact absurd hshort.2.1 (by simp)
            | cons third before =>
                rw [List.getLast?_cons_cons, List.getLast?_cons_cons]
                exact hshort

/-! ## Counting presses -/

def isPressed : InputEvent → Bool
  | .pointerEvent _ _ buttonmask => buttonmask ≠ 0
  | .keyEvent _ _ => false

theorem heldButtons_two_pow {i : ℕ} (hi : i < 8) : heldButtons (2 ^ i) = [i] := by
  have hall : ∀ i < 8, heldButtons (2 ^ i) = [i] := by decide +kernel
  exact hall i hi

theorem heldButtons_ne_nil {buttonmask : ℕ} (hlt : buttonmask < 256) (hmask : buttonmask ≠ 0) :
    heldButtons buttonmask ≠ [] := by
  have hall : ∀ buttonmask < 256, buttonmask ≠ 0 → heldButtons buttonmask ≠ [] := by decide +kernel
  exact hall buttonmask hlt hmask

/-- Every event with a button held is reported with a press at least. -/
theorem countP_echo (last : Option (ℕ × ℕ)) (messages : List PointerMessage) :
    (messages.map PointerMessage.event).countP isPressed ≤
      (echo last messages).countP isPressed := by
  induction messages generalizing last with
  | nil => exact Nat.le_refl 0
  | cons message messages ih =>
      have hone : [message.event].countP isPressed ≤
          (reported last message).countP isPressed := by
        by_cases hmask : message.buttonmask.toNat = 0
        · have hnone : isPressed message.event = false := by
            simp [isPressed, PointerMessage.event, hmask]
          rw [List.countP_singleton, hnone]
          exact Nat.zero_le _
        · cases hheld : heldButtons message.buttonmask.toNat with
          | nil => exact absurd hheld (heldButtons_ne_nil message.buttonmask.toNat_lt hmask)
          | cons i buttons =>
              have hmem : pressed message.position i ∈ reported last message := by
                refine List.mem_append_right _ (List.mem_flatMap.2 ⟨i, ?_, List.mem_cons_self⟩)
                exact hheld ▸ List.mem_cons_self
              have hpress : isPressed (pressed message.position i) = true := by
                simp [isPressed, pressed]
              calc [message.event].countP isPressed ≤ [message.event].length :=
                    List.countP_le_length
                _ ≤ (reported last message).countP isPressed :=
                    List.countP_pos_iff.2 ⟨_, hmem, hpress⟩
      calc ((message :: messages).map PointerMessage.event).countP isPressed
          = [message.event].countP isPressed +
              (messages.map PointerMessage.event).countP isPressed := by
            rw [List.map_cons, ← List.singleton_append, List.countP_append]
        _ ≤ (reported last message).countP isPressed +
              (echo (some message.position) messages).countP isPressed :=
            Nat.add_le_add hone (ih _)
        _ = (echo last (message :: messages)).countP isPressed :=
            (List.countP_append ..).symm

theorem exists_destutter' {α : Type} [DecidableEq α] (a : α) (l : List α) :
    ∃ rest, l.destutter' (· ≠ ·) a = a :: rest := by
  induction l with
  | nil => exact ⟨[], rfl⟩
  | cons b l ih =>
      by_cases hne : a ≠ b
      · exact ⟨_, List.destutter'_cons_pos l hne⟩
      · rcases ih with ⟨rest, hrest⟩
        exact ⟨rest, (List.destutter'_cons_neg l hne).trans hrest⟩

/-! ## What comes back is what was sent -/

theorem reported_released {last : Option (ℕ × ℕ)} {message : PointerMessage}
    (hmask : message.buttonmask.toNat = 0) :
    reported last message =
      if last ≠ some message.position then [released message.position] else [] := by
  have hnone : heldButtons 0 = [] := by decide
  rw [reported, hmask, hnone]
  exact List.append_nil _

theorem event_released {message : PointerMessage} (hmask : message.buttonmask.toNat = 0) :
    message.event = released message.position := by
  rw [PointerMessage.event, hmask]
  rfl

/-- A press is not reported twice as often as it was made: after a press that is repeated, more
presses come back than there were. -/
theorem not_repeated {message message' : PointerMessage} {messages : List PointerMessage}
    (hmask : message.buttonmask.toNat ≠ 0) (hsame : message'.event = message.event) :
    (messages.map PointerMessage.event).destutter' (· ≠ ·) message.event ≠
      message.event :: released message.position ::
        echo (some message.position) (message' :: messages) := by
  intro heq
  have hpress : isPressed message.event = true := by
    simp [isPressed, PointerMessage.event, hmask]
  have hcount := congrArg (List.countP isPressed) heq
  have hle : ((messages.map PointerMessage.event).destutter' (· ≠ ·)
      message.event).countP isPressed ≤
        (message.event :: messages.map PointerMessage.event).countP isPressed :=
    (List.destutter'_sublist _ _ _).countP_le
  have hecho := countP_echo (some message.position) (message' :: messages)
  rw [List.map_cons, hsame] at hecho
  rw [List.countP_cons_of_pos hpress] at hle hecho hcount
  have hrelease : isPressed (released message.position) = false := by
    simp [isPressed, released]
  rw [List.countP_cons_of_neg (by simp [hrelease])] at hcount
  omega

/-- A press at the position reached: what comes back begins with it only when it is of a single
button, and then it goes on with its release. -/
theorem reported_pressed {position : ℕ × ℕ} {message : PointerMessage}
    (hmask : message.buttonmask.toNat ≠ 0) {later sent : List InputEvent}
    (heq : message.event :: sent = reported (some position) message ++ later) :
    message.position = position ∧ (∃ i, message.buttonmask.toNat = 2 ^ i) ∧
      sent = released message.position :: later := by
  unfold reported at heq
  split_ifs at heq with hmove
  -- The move comes first.
  · exact absurd (List.cons.inj heq).1.symm (released_ne hmask)
  · have hplace : message.position = position := (Option.some.inj (not_not.1 hmove)).symm
    cases hheld : heldButtons message.buttonmask.toNat with
    | nil => exact absurd hheld (heldButtons_ne_nil message.buttonmask.toNat_lt hmask)
    | cons i buttons =>
        rw [hheld] at heq
        rcases List.cons.inj heq with ⟨hpress, hsent⟩
        have hbutton : message.buttonmask.toNat = 2 ^ i := (InputEvent.pointerEvent.inj hpress).2.2
        have hi : i < 8 := lt_eight_of_held (hheld ▸ List.mem_cons_self)
        have hsingle : i :: buttons = [i] := by
          rw [← hheld, hbutton]
          exact heldButtons_two_pow hi
        rcases List.cons.inj hsingle with ⟨_, rfl⟩
        exact ⟨hplace, ⟨i, hbutton⟩, hsent⟩

theorem reported_single {message : PointerMessage} {i : ℕ}
    (hbutton : message.buttonmask.toNat = 2 ^ i) :
    reported (some message.position) message =
      [message.event, released message.position] := by
  have hi : i < 8 := by
    by_contra hge
    have hlt : message.buttonmask.toNat < 2 ^ 8 := message.buttonmask.toNat_lt
    have hle : 2 ^ 8 ≤ 2 ^ i := Nat.pow_le_pow_right (by decide) (Nat.le_of_not_lt hge)
    exact absurd (hbutton ▸ hlt) (Nat.not_lt.2 hle)
  rw [reported, if_neg (by simp), hbutton, heldButtons_two_pow hi, PointerMessage.event, hbutton]
  rfl

/-- A press is reported as it was made when its release is next, and what follows comes back. -/
theorem press_iff {position : ℕ × ℕ} {message : PointerMessage} {messages : List PointerMessage}
    (hmask : message.buttonmask.toNat ≠ 0)
    (ih : ∀ rest : List PointerMessage, rest.length ≤ messages.length →
      ((rest.map PointerMessage.event).destutter' (· ≠ ·) (released position) =
          released position :: echo (some position) rest ↔
        Clicks (released position :: rest.map PointerMessage.event))) :
    (messages.map PointerMessage.event).destutter' (· ≠ ·) message.event =
        reported (some position) message ++ echo (some message.position) messages ↔
      (message.x.toNat, message.y.toNat) = position ∧
        (∃ i, message.buttonmask.toNat = 2 ^ i) ∧
          ∃ rest, messages.map PointerMessage.event = released position :: rest ∧
            Clicks (released position :: rest) := by
  constructor
  · intro heq
    rcases exists_destutter' message.event (messages.map PointerMessage.event) with ⟨sent, hsent⟩
    rcases reported_pressed hmask (hsent.symm.trans heq) with ⟨rfl, hsingle, hrelease⟩
    refine ⟨rfl, hsingle, ?_⟩
    subst hrelease
    cases messages with
    | nil => exact absurd hsent (by simp)
    | cons message' messages =>
        -- A repetition leaves no trace of its own, while the script clicks again.
        by_cases hsame : message'.event = message.event
        · rw [List.map_cons, List.destutter'_cons_neg _ (by simp [hsame])] at hsent
          exact absurd hsent (not_repeated hmask hsame)
        · rw [List.map_cons, List.destutter'_cons_pos _ (Ne.symm hsame), List.cons_inj_right]
            at hsent
          rcases exists_destutter' message'.event (messages.map PointerMessage.event) with
            ⟨sent', hsent'⟩
          have hevent : message'.event = released message.position :=
            (List.cons.inj (hsent'.symm.trans hsent)).1
          rcases InputEvent.pointerEvent.inj hevent with ⟨hx, hy, hzero⟩
          have hplace : message'.position = message.position := Prod.ext hx hy
          rw [echo, reported_released hzero, if_neg (by simp [hplace]), List.nil_append, hplace,
            hevent] at hsent
          refine ⟨messages.map PointerMessage.event, by rw [List.map_cons, hevent], ?_⟩
          exact (ih messages (Nat.le_succ _)).1 hsent
  · rintro ⟨rfl, ⟨i, hbutton⟩, rest, hrest, hclicks⟩
    cases messages with
    | nil => exact absurd hrest (by simp)
    | cons message' messages =>
        rw [List.map_cons] at hrest
        rcases List.cons.inj hrest with ⟨hevent, rfl⟩
        rcases InputEvent.pointerEvent.inj hevent with ⟨hx, hy, hzero⟩
        have hplace : message'.position = message.position := Prod.ext hx hy
        -- The release writes no line, as the click has made it.
        have htail := (ih messages (Nat.le_succ _)).2 hclicks
        change _ = reported (some message.position) message ++ _
        rw [reported_single hbutton, List.map_cons, hevent,
          List.destutter'_cons_pos _ (released_ne hmask).symm, echo, reported_released hzero,
          if_neg (by simp [hplace]), List.nil_append, hplace]
        exact congrArg (message.event :: ·) htail

/-- From where the pointer stands without a button: what comes back is what was sent, duplicates
apart, exactly when the presses are clicks. -/
theorem echo_eq_iff (position : ℕ × ℕ) (messages : List PointerMessage) :
    (messages.map PointerMessage.event).destutter' (· ≠ ·) (released position) =
        released position :: echo (some position) messages ↔
      Clicks (released position :: messages.map PointerMessage.event) := by
  -- A press takes its release with it, so the induction is on the length.
  induction hlength : messages.length using Nat.strong_induction_on generalizing position messages
    with
  | _ n ih =>
    cases messages with
    | nil =>
        refine iff_of_true rfl ?_
        intro before x y buttonmask after heq hmask
        cases before with
        | nil => exact absurd (InputEvent.pointerEvent.inj (List.cons.inj heq).1).2.2.symm hmask
        | cons first before => exact absurd (List.cons.inj heq).2 (by simp)
    | cons message messages =>
        have hshorter : messages.length < n := by
          rw [← hlength]
          exact Nat.lt_succ_self _
        rw [List.map_cons, echo]
        by_cases hmask : message.buttonmask.toNat = 0
        · rw [event_released hmask, clicks_released, reported_released hmask]
          have hrest := ih _ hshorter message.position messages rfl
          by_cases hmove : position = message.position
          · rw [List.destutter'_cons_neg _ (by simp [hmove]), if_neg (by simp [hmove]), hmove]
            exact hrest
          · have hne : released position ≠ released message.position := by
              intro heq
              rcases InputEvent.pointerEvent.inj heq with ⟨hx, hy, _⟩
              exact hmove (Prod.ext hx hy)
            rw [List.destutter'_cons_pos _ hne, if_pos (by simpa using hmove), List.cons_inj_right]
            exact hrest
        · rw [List.destutter'_cons_pos _ (released_ne hmask), List.cons_inj_right]
          have hclicks := clicks_pressed position hmask (messages.map PointerMessage.event)
            (x := message.x.toNat) (y := message.y.toNat)
          have hpress := press_iff hmask fun rest hrest =>
            ih rest.length (hrest.trans_lt hshorter) position rest rfl
          exact hpress.trans hclicks.symm

/-! ## Runs -/

theorem chain_clicks {position : ℕ × ℕ} {rest : List InputEvent} (buttons : List ℕ)
    (hrest : (released position :: rest).IsChain (· ≠ ·)) :
    (released position :: ((buttons.flatMap fun i => [pressed position i, released position]) ++
      rest)).IsChain (· ≠ ·) := by
  induction buttons with
  | nil => exact hrest
  | cons i buttons ih =>
      have hpress : released position ≠ pressed position i := by
        intro heq
        exact (Nat.two_pow_pos i).ne (InputEvent.pointerEvent.inj heq).2.2
      exact List.isChain_cons_cons.2 ⟨hpress, List.isChain_cons_cons.2 ⟨hpress.symm, ih⟩⟩

/-- The replay sends nothing twice in a row. -/
theorem chain_echo (position : ℕ × ℕ) (messages : List PointerMessage) :
    (released position :: echo (some position) messages).IsChain (· ≠ ·) := by
  induction messages generalizing position with
  | nil => exact List.isChain_singleton _
  | cons message messages ih =>
      have hclicks := chain_clicks (heldButtons message.buttonmask.toNat) (ih message.position)
      rw [echo, reported, List.append_assoc]
      split_ifs with hmove
      · refine List.isChain_cons_cons.2 ⟨?_, hclicks⟩
        intro heq
        rcases InputEvent.pointerEvent.inj heq with ⟨hx, hy, _⟩
        exact hmove (congrArg some (Prod.ext hx hy))
      · rw [Option.some.inj (not_not.1 hmove)]
        exact hclicks

theorem echo_none (message : PointerMessage) (messages : List PointerMessage) :
    echo none (message :: messages) = released message.position ::
      (((heldButtons message.buttonmask.toNat).flatMap fun i =>
        [pressed message.position i, released message.position]) ++
          echo (some message.position) messages) := by
  rw [echo, reported, if_pos (by simp)]
  rfl

/-- The first event is always reported with a move. -/
theorem echo_none_eq_iff (messages : List PointerMessage) :
    echo none messages = (messages.map PointerMessage.event).destutter (· ≠ ·) ↔
      Clicks (messages.map PointerMessage.event) := by
  cases messages with
  | nil =>
      refine iff_of_true rfl ?_
      intro before x y buttonmask after heq _
      exact absurd heq (by simp)
  | cons message messages =>
      rw [echo_none, List.map_cons, List.destutter_cons']
      by_cases hmask : message.buttonmask.toNat = 0
      · have hnone : heldButtons 0 = [] := by decide
        rw [event_released hmask, hmask, hnone, ← echo_eq_iff]
        exact eq_comm
      · refine iff_of_false ?_ ?_
        · intro heq
          rcases exists_destutter' message.event (messages.map PointerMessage.event) with
            ⟨sent, hsent⟩
          exact released_ne hmask (List.cons.inj (heq.trans hsent)).1
        · intro hclicks
          have hlast := (hclicks [] _ _ _ _ rfl hmask).2.1
          exact absurd hlast (by simp)

section Replay

variable {encodes : ℕ → Bool} (hascii : ∀ c < 128, encodes c = true)

include hascii

theorem replay_pointer (delay : ℕ) (start : ℤ) (messages : List PointerMessage) :
    replay delay (recordedText encodes { lastEvent := start } (pointerInput messages)) =
      if Steady start (messages.map PointerMessage.time) then some (echo none messages)
      else none := by
  have hplays := @plays_pointer delay _ hascii messages { lastEvent := start }
  rcases hplays with ⟨action, hplays, hsent⟩
  calc replay delay (recordedText encodes { lastEvent := start } (pointerInput messages))
      = sentAfter action {} := hplays.replay_eq
    _ = if Steady start (messages.map PointerMessage.time) then some ([] ++ echo none messages)
        else none := hsent (0, 0) [] fun _ hnone => absurd hnone (by simp)

/-- Whatever a session's pointer did: after duplicates have been dropped, what comes back is what
was sent exactly when the clock has not been set back and the presses were clicks, each of one
button at rest. -/
theorem pointer_replayed_iff (delay : ℕ) (start : ℤ) (messages : List PointerMessage) :
    (replay delay (recordedText encodes { lastEvent := start } (pointerInput messages))).map
        (List.destutter (· ≠ ·)) =
          some ((messages.map PointerMessage.event).destutter (· ≠ ·)) ↔
      Steady start (messages.map PointerMessage.time) ∧
        Clicks (messages.map PointerMessage.event) := by
  rw [replay_pointer hascii]
  split_ifs with hsteady
  · have hchain : (echo none messages).IsChain (· ≠ ·) := by
      cases messages with
      | nil => exact List.isChain_nil
      | cons message messages =>
          rw [echo_none]
          exact chain_clicks _ (chain_echo message.position messages)
    rw [Option.map_some, List.destutter_of_isChain _ _ hchain, Option.some_inj, echo_none_eq_iff]
    exact (and_iff_right hsteady).symm
  · refine iff_of_false (by simp) ?_
    rintro ⟨hsteady', _⟩
    exact hsteady hsteady'

end Replay

/-- A move, and a click of the third button. -/
def rightClick : List PointerMessage :=
  [⟨2, 300, 200, 0⟩, ⟨3, 300, 200, 4⟩, ⟨5, 300, 200, 0⟩]

theorem pointer_replayed_iff_rightClick :
    (replay 0 (recordedText utf8 { lastEvent := 1 } (pointerInput rightClick))).map
        (List.destutter (· ≠ ·)) =
          some ((rightClick.map PointerMessage.event).destutter (· ≠ ·)) ↔
      Steady 1 (rightClick.map PointerMessage.time) ∧
        Clicks (rightClick.map PointerMessage.event) :=
  pointer_replayed_iff utf8_ascii 0 1 rightClick

/-- A drag: a button is held while the pointer moves. -/
theorem not_replayed_drag :
    ¬ ∀ messages : List PointerMessage,
      (replay 0 (recordedText utf8 { lastEvent := 0 } (pointerInput messages))).map
          (List.destutter (· ≠ ·)) =
            some ((messages.map PointerMessage.event).destutter (· ≠ ·)) := by
  intro hclaim
  exact absurd (hclaim [⟨0, 1, 1, 0⟩, ⟨0, 1, 1, 1⟩, ⟨0, 5, 1, 1⟩, ⟨0, 5, 1, 0⟩])
    (by decide +kernel)

end Vncdotool
