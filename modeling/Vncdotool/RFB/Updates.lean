import Vncdotool.RFB.Rectangles

/-!
# Updates — how a class of clients decodes the messages of a server

`Absorbs` says what a class of clients does with its callbacks between two messages: the rectangles
turn the attributes by `effect` and the commit by `commit`, and the other messages do nothing.  Then
a stream of messages makes the callbacks it means, and is a fold over the attributes
(`leaves_messages`), whatever the class.
-/

namespace Vncdotool

open Wire Streaming StateTransition

namespace Connection

variable {σ : Type} {rt : Runtime σ} {c : RFBClient σ} {size : ℕ × ℕ} {fb : Framebuffer}
  {I : σ → Prop} {effect : ServerRect fb → σ → σ} {commit : List Rect → σ → σ}

/-- The callbacks of the messages that are no updates. -/
def Notifies : Callback → Prop
  | .bell => True
  | .copyText _ => True
  | .setColorMap _ _ => True
  | _ => False

/-- What the callbacks of a message do to the attributes a subclass adds, as long as `I` holds of
them. -/
structure Absorbs (rt : Runtime σ) (size : ℕ × ℕ) (fb : Framebuffer) (I : σ → Prop)
    (effect : ServerRect fb → σ → σ) (commit : List Rect → σ → σ) : Prop
    extends Plays rt size fb I effect where
  notifies : ∀ cb, Notifies cb → ∀ c, rt.override cb c = .ok () c
  commits : ∀ (rectangles : List Rect) (c : RFBClient σ), Decoding size fb c → I c.app →
    rt.override (.commitUpdate rectangles) c = .ok () { c with app := commit rectangles c.app }
  committed : ∀ (rectangles : List Rect) (app : σ), I app → I (commit rectangles app)

/-- The attributes after a message. -/
def absorbed (effect : ServerRect fb → σ → σ) (commit : List Rect → σ → σ)
    (message : ServerMessage fb) (app : σ) : σ :=
  match message.update? with
  | some rects => commit (rects.flatMap ServerRect.position) (played effect rects app)
  | none => app

/-- A message has been decoded, with these callbacks, and left these attributes. -/
def Leaves (rt : Runtime σ) (size : ℕ × ℕ) (fb : Framebuffer) (c : RFBClient σ) (bytes : Bytes)
    (callbacks : List Callback) (app : σ) : Prop :=
  ∀ rest, ∃ c', Reaches (iterate rt) (live c (bytes ++ rest)) (live c' rest) ∧
    Waiting size fb c' ∧ c'.log = c.log ++ callbacks.map .callback ∧ c'.app = app

/-! ## Colours -/

theorem length_encodeColours (colours : List (U16 × U16 × U16)) :
    (colours.flatMap ServerMessage.encodeColour).length = 6 * colours.length := by
  induction colours with
  | nil => rfl
  | cons colour colours ih =>
      rw [List.flatMap_cons, List.length_append, ih, List.length_cons]
      simp only [ServerMessage.encodeColour, List.length_append, length_packBE]
      omega

/-- The entries are read back six bytes at a time. -/
theorem colours_encodeColours (colours : List (U16 × U16 × U16)) :
    RFBClient.colours (colours.flatMap ServerMessage.encodeColour) =
      colours.map fun colour => (colour.1.val, colour.2.1.val, colour.2.2.val) := by
  have hcount : (colours.flatMap ServerMessage.encodeColour).length / 6 = colours.length := by
    rw [length_encodeColours]
    omega
  unfold RFBClient.colours
  rw [hcount]
  clear hcount
  induction colours with
  | nil => rfl
  | cons colour colours ih =>
      have hlen : (ServerMessage.encodeColour colour).length = 6 := by
        simp [ServerMessage.encodeColour]
      -- What an entry at a later index is read from does not begin with the first one.
      have htail (i j : ℕ) :
          field (ServerMessage.encodeColour colour ++
            colours.flatMap ServerMessage.encodeColour) (6 * (i + 1) + j) 2 =
          field (colours.flatMap ServerMessage.encodeColour) (6 * i + j) 2 := by
        unfold field
        rw [slice_append_right _ _ _ (by omega), hlen]
        congr 2
        omega
      have hred : field (ServerMessage.encodeColour colour ++
          colours.flatMap ServerMessage.encodeColour) 0 2 = colour.1 := by
        have h := @field_pack [] (packBE 2 colour.2.1 ++ packBE 2 colour.2.2 ++
          colours.flatMap ServerMessage.encodeColour) 0 2 _ rfl colour.1.isLt
        simpa [ServerMessage.encodeColour] using h
      have hgreen : field (ServerMessage.encodeColour colour ++
          colours.flatMap ServerMessage.encodeColour) 2 2 = colour.2.1 := by
        have h := @field_pack (packBE 2 colour.1) (packBE 2 colour.2.2 ++
          colours.flatMap ServerMessage.encodeColour) 2 2 _ (by simp) colour.2.1.isLt
        simpa [ServerMessage.encodeColour] using h
      have hblue : field (ServerMessage.encodeColour colour ++
          colours.flatMap ServerMessage.encodeColour) 4 2 = colour.2.2 := by
        have h := @field_pack (packBE 2 colour.1 ++ packBE 2 colour.2.1)
          (colours.flatMap ServerMessage.encodeColour) 4 2 _ (by simp) colour.2.2.isLt
        simpa [ServerMessage.encodeColour] using h
      rw [List.flatMap_cons, List.length_cons, List.range_succ_eq_map, List.map_cons, List.map_map,
        List.map_cons, ← ih]
      refine congrArg₂ List.cons ?_ ?_
      · rw [Prod.mk.injEq, Prod.mk.injEq]
        exact ⟨hred, hgreen, hblue⟩
      · refine List.map_congr_left fun i _ => ?_
        have h0 := htail i 0
        have h2 := htail i 2
        have h4 := htail i 4
        simp only [Function.comp_apply, Nat.succ_eq_add_one, Nat.add_zero] at h0 h2 h4 ⊢
        rw [h0, h2, h4]

/-! ## Messages -/

section Messages

theorem Plays.keeps_played (h : Plays rt size fb I effect) (rects : List (ServerRect fb)) :
    ∀ {app : σ}, I app → I (played effect rects app) := by
  induction rects with
  | nil => exact fun hI => hI
  | cons rect rects ih => exact fun hI => ih (h.keeps rect _ hI)

/-- A callback that does nothing, and then the next message. -/
theorem run_notify (h : Absorbs rt size fb I effect commit) {cb : Callback} (hcb : Notifies cb) :
    (do
      rt.call cb
      expect .connection 1 : Py σ Unit) c =
      .ok ()
        { c with
          log := c.log ++ [.callback cb]
          expectedHandler := .connection
          expectedLen := 1 } :=
  run_bind_ok (h.notifies cb hcb { c with log := c.log ++ [.callback cb] })

/-- The client that has decoded a message is between two again. -/
theorem Waiting.again {c' : RFBClient σ} (h : Waiting size fb c) (hstage : c'.stage = c.stage)
    (haborted : c'.aborted = c.aborted) (hwidth : c'.width = c.width)
    (hheight : c'.height = c.height) (hformat : c'.pixelFormat = c.pixelFormat)
    (harmed : c'.armed = (.connection, 1)) : Waiting size fb c' :=
  ⟨h.decoding.of_eq hstage haborted hwidth hheight hformat, harmed⟩

theorem leaves_bell (h : Absorbs rt size fb I effect commit) (hwaiting : Waiting size fb c) :
    Leaves rt size fb c [2] [.bell] c.app := by
  intro rest
  have hbell : Notifies .bell := trivial
  refine ⟨_, reaches_kind hwaiting rfl (run_notify h hbell) hwaiting.decoding.aborted, ?_, rfl, rfl⟩
  exact hwaiting.again rfl rfl rfl rfl rfl rfl

theorem leaves_serverCutText (h : Absorbs rt size fb I effect commit)
    (hwaiting : Waiting size fb c) {text : Bytes} (hlength : text.length < 256 ^ 4) :
    Leaves rt size fb c ([3] ++ ([0, 0, 0] ++ packBE 4 text.length) ++ text)
      [.copyText (RFBClient.latin1 text)] c.app := by
  intro rest
  have hstage := hwaiting.decoding.stage
  have haborted := hwaiting.decoding.aborted
  let header : Bytes := [0, 0, 0] ++ packBE 4 text.length
  let c₁ : RFBClient σ := { c with expectedHandler := .serverCutText, expectedLen := 7 }
  let c₂ : RFBClient σ :=
    { c with expectedHandler := .serverCutTextValue, expectedLen := text.length }
  let c₃ : RFBClient σ :=
    { c with
      log := c.log ++ [.callback (.copyText (RFBClient.latin1 text))]
      expectedHandler := .connection
      expectedLen := 1 }
  have hfield : field header 3 4 = text.length := by
    have hpack := @field_pack [0, 0, 0] [] 3 4 _ rfl hlength
    rwa [List.append_nil] at hpack
  have hkind : Reaches (iterate rt) (live c ([3] ++ (header ++ (text ++ rest))))
      (live c₁ (header ++ (text ++ rest))) :=
    reaches_kind hwaiting rfl rfl haborted
  have hheader : Reaches (iterate rt) (live c₁ (header ++ (text ++ rest)))
      (live c₂ (text ++ rest)) := by
    refine reaches_live hstage haborted (by simp [c₁, header]) ?_ haborted
    have hrun : RFBClient.handleServerCutText header c₁ =
        .ok ()
          { c₁ with
            expectedHandler := .serverCutTextValue
            expectedLen := field header 3 4 } := rfl
    rw [hfield] at hrun
    exact hrun
  have hvalue : Reaches (iterate rt) (live c₂ (text ++ rest)) (live c₃ rest) := by
    refine reaches_live hstage haborted rfl ?_ haborted
    have hcopy : Notifies (.copyText (RFBClient.latin1 text)) := trivial
    exact run_notify h hcopy
  refine ⟨c₃, ?_, hwaiting.again rfl rfl rfl rfl rfl rfl, rfl, rfl⟩
  simp only [header, List.append_assoc] at hkind hheader hvalue ⊢
  exact (hkind.trans hheader).trans hvalue

theorem leaves_setColourMapEntries (h : Absorbs rt size fb I effect commit)
    (hwaiting : Waiting size fb c) (first : U16) {colours : List (U16 × U16 × U16)}
    (hcount : colours.length < 256 ^ 2) :
    Leaves rt size fb c ([1] ++ ([0] ++ packBE 2 first ++ packBE 2 colours.length) ++
        colours.flatMap ServerMessage.encodeColour)
      [.setColorMap first.val
        (colours.map fun colour => (colour.1.val, colour.2.1.val, colour.2.2.val))] c.app := by
  intro rest
  have hstage := hwaiting.decoding.stage
  have haborted := hwaiting.decoding.aborted
  let header : Bytes := [0] ++ packBE 2 first ++ packBE 2 colours.length
  let entries : Bytes := colours.flatMap ServerMessage.encodeColour
  let c₁ : RFBClient σ := { c with expectedHandler := .colourMapEntries, expectedLen := 5 }
  let c₂ : RFBClient σ :=
    { c with
      expectedHandler := .colourMapEntriesValue first
      expectedLen := 6 * colours.length }
  let c₃ : RFBClient σ :=
    { c with
      log := c.log ++ [.callback (.setColorMap first.val
        (colours.map fun colour => (colour.1.val, colour.2.1.val, colour.2.2.val)))]
      expectedHandler := .connection
      expectedLen := 1 }
  have hfirst : field header 1 2 = first :=
    @field_pack [0] (packBE 2 colours.length) 1 2 _ rfl first.isLt
  have hnumber : field header 3 2 = colours.length := by
    have hpack := @field_pack ([0] ++ packBE 2 first) [] 3 2 _ (by simp) hcount
    rwa [List.append_nil] at hpack
  have hkind : Reaches (iterate rt) (live c ([1] ++ (header ++ (entries ++ rest))))
      (live c₁ (header ++ (entries ++ rest))) :=
    reaches_kind hwaiting rfl rfl haborted
  have hheader : Reaches (iterate rt) (live c₁ (header ++ (entries ++ rest)))
      (live c₂ (entries ++ rest)) := by
    refine reaches_live hstage haborted (by simp [c₁, header]) ?_ haborted
    have hrun : RFBClient.handleColourMapEntries header c₁ =
        .ok ()
          { c₁ with
            expectedHandler := .colourMapEntriesValue (field header 1 2)
            expectedLen := 6 * field header 3 2 } := rfl
    rw [hfirst, hnumber] at hrun
    exact hrun
  have hvalue : Reaches (iterate rt) (live c₂ (entries ++ rest)) (live c₃ rest) := by
    refine reaches_live hstage haborted (length_encodeColours colours) ?_ haborted
    have hmap : Notifies (.setColorMap first (RFBClient.colours entries)) := trivial
    have hrun : RFBClient.handleColourMapEntriesValue rt first entries c₂ =
        .ok ()
          { c₂ with
            log := c.log ++ [.callback (.setColorMap first (RFBClient.colours entries))]
            expectedHandler := .connection
            expectedLen := 1 } := run_notify h hmap
    rw [colours_encodeColours] at hrun
    exact hrun
  refine ⟨c₃, ?_, hwaiting.again rfl rfl rfl rfl rfl rfl, rfl, rfl⟩
  simp only [header, entries, List.append_assoc] at hkind hheader hvalue ⊢
  exact (hkind.trans hheader).trans hvalue

/-- An update means its rectangles, between a begin and a commit. -/
theorem denote_of_update {message : ServerMessage fb} {rects : List (ServerRect fb)}
    (hupdate : message.update? = some rects) :
    message.denote = [.beginUpdate] ++ rects.flatMap ServerRect.denote ++
      [.commitUpdate (rects.flatMap ServerRect.position)] := by
  cases message with
  | framebufferUpdate rects' count =>
      cases hupdate
      rfl
  | framebufferUpdateLast rects' announced last count =>
      cases hupdate
      rfl
  | _ => cases hupdate

/-- An update leaves what its rectangles and then its commit make of the attributes. -/
theorem leaves_update (h : Absorbs rt size fb I effect commit)
    (halloc : ∀ n ≤ fb.width * fb.height * fb.format.bypp, rt.env.alloc n = true)
    (hwaiting : Waiting size fb c) (hI : I c.app) {message : ServerMessage fb}
    {rects : List (ServerRect fb)} (hupdate : message.update? = some rects) :
    Leaves rt size fb c message.encode message.denote
      (commit (rects.flatMap ServerRect.position) (played effect rects c.app)) := by
  intro rest
  -- The rectangles are decoded up to the commit, which is this client's own.
  rcases commits_update h.toPlays halloc hwaiting hI hupdate rest with ⟨n, c₁, hplayed, hreaches⟩
  have hpositions : c₁.rectanglePos = rects.flatMap ServerRect.position := hplayed.rectanglePos
  have hI₁ : I c₁.app := hplayed.app ▸ h.toPlays.keeps_played rects hI
  let c₂ : RFBClient σ :=
    { c₁ with
      log := c₁.log ++ [.callback (.commitUpdate c₁.rectanglePos)]
      app := commit c₁.rectanglePos c₁.app
      expectedHandler := .connection
      expectedLen := 1 }
  have hdone : RFBClient.doConnection rt c₁ = .ok () c₂ := by
    rw [doConnection_of_zero hplayed.rectangles]
    exact run_bind_ok (h.commits c₁.rectanglePos
      { c₁ with log := c₁.log ++ [.callback (.commitUpdate c₁.rectanglePos)] }
      (hplayed.decoding.of_eq rfl rfl rfl rfl rfl) hI₁)
  refine ⟨c₂, hreaches c₂ hdone hplayed.decoding.aborted, ?_, ?_, ?_⟩
  · exact ⟨hplayed.decoding.of_eq rfl rfl rfl rfl rfl, rfl⟩
  · change c₁.log ++ [.callback (.commitUpdate c₁.rectanglePos)] = _
    rw [denote_of_update hupdate, hpositions, hplayed.log]
    simp [begun]
  · change commit c₁.rectanglePos c₁.app = _
    rw [hpositions, hplayed.app]

theorem leaves_message (h : Absorbs rt size fb I effect commit)
    (halloc : ∀ n ≤ fb.width * fb.height * fb.format.bypp, rt.env.alloc n = true)
    (hwaiting : Waiting size fb c) (hI : I c.app) (message : ServerMessage fb) :
    Leaves rt size fb c message.encode message.denote
      (absorbed effect commit message c.app) := by
  cases message with
  | framebufferUpdate rects count => exact leaves_update h halloc hwaiting hI rfl
  | framebufferUpdateLast rects announced last count => exact leaves_update h halloc hwaiting hI rfl
  | setColourMapEntries first colours count =>
      exact leaves_setColourMapEntries h hwaiting first count
  | bell => exact leaves_bell h hwaiting
  | serverCutText text length => exact leaves_serverCutText h hwaiting length

theorem Absorbs.keeps_absorbed (h : Absorbs rt size fb I effect commit) (message : ServerMessage fb)
    {app : σ} (hI : I app) : I (absorbed effect commit message app) := by
  unfold absorbed
  cases message.update? with
  | none => exact hI
  | some rects => exact h.committed _ _ (h.toPlays.keeps_played rects hI)

/-- A stream of messages folds the attributes. -/
theorem leaves_messages (h : Absorbs rt size fb I effect commit)
    (halloc : ∀ n ≤ fb.width * fb.height * fb.format.bypp, rt.env.alloc n = true)
    (messages : List (ServerMessage fb)) :
    ∀ {c : RFBClient σ}, Waiting size fb c → I c.app →
      Leaves rt size fb c (messages.flatMap ServerMessage.encode)
        (messages.flatMap ServerMessage.denote)
        (messages.foldl (fun app message => absorbed effect commit message app) c.app) := by
  induction messages with
  | nil =>
      intro c hwaiting _ rest
      exact ⟨c, Relation.ReflTransGen.refl, hwaiting, (List.append_nil _).symm, rfl⟩
  | cons message messages ih =>
      intro c hwaiting hI rest
      rcases leaves_message h halloc hwaiting hI message
        (messages.flatMap ServerMessage.encode ++ rest) with
        ⟨c₁, hmessage, hwaiting₁, hlog₁, happ₁⟩
      have hI₁ : I c₁.app := happ₁ ▸ h.keeps_absorbed message hI
      rcases ih hwaiting₁ hI₁ rest with
        ⟨c₂, hmessages, hwaiting₂, hlog₂, happ₂⟩
      refine ⟨c₂, ?_, hwaiting₂, ?_, ?_⟩
      · rw [List.flatMap_cons, List.append_assoc]
        exact hmessage.trans hmessages
      · rw [hlog₂, hlog₁, List.flatMap_cons, List.map_append, List.append_assoc]
      · rw [happ₂, happ₁]
        rfl

end Messages

end Connection

end Vncdotool
