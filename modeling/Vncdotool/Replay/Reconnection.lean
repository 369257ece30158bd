import Vncdotool.Replay.Listener
import Vncdotool.Replay.Serving

/-!
# Reconnection — a client connected to a replay server

The two are joined by a pair of streams: `Duplex`.  `Converses` says that a client, handed the
messages of the recorded handshake one at a time, has its own ready when they are due.  Then one run
gets through the handshake, and by `Settles` every run ends like it: what is written in which
piece and which of the two is ahead does not matter.  The same holds again once the client has asked
for a framebuffer.
-/

namespace Vncdotool

open Wire Streaming

variable {σ : Type}

namespace Connection

/-! ## The client's side of a dialogue -/

/-- Handed the server's messages of the script, the client says its own in time.  It has said
`owed` beyond what the script has come to, and in the end `extra` beyond the script. -/
inductive Converses (rt : Runtime σ) :
    Bytes → Connection σ → List (Turn Tap UInt8) → Bytes → Connection σ → Prop
  | nil {owed : Bytes} {conn : Connection σ} : Converses rt owed conn [] owed conn
  | listens {owed reply extra : Bytes} {conn conn' last : Connection σ} {turn : Turn Tap UInt8}
      {script : List (Turn Tap UInt8)} (htap : turn.tap = .s2c)
      (hhalts : HaltsAt (advance rt) (conn.deliver turn.bytes) conn')
      (hsaid : written conn'.client.log = written conn.client.log ++ reply)
      (hrest : Converses rt (owed ++ reply) conn' script extra last) :
      Converses rt owed conn (turn :: script) extra last
  | speaks {owed extra : Bytes} {conn last : Connection σ} {turn : Turn Tap UInt8}
      {script : List (Turn Tap UInt8)} (htap : turn.tap = .c2s)
      (hrest : Converses rt owed conn script extra last) :
      Converses rt (turn.bytes ++ owed) conn (turn :: script) extra last

variable {rt : Runtime σ} {owed extra : Bytes} {conn last : Connection σ}
  {script : List (Turn Tap UInt8)}

namespace Converses

theorem haltsAt (h : Converses rt owed conn script extra last) (hrest : advance rt conn = none) :
    HaltsAt (advance rt) (conn.deliver (tapBytes .s2c script)) last := by
  induction h with
  | @nil owed conn =>
      have hsame : conn.deliver [] = conn := (receiveLoop rt).deliver_nil conn
      rw [tapBytes_nil, hsame]
      exact HaltsAt.refl hrest
  | listens htap hhalts _ _ ih =>
      rw [tapBytes_cons, if_pos htap]
      exact ((receiveLoop rt).haltsAt_append_iff).2 ⟨_, hhalts, ih hhalts.2⟩
  | speaks htap _ ih =>
      rw [tapBytes_cons, if_neg (by rw [htap]; decide)]
      exact ih hrest

theorem said (h : Converses rt owed conn script extra last) {before : Bytes}
    (hbefore : written conn.client.log = before ++ owed) :
    written last.client.log = before ++ tapBytes .c2s script ++ extra := by
  induction h generalizing before with
  | nil => simpa using hbefore
  | listens htap _ hsaid _ ih =>
      rw [tapBytes_cons, if_neg (by rw [htap]; decide), List.nil_append]
      refine ih ?_
      rw [hsaid, hbefore, List.append_assoc]
  | speaks htap _ ih =>
      rw [tapBytes_cons, if_pos htap, ← List.append_assoc]
      refine ih ?_
      rw [hbefore, List.append_assoc]

/-- A client that is connected in the end was so all the time. -/
theorem connected (h : Converses rt owed conn script extra last) (hlogs : rt.Logs) (htame : rt.Tame)
    (hexpecting : conn.Expecting (tapBytes .s2c script)) (hlast : last.Connected) :
    conn.Connected := by
  induction h with
  | nil => exact hlast
  | listens htap hhalts _ hrest ih =>
      rw [tapBytes_cons, if_pos htap] at hexpecting
      have hraised := raised_of_haltsAt (hrest.haltsAt hhalts.2) hlast.raised
      have hnext := ih (hexpecting.of_haltsAt htame hhalts hraised) hlast
      exact hnext.of_haltsAt hlogs htame hexpecting hhalts
  | speaks htap _ ih =>
      rw [tapBytes_cons, if_neg (by rw [htap]; decide)] at hexpecting
      exact ih hexpecting hlast

end Converses

end Connection

namespace Reconnection

open Connection ReplayProtocol

variable {rt : Runtime σ} {owed extra : Bytes} {conn last : Connection σ}
  {script : List (Turn Tap UInt8)} {final : HandshakeScrubber}

/-- A client that knows nothing yet, and the server it has just connected to. -/
def introduced (capture : Capture) (conn : Connection σ) :
    Duplex (Connection σ) ReplayProtocol UInt8 UInt8 where
  left := conn
  right := connectionMade capture
  toLeft := []
  toRight := []

/-! ## Deliveries -/

section Deliveries

variable {d : Duplex (Connection σ) ReplayProtocol UInt8 UInt8} {chunk : Bytes}

/-- The server is handed what the client has said, if that is anything. -/
theorem exists_runs_told (hlogs : rt.Logs) (hstandby : Standby d.right d.toRight)
    (hopen : d.right.disconnecting = false)
    (hway : d.toRight ++ chunk <+: written d.left.client.log) :
    ∃ q, Duplex.Runs (Connection.party hlogs) ReplayProtocol.party d
        { d with right := q, toRight := d.toRight ++ chunk } ∧
      Standby q (d.toRight ++ chunk) ∧ q.capture = d.right.capture := by
  by_cases hchunk : chunk = []
  · subst hchunk
    rw [List.append_nil]
    exact ⟨d.right, Relation.ReflTransGen.refl, hstandby, rfl⟩
  · exact ⟨d.right.dataReceived chunk,
      Relation.ReflTransGen.single (Duplex.Step.right hchunk hway ⟨hopen, rfl⟩),
      hstandby.dataReceived chunk, capture_dataReceived d.right chunk⟩

/-- The client is handed what the server has written, if that is anything. -/
theorem runs_heard {rest : Bytes} {t : Connection σ} (hlogs : rt.Logs) (htame : rt.Tame)
    (hconnected : d.left.Connected) (hrest : advance rt d.left = none)
    (hexpecting : d.left.Expecting (chunk ++ rest))
    (hhalts : HaltsAt (advance rt) (d.left.deliver chunk) t)
    (hway : d.toLeft ++ chunk <+: d.right.written) :
    Duplex.Runs (Connection.party hlogs) ReplayProtocol.party d
      { d with left := t, toLeft := d.toLeft ++ chunk } := by
  by_cases hchunk : chunk = []
  · subst hchunk
    have hsame : d.left.deliver [] = d.left := (receiveLoop rt).deliver_nil d.left
    rw [hsame] at hhalts
    rw [hhalts.eq_of_none hrest, List.append_nil]
    exact Relation.ReflTransGen.refl
  · refine Relation.ReflTransGen.single (Duplex.Step.left hchunk hway ⟨hconnected, ?_⟩)
    exact (returns_iff_haltsAt htame hconnected.raised hexpecting).2 hhalts

end Deliveries

/-! ## One run through the handshake -/

section Handshake

variable {capture : Capture}

/-- Message by message, the handshake is gone through to its end. -/
theorem exists_runs_of_converses (hlogs : rt.Logs) (htame : rt.Tame)
    {script' : List (Turn Tap UInt8)}
    (h : Converses rt owed conn script extra last) (hlast : last.Connected)
    {d : Duplex (Connection σ) ReplayProtocol UInt8 UInt8} {done : List (Turn Tap UInt8)}
    (hscript : script' = done ++ script) (hrecorded : Recorded d.right.capture script' final)
    (hleft : d.left = conn) (hrest : advance rt conn = none)
    (hexpecting : conn.Expecting (tapBytes .s2c script))
    (hstandby : Standby d.right d.toRight) (htoLeft : d.toLeft = tapBytes .s2c done)
    (htoRight : d.toRight = tapBytes .c2s done)
    (hsaid : written conn.client.log = tapBytes .c2s done ++ owed) :
    ∃ e, Duplex.Runs (Connection.party hlogs) ReplayProtocol.party d e ∧ e.left = last ∧
      e.toLeft = tapBytes .s2c script' ∧ e.toRight = tapBytes .c2s script' := by
  induction h generalizing d done with
  | nil =>
      rw [List.append_nil] at hscript
      subst hscript
      exact ⟨d, Relation.ReflTransGen.refl, hleft, htoLeft, htoRight⟩
  | @listens owed reply extra conn conn' last turn script htap hhalts hreply hconverses ih =>
      subst hleft
      have hs2c : tapBytes .s2c (done ++ [turn]) = tapBytes .s2c done ++ turn.bytes := by
        rw [tapBytes_append, tapBytes_cons, if_pos htap, tapBytes_nil, List.append_nil]
      have hc2s : tapBytes .c2s (done ++ [turn]) = tapBytes .c2s done := by
        rw [tapBytes_append, tapBytes_cons, if_neg (by rw [htap]; decide), tapBytes_nil,
          List.append_nil, List.append_nil]
      have hscript' : script' = (done ++ [turn]) ++ script := by
        rw [hscript, List.append_assoc]
        rfl
      have hconnected : d.left.Connected :=
        (Converses.listens htap hhalts hreply hconverses).connected hlogs htame hexpecting hlast
      rw [tapBytes_cons, if_pos htap] at hexpecting
      have hraised := raised_of_haltsAt (hconverses.haltsAt hhalts.2) hlast.raised
      -- The server has written the message: the client has said all that comes before it.
      have hway : d.toLeft ++ turn.bytes <+: d.right.written := by
        have hagreeing : Agreeing script' d.toRight := by
          refine Or.inl ?_
          rw [htoRight, hscript, tapBytes_append]
          exact List.prefix_append _ _
        rw [hstandby.written_eq hrecorded hagreeing, htoLeft, ← hs2c, hscript']
        refine prefix_servedTo (hscript' ▸ hrecorded) ?_
        rw [hc2s, htoRight]
      have hfirst := runs_heard hlogs htame hconnected hrest hexpecting hhalts hway
      rcases ih hlast hscript' (d := { d with left := conn', toLeft := d.toLeft ++ turn.bytes })
          hrecorded rfl hhalts.2 (hexpecting.of_haltsAt htame hhalts hraised) hstandby
          ((congrArg (· ++ turn.bytes) htoLeft).trans hs2c.symm) (htoRight.trans hc2s.symm)
          (by rw [hreply, hsaid, hc2s, List.append_assoc]) with ⟨e, hruns, hend⟩
      exact ⟨e, hfirst.trans hruns, hend⟩
  | @speaks owed extra conn last turn script htap hconverses ih =>
      subst hleft
      have hs2c : tapBytes .s2c (done ++ [turn]) = tapBytes .s2c done := by
        rw [tapBytes_append, tapBytes_cons, if_neg (by rw [htap]; decide), tapBytes_nil,
          List.append_nil, List.append_nil]
      have hc2s : tapBytes .c2s (done ++ [turn]) = tapBytes .c2s done ++ turn.bytes := by
        rw [tapBytes_append, tapBytes_cons, if_pos htap, tapBytes_nil, List.append_nil]
      have hscript' : script' = (done ++ [turn]) ++ script := by
        rw [hscript, List.append_assoc]
        rfl
      have hagreeing : Agreeing script' d.toRight := by
        refine Or.inl ?_
        rw [htoRight, hscript, tapBytes_append]
        exact List.prefix_append _ _
      have hway : d.toRight ++ turn.bytes <+: written d.left.client.log := by
        rw [hsaid, htoRight, ← List.append_assoc]
        exact List.prefix_append _ _
      rcases exists_runs_told hlogs hstandby
          (hstandby.not_disconnecting hrecorded hagreeing) hway with
        ⟨q, hfirst, hstandby', hcapture⟩
      rw [tapBytes_cons, if_neg (by rw [htap]; decide)] at hexpecting
      rcases ih hlast hscript' (d := { d with right := q, toRight := d.toRight ++ turn.bytes })
          (hcapture.symm ▸ hrecorded) rfl hrest hexpecting hstandby' (htoLeft.trans hs2c.symm)
          ((congrArg (· ++ turn.bytes) htoRight).trans hc2s.symm)
          (by rw [hsaid, hc2s, List.append_assoc]) with ⟨e, hruns, hend⟩
      exact ⟨e, hfirst.trans hruns, hend⟩

/-- Then the server is told what the client has said beyond the handshake, and nothing is under way
any more. -/
theorem settles_of_converses (hlogs : rt.Logs) (htame : rt.Tame)
    (h : Converses rt [] conn script extra last) (hlast : last.Connected)
    (hrecorded : Recorded capture script final) (hrest : advance rt conn = none)
    (hexpecting : conn.Expecting (tapBytes .s2c script)) (hsaid : written conn.client.log = [])
    (hextra : ¬ Requests extra) :
    ∃ e, Duplex.Settles (Connection.party hlogs) ReplayProtocol.party (introduced capture conn)
        (tapBytes .s2c script) (tapBytes .c2s script ++ extra) e ∧ e.left = last := by
  have hcapture : (connectionMade capture).capture = capture := capture_advance _
  have hstart : Standby (connectionMade capture) [] := standby_connectionMade capture
  have hfull : Agreeing script (tapBytes .c2s script ++ extra) := Or.inr (List.prefix_append _ _)
  rcases exists_runs_of_converses (d := introduced capture conn) hlogs htame h hlast
      (List.nil_append script).symm (hcapture.symm ▸ hrecorded) rfl hrest hexpecting hstart rfl rfl
      hsaid with
    ⟨d, hruns, hleft, htoLeft, htoRight⟩
  rcases Duplex.exists_since hruns with ⟨heard, heard', hsince⟩
  have hheard : heard' = tapBytes .c2s script := hsince.toRight.symm.trans htoRight
  rcases hstart.heard hsince.right with ⟨hstandby, hcapture'⟩
  rw [List.nil_append, hheard, ← htoRight] at hstandby
  have hlastSaid : written last.client.log = tapBytes .c2s script ++ extra := by
    refine (h.said (hsaid.trans (List.nil_append []).symm)).trans ?_
    rw [List.nil_append]
  have hopen : d.right.disconnecting = false :=
    hstandby.not_disconnecting ((hcapture'.trans hcapture).symm ▸ hrecorded)
      (htoRight.symm ▸ Or.inl (List.prefix_refl _))
  have hway : d.toRight ++ extra <+: written d.left.client.log := by
    rw [hleft, hlastSaid, htoRight]
  -- The handshake is over; what the client has said beyond it is still to be told.
  rcases exists_runs_told hlogs hstandby hopen hway with ⟨q, htold, hstandby', hq⟩
  rw [htoRight] at hstandby'
  have hqcapture : q.capture = capture := (hq.trans hcapture').trans hcapture
  let e : Duplex (Connection σ) ReplayProtocol UInt8 UInt8 :=
    { d with right := q, toRight := d.toRight ++ extra }
  have hall : Duplex.Runs (Connection.party hlogs) ReplayProtocol.party (introduced capture conn) e :=
    hruns.trans htold
  refine ⟨e, ?_, hleft⟩
  -- At the end each has heard what the other said, and both are at rest.
  rcases Duplex.exists_since hall with ⟨most, most', hend⟩
  have hmost : most = tapBytes .s2c script := hend.toLeft.symm.trans htoLeft
  have hmost' : most' = tapBytes .c2s script ++ extra :=
    hend.toRight.symm.trans (congrArg (· ++ extra) htoRight)
  refine ⟨hall, hmost ▸ hmost' ▸ hend, ⟨?_, ?_⟩, ⟨List.nil_prefix, List.nil_prefix⟩, ?_, ?_⟩
  · have hwritten := hstandby'.written_eq (hqcapture.symm ▸ hrecorded) hfull
    rw [servedTo_of_unasked hextra] at hwritten
    exact htoLeft.trans hwritten.symm
  · change d.toRight ++ extra = written d.left.client.log
    rw [hleft, hlastSaid, htoRight]
  · exact causal htame hrest hexpecting
  · exact hstart.causal (hcapture.symm ▸ hrecorded) hfull

/-! ## A request -/

section Asked

variable {c d : Duplex (Connection σ) ReplayProtocol UInt8 UInt8} {asked t : Connection σ}
  {request : Bytes}

/-- The client has heard the whole handshake, and has then said more, a request among it.  Then one
run hands it the rest of the recording. -/
theorem settles_of_asked (hlogs : rt.Logs) (htame : rt.Tame)
    (hrecorded : Recorded d.right.capture script final) (hstandby : Standby d.right d.toRight)
    (hsound : Duplex.Sound (Connection.party hlogs) ReplayProtocol.party d)
    (htoLeft : d.toLeft = tapBytes .s2c script) (hleft : d.left = asked)
    (hsaid : written asked.client.log = tapBytes .c2s script ++ request)
    (hrequest : Requests request) (hconnected : asked.Connected) (hrest : advance rt asked = none)
    (hstage : asked.client.stage = .handleExpected)
    (hhalts : HaltsAt (advance rt)
      (asked.deliver (d.right.capture.s2c.drop (tapBytes .s2c script).length)) t) :
    ∃ more e, Duplex.Settles (Connection.party hlogs) ReplayProtocol.party d
        (d.right.capture.s2c.drop (tapBytes .s2c script).length) more e ∧ e.left = t ∧
      e.toLeft = d.right.capture.s2c := by
  have hexpecting : ∀ rest, asked.Expecting rest :=
    fun _ hinitial => nomatch hstage.symm.trans hinitial
  -- The server is told what the client has said, and writes the whole recording.
  rcases hsound.right with ⟨chunk, hchunk⟩
  have hsaidAll : d.toRight ++ chunk <+: written d.left.client.log := by
    rw [hchunk]
    exact List.prefix_refl _
  have hchunk' : d.toRight ++ chunk = tapBytes .c2s script ++ request := by
    rw [hchunk, ← hsaid, ← hleft]
    rfl
  have hagreeing (extra : Bytes) : Agreeing script (tapBytes .c2s script ++ extra) :=
    Or.inr (List.prefix_append _ _)
  have hopen : d.right.disconnecting = false := by
    refine hstandby.not_disconnecting hrecorded ((hagreeing request).mono ?_)
    rw [← hchunk']
    exact List.prefix_append _ _
  rcases exists_runs_told hlogs hstandby hopen hsaidAll with
    ⟨q, htold, hq, hcapture⟩
  rw [hchunk'] at hq
  have hserved : q.written = q.capture.s2c := by
    rw [hq.written_eq (hcapture.symm ▸ hrecorded) (hagreeing request),
      servedTo_of_requests hrequest]
  have hwhole : tapBytes .s2c script ++ d.right.capture.s2c.drop (tapBytes .s2c script).length =
      d.right.capture.s2c := List.prefix_iff_eq_append.1 hrecorded.leads
  -- The client is handed the rest of it.
  let d₁ : Duplex (Connection σ) ReplayProtocol UInt8 UInt8 :=
    { d with right := q, toRight := d.toRight ++ chunk }
  have hheard := @runs_heard σ rt d₁
    (d.right.capture.s2c.drop (tapBytes .s2c script).length) [] t hlogs htame (hleft ▸ hconnected)
    (hleft ▸ hrest) (hleft ▸ hexpecting _) (hleft ▸ hhalts)
    (by
      change d.toLeft ++ _ <+: q.written
      rw [htoLeft, hwhole, hserved, hcapture])
  -- What it says now does not matter, but the server is told.
  have hgrows : written asked.client.log <+: written t.client.log :=
    written_prefix (grows_haltsAt hlogs htame hconnected.raised (hexpecting (_ ++ [])) hhalts)
  rcases hgrows with ⟨late, hlate⟩
  let d₂ : Duplex (Connection σ) ReplayProtocol UInt8 UInt8 :=
    { d₁ with left := t, toLeft := d.toLeft ++
        d.right.capture.s2c.drop (tapBytes .s2c script).length }
  have hopen' : q.disconnecting = false :=
    hq.not_disconnecting (hcapture.symm ▸ hrecorded) (hagreeing request)
  rcases @exists_runs_told σ rt d₂ late hlogs
      (by change Standby q (d.toRight ++ chunk); rw [hchunk']; exact hq) hopen'
      (by
        change d.toRight ++ chunk ++ late <+: written t.client.log
        rw [← hlate, hsaid, hchunk']) with ⟨q', htold', hq', hcapture'⟩
  let e : Duplex (Connection σ) ReplayProtocol UInt8 UInt8 :=
    { d₂ with right := q', toRight := d₂.toRight ++ late }
  have hall : Duplex.Runs (Connection.party hlogs) ReplayProtocol.party d e :=
    (htold.trans hheard).trans htold'
  have hsaid' : e.toRight = tapBytes .c2s script ++ (request ++ late) := by
    change d.toRight ++ chunk ++ late = _
    rw [hchunk', List.append_assoc]
  have htoLeft' : e.toLeft = d.right.capture.s2c := by
    change d.toLeft ++ _ = _
    rw [htoLeft, hwhole]
  rcases Duplex.exists_since hall with ⟨most, more, hend⟩
  have hmost : most = d.right.capture.s2c.drop (tapBytes .s2c script).length := by
    refine List.append_cancel_left (hend.toLeft.symm.trans ?_)
    rfl
  refine ⟨more, e, ⟨hall, hmost ▸ hend, ⟨?_, ?_⟩, hsound, ?_, ?_⟩, rfl, htoLeft'⟩
  · have hcaptured : q'.capture = d.right.capture := hcapture'.trans hcapture
    have hstandby' : Standby q' e.toRight := hq'
    rw [hsaid'] at hstandby'
    have hwritten := hstandby'.written_eq (hcaptured.symm ▸ hrecorded) (hagreeing _)
    rw [servedTo_of_requests (hrequest.append late), hcaptured] at hwritten
    exact htoLeft'.trans hwritten.symm
  · change d.toRight ++ chunk ++ late = written t.client.log
    rw [hchunk', ← hlate, hsaid]
  · rw [hleft]
    exact causal htame hrest (hexpecting _)
  · refine Standby.causal hstandby hrecorded ?_
    rw [← hend.toRight, hsaid']
    exact hagreeing _

end Asked

end Handshake

end Reconnection

end Vncdotool
