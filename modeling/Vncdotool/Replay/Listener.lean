import Vncdotool.RFB.Frames
import Vncdotool.RFB.Segmentation
import Vncdotool.Replay.Requests
import Vncdotool.Streaming.Duplex

/-!
# Listener — a client as one of two parties

What a client has written is told from the bytes it was handed, if these begin with a greeting: how
they were cut does not matter, and its log never shrinks.  So a client that gets through a stream in
one piece gets through it in any pieces, and says the same.
-/

namespace Vncdotool

open Wire Streaming

variable {σ : Type}

/-! ## The log grows -/

/-- From `c` to `c'` nothing that was logged is lost. -/
def Grows (c c' : RFBClient σ) : Prop :=
  c.log <+: c'.log

instance : Std.Refl (Grows (σ := σ)) :=
  ⟨fun _ => List.prefix_refl _⟩

instance : IsTrans (RFBClient σ) Grows :=
  ⟨fun _ _ _ => List.IsPrefix.trans⟩

/-- The callbacks of a class of clients do not touch what was logged before. -/
def Runtime.Logs (rt : Runtime σ) : Prop :=
  ∀ cb, Respects Grows (rt.override cb)

theorem grows_record (event : Event) : Respects Grows (record event : Py σ Unit) :=
  fun c => List.prefix_append c.log [event]

theorem Runtime.Logs.call {rt : Runtime σ} (h : rt.Logs) (cb : Callback) :
    Respects Grows (rt.call cb) :=
  respects_bind (grows_record _) fun _ => h cb

theorem keeps_grows : Keeps (Grows (σ := σ)) where
  refl c := List.prefix_refl c.log
  trans _ _ _ := List.IsPrefix.trans
  write data := grows_record (.write data)
  loseConnection := grows_record .loseConnection
  state c c' hlog _ _ := by
    unfold Grows
    rw [hlog]

theorem Runtime.Logs.maintains {rt : Runtime σ} (h : rt.Logs) : Maintains rt Grows where
  toKeeps := keeps_grows
  call c cb _ := h.call cb c

theorem Runtime.Logs.told {rt : Runtime σ} (h : rt.Logs) : Told rt Grows :=
  fun cb _ => h.call cb

theorem announced_grows : Announced (Grows (σ := σ)) := by
  intro c c' hlog _ _
  unfold Grows
  rw [hlog]

namespace Connection

variable {rt : Runtime σ} {conn conn' : Connection σ}

theorem grows_iterate (h : rt.Logs) (hiterate : iterate rt conn = some conn') :
    Grows conn.client conn'.client :=
  h.maintains.iterate h.told announced_grows hiterate

theorem grows_returns (h : rt.Logs) {data : Bytes} (hreturns : conn.Returns rt data conn') :
    Grows conn.client conn'.client := by
  have henter : Grows conn.client (conn.enter rt data).client := h.maintains.enter h.told conn data
  refine reaches_invariant (I := fun q => Grows conn.client q.client) ?_ hreturns.1 henter
  exact fun q q' hiterate hq => List.IsPrefix.trans hq (grows_iterate h hiterate)

/-! ## Listening -/

/-- No exception has escaped, and the client has not closed the connection. -/
structure Connected (conn : Connection σ) : Prop where
  raised : conn.raised = none
  stays : .loseConnection ∉ conn.client.log

instance (conn : Connection σ) : Decidable conn.Connected :=
  decidable_of_iff (conn.raised = none ∧ .loseConnection ∉ conn.client.log)
    ⟨fun h => ⟨h.1, h.2⟩, fun h => ⟨h.1, h.2⟩⟩

theorem written_prefix {log log' : List Event} (h : log <+: log') : written log <+: written log' := by
  rcases h with ⟨rest, rfl⟩
  rw [written, written, List.flatMap_append]
  exact List.prefix_append _ _

/-- As long as the client is connected, it is handed what the server says. -/
def party (hlogs : rt.Logs) : Party (Connection σ) UInt8 UInt8 where
  receive conn chunk conn' := conn.Connected ∧ conn.Returns rt chunk conn'
  said conn := written conn.client.log
  said_prefix _ _ _ h := written_prefix (grows_returns hlogs h.2)

variable {hlogs : rt.Logs} {heard rest all : Bytes} {t : Connection σ}

/-- However a stream that begins with a greeting is cut, the client is as if it had come in one
piece. -/
theorem haltsAt_of_heard (htame : rt.Tame) (hrest : advance rt conn = none)
    (hexpecting : conn.Expecting (heard ++ rest))
    (h : (party hlogs).Heard conn heard t) : HaltsAt (advance rt) (conn.deliver heard) t := by
  induction h generalizing rest with
  | nil =>
      have hsame : conn.deliver [] = conn := (receiveLoop rt).deliver_nil conn
      rw [hsame]
      exact HaltsAt.refl hrest
  | @snoc heard chunk t u _ hreceive ih =>
      rw [List.append_assoc] at hexpecting
      have hearly := ih hexpecting
      have hnext := hexpecting.of_haltsAt htame hearly hreceive.1.raised
      exact ((receiveLoop rt).haltsAt_append_iff).2
        ⟨t, hearly, (returns_iff_haltsAt htame hreceive.1.raised hnext).1 hreceive.2⟩

theorem grows_haltsAt (hlogs : rt.Logs) (htame : rt.Tame) {data : Bytes}
    (hraised : conn.raised = none) (hexpecting : conn.Expecting (data ++ rest))
    (h : HaltsAt (advance rt) (conn.deliver data) t) : Grows conn.client t.client :=
  grows_returns hlogs ((returns_iff_haltsAt htame hraised hexpecting).2 h)

/-- What is at rest after an exception stays so. -/
theorem raised_of_haltsAt {data : Bytes} (h : HaltsAt (advance rt) (conn.deliver data) t)
    (ht : t.raised = none) : conn.raised = none := by
  by_contra hraised
  have hreceives : (receiveLoop rt).Receives conn [data] t := ⟨t, h, rfl⟩
  exact raised_of_receives hreceives hraised ht

/-- A client that is connected in the end was so before. -/
theorem Connected.of_haltsAt (ht : t.Connected) (hlogs : rt.Logs) (htame : rt.Tame) {data : Bytes}
    (hexpecting : conn.Expecting (data ++ rest))
    (h : HaltsAt (advance rt) (conn.deliver data) t) : conn.Connected := by
  have hraised := raised_of_haltsAt h ht.raised
  refine ⟨hraised, fun hclosed => ht.stays ?_⟩
  exact (grows_haltsAt hlogs htame hraised hexpecting h).subset hclosed

/-- What the client says follows from what it has heard, whatever the pieces were. -/
theorem causal (htame : rt.Tame) (hrest : advance rt conn = none)
    (hexpecting : conn.Expecting all) : (party hlogs).Causal conn all := by
  rintro heard heard' t t' hheard hheard' ⟨more, rfl⟩ ⟨rest, rfl⟩
  have hlate := haltsAt_of_heard htame hrest hexpecting hheard'
  rw [List.append_assoc] at hexpecting
  have hearly := haltsAt_of_heard htame hrest hexpecting hheard
  rcases ((receiveLoop rt).haltsAt_append_iff).1 hlate with ⟨m, hm, hmore⟩
  obtain rfl := hm.unique hearly
  have hmore' : HaltsAt (advance rt) (m.deliver more) t' := hmore
  by_cases hm' : m.raised = none
  · exact written_prefix
      (grows_haltsAt hlogs htame hm' (hexpecting.of_haltsAt htame hearly hm') hmore')
  -- Nothing is handed to a client that has raised.
  · have hnone : advance rt (m.deliver more) = none := by
      have hdeliver : (m.deliver more).raised ≠ none := by
        unfold deliver
        split_ifs
        · exact hm'
        · exact hm'
      unfold advance
      cases (m.deliver more).client.stage with
      | handleInitial => exact if_neg fun h => hdeliver h.2.1
      | handleExpected => exact iterate_eq_none_iff.2 (pending_of_raised hdeliver)
    obtain rfl := HaltsAt.eq_of_none hnone hmore'
    have hlog : (m.deliver more).client = m.client := by
      unfold deliver
      split_ifs
      · rfl
      · rfl
    change written m.client.log <+: written (m.deliver more).client.log
    rw [hlog]

/-- A client that gets through a stream gets through it in any pieces. -/
theorem open_of_haltsAt (htame : rt.Tame) (hrest : advance rt conn = none)
    (hexpecting : conn.Expecting all) (hall : HaltsAt (advance rt) (conn.deliver all) t)
    (ht : t.Connected) : (party hlogs).Open conn all := by
  rintro heard chunk q hheard ⟨rest, rfl⟩
  rw [List.append_assoc] at hexpecting hall
  have hearly := haltsAt_of_heard htame hrest hexpecting hheard
  rcases ((receiveLoop rt).haltsAt_append_iff).1 hall with ⟨m, hm, hlate⟩
  obtain rfl := hm.unique hearly
  have hlate' : HaltsAt (advance rt) (m.deliver (chunk ++ rest)) t := hlate
  have hm' := raised_of_haltsAt hlate' ht.raised
  have hnext := hexpecting.of_haltsAt htame hearly hm'
  have hconnected : m.Connected := by
    rw [← List.append_nil (chunk ++ rest)] at hnext
    exact ht.of_haltsAt hlogs htame hnext hlate'
  rcases ((receiveLoop rt).haltsAt_append_iff).1 hlate with ⟨u, hu, _⟩
  exact ⟨u, hconnected, (returns_iff_haltsAt htame hm' hnext).2 hu⟩

end Connection

end Vncdotool
