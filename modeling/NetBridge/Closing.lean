import NetBridge.Delivery

/-! # Acknowledged bytes and the end of the stream

What the acknowledgements and the FIN of one direction stand for.

An acknowledged byte is stored at the other side and an unacknowledged one is still in the queue:
`acknowledged_stored`.  This needs both ends to have been connected.  A socket in
`establishedByKey_` has been, unless it was closed while its SYN was on the way: the SYN-ACK then
registers a closed socket, which `Proper` excludes.

A FIN is sent once everything is acknowledged, so it stands for the whole stream:
`graceful_close`. -/

namespace NetBridge

open TcpManager (written timedOut stored advanced finQueued)

/-! ### Registered ends -/

/-- An end whose entries in the tables mean what they say. -/
structure Proper (x : End) : Prop where
  pending : x.pending = true → x.sock.state = .SYN_SENT
  registered : x.registered = true ∨ x.sock.peerFinReceived = true → Started x

/-- No socket is closed while its SYN is on the way. -/
def Patient (x : End) (w : Party) : Op → Prop
  | .close i => i = w.conn → x.sock.state ≠ .SYN_SENT
  | _ => True

instance (x : End) (w : Party) : ∀ op, Decidable (Patient x w op)
  | .close i => inferInstanceAs (Decidable (i = w.conn → x.sock.state ≠ .SYN_SENT))
  | .socket | .bind .. | .listen .. | .accept _ | .connect .. | .release _ | .write .. | .read .. |
    .receive .. | .tick _ => inferInstanceAs (Decidable True)

theorem Proper.act {cfg : Config} {w : Party} {x x' : End} {op : Op} {out : List Sent}
    (h : Proper x) (hok : EndOk w x) (hok' : EndOk w x') (hact : Act cfg w x op x' out)
    (hop : Patient x w op) : Proper x' := by
  have hstays := fun hs : Started x => hs.act hok hok' hact
  -- a socket that waits for its SYN-ACK is in no other state
  have hwait : ∀ st : TcpState, x.sock.state = st → st ≠ .SYN_SENT →
      x.pending = true → x'.sock.state = .SYN_SENT := by
    intro st hst hne hp
    exact absurd (hst.symm.trans (h.pending hp)) hne
  cases hact with
  | idle | write | read | timeout | window | answer | store =>
      exact ⟨h.pending, fun hr => hstays (h.registered hr)⟩
  | readEnd hi hheld hends hany =>
      refine ⟨fun hp => ?_, fun hr => hstays (h.registered hr)⟩
      exact absurd (h.pending hp) hends.1.ne.2.2
  | accept hw hheld hst =>
      refine ⟨fun hp => ?_, fun hr => hstays (h.registered hr)⟩
      exact absurd (h.pending hp) hst.ne.2.2
  | acceptClosed hw hheld hst => exact ⟨h.pending, fun hr => hstays (h.registered hr)⟩
  | closePending hi hst => exact absurd hst (hop hi)
  | shutdown hi hheld hst hwait' =>
      exact ⟨hwait _ hst (by decide), fun hr => hstays (h.registered hr)⟩
  | shutdownFin hi hheld hst hempty hp =>
      exact ⟨hwait _ hst (by decide), fun hr => hstays (h.registered hr)⟩
  | @advance now srcAddr ack hty hst hlt hle =>
      have hpeer := (advanced_receiver (x.sock.setRwnd ack.window) now ack.seqNum).2.2.2.2
      refine ⟨fun hp => ?_, fun hr => hstays (h.registered (hr.imp_right fun hr => ?_))⟩
      · exact absurd (h.pending hp) hst.ne.2.2
      · exact hpeer.symm.trans hr
  | @advanceFin now srcAddr ack p hty hst hlt hle hempty hp =>
      have hpeer := (advanced_receiver (x.sock.setRwnd ack.window) now ack.seqNum).2.2.2.2
      refine ⟨hwait _ hst (by decide), fun hr => hstays (h.registered (hr.imp_right fun hr => ?_))⟩
      exact hpeer.symm.trans hr
  | finAcked hty hst hfin hack =>
      refine ⟨hwait _ hst (by decide), fun hr => hstays (h.registered ?_)⟩
      exact .inr (hr.resolve_left fun e => by cases e)
  | @establish now srcAddr ack hty hpend hst hack =>
      have e := x.sock.markEstablished_of_synSent ack.window hst
      refine ⟨fun e => (by cases e), fun _ => hok'.started ?_⟩
      rw [e]
      exact .inl rfl
  | establishClosed hty hpend hst hack =>
      have hsyn := h.pending hpend
      rw [hst] at hsyn
      cases hsyn
  | refused hty hpend =>
      exact ⟨fun e => (by cases e), fun hr => hstays (h.registered hr)⟩
  | peerFin hty hreg hout =>
      refine ⟨fun hp => ?_, fun _ => hstays (h.registered (.inl hreg))⟩
      have hst := h.pending hp
      exact (if_neg (by rw [hst]; decide)).trans hst
  | born hty hw hs hheld hout =>
      refine ⟨fun hp => ?_, fun _ => hok'.started (.inl rfl)⟩
      have hst := h.pending hp
      rw [hs] at hst
      cases hst

namespace Sys

variable (cfg : Config)

theorem init_proper (w : Party) : Proper ((init cfg).ends cfg w) := by
  have hsock : ((init cfg).ends cfg w).sock = openSocket cfg w := openedMan_conn cfg w
  have hreg : ((init cfg).ends cfg w).registered = false := by
    show ((openedMan cfg w).establishedByKey.lookup (cfg.key w)).isSome = false
    cases w with
    | client =>
        obtain ⟨p, _, e⟩ := openedMan_client cfg
        rw [e]
        rfl
    | server => rfl
  refine ⟨fun hp => ?_, fun hr => ?_⟩
  · have hw := (init_endOk cfg w).pending hp
    subst hw
    rw [hsock]
    rfl
  · rw [hreg, hsock] at hr
    obtain hr | hr := hr
    · cases hr
    · cases w <;> cases hr

variable {cfg}

/-- The ends of a run in which the application of `w` is patient. -/
theorem proper_run (w : Party) {G : Guard} (hG : ∀ x op, G x w op → Patient (x w) w op)
    {es : List Event} (hes : Guarded (step cfg) (Respects cfg G) (init cfg) es) :
    Proper ((run (step cfg) (init cfg) es).ends cfg w) := by
  refine ends_rule (I := fun x _ => Proper (x w)) (fun _ _ _ h _ => h) ?_ (init_proper cfg w) hes
  intro x wire v op x' out hok hok' h hact _ hg
  obtain rfl | rfl := v.eq_or_eq_other w
  · rw [Function.update_self]
    exact h.act (hok w) hok' hact (hG x op hg)
  · rw [Function.update_of_ne v.other_ne]
    exact h

/-! ### Acknowledged bytes -/

variable (cfg) in
/-- The manager of one side holds the connection in `establishedByKey_`. -/
def Registered (σ : Sys) (w : Party) : Prop :=
  (σ.side w).man.establishedByKey.lookup (cfg.key w) = some w.conn

instance (σ : Sys) (w : Party) : Decidable (Registered cfg σ w) :=
  inferInstanceAs (Decidable (_ = _))

/-- A byte of the stream is in the queue of its sender, with its value and number. -/
def Queued (σ : Sys) (w : Party) (q : Int) : Prop :=
  ∃ seg ∈ (σ.sock w).outstanding, seg.seqStart ≤ q ∧ q < seg.seqStart + seg.len ∧
    ∃ b, seg.data[(q - seg.seqStart).toNat]? = some b ∧
      (σ.side w).written[(q - 1).toNat]? = some b

end Sys

/-- The sender never runs ahead of the receiver, nor the receiver ahead of the sender. -/
theorem Link.bounds {cfg : Config} {w : Party} {x : Party → End} {wire : List Sent}
    {c : Channel UInt8} (h : Link cfg w x wire c) (hw : Started (x w)) (hr : Started (x w.other)) :
    (x w).sock.sndUna ≤ (x w.other).sock.rcvNxt ∧
      (x w.other).sock.rcvNxt ≤ (x w).sock.sndNxt := by
  have hgood := Channel.good_of_reachable h.reachable
  have hacked := hgood.acked
  have hle := hgood.stored.length_le
  have hsnd := hw.sndNxt
  have hrcv := hr.rcvNxt
  have huna := h.acked
  rw [h.stored] at hacked hle
  rw [h.written] at hle
  constructor <;> omega

/-- A byte that is not acknowledged is in the queue. -/
theorem Link.queued {cfg : Config} {w : Party} {x : Party → End} {wire : List Sent}
    {c : Channel UInt8} (h : Link cfg w x wire c) (hok : EndOk w (x w)) {q : Int}
    (hlo : (x w).sock.sndUna ≤ q) (hhi : q < (x w).sock.sndNxt) :
    ∃ seg ∈ (x w).sock.outstanding, seg.seqStart ≤ q ∧ q < seg.seqStart + seg.len ∧
      ∃ b, seg.data[(q - seg.seqStart).toNat]? = some b ∧
        (x w).written[(q - 1).toNat]? = some b := by
  obtain ⟨a, ht, ha⟩ := hok.sender.tiles
  obtain ⟨seg, hseg, hstart, hstop⟩ := ht.covers (ha.trans hlo) hhi
  have hstop : q < seg.seqStart + seg.len := hstop
  obtain ⟨_, hlen, _⟩ := hok.sender.segment seg hseg
  obtain ⟨off, hoff, hmem⟩ := h.queue seg hseg
  have hslice := (Channel.good_of_reachable h.reachable).pieces off _ hmem
  rw [h.written] at hslice
  have hlt : (q - seg.seqStart).toNat < seg.data.length := by omega
  have hpos : (q - 1).toNat = off + (q - seg.seqStart).toNat := by omega
  refine ⟨seg, hseg, hstart, hstop, seg.data[(q - seg.seqStart).toNat], ?_, ?_⟩
  · exact List.getElem?_eq_getElem hlt
  · rw [hpos, hslice.getElem? hlt]
    exact List.getElem?_eq_getElem hlt

namespace Sys

variable {cfg : Config}

/-- **No acknowledged byte is missing and no unreceived byte is forgotten**, in runs in which no
socket is closed while its SYN is on the way. -/
theorem acknowledged_stored (cfg : Config) (es : List Event)
    (hes : Guarded (step cfg) (Respects cfg fun x w op => Patient (x w) w op) (init cfg) es)
    (w : Party) :
    let σ := run (step cfg) (init cfg) es
    Registered cfg σ w → Registered cfg σ w.other →
      (σ.sock w).sndUna ≤ (σ.sock w.other).rcvNxt ∧
      (σ.sock w.other).rcvNxt ≤ (σ.sock w).sndNxt ∧
      ∀ q, (σ.sock w.other).rcvNxt ≤ q → q < (σ.sock w).sndNxt → Queued σ w q := by
  intro σ hw hr
  have hstarted : ∀ v, Registered cfg σ v → Started (σ.ends cfg v) := by
    intro v hv
    refine (proper_run (G := fun x w op => Patient (x w) w op) v (fun _ _ h => h) hes).registered
      (.inl ?_)
    show ((σ.side v).man.establishedByKey.lookup (cfg.key v)).isSome = true
    rw [hv]
    rfl
  obtain ⟨c, hlink⟩ := link_run cfg w es
  obtain ⟨huna, hnxt⟩ := hlink.bounds (hstarted w hw) (hstarted w.other hr)
  refine ⟨huna, hnxt, fun q hlo hhi => ?_⟩
  exact hlink.queued ((ok_run cfg es).ends w) (huna.trans hlo) hhi

/-- A client at address 1 and a server at address 2. -/
def exampleConfig : Config where
  addr := fun w => if w = .client then 1 else 2
  port := fun w => if w = .client then 5 else 80
  backlog := 5
  addr_range := by intro w; cases w <;> decide
  port_range := by intro w; cases w <;> decide
  addr_ne := by decide

/-- The connection is set up and the client writes three bytes. -/
def threeBytesRun : List Event :=
  [.deliver 0 0, .deliver 0 0, .write .client 10 0 (some [7, 8, 9]) 0 3]

theorem acknowledged_stored_three_bytes :
    let σ := run (step exampleConfig) (init exampleConfig) threeBytesRun
    (σ.sock .server).rcvNxt = 1 ∧ (σ.sock .client).sndNxt = 4 ∧
      ∀ q, (σ.sock .server).rcvNxt ≤ q → q < (σ.sock .client).sndNxt → Queued σ .client q := by
  have h := acknowledged_stored exampleConfig threeBytesRun (by decide) .client (by decide)
    (by decide)
  exact ⟨by decide, by decide, h.2.2⟩

/-- The client closes its socket before the SYN-ACK arrives. -/
def closedEarly : List Event := [.close .client 0, .deliver 0 0, .deliver 0 0]

/-- Both managers hold the connection, and the closed socket of the client has sent and received
nothing, not even the SYN. -/
theorem closed_socket_registered :
    let σ := run (step exampleConfig) (init exampleConfig) closedEarly
    Registered exampleConfig σ .client ∧ Registered exampleConfig σ .server ∧
      ¬ (σ.sock .server).rcvNxt ≤ (σ.sock .client).sndNxt ∧
      ¬ (σ.sock .server).sndUna ≤ (σ.sock .client).rcvNxt := by
  decide

end Sys

/-! ### The end of the stream -/

/-- Once the FIN is sent, the other side holds the whole stream. -/
theorem Link.all_stored {cfg : Config} {w : Party} {x : Party → End} {wire : List Sent}
    {c : Channel UInt8} (h : Link cfg w x wire c) (hok : EndOk w (x w))
    (hfin : 0 ≤ (x w).sock.finSeq) :
    (x w.other).received = (x w).written ∧ (x w).sock.finSeq = 1 + (x w).written.length := by
  have hs : Started (x w) :=
    hok.phase.resolve_left fun hf => absurd hf.finSeq (not_lt.mpr hfin)
  have hsnd := hs.sndNxt
  have huna := hok.sndUna_of_fin hfin
  have hacked := h.acked
  have hall : c.written.length ≤ c.acked := by
    rw [h.written]
    omega
  refine ⟨?_, (hok.fin hfin).1.trans hsnd⟩
  rw [← h.stored, ← h.written]
  exact (Channel.good_of_reachable h.reachable).stored_eq hall

/-- Only the application of `w` closes. -/
def OnlyCloses (w v : Party) : Op → Prop
  | .close _ => v = w
  | _ => True

instance (w v : Party) : ∀ op, Decidable (OnlyCloses w v op)
  | .close _ => inferInstanceAs (Decidable (v = w))
  | .socket | .bind .. | .listen .. | .accept _ | .connect .. | .release _ | .write .. | .read .. |
    .receive .. | .tick _ => inferInstanceAs (Decidable True)

theorem Act.closed_by_ack {cfg : Config} {w : Party} {x x' : End} {now srcAddr : Int}
    {ack : Transport} {out : List Sent} (hact : Act cfg w x (.receive now srcAddr ack) x' out)
    (hty : ack.type = .ACK) (hst : x.sock.state ≠ .CLOSED) (hst' : x'.sock.state = .CLOSED) :
    0 ≤ x.sock.finSeq ∧ x'.written = x.written := by
  cases hact with
  | idle => exact absurd hst' hst
  | window hty hst hle hold => exact absurd hst' hst.ne.1
  | advance hty hst hlt hle =>
      have hsame := (sameConn_setRwnd x.sock ack.window).trans (sameConn_advanced _ now ack.seqNum)
      exact absurd (hsame.state.symm.trans hst') hst.ne.1
  | advanceFin hty hst' hlt hle hempty hp =>
      have hsame := (sameConn_setRwnd x.sock ack.window).trans (sameConn_advanced _ now ack.seqNum)
      exact absurd (hsame.state.symm.trans hst') hst
  | finAcked hty hst hfin hack => exact ⟨hfin, rfl⟩
  | establish hty hpend hst hack =>
      rw [TcpSocket.markEstablished_state, if_neg (by show ¬ x.sock.state = .CLOSED; rw [hst]; decide)]
        at hst'
      cases hst'
  | establishClosed hty hpend hcl hack => exact absurd hcl hst
  | refused hty' | answer hty' | store hty' | peerFin hty' | born hty' =>
      rw [hty'] at hty
      cases hty

/-- A `read` that closes a socket follows the peer's FIN and takes all there is. -/
theorem Act.closed_by_read {cfg : Config} {w : Party} {x x' : End} {i : SockId} {buf : Bool}
    {pos len : Int} {out : List Sent} (hact : Act cfg w x (.read i buf pos len) x' out)
    (hok : EndOk w x) (hst : x.sock.state ≠ .CLOSED) (hst' : x'.sock.state = .CLOSED) :
    x.sock.peerFinReceived = true ∧ x'.readOut = x.received := by
  cases hact with
  | idle => exact absurd hst' hst
  | read hi hheld hlive hlen hused => exact absurd hst' hlive.ne.1
  | readEnd hi hheld hends hany =>
      have hused := hok.used
      refine ⟨hends.2.2.2.2.1, ?_⟩
      show x.readOut ++ x.sock.recvBuf.take _ = x.readOut ++ x.sock.recvBuf
      rw [List.take_of_length_le (by omega)]

namespace Sys

variable {cfg : Config}

/-- **A graceful close loses nothing**, in runs in which only the sender closes. -/
theorem graceful_close (cfg : Config) (w : Party) (es : List Event)
    (hes : Guarded (step cfg) (Respects cfg fun _ v op => OnlyCloses w v op) (init cfg) es) :
    let σ := run (step cfg) (init cfg) es
    ((σ.sock w.other).peerFinReceived = true →
      (σ.sock w.other).rcvNxt = (σ.sock w).finSeq ∧
        (σ.sock w).finSeq = 1 + (σ.side w).written.length) ∧
    (∀ e now srcAddr ack, σ.opOf cfg e = some (w, .receive now srcAddr ack) → ack.type = .ACK →
      (σ.sock w).state ≠ .CLOSED → ((σ.step cfg e).sock w).state = .CLOSED →
      (σ.step cfg e).received w.other = ((σ.step cfg e).side w).written) ∧
    ∀ e i buf pos len, σ.opOf cfg e = some (w.other, .read i buf pos len) →
      (σ.sock w.other).state ≠ .CLOSED → ((σ.step cfg e).sock w.other).state = .CLOSED →
      ((σ.step cfg e).side w.other).readOut = ((σ.step cfg e).side w).written := by
  intro σ
  have hok := ok_run cfg es
  obtain ⟨c, hlink⟩ := link_run cfg w es
  have hall := fun hfin => hlink.all_stored (hok.ends w) hfin
  refine ⟨?_, ?_, ?_⟩
  · intro hpeer
    -- the receiver does not close, so it was connected when the FIN arrived
    have hproper : Proper (σ.ends cfg w.other) := by
      refine proper_run (G := fun _ v op => OnlyCloses w v op) w.other ?_ hes
      intro x op hop
      cases op with
      | close i => exact absurd hop w.other_ne
      | socket | bind | listen | accept | connect | release | write | read | receive | tick =>
          exact trivial
    have hrcv := (hproper.registered (.inr hpeer)).rcvNxt
    obtain ⟨hrec, hseq⟩ := hall (hlink.peer hpeer)
    refine ⟨?_, hseq⟩
    rw [hrec] at hrcv
    exact hrcv.trans hseq.symm
  · intro e now srcAddr ack hop hty hst hst'
    obtain ⟨⟨out, hact⟩, hother⟩ := hok.event hop
    obtain ⟨hfin, hwritten⟩ := hact.closed_by_ack hty hst hst'
    have hrec := congrArg End.received hother
    exact hrec.trans ((hall hfin).1.trans hwritten.symm)
  · intro e i buf pos len hop hst hst'
    obtain ⟨⟨out, hact⟩, hother⟩ := hok.event hop
    obtain ⟨hpeer, hread⟩ := hact.closed_by_read (hok.ends w.other) hst hst'
    rw [Party.other_other] at hother
    have hwritten := congrArg End.written hother
    exact hread.trans ((hall (hlink.peer hpeer)).1.trans hwritten.symm)

/-- The client writes three bytes and closes; its FIN has arrived. -/
def closingRun : List Event :=
  [.deliver 0 0, .deliver 0 0, .accept .server 0, .write .client 10 0 (some [7, 8, 9]) 0 3,
    .deliver 0 20, .deliver 0 30, .close .client 0, .deliver 0 40]

theorem graceful_close_three_bytes :
    let σ := run (step exampleConfig) (init exampleConfig) closingRun
    (σ.sock .server).rcvNxt = (σ.sock .client).finSeq ∧
      (σ.step exampleConfig (.deliver 0 50)).received .server = [7, 8, 9] ∧
      ((σ.step exampleConfig (.read .server 1 true 0 10)).side .server).readOut = [7, 8, 9] := by
  obtain ⟨hfin, hack, hread⟩ := graceful_close exampleConfig .client closingRun (by decide)
  refine ⟨(hfin (by decide)).1, ?_, ?_⟩
  · exact (hack (.deliver 0 50) 50 _ _ rfl (by decide) (by decide) (by decide)).trans (by decide)
  · exact (hread (.read .server 1 true 0 10) 1 true 0 10 rfl (by decide) (by decide)).trans
      (by decide)

end Sys

end NetBridge
