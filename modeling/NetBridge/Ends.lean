import Mathlib.Data.List.Perm.Basic
import NetBridge.Refinement

/-! # The two ends and the wire

`EndOk` is what every act keeps of one end by itself: the numbers of the sender count the bytes
that `write` has accepted, those of the receiver count the bytes that have reached it, and a FIN is
sent only after everything has been acknowledged.

`Sys.Ok` collects what holds of the whole system in every run, and `Sys.ends_rule` is the rule with
which the later modules prove more: an invariant of the two ends and the segments on the wire is
kept by the system if it is kept by every act. -/

namespace NetBridge

open TcpManager (written timedOut stored advanced finQueued)

/-- An end that has never been connected. -/
structure Fresh (x : End) : Prop where
  sndUna : x.sock.sndUna = 0
  sndNxt : x.sock.sndNxt = 0
  rcvNxt : x.sock.rcvNxt = 0
  written : x.written = []
  received : x.received = []
  finSeq : x.sock.finSeq < 0
  idle : ¬ x.sock.Live

/-- An end that is or was connected. -/
structure Started (x : End) : Prop where
  sndUna : 1 ≤ x.sock.sndUna
  sndNxt : x.sock.sndNxt = 1 + x.written.length
  rcvNxt : x.sock.rcvNxt = 1 + x.received.length
  pending : x.pending = false
  state : x.sock.Live ∨ x.sock.state = .CLOSED

/-- One end, in every run. -/
structure EndOk (w : Party) (x : End) : Prop where
  sender : SenderOk x.sock
  used : x.sock.recvBufUsed = x.sock.recvBuf.length
  cap : x.sock.recvBufUsed ≤ TcpSocket.RECV_BUF_CAP
  fin : 0 ≤ x.sock.finSeq →
    x.sock.finSeq = x.sock.sndNxt ∧ x.sock.outstanding = [] ∧ x.sock.state ≠ .ESTABLISHED
  free : x.held = false → x.written = [] ∧ x.sock.finSeq < 0
  syn : w = .client → x.sock.synSeq = 0
  pending : x.pending = true → w = .client
  phase : Fresh x ∨ Started x

namespace EndOk

variable {w : Party} {x : End}

theorem started (h : EndOk w x) (hst : x.sock.Live) : Started x :=
  h.phase.resolve_left fun hf => hf.idle hst

theorem fresh_of_pending (h : EndOk w x) (hp : x.pending = true) : Fresh x := by
  refine h.phase.resolve_right fun hs => ?_
  rw [hs.pending] at hp
  cases hp

/-- No FIN has been sent while the connection is open. -/
theorem finSeq_neg (h : EndOk w x) (hst : x.sock.state = .ESTABLISHED) : x.sock.finSeq < 0 := by
  by_contra hfin
  exact (h.fin (by omega)).2.2 hst

/-- No FIN has been sent while something is unacknowledged. -/
theorem finSeq_neg_of_lt (h : EndOk w x) (hlt : x.sock.sndUna < x.sock.sndNxt) :
    x.sock.finSeq < 0 := by
  by_contra hfin
  have heq := h.sender.empty_iff.mp (h.fin (by omega)).2.1
  omega

theorem sndUna_of_fin (h : EndOk w x) (hfin : 0 ≤ x.sock.finSeq) :
    x.sock.sndUna = x.sock.sndNxt := h.sender.empty_iff.mp (h.fin hfin).2.1

end EndOk

theorem received_taken (readOut : List UInt8) (s : TcpSocket) (n : Int) :
    (readOut ++ s.recvBuf.take n.toNat) ++ (s.taken n).recvBuf = readOut ++ s.recvBuf := by
  show (readOut ++ s.recvBuf.take n.toNat) ++ s.recvBuf.drop n.toNat = _
  rw [List.append_assoc, List.take_append_drop]

theorem used_taken {s : TcpSocket} (hused : s.recvBufUsed = s.recvBuf.length) {n : Int}
    (h0 : 0 ≤ n) (hn : n ≤ s.recvBufUsed) :
    (s.taken n).recvBufUsed = (s.taken n).recvBuf.length := by
  show s.recvBufUsed - n = ((s.recvBuf.drop n.toNat).length : Int)
  rw [List.length_drop]
  omega

theorem EndOk.take {w : Party} {x : End} (h : EndOk w x) (hst : x.sock.Live) {n : Int} (h0 : 0 ≤ n)
    (hn : n ≤ x.sock.recvBufUsed) (hsender : SenderOk (x.sock.taken n)) :
    EndOk w
      { x with
        sock := x.sock.taken n
        readOut := x.readOut ++ x.sock.recvBuf.take n.toNat } := by
  have hs := h.started hst
  have hcap := h.cap
  refine ⟨hsender, used_taken h.used h0 hn, ?_, h.fin, h.free, h.syn, h.pending,
    .inr ⟨hs.sndUna, hs.sndNxt, ?_, hs.pending, hs.state⟩⟩
  · show x.sock.recvBufUsed - _ ≤ _
    omega
  · rw [End.received, received_taken]
    exact hs.rcvNxt

/-- Closing an end. -/
theorem EndOk.close {w : Party} {x : End} (h : EndOk w x) (registered : Bool)
    (hsender : SenderOk x.sock.markClosed) :
    EndOk w { x with sock := x.sock.markClosed, registered := registered } := by
  refine ⟨hsender, h.used, h.cap, ?_, h.free, h.syn, h.pending, ?_⟩
  · exact fun hfin => ⟨(h.fin hfin).1, (h.fin hfin).2.1, fun e => by cases e⟩
  · obtain hf | hs := h.phase
    · exact .inl ⟨hf.1, hf.2, hf.3, hf.4, hf.5, hf.6, fun hl => hl.ne.1 rfl⟩
    · exact .inr ⟨hs.1, hs.2, hs.3, hs.4, .inr rfl⟩

theorem EndOk.advance {w : Party} {x : End} (h : EndOk w x) (hst : x.sock.Live)
    {now window ackNum : Int} (hlt : x.sock.sndUna < ackNum) (hle : ackNum ≤ x.sock.sndNxt)
    (hsender : SenderOk (advanced (x.sock.setRwnd window) now ackNum)) :
    EndOk w { x with sock := advanced (x.sock.setRwnd window) now ackNum } := by
  have hs := h.started hst
  have hfin := h.finSeq_neg_of_lt (by omega)
  obtain ⟨_, huna, hnxt, _⟩ := advanced_sender (x.sock.setRwnd window) now ackNum
  obtain ⟨hbuf, hused, hrcv, hseq, _⟩ := advanced_receiver (x.sock.setRwnd window) now ackNum
  have hsame : SameConn x.sock (advanced (x.sock.setRwnd window) now ackNum) :=
    (sameConn_setRwnd _ _).trans (sameConn_advanced _ _ _)
  refine ⟨hsender, ?_, ?_, ?_, ?_, ?_, h.pending, .inr ⟨?_, ?_, ?_, hs.pending, ?_⟩⟩
  · exact hused.trans (h.used.trans (congrArg (fun l : List UInt8 => (l.length : Int)) hbuf.symm))
  · exact hused.le.trans h.cap
  · intro hfin'
    rw [hseq] at hfin'
    exact absurd hfin (not_lt.mpr hfin')
  · exact fun hfree => ⟨(h.free hfree).1, hseq.trans_lt hfin⟩
  · exact fun hw => hsame.synSeq.trans (h.syn hw)
  · have hle1 := hs.sndUna
    show 1 ≤ (advanced _ _ _).sndUna
    omega
  · exact hnxt.trans hs.sndNxt
  · rw [End.received]
    show (advanced _ _ _).rcvNxt = 1 + ((x.readOut ++ (advanced _ _ _).recvBuf).length : Int)
    rw [hrcv, hbuf]
    exact hs.rcvNxt
  · exact .inl (hsame.live_iff.mpr hst)

theorem EndOk.shut {w : Party} {x : End} (h : EndOk w x) (hst : x.sock.state = .ESTABLISHED)
    (hsender : SenderOk { x.sock with state := .SHUTDOWN }) :
    EndOk w { x with sock := { x.sock with state := .SHUTDOWN } } := by
  have hs := h.started (.inl hst)
  refine ⟨hsender, h.used, h.cap, ?_, h.free, h.syn, h.pending, .inr ⟨hs.1, hs.2, hs.3, hs.4,
    .inl (.inr rfl)⟩⟩
  exact fun hfin => absurd (h.finSeq_neg hst) (not_lt.mpr hfin)

theorem EndOk.queueFin {w : Party} {x : End} (h : EndOk w x) (hheld : x.held = true)
    (hst : x.sock.state = .SHUTDOWN) (hempty : x.sock.outstanding = [])
    (hsender : SenderOk (finQueued x.sock)) :
    EndOk w { x with sock := finQueued x.sock } := by
  have hs := h.started (.inr hst)
  refine ⟨hsender, h.used, h.cap, fun _ => ⟨rfl, hempty, ?_⟩, ?_, h.syn, h.pending,
    .inr ⟨hs.1, hs.2, hs.3, hs.4, hs.5⟩⟩
  · show x.sock.state ≠ .ESTABLISHED
    rw [hst]
    decide
  · intro hfree
    rw [hheld] at hfree
    cases hfree

theorem EndOk.write {w : Party} {x : End} (h : EndOk w x) (hheld : x.held = true)
    (hst : x.sock.state = .ESTABLISHED) {now pos : Int} {buf : Buf} {n : ℕ}
    (hsender : SenderOk (written x.sock now buf pos n)) :
    EndOk w
      { x with
        sock := written x.sock now buf pos n
        written := x.written ++ buf.slice pos n } := by
  have hs := h.started (.inl hst)
  refine ⟨hsender, h.used, h.cap, ?_, ?_, h.syn, h.pending, .inr ⟨hs.sndUna, ?_, hs.rcvNxt, hs.pending,
    hs.state⟩⟩
  · exact fun hfin => absurd (h.finSeq_neg hst) (not_lt.mpr hfin)
  · intro hfree
    rw [hheld] at hfree
    cases hfree
  · have hlen := hs.sndNxt
    show x.sock.sndNxt + _ = 1 + ((x.written ++ _ : List UInt8).length : Int)
    rw [List.length_append, Buf.slice_length]
    omega

theorem EndOk.timedOut {w : Party} {x : End} (h : EndOk w x) (now : Int)
    (hsender : SenderOk (TcpManager.timedOut x.sock now)) :
    EndOk w { x with sock := TcpManager.timedOut x.sock now } := by
  have hfin : 0 ≤ x.sock.finSeq → (TcpManager.timedOut x.sock now).outstanding = [] := by
    intro hfin
    show x.sock.outstanding.map _ = []
    rw [(h.fin hfin).2.1, List.map_nil]
  refine ⟨hsender, h.used, h.cap, fun hf => ⟨(h.fin hf).1, hfin hf, (h.fin hf).2.2⟩, h.free,
    h.syn, h.pending, ?_⟩
  obtain hf | hs := h.phase
  · exact .inl ⟨hf.1, hf.2, hf.3, hf.4, hf.5, hf.6, hf.7⟩
  · exact .inr ⟨hs.1, hs.2, hs.3, hs.4, hs.5⟩

/-- A socket that has sent something is held. -/
theorem EndOk.held_of_lt {w : Party} {x : End} (h : EndOk w x) (hst : x.sock.Live)
    (hlt : x.sock.sndUna < x.sock.sndNxt) : x.held = true := by
  have hs := h.started hst
  by_contra hfree
  have hlen := hs.sndNxt
  have hle := hs.sndUna
  rw [(h.free (by simpa using hfree)).1] at hlen
  simp only [List.length_nil] at hlen
  omega

theorem EndOk.establish {w : Party} {x : End} (h : EndOk w x) (hpend : x.pending = true)
    (hst : x.sock.state = .SYN_SENT) {window : Int}
    (hsender : SenderOk (x.sock.setRwnd window).markEstablished) :
    EndOk w
      { x with
        sock := (x.sock.setRwnd window).markEstablished
        pending := false
        registered := true } := by
  have hf := h.fresh_of_pending hpend
  rw [x.sock.markEstablished_of_synSent window hst] at hsender ⊢
  refine ⟨hsender, h.used, h.cap, ?_, h.free, h.syn, (fun e => by cases e), .inr ⟨le_rfl, ?_, ?_, rfl,
    .inl (.inl rfl)⟩⟩
  · exact fun hfin => absurd hf.finSeq (not_lt.mpr hfin)
  · show (1 : Int) = 1 + (x.written.length : Int)
    rw [hf.written]
    rfl
  · show (1 : Int) = 1 + (x.received.length : Int)
    rw [hf.received]
    rfl

theorem EndOk.store {w : Party} {x : End} (h : EndOk w x) (hst : x.sock.Live) {payload : List UInt8}
    (hroom : (payload.length : Int) ≤ x.sock.getRecvBufAvailable)
    (hsender : SenderOk (stored x.sock payload)) :
    EndOk w { x with sock := stored x.sock payload } := by
  have hs := h.started hst
  have hu := h.used
  refine ⟨hsender, ?_, ?_, h.fin, h.free, h.syn, h.pending, .inr ⟨hs.1, hs.2, ?_, hs.4, hs.5⟩⟩
  · show x.sock.recvBufUsed + _ = ((x.sock.recvBuf ++ payload).length : Int)
    rw [List.length_append]
    omega
  · unfold TcpSocket.getRecvBufAvailable at hroom
    show x.sock.recvBufUsed + _ ≤ _
    omega
  · have hlen := hs.rcvNxt
    rw [End.received] at hlen ⊢
    show x.sock.rcvNxt + _ = 1 + ((x.readOut ++ (x.sock.recvBuf ++ payload)).length : Int)
    rw [← List.append_assoc, List.length_append]
    omega

/-- The FIN of the peer ends the connection of an end that has one. -/
theorem EndOk.peerFin {w : Party} {x : End} (h : EndOk w x)
    (hsender : SenderOk x.sock.markPeerFinReceived) :
    EndOk w { x with sock := x.sock.markPeerFinReceived } := by
  have hne : x.sock.markPeerFinReceived.state ≠ .ESTABLISHED := by
    show (if x.sock.state = .ESTABLISHED then TcpState.SHUTDOWN else x.sock.state) ≠ _
    split_ifs with hst
    · decide
    · exact hst
  refine ⟨hsender, h.used, h.cap, fun hf => ⟨(h.fin hf).1, (h.fin hf).2.1, hne⟩, h.free, h.syn, h.pending,
    ?_⟩
  obtain hf | hs := h.phase
  · refine .inl ⟨hf.1, hf.2, hf.3, hf.4, hf.5, hf.6, fun hl => hf.idle ?_⟩
    have hst : x.sock.markPeerFinReceived.state = x.sock.state :=
      if_neg fun hst => hf.idle (.inl hst)
    obtain hl | hl := hl
    · exact absurd hl hne
    · exact .inr (hst.symm.trans hl)
  · refine .inr ⟨hs.1, hs.2, hs.3, hs.4, ?_⟩
    show x.sock.markPeerFinReceived.Live ∨ x.sock.markPeerFinReceived.state = .CLOSED
    unfold TcpSocket.Live TcpSocket.markPeerFinReceived
    obtain (hst | hst) | hst := hs.state
    · exact .inl (.inr (if_pos hst))
    · exact .inl (.inr ((if_neg (by rw [hst]; decide)).trans hst))
    · exact .inr ((if_neg (by rw [hst]; decide)).trans hst)

/-- The child of a SYN is the server's end, to which nothing has happened before. -/
theorem EndOk.born {w : Party} {x : End} (h : EndOk w x) (hw : w = .server)
    (hnew : x.sock = TcpSocket.new) (localPort remoteAddr remotePort : Int)
    (hsender : SenderOk (TcpSocket.new.initAccepted localPort remoteAddr remotePort)) :
    EndOk w
      { x with
        sock := TcpSocket.new.initAccepted localPort remoteAddr remotePort
        registered := true } := by
  have hclient : w ≠ .client := by
    rw [hw]
    decide
  have hf : Fresh x := by
    refine h.phase.resolve_right fun hst => ?_
    have hle := hst.sndUna
    rw [hnew] at hle
    exact absurd hle (by decide)
  have hbuf : x.received = x.readOut := by
    rw [End.received, hnew]
    exact List.append_nil _
  have hpend : x.pending = false := by
    by_contra hp
    exact hclient (h.pending (by simpa using hp))
  have hcap : (0 : Int) ≤ TcpSocket.RECV_BUF_CAP := by decide
  have hfin : ((-1 : Int) < 0) := by decide
  refine ⟨hsender, rfl, hcap, fun hfin' => absurd hfin (not_lt.mpr hfin'),
    fun _ => ⟨hf.written, hfin⟩, fun hc => absurd hc hclient, h.pending,
    .inr ⟨le_rfl, ?_, ?_, hpend, .inl (.inl rfl)⟩⟩
  · show (1 : Int) = 1 + (x.written.length : Int)
    rw [hf.written]
    rfl
  · show (1 : Int) = 1 + ((x.readOut ++ []).length : Int)
    rw [List.append_nil, ← hbuf, hf.received]
    rfl

/-- Every act keeps the invariant of an end. -/
theorem EndOk.act {cfg : Config} {w : Party} {x x' : End} {op : Op} {out : List Sent}
    (h : EndOk w x) (hact : Act cfg w x op x' out) (hsender : SenderOk x'.sock) : EndOk w x' := by
  cases hact with
  | idle => exact h
  | write hheld hst hpos hout => exact h.write hheld hst hsender
  | @read i buf pos len hi hheld hst hlen hused =>
      have hu := h.used
      exact h.take hst (by omega) (min_le_right _ _) hsender
  | @readEnd i buf pos len hi hheld hends hany =>
      have hu := h.used
      have hsender' : SenderOk (x.sock.taken x.sock.recvBufUsed) := by
        refine hsender.congr rfl rfl rfl hsender.rwnd fun hst => ?_
        exact absurd hst hends.1.ne.2.2
      exact (h.take hends.1 (by omega) le_rfl hsender').close x.registered hsender
  | accept hw hheld hst =>
      have hs := h.started hst
      have hfin := (h.free hheld).2
      refine ⟨hsender, h.used, h.cap, ?_, (fun e => by cases e), h.syn, h.pending,
        .inr ⟨hs.sndUna, hs.sndNxt, hs.rcvNxt, hs.pending, .inl (.inl rfl)⟩⟩
      exact fun hfin' => absurd hfin (not_lt.mpr hfin')
  | acceptClosed hw hheld hst =>
      refine ⟨hsender, h.used, h.cap, h.fin, (fun e => by cases e), h.syn, h.pending, ?_⟩
      obtain hf | hs := h.phase
      · exact .inl ⟨hf.1, hf.2, hf.3, hf.4, hf.5, hf.6, hf.7⟩
      · exact .inr ⟨hs.1, hs.2, hs.3, hs.4, hs.5⟩
  | closePending hi hst => exact h.close x.registered hsender
  | shutdown hi hheld hst hwait => exact h.shut hst hsender
  | shutdownFin hi hheld hst hempty hp =>
      have hsender' : SenderOk { x.sock with state := .SHUTDOWN } :=
        hsender.congr rfl rfl rfl hsender.rwnd fun e => by cases e
      exact (h.shut hst hsender').queueFin hheld rfl hempty hsender
  | timeout hout => exact h.timedOut _ hsender
  | window hty hst hle hold =>
      have hs := h.started hst
      exact ⟨hsender, h.used, h.cap, h.fin, h.free, h.syn, h.pending, .inr ⟨hs.1, hs.2, hs.3, hs.4, hs.5⟩⟩
  | advance hty hst hlt hle => exact h.advance hst hlt hle hsender
  | @advanceFin now srcAddr ack p hty hst hlt hle hempty hp =>
      have hsame : SameConn x.sock (advanced (x.sock.setRwnd ack.window) now ack.seqNum) :=
        (sameConn_setRwnd _ _).trans (sameConn_advanced _ _ _)
      have hstate := hsame.state.trans hst
      have hsender' : SenderOk (advanced (x.sock.setRwnd ack.window) now ack.seqNum) := by
        refine hsender.congr rfl rfl rfl hsender.rwnd fun e => ?_
        rw [hstate] at e
        cases e
      exact (h.advance (.inr hst) hlt hle hsender').queueFin (h.held_of_lt (.inr hst) (by omega))
        hstate hempty hsender
  | finAcked hty hst hfin hack => exact h.close false hsender
  | establish hty hpend hst hack => exact h.establish hpend hst hsender
  | establishClosed hty hpend hst hack =>
      have hf := h.fresh_of_pending hpend
      exact ⟨hsender, h.used, h.cap, h.fin, h.free, h.syn, (fun e => by cases e),
        .inl ⟨hf.1, hf.2, hf.3, hf.4, hf.5, hf.6, hf.7⟩⟩
  | refused hty hpend =>
      have hf := h.fresh_of_pending hpend
      refine ⟨hsender, h.used, h.cap, ?_, h.free, h.syn, (fun e => by cases e),
        .inl ⟨hf.1, hf.2, hf.3, hf.4, hf.5, hf.6, fun hl => hl.ne.1 rfl⟩⟩
      exact fun hfin => absurd hf.finSeq (not_lt.mpr hfin)
  | answer hty hst hout => exact h
  | store hty hst hseq hne hroom hout => exact h.store hst hroom hsender
  | peerFin hty hreg hout => exact h.peerFin hsender
  | born hty hw hs hheld hout => exact h.born hw hs _ _ _ hsender

/-- What an act sends comes from its side and is no SYN. -/
theorem Act.sends {cfg : Config} {w : Party} {x x' : End} {op : Op} {out : List Sent}
    (hact : Act cfg w x op x' out) : ∀ p ∈ out, cfg.From w p ∧ p.seg.type ≠ .SYN := by
  have hsend : ∀ {p : Sent} {type : SegType} {window seqNum : Int} {payload : List UInt8},
      cfg.Sends w p type window seqNum payload → type ≠ .SYN →
        cfg.From w p ∧ p.seg.type ≠ .SYN :=
    fun hp hne => ⟨hp.from, by rw [hp.type]; exact hne⟩
  have hone : ∀ {p q : Sent} {window seqNum : Int} {payload : List UInt8},
      cfg.Sends w p .FIN window seqNum payload → q ∈ [p] → cfg.From w q ∧ q.seg.type ≠ .SYN := by
    intro p q window seqNum payload hp hq
    rw [List.mem_singleton.mp hq]
    exact hsend hp (by decide)
  cases hact with
  | idle | read | readEnd | accept | acceptClosed | closePending | shutdown | window | advance |
    finAcked | establish | establishClosed | refused => exact fun p hp => by cases hp
  | write hheld hst hpos hout =>
      intro p hp
      obtain ⟨seg, _, hseg⟩ := exists_mem_of_forall₂ hout hp
      exact hsend hseg (by decide)
  | shutdownFin hi hheld hst hempty hp => exact fun q hq => hone hp hq
  | timeout hout =>
      intro p hp
      obtain ⟨seg, _, hseg⟩ := hout p hp
      exact hsend hseg (by decide)
  | advanceFin hty hst hlt hle hempty hp => exact fun q hq => hone hp hq
  | answer hty hst hout => exact fun p hp => hsend (hout p hp) (by decide)
  | store hty hst hseq hne hroom hout => exact fun p hp => hsend (hout p hp) (by decide)
  | peerFin hty hreg hout => exact fun p hp => hsend (hout p hp) (by decide)
  | born hty hw hs hheld hout => exact fun p hp => hsend (hout p hp) (by decide)

/-! ### The whole system -/

namespace Config

variable {cfg : Config} {v w : Party} {p : Sent}

theorem addr_inj (h : cfg.addr v = cfg.addr w) : v = w := by
  cases v <;> cases w
  · rfl
  · exact absurd h cfg.addr_ne
  · exact absurd h.symm cfg.addr_ne
  · rfl

theorem From.unique (h : cfg.From v p) (h' : cfg.From w p) : v = w :=
  addr_inj (h.src.symm.trans h'.src)

theorem From.of_dest (h : cfg.From v p) (hdest : p.dest = cfg.addr w) : cfg.From w.other p := by
  have hv : v.other = w := addr_inj (h.dest.symm.trans hdest)
  rw [← hv, Party.other_other]
  exact h

end Config

namespace Sys

variable (cfg : Config) (σ : Sys)

/-- The two ends of the connection. -/
def ends (w : Party) : End := (σ.side w).view cfg w

/-- The system in every run. -/
structure Ok : Prop where
  side : ∀ w, SideOk cfg w (σ.side w)
  ends : ∀ w, EndOk w (σ.ends cfg w)
  wire : ∀ p ∈ σ.wire, ∃ w, cfg.From w p
  syn : ∀ p ∈ σ.wire, p.seg.type = .SYN →
    p.seg.seqNum = 0 ∧ p.src = cfg.addr .client ∧ (σ.side .server).man.allSockets.length = 1
  once : σ.wire.countP (fun p => p.seg.type = .SYN) ≤ 1

/-- What is known of a segment that is delivered: it is from one of the sides, and a SYN is the
only one. -/
structure Delivers (p : Sent) : Prop where
  sender : ∃ w, cfg.From w p
  syn : p.seg.type = .SYN → p.seg.seqNum = 0 ∧ p.src = cfg.addr .client ∧
    (σ.side .server).man.allSockets.length = 1 ∧ ∀ q ∈ σ.wire, q.seg.type ≠ .SYN

variable {cfg σ}

theorem remaining_subset (e : Event) : ∀ p ∈ σ.remaining e, p ∈ σ.wire := by
  intro p hp
  cases e with
  | deliver n now => exact List.mem_of_mem_eraseIdx hp
  | drop n => exact List.mem_of_mem_eraseIdx hp
  | duplicate n =>
      obtain hp | hp := List.mem_append.mp hp
      · exact hp
      · rw [Option.mem_toList, Option.filter_eq_some_iff] at hp
        exact List.mem_of_getElem? hp.1
  | write | read | accept | close | tick => exact hp

theorem remaining_once (e : Event) :
    (σ.remaining e).countP (fun p => p.seg.type = .SYN) ≤
      σ.wire.countP (fun p => p.seg.type = .SYN) := by
  cases e with
  | deliver n now => exact (List.eraseIdx_sublist _ _).countP_le
  | drop n => exact (List.eraseIdx_sublist _ _).countP_le
  | duplicate n =>
      -- the copy is no SYN
      have hcopy : (σ.wire[n]?.filter fun p => p.seg.type ≠ .SYN).toList.countP
          (fun p => decide (p.seg.type = .SYN)) = 0 := by
        rw [List.countP_eq_zero]
        intro p hp
        rw [Option.mem_toList, Option.filter_eq_some_iff] at hp
        simpa using hp.2
      show (σ.wire ++ _).countP _ ≤ _
      rw [List.countP_append, hcopy]
      exact le_rfl
  | write | read | accept | close | tick => exact le_rfl

theorem Ok.network (h : σ.Ok cfg) (e : Event) :
    Ok cfg { σ with wire := σ.remaining e } ∧
      ∀ n now p, e = .deliver n now → σ.wire[n]? = some p →
        Delivers cfg { σ with wire := σ.remaining e } p := by
  refine ⟨⟨h.side, h.ends, ?_, ?_, (remaining_once e).trans h.once⟩, ?_⟩
  · exact fun p hp => h.wire p (remaining_subset e p hp)
  · exact fun p hp => h.syn p (remaining_subset e p hp)
  · rintro n now p rfl hp
    have hmem := List.mem_of_getElem? hp
    refine ⟨h.wire p hmem, fun hty => ?_⟩
    obtain ⟨hseq, hsrc, hlen⟩ := h.syn p hmem hty
    refine ⟨hseq, hsrc, hlen, fun q hq hqty => ?_⟩
    -- a second SYN would be counted
    obtain ⟨hn, rfl⟩ := List.getElem?_eq_some_iff.mp hp
    have hcount := (List.getElem_cons_eraseIdx_perm hn).countP_eq fun p => p.seg.type = .SYN
    rw [List.countP_cons_of_pos (by simpa using hty)] at hcount
    have hpos : 0 < (σ.wire.eraseIdx n).countP fun p => p.seg.type = .SYN :=
      List.countP_pos_iff.mpr ⟨q, hq, by simpa using hqty⟩
    have := h.once
    omega

theorem ends_act_self (w : Party) (op : Op) :
    (σ.act w op).ends cfg w = ((σ.side w).perform op).view cfg w := by
  rw [ends, act_side_self]

theorem ends_act (w : Party) (op : Op) :
    (σ.act w op).ends cfg =
      Function.update (σ.ends cfg) w (((σ.side w).perform op).view cfg w) := by
  funext v
  obtain rfl | rfl := w.eq_or_eq_other v
  · rw [Function.update_self, ends_act_self]
  · rw [Function.update_of_ne w.other_ne, ends, act_side_other]
    rfl

theorem Ok.acts (h : σ.Ok cfg) {w : Party} {op : Op}
    (hin : Input (σ.side w) (cfg.addr w) (Delivers cfg σ) op) :
    SideOk cfg w ((σ.side w).perform op) ∧
      Act cfg w (σ.ends cfg w) op (((σ.side w).perform op).view cfg w) ((σ.side w).emitted op) := by
  refine Side.perform_act (h.side w) (Q := fun p => Delivers cfg σ p ∧ p.dest = cfg.addr w) ?_ ?_
  · cases hin with
    | write now hi buf pos len => exact .write now hi buf pos len
    | read hi buf pos len => exact .read hi buf pos len
    | accept hi => exact .accept hi
    | close hi => exact .close hi
    | tick now => exact .tick now
    | receive now hp hdest => exact .receive now ⟨hp, hdest⟩ hdest
  · rintro p ⟨hp, hdest⟩
    obtain ⟨v, hv⟩ := hp.sender
    have hfrom := hv.of_dest hdest
    refine ⟨hfrom, fun hty => ?_⟩
    obtain ⟨_, hsrc, hlen, _⟩ := hp.syn hty
    have hw : w.other = .client := Config.addr_inj (hfrom.src.symm.trans hsrc)
    have hserver : w = .server := by rw [← w.other_other, hw]; rfl
    subst hserver
    exact ⟨rfl, hlen⟩

theorem Ok.act (h : σ.Ok cfg) {w : Party} {op : Op}
    (hin : Input (σ.side w) (cfg.addr w) (Delivers cfg σ) op) : (σ.act w op).Ok cfg := by
  obtain ⟨hside, hact⟩ := h.acts hin
  have hsends := hact.sends
  have hnone : ∀ p ∈ (σ.side w).emitted op, ¬ decide (p.seg.type = .SYN) = true := by
    intro p hp
    simpa using (hsends p hp).2
  refine ⟨?_, ?_, ?_, ?_, ?_⟩
  · intro v
    obtain rfl | rfl := w.eq_or_eq_other v
    · rw [act_side_self]
      exact hside
    · rw [act_side_other]
      exact h.side _
  · intro v
    obtain rfl | rfl := w.eq_or_eq_other v
    · rw [ends_act_self]
      exact (h.ends v).act hact (hside.steady.senders _)
    · rw [Sys.ends, act_side_other]
      exact h.ends _
  · intro p hp
    obtain hp | hp := List.mem_append.mp hp
    · exact h.wire p hp
    · exact ⟨w, (hsends p hp).1⟩
  · intro p hp hty
    obtain hmem | hmem := List.mem_append.mp hp
    · obtain ⟨hseq, hsrc, hlen⟩ := h.syn p hmem hty
      refine ⟨hseq, hsrc, ?_⟩
      obtain rfl | hother := w.eq_or_eq_other .server
      · -- the server makes a child for a SYN only, and there is no other one
        rw [act_side_self]
        refine ((σ.side .server).man.length_step (h.side _).steady.bounded ?_ ?_).trans hlen
        · cases hin <;> exact fun e => by cases e
        · rintro now srcAddr t rfl hsyn
          cases hin with
          | receive now hq hdest => exact (hq.syn hsyn).2.2.2 p hmem hty
      · have hsame : (σ.act w op).side .server = σ.side .server := by
          rw [hother]
          exact act_side_other w op
        rw [hsame]
        exact hlen
    · exact absurd hty (hsends p hmem).2
  · rw [act_wire, List.countP_append, List.countP_eq_zero.mpr hnone]
    exact h.once

/-- An event is an act on the end of its side and leaves the other end alone. -/
theorem Ok.event (h : σ.Ok cfg) {e : Event} {w : Party} {op : Op}
    (hop : σ.opOf cfg e = some (w, op)) :
    (∃ out, Act cfg w (σ.ends cfg w) op ((σ.step cfg e).ends cfg w) out) ∧
      (σ.step cfg e).ends cfg w.other = σ.ends cfg w.other := by
  obtain ⟨hok, hQ⟩ := h.network e
  have hin := input_of_opOf cfg hop hQ
  rw [step_of_opOf cfg hop, ends_act, Function.update_self, Function.update_of_ne w.other_ne]
  exact ⟨⟨_, (hok.acts hin).2⟩, rfl⟩

/-! ### The initial state -/

variable (cfg)

theorem opening_allowed (w : Party) :
    Guarded Host.step Host.Allowed (Host.new (cfg.addr w)) (opening cfg w) := by
  cases w <;> exact ⟨trivial, rfl, (fun e => by cases e), trivial⟩

theorem openedMan_steady (w : Party) : (openedMan cfg w).Steady := by
  have hsound := Host.sound_run (cfg.addr w) (opening_allowed cfg w)
  have hsender := Host.senderOk_run (cfg.addr w) (opening_allowed cfg w)
  have hman : (run Host.step (Host.new (cfg.addr w)) (opening cfg w)).man = openedMan cfg w :=
    Host.man_run _ _
  refine ⟨?_, ?_, ?_⟩
  · rw [← hman]
    exact hsound.bounded
  · rw [← hman]
    exact hsound.fits
  · rw [← hman]
    exact hsender

/-- The socket of the connection before the SYN arrives. -/
def openSocket : Party → TcpSocket
  | .client =>
      { TcpManager.addressed (TcpSocket.new.bind (cfg.port .client)) (cfg.addr .server)
          (cfg.port .server) with state := .SYN_SENT }
  | .server => TcpSocket.new

theorem openedMan_client : ∃ p : Sent, cfg.Sends .client p .SYN 0 0 [] ∧
    openedMan cfg .client =
      { addr := cfg.addr .client
        allSockets := [openSocket cfg .client]
        listenersByPort := ∅
        synPendingByKey := (∅ : Table ConnKey SockId).insert (cfg.key .client) 0
        establishedByKey := ∅
        sent := [p] } := by
  set m : TcpManager :=
    ⟨cfg.addr .client, [TcpSocket.new.bind (cfg.port .client)], ∅, ∅, ∅, []⟩ with hm
  have hrun : openedMan cfg .client = m.step (.connect 0 (cfg.addr .server) (cfg.port .server)) := rfl
  have hlt : 0 < m.allSockets.length := Nat.zero_lt_one
  have hexec : m.step (.connect 0 (cfg.addr .server) (cfg.port .server)) =
      (m.connect 0 (cfg.addr .server) (cfg.port .server)).1 :=
    m.step_of_valid fun i hi => by cases hi; exact hlt
  have hguard : ¬ TcpManager.Rejected (m.sock 0) (cfg.port .server) := by
    have hc := cfg.port_range .client
    have hs := cfg.port_range .server
    rintro (h | h | h)
    · exact absurd h (not_lt.mpr hc.1)
    · exact absurd h (not_lt.mpr hs.1)
    · exact absurd h (not_lt.mpr hs.2)
  have hsend : Sendable m.addr (cfg.addr .server) (m.sock 0).localPort (cfg.port .server) :=
    cfg.sendable .client
  obtain ⟨p, hp, e⟩ := m.connect_ok hlt hguard hsend
  refine ⟨p, hp, ?_⟩
  rw [hrun, hexec, e]
  rfl

theorem openedMan_length (w : Party) : (openedMan cfg w).allSockets.length = 1 := by
  cases w with
  | client =>
      obtain ⟨p, _, e⟩ := openedMan_client cfg
      rw [e]
      rfl
  | server => rfl

theorem openedMan_sock_succ (w : Party) (j : SockId) :
    (openedMan cfg w).sock (j + 1) = TcpSocket.new := by
  refine TcpManager.sock_of_length_le _ ?_
  rw [openedMan_length]
  exact Nat.succ_le_succ (Nat.zero_le j)

theorem openedMan_conn (w : Party) : (openedMan cfg w).sock w.conn = openSocket cfg w := by
  cases w with
  | client =>
      obtain ⟨p, _, e⟩ := openedMan_client cfg
      rw [e]
      rfl
  | server => exact openedMan_sock_succ cfg .server 0

theorem openedMan_shape (w : Party) : (openedMan cfg w).Shape cfg w [0] := by
  have hsucc := openedMan_sock_succ cfg w
  cases w with
  | client =>
      have hsock : (openedMan cfg .client).sock 0 = openSocket cfg .client :=
        openedMan_conn cfg .client
      obtain ⟨p, _, e⟩ := openedMan_client cfg
      refine ⟨?_, ?_, (fun e => by cases e), ?_, ?_, ?_, ?_, ?_, ?_, ?_, ?_⟩
      · rw [e]
      · intro k i hk
        rw [e] at hk
        cases hk
      · intro k i hk
        rw [e] at hk
        obtain ⟨hk, hi⟩ | ⟨_, hk⟩ := Table.lookup_insert_some _ hk
        · exact ⟨rfl, hi, hk⟩
        · cases hk
      · intro k i hk
        rw [e] at hk
        cases hk
      · intro j hj
        obtain _ | j := j
        · exact absurd rfl hj
        · rw [hsucc]
          exact .inr rfl
      · show ((openedMan cfg .client).sock 0).state ≠ .LISTEN
        rw [hsock]
        exact fun e => by cases e
      · intro _
        show ((openedMan cfg .client).sock 0).key = _
        rw [hsock]
        rfl
      · intro j
        left
        obtain _ | j := j
        · rw [hsock]
          rfl
        · rw [hsucc]
          rfl
      · intro i hi
        rw [List.mem_singleton.mp hi, e]
        exact Nat.zero_lt_one
      · exact .inl (openedMan_length cfg .client)
  | server =>
      refine ⟨rfl, ?_, ?_, ?_, ?_, ?_, ?_, ?_, ?_, ?_, .inl rfl⟩
      · intro k i hk
        obtain ⟨_, hi⟩ | ⟨_, hk⟩ := Table.lookup_insert_some _ hk
        · exact ⟨rfl, hi⟩
        · cases hk
      · exact fun _ => AList.lookup_insert _
      · exact fun k i hk => by cases hk
      · exact fun k i hk => by cases hk
      · intro j _
        obtain _ | j := j
        · exact .inl rfl
        · rw [hsucc]
          exact .inr rfl
      · show ((openedMan cfg .server).sock 1).state ≠ .LISTEN
        rw [hsucc]
        exact fun e => by cases e
      · intro hst
        exact absurd (congrArg TcpSocket.state (hsucc 0)) hst
      · intro j
        left
        obtain _ | j := j
        · rfl
        · rw [hsucc]
          rfl
      · intro i hi
        rw [List.mem_singleton.mp hi]
        exact Nat.zero_lt_one

/-- The ends before anything happens. -/
theorem init_fresh (w : Party) : Fresh ((init cfg).ends cfg w) := by
  have hsock : ((init cfg).ends cfg w).sock = openSocket cfg w := openedMan_conn cfg w
  refine ⟨?_, ?_, ?_, rfl, ?_, ?_, ?_⟩
  · rw [hsock]
    cases w <;> rfl
  · rw [hsock]
    cases w <;> rfl
  · rw [hsock]
    cases w <;> rfl
  · rw [End.received, hsock]
    cases w <;> rfl
  · rw [hsock]
    cases w <;> exact (by decide : (-1 : Int) < 0)
  · rw [hsock]
    cases w
    · exact fun hl => hl.ne.2.2 rfl
    · exact fun hl => hl.ne.1 rfl

theorem init_endOk (w : Party) : EndOk w ((init cfg).ends cfg w) := by
  have hsock : ((init cfg).ends cfg w).sock = openSocket cfg w := openedMan_conn cfg w
  have hfresh := init_fresh cfg w
  refine ⟨(openedMan_steady cfg w).senders w.conn, ?_, ?_, ?_, ?_, ?_, ?_, .inl hfresh⟩
  · rw [hsock]
    cases w <;> rfl
  · rw [hsock]
    cases w <;> exact (by decide : (0 : Int) ≤ TcpSocket.RECV_BUF_CAP)
  · exact fun hfin => absurd hfresh.finSeq (not_lt.mpr hfin)
  · exact fun _ => ⟨rfl, hfresh.finSeq⟩
  · rintro rfl
    rw [hsock]
    rfl
  · intro hp
    cases w with
    | client => rfl
    | server => cases hp

theorem init_wire : ∃ p : Sent, cfg.Sends .client p .SYN 0 0 [] ∧ (init cfg).wire = [p] := by
  obtain ⟨p, hp, e⟩ := openedMan_client cfg
  refine ⟨p, hp, ?_⟩
  show (openedMan cfg .client).sent = _
  rw [e]

theorem init_ok : (init cfg).Ok cfg := by
  obtain ⟨p, hp, hwire⟩ := init_wire cfg
  refine ⟨fun w => ⟨openedMan_steady cfg w, openedMan_shape cfg w⟩, init_endOk cfg, ?_, ?_, ?_⟩
  · intro q hq
    rw [hwire, List.mem_singleton] at hq
    subst hq
    exact ⟨.client, hp.from⟩
  · intro q hq _
    rw [hwire, List.mem_singleton] at hq
    subst hq
    exact ⟨hp.seqNum, hp.src, rfl⟩
  · rw [hwire]
    exact List.countP_le_length

/-! ### All runs -/

/-- A condition on the ends under which an operation happens. -/
abbrev Guard := (Party → End) → Party → Op → Prop

/-- The operation of an event meets the condition. -/
abbrev Respects (G : Guard) (σ : Sys) (e : Event) : Prop :=
  Meets cfg (fun side => G fun w => (side w).view cfg w) σ e

/-- What an act may use about the segment it receives. -/
def Arrival (I : (Party → End) → List Sent → Prop) (x : Party → End) (wire : List Sent) (w : Party)
    (op : Op) : Prop :=
  ∀ now srcAddr t, op = .receive now srcAddr t →
    ∃ p : Sent, p.seg = t ∧ cfg.From w.other p ∧ (t.type = .SYN → t.seqNum = 0) ∧ I x (p :: wire)

variable {cfg}

theorem Arrival.imp {I J : (Party → End) → List Sent → Prop} (hIJ : ∀ x wire, I x wire → J x wire)
    {x : Party → End} {wire : List Sent} {w : Party} {op : Op} (h : Arrival cfg I x wire w op) :
    Arrival cfg J x wire w op := by
  intro now srcAddr t e
  obtain ⟨p, hseg, hfrom, hsyn, hI⟩ := h now srcAddr t e
  exact ⟨p, hseg, hfrom, hsyn, hIJ _ _ hI⟩

theorem Arrival.exists {γ : Type*} {I : γ → (Party → End) → List Sent → Prop}
    (hsub : ∀ c x wire wire', I c x wire → (∀ p ∈ wire', p ∈ wire) → I c x wire') {x : Party → End}
    {wire : List Sent} {w : Party} {op : Op} (h : ∃ c, I c x wire)
    (harr : Arrival cfg (fun x wire => ∃ c, I c x wire) x wire w op) :
    ∃ c, I c x wire ∧ Arrival cfg (I c) x wire w op := by
  cases op with
  | receive now srcAddr t =>
      obtain ⟨p, hp, hfrom, hsyn, c, hI⟩ := harr now srcAddr t rfl
      refine ⟨c, hsub c x _ _ hI fun q hq => List.mem_cons_of_mem _ hq, ?_⟩
      rintro _ _ _ ⟨⟩
      exact ⟨p, hp, hfrom, hsyn, hI⟩
  | socket | bind | listen | accept | connect | close | release | write | read | tick =>
      obtain ⟨c, hI⟩ := h
      exact ⟨c, hI, fun _ _ _ e => by cases e⟩

/-- Every event of the system is an act, or changes the wire only. -/
theorem step_ends {I : (Party → End) → List Sent → Prop} {G : Guard}
    (hsub : ∀ x wire wire', I x wire → (∀ p ∈ wire', p ∈ wire) → I x wire')
    (hact : ∀ x wire w op x' out, (∀ v, EndOk v (x v)) → EndOk w x' → I x wire →
      Act cfg w (x w) op x' out → Arrival cfg I x wire w op → G x w op →
      I (Function.update x w x') (wire ++ out))
    (σ : Sys) (e : Event) (h : σ.Ok cfg ∧ I (σ.ends cfg) σ.wire) (hG : Respects cfg G σ e) :
    (σ.step cfg e).Ok cfg ∧ I ((σ.step cfg e).ends cfg) (σ.step cfg e).wire := by
  refine step_rule cfg (I := fun σ => σ.Ok cfg ∧ I (σ.ends cfg) σ.wire)
    (Q := fun σ p => Delivers cfg σ p ∧ I (σ.ends cfg) (p :: σ.wire)) ?_ ?_ σ e h hG
  · rintro σ e ⟨hok, hI⟩
    refine ⟨⟨(hok.network e).1, hsub _ _ _ hI (remaining_subset e)⟩, ?_⟩
    rintro n now p rfl hp
    refine ⟨(hok.network _).2 n now p rfl hp, hsub _ _ _ hI ?_⟩
    intro q hq
    obtain rfl | hq := List.mem_cons.mp hq
    · exact List.mem_of_getElem? hp
    · exact List.mem_of_mem_eraseIdx hq
  · rintro σ w op ⟨hok, hI⟩ hin hG
    have hin' : Input (σ.side w) (cfg.addr w) (Delivers cfg σ) op := hin.imp fun p hp => hp.1
    obtain ⟨hside, ha⟩ := hok.acts hin'
    refine ⟨hok.act hin', ?_⟩
    rw [ends_act, act_wire]
    refine hact _ _ _ _ _ _ hok.ends ((hok.ends w).act ha (hside.steady.senders _)) hI ha ?_ hG
    rintro now srcAddr t rfl
    cases hin with
    | @receive _ p hp hdest =>
        obtain ⟨v, hv⟩ := hp.1.sender
        exact ⟨p, rfl, hv.of_dest hdest, fun hty => (hp.1.syn hty).1, hp.2⟩

/-- **The rule for invariants of the two ends and the wire.** -/
theorem ends_rule {I : (Party → End) → List Sent → Prop} {G : Guard}
    (hsub : ∀ x wire wire', I x wire → (∀ p ∈ wire', p ∈ wire) → I x wire')
    (hact : ∀ x wire w op x' out, (∀ v, EndOk v (x v)) → EndOk w x' → I x wire →
      Act cfg w (x w) op x' out → Arrival cfg I x wire w op → G x w op →
      I (Function.update x w x') (wire ++ out))
    (hinit : I ((init cfg).ends cfg) (init cfg).wire) {es : List Event}
    (hes : Guarded (step cfg) (Respects cfg G) (init cfg) es) :
    I ((run (step cfg) (init cfg) es).ends cfg) (run (step cfg) (init cfg) es).wire :=
  (guarded_induction (I := fun σ => σ.Ok cfg ∧ I (σ.ends cfg) σ.wire)
    (fun σ e h hG => step_ends hsub hact σ e h hG) ⟨init_ok cfg, hinit⟩ hes).2

theorem guarded_trivial {G : Guard} (hG : ∀ x w op, G x w op) (σ : Sys) (es : List Event) :
    Guarded (step cfg) (Respects cfg G) σ es := by
  induction es generalizing σ with
  | nil => trivial
  | cons e es ih => exact ⟨fun _ _ => hG _ _ _, ih _⟩

theorem Ok.step {σ : Sys} (h : σ.Ok cfg) (e : Event) : (σ.step cfg e).Ok cfg := by
  refine (step_ends (I := fun _ _ => True) (G := fun _ _ _ => True) ?_ ?_ σ e ⟨h, trivial⟩ ?_).1
  · exact fun _ _ _ _ _ => trivial
  · exact fun _ _ _ _ _ _ _ _ _ _ _ _ => trivial
  · exact fun _ _ => trivial

theorem ok_run (cfg : Config) (es : List Event) : (run (Sys.step cfg) (init cfg) es).Ok cfg :=
  run_induction (I := Ok cfg) (fun _ e h => h.step e) (init_ok cfg) es

end Sys

end NetBridge
