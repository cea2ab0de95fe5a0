import Mathlib.Data.List.Forall2
import NetBridge.TcpManager

/-! # What the calls of the manager do

One lemma for each call, in terms of three updates of the manager: `setSock` on the socket the
call is about, the tables, and `emit`, which appends to `sent`.  The later modules use these
lemmas and do not unfold the calls again.

* A send either throws and changes nothing, or appends one segment with the fields it was given
  (`trySend_ok`, `trySend_fails`).
* `write` appends the chunks of the window to the queue and to the network
  (`writeLoop_sends`, `write_effect`).
* `retransmissionTick` is a sequence of rounds, each on one socket (`tick_induction`,
  `retransmitSocket_effect`). -/

namespace NetBridge

namespace TcpManager

variable (m : TcpManager)

/-! ### The socket heap -/

theorem sock_setSock_self {i : SockId} (h : i < m.allSockets.length) (s : TcpSocket) :
    (m.setSock i s).sock i = s := by
  simp [sock, setSock, h]

theorem sock_setSock_ne {i j : SockId} (h : j ≠ i) (s : TcpSocket) :
    (m.setSock i s).sock j = m.sock j := by
  simp [sock, setSock, List.getElem?_set_ne (Ne.symm h)]

theorem sock_of_length_le {i : SockId} (h : m.allSockets.length ≤ i) :
    m.sock i = TcpSocket.new := by
  simp [sock, List.getElem?_eq_none h]

@[simp] theorem setSock_length (i : SockId) (s : TcpSocket) :
    (m.setSock i s).allSockets.length = m.allSockets.length := by
  simp [setSock]

theorem sock_setSock_cases (i : SockId) (s : TcpSocket) (j : SockId) :
    (m.setSock i s).sock j = m.sock j ∨ j = i ∧ (m.setSock i s).sock j = s := by
  by_cases hj : j = i
  · subst hj
    obtain hlt | hge := Nat.lt_or_ge j m.allSockets.length
    · exact .inr ⟨rfl, m.sock_setSock_self hlt s⟩
    · left
      rw [m.sock_of_length_le hge, sock_of_length_le _ (by simpa using hge)]
  · exact .inl (m.sock_setSock_ne hj s)

theorem lt_length_of_state {i : SockId} (h : (m.sock i).state ≠ .CLOSED) :
    i < m.allSockets.length := by
  by_contra hge
  rw [m.sock_of_length_le (Nat.le_of_not_lt hge)] at h
  exact h rfl

@[simp] theorem setSock_setSock (i : SockId) (s s' : TcpSocket) :
    (m.setSock i s).setSock i s' = m.setSock i s' := by
  simp [setSock, List.set_set]

@[simp] theorem setSock_sock (i : SockId) : m.setSock i (m.sock i) = m := by
  obtain h | h := Nat.lt_or_ge i m.allSockets.length
  · simp [setSock, sock, List.getElem?_eq_getElem h]
  · simp [setSock, List.set_eq_of_length_le h]

@[simp] theorem setSock_addr (i : SockId) (s : TcpSocket) : (m.setSock i s).addr = m.addr := rfl

@[simp] theorem setSock_listenersByPort (i : SockId) (s : TcpSocket) :
    (m.setSock i s).listenersByPort = m.listenersByPort := rfl

@[simp] theorem setSock_synPendingByKey (i : SockId) (s : TcpSocket) :
    (m.setSock i s).synPendingByKey = m.synPendingByKey := rfl

@[simp] theorem setSock_establishedByKey (i : SockId) (s : TcpSocket) :
    (m.setSock i s).establishedByKey = m.establishedByKey := rfl

@[simp] theorem setSock_sent (i : SockId) (s : TcpSocket) : (m.setSock i s).sent = m.sent := rfl

theorem sock_socket (j : SockId) : m.socket.1.sock j = m.sock j := by
  simp only [socket, sock, List.getD_eq_getElem?_getD]
  obtain h | h | h := Nat.lt_trichotomy j m.allSockets.length
  · rw [List.getElem?_append_left h]
  · subst h
    simp
  · rw [List.getElem?_eq_none (by simp; omega), List.getElem?_eq_none (by omega)]

/-! ### Emitted segments -/

/-- Append segments to what has been sent. -/
def emit (out : List Sent) : TcpManager := { m with sent := m.sent ++ out }

@[simp] theorem emit_nil : m.emit [] = m := by simp [emit]

@[simp] theorem emit_emit (out out' : List Sent) :
    (m.emit out).emit out' = m.emit (out ++ out') := by
  simp [emit]

@[simp] theorem emit_sock (out : List Sent) (i : SockId) : (m.emit out).sock i = m.sock i := rfl

@[simp] theorem emit_setSock (out : List Sent) (i : SockId) (s : TcpSocket) :
    (m.emit out).setSock i s = (m.setSock i s).emit out := rfl

@[simp] theorem emit_addr (out : List Sent) : (m.emit out).addr = m.addr := rfl

@[simp] theorem emit_allSockets (out : List Sent) : (m.emit out).allSockets = m.allSockets := rfl

@[simp] theorem emit_listenersByPort (out : List Sent) :
    (m.emit out).listenersByPort = m.listenersByPort := rfl

@[simp] theorem emit_synPendingByKey (out : List Sent) :
    (m.emit out).synPendingByKey = m.synPendingByKey := rfl

@[simp] theorem emit_establishedByKey (out : List Sent) :
    (m.emit out).establishedByKey = m.establishedByKey := rfl

@[simp] theorem emit_sent (out : List Sent) : (m.emit out).sent = m.sent ++ out := rfl

end TcpManager

/-! ### Reading -/

namespace TcpSocket

variable (s : TcpSocket)

/-- The socket after `read` has taken `n` bytes. -/
def taken (n : Int) : TcpSocket :=
  { s with recvBuf := s.recvBuf.drop n.toNat, recvBufUsed := s.recvBufUsed - n }

theorem taken_zero : s.taken 0 = s := by simp [taken]

/-- The arguments with which `read` takes the last byte after the peer's FIN. -/
def EndsStream (buf : Bool) (pos len : Int) : Prop :=
  s.Live ∧ buf = true ∧ 0 ≤ pos ∧ 0 ≤ len ∧ s.peerFinReceived = true ∧ s.recvBufUsed ≤ len

instance (buf : Bool) (pos len : Int) : Decidable (s.EndsStream buf pos len) :=
  inferInstanceAs (Decidable (_ ∧ _))

theorem read_takes (hst : s.Live) {pos len : Int} (hpos : 0 ≤ pos) (hlen : 0 < len)
    (hlt : len < s.recvBufUsed) :
    s.read true pos len = (s.taken len, len, s.recvBuf.take len.toNat) := by
  have hguard : ¬ ((s.state ≠ .ESTABLISHED ∧ s.state ≠ .SHUTDOWN) ∨ true = false ∨ pos < 0 ∨
      len < 0) := by
    unfold Live at hst
    simp only [Bool.true_eq_false, false_or]
    rintro (h | h | h)
    · tauto
    · omega
    · omega
  have hmin : min len s.recvBufUsed = len := min_eq_left hlt.le
  rw [read, if_neg hguard, if_neg (by omega)]
  simp only [hmin]
  rw [if_neg (by omega)]
  rfl

/-- `read` returns nothing, takes bytes from the front of the buffer, or takes the last ones after
the peer's FIN and closes. -/
theorem read_effect (buf : Bool) (pos len : Int) :
    (∃ r ≤ 0, s.read buf pos len = (s, r, [])) ∨
      (s.Live ∧ 0 < len ∧ s.recvBufUsed ≠ 0 ∧
        s.read buf pos len = (s.taken (min len s.recvBufUsed), min len s.recvBufUsed,
          s.recvBuf.take (min len s.recvBufUsed).toNat)) ∨
      s.EndsStream buf pos len ∧ (s.recvBufUsed = 0 ∨ 0 < len) ∧
        s.read buf pos len = ((s.taken s.recvBufUsed).markClosed, s.recvBufUsed,
          s.recvBuf.take s.recvBufUsed.toNat) := by
  by_cases hguard : (s.state ≠ .ESTABLISHED ∧ s.state ≠ .SHUTDOWN) ∨ buf = false ∨ pos < 0 ∨ len < 0
  · exact .inl ⟨-1, by omega, if_pos hguard⟩
  · have hlive : s.Live := by
      unfold Live
      tauto
    have hbuf : buf = true ∧ 0 ≤ pos ∧ 0 ≤ len := by
      simp only [not_or, not_lt, Bool.not_eq_false] at hguard
      exact hguard.2
    by_cases hnone : len = 0 ∨ s.recvBufUsed = 0
    · have hread : s.read buf pos len =
          (if s.peerFinReceived = true ∧ s.recvBufUsed = 0 then s.markClosed else s, 0, []) := by
        rw [read, if_neg hguard, if_pos hnone]
        rfl
      by_cases hend : s.peerFinReceived = true ∧ s.recvBufUsed = 0
      · refine .inr (.inr ⟨⟨hlive, hbuf.1, hbuf.2.1, hbuf.2.2, hend.1, by omega⟩, .inl hend.2, ?_⟩)
        have htaken : s.taken s.recvBufUsed = s := by rw [hend.2, taken_zero]
        have htake : s.recvBuf.take s.recvBufUsed.toNat = [] := by rw [hend.2]; rfl
        rw [hread, if_pos hend, htaken, htake, hend.2]
      · exact .inl ⟨0, le_rfl, by rw [hread, if_neg hend]⟩
    · have hread : s.read buf pos len =
          (if (s.taken (min len s.recvBufUsed)).peerFinReceived = true ∧
              (s.taken (min len s.recvBufUsed)).recvBufUsed = 0
            then (s.taken (min len s.recvBufUsed)).markClosed
            else s.taken (min len s.recvBufUsed),
            min len s.recvBufUsed, s.recvBuf.take (min len s.recvBufUsed).toNat) := by
        rw [read, if_neg hguard, if_neg hnone]
        rfl
      by_cases hend : (s.taken (min len s.recvBufUsed)).peerFinReceived = true ∧
          (s.taken (min len s.recvBufUsed)).recvBufUsed = 0
      · have hle : s.recvBufUsed ≤ len := by
          have h0 : s.recvBufUsed - min len s.recvBufUsed = 0 := hend.2
          omega
        refine .inr (.inr ⟨⟨hlive, hbuf.1, hbuf.2.1, hbuf.2.2, hend.1, hle⟩, .inr (by omega), ?_⟩)
        rw [hread, if_pos hend, min_eq_right hle]
      · refine .inr (.inl ⟨hlive, by omega, by omega, ?_⟩)
        rw [hread, if_neg hend]

end TcpSocket

/-- The fields of a sent segment. -/
structure Sent.Is (p : Sent) (src dest srcPort destPort : Int) (type : SegType)
    (window seqNum : Int) (payload : List UInt8) : Prop where
  src : p.src = src
  dest : p.dest = dest
  srcPort : p.seg.srcPort = srcPort
  destPort : p.seg.destPort = destPort
  type : p.seg.type = type
  window : p.seg.window = window
  seqNum : p.seg.seqNum = seqNum
  payload : p.seg.payload = payload

theorem Sent.Is.unique {p q : Sent} {src dest srcPort destPort : Int} {type : SegType}
    {window seqNum : Int} {payload : List UInt8}
    (hp : p.Is src dest srcPort destPort type window seqNum payload)
    (hq : q.Is src dest srcPort destPort type window seqNum payload) : p = q := by
  obtain ⟨psrc, pdest, pa, pb, pty, pw, pn, pl, plegal⟩ := p
  obtain ⟨qsrc, qdest, qa, qb, qty, qw, qn, ql, qlegal⟩ := q
  obtain ⟨rfl, rfl, rfl, rfl, rfl, rfl, rfl, rfl⟩ := hp
  obtain ⟨rfl, rfl, rfl, rfl, rfl, rfl, rfl, rfl⟩ := hq
  rfl

/-- The ports and addresses with which a send between `addr` and `destAddr` succeeds. -/
structure Sendable (addr destAddr srcPort destPort : Int) : Prop where
  addr : 0 ≤ addr ∧ addr ≤ 255
  dest : 0 ≤ destAddr ∧ destAddr ≤ 255
  srcPort : 0 ≤ srcPort ∧ srcPort ≤ 255
  destPort : 0 ≤ destPort ∧ destPort ≤ 255

instance (addr destAddr srcPort destPort : Int) :
    Decidable (Sendable addr destAddr srcPort destPort) :=
  decidable_of_iff
    ((0 ≤ addr ∧ addr ≤ 255) ∧ (0 ≤ destAddr ∧ destAddr ≤ 255) ∧
      (0 ≤ srcPort ∧ srcPort ≤ 255) ∧ (0 ≤ destPort ∧ destPort ≤ 255))
    ⟨fun ⟨h1, h2, h3, h4⟩ => ⟨h1, h2, h3, h4⟩, fun ⟨h1, h2, h3, h4⟩ => ⟨h1, h2, h3, h4⟩⟩

namespace TcpManager

variable (m : TcpManager)

/-! ### Sends -/

theorem trySend_ok {destAddr srcPort destPort : Int}
    (h : Sendable m.addr destAddr srcPort destPort) (type : SegType) (window seqNum : Int)
    (payload : List UInt8) (hp : payload.length ≤ 107) :
    ∃ p : Sent, p.Is m.addr destAddr srcPort destPort type window seqNum payload ∧
      m.trySend destAddr (Transport.make srcPort destPort type.code window seqNum payload) =
        (m.emit [p], true) := by
  have hl : Transport.Legal srcPort destPort payload := by
    refine ⟨h.srcPort, h.destPort, ?_⟩
    rw [Transport.MAX_PAYLOAD_SIZE_eq]
    omega
  rw [Transport.make_of_legal hl]
  set t : Transport := ⟨srcPort, destPort, type, window, seqNum, payload, hl⟩ with ht
  have hlen := t.pack_length
  have hv : Packet.isValid destAddr m.addr Packet.MAX_TTL Protocol.TRANSPORT_PKT
      (t.pack.length + Packet.HEADER_SIZE) = true := by
    rw [Packet.isValid_iff]
    refine ⟨h.dest, h.addr, rfl, by decide, ?_⟩
    rw [hlen]
    simp only [Transport.HEADER_SIZE, Packet.HEADER_SIZE, ht]
    omega
  set pkt : Packet := ⟨destAddr, m.addr, Packet.MAX_TTL, Protocol.TRANSPORT_PKT, 0, t.pack, hv⟩
    with hpkt
  have hseq : InInt32 pkt.seq := (by decide : InInt32 0)
  have httl : 0 < pkt.ttl := (by decide : 0 < Packet.MAX_TTL)
  have hs : RuntimeManager.sendPkt m.addr destAddr pkt.pack = .ok () :=
    RuntimeManager.sendPkt_pack pkt hseq httl
  refine ⟨⟨m.addr, destAddr, t⟩, ⟨rfl, rfl, rfl, rfl, rfl, rfl, rfl, rfl⟩, ?_⟩
  simp only [trySend, Packet.make, dif_pos hv, Bind.bind, Except.bind, ← hpkt, hs]
  rfl

theorem trySend_fails {destAddr srcPort destPort : Int}
    (h : ¬ Sendable m.addr destAddr srcPort destPort) (type : SegType) (window seqNum : Int)
    (payload : List UInt8) :
    m.trySend destAddr (Transport.make srcPort destPort type.code window seqNum payload) =
      (m, false) := by
  by_cases hl : Transport.Legal srcPort destPort payload
  · rw [Transport.make_of_legal hl]
    have hv : ¬ Packet.isValid destAddr m.addr Packet.MAX_TTL Protocol.TRANSPORT_PKT
        ((Transport.mk srcPort destPort type window seqNum payload hl).pack.length +
          Packet.HEADER_SIZE) = true := by
      intro hv
      obtain ⟨hdest, hsrc, _⟩ := Packet.isValid_iff.mp hv
      exact h ⟨hsrc, hdest, hl.1, hl.2.1⟩
    simp only [trySend, Packet.make, dif_neg hv, Bind.bind, Except.bind]
  · rw [Transport.make_of_not_legal hl]
    rfl

/-- A send throws and changes nothing, or appends the segment. -/
theorem trySend_cases (destAddr srcPort destPort : Int) (type : SegType) (window seqNum : Int)
    (payload : List UInt8) :
    m.trySend destAddr (Transport.make srcPort destPort type.code window seqNum payload) =
        (m, false) ∨
      ∃ p : Sent, p.Is m.addr destAddr srcPort destPort type window seqNum payload ∧
        m.trySend destAddr (Transport.make srcPort destPort type.code window seqNum payload) =
          (m.emit [p], true) := by
  by_cases h : Sendable m.addr destAddr srcPort destPort
  · by_cases hp : payload.length ≤ 107
    · exact .inr (m.trySend_ok h type window seqNum payload hp)
    · have hl : ¬ Transport.Legal srcPort destPort payload := by
        rintro ⟨_, _, hl⟩
        rw [Transport.MAX_PAYLOAD_SIZE_eq] at hl
        omega
      rw [Transport.make_of_not_legal hl]
      exact .inl rfl
  · exact .inl (m.trySend_fails h type window seqNum payload)

/-- The answers whose result is ignored: nothing or one segment is appended. -/
theorem sendAck_cases (srcPort destAddr destPort ackNum window : Int) :
    ∃ out, (m.sendAck srcPort destAddr destPort ackNum window).1 = m.emit out ∧
      ∀ p ∈ out, p.Is m.addr destAddr srcPort destPort .ACK window ackNum [] := by
  obtain h | ⟨p, hp, h⟩ := m.trySend_cases destAddr srcPort destPort .ACK window ackNum []
  · exact ⟨[], by rw [sendAck, h, emit_nil], by simp⟩
  · exact ⟨[p], by rw [sendAck, h], by simpa using hp⟩

theorem sendFinFromPorts_cases (srcPort destAddr destPort : Int) :
    ∃ out, (m.sendFinFromPorts srcPort destAddr destPort).1 = m.emit out ∧
      ∀ p ∈ out, p.Is m.addr destAddr srcPort destPort .FIN 0 0 [] := by
  obtain h | ⟨p, hp, h⟩ := m.trySend_cases destAddr srcPort destPort .FIN 0 0 []
  · exact ⟨[], by rw [sendFinFromPorts, h, emit_nil], by simp⟩
  · exact ⟨[p], by rw [sendFinFromPorts, h], by simpa using hp⟩

end TcpManager

theorem exists_mem_of_forall₂ {α β : Type*} {R : α → β → Prop} {xs : List α} {ys : List β}
    (h : List.Forall₂ R xs ys) {a : α} (ha : a ∈ xs) : ∃ b ∈ ys, R a b := by
  induction h with
  | nil => cases ha
  | @cons a' b' xs ys hab _ ih =>
      obtain rfl | ha := List.mem_cons.mp ha
      · exact ⟨b', List.mem_cons_self, hab⟩
      · obtain ⟨b, hb, hr⟩ := ih ha
        exact ⟨b, List.mem_cons_of_mem _ hb, hr⟩

/-- The DATA segment that carries `seg` from socket `s` of the node `addr`. -/
def IsDataOf (addr : Int) (s : TcpSocket) (p : Sent) (seg : OutstandingSeg) : Prop :=
  p.Is addr s.remoteAddr s.localPort s.remotePort .DATA 0 seg.seqStart seg.data

/-! ### Chunks -/

/-- The segments that `write` makes of `n` bytes from `buf[pos]` on, the first at `start`: all of
the largest payload size but the last. -/
def chunks (now : Int) (buf : Buf) (start pos : Int) (n : ℕ) : List OutstandingSeg :=
  if n = 0 then []
  else
    ⟨start, ((min n 107 : ℕ) : Int), buf.slice pos (min n 107), now, false⟩ ::
      chunks now buf (start + (min n 107 : ℕ)) (pos + (min n 107 : ℕ)) (n - min n 107)
termination_by n

theorem chunks_zero (now : Int) (buf : Buf) (start pos : Int) : chunks now buf start pos 0 = [] := by
  rw [chunks, if_pos rfl]

theorem chunks_pos (now : Int) (buf : Buf) (start pos : Int) {n : ℕ} (h : 0 < n) :
    chunks now buf start pos n =
      ⟨start, ((min n 107 : ℕ) : Int), buf.slice pos (min n 107), now, false⟩ ::
        chunks now buf (start + (min n 107 : ℕ)) (pos + (min n 107 : ℕ)) (n - min n 107) := by
  rw [chunks, if_neg (by omega)]

/-- Every chunk holds its own bytes, at least one and at most the payload size. -/
theorem chunks_len (now : Int) (buf : Buf) (start pos : Int) (n : ℕ) :
    ∀ seg ∈ chunks now buf start pos n,
      seg.len = seg.data.length ∧ 1 ≤ seg.len ∧ seg.len ≤ 107 := by
  fun_induction chunks now buf start pos n with
  | case1 start pos => simp
  | case2 start pos n hn ih =>
      intro seg hseg
      obtain rfl | hseg := List.mem_cons.mp hseg
      · refine ⟨?_, ?_, ?_⟩
        · rw [Buf.slice_length]
        · simp only; omega
        · simp only; omega
      · exact ih seg hseg

namespace TcpManager

variable (m : TcpManager)

/-! ### Writing -/

/-- The number of bytes that fit into the window, out of `len`. -/
def windowRoom (s : TcpSocket) (len : Int) : ℕ :=
  (min len (s.effectiveWindow - (s.sndNxt - s.sndUna))).toNat

/-- The socket after `write` has queued `segs`, which hold `n` bytes. -/
def queued (s : TcpSocket) (segs : List OutstandingSeg) (n : ℕ) : TcpSocket :=
  { s with outstanding := s.outstanding ++ segs, sndNxt := s.sndNxt + n }

theorem queued_nil (s : TcpSocket) : queued s [] 0 = s := by simp [queued]

theorem windowRoom_queued (s : TcpSocket) (segs : List OutstandingSeg) (n : ℕ) (len : Int) :
    windowRoom (queued s segs n) (len - n) = windowRoom s len - n := by
  have hwindow : (queued s segs n).effectiveWindow = s.effectiveWindow := rfl
  have hnxt : (queued s segs n).sndNxt = s.sndNxt + n := rfl
  have huna : (queued s segs n).sndUna = s.sndUna := rfl
  unfold windowRoom
  rw [hwindow, hnxt, huna]
  omega

/-- The loop of `write` when the sends succeed: it fills the window or runs out of bytes.  The
induction is on the rounds left; a round takes one chunk off the front of `chunks`. -/
theorem writeLoop_sends (now : Int) {i : SockId} (buf : Buf) (rounds : ℕ) (pos len total : Int)
    (hi : i < m.allSockets.length) (hpos : 0 ≤ pos) (hrounds : len ≤ rounds)
    (hs : Sendable m.addr (m.sock i).remoteAddr (m.sock i).localPort (m.sock i).remotePort) :
    ∃ out,
      List.Forall₂ (IsDataOf m.addr (m.sock i)) out
        (chunks now buf (m.sock i).sndNxt pos (windowRoom (m.sock i) len)) ∧
      writeLoop now i buf rounds m pos len total =
        ((m.setSock i (queued (m.sock i)
            (chunks now buf (m.sock i).sndNxt pos (windowRoom (m.sock i) len))
            (windowRoom (m.sock i) len))).emit out,
          some (total + windowRoom (m.sock i) len)) := by
  induction rounds generalizing m pos len total with
  | zero =>
      have h0 : windowRoom (m.sock i) len = 0 := by
        unfold windowRoom
        omega
      refine ⟨[], ?_, ?_⟩
      · rw [h0, chunks_zero]
        exact List.Forall₂.nil
      · rw [h0, chunks_zero, queued_nil, setSock_sock, emit_nil, writeLoop]
        simp
  | succ rounds ih =>
      set s := m.sock i with hsock
      by_cases hroom : windowRoom s len = 0
      · -- nothing fits: one of the three exits of the loop is taken
        have hstop : writeLoop now i buf (rounds + 1) m pos len total = (m, some total) := by
          unfold windowRoom at hroom
          rw [writeLoop]
          simp only [← hsock]
          split_ifs with h1 h2 h3
          · rfl
          · rfl
          · rw [Transport.MAX_PAYLOAD_SIZE_eq] at h3
            omega
          · rfl
        refine ⟨[], ?_, ?_⟩
        · rw [hroom, chunks_zero]
          exact List.Forall₂.nil
        · rw [hstop, hroom, chunks_zero, queued_nil, hsock, setSock_sock, emit_nil]
          simp
      · have hn : 0 < windowRoom s len := by omega
        set c := min (windowRoom s len) 107 with hc
        have hcpos : 0 < c := by omega
        have hchunk : min len (min (s.effectiveWindow - (s.sndNxt - s.sndUna))
            Transport.MAX_PAYLOAD_SIZE) = (c : Int) := by
          rw [Transport.MAX_PAYLOAD_SIZE_eq, hc]
          unfold windowRoom at hn ⊢
          omega
        have hlen : 0 < len ∧ ¬ s.effectiveWindow ≤ s.sndNxt - s.sndUna := by
          unfold windowRoom at hn
          omega
        obtain ⟨p, hp, hsend⟩ := m.trySend_ok hs .DATA 0 s.sndNxt
          (buf.slice pos c) (by rw [Buf.slice_length]; omega)
        -- the state after this round
        set m' := (m.setSock i (queued s [⟨s.sndNxt, c, buf.slice pos c, now, false⟩] c)).emit [p]
          with hm'
        have hs' : m'.sock i = queued s [⟨s.sndNxt, c, buf.slice pos c, now, false⟩] c := by
          rw [hm', emit_sock, sock_setSock_self m hi]
        have hroom' : windowRoom (m'.sock i) (len - c) = windowRoom s len - c := by
          rw [hs', windowRoom_queued]
        have hround : writeLoop now i buf (rounds + 1) m pos len total =
            writeLoop now i buf rounds m' (pos + c) (len - c) (total + c) := by
          rw [writeLoop]
          simp only [← hsock, hchunk, if_pos hlen.1, if_neg hlen.2, sendData, Int.toNat_natCast,
            hsend]
          rw [if_neg (by omega)]
          rfl
        have hfields : Sendable m'.addr (m'.sock i).remoteAddr (m'.sock i).localPort
            (m'.sock i).remotePort := by
          rw [hs']
          exact hs
        obtain ⟨out, hout, heq⟩ := ih m' (pos + c) (len - c) (total + c) (by simpa [hm'] using hi)
          (by omega) (by omega) hfields
        rw [hroom', hs'] at hout heq
        refine ⟨p :: out, ?_, ?_⟩
        · rw [chunks_pos _ _ _ _ hn]
          exact List.Forall₂.cons hp hout
        · rw [hround, heq, chunks_pos now buf s.sndNxt pos hn]
          have hsum : (total + c + ((windowRoom s len - c : ℕ) : Int)) =
              total + windowRoom s len := by omega
          have hcast : s.sndNxt + (c : Int) + ((windowRoom s len - c : ℕ) : Int) =
              s.sndNxt + windowRoom s len := by omega
          simp only [hm', emit_setSock, setSock_setSock, emit_emit, queued, hsum, hcast,
            List.append_assoc, List.cons_append, List.nil_append, ← hc]

/-- The loop of `write` when a send would throw: nothing is queued. -/
theorem writeLoop_fails (now : Int) {i : SockId} (buf : Buf) (rounds : ℕ) (pos len total : Int)
    (hs : ¬ Sendable m.addr (m.sock i).remoteAddr (m.sock i).localPort (m.sock i).remotePort) :
    writeLoop now i buf rounds m pos len total = (m, some total) ∨
      writeLoop now i buf rounds m pos len total = (m, none) := by
  cases rounds with
  | zero => exact .inl rfl
  | succ rounds =>
      rw [writeLoop]
      simp only [sendData, m.trySend_fails hs]
      split_ifs
      · exact .inl rfl
      · exact .inl rfl
      · exact .inr rfl
      · exact .inl rfl

/-- The socket after `write` has taken `n` bytes from `buf[pos]` on. -/
def written (s : TcpSocket) (now : Int) (buf : Buf) (pos : Int) (n : ℕ) : TcpSocket :=
  { queued s (chunks now buf s.sndNxt pos n) n with
    nextRtoDeadlineMs :=
      if s.outstanding = [] ∧ 0 < n then now + s.rtoMs else s.nextRtoDeadlineMs }

theorem written_zero (s : TcpSocket) (now : Int) (buf : Buf) (pos : Int) :
    written s now buf pos 0 = s := by
  simp [written, chunks_zero, queued]

/-- `write` on an established socket whose sends succeed. -/
theorem write_ok (now : Int) {i : SockId} {buf : Buf} {pos len : Int}
    (hi : i < m.allSockets.length) (hst : (m.sock i).state = .ESTABLISHED) (hbuf : buf ≠ none)
    (hpos : 0 ≤ pos) (hlen : 0 ≤ len)
    (hs : Sendable m.addr (m.sock i).remoteAddr (m.sock i).localPort (m.sock i).remotePort) :
    ∃ out,
      List.Forall₂ (IsDataOf m.addr (m.sock i)) out
        (chunks now buf (m.sock i).sndNxt pos (windowRoom (m.sock i) len)) ∧
      m.write now i buf pos len =
        ((m.setSock i (written (m.sock i) now buf pos (windowRoom (m.sock i) len))).emit out,
          (windowRoom (m.sock i) len : Int)) := by
  obtain ⟨out, hout, heq⟩ := m.writeLoop_sends now buf len.toNat pos len 0 hi hpos (by omega) hs
  have hguard : ¬ ((m.sock i).state ≠ .ESTABLISHED ∨ buf = none ∨ pos < 0 ∨ len < 0) := by
    simp only [hst, hbuf]
    simp
    omega
  refine ⟨out, hout, ?_⟩
  rw [write, if_neg hguard]
  split_ifs with hlen0
  · -- an empty write: the window takes none of zero bytes
    have h0 : windowRoom (m.sock i) len = 0 := by
      unfold windowRoom
      omega
    rw [h0, chunks_zero] at hout
    cases hout
    rw [h0, written_zero, setSock_sock, emit_nil]
    rfl
  · rw [heq]
    simp only [emit_sock, sock_setSock_self m hi, Int.zero_add, emit_setSock, setSock_setSock,
      TcpSocket.setNextRtoDeadlineMs, TcpSocket.hasOutstanding, Bool.not_not,
      List.isEmpty_iff, Int.natCast_pos]
    split_ifs with h
    · simp only [written, if_pos h, queued]
    · simp only [written, if_neg h, queued]

theorem write_effect (now : Int) {i : SockId} (buf : Buf) (pos len : Int)
    (hi : i < m.allSockets.length) :
    (m.write now i buf pos len).1 = m ∨
      (m.sock i).state = .ESTABLISHED ∧ 0 ≤ pos ∧ ∃ n out,
        List.Forall₂ (IsDataOf m.addr (m.sock i)) out (chunks now buf (m.sock i).sndNxt pos n) ∧
        (m.write now i buf pos len).1 =
          (m.setSock i (written (m.sock i) now buf pos n)).emit out := by
  by_cases hguard : (m.sock i).state ≠ .ESTABLISHED ∨ buf = none ∨ pos < 0 ∨ len < 0
  · rw [write, if_pos hguard]
    exact .inl rfl
  · have hguard' := hguard
    simp only [not_or, not_not, not_lt] at hguard'
    obtain ⟨hst, hbuf, hpos, hlen⟩ := hguard'
    by_cases hs : Sendable m.addr (m.sock i).remoteAddr (m.sock i).localPort (m.sock i).remotePort
    · obtain ⟨out, hout, heq⟩ := m.write_ok now hi hst hbuf hpos hlen hs
      exact .inr ⟨hst, hpos, _, out, hout, by rw [heq]⟩
    · left
      rw [write, if_neg hguard]
      split_ifs
      · rfl
      · obtain h | h := m.writeLoop_fails now buf len.toNat pos len 0 hs
        · rw [h]
          simp
        · rw [h]

/-! ### Timeouts -/

/-- The socket after a timeout at `now`. -/
def timedOut (s : TcpSocket) (now : Int) : TcpSocket :=
  let s := ({ s with timeoutCount := s.timeoutCount + 1 }).doubleRto.multiplicativeDecreaseCwnd
  { s with
    outstanding := s.outstanding.map fun seg => { seg with retransmitted := true }
    nextRtoDeadlineMs := now + s.rtoMs }

theorem foldl_sendData (i : SockId) (destAddr destPort : Int) (segs : List OutstandingSeg) :
    ∃ out, segs.foldl (fun m seg => (m.sendData i destAddr destPort seg.seqStart seg.data).1) m =
        m.emit out ∧
      ∀ p ∈ out, ∃ seg ∈ segs,
        p.Is m.addr destAddr (m.sock i).localPort destPort .DATA 0 seg.seqStart seg.data := by
  induction segs generalizing m with
  | nil => exact ⟨[], by simp, by simp⟩
  | cons seg segs ih =>
      rw [List.foldl_cons]
      rcases m.trySend_cases destAddr (m.sock i).localPort destPort .DATA 0 seg.seqStart seg.data
        with h | ⟨p, hp, h⟩
      · obtain ⟨out, heq, hout⟩ := ih m
        refine ⟨out, by rw [sendData, h, heq], ?_⟩
        intro q hq
        obtain ⟨seg', hseg', hq⟩ := hout q hq
        exact ⟨seg', List.mem_cons_of_mem _ hseg', hq⟩
      · obtain ⟨out, heq, hout⟩ := ih (m.emit [p])
        refine ⟨p :: out, by rw [sendData, h, heq, emit_emit]; rfl, ?_⟩
        intro q hq
        obtain rfl | hq := List.mem_cons.mp hq
        · exact ⟨seg, List.mem_cons_self, hp⟩
        · obtain ⟨seg', hseg', hq⟩ := hout q hq
          exact ⟨seg', List.mem_cons_of_mem _ hseg', hq⟩

/-- A round of the tick changes nothing, or is a timeout of a socket with outstanding data. -/
theorem retransmitSocket_effect (now : Int) (i : SockId) :
    m.retransmitSocket now i = m ∨
      (m.sock i).outstanding ≠ [] ∧ ∃ out,
        m.retransmitSocket now i = (m.setSock i (timedOut (m.sock i) now)).emit out ∧
        ∀ p ∈ out, ∃ seg ∈ (m.sock i).outstanding, IsDataOf m.addr (m.sock i) p seg := by
  obtain hi | hi := Nat.lt_or_ge i m.allSockets.length
  · by_cases ho : (m.sock i).outstanding = []
    · left
      simp [retransmitSocket, TcpSocket.hasOutstanding, ho]
    · by_cases hd : (m.sock i).nextRtoDeadlineMs = 0 ∨ now < (m.sock i).nextRtoDeadlineMs
      · left
        simp [retransmitSocket, hd]
      · right
        refine ⟨ho, ?_⟩
        set s := ({ m.sock i with
          timeoutCount := (m.sock i).timeoutCount + 1 }).doubleRto.multiplicativeDecreaseCwnd
          with hs
        obtain ⟨out, heq, hout⟩ := (m.setSock i s).foldl_sendData i s.remoteAddr s.remotePort
          s.outstanding
        refine ⟨out, ?_, ?_⟩
        · have hho : (m.sock i).hasOutstanding = true := by
            simp [TcpSocket.hasOutstanding, ho]
          simp only [retransmitSocket, hho, if_neg hd, ← hs, heq, emit_setSock, setSock_setSock,
            timedOut]
          simp
        · intro p hp
          obtain ⟨seg, hseg, hp⟩ := hout p hp
          rw [sock_setSock_self m hi] at hp
          exact ⟨seg, hseg, hp⟩
  · left
    simp [retransmitSocket, m.sock_of_length_le hi, TcpSocket.new, TcpSocket.hasOutstanding]

theorem tick_induction {I : TcpManager → Prop} (now : Int)
    (hround : ∀ m' i, (∃ k, m.establishedByKey.lookup k = some i) → I m' →
      I (m'.retransmitSocket now i)) (h : I m) : I (m.retransmissionTick now) := by
  have hrounds : ∀ (entries : List (Sigma fun _ : ConnKey => SockId)) (m' : TcpManager),
      (∀ e ∈ entries, ∃ k, m.establishedByKey.lookup k = some e.2) → I m' →
        I (entries.foldl (fun m kv => m.retransmitSocket now kv.2) m') := by
    intro entries
    induction entries with
    | nil => exact fun _ _ h => h
    | cons e entries ih =>
        intro m' hmem h
        exact ih _ (fun e' he' => hmem e' (List.mem_cons_of_mem _ he'))
          (hround m' e.2 (hmem e List.mem_cons_self) h)
  refine hrounds _ m ?_ h
  intro e he
  exact ⟨e.1, (Table.lookup_eq_some_iff _).mpr he⟩

/-! ### Connection calls -/

/-- The socket after `release`. -/
def released (s : TcpSocket) : TcpSocket :=
  { s with
    pendingConnQueue := []
    backlog := 0
    remoteAddr := -1
    remotePort := -1
    localPort := -1
    state := .CLOSED }

theorem release_of_not_closed {i : SockId} (h : (m.sock i).state ≠ .CLOSED) :
    m.release i = (m.unregisterSocket i).setSock i (released (m.sock i)) := by
  rw [release, if_neg h]
  rfl

theorem release_of_closed {i : SockId} (h : (m.sock i).state = .CLOSED) : m.release i = m := by
  rw [release, if_pos h]

/-- `accept` returns nothing, or the front of the queue of a listener. -/
theorem accept_effect (i : SockId) :
    m.accept i = (m, none) ∨
      ∃ conn rest, (m.sock i).state = .LISTEN ∧ (m.sock i).pendingConnQueue = conn :: rest ∧
        let m' := m.setSock i { m.sock i with pendingConnQueue := rest }
        ((m.sock conn).state = .CLOSED ∧ m.accept i = (m', some conn) ∨
          (m.sock conn).state ≠ .CLOSED ∧
            m.accept i =
              (m'.setSock conn { m'.sock conn with state := .ESTABLISHED }, some conn)) := by
  unfold accept
  by_cases hst : (m.sock i).state = .LISTEN
  · rw [if_neg (not_not.mpr hst)]
    cases hq : (m.sock i).pendingConnQueue with
    | nil => exact .inl rfl
    | cons conn rest =>
        refine .inr ⟨conn, rest, hst, rfl, ?_⟩
        -- the queue of the listener does not matter for the state of the child
        have hstate : ((m.setSock i { m.sock i with pendingConnQueue := rest }).sock conn).state =
            (m.sock conn).state := by
          rcases m.sock_setSock_cases i { m.sock i with pendingConnQueue := rest } conn with
            e | ⟨rfl, e⟩
          · rw [e]
          · rw [e]
        by_cases hc : (m.sock conn).state = .CLOSED
        · exact .inl ⟨hc, if_neg (not_not.mpr (hstate.trans hc))⟩
        · exact .inr ⟨hc, if_pos (hstate ▸ hc)⟩
  · exact .inl (if_pos hst)

/-- The socket that has recorded its FIN. -/
def finQueued (s : TcpSocket) : TcpSocket := { s with finSeq := s.sndNxt }

theorem maybeSendFin_idle {i : SockId} (h : (m.sock i).state ≠ .SHUTDOWN ∨ 0 ≤ (m.sock i).finSeq ∨
    (m.sock i).outstanding ≠ []) : m.maybeSendFinOnDrain i = m := by
  unfold maybeSendFinOnDrain
  by_cases hst : (m.sock i).state = .SHUTDOWN
  · rw [if_neg (not_not.mpr hst)]
    by_cases hfin : 0 ≤ (m.sock i).finSeq
    · rw [if_pos hfin]
    · rw [if_neg hfin]
      have hout := (h.resolve_left (not_not.mpr hst)).resolve_left hfin
      rw [if_pos (by simpa [TcpSocket.hasOutstanding] using hout)]
  · rw [if_pos hst]

section drained
variable {i : SockId} (hi : i < m.allSockets.length) (hst : (m.sock i).state = .SHUTDOWN)
  (hfin : (m.sock i).finSeq < 0) (hout : (m.sock i).outstanding = [])
include hi hst hfin hout

/-- A drained socket records its FIN before it sends it. -/
theorem maybeSendFin_drained :
    m.maybeSendFinOnDrain i =
      match (m.setSock i (finQueued (m.sock i))).trySend (m.sock i).remoteAddr
          (Transport.make (m.sock i).localPort (m.sock i).remotePort SegType.FIN.code 0
            (m.sock i).sndNxt []) with
      | (m, true) => m
      | (m, false) => m.release i := by
  have hself := m.sock_setSock_self hi (finQueued (m.sock i))
  have hho : (m.sock i).hasOutstanding = false := by
    simp [TcpSocket.hasOutstanding, hout]
  rw [maybeSendFinOnDrain, if_neg (by simp [hst]), if_neg (by omega), if_neg (by simp [hho])]
  show (match (m.setSock i (finQueued (m.sock i))).sendFin i
      ((m.setSock i (finQueued (m.sock i))).sock i).remoteAddr
      ((m.setSock i (finQueued (m.sock i))).sock i).remotePort with
    | (m, true) => m
    | (m, false) => m.release i) = _
  rw [sendFin, hself]
  rfl

theorem maybeSendFin_sends
    (hs : Sendable m.addr (m.sock i).remoteAddr (m.sock i).localPort (m.sock i).remotePort) :
    ∃ p : Sent, p.Is m.addr (m.sock i).remoteAddr (m.sock i).localPort (m.sock i).remotePort
        .FIN 0 (m.sock i).sndNxt [] ∧
      m.maybeSendFinOnDrain i = (m.setSock i (finQueued (m.sock i))).emit [p] := by
  obtain ⟨p, hp, hsend⟩ := (m.setSock i (finQueued (m.sock i))).trySend_ok hs .FIN 0
    (m.sock i).sndNxt [] (by simp)
  refine ⟨p, hp, ?_⟩
  rw [m.maybeSendFin_drained hi hst hfin hout, hsend]

theorem maybeSendFin_releases
    (hs : ¬ Sendable m.addr (m.sock i).remoteAddr (m.sock i).localPort (m.sock i).remotePort) :
    m.maybeSendFinOnDrain i =
      (m.unregisterSocket i).setSock i (released (finQueued (m.sock i))) := by
  have hself := m.sock_setSock_self hi (finQueued (m.sock i))
  have hnc : ((m.setSock i (finQueued (m.sock i))).sock i).state ≠ .CLOSED := by
    rw [hself, finQueued]
    simp [hst]
  rw [m.maybeSendFin_drained hi hst hfin hout,
    (m.setSock i (finQueued (m.sock i))).trySend_fails hs]
  simp only
  rw [release_of_not_closed _ hnc, hself]
  simp [unregisterSocket, setSock, List.set_set]

end drained

/-- `maybeSendFinOnDrain` does nothing, sends the FIN, or releases the socket when the FIN cannot
be sent. -/
theorem maybeSendFin_effect {i : SockId} (hi : i < m.allSockets.length) :
    ((m.sock i).state ≠ .SHUTDOWN ∨ 0 ≤ (m.sock i).finSeq ∨ (m.sock i).outstanding ≠ []) ∧
        m.maybeSendFinOnDrain i = m ∨
      (m.sock i).state = .SHUTDOWN ∧ (m.sock i).finSeq < 0 ∧ (m.sock i).outstanding = [] ∧
        ((∃ p : Sent, p.Is m.addr (m.sock i).remoteAddr (m.sock i).localPort (m.sock i).remotePort
              .FIN 0 (m.sock i).sndNxt [] ∧
            m.maybeSendFinOnDrain i =
              (m.setSock i (finQueued (m.sock i))).emit [p]) ∨
          ¬ Sendable m.addr (m.sock i).remoteAddr (m.sock i).localPort (m.sock i).remotePort ∧
            m.maybeSendFinOnDrain i = (m.unregisterSocket i).setSock i
              (released (finQueued (m.sock i)))) := by
  by_cases hno : (m.sock i).state ≠ .SHUTDOWN ∨ 0 ≤ (m.sock i).finSeq ∨
      (m.sock i).outstanding ≠ []
  · exact .inl ⟨hno, m.maybeSendFin_idle hno⟩
  · simp only [not_or, not_not, not_le] at hno
    obtain ⟨hst, hfin, hout⟩ := hno
    refine .inr ⟨hst, hfin, hout, ?_⟩
    by_cases hs : Sendable m.addr (m.sock i).remoteAddr (m.sock i).localPort (m.sock i).remotePort
    · exact .inl (m.maybeSendFin_sends hi hst hfin hout hs)
    · exact .inr ⟨hs, m.maybeSendFin_releases hi hst hfin hout hs⟩

/-- The socket that has stored the destination of `connect`. -/
def addressed (s : TcpSocket) (destAddr destPort : Int) : TcpSocket :=
  { s with remoteAddr := destAddr, remotePort := destPort, synSeq := s.sndNxt }

/-- The arguments `connect` rejects at once. -/
def Rejected (s : TcpSocket) (destPort : Int) : Prop :=
  s.localPort < 0 ∨ destPort < 0 ∨ destPort > Transport.MAX_PORT_NUM

instance (s : TcpSocket) (destPort : Int) : Decidable (Rejected s destPort) :=
  inferInstanceAs (Decidable (_ ∨ _))

theorem connect_rejected {i : SockId} (destAddr : Int) {destPort : Int}
    (h : Rejected (m.sock i) destPort) : m.connect i destAddr destPort = (m, -1) := if_pos h

theorem connect_sends {i : SockId} (hi : i < m.allSockets.length) (destAddr : Int) {destPort : Int}
    (h : ¬ Rejected (m.sock i) destPort) :
    m.connect i destAddr destPort =
      match (m.setSock i (addressed (m.sock i) destAddr destPort)).trySend destAddr
          (Transport.make (m.sock i).localPort destPort SegType.SYN.code 0 (m.sock i).sndNxt [])
        with
      | (m, false) => (m, -1)
      | (m, true) =>
          ((m.registerSynPending i destAddr destPort).setSock i
            { (m.registerSynPending i destAddr destPort).sock i with state := .SYN_SENT }, 0) := by
  have hself := m.sock_setSock_self hi (addressed (m.sock i) destAddr destPort)
  refine (if_neg h).trans ?_
  show (match (m.setSock i (addressed (m.sock i) destAddr destPort)).sendSyn i destAddr destPort
    with | (m, false) => (m, -1) | (m, true) => _) = _
  rw [sendSyn, hself]
  rfl

/-- A SYN that cannot be sent leaves the destination stored. -/
theorem connect_fails {i : SockId} (hi : i < m.allSockets.length) {destAddr destPort : Int}
    (h : ¬ Rejected (m.sock i) destPort)
    (hs : ¬ Sendable m.addr destAddr (m.sock i).localPort destPort) :
    m.connect i destAddr destPort =
      (m.setSock i (addressed (m.sock i) destAddr destPort), -1) := by
  rw [m.connect_sends hi destAddr h,
    (m.setSock i (addressed (m.sock i) destAddr destPort)).trySend_fails hs]

theorem connect_ok {i : SockId} (hi : i < m.allSockets.length) {destAddr destPort : Int}
    (h : ¬ Rejected (m.sock i) destPort)
    (hs : Sendable m.addr destAddr (m.sock i).localPort destPort) :
    ∃ p : Sent, p.Is m.addr destAddr (m.sock i).localPort destPort .SYN 0 (m.sock i).sndNxt [] ∧
      m.connect i destAddr destPort =
        (({ m with synPendingByKey :=
            m.synPendingByKey.insert ⟨destAddr, destPort, (m.sock i).localPort⟩ i } :
              TcpManager).setSock i
          { addressed (m.sock i) destAddr destPort with state := .SYN_SENT } |>.emit [p], 0) := by
  set s' := addressed (m.sock i) destAddr destPort with hs'
  have hself : (m.setSock i s').sock i = s' := sock_setSock_self m hi s'
  obtain ⟨p, hp, hsend⟩ := (m.setSock i s').trySend_ok hs .SYN 0 (m.sock i).sndNxt [] (by simp)
  refine ⟨p, hp, ?_⟩
  rw [m.connect_sends hi destAddr h, ← hs', hsend]
  have hreg : ((m.setSock i s').emit [p]).registerSynPending i destAddr destPort =
      (({ m with synPendingByKey :=
          m.synPendingByKey.insert ⟨destAddr, destPort, (m.sock i).localPort⟩ i } :
            TcpManager).setSock i s').emit [p] := by
    simp only [registerSynPending, emit_sock, hself]
    rfl
  simp only [hreg, emit_sock, emit_setSock, setSock_setSock]
  rw [sock_setSock_self _ (by exact hi)]

/-! ### Incoming segments -/

/-- The manager after `onSyn` has made the child of `listener`. -/
def admitted (listener : SockId) (srcAddr : Int) (syn : Transport) : TcpManager :=
  { m with
    allSockets :=
      m.allSockets.set listener ((m.sock listener).enqueueAccepted m.allSockets.length) ++
        [TcpSocket.new.initAccepted syn.destPort srcAddr syn.srcPort]
    establishedByKey :=
      m.establishedByKey.insert ⟨srcAddr, syn.srcPort, syn.destPort⟩ m.allSockets.length }

theorem admitted_length (listener : SockId) (srcAddr : Int) (syn : Transport) :
    (m.admitted listener srcAddr syn).allSockets.length = m.allSockets.length + 1 := by
  simp [admitted]

theorem admitted_sock_child (listener : SockId) (srcAddr : Int) (syn : Transport) :
    (m.admitted listener srcAddr syn).sock m.allSockets.length =
      TcpSocket.new.initAccepted syn.destPort srcAddr syn.srcPort := by
  simp [admitted, sock]

theorem admitted_sock_listener {listener : SockId} (hl : listener < m.allSockets.length)
    (srcAddr : Int) (syn : Transport) :
    (m.admitted listener srcAddr syn).sock listener =
      (m.sock listener).enqueueAccepted m.allSockets.length := by
  simp [admitted, sock, List.getElem?_append_left, hl]

theorem admitted_sock_ne {listener j : SockId} (hj : j ≠ listener) (hc : j ≠ m.allSockets.length)
    (srcAddr : Int) (syn : Transport) : (m.admitted listener srcAddr syn).sock j = m.sock j := by
  simp only [admitted, sock, List.getD_eq_getElem?_getD]
  obtain h | h := Nat.lt_or_ge j m.allSockets.length
  · rw [List.getElem?_append_left (by simpa using h), List.getElem?_set_ne (Ne.symm hj)]
  · have hlt : m.allSockets.length < j := Nat.lt_of_le_of_ne h (Ne.symm hc)
    rw [List.getElem?_eq_none (by simpa using Nat.succ_le_of_lt hlt), List.getElem?_eq_none h]

theorem onSyn_refused (srcAddr : Int) {syn : Transport}
    (h : m.listenersByPort.lookup syn.destPort = none) :
    ∃ out, m.onSyn srcAddr syn = m.emit out ∧
      ∀ p ∈ out, p.Is m.addr srcAddr syn.destPort syn.srcPort .FIN 0 0 [] := by
  rw [onSyn, h]
  exact m.sendFinFromPorts_cases _ _ _

theorem onSyn_admits {srcAddr : Int} {syn : Transport} {listener : SockId}
    (h : m.listenersByPort.lookup syn.destPort = some listener)
    (hl : listener < m.allSockets.length) :
    m.onSyn srcAddr syn = ((m.admitted listener srcAddr syn).sendAck syn.destPort srcAddr
      syn.srcPort (syn.seqNum + 1) TcpSocket.RECV_BUF_CAP).1 := by
  have hne : m.allSockets.length ≠ listener := Nat.ne_of_gt hl
  -- the manager once the child is in place, before it is queued and registered
  set m₁ := m.socket.1.setSock m.allSockets.length
    ((m.socket.1.sock m.allSockets.length).initAccepted syn.destPort srcAddr syn.srcPort) with hm₁
  have hall : m₁.allSockets =
      m.allSockets ++ [TcpSocket.new.initAccepted syn.destPort srcAddr syn.srcPort] := by
    simp [hm₁, socket, setSock, sock, List.set_append_right]
  have hlistener : m₁.sock listener = m.sock listener := by
    simp [sock, hall, List.getElem?_append_left hl]
  have hport : ((m₁.setSock listener ((m₁.sock listener).enqueueAccepted m.allSockets.length)).sock
      m.allSockets.length).localPort = syn.destPort := by
    rw [sock_setSock_ne _ hne]
    simp [sock, hall, TcpSocket.initAccepted]
  have hadm : (m₁.setSock listener ((m₁.sock listener).enqueueAccepted m.allSockets.length)
      ).registerEstablished m.allSockets.length srcAddr syn.srcPort =
        m.admitted listener srcAddr syn := by
    rw [registerEstablished, hport, hlistener]
    simp only [setSock, admitted, hall, List.set_append_left _ _ hl]
    rfl
  have hwin : ((m.admitted listener srcAddr syn).sock m.allSockets.length).getRecvBufAvailable =
      TcpSocket.RECV_BUF_CAP := by
    rw [admitted_sock_child]
    rfl
  rw [onSyn, h]
  refine (congrArg (fun m₂ : TcpManager => (m₂.sendAck syn.destPort srcAddr syn.srcPort
    (syn.seqNum + 1) (m₂.sock m.allSockets.length).getRecvBufAvailable).1) hadm).trans ?_
  show ((m.admitted listener srcAddr syn).sendAck _ _ _ _ _).1 = _
  rw [hwin]

/-- The acknowledgement of the SYN moves the socket from one table to the other. -/
theorem onAckPending_completes {i : SockId} (hi : i < m.allSockets.length) (srcAddr : Int)
    {ack : Transport} (key : ConnKey) (hseq : ack.seqNum = (m.sock i).synSeq + 1) :
    m.onAckPending srcAddr ack key i =
      ({ m with
          synPendingByKey := m.synPendingByKey.erase key
          establishedByKey :=
            m.establishedByKey.insert ⟨srcAddr, ack.srcPort, (m.sock i).localPort⟩ i } :
        TcpManager).setSock i ((m.sock i).setRwnd ack.window).markEstablished := by
  have hself := m.sock_setSock_self hi ((m.sock i).setRwnd ack.window).markEstablished
  have hport : (({ m.setSock i ((m.sock i).setRwnd ack.window).markEstablished with
      synPendingByKey := m.synPendingByKey.erase key } : TcpManager).sock i).localPort =
        (m.sock i).localPort := by
    refine (congrArg TcpSocket.localPort hself).trans ?_
    rw [TcpSocket.markEstablished_localPort]
    rfl
  rw [onAckPending, if_pos hseq]
  show registerEstablished _ _ _ _ = _
  rw [registerEstablished, setSock_synPendingByKey, hport]
  rfl

/-- The socket after an acknowledgement that advances `sndUna_`. -/
def advanced (s : TcpSocket) (now ackNum : Int) : TcpSocket :=
  let (s', popped) := s.popAckedThrough now ackNum
  let s' := s'.additiveIncreaseCwnd
  match popped with
  | some seg => if seg.retransmitted then s' else s'.onSampleRTT (now - seg.firstSentAtMs)
  | none => s'

theorem advanced_state (s : TcpSocket) (now ackNum : Int) :
    (advanced s now ackNum).state = s.state := by
  unfold advanced
  simp only
  split
  · split_ifs
    · rfl
    · unfold TcpSocket.onSampleRTT
      split_ifs <;> rfl
  · rfl

theorem onAckAdvance_eq (now : Int) (ack : Transport) (i : SockId) :
    m.onAckAdvance now ack i =
      (m.setSock i (advanced (m.sock i) now ack.seqNum)).maybeSendFinOnDrain i := rfl

/-- The socket after an in-order segment has been stored. -/
def stored (s : TcpSocket) (payload : List UInt8) : TcpSocket :=
  { s with
    recvBuf := s.recvBuf ++ payload
    recvBufUsed := s.recvBufUsed + payload.length
    rcvNxt := s.rcvNxt + payload.length }

theorem onData_stores {srcAddr : Int} {data : Transport} {i : SockId}
    (h : m.establishedByKey.lookup ⟨srcAddr, data.srcPort, data.destPort⟩ = some i)
    (hst : (m.sock i).Live) (hne : data.payload ≠ []) (hseq : data.seqNum = (m.sock i).rcvNxt)
    (hroom : (data.payload.length : Int) ≤ (m.sock i).getRecvBufAvailable) :
    m.onData srcAddr data =
      (m.setSock i (stored (m.sock i) data.payload)).ackData srcAddr data i := by
  set s := m.sock i with hs
  have hconn : ¬ (s.isConnected = false ∧ s.isClosurePending = false) := by
    unfold TcpSocket.isConnected TcpSocket.isClosurePending
    rcases hst with hst | hst <;> simp [hst]
  have hlen : ¬ (data.payload.length : Int) = 0 := by
    simpa using hne
  have hmin : min (data.payload.length : Int) (TcpSocket.RECV_BUF_CAP - s.recvBufUsed) =
      data.payload.length := min_eq_left hroom
  have hguard : ¬ ((some data.payload : Buf) = none ∨ (data.payload.length : Int) ≤ 0) := by
    simp only [reduceCtorEq, false_or]
    omega
  simp only [onData, h, ← hs, if_neg hconn, if_neg hlen, if_pos hseq, if_neg (not_lt.mpr hroom),
    TcpSocket.appendToRecvBuf, if_neg hguard, hmin, Int.toNat_natCast, Buf.slice_some_zero,
    TcpSocket.setRcvNxt, stored]

theorem onData_drops {srcAddr : Int} {data : Transport} {i : SockId}
    (h : m.establishedByKey.lookup ⟨srcAddr, data.srcPort, data.destPort⟩ = some i)
    (hst : ¬ (m.sock i).Live) : m.onData srcAddr data = m := by
  have hconn : (m.sock i).isConnected = false ∧ (m.sock i).isClosurePending = false := by
    simpa [TcpSocket.isConnected, TcpSocket.isClosurePending, TcpSocket.Live] using hst
  simp only [onData, h, if_pos hconn]

/-- A segment that is not stored is answered all the same. -/
theorem onData_answers {srcAddr : Int} {data : Transport} {i : SockId}
    (h : m.establishedByKey.lookup ⟨srcAddr, data.srcPort, data.destPort⟩ = some i)
    (hst : (m.sock i).Live) (hno : ¬ (data.payload ≠ [] ∧ data.seqNum = (m.sock i).rcvNxt ∧
      (data.payload.length : Int) ≤ (m.sock i).getRecvBufAvailable)) :
    m.onData srcAddr data = m.ackData srcAddr data i := by
  have hconn : ¬ ((m.sock i).isConnected = false ∧ (m.sock i).isClosurePending = false) := by
    unfold TcpSocket.isConnected TcpSocket.isClosurePending
    rcases hst with hst | hst <;> simp [hst]
  simp only [onData, h, if_neg hconn]
  by_cases hlen : (data.payload.length : Int) = 0
  · rw [if_pos hlen]
  · rw [if_neg hlen]
    by_cases hseq : data.seqNum = (m.sock i).rcvNxt
    · have hne : data.payload ≠ [] := by
        intro he
        simp [he] at hlen
      rw [if_pos hseq, if_pos (not_le.mp fun hroom => hno ⟨hne, hseq, hroom⟩)]
    · rw [if_neg hseq]

/-- The cases of `onData` for a socket found in `establishedByKey_`: a socket that is not connected
drops the segment; otherwise the segment is stored when it is the next one and there is room, and
the answer acknowledges what is stored then. -/
theorem onData_effect {srcAddr : Int} {data : Transport} {i : SockId}
    (h : m.establishedByKey.lookup ⟨srcAddr, data.srcPort, data.destPort⟩ = some i) :
    m.onData srcAddr data = m ∨
      (m.sock i).Live ∧
        (m.onData srcAddr data = m.ackData srcAddr data i ∨
          data.payload ≠ [] ∧ data.seqNum = (m.sock i).rcvNxt ∧
            (data.payload.length : Int) ≤ (m.sock i).getRecvBufAvailable ∧
            m.onData srcAddr data =
              (m.setSock i (stored (m.sock i) data.payload)).ackData srcAddr data i) := by
  by_cases hst : (m.sock i).Live
  · refine .inr ⟨hst, ?_⟩
    by_cases hnext : data.payload ≠ [] ∧ data.seqNum = (m.sock i).rcvNxt ∧
        (data.payload.length : Int) ≤ (m.sock i).getRecvBufAvailable
    · obtain ⟨hne, hseq, hroom⟩ := hnext
      exact .inr ⟨hne, hseq, hroom, m.onData_stores h hst hne hseq hroom⟩
    · exact .inl (m.onData_answers h hst hnext)
  · exact .inl (m.onData_drops h hst)

/-- The acknowledgement of new data at a connected socket. -/
theorem onAckEstablished_advances (now : Int) {ack : Transport} (key : ConnKey) {i : SockId}
    (hi : i < m.allSockets.length) (hst : (m.sock i).state = .ESTABLISHED)
    (hlt : (m.sock i).sndUna < ack.seqNum) (hle : ack.seqNum ≤ (m.sock i).sndNxt) :
    m.onAckEstablished now ack key i =
      m.setSock i (advanced ((m.sock i).setRwnd ack.window) now ack.seqNum) := by
  have hclosing : (m.sock i).isClosurePending = false := by
    simp [TcpSocket.isClosurePending, hst]
  have hconn : (m.sock i).isConnected = true := by simp [TcpSocket.isConnected, hst]
  have hself := m.sock_setSock_self hi (advanced ((m.sock i).setRwnd ack.window) now ack.seqNum)
  have hstate : (advanced ((m.sock i).setRwnd ack.window) now ack.seqNum).state = .ESTABLISHED :=
    (advanced_state _ _ _).trans hst
  simp only [onAckEstablished, hclosing, hconn, if_neg (not_lt.mpr hle), if_neg (not_le.mpr hlt),
    onAckAdvance_eq, sock_setSock_self m hi, setSock_setSock, Bool.false_eq_true, false_and,
    true_or, if_true, if_false]
  rw [maybeSendFinOnDrain, if_pos (by rw [hself, hstate]; decide)]

theorem onAckEstablished_window (now : Int) {ack : Transport} (key : ConnKey) {i : SockId}
    (hst : (m.sock i).state = .ESTABLISHED) (hold : ack.seqNum ≤ (m.sock i).sndUna)
    (hle : ack.seqNum ≤ (m.sock i).sndNxt) :
    m.onAckEstablished now ack key i = m.setSock i ((m.sock i).setRwnd ack.window) := by
  have hclosing : (m.sock i).isClosurePending = false := by
    simp [TcpSocket.isClosurePending, hst]
  have hconn : (m.sock i).isConnected = true := by simp [TcpSocket.isConnected, hst]
  simp only [onAckEstablished, hclosing, hconn, if_neg (not_lt.mpr hle), if_pos hold,
    Bool.false_eq_true, false_and, true_or, if_true, if_false]

/-- The cases of `onAck` for a socket found in `establishedByKey_`. -/
theorem onAckEstablished_effect (now : Int) (ack : Transport) (key : ConnKey) {i : SockId}
    (hi : i < m.allSockets.length) :
    m.onAckEstablished now ack key i = m ∨
      ((m.sock i).state = .SHUTDOWN ∧ 0 ≤ (m.sock i).finSeq ∧
        ack.seqNum = (m.sock i).finSeq + 1 ∧
        m.onAckEstablished now ack key i =
          { m.setSock i (m.sock i).markClosed with
            establishedByKey := m.establishedByKey.erase key }) ∨
      ((m.sock i).state = .ESTABLISHED ∨ (m.sock i).state = .SHUTDOWN) ∧
        ack.seqNum ≤ (m.sock i).sndNxt ∧
        (ack.seqNum ≤ (m.sock i).sndUna ∧
            m.onAckEstablished now ack key i = m.setSock i ((m.sock i).setRwnd ack.window) ∨
          (m.sock i).sndUna < ack.seqNum ∧
            m.onAckEstablished now ack key i =
              (m.setSock i (advanced ((m.sock i).setRwnd ack.window) now
                ack.seqNum)).maybeSendFinOnDrain i) := by
  set s := m.sock i with hs
  by_cases hfin : s.isClosurePending = true ∧ 0 ≤ s.finSeq ∧ ack.seqNum = s.finSeq + 1
  · right; left
    refine ⟨?_, hfin.2.1, hfin.2.2, ?_⟩
    · simpa [TcpSocket.isClosurePending] using hfin.1
    · simp only [onAckEstablished, ← hs, if_pos hfin]
  · by_cases hst : s.isConnected = true ∨ s.isClosurePending = true
    · by_cases hnew : s.sndNxt < ack.seqNum
      · left
        simp only [onAckEstablished, ← hs, if_neg hfin, if_pos hst, if_pos hnew]
      · right; right
        refine ⟨by simpa [TcpSocket.isConnected, TcpSocket.isClosurePending] using hst,
          by omega, ?_⟩
        by_cases hold : ack.seqNum ≤ s.sndUna
        · left
          refine ⟨hold, ?_⟩
          simp only [onAckEstablished, ← hs, if_neg hfin, if_pos hst, if_neg hnew, if_pos hold]
        · right
          refine ⟨by omega, ?_⟩
          simp only [onAckEstablished, ← hs, if_neg hfin, if_pos hst, if_neg hnew, if_neg hold,
            onAckAdvance_eq, sock_setSock_self m hi, setSock_setSock]
    · left
      simp only [onAckEstablished, ← hs, if_neg hfin, if_neg hst]

end TcpManager

end NetBridge
