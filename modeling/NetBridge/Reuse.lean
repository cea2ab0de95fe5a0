import NetBridge.Backoff
import NetBridge.Contracts
import NetBridge.Timer

/-! # Using a socket again

`connect` takes a socket in whatever state a former connection has left it, and `markEstablished`
sets only the sequence numbers, the congestion window and the mark of the peer's FIN.  The receive
buffer, the queue of outstanding segments, the FIN, the timeout and the round-trip estimates are
those of the former connection.  So a socket is as good as new exactly if the former connection has
left none of them behind (`Unspent`). -/

namespace NetBridge

open TcpManager (written timedOut stored advanced finQueued released addressed)

/-- The fields that a connection lives on: all but those of a listener and the number of the SYN,
which is not looked at again once the SYN has been acknowledged. -/
def TcpSocket.connection (s : TcpSocket) : TcpSocket :=
  { s with synSeq := 0, backlog := 0, pendingConnQueue := [] }

/-- Nothing is left of former connections: no byte to be read, no segment to be acknowledged, no
FIN, no timeout and no sample of the round-trip time. -/
structure Unspent (s : TcpSocket) : Prop where
  read : s.recvBuf = []
  acked : s.outstanding = []
  fin : s.finSeq = -1
  timeouts : s.timeoutCount = 0
  sample : s.hasEstRTT = false

/-! ### What the fields say about each other -/

/-- A socket with nothing outstanding has no deadline, and one without a sample has the first
estimates. -/
structure Booked (s : TcpSocket) : Prop where
  timer : s.outstanding = [] → s.nextRtoDeadlineMs = 0
  estimates : s.hasEstRTT = false → s.estRTTms = 1000 ∧ s.devRTTms = 0

/-- The timer and the estimates are as before. -/
structure SameBooks (s s' : TcpSocket) : Prop where
  outstanding : s'.outstanding = s.outstanding
  deadline : s'.nextRtoDeadlineMs = s.nextRtoDeadlineMs
  hasEst : s'.hasEstRTT = s.hasEstRTT
  est : s'.estRTTms = s.estRTTms
  dev : s'.devRTTms = s.devRTTms

theorem sameBooks_markEstablished (s : TcpSocket) (v : Int) :
    SameBooks s (s.setRwnd v).markEstablished := by
  unfold TcpSocket.markEstablished
  split_ifs <;> exact ⟨rfl, rfl, rfl, rfl, rfl⟩

theorem advanced_estimates (s : TcpSocket) (now ackNum : Int) :
    (advanced s now ackNum).hasEstRTT = true ∨
      (advanced s now ackNum).hasEstRTT = s.hasEstRTT ∧
        (advanced s now ackNum).estRTTms = s.estRTTms ∧
        (advanced s now ackNum).devRTTms = s.devRTTms := by
  simp only [advanced]
  split
  · split_ifs
    · exact .inr ⟨rfl, rfl, rfl⟩
    · left
      unfold TcpSocket.onSampleRTT
      split_ifs with h
      · rfl
      · simpa using h
  · exact .inr ⟨rfl, rfl, rfl⟩

namespace Booked

variable {s s' : TcpSocket}

theorem congr (h : Booked s) (e : SameBooks s s') : Booked s' := by
  constructor
  · rw [e.outstanding, e.deadline]
    exact h.timer
  · rw [e.hasEst, e.est, e.dev]
    exact h.estimates

theorem written (h : Booked s) (now : Int) (buf : Buf) (pos : Int) (n : ℕ) :
    Booked (written s now buf pos n) := by
  refine ⟨?_, h.estimates⟩
  intro hout
  have hout : s.outstanding ++ chunks now buf s.sndNxt pos n = [] := hout
  obtain ⟨hold, hnew⟩ := List.append_eq_nil_iff.mp hout
  have hzero : ¬ 0 < n := by
    intro hpos
    rw [chunks_pos now buf s.sndNxt pos hpos] at hnew
    exact absurd hnew (List.cons_ne_nil _ _)
  show (if s.outstanding = [] ∧ 0 < n then now + s.rtoMs else s.nextRtoDeadlineMs) = 0
  rw [if_neg fun h' => hzero h'.2]
  exact h.timer hold

theorem advanced (h : Booked s) (now ackNum : Int) : Booked (advanced s now ackNum) := by
  constructor
  · intro hout
    rw [(advanced_timer s now ackNum).1, if_pos hout]
  · intro hno
    obtain hsample | ⟨e₁, e₂, e₃⟩ := advanced_estimates s now ackNum
    · rw [hsample] at hno
      exact absurd hno (by decide)
    · rw [e₂, e₃]
      apply h.estimates
      rw [← e₁]
      exact hno

theorem robust : TcpManager.Robust Booked := by
  have hnew : Booked TcpSocket.new := ⟨fun _ => rfl, fun _ => ⟨rfl, rfl⟩⟩
  refine ⟨hnew, fun _ _ _ => hnew.congr ⟨rfl, rfl, rfl, rfl, rfl⟩, ?_,
    fun s _ h => h.congr ⟨rfl, rfl, rfl, rfl, rfl⟩, fun s _ _ h => h.congr ⟨rfl, rfl, rfl, rfl, rfl⟩,
    fun s _ _ h => h.congr ⟨rfl, rfl, rfl, rfl, rfl⟩, ?_⟩
  · intro s s' hu h
    cases hu with
    | write now buf n => exact h.written now buf _ n
    | advance now => exact h.advanced now _
    | establish v => exact h.congr (sameBooks_markEstablished s v)
    | timeout now hout =>
        refine ⟨?_, h.estimates⟩
        intro hnone
        exact absurd (List.map_eq_nil_iff.mp hnone) hout
    | bind | queue | accept | close | shutdown | fin | release | take | window | store
      | peerFin => exact h.congr ⟨rfl, rfl, rfl, rfl, rfl⟩
  · exact fun s v h => h.congr (sameBooks_markEstablished s v)

end Booked

namespace TcpManager

variable (m : TcpManager)

/-! ### A new connection on socket `i` -/

section reopen
variable (now : Int) (i : SockId) (destAddr : Int) (ack : Transport)

/-- `bind` and `connect`, with the ports that `ack` answers to. -/
def dialled : TcpManager :=
  (m.step (.bind i ack.destPort)).step (.connect i destAddr ack.srcPort)

/-- `bind`, `connect` and the matching SYN-ACK: `ack` with the number that acknowledges the SYN. -/
def reopened : TcpManager :=
  let m := m.dialled i destAddr ack
  m.step (.receive now destAddr { ack with seqNum := (m.sock i).synSeq + 1 })

/-- Socket `s` with a new connection, and all the rest as it was. -/
def reconnected (s : TcpSocket) : TcpSocket :=
  { s with
    localPort := ack.destPort
    remoteAddr := destAddr
    remotePort := ack.srcPort
    synSeq := s.sndNxt
    rwnd := max 0 ack.window
    sndUna := 1
    sndNxt := 1
    rcvNxt := 1
    cwnd := TcpSocket.INITIAL_CWND_BYTES
    peerFinReceived := false
    state := .ESTABLISHED }

end reopen

variable {m} {i : SockId} {destAddr : Int} {ack : Transport}

theorem dialled_eq (hi : i < m.allSockets.length)
    (hs : Sendable m.addr destAddr ack.destPort ack.srcPort) :
    ∃ (pending : Table ConnKey SockId) (p : Sent),
      pending.lookup ⟨destAddr, ack.srcPort, ack.destPort⟩ = some i ∧
      m.dialled i destAddr ack =
        (({ m with synPendingByKey := pending } : TcpManager).setSock i
          { addressed ((m.sock i).bind ack.destPort) destAddr ack.srcPort with
            state := .SYN_SENT }).emit [p] := by
  set m₁ := m.setSock i ((m.sock i).bind ack.destPort) with hm₁
  have hi₁ : i < m₁.allSockets.length := by simpa [hm₁] using hi
  have hself : m₁.sock i = (m.sock i).bind ack.destPort := m.sock_setSock_self hi _
  have hport : (m₁.sock i).localPort = ack.destPort := by rw [hself]; rfl
  have hbind : m.step (.bind i ack.destPort) = m₁ := m.step_of_valid fun j hj => by
    obtain rfl : i = j := Option.some.inj hj
    exact hi
  have hok : ¬ Rejected (m₁.sock i) ack.srcPort := by
    have h₁ := hs.srcPort
    have h₂ := hs.destPort
    have hmax : Transport.MAX_PORT_NUM = 255 := rfl
    unfold Rejected
    rw [hport, hmax]
    omega
  obtain ⟨p, _, e⟩ := m₁.connect_ok hi₁ hok (by rw [hport]; exact hs)
  have hvalid : m₁.Valid (.connect i destAddr ack.srcPort) := fun j hj => by
    obtain rfl : i = j := Option.some.inj hj
    exact hi₁
  refine ⟨_, p, AList.lookup_insert m.synPendingByKey, ?_⟩
  rw [dialled, hbind, m₁.step_of_valid hvalid]
  simp only [exec, e, hport]
  rw [hself, hm₁]
  simp only [setSock, List.set_set]

/-- What `bind`, `connect` and the SYN-ACK do not set is as it was. -/
theorem reopened_spec (now : Int) (hi : i < m.allSockets.length) (hty : ack.type = .ACK)
    (hs : Sendable m.addr destAddr ack.destPort ack.srcPort) :
    (m.reopened now i destAddr ack).sock i = reconnected destAddr ack (m.sock i) ∧
      (m.reopened now i destAddr ack).addr = m.addr ∧
      (m.reopened now i destAddr ack).allSockets.length = m.allSockets.length := by
  obtain ⟨pending, p, hpend, e⟩ := dialled_eq hi hs
  unfold reopened
  simp only
  set m₂ := m.dialled i destAddr ack
  have hlen : m₂.allSockets.length = m.allSockets.length := by
    rw [e]
    simp
  have hself : m₂.sock i =
      { addressed ((m.sock i).bind ack.destPort) destAddr ack.srcPort with state := .SYN_SENT } := by
    rw [e, emit_sock]
    exact sock_setSock_self _ (by exact hi) _
  have hpend : m₂.synPendingByKey.lookup ⟨destAddr, ack.srcPort, ack.destPort⟩ = some i := by
    rw [e]
    exact hpend
  rw [m₂.step_receive]
  simp only [receiveTransport, hty, onAck, hpend, onAckPending, if_true]
  refine ⟨?_, ?_, ?_⟩
  · show (m₂.setSock i ((m₂.sock i).setRwnd ack.window).markEstablished).sock i = _
    rw [m₂.sock_setSock_self (by rwa [hlen]), hself, TcpSocket.markEstablished_of_synSent _ ack.window rfl]
    rfl
  · show m₂.addr = m.addr
    rw [e]
    rfl
  · show (m₂.setSock i _).allSockets.length = _
    rw [setSock_length, hlen]

/-- On a connection that has just been made and on which nothing is left, `close` sends the FIN. -/
theorem close_reopened (now : Int) (hi : i < m.allSockets.length) (hty : ack.type = .ACK)
    (hs : Sendable m.addr destAddr ack.destPort ack.srcPort) (h : Unspent (m.sock i)) :
    ∃ p : Sent, p.Is m.addr destAddr ack.destPort ack.srcPort .FIN 0 1 [] ∧
      ((m.reopened now i destAddr ack).close i).sent =
        (m.reopened now i destAddr ack).sent ++ [p] := by
  obtain ⟨hsock, haddr, hlen⟩ := reopened_spec now hi hty hs
  set m' := m.reopened now i destAddr ack
  let s : TcpSocket := { reconnected destAddr ack (m.sock i) with state := .SHUTDOWN }
  have hclose : m'.close i = (m'.setSock i s).maybeSendFinOnDrain i := by
    have hst : (m'.sock i).state = .ESTABLISHED := by rw [hsock]; rfl
    simp only [close, hst]
    rw [hsock]
  have hi' : i < m'.allSockets.length := by rwa [hlen]
  have hself : (m'.setSock i s).sock i = s := m'.sock_setSock_self hi' s
  have hfin : s.finSeq < 0 := by
    show (m.sock i).finSeq < 0
    rw [h.fin]
    decide
  obtain ⟨p, hp, e⟩ := (m'.setSock i s).maybeSendFin_sends (by simpa using hi') (by rw [hself])
    (by rwa [hself]) (by rw [hself]; exact h.acked) (by rw [hself, setSock_addr, haddr]; exact hs)
  rw [hself, setSock_addr, haddr] at hp
  refine ⟨p, hp, ?_⟩
  rw [hclose, e]
  rfl

/-! ### A socket that is as good as new -/

theorem connection_reconnected {s : TcpSocket} (h : Unspent s) (hbooked : Booked s)
    (hback : BackedOff s) (hused : s.recvBufUsed = s.recvBuf.length) (destAddr : Int)
    (ack : Transport) :
    (reconnected destAddr ack s).connection = (reconnected destAddr ack .new).connection := by
  have htimer := hbooked.timer h.acked
  obtain ⟨hest, hdev⟩ := hbooked.estimates h.sample
  have hused : s.recvBufUsed = 0 := by rw [hused, h.read]; rfl
  have hrto : s.rtoMs = TcpSocket.RTO_INITIAL_MS := by
    rw [hback.rto, h.timeouts]
    rfl
  simp only [TcpSocket.connection, reconnected, h.read, h.acked, h.fin, h.timeouts, h.sample, htimer,
    hest, hdev, hused, hrto, TcpSocket.new]

theorem unspent_of_connection_eq {s : TcpSocket} {destAddr : Int} {ack : Transport}
    (h : (reconnected destAddr ack s).connection = (reconnected destAddr ack .new).connection) :
    Unspent s :=
  ⟨congrArg TcpSocket.recvBuf h, congrArg TcpSocket.outstanding h, congrArg TcpSocket.finSeq h,
    congrArg TcpSocket.timeoutCount h, congrArg TcpSocket.hasEstRTT h⟩

/-- **A used socket is as good as new exactly if nothing is left on it.** -/
theorem reopened_like_new_iff (addr : Int) (ops : List Op) (i : SockId) (now destAddr : Int)
    (ack : Transport) (hi : i < (run step (new addr) ops).allSockets.length) (hty : ack.type = .ACK)
    (hs : Sendable (run step (new addr) ops).addr destAddr ack.destPort ack.srcPort) :
    let m := run step (new addr) ops
    let fresh := m.allSockets.length
    let m₁ := m.reopened now i destAddr ack
    let m₂ := (m.step .socket).reopened now fresh destAddr ack
    ((m₁.sock i).connection = (m₂.sock fresh).connection ∧
      (∀ len, (m₁.read i true 0 len).2.2 = []) ∧
      ∃ p : Sent, p.Is m.addr destAddr ack.destPort ack.srcPort .FIN 0 1 [] ∧
        (m₁.close i).sent = m₁.sent ++ [p]) ↔
    Unspent (m.sock i) := by
  have hbooked := Booked.robust.run addr ops i
  have hback := BackedOff.robust.run addr ops i
  have hused := robust_recvBufUsed.run addr ops i
  intro m fresh m₁ m₂
  have hsock₁ : m₁.sock i = reconnected destAddr ack (m.sock i) := (reopened_spec now hi hty hs).1
  have hsock₂ : m₂.sock fresh = reconnected destAddr ack .new := by
    have hfresh : fresh < (m.step .socket).allSockets.length := by
      rw [m.step_socket]
      simp [socket, fresh]
    have haddr : (m.step .socket).addr = m.addr := by
      rw [m.step_socket]
      rfl
    have hnew : (m.step .socket).sock fresh = .new := by
      rw [m.step_socket, m.sock_socket]
      exact m.sock_of_length_le le_rfl
    rw [← haddr] at hs
    rw [(reopened_spec now hfresh hty hs).1, hnew]
  rw [hsock₁, hsock₂]
  constructor
  · rintro ⟨heq, _⟩
    exact unspent_of_connection_eq heq
  · intro h
    refine ⟨connection_reconnected h hbooked hback hused destAddr ack, ?_,
      close_reopened now hi hty hs h⟩
    intro len
    show ((m₁.sock i).read true 0 len).2.2 = []
    have hnone : (m₁.sock i).recvBuf = [] := by
      rw [hsock₁]
      exact h.read
    obtain ⟨r, _, e⟩ | ⟨_, _, _, e⟩ | ⟨_, _, e⟩ := (m₁.sock i).read_effect true 0 len
    · rw [e]
    · rw [e, hnone, List.take_nil]
    · rw [e, hnone, List.take_nil]

/-- A connection with port 80 of node 2 that gets one byte. -/
def oneByteRun : List Op :=
  [.socket, .bind 0 5, .connect 0 2 80, .receive 0 2 (ackFrom80 1),
    .receive 0 2 ⟨80, 5, .DATA, 0, 1, [7], by decide⟩]

/-- The byte has been read and the peer has ended the connection. -/
def readRun : List Op :=
  oneByteRun ++ [.read 0 true 0 1, .receive 0 2 ⟨80, 5, .FIN, 0, 2, [], Host.legal_from80⟩,
    .read 0 true 0 1]

/-- The connection has been closed by its own FIN. -/
def closedRun : List Op := oneByteRun ++ [.read 0 true 0 1, .close 0, .receive 0 2 (ackFrom80 2)]

theorem reopened_like_new_read :
    let m := run step (new 1) readRun
    (m.sock 0).state = .CLOSED ∧
      ((m.reopened 9 0 3 (ackFrom80 0)).sock 0).connection =
        (((m.step .socket).reopened 9 1 3 (ackFrom80 0)).sock 1).connection := by
  refine ⟨by decide, ?_⟩
  have hunspent : Unspent ((run step (new 1) readRun).sock 0) := by
    constructor <;> decide
  exact ((reopened_like_new_iff 1 readRun 0 9 3 (ackFrom80 0) (by decide) rfl (by decide)).mpr
    hunspent).1

/-- A socket that has sent its FIN remembers it in the next connection and closes that without a
FIN; one that was released with a byte in its buffer hands that byte out in the next connection. -/
theorem residue_of_former_connection :
    let m := run step (new 1) closedRun
    let m₁ := m.reopened 9 0 3 (ackFrom80 0)
    let m' := run step (new 1) (oneByteRun ++ [.release 0])
    (m.sock 0).state = .CLOSED ∧
      (m₁.sock 0).connection ≠
        (((m.step .socket).reopened 9 1 3 (ackFrom80 0)).sock 1).connection ∧
      (m₁.sock 0).state = .ESTABLISHED ∧ (m₁.sock 0).outstanding = [] ∧
      (m₁.close 0).sent = m₁.sent ∧
      (m'.sock 0).state = .CLOSED ∧
      ((m'.reopened 9 0 3 (ackFrom80 0)).read 0 true 0 10).2 = (1, [7]) := by
  decide

end TcpManager

end NetBridge
