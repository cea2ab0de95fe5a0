import NetBridge.Run
import NetBridge.TcpSpec

/-! # Runs of one manager

`Op` is everything that can happen to a `TcpManager`: the calls of the applications on its node,
an incoming segment, a tick of the retransmission timer.  `TcpManager.step` performs one of them,
so `run TcpManager.step (TcpManager.new addr) ops` is the manager after the operations `ops`.

Most operations leave alone what the tables are about: the state and addresses of every socket,
the accept queues and the tables themselves (`Quiet`).  This module shows which ones do, so that
the invariants about connections only look at the others. -/

namespace NetBridge

/-- One operation on a manager; `now` is the clock reading of the calls that take one. -/
inductive Op where
  | socket
  | bind (i : SockId) (localPort : Int)
  | listen (i : SockId) (backlog : Int)
  | accept (i : SockId)
  | connect (i : SockId) (destAddr destPort : Int)
  | close (i : SockId)
  | release (i : SockId)
  | write (now : Int) (i : SockId) (buf : Buf) (pos len : Int)
  | read (i : SockId) (buf : Bool) (pos len : Int)
  | receive (now srcAddr : Int) (transport : Transport)
  | tick (now : Int)

/-- The socket an application call is on. -/
def Op.target : Op → Option SockId
  | .socket | .receive .. | .tick _ => none
  | .bind i _ | .listen i _ | .accept i | .connect i _ _ | .close i | .release i
  | .write _ i _ _ _ | .read i _ _ _ => some i

namespace TcpManager

variable (m : TcpManager)

/-- The effect of an operation whose socket exists. -/
def exec : Op → TcpManager
  | .socket => m.socket.1
  | .bind i localPort => m.bind i localPort
  | .listen i backlog => (m.listen i backlog).1
  | .accept i => (m.accept i).1
  | .connect i destAddr destPort => (m.connect i destAddr destPort).1
  | .close i => m.close i
  | .release i => m.release i
  | .write now i buf pos len => (m.write now i buf pos len).1
  | .read i buf pos len => (m.read i buf pos len).1
  | .receive now srcAddr transport => m.receiveTransport now srcAddr transport
  | .tick now => m.retransmissionTick now

/-- The socket of a call is one the manager has made. -/
def Valid (op : Op) : Prop := ∀ i ∈ op.target, i < m.allSockets.length

instance (op : Op) : Decidable (m.Valid op) :=
  match h : op.target with
  | none => .isTrue (by simp [Valid, h])
  | some i => decidable_of_iff (i < m.allSockets.length) (by simp [Valid, h])

/-- One step: an operation on a socket that does not exist is no operation. -/
def step (op : Op) : TcpManager := if m.Valid op then m.exec op else m

theorem step_of_valid {op : Op} (h : m.Valid op) : m.step op = m.exec op := if_pos h

theorem step_socket : m.step .socket = m.socket.1 := if_pos (fun _ h => by cases h)

theorem step_receive (now srcAddr : Int) (t : Transport) :
    m.step (.receive now srcAddr t) = m.receiveTransport now srcAddr t :=
  if_pos (fun _ h => by cases h)

theorem step_tick (now : Int) : m.step (.tick now) = m.retransmissionTick now :=
  if_pos (fun _ h => by cases h)

/-- An invariant holds after a step if the valid operations keep it. -/
theorem step_induction {I : TcpManager → Prop} {op : Op} (h : I m)
    (hexec : m.Valid op → I (m.exec op)) : I (m.step op) := by
  unfold step
  split_ifs with hv
  · exact hexec hv
  · exact h

end TcpManager

/-! ### Quiet changes -/

/-- The fields of a socket that say what it is connected to. -/
structure SameConn (s s' : TcpSocket) : Prop where
  state : s'.state = s.state
  localPort : s'.localPort = s.localPort
  remoteAddr : s'.remoteAddr = s.remoteAddr
  remotePort : s'.remotePort = s.remotePort
  backlog : s'.backlog = s.backlog
  pendingConnQueue : s'.pendingConnQueue = s.pendingConnQueue
  synSeq : s'.synSeq = s.synSeq

theorem SameConn.refl (s : TcpSocket) : SameConn s s := ⟨rfl, rfl, rfl, rfl, rfl, rfl, rfl⟩

theorem SameConn.trans {s₁ s₂ s₃ : TcpSocket} (h₁ : SameConn s₁ s₂) (h₂ : SameConn s₂ s₃) :
    SameConn s₁ s₃ :=
  ⟨h₂.state.trans h₁.state, h₂.localPort.trans h₁.localPort, h₂.remoteAddr.trans h₁.remoteAddr,
    h₂.remotePort.trans h₁.remotePort, h₂.backlog.trans h₁.backlog,
    h₂.pendingConnQueue.trans h₁.pendingConnQueue, h₂.synSeq.trans h₁.synSeq⟩

/-- The key under which a socket belongs in the tables of connections. -/
def TcpSocket.key (s : TcpSocket) : ConnKey := ⟨s.remoteAddr, s.remotePort, s.localPort⟩

theorem SameConn.key {s s' : TcpSocket} (h : SameConn s s') : s'.key = s.key := by
  unfold TcpSocket.key
  rw [h.remoteAddr, h.remotePort, h.localPort]

theorem SameConn.live_iff {s s' : TcpSocket} (h : SameConn s s') : s'.Live ↔ s.Live := by
  unfold TcpSocket.Live
  rw [h.state]

/-- The tables and the connection fields of all sockets are as before. -/
structure Quiet (m m' : TcpManager) : Prop where
  sock : ∀ j, SameConn (m.sock j) (m'.sock j)
  length : m'.allSockets.length = m.allSockets.length
  addr : m'.addr = m.addr
  listenersByPort : m'.listenersByPort = m.listenersByPort
  synPendingByKey : m'.synPendingByKey = m.synPendingByKey
  establishedByKey : m'.establishedByKey = m.establishedByKey

namespace Quiet

theorem refl (m : TcpManager) : Quiet m m := ⟨fun _ => .refl _, rfl, rfl, rfl, rfl, rfl⟩

theorem trans {m₁ m₂ m₃ : TcpManager} (h₁ : Quiet m₁ m₂) (h₂ : Quiet m₂ m₃) : Quiet m₁ m₃ :=
  ⟨fun j => (h₁.sock j).trans (h₂.sock j), h₂.length.trans h₁.length, h₂.addr.trans h₁.addr,
    h₂.listenersByPort.trans h₁.listenersByPort, h₂.synPendingByKey.trans h₁.synPendingByKey,
    h₂.establishedByKey.trans h₁.establishedByKey⟩

theorem emit (m : TcpManager) (out : List Sent) : Quiet m (m.emit out) :=
  ⟨fun _ => .refl _, rfl, rfl, rfl, rfl, rfl⟩

theorem setSock (m : TcpManager) {i : SockId} {s : TcpSocket} (h : SameConn (m.sock i) s) :
    Quiet m (m.setSock i s) := by
  refine ⟨fun j => ?_, by simp, rfl, rfl, rfl, rfl⟩
  obtain e | ⟨rfl, e⟩ := m.sock_setSock_cases i s j
  · rw [e]
    exact .refl _
  · rw [e]
    exact h

end Quiet

/-! ### The quiet updates of a socket -/

theorem sameConn_written (s : TcpSocket) (now : Int) (buf : Buf) (pos : Int) (n : ℕ) :
    SameConn s (TcpManager.written s now buf pos n) := ⟨rfl, rfl, rfl, rfl, rfl, rfl, rfl⟩

theorem sameConn_timedOut (s : TcpSocket) (now : Int) :
    SameConn s (TcpManager.timedOut s now) := ⟨rfl, rfl, rfl, rfl, rfl, rfl, rfl⟩

theorem sameConn_stored (s : TcpSocket) (payload : List UInt8) :
    SameConn s (TcpManager.stored s payload) := ⟨rfl, rfl, rfl, rfl, rfl, rfl, rfl⟩

theorem sameConn_setRwnd (s : TcpSocket) (v : Int) : SameConn s (s.setRwnd v) :=
  ⟨rfl, rfl, rfl, rfl, rfl, rfl, rfl⟩

theorem sameConn_finQueued (s : TcpSocket) : SameConn s (TcpManager.finQueued s) :=
  ⟨rfl, rfl, rfl, rfl, rfl, rfl, rfl⟩

theorem sameConn_onSampleRTT (s : TcpSocket) (v : Int) : SameConn s (s.onSampleRTT v) := by
  unfold TcpSocket.onSampleRTT
  split_ifs <;> exact ⟨rfl, rfl, rfl, rfl, rfl, rfl, rfl⟩

theorem sameConn_advanced (s : TcpSocket) (now ackNum : Int) :
    SameConn s (TcpManager.advanced s now ackNum) := by
  have h : SameConn s (s.popAckedThrough now ackNum).1.additiveIncreaseCwnd :=
    ⟨rfl, rfl, rfl, rfl, rfl, rfl, rfl⟩
  simp only [TcpManager.advanced]
  split
  · split_ifs
    · exact h
    · exact h.trans (sameConn_onSampleRTT _ _)
  · exact h

/-! ### The quiet operations -/

namespace TcpManager

variable (m : TcpManager)

theorem write_quiet (now : Int) {i : SockId} (buf : Buf) (pos len : Int)
    (hi : i < m.allSockets.length) : Quiet m (m.write now i buf pos len).1 := by
  obtain h | ⟨_, _, n, out, _, h⟩ := m.write_effect now buf pos len hi
  · rw [h]
    exact .refl m
  · rw [h]
    exact (Quiet.setSock m (sameConn_written _ _ _ _ _)).trans (.emit _ out)

theorem retransmitSocket_quiet (now : Int) (i : SockId) : Quiet m (m.retransmitSocket now i) := by
  obtain h | ⟨_, out, h, _⟩ := m.retransmitSocket_effect now i
  · rw [h]
    exact .refl m
  · rw [h]
    exact (Quiet.setSock m (sameConn_timedOut _ _)).trans (.emit _ out)

theorem tick_quiet (now : Int) : Quiet m (m.retransmissionTick now) :=
  m.tick_induction (I := Quiet m) now
    (fun m' i _ h => h.trans (m'.retransmitSocket_quiet now i)) (.refl m)

theorem sendAck_quiet (srcPort destAddr destPort ackNum window : Int) :
    Quiet m (m.sendAck srcPort destAddr destPort ackNum window).1 := by
  obtain ⟨out, h, _⟩ := m.sendAck_cases srcPort destAddr destPort ackNum window
  rw [h]
  exact .emit m out

theorem onData_quiet (srcAddr : Int) (data : Transport) : Quiet m (m.onData srcAddr data) := by
  cases h : m.establishedByKey.lookup ⟨srcAddr, data.srcPort, data.destPort⟩ with
  | none =>
      have e : m.onData srcAddr data = m := by simp only [onData, h]
      rw [e]
      exact .refl m
  | some i =>
      obtain e | ⟨_, e | ⟨_, _, _, e⟩⟩ := m.onData_effect h
      · rw [e]
        exact .refl m
      · rw [e]
        exact m.sendAck_quiet _ _ _ _ _
      · rw [e]
        exact (Quiet.setSock m (sameConn_stored _ _)).trans (sendAck_quiet _ _ _ _ _ _)

/-- A `read` is quiet unless it ends the stream: then it closes the socket. -/
theorem read_cases (i : SockId) (buf : Bool) (pos len : Int) :
    Quiet m (m.read i buf pos len).1 ∨
      (m.sock i).EndsStream buf pos len ∧
        ∃ s, SameConn (m.sock i).markClosed s ∧ (m.read i buf pos len).1 = m.setSock i s := by
  have hread : (m.read i buf pos len).1 = m.setSock i ((m.sock i).read buf pos len).1 := rfl
  rw [hread]
  rcases (m.sock i).read_effect buf pos len with
    ⟨_, _, e⟩ | ⟨_, _, _, e⟩ | ⟨hends, _, e⟩
  · left
    rw [e, setSock_sock]
    exact .refl m
  · left
    rw [e]
    exact Quiet.setSock m ⟨rfl, rfl, rfl, rfl, rfl, rfl, rfl⟩
  · right
    rw [e]
    refine ⟨hends, ((m.sock i).taken (m.sock i).recvBufUsed).markClosed, ?_, rfl⟩
    exact ⟨rfl, rfl, rfl, rfl, rfl, rfl, rfl⟩

/-- `maybeSendFinOnDrain` is quiet unless the FIN cannot be sent: then it releases the socket. -/
theorem maybeSendFin_cases {i : SockId} (hi : i < m.allSockets.length) :
    Quiet m (m.maybeSendFinOnDrain i) ∨
      (m.sock i).state = .SHUTDOWN ∧
        ¬ Sendable m.addr (m.sock i).remoteAddr (m.sock i).localPort (m.sock i).remotePort ∧
        m.maybeSendFinOnDrain i =
          (m.unregisterSocket i).setSock i (released (finQueued (m.sock i))) := by
  obtain ⟨_, h⟩ | ⟨hst, _, _, ⟨p, _, h⟩ | ⟨hs, h⟩⟩ := m.maybeSendFin_effect hi
  · left
    rw [h]
    exact .refl m
  · left
    rw [h]
    exact (Quiet.setSock m (sameConn_finQueued _)).trans (.emit _ _)
  · exact .inr ⟨hst, hs, h⟩

end TcpManager

end NetBridge
