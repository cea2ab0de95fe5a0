import NetBridge.Tick

/-! # What an operation makes of a socket

`Effect m op j s` lists everything that socket `j` can be after `op`, each with the state of the
manager in which the code does it: the same inversion as `Move`, but for all fields of one socket.
`exec_effect` says that there is nothing else.  An invariant of single sockets that looks at which
call changed them is proved by cases on `Effect`. -/

namespace NetBridge

open TcpManager (written timedOut stored advanced finQueued released addressed Rejected)

/-- The contents of a socket after an operation. -/
inductive Effect (m : TcpManager) : Op → SockId → TcpSocket → Prop
  | same {op : Op} {j : SockId} : Effect m op j (m.sock j)
  | bind {j : SockId} {localPort : Int} :
      Effect m (.bind j localPort) j ((m.sock j).bind localPort)
  | listen {j : SockId} {backlog : Int} (hst : (m.sock j).state = .CLOSED) :
      Effect m (.listen j backlog) j { m.sock j with state := .LISTEN, backlog := backlog }
  | dequeue {j conn : SockId} {rest : List SockId} (hst : (m.sock j).state = .LISTEN)
      (hq : (m.sock j).pendingConnQueue = conn :: rest) :
      Effect m (.accept j) j { m.sock j with pendingConnQueue := rest }
  | accept {i j : SockId} {rest : List SockId} (hst : (m.sock i).state = .LISTEN)
      (hq : (m.sock i).pendingConnQueue = j :: rest) (hj : (m.sock j).state ≠ .CLOSED) :
      Effect m (.accept i) j { m.sock j with state := .ESTABLISHED }
  | address {j : SockId} {destAddr destPort : Int} (hguard : ¬ Rejected (m.sock j) destPort)
      (hs : ¬ Sendable m.addr destAddr (m.sock j).localPort destPort) :
      Effect m (.connect j destAddr destPort) j (addressed (m.sock j) destAddr destPort)
  | connect {j : SockId} {destAddr destPort : Int} (hguard : ¬ Rejected (m.sock j) destPort)
      (hs : Sendable m.addr destAddr (m.sock j).localPort destPort) :
      Effect m (.connect j destAddr destPort) j
        { addressed (m.sock j) destAddr destPort with state := .SYN_SENT }
  | close {j : SockId} (hst : (m.sock j).state = .LISTEN ∨ (m.sock j).state = .SYN_SENT) :
      Effect m (.close j) j (m.sock j).markClosed
  | shutdown {j : SockId} (hst : (m.sock j).state = .ESTABLISHED)
      (hwait : 0 ≤ (m.sock j).finSeq ∨ (m.sock j).outstanding ≠ []) :
      Effect m (.close j) j { m.sock j with state := .SHUTDOWN }
  | shutdownFin {j : SockId} (hst : (m.sock j).state = .ESTABLISHED)
      (hfin : (m.sock j).finSeq < 0) (hout : (m.sock j).outstanding = []) :
      Effect m (.close j) j (finQueued { m.sock j with state := .SHUTDOWN })
  | shutdownFails {j : SockId} (hst : (m.sock j).state = .ESTABLISHED)
      (hs : ¬ Sendable m.addr (m.sock j).remoteAddr (m.sock j).localPort (m.sock j).remotePort) :
      Effect m (.close j) j (released (finQueued { m.sock j with state := .SHUTDOWN }))
  | release {j : SockId} (hst : (m.sock j).state ≠ .CLOSED) :
      Effect m (.release j) j (released (m.sock j))
  | write {now : Int} {j : SockId} {buf : Buf} {pos len : Int} (n : ℕ)
      (hst : (m.sock j).state = .ESTABLISHED) (hpos : 0 ≤ pos) :
      Effect m (.write now j buf pos len) j (written (m.sock j) now buf pos n)
  | read {j : SockId} {buf : Bool} {pos len : Int} :
      Effect m (.read j buf pos len) j ((m.sock j).read buf pos len).1
  | enqueue {now srcAddr : Int} {syn : Transport} {j : SockId} (hty : syn.type = .SYN)
      (hl : m.listenersByPort.lookup syn.destPort = some j) :
      Effect m (.receive now srcAddr syn) j ((m.sock j).enqueueAccepted m.allSockets.length)
  | child {now srcAddr : Int} {syn : Transport} {listener : SockId} (hty : syn.type = .SYN)
      (hl : m.listenersByPort.lookup syn.destPort = some listener) :
      Effect m (.receive now srcAddr syn) m.allSockets.length
        (TcpSocket.new.initAccepted syn.destPort srcAddr syn.srcPort)
  | establish {now srcAddr : Int} {ack : Transport} {j : SockId} (hty : ack.type = .ACK)
      (hpend : m.synPendingByKey.lookup (segKey srcAddr ack) = some j)
      (hseq : ack.seqNum = (m.sock j).synSeq + 1) :
      Effect m (.receive now srcAddr ack) j ((m.sock j).setRwnd ack.window).markEstablished
  | finAcked {now srcAddr : Int} {ack : Transport} {j : SockId} (hty : ack.type = .ACK)
      (hpend : m.synPendingByKey.lookup (segKey srcAddr ack) = none)
      (hest : m.establishedByKey.lookup (segKey srcAddr ack) = some j)
      (hst : (m.sock j).state = .SHUTDOWN) (hfin : 0 ≤ (m.sock j).finSeq) :
      Effect m (.receive now srcAddr ack) j (m.sock j).markClosed
  | window {now srcAddr : Int} {ack : Transport} {j : SockId} (hty : ack.type = .ACK)
      (hpend : m.synPendingByKey.lookup (segKey srcAddr ack) = none)
      (hest : m.establishedByKey.lookup (segKey srcAddr ack) = some j)
      (hst : (m.sock j).Live) :
      Effect m (.receive now srcAddr ack) j ((m.sock j).setRwnd ack.window)
  | advance {now srcAddr : Int} {ack : Transport} {j : SockId} {s : TcpSocket}
      (hty : ack.type = .ACK)
      (hpend : m.synPendingByKey.lookup (segKey srcAddr ack) = none)
      (hest : m.establishedByKey.lookup (segKey srcAddr ack) = some j) (hst : (m.sock j).Live)
      (hlt : (m.sock j).sndUna < ack.seqNum) (hle : ack.seqNum ≤ (m.sock j).sndNxt)
      (hs : s = advanced ((m.sock j).setRwnd ack.window) now ack.seqNum)
      (hwait : s.state ≠ .SHUTDOWN ∨ 0 ≤ s.finSeq ∨ s.outstanding ≠ []) :
      Effect m (.receive now srcAddr ack) j s
  | advanceFin {now srcAddr : Int} {ack : Transport} {j : SockId} {s : TcpSocket}
      (hty : ack.type = .ACK)
      (hpend : m.synPendingByKey.lookup (segKey srcAddr ack) = none)
      (hest : m.establishedByKey.lookup (segKey srcAddr ack) = some j)
      (hlt : (m.sock j).sndUna < ack.seqNum) (hle : ack.seqNum ≤ (m.sock j).sndNxt)
      (hs : s = advanced ((m.sock j).setRwnd ack.window) now ack.seqNum)
      (hst : s.state = .SHUTDOWN) (hfin : s.finSeq < 0) (hout : s.outstanding = []) :
      Effect m (.receive now srcAddr ack) j (finQueued s)
  | advanceFails {now srcAddr : Int} {ack : Transport} {j : SockId} {s : TcpSocket}
      (hty : ack.type = .ACK)
      (hpend : m.synPendingByKey.lookup (segKey srcAddr ack) = none)
      (hest : m.establishedByKey.lookup (segKey srcAddr ack) = some j)
      (hlt : (m.sock j).sndUna < ack.seqNum) (hle : ack.seqNum ≤ (m.sock j).sndNxt)
      (hs : s = advanced ((m.sock j).setRwnd ack.window) now ack.seqNum)
      (hst : s.state = .SHUTDOWN) (hfin : s.finSeq < 0) (hout : s.outstanding = [])
      (hsend : ¬ Sendable m.addr (m.sock j).remoteAddr (m.sock j).localPort
        (m.sock j).remotePort) :
      Effect m (.receive now srcAddr ack) j (released (finQueued s))
  | peerFin {now srcAddr : Int} {fin : Transport} {j : SockId} (hty : fin.type = .FIN)
      (hest : m.establishedByKey.lookup (segKey srcAddr fin) = some j) :
      Effect m (.receive now srcAddr fin) j (m.sock j).markPeerFinReceived
  | refused {now srcAddr : Int} {fin : Transport} {j : SockId} (hty : fin.type = .FIN)
      (hpend : m.synPendingByKey.lookup (segKey srcAddr fin) = some j) :
      Effect m (.receive now srcAddr fin) j (m.sock j).markClosed
  | store {now srcAddr : Int} {data : Transport} {j : SockId} (hty : data.type = .DATA)
      (hest : m.establishedByKey.lookup (segKey srcAddr data) = some j) (hst : (m.sock j).Live)
      (hne : data.payload ≠ []) (hseq : data.seqNum = (m.sock j).rcvNxt)
      (hroom : (data.payload.length : Int) ≤ (m.sock j).getRecvBufAvailable) :
      Effect m (.receive now srcAddr data) j (stored (m.sock j) data.payload)
  | timeout {now : Int} {j : SockId} {key : ConnKey}
      (hest : m.establishedByKey.lookup key = some j) (hdue : Due now (m.sock j)) :
      Effect m (.tick now) j (timedOut (m.sock j) now)

namespace TcpManager

variable {m : TcpManager}

theorem effect_setSock {op : Op} {i : SockId} {s : TcpSocket} (hs : Effect m op i s) (j : SockId) :
    Effect m op j ((m.setSock i s).sock j) := by
  obtain e | ⟨rfl, e⟩ := m.sock_setSock_cases i s j
  · rw [e]
    exact .same
  · rw [e]
    exact hs

theorem accept_effects (hf : ∀ j, m.Fits j (m.sock j)) (i j : SockId) :
    Effect m (.accept i) j ((m.accept i).1.sock j) := by
  obtain e | ⟨conn, rest, hst, hq, ⟨_, e⟩ | ⟨hc, e⟩⟩ := m.accept_effect i
  · rw [e]
    exact .same
  · rw [e]
    exact effect_setSock (.dequeue hst hq) j
  · rw [e]
    rw [m.sock_setSock_ne (accepted_child hf hst hq hc).1]
    rcases (m.setSock i { m.sock i with pendingConnQueue := rest }).sock_setSock_cases conn
      { m.sock conn with state := .ESTABLISHED } j with e' | ⟨rfl, e'⟩
    · rw [e']
      exact effect_setSock (.dequeue hst hq) j
    · rw [e']
      exact .accept hst hq hc

theorem connect_effects {i : SockId} (hi : i < m.allSockets.length) (destAddr destPort : Int)
    (j : SockId) :
    Effect m (.connect i destAddr destPort) j ((m.connect i destAddr destPort).1.sock j) := by
  by_cases hguard : Rejected (m.sock i) destPort
  · rw [m.connect_rejected destAddr hguard]
    exact .same
  · by_cases hs : Sendable m.addr destAddr (m.sock i).localPort destPort
    · obtain ⟨p, _, e⟩ := m.connect_ok hi hguard hs
      rw [e]
      exact effect_setSock (.connect hguard hs) j
    · rw [m.connect_fails hi hguard hs]
      exact effect_setSock (.address hguard hs) j

/-- What `maybeSendFinOnDrain` makes of a socket that has just been changed to `s`: it waits, the
FIN is queued, or the send fails and the socket is released. -/
theorem maybeSendFin_effects {op : Op} {i : SockId} {s : TcpSocket} (hi : i < m.allSockets.length)
    (hwait : s.state ≠ .SHUTDOWN ∨ 0 ≤ s.finSeq ∨ s.outstanding ≠ [] → Effect m op i s)
    (hqueued : s.state = .SHUTDOWN → s.finSeq < 0 → s.outstanding = [] →
      Effect m op i (finQueued s))
    (hfails : s.state = .SHUTDOWN → s.finSeq < 0 → s.outstanding = [] →
      ¬ Sendable m.addr s.remoteAddr s.localPort s.remotePort →
      Effect m op i (released (finQueued s))) (j : SockId) :
    Effect m op j (((m.setSock i s).maybeSendFinOnDrain i).sock j) := by
  have hself : (m.setSock i s).sock i = s := m.sock_setSock_self hi s
  rcases (m.setSock i s).maybeSendFin_effect (by simpa using hi) with
    ⟨hno, e⟩ | ⟨hst, hfin, hout, ⟨p, _, e⟩ | ⟨hns, e⟩⟩
  · rw [e]
    rw [hself] at hno
    exact effect_setSock (hwait hno) j
  · rw [hself] at e hst hfin hout
    rw [e, emit_sock, setSock_setSock]
    exact effect_setSock (hqueued hst hfin hout) j
  · rw [hself] at e hst hfin hout hns
    have hsock : (((m.setSock i s).unregisterSocket i).setSock i (released (finQueued s))).sock j =
        (m.setSock i (released (finQueued s))).sock j := by
      simp [unregisterSocket, setSock, sock, List.set_set]
    rw [e, hsock]
    exact effect_setSock (hfails hst hfin hout hns) j

theorem close_effects {i : SockId} (hi : i < m.allSockets.length) (j : SockId) :
    Effect m (.close i) j ((m.close i).sock j) := by
  unfold close
  cases hst : (m.sock i).state with
  | CLOSED => exact .same
  | SHUTDOWN => exact .same
  | LISTEN => exact effect_setSock (.close (.inl hst)) j
  | SYN_SENT => exact effect_setSock (.close (.inr hst)) j
  | ESTABLISHED =>
      refine maybeSendFin_effects hi ?_ ?_ ?_ j
      · intro hno
        exact .shutdown hst (hno.resolve_left fun h => h rfl)
      · intro _ hfin hout
        exact .shutdownFin hst hfin hout
      · intro _ _ _ hns
        exact .shutdownFails hst hns

theorem onSyn_effects (hb : m.Bounded) (now srcAddr : Int) {syn : Transport} (hty : syn.type = .SYN)
    (j : SockId) : Effect m (.receive now srcAddr syn) j ((m.onSyn srcAddr syn).sock j) := by
  cases hl : m.listenersByPort.lookup syn.destPort with
  | none =>
      obtain ⟨out, e, _⟩ := m.onSyn_refused srcAddr hl
      rw [e]
      exact .same
  | some listener =>
      obtain ⟨out, e, _⟩ := (m.admitted listener srcAddr syn).sendAck_cases syn.destPort srcAddr
        syn.srcPort (syn.seqNum + 1) TcpSocket.RECV_BUF_CAP
      rw [m.onSyn_admits hl (hb.listener hl), e, emit_sock]
      by_cases hlen : j = m.allSockets.length
      · rw [hlen, admitted_sock_child]
        exact .child hty hl
      · by_cases hjl : j = listener
        · rw [hjl, m.admitted_sock_listener (hb.listener hl)]
          exact .enqueue hty hl
        · rw [m.admitted_sock_ne hjl hlen]
          exact .same

theorem onAckEstablished_effects (now srcAddr : Int) {ack : Transport} (hty : ack.type = .ACK)
    {i : SockId} (hi : i < m.allSockets.length)
    (hpend : m.synPendingByKey.lookup (segKey srcAddr ack) = none)
    (hest : m.establishedByKey.lookup (segKey srcAddr ack) = some i) (j : SockId) :
    Effect m (.receive now srcAddr ack) j
      ((m.onAckEstablished now ack (segKey srcAddr ack) i).sock j) := by
  rcases m.onAckEstablished_effect now ack (segKey srcAddr ack) hi with
    e | ⟨hst, hfin, _, e⟩ | ⟨hst, hle, ⟨_, e⟩ | ⟨hlt, e⟩⟩
  · rw [e]
    exact .same
  · rw [e]
    exact effect_setSock (.finAcked hty hpend hest hst hfin) j
  · rw [e]
    exact effect_setSock (.window hty hpend hest hst) j
  · rw [e]
    have hconn : SameConn (m.sock i) (advanced ((m.sock i).setRwnd ack.window) now ack.seqNum) :=
      (sameConn_setRwnd _ _).trans (sameConn_advanced _ _ _)
    refine maybeSendFin_effects hi ?_ ?_ ?_ j
    · intro hno
      exact .advance hty hpend hest hst hlt hle rfl hno
    · intro hshut hfin hout
      exact .advanceFin hty hpend hest hlt hle rfl hshut hfin hout
    · intro hshut hfin hout hns
      rw [hconn.remoteAddr, hconn.remotePort, hconn.localPort] at hns
      exact .advanceFails hty hpend hest hlt hle rfl hshut hfin hout hns

theorem onAck_effects (hb : m.Bounded) (now srcAddr : Int) {ack : Transport} (hty : ack.type = .ACK)
    (j : SockId) : Effect m (.receive now srcAddr ack) j ((m.onAck now srcAddr ack).sock j) := by
  unfold onAck
  simp only
  cases hpend : m.synPendingByKey.lookup ⟨srcAddr, ack.srcPort, ack.destPort⟩ with
  | some i =>
      simp only [onAckPending]
      split_ifs with hseq
      · exact effect_setSock (.establish hty hpend hseq) j
      · exact .same
  | none =>
      simp only
      cases hest : m.establishedByKey.lookup ⟨srcAddr, ack.srcPort, ack.destPort⟩ with
      | none => exact .same
      | some i => exact onAckEstablished_effects now srcAddr hty (hb.established hest) hpend hest j

theorem onFin_effects (now srcAddr : Int) {fin : Transport} (hty : fin.type = .FIN) (j : SockId) :
    Effect m (.receive now srcAddr fin) j ((m.onFin srcAddr fin).sock j) := by
  unfold onFin
  simp only
  cases hest : m.establishedByKey.lookup ⟨srcAddr, fin.srcPort, fin.destPort⟩ with
  | some i =>
      simp only
      obtain ⟨out, e, _⟩ := (m.setSock i (m.sock i).markPeerFinReceived).sendAck_cases fin.destPort
        srcAddr fin.srcPort (fin.seqNum + 1)
        ((m.setSock i (m.sock i).markPeerFinReceived).sock i).getRecvBufAvailable
      rw [e]
      exact effect_setSock (.peerFin hty hest) j
  | none =>
      simp only
      cases hpend : m.synPendingByKey.lookup ⟨srcAddr, fin.srcPort, fin.destPort⟩ with
      | some i => exact effect_setSock (.refused hty hpend) j
      | none => exact .same

theorem onData_effects (now srcAddr : Int) {data : Transport} (hty : data.type = .DATA)
    (j : SockId) : Effect m (.receive now srcAddr data) j ((m.onData srcAddr data).sock j) := by
  cases hest : m.establishedByKey.lookup ⟨srcAddr, data.srcPort, data.destPort⟩ with
  | none =>
      have e : m.onData srcAddr data = m := by simp only [onData, hest]
      rw [e]
      exact .same
  | some i =>
      obtain e | ⟨hst, e | ⟨hne, hseq, hroom, e⟩⟩ := m.onData_effect hest
      · rw [e]
        exact .same
      · rw [e, ackData_eq]
        exact .same
      · rw [e, ackData_eq]
        exact effect_setSock (.store hty hest hst hne hseq hroom) j

theorem tick_effects (hf : ∀ j, m.Fits j (m.sock j)) (now : Int) (j : SockId) :
    Effect m (.tick now) j ((m.retransmissionTick now).sock j) := by
  rw [show (m.retransmissionTick now).sock j = _ from
    (m.rounds_eq now m.establishedByKey.entries (Fits.established_nodup hf)).1 j]
  split_ifs with hj
  · obtain ⟨⟨k, i⟩, he, rfl⟩ := List.mem_map.mp hj
    unfold expired
    split_ifs with hdue
    · exact .timeout ((Table.lookup_eq_some_iff _).mpr he) hdue
    · exact .same
  · exact .same

/-- **The inversion**: every socket after a valid operation is one of its effects. -/
theorem exec_effect (hb : m.Bounded) (hf : ∀ j, m.Fits j (m.sock j)) {op : Op} (hv : m.Valid op)
    (j : SockId) : Effect m op j ((m.exec op).sock j) := by
  cases op with
  | socket =>
      rw [show (m.exec .socket).sock j = m.sock j from m.sock_socket j]
      exact .same
  | bind i localPort => exact effect_setSock .bind j
  | listen i backlog =>
      simp only [exec, listen]
      split_ifs with hst
      · exact .same
      · exact effect_setSock (.listen (not_not.mp hst)) j
  | accept i => exact accept_effects hf i j
  | connect i destAddr destPort => exact connect_effects (hv i rfl) destAddr destPort j
  | close i => exact close_effects (hv i rfl) j
  | release i =>
      by_cases hst : (m.sock i).state = .CLOSED
      · rw [show m.exec (.release i) = m from m.release_of_closed hst]
        exact .same
      · rw [show m.exec (.release i) = _ from m.release_of_not_closed hst]
        exact effect_setSock (.release hst) j
  | write now i buf pos len =>
      obtain e | ⟨hst, hpos, n, out, _, e⟩ := m.write_effect now buf pos len (hv i rfl)
      · rw [show m.exec (.write now i buf pos len) = m from e]
        exact .same
      · rw [show m.exec (.write now i buf pos len) = _ from e]
        exact effect_setSock (.write n hst hpos) j
  | read i buf pos len => exact effect_setSock .read j
  | receive now srcAddr t =>
      simp only [exec, receiveTransport]
      cases hty : t.type with
      | SYN => exact onSyn_effects hb now srcAddr hty j
      | ACK => exact onAck_effects hb now srcAddr hty j
      | FIN => exact onFin_effects now srcAddr hty j
      | DATA => exact onData_effects now srcAddr hty j
  | tick now => exact tick_effects hf now j

theorem step_effect (hb : m.Bounded) (hf : ∀ j, m.Fits j (m.sock j)) (op : Op) (j : SockId) :
    Effect m op j ((m.step op).sock j) :=
  m.step_induction (I := fun m' => Effect m op j (m'.sock j)) .same fun hv => exec_effect hb hf hv j

end TcpManager

end NetBridge
