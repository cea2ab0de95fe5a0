import NetBridge.Calls

/-! # What one operation can do to the connections

`Move m op m₁` lists every way in which an operation changes the state or the addresses of a
socket, an accept queue or a table, each with the condition under which the code takes it.
`exec_move` is the inversion: up to a quiet change, every valid operation is one of these moves.
The invariants about connections are proved by cases on `Move` and never unfold a call. -/

namespace NetBridge

/-- The key of a segment in the tables. -/
def segKey (srcAddr : Int) (t : Transport) : ConnKey := ⟨srcAddr, t.srcPort, t.destPort⟩

namespace TcpManager

/-- Every pointer in a table or an accept queue is one of the manager's sockets. -/
structure Bounded (m : TcpManager) : Prop where
  listener : ∀ {p i}, m.listenersByPort.lookup p = some i → i < m.allSockets.length
  pending : ∀ {k i}, m.synPendingByKey.lookup k = some i → i < m.allSockets.length
  established : ∀ {k i}, m.establishedByKey.lookup k = some i → i < m.allSockets.length
  queued : ∀ {i c}, c ∈ (m.sock i).pendingConnQueue → c < m.allSockets.length

/-- The moves of an operation. -/
inductive Move (m : TcpManager) : Op → TcpManager → Prop
  | quiet {op : Op} : Move m op m
  | socket : Move m .socket m.socket.1
  | bind (i : SockId) (localPort : Int) :
      Move m (.bind i localPort) (m.setSock i ((m.sock i).bind localPort))
  | listen {i : SockId} {backlog : Int} (hst : (m.sock i).state = .CLOSED) :
      Move m (.listen i backlog)
        (({ m with listenersByPort := m.listenersByPort.insert (m.sock i).localPort i } :
          TcpManager).setSock i { m.sock i with state := .LISTEN, backlog := backlog })
  | acceptClosed {i conn : SockId} {rest : List SockId} (hst : (m.sock i).state = .LISTEN)
      (hq : (m.sock i).pendingConnQueue = conn :: rest) (hc : (m.sock conn).state = .CLOSED) :
      Move m (.accept i) (m.setSock i { m.sock i with pendingConnQueue := rest })
  | accept {i conn : SockId} {rest : List SockId} (hst : (m.sock i).state = .LISTEN)
      (hq : (m.sock i).pendingConnQueue = conn :: rest) (hc : (m.sock conn).state ≠ .CLOSED) :
      Move m (.accept i)
        ((m.setSock i { m.sock i with pendingConnQueue := rest }).setSock conn
          { (m.setSock i { m.sock i with pendingConnQueue := rest }).sock conn with
            state := .ESTABLISHED })
  | address {i : SockId} {destAddr destPort : Int}
      (hguard : ¬ Rejected (m.sock i) destPort)
      (hs : ¬ Sendable m.addr destAddr (m.sock i).localPort destPort) :
      Move m (.connect i destAddr destPort)
        (m.setSock i (addressed (m.sock i) destAddr destPort))
  | connect {i : SockId} {destAddr destPort : Int}
      (hguard : ¬ Rejected (m.sock i) destPort)
      (hs : Sendable m.addr destAddr (m.sock i).localPort destPort) :
      Move m (.connect i destAddr destPort)
        (({ m with synPendingByKey :=
            m.synPendingByKey.insert ⟨destAddr, destPort, (m.sock i).localPort⟩ i } :
              TcpManager).setSock i
          { addressed (m.sock i) destAddr destPort with state := .SYN_SENT })
  | close {i : SockId} (hst : (m.sock i).state = .LISTEN ∨ (m.sock i).state = .SYN_SENT) :
      Move m (.close i) (m.setSock i (m.sock i).markClosed)
  | shutdown {i : SockId} (hst : (m.sock i).state = .ESTABLISHED) :
      Move m (.close i) (m.setSock i { m.sock i with state := .SHUTDOWN })
  | endStream {i : SockId} {buf : Bool} {pos len : Int} {s : TcpSocket}
      (hends : (m.sock i).EndsStream buf pos len) (hs : SameConn (m.sock i).markClosed s) :
      Move m (.read i buf pos len) (m.setSock i s)
  | release {i : SockId} (hst : (m.sock i).state ≠ .CLOSED) :
      Move m (.release i) ((m.unregisterSocket i).setSock i (released (m.sock i)))
  | releaseOnClose {i : SockId} {s : TcpSocket} (hst : (m.sock i).state = .ESTABLISHED)
      (hsend : ¬ Sendable m.addr (m.sock i).remoteAddr (m.sock i).localPort (m.sock i).remotePort)
      (hs : SameConn (released (m.sock i)) s) :
      Move m (.close i) ((m.unregisterSocket i).setSock i s)
  | releaseOnAck {now srcAddr : Int} {ack : Transport} {i : SockId} {s : TcpSocket}
      (hty : ack.type = .ACK) (hest : m.establishedByKey.lookup (segKey srcAddr ack) = some i)
      (hst : (m.sock i).state = .SHUTDOWN)
      (hsend : ¬ Sendable m.addr (m.sock i).remoteAddr (m.sock i).localPort (m.sock i).remotePort)
      (hs : SameConn (released (m.sock i)) s) :
      Move m (.receive now srcAddr ack) ((m.unregisterSocket i).setSock i s)
  | spawn {now srcAddr : Int} {syn : Transport} {listener : SockId} (hty : syn.type = .SYN)
      (hl : m.listenersByPort.lookup syn.destPort = some listener) :
      Move m (.receive now srcAddr syn) (m.admitted listener srcAddr syn)
  | establish {now srcAddr : Int} {ack : Transport} {i : SockId} (hty : ack.type = .ACK)
      (hpend : m.synPendingByKey.lookup (segKey srcAddr ack) = some i)
      (hseq : ack.seqNum = (m.sock i).synSeq + 1) :
      Move m (.receive now srcAddr ack)
        (({ m with
            synPendingByKey := m.synPendingByKey.erase (segKey srcAddr ack)
            establishedByKey :=
              m.establishedByKey.insert ⟨srcAddr, ack.srcPort, (m.sock i).localPort⟩ i } :
                TcpManager).setSock i ((m.sock i).setRwnd ack.window).markEstablished)
  | finAcked {now srcAddr : Int} {ack : Transport} {i : SockId} (hty : ack.type = .ACK)
      (hpend : m.synPendingByKey.lookup (segKey srcAddr ack) = none)
      (hest : m.establishedByKey.lookup (segKey srcAddr ack) = some i)
      (hst : (m.sock i).state = .SHUTDOWN) :
      Move m (.receive now srcAddr ack)
        (({ m with establishedByKey := m.establishedByKey.erase (segKey srcAddr ack) } :
          TcpManager).setSock i (m.sock i).markClosed)
  | peerFin {now srcAddr : Int} {fin : Transport} {i : SockId} (hty : fin.type = .FIN)
      (hest : m.establishedByKey.lookup (segKey srcAddr fin) = some i) :
      Move m (.receive now srcAddr fin) (m.setSock i (m.sock i).markPeerFinReceived)
  | refused {now srcAddr : Int} {fin : Transport} {i : SockId} (hty : fin.type = .FIN)
      (hest : m.establishedByKey.lookup (segKey srcAddr fin) = none)
      (hpend : m.synPendingByKey.lookup (segKey srcAddr fin) = some i) :
      Move m (.receive now srcAddr fin)
        (({ m with synPendingByKey := m.synPendingByKey.erase (segKey srcAddr fin) } :
          TcpManager).setSock i (m.sock i).markClosed)

variable (m : TcpManager)

/-! ### The inversion -/

/-- `maybeSendFinOnDrain` after a change of socket `i` alone that keeps its addresses. -/
theorem maybeSendFin_after {i : SockId} (hi : i < m.allSockets.length) (s : TcpSocket)
    (hs : SameConn (released (m.sock i)) (released s)) :
    Quiet (m.setSock i s) ((m.setSock i s).maybeSendFinOnDrain i) ∨
      s.state = .SHUTDOWN ∧ ¬ Sendable m.addr s.remoteAddr s.localPort s.remotePort ∧
        ∃ s', SameConn (released (m.sock i)) s' ∧
          (m.setSock i s).maybeSendFinOnDrain i = (m.unregisterSocket i).setSock i s' := by
  obtain h | ⟨hst, hsend, h⟩ := (m.setSock i s).maybeSendFin_cases (by simpa using hi)
  · exact .inl h
  · rw [sock_setSock_self m hi] at hst hsend h
    refine .inr ⟨hst, hsend, released (finQueued s), hs.trans ⟨rfl, rfl, rfl, rfl, rfl, rfl, rfl⟩, ?_⟩
    rw [h]
    simp [unregisterSocket, setSock, List.set_set]

theorem close_move {i : SockId} (hi : i < m.allSockets.length) :
    ∃ m₁, Move m (.close i) m₁ ∧ Quiet m₁ (m.close i) := by
  unfold close
  cases hst : (m.sock i).state with
  | CLOSED => exact ⟨m, .quiet, .refl m⟩
  | LISTEN => exact ⟨_, .close (.inl hst), .refl _⟩
  | SYN_SENT => exact ⟨_, .close (.inr hst), .refl _⟩
  | SHUTDOWN => exact ⟨m, .quiet, .refl m⟩
  | ESTABLISHED =>
      rcases m.maybeSendFin_after hi { m.sock i with state := .SHUTDOWN }
        ⟨rfl, rfl, rfl, rfl, rfl, rfl, rfl⟩ with h | ⟨_, hsend, s', hs', h⟩
      · exact ⟨_, .shutdown hst, h⟩
      · exact ⟨_, .releaseOnClose hst hsend hs', by rw [h]; exact .refl _⟩

theorem accept_move (i : SockId) : ∃ m₁, Move m (.accept i) m₁ ∧ Quiet m₁ (m.accept i).1 := by
  obtain e | ⟨conn, rest, hst, hq, ⟨hc, e⟩ | ⟨hc, e⟩⟩ := m.accept_effect i
  · exact ⟨m, .quiet, by rw [e]; exact .refl m⟩
  · exact ⟨_, .acceptClosed hst hq hc, by rw [e]; exact .refl _⟩
  · exact ⟨_, .accept hst hq hc, by rw [e]; exact .refl _⟩

theorem connect_move {i : SockId} (hi : i < m.allSockets.length) (destAddr destPort : Int) :
    ∃ m₁, Move m (.connect i destAddr destPort) m₁ ∧ Quiet m₁ (m.connect i destAddr destPort).1 := by
  by_cases hguard : Rejected (m.sock i) destPort
  · refine ⟨m, .quiet, ?_⟩
    rw [m.connect_rejected destAddr hguard]
    exact .refl m
  · by_cases hs : Sendable m.addr destAddr (m.sock i).localPort destPort
    · obtain ⟨p, _, h⟩ := m.connect_ok hi hguard hs
      exact ⟨_, .connect hguard hs, by rw [h]; exact .emit _ _⟩
    · exact ⟨_, .address hguard hs, by rw [m.connect_fails hi hguard hs]; exact .refl _⟩

theorem onSyn_move (h : m.Bounded) (now srcAddr : Int) {syn : Transport} (hty : syn.type = .SYN) :
    ∃ m₁, Move m (.receive now srcAddr syn) m₁ ∧ Quiet m₁ (m.onSyn srcAddr syn) := by
  cases hl : m.listenersByPort.lookup syn.destPort with
  | none =>
      obtain ⟨out, e, _⟩ := m.onSyn_refused srcAddr hl
      exact ⟨m, .quiet, by rw [e]; exact .emit m out⟩
  | some listener =>
      refine ⟨_, .spawn hty hl, ?_⟩
      rw [m.onSyn_admits hl (h.listener hl)]
      exact sendAck_quiet _ _ _ _ _ _

theorem onAck_move (h : m.Bounded) (now srcAddr : Int) {ack : Transport} (hty : ack.type = .ACK) :
    ∃ m₁, Move m (.receive now srcAddr ack) m₁ ∧ Quiet m₁ (m.onAck now srcAddr ack) := by
  cases hpend : m.synPendingByKey.lookup (segKey srcAddr ack) with
  | some i =>
      have e : m.onAck now srcAddr ack = m.onAckPending srcAddr ack (segKey srcAddr ack) i := by
        simp only [segKey] at hpend
        simp only [onAck, hpend, segKey]
      by_cases hseq : ack.seqNum = (m.sock i).synSeq + 1
      · refine ⟨_, .establish hty hpend hseq, ?_⟩
        rw [e, m.onAckPending_completes (h.pending hpend) srcAddr _ hseq]
        exact .refl _
      · refine ⟨m, .quiet, ?_⟩
        rw [e, onAckPending, if_neg hseq]
        exact .refl m
  | none =>
      cases hest : m.establishedByKey.lookup (segKey srcAddr ack) with
      | none =>
          have e : m.onAck now srcAddr ack = m := by
            simp only [segKey] at hpend hest
            simp only [onAck, hpend, hest]
          exact ⟨m, .quiet, by rw [e]; exact .refl m⟩
      | some i =>
          have hi := h.established hest
          have e : m.onAck now srcAddr ack =
              m.onAckEstablished now ack (segKey srcAddr ack) i := by
            simp only [segKey] at hpend hest
            simp only [onAck, hpend, hest, segKey]
          rw [e]
          rcases m.onAckEstablished_effect now ack (segKey srcAddr ack) hi with
            e | ⟨hst, _, _, e⟩ | ⟨hst, _, ⟨_, e⟩ | ⟨_, e⟩⟩
          · exact ⟨m, .quiet, by rw [e]; exact .refl m⟩
          · exact ⟨_, .finAcked hty hpend hest hst, by rw [e]; exact .refl _⟩
          · exact ⟨m, .quiet, by rw [e]; exact .setSock m (sameConn_setRwnd _ _)⟩
          · -- the window and the queue are quiet; the FIN may fail
            have hadv : SameConn (m.sock i)
                (advanced ((m.sock i).setRwnd ack.window) now ack.seqNum) :=
              (sameConn_setRwnd _ _).trans (sameConn_advanced _ _ _)
            have hq := Quiet.setSock m hadv
            rcases m.maybeSendFin_after hi
              (advanced ((m.sock i).setRwnd ack.window) now ack.seqNum)
              ⟨rfl, rfl, rfl, rfl, rfl, rfl, hadv.synSeq⟩ with hf | ⟨hst', hsend, s', hs', hf⟩
            · exact ⟨m, .quiet, by rw [e]; exact hq.trans hf⟩
            · rw [hadv.state] at hst'
              rw [hadv.remoteAddr, hadv.localPort, hadv.remotePort] at hsend
              exact ⟨_, .releaseOnAck hty hest hst' hsend hs', by rw [e, hf]; exact .refl _⟩

theorem onFin_move (now srcAddr : Int) {fin : Transport} (hty : fin.type = .FIN) :
    ∃ m₁, Move m (.receive now srcAddr fin) m₁ ∧ Quiet m₁ (m.onFin srcAddr fin) := by
  cases hest : m.establishedByKey.lookup (segKey srcAddr fin) with
  | some i =>
      refine ⟨_, .peerFin hty hest, ?_⟩
      simp only [segKey] at hest
      simp only [onFin, hest]
      exact sendAck_quiet _ _ _ _ _ _
  | none =>
      cases hpend : m.synPendingByKey.lookup (segKey srcAddr fin) with
      | some i =>
          refine ⟨_, .refused hty hest hpend, ?_⟩
          simp only [segKey] at hest hpend
          simp only [onFin, hest, hpend]
          exact .refl _
      | none =>
          refine ⟨m, .quiet, ?_⟩
          simp only [segKey] at hest hpend
          simp only [onFin, hest, hpend]
          exact .refl m

/-- **Inversion.** A valid operation is one of its moves, up to a quiet change. -/
theorem exec_move (h : m.Bounded) {op : Op} (hv : m.Valid op) :
    ∃ m₁, Move m op m₁ ∧ Quiet m₁ (m.exec op) := by
  cases op with
  | socket => exact ⟨_, .socket, .refl _⟩
  | bind i localPort => exact ⟨_, .bind i localPort, .refl _⟩
  | listen i backlog =>
      by_cases hst : (m.sock i).state = .CLOSED
      · refine ⟨_, .listen hst, ?_⟩
        simp only [exec, listen, hst]
        exact .refl _
      · refine ⟨m, .quiet, ?_⟩
        simp only [exec, listen, if_pos hst]
        exact .refl m
  | accept i => exact m.accept_move i
  | connect i destAddr destPort => exact m.connect_move (hv i rfl) destAddr destPort
  | close i => exact m.close_move (hv i rfl)
  | release i =>
      by_cases hst : (m.sock i).state = .CLOSED
      · exact ⟨m, .quiet, by simp only [exec, m.release_of_closed hst]; exact .refl m⟩
      · exact ⟨_, .release hst, by simp only [exec, m.release_of_not_closed hst]; exact .refl _⟩
  | write now i buf pos len => exact ⟨m, .quiet, m.write_quiet now buf pos len (hv i rfl)⟩
  | read i buf pos len =>
      obtain hq | ⟨hends, s, hs, e⟩ := m.read_cases i buf pos len
      · exact ⟨m, .quiet, hq⟩
      · exact ⟨_, .endStream hends hs, by simp only [exec, e]; exact .refl _⟩
  | receive now srcAddr t =>
      simp only [exec, receiveTransport]
      cases hty : t.type with
      | SYN => exact m.onSyn_move h now srcAddr hty
      | ACK => exact m.onAck_move h now srcAddr hty
      | FIN => exact m.onFin_move now srcAddr hty
      | DATA => exact ⟨m, .quiet, m.onData_quiet srcAddr t⟩
  | tick now => exact ⟨m, .quiet, m.tick_quiet now⟩

/-! ### Pointers stay in range -/

namespace Bounded

variable {m}

theorem new (addr : Int) : (TcpManager.new addr).Bounded := by
  refine ⟨?_, ?_, ?_, ?_⟩
  · intro p i h
    cases h
  · intro k i h
    cases h
  · intro k i h
    cases h
  · intro i c h
    rw [sock_of_length_le _ (Nat.zero_le i)] at h
    cases h

theorem quiet {m' : TcpManager} (h : m.Bounded) (q : Quiet m m') : m'.Bounded := by
  refine ⟨?_, ?_, ?_, ?_⟩
  · intro p i hp
    rw [q.listenersByPort] at hp
    rw [q.length]
    exact h.listener hp
  · intro k i hk
    rw [q.synPendingByKey] at hk
    rw [q.length]
    exact h.pending hk
  · intro k i hk
    rw [q.establishedByKey] at hk
    rw [q.length]
    exact h.established hk
  · intro i c hc
    rw [(q.sock i).pendingConnQueue] at hc
    rw [q.length]
    exact h.queued hc

theorem setSock (h : m.Bounded) {i : SockId} {s : TcpSocket}
    (hs : ∀ c ∈ s.pendingConnQueue, c < m.allSockets.length) : (m.setSock i s).Bounded := by
  refine ⟨?_, ?_, ?_, ?_⟩
  · intro p j hp
    simpa using h.listener hp
  · intro k j hk
    simpa using h.pending hk
  · intro k j hk
    simpa using h.established hk
  · intro j c hc
    rw [setSock_length]
    obtain e | ⟨rfl, e⟩ := m.sock_setSock_cases i s j
    · rw [e] at hc
      exact h.queued hc
    · rw [e] at hc
      exact hs c hc

theorem insertListener (h : m.Bounded) {i : SockId} (hi : i < m.allSockets.length) (p : Int) :
    ({ m with listenersByPort := m.listenersByPort.insert p i } : TcpManager).Bounded :=
  { h with
    listener := fun hk => by
      obtain ⟨_, rfl⟩ | ⟨_, hk⟩ := Table.lookup_insert_some _ hk
      · exact hi
      · exact h.listener hk }

theorem insertPending (h : m.Bounded) {i : SockId} (hi : i < m.allSockets.length) (k : ConnKey) :
    ({ m with synPendingByKey := m.synPendingByKey.insert k i } : TcpManager).Bounded :=
  { h with
    pending := fun hk => by
      obtain ⟨_, rfl⟩ | ⟨_, hk⟩ := Table.lookup_insert_some _ hk
      · exact hi
      · exact h.pending hk }

theorem insertEstablished (h : m.Bounded) {i : SockId} (hi : i < m.allSockets.length)
    (k : ConnKey) :
    ({ m with establishedByKey := m.establishedByKey.insert k i } : TcpManager).Bounded :=
  { h with
    established := fun hk => by
      obtain ⟨_, rfl⟩ | ⟨_, hk⟩ := Table.lookup_insert_some _ hk
      · exact hi
      · exact h.established hk }

theorem erasePending (h : m.Bounded) (k : ConnKey) :
    ({ m with synPendingByKey := m.synPendingByKey.erase k } : TcpManager).Bounded :=
  { h with pending := fun hk => h.pending (Table.lookup_erase_some _ hk).2 }

theorem eraseEstablished (h : m.Bounded) (k : ConnKey) :
    ({ m with establishedByKey := m.establishedByKey.erase k } : TcpManager).Bounded :=
  { h with established := fun hk => h.established (Table.lookup_erase_some _ hk).2 }

theorem unregisterSocket (h : m.Bounded) (i : SockId) : (m.unregisterSocket i).Bounded :=
  { h with
    listener := fun hk => h.listener ((Table.lookup_eraseValue_eq_some _).mp hk).1
    pending := fun hk => h.pending ((Table.lookup_eraseValue_eq_some _).mp hk).1
    established := fun hk => h.established ((Table.lookup_eraseValue_eq_some _).mp hk).1 }

theorem admitted (h : m.Bounded) {listener : SockId} (hl : listener < m.allSockets.length)
    (srcAddr : Int) (syn : Transport) : (m.admitted listener srcAddr syn).Bounded := by
  refine ⟨?_, ?_, ?_, ?_⟩
  · intro p i hp
    rw [admitted_length]
    exact Nat.lt_succ_of_lt (h.listener hp)
  · intro k i hk
    rw [admitted_length]
    exact Nat.lt_succ_of_lt (h.pending hk)
  · intro k i hk
    rw [admitted_length]
    obtain ⟨_, rfl⟩ | ⟨_, hk⟩ := Table.lookup_insert_some _ hk
    · exact Nat.lt_succ_self _
    · exact Nat.lt_succ_of_lt (h.established hk)
  · intro i c hc
    rw [admitted_length]
    by_cases hi : i = listener
    · subst hi
      rw [admitted_sock_listener m hl, TcpSocket.enqueueAccepted] at hc
      split_ifs at hc
      · obtain hc | hc := List.mem_append.mp hc
        · exact Nat.lt_succ_of_lt (h.queued hc)
        · rw [List.mem_singleton.mp hc]
          exact Nat.lt_succ_self _
      · exact Nat.lt_succ_of_lt (h.queued hc)
    · by_cases hlen : i = m.allSockets.length
      · subst hlen
        rw [admitted_sock_child] at hc
        cases hc
      · rw [admitted_sock_ne m hi hlen] at hc
        exact Nat.lt_succ_of_lt (h.queued hc)

theorem move {op : Op} {m₁ : TcpManager} (h : m.Bounded) (hv : m.Valid op) (hm : Move m op m₁) :
    m₁.Bounded := by
  cases hm with
  | quiet => exact h
  | socket =>
      have hlen : m.socket.1.allSockets.length = m.allSockets.length + 1 := by simp [socket]
      refine ⟨?_, ?_, ?_, ?_⟩
      · intro p i hp
        rw [hlen]
        exact Nat.lt_succ_of_lt (h.listener hp)
      · intro k i hk
        rw [hlen]
        exact Nat.lt_succ_of_lt (h.pending hk)
      · intro k i hk
        rw [hlen]
        exact Nat.lt_succ_of_lt (h.established hk)
      · intro i c hc
        rw [sock_socket] at hc
        rw [hlen]
        exact Nat.lt_succ_of_lt (h.queued hc)
  | bind i localPort => exact h.setSock fun c hc => h.queued hc
  | listen hst => exact (h.insertListener (hv _ rfl) _).setSock fun c hc => h.queued hc
  | acceptClosed hst hq hc =>
      exact h.setSock fun c hc => h.queued (by rw [hq]; exact List.mem_cons_of_mem _ hc)
  | @accept i conn rest hst hq hc =>
      have h' : (m.setSock i { m.sock i with pendingConnQueue := rest }).Bounded :=
        h.setSock fun c hc => h.queued (by rw [hq]; exact List.mem_cons_of_mem _ hc)
      exact h'.setSock fun c hc => h'.queued hc
  | address hguard hs => exact h.setSock fun c hc => h.queued hc
  | connect hguard hs => exact (h.insertPending (hv _ rfl) _).setSock fun c hc => h.queued hc
  | close hst => exact h.setSock fun c hc => h.queued hc
  | shutdown hst => exact h.setSock fun c hc => h.queued hc
  | endStream hends hs =>
      refine h.setSock fun c hc => ?_
      rw [hs.pendingConnQueue] at hc
      exact h.queued hc
  | release hst => exact (h.unregisterSocket _).setSock fun c hc => by cases hc
  | releaseOnClose hst hsend hs =>
      refine (h.unregisterSocket _).setSock fun c hc => ?_
      rw [hs.pendingConnQueue] at hc
      cases hc
  | releaseOnAck hty hest hst hsend hs =>
      refine (h.unregisterSocket _).setSock fun c hc => ?_
      rw [hs.pendingConnQueue] at hc
      cases hc
  | spawn hty hl => exact h.admitted (h.listener hl) _ _
  | establish hty hpend hseq =>
      refine ((h.erasePending _).insertEstablished (h.pending hpend) _).setSock fun c hc => ?_
      rw [TcpSocket.markEstablished_pendingConnQueue] at hc
      exact h.queued hc
  | finAcked hty hpend hest hst => exact (h.eraseEstablished _).setSock fun c hc => h.queued hc
  | peerFin hty hest => exact h.setSock fun c hc => h.queued hc
  | refused hty hest hpend => exact (h.erasePending _).setSock fun c hc => h.queued hc

theorem step (h : m.Bounded) (op : Op) : (m.step op).Bounded := by
  refine m.step_induction h fun hv => ?_
  obtain ⟨m₁, hm, hq⟩ := m.exec_move h hv
  exact (h.move hv hm).quiet hq

end Bounded

theorem bounded_run (addr : Int) (ops : List Op) : (run step (new addr) ops).Bounded :=
  run_induction (fun _ op h => h.step op) (Bounded.new addr) ops

end TcpManager

end NetBridge
