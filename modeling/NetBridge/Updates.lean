import Mathlib.Logic.Relation
import NetBridge.Moves

/-! # What one operation can do to a socket

`Update s s'` lists the changes that the code makes to a single socket, each with the condition
under which it makes them.  Every operation other than the two that open a socket (`connect` and
`listen`) only performs such updates on the sockets that exist (`step_updates`), and a socket it
adds is new or freshly accepted (`step_newcomer`).  The invariants of a socket's own fields are
proved by cases on `Update`. -/

namespace NetBridge

open TcpManager (written timedOut stored advanced finQueued released)

/-- The updates of a socket. -/
inductive Update (s : TcpSocket) : TcpSocket → Prop
  | bind (localPort : Int) : Update s (s.bind localPort)
  | queue (q : List SockId) : Update s { s with pendingConnQueue := q }
  | accept (hst : s.state ≠ .CLOSED) : Update s { s with state := .ESTABLISHED }
  | close : Update s s.markClosed
  | shutdown (hst : s.state = .ESTABLISHED) : Update s { s with state := .SHUTDOWN }
  | fin (hst : s.state = .SHUTDOWN) (hfin : s.finSeq < 0) (hout : s.outstanding = []) :
      Update s (finQueued s)
  | release : Update s (released s)
  | write (now : Int) (buf : Buf) {pos : Int} (n : ℕ) (hst : s.state = .ESTABLISHED)
      (hpos : 0 ≤ pos) : Update s (written s now buf pos n)
  | take {len : Int} (hst : s.Live) (hlen : 0 < len) (hused : s.recvBufUsed ≠ 0) :
      Update s (s.taken (min len s.recvBufUsed))
  | window (v : Int) (hst : s.Live) : Update s (s.setRwnd v)
  | establish (v : Int) (hst : s.state = .SYN_SENT ∨ s.state = .CLOSED) :
      Update s (s.setRwnd v).markEstablished
  | advance (now : Int) {ackNum : Int} (hst : s.Live) (hlt : s.sndUna < ackNum)
      (hle : ackNum ≤ s.sndNxt) : Update s (advanced s now ackNum)
  | store {payload : List UInt8} (hst : s.Live) (hne : payload ≠ [])
      (hroom : (payload.length : Int) ≤ s.getRecvBufAvailable) : Update s (stored s payload)
  | peerFin : Update s s.markPeerFinReceived
  | timeout (now : Int) (hout : s.outstanding ≠ []) : Update s (timedOut s now)

/-- What every update keeps, a series of updates keeps. -/
theorem Update.induction {P : TcpSocket → Prop} (hP : ∀ s s', Update s s' → P s → P s')
    {s s' : TcpSocket} (h : Relation.ReflTransGen Update s s') (hs : P s) : P s' := by
  induction h with
  | refl => exact hs
  | tail _ hstep ih => exact hP _ _ hstep ih

/-- The sockets of `m` have been updated to those of `m'`. -/
def Updates (m m' : TcpManager) : Prop :=
  ∀ j, j < m.allSockets.length → Relation.ReflTransGen Update (m.sock j) (m'.sock j)

namespace Updates

theorem refl (m : TcpManager) : Updates m m := fun _ _ => .refl

theorem emit (m : TcpManager) (out : List Sent) : Updates m (m.emit out) := fun _ _ => .refl

theorem setSock (m : TcpManager) {i : SockId} {s : TcpSocket}
    (h : Relation.ReflTransGen Update (m.sock i) s) : Updates m (m.setSock i s) := by
  intro j hj
  by_cases hji : j = i
  · subst hji
    rw [m.sock_setSock_self hj]
    exact h
  · rw [m.sock_setSock_ne hji]

theorem update (m : TcpManager) {i : SockId} {s : TcpSocket} (h : Update (m.sock i) s) :
    Updates m (m.setSock i s) := setSock m (.single h)

theorem trans {m₁ m₂ m₃ : TcpManager} (h₁ : Updates m₁ m₂) (h₂ : Updates m₂ m₃)
    (hlen : m₁.allSockets.length ≤ m₂.allSockets.length) : Updates m₁ m₃ :=
  fun j hj => (h₁ j hj).trans (h₂ j (Nat.lt_of_lt_of_le hj hlen))

end Updates

namespace TcpManager

variable (m : TcpManager)

/-- A socket whose SYN is pending has sent it, or has been closed since. -/
def PendingWaits : Prop :=
  ∀ k i, m.synPendingByKey.lookup k = some i →
    (m.sock i).state = .SYN_SENT ∨ (m.sock i).state = .CLOSED

/-! ### The application calls -/

theorem write_updates (now : Int) {i : SockId} (buf : Buf) (pos len : Int)
    (hi : i < m.allSockets.length) : Updates m (m.write now i buf pos len).1 := by
  obtain h | ⟨hst, hpos, n, out, _, h⟩ := m.write_effect now buf pos len hi
  · rw [h]
    exact .refl m
  · rw [h]
    exact .update m (.write now buf n hst hpos)

theorem read_updates (i : SockId) (buf : Bool) (pos len : Int) :
    Updates m (m.read i buf pos len).1 := by
  have hread : (m.read i buf pos len).1 = m.setSock i ((m.sock i).read buf pos len).1 := rfl
  rw [hread]
  refine .setSock m ?_
  rcases (m.sock i).read_effect buf pos len with
    ⟨_, _, e⟩ | ⟨hlive, hlen, hused, e⟩ | ⟨hends, hlen, e⟩
  · rw [e]
  · rw [e]
    exact .single (.take hlive hlen hused)
  · rw [e]
    by_cases hused : (m.sock i).recvBufUsed = 0
    · rw [hused, TcpSocket.taken_zero]
      exact .single .close
    · have htake := Update.take hends.1 (hlen.resolve_left hused) hused
      rw [min_eq_right hends.2.2.2.2.2] at htake
      exact .tail (.single htake) .close

theorem maybeSendFin_updates {i : SockId} (hi : i < m.allSockets.length) :
    Updates m (m.maybeSendFinOnDrain i) := by
  obtain ⟨_, h⟩ | ⟨hst, hfin, hout, ⟨p, _, h⟩ | ⟨_, h⟩⟩ := m.maybeSendFin_effect hi
  · rw [h]
    exact .refl m
  · rw [h]
    exact .update m (.fin hst hfin hout)
  · rw [h]
    refine .trans (.setSock m (.tail (.single (.fin hst hfin hout)) .release)) ?_ (by simp)
    exact .refl _

theorem close_updates {i : SockId} (hi : i < m.allSockets.length) : Updates m (m.close i) := by
  unfold close
  cases hst : (m.sock i).state with
  | CLOSED => exact .refl m
  | LISTEN => exact .update m .close
  | SYN_SENT => exact .update m .close
  | SHUTDOWN => exact .refl m
  | ESTABLISHED =>
      refine .trans (.update m (.shutdown hst)) (maybeSendFin_updates _ ?_) (by simp)
      simpa using hi

theorem accept_updates (i : SockId) : Updates m (m.accept i).1 := by
  obtain e | ⟨conn, rest, hst, hq, ⟨hc, e⟩ | ⟨hc, e⟩⟩ := m.accept_effect i
  · rw [e]
    exact .refl m
  · rw [e]
    exact .update m (.queue rest)
  · rw [e]
    refine .trans (.update m (.queue rest)) (.update _ (.accept ?_)) (by simp)
    rcases m.sock_setSock_cases i { m.sock i with pendingConnQueue := rest } conn with
      e | ⟨rfl, e⟩
    · rw [e]
      exact hc
    · rw [e]
      exact hc

theorem release_updates (i : SockId) : Updates m (m.release i) := by
  by_cases hst : (m.sock i).state = .CLOSED
  · rw [m.release_of_closed hst]
    exact .refl m
  · rw [m.release_of_not_closed hst]
    exact .trans (.update m .release) (.refl _) (by simp)

/-! ### Incoming segments -/

theorem sendAck_updates (srcPort destAddr destPort ackNum window : Int) :
    Updates m (m.sendAck srcPort destAddr destPort ackNum window).1 := by
  obtain ⟨out, h, _⟩ := m.sendAck_cases srcPort destAddr destPort ackNum window
  rw [h]
  exact .emit m out

theorem onSyn_updates (h : m.Bounded) (srcAddr : Int) (syn : Transport) :
    Updates m (m.onSyn srcAddr syn) := by
  cases hl : m.listenersByPort.lookup syn.destPort with
  | none =>
      obtain ⟨out, e, _⟩ := m.onSyn_refused srcAddr hl
      rw [e]
      exact .emit m out
  | some listener =>
      rw [m.onSyn_admits hl (h.listener hl)]
      refine .trans ?_ (sendAck_updates _ _ _ _ _ _) (by rw [admitted_length]; omega)
      intro j hj
      by_cases hjl : j = listener
      · subst hjl
        rw [m.admitted_sock_listener hj, TcpSocket.enqueueAccepted]
        split_ifs
        · exact .single (.queue _)
        · exact .refl
      · rw [m.admitted_sock_ne hjl (Nat.ne_of_lt hj)]

theorem onAckEstablished_updates (now : Int) (ack : Transport) (key : ConnKey) {i : SockId}
    (hi : i < m.allSockets.length) : Updates m (m.onAckEstablished now ack key i) := by
  rcases m.onAckEstablished_effect now ack key hi with
    e | ⟨_, _, _, e⟩ | ⟨hst, hle, ⟨_, e⟩ | ⟨hlt, e⟩⟩
  · rw [e]
    exact .refl m
  · rw [e]
    exact .trans (.update m .close) (.refl _) (by simp)
  · rw [e]
    exact .update m (.window _ hst)
  · rw [e]
    refine .trans (.setSock m ?_) (maybeSendFin_updates _ (by simpa using hi)) (by simp)
    exact .tail (.single (.window _ hst)) (.advance now hst hlt hle)

theorem onAck_updates (h : m.Bounded) (now srcAddr : Int) {ack : Transport}
    (hp : ∀ i, m.synPendingByKey.lookup (segKey srcAddr ack) = some i →
      (m.sock i).state = .SYN_SENT ∨ (m.sock i).state = .CLOSED) :
    Updates m (m.onAck now srcAddr ack) := by
  unfold onAck
  simp only
  cases hpend : m.synPendingByKey.lookup ⟨srcAddr, ack.srcPort, ack.destPort⟩ with
  | some i =>
      simp only [onAckPending]
      split_ifs
      · exact .trans (.update m (.establish ack.window (hp i hpend))) (.refl _) (by simp)
      · exact .refl m
  | none =>
      simp only
      cases hest : m.establishedByKey.lookup ⟨srcAddr, ack.srcPort, ack.destPort⟩ with
      | some i => exact m.onAckEstablished_updates now ack _ (h.established hest)
      | none => exact .refl m

theorem onFin_updates (srcAddr : Int) (fin : Transport) : Updates m (m.onFin srcAddr fin) := by
  unfold onFin
  simp only
  cases hest : m.establishedByKey.lookup ⟨srcAddr, fin.srcPort, fin.destPort⟩ with
  | some i => exact .trans (.update m .peerFin) (sendAck_updates _ _ _ _ _ _) (by simp)
  | none =>
      simp only
      cases hpend : m.synPendingByKey.lookup ⟨srcAddr, fin.srcPort, fin.destPort⟩ with
      | some i => exact .trans (.update m .close) (.refl _) (by simp)
      | none => exact .refl m

theorem onData_updates (srcAddr : Int) (data : Transport) : Updates m (m.onData srcAddr data) := by
  cases hest : m.establishedByKey.lookup ⟨srcAddr, data.srcPort, data.destPort⟩ with
  | none =>
      have e : m.onData srcAddr data = m := by simp only [onData, hest]
      rw [e]
      exact .refl m
  | some i =>
      obtain e | ⟨hst, e | ⟨hne, _, hroom, e⟩⟩ := m.onData_effect hest
      · rw [e]
        exact .refl m
      · rw [e]
        exact m.sendAck_updates _ _ _ _ _
      · rw [e]
        exact .trans (.update m (.store hst hne hroom)) (sendAck_updates _ _ _ _ _ _) (by simp)

/-! ### The timer -/

theorem tick_updates (now : Int) : Updates m (m.retransmissionTick now) := by
  have h : Updates m (m.retransmissionTick now) ∧
      (m.retransmissionTick now).allSockets.length = m.allSockets.length := by
    refine m.tick_induction (I := fun m' => Updates m m' ∧
      m'.allSockets.length = m.allSockets.length) now ?_ ⟨.refl m, rfl⟩
    rintro m' i _ ⟨h, hlen⟩
    obtain e | ⟨hout, out, e, _⟩ := m'.retransmitSocket_effect now i
    · rw [e]
      exact ⟨h, hlen⟩
    · rw [e]
      refine ⟨.trans h ?_ (by omega), by simpa using hlen⟩
      exact .trans (.update m' (.timeout now hout)) (.emit _ out) (by simp)
  exact h.1

/-! ### All operations -/

/-- The calls that open a socket. -/
def Opens : Op → Prop
  | .connect .. | .listen .. => True
  | _ => False

theorem Opens.target {op : Op} (h : Opens op) : ∃ i, op.target = some i := by
  cases op with
  | listen i _ => exact ⟨i, rfl⟩
  | connect i _ _ => exact ⟨i, rfl⟩
  | socket | bind | accept | close | release | write | read | receive | tick => exact h.elim

theorem step_updates (h : m.Bounded) {op : Op} (hop : ¬ Opens op)
    (hp : ∀ now srcAddr ack, op = .receive now srcAddr ack →
      ∀ i, m.synPendingByKey.lookup (segKey srcAddr ack) = some i →
        (m.sock i).state = .SYN_SENT ∨ (m.sock i).state = .CLOSED) : Updates m (m.step op) := by
  refine m.step_induction (.refl m) fun hv => ?_
  cases op with
  | socket =>
      intro j _
      show Relation.ReflTransGen Update (m.sock j) (m.socket.1.sock j)
      rw [sock_socket]
  | bind i localPort => exact .update m (.bind localPort)
  | listen i backlog => exact absurd trivial hop
  | accept i => exact m.accept_updates i
  | connect i destAddr destPort => exact absurd trivial hop
  | close i => exact m.close_updates (hv i rfl)
  | release i => exact m.release_updates i
  | write now i buf pos len => exact m.write_updates now buf pos len (hv i rfl)
  | read i buf pos len => exact m.read_updates i buf pos len
  | receive now srcAddr t =>
      simp only [exec, receiveTransport]
      cases t.type with
      | SYN => exact m.onSyn_updates h srcAddr t
      | ACK => exact m.onAck_updates h now srcAddr (hp now srcAddr t rfl)
      | FIN => exact m.onFin_updates srcAddr t
      | DATA => exact m.onData_updates srcAddr t
  | tick now => exact m.tick_updates now

/-- A call that opens a socket touches no other socket. -/
theorem step_opens_other {op : Op} (hop : Opens op) {i j : SockId} (hi : op.target = some i)
    (hj : j ≠ i) : (m.step op).sock j = m.sock j := by
  refine m.step_induction (I := fun m' => m'.sock j = m.sock j) rfl fun hv => ?_
  cases op with
  | listen k backlog =>
      obtain rfl : k = i := Option.some.inj hi
      simp only [exec, listen]
      split_ifs
      · rfl
      · exact m.sock_setSock_ne hj _
  | connect k destAddr destPort =>
      obtain rfl : k = i := Option.some.inj hi
      have hk := hv k rfl
      by_cases hguard : Rejected (m.sock k) destPort
      · simp only [exec, m.connect_rejected destAddr hguard]
      · by_cases hs : Sendable m.addr destAddr (m.sock k).localPort destPort
        · obtain ⟨p, _, e⟩ := m.connect_ok hk hguard hs
          simp only [exec, e, emit_sock]
          exact sock_setSock_ne _ hj _
        · simp only [exec, m.connect_fails hk hguard hs]
          exact m.sock_setSock_ne hj _
  | socket | bind | accept | close | release | write | read | receive | tick => exact hop.elim

theorem step_opens_self {op : Op} {i : SockId} (hop : Opens op) (hi : op.target = some i) :
    (m.step op).sock i = m.sock i ∨
      (∃ backlog, (m.step op).sock i = { m.sock i with state := .LISTEN, backlog := backlog }) ∨
      ∃ destAddr destPort,
        (m.step op).sock i = addressed (m.sock i) destAddr destPort ∨
        (m.step op).sock i = { addressed (m.sock i) destAddr destPort with state := .SYN_SENT } := by
  refine m.step_induction (I := fun m' => m'.sock i = m.sock i ∨
    (∃ backlog, m'.sock i = { m.sock i with state := .LISTEN, backlog := backlog }) ∨
      ∃ destAddr destPort, m'.sock i = addressed (m.sock i) destAddr destPort ∨
        m'.sock i = { addressed (m.sock i) destAddr destPort with state := .SYN_SENT })
    (.inl rfl) fun hv => ?_
  cases op with
  | listen k backlog =>
      obtain rfl : k = i := Option.some.inj hi
      simp only [exec, listen]
      split_ifs
      · exact .inl rfl
      · exact .inr (.inl ⟨backlog, m.sock_setSock_self (hv k rfl) _⟩)
  | connect k destAddr destPort =>
      obtain rfl : k = i := Option.some.inj hi
      have hk := hv k rfl
      by_cases hguard : Rejected (m.sock k) destPort
      · simp only [exec, m.connect_rejected destAddr hguard]
        exact .inl trivial
      · by_cases hs : Sendable m.addr destAddr (m.sock k).localPort destPort
        · obtain ⟨p, _, e⟩ := m.connect_ok hk hguard hs
          simp only [exec, e, emit_sock]
          exact .inr (.inr ⟨destAddr, destPort, .inr (sock_setSock_self _ hk _)⟩)
        · simp only [exec, m.connect_fails hk hguard hs]
          exact .inr (.inr ⟨destAddr, destPort, .inl (m.sock_setSock_self hk _)⟩)
  | socket | bind | accept | close | release | write | read | receive | tick => exact hop.elim

theorem Move.length {m m₁ : TcpManager} {op : Op} (hm : Move m op m₁) :
    m₁.allSockets.length = m.allSockets.length ∨ op = .socket ∨
      ∃ now srcAddr syn listener, op = .receive now srcAddr syn ∧ syn.type = .SYN ∧
        m.listenersByPort.lookup syn.destPort = some listener := by
  cases hm with
  | socket => exact .inr (.inl rfl)
  | spawn hty hl => exact .inr (.inr ⟨_, _, _, _, rfl, hty, hl⟩)
  | quiet => exact .inl rfl
  | bind | listen | acceptClosed | accept | address | connect | close | shutdown | endStream |
    release | releaseOnClose | releaseOnAck | establish | finAcked | peerFin | refused =>
      refine .inl ?_
      simp [setSock, unregisterSocket]

theorem length_step (h : m.Bounded) {op : Op} (hsocket : op ≠ .socket)
    (hsyn : ∀ now srcAddr t, op = .receive now srcAddr t → t.type ≠ .SYN) :
    (m.step op).allSockets.length = m.allSockets.length := by
  refine m.step_induction (I := fun m' => m'.allSockets.length = m.allSockets.length) rfl
    fun hv => ?_
  obtain ⟨m₁, hm, hq⟩ := m.exec_move h hv
  obtain hlen | hop | ⟨_, _, _, _, hop, hty, _⟩ := hm.length
  · exact hq.length.trans hlen
  · exact absurd hop hsocket
  · exact absurd hty (hsyn _ _ _ hop)

theorem length_le_step (h : m.Bounded) (op : Op) :
    m.allSockets.length ≤ (m.step op).allSockets.length := by
  refine m.step_induction (I := fun m' => m.allSockets.length ≤ m'.allSockets.length) le_rfl
    fun hv => ?_
  obtain ⟨m₁, hm, hq⟩ := m.exec_move h hv
  rw [hq.length]
  cases hm with
  | socket => simp [socket]
  | spawn hty hl =>
      rw [admitted_length]
      exact Nat.le_succ _
  | quiet => exact le_rfl
  | bind | listen | acceptClosed | accept | address | connect | close | shutdown | endStream |
    release | releaseOnClose | releaseOnAck | establish | finAcked | peerFin | refused =>
      simp [setSock, unregisterSocket]

theorem step_newcomer (h : m.Bounded) (op : Op) {j : SockId} (hj : m.allSockets.length ≤ j) :
    (m.step op).sock j = TcpSocket.new ∨
      ∃ localPort remoteAddr remotePort,
        (m.step op).sock j = TcpSocket.new.initAccepted localPort remoteAddr remotePort := by
  have hnew := m.sock_of_length_le hj
  refine m.step_induction (I := fun m' => m'.sock j = TcpSocket.new ∨
    ∃ localPort remoteAddr remotePort,
      m'.sock j = TcpSocket.new.initAccepted localPort remoteAddr remotePort) (.inl hnew) fun hv => ?_
  obtain ⟨m₁, hm, hq⟩ := m.exec_move h hv
  obtain hlen | rfl | ⟨now, srcAddr, syn, listener, rfl, hty, hl⟩ := hm.length
  · left
    exact sock_of_length_le _ (by rw [hq.length, hlen]; exact hj)
  · left
    exact (m.sock_socket j).trans hnew
  · simp only [exec, receiveTransport, hty]
    rw [m.onSyn_admits hl (h.listener hl)]
    obtain ⟨out, e, _⟩ := (m.admitted listener srcAddr syn).sendAck_cases syn.destPort srcAddr
      syn.srcPort (syn.seqNum + 1) TcpSocket.RECV_BUF_CAP
    rw [e, emit_sock]
    by_cases hc : j = m.allSockets.length
    · subst hc
      exact .inr ⟨_, _, _, m.admitted_sock_child listener srcAddr syn⟩
    · left
      refine sock_of_length_le _ ?_
      rw [admitted_length]
      exact Nat.lt_of_le_of_ne hj (Ne.symm hc)

/-- An invariant of all sockets: it holds of the sockets that are added, every update keeps it, and
it holds of a socket that has just been opened. -/
theorem step_sockets {P : TcpSocket → Prop} (hnew : P TcpSocket.new)
    (hchild : ∀ localPort remoteAddr remotePort,
      P (TcpSocket.new.initAccepted localPort remoteAddr remotePort))
    (hupdate : ∀ s s', Update s s' → P s → P s') (h : m.Bounded) (hp : m.PendingWaits) {op : Op}
    (hopens : ∀ i, Opens op → op.target = some i → P ((m.step op).sock i))
    (hm : ∀ j, P (m.sock j)) (j : SockId) : P ((m.step op).sock j) := by
  obtain hlt | hge := Nat.lt_or_ge j m.allSockets.length
  · by_cases hop : Opens op
    · obtain ⟨i, hi⟩ := hop.target
      by_cases hj : j = i
      · subst hj
        exact hopens j hop hi
      · rw [m.step_opens_other hop hi hj]
        exact hm j
    · exact Update.induction hupdate (m.step_updates h hop (fun _ _ _ _ => hp _) j hlt) (hm j)
  · obtain e | ⟨_, _, _, e⟩ := m.step_newcomer h op hge
    · rw [e]
      exact hnew
    · rw [e]
      exact hchild _ _ _

/-- What the calls that open a socket and the acknowledgement of a SYN keep in whatever state the
socket is, besides what every update keeps. -/
structure Robust (P : TcpSocket → Prop) : Prop where
  new : P TcpSocket.new
  child : ∀ localPort remoteAddr remotePort,
    P (TcpSocket.new.initAccepted localPort remoteAddr remotePort)
  update : ∀ s s', Update s s' → P s → P s'
  listen : ∀ s backlog, P s → P { s with state := .LISTEN, backlog := backlog }
  address : ∀ s destAddr destPort, P s → P (addressed s destAddr destPort)
  connect : ∀ s destAddr destPort, P s →
    P { addressed s destAddr destPort with state := .SYN_SENT }
  establish : ∀ s v, P s → P (s.setRwnd v).markEstablished

/-- A robust invariant of the sockets holds however the applications call the manager. -/
theorem Robust.step {P : TcpSocket → Prop} (hP : Robust P) {m : TcpManager} (h : m.Bounded)
    (hm : ∀ j, P (m.sock j)) (op : Op) (j : SockId) : P ((m.step op).sock j) := by
  obtain hlt | hge := Nat.lt_or_ge j m.allSockets.length
  · by_cases hop : Opens op
    · obtain ⟨i, hi⟩ := hop.target
      by_cases hj : j = i
      · subst hj
        obtain e | ⟨_, e⟩ | ⟨_, _, e | e⟩ := m.step_opens_self hop hi
        · rw [e]
          exact hm j
        · rw [e]
          exact hP.listen _ _ (hm j)
        · rw [e]
          exact hP.address _ _ _ (hm j)
        · rw [e]
          exact hP.connect _ _ _ (hm j)
      · rw [m.step_opens_other hop hi hj]
        exact hm j
    · by_cases hwait : ∀ now srcAddr ack, op = .receive now srcAddr ack →
          ∀ i, m.synPendingByKey.lookup (segKey srcAddr ack) = some i →
            (m.sock i).state = .SYN_SENT ∨ (m.sock i).state = .CLOSED
      · exact Update.induction hP.update (m.step_updates h hop hwait j hlt) (hm j)
      · -- a segment for a pending socket that has been opened again: only an ACK looks at it
        simp only [not_forall] at hwait
        obtain ⟨now, srcAddr, t, rfl, i, hpend, _⟩ := hwait
        apply m.step_induction (I := fun m' => P (m'.sock j)) (hm j)
        intro _
        simp only [exec, receiveTransport]
        cases hty : t.type with
        | SYN => exact Update.induction hP.update (m.onSyn_updates h srcAddr t j hlt) (hm j)
        | FIN => exact Update.induction hP.update (m.onFin_updates srcAddr t j hlt) (hm j)
        | DATA => exact Update.induction hP.update (m.onData_updates srcAddr t j hlt) (hm j)
        | ACK =>
            have hpend : m.synPendingByKey.lookup ⟨srcAddr, t.srcPort, t.destPort⟩ = some i := hpend
            simp only [onAck, hpend, onAckPending]
            split_ifs
            · -- the tables change too, but not the sockets
              have hset : P ((m.setSock i ((m.sock i).setRwnd t.window).markEstablished).sock j) := by
                obtain e | ⟨rfl, e⟩ := m.sock_setSock_cases i
                  ((m.sock i).setRwnd t.window).markEstablished j
                · rw [e]
                  exact hm j
                · rw [e]
                  exact hP.establish _ _ (hm j)
              exact hset
            · exact hm j
  · obtain e | ⟨_, _, _, e⟩ := m.step_newcomer h op hge
    · rw [e]
      exact hP.new
    · rw [e]
      exact hP.child _ _ _

theorem Robust.run {P : TcpSocket → Prop} (hP : Robust P) (addr : Int) (ops : List Op)
    (j : SockId) : P ((NetBridge.run TcpManager.step (TcpManager.new addr) ops).sock j) := by
  have h : (NetBridge.run TcpManager.step (TcpManager.new addr) ops).Bounded ∧
      ∀ j, P ((NetBridge.run TcpManager.step (TcpManager.new addr) ops).sock j) := by
    apply run_induction (I := fun m : TcpManager => m.Bounded ∧ ∀ j, P (m.sock j))
    · exact fun m op hI => ⟨hI.1.step op, hP.step hI.1 hI.2 op⟩
    · refine ⟨.new addr, ?_⟩
      intro j
      rw [sock_of_length_le _ (Nat.zero_le j)]
      exact hP.new
  exact h.2 j

end TcpManager

end NetBridge
