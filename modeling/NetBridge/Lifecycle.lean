import NetBridge.Effects
import NetBridge.Sender

/-! # The life of a connection

Seven functions assign `state_` and three send a FIN.  This module keeps, beside a host, what has
happened to its sockets so far (`Life`): which of them are connections, whose peer has sent a FIN,
and on which the application has called `close`.

The state of a connection only moves forward (`Forward`) in every run in which `accept` takes no
connection in `SHUTDOWN`: that call is the one step that goes back.  A FIN is sent exactly when
the application has closed the connection and its data has drained, in every run in which the two
meanings of `SHUTDOWN` (this side has closed, the peer has closed) do not meet: see
`Life.FinAllowed`. -/

namespace NetBridge

open TcpManager (written timedOut stored advanced finQueued released addressed)

/-! ### What has happened so far -/

namespace TcpManager

variable (m : TcpManager)

/-- The socket that an operation makes a connection. -/
def begins : Op → Option SockId
  | .connect i _ _ => some i
  | .receive _ _ t =>
      if t.type = .SYN ∧ (m.listenersByPort.lookup t.destPort).isSome then
        some m.allSockets.length
      else none
  | _ => none

/-- The socket whose peer's FIN this is. -/
def peerFinFor : Op → Option SockId
  | .receive _ srcAddr t =>
      if t.type = .FIN then
        (m.establishedByKey.lookup (segKey srcAddr t)).or
          (m.synPendingByKey.lookup (segKey srcAddr t))
      else none
  | _ => none

/-- The socket that the application closes. -/
def closes : Op → Option SockId
  | .close i => if i < m.allSockets.length then some i else none
  | _ => none

end TcpManager

/-- A host and the history of its sockets. -/
structure Life where
  host : Host
  /-- Made by `onSyn`, or `connect` was called on it. -/
  conns : List SockId
  /-- A FIN of the peer has arrived for it. -/
  finned : List SockId
  /-- `close` was called on it. -/
  closed : List SockId
  /-- `close` was called on it while it was in `ESTABLISHED` or `SHUTDOWN`. -/
  closedLive : List SockId

namespace Life

def new (addr : Int) : Life := ⟨.new addr, [], [], [], []⟩

variable (l : Life)

def sock (j : SockId) : TcpSocket := l.host.man.sock j

def step (op : Op) : Life where
  host := l.host.step op
  conns := (l.host.man.begins op).toList ++ l.conns
  finned := (l.host.man.peerFinFor op).toList ++ l.finned
  closed := (l.host.man.closes op).toList ++ l.closed
  closedLive := (l.host.man.closes op).toList.filter (fun i => (l.sock i).Live) ++ l.closedLive

variable {l} {op : Op} {j : SockId}

theorem mem_step_conns : j ∈ (l.step op).conns ↔ l.host.man.begins op = some j ∨ j ∈ l.conns := by
  simp [step]

theorem mem_step_finned :
    j ∈ (l.step op).finned ↔ l.host.man.peerFinFor op = some j ∨ j ∈ l.finned := by
  simp [step]

theorem mem_step_closed :
    j ∈ (l.step op).closed ↔ l.host.man.closes op = some j ∨ j ∈ l.closed := by
  simp [step]

theorem mem_step_closedLive :
    j ∈ (l.step op).closedLive ↔
      l.host.man.closes op = some j ∧ (l.sock j).Live ∨ j ∈ l.closedLive := by
  simp [step]

end Life

/-! ### Forward moves -/

/-- The changes of state that a connection may make. -/
inductive TcpState.Forward : TcpState → TcpState → Prop
  | same (st : TcpState) : Forward st st
  | established : Forward .SYN_SENT .ESTABLISHED
  | refused : Forward .SYN_SENT .CLOSED
  | shutdown : Forward .ESTABLISHED .SHUTDOWN
  | aborted : Forward .ESTABLISHED .CLOSED
  | closed : Forward .SHUTDOWN .CLOSED

namespace TcpState.Forward

variable {st st' : TcpState}

theorem of_eq (h : st' = st) : Forward st st' := by
  rw [h]
  exact .same st

theorem to_closed (h : st ≠ .LISTEN) : Forward st .CLOSED := by
  cases st with
  | CLOSED => exact .same _
  | LISTEN => exact absurd rfl h
  | SYN_SENT => exact .refused
  | ESTABLISHED => exact .aborted
  | SHUTDOWN => exact .closed

theorem ne_listen (hf : Forward st st') (h : st ≠ .LISTEN) : st' ≠ .LISTEN := by
  cases hf with
  | same => exact h
  | established | refused | shutdown | aborted | closed => decide

/-- There is no way back from the end of a connection. -/
theorem ending (hf : Forward st st') (h : st = .SHUTDOWN ∨ st = .CLOSED) :
    st' = .SHUTDOWN ∨ st' = .CLOSED := by
  cases hf with
  | same => exact h
  | established => rcases h with h | h <;> cases h
  | shutdown => exact .inl rfl
  | refused | aborted | closed => exact .inr rfl

end TcpState.Forward

namespace Host

variable {h : Host} {op : Op} {j : SockId}

/-- A socket in use stays opened. -/
theorem opened_step (hop : h.Allowed op) (hlt : j < h.man.allSockets.length)
    (hj : h.phase j = .opened) : (h.step op).phase j = .opened := by
  by_contra hne
  obtain ⟨hph, _⟩ | ⟨_, rfl⟩ := unopened_cases hne hop
  · exact hph hj
  · exact Nat.lt_irrefl _ hlt

theorem step_receive (h : Host) (now srcAddr : Int) (t : Transport) :
    (h.step (.receive now srcAddr t)).man = h.man.receiveTransport now srcAddr t := by
  exact h.man.step_receive now srcAddr t

theorem length_le_step (hs : h.Sound) (op : Op) :
    h.man.allSockets.length ≤ (h.step op).man.allSockets.length :=
  h.man.length_le_step hs.bounded op

/-- No `accept` takes a connection that is shutting down. -/
def TakesConnected (h : Host) : Op → Prop
  | .accept i => (h.man.sock i).state = .LISTEN →
      ∀ conn ∈ (h.man.sock i).pendingConnQueue.head?, (h.man.sock conn).state ≠ .SHUTDOWN
  | _ => True

instance (h : Host) : ∀ op, Decidable (h.TakesConnected op)
  | .accept i => inferInstanceAs (Decidable ((h.man.sock i).state = .LISTEN →
      ∀ conn ∈ (h.man.sock i).pendingConnQueue.head?, (h.man.sock conn).state ≠ .SHUTDOWN))
  | .socket | .bind .. | .listen .. | .connect .. | .close _ | .release _ | .write .. | .read ..
  | .receive .. | .tick _ => inferInstanceAs (Decidable True)

/-- One operation moves an opened socket that is no listener forward. -/
theorem effect_forward (hs : h.Sound) (hop : h.Allowed op) (htakes : h.TakesConnected op)
    (hlt : j < h.man.allSockets.length) (hph : h.phase j = .opened)
    (hne : (h.man.sock j).state ≠ .LISTEN) {s : TcpSocket} (he : Effect h.man op j s) :
    (h.man.sock j).state.Forward s.state := by
  cases he with
  | same | bind | dequeue | address | write | window | store | timeout => exact .same _
  | enqueue => exact .of_eq (TcpSocket.enqueueAccepted_state _ _)
  -- only an unopened socket is opened, and only a new one is a child
  | listen hst => exact absurd hph hop
  | connect hguard hsend => exact absurd hph hop
  | child hty hl => exact absurd hlt (Nat.lt_irrefl _)
  | @accept i _ _ hst hq hj =>
      have hhead : j ∈ (h.man.sock i).pendingConnQueue.head? := by rw [hq]; rfl
      have hest : (h.man.sock j).state = .ESTABLISHED :=
        (TcpManager.accepted_child hs.fits hst hq hj).2.resolve_right (htakes hst j hhead)
      exact .of_eq hest.symm
  | close | release | shutdownFails | finAcked | advanceFails | refused =>
      exact .to_closed hne
  | shutdown hst =>
      rw [hst]
      exact .shutdown
  | shutdownFin hst =>
      rw [hst]
      exact .shutdown
  | read =>
      obtain ⟨_, _, e⟩ | ⟨_, _, _, e⟩ | ⟨_, _, e⟩ := (h.man.sock j).read_effect _ _ _
      · rw [e]
        exact .same _
      · rw [e]
        exact .same _
      · rw [e]
        exact .to_closed hne
  | @establish _ _ ack _ hty hpend hseq =>
      rw [TcpSocket.markEstablished_state]
      obtain hst | hst := ((hs.fits j).pending _ hpend).2
      · rw [if_neg (by show ¬ (h.man.sock j).state = .CLOSED; rw [hst]; decide), hst]
        exact .established
      · rw [if_pos (by exact hst), hst]
        exact .same _
  | advance hty hpend hest hst hlt' hle hadv hwait =>
      rw [hadv, (sameConn_advanced _ _ _).state]
      exact .same _
  | advanceFin hty hpend hest hlt' hle hadv hst hfin hout =>
      show (h.man.sock j).state.Forward (TcpSocket.state _)
      rw [hadv, finQueued, (sameConn_advanced _ _ _).state]
      exact .same _
  | peerFin hty hest =>
      show (h.man.sock j).state.Forward (if (h.man.sock j).state = .ESTABLISHED then .SHUTDOWN
        else (h.man.sock j).state)
      split_ifs with hst
      · rw [hst]
        exact .shutdown
      · exact .same _

theorem peerFin_ends (hs : h.Sound) (hj : h.man.peerFinFor op = some j) :
    ((h.step op).man.sock j).state = .SHUTDOWN ∨ ((h.step op).man.sock j).state = .CLOSED := by
  cases op with
  | receive now srcAddr fin =>
      simp only [TcpManager.peerFinFor] at hj
      split_ifs at hj with hty
      have hstep : (h.step (.receive now srcAddr fin)).man = h.man.onFin srcAddr fin := by
        rw [h.step_receive, TcpManager.receiveTransport, hty]
      rw [hstep]
      unfold TcpManager.onFin
      simp only
      cases hest : h.man.establishedByKey.lookup ⟨srcAddr, fin.srcPort, fin.destPort⟩ with
      | some i =>
          obtain rfl : i = j := by
            rw [segKey, hest] at hj
            exact Option.some.inj hj
          have hlt := hs.bounded.established hest
          obtain ⟨out, e, _⟩ := (h.man.setSock i (h.man.sock i).markPeerFinReceived).sendAck_cases
            fin.destPort srcAddr fin.srcPort (fin.seqNum + 1)
            ((h.man.setSock i (h.man.sock i).markPeerFinReceived).sock i).getRecvBufAvailable
          simp only
          rw [e, TcpManager.emit_sock, h.man.sock_setSock_self hlt]
          obtain (hst | hst) | hst := ((hs.fits i).established _ hest).2
          · exact .inl (if_pos hst)
          · exact .inl ((if_neg (by rw [hst]; decide)).trans hst)
          · exact .inr ((if_neg (by rw [hst]; decide)).trans hst)
      | none =>
          have hpend : h.man.synPendingByKey.lookup ⟨srcAddr, fin.srcPort, fin.destPort⟩ = some j := by
            rwa [segKey, hest, Option.none_or] at hj
          simp only [hpend]
          have hlt := hs.bounded.pending hpend
          refine .inr ?_
          show ((h.man.setSock j (h.man.sock j).markClosed).sock j).state = .CLOSED
          rw [h.man.sock_setSock_self hlt]
          rfl
  | socket | bind | listen | accept | connect | close | release | write | read | tick => cases hj

theorem Sound.opened (hs : h.Sound) (hj : h.man.Holds j) : h.phase j = .opened := by
  by_contra hne
  exact hs.unheld j hne hj

end Host

/-! ### Connections never go back -/

namespace Life

/-- What holds of every connection. -/
structure Conn (l : Life) (j : SockId) : Prop where
  exist : j < l.host.man.allSockets.length
  opened : l.host.phase j = .opened
  state : (l.sock j).state ≠ .LISTEN

/-- The calls of a disciplined application that takes no connection that is shutting down. -/
def Accepts (l : Life) (op : Op) : Prop := l.host.Allowed op ∧ l.host.TakesConnected op

instance (l : Life) (op : Op) : Decidable (l.Accepts op) := inferInstanceAs (Decidable (_ ∧ _))

/-- What every such run keeps. -/
structure Ordered (l : Life) : Prop where
  sound : l.host.Sound
  conn : ∀ j ∈ l.conns, l.Conn j
  finned : ∀ j ∈ l.finned, l.Conn j ∧ ((l.sock j).state = .SHUTDOWN ∨ (l.sock j).state = .CLOSED)

variable {l : Life} {op : Op} {j : SockId}

theorem Conn.forward (hc : l.Conn j) (hs : l.host.Sound) (hop : l.Accepts op) :
    (l.sock j).state.Forward ((l.step op).sock j).state :=
  Host.effect_forward hs hop.1 hop.2 hc.exist hc.opened hc.state
    (TcpManager.step_effect hs.bounded hs.fits op j)

theorem Conn.step (hc : l.Conn j) (hs : l.host.Sound) (hop : l.Accepts op) : (l.step op).Conn j :=
  ⟨Nat.lt_of_lt_of_le hc.exist (Host.length_le_step hs op),
    Host.opened_step hop.1 hc.exist hc.opened, (hc.forward hs hop).ne_listen hc.state⟩

theorem conn_of_begins (hs : l.host.Sound) (hop : l.Accepts op)
    (hj : l.host.man.begins op = some j) : (l.step op).Conn j := by
  cases op with
  | connect i destAddr destPort =>
      obtain rfl : i = j := Option.some.inj hj
      have hunused := hs.unused i hop.1
      refine ⟨Nat.lt_of_lt_of_le (hs.exist i hop.1) (Host.length_le_step hs _),
        Function.update_self _ _ _, ?_⟩
      have hnew : ∀ s, Effect l.host.man (.connect i destAddr destPort) i s → s.state ≠ .LISTEN := by
        intro s he
        cases he with
        | same =>
            rw [hunused.state]
            decide
        | address hguard hsend =>
            rw [show (addressed (l.host.man.sock i) destAddr destPort).state = .CLOSED from
              hunused.state]
            decide
        | connect hguard hsend => exact fun e => by cases e
      exact hnew _ (TcpManager.step_effect hs.bounded hs.fits _ i)
  | receive now srcAddr t =>
      simp only [TcpManager.begins] at hj
      split_ifs at hj with hsyn
      obtain rfl := Option.some.inj hj
      obtain ⟨listener, hl⟩ := Option.isSome_iff_exists.mp hsyn.2
      have hlt := hs.bounded.listener hl
      obtain ⟨out, e, _⟩ := (l.host.man.admitted listener srcAddr t).sendAck_cases t.destPort
        srcAddr t.srcPort (t.seqNum + 1) TcpSocket.RECV_BUF_CAP
      have hstep : (l.step (.receive now srcAddr t)).host.man =
          (l.host.man.admitted listener srcAddr t).emit out := by
        show (l.host.step _).man = _
        rw [l.host.step_receive, TcpManager.receiveTransport, hsyn.1]
        rw [l.host.man.onSyn_admits hl hlt, e]
      refine ⟨?_, ?_, ?_⟩
      · rw [hstep, TcpManager.emit_allSockets, TcpManager.admitted_length]
        exact Nat.lt_succ_self _
      · by_contra hne
        exact Nat.lt_irrefl _ (hs.exist _ hne)
      · rw [Life.sock, hstep, TcpManager.emit_sock, TcpManager.admitted_sock_child]
        exact fun e => by cases e
  | socket | bind | listen | accept | close | release | write | read | tick => cases hj

theorem conn_of_peerFin (hs : l.host.Sound) (hop : l.Accepts op)
    (hj : l.host.man.peerFinFor op = some j) : (l.step op).Conn j := by
  have hheld : l.host.man.Holds j ∧ (l.sock j).state ≠ .LISTEN := by
    cases op with
    | receive now srcAddr fin =>
        simp only [TcpManager.peerFinFor] at hj
        split_ifs at hj
        obtain hest | ⟨_, hpend⟩ := Option.or_eq_some_iff.mp hj
        · refine ⟨.established _ hest, fun hst => ?_⟩
          obtain h | h := ((hs.fits j).established _ hest).2
          · exact h.ne.2.1 hst
          · exact absurd (h.symm.trans hst) (by decide)
        · refine ⟨.pending _ hpend, fun hst => ?_⟩
          obtain h | h := ((hs.fits j).pending _ hpend).2
          · exact absurd (h.symm.trans hst) (by decide)
          · exact absurd (h.symm.trans hst) (by decide)
    | socket | bind | listen | accept | connect | close | release | write | read | tick => cases hj
  have hconn : l.Conn j := ⟨hs.bounded.holds hheld.1, hs.opened hheld.1, hheld.2⟩
  exact hconn.step hs hop

theorem Ordered.step (ho : l.Ordered) (hop : l.Accepts op) : (l.step op).Ordered := by
  refine ⟨ho.sound.step hop.1, ?_, ?_⟩
  · intro j hj
    obtain hnew | hold := mem_step_conns.mp hj
    · exact conn_of_begins ho.sound hop hnew
    · exact (ho.conn j hold).step ho.sound hop
  · intro j hj
    obtain hnew | hold := mem_step_finned.mp hj
    · exact ⟨conn_of_peerFin ho.sound hop hnew, Host.peerFin_ends ho.sound hnew⟩
    · obtain ⟨hconn, hend⟩ := ho.finned j hold
      exact ⟨hconn.step ho.sound hop, (hconn.forward ho.sound hop).ending hend⟩

theorem ordered_run (addr : Int) {ops : List Op}
    (hops : Guarded Life.step Life.Accepts (Life.new addr) ops) :
    (run Life.step (Life.new addr) ops).Ordered := by
  refine guarded_induction (fun l op ho hop => ho.step hop) ?_ hops
  exact ⟨.new addr, (fun j hj => by cases hj), (fun j hj => by cases hj)⟩

/-- **No connection goes back.**  In every run in which `accept` takes no connection that is
shutting down, the next operation moves every connection forward or leaves its state, and a
connection whose peer has sent a FIN is not established again. -/
theorem connections_never_go_back (addr : Int) (ops : List Op)
    (hops : Guarded Life.step Life.Accepts (Life.new addr) ops) :
    let l := run Life.step (Life.new addr) ops
    (∀ op, l.Accepts op → ∀ j ∈ l.conns,
      (l.sock j).state.Forward ((l.step op).sock j).state) ∧
    ∀ j ∈ l.finned, (l.sock j).state ≠ .ESTABLISHED := by
  intro l
  have ho : l.Ordered := ordered_run addr hops
  constructor
  · intro op hop j hj
    exact (ho.conn j hj).forward ho.sound hop
  · intro j hj hst
    obtain h | h := (ho.finned j hj).2
    · exact absurd (h.symm.trans hst) (by decide)
    · exact absurd (h.symm.trans hst) (by decide)

theorem legal_clientSyn : Transport.Legal 5 80 [] := by decide

/-- The SYN and the FIN of a client on port 5. -/
def clientSyn : Transport := ⟨5, 80, .SYN, 0, 0, [], legal_clientSyn⟩

def clientFin : Transport := ⟨5, 80, .FIN, 0, 1, [], legal_clientSyn⟩

/-- A client connects to port 80; its FIN arrives before or after the connection is accepted. -/
def finBeforeAccept : List Op :=
  [.socket, .bind 0 80, .listen 0 5, .receive 0 2 clientSyn, .receive 0 2 clientFin]

def finAfterAccept : List Op :=
  [.socket, .bind 0 80, .listen 0 5, .receive 0 2 clientSyn, .accept 0, .receive 0 2 clientFin]

theorem connections_never_go_back_fin_after_accept :
    let l := run Life.step (Life.new 1) finAfterAccept
    1 ∈ l.conns ∧ 1 ∈ l.finned ∧ (l.sock 1).state = .SHUTDOWN ∧
      (l.sock 1).state.Forward ((l.step (.read 1 true 0 1)).sock 1).state := by
  have h := connections_never_go_back 1 finAfterAccept (by decide)
  exact ⟨by decide, by decide, by decide, h.1 (.read 1 true 0 1) (by decide) 1 (by decide)⟩

/-- `accept` puts a connection back to `ESTABLISHED` although the FIN of its peer has arrived. -/
theorem accept_goes_back :
    let l := run Life.step (Life.new 1) finBeforeAccept
    Guarded Host.step Host.Allowed (Host.new 1) (finBeforeAccept ++ [.accept 0]) ∧
      1 ∈ l.conns ∧ 1 ∈ l.finned ∧
      (l.sock 1).state = .SHUTDOWN ∧ ((l.step (.accept 0)).sock 1).state = .ESTABLISHED ∧
      ¬ (l.sock 1).state.Forward ((l.step (.accept 0)).sock 1).state := by
  refine ⟨by decide, by decide, by decide, by decide, by decide, ?_⟩
  have h1 : ((run Life.step (Life.new 1) finBeforeAccept).sock 1).state = .SHUTDOWN := by decide
  have h2 : (((run Life.step (Life.new 1) finBeforeAccept).step (.accept 0)).sock 1).state =
      .ESTABLISHED := by decide
  intro hf
  rw [h1, h2] at hf
  cases hf

/-! ### When a FIN is sent -/

/-- No call and no segment meets a connection that the wrong side has shut down: `close` comes
before the peer's FIN or while data is outstanding, no connection is accepted that was closed with
data outstanding, and no acknowledgement takes the last byte of a connection that the peer has
closed and the application has not. -/
def FinOrder (l : Life) : Op → Prop
  | .release _ => False
  | .close i =>
      ¬ ((l.sock i).state = .SHUTDOWN ∧ (l.sock i).finSeq < 0 ∧ (l.sock i).outstanding = [])
  | .accept i => (l.sock i).state = .LISTEN → ∀ conn ∈ (l.sock i).pendingConnQueue.head?,
      conn ∈ l.closedLive → (l.sock conn).state = .SHUTDOWN → 0 ≤ (l.sock conn).finSeq
  | .receive _ srcAddr t => t.type = .ACK →
      l.host.man.synPendingByKey.lookup (segKey srcAddr t) = none →
      ∀ i ∈ l.host.man.establishedByKey.lookup (segKey srcAddr t),
        (l.sock i).state = .SHUTDOWN → i ∉ l.closed →
          ¬ ((l.sock i).sndUna < t.seqNum ∧ t.seqNum = (l.sock i).sndNxt)
  | _ => True

instance (l : Life) : ∀ op, Decidable (l.FinOrder op)
  | .release _ => inferInstanceAs (Decidable False)
  | .close i => inferInstanceAs (Decidable (¬ ((l.sock i).state = .SHUTDOWN ∧
      (l.sock i).finSeq < 0 ∧ (l.sock i).outstanding = [])))
  | .accept i => inferInstanceAs (Decidable ((l.sock i).state = .LISTEN →
      ∀ conn ∈ (l.sock i).pendingConnQueue.head?,
        conn ∈ l.closedLive → (l.sock conn).state = .SHUTDOWN → 0 ≤ (l.sock conn).finSeq))
  | .receive _ srcAddr t => inferInstanceAs (Decidable (t.type = .ACK →
      l.host.man.synPendingByKey.lookup (segKey srcAddr t) = none →
      ∀ i ∈ l.host.man.establishedByKey.lookup (segKey srcAddr t),
        (l.sock i).state = .SHUTDOWN → i ∉ l.closed →
          ¬ ((l.sock i).sndUna < t.seqNum ∧ t.seqNum = (l.sock i).sndNxt)))
  | .socket | .bind .. | .listen .. | .connect .. | .write .. | .read .. | .tick _ =>
      inferInstanceAs (Decidable True)

def FinAllowed (l : Life) (op : Op) : Prop := l.host.Allowed op ∧ l.FinOrder op

instance (l : Life) (op : Op) : Decidable (l.FinAllowed op) := inferInstanceAs (Decidable (_ ∧ _))

/-- What the closing of socket `j` with contents `s` has led to. -/
structure FinOk (l : Life) (j : SockId) (s : TcpSocket) : Prop where
  closed : 0 ≤ s.finSeq → j ∈ l.closed
  sent : j ∈ l.closedLive → s.state ≠ .CLOSED →
    0 ≤ s.finSeq ∨ s.state = .SHUTDOWN ∧ s.outstanding ≠ []
  live : j ∈ l.closedLive → s.Live ∨ s.state = .CLOSED
  sndNxt : 0 ≤ s.sndNxt

/-- The fields that closing is about are the same. -/
structure SameFin (s s' : TcpSocket) : Prop where
  state : s'.state = s.state
  finSeq : s'.finSeq = s.finSeq
  outstanding : s'.outstanding = s.outstanding
  sndNxt : s'.sndNxt = s.sndNxt

namespace FinOk

variable {s s' : TcpSocket}

theorem congr (h : FinOk l j s) (e : SameFin s s') : FinOk l j s' := by
  refine ⟨?_, ?_, ?_, ?_⟩
  · rw [e.finSeq]
    exact h.closed
  · rw [e.finSeq, e.state, e.outstanding]
    exact h.sent
  · unfold TcpSocket.Live
    rw [e.state]
    exact h.live
  · rw [e.sndNxt]
    exact h.sndNxt

theorem toClosed (h : FinOk l j s) (hst : s'.state = .CLOSED) (hfin : s'.finSeq = s.finSeq)
    (hnxt : s'.sndNxt = s.sndNxt) : FinOk l j s' := by
  refine ⟨?_, fun _ hne => absurd hst hne, fun _ => .inr hst, ?_⟩
  · rw [hfin]
    exact h.closed
  · rw [hnxt]
    exact h.sndNxt

/-- A socket on which `close` has not been called while it was connected. -/
theorem of_not_closed (hfin : 0 ≤ s.finSeq → j ∈ l.closed) (hnot : j ∉ l.closedLive)
    (hnxt : 0 ≤ s.sndNxt) : FinOk l j s :=
  ⟨hfin, fun hc => absurd hc hnot, fun hc => absurd hc hnot, hnxt⟩

theorem of_sent (h : FinOk l j s) (hfin : s'.finSeq = s.finSeq) (hlive : s'.Live)
    (hsent : j ∈ l.closedLive → 0 ≤ s.finSeq) (hnxt : 0 ≤ s'.sndNxt) : FinOk l j s' := by
  refine ⟨?_, ?_, fun _ => .inl hlive, hnxt⟩
  · rw [hfin]
    exact h.closed
  · intro hc _
    rw [hfin]
    exact .inl (hsent hc)

theorem of_history (h : FinOk l j s) (hnot : l.host.man.closes op ≠ some j) :
    FinOk (l.step op) j s := by
  have hlive : j ∈ (l.step op).closedLive → j ∈ l.closedLive := by
    intro hc
    exact (mem_step_closedLive.mp hc).resolve_left fun hnew => hnot hnew.1
  exact ⟨fun hfin => mem_step_closed.mpr (.inr (h.closed hfin)), fun hc => h.sent (hlive hc),
    fun hc => h.live (hlive hc), h.sndNxt⟩

theorem sent_of_established (h : FinOk l j s) (hst : s.state = .ESTABLISHED)
    (hc : j ∈ l.closedLive) : 0 ≤ s.finSeq := by
  rcases h.sent hc (by rw [hst]; decide) with hfin | ⟨hshut, _⟩
  · exact hfin
  · rw [hst] at hshut
    cases hshut

end FinOk

/-- An acknowledgement changes neither the state nor what is sent next. -/
theorem acked_same {s s' : TcpSocket} {v now ackNum : Int}
    (hs : s' = advanced (s.setRwnd v) now ackNum) :
    s'.state = s.state ∧ s'.finSeq = s.finSeq ∧ s'.sndNxt = s.sndNxt := by
  obtain ⟨_, _, hnxt, _, _⟩ := advanced_sender (s.setRwnd v) now ackNum
  obtain ⟨_, _, _, hfin, _⟩ := advanced_receiver (s.setRwnd v) now ackNum
  have hstate := (sameConn_advanced (s.setRwnd v) now ackNum).state
  rw [hs]
  exact ⟨hstate, hfin, hnxt⟩

/-- An acknowledgement after which nothing is outstanding covers everything sent. -/
theorem seqNum_of_drained {s : TcpSocket} (hq : SenderOk s) (hst : s.Live) {now v ackNum : Int}
    (hlt : s.sndUna < ackNum) (hle : ackNum ≤ s.sndNxt)
    (hout : (advanced (s.setRwnd v) now ackNum).outstanding = []) : ackNum = s.sndNxt := by
  have hwindow : SenderOk (s.setRwnd v) :=
    hq.congr rfl rfl rfl (le_max_left _ _) fun h => absurd h hst.ne.2.2
  have hadv : SenderOk (advanced (s.setRwnd v) now ackNum) := hwindow.advanced hst now hlt hle
  obtain ⟨_, huna, hnxt, _, _⟩ := advanced_sender (s.setRwnd v) now ackNum
  rw [← huna, hadv.empty_iff.mp hout, hnxt]
  rfl

/-- What every run with ordered FINs keeps. -/
structure Closes (l : Life) : Prop where
  sound : l.host.Sound
  sender : ∀ j, SenderOk (l.sock j)
  exist : ∀ j ∈ l.closedLive, j < l.host.man.allSockets.length
  opened : ∀ j ∈ l.closedLive, l.host.phase j = .opened
  fin : ∀ j, l.FinOk j (l.sock j)

/-- An acknowledgement that makes `maybeSendFinOnDrain` send the FIN comes after `close`. -/
theorem Closes.drained_closed (ho : l.Closes) {now srcAddr : Int} {ack : Transport} {s : TcpSocket}
    (hop : l.FinOrder (.receive now srcAddr ack)) (hty : ack.type = .ACK)
    (hpend : l.host.man.synPendingByKey.lookup (segKey srcAddr ack) = none)
    (hest : l.host.man.establishedByKey.lookup (segKey srcAddr ack) = some j)
    (hlt : (l.sock j).sndUna < ack.seqNum) (hle : ack.seqNum ≤ (l.sock j).sndNxt)
    (hs : s = advanced ((l.sock j).setRwnd ack.window) now ack.seqNum)
    (hst : s.state = .SHUTDOWN) (hout : s.outstanding = []) : j ∈ l.closed := by
  have hshut : (l.sock j).state = .SHUTDOWN := (acked_same hs).1.symm.trans hst
  rw [hs] at hout
  by_contra hnot
  exact hop hty hpend j hest hshut hnot
    ⟨hlt, seqNum_of_drained (ho.sender j) (.inr hshut) hlt hle hout⟩

theorem Closes.effect (ho : l.Closes) (hop : l.FinAllowed op)
    (hnot : ∀ i, op ≠ .close i) {s : TcpSocket} (he : Effect l.host.man op j s) :
    l.FinOk j s := by
  have hj : l.FinOk j (l.sock j) := ho.fin j
  cases he with
  | same => exact hj
  | bind | dequeue | address | window | store => exact hj.congr ⟨rfl, rfl, rfl, rfl⟩
  | enqueue =>
      refine hj.congr ?_
      unfold TcpSocket.enqueueAccepted
      split_ifs <;> exact ⟨rfl, rfl, rfl, rfl⟩
  -- a socket that is opened now, or made now, has not been closed before
  | listen hst =>
      exact .of_not_closed hj.closed (fun hc => hop.1 (ho.opened j hc)) hj.sndNxt
  | connect hguard hsend =>
      exact .of_not_closed hj.closed (fun hc => hop.1 (ho.opened j hc)) hj.sndNxt
  | child hty hl =>
      refine .of_not_closed (fun hfin => ?_) (fun hc => Nat.lt_irrefl _ (ho.exist _ hc)) ?_
      · exact absurd hfin (show ¬ (0 : Int) ≤ -1 by decide)
      · exact show (0 : Int) ≤ 1 by decide
  | @accept i _ _ hst hq hne =>
      have hhead : j ∈ (l.sock i).pendingConnQueue.head? := by rw [Life.sock, hq]; rfl
      refine hj.of_sent rfl (.inl rfl) (fun hc => ?_) hj.sndNxt
      obtain hest | hshut := (hj.live hc).resolve_right hne
      · exact hj.sent_of_established hest hc
      · exact hop.2 hst j hhead hc hshut
  | close | shutdown | shutdownFin | shutdownFails => exact absurd rfl (hnot _)
  | release | finAcked | refused => exact hj.toClosed rfl rfl rfl
  | write n hst hpos =>
      refine hj.of_sent rfl (.inl hst) (hj.sent_of_established hst) ?_
      have := hj.sndNxt
      show (0 : Int) ≤ (l.sock j).sndNxt + n
      omega
  | read =>
      obtain ⟨_, _, e⟩ | ⟨_, _, _, e⟩ | ⟨_, _, e⟩ := (l.host.man.sock j).read_effect _ _ _
      · rw [e]
        exact hj
      · rw [e]
        exact hj.congr ⟨rfl, rfl, rfl, rfl⟩
      · rw [e]
        exact hj.toClosed rfl rfl rfl
  | @establish _ _ ack _ hty hpend hseq =>
      obtain hst | hst := ((ho.sound.fits j).pending _ hpend).2
      · -- a socket waiting for its SYN-ACK has not been closed while connected
        have hnot : j ∉ l.closedLive := by
          intro hc
          obtain h | h := hj.live hc
          · exact h.ne.2.2 hst
          · exact absurd (h.symm.trans hst) (by decide)
        unfold TcpSocket.markEstablished
        split_ifs
        · exact .of_not_closed hj.closed hnot (show (0 : Int) ≤ 1 by decide)
        · exact hj.congr ⟨rfl, rfl, rfl, rfl⟩
      · rw [TcpSocket.markEstablished_of_closed _ (by exact hst)]
        exact hj.congr ⟨rfl, rfl, rfl, rfl⟩
  | advance hty hpend hest hst hlt hle hadv hwait =>
      obtain ⟨hstate, hfin, hnxt⟩ := acked_same hadv
      refine ⟨?_, ?_, fun _ => .inl ?_, ?_⟩
      · rw [hfin]
        exact hj.closed
      · intro hc _
        obtain h | ⟨hshut, _⟩ := hj.sent hc hst.ne.1
        · rw [hfin]
          exact .inl h
        · obtain h | h | h := hwait
          · exact absurd (hstate.trans hshut) h
          · exact .inl h
          · exact .inr ⟨hstate.trans hshut, h⟩
      · unfold TcpSocket.Live
        rw [hstate]
        exact hst
      · rw [hnxt]
        exact hj.sndNxt
  | advanceFin hty hpend hest hlt hle hadv hst hfin hout =>
      have hclosed := ho.drained_closed hop.2 hty hpend hest hlt hle hadv hst hout
      have hnxt := hj.sndNxt
      rw [← show _ = (l.sock j).sndNxt from (acked_same hadv).2.2] at hnxt
      exact ⟨fun _ => hclosed, fun _ _ => .inl hnxt, fun _ => .inl (.inr hst), hnxt⟩
  | advanceFails hty hpend hest hlt hle hadv hst hfin hout hsend =>
      have hclosed := ho.drained_closed hop.2 hty hpend hest hlt hle hadv hst hout
      have hnxt := hj.sndNxt
      rw [← show _ = (l.sock j).sndNxt from (acked_same hadv).2.2] at hnxt
      exact ⟨fun _ => hclosed, fun _ hne => absurd rfl hne, fun _ => .inr rfl, hnxt⟩
  | peerFin hty hest =>
      obtain (hst | hst) | hst := ((ho.sound.fits j).established _ hest).2
      · exact hj.of_sent rfl (.inr (if_pos hst)) (hj.sent_of_established hst) hj.sndNxt
      · exact hj.congr ⟨if_neg (by rw [hst]; decide), rfl, rfl, rfl⟩
      · exact hj.congr ⟨if_neg (by rw [hst]; decide), rfl, rfl, rfl⟩
  | timeout hest hdue =>
      refine ⟨hj.closed, ?_, hj.live, hj.sndNxt⟩
      intro hc hne
      obtain h | ⟨hshut, hout⟩ := hj.sent hc hne
      · exact .inl h
      · refine .inr ⟨hshut, ?_⟩
        show (l.sock j).outstanding.map _ ≠ []
        simpa using hout

theorem close_ends (m : TcpManager) {i : SockId} (hi : i < m.allSockets.length) :
    ((m.close i).sock i).state ≠ .ESTABLISHED := by
  unfold TcpManager.close
  cases hst : (m.sock i).state with
  | CLOSED =>
      rw [hst]
      decide
  | SHUTDOWN =>
      rw [hst]
      decide
  | LISTEN | SYN_SENT =>
      simp only
      rw [m.sock_setSock_self hi]
      exact fun e => by cases e
  | ESTABLISHED =>
      set s : TcpSocket := { m.sock i with state := .SHUTDOWN } with hs
      have hi' : i < (m.setSock i s).allSockets.length := by simpa using hi
      simp only
      obtain ⟨_, e⟩ | ⟨_, _, _, ⟨p, _, e⟩ | ⟨_, e⟩⟩ := (m.setSock i s).maybeSendFin_effect hi'
      · rw [e, m.sock_setSock_self hi]
        exact fun e => by cases e
      · rw [e, TcpManager.emit_sock, TcpManager.sock_setSock_self _ hi', m.sock_setSock_self hi]
        exact fun e => by cases e
      · rw [e, TcpManager.sock_setSock_self _ (by exact hi')]
        exact fun e => by cases e

/-- A call of `close`. -/
theorem Closes.close (ho : l.Closes) {i : SockId} (hi : i < l.host.man.allSockets.length)
    (hop : l.FinAllowed (.close i)) (j : SockId) :
    (l.step (.close i)).FinOk j ((l.step (.close i)).sock j) := by
  have hcloses : l.host.man.closes (.close i) = some i := if_pos hi
  have hj : l.FinOk j (l.sock j) := ho.fin j
  by_cases hij : i = j
  · subst hij
    have hmem : i ∈ (l.step (.close i)).closed := mem_step_closed.mpr (.inl hcloses)
    have hends : ((l.step (.close i)).sock i).state ≠ .ESTABLISHED := by
      show ((l.host.man.step (.close i)).sock i).state ≠ .ESTABLISHED
      rw [l.host.man.step_of_valid (fun k hk => by cases hk; exact hi)]
      exact close_ends l.host.man hi
    have hfin : ∀ s, Effect l.host.man (.close i) i s → s.state ≠ .ESTABLISHED →
        (l.step (.close i)).FinOk i s := by
      intro s he hends
      cases he with
      | same =>
          refine ⟨fun _ => hmem, ?_, ?_, hj.sndNxt⟩
          · intro hc hne
            obtain ⟨_, hlive⟩ | hold := mem_step_closedLive.mp hc
            · have hshut : (l.sock i).state = .SHUTDOWN := hlive.resolve_left hends
              by_cases hfin : 0 ≤ (l.sock i).finSeq
              · exact .inl hfin
              · exact .inr ⟨hshut, fun hout => hop.2 ⟨hshut, not_le.mp hfin, hout⟩⟩
            · exact hj.sent hold hne
          · intro hc
            obtain ⟨_, hlive⟩ | hold := mem_step_closedLive.mp hc
            · exact .inl hlive
            · exact hj.live hold
      | close hst => exact ⟨fun _ => hmem, fun _ hne => absurd rfl hne, fun _ => .inr rfl, hj.sndNxt⟩
      | shutdown hst hwait =>
          refine ⟨fun _ => hmem, fun _ _ => ?_, fun _ => .inl (.inr rfl), hj.sndNxt⟩
          exact hwait.imp id fun hout => ⟨rfl, hout⟩
      | shutdownFin hst hfin hout =>
          exact ⟨fun _ => hmem, fun _ _ => .inl hj.sndNxt, fun _ => .inl (.inr rfl), hj.sndNxt⟩
      | shutdownFails hst hs =>
          exact ⟨fun _ => hmem, fun _ hne => absurd rfl hne, fun _ => .inr rfl, hj.sndNxt⟩
    exact hfin _ (TcpManager.step_effect ho.sound.bounded ho.sound.fits (.close i) i) hends
  · have hother : ∀ s, Effect l.host.man (.close i) j s → s = l.sock j := by
      intro s he
      cases he with
      | same => rfl
      | close | shutdown | shutdownFin | shutdownFails => exact absurd rfl hij
    rw [show (l.step (.close i)).sock j = l.sock j from
      hother _ (TcpManager.step_effect ho.sound.bounded ho.sound.fits (.close i) j)]
    exact hj.of_history fun e => hij (Option.some.inj (hcloses.symm.trans e))

theorem Closes.step (ho : l.Closes) (hop : l.FinAllowed op) : (l.step op).Closes := by
  -- a socket that is connected is opened
  have hlive : ∀ j, (l.sock j).Live → l.host.phase j = .opened := by
    intro j hj
    by_contra hne
    exact hj.ne.1 (ho.sound.unused j hne).state
  have hexist : ∀ j ∈ (l.step op).closedLive,
      j < l.host.man.allSockets.length ∧ l.host.phase j = .opened := by
    intro j hj
    obtain ⟨hc, hl⟩ | hold := mem_step_closedLive.mp hj
    · refine ⟨?_, hlive j hl⟩
      by_contra hlt
      exact hl.ne.1 (by rw [Life.sock, l.host.man.sock_of_length_le (not_lt.mp hlt)]; rfl)
    · exact ⟨ho.exist j hold, ho.opened j hold⟩
  refine ⟨ho.sound.step hop.1, Host.senderOk_step ho.sound ho.sender hop.1, ?_, ?_, ?_⟩
  · intro j hj
    exact Nat.lt_of_lt_of_le (hexist j hj).1 (Host.length_le_step ho.sound op)
  · intro j hj
    exact Host.opened_step hop.1 (hexist j hj).1 (hexist j hj).2
  · intro j
    by_cases hclose : ∃ i, op = .close i
    · obtain ⟨i, rfl⟩ := hclose
      by_cases hi : i < l.host.man.allSockets.length
      · exact ho.close hi hop j
      · have hsame : (l.step (.close i)).sock j = l.sock j := by
          show (l.host.man.step (.close i)).sock j = l.host.man.sock j
          rw [TcpManager.step, if_neg (fun hv => hi (hv i rfl))]
        rw [hsame]
        refine (ho.fin j).of_history ?_
        rw [TcpManager.closes, if_neg hi]
        exact fun e => by cases e
    · have hnot : ∀ i, op ≠ .close i := fun i e => hclose ⟨i, e⟩
      have hnone : l.host.man.closes op ≠ some j := by
        cases op with
        | close i => exact absurd rfl (hnot i)
        | socket | bind | listen | accept | connect | release | write | read | receive | tick =>
            exact fun e => by cases e
      exact (ho.effect hop hnot (TcpManager.step_effect ho.sound.bounded ho.sound.fits op
        j)).of_history hnone

theorem closes_run (addr : Int) {ops : List Op}
    (hops : Guarded Life.step Life.FinAllowed (Life.new addr) ops) :
    (run Life.step (Life.new addr) ops).Closes := by
  have hnew : ∀ j, (Life.new addr).sock j = TcpSocket.new :=
    fun j => TcpManager.sock_of_length_le _ (Nat.zero_le j)
  refine guarded_induction (fun l op ho hop => ho.step hop) ?_ hops
  refine ⟨.new addr, ?_, (fun j hj => by cases hj), (fun j hj => by cases hj), ?_⟩
  · intro j
    rw [hnew j]
    exact .new
  · intro j
    rw [hnew j]
    exact .of_not_closed (fun h => absurd h (by decide)) (fun hc => by cases hc) le_rfl

/-- **A FIN is sent exactly when the application has closed and its data has drained**, in every
run without `release` in which the FINs of the two sides come in order (`FinOrder`). -/
theorem fin_sent_iff_closed_and_drained (addr : Int) (ops : List Op)
    (hops : Guarded Life.step Life.FinAllowed (Life.new addr) ops) (j : SockId) :
    let l := run Life.step (Life.new addr) ops
    (0 ≤ (l.sock j).finSeq → j ∈ l.closed) ∧
    (j ∈ l.closedLive → (l.sock j).state ≠ .CLOSED → (l.sock j).outstanding = [] →
      0 ≤ (l.sock j).finSeq) := by
  intro l
  have ho : l.Closes := closes_run addr hops
  refine ⟨(ho.fin j).closed, ?_⟩
  intro hc hne hout
  obtain h | ⟨_, h⟩ := (ho.fin j).sent hc hne
  · exact h
  · exact absurd hout h

/-- The server closes an accepted connection before the client does. -/
def closeBeforeFin : List Op :=
  [.socket, .bind 0 80, .listen 0 5, .receive 0 2 clientSyn, .accept 0, .close 1,
    .receive 0 2 clientFin]

theorem fin_sent_close_before_fin :
    let l := run Life.step (Life.new 1) closeBeforeFin
    (l.sock 1).state = .SHUTDOWN ∧ 1 ∈ l.closed ∧ 0 ≤ (l.sock 1).finSeq := by
  have h := fin_sent_iff_closed_and_drained 1 closeBeforeFin (by decide) 1
  exact ⟨by decide, by decide, h.2 (by decide) (by decide) (by decide)⟩

/-- The server's FIN is never sent when the client's FIN has come first: `close` does nothing in
`SHUTDOWN`.  And a FIN goes out without any `close` when the client's FIN comes while a byte is
outstanding and the byte is then acknowledged. -/
theorem close_after_fin_sends_nothing :
    (let ops := finAfterAccept ++ [.close 1]
      let l := run Life.step (Life.new 1) ops
      Guarded Host.step Host.Allowed (Host.new 1) ops ∧ 1 ∈ l.closedLive ∧
        (l.sock 1).state = .SHUTDOWN ∧ (l.sock 1).outstanding = [] ∧ (l.sock 1).finSeq = -1) ∧
    let ops : List Op := [.socket, .bind 0 80, .listen 0 5, .receive 0 2 clientSyn, .accept 0,
      .write 10 1 (some [7]) 0 1, .receive 20 2 clientFin,
      .receive 30 2 ⟨5, 80, .ACK, 1000, 2, [], by decide⟩]
    let l := run Life.step (Life.new 1) ops
    Guarded Host.step Host.Allowed (Host.new 1) ops ∧ l.closed = [] ∧ (l.sock 1).finSeq = 2 := by
  refine ⟨⟨by decide, by decide, by decide, by decide, by decide⟩, by decide, by decide, by decide⟩

end Life

end NetBridge
