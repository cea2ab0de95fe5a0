import NetBridge.Discipline

/-! # The addresses of connections

A connection gets its addresses from a `connect` whose SYN was sent or from a SYN that was
decoded, so the addresses and ports of every entry and of every open socket are ones that a
segment can carry, and every later send of the connection succeeds. -/

namespace NetBridge

open TcpManager (addressed released)

/-- A segment of the node `addr` to the other end of `k` can be sent. -/
def ConnKey.Routes (k : ConnKey) (addr : Int) : Prop :=
  Sendable addr k.remoteAddr k.localPort k.remotePort

/-- The socket is connected or waits for the answer to its SYN. -/
def TcpSocket.Open (s : TcpSocket) : Prop := s.state = .SYN_SENT ∨ s.Live

theorem TcpSocket.not_open_of_closed {s : TcpSocket} (h : s.state = .CLOSED) : ¬ s.Open := by
  rintro (e | e)
  · rw [h] at e
    cases e
  · exact e.ne.1 h

theorem SameConn.open_iff {s s' : TcpSocket} (h : SameConn s s') : s'.Open ↔ s.Open := by
  unfold TcpSocket.Open
  rw [h.state, h.live_iff]

namespace TcpManager

/-- Every connection has addresses that a segment can carry. -/
structure Routed (m : TcpManager) : Prop where
  pending : ∀ {k i}, m.synPendingByKey.lookup k = some i → k.Routes m.addr
  established : ∀ {k i}, m.establishedByKey.lookup k = some i → k.Routes m.addr
  opened : ∀ i, (m.sock i).Open → (m.sock i).key.Routes m.addr

namespace Routed

variable {m m₁ : TcpManager}

theorem new (addr : Int) : (TcpManager.new addr).Routed := by
  refine ⟨(fun h => by cases h), (fun h => by cases h), ?_⟩
  intro i hi
  rw [sock_of_length_le _ (Nat.zero_le i)] at hi
  exact absurd hi (TcpSocket.not_open_of_closed rfl)

theorem setSock (h : m.Routed) {i : SockId} {s : TcpSocket} (hs : s.Open → s.key.Routes m.addr) :
    (m.setSock i s).Routed := by
  refine ⟨h.pending, h.established, ?_⟩
  intro j hj
  obtain e | ⟨rfl, e⟩ := m.sock_setSock_cases i s j
  · rw [e] at hj ⊢
    exact h.opened j hj
  · rw [e] at hj ⊢
    exact hs hj

theorem setSock_keep (h : m.Routed) {i : SockId} {s : TcpSocket} (hkey : s.key = (m.sock i).key)
    (hopen : s.Open → (m.sock i).Open) : (m.setSock i s).Routed := by
  refine h.setSock fun hs => ?_
  rw [hkey]
  exact h.opened i (hopen hs)

theorem setSock_closed (h : m.Routed) {i : SockId} {s : TcpSocket} (hst : s.state = .CLOSED) :
    (m.setSock i s).Routed := h.setSock fun hs => absurd hs (TcpSocket.not_open_of_closed hst)

theorem quiet (h : m.Routed) (q : Quiet m m₁) : m₁.Routed := by
  refine ⟨?_, ?_, ?_⟩
  · intro k i hk
    rw [q.synPendingByKey] at hk
    rw [q.addr]
    exact h.pending hk
  · intro k i hk
    rw [q.establishedByKey] at hk
    rw [q.addr]
    exact h.established hk
  · intro i hi
    rw [q.addr, (q.sock i).key]
    exact h.opened i ((q.sock i).open_iff.mp hi)

theorem unregisterSocket (h : m.Routed) (i : SockId) : (m.unregisterSocket i).Routed :=
  ⟨fun hk => h.pending ((Table.lookup_eraseValue_eq_some _).mp hk).1,
    fun hk => h.established ((Table.lookup_eraseValue_eq_some _).mp hk).1, h.opened⟩

theorem erasePending (h : m.Routed) (k : ConnKey) :
    ({ m with synPendingByKey := m.synPendingByKey.erase k } : TcpManager).Routed :=
  ⟨fun hk => h.pending (Table.lookup_erase_some _ hk).2, h.established, h.opened⟩

theorem eraseEstablished (h : m.Routed) (k : ConnKey) :
    ({ m with establishedByKey := m.establishedByKey.erase k } : TcpManager).Routed :=
  ⟨h.pending, fun hk => h.established (Table.lookup_erase_some _ hk).2, h.opened⟩

theorem insertListener (h : m.Routed) (p : Int) (i : SockId) :
    ({ m with listenersByPort := m.listenersByPort.insert p i } : TcpManager).Routed :=
  ⟨h.pending, h.established, h.opened⟩

theorem insertPending (h : m.Routed) {k : ConnKey} (hk : k.Routes m.addr) (i : SockId) :
    ({ m with synPendingByKey := m.synPendingByKey.insert k i } : TcpManager).Routed := by
  refine ⟨?_, h.established, h.opened⟩
  intro k' j hj
  obtain ⟨rfl, _⟩ | ⟨_, hj⟩ := Table.lookup_insert_some _ hj
  · exact hk
  · exact h.pending hj

theorem insertEstablished (h : m.Routed) {k : ConnKey} (hk : k.Routes m.addr) (i : SockId) :
    ({ m with establishedByKey := m.establishedByKey.insert k i } : TcpManager).Routed := by
  refine ⟨h.pending, ?_, h.opened⟩
  intro k' j hj
  obtain ⟨rfl, _⟩ | ⟨_, hj⟩ := Table.lookup_insert_some _ hj
  · exact hk
  · exact h.established hj

theorem segKey_routes {addr srcAddr : Int} (haddr : Packet.validAddress addr = true)
    (hsrc : Packet.validAddress srcAddr = true) (t : Transport) : (segKey srcAddr t).Routes addr := by
  obtain ⟨hs, hd, _⟩ := t.legal
  exact ⟨Packet.validAddress_iff.mp haddr, Packet.validAddress_iff.mp hsrc, hd, hs⟩

theorem spawn (h : m.Routed) {listener : SockId} (hl : listener < m.allSockets.length)
    {srcAddr : Int} {syn : Transport} (hkey : (segKey srcAddr syn).Routes m.addr) :
    (m.admitted listener srcAddr syn).Routed := by
  refine ⟨h.pending, (h.insertEstablished hkey _).established, ?_⟩
  intro j hj
  by_cases hlen : j = m.allSockets.length
  · subst hlen
    rw [admitted_sock_child]
    exact hkey
  · by_cases hjl : j = listener
    · subst hjl
      rw [m.admitted_sock_listener hl] at hj ⊢
      have e : SameConn (m.sock j) { (m.sock j).enqueueAccepted m.allSockets.length with
          pendingConnQueue := (m.sock j).pendingConnQueue } := by
        unfold TcpSocket.enqueueAccepted
        split_ifs <;> exact .refl _
      rw [show ((m.sock j).enqueueAccepted m.allSockets.length).key = (m.sock j).key from e.key]
      exact h.opened j (e.open_iff.mp hj)
    · rw [m.admitted_sock_ne hjl hlen] at hj ⊢
      exact h.opened j hj

end Routed

end TcpManager

/-! ### Disciplined runs -/

namespace Host

open TcpManager (Move Routed)

variable {h : Host}

/-- The segments come from addresses that a packet can carry. -/
def FromNetwork : Op → Prop
  | .receive _ srcAddr _ => Packet.validAddress srcAddr = true
  | _ => True

instance : ∀ op, Decidable (FromNetwork op)
  | .receive _ srcAddr _ => inferInstanceAs (Decidable (Packet.validAddress srcAddr = true))
  | .socket | .bind .. | .listen .. | .accept _ | .connect .. | .close _ | .release _ | .write ..
  | .read .. | .tick _ => inferInstanceAs (Decidable True)

/-- The moves of a disciplined host keep every connection routed: a socket is opened by a SYN that
was sent or decoded, and from then on its addresses stay. -/
theorem routed_move (hs : h.Sound) (hr : h.man.Routed)
    (haddr : Packet.validAddress h.man.addr = true) {op : Op} (hop : h.Allowed op)
    (hnet : FromNetwork op) {m₁ : TcpManager} (hm : Move h.man op m₁) : m₁.Routed := by
  have hunused : ∀ i, TcpManager.Opens op → op.target = some i → Unused (h.man.sock i) :=
    fun i ho hi => hs.unused i ((hs.opens_unheld hop).2 i ho hi).1
  cases hm with
  | quiet => exact hr
  | socket =>
      refine ⟨hr.pending, hr.established, ?_⟩
      intro j hj
      rw [TcpManager.sock_socket] at hj ⊢
      exact hr.opened j hj
  | bind i localPort =>
      have hphase : h.phase i ≠ .opened := by
        rw [show h.phase i = .fresh from hop]
        decide
      exact hr.setSock_closed (hs.unused i hphase).state
  | listen hst =>
      refine (hr.insertListener _ _).setSock ?_
      rintro (e | e | e) <;> cases e
  | acceptClosed hst hq hc => exact hr.setSock_keep rfl fun hs => hs
  | @accept i conn rest hst hq hc =>
      have hmem : conn ∈ (h.man.sock i).pendingConnQueue := by
        rw [hq]
        exact List.mem_cons_self
      have hlive := ((hs.fits conn).queued i hmem).resolve_right hc
      have hfirst : (h.man.setSock i { h.man.sock i with pendingConnQueue := rest }).Routed :=
        hr.setSock_keep rfl fun hs => hs
      refine hfirst.setSock_keep rfl fun _ => ?_
      rcases h.man.sock_setSock_cases i { h.man.sock i with pendingConnQueue := rest } conn with
        e | ⟨rfl, e⟩
      · rw [e]
        exact .inr hlive
      · exact absurd hst hlive.ne.2.1
  | @address i destAddr destPort hguard hsend =>
      exact hr.setSock_closed (hunused i trivial rfl).state
  | @connect i destAddr destPort hguard hsend =>
      have hroute : (⟨destAddr, destPort, (h.man.sock i).localPort⟩ : ConnKey).Routes h.man.addr :=
        hsend
      exact (hr.insertPending hroute i).setSock fun _ => hroute
  | close hst => exact hr.setSock_closed rfl
  | shutdown hst => exact hr.setSock_keep rfl fun _ => .inr (.inl hst)
  | endStream hends hsame => exact hr.setSock_closed hsame.state
  | release hst => exact (hr.unregisterSocket _).setSock_closed rfl
  | releaseOnClose hst hsend hsame => exact (hr.unregisterSocket _).setSock_closed hsame.state
  | releaseOnAck hty hest hst hsend hsame =>
      exact (hr.unregisterSocket _).setSock_closed hsame.state
  | spawn hty hl => exact hr.spawn (hs.bounded.listener hl) (Routed.segKey_routes haddr hnet _)
  | @establish now srcAddr ack i hty hpend hseq =>
      obtain ⟨hkey, hst⟩ := (hs.fits i).pending _ hpend
      have hport : (h.man.sock i).localPort = ack.destPort := congrArg ConnKey.localPort hkey
      have hroute := hr.pending hpend
      have hinsert : (⟨srcAddr, ack.srcPort, (h.man.sock i).localPort⟩ : ConnKey).Routes
          h.man.addr := by
        rw [hport]
        exact hroute
      refine ((hr.erasePending _).insertEstablished hinsert i).setSock fun _ => ?_
      rw [show ((h.man.sock i).setRwnd ack.window).markEstablished.key = (h.man.sock i).key by
        simp [TcpSocket.key, TcpSocket.setRwnd], hkey]
      exact hroute
  | finAcked hty hpend hest hst => exact (hr.eraseEstablished _).setSock_closed rfl
  | @peerFin now srcAddr fin i hty hest =>
      refine hr.setSock fun _ => ?_
      rw [show (h.man.sock i).markPeerFinReceived.key = (h.man.sock i).key from rfl,
        ((hs.fits i).established _ hest).1]
      exact hr.established hest
  | refused hty hest hpend => exact (hr.erasePending _).setSock_closed rfl

theorem routed_step (hs : h.Sound) (hr : h.man.Routed)
    (haddr : Packet.validAddress h.man.addr = true) {op : Op} (hop : h.Allowed op)
    (hnet : FromNetwork op) : (h.step op).man.Routed := by
  show (h.man.step op).Routed
  refine h.man.step_induction hr fun hv => ?_
  obtain ⟨m₁, hm, hq⟩ := h.man.exec_move hs.bounded hv
  exact (routed_move hs hr haddr hop hnet hm).quiet hq

theorem step_addr (hs : h.Sound) (op : Op) : (h.step op).man.addr = h.man.addr := by
  refine h.man.step_induction (I := fun m => m.addr = h.man.addr) rfl fun hv => ?_
  obtain ⟨m₁, hm, hq⟩ := h.man.exec_move hs.bounded hv
  rw [hq.addr]
  cases hm <;> rfl

end Host

end NetBridge
