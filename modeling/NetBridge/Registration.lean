import NetBridge.Moves

/-! # Sockets and their table entries

`Mapped m` says that a connection can be reached: every connected socket is the one
`establishedByKey_` holds under its key, every pending one the one in `synPendingByKey_`, every
listener the one in `listenersByPort_`.  The three `register` functions overwrite whatever they
find, so this is not an invariant of all runs.  It is one of the runs whose operations displace
nothing (`NonDisplacing`): no entry of a socket in use is overwritten with another socket, and no
socket in use gets another address. -/

namespace NetBridge

namespace TcpManager

variable (m : TcpManager)

/-- Socket `i`, with contents `s`, is found in the tables of `m`. -/
structure Registered (i : SockId) (s : TcpSocket) : Prop where
  live : s.Live → m.establishedByKey.lookup s.key = some i
  pending : s.state = .SYN_SENT → m.synPendingByKey.lookup s.key = some i
  listener : s.state = .LISTEN → m.listenersByPort.lookup s.localPort = some i

/-- Every socket in use is found in the tables. -/
def Mapped : Prop := ∀ i, m.Registered i (m.sock i)

/-- A SYN for a listener's port comes from an address without a connection. -/
def SynNonDisplacing (srcAddr : Int) (syn : Transport) : Prop :=
  (m.listenersByPort.lookup syn.destPort).isSome →
    ∀ j ∈ m.establishedByKey.lookup (segKey srcAddr syn), ¬ (m.sock j).Live

/-- An ACK that completes a pending socket comes from that socket's own destination, and no other
connection has that address. -/
def AckNonDisplacing (srcAddr : Int) (ack : Transport) : Prop :=
  ∀ i ∈ m.synPendingByKey.lookup (segKey srcAddr ack), ack.seqNum = (m.sock i).synSeq + 1 →
    ((m.sock i).state ≠ .CLOSED →
      (m.sock i).key = ⟨srcAddr, ack.srcPort, (m.sock i).localPort⟩) ∧
    ∀ j ∈ m.establishedByKey.lookup ⟨srcAddr, ack.srcPort, (m.sock i).localPort⟩,
      j = i ∨ ¬ (m.sock j).Live

instance (srcAddr : Int) (syn : Transport) : Decidable (m.SynNonDisplacing srcAddr syn) :=
  inferInstanceAs (Decidable (_ → _))

instance (srcAddr : Int) (ack : Transport) : Decidable (m.AckNonDisplacing srcAddr ack) :=
  inferInstanceAs (Decidable (∀ i ∈ m.synPendingByKey.lookup (segKey srcAddr ack), _))

/-- The operation overwrites no entry of another socket in use, and gives no socket in use another
address. -/
def NonDisplacing : Op → Prop
  | .bind i localPort => (m.sock i).state = .CLOSED ∨ localPort = (m.sock i).localPort
  | .listen i _ =>
      (m.sock i).state = .CLOSED →
        ∀ j ∈ m.listenersByPort.lookup (m.sock i).localPort, (m.sock j).state ≠ .LISTEN
  | .connect i destAddr destPort =>
      ¬ Rejected (m.sock i) destPort →
        if Sendable m.addr destAddr (m.sock i).localPort destPort then
          ∀ j ∈ m.synPendingByKey.lookup ⟨destAddr, destPort, (m.sock i).localPort⟩,
            j = i ∨ (m.sock j).state ≠ .SYN_SENT
        else
          (m.sock i).state = .CLOSED ∨ (m.sock i).state = .LISTEN ∨
            (destAddr = (m.sock i).remoteAddr ∧ destPort = (m.sock i).remotePort)
  | .accept i =>
      ∀ conn ∈ (m.sock i).pendingConnQueue.head?,
        (m.sock conn).state ≠ .LISTEN ∧ (m.sock conn).state ≠ .SYN_SENT
  | .receive _ srcAddr t =>
      match t.type with
      | .SYN => m.SynNonDisplacing srcAddr t
      | .ACK => m.AckNonDisplacing srcAddr t
      | .FIN | .DATA => True
  | .socket | .close _ | .release _ | .write .. | .read .. | .tick _ => True

instance : ∀ op, Decidable (m.NonDisplacing op)
  | .bind .. => inferInstanceAs (Decidable (_ ∨ _))
  | .listen .. => inferInstanceAs (Decidable (_ → _))
  | .connect .. => inferInstanceAs (Decidable (_ → _))
  | .accept i => inferInstanceAs (Decidable (∀ conn ∈ (m.sock i).pendingConnQueue.head?, _))
  | .receive _ srcAddr t =>
      match h : t.type with
      | .SYN => decidable_of_iff (m.SynNonDisplacing srcAddr t) (by simp only [NonDisplacing, h])
      | .ACK => decidable_of_iff (m.AckNonDisplacing srcAddr t) (by simp only [NonDisplacing, h])
      | .FIN | .DATA => .isTrue (by simp only [NonDisplacing, h])
  | .socket | .close _ | .release _ | .write .. | .read .. | .tick _ =>
      inferInstanceAs (Decidable True)

/-! ### Changing one socket -/

variable {m}

theorem Registered.of_closed {i : SockId} {s : TcpSocket} (h : s.state = .CLOSED) :
    m.Registered i s := by
  refine ⟨?_, ?_, ?_⟩
  · rintro (hs | hs)
    · rw [h] at hs
      cases hs
    · rw [h] at hs
      cases hs
  · intro hs
    rw [h] at hs
    cases hs
  · intro hs
    rw [h] at hs
    cases hs

theorem Registered.of_listen {i : SockId} {s : TcpSocket} (hs : s.state = .LISTEN)
    (hlook : m.listenersByPort.lookup s.localPort = some i) : m.Registered i s := by
  refine ⟨?_, ?_, fun _ => hlook⟩
  · rintro (h | h)
    · rw [hs] at h
      cases h
    · rw [hs] at h
      cases h
  · intro h
    rw [hs] at h
    cases h

theorem Registered.of_synSent {i : SockId} {s : TcpSocket} (hs : s.state = .SYN_SENT)
    (hlook : m.synPendingByKey.lookup s.key = some i) : m.Registered i s := by
  refine ⟨?_, fun _ => hlook, ?_⟩
  · rintro (h | h)
    · rw [hs] at h
      cases h
    · rw [hs] at h
      cases h
  · intro h
    rw [hs] at h
    cases h

theorem Registered.of_established {i : SockId} {s : TcpSocket} (hs : s.state = .ESTABLISHED)
    (hlook : m.establishedByKey.lookup s.key = some i) : m.Registered i s := by
  refine ⟨fun _ => hlook, ?_, ?_⟩
  · intro h
    rw [hs] at h
    cases h
  · intro h
    rw [hs] at h
    cases h

/-- Only the state and the addresses of the socket count. -/
theorem Registered.congr {i : SockId} {s s' : TcpSocket} (h : m.Registered i s)
    (hst : s'.state = s.state) (hkey : s'.key = s.key) : m.Registered i s' := by
  have hport : s'.localPort = s.localPort := congrArg ConnKey.localPort hkey
  refine ⟨?_, ?_, ?_⟩
  · intro hs
    rw [hkey]
    exact h.live (by unfold TcpSocket.Live at hs ⊢; rwa [hst] at hs)
  · intro hs
    rw [hkey]
    exact h.pending (hst ▸ hs)
  · intro hs
    rw [hport]
    exact h.listener (hst ▸ hs)

/-- A connected socket stays registered while it stays connected at its address. -/
theorem Registered.of_live {i : SockId} {s s' : TcpSocket} (h : m.Registered i s) (hs : s.Live)
    (hs' : s'.Live) (hkey : s'.key = s.key) : m.Registered i s' := by
  refine ⟨fun _ => hkey ▸ h.live hs, ?_, ?_⟩
  · intro hp
    rcases hs' with hs' | hs' <;> rw [hs'] at hp <;> cases hp
  · intro hp
    rcases hs' with hs' | hs' <;> rw [hs'] at hp <;> cases hp

/-- It is enough to look at the socket that changed and at the entries of the others. -/
theorem Mapped.setSock {i : SockId} {s : TcpSocket} (hothers : ∀ j ≠ i, m.Registered j (m.sock j))
    (hi : m.Registered i s) : (m.setSock i s).Mapped := by
  intro j
  by_cases hj : j = i
  · subst hj
    obtain hlt | hge := Nat.lt_or_ge j m.allSockets.length
    · rw [m.sock_setSock_self hlt]
      exact ⟨hi.live, hi.pending, hi.listener⟩
    · rw [sock_of_length_le _ (by simpa using hge)]
      exact .of_closed rfl
  · rw [m.sock_setSock_ne hj]
    exact ⟨(hothers j hj).live, (hothers j hj).pending, (hothers j hj).listener⟩

theorem Mapped.quiet {m' : TcpManager} (h : m.Mapped) (q : Quiet m m') : m'.Mapped := by
  intro i
  obtain ⟨hl, hp, hli⟩ := (h i).congr (q.sock i).state (q.sock i).key
  exact ⟨by rwa [q.establishedByKey], by rwa [q.synPendingByKey], by rwa [q.listenersByPort]⟩

/-! ### Changing one table -/

/-- Entering socket `i` under a key whose entry is of no other socket in use. -/
theorem Registered.insertListener {j i : SockId} {p : Int} (h : m.Registered j (m.sock j))
    (hji : j ≠ i)
    (hfree : ∀ j ∈ m.listenersByPort.lookup p, j = i ∨ (m.sock j).state ≠ .LISTEN) :
    ({ m with listenersByPort := m.listenersByPort.insert p i } : TcpManager).Registered j
      (m.sock j) := by
  refine ⟨h.live, h.pending, ?_⟩
  intro hs
  have hlook := h.listener hs
  show AList.lookup (m.sock j).localPort (AList.insert p i m.listenersByPort) = some j
  rw [Table.lookup_insert_eq]
  split_ifs with hp
  · obtain e | e := hfree j (hp ▸ hlook)
    · exact absurd e hji
    · exact absurd hs e
  · exact hlook

theorem Registered.insertPending {j i : SockId} {k : ConnKey} (h : m.Registered j (m.sock j))
    (hji : j ≠ i)
    (hfree : ∀ j ∈ m.synPendingByKey.lookup k, j = i ∨ (m.sock j).state ≠ .SYN_SENT) :
    ({ m with synPendingByKey := m.synPendingByKey.insert k i } : TcpManager).Registered j
      (m.sock j) := by
  refine ⟨h.live, ?_, h.listener⟩
  intro hs
  have hlook := h.pending hs
  show AList.lookup (m.sock j).key (AList.insert k i m.synPendingByKey) = some j
  rw [Table.lookup_insert_eq]
  split_ifs with hk
  · obtain e | e := hfree j (hk ▸ hlook)
    · exact absurd e hji
    · exact absurd hs e
  · exact hlook

theorem Registered.insertEstablished {j i : SockId} {k : ConnKey} (h : m.Registered j (m.sock j))
    (hji : j ≠ i) (hfree : ∀ j ∈ m.establishedByKey.lookup k, j = i ∨ ¬ (m.sock j).Live) :
    ({ m with establishedByKey := m.establishedByKey.insert k i } : TcpManager).Registered j
      (m.sock j) := by
  refine ⟨?_, h.pending, h.listener⟩
  intro hs
  have hlook := h.live hs
  show AList.lookup (m.sock j).key (AList.insert k i m.establishedByKey) = some j
  rw [Table.lookup_insert_eq]
  split_ifs with hk
  · obtain e | e := hfree j (hk ▸ hlook)
    · exact absurd e hji
    · exact absurd hs e
  · exact hlook

theorem Registered.erasePending {j i : SockId} {k : ConnKey} {s : TcpSocket}
    (h : m.Registered j s) (hji : j ≠ i) (hk : m.synPendingByKey.lookup k = some i) :
    ({ m with synPendingByKey := m.synPendingByKey.erase k } : TcpManager).Registered j s := by
  refine ⟨h.live, ?_, h.listener⟩
  intro hs
  have hlook := h.pending hs
  show AList.lookup s.key (AList.erase k m.synPendingByKey) = some j
  rw [Table.lookup_erase_eq]
  split_ifs with e
  · rw [e, hk] at hlook
    exact absurd (Option.some.inj hlook).symm hji
  · exact hlook

theorem Registered.eraseEstablished {j i : SockId} {k : ConnKey} {s : TcpSocket}
    (h : m.Registered j s) (hji : j ≠ i) (hk : m.establishedByKey.lookup k = some i) :
    ({ m with establishedByKey := m.establishedByKey.erase k } : TcpManager).Registered j s := by
  refine ⟨?_, h.pending, h.listener⟩
  intro hs
  have hlook := h.live hs
  show AList.lookup s.key (AList.erase k m.establishedByKey) = some j
  rw [Table.lookup_erase_eq]
  split_ifs with e
  · rw [e, hk] at hlook
    exact absurd (Option.some.inj hlook).symm hji
  · exact hlook

theorem Registered.unregisterSocket {j i : SockId} {s : TcpSocket} (h : m.Registered j s)
    (hji : j ≠ i) : (m.unregisterSocket i).Registered j s := by
  refine ⟨?_, ?_, ?_⟩
  · exact fun hs => (Table.lookup_eraseValue_eq_some _).mpr ⟨h.live hs, hji⟩
  · exact fun hs => (Table.lookup_eraseValue_eq_some _).mpr ⟨h.pending hs, hji⟩
  · exact fun hs => (Table.lookup_eraseValue_eq_some _).mpr ⟨h.listener hs, hji⟩

/-! ### The operations -/

theorem Mapped.accepted {i conn : SockId} {rest : List SockId} (h : m.Mapped)
    (hst : (m.sock i).state = .LISTEN) (hc : (m.sock conn).state ≠ .CLOSED)
    (hnd : (m.sock conn).state ≠ .LISTEN ∧ (m.sock conn).state ≠ .SYN_SENT) :
    ((m.setSock i { m.sock i with pendingConnQueue := rest }).setSock conn
      { (m.setSock i { m.sock i with pendingConnQueue := rest }).sock conn with
        state := .ESTABLISHED }).Mapped := by
  set m' := m.setSock i { m.sock i with pendingConnQueue := rest }
  have h' : m'.Mapped := .setSock (fun j _ => h j) ((h i).congr rfl rfl)
  have hlive : (m'.sock conn).Live := by
    have hci : conn ≠ i := by
      rintro rfl
      exact hnd.1 hst
    rw [m.sock_setSock_ne hci]
    unfold TcpSocket.Live
    cases hs : (m.sock conn).state with
    | CLOSED => exact absurd hs hc
    | LISTEN => exact absurd hs hnd.1
    | SYN_SENT => exact absurd hs hnd.2
    | ESTABLISHED => exact .inl rfl
    | SHUTDOWN => exact .inr rfl
  exact .setSock (fun j _ => h' j) ((h' conn).of_live hlive (.inl rfl) rfl)

/-- The child of a SYN, whose key was of no connection in use. -/
theorem Mapped.admitted {srcAddr : Int} {syn : Transport} {listener : SockId} (h : m.Mapped)
    (hb : m.Bounded) (hl : m.listenersByPort.lookup syn.destPort = some listener)
    (hfree : ∀ j ∈ m.establishedByKey.lookup (segKey srcAddr syn), ¬ (m.sock j).Live) :
    (m.admitted listener srcAddr syn).Mapped := by
  intro i
  by_cases hc : i = m.allSockets.length
  · subst hc
    rw [admitted_sock_child]
    exact .of_established rfl (AList.lookup_insert m.establishedByKey)
  · have hi := (h i).insertEstablished hc (fun j hj => .inr (hfree j hj))
    by_cases hli : i = listener
    · subst hli
      rw [admitted_sock_listener m (hb.listener hl)]
      have hk : ((m.sock i).enqueueAccepted m.allSockets.length).key = (m.sock i).key := by
        simp [TcpSocket.key]
      obtain ⟨h1, h2, h3⟩ := hi.congr (TcpSocket.enqueueAccepted_state _ _) hk
      exact ⟨h1, h2, h3⟩
    · rw [admitted_sock_ne m hli hc]
      exact ⟨hi.live, hi.pending, hi.listener⟩

/-- The SYN_SENT entry of a socket becomes its entry as a connection. -/
theorem Mapped.established {i : SockId} {k k' : ConnKey} {window : Int} (h : m.Mapped)
    (hpend : m.synPendingByKey.lookup k' = some i)
    (hkey : (m.sock i).state ≠ .CLOSED → (m.sock i).key = k)
    (hfree : ∀ j ∈ m.establishedByKey.lookup k, j = i ∨ ¬ (m.sock j).Live) :
    (({ m with
        synPendingByKey := m.synPendingByKey.erase k'
        establishedByKey := m.establishedByKey.insert k i } : TcpManager).setSock i
      ((m.sock i).setRwnd window).markEstablished).Mapped := by
  refine .setSock (fun j hj => ?_) ?_
  · exact ((h j).insertEstablished hj hfree).erasePending (m := { m with
      establishedByKey := m.establishedByKey.insert _ i }) hj hpend
  · by_cases hcl : (m.sock i).state = .CLOSED
    · exact .of_closed (by rw [TcpSocket.markEstablished_state]; exact if_pos hcl)
    · have hk : ((m.sock i).setRwnd window).markEstablished.key = (m.sock i).key := by
        simp [TcpSocket.key, TcpSocket.setRwnd]
      refine .of_established ?_ ?_
      · rw [TcpSocket.markEstablished_state]
        exact if_neg hcl
      · rw [hk, hkey hcl]
        exact AList.lookup_insert m.establishedByKey

/-- A non-displacing move keeps every socket in use registered. -/
theorem Mapped.move {op : Op} {m₁ : TcpManager} (h : m.Mapped) (hb : m.Bounded)
    (hnd : m.NonDisplacing op) (hm : Move m op m₁) : m₁.Mapped := by
  cases hm with
  | quiet => exact h
  | socket =>
      intro i
      rw [sock_socket]
      exact ⟨(h i).live, (h i).pending, (h i).listener⟩
  | bind i localPort =>
      refine .setSock (fun j _ => h j) ?_
      obtain hcl | hp := hnd
      · exact .of_closed hcl
      · exact (h i).congr rfl (by rw [hp]; rfl)
  | @listen i backlog hst =>
      refine .setSock (fun j hj => (h j).insertListener hj fun j hj => .inr (hnd hst j hj)) ?_
      exact .of_listen rfl (AList.lookup_insert m.listenersByPort)
  | @acceptClosed i conn rest hst hq hc => exact .setSock (fun j _ => h j) ((h i).congr rfl rfl)
  | @accept i conn rest hst hq hc =>
      exact h.accepted hst hc (hnd conn (by rw [hq]; rfl))
  | @address i destAddr destPort hguard hs =>
      have hnd := hnd hguard
      rw [if_neg hs] at hnd
      refine .setSock (fun j _ => h j) ?_
      obtain hcl | hli | ⟨ha, hp⟩ := hnd
      · exact .of_closed hcl
      · exact .of_listen hli ((h i).listener hli)
      · exact (h i).congr rfl (by rw [ha, hp]; rfl)
  | @connect i destAddr destPort hguard hs =>
      have hnd := hnd hguard
      rw [if_pos hs] at hnd
      refine .setSock (fun j hj => (h j).insertPending hj hnd) ?_
      exact .of_synSent rfl (AList.lookup_insert m.synPendingByKey)
  | close hst => exact .setSock (fun j _ => h j) (.of_closed rfl)
  | @shutdown i hst => exact .setSock (fun j _ => h j) ((h i).of_live (.inl hst) (.inr rfl) rfl)
  | endStream hends hs => exact .setSock (fun j _ => h j) (.of_closed hs.state)
  | release hst => exact .setSock (fun j hj => (h j).unregisterSocket hj) (.of_closed rfl)
  | releaseOnClose hst hsend hs =>
      exact .setSock (fun j hj => (h j).unregisterSocket hj) (.of_closed hs.state)
  | releaseOnAck hty hest hst hsend hs =>
      exact .setSock (fun j hj => (h j).unregisterSocket hj) (.of_closed hs.state)
  | @spawn now srcAddr syn listener hty hl =>
      simp only [NonDisplacing, hty] at hnd
      exact h.admitted hb hl (hnd (by rw [hl]; rfl))
  | @establish now srcAddr ack i hty hpend hseq =>
      simp only [NonDisplacing, hty] at hnd
      obtain ⟨hkey, hfree⟩ := hnd i hpend hseq
      exact h.established hpend hkey hfree
  | finAcked hty hpend hest hst =>
      exact .setSock (fun j hj => (h j).eraseEstablished hj hest) (.of_closed rfl)
  | @peerFin now srcAddr fin i hty hest =>
      refine .setSock (fun j _ => h j) ?_
      by_cases hst : (m.sock i).state = .ESTABLISHED
      · exact (h i).of_live (.inl hst) (.inr (if_pos hst)) rfl
      · exact (h i).congr (if_neg hst) rfl
  | refused hty hest hpend =>
      exact .setSock (fun j hj => (h j).erasePending hj hpend) (.of_closed rfl)

theorem Mapped.step {op : Op} (h : m.Mapped) (hb : m.Bounded) (hnd : m.NonDisplacing op) :
    (m.step op).Mapped := by
  refine m.step_induction h fun hv => ?_
  obtain ⟨m₁, hm, hq⟩ := m.exec_move hb hv
  exact (h.move hb hnd hm).quiet hq

theorem Mapped.new (addr : Int) : (TcpManager.new addr).Mapped := by
  intro i
  rw [sock_of_length_le _ (Nat.zero_le i)]
  exact .of_closed rfl

theorem mapped_run (addr : Int) {ops : List Op}
    (hops : Guarded TcpManager.step NonDisplacing (new addr) ops) :
    (run TcpManager.step (new addr) ops).Mapped := by
  have h : (run TcpManager.step (new addr) ops).Mapped ∧
      (run TcpManager.step (new addr) ops).Bounded := by
    refine guarded_induction (I := fun m => m.Mapped ∧ m.Bounded) ?_ ?_ hops
    · exact fun m op h hop => ⟨h.1.step h.2 hop, h.2.step op⟩
    · exact ⟨.new addr, .new addr⟩
  exact h.1

theorem onSyn_keeps_stream (hb : m.Bounded) (srcAddr : Int) (syn : Transport) {i : SockId}
    (hi : i < m.allSockets.length) :
    ((m.onSyn srcAddr syn).sock i).rcvNxt = (m.sock i).rcvNxt ∧
      ((m.onSyn srcAddr syn).sock i).recvBuf = (m.sock i).recvBuf ∧
      ((m.onSyn srcAddr syn).sock i).outstanding = (m.sock i).outstanding ∧
      ((m.onSyn srcAddr syn).sock i).state = (m.sock i).state ∧
      ((m.onSyn srcAddr syn).sock i).key = (m.sock i).key := by
  cases hl : m.listenersByPort.lookup syn.destPort with
  | none =>
      obtain ⟨out, e, _⟩ := m.onSyn_refused srcAddr hl
      rw [e]
      exact ⟨rfl, rfl, rfl, rfl, rfl⟩
  | some listener =>
      rw [m.onSyn_admits hl (hb.listener hl)]
      obtain ⟨out, e, _⟩ := (m.admitted listener srcAddr syn).sendAck_cases syn.destPort srcAddr
        syn.srcPort (syn.seqNum + 1) TcpSocket.RECV_BUF_CAP
      rw [e, emit_sock]
      by_cases hli : i = listener
      · subst hli
        rw [m.admitted_sock_listener hi, TcpSocket.enqueueAccepted]
        split_ifs <;> exact ⟨rfl, rfl, rfl, rfl, rfl⟩
      · rw [m.admitted_sock_ne hli (Nat.ne_of_lt hi)]
        exact ⟨rfl, rfl, rfl, rfl, rfl⟩

/-- **Connections are not displaced** as long as no operation overwrites an entry in use: every
socket in use is the one its table holds, and a SYN leaves every connection as it was. -/
theorem live_connection_not_displaced (addr : Int) (ops : List Op)
    (hops : Guarded TcpManager.step NonDisplacing (new addr) ops) :
    (run TcpManager.step (new addr) ops).Mapped ∧
      ∀ (now srcAddr : Int) (syn : Transport), syn.type = .SYN →
        (run TcpManager.step (new addr) ops).NonDisplacing (.receive now srcAddr syn) →
        ∀ i, ((run TcpManager.step (new addr) ops).sock i).Live →
          let s := (run TcpManager.step (new addr) ops).sock i
          let m' := (run TcpManager.step (new addr) ops).step (.receive now srcAddr syn)
          (m'.sock i).rcvNxt = s.rcvNxt ∧ (m'.sock i).recvBuf = s.recvBuf ∧
            (m'.sock i).outstanding = s.outstanding ∧
            m'.establishedByKey.lookup s.key = some i := by
  have hmap := mapped_run addr hops
  have hb := bounded_run addr ops
  refine ⟨hmap, ?_⟩
  intro now srcAddr syn hty hnd i hlive s m'
  have hi : i < (run TcpManager.step (new addr) ops).allSockets.length := by
    by_contra hge
    rw [sock_of_length_le _ (Nat.le_of_not_lt hge)] at hlive
    rcases hlive with h | h <;> cases h
  have hm' : m' = (run TcpManager.step (new addr) ops).onSyn srcAddr syn := by
    show TcpManager.step _ _ = _
    rw [step_receive, receiveTransport, hty]
  obtain ⟨hrcv, hbuf, hout, hst, hkey⟩ := onSyn_keeps_stream hb srcAddr syn hi
  rw [← hm'] at hrcv hbuf hout hst hkey
  refine ⟨hrcv, hbuf, hout, ?_⟩
  have hlive' : (m'.sock i).Live := by
    unfold TcpSocket.Live at hlive ⊢
    rwa [hst]
  have h := (hmap.step hb hnd i).live hlive'
  rwa [show ((run TcpManager.step (new addr) ops).step (.receive now srcAddr syn)).sock i =
    m'.sock i from rfl, hkey] at h

theorem legal_synTo80 : Transport.Legal 5 80 [] := by decide

theorem legal_otherSynTo80 : Transport.Legal 6 80 [] := by decide

/-- A client's SYN to port 80. -/
def synTo80 : Transport := ⟨5, 80, .SYN, 0, 0, [], legal_synTo80⟩

/-- Another client's SYN to that port. -/
def otherSynTo80 : Transport := ⟨6, 80, .SYN, 0, 0, [], legal_otherSynTo80⟩

/-- A listener with one connection, and the SYN of another client. -/
theorem live_connection_not_displaced_other_client :
    let m := run TcpManager.step (new 1)
      [.socket, .bind 0 80, .listen 0 5, .receive 0 2 synTo80]
    m.Mapped ∧ (m.sock 1).Live ∧
      (m.step (.receive 1 2 otherSynTo80)).establishedByKey.lookup (m.sock 1).key = some 1 := by
  have h := live_connection_not_displaced 1
    [.socket, .bind 0 80, .listen 0 5, .receive 0 2 synTo80] (by decide)
  exact ⟨h.1, by decide, (h.2 1 2 otherSynTo80 rfl (by decide) 1 (by decide)).2.2.2⟩

/-- The second copy of a SYN takes the entry of the connection the first one made. -/
theorem repeated_syn_displaces :
    ¬ (run TcpManager.step (new 1)
      [.socket, .bind 0 80, .listen 0 5, .receive 0 2 synTo80, .receive 1 2 synTo80]).Mapped := by
  intro h
  have hlook := (h 1).live (by decide)
  revert hlook
  decide

end TcpManager

end NetBridge
