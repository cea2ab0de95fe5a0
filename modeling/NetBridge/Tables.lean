import NetBridge.Discipline
import NetBridge.Retransmission

/-! # Dead sockets in the tables

In a disciplined run every entry of a table carries the key of its socket, and that socket is in
the state of the table or closed (`Host.Sound`).  The second case is a dead entry.  `release` and
the acknowledgement of a FIN take a socket out of the tables when they close it; `close` on a
listener or a pending socket and the `read` that ends a stream do not.  `LeavesNoDead` excludes
just these two, and then no run has a dead entry. -/

namespace NetBridge

namespace TcpManager

/-- No table holds socket `j`. -/
structure Unregistered (m : TcpManager) (j : SockId) : Prop where
  listener : ∀ p, m.listenersByPort.lookup p ≠ some j
  pending : ∀ k, m.synPendingByKey.lookup k ≠ some j
  established : ∀ k, m.establishedByKey.lookup k ≠ some j

/-- No table holds a closed socket. -/
def NoDead (m : TcpManager) : Prop := ∀ j, (m.sock j).state = .CLOSED → m.Unregistered j

/-- The operation does not close a socket that a table still holds after it: no `close` of a
registered listener or pending socket, no `read` to the end of a registered stream. -/
def LeavesNoDead (m : TcpManager) : Op → Prop
  | .close i =>
      ((m.sock i).state = .LISTEN → m.listenersByPort.lookup (m.sock i).localPort ≠ some i) ∧
        ((m.sock i).state = .SYN_SENT → m.synPendingByKey.lookup (m.sock i).key ≠ some i)
  | .read i buf pos len =>
      (m.sock i).EndsStream buf pos len → m.establishedByKey.lookup (m.sock i).key ≠ some i
  | _ => True

instance (m : TcpManager) : ∀ op, Decidable (m.LeavesNoDead op)
  | .close _ => inferInstanceAs (Decidable (_ ∧ _))
  | .read .. => inferInstanceAs (Decidable (_ → _))
  | .socket | .bind .. | .listen .. | .accept _ | .connect .. | .release _ | .write ..
  | .receive .. | .tick _ => inferInstanceAs (Decidable True)

variable {m m₁ : TcpManager} {j : SockId}

theorem Fewer.unregistered (h : Fewer j m m₁) (hj : m.Unregistered j) : m₁.Unregistered j :=
  ⟨fun p hp => hj.listener p (h.listener p hp), fun k hk => hj.pending k (h.pending k hk),
    fun k hk => hj.established k (h.established k hk)⟩

theorem unregisterSocket_unregistered (m : TcpManager) (j : SockId) :
    (m.unregisterSocket j).Unregistered j :=
  ⟨fun _ h => ((Table.lookup_eraseValue_eq_some _).mp h).2 rfl,
    fun _ h => ((Table.lookup_eraseValue_eq_some _).mp h).2 rfl,
    fun _ h => ((Table.lookup_eraseValue_eq_some _).mp h).2 rfl⟩

/-! ### The tables a state excludes -/

theorem Fits.listener_only {s : TcpSocket} (h : m.Fits j s) (hst : s.state = .LISTEN)
    (hnot : m.listenersByPort.lookup s.localPort ≠ some j) : m.Unregistered j := by
  refine ⟨?_, ?_, ?_⟩
  · intro p hp
    obtain ⟨rfl, _⟩ := h.listener p hp
    exact hnot hp
  · intro k hk
    rcases (h.pending k hk).2 with e | e <;> rw [hst] at e <;> cases e
  · intro k hk
    obtain e | e := (h.established k hk).2
    · exact e.ne.2.1 hst
    · rw [hst] at e
      cases e

theorem Fits.pending_only {s : TcpSocket} (h : m.Fits j s) (hst : s.state = .SYN_SENT)
    (hnot : m.synPendingByKey.lookup s.key ≠ some j) : m.Unregistered j := by
  refine ⟨?_, ?_, ?_⟩
  · intro p hp
    rcases (h.listener p hp).2 with e | e <;> rw [hst] at e <;> cases e
  · intro k hk
    obtain ⟨rfl, _⟩ := h.pending k hk
    exact hnot hk
  · intro k hk
    obtain e | e := (h.established k hk).2
    · exact e.ne.2.2 hst
    · rw [hst] at e
      cases e

theorem Fits.established_only {s : TcpSocket} (h : m.Fits j s) (hst : s.Live)
    (hnot : m.establishedByKey.lookup s.key ≠ some j) : m.Unregistered j := by
  obtain ⟨hc, hl, hp⟩ := hst.ne
  refine ⟨?_, ?_, ?_⟩
  · intro p hk
    obtain e | e := (h.listener p hk).2
    · exact hl e
    · exact hc e
  · intro k hk
    obtain e | e := (h.pending k hk).2
    · exact hp e
    · exact hc e
  · intro k hk
    obtain ⟨rfl, _⟩ := h.established k hk
    exact hnot hk

/-! ### The operations -/

/-- It is enough to look at the socket that changed and at the entries of the others. -/
theorem noDead_setSock {t : TcpManager} {i : SockId} {s : TcpSocket} (hnd : m.NoDead)
    (hlt : i < t.allSockets.length) (hsock : ∀ j, t.sock j = m.sock j)
    (hfewer : ∀ j ≠ i, Fewer j m t) (hi : s.state = .CLOSED → t.Unregistered i) :
    (t.setSock i s).NoDead := by
  intro j hj
  by_cases hji : j = i
  · subst hji
    rw [t.sock_setSock_self hlt] at hj
    obtain ⟨h1, h2, h3⟩ := hi hj
    exact ⟨h1, h2, h3⟩
  · rw [t.sock_setSock_ne hji, hsock] at hj
    obtain ⟨h1, h2, h3⟩ := (hfewer j hji).unregistered (hnd j hj)
    exact ⟨h1, h2, h3⟩

theorem noDead_update {i : SockId} {s : TcpSocket} (hnd : m.NoDead)
    (hlt : i < m.allSockets.length) (hi : s.state = .CLOSED → m.Unregistered i) :
    (m.setSock i s).NoDead := noDead_setSock hnd hlt (fun _ => rfl) (fun _ _ => .refl) hi

theorem noDead_released {i : SockId} (s : TcpSocket) (hnd : m.NoDead)
    (hlt : i < m.allSockets.length) : ((m.unregisterSocket i).setSock i s).NoDead :=
  noDead_setSock hnd hlt (fun _ => rfl) (fun _ _ => .unregisterSocket i)
    fun _ => m.unregisterSocket_unregistered i

/-- A move that leaves no dead entry. -/
theorem noDead_move {op : Op} (hb : m.Bounded) (hv : m.Valid op) (hf : ∀ j, m.Fits j (m.sock j))
    (hop : m.LeavesNoDead op) (hnd : m.NoDead) (hm : Move m op m₁) : m₁.NoDead := by
  cases hm with
  | quiet => exact hnd
  | socket =>
      intro j hj
      rw [sock_socket] at hj
      exact Fewer.socket.unregistered (hnd j hj)
  | bind i localPort => exact noDead_update hnd (hv i rfl) fun hcl => hnd i hcl
  | @listen i backlog hst =>
      exact noDead_setSock (t := { m with listenersByPort := _ }) hnd (hv i rfl) (fun _ => rfl)
        (fun j hj => .insertListener _ hj) fun hcl => by cases hcl
  | @acceptClosed i conn rest hst hq hc => exact noDead_update hnd (hv i rfl) fun hcl => hnd i hcl
  | @accept i conn rest hst hq hc =>
      have hmem : conn ∈ (m.sock i).pendingConnQueue := by
        rw [hq]
        exact List.mem_cons_self
      have hdequeue : (m.setSock i { m.sock i with pendingConnQueue := rest }).NoDead :=
        noDead_update hnd (hv i rfl) fun hcl => hnd i hcl
      exact noDead_update hdequeue (by simpa using hb.queued hmem) fun hcl => by cases hcl
  | @address i destAddr destPort hguard hs =>
      exact noDead_update hnd (hv i rfl) fun hcl => hnd i hcl
  | @connect i destAddr destPort hguard hs =>
      exact noDead_setSock (t := { m with synPendingByKey := _ }) hnd (hv i rfl) (fun _ => rfl)
        (fun j hj => .insertPending _ hj) fun hcl => by cases hcl
  | @close i hst =>
      refine noDead_update hnd (hv i rfl) fun _ => ?_
      obtain hst | hst := hst
      · exact (hf i).listener_only hst (hop.1 hst)
      · exact (hf i).pending_only hst (hop.2 hst)
  | @shutdown i hst => exact noDead_update hnd (hv i rfl) fun hcl => by cases hcl
  | @endStream i buf pos len s hends hs =>
      exact noDead_update hnd (hv i rfl) fun _ => (hf i).established_only hends.1 (hop hends)
  | @release i hst => exact noDead_released _ hnd (hv i rfl)
  | @releaseOnClose i s hst hsend hs => exact noDead_released s hnd (hv i rfl)
  | @releaseOnAck now srcAddr ack i s hty hest hst hsend hs =>
      exact noDead_released s hnd (hb.established hest)
  | @spawn now srcAddr syn listener hty hl =>
      intro j hj
      by_cases hlen : j = m.allSockets.length
      · subst hlen
        rw [admitted_sock_child] at hj
        cases hj
      · refine (Fewer.admitted (hb.listener hl) srcAddr syn hlen).unregistered (hnd j ?_)
        by_cases hjl : j = listener
        · subst hjl
          rwa [m.admitted_sock_listener (hb.listener hl), TcpSocket.enqueueAccepted_state] at hj
        · rwa [m.admitted_sock_ne hjl hlen] at hj
  | @establish now srcAddr ack i hty hpend hseq =>
      refine noDead_setSock (t := { m with synPendingByKey := _, establishedByKey := _ }) hnd
        (hb.pending hpend) (fun _ => rfl) (fun j hj => .complete _ _ hj) fun hcl => ?_
      -- only a closed socket stays closed, and no closed socket is pending
      rw [TcpSocket.markEstablished_state] at hcl
      split_ifs at hcl with hst
      exact absurd hpend ((hnd i hst).pending _)
  | @finAcked now srcAddr ack i hty hpend hest hst =>
      refine noDead_setSock (t := { m with establishedByKey := _ }) hnd (hb.established hest)
        (fun _ => rfl) (fun j _ => .eraseEstablished _) fun _ => ?_
      refine ((Fewer.eraseEstablished _).fits (hf i)).established_only (.inr hst) ?_
      rw [((hf i).established _ hest).1]
      intro h
      rw [AList.lookup_erase] at h
      cases h
  | @peerFin now srcAddr fin i hty hest =>
      refine noDead_update hnd (hb.established hest) fun hcl => hnd i ?_
      have hcl : (if (m.sock i).state = .ESTABLISHED then .SHUTDOWN else (m.sock i).state) =
          TcpState.CLOSED := hcl
      split_ifs at hcl
      exact hcl
  | @refused now srcAddr fin i hty hest hpend =>
      refine noDead_setSock (t := { m with synPendingByKey := _ }) hnd (hb.pending hpend)
        (fun _ => rfl) (fun j _ => .erasePending _) fun _ => ?_
      obtain ⟨hkey, hst | hst⟩ := (hf i).pending _ hpend
      · refine ((Fewer.erasePending _).fits (hf i)).pending_only hst ?_
        rw [hkey]
        intro h
        rw [AList.lookup_erase] at h
        cases h
      · exact absurd hpend ((hnd i hst).pending _)

end TcpManager

/-! ### Disciplined runs -/

namespace Host

/-- The discipline, and no call that leaves a dead entry. -/
def Careful (h : Host) (op : Op) : Prop := h.Allowed op ∧ h.man.LeavesNoDead op

instance (h : Host) (op : Op) : Decidable (h.Careful op) := inferInstanceAs (Decidable (_ ∧ _))

variable {h : Host}

theorem noDead_step (hs : h.Sound) (hnd : h.man.NoDead) {op : Op} (hop : h.Careful op) :
    (h.step op).man.NoDead := by
  refine h.man.step_induction (I := TcpManager.NoDead) hnd fun hv => ?_
  obtain ⟨m₁, hm, hq⟩ := h.man.exec_move hs.bounded hv
  have hnd₁ := TcpManager.noDead_move hs.bounded hv hs.fits hop.2 hnd hm
  intro j hj
  rw [(hq.sock j).state] at hj
  exact (TcpManager.Fewer.quiet hq).unregistered (hnd₁ j hj)

/-- What careful runs keep. -/
def Clean (h : Host) : Prop := h.Sound ∧ h.man.NoDead

theorem Clean.step (hc : h.Clean) {op : Op} (hop : h.Careful op) : (h.step op).Clean :=
  ⟨hc.1.step hop.1, noDead_step hc.1 hc.2 hop⟩

theorem Clean.new (addr : Int) : (Host.new addr).Clean := by
  refine ⟨.new addr, fun j _ => ⟨?_, ?_, ?_⟩⟩
  · exact fun p hp => by cases hp
  · exact fun k hk => by cases hk
  · exact fun k hk => by cases hk

theorem Clean.run (hc : h.Clean) {ops : List Op} (hops : Guarded Host.step Careful h ops) :
    (NetBridge.run Host.step h ops).Clean :=
  guarded_induction (fun _ _ hc hop => hc.step hop) hc hops

/-! ### Closed for good -/

theorem closed_update {s s' : TcpSocket} (hu : Update s s') (hcl : s.state = .CLOSED) :
    s'.state = .CLOSED := by
  have hlive : ¬ s.Live := fun hl => hl.ne.1 hcl
  cases hu with
  | bind | queue => exact hcl
  | close | release => rfl
  | accept hne => exact absurd hcl hne
  | shutdown h => rw [hcl] at h; cases h
  | fin h => rw [hcl] at h; cases h
  | write now buf n h => rw [hcl] at h; cases h
  | take h => exact absurd h hlive
  | window v h => exact absurd h hlive
  | establish v h =>
      rw [TcpSocket.markEstablished_of_closed (s.setRwnd v) hcl]
      exact hcl
  | advance now h => exact absurd h hlive
  | store h => exact absurd h hlive
  | peerFin => exact (if_neg (by rw [hcl]; decide)).trans hcl
  | timeout now h => exact (sameConn_timedOut s now).state.trans hcl

/-- An opened socket that is closed. -/
def ClosedFor (i : SockId) (h : Host) : Prop :=
  h.phase i = .opened ∧ i < h.man.allSockets.length ∧ (h.man.sock i).state = .CLOSED

instance (i : SockId) (h : Host) : Decidable (ClosedFor i h) := inferInstanceAs (Decidable (_ ∧ _))

theorem closedFor_step (hs : h.Sound) {i : SockId} (hi : ClosedFor i h) {op : Op}
    (hop : h.Allowed op) : ClosedFor i (h.step op) := by
  obtain ⟨hph, hlt, hcl⟩ := hi
  have hnot : ∀ k, TcpManager.Opens op → op.target = some k → i ≠ k := by
    rintro k ho hk rfl
    exact ((hs.opens_unheld hop).2 i ho hk).1 hph
  refine ⟨?_, Nat.lt_of_lt_of_le hlt (h.man.length_le_step hs.bounded op), ?_⟩
  · show h.nextPhase op i = .opened
    cases op with
    | socket => rw [nextPhase, Function.update_of_ne (Nat.ne_of_lt hlt), hph]
    | bind k localPort =>
        have hik : i ≠ k := by
          rintro rfl
          rw [show h.phase i = .fresh from hop] at hph
          cases hph
        rw [nextPhase, Function.update_of_ne hik, hph]
    | listen k backlog => rw [nextPhase, Function.update_of_ne (hnot k trivial rfl), hph]
    | connect k _ _ => rw [nextPhase, Function.update_of_ne (hnot k trivial rfl), hph]
    | accept | close | release | write | read | receive | tick => exact hph
  · show ((h.man.step op).sock i).state = .CLOSED
    by_cases ho : TcpManager.Opens op
    · obtain ⟨k, hk⟩ := ho.target
      rw [h.man.step_opens_other ho hk (hnot k ho hk)]
      exact hcl
    · exact Update.induction (P := fun s => s.state = .CLOSED) (fun _ _ hu hP => closed_update hu hP)
        (h.man.step_updates hs.bounded ho (fun _ _ _ _ => hs.pendingWaits _) i hlt) hcl

theorem closedFor_run (hc : h.Clean) {i : SockId} (hi : ClosedFor i h) {ops : List Op}
    (hops : Guarded Host.step Careful h ops) :
    ClosedFor i (NetBridge.run Host.step h ops) := by
  have h' : (NetBridge.run Host.step h ops).Clean ∧ ClosedFor i (NetBridge.run Host.step h ops) :=
    guarded_induction (I := fun h => h.Clean ∧ ClosedFor i h)
      (fun _ _ hI hop => ⟨hI.1.step hop, closedFor_step hI.1.1 hI.2 hop.1⟩) ⟨hc, hi⟩ hops
  exact h'.2

/-- **The tables hold no dead socket** in a careful run: entries carry the key of their socket and
its state is the one of the table.  A SYN to a port without a listener is refused, and a socket
that has been closed is never found or retransmitted again. -/
theorem tables_hold_no_dead_socket (addr : Int) (ops : List Op)
    (hops : Guarded Host.step Careful (Host.new addr) ops) :
    let h := NetBridge.run Host.step (Host.new addr) ops
    let m := h.man
    (∀ p i, m.listenersByPort.lookup p = some i →
      (m.sock i).state = .LISTEN ∧ (m.sock i).localPort = p) ∧
    (∀ k i, m.synPendingByKey.lookup k = some i →
      (m.sock i).state = .SYN_SENT ∧ (m.sock i).key = k) ∧
    (∀ k i, m.establishedByKey.lookup k = some i →
      ((m.sock i).state = .ESTABLISHED ∨ (m.sock i).state = .SHUTDOWN) ∧ (m.sock i).key = k) ∧
    (∀ srcAddr syn, (∀ l, (m.sock l).state = .LISTEN → (m.sock l).localPort ≠ syn.destPort) →
      ∃ out, m.onSyn srcAddr syn = m.emit out ∧ ∀ p ∈ out, p.seg.type = .FIN) ∧
    (∀ now, ∃ out, (m.retransmissionTick now).sent = m.sent ++ out ∧
      ∀ p ∈ out, ∃ i, (m.sock i).state ≠ .CLOSED ∧
        ∃ seg ∈ (m.sock i).outstanding, IsDataOf m.addr (m.sock i) p seg) ∧
    ∀ i, ClosedFor i h → ∀ more, Guarded Host.step Careful h more →
      ((NetBridge.run Host.step h more).man.sock i).state = .CLOSED ∧
        (NetBridge.run Host.step h more).man.Unregistered i := by
  intro h m
  have hc : h.Clean := (Clean.new addr).run hops
  have hlistener : ∀ p i, m.listenersByPort.lookup p = some i →
      (m.sock i).state = .LISTEN ∧ (m.sock i).localPort = p := by
    intro p i hp
    obtain ⟨hport, hst | hst⟩ := (hc.1.fits i).listener p hp
    · exact ⟨hst, hport⟩
    · exact absurd hp ((hc.2 i hst).listener p)
  have hestablished : ∀ k i, m.establishedByKey.lookup k = some i →
      (m.sock i).Live ∧ (m.sock i).key = k := by
    intro k i hk
    obtain ⟨hkey, hst | hst⟩ := (hc.1.fits i).established k hk
    · exact ⟨hst, hkey⟩
    · exact absurd hk ((hc.2 i hst).established k)
  refine ⟨hlistener, ?_, hestablished, ?_, ?_, ?_⟩
  · intro k i hk
    obtain ⟨hkey, hst | hst⟩ := (hc.1.fits i).pending k hk
    · exact ⟨hst, hkey⟩
    · exact absurd hk ((hc.2 i hst).pending k)
  · intro srcAddr syn hnone
    have hl : m.listenersByPort.lookup syn.destPort = none := by
      cases hl : m.listenersByPort.lookup syn.destPort with
      | none => rfl
      | some l =>
          obtain ⟨hst, hport⟩ := hlistener _ l hl
          exact absurd hport (hnone l hst)
    obtain ⟨out, e, hout⟩ := m.onSyn_refused srcAddr hl
    exact ⟨out, e, fun p hp => (hout p hp).type⟩
  · intro now
    obtain ⟨out, hsent, hout⟩ := m.tick_sends now
    refine ⟨out, hsent, fun p hp => ?_⟩
    obtain ⟨k, i, hk, hseg⟩ := hout p hp
    exact ⟨i, (hestablished k i hk).1.ne.1, hseg⟩
  · intro i hi more hmore
    have hcl := (closedFor_run hc hi hmore).2.2
    exact ⟨hcl, (hc.run hmore).2 i hcl⟩

/-- A SYN to the port of the listener below. -/
def synTo90 : Transport := ⟨5, 90, .SYN, 0, 0, [], by decide⟩

/-- A listener with one connection that is released. -/
def releaseListener : List Op :=
  [.socket, .bind 0 90, .listen 0 5, .receive 0 2 synTo90, .accept 0, .release 0]

/-- After the release a SYN is refused, and the listener stays closed and unregistered. -/
theorem tables_hold_no_dead_socket_released :
    let h := NetBridge.run Host.step (Host.new 1) releaseListener
    (h.man.sock 1).state = .ESTABLISHED ∧
      (∃ out, h.man.onSyn 3 synTo90 = h.man.emit out ∧ ∀ p ∈ out, p.seg.type = .FIN) ∧
      (NetBridge.run Host.step h [.receive 9 3 synTo90]).man.Unregistered 0 := by
  have h := tables_hold_no_dead_socket 1 releaseListener (by decide)
  refine ⟨by decide, h.2.2.2.1 3 synTo90 ?_, (h.2.2.2.2.2 0 (by decide) _ (by decide)).2⟩
  -- sockets 0 and 1 are the only ones
  intro l hl
  match l with
  | 0 => exact absurd hl (by decide)
  | 1 => exact absurd hl (by decide)
  | l + 2 =>
      have hlen : (NetBridge.run Host.step (Host.new 1) releaseListener).man.allSockets.length = 2 := by
        decide
      rw [TcpManager.sock_of_length_le _ (hlen.trans_le (Nat.le_add_left 2 l))] at hl
      cases hl

/-- `close` leaves the listener in its table: the entry is dead, and the next SYN still makes a
connection. -/
theorem closed_listener_stays_registered :
    let h := NetBridge.run Host.step (Host.new 1)
      [.socket, .bind 0 90, .listen 0 5, .close 0]
    Guarded Host.step Allowed (Host.new 1) [.socket, .bind 0 90, .listen 0 5, .close 0] ∧
      ¬ (∀ p i, h.man.listenersByPort.lookup p = some i →
        (h.man.sock i).state = .LISTEN ∧ (h.man.sock i).localPort = p) ∧
      (h.man.onSyn 2 synTo90).establishedByKey.lookup ⟨2, 5, 90⟩ = some 1 := by
  refine ⟨by decide, ?_, by decide⟩
  intro h
  have hst := (h 90 0 (by decide)).1
  revert hst
  decide

end Host

end NetBridge
