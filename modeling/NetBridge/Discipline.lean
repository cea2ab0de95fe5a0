import Mathlib.Logic.Function.Basic
import NetBridge.Updates

/-! # Applications that open each socket once

The calls that give a socket its addresses are meant to be made in order and once: `bind`, then
one `connect` or one `listen`.  A `Host` is a manager together with the phase that its
applications have reached with every socket, and `Host.Allowed` is this discipline.

`Host.Sound` is what every disciplined run keeps, whatever segments arrive: an entry of a table
carries the key of the socket it points to, and that socket is in the state of the table or
closed. -/

namespace NetBridge

/-- How far the applications have got with a socket. -/
inductive Phase where
  | fresh
  | bound
  | opened
deriving DecidableEq

/-- A manager and the phases of its sockets. -/
structure Host where
  man : TcpManager
  phase : SockId → Phase

namespace Host

/-- No socket yet: one that `onSyn` makes is opened from the start. -/
def new (addr : Int) : Host := ⟨TcpManager.new addr, fun _ => .opened⟩

variable (h : Host)

/-- The phases after an operation. -/
def nextPhase : Op → SockId → Phase
  | .socket => Function.update h.phase h.man.allSockets.length .fresh
  | .bind i _ => Function.update h.phase i .bound
  | .listen i _ => Function.update h.phase i .opened
  | .connect i _ _ => Function.update h.phase i .opened
  | _ => h.phase

def step (op : Op) : Host := ⟨h.man.step op, h.nextPhase op⟩

theorem man_run (ops : List Op) : (run step h ops).man = run TcpManager.step h.man ops := by
  induction ops generalizing h with
  | nil => rfl
  | cons op ops ih => exact ih (h.step op)

/-- The discipline: `bind` once, then `connect` or `listen` once. -/
def Allowed : Op → Prop
  | .bind i _ => h.phase i = .fresh
  | .listen i _ | .connect i _ _ => h.phase i ≠ .opened
  | _ => True

instance : ∀ op, Decidable (h.Allowed op)
  | .bind i _ => inferInstanceAs (Decidable (h.phase i = .fresh))
  | .listen i _ | .connect i _ _ => inferInstanceAs (Decidable (h.phase i ≠ .opened))
  | .socket | .accept _ | .close _ | .release _ | .write .. | .read .. | .receive .. | .tick _ =>
      inferInstanceAs (Decidable True)

end Host

/-! ### Entries -/

namespace TcpManager

/-- Something in `m` points to socket `j`. -/
inductive Holds (m : TcpManager) (j : SockId) : Prop
  | listener (p : Int) (h : m.listenersByPort.lookup p = some j)
  | pending (k : ConnKey) (h : m.synPendingByKey.lookup k = some j)
  | established (k : ConnKey) (h : m.establishedByKey.lookup k = some j)
  | queued (l : SockId) (h : j ∈ (m.sock l).pendingConnQueue)

theorem Bounded.holds {m : TcpManager} (hb : m.Bounded) {j : SockId} (h : m.Holds j) :
    j < m.allSockets.length := by
  cases h with
  | listener p h => exact hb.listener h
  | pending k h => exact hb.pending h
  | established k h => exact hb.established h
  | queued l h => exact hb.queued h

/-- Every entry of socket `j` in `m'` is one in `m`. -/
structure Fewer (j : SockId) (m m' : TcpManager) : Prop where
  listener : ∀ p, m'.listenersByPort.lookup p = some j → m.listenersByPort.lookup p = some j
  pending : ∀ k, m'.synPendingByKey.lookup k = some j → m.synPendingByKey.lookup k = some j
  established : ∀ k, m'.establishedByKey.lookup k = some j → m.establishedByKey.lookup k = some j
  queued : ∀ l, j ∈ (m'.sock l).pendingConnQueue → ∃ l', j ∈ (m.sock l').pendingConnQueue

/-- The entries of socket `j` fit a socket with contents `s`. -/
structure Fits (m : TcpManager) (j : SockId) (s : TcpSocket) : Prop where
  listener : ∀ p, m.listenersByPort.lookup p = some j →
    s.localPort = p ∧ (s.state = .LISTEN ∨ s.state = .CLOSED)
  pending : ∀ k, m.synPendingByKey.lookup k = some j →
    s.key = k ∧ (s.state = .SYN_SENT ∨ s.state = .CLOSED)
  established : ∀ k, m.establishedByKey.lookup k = some j →
    s.key = k ∧ (s.Live ∨ s.state = .CLOSED)
  queued : ∀ l, j ∈ (m.sock l).pendingConnQueue → s.Live ∨ s.state = .CLOSED

variable {m m₁ : TcpManager} {j : SockId}

theorem Fewer.refl : Fewer j m m := ⟨fun _ h => h, fun _ h => h, fun _ h => h, fun l h => ⟨l, h⟩⟩

theorem Fewer.quiet (q : Quiet m m₁) : Fewer j m m₁ := by
  refine ⟨?_, ?_, ?_, ?_⟩
  · exact fun p h => by rwa [q.listenersByPort] at h
  · exact fun k h => by rwa [q.synPendingByKey] at h
  · exact fun k h => by rwa [q.establishedByKey] at h
  · exact fun l h => ⟨l, by rwa [(q.sock l).pendingConnQueue] at h⟩

theorem Fewer.holds (h : Fewer j m m₁) (hj : m₁.Holds j) : m.Holds j := by
  cases hj with
  | listener p hp => exact .listener p (h.listener p hp)
  | pending k hk => exact .pending k (h.pending k hk)
  | established k hk => exact .established k (h.established k hk)
  | queued l hl =>
      obtain ⟨l', hl'⟩ := h.queued l hl
      exact .queued l' hl'

theorem Fewer.fits {s : TcpSocket} (h : Fewer j m m₁) (hs : m.Fits j s) : m₁.Fits j s := by
  refine ⟨?_, ?_, ?_, ?_⟩
  · exact fun p hp => hs.listener p (h.listener p hp)
  · exact fun k hk => hs.pending k (h.pending k hk)
  · exact fun k hk => hs.established k (h.established k hk)
  · intro l hl
    obtain ⟨l', hl'⟩ := h.queued l hl
    exact hs.queued l' hl'

theorem Fewer.setSock {i : SockId} {s : TcpSocket} (h : Fewer j m m₁)
    (hq : ∀ c ∈ s.pendingConnQueue, c ∈ (m₁.sock i).pendingConnQueue) :
    Fewer j m (m₁.setSock i s) := by
  refine ⟨h.listener, h.pending, h.established, ?_⟩
  intro l hl
  obtain e | ⟨rfl, e⟩ := m₁.sock_setSock_cases i s l
  · rw [e] at hl
    exact h.queued l hl
  · rw [e] at hl
    exact h.queued l (hq _ hl)

theorem Fewer.erasePending (k : ConnKey) :
    Fewer j m { m with synPendingByKey := m.synPendingByKey.erase k } :=
  ⟨fun _ h => h, fun _ h => (Table.lookup_erase_some _ h).2, fun _ h => h, fun l h => ⟨l, h⟩⟩

theorem Fewer.eraseEstablished (k : ConnKey) :
    Fewer j m { m with establishedByKey := m.establishedByKey.erase k } :=
  ⟨fun _ h => h, fun _ h => h, fun _ h => (Table.lookup_erase_some _ h).2, fun l h => ⟨l, h⟩⟩

theorem Fewer.unregisterSocket (i : SockId) : Fewer j m (m.unregisterSocket i) :=
  ⟨fun _ h => ((Table.lookup_eraseValue_eq_some _).mp h).1,
    fun _ h => ((Table.lookup_eraseValue_eq_some _).mp h).1,
    fun _ h => ((Table.lookup_eraseValue_eq_some _).mp h).1, fun l h => ⟨l, h⟩⟩

theorem Fewer.socket : Fewer j m m.socket.1 := by
  refine ⟨fun _ h => h, fun _ h => h, fun _ h => h, ?_⟩
  intro l hl
  rw [sock_socket] at hl
  exact ⟨l, hl⟩

theorem Fewer.insertListener {i : SockId} (p : Int) (hj : j ≠ i) :
    Fewer j m { m with listenersByPort := m.listenersByPort.insert p i } := by
  refine ⟨?_, fun _ h => h, fun _ h => h, fun l h => ⟨l, h⟩⟩
  intro p' h
  obtain ⟨_, e⟩ | ⟨_, h⟩ := Table.lookup_insert_some _ h
  · exact absurd e hj
  · exact h

theorem Fewer.insertPending {i : SockId} (k : ConnKey) (hj : j ≠ i) :
    Fewer j m { m with synPendingByKey := m.synPendingByKey.insert k i } := by
  refine ⟨fun _ h => h, ?_, fun _ h => h, fun l h => ⟨l, h⟩⟩
  intro k' h
  obtain ⟨_, e⟩ | ⟨_, h⟩ := Table.lookup_insert_some _ h
  · exact absurd e hj
  · exact h

/-- An acknowledged connection moves from one table to the other. -/
theorem Fewer.complete {i : SockId} (k k' : ConnKey) (hj : j ≠ i) :
    Fewer j m { m with
      synPendingByKey := m.synPendingByKey.erase k
      establishedByKey := m.establishedByKey.insert k' i } := by
  refine ⟨fun _ h => h, fun _ h => (Table.lookup_erase_some _ h).2, ?_, fun l h => ⟨l, h⟩⟩
  intro k'' h
  obtain ⟨_, e⟩ | ⟨_, h⟩ := Table.lookup_insert_some _ h
  · exact absurd e hj
  · exact h

theorem Fewer.admitted {listener : SockId} (hl : listener < m.allSockets.length) (srcAddr : Int)
    (syn : Transport) (hj : j ≠ m.allSockets.length) :
    Fewer j m (m.admitted listener srcAddr syn) := by
  refine ⟨fun _ h => h, fun _ h => h, ?_, ?_⟩
  · intro k h
    obtain ⟨_, e⟩ | ⟨_, h⟩ := Table.lookup_insert_some _ h
    · exact absurd e hj
    · exact h
  · intro l h
    by_cases hll : l = listener
    · subst hll
      rw [m.admitted_sock_listener hl, TcpSocket.enqueueAccepted] at h
      split_ifs at h
      · obtain h | h := List.mem_append.mp h
        · exact ⟨l, h⟩
        · exact absurd (List.mem_singleton.mp h) hj
      · exact ⟨l, h⟩
    · by_cases hlen : l = m.allSockets.length
      · subst hlen
        rw [admitted_sock_child] at h
        cases h
      · rw [m.admitted_sock_ne hll hlen] at h
        exact ⟨l, h⟩

/-! ### Fitting contents -/

theorem Fits.of_not_holds {s : TcpSocket} (h : ¬ m.Holds j) : m.Fits j s :=
  ⟨fun p hp => absurd (.listener p hp) h, fun k hk => absurd (.pending k hk) h,
    fun k hk => absurd (.established k hk) h, fun l hl => absurd (.queued l hl) h⟩

theorem Fits.congr {s s' : TcpSocket} (h : m.Fits j s) (hst : s'.state = s.state)
    (hkey : s'.key = s.key) : m.Fits j s' := by
  have hport : s'.localPort = s.localPort := congrArg ConnKey.localPort hkey
  have hlive : s'.Live ↔ s.Live := by unfold TcpSocket.Live; rw [hst]
  refine ⟨?_, ?_, ?_, ?_⟩
  · intro p hp
    rw [hst, hport]
    exact h.listener p hp
  · intro k hk
    rw [hst, hkey]
    exact h.pending k hk
  · intro k hk
    rw [hst, hkey, hlive]
    exact h.established k hk
  · intro l hl
    rw [hst, hlive]
    exact h.queued l hl

/-- A closed socket fits any entry with its key. -/
theorem Fits.close {s s' : TcpSocket} (h : m.Fits j s) (hst : s'.state = .CLOSED)
    (hkey : s'.key = s.key) : m.Fits j s' := by
  have hport : s'.localPort = s.localPort := congrArg ConnKey.localPort hkey
  refine ⟨?_, ?_, ?_, ?_⟩
  · exact fun p hp => ⟨hport.trans (h.listener p hp).1, .inr hst⟩
  · exact fun k hk => ⟨hkey.trans (h.pending k hk).1, .inr hst⟩
  · exact fun k hk => ⟨hkey.trans (h.established k hk).1, .inr hst⟩
  · exact fun _ _ => .inr hst

/-- A connected socket is in the table of connections and in accept queues only. -/
theorem Fits.of_live {s s' : TcpSocket} (h : m.Fits j s) (hs : s.Live) (hs' : s'.Live)
    (hkey : s'.key = s.key) : m.Fits j s' := by
  obtain ⟨hc, hl, hp⟩ := hs.ne
  refine ⟨?_, ?_, ?_, ?_⟩
  · intro p hk
    obtain e | e := (h.listener p hk).2
    · exact absurd e hl
    · exact absurd e hc
  · intro k hk
    obtain e | e := (h.pending k hk).2
    · exact absurd e hp
    · exact absurd e hc
  · exact fun k hk => ⟨hkey.trans (h.established k hk).1, .inl hs'⟩
  · exact fun _ _ => .inl hs'

/-- It is enough to look at the socket that changed and at the entries of the others. -/
theorem fits_setSock {i : SockId} {s : TcpSocket} (hlt : i < m.allSockets.length)
    (hothers : ∀ j ≠ i, m.Fits j (m.sock j)) (hi : m.Fits i s)
    (hq : ∀ c ∈ s.pendingConnQueue, c ∈ (m.sock i).pendingConnQueue) :
    ∀ j, (m.setSock i s).Fits j ((m.setSock i s).sock j) := by
  intro j
  refine (Fewer.refl.setSock hq).fits ?_
  by_cases hj : j = i
  · subst hj
    rw [m.sock_setSock_self hlt]
    exact hi
  · rw [m.sock_setSock_ne hj]
    exact hothers j hj

theorem fits_released {i : SockId} {s : TcpSocket} (hlt : i < m.allSockets.length)
    (hf : ∀ j, m.Fits j (m.sock j)) (hst : s.state = .CLOSED) (hq : s.pendingConnQueue = []) :
    ∀ j, ((m.unregisterSocket i).setSock i s).Fits j
      (((m.unregisterSocket i).setSock i s).sock j) := by
  refine fits_setSock (m := m.unregisterSocket i) hlt
    (fun j _ => (Fewer.unregisterSocket i).fits (hf j)) ?_ ?_
  · refine ⟨?_, ?_, ?_, fun _ _ => .inr hst⟩
    · exact fun p hp => absurd rfl ((Table.lookup_eraseValue_eq_some _).mp hp).2
    · exact fun k hk => absurd rfl ((Table.lookup_eraseValue_eq_some _).mp hk).2
    · exact fun k hk => absurd rfl ((Table.lookup_eraseValue_eq_some _).mp hk).2
  · intro c hc
    rw [hq] at hc
    cases hc

theorem fits_child (hb : m.Bounded) (listener : SockId) (srcAddr : Int) (syn : Transport) :
    (m.admitted listener srcAddr syn).Fits m.allSockets.length
      (TcpSocket.new.initAccepted syn.destPort srcAddr syn.srcPort) := by
  refine ⟨?_, ?_, ?_, fun _ _ => .inl (.inl rfl)⟩
  · exact fun p hp => absurd (hb.listener hp) (Nat.lt_irrefl _)
  · exact fun k hk => absurd (hb.pending hk) (Nat.lt_irrefl _)
  · intro k hk
    obtain ⟨e, _⟩ | ⟨_, hk⟩ := Table.lookup_insert_some _ hk
    · exact ⟨e.symm, .inl (.inl rfl)⟩
    · exact absurd (hb.established hk) (Nat.lt_irrefl _)

theorem fits_completed {i : SockId} {s : TcpSocket} (hf : m.Fits i s) {srcAddr : Int}
    {ack : Transport} (hpend : m.synPendingByKey.lookup (segKey srcAddr ack) = some i)
    (window : Int) :
    ({ m with
      synPendingByKey := m.synPendingByKey.erase (segKey srcAddr ack)
      establishedByKey :=
        m.establishedByKey.insert ⟨srcAddr, ack.srcPort, s.localPort⟩ i } : TcpManager).Fits i
      (s.setRwnd window).markEstablished := by
  obtain ⟨hkey, hst⟩ := hf.pending _ hpend
  have hport : s.localPort = ack.destPort := congrArg ConnKey.localPort hkey
  have hkey' : (s.setRwnd window).markEstablished.key = segKey srcAddr ack := by
    rw [← hkey]
    simp [TcpSocket.key, TcpSocket.setRwnd]
  have hstate := (s.setRwnd window).markEstablished_state
  obtain hst | hst := hst
  · -- a socket in SYN_SENT has no entry but the one that goes away
    rw [show (s.setRwnd window).state = .SYN_SENT from hst] at hstate
    have hlive : (s.setRwnd window).markEstablished.Live := .inl hstate
    refine ⟨?_, ?_, ?_, fun _ _ => .inl hlive⟩
    · intro p hp
      rcases (hf.listener p hp).2 with e | e <;> rw [hst] at e <;> cases e
    · intro k hk
      obtain ⟨hne, hk⟩ := Table.lookup_erase_some _ hk
      exact absurd ((hf.pending k hk).1.symm.trans hkey) hne
    · intro k hk
      obtain ⟨e, _⟩ | ⟨_, hk⟩ := Table.lookup_insert_some _ hk
      · exact ⟨by rw [e, hkey', hport]; rfl, .inl hlive⟩
      · obtain e | e := (hf.established k hk).2
        · exact absurd hst e.ne.2.2
        · rw [hst] at e
          cases e
  · rw [show (s.setRwnd window).state = .CLOSED from hst] at hstate
    have hclosed : (s.setRwnd window).markEstablished.state = .CLOSED := hstate
    refine ⟨?_, ?_, ?_, fun _ _ => .inr hclosed⟩
    · intro p hp
      refine ⟨?_, .inr hclosed⟩
      rw [TcpSocket.markEstablished_localPort]
      exact (hf.listener p hp).1
    · intro k hk
      obtain ⟨hne, hk⟩ := Table.lookup_erase_some _ hk
      exact absurd ((hf.pending k hk).1.symm.trans hkey) hne
    · intro k hk
      obtain ⟨e, _⟩ | ⟨_, hk⟩ := Table.lookup_insert_some _ hk
      · exact ⟨by rw [e, hkey', hport]; rfl, .inr hclosed⟩
      · exact ⟨by rw [hkey', ← (hf.established k hk).1, hkey], .inr hclosed⟩

/-- A child that is accepted is another socket than the listener, and connected. -/
theorem accepted_child (hf : ∀ j, m.Fits j (m.sock j)) {i conn : SockId} {rest : List SockId}
    (hst : (m.sock i).state = .LISTEN) (hq : (m.sock i).pendingConnQueue = conn :: rest)
    (hc : (m.sock conn).state ≠ .CLOSED) : conn ≠ i ∧ (m.sock conn).Live := by
  have hmem : conn ∈ (m.sock i).pendingConnQueue := by
    rw [hq]
    exact List.mem_cons_self
  have hlive := ((hf conn).queued i hmem).resolve_right hc
  refine ⟨?_, hlive⟩
  rintro rfl
  exact hlive.ne.2.1 hst

/-- Entries that fit, while the calls that give a socket its addresses are made on sockets that
nothing points to. -/
theorem fits_move {op : Op} (hb : m.Bounded) (hv : m.Valid op) (hf : ∀ j, m.Fits j (m.sock j))
    (hbind : ∀ i p, op = .bind i p → ¬ m.Holds i) (hopens : ∀ i, Opens op → op.target = some i →
      ¬ m.Holds i) (hm : Move m op m₁) : ∀ j, m₁.Fits j (m₁.sock j) := by
  cases hm with
  | quiet => exact hf
  | socket =>
      intro j
      rw [sock_socket]
      exact Fewer.socket.fits (hf j)
  | bind i localPort =>
      exact fits_setSock (hv i rfl) (fun j _ => hf j) (.of_not_holds (hbind i _ rfl)) fun _ hc => hc
  | @listen i backlog hst =>
      have hfree := hopens i trivial rfl
      refine fits_setSock (m := { m with listenersByPort := _ }) (hv i rfl)
        (fun j hj => (Fewer.insertListener _ hj).fits (hf j)) ?_ fun _ hc => hc
      refine ⟨?_, fun k hk => absurd (.pending k hk) hfree,
        fun k hk => absurd (.established k hk) hfree, fun l hl => absurd (.queued l hl) hfree⟩
      intro p hp
      obtain ⟨e, _⟩ | ⟨_, hp⟩ := Table.lookup_insert_some _ hp
      · exact ⟨e.symm, .inl rfl⟩
      · exact absurd (.listener p hp) hfree
  | @acceptClosed i conn rest hst hq hc =>
      refine fits_setSock (hv i rfl) (fun j _ => hf j) ((hf i).congr rfl rfl) ?_
      intro c hc
      rw [hq]
      exact List.mem_cons_of_mem _ hc
  | @accept i conn rest hst hq hc =>
      have hdequeue := fits_setSock (s := { m.sock i with pendingConnQueue := rest }) (hv i rfl)
        (fun j _ => hf j) ((hf i).congr rfl rfl) (fun c hc => by
          rw [hq]
          exact List.mem_cons_of_mem _ hc)
      have hmem : conn ∈ (m.sock i).pendingConnQueue := by
        rw [hq]
        exact List.mem_cons_self
      obtain ⟨hci, hchild⟩ := accepted_child hf hst hq hc
      have hlive : ((m.setSock i { m.sock i with pendingConnQueue := rest }).sock conn).Live := by
        rw [m.sock_setSock_ne hci]
        exact hchild
      exact fits_setSock (by simpa using hb.queued hmem) (fun j _ => hdequeue j)
        ((hdequeue conn).of_live hlive (.inl rfl) rfl) fun _ hc => hc
  | @address i destAddr destPort hguard hs =>
      exact fits_setSock (hv i rfl) (fun j _ => hf j) (.of_not_holds (hopens i trivial rfl))
        fun _ hc => hc
  | @connect i destAddr destPort hguard hs =>
      have hfree := hopens i trivial rfl
      refine fits_setSock (m := { m with synPendingByKey := _ }) (hv i rfl)
        (fun j hj => (Fewer.insertPending _ hj).fits (hf j)) ?_ fun _ hc => hc
      refine ⟨fun p hp => absurd (.listener p hp) hfree, ?_,
        fun k hk => absurd (.established k hk) hfree, fun l hl => absurd (.queued l hl) hfree⟩
      intro k hk
      obtain ⟨e, _⟩ | ⟨_, hk⟩ := Table.lookup_insert_some _ hk
      · exact ⟨e.symm, .inl rfl⟩
      · exact absurd (.pending k hk) hfree
  | @close i hst =>
      exact fits_setSock (hv i rfl) (fun j _ => hf j) ((hf i).close rfl rfl) fun _ hc => hc
  | @shutdown i hst =>
      exact fits_setSock (hv i rfl) (fun j _ => hf j) ((hf i).of_live (.inl hst) (.inr rfl) rfl)
        fun _ hc => hc
  | @endStream i buf pos len s hends hs =>
      refine fits_setSock (hv i rfl) (fun j _ => hf j) ((hf i).close hs.state hs.key) ?_
      intro c hc
      rwa [hs.pendingConnQueue] at hc
  | @release i hst => exact fits_released (hv i rfl) hf rfl rfl
  | @releaseOnClose i s hst hsend hs =>
      exact fits_released (hv i rfl) hf hs.state hs.pendingConnQueue
  | @releaseOnAck now srcAddr ack i s hty hest hst hsend hs =>
      exact fits_released (hb.established hest) hf hs.state hs.pendingConnQueue
  | @spawn now srcAddr syn listener hty hl =>
      intro j
      by_cases hj : j = m.allSockets.length
      · subst hj
        rw [admitted_sock_child]
        exact fits_child hb listener srcAddr syn
      · refine (Fewer.admitted (hb.listener hl) srcAddr syn hj).fits ?_
        by_cases hjl : j = listener
        · subst hjl
          rw [m.admitted_sock_listener (hb.listener hl)]
          exact (hf j).congr (by simp) (by simp [TcpSocket.key])
        · rw [m.admitted_sock_ne hjl hj]
          exact hf j
  | @establish now srcAddr ack i hty hpend hseq =>
      refine fits_setSock (m := { m with synPendingByKey := _, establishedByKey := _ })
        (hb.pending hpend) (fun j hj => (Fewer.complete _ _ hj).fits (hf j))
        (fits_completed (hf i) hpend ack.window) ?_
      intro c hc
      rwa [TcpSocket.markEstablished_pendingConnQueue] at hc
  | @finAcked now srcAddr ack i hty hpend hest hst =>
      exact fits_setSock (m := { m with establishedByKey := _ }) (hb.established hest)
        (fun j _ => (Fewer.eraseEstablished _).fits (hf j))
        ((Fewer.eraseEstablished _).fits ((hf i).close rfl rfl)) fun _ hc => hc
  | @peerFin now srcAddr fin i hty hest =>
      refine fits_setSock (hb.established hest) (fun j _ => hf j) ?_ fun _ hc => hc
      by_cases hst : (m.sock i).state = .ESTABLISHED
      · exact (hf i).of_live (.inl hst) (.inr (if_pos hst)) rfl
      · exact (hf i).congr (if_neg hst) rfl
  | @refused now srcAddr fin i hty hest hpend =>
      exact fits_setSock (m := { m with synPendingByKey := _ }) (hb.pending hpend)
        (fun j _ => (Fewer.erasePending _).fits (hf j))
        ((Fewer.erasePending _).fits ((hf i).close rfl rfl)) fun _ hc => hc

/-- A move adds entries for the socket it opens, for a new child and for a socket that already has
one. -/
theorem Move.fewer {op : Op} (hb : m.Bounded) (hm : Move m op m₁) (hj : j < m.allSockets.length)
    (hop : ¬ (Opens op ∧ op.target = some j)) (hfree : ¬ m.Holds j) : Fewer j m m₁ := by
  cases hm with
  | quiet => exact .refl
  | socket => exact .socket
  | bind i localPort => exact Fewer.refl.setSock fun _ hc => hc
  | @listen i backlog hst =>
      have hji : j ≠ i := fun e => hop ⟨trivial, by rw [e]; rfl⟩
      exact (Fewer.insertListener _ hji).setSock fun _ hc => hc
  | @acceptClosed i conn rest hst hq hc =>
      refine Fewer.refl.setSock ?_
      intro c hc
      rw [hq]
      exact List.mem_cons_of_mem _ hc
  | @accept i conn rest hst hq hc =>
      refine (Fewer.refl.setSock ?_).setSock fun _ hc => hc
      intro c hc
      rw [hq]
      exact List.mem_cons_of_mem _ hc
  | address hguard hs => exact Fewer.refl.setSock fun _ hc => hc
  | @connect i destAddr destPort hguard hs =>
      have hji : j ≠ i := fun e => hop ⟨trivial, by rw [e]; rfl⟩
      exact (Fewer.insertPending _ hji).setSock fun _ hc => hc
  | close hst => exact Fewer.refl.setSock fun _ hc => hc
  | shutdown hst => exact Fewer.refl.setSock fun _ hc => hc
  | endStream hends hs =>
      refine Fewer.refl.setSock ?_
      intro c hc
      rwa [hs.pendingConnQueue] at hc
  | @release i hst =>
      exact (Fewer.unregisterSocket i).setSock fun _ hc => by cases hc
  | @releaseOnClose i s hst hsend hs =>
      refine (Fewer.unregisterSocket i).setSock ?_
      intro c hc
      rw [hs.pendingConnQueue] at hc
      cases hc
  | @releaseOnAck now srcAddr ack i s hty hest hst hsend hs =>
      refine (Fewer.unregisterSocket i).setSock ?_
      intro c hc
      rw [hs.pendingConnQueue] at hc
      cases hc
  | @spawn now srcAddr syn listener hty hl =>
      exact .admitted (hb.listener hl) srcAddr syn (Nat.ne_of_lt hj)
  | @establish now srcAddr ack i hty hpend hseq =>
      by_cases hji : j = i
      · subst hji
        exact absurd (.pending _ hpend) hfree
      · refine (Fewer.complete _ _ hji).setSock ?_
        intro c hc
        rwa [TcpSocket.markEstablished_pendingConnQueue] at hc
  | finAcked hty hpend hest hst =>
      exact (Fewer.eraseEstablished _).setSock fun _ hc => hc
  | peerFin hty hest => exact Fewer.refl.setSock fun _ hc => hc
  | refused hty hest hpend => exact (Fewer.erasePending _).setSock fun _ hc => hc

end TcpManager

/-! ### Disciplined runs -/

/-- A socket that has sent nothing and is not in use. -/
structure Unused (s : TcpSocket) : Prop where
  state : s.state = .CLOSED
  outstanding : s.outstanding = []

/-- No update puts an unused socket to use. -/
theorem Unused.update {s s' : TcpSocket} (hu : Update s s') (h : Unused s) : Unused s' := by
  obtain ⟨hst, hout⟩ := h
  have hlive : ¬ s.Live := fun hl => hl.ne.1 hst
  cases hu with
  | bind | queue | close | release => exact ⟨by first | exact hst | rfl, hout⟩
  | accept hne => exact absurd hst hne
  | shutdown h => rw [hst] at h; cases h
  | fin h => rw [hst] at h; cases h
  | write now buf n h => rw [hst] at h; cases h
  | take h => exact absurd h hlive
  | window v h => exact absurd h hlive
  | establish v _ =>
      rw [TcpSocket.markEstablished_of_closed (s.setRwnd v) hst]
      exact ⟨hst, hout⟩
  | advance now h => exact absurd h hlive
  | store h => exact absurd h hlive
  | peerFin => exact ⟨(if_neg (by rw [hst]; decide)).trans hst, hout⟩
  | timeout now h => exact absurd hout h

namespace Host

/-- What every disciplined run keeps. -/
structure Sound (h : Host) : Prop where
  bounded : h.man.Bounded
  fits : ∀ j, h.man.Fits j (h.man.sock j)
  exist : ∀ i, h.phase i ≠ .opened → i < h.man.allSockets.length
  unheld : ∀ i, h.phase i ≠ .opened → ¬ h.man.Holds i
  unused : ∀ i, h.phase i ≠ .opened → Unused (h.man.sock i)

variable {h : Host}

theorem Sound.pendingWaits (hs : h.Sound) : h.man.PendingWaits :=
  fun k i hk => ((hs.fits i).pending k hk).2

theorem Sound.new (addr : Int) : (Host.new addr).Sound := by
  refine ⟨.new addr, ?_, ?_, ?_, ?_⟩
  · intro j
    refine .of_not_holds ?_
    intro hj
    cases hj with
    | listener p h => cases h
    | pending k h => cases h
    | established k h => cases h
    | queued l h =>
        rw [show (Host.new addr).man.sock l = TcpSocket.new from
          TcpManager.sock_of_length_le _ (Nat.zero_le l)] at h
        cases h
  · exact fun i hi => absurd rfl hi
  · exact fun i hi => absurd rfl hi
  · exact fun i hi => absurd rfl hi

/-- A socket that is not opened after a step was not opened before it, or is the new one. -/
theorem unopened_cases {op : Op} {i : SockId} (hi : h.nextPhase op i ≠ .opened)
    (hop : h.Allowed op) :
    (h.phase i ≠ .opened ∧ ¬ (TcpManager.Opens op ∧ op.target = some i)) ∨
      op = .socket ∧ i = h.man.allSockets.length := by
  cases op with
  | socket =>
      by_cases hlen : i = h.man.allSockets.length
      · exact .inr ⟨rfl, hlen⟩
      · refine .inl ⟨?_, fun hc => hc.1⟩
        rwa [nextPhase, Function.update_of_ne hlen] at hi
  | bind k localPort =>
      refine .inl ⟨?_, fun hc => hc.1⟩
      by_cases hik : i = k
      · subst hik
        rw [show h.phase i = .fresh from hop]
        decide
      · rwa [nextPhase, Function.update_of_ne hik] at hi
  | listen k backlog =>
      have hik : i ≠ k := by
        rintro rfl
        exact hi (by rw [nextPhase, Function.update_self])
      rw [nextPhase, Function.update_of_ne hik] at hi
      exact .inl ⟨hi, fun hc => hik (Option.some.inj hc.2).symm⟩
  | connect k destAddr destPort =>
      have hik : i ≠ k := by
        rintro rfl
        exact hi (by rw [nextPhase, Function.update_self])
      rw [nextPhase, Function.update_of_ne hik] at hi
      exact .inl ⟨hi, fun hc => hik (Option.some.inj hc.2).symm⟩
  | accept | close | release | write | read | receive | tick =>
      exact .inl ⟨hi, fun hc => hc.1⟩

theorem Sound.opens_unheld (hs : h.Sound) {op : Op} (hop : h.Allowed op) :
    (∀ i p, op = .bind i p → ¬ h.man.Holds i) ∧
      ∀ i, TcpManager.Opens op → op.target = some i →
        h.phase i ≠ .opened ∧ ¬ h.man.Holds i := by
  constructor
  · rintro i p rfl
    refine hs.unheld i ?_
    rw [show h.phase i = .fresh from hop]
    decide
  · intro i ho hi
    cases op with
    | listen k backlog =>
        obtain rfl : k = i := Option.some.inj hi
        exact ⟨hop, hs.unheld k hop⟩
    | connect k destAddr destPort =>
        obtain rfl : k = i := Option.some.inj hi
        exact ⟨hop, hs.unheld k hop⟩
    | socket | bind | accept | close | release | write | read | receive | tick => exact ho.elim

theorem Sound.step (hs : h.Sound) {op : Op} (hop : h.Allowed op) : (h.step op).Sound := by
  obtain ⟨hbind, hopens⟩ := hs.opens_unheld hop
  refine ⟨hs.bounded.step op, ?_, ?_, ?_, ?_⟩
  · show ∀ j, (h.man.step op).Fits j ((h.man.step op).sock j)
    refine h.man.step_induction (I := fun m => ∀ j, m.Fits j (m.sock j)) hs.fits fun hv => ?_
    obtain ⟨m₁, hm, hq⟩ := h.man.exec_move hs.bounded hv
    intro j
    exact (TcpManager.Fewer.quiet hq).fits
      ((TcpManager.fits_move hs.bounded hv hs.fits hbind (fun i ho hi => (hopens i ho hi).2) hm
        j).congr (hq.sock j).state (hq.sock j).key)
  · intro i hi
    obtain ⟨hph, _⟩ | ⟨rfl, rfl⟩ := unopened_cases hi hop
    · exact Nat.lt_of_lt_of_le (hs.exist i hph) (h.man.length_le_step hs.bounded op)
    · show _ < (h.man.step .socket).allSockets.length
      rw [h.man.step_socket]
      simp [TcpManager.socket]
  · intro i hi
    show ¬ (h.man.step op).Holds i
    obtain ⟨hph, hnot⟩ | ⟨rfl, rfl⟩ := unopened_cases hi hop
    · have hfree := hs.unheld i hph
      refine h.man.step_induction (I := fun m => ¬ m.Holds i) hfree fun hv => ?_
      obtain ⟨m₁, hm, hq⟩ := h.man.exec_move hs.bounded hv
      intro hheld
      exact hfree ((TcpManager.Move.fewer hs.bounded hm (hs.exist i hph) hnot hfree).holds
        ((TcpManager.Fewer.quiet hq).holds hheld))
    · rw [h.man.step_socket]
      intro hheld
      exact Nat.lt_irrefl _ (hs.bounded.holds (TcpManager.Fewer.socket.holds hheld))
  · intro i hi
    show Unused ((h.man.step op).sock i)
    obtain ⟨hph, hnot⟩ | ⟨rfl, rfl⟩ := unopened_cases hi hop
    · by_cases ho : TcpManager.Opens op
      · obtain ⟨k, hk⟩ := ho.target
        have hik : i ≠ k := by
          rintro rfl
          exact hnot ⟨ho, hk⟩
        rw [h.man.step_opens_other ho hk hik]
        exact hs.unused i hph
      · exact Update.induction (fun _ _ hu hP => hP.update hu)
          (h.man.step_updates hs.bounded ho (fun _ _ _ _ => hs.pendingWaits _) i (hs.exist i hph))
          (hs.unused i hph)
    · rw [h.man.step_socket, TcpManager.sock_socket, h.man.sock_of_length_le le_rfl]
      exact ⟨rfl, rfl⟩

theorem sound_run (addr : Int) {ops : List Op}
    (hops : Guarded Host.step Host.Allowed (Host.new addr) ops) :
    (run Host.step (Host.new addr) ops).Sound :=
  guarded_induction (fun _ _ hs hop => hs.step hop) (Sound.new addr) hops

end Host

end NetBridge
