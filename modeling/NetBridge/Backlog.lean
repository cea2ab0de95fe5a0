import NetBridge.Discipline

/-! # Accept queues

A `Server` is a host that also records, for every listener, the children that `onSyn` has made for
it and those that `accept` has returned.  As long as no SYN meets a full queue, the children made
are the ones returned followed by the ones that wait, in this order and each once.  A SYN that
meets a full queue breaks this: `enqueueAccepted` drops the child, and `onSyn` registers and
acknowledges it all the same. -/

namespace NetBridge

namespace TcpManager

variable (m : TcpManager)

/-- The listener and the child of a SYN. -/
def arrivals : Op → List (SockId × SockId)
  | .receive _ _ t =>
      if t.type = .SYN then
        (m.listenersByPort.lookup t.destPort).toList.map fun l => (l, m.allSockets.length)
      else []
  | _ => []

/-- The listener and the child of an `accept`. -/
def returns : Op → List (SockId × SockId)
  | .accept i => (m.accept i).2.toList.map fun conn => (i, conn)
  | _ => []

/-- A SYN finds room in the queue of its listener, and no listener is released while children
wait in its queue. -/
def KeepsQueues : Op → Prop
  | .receive _ _ t =>
      t.type = .SYN → ∀ l ∈ m.listenersByPort.lookup t.destPort,
        ((m.sock l).pendingConnQueue.length : Int) < (m.sock l).backlog
  | .release i => (m.sock i).state = .CLOSED ∨ (m.sock i).pendingConnQueue = []
  | _ => True

instance : ∀ op, Decidable (m.KeepsQueues op)
  | .receive .. => inferInstanceAs (Decidable (_ → _))
  | .release _ => inferInstanceAs (Decidable (_ ∨ _))
  | .socket | .bind .. | .listen .. | .accept _ | .connect .. | .close _ | .write .. | .read ..
  | .tick _ => inferInstanceAs (Decidable True)

end TcpManager

/-- Only a listener, open or closed, has a queue, and the queue is within the backlog. -/
structure QueueOk (s : TcpSocket) : Prop where
  state : s.pendingConnQueue ≠ [] → s.state = .LISTEN ∨ s.state = .CLOSED
  length : (s.pendingConnQueue.length : Int) ≤ max 0 s.backlog

namespace QueueOk

variable {s s' : TcpSocket}

theorem of_empty (h : s.pendingConnQueue = []) : QueueOk s := by
  refine ⟨fun hne => absurd h hne, ?_⟩
  rw [h]
  exact le_max_left _ _

theorem empty_of_state (h : QueueOk s) (hl : s.state ≠ .LISTEN) (hc : s.state ≠ .CLOSED) :
    s.pendingConnQueue = [] := by
  by_contra hne
  obtain e | e := h.state hne
  · exact hl e
  · exact hc e

theorem empty_of_live (h : QueueOk s) (hs : s.Live) : s.pendingConnQueue = [] :=
  h.empty_of_state hs.ne.2.1 hs.ne.1

/-- The queue and the backlog are as before, and the socket may have been closed. -/
theorem congr (h : QueueOk s) (hq : s'.pendingConnQueue = s.pendingConnQueue)
    (hb : s'.backlog = s.backlog) (hst : s'.state = s.state ∨ s'.state = .CLOSED) : QueueOk s' := by
  constructor
  · intro hne
    rw [hq] at hne
    obtain e | e := hst
    · rw [e]
      exact h.state hne
    · exact .inr e
  · rw [hq, hb]
    exact h.length

end QueueOk

namespace TcpManager

variable {m m₁ : TcpManager}

theorem queueOk_setSock {i : SockId} {s : TcpSocket} (h : ∀ j, QueueOk (m.sock j))
    (hs : QueueOk s) : ∀ j, QueueOk ((m.setSock i s).sock j) := by
  intro j
  obtain e | ⟨_, e⟩ := m.sock_setSock_cases i s j
  · rw [e]
    exact h j
  · rw [e]
    exact hs

theorem queueOk_move {op : Op} (hb : m.Bounded) (hf : ∀ j, m.Fits j (m.sock j))
    (hopens : ∀ i, Opens op → op.target = some i → (m.sock i).pendingConnQueue = [])
    (hop : m.KeepsQueues op) (h : ∀ j, QueueOk (m.sock j)) (hm : Move m op m₁) :
    ∀ j, QueueOk (m₁.sock j) := by
  cases hm with
  | quiet => exact h
  | socket =>
      intro j
      rw [sock_socket]
      exact h j
  | bind i localPort => exact queueOk_setSock h ((h i).congr rfl rfl (.inl rfl))
  | @listen i backlog hst => exact queueOk_setSock h (.of_empty (hopens i trivial rfl))
  | @acceptClosed i conn rest hst hq hc =>
      refine queueOk_setSock h ⟨fun _ => .inl hst, ?_⟩
      have hlen := (h i).length
      rw [hq, List.length_cons] at hlen
      show (rest.length : Int) ≤ max 0 (m.sock i).backlog
      omega
  | @accept i conn rest hst hq hc =>
      have hlen := (h i).length
      rw [hq, List.length_cons] at hlen
      obtain ⟨hne, hlive⟩ := accepted_child hf hst hq hc
      refine queueOk_setSock (queueOk_setSock h ⟨fun _ => .inl hst, ?_⟩) (.of_empty ?_)
      · show (rest.length : Int) ≤ max 0 (m.sock i).backlog
        omega
      · show ((m.setSock i _).sock conn).pendingConnQueue = []
        rw [m.sock_setSock_ne hne]
        exact (h conn).empty_of_live hlive
  | @address i destAddr destPort hguard hs =>
      exact queueOk_setSock h ((h i).congr rfl rfl (.inl rfl))
  | @connect i destAddr destPort hguard hs =>
      exact queueOk_setSock h (.of_empty (hopens i trivial rfl))
  | @close i hst => exact queueOk_setSock h ((h i).congr rfl rfl (.inr rfl))
  | @shutdown i hst => exact queueOk_setSock h (.of_empty ((h i).empty_of_live (.inl hst)))
  | @endStream i buf pos len s hends hs =>
      exact queueOk_setSock h ((h i).congr hs.pendingConnQueue hs.backlog (.inr hs.state))
  | @release i hst => exact queueOk_setSock (m := m.unregisterSocket i) h (.of_empty rfl)
  | @releaseOnClose i s hst hsend hs =>
      exact queueOk_setSock (m := m.unregisterSocket i) h (.of_empty hs.pendingConnQueue)
  | @releaseOnAck now srcAddr ack i s hty hest hst hsend hs =>
      exact queueOk_setSock (m := m.unregisterSocket i) h (.of_empty hs.pendingConnQueue)
  | @spawn now srcAddr syn listener hty hl =>
      intro j
      by_cases hlen : j = m.allSockets.length
      · subst hlen
        rw [admitted_sock_child]
        exact .of_empty rfl
      · by_cases hjl : j = listener
        · subst hjl
          have hroom := hop hty j hl
          rw [m.admitted_sock_listener (hb.listener hl), TcpSocket.enqueueAccepted, if_pos hroom]
          refine ⟨fun _ => ((hf j).listener _ hl).2, ?_⟩
          show (((m.sock j).pendingConnQueue ++ [m.allSockets.length]).length : Int) ≤
            max 0 (m.sock j).backlog
          rw [List.length_append, List.length_singleton]
          omega
        · rw [m.admitted_sock_ne hjl hlen]
          exact h j
  | @establish now srcAddr ack i hty hpend hseq =>
      refine queueOk_setSock (m := { m with synPendingByKey := _, establishedByKey := _ }) h ?_
      obtain hst | hst := ((hf i).pending _ hpend).2
      · refine .of_empty ?_
        rw [TcpSocket.markEstablished_pendingConnQueue]
        exact (h i).empty_of_state (by rw [hst]; decide) (by rw [hst]; decide)
      · rw [TcpSocket.markEstablished_of_closed ((m.sock i).setRwnd ack.window) hst]
        exact (h i).congr rfl rfl (.inl rfl)
  | @finAcked now srcAddr ack i hty hpend hest hst =>
      exact queueOk_setSock (m := { m with establishedByKey := _ }) h
        ((h i).congr rfl rfl (.inr rfl))
  | @peerFin now srcAddr fin i hty hest =>
      refine queueOk_setSock h ?_
      by_cases hst : (m.sock i).state = .ESTABLISHED
      · exact .of_empty ((h i).empty_of_live (.inl hst))
      · exact (h i).congr rfl rfl (.inl (if_neg hst))
  | @refused now srcAddr fin i hty hest hpend =>
      exact queueOk_setSock (m := { m with synPendingByKey := _ }) h
        ((h i).congr rfl rfl (.inr rfl))

/-! ### The queues of one step -/

theorem queue_setSock {i : SockId} {s : TcpSocket}
    (hs : s.pendingConnQueue = (m.sock i).pendingConnQueue) (j : SockId) :
    ((m.setSock i s).sock j).pendingConnQueue = (m.sock j).pendingConnQueue := by
  obtain e | ⟨rfl, e⟩ := m.sock_setSock_cases i s j
  · rw [e]
  · rw [e]
    exact hs

theorem queue_kept {op : Op} (h : ∀ j, QueueOk (m.sock j)) (hop : m.KeepsQueues op)
    (hacc : ∀ i, op ≠ .accept i) (hsyn : ∀ now srcAddr t, op = .receive now srcAddr t → t.type ≠ .SYN)
    (hm : Move m op m₁) (j : SockId) :
    (m₁.sock j).pendingConnQueue = (m.sock j).pendingConnQueue := by
  cases hm with
  | quiet => rfl
  | socket => rw [sock_socket]
  | acceptClosed => exact absurd rfl (hacc _)
  | accept => exact absurd rfl (hacc _)
  | spawn hty hl => exact absurd hty (hsyn _ _ _ rfl)
  | bind | listen | address | connect | close | shutdown | finAcked | peerFin | refused =>
      refine queue_setSock ?_ j
      rfl
  | endStream hends hs => exact queue_setSock hs.pendingConnQueue j
  | @release i hst =>
      exact queue_setSock (m := m.unregisterSocket i) (hop.resolve_left hst).symm j
  | @releaseOnClose i s hst hsend hs =>
      refine queue_setSock (m := m.unregisterSocket i) (hs.pendingConnQueue.trans ?_) j
      exact ((h i).empty_of_live (.inl hst)).symm
  | @releaseOnAck now srcAddr ack i s hty hest hst hsend hs =>
      refine queue_setSock (m := m.unregisterSocket i) (hs.pendingConnQueue.trans ?_) j
      exact ((h i).empty_of_live (.inr hst)).symm
  | establish hty hpend hseq =>
      refine queue_setSock ?_ j
      exact TcpSocket.markEstablished_pendingConnQueue _

end TcpManager

/-- The children of one listener in a log. -/
def childrenOf (l : SockId) (log : List (SockId × SockId)) : List SockId :=
  (log.filter fun e => e.1 = l).map Prod.snd

@[simp] theorem childrenOf_nil (l : SockId) : childrenOf l [] = [] := rfl

theorem childrenOf_append (l : SockId) (log log' : List (SockId × SockId)) :
    childrenOf l (log ++ log') = childrenOf l log ++ childrenOf l log' := by
  simp [childrenOf]

theorem mem_childrenOf {l c : SockId} {log : List (SockId × SockId)} :
    c ∈ childrenOf l log ↔ (l, c) ∈ log := by
  simp [childrenOf]

theorem childrenOf_singleton (l i conn : SockId) :
    childrenOf l [(i, conn)] = if l = i then [conn] else [] := by
  by_cases h : l = i
  · subst h
    simp [childrenOf]
  · simp [childrenOf, h, Ne.symm h]

namespace TcpManager

variable {m : TcpManager}

/-- `accept` takes the child it returns off the front of the queue. -/
theorem accept_balance (i j : SockId) :
    childrenOf j (m.returns (.accept i)) ++ ((m.accept i).1.sock j).pendingConnQueue =
      (m.sock j).pendingConnQueue := by
  obtain e | ⟨conn, rest, hst, hq, hcases⟩ := m.accept_effect i
  · have hret : m.returns (.accept i) = [] := by simp only [returns, e, Option.toList, List.map_nil]
    rw [hret, e]
    rfl
  · have hdequeue : childrenOf j [(i, conn)] ++
        ((m.setSock i { m.sock i with pendingConnQueue := rest }).sock j).pendingConnQueue =
          (m.sock j).pendingConnQueue := by
      rw [childrenOf_singleton]
      by_cases hji : j = i
      · subst hji
        have hlt : j < m.allSockets.length := by
          refine m.lt_length_of_state ?_
          rw [hst]
          decide
        rw [if_pos rfl, m.sock_setSock_self hlt, hq]
        rfl
      · rw [if_neg hji, m.sock_setSock_ne hji]
        rfl
    have hret : m.returns (.accept i) = [(i, conn)] := by
      rcases hcases with ⟨_, e⟩ | ⟨_, e⟩ <;>
        simp only [returns, e, Option.toList, List.map_cons, List.map_nil]
    rw [hret, ← hdequeue]
    refine congrArg (childrenOf j [(i, conn)] ++ ·) ?_
    obtain ⟨_, e⟩ | ⟨_, e⟩ := hcases
    · rw [e]
    · rw [e]
      refine queue_setSock ?_ j
      rfl

/-- A SYN appends its child to the queue of the listener, if there is room. -/
theorem syn_balance (hb : m.Bounded) {now srcAddr : Int} {syn : Transport} (hty : syn.type = .SYN)
    (hop : m.KeepsQueues (.receive now srcAddr syn)) (j : SockId) :
    ((m.onSyn srcAddr syn).sock j).pendingConnQueue =
      (m.sock j).pendingConnQueue ++ childrenOf j (m.arrivals (.receive now srcAddr syn)) := by
  cases hl : m.listenersByPort.lookup syn.destPort with
  | none =>
      obtain ⟨out, e, _⟩ := m.onSyn_refused srcAddr hl
      have harr : m.arrivals (.receive now srcAddr syn) = [] := by
        rw [arrivals, if_pos hty, hl]
        rfl
      rw [e, harr, emit_sock, childrenOf_nil, List.append_nil]
  | some listener =>
      have hroom := hop hty listener hl
      have harr : m.arrivals (.receive now srcAddr syn) = [(listener, m.allSockets.length)] := by
        rw [arrivals, if_pos hty, hl]
        rfl
      obtain ⟨out, e, _⟩ := (m.admitted listener srcAddr syn).sendAck_cases syn.destPort srcAddr
        syn.srcPort (syn.seqNum + 1) TcpSocket.RECV_BUF_CAP
      rw [m.onSyn_admits hl (hb.listener hl), e, emit_sock, harr, childrenOf_singleton]
      by_cases hjl : j = listener
      · subst hjl
        rw [m.admitted_sock_listener (hb.listener hl), TcpSocket.enqueueAccepted, if_pos hroom,
          if_pos rfl]
      · rw [if_neg hjl, List.append_nil]
        by_cases hlen : j = m.allSockets.length
        · subst hlen
          rw [admitted_sock_child, m.sock_of_length_le le_rfl]
          rfl
        · rw [m.admitted_sock_ne hjl hlen]

/-- What a step returns from a queue and leaves in it is what was there and what arrived. -/
theorem queue_balance (hb : m.Bounded) (h : ∀ j, QueueOk (m.sock j)) {op : Op}
    (hop : m.KeepsQueues op) (j : SockId) :
    childrenOf j (m.returns op) ++ ((m.step op).sock j).pendingConnQueue =
      (m.sock j).pendingConnQueue ++ childrenOf j (m.arrivals op) := by
  have hother : (∀ i, op ≠ .accept i) →
      (∀ now srcAddr t, op = .receive now srcAddr t → t.type ≠ .SYN) →
      ((m.step op).sock j).pendingConnQueue = (m.sock j).pendingConnQueue := by
    intro hacc hsyn
    refine m.step_induction (I := fun m' => (m'.sock j).pendingConnQueue =
      (m.sock j).pendingConnQueue) rfl fun hv => ?_
    obtain ⟨m₁, hm, hq⟩ := m.exec_move hb hv
    rw [(hq.sock j).pendingConnQueue]
    exact queue_kept h hop hacc hsyn hm j
  cases op with
  | accept i =>
      have harr : m.arrivals (.accept i) = [] := rfl
      rw [harr, childrenOf_nil, List.append_nil]
      have hbal := m.accept_balance i j
      by_cases hv : m.Valid (.accept i)
      · rw [m.step_of_valid hv]
        exact hbal
      · -- a socket that does not exist is no listener
        have hlen : m.allSockets.length ≤ i := by
          by_contra hlt
          exact hv fun k hk => by cases hk; exact Nat.lt_of_not_le hlt
        have hnone : m.accept i = (m, none) := by
          unfold accept
          rw [m.sock_of_length_le hlen]
          rfl
        rw [hnone] at hbal
        rw [step, if_neg hv]
        exact hbal
  | receive now srcAddr t =>
      by_cases hty : t.type = .SYN
      · have e : m.step (.receive now srcAddr t) = m.onSyn srcAddr t := by
          rw [step_receive, receiveTransport, hty]
        rw [e, syn_balance hb hty hop j]
        rfl
      · have harr : m.arrivals (.receive now srcAddr t) = [] := if_neg hty
        rw [harr, childrenOf_nil, List.append_nil, hother (fun i h => by cases h)
          (fun _ _ _ h => by cases h; exact hty)]
        rfl
  | socket | bind | listen | connect | close | release | write | read | tick =>
      rw [hother (fun i h => by cases h) (fun _ _ _ h => by cases h)]
      exact (List.append_nil _).symm

theorem arrivals_nodup (m : TcpManager) (op : Op) : ((m.arrivals op).map Prod.snd).Nodup := by
  cases op with
  | receive now srcAddr t =>
      rw [arrivals]
      split_ifs
      · cases m.listenersByPort.lookup t.destPort with
        | none => exact List.nodup_nil
        | some l => exact List.nodup_singleton _
      · exact List.nodup_nil
  | socket | bind | listen | accept | connect | close | release | write | read | tick =>
      exact List.nodup_nil

theorem mem_arrivals (hb : m.Bounded) {op : Op} {e : SockId × SockId} (he : e ∈ m.arrivals op) :
    e.2 = m.allSockets.length ∧ m.Holds e.1 ∧
      m.allSockets.length < (m.step op).allSockets.length := by
  cases op with
  | receive now srcAddr t =>
      by_cases hty : t.type = .SYN
      · rw [arrivals, if_pos hty] at he
        obtain ⟨l, hl, rfl⟩ := List.mem_map.mp he
        have hlook : m.listenersByPort.lookup t.destPort = some l := Option.mem_toList.mp hl
        refine ⟨rfl, .listener _ hlook, ?_⟩
        have hlen : (m.onSyn srcAddr t).allSockets.length = m.allSockets.length + 1 := by
          obtain ⟨out, e, _⟩ := (m.admitted l srcAddr t).sendAck_cases t.destPort srcAddr
            t.srcPort (t.seqNum + 1) TcpSocket.RECV_BUF_CAP
          rw [m.onSyn_admits hlook (hb.listener hlook), e, emit_allSockets, admitted_length]
        rw [step_receive, receiveTransport, hty]
        show m.allSockets.length < (m.onSyn srcAddr t).allSockets.length
        rw [hlen]
        exact Nat.lt_succ_self _
      · rw [arrivals, if_neg hty] at he
        cases he
  | socket | bind | listen | accept | connect | close | release | write | read | tick => cases he

end TcpManager

/-! ### Servers -/

/-- A host with the logs of its accept queues, as pairs of listener and child. -/
structure Server where
  host : Host
  arrived : List (SockId × SockId)
  returned : List (SockId × SockId)

namespace Server

def new (addr : Int) : Server := ⟨Host.new addr, [], []⟩

def step (s : Server) (op : Op) : Server :=
  ⟨s.host.step op, s.arrived ++ s.host.man.arrivals op, s.returned ++ s.host.man.returns op⟩

/-- The discipline, and room for every SYN. -/
def Roomy (s : Server) (op : Op) : Prop := s.host.Allowed op ∧ s.host.man.KeepsQueues op

instance (s : Server) (op : Op) : Decidable (s.Roomy op) := inferInstanceAs (Decidable (_ ∧ _))

/-- The logs and the queues agree. -/
structure Balanced (s : Server) : Prop where
  sound : s.host.Sound
  queues : ∀ j, QueueOk (s.host.man.sock j)
  unopened : ∀ i, s.host.phase i ≠ .opened → (s.host.man.sock i).pendingConnQueue = []
  balance : ∀ l, childrenOf l s.arrived =
    childrenOf l s.returned ++ (s.host.man.sock l).pendingConnQueue
  exist : ∀ e ∈ s.arrived, e.2 < s.host.man.allSockets.length
  nodup : (s.arrived.map Prod.snd).Nodup

variable {s : Server}

theorem Balanced.new (addr : Int) : (Server.new addr).Balanced := by
  have hnew : ∀ j, (Server.new addr).host.man.sock j = TcpSocket.new :=
    fun j => TcpManager.sock_of_length_le _ (Nat.zero_le j)
  refine ⟨.new addr, ?_, ?_, ?_, fun e he => (by cases he), List.nodup_nil⟩
  · intro j
    rw [hnew]
    exact .of_empty rfl
  · intro i _
    rw [hnew]
    rfl
  · intro l
    rw [hnew]
    rfl

theorem Balanced.step (h : s.Balanced) {op : Op} (hop : s.Roomy op) : (s.step op).Balanced := by
  have hs := h.sound
  have hbal := TcpManager.queue_balance hs.bounded h.queues hop.2
  refine ⟨hs.step hop.1, ?_, ?_, ?_, ?_, ?_⟩
  · refine s.host.man.step_induction (I := fun m => ∀ j, QueueOk (m.sock j)) h.queues fun hv => ?_
    obtain ⟨m₁, hm, hq⟩ := s.host.man.exec_move hs.bounded hv
    intro j
    have hopens : ∀ i, TcpManager.Opens op → op.target = some i →
        (s.host.man.sock i).pendingConnQueue = [] :=
      fun i ho hi => h.unopened i ((hs.opens_unheld hop.1).2 i ho hi).1
    exact (TcpManager.queueOk_move hs.bounded hs.fits hopens hop.2 h.queues hm j).congr
      (hq.sock j).pendingConnQueue (hq.sock j).backlog (.inl (hq.sock j).state)
  · intro i hi
    show ((s.host.man.step op).sock i).pendingConnQueue = []
    have hbefore : (s.host.man.sock i).pendingConnQueue = [] ∧
        childrenOf i (s.host.man.arrivals op) = [] := by
      obtain ⟨hph, _⟩ | ⟨rfl, rfl⟩ := Host.unopened_cases hi hop.1
      · refine ⟨h.unopened i hph, List.eq_nil_iff_forall_not_mem.mpr fun c hc => ?_⟩
        have hheld := (TcpManager.mem_arrivals hs.bounded (mem_childrenOf.mp hc)).2.1
        exact hs.unheld i hph hheld
      · rw [s.host.man.sock_of_length_le le_rfl]
        exact ⟨rfl, rfl⟩
    have hi := hbal i
    rw [hbefore.1, hbefore.2] at hi
    exact (List.append_eq_nil_iff.mp hi).2
  · intro l
    show childrenOf l (s.arrived ++ s.host.man.arrivals op) =
      childrenOf l (s.returned ++ s.host.man.returns op) ++
        ((s.host.man.step op).sock l).pendingConnQueue
    rw [childrenOf_append, childrenOf_append, h.balance l, List.append_assoc, List.append_assoc,
      hbal l]
  · intro e he
    show e.2 < (s.host.man.step op).allSockets.length
    obtain he | he := List.mem_append.mp he
    · exact Nat.lt_of_lt_of_le (h.exist e he) (s.host.man.length_le_step hs.bounded op)
    · obtain ⟨hlen, _, hlt⟩ := TcpManager.mem_arrivals hs.bounded he
      rw [hlen]
      exact hlt
  · show ((s.arrived ++ s.host.man.arrivals op).map Prod.snd).Nodup
    rw [List.map_append]
    refine List.nodup_append.mpr ⟨h.nodup, s.host.man.arrivals_nodup op, ?_⟩
    -- the new child has a number of its own
    intro c hc c' hc'
    obtain ⟨e, he, rfl⟩ := List.mem_map.mp hc
    obtain ⟨e', he', rfl⟩ := List.mem_map.mp hc'
    rw [(TcpManager.mem_arrivals hs.bounded he').1]
    exact Nat.ne_of_lt (h.exist e he)

theorem balanced_run (addr : Int) {ops : List Op}
    (hops : Guarded Server.step Roomy (Server.new addr) ops) :
    (run Server.step (Server.new addr) ops).Balanced :=
  guarded_induction (fun _ _ h hop => h.step hop) (Balanced.new addr) hops

/-- **Every acknowledged connection can be accepted** while no SYN meets a full queue: the
children of a listener are those that `accept` has returned followed by those that wait, in the
order of their SYNs, each exactly once, and no more wait than the backlog allows. -/
theorem acknowledged_connection_accepted (addr : Int) (ops : List Op)
    (hops : Guarded Server.step Roomy (Server.new addr) ops) :
    let s := run Server.step (Server.new addr) ops
    (∀ l, childrenOf l s.arrived =
      childrenOf l s.returned ++ (s.host.man.sock l).pendingConnQueue) ∧
    (∀ l child, (l, child) ∈ s.arrived →
      child ∈ (s.host.man.sock l).pendingConnQueue ∧ (childrenOf l s.returned).count child = 0 ∨
        child ∉ (s.host.man.sock l).pendingConnQueue ∧
          (childrenOf l s.returned).count child = 1) ∧
    (s.arrived.map Prod.snd).Nodup ∧
    ∀ l, ((s.host.man.sock l).pendingConnQueue.length : Int) ≤ max 0 (s.host.man.sock l).backlog := by
  intro s
  have h : s.Balanced := balanced_run addr hops
  refine ⟨h.balance, ?_, h.nodup, fun l => (h.queues l).length⟩
  intro l child hmem
  have hnodup : (childrenOf l s.arrived).Nodup :=
    h.nodup.sublist (List.filter_sublist.map Prod.snd)
  rw [h.balance l] at hnodup
  obtain ⟨hret, _, hdisjoint⟩ := List.nodup_append.mp hnodup
  have hin : child ∈ childrenOf l s.returned ++ (s.host.man.sock l).pendingConnQueue := by
    rw [← h.balance l]
    exact mem_childrenOf.mpr hmem
  obtain hr | hq := List.mem_append.mp hin
  · refine .inr ⟨fun hq => hdisjoint child hr child hq rfl, ?_⟩
    exact List.count_eq_one_of_mem hret hr
  · refine .inl ⟨hq, List.count_eq_zero.mpr fun hr => hdisjoint child hr child hq rfl⟩

/-- SYNs of two clients to port 70. -/
def synTo70 : Transport := ⟨5, 70, .SYN, 0, 0, [], by decide⟩

def otherSynTo70 : Transport := ⟨6, 70, .SYN, 0, 0, [], by decide⟩

/-- Two clients, one of them accepted. -/
def twoClients : List Op :=
  [.socket, .bind 0 70, .listen 0 2, .receive 0 2 synTo70, .receive 0 2 otherSynTo70, .accept 0]

theorem acknowledged_connection_accepted_two_clients :
    let s := run Server.step (Server.new 1) twoClients
    s.arrived = [(0, 1), (0, 2)] ∧ s.returned = [(0, 1)] ∧
      childrenOf 0 s.arrived =
        childrenOf 0 s.returned ++ (s.host.man.sock 0).pendingConnQueue := by
  have h := acknowledged_connection_accepted 1 twoClients (by decide)
  exact ⟨by decide, by decide, h.1 0⟩

/-- With no room in the backlog the child is registered and acknowledged, and nobody can accept
it. -/
theorem full_backlog_loses_connection :
    let s := run Server.step (Server.new 1) [.socket, .bind 0 70, .listen 0 0, .receive 0 2 synTo70]
    s.host.man.establishedByKey.lookup ⟨2, 5, 70⟩ = some 1 ∧
      (s.host.man.sent.map fun p => (p.dest, p.seg.type, p.seg.seqNum)) = [(2, .ACK, 1)] ∧
      ¬ (∀ l child, (l, child) ∈ s.arrived →
        child ∈ (s.host.man.sock l).pendingConnQueue ∨
          (childrenOf l s.returned).count child = 1) := by
  refine ⟨by decide, by decide, ?_⟩
  intro h
  have hchild := h 0 1 (by decide)
  revert hchild
  decide

end Server

end NetBridge
