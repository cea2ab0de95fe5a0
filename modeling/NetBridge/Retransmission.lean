import NetBridge.Calls

/-! # What the timer sends again

`retransmissionTick` walks over `establishedByKey_` and sends the outstanding data of each socket
whose deadline has passed.  It never looks at `synPendingByKey_`, and a FIN is not in the queue of
outstanding segments, so a SYN or a FIN is sent once: a socket that waits for the answer to one is
not covered by any deadline. -/

namespace NetBridge

namespace TcpManager

variable (m : TcpManager)

/-- What the rounds of a tick leave as it was: the addresses of a socket and the data it has
outstanding. -/
structure SameQueue (s s' : TcpSocket) : Prop where
  conn : SameConn s s'
  outstanding : ∀ seg' ∈ s'.outstanding, ∃ seg ∈ s.outstanding,
    seg'.seqStart = seg.seqStart ∧ seg'.data = seg.data

theorem SameQueue.refl (s : TcpSocket) : SameQueue s s := ⟨.refl s, fun seg h => ⟨seg, h, rfl, rfl⟩⟩

theorem SameQueue.timedOut {s s' : TcpSocket} (h : SameQueue s s') (now : Int) :
    SameQueue s (timedOut s' now) := by
  refine ⟨h.conn.trans (sameConn_timedOut s' now), ?_⟩
  intro seg' hseg'
  obtain ⟨seg₁, hseg₁, rfl⟩ := List.mem_map.mp hseg'
  exact h.outstanding seg₁ hseg₁

/-- A tick only sends, and what it sends is outstanding data of sockets in `establishedByKey_`. -/
theorem tick_sends (now : Int) :
    ∃ out, (m.retransmissionTick now).sent = m.sent ++ out ∧
      ∀ p ∈ out, ∃ k i, m.establishedByKey.lookup k = some i ∧
        ∃ seg ∈ (m.sock i).outstanding, IsDataOf m.addr (m.sock i) p seg := by
  have h : (m.retransmissionTick now).addr = m.addr ∧
      (∀ j, SameQueue (m.sock j) ((m.retransmissionTick now).sock j)) ∧
      ∃ out, (m.retransmissionTick now).sent = m.sent ++ out ∧
        ∀ p ∈ out, ∃ k i, m.establishedByKey.lookup k = some i ∧
          ∃ seg ∈ (m.sock i).outstanding, IsDataOf m.addr (m.sock i) p seg := by
    refine m.tick_induction (I := fun m' => m'.addr = m.addr ∧
      (∀ j, SameQueue (m.sock j) (m'.sock j)) ∧
      ∃ out, m'.sent = m.sent ++ out ∧
        ∀ p ∈ out, ∃ k i, m.establishedByKey.lookup k = some i ∧
          ∃ seg ∈ (m.sock i).outstanding, IsDataOf m.addr (m.sock i) p seg) now ?_
      ⟨rfl, fun j => .refl _, [], by simp, fun p hp => by cases hp⟩
    rintro m' i ⟨k, hk⟩ ⟨haddr, hsame, out, hsent, hout⟩
    obtain e | ⟨_, out', e, hout'⟩ := m'.retransmitSocket_effect now i
    · rw [e]
      exact ⟨haddr, hsame, out, hsent, hout⟩
    · rw [e]
      refine ⟨haddr, ?_, out ++ out', ?_, ?_⟩
      · intro j
        rw [emit_sock]
        obtain e | ⟨rfl, e⟩ := m'.sock_setSock_cases i (timedOut (m'.sock i) now) j
        · rw [e]
          exact hsame j
        · rw [e]
          exact (hsame j).timedOut now
      · rw [emit_sent, setSock_sent, hsent, List.append_assoc]
      · intro p hp
        obtain hp | hp := List.mem_append.mp hp
        · exact hout p hp
        · obtain ⟨seg', hseg', hp⟩ := hout' p hp
          obtain ⟨seg, hseg, hstart, hdata⟩ := (hsame i).outstanding seg' hseg'
          refine ⟨k, i, hk, seg, hseg, ?_⟩
          have hc := (hsame i).conn
          rw [IsDataOf, haddr, hc.remoteAddr, hc.localPort, hc.remotePort, hstart, hdata] at hp
          exact hp
  exact h.2.2

/-! ### Control segments -/

/-- The control segment whose acknowledgement a registered socket waits for. -/
inductive Waiting (i : SockId) : SegType → Prop
  | syn (k : ConnKey) (hk : m.synPendingByKey.lookup k = some i)
      (hst : (m.sock i).state = .SYN_SENT) : Waiting i .SYN
  | fin (k : ConnKey) (hk : m.establishedByKey.lookup k = some i)
      (hst : (m.sock i).state = .SHUTDOWN) (hfin : 0 ≤ (m.sock i).finSeq) : Waiting i .FIN

/-- Every control segment that waits for its acknowledgement has a deadline from which on a tick
sends it again. -/
def ControlCovered : Prop :=
  ∀ i type, m.Waiting i type →
    ∃ deadline, ∀ now, deadline ≤ now →
      ∃ out, (m.retransmissionTick now).sent = m.sent ++ out ∧
        ∃ p ∈ out, p.seg.type = type ∧ p.seg.srcPort = (m.sock i).localPort ∧
          p.seg.destPort = (m.sock i).remotePort ∧ p.dest = (m.sock i).remoteAddr

theorem tick_sends_data (now : Int) {out : List Sent}
    (h : (m.retransmissionTick now).sent = m.sent ++ out) : ∀ p ∈ out, p.seg.type = .DATA := by
  obtain ⟨out', hsent, hout⟩ := m.tick_sends now
  obtain rfl : out = out' := List.append_cancel_left (h.symm.trans hsent)
  intro p hp
  obtain ⟨_, _, _, _, _, hdata⟩ := hout p hp
  exact hdata.type

theorem Waiting.ne_data {m : TcpManager} {i : SockId} {type : SegType} (h : m.Waiting i type) : type ≠ .DATA := by
  cases h <;> decide

/-- No socket that waits for the acknowledgement of a control segment is covered. -/
theorem controlCovered_iff : m.ControlCovered ↔ ∀ i type, ¬ m.Waiting i type := by
  constructor
  · intro h i type hw
    obtain ⟨deadline, hd⟩ := h i type hw
    obtain ⟨out, hsent, p, hp, hty, _⟩ := hd deadline le_rfl
    exact hw.ne_data (hty.symm.trans (m.tick_sends_data deadline hsent p hp))
  · intro h i type hw
    exact absurd hw (h i type)

theorem ticks_send_data (nows : List Int) :
    ∃ out, (run TcpManager.step m (nows.map Op.tick)).sent = m.sent ++ out ∧
      ∀ p ∈ out, p.seg.type = .DATA := by
  induction nows generalizing m with
  | nil => exact ⟨[], by simp, fun p hp => by cases hp⟩
  | cons now nows ih =>
      obtain ⟨out, hsent, _⟩ := m.tick_sends now
      obtain ⟨out', hsent', hout'⟩ := ih (m.step (.tick now))
      have hstep := m.step_tick now
      refine ⟨out ++ out', ?_, ?_⟩
      · rw [List.map_cons, run_cons, hsent', hstep, hsent, List.append_assoc]
      · intro p hp
        obtain hp | hp := List.mem_append.mp hp
        · exact m.tick_sends_data now hsent p hp
        · exact hout' p hp

/-- **Control segments are not retransmitted.** In no reachable state is a socket that waits for
the acknowledgement of its SYN or FIN covered by a deadline, and however often the timer fires, it
sends data only. -/
theorem control_segments_covered_iff (addr : Int) (ops : List Op) :
    ((run TcpManager.step (new addr) ops).ControlCovered ↔
      ∀ i type, ¬ (run TcpManager.step (new addr) ops).Waiting i type) ∧
    ∀ nows : List Int,
      ∃ out, (run TcpManager.step (new addr) (ops ++ nows.map Op.tick)).sent =
          (run TcpManager.step (new addr) ops).sent ++ out ∧
        ∀ p ∈ out, p.seg.type = .DATA := by
  refine ⟨controlCovered_iff _, ?_⟩
  intro nows
  rw [run_append]
  exact ticks_send_data _ nows

/-- A client that has sent its SYN is never covered. -/
theorem pending_syn_not_covered :
    ¬ (run TcpManager.step (new 1) [.socket, .bind 0 5, .connect 0 2 80]).ControlCovered := by
  rw [controlCovered_iff]
  intro h
  exact h 0 .SYN (.syn ⟨2, 80, 5⟩ (by decide) (by decide))

end TcpManager

end NetBridge
