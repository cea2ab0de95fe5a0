import NetBridge.Updates

/-! # The retransmission timeout

`rtoMs_` starts at `RTO_INITIAL_MS` and is doubled at every timeout, up to `RTO_MAX_MS`.  Nothing
else writes it: `onSampleRTT` updates the two estimates, but no call turns them into a timeout.  So
`rtoMs_` is a function of the number of timeouts (`BackedOff`), in every run and whatever samples
have been taken. -/

namespace NetBridge

open TcpManager (written timedOut stored advanced finQueued released addressed)

/-- The timeout of a socket is determined by how often it has expired, up to six times. -/
structure BackedOff (s : TcpSocket) : Prop where
  count : 0 ≤ s.timeoutCount
  rto : s.rtoMs = TcpSocket.RTO_INITIAL_MS * 2 ^ min s.timeoutCount.toNat 6

/-- The timeout and its count are as before. -/
structure SameBackoff (s s' : TcpSocket) : Prop where
  count : s'.timeoutCount = s.timeoutCount
  rto : s'.rtoMs = s.rtoMs

theorem sameBackoff_markEstablished (s : TcpSocket) (v : Int) :
    SameBackoff s (s.setRwnd v).markEstablished := by
  unfold TcpSocket.markEstablished
  split_ifs <;> exact ⟨rfl, rfl⟩

theorem sameBackoff_advanced (s : TcpSocket) (now ackNum : Int) :
    SameBackoff s (advanced s now ackNum) := by
  simp only [advanced]
  split
  · split_ifs
    · exact ⟨rfl, rfl⟩
    · unfold TcpSocket.onSampleRTT
      split_ifs <;> exact ⟨rfl, rfl⟩
  · exact ⟨rfl, rfl⟩

namespace BackedOff

variable {s s' : TcpSocket}

theorem congr (h : BackedOff s) (e : SameBackoff s s') : BackedOff s' := by
  constructor
  · rw [e.count]
    exact h.count
  · rw [e.rto, e.count]
    exact h.rto

theorem timedOut (h : BackedOff s) (now : Int) : BackedOff (timedOut s now) := by
  have hcount := h.count
  constructor
  · show 0 ≤ s.timeoutCount + 1
    omega
  · show min (s.rtoMs * 2) TcpSocket.RTO_MAX_MS = _
    have hnext : (s.timeoutCount + 1).toNat = s.timeoutCount.toNat + 1 := by omega
    rw [show (TcpManager.timedOut s now).timeoutCount = s.timeoutCount + 1 from rfl, hnext, h.rto]
    generalize s.timeoutCount.toNat = n
    have hsmall : ∀ n < 6, min (TcpSocket.RTO_INITIAL_MS * 2 ^ min n 6 * 2) TcpSocket.RTO_MAX_MS =
        TcpSocket.RTO_INITIAL_MS * 2 ^ min (n + 1) 6 := by decide
    obtain hlt | hge := Nat.lt_or_ge n 6
    · exact hsmall n hlt
    · have h1 : min n 6 = 6 := by omega
      have h2 : min (n + 1) 6 = 6 := by omega
      rw [h1, h2]
      rfl

theorem range (h : BackedOff s) :
    TcpSocket.RTO_MIN_MS ≤ s.rtoMs ∧ s.rtoMs ≤ TcpSocket.RTO_MAX_MS := by
  have hsmall : ∀ n < 7, TcpSocket.RTO_MIN_MS ≤ TcpSocket.RTO_INITIAL_MS * 2 ^ n ∧
      TcpSocket.RTO_INITIAL_MS * 2 ^ n ≤ TcpSocket.RTO_MAX_MS := by decide
  rw [h.rto]
  apply hsmall
  omega

/-- Equal timeouts are equally many timeouts. -/
theorem rto_eq_iff (h : BackedOff s) (h' : BackedOff s') :
    s.rtoMs = s'.rtoMs ↔ min s.timeoutCount 6 = min s'.timeoutCount 6 := by
  have hcount := h.count
  have hcount' := h'.count
  have hpow : ∀ m n : ℕ, (TcpSocket.RTO_INITIAL_MS * 2 ^ m = TcpSocket.RTO_INITIAL_MS * 2 ^ n) ↔
      m = n := by
    intro m n
    have hne : TcpSocket.RTO_INITIAL_MS ≠ 0 := by decide
    rw [mul_right_inj' hne]
    exact Int.pow_right_injective (by decide) |>.eq_iff
  rw [h.rto, h'.rto, hpow]
  omega

/-- No call but the tick writes the timeout. -/
theorem robust : TcpManager.Robust BackedOff := by
  have hnew : BackedOff TcpSocket.new := ⟨le_rfl, rfl⟩
  refine ⟨hnew, fun _ _ _ => hnew.congr ⟨rfl, rfl⟩, ?_, fun _ _ h => h.congr ⟨rfl, rfl⟩,
    fun _ _ _ h => h.congr ⟨rfl, rfl⟩, fun _ _ _ h => h.congr ⟨rfl, rfl⟩, ?_⟩
  · intro s s' hu h
    cases hu with
    | timeout now _ => exact h.timedOut now
    | establish v => exact h.congr (sameBackoff_markEstablished s v)
    | advance now => exact h.congr (sameBackoff_advanced s now _)
    | bind | queue | accept | close | shutdown | fin | release | write | take | window | store
      | peerFin => exact h.congr ⟨rfl, rfl⟩
  · exact fun s v h => h.congr (sameBackoff_markEstablished s v)

end BackedOff

namespace TcpManager

variable (m : TcpManager)

/-- The ACK acknowledges new data of socket `i`, and the last segment that it covers was sent once:
`onAck` takes a sample of the round-trip time. -/
def TakesSample (i : SockId) (srcAddr : Int) (ack : Transport) : Prop :=
  ack.type = .ACK ∧ m.synPendingByKey.lookup (segKey srcAddr ack) = none ∧
    m.establishedByKey.lookup (segKey srcAddr ack) = some i ∧ (m.sock i).Live ∧
    ¬ ((m.sock i).state = .SHUTDOWN ∧ 0 ≤ (m.sock i).finSeq ∧
      ack.seqNum = (m.sock i).finSeq + 1) ∧
    (m.sock i).sndUna < ack.seqNum ∧ ack.seqNum ≤ (m.sock i).sndNxt ∧
    ((TcpSocket.popLoop ack.seqNum (m.sock i).outstanding none).2.any
      fun seg => !seg.retransmitted) = true

instance (i : SockId) (srcAddr : Int) (ack : Transport) : Decidable (m.TakesSample i srcAddr ack) :=
  inferInstanceAs (Decidable (_ ∧ _))

/-- The socket after the ACK that gives the sample, up to the FIN that may follow. -/
theorem TakesSample.sock {m : TcpManager} {i : SockId} {srcAddr : Int} {ack : Transport}
    (h : m.TakesSample i srcAddr ack) (hi : i < m.allSockets.length) (now : Int) :
    let s := advanced ((m.sock i).setRwnd ack.window) now ack.seqNum
    (m.step (.receive now srcAddr ack)).sock i = s ∨
      (m.step (.receive now srcAddr ack)).sock i = finQueued s ∨
      (m.step (.receive now srcAddr ack)).sock i = released (finQueued s) := by
  intro s
  obtain ⟨hty, hpend, hest, hlive, hfin, hlt, hle, _⟩ := h
  have hpend : m.synPendingByKey.lookup ⟨srcAddr, ack.srcPort, ack.destPort⟩ = none := hpend
  have hest : m.establishedByKey.lookup ⟨srcAddr, ack.srcPort, ack.destPort⟩ = some i := hest
  have hfin : ¬ ((m.sock i).isClosurePending = true ∧ 0 ≤ (m.sock i).finSeq ∧
      ack.seqNum = (m.sock i).finSeq + 1) := by
    simpa [TcpSocket.isClosurePending] using hfin
  have hlive : (m.sock i).isConnected = true ∨ (m.sock i).isClosurePending = true := by
    simpa [TcpSocket.isConnected, TcpSocket.isClosurePending, TcpSocket.Live] using hlive
  have hstep : m.step (.receive now srcAddr ack) = (m.setSock i s).maybeSendFinOnDrain i := by
    rw [m.step_receive]
    simp only [receiveTransport, hty, onAck, hpend, hest, onAckEstablished, if_neg hfin,
      if_pos hlive, if_neg (not_lt.mpr hle), if_neg (not_le.mpr hlt), onAckAdvance_eq,
      sock_setSock_self m hi, setSock_setSock]
    rfl
  rw [hstep]
  have hi' : i < (m.setSock i s).allSockets.length := by simpa using hi
  have hself : (m.setSock i s).sock i = s := m.sock_setSock_self hi s
  obtain ⟨_, e⟩ | ⟨_, _, _, ⟨p, _, e⟩ | ⟨_, e⟩⟩ := (m.setSock i s).maybeSendFin_effect hi'
  · rw [e]
    exact .inl hself
  · rw [e, emit_sock, sock_setSock_self _ hi', hself]
    exact .inr (.inl rfl)
  · rw [e, sock_setSock_self _ (by exact hi'), hself]
    exact .inr (.inr rfl)

theorem TakesSample.sameBackoff {m : TcpManager} {i : SockId} {srcAddr : Int} {ack : Transport}
    (h : m.TakesSample i srcAddr ack) (hi : i < m.allSockets.length) (now : Int) :
    SameBackoff (m.sock i) ((m.step (.receive now srcAddr ack)).sock i) := by
  obtain ⟨hcount, hrto⟩ := sameBackoff_advanced ((m.sock i).setRwnd ack.window) now ack.seqNum
  obtain e | e | e := h.sock hi now
  · rw [e]
    exact ⟨hcount, hrto⟩
  · rw [e]
    exact ⟨hcount, hrto⟩
  · rw [e]
    exact ⟨hcount, hrto⟩

/-- **The timeout follows the timeouts, not the estimates.**  Two sockets that have just taken a
sample and have the same estimates have the same timeout, within its bounds, exactly if they have
timed out equally often, where six times is as good as more. -/
theorem rto_determined_iff (addr₁ addr₂ : Int) (ops₁ ops₂ : List Op) (i₁ i₂ : SockId)
    (now₁ now₂ srcAddr₁ srcAddr₂ : Int) (ack₁ ack₂ : Transport)
    (h₁ : (run step (new addr₁) ops₁).TakesSample i₁ srcAddr₁ ack₁)
    (h₂ : (run step (new addr₂) ops₂).TakesSample i₂ srcAddr₂ ack₂) :
    let m₁ := run step (new addr₁) ops₁
    let m₂ := run step (new addr₂) ops₂
    let s₁ := (m₁.step (.receive now₁ srcAddr₁ ack₁)).sock i₁
    let s₂ := (m₂.step (.receive now₂ srcAddr₂ ack₂)).sock i₂
    s₁.estRTTms = s₂.estRTTms → s₁.devRTTms = s₂.devRTTms →
      ((s₁.rtoMs = s₂.rtoMs ∧ TcpSocket.RTO_MIN_MS ≤ s₁.rtoMs ∧ s₁.rtoMs ≤ TcpSocket.RTO_MAX_MS) ↔
        min (m₁.sock i₁).timeoutCount 6 = min (m₂.sock i₂).timeoutCount 6) := by
  intro m₁ m₂ s₁ s₂ _ _
  have hsame₁ : SameBackoff (m₁.sock i₁) s₁ :=
    h₁.sameBackoff ((bounded_run addr₁ ops₁).established h₁.2.2.1) now₁
  have hsame₂ : SameBackoff (m₂.sock i₂) s₂ :=
    h₂.sameBackoff ((bounded_run addr₂ ops₂).established h₂.2.2.1) now₂
  have hback₁ : BackedOff s₁ := (BackedOff.robust.run addr₁ ops₁ i₁).congr hsame₁
  have hback₂ : BackedOff s₂ := (BackedOff.robust.run addr₂ ops₂ i₂).congr hsame₂
  rw [and_iff_left hback₁.range, hback₁.rto_eq_iff hback₂, hsame₁.count, hsame₂.count]

theorem legal_ackFrom80 : Transport.Legal 80 5 [] := by decide

/-- The acknowledgements of a connection with port 80 of node 2. -/
def ackFrom80 (seqNum : Int) : Transport := ⟨80, 5, .ACK, 1000, seqNum, [], legal_ackFrom80⟩

/-- A connection that writes three bytes at `now`. -/
def promptRun (now : Int) : List Op :=
  [.socket, .bind 0 5, .connect 0 2 80, .receive 0 2 (ackFrom80 1),
    .write now 0 (some [7, 8, 9]) 0 3]

/-- The same after a timeout: the bytes of the first `write` have been sent twice. -/
def timedOutRun : List Op :=
  [.socket, .bind 0 5, .connect 0 2 80, .receive 0 2 (ackFrom80 1),
    .write 10 0 (some [7, 8, 9]) 0 3, .tick 2000, .receive 2500 2 (ackFrom80 4),
    .write 3000 0 (some [7, 8, 9]) 0 3]

theorem rto_determined_prompt :
    let m₁ := run step (new 1) (promptRun 3000)
    let m₂ := run step (new 1) (promptRun 5000)
    ((m₁.step (.receive 3010 2 (ackFrom80 4))).sock 0).rtoMs =
      ((m₂.step (.receive 5010 2 (ackFrom80 4))).sock 0).rtoMs := by
  intro m₁ m₂
  have hest₁ : ((m₁.step (.receive 3010 2 (ackFrom80 4))).sock 0).estRTTms = 10 := by decide
  have hest₂ : ((m₂.step (.receive 5010 2 (ackFrom80 4))).sock 0).estRTTms = 10 := by decide
  have hdev₁ : ((m₁.step (.receive 3010 2 (ackFrom80 4))).sock 0).devRTTms =
    ((10 : Int) : ℚ) / 2 := rfl
  have hdev₂ : ((m₂.step (.receive 5010 2 (ackFrom80 4))).sock 0).devRTTms =
    ((10 : Int) : ℚ) / 2 := rfl
  have h := rto_determined_iff 1 1 (promptRun 3000) (promptRun 5000) 0 0 3010 5010 2 2 (ackFrom80 4)
    (ackFrom80 4) (by decide) (by decide) (hest₁.trans hest₂.symm) (hdev₁.trans hdev₂.symm)
  exact (h.mpr (by decide)).1

/-- Both connections have an estimate of 10 ms with a deviation of 5 ms; one waits 1000 ms for an
acknowledgement and the other 2000 ms. -/
theorem timeout_outlives_sample :
    let m₁ := run step (new 1) (promptRun 3000)
    let m₂ := run step (new 1) timedOutRun
    let s₁ := (m₁.step (.receive 3010 2 (ackFrom80 4))).sock 0
    let s₂ := (m₂.step (.receive 3010 2 (ackFrom80 7))).sock 0
    m₁.TakesSample 0 2 (ackFrom80 4) ∧ m₂.TakesSample 0 2 (ackFrom80 7) ∧
      s₁.estRTTms = s₂.estRTTms ∧ s₁.devRTTms = s₂.devRTTms ∧ s₁.rtoMs ≠ s₂.rtoMs := by
  intro m₁ m₂ s₁ s₂
  have hdev₁ : s₁.devRTTms = ((10 : Int) : ℚ) / 2 := rfl
  have hdev₂ : s₂.devRTTms = ((10 : Int) : ℚ) / 2 := rfl
  exact ⟨by decide, by decide, by decide, hdev₁.trans hdev₂.symm, by decide⟩

end TcpManager

end NetBridge
