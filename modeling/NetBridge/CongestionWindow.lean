import NetBridge.Backoff
import NetBridge.Effects
import NetBridge.Sender

/-! # The congestion window of a sender

`cwnd_` starts with one segment, is never set below that, and grows with every acknowledgement of new
data.  Nothing bounds it from above: an acknowledgement that finds it at the largest `int` makes it
negative.  `sender_representation_iff` says that this is the only way in which the send queue and the
windows of a socket lose their shape, and `manyAcks` is a run that gets there. -/

namespace NetBridge

open TcpManager (written advanced finQueued released)

namespace TcpManager

variable {m : TcpManager}

/-! ### One step -/

/-- The connection that an incoming ACK is for, with the number that it acknowledges. -/
def acked (m : TcpManager) : Op → Option (SockId × Int)
  | .receive _ srcAddr t =>
      if t.type = .ACK ∧ m.synPendingByKey.lookup (segKey srcAddr t) = none then
        (m.establishedByKey.lookup (segKey srcAddr t)).map fun i => (i, t.seqNum)
      else none
  | _ => none

theorem acked_receive {now srcAddr : Int} {t : Transport} {j : SockId} (hty : t.type = .ACK)
    (hpend : m.synPendingByKey.lookup (segKey srcAddr t) = none)
    (hest : m.establishedByKey.lookup (segKey srcAddr t) = some j) :
    m.acked (.receive now srcAddr t) = some (j, t.seqNum) := by
  simp only [acked, if_pos (And.intro hty hpend), hest, Option.map_some]

/-- The congestion window keeps its value, or is set to one in its range. -/
def KeepsCwnd (s s' : TcpSocket) : Prop :=
  s'.cwnd = s.cwnd ∨
    TcpSocket.CWND_MIN_BYTES ≤ s'.cwnd ∧ s'.cwnd ≤ max TcpSocket.CWND_MIN_BYTES s.cwnd

theorem keepsCwnd_initial {s s' : TcpSocket} (h : s'.cwnd = TcpSocket.CWND_MIN_BYTES) :
    KeepsCwnd s s' := by
  refine .inr ⟨h.ge, ?_⟩
  rw [h]
  exact le_max_left _ _

/-- Every operation but an ACK for a connection. -/
theorem keepsCwnd_of_effect {op : Op} {j : SockId} {s : TcpSocket} (h : Effect m op j s)
    (hno : m.acked op = none) : KeepsCwnd (m.sock j) s := by
  cases h with
  | read =>
      left
      unfold TcpSocket.read
      simp only
      split_ifs <;> rfl
  | enqueue hty hl =>
      left
      unfold TcpSocket.enqueueAccepted
      split_ifs <;> rfl
  | child hty hl => exact keepsCwnd_initial rfl
  | establish hty hpend hseq =>
      unfold TcpSocket.markEstablished
      split_ifs
      · exact keepsCwnd_initial rfl
      · exact .inl rfl
  | advance hty hpend hest | advanceFin hty hpend hest | advanceFails hty hpend hest =>
      rw [acked_receive hty hpend hest] at hno
      cases hno
  | timeout hest hdue =>
      have hmin := TcpSocket.CWND_MIN_BYTES_eq
      refine .inr ⟨le_max_left _ _, ?_⟩
      show max TcpSocket.CWND_MIN_BYTES ((m.sock j).cwnd / 2) ≤ _
      omega
  | same | bind | listen | dequeue | accept | address | connect | close | shutdown | shutdownFin |
    shutdownFails | release | write | finAcked | window | peerFin | refused | store => exact .inl rfl

theorem cwnd_setSock {i : SockId} (s : TcpSocket) (hs : s.cwnd = (m.sock i).cwnd) (j : SockId) :
    ((m.setSock i s).sock j).cwnd = (m.sock j).cwnd := by
  obtain e | ⟨rfl, e⟩ := m.sock_setSock_cases i s j
  · rw [e]
  · rw [e, hs]

theorem cwnd_maybeSendFin {i : SockId} (hi : i < m.allSockets.length) (j : SockId) :
    ((m.maybeSendFinOnDrain i).sock j).cwnd = (m.sock j).cwnd := by
  obtain ⟨_, e⟩ | ⟨_, _, _, ⟨p, _, e⟩ | ⟨_, e⟩⟩ := m.maybeSendFin_effect hi
  · rw [e]
  · rw [e, emit_sock]
    exact cwnd_setSock (finQueued (m.sock i)) rfl j
  · rw [e]
    exact cwnd_setSock (m := m.unregisterSocket i) (released (finQueued (m.sock i))) rfl j

theorem onAckEstablished_of_advances (now : Int) {ack : Transport} (key : ConnKey) {i : SockId}
    (hi : i < m.allSockets.length) (h : (m.sock i).Advances ack.seqNum) :
    m.onAckEstablished now ack key i =
      (m.setSock i (advanced ((m.sock i).setRwnd ack.window) now
        ack.seqNum)).maybeSendFinOnDrain i := by
  obtain ⟨hst, hfin, hlt, hle⟩ := h
  have hfin : ¬ ((m.sock i).isClosurePending = true ∧ 0 ≤ (m.sock i).finSeq ∧
      ack.seqNum = (m.sock i).finSeq + 1) := by
    simpa [TcpSocket.isClosurePending] using hfin
  have hst : (m.sock i).isConnected = true ∨ (m.sock i).isClosurePending = true := by
    simpa [TcpSocket.isConnected, TcpSocket.isClosurePending, TcpSocket.Live] using hst
  simp only [onAckEstablished, if_neg hfin, if_pos hst, if_neg (not_lt.mpr hle),
    if_neg (not_le.mpr hlt), onAckAdvance_eq, sock_setSock_self m hi, setSock_setSock]

/-- Only an acknowledgement of new data enlarges the window, and only that of its connection. -/
theorem cwnd_onAckEstablished (now : Int) (ack : Transport) (key : ConnKey) {i : SockId}
    (hi : i < m.allSockets.length) (j : SockId) :
    ((m.onAckEstablished now ack key i).sock j).cwnd =
      if j = i ∧ (m.sock i).Advances ack.seqNum then wrap32 ((m.sock i).cwnd + (m.sock i).cwndInc)
      else (m.sock j).cwnd := by
  by_cases hadv : (m.sock i).Advances ack.seqNum
  · rw [onAckEstablished_of_advances now key hi hadv,
      cwnd_maybeSendFin (by rwa [setSock_length])]
    by_cases hj : j = i
    · rw [if_pos ⟨hj, hadv⟩, hj, m.sock_setSock_self hi]
      exact (advanced_sender _ now ack.seqNum).2.2.2.2
    · rw [if_neg fun h => hj h.1, m.sock_setSock_ne hj]
  · rw [if_neg fun h => hadv h.2]
    by_cases hfin : (m.sock i).isClosurePending = true ∧ 0 ≤ (m.sock i).finSeq ∧
        ack.seqNum = (m.sock i).finSeq + 1
    · simp only [onAckEstablished, if_pos hfin]
      exact cwnd_setSock (m.sock i).markClosed rfl j
    · obtain e | ⟨_, _, _, e⟩ | ⟨hst, hle, ⟨_, e⟩ | ⟨hlt, _⟩⟩ :=
        m.onAckEstablished_effect now ack key hi
      · rw [e]
      · rw [e]
        exact cwnd_setSock (m.sock i).markClosed rfl j
      · rw [e]
        exact cwnd_setSock ((m.sock i).setRwnd ack.window) rfl j
      · refine absurd ⟨hst, ?_, hlt, hle⟩ hadv
        simpa [TcpSocket.isClosurePending] using hfin

theorem acked_cases {op : Op} {i : SockId} {n : Int} (h : m.acked op = some (i, n)) :
    ∃ now srcAddr t, op = .receive now srcAddr t ∧ t.type = .ACK ∧
      m.synPendingByKey.lookup (segKey srcAddr t) = none ∧
      m.establishedByKey.lookup (segKey srcAddr t) = some i ∧ t.seqNum = n := by
  cases op with
  | receive now srcAddr t =>
      simp only [acked] at h
      split_ifs at h with hguard
      obtain ⟨j, hj, hpair⟩ := Option.map_eq_some_iff.mp h
      obtain ⟨rfl, rfl⟩ := Prod.mk.inj hpair
      exact ⟨now, srcAddr, t, rfl, hguard.1, hguard.2, hj, rfl⟩
  | socket | bind | listen | accept | connect | close | release | write | read | tick => cases h

theorem step_acked {now srcAddr : Int} {t : Transport} {i : SockId} (hty : t.type = .ACK)
    (hpend : m.synPendingByKey.lookup (segKey srcAddr t) = none)
    (hest : m.establishedByKey.lookup (segKey srcAddr t) = some i) :
    m.step (.receive now srcAddr t) = m.onAckEstablished now t (segKey srcAddr t) i := by
  unfold segKey at hpend hest ⊢
  rw [m.step_receive]
  simp only [receiveTransport, hty, onAck, hpend, hest]

/-- **What a step makes of a congestion window**: an acknowledgement of new data enlarges that of its
connection, and everything else keeps it in its range. -/
theorem cwnd_step (hb : m.Bounded) (hf : ∀ j, m.Fits j (m.sock j)) (op : Op) (j : SockId) :
    (∃ n, m.acked op = some (j, n) ∧ (m.sock j).Advances n ∧
      ((m.step op).sock j).cwnd = wrap32 ((m.sock j).cwnd + (m.sock j).cwndInc)) ∨
    ((∀ n, m.acked op = some (j, n) → ¬ (m.sock j).Advances n) ∧
      KeepsCwnd (m.sock j) ((m.step op).sock j)) := by
  cases hacked : m.acked op with
  | none =>
      refine .inr ⟨?_, keepsCwnd_of_effect (m.step_effect hb hf op j) hacked⟩
      intro n h
      cases h
  | some x =>
      obtain ⟨i, n⟩ := x
      obtain ⟨now, srcAddr, t, rfl, hty, hpend, hest, rfl⟩ := acked_cases hacked
      have hcwnd := m.cwnd_onAckEstablished now t (segKey srcAddr t) (hb.established hest) j
      rw [← step_acked hty hpend hest] at hcwnd
      by_cases hgrows : j = i ∧ (m.sock i).Advances t.seqNum
      · rw [if_pos hgrows] at hcwnd
        obtain ⟨rfl, hadv⟩ := hgrows
        exact .inl ⟨_, rfl, hadv, hcwnd⟩
      · rw [if_neg hgrows] at hcwnd
        refine .inr ⟨?_, .inl hcwnd⟩
        intro n h hadv
        obtain ⟨rfl, rfl⟩ := Prod.mk.inj (Option.some.inj h)
        exact hgrows ⟨rfl, hadv⟩

end TcpManager

namespace Host

variable {h : Host}

/-- No acknowledgement of new data finds `cwnd_` at the largest `int`. -/
def SparesCwnd (h : Host) (op : Op) : Prop :=
  ∀ x ∈ h.man.acked op, (h.man.sock x.1).CwndFits x.2

instance (h : Host) (op : Op) : Decidable (h.SparesCwnd op) :=
  inferInstanceAs (Decidable (∀ x ∈ h.man.acked op, (h.man.sock x.1).CwndFits x.2))

theorem cwnd_le_step (hs : h.Sound) (hmax : ∀ j, (h.man.sock j).cwnd ≤ 2147483647) (op : Op) :
    ∀ j, ((h.step op).man.sock j).cwnd ≤ 2147483647 := by
  intro j
  have hj := hmax j
  have hmin := TcpSocket.CWND_MIN_BYTES_eq
  show ((h.man.step op).sock j).cwnd ≤ 2147483647
  obtain ⟨n, -, -, e⟩ | ⟨-, e | ⟨-, hle⟩⟩ := TcpManager.cwnd_step hs.bounded hs.fits op j
  · rw [e]
    exact (inInt32_wrap32 _).2
  · rw [e]
    exact hj
  · omega

/-- A step keeps the congestion windows above their minimum exactly if it spares them. -/
theorem min_le_cwnd_step_iff (hs : h.Sound) (hmax : ∀ j, (h.man.sock j).cwnd ≤ 2147483647)
    (hmin : ∀ j, TcpSocket.CWND_MIN_BYTES ≤ (h.man.sock j).cwnd) (op : Op) :
    (∀ j, TcpSocket.CWND_MIN_BYTES ≤ ((h.step op).man.sock j).cwnd) ↔ h.SparesCwnd op := by
  have hcases := TcpManager.cwnd_step hs.bounded hs.fits op
  have hgrows := fun j => TcpSocket.min_le_wrap32_iff (hmin j) (hmax j)
  constructor
  · rintro hstep ⟨j, n⟩ hacked hadv
    obtain ⟨_, -, -, e⟩ | ⟨hno, -⟩ := hcases j
    · have hj : TcpSocket.CWND_MIN_BYTES ≤ ((h.man.step op).sock j).cwnd := hstep j
      rw [e] at hj
      exact (hgrows j).mp hj
    · exact absurd hadv (hno n hacked)
  · intro hspares j
    show TcpSocket.CWND_MIN_BYTES ≤ ((h.man.step op).sock j).cwnd
    obtain ⟨n, hacked, hadv, e⟩ | ⟨-, e | ⟨hle, -⟩⟩ := hcases j
    · rw [e]
      exact (hgrows j).mpr (hspares (j, n) hacked hadv)
    · rw [e]
      exact hmin j
    · exact hle

end Host

/-! ### All runs -/

/-- What the send queue and the windows of a socket look like. -/
structure TcpSocket.Represented (s : TcpSocket) : Prop where
  segment : ∀ seg ∈ s.outstanding,
    1 ≤ seg.len ∧ seg.len = seg.data.length ∧ seg.len ≤ Transport.MAX_PAYLOAD_SIZE
  contiguous : s.outstanding.IsChain fun seg next => seg.seqStart + seg.len = next.seqStart
  last : ∀ seg ∈ s.outstanding.getLast?, seg.seqStart + seg.len = s.sndNxt
  head : ∀ seg ∈ s.outstanding.head?,
    seg.seqStart ≤ s.sndUna ∧ s.sndUna < seg.seqStart + seg.len
  empty_iff : s.outstanding = [] ↔ s.sndUna = s.sndNxt
  cwnd : TcpSocket.CWND_MIN_BYTES ≤ s.cwnd
  rwnd : 0 ≤ s.rwnd

theorem SenderOk.represented_iff {s : TcpSocket} (h : SenderOk s) :
    s.Represented ↔ TcpSocket.CWND_MIN_BYTES ≤ s.cwnd := by
  refine ⟨fun hs => hs.cwnd, fun hcwnd => ?_⟩
  obtain ⟨a, ht, ha⟩ := h.tiles
  refine ⟨h.segment, ht.isChain, ht.getLast, ?_, h.empty_iff, hcwnd, h.rwnd⟩
  intro seg hseg
  refine ⟨?_, h.unacked seg hseg⟩
  rw [ht.head seg hseg]
  exact ha

namespace Host

/-- **The send queue and the windows of every socket**, whatever segments arrive: the queue is
contiguous up to `sndNxt_`, its first segment holds `sndUna_`, it is empty exactly when everything is
acknowledged, and the windows keep to their bounds, in all states of a run, exactly if no
acknowledgement of new data in that run finds `cwnd_` at the largest `int`. -/
theorem sender_representation_iff (addr : Int) (ops : List Op)
    (hops : Guarded Host.step Host.Allowed (Host.new addr) ops) :
    (∀ before after, ops = before ++ after →
      ∀ i, ((run Host.step (Host.new addr) before).man.sock i).Represented) ↔
    Guarded Host.step Host.SparesCwnd (Host.new addr) ops := by
  have hnew : ∀ i, (Host.new addr).man.sock i = TcpSocket.new := fun i =>
    TcpManager.sock_of_length_le _ (Nat.zero_le i)
  refine (guarded_iff_of (J := fun h => h.Sound ∧ (∀ i, SenderOk (h.man.sock i)) ∧
    ∀ i, (h.man.sock i).cwnd ≤ 2147483647) (I := fun h => ∀ i, (h.man.sock i).Represented)
    ?_ ?_ ⟨.new addr, ?_, ?_⟩ ?_ hops).symm
  · rintro h op ⟨hs, hsender, hmax⟩ hop
    exact ⟨hs.step hop, senderOk_step hs hsender hop, cwnd_le_step hs hmax op⟩
  · rintro h op ⟨hs, hsender, hmax⟩ hop hrep
    rw [← min_le_cwnd_step_iff hs hmax (fun i => (hrep i).cwnd) op]
    exact forall_congr' fun i => (senderOk_step hs hsender hop i).represented_iff
  · intro i
    rw [hnew]
    exact .new
  · intro i
    rw [hnew]
    decide
  · intro i
    rw [hnew, SenderOk.new.represented_iff]
    decide

theorem sender_representation_three_bytes :
    let s := (run Host.step (Host.new 1) threeBytes).man.sock 0
    s.outstanding = [⟨1, 3, [7, 8, 9], 10, false⟩] ∧ s.Represented := by
  have h := (sender_representation_iff 1 threeBytes (by decide)).mpr (by decide) threeBytes []
    (List.append_nil _).symm
  exact ⟨by decide, h 0⟩

end Host

/-! ### A run that leaves the range -/

namespace TcpManager

/-- A connection on which `sent` bytes have been sent and `acked` of them acknowledged. -/
structure Streams (m : TcpManager) (acked sent : ℕ) (cwnd : Int) : Prop where
  exist : 0 < m.allSockets.length
  pending : m.synPendingByKey.lookup ⟨2, 80, 5⟩ = none
  established : m.establishedByKey.lookup ⟨2, 80, 5⟩ = some 0
  state : (m.sock 0).state = .ESTABLISHED
  sendable : Sendable m.addr (m.sock 0).remoteAddr (m.sock 0).localPort (m.sock 0).remotePort
  sndUna : (m.sock 0).sndUna = 1 + acked
  sndNxt : (m.sock 0).sndNxt = 1 + sent
  rwnd : (m.sock 0).rwnd = 1000
  cwnd : (m.sock 0).cwnd = cwnd

variable {k a b a' b' : ℕ} {c c' : Int} {s : TcpSocket}

theorem Streams.next (h : Streams m a b c) (out : List Sent) (hsame : SameConn (m.sock 0) s)
    (huna : s.sndUna = 1 + a') (hnxt : s.sndNxt = 1 + b') (hrwnd : s.rwnd = 1000)
    (hcwnd : s.cwnd = c') : Streams ((m.setSock 0 s).emit out) a' b' c' := by
  have hself : ((m.setSock 0 s).emit out).sock 0 = s := m.sock_setSock_self h.exist s
  have hlength : ((m.setSock 0 s).emit out).allSockets.length = m.allSockets.length :=
    m.setSock_length 0 s
  refine ⟨hlength ▸ h.exist, h.pending, h.established, ?_, ?_, ?_, ?_, ?_, ?_⟩
  · rw [hself, hsame.state]
    exact h.state
  · rw [hself, hsame.remoteAddr, hsame.localPort, hsame.remotePort]
    exact h.sendable
  · rw [hself]
    exact huna
  · rw [hself]
    exact hnxt
  · rw [hself]
    exact hrwnd
  · rw [hself]
    exact hcwnd

theorem Streams.write (h : Streams m k k c) (hmin : 107 ≤ c) :
    Streams (m.step (.write 0 0 (some [0]) 0 1)) k (k + 1) c := by
  have huna := h.sndUna
  have hnxt := h.sndNxt
  have hrwnd := h.rwnd
  have hcwnd := h.cwnd
  obtain ⟨out, -, hwrite⟩ := m.write_ok 0 h.exist h.state (by decide : (some [0] : Buf) ≠ none)
    (le_refl 0) Int.one_nonneg h.sendable
  have hroom : windowRoom (m.sock 0) 1 = 1 := by
    unfold windowRoom TcpSocket.effectiveWindow
    omega
  rw [hroom] at hwrite
  have hstep : m.step (.write 0 0 (some [0]) 0 1) =
      (m.setSock 0 (written (m.sock 0) 0 (some [0]) 0 1)).emit out := by
    rw [m.step_of_valid fun i hi => by cases hi; exact h.exist]
    exact congrArg Prod.fst hwrite
  rw [hstep]
  refine h.next out ⟨rfl, rfl, rfl, rfl, rfl, rfl, rfl⟩ huna ?_ hrwnd hcwnd
  show (m.sock 0).sndNxt + ((1 : ℕ) : Int) = _
  push_cast
  omega

theorem Streams.acknowledge (h : Streams m k (k + 1) c) :
    Streams (m.step (.receive 0 2 (ackFrom80 (2 + k)))) (k + 1) (k + 1)
      (wrap32 (c + (m.sock 0).cwndInc)) := by
  have huna := h.sndUna
  have hnxt := h.sndNxt
  have hadv : (m.sock 0).Advances (2 + k) := by
    refine ⟨.inl h.state, ?_, by omega, by push_cast at hnxt; omega⟩
    rintro ⟨hst, -⟩
    rw [h.state] at hst
    cases hst
  obtain ⟨-, huna', hnxt', hrwnd', hcwnd'⟩ := advanced_sender ((m.sock 0).setRwnd 1000) 0 (2 + k)
  have hsame : SameConn (m.sock 0) (advanced ((m.sock 0).setRwnd 1000) 0 (2 + k)) :=
    (sameConn_setRwnd _ 1000).trans (sameConn_advanced _ _ _)
  have hstep : m.step (.receive 0 2 (ackFrom80 (2 + k))) =
      (m.setSock 0 (advanced ((m.sock 0).setRwnd 1000) 0 (2 + k))).emit [] := by
    have hkey : segKey 2 (ackFrom80 (2 + k)) = ⟨2, 80, 5⟩ := rfl
    rw [step_acked rfl (hkey ▸ h.pending) (hkey ▸ h.established),
      onAckEstablished_of_advances _ _ h.exist hadv, emit_nil]
    refine maybeSendFin_idle _ (.inl ?_)
    rw [m.sock_setSock_self h.exist]
    intro hst
    have hst : (advanced ((m.sock 0).setRwnd 1000) 0 (2 + k)).state = .SHUTDOWN := hst
    rw [hsame.state, h.state] at hst
    cases hst
  rw [hstep]
  refine h.next [] hsame ?_ (hnxt'.trans hnxt) (hrwnd'.trans rfl) ?_
  · rw [huna']
    push_cast
    omega
  · rw [hcwnd', ← h.cwnd]
    rfl

/-- How `cwnd_` grows from `c` with `n` acknowledgements. -/
def grown : ℕ → ℕ → ℕ
  | 0, c => c
  | n + 1, c => if 5725 ≤ c then c + (n + 1) else grown n (c + 11449 / c)

theorem grown_of_le {n c : ℕ} (h : 5725 ≤ c) : grown n c = c + n := by
  cases n with
  | zero => rfl
  | succ n => exact if_pos h

theorem grown_succ {n c : ℕ} (h : 0 < c) : grown (n + 1) c = grown n (c + max 1 (11449 / c)) := by
  show (if 5725 ≤ c then c + (n + 1) else grown n (c + 11449 / c)) = _
  split_ifs with hwide
  · have hdiv : 11449 / c < 2 := Nat.div_lt_of_lt_mul (by omega)
    rw [max_eq_left (by omega), grown_of_le (by omega)]
    omega
  · have hdiv : 1 ≤ 11449 / c := (Nat.le_div_iff_mul_le h).mpr (by omega)
    rw [max_eq_right hdiv]

theorem grown_add (n k : ℕ) {c : ℕ} (h : 0 < c) : grown (n + k) c = grown n (grown k c) := by
  induction k generalizing c with
  | zero => rfl
  | succ k ih => rw [← Nat.add_assoc, grown_succ h, ih (by omega), grown_succ h]

theorem le_grown (n : ℕ) {c : ℕ} (h : 0 < c) : c ≤ grown n c := by
  induction n generalizing c with
  | zero => exact le_rfl
  | succ n ih =>
      rw [grown_succ h]
      have := ih (c := c + max 1 (11449 / c)) (by omega)
      omega

theorem cwndInc_of_cwnd {s : TcpSocket} {c : ℕ} (hs : s.cwnd = c) (hmin : 107 ≤ c) :
    s.cwndInc = (max 1 (11449 / c) : ℕ) := by
  have hinc : s.cwndInc = max 1 (11449 / max s.cwnd 107) := rfl
  have hbase : max (c : Int) 107 = c := max_eq_left (by omega)
  have hdiv : ((11449 / c : ℕ) : Int) = 11449 / (c : Int) := Int.natCast_ediv 11449 c
  rw [hinc, hs, hbase]
  omega

/-- `n` bytes are written and acknowledged one by one, after `k` others. -/
def exchanges : ℕ → ℕ → List Op
  | _, 0 => []
  | k, n + 1 =>
      .write 0 0 (some [0]) 0 1 :: .receive 0 2 (ackFrom80 (2 + k)) :: exchanges (k + 1) n

/-- As long as `cwnd_` is an `int`. -/
theorem Streams.exchanges {n c : ℕ} (h : Streams m k k c) (hmin : 107 ≤ c)
    (hmax : grown n c ≤ 2147483647) :
    Streams (run step m (exchanges k n)) (k + n) (k + n) (grown n c) := by
  induction n generalizing m k c with
  | zero => exact h
  | succ n ih =>
      have hwritten := h.write (by omega)
      have hacked := hwritten.acknowledge
      rw [grown_succ (by omega)] at hmax ⊢
      have hle := le_grown n (c := c + max 1 (11449 / c)) (by omega)
      rw [cwndInc_of_cwnd hwritten.cwnd hmin, ← Int.natCast_add,
        wrap32_of_inInt32 ⟨by omega, by omega⟩] at hacked
      have hrest := ih hacked (by omega) hmax
      rw [Nat.add_right_comm k 1 n] at hrest
      exact hrest

theorem Streams.overflows (h : Streams m k k 2147483647) :
    Streams (run step m [.write 0 0 (some [0]) 0 1, .receive 0 2 (ackFrom80 (2 + k))]) (k + 1) (k + 1)
      (-2147483648) := by
  have hwritten := h.write (by decide)
  have hcwnd := hwritten.cwnd
  have hacked := hwritten.acknowledge
  rw [TcpSocket.cwndInc_eq_one (by omega), wrap32_of_lt (by decide) (by decide)] at hacked
  exact hacked

theorem grown_manyAcks : grown 2147479578 107 = 2147483647 := by
  have hfirst : grown 1657 107 = 5726 := by decide +kernel
  have hpos : 0 < 107 := by decide
  have hwide : 5725 ≤ 5726 := by decide
  calc grown 2147479578 107 = grown (2147477921 + 1657) 107 := rfl
    _ = grown 2147477921 (grown 1657 107) := grown_add 2147477921 1657 hpos
    _ = grown 2147477921 5726 := congrArg (grown 2147477921) hfirst
    _ = 5726 + 2147477921 := grown_of_le hwide

end TcpManager

namespace Host

/-- A client connects. -/
def connected : List Op := [.socket, .bind 0 5, .connect 0 2 80, .receive 0 2 synAckFrom80]

/-- It writes 2147479579 bytes one by one, each of which is acknowledged before the next. -/
def manyAcks : List Op :=
  connected ++ TcpManager.exchanges 0 2147479578 ++
    [.write 0 0 (some [0]) 0 1, .receive 0 2 (TcpManager.ackFrom80 2147479580)]

theorem streams_connected : (run Host.step (Host.new 1) connected).man.Streams 0 0 107 :=
  ⟨by decide, by decide, by decide, rfl, by decide, rfl, rfl, rfl, rfl⟩

theorem allowed_exchanges (h : Host) (k n : ℕ) :
    Guarded Host.step Host.Allowed h (TcpManager.exchanges k n) := by
  induction n generalizing h k with
  | zero => trivial
  | succ n ih => exact ⟨trivial, trivial, ih _ _⟩

/-- The acknowledgement of the last byte finds `cwnd_` at the largest `int`. -/
theorem cwnd_overflows :
    let s := (run Host.step (Host.new 1) manyAcks).man.sock 0
    Guarded Host.step Host.Allowed (Host.new 1) manyAcks ∧ s.state = .ESTABLISHED ∧
      s.sndNxt = 2147479580 ∧ ¬ s.Represented := by
  have hgrown := TcpManager.grown_manyAcks
  have hfirst := streams_connected.exchanges (by decide) hgrown.le
  rw [hgrown, Nat.zero_add] at hfirst
  have hlast : (run TcpManager.step (run TcpManager.step
      (run Host.step (Host.new 1) connected).man (TcpManager.exchanges 0 2147479578))
      [.write 0 0 (some [0]) 0 1, .receive 0 2 (TcpManager.ackFrom80 2147479580)]).Streams
        2147479579 2147479579 (-2147483648) := hfirst.overflows
  have hrun : (run Host.step (Host.new 1) manyAcks).man =
      run TcpManager.step (run TcpManager.step (run Host.step (Host.new 1) connected).man
        (TcpManager.exchanges 0 2147479578))
        [.write 0 0 (some [0]) 0 1, .receive 0 2 (TcpManager.ackFrom80 2147479580)] := by
    rw [manyAcks, run_append, run_append, man_run, man_run]
  rw [hrun]
  refine ⟨?_, hlast.state, hlast.sndNxt, ?_⟩
  · exact guarded_append.mpr ⟨guarded_append.mpr ⟨by decide, allowed_exchanges _ _ _⟩,
      trivial, trivial, trivial⟩
  · intro hrep
    have hcwnd := hrep.cwnd
    rw [hlast.cwnd] at hcwnd
    exact absurd hcwnd (by decide)

end Host

end NetBridge
