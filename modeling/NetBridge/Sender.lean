import NetBridge.Discipline
import NetBridge.Tiling

/-! # The send queue

The queue of a socket that has not been acknowledged in full tiles the sequence numbers from at
most `sndUna_` to `sndNxt_`, one segment after the other, and its first segment is the one that
contains `sndUna_`.  This holds whatever segments arrive: an ACK outside `(sndUna_, sndNxt_]` moves
nothing, and one inside a segment leaves that segment in the queue. -/

namespace NetBridge

open TcpManager (written timedOut stored advanced finQueued released addressed)

/-- The sequence number after a segment. -/
def OutstandingSeg.stop (seg : OutstandingSeg) : Int := seg.seqStart + seg.len

/-- The segments cover the sequence numbers from `a` to `b`. -/
abbrev SegTiles (a : Int) (segs : List OutstandingSeg) (b : Int) : Prop :=
  Tiles OutstandingSeg.seqStart OutstandingSeg.stop a segs b

theorem chunks_tile (now : Int) (buf : Buf) (start pos : Int) (n : ℕ) :
    SegTiles start (chunks now buf start pos n) (start + n) := by
  induction n using Nat.strong_induction_on generalizing start pos with
  | _ n ih =>
      obtain rfl | hpos := Nat.eq_zero_or_pos n
      · rw [chunks_zero]
        show start = start + ((0 : ℕ) : Int)
        omega
      · rw [chunks_pos now buf start pos hpos]
        have hrest := ih (n - min n 107) (by omega) (start + (min n 107 : ℕ))
          (pos + (min n 107 : ℕ))
        have hstop : start + ((min n 107 : ℕ) : Int) + ((n - min n 107 : ℕ) : Int) = start + n := by
          omega
        rw [hstop] at hrest
        refine ⟨rfl, ?_, hrest⟩
        show start < start + ((min n 107 : ℕ) : Int)
        omega

/-- `popAckedThrough` drops the segments that end at or before the ACK. -/
theorem popLoop_fst (ackNum : Int) (segs : List OutstandingSeg) (last : Option OutstandingSeg) :
    (TcpSocket.popLoop ackNum segs last).1 = segs.dropWhile fun seg => decide (seg.stop ≤ ackNum) := by
  induction segs generalizing last with
  | nil => rfl
  | cons seg segs ih =>
      unfold TcpSocket.popLoop
      by_cases h : seg.seqStart + seg.len ≤ ackNum
      · rw [if_pos h, ih, List.dropWhile_cons_of_pos (by exact decide_eq_true h)]
      · rw [if_neg h, List.dropWhile_cons_of_neg (by exact mt of_decide_eq_true h)]

/-- The fields of the sender after an acknowledgement. -/
theorem advanced_sender (s : TcpSocket) (now ackNum : Int) :
    (advanced s now ackNum).outstanding =
        s.outstanding.dropWhile (fun seg => decide (seg.stop ≤ ackNum)) ∧
      (advanced s now ackNum).sndUna = ackNum ∧
      (advanced s now ackNum).sndNxt = s.sndNxt ∧
      (advanced s now ackNum).rwnd = s.rwnd ∧
      (advanced s now ackNum).cwnd = wrap32 (s.cwnd + s.cwndInc) := by
  have hbase : (s.popAckedThrough now ackNum).1.additiveIncreaseCwnd.outstanding =
      s.outstanding.dropWhile (fun seg => decide (seg.stop ≤ ackNum)) :=
    popLoop_fst ackNum s.outstanding none
  have hsample : ∀ (s' : TcpSocket) (v : Int), (s'.onSampleRTT v).outstanding = s'.outstanding ∧
      (s'.onSampleRTT v).sndUna = s'.sndUna ∧ (s'.onSampleRTT v).sndNxt = s'.sndNxt ∧
      (s'.onSampleRTT v).rwnd = s'.rwnd ∧ (s'.onSampleRTT v).cwnd = s'.cwnd := by
    intro s' v
    unfold TcpSocket.onSampleRTT
    split_ifs <;> exact ⟨rfl, rfl, rfl, rfl, rfl⟩
  simp only [advanced]
  split
  · split_ifs
    · exact ⟨hbase, rfl, rfl, rfl, rfl⟩
    · obtain ⟨h1, h2, h3, h4, h5⟩ := hsample (s.popAckedThrough now ackNum).1.additiveIncreaseCwnd _
      exact ⟨h1.trans hbase, h2, h3, h4, h5⟩
  · exact ⟨hbase, rfl, rfl, rfl, rfl⟩

theorem advanced_receiver (s : TcpSocket) (now ackNum : Int) :
    (advanced s now ackNum).recvBuf = s.recvBuf ∧
      (advanced s now ackNum).recvBufUsed = s.recvBufUsed ∧
      (advanced s now ackNum).rcvNxt = s.rcvNxt ∧
      (advanced s now ackNum).finSeq = s.finSeq ∧
      (advanced s now ackNum).peerFinReceived = s.peerFinReceived := by
  have hsample : ∀ (s' : TcpSocket) (v : Int), (s'.onSampleRTT v).recvBuf = s'.recvBuf ∧
      (s'.onSampleRTT v).recvBufUsed = s'.recvBufUsed ∧ (s'.onSampleRTT v).rcvNxt = s'.rcvNxt ∧
      (s'.onSampleRTT v).finSeq = s'.finSeq ∧
      (s'.onSampleRTT v).peerFinReceived = s'.peerFinReceived := by
    intro s' v
    unfold TcpSocket.onSampleRTT
    split_ifs <;> exact ⟨rfl, rfl, rfl, rfl, rfl⟩
  simp only [advanced]
  split
  · split_ifs
    · exact ⟨rfl, rfl, rfl, rfl, rfl⟩
    · exact hsample (s.popAckedThrough now ackNum).1.additiveIncreaseCwnd _
  · exact ⟨rfl, rfl, rfl, rfl, rfl⟩

/-! ### The congestion window -/

namespace TcpSocket

variable (s : TcpSocket)

theorem cwndInc_bounds : 1 ≤ s.cwndInc ∧ s.cwndInc ≤ 107 := by
  have hmin := CWND_MIN_BYTES_eq
  have hmax := Transport.MAX_PAYLOAD_SIZE_eq
  have hdiv :
      Transport.MAX_PAYLOAD_SIZE * Transport.MAX_PAYLOAD_SIZE / max s.cwnd CWND_MIN_BYTES ≤ 107 := by
    rw [hmax, hmin]
    refine Int.ediv_le_of_le_mul (by omega) ?_
    omega
  exact ⟨le_max_left _ _, max_le (by decide) hdiv⟩

/-- `onAck` takes `ackNum` for an acknowledgement of new data. -/
def Advances (ackNum : Int) : Prop :=
  s.Live ∧ ¬ (s.state = .SHUTDOWN ∧ 0 ≤ s.finSeq ∧ ackNum = s.finSeq + 1) ∧
    s.sndUna < ackNum ∧ ackNum ≤ s.sndNxt

instance (ackNum : Int) : Decidable (s.Advances ackNum) := inferInstanceAs (Decidable (_ ∧ _))

/-- An acknowledgement of new data does not find `cwnd_` at the largest `int`. -/
def CwndFits (ackNum : Int) : Prop := s.Advances ackNum → s.cwnd < 2147483647

instance (ackNum : Int) : Decidable (s.CwndFits ackNum) := inferInstanceAs (Decidable (_ → _))

variable {s}

/-- A window that is wider than half the square of a segment grows by one. -/
theorem cwndInc_eq_one (h : 5725 ≤ s.cwnd) : s.cwndInc = 1 := by
  have hbase : max s.cwnd CWND_MIN_BYTES = s.cwnd := by
    rw [CWND_MIN_BYTES_eq]
    omega
  have hdiv : Transport.MAX_PAYLOAD_SIZE * Transport.MAX_PAYLOAD_SIZE / s.cwnd < 2 := by
    rw [Transport.MAX_PAYLOAD_SIZE_eq]
    exact Int.ediv_lt_of_lt_mul (by omega) (by omega)
  have hinc : s.cwndInc =
      max 1 (Transport.MAX_PAYLOAD_SIZE * Transport.MAX_PAYLOAD_SIZE / max s.cwnd CWND_MIN_BYTES) :=
    rfl
  rw [hinc, hbase]
  exact max_eq_left (by omega)

/-- At the largest `int` the sum wraps around, and `cwnd_` becomes negative. -/
theorem min_le_wrap32_iff (hmin : CWND_MIN_BYTES ≤ s.cwnd) (hint : s.cwnd ≤ 2147483647) :
    CWND_MIN_BYTES ≤ wrap32 (s.cwnd + s.cwndInc) ↔ s.cwnd < 2147483647 := by
  obtain ⟨h1, h107⟩ := s.cwndInc_bounds
  have hslow := cwndInc_eq_one (s := s)
  rw [CWND_MIN_BYTES_eq] at hmin ⊢
  by_cases hlt : s.cwnd < 2147483647
  · rw [wrap32_of_inInt32 ⟨by omega, by omega⟩]
    omega
  · rw [wrap32_of_lt (by omega) (by omega)]
    omega

end TcpSocket

/-! ### The invariant -/

/-- The send queue of a socket. -/
structure SenderOk (s : TcpSocket) : Prop where
  segment : ∀ seg ∈ s.outstanding,
    1 ≤ seg.len ∧ seg.len = seg.data.length ∧ seg.len ≤ Transport.MAX_PAYLOAD_SIZE
  tiles : ∃ a, SegTiles a s.outstanding s.sndNxt ∧ a ≤ s.sndUna
  unacked : ∀ seg ∈ s.outstanding.head?, s.sndUna < seg.stop
  sndUna_le : s.sndUna ≤ s.sndNxt
  rwnd : 0 ≤ s.rwnd
  pending : s.state = .SYN_SENT → s.outstanding = []

namespace SenderOk

variable {s : TcpSocket}

theorem congr {s' : TcpSocket} (h : SenderOk s) (hout : s'.outstanding = s.outstanding)
    (huna : s'.sndUna = s.sndUna) (hnxt : s'.sndNxt = s.sndNxt) (hrwnd : 0 ≤ s'.rwnd)
    (hst : s'.state = .SYN_SENT → s.outstanding = []) : SenderOk s' := by
  refine ⟨?_, ?_, ?_, ?_, hrwnd, ?_⟩
  · rw [hout]
    exact h.segment
  · rw [hout, huna, hnxt]
    exact h.tiles
  · rw [hout, huna]
    exact h.unacked
  · rw [huna, hnxt]
    exact h.sndUna_le
  · rw [hout]
    exact hst

theorem empty_iff (h : SenderOk s) : s.outstanding = [] ↔ s.sndUna = s.sndNxt := by
  obtain ⟨a, ht, ha⟩ := h.tiles
  have hle := h.sndUna_le
  constructor
  · intro hout
    rw [hout] at ht
    have : a = s.sndNxt := ht
    omega
  · intro heq
    cases hout : s.outstanding with
    | nil => rfl
    | cons seg rest =>
        rw [hout] at ht
        have hlt := h.unacked seg (by rw [hout]; rfl)
        have := ht.2.2.le
        omega

theorem of_empty (hout : s.outstanding = []) (heq : s.sndUna = s.sndNxt) (hrwnd : 0 ≤ s.rwnd) :
    SenderOk s := by
  refine ⟨?_, ⟨s.sndNxt, ?_, heq.ge⟩, ?_, heq.le, hrwnd, fun _ => hout⟩
  · rw [hout]
    exact fun seg h => by cases h
  · rw [hout]
    rfl
  · rw [hout]
    exact fun seg h => by cases h

theorem new : SenderOk TcpSocket.new := of_empty rfl rfl (by decide)

theorem initAccepted (localPort remoteAddr remotePort : Int) :
    SenderOk (TcpSocket.new.initAccepted localPort remoteAddr remotePort) :=
  of_empty rfl rfl (by show (0 : Int) ≤ 32768; omega)

/-- Bytes that `write` takes go to the end of the queue. -/
theorem written (h : SenderOk s) (hst : s.state = .ESTABLISHED) (now : Int) (buf : Buf) (pos : Int)
    (n : ℕ) : SenderOk (written s now buf pos n) := by
  obtain ⟨a, ht, ha⟩ := h.tiles
  have hchunks := chunks_tile now buf s.sndNxt pos n
  refine ⟨?_, ⟨a, ht.append hchunks, ha⟩, ?_, ?_, h.rwnd, ?_⟩
  · intro seg hseg
    obtain hseg | hseg := List.mem_append.mp hseg
    · exact h.segment seg hseg
    · obtain ⟨hlen, h1, h107⟩ := chunks_len now buf s.sndNxt pos n seg hseg
      exact ⟨h1, hlen, h107⟩
  · intro seg hseg
    show s.sndUna < seg.stop
    have hseg : seg ∈ (s.outstanding ++ chunks now buf s.sndNxt pos n).head? := hseg
    cases hout : s.outstanding with
    | nil =>
        -- an empty queue: the first chunk starts at `sndNxt_ = sndUna_`
        rw [hout, List.nil_append] at hseg
        have heq := h.empty_iff.mp hout
        have hstart := hchunks.head seg hseg
        have hmem := chunks_len now buf s.sndNxt pos n seg (List.mem_of_mem_head? hseg)
        unfold OutstandingSeg.stop
        omega
    | cons first rest =>
        rw [hout] at hseg
        exact h.unacked seg (by rw [hout]; exact hseg)
  · have hle := h.sndUna_le
    show s.sndUna ≤ s.sndNxt + n
    omega
  · intro hp
    rw [show (TcpManager.written s now buf pos n).state = s.state from rfl, hst] at hp
    cases hp

theorem advanced (h : SenderOk s) (hst : s.Live) (now : Int) {ackNum : Int}
    (hlt : s.sndUna < ackNum) (hle : ackNum ≤ s.sndNxt) : SenderOk (advanced s now ackNum) := by
  obtain ⟨hout, huna, hnxt, hrwnd, -⟩ := advanced_sender s now ackNum
  obtain ⟨a, ht, ha⟩ := h.tiles
  obtain ⟨a', ht', ha', hhead⟩ := ht.dropWhile (c := ackNum) (by omega)
  refine ⟨?_, ⟨a', ?_, ?_⟩, ?_, ?_, ?_, ?_⟩
  · intro seg hseg
    rw [hout] at hseg
    exact h.segment seg (List.dropWhile_sublist _ |>.subset hseg)
  · rw [hout, hnxt]
    exact ht'
  · rw [huna]
    exact ha'
  · rw [hout, huna]
    exact hhead
  · rw [huna, hnxt]
    exact hle
  · rw [hrwnd]
    exact h.rwnd
  · intro hp
    rw [(sameConn_advanced s now ackNum).state] at hp
    exact absurd hp hst.ne.2.2

theorem timedOut (h : SenderOk s) (now : Int) : SenderOk (timedOut s now) := by
  obtain ⟨a, ht, ha⟩ := h.tiles
  refine ⟨?_, ⟨a, ht.map (fun _ => rfl) (fun _ => rfl), ha⟩, ?_, h.sndUna_le, h.rwnd, ?_⟩
  · intro seg hseg
    obtain ⟨seg', hseg', rfl⟩ := List.mem_map.mp hseg
    exact h.segment seg' hseg'
  · intro seg hseg
    have hseg : seg ∈ (s.outstanding.map fun seg => { seg with retransmitted := true }).head? := hseg
    rw [List.head?_map] at hseg
    obtain ⟨seg', hseg', rfl⟩ := Option.map_eq_some_iff.mp hseg
    exact h.unacked seg' hseg'
  · intro hp
    show s.outstanding.map _ = []
    rw [h.pending hp, List.map_nil]

theorem markEstablished (h : SenderOk s) (v : Int)
    (hst : s.state = .CLOSED ∨ s.outstanding = []) : SenderOk (s.setRwnd v).markEstablished := by
  by_cases hcl : s.state = .CLOSED
  · rw [TcpSocket.markEstablished_of_closed (s.setRwnd v) hcl]
    exact h.congr rfl rfl rfl (le_max_left _ _) h.pending
  · have hout := hst.resolve_left hcl
    have e : (s.setRwnd v).markEstablished = _ := if_pos hcl
    rw [e]
    exact of_empty hout rfl (le_max_left _ _)

theorem update {s' : TcpSocket} (hu : Update s s') (h : SenderOk s) : SenderOk s' := by
  cases hu with
  | bind | queue | take => exact h.congr rfl rfl rfl h.rwnd h.pending
  | release => exact h.congr rfl rfl rfl h.rwnd fun hp => by cases hp
  | peerFin =>
      refine h.congr rfl rfl rfl h.rwnd fun hp => h.pending ?_
      have hp : (if s.state = .ESTABLISHED then .SHUTDOWN else s.state) = TcpState.SYN_SENT := hp
      split_ifs at hp
      exact hp
  | accept hne => exact h.congr rfl rfl rfl h.rwnd fun hp => by cases hp
  | close => exact h.congr rfl rfl rfl h.rwnd fun hp => by cases hp
  | shutdown hst => exact h.congr rfl rfl rfl h.rwnd fun hp => by cases hp
  | fin hst hfin hout => exact h.congr rfl rfl rfl h.rwnd fun _ => hout
  | write now buf n hst hpos => exact h.written hst now buf _ n
  | window v hst => exact h.congr rfl rfl rfl (le_max_left _ _) h.pending
  | establish v hst =>
      refine h.markEstablished v ?_
      obtain hst | hst := hst
      · exact .inr (h.pending hst)
      · exact .inl hst
  | advance now hst hlt hle => exact h.advanced hst now hlt hle
  | store hst hne hroom => exact h.congr rfl rfl rfl h.rwnd h.pending
  | timeout now hout => exact h.timedOut now

end SenderOk

/-! ### All runs -/

namespace Host

/-- Every socket of a disciplined run keeps its send queue in order. -/
theorem senderOk_step {h : Host} (hs : h.Sound) (hq : ∀ i, SenderOk (h.man.sock i)) {op : Op}
    (hop : h.Allowed op) : ∀ i, SenderOk ((h.step op).man.sock i) := by
  refine h.man.step_sockets .new .initAccepted (fun _ _ hu hP => hP.update hu) hs.bounded
    hs.pendingWaits ?_ hq
  intro i ho hi
  have hunused := hs.unused i ((hs.opens_unheld hop).2 i ho hi).1
  obtain e | ⟨_, e⟩ | ⟨_, _, e | e⟩ := h.man.step_opens_self ho hi
  · rw [e]
    exact hq i
  · rw [e]
    exact (hq i).congr rfl rfl rfl (hq i).rwnd fun _ => hunused.outstanding
  · rw [e]
    exact (hq i).congr rfl rfl rfl (hq i).rwnd fun _ => hunused.outstanding
  · rw [e]
    exact (hq i).congr rfl rfl rfl (hq i).rwnd fun _ => hunused.outstanding

theorem senderOk_run (addr : Int) {ops : List Op}
    (hops : Guarded Host.step Host.Allowed (Host.new addr) ops) :
    ∀ i, SenderOk ((run Host.step (Host.new addr) ops).man.sock i) := by
  have h : (run Host.step (Host.new addr) ops).Sound ∧
      ∀ i, SenderOk ((run Host.step (Host.new addr) ops).man.sock i) := by
    refine guarded_induction (I := fun h => h.Sound ∧ ∀ i, SenderOk (h.man.sock i)) ?_ ?_ hops
    · exact fun h op hI hop => ⟨hI.1.step hop, senderOk_step hI.1 hI.2 hop⟩
    · refine ⟨.new addr, fun i => ?_⟩
      rw [show (Host.new addr).man.sock i = TcpSocket.new from
        TcpManager.sock_of_length_le _ (Nat.zero_le i)]
      exact .new
  exact h.2

theorem legal_from80 : Transport.Legal 80 5 [] := by decide

/-- The SYN-ACK of port 80. -/
def synAckFrom80 : Transport := ⟨80, 5, .ACK, 1000, 1, [], legal_from80⟩

/-- A client connects and writes three bytes. -/
def threeBytes : List Op :=
  [.socket, .bind 0 5, .connect 0 2 80, .receive 0 2 synAckFrom80,
    .write 10 0 (some [7, 8, 9]) 0 3]

example : ((run Host.step (Host.new 1) threeBytes).man.sock 0).outstanding =
    [⟨1, 3, [7, 8, 9], 10, false⟩] := by decide

end Host

end NetBridge
