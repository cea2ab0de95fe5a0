import NetBridge.Sender

/-! # Results of the socket calls

What a `TcpSocket` promises to the application that calls it.

* `write` on a connected socket takes as many bytes as the window has room for, sends them in
  segments of the largest size and changes nothing but its send queue (`write_fills_window`).
* A call that returns `-1` leaves the manager as it was, unless it is a `connect` whose SYN cannot be
  sent: by then the destination is stored (`failing_call_leaves_all`). -/

namespace NetBridge

open TcpManager (written windowRoom queued addressed Rejected stored)

/-! ### The bytes of a write -/

theorem Buf.slice_some {bytes : List UInt8} {pos : Int} {n : ℕ} (h : pos.toNat + n ≤ bytes.length) :
    Buf.slice (some bytes) pos n = (bytes.drop pos.toNat).take n := by
  apply List.ext_getElem
  · simp
    omega
  · intro k hk _
    have hlt : pos.toNat + k < bytes.length := by
      simp at hk
      omega
    simp [Buf.slice, List.getElem?_eq_getElem hlt]

theorem chunks_flatMap (now : Int) (buf : Buf) (start pos : Int) (n : ℕ) (hpos : 0 ≤ pos) :
    (chunks now buf start pos n).flatMap OutstandingSeg.data = buf.slice pos n := by
  fun_induction chunks now buf start pos n with
  | case1 start pos => simp [Buf.slice]
  | case2 start pos n hn ih =>
      have hsplit : min n 107 + (n - min n 107) = n := by omega
      rw [List.flatMap_cons, ih (by omega), ← Buf.slice_add buf hpos, hsplit]

/-- All chunks but the last are as long as a segment can be. -/
theorem chunks_dropLast (now : Int) (buf : Buf) (start pos : Int) (n : ℕ) :
    ∀ seg ∈ (chunks now buf start pos n).dropLast, seg.len = Transport.MAX_PAYLOAD_SIZE := by
  fun_induction chunks now buf start pos n with
  | case1 start pos => simp
  | case2 start pos n hn ih =>
      intro seg hseg
      by_cases hrest : n - min n 107 = 0
      · rw [hrest, chunks_zero] at hseg
        simp at hseg
      · have hne : chunks now buf (start + (min n 107 : ℕ)) (pos + (min n 107 : ℕ))
            (n - min n 107) ≠ [] := by
          rw [chunks_pos _ _ _ _ (by omega)]
          simp
        rw [List.dropLast_cons_of_ne_nil hne] at hseg
        obtain rfl | hseg := List.mem_cons.mp hseg
        · rw [Transport.MAX_PAYLOAD_SIZE_eq]
          simp
          omega
        · exact ih seg hseg

theorem chunks_fresh (now : Int) (buf : Buf) (start pos : Int) (n : ℕ) :
    ∀ seg ∈ chunks now buf start pos n, seg.firstSentAtMs = now ∧ seg.retransmitted = false := by
  fun_induction chunks now buf start pos n with
  | case1 start pos => simp
  | case2 start pos n hn ih => simpa using ih

theorem isDataOf_unique {addr : Int} {s : TcpSocket} : Relator.LeftUnique (IsDataOf addr s) :=
  fun _ _ _ hp hq => hp.unique hq

namespace TcpManager

variable (m : TcpManager)

theorem sendable_of_sendData {i : SockId} {destAddr destPort seqNum : Int} {payload : List UInt8}
    (h : (m.sendData i destAddr destPort seqNum payload).2 = true) :
    Sendable m.addr destAddr (m.sock i).localPort destPort := by
  by_contra hs
  rw [sendData, m.trySend_fails hs] at h
  simp at h

/-- The room in the window, as `write` returns it. -/
theorem windowRoom_eq (s : TcpSocket) {len : Int} (hlen : 0 ≤ len) :
    (windowRoom s len : Int) = min len (max 0 (min s.rwnd s.cwnd - (s.sndNxt - s.sndUna))) := by
  unfold windowRoom TcpSocket.effectiveWindow
  omega

/-- **`write` fills the window.**  With `n` the room in the window or `len`, whichever is less:
`write` returns `n` after at most `len` rounds, has sent `buf[pos, pos + n)` in segments from the old
`sndNxt_` on, has appended these to the queue, has armed the timer if the queue was empty, and has
changed nothing else. -/
theorem write_fills_window (now : Int) (i : SockId) (bytes : List UInt8) (pos len : Int)
    (hst : (m.sock i).state = .ESTABLISHED) (hpos : 0 ≤ pos) (hlen : 0 ≤ len)
    (hbytes : pos + len ≤ bytes.length)
    (hsend : ∀ (seqNum : Int) (payload : List UInt8),
      (payload.length : Int) ≤ Transport.MAX_PAYLOAD_SIZE →
        (m.sendData i (m.sock i).remoteAddr (m.sock i).remotePort seqNum payload).2 = true) :
    let s := m.sock i
    let n := min len (max 0 (min s.rwnd s.cwnd - (s.sndNxt - s.sndUna)))
    ∃ segs out,
      (∀ rounds, len.toNat ≤ rounds →
        writeLoop now i (some bytes) rounds m pos len 0 =
          writeLoop now i (some bytes) len.toNat m pos len 0) ∧
      m.write now i (some bytes) pos len =
        ((m.setSock i { s with
            outstanding := s.outstanding ++ segs
            sndNxt := s.sndNxt + n
            nextRtoDeadlineMs :=
              if s.outstanding = [] ∧ 0 < n then now + s.rtoMs else s.nextRtoDeadlineMs }).emit out,
          n) ∧
      out.Forall₂ (fun p seg => p.Is m.addr s.remoteAddr s.localPort s.remotePort .DATA 0
        seg.seqStart seg.data) segs ∧
      SegTiles s.sndNxt segs (s.sndNxt + n) ∧
      (∀ seg ∈ segs, seg.len = seg.data.length ∧ seg.len ≤ Transport.MAX_PAYLOAD_SIZE ∧
        seg.firstSentAtMs = now ∧ seg.retransmitted = false) ∧
      (∀ seg ∈ segs.dropLast, seg.len = Transport.MAX_PAYLOAD_SIZE) ∧
      segs.flatMap OutstandingSeg.data = (bytes.drop pos.toNat).take n.toNat ∧
      s.sndNxt + n - s.sndUna ≤ max (s.sndNxt - s.sndUna) (min s.rwnd s.cwnd) := by
  intro s n
  have hi : i < m.allSockets.length := m.lt_length_of_state (by rw [hst]; decide)
  have hs : Sendable m.addr s.remoteAddr s.localPort s.remotePort :=
    m.sendable_of_sendData (hsend 0 [] (by decide))
  have hn : (windowRoom s len : Int) = n := windowRoom_eq s hlen
  obtain ⟨out, hout, hwrite⟩ := m.write_ok now hi hst (by simp : (some bytes : Buf) ≠ none) hpos
    hlen hs
  refine ⟨chunks now (some bytes) s.sndNxt pos (windowRoom s len), out, ?_, ?_, hout, ?_, ?_,
    chunks_dropLast _ _ _ _ _, ?_, ?_⟩
  · -- the loop has ended by itself: more rounds change nothing
    intro rounds hrounds
    obtain ⟨out₁, hout₁, h₁⟩ := m.writeLoop_sends now (some bytes) rounds pos len 0 hi hpos
      (by omega) hs
    obtain ⟨out₂, hout₂, h₂⟩ := m.writeLoop_sends now (some bytes) len.toNat pos len 0 hi hpos
      (by omega) hs
    rw [h₁, h₂, List.left_unique_forall₂' isDataOf_unique hout₁ hout₂]
  · rw [hwrite, ← hn]
    simp only [Int.natCast_pos]
    rfl
  · rw [← hn]
    exact chunks_tile _ _ _ _ _
  · intro seg hseg
    obtain ⟨hdata, _, hmax⟩ := chunks_len _ _ _ _ _ seg hseg
    exact ⟨hdata, hmax, chunks_fresh _ _ _ _ _ seg hseg⟩
  · rw [chunks_flatMap _ _ _ _ _ hpos, Buf.slice_some (by omega), ← hn, Int.toNat_natCast]
  · omega

/-- A connection with 51 bytes behind it and a window of 110 bytes. -/
def narrowWindow : TcpManager :=
  run step (new 1) [.socket, .bind 0 5, .connect 0 2 80,
    .receive 0 2 ⟨80, 5, .ACK, 110, 1, [], Host.legal_from80⟩,
    .write 10 0 (some (List.replicate 50 7)) 0 50,
    .receive 20 2 ⟨80, 5, .ACK, 110, 51, [], Host.legal_from80⟩]

theorem write_fills_window_two_segments :
    (narrowWindow.write 30 0 (some (List.replicate 120 9)) 0 120).2 = 110 ∧
      ∃ segs : List OutstandingSeg,
        segs.flatMap OutstandingSeg.data = (List.replicate 120 9).take 110 := by
  have hsend : ∀ (seqNum : Int) (payload : List UInt8),
      (payload.length : Int) ≤ Transport.MAX_PAYLOAD_SIZE →
        (narrowWindow.sendData 0 2 80 seqNum payload).2 = true := by
    intro seqNum payload hlen
    rw [Transport.MAX_PAYLOAD_SIZE_eq] at hlen
    obtain ⟨p, _, h⟩ := narrowWindow.trySend_ok (by decide : Sendable 1 2 5 80) .DATA 0 seqNum
      payload (by omega)
    exact congrArg Prod.snd h
  obtain ⟨segs, _, _, hwrite, _, _, _, _, hdata, _⟩ :=
    write_fills_window narrowWindow 30 0 (List.replicate 120 9) 0 120 (by decide) (by decide)
      (by decide) (by decide) hsend
  have hn : min 120 (max 0 (min (narrowWindow.sock 0).rwnd (narrowWindow.sock 0).cwnd -
      ((narrowWindow.sock 0).sndNxt - (narrowWindow.sock 0).sndUna))) = 110 := by decide
  rw [hn] at hdata
  exact ⟨(congrArg Prod.snd hwrite).trans hn, segs, hdata⟩

/-! ### Calls that fail -/

end TcpManager

/-- The calls that report a failure with `-1`. -/
inductive Call where
  | listen (backlog : Int)
  | connect (destAddr destPort : Int)
  | write (now : Int) (buf : Buf) (pos len : Int)
  | read (buf : Bool) (pos len : Int)

namespace TcpManager

variable (m : TcpManager)

/-- A call on socket `i` and the value that it returns. -/
def call (i : SockId) : Call → TcpManager × Int
  | .listen backlog => m.listen i backlog
  | .connect destAddr destPort => m.connect i destAddr destPort
  | .write now buf pos len => m.write now i buf pos len
  | .read buf pos len => ((m.read i buf pos len).1, (m.read i buf pos len).2.1)

/-- What a failing call may leave behind is there already: a `connect` is rejected for its ports,
or the socket has the destination and the sequence number of the SYN that `connect` stores. -/
def Harmless (i : SockId) : Call → Prop
  | .connect destAddr destPort =>
      Rejected (m.sock i) destPort ∨
        (m.sock i).remoteAddr = destAddr ∧ (m.sock i).remotePort = destPort ∧
          (m.sock i).synSeq = (m.sock i).sndNxt
  | _ => True

instance (i : SockId) : ∀ c, Decidable (m.Harmless i c)
  | .connect .. => inferInstanceAs (Decidable (Rejected _ _ ∨ _))
  | .listen _ | .write .. | .read .. => inferInstanceAs (Decidable True)

theorem listen_fails {i : SockId} {backlog : Int} (h : (m.listen i backlog).2 = -1) :
    (m.listen i backlog).1 = m := by
  unfold listen at h ⊢
  split_ifs at h ⊢
  rfl

/-- The loop of `write` gives up at its first send, if at all. -/
theorem write_fails {now : Int} {i : SockId} {buf : Buf} {pos len : Int}
    (hi : i < m.allSockets.length) (h : (m.write now i buf pos len).2 = -1) :
    (m.write now i buf pos len).1 = m := by
  by_cases hguard : (m.sock i).state ≠ .ESTABLISHED ∨ buf = none ∨ pos < 0 ∨ len < 0
  · rw [write, if_pos hguard]
  · have hguard' := hguard
    simp only [not_or, not_not, not_lt] at hguard'
    obtain ⟨hst, hbuf, hpos, hlen⟩ := hguard'
    by_cases hs : Sendable m.addr (m.sock i).remoteAddr (m.sock i).localPort (m.sock i).remotePort
    · -- every send succeeds, and `write` returns a length
      obtain ⟨out, _, hwrite⟩ := m.write_ok now hi hst hbuf hpos hlen hs
      rw [hwrite] at h
      simp at h
    · rw [write, if_neg hguard] at h ⊢
      split_ifs at h ⊢
      obtain e | e := m.writeLoop_fails now buf len.toNat pos len 0 hs
      · simp [e] at h
      · simp [e]

theorem read_fails {i : SockId} {buf : Bool} {pos len : Int} (hused : 0 ≤ (m.sock i).recvBufUsed)
    (h : (m.read i buf pos len).2.1 = -1) : (m.read i buf pos len).1 = m := by
  have hsock : m.read i buf pos len = (m.setSock i ((m.sock i).read buf pos len).1,
      ((m.sock i).read buf pos len).2) := rfl
  rw [hsock] at h ⊢
  obtain ⟨r, _, e⟩ | ⟨_, hlen, _, e⟩ | ⟨_, _, e⟩ := (m.sock i).read_effect buf pos len
  · simp [e]
  · rw [e] at h
    simp at h
    omega
  · rw [e] at h
    simp at h
    omega

/-- A `connect` that fails stores the destination, if it gets that far. -/
theorem connect_fails_iff {i : SockId} {destAddr destPort : Int} (hi : i < m.allSockets.length)
    (h : (m.connect i destAddr destPort).2 = -1) :
    (m.connect i destAddr destPort).1 = m ↔ m.Harmless i (.connect destAddr destPort) := by
  unfold Harmless
  by_cases hrejected : Rejected (m.sock i) destPort
  · simp [m.connect_rejected destAddr hrejected, hrejected]
  · by_cases hs : Sendable m.addr destAddr (m.sock i).localPort destPort
    · obtain ⟨p, _, e⟩ := m.connect_ok hi hrejected hs
      simp [e] at h
    · rw [m.connect_fails hi hrejected hs]
      simp only [hrejected, false_or]
      constructor
      · intro hsame
        have hsock := m.sock_setSock_self hi (addressed (m.sock i) destAddr destPort)
        rw [hsame] at hsock
        rw [hsock]
        exact ⟨rfl, rfl, congrArg TcpSocket.sndNxt hsock⟩
      · rintro ⟨rfl, rfl, hseq⟩
        have hsock : addressed (m.sock i) (m.sock i).remoteAddr (m.sock i).remotePort = m.sock i := by
          generalize m.sock i = s at hseq
          cases s
          simp_all [addressed]
        rw [hsock, setSock_sock]

theorem robust_recvBufUsed : Robust fun s => s.recvBufUsed = s.recvBuf.length := by
  refine ⟨rfl, fun _ _ _ => rfl, ?_, fun _ _ h => h, fun _ _ _ h => h, fun _ _ _ h => h, ?_⟩
  · intro s s' hu h
    cases hu with
    | take hst hlen hused =>
        simp [TcpSocket.taken]
        omega
    | store => simp [stored, h]
    | establish v =>
        unfold TcpSocket.markEstablished
        split_ifs <;> exact h
    | advance now hst hlt hle =>
        obtain ⟨hbuf, hused, _⟩ := advanced_receiver s now _
        rw [hbuf, hused, h]
    | bind | queue | accept | close | shutdown | fin | release | write | window | peerFin
      | timeout => exact h
  · intro s v h
    unfold TcpSocket.markEstablished
    split_ifs <;> exact h

/-- **A failing call leaves everything as it was**, however the manager got into its state, except
for a `connect` that fails to send its SYN. -/
theorem failing_call_leaves_all (addr : Int) (ops : List Op) (i : SockId) (c : Call)
    (hi : i < (run step (new addr) ops).allSockets.length)
    (hfail : ((run step (new addr) ops).call i c).2 = -1) :
    ((run step (new addr) ops).call i c).1 = run step (new addr) ops ↔
      (run step (new addr) ops).Harmless i c := by
  have hused := robust_recvBufUsed.run addr ops i
  generalize run step (new addr) ops = m at hi hfail hused ⊢
  cases c with
  | listen backlog => simp [Harmless, call, m.listen_fails hfail]
  | connect destAddr destPort => exact m.connect_fails_iff hi hfail
  | write now buf pos len => simp [Harmless, call, m.write_fails hi hfail]
  | read buf pos len =>
      have hread := m.read_fails (by omega) hfail
      simp [Harmless, call, hread]

theorem failing_call_leaves_all_second_listen :
    let m := run step (new 1) [.socket, .bind 0 80, .listen 0 3]
    m.call 0 (.listen 5) = (m, -1) := by
  intro m
  have hfail : (m.call 0 (.listen 5)).2 = -1 := by decide
  have h := (failing_call_leaves_all 1 [.socket, .bind 0 80, .listen 0 3] 0 (.listen 5) (by decide)
    hfail).mpr trivial
  exact Prod.ext h hfail

/-- Node 300 does not exist: `connect` fails, and the socket has a new remote address. -/
theorem failed_connect_stores_destination :
    let m := run step (new 1) [.socket, .bind 0 80]
    (m.call 0 (.connect 300 80)).2 = -1 ∧ (m.call 0 (.connect 300 80)).1 ≠ m := by
  decide

end TcpManager

end NetBridge
