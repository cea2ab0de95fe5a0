import NetBridge.Filling
import NetBridge.Session

/-! # The range of the sequence numbers

A sequence number is an `int`, and nothing in the code wraps it around.  `sums` lists, next to each
operation of the manager, the sums of sequence numbers that the source forms in it; the theorem of this
module says for which transfers all of them stay in the range of an `int`, whatever the peer, the
timers and the network do.

A transfer of `amount` bytes uses the numbers `1` to `amount`, its FIN has the number `amount + 1`, and
both ends add one to it, so two is what `amount` has to be away from the largest `int`. -/

namespace NetBridge

/-! ### The sums -/

namespace TcpSocket

/-- The sums `seqStart + len` of `popAckedThrough`. -/
def popSums (ackNum : Int) : List OutstandingSeg → List Int
  | [] => []
  | head :: rest =>
      (head.seqStart + head.len) ::
        if head.seqStart + head.len ≤ ackNum then popSums ackNum rest else []

end TcpSocket

namespace TcpManager

variable (m : TcpManager)

/-- The sums `sndNxt_ + chunk` of the loop of `write`. -/
def writeSums (now : Int) (i : SockId) (buf : Buf) : ℕ → TcpManager → Int → Int → List Int
  | 0, _, _, _ => []
  | rounds + 1, m, pos, len =>
      if 0 < len then
        let s := m.sock i
        let flight := s.sndNxt - s.sndUna
        let eff := s.effectiveWindow
        if eff ≤ flight then []
        else
          let space := eff - flight
          let chunk := min len (min space Transport.MAX_PAYLOAD_SIZE)
          if chunk ≤ 0 then []
          else
            let payload := buf.slice pos chunk.toNat
            match m.sendData i s.remoteAddr s.remotePort s.sndNxt payload with
            | (_, false) => []
            | (m, true) =>
                let seg : OutstandingSeg := ⟨s.sndNxt, chunk, payload, now, false⟩
                let m' := m.setSock i { (m.sock i).pushOutstanding seg with
                  sndNxt := (m.sock i).sndNxt + chunk }
                ((m.sock i).sndNxt + chunk) ::
                  writeSums now i buf rounds m' (pos + chunk) (len - chunk)
      else []

/-- The sums of `onAck`. -/
def ackSums (srcAddr : Int) (ack : Transport) : List Int :=
  let key : ConnKey := ⟨srcAddr, ack.srcPort, ack.destPort⟩
  match m.synPendingByKey.lookup key with
  | some pending => [(m.sock pending).synSeq + 1]
  | none =>
      match m.establishedByKey.lookup key with
      | none => []
      | some established =>
          let s := m.sock established
          (if s.isClosurePending = true ∧ 0 ≤ s.finSeq then [s.finSeq + 1] else []) ++
            if s.isClosurePending = true ∧ 0 ≤ s.finSeq ∧ ack.seqNum = s.finSeq + 1 then []
            else if s.isConnected = true ∨ s.isClosurePending = true then
              if s.sndNxt < ack.seqNum then []
              else if ack.seqNum ≤ s.sndUna then []
              else TcpSocket.popSums ack.seqNum s.outstanding
            else []

/-- The sum of `onFin`. -/
def finSums (srcAddr : Int) (fin : Transport) : List Int :=
  match m.establishedByKey.lookup (⟨srcAddr, fin.srcPort, fin.destPort⟩ : ConnKey) with
  | some _ => [fin.seqNum + 1]
  | none => []

/-- The sum `rcvNxt_ + accepted` of `onData`. -/
def dataSums (srcAddr : Int) (data : Transport) : List Int :=
  match m.establishedByKey.lookup (⟨srcAddr, data.srcPort, data.destPort⟩ : ConnKey) with
  | none => []
  | some established =>
      let s := m.sock established
      if s.isConnected = false ∧ s.isClosurePending = false then []
      else
        let segLen : Int := data.payload.length
        if segLen = 0 then []
        else if data.seqNum = s.rcvNxt then
          if s.getRecvBufAvailable < segLen then []
          else [s.rcvNxt + (s.appendToRecvBuf (some data.payload) 0 segLen).2]
        else []

/-- The sum of `onSyn`. -/
def synSums (syn : Transport) : List Int :=
  match m.listenersByPort.lookup syn.destPort with
  | none => []
  | some _ => [syn.seqNum + 1]

/-- The sums of sequence numbers that an operation forms. -/
def sums : Op → List Int
  | .write now i buf pos len =>
      if (m.sock i).state ≠ .ESTABLISHED ∨ buf = none ∨ pos < 0 ∨ len < 0 then []
      else writeSums now i buf len.toNat m pos len
  | .receive _ srcAddr t =>
      match t.type with
      | .SYN => m.synSums t
      | .ACK => m.ackSums srcAddr t
      | .FIN => m.finSums srcAddr t
      | .DATA => m.dataSums srcAddr t
  | .socket | .bind .. | .listen .. | .accept _ | .connect .. | .close _ | .release _ | .read ..
  | .tick _ => []

/-- The sums of `write` lie between the number of the next byte and that of the last byte offered. -/
theorem writeSums_bound (now : Int) {i : SockId} (buf : Buf) (rounds : ℕ) (pos len : Int)
    (hi : i < m.allSockets.length) :
    ∀ x ∈ writeSums now i buf rounds m pos len,
      (m.sock i).sndNxt < x ∧ x ≤ (m.sock i).sndNxt + len := by
  induction rounds generalizing m pos len with
  | zero => exact fun x hx => by cases hx
  | succ rounds ih =>
      intro x hx
      unfold writeSums at hx
      simp only at hx
      split_ifs at hx with hlen hfull hchunk
      · cases hx
      · cases hx
      · set chunk := min len (min ((m.sock i).effectiveWindow -
          ((m.sock i).sndNxt - (m.sock i).sndUna)) Transport.MAX_PAYLOAD_SIZE)
        have hle : chunk ≤ len := min_le_left _ _
        obtain hsend | ⟨p, -, hsend⟩ := m.trySend_cases (m.sock i).remoteAddr (m.sock i).localPort
          (m.sock i).remotePort .DATA 0 (m.sock i).sndNxt (buf.slice pos chunk.toNat)
        · simp only [sendData, hsend] at hx
          cases hx
        · simp only [sendData, hsend, emit_sock, List.mem_cons] at hx
          obtain rfl | hx := hx
          · omega
          · obtain ⟨hlo, hhi⟩ := ih _ (pos + chunk) (len - chunk) (by simpa using hi) x hx
            rw [sock_setSock_self _ (by simpa using hi)] at hlo hhi
            simp only at hlo hhi
            omega
      · cases hx

theorem writeSums_first (now : Int) {i : SockId} (buf : Buf) (rounds : ℕ) (pos : Int) {len : Int}
    (hlen : 0 < len) (hopen : (m.sock i).sndNxt - (m.sock i).sndUna < (m.sock i).effectiveWindow)
    (hs : Sendable m.addr (m.sock i).remoteAddr (m.sock i).localPort (m.sock i).remotePort) :
    (m.sock i).sndNxt + min len (min ((m.sock i).effectiveWindow -
        ((m.sock i).sndNxt - (m.sock i).sndUna)) Transport.MAX_PAYLOAD_SIZE) ∈
      writeSums now i buf (rounds + 1) m pos len := by
  unfold writeSums
  simp only [if_pos hlen, if_neg (not_le.mpr hopen)]
  have hmax := Transport.MAX_PAYLOAD_SIZE_eq
  set chunk := min len (min ((m.sock i).effectiveWindow -
    ((m.sock i).sndNxt - (m.sock i).sndUna)) Transport.MAX_PAYLOAD_SIZE)
  have hpos : ¬ chunk ≤ 0 := by omega
  obtain ⟨p, -, hsend⟩ := m.trySend_ok hs .DATA 0 (m.sock i).sndNxt (buf.slice pos chunk.toNat)
    (by rw [Buf.slice_length]; omega)
  simp only [if_neg hpos, sendData, hsend, emit_sock]
  exact List.mem_cons_self

theorem mem_popSums {ackNum x : Int} {segs : List OutstandingSeg}
    (hx : x ∈ TcpSocket.popSums ackNum segs) : ∃ seg ∈ segs, x = seg.seqStart + seg.len := by
  induction segs with
  | nil => cases hx
  | cons head rest ih =>
      unfold TcpSocket.popSums at hx
      obtain rfl | hx := List.mem_cons.mp hx
      · exact ⟨head, List.mem_cons_self, rfl⟩
      · split_ifs at hx
        · obtain ⟨seg, hseg, heq⟩ := ih hx
          exact ⟨seg, List.mem_cons_of_mem _ hseg, heq⟩
        · cases hx

theorem mem_ackSums {srcAddr x : Int} {ack : Transport} (hx : x ∈ m.ackSums srcAddr ack) :
    (∃ i, m.synPendingByKey.lookup (⟨srcAddr, ack.srcPort, ack.destPort⟩ : ConnKey) = some i ∧
      x = (m.sock i).synSeq + 1) ∨
    ∃ i, m.establishedByKey.lookup (⟨srcAddr, ack.srcPort, ack.destPort⟩ : ConnKey) = some i ∧
      ((0 ≤ (m.sock i).finSeq ∧ x = (m.sock i).finSeq + 1) ∨
        ∃ seg ∈ (m.sock i).outstanding, x = seg.seqStart + seg.len) := by
  unfold ackSums at hx
  simp only at hx
  split at hx
  · rename_i i hi
    exact .inl ⟨i, hi, List.mem_singleton.mp hx⟩
  · split at hx
    · cases hx
    · rename_i i hi
      refine .inr ⟨i, hi, ?_⟩
      obtain hx | hx := List.mem_append.mp hx
      · split_ifs at hx with hfin
        · exact .inl ⟨hfin.2, List.mem_singleton.mp hx⟩
        · cases hx
      · right
        split_ifs at hx
        · cases hx
        · cases hx
        · cases hx
        · exact mem_popSums hx
        · cases hx

theorem mem_dataSums {srcAddr x : Int} {data : Transport} (hx : x ∈ m.dataSums srcAddr data) :
    ∃ i, m.establishedByKey.lookup (⟨srcAddr, data.srcPort, data.destPort⟩ : ConnKey) = some i ∧
      data.seqNum ≤ x ∧ x ≤ data.seqNum + data.payload.length := by
  unfold dataSums at hx
  simp only at hx
  split at hx
  · cases hx
  · rename_i i hi
    refine ⟨i, hi, ?_⟩
    split_ifs at hx with hlive hnone hnext hroom
    · cases hx
    · cases hx
    · cases hx
    · have hsome : ¬ ((some data.payload : Buf) = none ∨ (data.payload.length : Int) ≤ 0) := by
        simp only [reduceCtorEq, false_or]
        omega
      unfold TcpSocket.getRecvBufAvailable at hroom
      rw [List.mem_singleton, TcpSocket.appendToRecvBuf, if_neg hsome] at hx
      simp only at hx
      omega
    · cases hx

end TcpManager

/-- The sums of an event of the system. -/
def Sys.sums (cfg : Config) (σ : Sys) (e : Event) : List Int :=
  match σ.opOf cfg e with
  | some (w, op) => (σ.side w).man.sums op
  | none => []

namespace Session

/-- The sums of a call of the task. -/
def callSums (cfg : Config) (now : Int) (σ : Sys) : SocketCall → List Int
  | .write buf pos len => σ.sums cfg (.write .client now 0 (some buf) pos len)
  | .read .. | .close | .release => []

/-- The sums of an event.  If the task writes, this is its first call. -/
def sums (cfg : Config) (s : Session) : Event → List Int
  | .task now =>
      if s.task.intervalMs ≤ 0 then []
      else
        match s.task.execute (s.sys.sock .client).status now (s.count now) with
        | .error _ => []
        | .ok (_, calls) => calls.flatMap (callSums cfg now s.sys)
  | .release => []
  | .system e => s.sys.sums cfg e

end Session

/-! ### How far the numbers go -/

namespace EndOk

variable {w : Party} {x : End}

theorem sndNxt_bound (h : EndOk w x) :
    0 ≤ x.sock.sndNxt ∧ x.sock.sndNxt ≤ 1 + x.written.length := by
  obtain hf | hs := h.phase
  · have := hf.sndNxt
    omega
  · have := hs.sndNxt
    omega

theorem finSeq_bound (h : EndOk w x) (hfin : 0 ≤ x.sock.finSeq) :
    x.sock.finSeq ≤ 1 + x.written.length := by
  have := (h.fin hfin).1
  have := h.sndNxt_bound
  omega

end EndOk

namespace Link

variable {cfg : Config} {w : Party} {x : Party → End} {wire : List Sent} {c : Channel UInt8}

theorem slice (h : Link cfg w x wire c) {off : ℕ} {xs : List UInt8} (hmem : (off, xs) ∈ c.pieces) :
    Slice (x w).written off xs := by
  have hslice := (Channel.good_of_reachable h.reachable).pieces off xs hmem
  rw [h.written] at hslice
  exact hslice

theorem stop_bound (h : Link cfg w x wire c) (hok : EndOk w (x w)) {seg : OutstandingSeg}
    (hseg : seg ∈ (x w).sock.outstanding) :
    0 ≤ seg.seqStart + seg.len ∧ seg.seqStart + seg.len ≤ 1 + (x w).written.length := by
  obtain ⟨off, hstart, hmem⟩ := h.queue seg hseg
  obtain ⟨-, hlen, -⟩ := hok.sender.segment seg hseg
  have hle := (h.slice hmem).length_le
  omega

theorem received_le (h : Link cfg w x wire c) :
    (x w.other).received.length ≤ (x w).written.length := by
  have hle := (Channel.good_of_reachable h.reachable).stored.length_le
  rw [h.stored, h.written] at hle
  exact hle

end Link

namespace Sys

variable {cfg : Config} {σ : Sys} {B : Int}

theorem receive_sums_bound (hok : σ.Ok cfg) (hlinked : σ.Linked cfg)
    (hB : ∀ w, ((σ.side w).written.length : Int) ≤ B) {w : Party} {p : Sent} (hp : p ∈ σ.wire)
    (hdest : p.dest = cfg.addr w) (now : Int) :
    ∀ x ∈ (σ.side w).man.sums (.receive now p.src p.seg), 0 ≤ x ∧ x ≤ B + 2 := by
  intro x hx
  have hlen := hB w
  have hother : ((σ.ends cfg w.other).written.length : Int) ≤ B := hB w.other
  obtain ⟨v, hv⟩ := hok.wire p hp
  have hfrom := hv.of_dest hdest
  obtain ⟨c, hlink⟩ := hlinked w.other
  unfold TcpManager.sums at hx
  simp only at hx
  split at hx
  · rename_i hty
    obtain ⟨hseq, -⟩ := hok.syn p hp hty
    unfold TcpManager.synSums at hx
    split at hx
    · cases hx
    · rw [List.mem_singleton, hseq] at hx
      omega
  · have hend := hok.ends w
    obtain ⟨c', hlink'⟩ := hlinked w
    have hown : ((σ.ends cfg w).written.length : Int) ≤ B := hlen
    obtain ⟨i, hi, rfl⟩ | ⟨i, hi, hx⟩ := TcpManager.mem_ackSums _ hx
    · obtain ⟨rfl, rfl, -⟩ := (hok.side w).shape.pending _ _ hi
      have hsyn : ((σ.side .client).man.sock 0).synSeq = 0 := hend.syn rfl
      omega
    · obtain ⟨rfl, -⟩ := (hok.side w).shape.established _ _ hi
      obtain ⟨hfin, rfl⟩ | ⟨seg, hseg, rfl⟩ := hx
      · have hfin : 0 ≤ (σ.ends cfg w).sock.finSeq := hfin
        have hle := hend.finSeq_bound hfin
        change 0 ≤ (σ.ends cfg w).sock.finSeq + 1 ∧ (σ.ends cfg w).sock.finSeq + 1 ≤ _
        omega
      · have hstop := hlink'.stop_bound hend hseg
        omega
  · rename_i hty
    unfold TcpManager.finSums at hx
    split at hx
    · rw [List.mem_singleton] at hx
      obtain ⟨hfin, hseq⟩ := hlink.fins p hp hfrom hty
      have hle := (hok.ends w.other).finSeq_bound hfin
      omega
    · cases hx
  · rename_i hty
    obtain ⟨i, -, hlo, hhi⟩ := TcpManager.mem_dataSums _ hx
    obtain ⟨off, hoff, hmem⟩ := hlink.data p hp hfrom hty
    have hle := (hlink.slice hmem).length_le
    omega

end Sys

namespace Session

variable {cfg : Config} {amount : Int} {s : Session}

theorem Sound.written_le (h : Sound cfg amount s) (w : Party) :
    ((s.sys.side w).written.length : Int) ≤ max 0 amount := by
  cases w with
  | client =>
      have hspent := h.spent
      obtain hleft | hnone := h.left
      · omega
      · rw [hnone]
        exact le_max_left _ _
  | server =>
      rw [h.silent]
      exact le_max_left _ _

theorem execute_writes {c c' : TransferClient} {status : SocketStatus} {now count : Int}
    {calls : List SocketCall} (hexec : c.execute status now count = .ok (c', calls))
    {buf : List UInt8} {pos len : Int} (hcall : .write buf pos len ∈ calls) : len = c.len := by
  unfold TransferClient.execute at hexec
  simp only [TransferClient.begun_amount, TransferClient.begun_buf] at hexec
  split_ifs at hexec <;> obtain ⟨-, rfl⟩ := Prod.mk.inj (Except.ok.inj hexec) <;> simp_all

theorem Sound.write_sums (h : Sound cfg amount s) (now : Int) (buf : Buf) (pos : Int) :
    ∀ x ∈ s.sys.sums cfg (.write .client now 0 buf pos s.task.len),
      0 ≤ x ∧ x ≤ max 0 amount + 2 := by
  intro x hx
  unfold Sys.sums at hx
  split at hx
  · rename_i w op hop
    simp only [Sys.opOf, Option.ite_none_right_eq_some, Option.some.injEq, Prod.mk.injEq] at hop
    obtain ⟨-, rfl, rfl⟩ := hop
    unfold TcpManager.sums at hx
    simp only at hx
    split_ifs at hx with hguard
    · cases hx
    · simp only [not_or, not_not, not_lt] at hguard
      obtain ⟨hst, -, -, hlen⟩ := hguard
      have hlt : 0 < (s.sys.side .client).man.allSockets.length := by
        apply TcpManager.lt_length_of_state
        rw [hst]
        decide
      have hstarted := (h.ok.ends .client).started (.inl hst)
      have hnxt : ((s.sys.side .client).man.sock 0).sndNxt =
          1 + (s.sys.side .client).written.length := hstarted.sndNxt
      have hle : s.task.len ≤ s.task.amount := min_le_right _ _
      have hspent := h.spent
      have hsum := TcpManager.writeSums_bound _ now buf s.task.len.toNat pos s.task.len hlt x hx
      omega
  · cases hx

/-- **The sums of every event**: none exceeds what is asked for by more than two. -/
theorem Sound.sums_bound (h : Sound cfg amount s) {e : Event} (he : e.Honest) :
    ∀ x ∈ s.sums cfg e, 0 ≤ x ∧ x ≤ max 0 amount + 2 := by
  intro x hx
  cases e with
  | task now =>
      unfold sums at hx
      simp only at hx
      split_ifs at hx
      · cases hx
      · cases hexec : s.task.execute (s.sys.sock .client).status now (s.count now) with
        | error err =>
            rw [hexec] at hx
            cases hx
        | ok r =>
            obtain ⟨task, calls⟩ := r
            rw [hexec] at hx
            obtain ⟨call, hcall, hx⟩ := List.mem_flatMap.mp hx
            cases call with
            | write buf pos len =>
                obtain rfl := execute_writes hexec hcall
                exact h.write_sums now (some buf) pos x hx
            | read | close | release => cases hx
  | release => cases hx
  | system e =>
      change x ∈ s.sys.sums cfg e at hx
      unfold Sys.sums at hx
      split at hx
      · rename_i w op hop
        have hin := Sys.input_of_opOf cfg (Q := fun p => p ∈ s.sys.wire) hop
          fun n now p _ hp => List.mem_of_getElem? hp
        cases hin with
        | write now hi buf pos len =>
            obtain rfl := Sys.event_of_write hop
            exact he.elim
        | receive now hp hdest =>
            exact Sys.receive_sums_bound h.ok h.linked h.written_le hp hdest now x hx
        | read | accept | close | tick => cases hx
      · cases hx

end Session

/-! ### What the numbers stand for -/

/-- The numbers that are compared: those of the sockets and of the segments on the wire. -/
def Sys.numbers (σ : Sys) : List Int :=
  ([.client, .server] : List Party).flatMap (fun w =>
    [(σ.sock w).sndUna, (σ.sock w).sndNxt, (σ.sock w).rcvNxt] ++
      (σ.sock w).outstanding.map OutstandingSeg.seqStart) ++
  σ.wire.map fun p => p.seg.seqNum

/-- Sequence numbers stand for positions in the streams, the first of which has number 1: `sndNxt_` for
the end of what was written, `rcvNxt_` for the end of what was received, that of a segment for its
place, that of an acknowledgement for what had been received or for the FIN. -/
structure Sys.Counts (cfg : Config) (σ : Sys) : Prop where
  sndNxt : ∀ w, (σ.sock w).Live → (σ.sock w).sndNxt = 1 + (σ.side w).written.length
  rcvNxt : ∀ w, (σ.sock w).Live → (σ.sock w).rcvNxt = 1 + (σ.received w).length
  queue : ∀ w, ∀ seg ∈ (σ.sock w).outstanding, ∃ off : ℕ,
    seg.seqStart = 1 + off ∧ seg.len = seg.data.length ∧ Slice (σ.side w).written off seg.data
  data : ∀ w, ∀ p ∈ σ.wire, cfg.From w p → p.seg.type = .DATA → ∃ off : ℕ,
    p.seg.seqNum = 1 + off ∧ Slice (σ.side w).written off p.seg.payload
  acks : ∀ w, ∀ p ∈ σ.wire, cfg.From w.other p → p.seg.type = .ACK → ∃ n : ℕ,
    p.seg.seqNum = 1 + n ∧
      (n ≤ (σ.received w.other).length ∨ n = (σ.side w).written.length + 1)
  fins : ∀ w, ∀ p ∈ σ.wire, cfg.From w p → p.seg.type = .FIN →
    p.seg.seqNum = 1 + (σ.side w).written.length

namespace Sys

variable {cfg : Config} {σ : Sys} {B : Int}

theorem Ok.counts (hok : σ.Ok cfg) (hlinked : σ.Linked cfg) : σ.Counts cfg := by
  -- the FIN has the number after the last byte
  have hfin : ∀ w, 0 ≤ (σ.ends cfg w).sock.finSeq →
      (σ.ends cfg w).sock.finSeq = 1 + (σ.ends cfg w).written.length := by
    intro w hfin
    have hs := (hok.ends w).phase.resolve_left fun hf => absurd hf.finSeq (not_lt.mpr hfin)
    exact ((hok.ends w).fin hfin).1.trans hs.sndNxt
  refine ⟨?_, ?_, ?_, ?_, ?_, ?_⟩
  · exact fun w hlive => ((hok.ends w).started hlive).sndNxt
  · exact fun w hlive => ((hok.ends w).started hlive).rcvNxt
  · intro w seg hseg
    obtain ⟨c, hlink⟩ := hlinked w
    obtain ⟨off, hstart, hmem⟩ := hlink.queue seg hseg
    exact ⟨off, hstart, ((hok.ends w).sender.segment seg hseg).2.1, hlink.slice hmem⟩
  · intro w p hp hfrom hty
    obtain ⟨c, hlink⟩ := hlinked w
    obtain ⟨off, hseq, hmem⟩ := hlink.data p hp hfrom hty
    exact ⟨off, hseq, hlink.slice hmem⟩
  · intro w p hp hfrom hty
    obtain ⟨c, hlink⟩ := hlinked w
    obtain ⟨n, hn, hseq⟩ | ⟨h0, hseq⟩ := hlink.acks p hp hfrom hty
    · have hle := (Channel.good_of_reachable hlink.reachable).acks n hn
      rw [hlink.stored] at hle
      exact ⟨n, hseq, .inl hle⟩
    · refine ⟨(σ.side w).written.length + 1, ?_, .inr rfl⟩
      have heq : (σ.ends cfg w).sock.finSeq = 1 + (σ.side w).written.length := hfin w h0
      push_cast
      omega
  · intro w p hp hfrom hty
    obtain ⟨c, hlink⟩ := hlinked w
    obtain ⟨h0, hseq⟩ := hlink.fins p hp hfrom hty
    exact hseq.trans (hfin w h0)

theorem Ok.numbers_bound (hok : σ.Ok cfg) (hlinked : σ.Linked cfg)
    (hB : ∀ w, ((σ.side w).written.length : Int) ≤ B) :
    ∀ x ∈ σ.numbers, 0 ≤ x ∧ x ≤ B + 2 := by
  have hcounts := hok.counts hlinked
  have hreceived : ∀ w, ((σ.received w).length : Int) ≤ B := by
    intro w
    obtain ⟨c, hlink⟩ := hlinked w.other
    have hle := hlink.received_le
    rw [Party.other_other] at hle
    exact (Int.ofNat_le.mpr hle).trans (hB w.other)
  intro x hx
  obtain hx | hx := List.mem_append.mp hx
  · obtain ⟨w, -, hx⟩ := List.mem_flatMap.mp hx
    obtain hx | hx := List.mem_append.mp hx
    · have hw : ((σ.ends cfg w).written.length : Int) ≤ B := hB w
      have hr : ((σ.ends cfg w).received.length : Int) ≤ B := hreceived w
      have hle := (hok.ends w).sender.sndUna_le
      simp only [List.mem_cons, List.not_mem_nil, or_false] at hx
      change x = (σ.ends cfg w).sock.sndUna ∨ x = (σ.ends cfg w).sock.sndNxt ∨
        x = (σ.ends cfg w).sock.rcvNxt at hx
      obtain hf | hs := (hok.ends w).phase
      · have := hf.sndUna
        have := hf.sndNxt
        have := hf.rcvNxt
        omega
      · have := hs.sndUna
        have := hs.sndNxt
        have := hs.rcvNxt
        omega
    · obtain ⟨seg, hseg, rfl⟩ := List.mem_map.mp hx
      obtain ⟨off, hstart, -, hslice⟩ := hcounts.queue w seg hseg
      have hle := hslice.length_le
      have := hB w
      omega
  · obtain ⟨p, hp, rfl⟩ := List.mem_map.mp hx
    obtain ⟨w, hfrom⟩ := hok.wire p hp
    have hw := hB w
    cases hty : p.seg.type with
    | SYN =>
        have := (hok.syn p hp hty).1
        omega
    | ACK =>
        obtain ⟨n, hseq, hn⟩ := hcounts.acks w.other p hp (by rwa [Party.other_other]) hty
        rw [Party.other_other] at hn
        have := hreceived w
        have := hB w.other
        omega
    | FIN =>
        have := hcounts.fins w p hp hfrom hty
        omega
    | DATA =>
        obtain ⟨off, hseq, hslice⟩ := hcounts.data w p hp hfrom hty
        have := hslice.length_le
        omega

end Sys

/-- The connection that a command asks for. -/
structure Config.For (cfg : Config) (a : TransferArgs) : Prop where
  destAddr : cfg.addr .server = a.destAddr
  port : cfg.port .server = a.port
  localPort : cfg.port .client = a.localPort

namespace Session

variable {cfg : Config} {amount : Int} {s : Session}

/-- The arithmetic on sequence numbers is exact: whatever happens next, all sums are in the range of an
`int`, and so are the numbers that are compared, which are in the order of what they stand for. -/
structure Exact (cfg : Config) (s : Session) : Prop where
  sums : ∀ e : Event, e.Honest → ∀ x ∈ s.sums cfg e, InInt32 x
  numbers : ∀ x ∈ s.sys.numbers, InInt32 x
  counts : s.sys.Counts cfg

theorem Sound.exact (h : Sound cfg amount s) (hamount : amount ≤ 2147483645) : s.Exact cfg := by
  have hint : ∀ x, 0 ≤ x ∧ x ≤ max 0 amount + 2 → InInt32 x := by
    intro x hx
    unfold InInt32
    omega
  refine ⟨?_, ?_, h.ok.counts h.linked⟩
  · exact fun e he x hx => hint x (h.sums_bound he x hx)
  · exact fun x hx => hint x (h.ok.numbers_bound h.linked h.written_le x hx)

/-! ### A transfer in full segments -/

/-- A client whose buffer holds one segment has sent `k` bytes, all of them are acknowledged, and the
server has left `u` of them in its buffer. -/
structure Rolling (cfg : Config) (amount : Int) (k u a : ℕ) (s : Session) : Prop where
  settled : s.sys.Settled cfg k u a []
  window : 107 ≤ (s.sys.sock .client).rwnd
  size : s.task.buf.length = 107
  pos : s.task.pos = k
  left : s.task.amount = amount - k
  running : 0 < s.task.intervalMs

variable {k u a c : ℕ}

theorem Rolling.index (h : Rolling cfg amount k u a s) (hk : 107 ∣ k) : s.task.index = 0 := by
  unfold TransferClient.index
  rw [h.size, h.pos]
  exact Int.tmod_eq_zero_of_dvd (Int.natCast_dvd_natCast.mpr hk)

theorem Rolling.len (h : Rolling cfg amount k u a s) (hk : 107 ∣ k) :
    s.task.len = min 107 (amount - k) := by
  unfold TransferClient.len
  rw [h.index hk, h.size, h.left]
  rfl

theorem Rolling.cwnd (h : Rolling cfg amount k u a s) : 107 ≤ (s.sys.sock .client).cwnd := by
  have hmin := h.settled.cwnd.1
  rwa [TcpSocket.CWND_MIN_BYTES_eq] at hmin

/-- What the task offers to its socket. -/
def offered (s : Session) : List UInt8 := (s.task.begun 0).fill.buf

theorem Rolling.count (h : Rolling cfg amount k u a s) (hk : 107 ∣ k) (hc : 0 < c)
    (hlen : s.task.len = c) : s.count 0 = c := by
  have hsettled := h.settled
  have hwindow := h.window
  have hmax : (c : Int) ≤ 107 := by
    rw [← hlen, h.len hk]
    exact min_le_left _ _
  obtain ⟨-, -, -, hends⟩ := Sys.step_write_segment hsettled.ok (hsettled.held .client)
    (hsettled.state .client) (hsettled.sndUna.trans hsettled.sndNxt.symm) hsettled.cwnd.1 s.offered hc
    (by omega) (by omega)
  obtain ⟨hclient, -⟩ := Sys.ends_of_update hends
  have hwritten : ((s.sys.step cfg (.write .client 0 0 (some s.offered) 0 c)).side .client).written =
      (s.sys.side .client).written ++ Buf.slice (some s.offered) 0 c := congrArg End.written hclient
  have hcount : s.count 0 = ((s.sys.side .client).man.write 0 0 (some s.offered) 0 c).2 := by
    unfold Session.count
    rw [h.index hk, hlen]
    rfl
  have hle := @Sys.written_write cfg s.sys .client 0 0 (some s.offered) 0 c
  have hvalue : s.count 0 = -1 ∨ (0 ≤ s.count 0 ∧ s.count 0 ≤ c) := by
    rw [hcount]
    exact hsettled.ok.write_value .client 0 (some s.offered) 0 c
  rw [hwritten, ← hcount, List.length_append, Buf.slice_length] at hle
  omega

theorem Rolling.status (h : Rolling cfg amount k u a s) :
    (s.sys.sock .client).status = ⟨false, true, false, false⟩ := by
  have hst := h.settled.state .client
  simp [TcpSocket.status, TcpSocket.isConnectionPending, TcpSocket.isConnected,
    TcpSocket.isClosurePending, TcpSocket.isClosed, hst]

theorem Rolling.execute (h : Rolling cfg amount k u a s) (hk : 107 ∣ k) (hc : 0 < c)
    (hlen : s.task.len = c) :
    s.task.execute (s.sys.sock .client).status 0 (s.count 0) =
      .ok ({ (s.task.begun 0).fill with pos := s.task.pos + c, amount := s.task.amount - c },
        [.write s.offered 0 c]) := by
  have hleft := h.left
  have hoffered := h.len hk
  have hamount : s.task.amount ≠ 0 := by omega
  have hfails : (c : Int) ≠ -1 := by omega
  rw [h.status, h.count hk hc hlen]
  simp [TransferClient.execute, hamount, h.size, h.index hk, hlen, hfails, offered]

/-- A segment is sent and acknowledged. -/
def sendSegment : List Event := [.task 0, .system (.deliver 0 0), .system (.deliver 0 0)]

theorem Rolling.send (h : Rolling cfg amount k u a s) (hk : 107 ∣ k) (hc : 0 < c)
    (hlen : s.task.len = c) (hu : u ≤ 107) (ha : a ≤ 2147477815) :
    Rolling cfg amount (k + c) (u + c) (a + 1) (run (Session.step cfg) s sendSegment) := by
  have htask : s.step cfg (.task 0) =
      ⟨{ (s.task.begun 0).fill with pos := s.task.pos + c, amount := s.task.amount - c },
        s.sys.step cfg (.write .client 0 0 (some s.offered) 0 c)⟩ := by
    simp only [Session.step, if_neg (not_le.mpr h.running), h.execute hk hc hlen]
    rfl
  have hcap := TcpSocket.RECV_BUF_CAP_eq
  have hwindow := h.window
  have hpos := h.pos
  have hleft := h.left
  have hmax : (c : Int) ≤ 107 := by
    rw [← hlen, h.len hk]
    exact min_le_left _ _
  obtain ⟨hsettled, hrwnd⟩ := h.settled.round s.offered hc (by omega) (by omega)
    (by push_cast; omega) ha
  unfold sendSegment
  rw [run_cons, htask]
  refine ⟨hsettled, ?_, ?_, ?_, ?_, ?_⟩
  · refine le_of_le_of_eq ?_ hrwnd.symm
    push_cast
    omega
  · exact (TransferClient.length_fill_buf _).trans ((congrArg List.length
      (TransferClient.begun_buf _ _)).trans h.size)
  · show s.task.pos + (c : Int) = _
    push_cast
    omega
  · show s.task.amount - (c : Int) = _
    push_cast
    omega
  · show 0 < (s.task.begun 0).fill.intervalMs
    simpa using h.running

/-- A segment is sent and acknowledged, and the server reads another. -/
def passSegment : List Event := sendSegment ++ [.system (.read .server 1 true 0 107)]

theorem Rolling.pass (h : Rolling cfg amount k 107 a s) (hk : 107 ∣ k)
    (hfull : ((k + 107 : ℕ) : Int) ≤ amount) (ha : a ≤ 2147477815) :
    Rolling cfg amount (k + 107) 107 (a + 1) (run (Session.step cfg) s passSegment) := by
  have hlen : s.task.len = (107 : ℕ) := by
    rw [h.len hk]
    push_cast at hfull
    omega
  have hsent := h.send hk (by decide : 0 < 107) hlen le_rfl ha
  unfold passSegment
  rw [run_append]
  obtain ⟨hsettled, hsock⟩ := hsent.settled.read (by decide : 0 < 107) (by decide : 0 < 107)
  refine ⟨hsettled, ?_, hsent.size, hsent.pos, hsent.left, hsent.running⟩
  exact le_of_le_of_eq hsent.window (congrArg TcpSocket.rwnd hsock).symm

/-- The rounds that send `n` segments. -/
def passSegments (n : ℕ) : List Event := (List.replicate n passSegment).flatten

theorem Rolling.passes (h : Rolling cfg amount k 107 a s) (hk : 107 ∣ k) {n : ℕ}
    (hn : ((k + 107 * n : ℕ) : Int) ≤ amount) (ha : a + n ≤ 2147477815) :
    Rolling cfg amount (k + 107 * n) 107 (a + n) (run (Session.step cfg) s (passSegments n)) := by
  induction n with
  | zero => exact h
  | succ n ih =>
      have hsplit : passSegments (n + 1) = passSegments n ++ passSegment := by
        simp [passSegments, List.replicate_succ']
      have hfull : ((k + 107 * n + 107 : ℕ) : Int) ≤ amount := by
        push_cast at hn ⊢
        omega
      have hrolling := ih (by push_cast at hfull ⊢; omega) (by omega)
      rw [hsplit, run_append]
      exact hrolling.pass (Nat.dvd_add hk (Nat.dvd_mul_right 107 n)) hfull (by omega)

theorem honest_passSegments (n : ℕ) : ∀ e ∈ passSegments n, e.Honest := by
  intro e he
  obtain ⟨round, hround, he⟩ := List.mem_flatten.mp he
  rw [List.eq_of_mem_replicate hround] at he
  have hall : ∀ e ∈ passSegment, e.Honest := by decide
  exact hall e he

theorem Rolling.write_sum (h : Rolling cfg amount k u a s) (hk : 107 ∣ k) (hc : 0 < c)
    (hlen : s.task.len = c) : 1 + (k : Int) + c ∈ s.sums cfg (.task 0) := by
  have hsettled := h.settled
  have hst := hsettled.state .client
  have hmem : 0 ∈ (s.sys.side .client).handles := of_decide_eq_true (hsettled.held .client)
  have hne : (s.sys.sock .client).state ≠ .CLOSED := by
    rw [hst]
    decide
  have hsums : s.sums cfg (.task 0) =
      (s.sys.side .client).man.sums (.write 0 0 (some s.offered) 0 c) := by
    simp only [sums, if_neg (not_le.mpr h.running), h.execute hk hc hlen, List.flatMap_cons,
      List.flatMap_nil, List.append_nil, callSums, Sys.sums, Sys.opOf, if_pos hmem]
  have hguard : ¬ (((s.sys.side .client).man.sock 0).state ≠ .ESTABLISHED ∨
      (some s.offered : Buf) = none ∨ (0 : Int) < 0 ∨ (c : Int) < 0) := by
    have hst : ((s.sys.side .client).man.sock 0).state = .ESTABLISHED := hst
    simp [hst]
  have hmax := Transport.MAX_PAYLOAD_SIZE_eq
  have hcwnd := h.cwnd
  have hwindow := h.window
  have hnxt := hsettled.sndNxt
  have huna := hsettled.sndUna
  have hc107 : (c : Int) ≤ 107 := by
    rw [← hlen, h.len hk]
    exact min_le_left _ _
  have hconn : (s.sys.side .client).man.sock 0 = s.sys.sock .client := rfl
  have hopen : ((s.sys.side .client).man.sock 0).sndNxt - ((s.sys.side .client).man.sock 0).sndUna <
      ((s.sys.side .client).man.sock 0).effectiveWindow := by
    rw [hconn]
    unfold TcpSocket.effectiveWindow
    omega
  have hsum := (s.sys.side .client).man.writeSums_first 0 (some s.offered) (c - 1) 0
    (Int.natCast_pos.mpr hc) hopen ((hsettled.ok.side .client).shape.sendable hne)
  have hchunk : min (c : Int) (min ((s.sys.sock .client).effectiveWindow -
      ((s.sys.sock .client).sndNxt - (s.sys.sock .client).sndUna)) Transport.MAX_PAYLOAD_SIZE) =
        c := by
    unfold TcpSocket.effectiveWindow
    omega
  rw [hconn, hchunk, hnxt, Nat.sub_add_cancel hc] at hsum
  rw [hsums, TcpManager.sums, if_neg hguard]
  exact hsum

/-- The number of the FIN has no successor. -/
theorem Rolling.fin_sum (h : Rolling cfg amount k u a s) (hk : (k : Int) = amount) :
    2 + (k : Int) ∈ (s.step cfg (.task 0)).sums cfg (.system (.deliver 0 0)) := by
  have hsettled := h.settled
  -- nothing is left, and the task closes its socket
  have hamount : s.task.amount = 0 := by
    have := h.left
    omega
  have hexec : s.task.execute (s.sys.sock .client).status 0 (s.count 0) =
      .ok (s.task.begun 0, [.close]) := by
    rw [h.status]
    simp [TransferClient.execute, hamount]
  have htask : (s.step cfg (.task 0)).sys = s.sys.step cfg (.close .client 0) := by
    simp only [Session.step, if_neg (not_le.mpr h.running), hexec, List.foldl_cons, List.foldl_nil,
      call]
  obtain ⟨p, hp, hwire, hends⟩ := Sys.step_close hsettled.ok (hsettled.held .client)
    (hsettled.state .client) (hsettled.sndUna.trans hsettled.sndNxt.symm)
  have hok := hsettled.ok.step (.close .client 0)
  set σ := s.sys.step cfg (.close .client 0)
  obtain ⟨-, hserver⟩ := Sys.ends_of_update hends
  have hserver : σ.ends cfg .server = s.sys.ends cfg .server := hserver
  have hreg : (σ.ends cfg .server).registered = true := by
    rw [hserver]
    exact hsettled.registered .server
  have hfrom : cfg.From (Party.other .server) p := hp.from
  rw [hsettled.wire] at hwire
  -- the FIN arrives
  have hop : σ.opOf cfg (.deliver 0 0) = some (.server, .receive 0 p.src p.seg) :=
    Sys.opOf_deliver hwire hfrom 0
  have hlookup := hok.lookup hreg hfrom
  have hnumber : 2 + (k : Int) = p.seg.seqNum + 1 := by
    rw [hp.seqNum, hsettled.sndNxt]
    omega
  have hsums : (s.step cfg (.task 0)).sums cfg (.system (.deliver 0 0)) = [p.seg.seqNum + 1] := by
    show Sys.sums cfg (s.step cfg (.task 0)).sys (.deliver 0 0) = _
    unfold segKey at hlookup
    rw [htask, Sys.sums, hop]
    simp only [TcpManager.sums, hp.type, TcpManager.finSums, hlookup]
  rw [hsums, hnumber]
  exact List.mem_singleton_self _

/-- The connection is set up and the server accepts it. -/
def opened : List Event := Sys.accepted.map .system

theorem run_system (cfg : Config) (task : TransferClient) (σ : Sys) (es : List NetBridge.Event) :
    run (Session.step cfg) ⟨task, σ⟩ (es.map .system) = ⟨task, run (Sys.step cfg) σ es⟩ := by
  induction es generalizing σ with
  | nil => rfl
  | cons e es ih => exact ih (σ.step cfg e)

/-- A client before its first run. -/
def newClient (size : ℕ) (amount interval : Int) : TransferClient :=
  ⟨List.replicate size 0, amount, 0, 0, 0, interval⟩

theorem rolling_opened {interval : Int} (amount : Int) (hrun : 0 < interval) :
    Rolling Sys.exampleConfig amount 0 0 0
      (run (Session.step Sys.exampleConfig)
        (start Sys.exampleConfig (newClient 107 amount interval)) opened) := by
  have hcalm := Sys.calm_accepted
  unfold opened start
  rw [run_system]
  generalize run (Sys.step Sys.exampleConfig) (Sys.init Sys.exampleConfig) Sys.accepted = σ at hcalm
  refine ⟨hcalm.toSettled, ?_, rfl, rfl, ?_, hrun⟩
  · rw [hcalm.rwnd]
    decide
  · exact (Int.sub_zero _).symm

/-- The events of a transfer of `n + 1` segments. -/
def transferSegments (n : ℕ) : List Event := opened ++ sendSegment ++ passSegments n

theorem honest_transferSegments (n : ℕ) : ∀ e ∈ transferSegments n, e.Honest := by
  have hopened : ∀ e ∈ opened ++ sendSegment, e.Honest := by decide
  intro e he
  obtain he | he := List.mem_append.mp he
  · exact hopened e he
  · exact honest_passSegments n e he

theorem rolling_transferSegments {interval : Int} (hrun : 0 < interval) {n : ℕ}
    (hn : ((107 + 107 * n : ℕ) : Int) ≤ amount) (ha : 1 + n ≤ 2147477815) :
    Rolling Sys.exampleConfig amount (107 + 107 * n) 107 (1 + n)
      (run (Session.step Sys.exampleConfig)
        (start Sys.exampleConfig (newClient 107 amount interval)) (transferSegments n)) := by
  have hopened := rolling_opened amount hrun
  have hlen : (run (Session.step Sys.exampleConfig)
      (start Sys.exampleConfig (newClient 107 amount interval)) opened).task.len = (107 : ℕ) := by
    rw [hopened.len (Nat.dvd_zero 107)]
    push_cast at hn ⊢
    omega
  have hfirst := hopened.send (Nat.dvd_zero 107) (by decide : 0 < 107) hlen (by decide) (by decide)
  rw [Nat.zero_add, Nat.zero_add] at hfirst
  unfold transferSegments
  rw [run_append, run_append]
  exact hfirst.passes (dvd_refl 107) hn ha

/-- A transfer that is too long: once 20069940 segments are sent, the next one or the FIN after it
leaves the range. -/
theorem exists_overflow {interval : Int} (hrun : 0 < interval) (hamount : 2147483646 ≤ amount) :
    ∃ (events : List Event) (e : Event), (∀ e ∈ events, e.Honest) ∧ e.Honest ∧
      ∃ x ∈ (run (Session.step Sys.exampleConfig)
        (start Sys.exampleConfig (newClient 107 amount interval)) events).sums Sys.exampleConfig e,
        ¬ InInt32 x := by
  obtain ⟨n, hn⟩ : ∃ n : ℕ, n = 20069939 := ⟨20069939, rfl⟩
  have hsent : ((107 + 107 * n : ℕ) : Int) = 2147483580 := by omega
  have hrolling : Rolling Sys.exampleConfig amount (107 + 107 * n) 107 (1 + n) _ :=
    rolling_transferSegments hrun (by omega) (by omega)
  have hdvd : 107 ∣ 107 + 107 * n := Nat.dvd_add (dvd_refl 107) (Nat.dvd_mul_right 107 n)
  obtain ⟨c, hc⟩ : ∃ c : ℕ, (c : Int) = min 107 (amount - 2147483580) :=
    ⟨(min 107 (amount - 2147483580)).toNat, by omega⟩
  have hlen := hrolling.len hdvd
  rw [hsent, ← hc] at hlen
  by_cases hmore : 2147483646 < amount
  · refine ⟨transferSegments n, .task 0, honest_transferSegments n, trivial, _,
      hrolling.write_sum hdvd (by omega) hlen, ?_⟩
    unfold InInt32
    omega
  · have hlast := hrolling.send hdvd (by omega) hlen le_rfl (by omega)
    refine ⟨transferSegments n ++ sendSegment ++ [.task 0], .system (.deliver 0 0), ?_, trivial,
      2 + ((107 + 107 * n + c : ℕ) : Int), ?_, ?_⟩
    · have hrest : ∀ e ∈ sendSegment ++ [.task 0], e.Honest := by decide
      intro e he
      rw [List.append_assoc] at he
      obtain he | he := List.mem_append.mp he
      · exact honest_transferSegments n e he
      · exact hrest e he
    · rw [run_append, run_append]
      exact hlast.fin_sum (by omega)
    · unfold InInt32
      omega

/-- **For which transfers the sequence numbers suffice**: for every command with that amount, its
arithmetic is exact in all states of all runs with an honest peer, exactly if the amount is at most
2147483645. -/
theorem sequence_numbers_exact_iff (amount : Int) (hint : InInt32 amount) :
    (∀ (command : Str) (a : TransferArgs), transferArgs command = some (some a) →
      a.amount = amount → ∀ (alloc : ℕ → Bool) (task : TransferClient),
      TransferClient.make alloc a.amount a.interval a.sz = .ok task →
      ∀ cfg : Config, cfg.For a → ∀ events : List Event, (∀ e ∈ events, e.Honest) →
        (run (Session.step cfg) (start cfg task) events).Exact cfg) ↔
    amount ≤ 2147483645 := by
  constructor
  · intro hall
    by_contra hlarge
    unfold InInt32 at hint
    have hfails : ∀ command,
        transferArgs command = some (some ⟨2, 80, 5, amount, 1000, 107⟩) → False := by
      intro command hargs
      obtain ⟨events, e, hevents, he, x, hx, hout⟩ := exists_overflow (by decide : (0 : Int) < 1000)
        (show 2147483646 ≤ amount by omega)
      have hexact := hall command _ hargs rfl (fun _ => true) (newClient 107 amount 1000) rfl
        Sys.exampleConfig ⟨rfl, rfl, rfl⟩ events hevents
      exact hout (hexact.sums e he x hx)
    have hcases : amount = 2147483646 ∨ amount = 2147483647 := by omega
    obtain rfl | rfl := hcases
    · exact hfails "transfer 2 80 5 2147483646 1000 107".toList (by decide)
    · exact hfails "transfer 2 80 5 2147483647 1000 107".toList (by decide)
  · rintro hamount command a - rfl alloc task hmake cfg - events hevents
    obtain ⟨-, rfl⟩ := TransferClient.make_eq_ok hmake
    exact (sound_run cfg _ hevents).exact hamount

/-- Two bytes from a buffer of one byte. -/
theorem sequence_numbers_exact_two_bytes :
    let s := run (Session.step Sys.exampleConfig)
      (start Sys.exampleConfig (newClient 1 2 1000)) (transferSegments 1)
    InInt32 2 ∧ (s.sys.sock .client).sndNxt = 3 ∧ s.Exact Sys.exampleConfig := by
  have hint : InInt32 2 := by decide
  refine ⟨hint, by decide, ?_⟩
  exact (sequence_numbers_exact_iff 2 hint).mpr (by decide) "transfer 2 80 5 2 1000 1".toList
    ⟨2, 80, 5, 2, 1000, 1⟩ (by decide) rfl (fun _ => true) _ rfl _ ⟨rfl, rfl, rfl⟩ _
    (honest_transferSegments 1)

/-- The largest amount that a command can ask for. -/
theorem largest_transfer_overflows :
    ∃ (a : TransferArgs) (task : TransferClient) (events : List Event) (e : Event),
      transferArgs "transfer 2 80 5 2147483647 1000 107".toList = some (some a) ∧
      a.amount = 2147483647 ∧ TransferClient.make (fun _ => true) a.amount a.interval a.sz = .ok task ∧
      Sys.exampleConfig.For a ∧ (∀ e ∈ events, e.Honest) ∧ e.Honest ∧
      ∃ x ∈ (run (Session.step Sys.exampleConfig) (start Sys.exampleConfig task) events).sums
        Sys.exampleConfig e, ¬ InInt32 x := by
  obtain ⟨events, e, hevents, he, hx⟩ := exists_overflow (by decide : (0 : Int) < 1000)
    (by decide : (2147483646 : Int) ≤ 2147483647)
  exact ⟨⟨2, 80, 5, 2147483647, 1000, 107⟩, newClient 107 2147483647 1000, events, e, by decide, rfl,
    rfl, ⟨rfl, rfl, rfl⟩, hevents, he, hx⟩

end Session

end NetBridge
