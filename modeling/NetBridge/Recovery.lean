import NetBridge.Alignment
import NetBridge.Filling
import NetBridge.Tick

/-! # A timeout repairs what has been lost

Go-back-N sends everything again that is outstanding.  If the network then delivers these segments and
the answers to them, one after the other, nothing is outstanding any more and the receiver has the whole
stream, whatever has been lost, doubled or reordered before, and whatever else is still on its way
(`losses_repaired`).  So no reachable state of an open connection is a dead end for what has been
written.

As in all of `Connection`, the SYN is delivered at most once: a second one would make another child of
the listener, to which the segments of the client would go.  The sequence numbers are integers, which
they agree with in the source as long as fewer than `2 ^ 31 - 2` bytes are written. -/

namespace NetBridge

open TcpManager (stored advanced timedOut)

/-! ### Steps whose outcome is known -/

theorem TcpSocket.read_all {s : TcpSocket} (hst : s.Live) (hpeer : s.peerFinReceived = false)
    (hused : s.recvBufUsed = s.recvBuf.length) (hcap : s.recvBufUsed ≤ RECV_BUF_CAP) :
    s.read true 0 RECV_BUF_CAP = (s.taken s.recvBufUsed, s.recvBufUsed, s.recvBuf) := by
  have hguard : ¬ ((s.state ≠ .ESTABLISHED ∧ s.state ≠ .SHUTDOWN) ∨ true = false ∨ (0 : Int) < 0 ∨
      RECV_BUF_CAP < 0) := by
    rw [RECV_BUF_CAP_eq]
    unfold Live at hst
    simp only [Bool.true_eq_false, lt_self_iff_false, false_or]
    rintro (h | h)
    · tauto
    · omega
  by_cases hzero : s.recvBufUsed = 0
  · have hnil : s.recvBuf = [] := List.eq_nil_of_length_eq_zero (by omega)
    rw [read, if_neg hguard, if_pos (.inr hzero), hpeer, hzero, taken_zero, hnil]
    rfl
  · have hlen : ¬ (RECV_BUF_CAP = 0 ∨ s.recvBufUsed = 0) := by
      rw [RECV_BUF_CAP_eq]
      omega
    have htake : s.recvBuf.take s.recvBufUsed.toNat = s.recvBuf := List.take_of_length_le (by omega)
    rw [read, if_neg hguard, if_neg hlen]
    simp only [hpeer, Bool.false_eq_true, false_and, if_false, min_eq_right hcap, htake, taken]

namespace Side

variable {cfg : Config} {w : Party} {d : Side}

theorem performs_read_all (h : SideOk cfg w d) (hi : w.conn ∈ d.handles)
    (hst : (d.man.sock w.conn).Live) (hpeer : (d.man.sock w.conn).peerFinReceived = false)
    (hused : (d.man.sock w.conn).recvBufUsed = (d.man.sock w.conn).recvBuf.length)
    (hcap : (d.man.sock w.conn).recvBufUsed ≤ TcpSocket.RECV_BUF_CAP) :
    d.Performs cfg w (.read w.conn true 0 TcpSocket.RECV_BUF_CAP)
      { d.view cfg w with
        sock := (d.man.sock w.conn).taken (d.man.sock w.conn).recvBufUsed
        readOut := d.readOut ++ (d.man.sock w.conn).recvBuf } [] := by
  have hexec := step_eq_exec h (.read w.conn true 0 TcpSocket.RECV_BUF_CAP)
    fun j hj => by cases hj; exact hi
  have hstep : d.man.step (.read w.conn true 0 TcpSocket.RECV_BUF_CAP) =
      d.man.setSock w.conn ((d.man.sock w.conn).read true 0 TcpSocket.RECV_BUF_CAP).1 := hexec
  have e := TcpSocket.read_all hst hpeer hused hcap
  refine performs_update h (h.shape.held _ hi) ?_ rfl rfl ?_ h.shape.notListening
    (fun _ => h.shape.key hst.ne.1) rfl ⟨rfl, rfl, rfl⟩
  · rw [hstep, e, TcpManager.emit_nil]
  · simp only [nextReadOut, TcpManager.read, e]

/-- A tick sends the queue of a registered connection if its timer has run out. -/
theorem performs_tick (h : SideOk cfg w d) (now : Int) (hreg : (d.view cfg w).registered = true)
    (hst : (d.man.sock w.conn).state ≠ .CLOSED) :
    ∃ out, out.map (fun p => p.seg.span) =
        (if Due now (d.man.sock w.conn)
          then (d.man.sock w.conn).outstanding.map OutstandingSeg.span else []) ∧
      (∀ p ∈ out, cfg.From w p ∧ p.seg.type = .DATA) ∧
      d.Performs cfg w (.tick now)
        { d.view cfg w with sock := expired now (d.man.sock w.conn) } out := by
  obtain ⟨i, hi⟩ := Option.isSome_iff_exists.mp hreg
  obtain ⟨rfl, -⟩ := h.shape.established _ i hi
  have hkey := h.shape.key hst
  have hentries : d.man.establishedByKey.entries = [⟨cfg.key w, w.conn⟩] := by
    refine (Table.entries_of_unique d.man.establishedByKey h.shape.established).resolve_left ?_
    intro hnil
    have hmem := (Table.lookup_eq_some_iff _).mp hi
    rw [hnil] at hmem
    cases hmem
  have hstep : d.man.step (.tick now) =
      (d.man.setSock w.conn (expired now (d.man.sock w.conn))).emit
        (resent d.man.addr now (d.man.sock w.conn)) := by
    rw [d.man.step_tick now, TcpManager.retransmissionTick, hentries]
    exact d.man.retransmitSocket_eq now w.conn
  have hsame : (expired now (d.man.sock w.conn)).state = (d.man.sock w.conn).state ∧
      (expired now (d.man.sock w.conn)).key = (d.man.sock w.conn).key ∧
      (expired now (d.man.sock w.conn)).pendingConnQueue = (d.man.sock w.conn).pendingConnQueue := by
    unfold expired
    split_ifs <;> exact ⟨rfl, rfl, rfl⟩
  have hqueue : Due now (d.man.sock w.conn) → List.Forall₂ (IsDataOf d.man.addr (d.man.sock w.conn))
      (resent d.man.addr now (d.man.sock w.conn)) (d.man.sock w.conn).outstanding := by
    intro hdue
    refine resent_forall₂ hdue (h.shape.sendable hst) fun seg hseg => ?_
    obtain ⟨-, hlen, hmax⟩ := (h.steady.senders w.conn).segment seg hseg
    rw [Transport.MAX_PAYLOAD_SIZE_eq] at hmax
    omega
  refine ⟨resent d.man.addr now (d.man.sock w.conn), ?_, ?_, ?_⟩
  · split_ifs with hdue
    · refine List.forall₂_eq_eq_eq ▸ List.forall₂_map_left_iff.mpr (List.forall₂_map_right_iff.mpr ?_)
      exact (hqueue hdue).imp fun p seg hp => (h.shape.sends hkey hp).span
    · rw [resent, if_neg hdue]
      rfl
  · intro p hp
    by_cases hdue : Due now (d.man.sock w.conn)
    · obtain ⟨seg, -, hseg⟩ := exists_mem_of_forall₂ (hqueue hdue) hp
      exact ⟨(h.shape.sends hkey hseg).from, hseg.type⟩
    · rw [resent, if_neg hdue] at hp
      cases hp
  · refine performs_update h (h.steady.bounded.established hi) hstep rfl rfl rfl ?_ ?_ hsame.2.2
      ⟨rfl, rfl, rfl⟩
    · show (expired now (d.man.sock w.conn)).state ≠ .LISTEN
      rw [hsame.1]
      exact h.shape.notListening
    · exact fun _ => hsame.2.1.trans hkey

theorem performs_answer (h : SideOk cfg w d) (now : Int) {p : Sent} (hp : cfg.From w.other p)
    (hty : p.seg.type = .DATA)
    (hest : d.man.establishedByKey.lookup (segKey p.src p.seg) = some w.conn)
    (hst : (d.man.sock w.conn).Live) (hseq : p.seg.seqNum ≠ (d.man.sock w.conn).rcvNxt) :
    ∃ q, cfg.Sends w q .ACK (d.man.sock w.conn).getRecvBufAvailable (d.man.sock w.conn).rcvNxt [] ∧
      d.Performs cfg w (.receive now p.src p.seg) (d.view cfg w) [q] := by
  have hstep : d.man.step (.receive now p.src p.seg) = d.man.onData p.src p.seg := by
    rw [TcpManager.step_receive, TcpManager.receiveTransport, hty]
  have hkey := ((h.steady.fits w.conn).established _ hest).1
  have hport : (d.man.sock w.conn).localPort = p.seg.destPort := by
    rw [TcpSocket.key, segKey, ConnKey.mk.injEq] at hkey
    exact hkey.2.2
  obtain ⟨q, hq, eq⟩ := sendAck_sends h.shape.addr hp (d.man.sock w.conn).rcvNxt
    (d.man.sock w.conn).getRecvBufAvailable
  refine ⟨q, hq, performs_update h (h.steady.bounded.established hest) ?_ rfl rfl rfl
    h.shape.notListening h.shape.key rfl ⟨rfl, rfl, rfl⟩⟩
  show _ = (d.man.setSock w.conn (d.man.sock w.conn)).emit [q]
  rw [hstep, d.man.onData_answers hest hst fun hnext => hseq hnext.2.1, TcpManager.ackData, hport, eq,
    TcpManager.setSock_sock]

end Side

namespace Sys

variable {cfg : Config} {w : Party} {σ : Sys}

theorem deliver_performs {stale later sent : List Sent} {p : Sent} {x : End} {now : Int}
    (hwire : σ.wire = stale ++ p :: later) (hp : cfg.From w.other p)
    (hperforms : (σ.side w).Performs cfg w (.receive now p.src p.seg) x sent) :
    (σ.step cfg (.deliver stale.length now)).ends cfg = Function.update (σ.ends cfg) w x ∧
      (σ.step cfg (.deliver stale.length now)).wire = stale ++ (later ++ sent) := by
  have hget : σ.wire[stale.length]? = some p := by
    rw [hwire, List.getElem?_append_right le_rfl, Nat.sub_self]
    rfl
  have hdest : p.dest = cfg.addr w := by
    rw [hp.dest, Party.other_other]
  have hop : σ.opOf cfg (.deliver stale.length now) = some (w, .receive now p.src p.seg) := by
    simp only [opOf, hget, hdest, nodeAt_addr, Option.bind_eq_bind, Option.bind_some]
    rfl
  have hrest : σ.remaining (.deliver stale.length now) = stale ++ later := by
    show σ.wire.eraseIdx stale.length = _
    rw [hwire, List.eraseIdx_append_of_length_le le_rfl, Nat.sub_self]
    rfl
  obtain ⟨hends, hwire'⟩ := act_performs (σ := { σ with wire := stale ++ later }) hperforms
  rw [step_of_opOf cfg hop, hrest]
  exact ⟨hends, hwire'.trans (List.append_assoc ..)⟩

/-! ### The receiver -/

/-- Segments that the receiver has already are answered one by one. -/
theorem deliver_old (hok : σ.Ok cfg) (hreg : (σ.ends cfg w.other).registered = true)
    (hst : (σ.sock w.other).Live) (now : Int) {stale later out : List Sent}
    (hwire : σ.wire = stale ++ (out ++ later))
    (hout : ∀ p ∈ out, cfg.From w p ∧ p.seg.type = .DATA ∧
      p.seg.seqNum < (σ.sock w.other).rcvNxt) :
    let τ := run (step cfg) σ (List.replicate out.length (.deliver stale.length now))
    τ.ends cfg = σ.ends cfg ∧ ∃ acks, acks.length = out.length ∧
      τ.wire = stale ++ (later ++ acks) ∧
      ∀ q ∈ acks, cfg.From w.other q ∧ q.seg.type = .ACK ∧
        q.seg.seqNum = (σ.sock w.other).rcvNxt := by
  induction out generalizing σ later with
  | nil => exact ⟨rfl, [], rfl, by simpa using hwire, fun q hq => by cases hq⟩
  | cons p out ih =>
      obtain ⟨hfrom, hty, hlt⟩ := hout p List.mem_cons_self
      have hfrom' : cfg.From w.other.other p := by
        rw [Party.other_other]
        exact hfrom
      obtain ⟨q, hq, hperforms⟩ := Side.performs_answer (hok.side w.other) now hfrom' hty
        (hok.lookup hreg hfrom') hst hlt.ne
      rw [List.cons_append] at hwire
      obtain ⟨hends, hwire₁⟩ := deliver_performs hwire hfrom' hperforms
      have hends₁ : (σ.step cfg (.deliver stale.length now)).ends cfg = σ.ends cfg :=
        hends.trans (Function.update_eq_self _ _)
      rw [List.append_assoc] at hwire₁
      have hsock : (σ.step cfg (.deliver stale.length now)).sock w.other = σ.sock w.other :=
        congrArg (fun x : Party → End => (x w.other).sock) hends₁
      obtain ⟨hends₂, acks, hlen, hwire₂, hacks⟩ := ih (hok.step _)
        (by rw [hends₁]; exact hreg) (by rw [hsock]; exact hst) hwire₁
        (by rw [hsock]; exact fun p' hp' => hout p' (List.mem_cons_of_mem _ hp'))
      rw [hsock] at hacks
      refine ⟨hends₂.trans hends₁, q :: acks, congrArg Nat.succ hlen, ?_, ?_⟩
      · rw [List.append_assoc] at hwire₂
        exact hwire₂
      · intro q' hq'
        obtain rfl | hq' := List.mem_cons.mp hq'
        · exact ⟨hq.from, hq.type, hq.seqNum⟩
        · exact hacks q' hq'

/-- Segments that come next are taken in one by one, if there is room for all of them. -/
theorem deliver_new (hok : σ.Ok cfg) (hreg : (σ.ends cfg w.other).registered = true)
    (hst : (σ.sock w.other).Live) (now : Int) {b : Int} {stale later out : List Sent}
    (hwire : σ.wire = stale ++ (out ++ later))
    (hout : ∀ p ∈ out, cfg.From w p ∧ p.seg.type = .DATA)
    (htiles : SpanTiles (σ.sock w.other).rcvNxt (out.map fun p => p.seg.span) b)
    (hroom : b - (σ.sock w.other).rcvNxt ≤ (σ.sock w.other).getRecvBufAvailable) :
    let τ := run (step cfg) σ (List.replicate out.length (.deliver stale.length now))
    ∃ (s : TcpSocket) (acks : List Sent),
      τ.ends cfg = Function.update (σ.ends cfg) w.other { σ.ends cfg w.other with sock := s } ∧
      (s.rcvNxt = b ∧ s.state = (σ.sock w.other).state) ∧
      acks.length = out.length ∧ τ.wire = stale ++ (later ++ acks) ∧
      (∀ q ∈ acks, cfg.From w.other q ∧ q.seg.type = .ACK ∧ q.seg.seqNum ≤ b) ∧
      (out ≠ [] → ∃ q ∈ acks, q.seg.seqNum = b) := by
  induction out generalizing σ later with
  | nil =>
      refine ⟨σ.sock w.other, [], (Function.update_eq_self _ _).symm, ⟨htiles, rfl⟩, rfl, ?_,
        fun _ hq => absurd hq List.not_mem_nil, fun hne => absurd rfl hne⟩
      rw [List.append_nil]
      exact hwire
  | cons p out ih =>
      obtain ⟨hfrom, hty⟩ := hout p List.mem_cons_self
      have hfrom' : cfg.From w.other.other p := by
        rw [Party.other_other]
        exact hfrom
      obtain ⟨hstart, hpos, hrest⟩ := htiles
      have hseq : p.seg.seqNum = (σ.sock w.other).rcvNxt := hstart
      have hstop : p.seg.span.stop = (σ.sock w.other).rcvNxt + p.seg.payload.length := by
        rw [← hseq]
        rfl
      have hne : p.seg.payload ≠ [] := by
        intro hnil
        rw [hstop, hstart, hnil] at hpos
        simp at hpos
      have hle : p.seg.span.stop ≤ b := hrest.le
      have hfits : (p.seg.payload.length : Int) ≤ (σ.sock w.other).getRecvBufAvailable := by omega
      obtain ⟨q, hq, hperforms⟩ := Side.performs_data (hok.side w.other) now hfrom' hty
        (hok.lookup hreg hfrom') hst hseq hne hfits
      rw [List.cons_append] at hwire
      obtain ⟨hends, hwire₁⟩ := deliver_performs hwire hfrom' hperforms
      rw [List.append_assoc] at hwire₁
      obtain ⟨hself, -⟩ := ends_of_update hends
      have hsock : (σ.step cfg (.deliver stale.length now)).sock w.other =
          stored (σ.sock w.other) p.seg.payload := congrArg End.sock hself
      have hacked : q.seg.seqNum = p.seg.span.stop := by
        rw [hq.seqNum, hstop]
        rfl
      obtain ⟨s, acks, hends₂, ⟨hrcv, hstate⟩, hlen, hwire₂, hacks, hlast⟩ := ih (hok.step _)
        (by rw [hself]; exact hreg) (by rw [hsock]; exact hst) hwire₁
        (fun p' hp' => hout p' (List.mem_cons_of_mem _ hp'))
        (by rw [hsock, show (stored (σ.sock w.other) p.seg.payload).rcvNxt = _ from hstop.symm]
            exact hrest)
        (by
          rw [hsock]
          show b - ((σ.sock w.other).rcvNxt + p.seg.payload.length) ≤
            TcpSocket.RECV_BUF_CAP - ((σ.sock w.other).recvBufUsed + p.seg.payload.length)
          unfold TcpSocket.getRecvBufAvailable at hroom
          omega)
      refine ⟨s, q :: acks, ?_, ⟨hrcv, ?_⟩, congrArg Nat.succ hlen, ?_, ?_, ?_⟩
      · refine hends₂.trans ?_
        rw [hself, hends, Function.update_idem]
        rfl
      · rw [hstate, hsock]
        rfl
      · rw [List.append_assoc] at hwire₂
        exact hwire₂
      · intro q' hq'
        obtain rfl | hq' := List.mem_cons.mp hq'
        · exact ⟨hq.from, hq.type, hacked.trans_le hle⟩
        · exact hacks q' hq'
      · intro _
        by_cases hnil : out = []
        · subst hnil
          exact ⟨q, List.mem_cons_self, hacked.trans hrest⟩
        · obtain ⟨q', hq', heq⟩ := hlast hnil
          exact ⟨q', List.mem_cons_of_mem _ hq', heq⟩

/-! ### The sender -/

/-- Acknowledgements arrive one by one. -/
theorem deliver_acks (hok : σ.Ok cfg) (hreg : (σ.ends cfg w).registered = true)
    (hpend : (σ.ends cfg w).pending = false) (hst : (σ.sock w).state = .ESTABLISHED) (now : Int)
    {stale acks : List Sent} (hwire : σ.wire = stale ++ acks)
    (hacks : ∀ q ∈ acks, cfg.From w.other q ∧ q.seg.type = .ACK ∧
      q.seg.seqNum ≤ (σ.sock w).sndNxt) :
    let τ := run (step cfg) σ (List.replicate acks.length (.deliver stale.length now))
    ∃ s : TcpSocket,
      τ.ends cfg = Function.update (σ.ends cfg) w { σ.ends cfg w with sock := s } ∧
      τ.wire = stale ∧ s.state = .ESTABLISHED ∧ s.sndNxt = (σ.sock w).sndNxt ∧
      (σ.sock w).sndUna ≤ s.sndUna ∧ ∀ q ∈ acks, q.seg.seqNum ≤ s.sndUna := by
  induction acks generalizing σ with
  | nil =>
      rw [List.append_nil] at hwire
      exact ⟨σ.sock w, (Function.update_eq_self _ _).symm, hwire, hst, rfl, le_rfl,
        fun q hq => by cases hq⟩
  | cons q acks ih =>
      obtain ⟨hfrom, hty, hle⟩ := hacks q List.mem_cons_self
      have hperforms := Side.performs_ack (hok.side w) now hfrom hty hpend (hok.lookup hreg hfrom) hst
        hle
      obtain ⟨hends, hwire₁⟩ := deliver_performs hwire hfrom hperforms
      rw [List.append_nil] at hwire₁
      obtain ⟨hself, -⟩ := ends_of_update hends
      -- the socket has learned what the acknowledgement says
      have hlearned : ((σ.step cfg (.deliver stale.length now)).sock w).sndNxt = (σ.sock w).sndNxt ∧
          ((σ.step cfg (.deliver stale.length now)).sock w).state = .ESTABLISHED ∧
          (σ.sock w).sndUna ≤ ((σ.step cfg (.deliver stale.length now)).sock w).sndUna ∧
          q.seg.seqNum ≤ ((σ.step cfg (.deliver stale.length now)).sock w).sndUna := by
        have hsock := congrArg End.sock hself
        simp only at hsock
        change (σ.step cfg (.deliver stale.length now)).sock w = _ at hsock
        rw [hsock]
        split_ifs with hold
        · exact ⟨rfl, hst, le_rfl, hold⟩
        · have hsame := (sameConn_setRwnd (σ.sock w) q.seg.window).trans
            (sameConn_advanced _ now q.seg.seqNum)
          obtain ⟨-, huna, hnxt, -⟩ := advanced_sender ((σ.sock w).setRwnd q.seg.window) now q.seg.seqNum
          refine ⟨hnxt, hsame.state.trans hst, ?_, huna.ge⟩
          exact (not_le.mp hold).le.trans huna.ge
      obtain ⟨hnxt, hst₁, huna, hseq⟩ := hlearned
      obtain ⟨s, hends₂, hwire₂, hst₂, hnxt₂, huna₂, hacks₂⟩ := ih (hok.step _)
        (by rw [hself]; exact hreg) (by rw [hself]; exact hpend) hst₁ hwire₁
        (by rw [hnxt]; exact fun q' hq' => hacks q' (List.mem_cons_of_mem _ hq'))
      refine ⟨s, ?_, hwire₂, hst₂, hnxt₂.trans hnxt, huna.trans huna₂, ?_⟩
      · refine hends₂.trans ?_
        rw [hself, hends, Function.update_idem]
        rfl
      · intro q' hq'
        obtain rfl | hq' := List.mem_cons.mp hq'
        · exact hseq.trans huna₂
        · exact hacks₂ q' hq'

/-! ### One round -/

theorem ok_after (h : σ.Ok cfg) (es : List Event) : (run (step cfg) σ es).Ok cfg :=
  run_induction (I := Ok cfg) (fun _ e h => h.step e) h es

/-- The queue of the sender is delivered in order, and then the answers to it. -/
theorem deliver_queue (hok : σ.Ok cfg) (hreg : (σ.ends cfg w).registered = true)
    (hreg' : (σ.ends cfg w.other).registered = true) (hst : (σ.sock w).state = .ESTABLISHED)
    (hlive : (σ.sock w.other).Live) (now : Int) {stale out : List Sent} {old new : List Span}
    (hwire : σ.wire = stale ++ out) (hout : ∀ p ∈ out, cfg.From w p ∧ p.seg.type = .DATA)
    (hspans : out.map (fun p => p.seg.span) = old ++ new)
    (hold : ∀ a ∈ old, a.start < (σ.sock w.other).rcvNxt)
    (hnew : SpanTiles (σ.sock w.other).rcvNxt new (σ.sock w).sndNxt)
    (hroom : (σ.sock w).sndNxt - (σ.sock w.other).rcvNxt ≤ (σ.sock w.other).getRecvBufAvailable)
    (hempty : out = [] → (σ.sock w).sndUna = (σ.sock w).sndNxt) :
    let τ := run (step cfg) σ (List.replicate (2 * out.length) (.deliver stale.length now))
    τ.wire = stale ∧ (τ.sock w).state = .ESTABLISHED ∧ (τ.sock w).sndUna = (τ.sock w).sndNxt ∧
      (τ.sock w.other).rcvNxt = (τ.sock w).sndNxt ∧ (τ.sock w.other).Live ∧
      (τ.ends cfg w.other).held = (σ.ends cfg w.other).held ∧
      (τ.side w).written = (σ.side w).written := by
  obtain ⟨out₁, out₂, rfl, hout₁, hout₂⟩ := List.map_eq_append_iff.mp hspans
  have hpend := ((hok.ends w).started (.inl hst)).pending
  -- what the receiver has already
  have hpast : ∀ p ∈ out₁, cfg.From w p ∧ p.seg.type = .DATA ∧
      p.seg.seqNum < (σ.sock w.other).rcvNxt := by
    intro p hp
    obtain ⟨hfrom, hty⟩ := hout p (List.mem_append_left _ hp)
    refine ⟨hfrom, hty, hold p.seg.span ?_⟩
    rw [← hout₁]
    exact List.mem_map_of_mem hp
  obtain ⟨hends₁, acks₁, hlen₁, hwire₁, hacks₁⟩ := deliver_old hok hreg' hlive now hwire hpast
  have hok₁ := ok_after hok (List.replicate out₁.length (.deliver stale.length now))
  set σ₁ := run (step cfg) σ (List.replicate out₁.length (.deliver stale.length now))
  have hsock₁ : ∀ v, σ₁.sock v = σ.sock v := fun v => congrArg (fun x : Party → End => (x v).sock) hends₁
  -- what it waits for
  obtain ⟨s', acks₂, hends₂, ⟨hrcv, hstate⟩, hlen₂, hwire₂, hacks₂, hlast⟩ := deliver_new (w := w)
    (b := (σ.sock w).sndNxt) hok₁ (by rw [hends₁]; exact hreg') (by rw [hsock₁]; exact hlive) now hwire₁
    (fun p hp => hout p (List.mem_append_right _ hp)) (by rw [hsock₁, hout₂]; exact hnew)
    (by rw [hsock₁]; exact hroom)
  have hok₂ := ok_after hok₁ (List.replicate out₂.length (.deliver stale.length now))
  set σ₂ := run (step cfg) σ₁ (List.replicate out₂.length (.deliver stale.length now))
  rw [hends₁] at hends₂
  obtain ⟨hother₂, hsender₂⟩ := ends_of_update hends₂
  rw [Party.other_other] at hsender₂
  have hsock₂ : σ₂.sock w = σ.sock w := congrArg End.sock hsender₂
  -- the answers
  have hacks : ∀ q ∈ acks₁ ++ acks₂, cfg.From w.other q ∧ q.seg.type = .ACK ∧
      q.seg.seqNum ≤ (σ₂.sock w).sndNxt := by
    rw [hsock₂]
    intro q hq
    obtain hq | hq := List.mem_append.mp hq
    · obtain ⟨hfrom, hty, hseq⟩ := hacks₁ q hq
      exact ⟨hfrom, hty, hseq.trans_le hnew.le⟩
    · exact hacks₂ q hq
  obtain ⟨s, hends₃, hwire₃, hst₃, hnxt₃, huna₃, hlearned⟩ := deliver_acks (w := w) hok₂
    (by rw [hsender₂]; exact hreg) (by rw [hsender₂]; exact hpend) (by rw [hsock₂]; exact hst) now
    hwire₂ hacks
  have hok₃ := ok_after hok₂ (List.replicate (acks₁ ++ acks₂).length (.deliver stale.length now))
  have hsplit : List.replicate (2 * (out₁ ++ out₂).length) (Event.deliver stale.length now) =
      (List.replicate out₁.length (.deliver stale.length now) ++
        List.replicate out₂.length (.deliver stale.length now)) ++
      List.replicate (acks₁ ++ acks₂).length (.deliver stale.length now) := by
    rw [← List.replicate_add, ← List.replicate_add]
    congr 1
    simp only [List.length_append]
    omega
  intro τ
  have hτ : τ = run (step cfg) σ₂
      (List.replicate (acks₁ ++ acks₂).length (.deliver stale.length now)) := by
    show run _ _ _ = _
    rw [hsplit, run_append, run_append]
  rw [← hτ] at hends₃ hwire₃ hok₃
  obtain ⟨hself₃, hother₃⟩ := ends_of_update hends₃
  have hsock₃ : τ.sock w = s := congrArg End.sock hself₃
  have hrcv₃ : τ.sock w.other = s' := by
    have hsame : τ.sock w.other = σ₂.sock w.other := congrArg End.sock hother₃
    exact hsame.trans (congrArg End.sock hother₂)
  have hle := (hok₃.ends w).sender.sndUna_le
  have hle : (τ.sock w).sndUna ≤ (τ.sock w).sndNxt := hle
  rw [hsock₃] at hle
  rw [hsock₂] at hnxt₃ huna₃
  refine ⟨hwire₃, ?_, ?_, ?_, ?_, ?_, ?_⟩
  · rw [hsock₃]
    exact hst₃
  · rw [hsock₃]
    refine le_antisymm hle ?_
    rw [hnxt₃]
    -- the last answer acknowledges everything
    by_cases hnil₂ : out₂ = []
    · rw [← hout₂, hnil₂] at hnew
      have hall : (σ.sock w.other).rcvNxt = (σ.sock w).sndNxt := hnew
      by_cases hnil₁ : out₁ = []
      · rw [← hempty (by rw [hnil₁, hnil₂]; rfl)]
        exact huna₃
      · obtain ⟨q, hq⟩ := List.exists_mem_of_length_pos
          (hlen₁ ▸ List.length_pos_iff.mpr hnil₁ : 0 < acks₁.length)
        rw [← hall, ← (hacks₁ q hq).2.2]
        exact hlearned q (List.mem_append_left _ hq)
    · obtain ⟨q, hq, hseq⟩ := hlast hnil₂
      rw [← hseq]
      exact hlearned q (List.mem_append_right _ hq)
  · rw [hrcv₃, hsock₃, hrcv, hnxt₃]
  · rw [hrcv₃]
    unfold TcpSocket.Live at hlive ⊢
    rw [hstate, hsock₁]
    exact hlive
  · rw [hother₃, hother₂]
  · have hwritten : (τ.ends cfg w).written = (σ.ends cfg w).written := by
      rw [hself₃, hsender₂]
    exact hwritten

theorem acked_le_rcvNxt (cfg : Config) (es : List Event) {w : Party}
    (hlive : ((run (step cfg) (init cfg) es).sock w.other).Live) :
    ((run (step cfg) (init cfg) es).sock w).sndUna ≤
      ((run (step cfg) (init cfg) es).sock w.other).rcvNxt := by
  obtain ⟨c, hlink⟩ := link_run cfg w es
  have hstored := (Channel.good_of_reachable hlink.reachable).acked
  rw [hlink.stored] at hstored
  have hrcv := (((ok_run cfg es).ends w.other).started hlive).rcvNxt
  refine hlink.acked.trans ?_
  show 1 + (c.acked : Int) ≤ ((run (step cfg) (init cfg) es).ends cfg w.other).sock.rcvNxt
  omega

/-- The timer of `w` fires, and what it sends is delivered in order, and then the answers. -/
def repair (σ : Sys) (w : Party) (now : Int) : List Event :=
  .tick w now :: List.replicate (2 * (σ.sock w).outstanding.length) (.deliver σ.wire.length now)

/-- What a tick does to the other end and to the fields of the socket that are of interest here. -/
theorem expired_frame (now : Int) (s : TcpSocket) :
    (expired now s).sndNxt = s.sndNxt ∧ (expired now s).sndUna = s.sndUna ∧
      (expired now s).state = s.state := by
  unfold expired
  split_ifs <;> exact ⟨rfl, rfl, rfl⟩

/-- The round repairs the direction from `w` to the other side, if the receiver has room. -/
theorem repair_spec (cfg : Config) (es : List Event) {w : Party} (now : Int)
    (hst : ((run (step cfg) (init cfg) es).sock w).state = .ESTABLISHED)
    (hlive : ((run (step cfg) (init cfg) es).sock w.other).Live)
    (htimer : ((run (step cfg) (init cfg) es).sock w).outstanding ≠ [] →
      Due now ((run (step cfg) (init cfg) es).sock w))
    (hroom : ((run (step cfg) (init cfg) es).sock w).sndNxt -
        ((run (step cfg) (init cfg) es).sock w.other).rcvNxt ≤
      ((run (step cfg) (init cfg) es).sock w.other).getRecvBufAvailable) :
    let σ := run (step cfg) (init cfg) es
    let τ := run (step cfg) σ (σ.repair w now)
    τ.wire = σ.wire ∧ (τ.sock w).state = .ESTABLISHED ∧ (τ.sock w).sndUna = (τ.sock w).sndNxt ∧
      (τ.sock w.other).rcvNxt = (τ.sock w).sndNxt ∧ (τ.sock w.other).Live ∧
      (τ.ends cfg w.other).held = (σ.ends cfg w.other).held ∧
      (τ.side w).written = (σ.side w).written := by
  intro σ τ
  have hok : σ.Ok cfg := ok_run cfg es
  have hreg : (σ.ends cfg w).registered = true := entered_run cfg w es (.inl hst)
  have hreg' : (σ.ends cfg w.other).registered = true := entered_run cfg w.other es hlive
  have hs := (hok.ends w).started (.inl hst)
  have hs' := (hok.ends w.other).started hlive
  obtain ⟨spans, haligned⟩ := aligned_run cfg w es
  have hrcv : (σ.sock w.other).rcvNxt = 1 + (σ.ends cfg w.other).received.length := hs'.rcvNxt
  have hknown : (σ.sock w).sndUna ≤ (σ.sock w.other).rcvNxt := acked_le_rcvNxt cfg es hlive
  obtain ⟨old, new, hqueue, hold, hnew⟩ := haligned.queue_cut (hok.ends w) hs (hrcv ▸ hknown)
  -- the tick sends the queue
  obtain ⟨out, hspans, hout, hperforms⟩ := Side.performs_tick (hok.side w) now hreg
    (by show (σ.sock w).state ≠ .CLOSED; rw [hst]; decide)
  obtain ⟨hnxt, huna, hstate⟩ := expired_frame now (σ.sock w)
  have hspans : out.map (fun p => p.seg.span) = (σ.sock w).outstanding.map OutstandingSeg.span := by
    refine hspans.trans ?_
    by_cases hnil : (σ.sock w).outstanding = []
    · rw [if_neg fun hdue => hdue.1 hnil, hnil]
      rfl
    · exact if_pos (htimer hnil)
  have hlength : out.length = (σ.sock w).outstanding.length := by
    rw [← List.length_map, hspans, List.length_map]
  obtain ⟨hends, hwire⟩ := act_performs (σ := σ) hperforms
  change (σ.step cfg (.tick w now)).ends cfg = _ at hends
  change (σ.step cfg (.tick w now)).wire = _ at hwire
  obtain ⟨hself, hother⟩ := ends_of_update hends
  have hsock : (σ.step cfg (.tick w now)).sock w = expired now (σ.sock w) := congrArg End.sock hself
  have hsock' : (σ.step cfg (.tick w now)).sock w.other = σ.sock w.other := congrArg End.sock hother
  have hround := deliver_queue (w := w) (hok.step (.tick w now)) (by rw [hself]; exact hreg)
    (by rw [hother]; exact hreg') (by rw [hsock, hstate]; exact hst) (by rw [hsock']; exact hlive) now
    hwire hout (hspans.trans hqueue) (by rw [hsock', hrcv]; exact hold)
    (by rw [hsock', hsock, hnxt, hrcv]; exact hnew) (by rw [hsock', hsock, hnxt]; exact hroom) ?_
  · rw [hlength] at hround
    obtain ⟨hwire', hst', hdone, hall, hlive', hheld, hwritten⟩ := hround
    refine ⟨hwire', hst', hdone, hall, hlive', ?_, ?_⟩
    · rw [hother] at hheld
      exact hheld
    · refine hwritten.trans ?_
      exact congrArg End.written hself
  · intro hnil
    rw [hsock, hnxt, huna]
    refine (hok.ends w).sender.empty_iff.mp (List.eq_nil_of_length_eq_zero ?_)
    show (σ.sock w).outstanding.length = 0
    rw [← hlength, hnil]
    rfl

/-! ### The application of the receiver -/

/-- The application of a side takes all that has come. -/
abbrev readAll (w : Party) : Event := .read w w.conn true 0 TcpSocket.RECV_BUF_CAP

theorem step_readAll (hok : σ.Ok cfg) (hheld : w.conn ∈ (σ.side w).handles) (hst : (σ.sock w).Live)
    (hpeer : (σ.sock w).peerFinReceived = false) :
    (σ.step cfg (readAll w)).wire = σ.wire ∧
      (σ.step cfg (readAll w)).ends cfg = Function.update (σ.ends cfg) w
        { σ.ends cfg w with
          sock := (σ.sock w).taken (σ.sock w).recvBufUsed
          readOut := σ.received w } := by
  have hperforms := Side.performs_read_all (hok.side w) hheld hst hpeer (hok.ends w).used
    (hok.ends w).cap
  obtain ⟨hends, hwire⟩ := act_performs (σ := σ) hperforms
  have hop : σ.opOf cfg (readAll w) = some (w, .read w.conn true 0 TcpSocket.RECV_BUF_CAP) :=
    if_pos hheld
  rw [step_of_opOf cfg hop]
  exact ⟨hwire.trans (List.append_nil _), hends⟩

theorem no_fin_from (cfg : Config) (es : List Event) {w : Party}
    (hst : ((run (step cfg) (init cfg) es).sock w).state = .ESTABLISHED) :
    ((run (step cfg) (init cfg) es).sock w.other).peerFinReceived = false := by
  obtain ⟨c, hlink⟩ := link_run cfg w es
  by_contra hpeer
  have hfin := hlink.peer (Bool.not_eq_false _ ▸ hpeer)
  exact absurd (((ok_run cfg es).ends w).finSeq_neg hst) (not_lt.mpr hfin)

/-- The receiver reads, one round repairs what is lost, and the receiver reads again. -/
def finish (σ : Sys) (w : Party) (now : Int) : List Event :=
  readAll w.other :: σ.repair w now ++ [readAll w.other]

/-- **A timeout repairs what has been lost.**  Take any state that a connection reaches, in which `w` is
connected and the application of the other side holds its socket; segments may have been lost, doubled
(except for the SYN) and reordered in any way, and anything may still be on its way.  If the receiver
reads what has come, the timer of `w` runs out, what it sends is delivered in order, and so are the
answers, then the receiver can read the whole stream, and nothing is outstanding.  So no state is a dead
end for what has been written. -/
theorem losses_repaired (cfg : Config) (es : List Event) (w : Party) (now : Int)
    (hst : ((run (step cfg) (init cfg) es).sock w).state = .ESTABLISHED)
    (hlive : ((run (step cfg) (init cfg) es).sock w.other).Live)
    (hheld : w.other.conn ∈ ((run (step cfg) (init cfg) es).side w.other).handles)
    (htimer : ((run (step cfg) (init cfg) es).sock w).outstanding ≠ [] →
      Due now ((run (step cfg) (init cfg) es).sock w)) :
    let σ := run (step cfg) (init cfg) es
    let τ := run (step cfg) σ (σ.finish w now)
    (τ.side w.other).readOut = (σ.side w).written ∧ (τ.side w).written = (σ.side w).written ∧
      (τ.sock w).outstanding = [] ∧ τ.wire = σ.wire := by
  intro σ τ
  -- the buffer is emptied
  obtain ⟨hwire₁, hends₁⟩ := step_readAll (ok_run cfg es) hheld hlive (no_fin_from cfg es hst)
  obtain ⟨hother₁, hself₁⟩ := ends_of_update hends₁
  rw [Party.other_other] at hself₁
  have hrun₁ : run (step cfg) (init cfg) (es ++ [readAll w.other]) = σ.step cfg (readAll w.other) := by
    rw [run_append]
    rfl
  set σ₁ := σ.step cfg (readAll w.other) with hσ₁
  have hsock₁ : σ₁.sock w = σ.sock w := congrArg End.sock hself₁
  have hsock₁' : σ₁.sock w.other = (σ.sock w.other).taken (σ.sock w.other).recvBufUsed :=
    congrArg End.sock hother₁
  have hrepair : σ.repair w now = σ₁.repair w now := by
    rw [repair, repair, hsock₁, hwire₁]
  -- so there is room for everything that is outstanding
  have hroom : (σ₁.sock w).sndNxt - (σ₁.sock w.other).rcvNxt ≤
      (σ₁.sock w.other).getRecvBufAvailable := by
    have hflight : (σ.sock w).sndNxt - (σ.sock w).sndUna ≤ TcpSocket.RECV_BUF_CAP :=
      (capped_run cfg w es).flight
    have hknown : (σ.sock w).sndUna ≤ (σ.sock w.other).rcvNxt := acked_le_rcvNxt cfg es hlive
    rw [hsock₁, hsock₁']
    show (σ.sock w).sndNxt - (σ.sock w.other).rcvNxt ≤
      TcpSocket.RECV_BUF_CAP - ((σ.sock w.other).recvBufUsed - (σ.sock w.other).recvBufUsed)
    omega
  have hround := repair_spec cfg (es ++ [readAll w.other]) (w := w) now
    (by rw [hrun₁, hsock₁]; exact hst) (by rw [hrun₁, hsock₁']; exact hlive)
    (by rw [hrun₁, hsock₁]; exact htimer) (by rw [hrun₁]; exact hroom)
  rw [hrun₁] at hround
  obtain ⟨hwire₂, hst₂, hdone, hall, hlive₂, hheld₂, hwritten₂⟩ := hround
  have hrun₂ : run (step cfg) (init cfg) (es ++ [readAll w.other] ++ σ₁.repair w now) =
      run (step cfg) σ₁ (σ₁.repair w now) := by
    rw [run_append, hrun₁]
  set σ₂ := run (step cfg) σ₁ (σ₁.repair w now) with hσ₂
  -- what has arrived is read
  have hok₂ : σ₂.Ok cfg := by
    rw [← hrun₂]
    exact ok_run cfg _
  have hheld₂ : w.other.conn ∈ (σ₂.side w.other).handles := by
    rw [hother₁] at hheld₂
    exact of_decide_eq_true (hheld₂.trans (decide_eq_true hheld))
  obtain ⟨hwire₃, hends₃⟩ := step_readAll hok₂ hheld₂ hlive₂
    (by rw [← hrun₂] at hst₂ ⊢; exact no_fin_from cfg _ hst₂)
  obtain ⟨hother₃, hself₃⟩ := ends_of_update hends₃
  rw [Party.other_other] at hself₃
  have hτ : τ = σ₂.step cfg (readAll w.other) := by
    show run (step cfg) σ (readAll w.other :: σ.repair w now ++ [readAll w.other]) = _
    rw [hrepair, List.cons_append, run_cons, run_append]
    rfl
  rw [hτ]
  have hwritten : (σ₂.side w).written = (σ.side w).written :=
    hwritten₂.trans (congrArg End.written hself₁)
  refine ⟨?_, ?_, ?_, ?_⟩
  · refine (congrArg End.readOut hother₃).trans ?_
    show σ₂.received w.other = _
    rw [← hwritten]
    -- the receiver has as many bytes as have been written
    obtain ⟨c, hlink⟩ := link_run cfg w (es ++ [readAll w.other] ++ σ₁.repair w now)
    rw [hrun₂] at hlink
    have hprefix := (Channel.good_of_reachable hlink.reachable).stored
    rw [hlink.stored, hlink.written] at hprefix
    refine hprefix.eq_of_length ?_
    have hsnd := ((hok₂.ends w).started (.inl hst₂)).sndNxt
    have hrcv := ((hok₂.ends w.other).started hlive₂).rcvNxt
    have hall : (σ₂.ends cfg w.other).sock.rcvNxt = (σ₂.ends cfg w).sock.sndNxt := hall
    omega
  · exact (congrArg End.written hself₃).trans hwritten
  · have hsame : (σ₂.step cfg (readAll w.other)).sock w = σ₂.sock w := congrArg End.sock hself₃
    rw [hsame]
    exact (hok₂.ends w).sender.empty_iff.mpr hdone
  · exact hwire₃.trans (hwire₂.trans hwire₁)

/-- The first of two segments is lost, the second one comes too early, and its answer is lost. -/
def lostSegment : List Event :=
  [.deliver 0 0, .deliver 0 0, .accept .server 0, .write .client 10 0 (some [7, 8, 9]) 0 3,
    .write .client 11 0 (some [4, 5]) 0 2, .drop 0, .deliver 0 20, .drop 0]

theorem losses_repaired_lost_segment :
    let σ := run (step exampleConfig) (init exampleConfig) lostSegment
    let τ := run (step exampleConfig) σ (σ.finish .client 5000)
    ((σ.sock .client).outstanding.length = 2 ∧ (σ.sock .server).recvBuf = []) ∧
      (σ.side .client).written = [7, 8, 9, 4, 5] ∧
      (τ.side (Party.other .client)).readOut = (σ.side .client).written ∧
      (τ.side .client).written = (σ.side .client).written ∧
      (τ.sock .client).outstanding = [] ∧ τ.wire = σ.wire :=
  ⟨by decide, by decide, losses_repaired exampleConfig lostSegment .client 5000 (by decide)
    (.inl (by decide)) (by decide) fun _ => ⟨by decide, by decide, by decide⟩⟩

end Sys

end NetBridge
