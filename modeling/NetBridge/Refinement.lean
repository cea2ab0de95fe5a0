import NetBridge.Endpoint

/-! # Every operation of a side is an act

The call and segment lemmas of `TcpSpec.lean`, read at the sockets of one side of the system: each
operation that an event can perform keeps `SideOk` and is an `Act` on the end of the connection. -/

namespace NetBridge

open TcpManager (written stored advanced finQueued windowRoom)

/-! ### Calls -/

namespace Side

variable (cfg : Config) (w : Party) (d : Side)

/-- The operation takes the end of the connection to `x` and sends `out`. -/
structure Performs (op : Op) (x : End) (out : List Sent) : Prop where
  shape : (d.perform op).man.Shape cfg w (d.perform op).handles
  view : (d.perform op).view cfg w = x
  out : d.emitted op = out

/-- The operation is an act on the end of the connection. -/
def Acts (op : Op) : Prop :=
  (d.perform op).man.Shape cfg w (d.perform op).handles ∧
    Act cfg w (d.view cfg w) op ((d.perform op).view cfg w) (d.emitted op)

variable {cfg w d}

theorem Performs.acts {op : Op} {x : End} {out : List Sent} (h : d.Performs cfg w op x out)
    (hact : Act cfg w (d.view cfg w) op x out) : d.Acts cfg w op := by
  refine ⟨h.shape, ?_⟩
  rw [h.view, h.out]
  exact hact

theorem emitted_eq {op : Op} {m : TcpManager} {out : List Sent} (hstep : d.man.step op = m.emit out)
    (hsent : m.sent = d.man.sent) : d.emitted op = out := by
  rw [emitted, hstep, TcpManager.emit_sent, hsent, List.drop_left]

theorem view_perform {op : Op} {x : End} (hsock : (d.man.step op).sock w.conn = x.sock)
    (hpend : ((d.man.step op).synPendingByKey.lookup (cfg.key w)).isSome = x.pending)
    (hreg : ((d.man.step op).establishedByKey.lookup (cfg.key w)).isSome = x.registered)
    (hheld : decide (w.conn ∈ d.nextHandles op) = x.held) (hw : d.nextWritten op = x.written)
    (hr : d.nextReadOut op = x.readOut) : (d.perform op).view cfg w = x := by
  cases x
  simp only [view, perform, End.mk.injEq]
  exact ⟨hsock, hpend, hreg, hheld, hw, hr⟩

theorem acts_idle (h : SideOk cfg w d) {op : Op} (hstep : d.man.step op = d.man)
    (hh : d.nextHandles op = d.handles) (hw : d.nextWritten op = d.written)
    (hr : d.nextReadOut op = d.readOut) : d.Acts cfg w op := by
  have hperform : d.perform op = d := by rw [perform, hstep, hh, hw, hr]
  have hout : d.emitted op = [] := by rw [emitted, hstep, List.drop_length]
  constructor
  · rw [hperform]
    exact h.shape
  · rw [hperform, hout]
    exact .idle

/-- The socket of the connection changes, segments are sent, no table changes. -/
theorem performs_update (h : SideOk cfg w d) {op : Op} {x : End} {out : List Sent}
    (hlt : w.conn < d.man.allSockets.length)
    (hstep : d.man.step op = (d.man.setSock w.conn x.sock).emit out)
    (hh : d.nextHandles op = d.handles) (hw : d.nextWritten op = x.written)
    (hr : d.nextReadOut op = x.readOut) (hst : x.sock.state ≠ .LISTEN)
    (hkey : x.sock.state ≠ .CLOSED → x.sock.key = cfg.key w)
    (hq : x.sock.pendingConnQueue = (d.man.sock w.conn).pendingConnQueue)
    (hx : x.pending = (d.view cfg w).pending ∧ x.registered = (d.view cfg w).registered ∧
      x.held = (d.view cfg w).held) : d.Performs cfg w op x out := by
  refine ⟨?_, ?_, emitted_eq hstep rfl⟩
  · show (d.man.step op).Shape cfg w (d.nextHandles op)
    rw [hstep, hh]
    exact (h.shape.setConn hst hkey hq).emit out
  · refine view_perform ?_ ?_ ?_ ?_ hw hr
    · rw [hstep]
      exact d.man.sock_setSock_self hlt x.sock
    · rw [hstep]
      exact hx.1.symm
    · rw [hstep]
      exact hx.2.1.symm
    · rw [hh]
      exact hx.2.2.symm

theorem acts_update (h : SideOk cfg w d) {op : Op} {x : End} {out : List Sent}
    (hact : Act cfg w (d.view cfg w) op x out) (hlt : w.conn < d.man.allSockets.length)
    (hstep : d.man.step op = (d.man.setSock w.conn x.sock).emit out)
    (hh : d.nextHandles op = d.handles) (hw : d.nextWritten op = x.written)
    (hr : d.nextReadOut op = x.readOut) (hst : x.sock.state ≠ .LISTEN)
    (hkey : x.sock.state ≠ .CLOSED → x.sock.key = cfg.key w)
    (hq : x.sock.pendingConnQueue = (d.man.sock w.conn).pendingConnQueue)
    (hx : x.pending = (d.view cfg w).pending ∧ x.registered = (d.view cfg w).registered ∧
      x.held = (d.view cfg w).held) : d.Acts cfg w op :=
  (performs_update h hlt hstep hh hw hr hst hkey hq hx).acts hact

theorem step_eq_exec (h : SideOk cfg w d) (op : Op) (hop : ∀ i, op.target = some i → i ∈ d.handles) :
    d.man.step op = d.man.exec op :=
  d.man.step_of_valid fun i hi => h.shape.held i (hop i hi)

theorem view_held (hi : w.conn ∈ d.handles) : (d.view cfg w).held = true := decide_eq_true hi

theorem performs_write (h : SideOk cfg w d) (now : Int) (hi : w.conn ∈ d.handles) {buf : Buf}
    {pos len : Int} (hst : (d.man.sock w.conn).state = .ESTABLISHED) (hbuf : buf ≠ none)
    (hpos : 0 ≤ pos) (hlen : 0 ≤ len) :
    ∃ out,
      List.Forall₂ (fun p seg => cfg.Sends w p .DATA 0 seg.seqStart seg.data) out
        (chunks now buf (d.man.sock w.conn).sndNxt pos (windowRoom (d.man.sock w.conn) len)) ∧
      d.Performs cfg w (.write now w.conn buf pos len)
        { d.view cfg w with
          sock := TcpManager.written (d.man.sock w.conn) now buf pos
            (windowRoom (d.man.sock w.conn) len)
          written := d.written ++ buf.slice pos (windowRoom (d.man.sock w.conn) len) } out := by
  have hexec := step_eq_exec h (.write now w.conn buf pos len) fun j hj => by cases hj; exact hi
  have hne : (d.man.sock w.conn).state ≠ .CLOSED := by
    rw [hst]
    decide
  obtain ⟨out, hout, hwrite⟩ := d.man.write_ok now (h.shape.held _ hi) hst hbuf hpos hlen
    (h.shape.sendable hne)
  refine ⟨out, hout.imp fun p seg hp => h.shape.sends (h.shape.key hne) hp, ?_⟩
  refine performs_update h (h.shape.held _ hi) ?_ rfl ?_ rfl h.shape.notListening
    (fun _ => h.shape.key hne) rfl ⟨rfl, rfl, rfl⟩
  · rw [hexec]
    simp only [TcpManager.exec, hwrite]
  · simp only [nextWritten, hwrite, Int.toNat_natCast]

theorem acts_write (h : SideOk cfg w d) (now : Int) {i : SockId} (hi : i ∈ d.handles) (buf : Buf)
    (pos len : Int) : d.Acts cfg w (.write now i buf pos len) := by
  have hexec := step_eq_exec h (.write now i buf pos len) fun j hj => by cases hj; exact hi
  by_cases hguard : (d.man.sock i).state ≠ .ESTABLISHED ∨ buf = none ∨ pos < 0 ∨ len < 0
  · have hwrite : d.man.write now i buf pos len = (d.man, -1) := if_pos hguard
    refine acts_idle h ?_ rfl ?_ rfl
    · rw [hexec]
      simp only [TcpManager.exec, hwrite]
    · simp only [nextWritten, hwrite]
      exact List.append_nil _
  · simp only [not_or, not_not, not_lt] at hguard
    obtain ⟨hst, hbuf, hpos, hlen⟩ := hguard
    obtain rfl : i = w.conn := by
      by_contra hne
      rcases h.shape.others i hne with e | e <;> rw [hst] at e <;> cases e
    obtain ⟨out, hout, hperforms⟩ := performs_write h now hi hst hbuf hpos hlen
    exact hperforms.acts (.write (view_held hi) hst hpos hout)

/-- A `read` that leaves something in the buffer of a connected socket. -/
theorem performs_read (h : SideOk cfg w d) (hi : w.conn ∈ d.handles) {pos len : Int}
    (hst : (d.man.sock w.conn).Live) (hpos : 0 ≤ pos) (hlen : 0 < len)
    (hlt : len < (d.man.sock w.conn).recvBufUsed) :
    d.Performs cfg w (.read w.conn true pos len)
      { d.view cfg w with
        sock := (d.man.sock w.conn).taken len
        readOut := d.readOut ++ (d.man.sock w.conn).recvBuf.take len.toNat } [] := by
  have hexec := step_eq_exec h (.read w.conn true pos len) fun j hj => by cases hj; exact hi
  have hstep : d.man.step (.read w.conn true pos len) =
      d.man.setSock w.conn ((d.man.sock w.conn).read true pos len).1 := hexec
  have e := (d.man.sock w.conn).read_takes hst hpos hlen hlt
  refine performs_update h (h.shape.held _ hi) ?_ rfl rfl ?_ h.shape.notListening
    (fun _ => h.shape.key hst.ne.1) rfl ⟨rfl, rfl, rfl⟩
  · rw [hstep, e, TcpManager.emit_nil]
  · simp only [nextReadOut, TcpManager.read, e]

theorem acts_read (h : SideOk cfg w d) {i : SockId} (hi : i ∈ d.handles) (buf : Bool)
    (pos len : Int) : d.Acts cfg w (.read i buf pos len) := by
  have hexec := step_eq_exec h (.read i buf pos len) fun j hj => by cases hj; exact hi
  have hstep : d.man.step (.read i buf pos len) =
      d.man.setSock i ((d.man.sock i).read buf pos len).1 := hexec
  have hconn : (d.man.sock i).Live → i = w.conn := by
    intro hlive
    by_contra hne
    obtain e | e := h.shape.others i hne
    · exact hlive.ne.2.1 e
    · exact hlive.ne.1 e
  rcases (d.man.sock i).read_effect buf pos len with
    ⟨_, _, e⟩ | ⟨hlive, hlen, hused, e⟩ | ⟨hends, hany, e⟩
  · refine acts_idle h ?_ rfl rfl ?_
    · rw [hstep, e, TcpManager.setSock_sock]
    · simp only [nextReadOut, TcpManager.read, e]
      exact List.append_nil _
  · obtain rfl := hconn hlive
    refine acts_update h (.read rfl (view_held hi) hlive hlen hused) (h.shape.held _ hi) ?_ rfl rfl
      ?_ h.shape.notListening (fun _ => h.shape.key hlive.ne.1) rfl ⟨rfl, rfl, rfl⟩
    · rw [hstep, e, TcpManager.emit_nil]
      rfl
    · simp only [nextReadOut, TcpManager.read, e]
      rfl
  · obtain rfl := hconn hends.1
    refine acts_update h (.readEnd rfl (view_held hi) hends hany) (h.shape.held _ hi) ?_ rfl rfl ?_
      (fun e => by cases e) (fun e => absurd rfl e) rfl ⟨rfl, rfl, rfl⟩
    · rw [hstep, e, TcpManager.emit_nil]
      rfl
    · simp only [nextReadOut, TcpManager.read, e]
      rfl

theorem acts_accept (h : SideOk cfg w d) {i : SockId} (hi : i ∈ d.handles) :
    d.Acts cfg w (.accept i) := by
  have hexec := step_eq_exec h (.accept i) fun j hj => by cases hj; exact hi
  have hstep : d.man.step (.accept i) = (d.man.accept i).1 := hexec
  obtain e | ⟨conn, rest, hst, hq, hcases⟩ := d.man.accept_effect i
  · refine acts_idle h ?_ ?_ rfl rfl
    · rw [hstep, e]
    · simp only [nextHandles, e]
      exact List.append_nil _
  · -- only the listener of the server has a queue, and the child is all it can hold
    obtain hnil | ⟨rfl, rfl, hone, hnot⟩ := h.shape.queue i
    · rw [hnil] at hq
      cases hq
    · rw [hone] at hq
      cases hq
      have hmem : 1 ∈ (d.man.sock 0).pendingConnQueue := by
        rw [hone]
        exact List.mem_singleton.mpr rfl
      have hlt : 1 < d.man.allSockets.length := h.steady.bounded.queued hmem
      have hdequeue := h.shape.dequeue hlt
      have hconn : (d.man.setSock 0 { d.man.sock 0 with pendingConnQueue := [] }).sock 1 =
          d.man.sock 1 := d.man.sock_setSock_ne (by decide) _
      have hfree : (d.view cfg .server).held = false := decide_eq_false hnot
      have hout : (d.man.accept 0).1.sent = d.man.sent → d.emitted (.accept 0) = [] := by
        intro hsent
        rw [emitted, hstep, hsent, List.drop_length]
      have hheld : ∀ hs : List SockId, decide (1 ∈ hs ++ [1]) = true := by simp
      obtain ⟨hcl, e⟩ | ⟨hcl, e⟩ := hcases
      · constructor
        · show (d.man.step (.accept 0)).Shape cfg .server (d.nextHandles (.accept 0))
          rw [hstep]
          simp only [nextHandles, e]
          exact hdequeue
        · have hview : (d.perform (.accept 0)).view cfg .server =
              { d.view cfg .server with held := true } := by
            refine view_perform ?_ ?_ ?_ ?_ rfl rfl
            · rw [hstep, e]
              exact hconn
            · rw [hstep, e]
              rfl
            · rw [hstep, e]
              rfl
            · simp only [nextHandles, e]
              exact hheld d.handles
          rw [hview, hout (by rw [e]; rfl)]
          exact .acceptClosed rfl hfree hcl
      · have hlive := ((h.steady.fits 1).queued 0 hmem).resolve_right hcl
        constructor
        · show (d.man.step (.accept 0)).Shape cfg .server (d.nextHandles (.accept 0))
          rw [hstep]
          simp only [nextHandles, e]
          refine hdequeue.setConn (fun e => by cases e) (fun _ => ?_) rfl
          show ((d.man.setSock 0 _).sock 1).key = _
          rw [hconn]
          exact h.shape.key hcl
        · have hview : (d.perform (.accept 0)).view cfg .server =
              { d.view cfg .server with
                sock := { d.man.sock 1 with state := .ESTABLISHED }, held := true } := by
            refine view_perform ?_ ?_ ?_ ?_ rfl rfl
            · rw [hstep, e]
              show (TcpManager.setSock _ 1 _).sock 1 = _
              rw [TcpManager.sock_setSock_self _ (by simpa using hlt), hconn]
            · rw [hstep, e]
              rfl
            · rw [hstep, e]
              rfl
            · simp only [nextHandles, e]
              exact hheld d.handles
          rw [hview, hout (by rw [e]; rfl)]
          exact .accept rfl hfree hlive

theorem performs_close (h : SideOk cfg w d) (hi : w.conn ∈ d.handles)
    (hst : (d.man.sock w.conn).state = .ESTABLISHED) (hfin : (d.man.sock w.conn).finSeq < 0)
    (hempty : (d.man.sock w.conn).outstanding = []) :
    ∃ p, cfg.Sends w p .FIN 0 (d.man.sock w.conn).sndNxt [] ∧
      d.Performs cfg w (.close w.conn)
        { d.view cfg w with
          sock := finQueued { d.man.sock w.conn with state := .SHUTDOWN } } [p] := by
  have hexec := step_eq_exec h (.close w.conn) fun j hj => by cases hj; exact hi
  have hlt := h.shape.held _ hi
  have hne : (d.man.sock w.conn).state ≠ .CLOSED := by
    rw [hst]
    decide
  have hkey := h.shape.key hne
  have hself := d.man.sock_setSock_self hlt { d.man.sock w.conn with state := .SHUTDOWN }
  obtain ⟨p, hp, e⟩ := (d.man.setSock w.conn { d.man.sock w.conn with
      state := .SHUTDOWN }).maybeSendFin_sends (i := w.conn) (by simpa using hlt)
    (by rw [hself]) (by rw [hself]; exact hfin) (by rw [hself]; exact hempty)
    (by rw [hself]; exact h.shape.sendable hne)
  rw [hself] at hp e
  refine ⟨p, h.shape.sends hkey hp, ?_⟩
  refine performs_update h hlt ?_ rfl rfl rfl (fun e => by cases e) (fun _ => hkey) rfl
    ⟨rfl, rfl, rfl⟩
  have hclose : d.man.exec (.close w.conn) =
      (d.man.setSock w.conn { d.man.sock w.conn with state := .SHUTDOWN }).maybeSendFinOnDrain
        w.conn := by
    simp only [TcpManager.exec, TcpManager.close, hst]
  rw [hexec, hclose, e, TcpManager.setSock_setSock]

theorem acts_close (h : SideOk cfg w d) {i : SockId} (hi : i ∈ d.handles) :
    d.Acts cfg w (.close i) := by
  have hexec := step_eq_exec h (.close i) fun j hj => by cases hj; exact hi
  have hstep : d.man.step (.close i) = d.man.close i := hexec
  have hlt := h.shape.held i hi
  by_cases hconn : i = w.conn
  · subst hconn
    have hheld : (d.view cfg w).held = true := view_held hi
    cases hst : (d.man.sock w.conn).state with
    | CLOSED => exact acts_idle h (by rw [hstep, TcpManager.close, hst]) rfl rfl rfl
    | LISTEN => exact absurd hst h.shape.notListening
    | SYN_SENT =>
        refine acts_update h (.closePending rfl hst) hlt ?_ rfl rfl rfl (fun e => by cases e)
          (fun e => absurd rfl e) rfl ⟨rfl, rfl, rfl⟩
        rw [hstep, TcpManager.close, hst, TcpManager.emit_nil]
        rfl
    | SHUTDOWN => exact acts_idle h (by rw [hstep, TcpManager.close, hst]) rfl rfl rfl
    | ESTABLISHED =>
        by_cases hwait : 0 ≤ (d.man.sock w.conn).finSeq ∨ (d.man.sock w.conn).outstanding ≠ []
        · have hself := d.man.sock_setSock_self hlt { d.man.sock w.conn with state := .SHUTDOWN }
          have hkey := h.shape.key (by rw [hst]; decide)
          refine acts_update h (.shutdown rfl hheld hst hwait) hlt ?_ rfl rfl rfl (fun e => by cases e)
            (fun _ => hkey) rfl ⟨rfl, rfl, rfl⟩
          rw [hstep, TcpManager.close, hst]
          simp only
          rw [TcpManager.maybeSendFin_idle _ (by rw [hself]; exact .inr hwait), TcpManager.emit_nil]
          rfl
        · simp only [not_or, not_le, not_not] at hwait
          obtain ⟨p, hp, hperforms⟩ := performs_close h hi hst hwait.1 hwait.2
          exact hperforms.acts (.shutdownFin rfl hheld hst hwait.2 hp)
  · -- a call on the listener
    obtain hst | hst := h.shape.others i hconn
    · have e : d.man.step (.close i) = d.man.setSock i (d.man.sock i).markClosed := by
        rw [hstep, TcpManager.close, hst]
        rfl
      constructor
      · show (d.man.step (.close i)).Shape cfg w d.handles
        rw [e]
        exact h.shape.setOther hconn (.inr rfl) rfl
      · have hview : (d.perform (.close i)).view cfg w = d.view cfg w := by
          refine view_perform ?_ ?_ ?_ rfl rfl rfl
          · rw [e, d.man.sock_setSock_ne (Ne.symm hconn)]
            rfl
          · rw [e]
            rfl
          · rw [e]
            rfl
        have hout : d.emitted (.close i) = [] := by
          rw [emitted, e]
          exact List.drop_length
        rw [hview, hout]
        exact .idle
    · exact acts_idle h (by rw [hstep, TcpManager.close, hst]) rfl rfl rfl

theorem acts_tick (h : SideOk cfg w d) (now : Int) : d.Acts cfg w (.tick now) := by
  have hstep := d.man.step_tick now
  obtain he | he := Table.entries_of_unique d.man.establishedByKey h.shape.established
  · refine acts_idle h ?_ rfl rfl rfl
    rw [hstep, TcpManager.retransmissionTick, he]
    rfl
  · have hround : d.man.step (.tick now) = d.man.retransmitSocket now w.conn := by
      rw [hstep, TcpManager.retransmissionTick, he]
      rfl
    have hest : d.man.establishedByKey.lookup (cfg.key w) = some w.conn := by
      rw [Table.lookup_eq_some_iff, he]
      exact List.mem_singleton.mpr rfl
    have hkey := ((h.steady.fits w.conn).established _ hest).1
    obtain e | ⟨_, out, e, hout⟩ := d.man.retransmitSocket_effect now w.conn
    · exact acts_idle h (hround.trans e) rfl rfl rfl
    · refine acts_update h (.timeout fun p hp => ?_) (h.steady.bounded.established hest)
        (hround.trans e) rfl rfl rfl h.shape.notListening (fun _ => hkey) rfl ⟨rfl, rfl, rfl⟩
      obtain ⟨seg, hseg, hp⟩ := hout p hp
      exact ⟨seg, hseg, h.shape.sends hkey hp⟩

/-! ### Segments from the other side -/

theorem segKey_eq {p : Sent} (hp : cfg.From w.other p) : segKey p.src p.seg = cfg.key w := by
  rw [segKey, Config.key, hp.src, hp.srcPort, hp.destPort, Party.other_other]

theorem sendAck_sends {m : TcpManager} (haddr : m.addr = cfg.addr w) {p : Sent}
    (hp : cfg.From w.other p) (ackNum window : Int) :
    ∃ q, cfg.Sends w q .ACK window ackNum [] ∧
      (m.sendAck p.seg.destPort p.src p.seg.srcPort ackNum window).1 = m.emit [q] := by
  have hsend : Sendable m.addr p.src p.seg.destPort p.seg.srcPort := by
    rw [haddr, hp.src, hp.destPort, hp.srcPort, Party.other_other]
    exact cfg.sendable w
  obtain ⟨q, hq, e⟩ := m.trySend_ok hsend .ACK window ackNum [] (Nat.zero_le _)
  refine ⟨q, ?_, by rw [TcpManager.sendAck, e]⟩
  rwa [haddr, hp.src, hp.srcPort, hp.destPort, Party.other_other] at hq

theorem forall_mem_singleton {P : Sent → Prop} {q : Sent} (hq : P q) : ∀ p ∈ [q], P p :=
  fun p hp => by rw [List.mem_singleton.mp hp]; exact hq

theorem performs_data (h : SideOk cfg w d) (now : Int) {p : Sent} (hp : cfg.From w.other p)
    (hty : p.seg.type = .DATA)
    (hest : d.man.establishedByKey.lookup (segKey p.src p.seg) = some w.conn)
    (hst : (d.man.sock w.conn).Live) (hseq : p.seg.seqNum = (d.man.sock w.conn).rcvNxt)
    (hne : p.seg.payload ≠ [])
    (hroom : (p.seg.payload.length : Int) ≤ (d.man.sock w.conn).getRecvBufAvailable) :
    ∃ q, cfg.Sends w q .ACK (stored (d.man.sock w.conn) p.seg.payload).getRecvBufAvailable
        (stored (d.man.sock w.conn) p.seg.payload).rcvNxt [] ∧
      d.Performs cfg w (.receive now p.src p.seg)
        { d.view cfg w with sock := stored (d.man.sock w.conn) p.seg.payload } [q] := by
  have hstep : d.man.step (.receive now p.src p.seg) = d.man.onData p.src p.seg := by
    rw [TcpManager.step_receive, TcpManager.receiveTransport, hty]
  have hkey := ((h.steady.fits w.conn).established _ hest).1
  have hlt := h.steady.bounded.established hest
  have hport : (stored (d.man.sock w.conn) p.seg.payload).localPort = p.seg.destPort := by
    rw [TcpSocket.key, segKey, ConnKey.mk.injEq] at hkey
    exact hkey.2.2
  have hself := d.man.sock_setSock_self hlt (stored (d.man.sock w.conn) p.seg.payload)
  obtain ⟨q, hq, e⟩ := sendAck_sends
    (m := d.man.setSock w.conn (stored (d.man.sock w.conn) p.seg.payload)) h.shape.addr hp
    (stored (d.man.sock w.conn) p.seg.payload).rcvNxt
    (stored (d.man.sock w.conn) p.seg.payload).getRecvBufAvailable
  refine ⟨q, hq, performs_update h hlt ?_ rfl rfl rfl h.shape.notListening h.shape.key rfl
    ⟨rfl, rfl, rfl⟩⟩
  rw [hstep, d.man.onData_stores hest hst hne hseq hroom, TcpManager.ackData, hself, hport, e]

theorem acts_data (h : SideOk cfg w d) (now : Int) {p : Sent} (hp : cfg.From w.other p)
    (hty : p.seg.type = .DATA) : d.Acts cfg w (.receive now p.src p.seg) := by
  have hstep : d.man.step (.receive now p.src p.seg) = d.man.onData p.src p.seg := by
    rw [TcpManager.step_receive, TcpManager.receiveTransport, hty]
  cases hest : d.man.establishedByKey.lookup (segKey p.src p.seg) with
  | none =>
      refine acts_idle h ?_ rfl rfl rfl
      simp only [segKey] at hest
      rw [hstep, TcpManager.onData, hest]
  | some i =>
      obtain ⟨rfl, _⟩ := h.shape.established _ i hest
      have hkey := ((h.steady.fits w.conn).established _ hest).1
      have hlt := h.steady.bounded.established hest
      have hport : (d.man.sock w.conn).localPort = p.seg.destPort := by
        rw [TcpSocket.key, segKey, ConnKey.mk.injEq] at hkey
        exact hkey.2.2
      obtain e | ⟨hst, e | ⟨hne, hseq, hroom, _⟩⟩ := d.man.onData_effect hest
      · exact acts_idle h (hstep.trans e) rfl rfl rfl
      · obtain ⟨q, hq, eq⟩ := sendAck_sends h.shape.addr hp (d.man.sock w.conn).rcvNxt
          (d.man.sock w.conn).getRecvBufAvailable
        refine acts_update h (.answer hty hst (forall_mem_singleton hq)) hlt ?_ rfl rfl rfl
          h.shape.notListening h.shape.key rfl ⟨rfl, rfl, rfl⟩
        show _ = (d.man.setSock w.conn (d.man.sock w.conn)).emit [q]
        rw [hstep, e, TcpManager.ackData, hport, eq, TcpManager.setSock_sock]
      · obtain ⟨q, hq, hperforms⟩ := performs_data h now hp hty hest hst hseq hne hroom
        exact hperforms.acts (.store hty hst hseq hne hroom (forall_mem_singleton hq))

theorem acts_ack_pending (h : SideOk cfg w d) (now : Int) {p : Sent} (hp : cfg.From w.other p)
    (hty : p.seg.type = .ACK) {i : SockId}
    (hpend : d.man.synPendingByKey.lookup (segKey p.src p.seg) = some i)
    (hstep : d.man.step (.receive now p.src p.seg) =
      d.man.onAckPending p.src p.seg (segKey p.src p.seg) i) :
    d.Acts cfg w (.receive now p.src p.seg) := by
  have hsk := segKey_eq hp
  obtain ⟨rfl, rfl, _⟩ := h.shape.pending _ i hpend
  obtain ⟨hkey, hst⟩ := (h.steady.fits 0).pending _ hpend
  have hlt := h.steady.bounded.pending hpend
  by_cases hseq : p.seg.seqNum = (d.man.sock 0).synSeq + 1
  · -- the key under which the socket is registered is the one it was pending under
    have hnew : (⟨p.src, p.seg.srcPort, (d.man.sock 0).localPort⟩ : ConnKey) = cfg.key .client := by
      rw [← hsk, ← hkey, TcpSocket.key]
      rw [TcpSocket.key, segKey, ConnKey.mk.injEq] at hkey
      rw [hkey.1, hkey.2.1]
    have e := hstep.trans (d.man.onAckPending_completes hlt p.src _ hseq)
    rw [hnew, hsk] at e
    have hview : (d.perform (.receive now p.src p.seg)).view cfg .client =
        { d.view cfg .client with
          sock := ((d.man.sock 0).setRwnd p.seg.window).markEstablished
          pending := false
          registered := true } := by
      refine view_perform ?_ ?_ ?_ rfl rfl rfl
      · rw [e]
        exact TcpManager.sock_setSock_self _ hlt _
      · rw [e, TcpManager.setSock_synPendingByKey, AList.lookup_erase]
        rfl
      · rw [e, TcpManager.setSock_establishedByKey, AList.lookup_insert]
        rfl
    have hout : d.emitted (.receive now p.src p.seg) = [] := by
      rw [emitted, e]
      exact List.drop_length
    have hstate : ((d.man.sock 0).setRwnd p.seg.window).markEstablished.state ≠ .LISTEN := by
      rw [TcpSocket.markEstablished_state]
      split_ifs <;> decide
    constructor
    · show (d.man.step (.receive now p.src p.seg)).Shape cfg .client d.handles
      rw [e]
      refine TcpManager.Shape.setConn (h.shape.tables ?_ ?_) hstate (fun _ => ?_) ?_
      · exact fun k i hk => h.shape.pending k i (Table.lookup_erase_some _ hk).2
      · intro k i hk
        obtain ⟨hk, hi⟩ | ⟨_, hk⟩ := Table.lookup_insert_some _ hk
        · exact ⟨hi, hk⟩
        · exact h.shape.established k i hk
      · rw [← hsk, ← hkey, TcpSocket.key, TcpSocket.markEstablished_remoteAddr,
          TcpSocket.markEstablished_remotePort, TcpSocket.markEstablished_localPort]
        rfl
      · rw [TcpSocket.markEstablished_pendingConnQueue]
        rfl
    · rw [hview, hout]
      have hpending : (d.view cfg .client).pending = true := by
        show (d.man.synPendingByKey.lookup (cfg.key .client)).isSome = true
        rw [← hsk, hpend]
        rfl
      obtain hst | hst := hst
      · exact .establish hty hpending hst hseq
      · have hsame := ((d.man.sock 0).setRwnd p.seg.window).markEstablished_of_closed hst
        rw [hsame]
        exact .establishClosed hty hpending hst hseq
  · refine acts_idle h ?_ rfl rfl rfl
    rw [hstep, TcpManager.onAckPending, if_neg hseq]

theorem performs_ack (h : SideOk cfg w d) (now : Int) {p : Sent} (hp : cfg.From w.other p)
    (hty : p.seg.type = .ACK) (hpend : (d.view cfg w).pending = false)
    (hest : d.man.establishedByKey.lookup (segKey p.src p.seg) = some w.conn)
    (hst : (d.man.sock w.conn).state = .ESTABLISHED)
    (hle : p.seg.seqNum ≤ (d.man.sock w.conn).sndNxt) :
    d.Performs cfg w (.receive now p.src p.seg)
      { d.view cfg w with
        sock := if p.seg.seqNum ≤ (d.man.sock w.conn).sndUna
          then (d.man.sock w.conn).setRwnd p.seg.window
          else advanced ((d.man.sock w.conn).setRwnd p.seg.window) now p.seg.seqNum } [] := by
  have hsk := segKey_eq hp
  have hlt := h.steady.bounded.established hest
  have hkey := (((h.steady.fits w.conn).established _ hest).1).trans hsk
  have hnone : d.man.synPendingByKey.lookup (segKey p.src p.seg) = none := by
    rw [hsk]
    exact Option.isSome_eq_false_iff.mp hpend |> Option.isNone_iff_eq_none.mp
  have hstep : d.man.step (.receive now p.src p.seg) =
      d.man.onAckEstablished now p.seg (segKey p.src p.seg) w.conn := by
    rw [TcpManager.step_receive, TcpManager.receiveTransport, hty]
    simp only [segKey] at hnone hest
    simp only [TcpManager.onAck, hnone, hest, segKey]
  by_cases hold : p.seg.seqNum ≤ (d.man.sock w.conn).sndUna
  · rw [if_pos hold]
    refine performs_update h hlt ?_ rfl rfl rfl h.shape.notListening (fun _ => hkey) rfl
      ⟨rfl, rfl, rfl⟩
    rw [hstep, d.man.onAckEstablished_window now _ hst hold hle, TcpManager.emit_nil]
  · rw [if_neg hold]
    have hadv : SameConn (d.man.sock w.conn)
        (advanced ((d.man.sock w.conn).setRwnd p.seg.window) now p.seg.seqNum) :=
      (sameConn_setRwnd _ _).trans (sameConn_advanced _ _ _)
    refine performs_update h hlt ?_ rfl rfl rfl ?_ (fun _ => hadv.key.trans hkey)
      hadv.pendingConnQueue ⟨rfl, rfl, rfl⟩
    · rw [hstep, d.man.onAckEstablished_advances now _ hlt hst (not_le.mp hold) hle,
        TcpManager.emit_nil]
    · show (advanced _ _ _).state ≠ .LISTEN
      rw [hadv.state]
      exact h.shape.notListening

theorem acts_ack_established (h : SideOk cfg w d) (now : Int) {p : Sent}
    (hp : cfg.From w.other p) (hty : p.seg.type = .ACK) {i : SockId}
    (hest : d.man.establishedByKey.lookup (segKey p.src p.seg) = some i)
    (hstep : d.man.step (.receive now p.src p.seg) =
      d.man.onAckEstablished now p.seg (segKey p.src p.seg) i) :
    d.Acts cfg w (.receive now p.src p.seg) := by
  have hsk := segKey_eq hp
  obtain ⟨rfl, _⟩ := h.shape.established _ i hest
  have hkey := (((h.steady.fits w.conn).established _ hest).1).trans hsk
  have hlt := h.steady.bounded.established hest
  rcases d.man.onAckEstablished_effect now p.seg (segKey p.src p.seg) hlt with
    e | ⟨hst, hfin, hack, e⟩ | ⟨hst, hle, ⟨hold, e⟩ | ⟨hnew, e⟩⟩
  · exact acts_idle h (hstep.trans e) rfl rfl rfl
  · replace e := hstep.trans e
    rw [hsk] at e
    have hview : (d.perform (.receive now p.src p.seg)).view cfg w =
        { d.view cfg w with sock := (d.man.sock w.conn).markClosed, registered := false } := by
      refine view_perform ?_ ?_ ?_ rfl rfl rfl
      · rw [e]
        exact d.man.sock_setSock_self hlt _
      · rw [e]
        rfl
      · rw [e]
        exact congrArg Option.isSome (AList.lookup_erase _ _)
    have hout : d.emitted (.receive now p.src p.seg) = [] := by
      rw [emitted, e]
      exact List.drop_length
    constructor
    · show (d.man.step (.receive now p.src p.seg)).Shape cfg w d.handles
      rw [e]
      have hclosed : (d.man.setSock w.conn (d.man.sock w.conn).markClosed).Shape cfg w d.handles :=
        h.shape.setConn (fun e => by cases e) (fun e => absurd rfl e) rfl
      refine hclosed.tables h.shape.pending ?_
      exact fun k i hk => h.shape.established k i (Table.lookup_erase_some _ hk).2
    · rw [hview, hout]
      exact .finAcked hty hst hfin hack
  · refine acts_update h (.window hty hst hle hold) hlt ?_ rfl rfl rfl h.shape.notListening
      (fun _ => hkey) rfl ⟨rfl, rfl, rfl⟩
    rw [hstep, e, TcpManager.emit_nil]
    rfl
  · have hadv : SameConn (d.man.sock w.conn)
        (advanced ((d.man.sock w.conn).setRwnd p.seg.window) now p.seg.seqNum) :=
      (sameConn_setRwnd _ _).trans (sameConn_advanced _ _ _)
    have hstate : (advanced ((d.man.sock w.conn).setRwnd p.seg.window) now
        p.seg.seqNum).state ≠ .LISTEN := by
      rw [hadv.state]
      exact h.shape.notListening
    have hself := d.man.sock_setSock_self hlt
      (advanced ((d.man.sock w.conn).setRwnd p.seg.window) now p.seg.seqNum)
    rcases (d.man.setSock w.conn (advanced ((d.man.sock w.conn).setRwnd p.seg.window) now
        p.seg.seqNum)).maybeSendFin_effect (i := w.conn) (by simpa using hlt) with
      ⟨_, e'⟩ | ⟨hst', _, hempty, ⟨q, hq, e'⟩ | ⟨hno, _⟩⟩
    · refine acts_update h (.advance hty hst hnew hle) hlt ?_ rfl rfl rfl hstate
        (fun _ => hadv.key.trans hkey) hadv.pendingConnQueue ⟨rfl, rfl, rfl⟩
      rw [hstep, e, e', TcpManager.emit_nil]
      rfl
    · rw [hself] at hst' hempty hq e'
      rw [hadv.state] at hst'
      rw [hadv.remoteAddr, hadv.localPort, hadv.remotePort, (advanced_sender _ _ _).2.2.1] at hq
      refine acts_update h (.advanceFin hty hst' hnew hle hempty (h.shape.sends hkey hq)) hlt ?_ rfl
        rfl rfl hstate (fun _ => hadv.key.trans hkey) hadv.pendingConnQueue ⟨rfl, rfl, rfl⟩
      rw [hstep, e, e', TcpManager.setSock_setSock]
      rfl
    · rw [hself, hadv.remoteAddr, hadv.localPort, hadv.remotePort] at hno
      refine absurd (h.shape.sendable ?_) hno
      rcases hst with hst | hst <;> rw [hst] <;> decide

theorem acts_ack (h : SideOk cfg w d) (now : Int) {p : Sent} (hp : cfg.From w.other p)
    (hty : p.seg.type = .ACK) : d.Acts cfg w (.receive now p.src p.seg) := by
  have hstep : d.man.step (.receive now p.src p.seg) = d.man.onAck now p.src p.seg := by
    rw [TcpManager.step_receive, TcpManager.receiveTransport, hty]
  cases hpend : d.man.synPendingByKey.lookup (segKey p.src p.seg) with
  | some i =>
      refine acts_ack_pending h now hp hty hpend ?_
      simp only [segKey] at hpend
      rw [hstep]
      simp only [TcpManager.onAck, hpend, segKey]
  | none =>
      cases hest : d.man.establishedByKey.lookup (segKey p.src p.seg) with
      | some i =>
          refine acts_ack_established h now hp hty hest ?_
          simp only [segKey] at hpend hest
          rw [hstep]
          simp only [TcpManager.onAck, hpend, hest, segKey]
      | none =>
          refine acts_idle h ?_ rfl rfl rfl
          simp only [segKey] at hpend hest
          rw [hstep]
          simp only [TcpManager.onAck, hpend, hest]

theorem acts_fin (h : SideOk cfg w d) (now : Int) {p : Sent} (hp : cfg.From w.other p)
    (hty : p.seg.type = .FIN) : d.Acts cfg w (.receive now p.src p.seg) := by
  have hstep : d.man.step (.receive now p.src p.seg) = d.man.onFin p.src p.seg := by
    rw [TcpManager.step_receive, TcpManager.receiveTransport, hty]
  have hsk := segKey_eq hp
  cases hest : d.man.establishedByKey.lookup (segKey p.src p.seg) with
  | some i =>
      obtain ⟨rfl, _⟩ := h.shape.established _ i hest
      obtain ⟨hkey, hst⟩ := (h.steady.fits w.conn).established _ hest
      have hlt := h.steady.bounded.established hest
      have hself := d.man.sock_setSock_self hlt (d.man.sock w.conn).markPeerFinReceived
      obtain ⟨q, hq, eq⟩ := sendAck_sends
        (m := d.man.setSock w.conn (d.man.sock w.conn).markPeerFinReceived) h.shape.addr hp
        (p.seg.seqNum + 1) (d.man.sock w.conn).getRecvBufAvailable
      have hreg : (d.view cfg w).registered = true := by
        show (d.man.establishedByKey.lookup (cfg.key w)).isSome = true
        rw [← hsk, hest]
        rfl
      have hstate : (d.man.sock w.conn).markPeerFinReceived.state ≠ .LISTEN := by
        show (if (d.man.sock w.conn).state = .ESTABLISHED then TcpState.SHUTDOWN
          else (d.man.sock w.conn).state) ≠ .LISTEN
        split_ifs
        · decide
        · exact h.shape.notListening
      refine acts_update h (.peerFin hty hreg (forall_mem_singleton hq)) hlt ?_ rfl rfl rfl hstate
        (fun _ => hkey.trans hsk) rfl ⟨rfl, rfl, rfl⟩
      simp only [segKey] at hest
      rw [hstep]
      simp only [TcpManager.onFin, hest]
      rw [hself]
      exact eq
  | none =>
      cases hpend : d.man.synPendingByKey.lookup (segKey p.src p.seg) with
      | none =>
          refine acts_idle h ?_ rfl rfl rfl
          simp only [segKey] at hpend hest
          rw [hstep]
          simp only [TcpManager.onFin, hpend, hest]
      | some i =>
          obtain ⟨rfl, rfl, _⟩ := h.shape.pending _ i hpend
          have hlt := h.steady.bounded.pending hpend
          have hpending : (d.view cfg .client).pending = true := by
            show (d.man.synPendingByKey.lookup (cfg.key .client)).isSome = true
            rw [← hsk, hpend]
            rfl
          have e : d.man.step (.receive now p.src p.seg) =
              { d.man.setSock 0 (d.man.sock 0).markClosed with
                synPendingByKey := d.man.synPendingByKey.erase (cfg.key .client) } := by
            rw [← hsk, hstep]
            simp only [segKey] at hpend hest ⊢
            simp only [TcpManager.onFin, hpend, hest]
          have hview : (d.perform (.receive now p.src p.seg)).view cfg .client =
              { d.view cfg .client with
                sock := (d.man.sock 0).markClosed, pending := false } := by
            refine view_perform ?_ ?_ ?_ rfl rfl rfl
            · rw [e]
              exact d.man.sock_setSock_self hlt _
            · rw [e]
              exact congrArg Option.isSome (AList.lookup_erase _ _)
            · rw [e]
              rfl
          have hout : d.emitted (.receive now p.src p.seg) = [] := by
            rw [emitted, e]
            exact List.drop_length
          constructor
          · show (d.man.step (.receive now p.src p.seg)).Shape cfg .client d.handles
            rw [e]
            have hclosed : (d.man.setSock 0 (d.man.sock 0).markClosed).Shape cfg .client d.handles :=
              h.shape.setConn (fun e => by cases e) (fun e => absurd rfl e) rfl
            refine hclosed.tables ?_ h.shape.established
            exact fun k i hk => h.shape.pending k i (Table.lookup_erase_some _ hk).2
          · rw [hview, hout]
            exact .refused hty hpending

theorem acts_syn (h : SideOk cfg .server d) (now : Int) {p : Sent} (hp : cfg.From .client p)
    (hty : p.seg.type = .SYN) (hone : d.man.allSockets.length = 1) :
    d.Acts cfg .server (.receive now p.src p.seg) := by
  have hstep : d.man.step (.receive now p.src p.seg) = d.man.onSyn p.src p.seg := by
    rw [TcpManager.step_receive, TcpManager.receiveTransport, hty]
  have hdest : p.seg.destPort = cfg.port .server := hp.destPort
  have hlisten : d.man.listenersByPort.lookup p.seg.destPort = some 0 := by
    rw [hdest]
    exact h.shape.listening rfl
  have hlt : 0 < d.man.allSockets.length := by omega
  have hnew : d.man.sock 1 = TcpSocket.new := d.man.sock_of_length_le (by omega)
  have hfree : 1 ∉ d.handles := by
    intro h1
    have hlt1 : 1 < d.man.allSockets.length := h.shape.held 1 h1
    omega
  have hkey : (⟨p.src, p.seg.srcPort, p.seg.destPort⟩ : ConnKey) = cfg.key .server := by
    rw [← segKey_eq (w := .server) hp, segKey]
  have hchild := d.man.admitted_sock_child 0 p.src p.seg
  have hlistener := d.man.admitted_sock_listener hlt p.src p.seg
  have hlength := d.man.admitted_length 0 p.src p.seg
  rw [hone] at hchild hlistener hlength
  obtain ⟨q, hq, eq⟩ := sendAck_sends (w := .server) (m := d.man.admitted 0 p.src p.seg)
    h.shape.addr hp (p.seg.seqNum + 1) TcpSocket.RECV_BUF_CAP
  have e := (hstep.trans (d.man.onSyn_admits hlisten hlt)).trans eq
  have hborn : TcpSocket.new.initAccepted p.seg.destPort p.src p.seg.srcPort =
      TcpSocket.new.initAccepted (cfg.port .server) (cfg.addr .client) (cfg.port .client) := by
    rw [hdest, hp.src, hp.srcPort]
  rw [hborn] at hchild
  have hview : (d.perform (.receive now p.src p.seg)).view cfg .server =
      { d.view cfg .server with
        sock := TcpSocket.new.initAccepted (cfg.port .server) (cfg.addr .client) (cfg.port .client)
        registered := true } := by
    refine view_perform ?_ ?_ ?_ rfl rfl rfl
    · rw [e]
      exact hchild
    · rw [e]
      rfl
    · rw [e, ← hkey]
      exact congrArg Option.isSome (AList.lookup_insert _)
  constructor
  · show (d.man.step (.receive now p.src p.seg)).Shape cfg .server d.handles
    rw [e]
    refine TcpManager.Shape.emit (m := d.man.admitted 0 p.src p.seg) ⟨h.shape.addr, h.shape.listeners, h.shape.listening,
      h.shape.pending, ?_, ?_, ?_, ?_, ?_, ?_, .inr ⟨rfl, hlength⟩⟩ [q]
    · intro k i hk
      obtain ⟨rfl, rfl⟩ | ⟨_, hk⟩ := Table.lookup_insert_some _ hk
      · exact ⟨hone, hkey⟩
      · exact h.shape.established k i hk
    · intro j hj
      by_cases h0 : j = 0
      · subst h0
        rw [hlistener, TcpSocket.enqueueAccepted_state]
        exact h.shape.others 0 hj
      · rw [d.man.admitted_sock_ne h0 (by rw [hone]; exact hj)]
        exact h.shape.others j hj
    · show ((d.man.admitted 0 p.src p.seg).sock 1).state ≠ .LISTEN
      rw [hchild]
      exact fun e => by cases e
    · intro _
      show ((d.man.admitted 0 p.src p.seg).sock 1).key = _
      rw [hchild]
      rfl
    · intro j
      by_cases h0 : j = 0
      · -- the queue was empty: there was no child
        subst h0
        have hempty : (d.man.sock 0).pendingConnQueue = [] := by
          refine (h.shape.queue 0).resolve_right ?_
          rintro ⟨_, _, hq, _⟩
          have hlt1 : 1 < d.man.allSockets.length :=
            h.steady.bounded.queued (i := 0) (by rw [hq]; exact List.mem_singleton.mpr rfl)
          omega
        rw [hlistener]
        unfold TcpSocket.enqueueAccepted
        split_ifs
        · right
          refine ⟨rfl, rfl, ?_, hfree⟩
          show (d.man.sock 0).pendingConnQueue ++ [1] = [1]
          rw [hempty, List.nil_append]
        · exact .inl hempty
      · left
        by_cases h1 : j = 1
        · subst h1
          rw [hchild]
          rfl
        · rw [d.man.admitted_sock_ne h0 (by rw [hone]; exact h1)]
          exact (h.shape.queue j).resolve_right fun hq => h0 hq.2.1
    · intro i hi
      rw [hlength]
      exact Nat.lt_trans (h.shape.held i hi) (by rw [hone]; exact Nat.lt_succ_self 1)
  · rw [hview, emitted_eq e rfl]
    exact .born hty rfl hnew (decide_eq_false hfree) (forall_mem_singleton hq)

/-! ### All operations -/

/-- What is known of a segment that reaches one side: it comes from the other side, and only the
server gets a SYN, before it has a child. -/
structure Arrives (cfg : Config) (w : Party) (d : Side) (p : Sent) : Prop where
  sender : cfg.From w.other p
  syn : p.seg.type = .SYN → w = .server ∧ d.man.allSockets.length = 1

/-- **Inversion.** Every operation of an event is an act, and keeps the invariant of the side. -/
theorem perform_act (h : SideOk cfg w d) {op : Op} {Q : Sent → Prop}
    (hin : Sys.Input d (cfg.addr w) Q op) (hQ : ∀ p, Q p → Arrives cfg w d p) :
    SideOk cfg w (d.perform op) ∧
      Act cfg w (d.view cfg w) op ((d.perform op).view cfg w) (d.emitted op) := by
  have hacts : d.Acts cfg w op := by
    cases hin with
    | write now hi buf pos len => exact acts_write h now hi buf pos len
    | read hi buf pos len => exact acts_read h hi buf pos len
    | accept hi => exact acts_accept h hi
    | close hi => exact acts_close h hi
    | tick now => exact acts_tick h now
    | @receive now p hp hdest =>
        obtain ⟨hfrom, hsyn⟩ := hQ p hp
        cases hty : p.seg.type with
        | SYN =>
            obtain ⟨rfl, hone⟩ := hsyn hty
            exact acts_syn h now hfrom hty hone
        | ACK => exact acts_ack h now hfrom hty
        | FIN => exact acts_fin h now hfrom hty
        | DATA => exact acts_data h now hfrom hty
  refine ⟨⟨h.steady.step ?_ ?_, hacts.1⟩, hacts.2⟩
  · cases hin <;> exact fun _ _ e => by cases e
  · cases hin <;> exact fun e => by cases e

end Side

end NetBridge
