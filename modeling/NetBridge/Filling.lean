import NetBridge.FlowControl

/-! # Runs that fill the buffer of the receiver

Two conditions of `FlowControl.lean` fail in runs that need a full receive buffer.  `fill n` is such a
run: the client writes one byte, the network delivers it and then its acknowledgement, `n` times over.
`Settled` describes the system between two rounds, which may be of more than one byte, and `Calm` when
nothing has been read; segments that were duplicated before may stay on the wire the whole time. -/

namespace NetBridge

open TcpManager (written stored advanced finQueued windowRoom)

namespace TcpSocket

/-- The congestion window after at most `a` acknowledgements: once it is wider than half the square of
a segment, each of them adds one. -/
def Grown (s : TcpSocket) (a : ℕ) : Prop := CWND_MIN_BYTES ≤ s.cwnd ∧ s.cwnd ≤ 5831 + a

instance (s : TcpSocket) (a : ℕ) : Decidable (s.Grown a) := inferInstanceAs (Decidable (_ ∧ _))

theorem Grown.advanced {s : TcpSocket} {a : ℕ} (h : s.Grown a) (ha : a ≤ 2147477815)
    (now ackNum : Int) : (TcpManager.advanced s now ackNum).Grown (a + 1) := by
  obtain ⟨hmin, hmax⟩ := h
  obtain ⟨h1, h107⟩ := s.cwndInc_bounds
  rw [CWND_MIN_BYTES_eq] at hmin
  have hslow := cwndInc_eq_one (s := s)
  rw [Grown, (advanced_sender s now ackNum).2.2.2.2, CWND_MIN_BYTES_eq,
    wrap32_of_inInt32 ⟨by omega, by omega⟩]
  push_cast
  omega

end TcpSocket

namespace Sys

variable {cfg : Config} {σ : Sys}

/-! ### Steps whose outcome is known -/

theorem nodeAt_addr (w : Party) : nodeAt cfg (cfg.addr w) = some w := by
  unfold nodeAt
  cases w with
  | client => exact if_pos rfl
  | server => exact (if_neg (Ne.symm cfg.addr_ne)).trans (if_pos rfl)

theorem act_performs {w : Party} {op : Op} {x : End} {out : List Sent}
    (h : (σ.side w).Performs cfg w op x out) :
    (σ.act w op).ends cfg = Function.update (σ.ends cfg) w x ∧
      (σ.act w op).wire = σ.wire ++ out := by
  rw [ends_act, h.view, act_wire, h.out]
  exact ⟨rfl, rfl⟩

theorem opOf_deliver {stale : List Sent} {p : Sent} {w : Party} (hwire : σ.wire = stale ++ [p])
    (hp : cfg.From w.other p) (now : Int) :
    σ.opOf cfg (.deliver stale.length now) = some (w, .receive now p.src p.seg) := by
  have hget : σ.wire[stale.length]? = some p := by
    rw [hwire, List.getElem?_append_right le_rfl, Nat.sub_self]
    rfl
  have hdest : p.dest = cfg.addr w := by
    rw [hp.dest, Party.other_other]
  simp only [opOf, hget, hdest, nodeAt_addr, Option.bind_eq_bind, Option.bind_some]
  rfl

theorem step_deliver {stale : List Sent} {p : Sent} {w : Party} (hwire : σ.wire = stale ++ [p])
    (hp : cfg.From w.other p) (now : Int) :
    σ.step cfg (.deliver stale.length now) =
      ({ σ with wire := stale } : Sys).act w (.receive now p.src p.seg) := by
  have hrest : σ.remaining (.deliver stale.length now) = stale := by
    show σ.wire.eraseIdx stale.length = stale
    rw [hwire, List.eraseIdx_append_of_length_le le_rfl, Nat.sub_self]
    exact List.append_nil _
  rw [step_of_opOf cfg (opOf_deliver hwire hp now), hrest]

theorem Ok.lookup (h : σ.Ok cfg) {w : Party} (hreg : (σ.ends cfg w).registered = true) {p : Sent}
    (hp : cfg.From w.other p) :
    (σ.side w).man.establishedByKey.lookup (segKey p.src p.seg) = some w.conn := by
  rw [Side.segKey_eq hp]
  obtain ⟨i, hi⟩ := Option.isSome_iff_exists.mp hreg
  rw [hi, ((h.side w).shape.established _ i hi).1]

/-! ### One round -/

/-- Everything is acknowledged: `k` bytes have been sent, `u` of them are in the buffer of the server,
at most `a` acknowledgements have enlarged the window of the client, and `stale` is on the wire. -/
structure Settled (cfg : Config) (σ : Sys) (k u a : ℕ) (stale : List Sent) : Prop where
  ok : σ.Ok cfg
  wire : σ.wire = stale
  held : ∀ w, (σ.ends cfg w).held = true
  pending : (σ.ends cfg .client).pending = false
  registered : ∀ w, (σ.ends cfg w).registered = true
  state : ∀ w, (σ.sock w).state = .ESTABLISHED
  sndUna : (σ.sock .client).sndUna = 1 + k
  sndNxt : (σ.sock .client).sndNxt = 1 + k
  cwnd : (σ.sock .client).Grown a
  rcvNxt : (σ.sock .server).rcvNxt = 1 + k
  used : (σ.sock .server).recvBufUsed = u

/-- Between two rounds of one byte: `k` bytes have been sent, and none has been read. -/
structure Calm (cfg : Config) (σ : Sys) (k : ℕ) (stale : List Sent) : Prop
    extends Settled cfg σ k k k stale where
  rwnd : (σ.sock .client).rwnd = TcpSocket.RECV_BUF_CAP - k

theorem Settled.next {σ' : Sys} {k u a k' u' a' : ℕ} {stale : List Sent} (h : Settled cfg σ k u a stale)
    (hok : σ'.Ok cfg) (hwire : σ'.wire = stale)
    (hsame : ∀ w, (σ'.ends cfg w).held = (σ.ends cfg w).held ∧
      (σ'.ends cfg w).pending = (σ.ends cfg w).pending ∧
      (σ'.ends cfg w).registered = (σ.ends cfg w).registered ∧
      (σ'.sock w).state = (σ.sock w).state)
    (huna : (σ'.sock .client).sndUna = 1 + k') (hnxt : (σ'.sock .client).sndNxt = 1 + k')
    (hcwnd : (σ'.sock .client).Grown a') (hrcv : (σ'.sock .server).rcvNxt = 1 + k')
    (hused : (σ'.sock .server).recvBufUsed = u') : Settled cfg σ' k' u' a' stale := by
  refine ⟨hok, hwire, ?_, ?_, ?_, ?_, huna, hnxt, hcwnd, hrcv, hused⟩
  · exact fun w => (hsame w).1.trans (h.held w)
  · exact (hsame .client).2.1.trans h.pending
  · exact fun w => (hsame w).2.2.1.trans (h.registered w)
  · exact fun w => (hsame w).2.2.2.trans (h.state w)

/-- The first `c` bytes of `buf` go to the server in one segment and their acknowledgement comes back,
behind `n` stale segments. -/
def round (n : ℕ) (buf : List UInt8) (c : ℕ) : List Event :=
  [.write .client 0 0 (some buf) 0 c, .deliver n 0, .deliver n 0]

/-- The client writes a segment into an open window. -/
theorem step_write_segment (hok : σ.Ok cfg) (hheld : (σ.ends cfg .client).held = true)
    (hst : (σ.sock .client).state = .ESTABLISHED)
    (hall : (σ.sock .client).sndUna = (σ.sock .client).sndNxt)
    (hcwnd : TcpSocket.CWND_MIN_BYTES ≤ (σ.sock .client).cwnd) (buf : List UInt8) {c : ℕ} (hc : 0 < c)
    (hmax : c ≤ 107) (hrwnd : (c : Int) ≤ (σ.sock .client).rwnd) :
    ∃ p, cfg.Sends .client p .DATA 0 (σ.sock .client).sndNxt (Buf.slice (some buf) 0 c) ∧
      (σ.step cfg (.write .client 0 0 (some buf) 0 c)).wire = σ.wire ++ [p] ∧
      (σ.step cfg (.write .client 0 0 (some buf) 0 c)).ends cfg =
        Function.update (σ.ends cfg) .client
          { σ.ends cfg .client with
            sock := written (σ.sock .client) 0 (some buf) 0 c
            written := (σ.side .client).written ++ Buf.slice (some buf) 0 c } := by
  have hmem : 0 ∈ (σ.side .client).handles := of_decide_eq_true hheld
  rw [TcpSocket.CWND_MIN_BYTES_eq] at hcwnd
  have hroom : windowRoom (σ.sock .client) c = c := by
    unfold windowRoom TcpSocket.effectiveWindow
    omega
  have hchunks : chunks 0 (some buf) (σ.sock .client).sndNxt 0 c =
      [⟨(σ.sock .client).sndNxt, c, Buf.slice (some buf) 0 c, 0, false⟩] := by
    rw [chunks_pos _ _ _ _ hc, min_eq_left hmax, Nat.sub_self, chunks_zero]
  have hbuf : (some buf : Buf) ≠ none := Option.some_ne_none buf
  have hperform := Side.performs_write (hok.side .client) 0 hmem hst hbuf (le_refl 0) (Int.natCast_nonneg c)
  obtain ⟨out, hout, hperforms⟩ := hperform
  have hout : List.Forall₂ _ out (chunks 0 (some buf) (σ.sock .client).sndNxt 0
    (windowRoom (σ.sock .client) c)) := hout
  rw [hroom, hchunks] at hout
  obtain ⟨p, _, hp, hnil, rfl⟩ := List.forall₂_cons_right_iff.mp hout
  rw [List.forall₂_nil_right_iff.mp hnil] at hperforms
  have hop : σ.opOf cfg (.write .client 0 0 (some buf) 0 c) =
      some (.client, .write 0 0 (some buf) 0 c) := if_pos hmem
  obtain ⟨hends, hwire⟩ := act_performs (σ := σ) hperforms
  refine ⟨p, hp, ?_, ?_⟩
  · rw [step_of_opOf cfg hop]
    exact hwire
  · rw [step_of_opOf cfg hop]
    refine hends.trans ?_
    show Function.update (σ.ends cfg) .client
      { σ.ends cfg .client with
        sock := written (σ.sock .client) 0 (some buf) 0 (windowRoom (σ.sock .client) c)
        written := (σ.side .client).written ++
          Buf.slice (some buf) 0 (windowRoom (σ.sock .client) c) } = _
    rw [hroom]

/-- The segment arrives at the server, which has room for it. -/
theorem step_deliver_segment (hok : σ.Ok cfg) {stale : List Sent} {p : Sent} {bytes : List UInt8}
    (hwire : σ.wire = stale ++ [p]) (hp : cfg.Sends .client p .DATA 0 (σ.sock .server).rcvNxt bytes)
    (hne : bytes ≠ []) (hreg : (σ.ends cfg .server).registered = true)
    (hst : (σ.sock .server).state = .ESTABLISHED)
    (hroom : (σ.sock .server).recvBufUsed + bytes.length ≤ TcpSocket.RECV_BUF_CAP) :
    ∃ q, cfg.Sends .server q .ACK
        (TcpSocket.RECV_BUF_CAP - ((σ.sock .server).recvBufUsed + bytes.length))
        ((σ.sock .server).rcvNxt + bytes.length) [] ∧
      (σ.step cfg (.deliver stale.length 0)).wire = stale ++ [q] ∧
      (σ.step cfg (.deliver stale.length 0)).ends cfg =
        Function.update (σ.ends cfg) .server
          { σ.ends cfg .server with sock := stored (σ.sock .server) bytes } := by
  have hfrom : cfg.From (Party.other .server) p := hp.from
  have hlen : (p.seg.payload.length : Int) ≤ (σ.sock .server).getRecvBufAvailable := by
    rw [hp.payload]
    show (bytes.length : Int) ≤ TcpSocket.RECV_BUF_CAP - (σ.sock .server).recvBufUsed
    omega
  have hpayload : p.seg.payload ≠ [] := by
    rw [hp.payload]
    exact hne
  obtain ⟨q, hq, hperforms⟩ := Side.performs_data (hok.side .server) 0 hfrom hp.type
    (hok.lookup hreg hfrom) (.inl hst) hp.seqNum hpayload hlen
  obtain ⟨hends, hwire'⟩ := act_performs (σ := { σ with wire := stale }) hperforms
  rw [hp.payload] at hq hends
  rw [step_deliver (w := .server) hwire hfrom 0]
  exact ⟨q, hq, hwire', hends⟩

/-- An acknowledgement arrives at the client. -/
theorem step_deliver_ack (hok : σ.Ok cfg) {stale : List Sent} {q : Sent}
    (hwire : σ.wire = stale ++ [q]) (hq : cfg.From .server q) (hty : q.seg.type = .ACK)
    (hpend : (σ.ends cfg .client).pending = false)
    (hreg : (σ.ends cfg .client).registered = true)
    (hst : (σ.sock .client).state = .ESTABLISHED) (hle : q.seg.seqNum ≤ (σ.sock .client).sndNxt) :
    (σ.step cfg (.deliver stale.length 0)).wire = stale ∧
      (σ.step cfg (.deliver stale.length 0)).ends cfg =
        Function.update (σ.ends cfg) .client
          { σ.ends cfg .client with
            sock := if q.seg.seqNum ≤ (σ.sock .client).sndUna
              then (σ.sock .client).setRwnd q.seg.window
              else advanced ((σ.sock .client).setRwnd q.seg.window) 0 q.seg.seqNum } := by
  have hfrom : cfg.From (Party.other .client) q := hq
  have hperforms := Side.performs_ack (hok.side .client) 0 hfrom hty hpend (hok.lookup hreg hfrom)
    hst hle
  obtain ⟨hends, hwire'⟩ := act_performs (σ := { σ with wire := stale }) hperforms
  rw [step_deliver (w := .client) hwire hfrom 0]
  exact ⟨hwire'.trans (List.append_nil _), hends⟩

theorem step_close (hok : σ.Ok cfg) (hheld : (σ.ends cfg .client).held = true)
    (hst : (σ.sock .client).state = .ESTABLISHED)
    (hall : (σ.sock .client).sndUna = (σ.sock .client).sndNxt) :
    ∃ p, cfg.Sends .client p .FIN 0 (σ.sock .client).sndNxt [] ∧
      (σ.step cfg (.close .client 0)).wire = σ.wire ++ [p] ∧
      (σ.step cfg (.close .client 0)).ends cfg =
        Function.update (σ.ends cfg) .client
          { σ.ends cfg .client with
            sock := finQueued { σ.sock .client with state := .SHUTDOWN } } := by
  have hmem : 0 ∈ (σ.side .client).handles := of_decide_eq_true hheld
  have hend := hok.ends .client
  obtain ⟨p, hp, hperforms⟩ := Side.performs_close (hok.side .client) hmem hst
    (hend.finSeq_neg hst) (hend.sender.empty_iff.mpr hall)
  have hop : σ.opOf cfg (.close .client 0) = some (.client, .close 0) := if_pos hmem
  obtain ⟨hends, hwire⟩ := act_performs (σ := σ) hperforms
  rw [step_of_opOf cfg hop]
  exact ⟨p, hp, hwire, hends⟩

theorem ends_of_update {σ' : Sys} {v : Party} {x : End}
    (h : σ'.ends cfg = Function.update (σ.ends cfg) v x) :
    σ'.ends cfg v = x ∧ σ'.ends cfg v.other = σ.ends cfg v.other := by
  rw [h]
  exact ⟨Function.update_self _ _ _, Function.update_of_ne v.other_ne _ _⟩

/-- The socket of the client when its `c` bytes have been written and acknowledged. -/
def exchanged (s : TcpSocket) (buf : List UInt8) (c : ℕ) (window : Int) : TcpSocket :=
  advanced ((written s 0 (some buf) 0 c).setRwnd window) 0 (s.sndNxt + c)

theorem exchanged_sender (s : TcpSocket) (buf : List UInt8) (c : ℕ) (window : Int) :
    SameConn s (exchanged s buf c window) ∧ (exchanged s buf c window).sndUna = s.sndNxt + c ∧
      (exchanged s buf c window).sndNxt = s.sndNxt + c ∧
      (exchanged s buf c window).rwnd = max 0 window := by
  have hstart : SameConn s ((written s 0 (some buf) 0 c).setRwnd window) :=
    ⟨rfl, rfl, rfl, rfl, rfl, rfl, rfl⟩
  obtain ⟨_, huna, hnxt, hrwnd, _⟩ :=
    advanced_sender ((written s 0 (some buf) 0 c).setRwnd window) 0 (s.sndNxt + c)
  exact ⟨hstart.trans (sameConn_advanced _ _ _), huna, hnxt, hrwnd⟩

theorem grown_exchanged {s : TcpSocket} {a : ℕ} (h : s.Grown a) (ha : a ≤ 2147477815)
    (buf : List UInt8) (c : ℕ) (window : Int) : (exchanged s buf c window).Grown (a + 1) :=
  TcpSocket.Grown.advanced (s := (written s 0 (some buf) 0 c).setRwnd window) h ha 0 _

/-- **A round**: the segment arrives and its acknowledgement comes back. -/
theorem Settled.round_ends {k u a : ℕ} {stale : List Sent} (h : Settled cfg σ k u a stale)
    (buf : List UInt8) {c : ℕ} (hc : 0 < c) (hmax : c ≤ 107)
    (hrwnd : (c : Int) ≤ (σ.sock .client).rwnd)
    (hu : ((u + c : ℕ) : Int) ≤ TcpSocket.RECV_BUF_CAP) :
    let σ' := run (step cfg) σ (round stale.length buf c)
    σ'.Ok cfg ∧ σ'.wire = stale ∧
      σ'.ends cfg .client =
        { σ.ends cfg .client with
          sock := exchanged (σ.sock .client) buf c (TcpSocket.RECV_BUF_CAP - (u + c : ℕ))
          written := (σ.side .client).written ++ Buf.slice (some buf) 0 c } ∧
      σ'.ends cfg .server =
        { σ.ends cfg .server with
          sock := stored (σ.sock .server) (Buf.slice (some buf) 0 c) } := by
  have hnxt := h.sndNxt
  have huna := h.sndUna
  have hlen : (Buf.slice (some buf) 0 c).length = c := Buf.slice_length _ _ _
  -- the client writes
  obtain ⟨p, hp, hwire₁, hends₁⟩ := step_write_segment h.ok (h.held .client) (h.state .client)
    (huna.trans hnxt.symm) h.cwnd.1 buf hc hmax hrwnd
  have hok₁ := h.ok.step (.write .client 0 0 (some buf) 0 c)
  set σ₁ := σ.step cfg (.write .client 0 0 (some buf) 0 c)
  obtain ⟨hclient₁, hserver₁⟩ := ends_of_update hends₁
  have hserver₁ : σ₁.ends cfg .server = σ.ends cfg .server := hserver₁
  have hrecv₁ : σ₁.sock .server = σ.sock .server := congrArg End.sock hserver₁
  rw [h.wire] at hwire₁
  rw [hnxt, ← h.rcvNxt, ← hrecv₁] at hp
  -- the segment arrives
  obtain ⟨q, hq, hwire₂, hends₂⟩ := step_deliver_segment hok₁ hwire₁ hp
    (List.ne_nil_of_length_pos (hlen.symm ▸ hc))
    (by rw [hserver₁]; exact h.registered .server) (by rw [hrecv₁]; exact h.state .server)
    (by rw [hrecv₁, h.used, hlen]; exact_mod_cast hu)
  have hok₂ := hok₁.step (.deliver stale.length 0)
  set σ₂ := σ₁.step cfg (.deliver stale.length 0)
  obtain ⟨hserver₂, hclient₂⟩ := ends_of_update hends₂
  have hclient₂ : σ₂.ends cfg .client = _ := hclient₂.trans hclient₁
  have hsock₂ : σ₂.sock .client = written (σ.sock .client) 0 (some buf) 0 c :=
    congrArg End.sock hclient₂
  have hnxt₂ : (σ₂.sock .client).sndNxt = (σ.sock .client).sndNxt + c := by
    rw [hsock₂]
    rfl
  have huna₂ : (σ₂.sock .client).sndUna = (σ.sock .client).sndUna := by
    rw [hsock₂]
    rfl
  rw [hrecv₁, h.used, h.rcvNxt, hlen] at hq
  have hseq : q.seg.seqNum = (σ.sock .client).sndNxt + c := by
    rw [hq.seqNum, hnxt]
  have hwindow : q.seg.window = TcpSocket.RECV_BUF_CAP - (u + c : ℕ) := by
    rw [hq.window]
    push_cast
    rfl
  -- the acknowledgement comes back
  obtain ⟨hwire₃, hends₃⟩ := step_deliver_ack hok₂ hwire₂ hq.from hq.type
    (by rw [hclient₂]; exact h.pending) (by rw [hclient₂]; exact h.registered .client)
    (by rw [hsock₂]; exact h.state .client) (by omega)
  rw [if_neg (by omega), hsock₂, hseq, hwindow] at hends₃
  obtain ⟨hclient₃, hserver₃⟩ := ends_of_update hends₃
  rw [hclient₂] at hclient₃
  have hok₃ := hok₂.step (.deliver stale.length 0)
  have hrun : run (step cfg) σ (Sys.round stale.length buf c) = σ₂.step cfg (.deliver stale.length 0) :=
    rfl
  intro σ'
  rw [show σ' = _ from hrun]
  refine ⟨hok₃, hwire₃, hclient₃, hserver₃.trans (hserver₂.trans ?_)⟩
  rw [hserver₁, hrecv₁]

/-- Afterwards `c` more bytes are in the buffer, and the client knows what room is left. -/
theorem Settled.round {k u a : ℕ} {stale : List Sent} (h : Settled cfg σ k u a stale)
    (buf : List UInt8) {c : ℕ} (hc : 0 < c) (hmax : c ≤ 107)
    (hrwnd : (c : Int) ≤ (σ.sock .client).rwnd) (hu : ((u + c : ℕ) : Int) ≤ TcpSocket.RECV_BUF_CAP)
    (ha : a ≤ 2147477815) :
    Settled cfg (run (step cfg) σ (round stale.length buf c)) (k + c) (u + c) (a + 1) stale ∧
      ((run (step cfg) σ (round stale.length buf c)).sock .client).rwnd =
        TcpSocket.RECV_BUF_CAP - (u + c : ℕ) := by
  have hlen : (Buf.slice (some buf) 0 c).length = c := Buf.slice_length _ _ _
  obtain ⟨hok, hwire, hclient, hserver⟩ := h.round_ends buf hc hmax hrwnd hu
  set σ' := run (step cfg) σ (Sys.round stale.length buf c)
  have hsock : σ'.sock .client =
      exchanged (σ.sock .client) buf c (TcpSocket.RECV_BUF_CAP - (u + c : ℕ)) :=
    congrArg End.sock hclient
  have hrecv : σ'.sock .server = stored (σ.sock .server) (Buf.slice (some buf) 0 c) :=
    congrArg End.sock hserver
  obtain ⟨hsame, huna, hnxt, hwindow⟩ := exchanged_sender (σ.sock .client) buf c
    (TcpSocket.RECV_BUF_CAP - (u + c : ℕ))
  have hgrown := grown_exchanged h.cwnd ha buf c (TcpSocket.RECV_BUF_CAP - (u + c : ℕ))
  rw [← hsock] at hsame huna hnxt hwindow hgrown
  have hnext : (σ.sock .client).sndNxt + (c : Int) = 1 + (k + c : ℕ) := by
    rw [h.sndNxt]
    push_cast
    omega
  refine ⟨h.next hok hwire ?_ (huna.trans hnext) (hnxt.trans hnext) hgrown ?_ ?_,
    hwindow.trans (max_eq_right (by omega))⟩
  · intro w
    cases w with
    | client =>
        rw [hsame.state, hclient]
        exact ⟨rfl, rfl, rfl, rfl⟩
    | server =>
        rw [hrecv, hserver]
        exact ⟨rfl, rfl, rfl, rfl⟩
  · rw [hrecv]
    show (σ.sock .server).rcvNxt + ((Buf.slice (some buf) 0 c).length : Int) = _
    rw [h.rcvNxt, hlen]
    push_cast
    omega
  · rw [hrecv]
    show (σ.sock .server).recvBufUsed + ((Buf.slice (some buf) 0 c).length : Int) = _
    rw [h.used, hlen]
    push_cast
    rfl

/-- The server reads `c` bytes and keeps others. -/
theorem Settled.read {k u a c : ℕ} {stale : List Sent} (h : Settled cfg σ k (u + c) a stale)
    (hu : 0 < u) (hc : 0 < c) :
    Settled cfg (σ.step cfg (.read .server 1 true 0 c)) k u a stale ∧
      (σ.step cfg (.read .server 1 true 0 c)).sock .client = σ.sock .client := by
  have hmem : 1 ∈ (σ.side .server).handles := of_decide_eq_true (h.held .server)
  have hop : σ.opOf cfg (.read .server 1 true 0 c) = some (.server, .read 1 true 0 c) := if_pos hmem
  have hused : (c : Int) < (σ.sock .server).recvBufUsed := by
    rw [h.used]
    push_cast
    omega
  obtain ⟨hends, hwire⟩ := act_performs (σ := σ) (Side.performs_read (h.ok.side .server) hmem
    (.inl (h.state .server)) (le_refl 0) (Int.natCast_pos.mpr hc) hused)
  have hok := h.ok.step (.read .server 1 true 0 c)
  have hstep : σ.step cfg (.read .server 1 true 0 c) = σ.act .server (.read 1 true 0 c) :=
    step_of_opOf cfg hop
  rw [hstep] at hok ⊢
  set σ' := σ.act .server (.read 1 true 0 c)
  obtain ⟨hserver, hclient⟩ := ends_of_update hends
  have hserver : σ'.ends cfg .server = _ := hserver
  have hclient : σ'.ends cfg .client = σ.ends cfg .client := hclient
  have hsock : σ'.sock .client = σ.sock .client := congrArg End.sock hclient
  have hrecv : σ'.sock .server = (σ.sock .server).taken c := congrArg End.sock hserver
  refine ⟨h.next hok (hwire.trans ((List.append_nil _).trans h.wire)) ?_ ?_ ?_ ?_ ?_ ?_, hsock⟩
  · intro w
    cases w with
    | client =>
        rw [hsock, hclient]
        exact ⟨rfl, rfl, rfl, rfl⟩
    | server =>
        rw [hrecv, hserver]
        exact ⟨rfl, rfl, rfl, rfl⟩
  · rw [hsock]
    exact h.sndUna
  · rw [hsock]
    exact h.sndNxt
  · rw [hsock]
    exact h.cwnd
  · rw [hrecv]
    exact h.rcvNxt
  · rw [hrecv]
    show (σ.sock .server).recvBufUsed - (c : Int) = _
    rw [h.used]
    push_cast
    omega

/-- The rounds that put `n` bytes into the buffer. -/
def fill (stale n : ℕ) : List Event := (List.replicate n (round stale [0] 1)).flatten

theorem Calm.fill {stale : List Sent} (h : Calm cfg σ 0 stale) {n : ℕ}
    (hn : (n : Int) ≤ TcpSocket.RECV_BUF_CAP) :
    Calm cfg (run (step cfg) σ (fill stale.length n)) n stale := by
  have hcap := TcpSocket.RECV_BUF_CAP_eq
  induction n with
  | zero => exact h
  | succ n ih =>
      have hcalm := ih (by push_cast at hn; omega)
      have hsplit : Sys.fill stale.length (n + 1) =
          Sys.fill stale.length n ++ Sys.round stale.length [0] 1 := by
        simp [Sys.fill, List.replicate_succ']
      rw [hsplit, run_append]
      have hopen : ((1 : ℕ) : Int) ≤
          ((run (step cfg) σ (Sys.fill stale.length n)).sock .client).rwnd := by
        rw [hcalm.rwnd]
        push_cast at hn ⊢
        omega
      obtain ⟨hsettled, hrwnd⟩ := hcalm.toSettled.round [0] Nat.one_pos (by decide) hopen hn (by omega)
      exact ⟨hsettled, hrwnd⟩

/-! ### A window that stays closed -/

/-- The server reads one byte out of a full buffer: it has room for one byte, nothing is on its
way, and no write is accepted. -/
theorem Calm.stuck {n : ℕ} (h : Calm cfg σ n []) (hn : (n : Int) = TcpSocket.RECV_BUF_CAP) :
    ¬ (σ.step cfg (.read .server 1 true 0 1)).Unstuck .client := by
  have hcap := TcpSocket.RECV_BUF_CAP_eq
  obtain ⟨u, rfl⟩ : ∃ u, n = u + 1 := ⟨n - 1, by omega⟩
  obtain ⟨hs, hsock⟩ : Settled cfg (σ.step cfg (.read .server 1 true 0 1)) (u + 1) u (u + 1) [] ∧
      (σ.step cfg (.read .server 1 true 0 1)).sock .client = σ.sock .client :=
    h.toSettled.read (by omega) Nat.one_pos
  have hok := hs.ok
  set σ' := σ.step cfg (.read .server 1 true 0 1)
  have hst := hs.state .client
  have hst' := hs.state .server
  have hempty := hs.wire
  have hne : (σ'.sock .client).state ≠ .CLOSED := by
    rw [hst]
    decide
  have huna : (σ'.sock .client).sndUna = (σ'.sock .client).sndNxt := hs.sndUna.trans hs.sndNxt.symm
  have hroom : 0 < (σ'.sock .server).getRecvBufAvailable := by
    unfold TcpSocket.getRecvBufAvailable
    rw [hs.used]
    push_cast at hn ⊢
    omega
  -- the window of the client is closed
  have hzero : windowRoom (σ'.sock .client) 1 = 0 := by
    have hrwnd := h.rwnd
    rw [← hsock] at hrwnd
    unfold windowRoom TcpSocket.effectiveWindow
    omega
  obtain ⟨out, _, hwrite⟩ := (σ'.side .client).man.write_ok 0
    ((σ'.side .client).man.lt_length_of_state hne) hst (by decide : (some [0] : Buf) ≠ none)
    (le_refl 0) Int.one_nonneg ((hok.side .client).shape.sendable hne)
  have hvalue : ((σ'.side .client).man.write 0 0 (some [0]) 0 1).2 =
      (windowRoom (σ'.sock .client) 1 : Int) := congrArg Prod.snd hwrite
  intro hunstuck
  have hsome : 1 ≤ ((σ'.side .client).man.write 0 0 (some [0]) 0 1).2 :=
    hunstuck hst hst' hempty ((hok.ends .client).sender.empty_iff.mpr huna) hroom 0 (some [0]) 0 1
      (by decide) le_rfl (by decide)
  omega

/-- The connection is set up and the server has accepted it. -/
def accepted : List Event := [.deliver 0 0, .deliver 0 0, .accept .server 0]

theorem calm_accepted :
    Calm exampleConfig (run (step exampleConfig) (init exampleConfig) accepted) 0 [] := by
  refine ⟨⟨ok_run _ accepted, rfl, ?_, rfl, ?_, ?_, rfl, rfl, by decide, rfl, rfl⟩, rfl⟩
  · intro w
    cases w <;> rfl
  · intro w
    cases w <;> rfl
  · intro w
    cases w <;> rfl

/-- The client fills the buffer of the server, which then reads one byte. -/
def stuckRun : List Event := accepted ++ fill 0 32768 ++ [.read .server 1 true 0 1]

theorem write_stuck_after_read :
    ¬ (run (step exampleConfig) (init exampleConfig) stuckRun).Unstuck .client := by
  have h := calm_accepted.fill (n := 32768) (by decide)
  rw [stuckRun, run_append, run_append, run_cons, run_nil]
  exact h.stuck (by decide)

/-! ### An old acknowledgement -/

/-- A copy of the SYN-ACK arrives when the buffer is full: the client sends beyond it. -/
theorem Calm.overruns {n : ℕ} {p : Sent} (h : Calm cfg σ n [p])
    (hn : (n : Int) = TcpSocket.RECV_BUF_CAP) (hp : cfg.From .server p) (hty : p.seg.type = .ACK)
    (hseq : p.seg.seqNum = 1) (hwindow : 0 < p.seg.window) :
    let σ' := (σ.step cfg (.deliver 0 0)).step cfg (.write .client 0 0 (some [0]) 0 1)
    (σ'.sock .client).state = .ESTABLISHED ∧ (σ'.sock .server).state = .ESTABLISHED ∧
      ¬ (σ'.sock .client).sndNxt ≤
        (σ'.sock .server).rcvNxt + (σ'.sock .server).getRecvBufAvailable := by
  intro σ'
  have hold : p.seg.seqNum ≤ (σ.sock .client).sndUna := by
    rw [h.sndUna, hseq]
    omega
  -- the copy sets the window
  obtain ⟨_, hends₁⟩ := step_deliver_ack h.ok (h.wire.trans (List.nil_append _).symm) hp hty
    h.pending (h.registered .client) (h.state .client)
    (by rw [h.sndNxt, ← h.sndUna]; exact hold)
  rw [if_pos hold] at hends₁
  have hok₁ := h.ok.step (.deliver 0 0)
  obtain ⟨hclient₁, hserver₁⟩ := ends_of_update hends₁
  set σ₁ := σ.step cfg (.deliver 0 0)
  have hclient₁ : σ₁.ends cfg .client = _ := hclient₁
  have hsock₁ : σ₁.sock .client = (σ.sock .client).setRwnd p.seg.window :=
    congrArg End.sock hclient₁
  have hrecv₁ : σ₁.sock .server = σ.sock .server := congrArg End.sock hserver₁
  -- the client writes one more byte
  have hrwnd₁ : ((1 : ℕ) : Int) ≤ (σ₁.sock .client).rwnd := by
    rw [hsock₁]
    exact le_max_of_le_right hwindow
  obtain ⟨_, _, _, hends₂⟩ := step_write_segment hok₁ (by rw [hclient₁]; exact h.held .client)
    (by rw [hsock₁]; exact h.state .client)
    (by rw [hsock₁]; exact h.sndUna.trans h.sndNxt.symm) (by rw [hsock₁]; exact h.cwnd.1) [0]
    Nat.one_pos (by decide) hrwnd₁
  obtain ⟨hclient₂, hserver₂⟩ := ends_of_update hends₂
  have hsock₂ : σ'.sock .client = written (σ₁.sock .client) 0 (some [0]) 0 1 :=
    congrArg End.sock hclient₂
  have hrecv₂ : σ'.sock .server = σ.sock .server := (congrArg End.sock hserver₂).trans hrecv₁
  refine ⟨?_, ?_, ?_⟩
  · rw [hsock₂, hsock₁]
    exact h.state .client
  · rw [hrecv₂]
    exact h.state .server
  · have hnxt : (σ'.sock .client).sndNxt = (σ.sock .client).sndNxt + 1 := by
      rw [hsock₂, hsock₁]
      rfl
    have hroom : (σ.sock .server).getRecvBufAvailable = 0 := by
      unfold TcpSocket.getRecvBufAvailable
      rw [h.used]
      omega
    rw [hnxt, hrecv₂, hroom, h.sndNxt, h.rcvNxt]
    omega

/-- The SYN-ACK is duplicated, and one copy stays on the wire. -/
def copiedSynAck : List Event := [.deliver 0 0, .duplicate 0, .deliver 0 0, .accept .server 0]

def staleSynAck : Sent := ⟨2, 1, ⟨80, 5, .ACK, 32768, 1, [], Host.legal_from80⟩⟩

theorem calm_copiedSynAck :
    Calm exampleConfig (run (step exampleConfig) (init exampleConfig) copiedSynAck) 0
      [staleSynAck] := by
  refine ⟨⟨ok_run _ copiedSynAck, rfl, ?_, rfl, ?_, ?_, rfl, rfl, by decide, rfl, rfl⟩, rfl⟩
  · intro w
    cases w <;> rfl
  · intro w
    cases w <;> rfl
  · intro w
    cases w <;> rfl

/-- The client fills the buffer of the server; then the copy arrives, and the client writes one
more byte. -/
def overrun : List Event :=
  copiedSynAck ++ fill 1 32768 ++ [.deliver 0 0, .write .client 0 0 (some [0]) 0 1]

theorem old_ack_overruns_buffer :
    let σ := run (step exampleConfig) (init exampleConfig) overrun
    (σ.sock .client).state = .ESTABLISHED ∧ (σ.sock .server).state = .ESTABLISHED ∧
      ¬ (σ.sock .client).sndNxt ≤
        (σ.sock .server).rcvNxt + (σ.sock .server).getRecvBufAvailable := by
  have h := calm_copiedSynAck.fill (n := 32768) (by decide)
  rw [overrun, run_append, run_append, run_cons, run_cons, run_nil]
  exact h.overruns (by decide) ⟨rfl, rfl, rfl, rfl⟩ rfl rfl (by decide)

end Sys

end NetBridge
