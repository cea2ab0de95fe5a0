import NetBridge.Closing

/-! # Flow control

The window that a receiver advertises travels on its acknowledgements only.

* `read` frees space without sending anything, so a sender that has seen a full buffer may wait for
  a window that never comes.  As long as no byte is read out of a full buffer this does not happen,
  unless so many acknowledgements come that `cwnd_` overflows (`write_not_stuck`).
* An acknowledgement sets the window of the sender whatever its age.  As long as no old one enlarges
  it, the sender stays within the buffer of the receiver (`window_respected`).

`Filling.lean` has runs that read out of a full buffer and that receive an old acknowledgement. -/

namespace NetBridge

open TcpManager (written timedOut stored advanced finQueued windowRoom)

/-! ### What an act does to the windows -/

section acts
variable {cfg : Config} {w : Party} {x x' : End} {op : Op} {out : List Sent}

theorem Act.window_eq (hact : Act cfg w x op x' out) :
    ∀ p ∈ out, p.seg.type = .ACK → p.seg.window = x'.sock.getRecvBufAvailable := by
  intro p hp hty
  cases hact with
  | idle | read | readEnd | accept | acceptClosed | closePending | shutdown | window | advance |
    finAcked | establish | establishClosed | refused => cases hp
  | write hheld hst hpos hout =>
      obtain ⟨seg, _, hseg⟩ := exists_mem_of_forall₂ hout hp
      rw [hseg.type] at hty
      cases hty
  | shutdownFin hi hheld hst hempty hq =>
      rw [List.mem_singleton.mp hp, hq.type] at hty
      cases hty
  | timeout hout =>
      obtain ⟨seg, _, hseg⟩ := hout p hp
      rw [hseg.type] at hty
      cases hty
  | advanceFin hty' hst hlt hle hempty hq =>
      rw [List.mem_singleton.mp hp, hq.type] at hty
      cases hty
  | answer hty' hst hout => exact (hout p hp).window
  | store hty' hst hseq hne hroom hout => exact (hout p hp).window
  | peerFin hty' hreg hout => exact (hout p hp).window
  | born hty' hw hs hheld hout => exact (hout p hp).window

/-- Only an acknowledgement changes the window of the sender. -/
theorem Act.rwnd_cases (hact : Act cfg w x op x' out) :
    x'.sock.rwnd = x.sock.rwnd ∨
      ∃ now srcAddr ack, op = .receive now srcAddr ack ∧ ack.type = .ACK ∧
        x'.sock.rwnd = max 0 ack.window := by
  cases hact with
  | window hty hst hle hold => exact .inr ⟨_, _, _, rfl, hty, rfl⟩
  | advance hty hst hlt hle =>
      exact .inr ⟨_, _, _, rfl, hty, (advanced_sender _ _ _).2.2.2.1⟩
  | advanceFin hty hst hlt hle hempty hp =>
      exact .inr ⟨_, _, _, rfl, hty, (advanced_sender _ _ _).2.2.2.1⟩
  | establish hty hpend hst hack =>
      refine .inr ⟨_, _, _, rfl, hty, ?_⟩
      unfold TcpSocket.markEstablished
      split_ifs <;> rfl
  | establishClosed hty hpend hst hack => exact .inr ⟨_, _, _, rfl, hty, rfl⟩
  | born hty hw hs hheld hout =>
      left
      rw [hs]
      rfl
  | idle | write | read | readEnd | accept | acceptClosed | closePending | shutdown | shutdownFin |
    timeout | finAcked | refused | answer | store | peerFin => exact .inl rfl

/-- Only a `read` frees space. -/
theorem Act.available_cases (hact : Act cfg w x op x' out) :
    x'.sock.getRecvBufAvailable ≤ x.sock.getRecvBufAvailable ∨
      ∃ buf pos len, op = .read w.conn buf pos len ∧ x.sock.Live ∧
        (x.sock.recvBufUsed = 0 ∨ 0 < len) := by
  cases hact with
  | read hi hheld hst hlen hused => exact .inr ⟨_, _, _, by rw [hi], hst, .inr hlen⟩
  | readEnd hi hheld hends hany => exact .inr ⟨_, _, _, by rw [hi], hends.1, hany⟩
  | advance hty hst hlt hle =>
      left
      unfold TcpSocket.getRecvBufAvailable
      rw [(advanced_receiver _ _ _).2.1]
      exact le_rfl
  | advanceFin hty hst hlt hle hempty hp =>
      left
      show TcpSocket.RECV_BUF_CAP - (advanced _ _ _).recvBufUsed ≤ _
      rw [(advanced_receiver _ _ _).2.1]
      exact le_rfl
  | establish hty hpend hst hack =>
      left
      unfold TcpSocket.markEstablished
      split_ifs <;> exact le_rfl
  | @store now srcAddr data out hty hst hseq hne hroom hout =>
      left
      show TcpSocket.RECV_BUF_CAP - (x.sock.recvBufUsed + (data.payload.length : Int)) ≤
        TcpSocket.RECV_BUF_CAP - x.sock.recvBufUsed
      omega
  | born hty hw hs hheld hout =>
      left
      rw [hs]
      exact le_rfl
  | idle | write | accept | acceptClosed | closePending | shutdown | shutdownFin | timeout | window |
    finAcked | establishClosed | refused | answer | peerFin => exact .inl le_rfl

/-- A FIN is sent once. -/
theorem Act.finSeq_eq (hact : Act cfg w x op x' out) (hok : EndOk w x) (hfin : 0 ≤ x.sock.finSeq) :
    x'.sock.finSeq = x.sock.finSeq := by
  cases hact with
  | shutdownFin hi hheld hst hempty hp =>
      exact absurd (hok.finSeq_neg hst) (not_lt.mpr hfin)
  | advance hty hst hlt hle => exact (advanced_receiver _ _ _).2.2.2.1
  | advanceFin hty hst hlt hle hempty hp =>
      exact absurd (hok.finSeq_neg_of_lt (by omega)) (not_lt.mpr hfin)
  | establish hty hpend hst hack =>
      unfold TcpSocket.markEstablished
      split_ifs <;> rfl
  | born hty hw hs hheld hout =>
      rw [hs]
      rfl
  | idle | write | read | readEnd | accept | acceptClosed | closePending | shutdown | timeout |
    window | finAcked | establishClosed | refused | answer | store | peerFin => rfl

/-- No acknowledgement of new data finds `cwnd_` at the largest `int`. -/
def SparesCwnd (x : End) : Op → Prop
  | .receive _ _ t => t.type = .ACK → x.sock.CwndFits t.seqNum
  | _ => True

instance (x : End) : ∀ op, Decidable (SparesCwnd x op)
  | .receive _ _ t => inferInstanceAs (Decidable (t.type = .ACK → x.sock.CwndFits t.seqNum))
  | .socket | .bind .. | .listen .. | .accept _ | .connect .. | .close _ | .release _ | .write .. |
    .read .. | .tick _ => inferInstanceAs (Decidable True)

theorem Act.min_le_cwnd (hact : Act cfg w x op x' out) (hok : EndOk w x) (hop : SparesCwnd x op)
    (h : TcpSocket.CWND_MIN_BYTES ≤ x.sock.cwnd) : TcpSocket.CWND_MIN_BYTES ≤ x'.sock.cwnd := by
  have hgrows : ∀ (now : Int) {srcAddr : Int} {ack : Transport}, op = .receive now srcAddr ack →
      ack.type = .ACK → x.sock.Live → x.sock.sndUna < ack.seqNum → ack.seqNum ≤ x.sock.sndNxt →
      TcpSocket.CWND_MIN_BYTES ≤ (advanced (x.sock.setRwnd ack.window) now ack.seqNum).cwnd := by
    intro now srcAddr ack e hty hst hlt hle
    subst e
    have hfin := hok.finSeq_neg_of_lt (hlt.trans_le hle)
    have hfits := hop hty ⟨hst, fun hf => absurd hf.2.1 (not_le.mpr hfin), hlt, hle⟩
    rw [(advanced_sender _ _ _).2.2.2.2]
    exact (TcpSocket.min_le_wrap32_iff h (by omega)).mpr hfits
  cases hact with
  | advance hty hst hlt hle => exact hgrows _ rfl hty hst hlt hle
  | advanceFin hty hst hlt hle hempty hp => exact hgrows _ rfl hty (.inr hst) hlt hle
  | timeout hout => exact le_max_left _ _
  | establish hty hpend hst hack =>
      rw [x.sock.markEstablished_of_synSent _ hst]
      exact le_rfl
  | born hty hw hs hheld hout => exact le_rfl
  | idle | write | read | readEnd | accept | acceptClosed | closePending | shutdown | shutdownFin |
    window | finAcked | establishClosed | refused | answer | store | peerFin => exact h

theorem Act.min_le_cwnd_update {v : Party} {x : Party → End} {x' : End}
    (hact : Act cfg v (x v) op x' out) (hok : EndOk v (x v)) (hop : v = w → SparesCwnd (x v) op)
    (h : TcpSocket.CWND_MIN_BYTES ≤ (x w).sock.cwnd) :
    TcpSocket.CWND_MIN_BYTES ≤ (Function.update x v x' w).sock.cwnd := by
  obtain rfl | hne := eq_or_ne v w
  · rw [Function.update_self]
    exact hact.min_le_cwnd hok (hop rfl) h
  · rw [Function.update_of_ne (Ne.symm hne)]
    exact h

end acts

/-! ### The window does not stay closed -/

/-- No `read` takes bytes out of a full buffer. -/
def SparesFull (x : End) (w : Party) : Op → Prop
  | .read i _ _ len => i = w.conn → x.sock.Live → 0 < len → x.sock.getRecvBufAvailable ≠ 0
  | _ => True

instance (x : End) (w : Party) : ∀ op, Decidable (SparesFull x w op)
  | .read i _ _ len => inferInstanceAs (Decidable
      (i = w.conn → x.sock.Live → 0 < len → x.sock.getRecvBufAvailable ≠ 0))
  | .socket | .bind .. | .listen .. | .accept _ | .connect .. | .close _ | .release _ | .write .. |
    .receive .. | .tick _ => inferInstanceAs (Decidable True)

/-- The receiver is full, or neither the sender nor an acknowledgement on its way says so. -/
def WindowOpen (cfg : Config) (w : Party) (x : Party → End) (wire : List Sent) : Prop :=
  (x w.other).sock.getRecvBufAvailable = 0 ∨
    0 < (x w).sock.rwnd ∧
      ∀ p ∈ wire, cfg.From w.other p → p.seg.type = .ACK → 0 < p.seg.window

theorem WindowOpen.act {cfg : Config} {w : Party} {x : Party → End} {wire : List Sent} {v : Party}
    {op : Op} {x' : End} {out : List Sent} (hok' : EndOk v x')
    (h : WindowOpen cfg w x wire) (hact : Act cfg v (x v) op x' out)
    (harr : Sys.Arrival cfg (WindowOpen cfg w) x wire v op)
    (hop : v = w.other → SparesFull (x v) v op) :
    WindowOpen cfg w (Function.update x v x') (wire ++ out) := by
  obtain rfl | rfl := w.eq_or_eq_other v
  · -- the sender acts
    rw [WindowOpen, Function.update_self, Function.update_of_ne v.other_ne]
    obtain h | ⟨hrwnd, hacks⟩ := h
    · exact .inl h
    · by_cases hfull : (x v.other).sock.getRecvBufAvailable = 0
      · exact .inl hfull
      · refine .inr ⟨?_, fun p hp hfrom hty => ?_⟩
        · obtain e | ⟨now, srcAddr, ack, rfl, hty, e⟩ := hact.rwnd_cases
          · rw [e]
            exact hrwnd
          · obtain ⟨p, rfl, hfrom, _, hp⟩ := harr now srcAddr ack rfl
            have hpos := (hp.resolve_left hfull).2 p List.mem_cons_self hfrom hty
            omega
        · obtain hp | hp := List.mem_append.mp hp
          · exact hacks p hp hfrom hty
          · exact absurd ((hact.sends p hp).1.unique hfrom) (Ne.symm v.other_ne)
  · -- the receiver acts
    rw [WindowOpen, Function.update_self, Function.update_of_ne (Ne.symm w.other_ne)]
    by_cases hfull : x'.sock.getRecvBufAvailable = 0
    · exact .inl hfull
    · have hpos : 0 < x'.sock.getRecvBufAvailable := by
        have hcap := hok'.cap
        unfold TcpSocket.getRecvBufAvailable at hfull ⊢
        omega
      have hwas : (x w.other).sock.getRecvBufAvailable ≠ 0 := by
        obtain hle | ⟨buf, pos, len, rfl, hlive, hany⟩ := hact.available_cases
        · omega
        · obtain hempty | hlen := hany
          · unfold TcpSocket.getRecvBufAvailable
            rw [hempty]
            decide
          · exact hop rfl rfl hlive hlen
      obtain ⟨hrwnd, hacks⟩ := h.resolve_left hwas
      refine .inr ⟨hrwnd, fun p hp hfrom hty => ?_⟩
      obtain hp | hp := List.mem_append.mp hp
      · exact hacks p hp hfrom hty
      · rw [hact.window_eq p hp hty]
        exact hpos

namespace Sys

/-- A write accepts something once nothing is on its way and the receiver has room. -/
def Unstuck (σ : Sys) (w : Party) : Prop :=
  (σ.sock w).state = .ESTABLISHED → (σ.sock w.other).state = .ESTABLISHED → σ.wire = [] →
    (σ.sock w).outstanding = [] → 0 < (σ.sock w.other).getRecvBufAvailable →
    ∀ now buf pos len, buf ≠ none → 0 ≤ pos → 0 < len →
      1 ≤ ((σ.side w).man.write now w.conn buf pos len).2

/-- **No zero-window deadlock**, in runs in which no byte is read out of a full buffer and the
congestion window of the sender does not overflow. -/
theorem write_not_stuck (cfg : Config) (w : Party) (es : List Event)
    (hes : Guarded (step cfg) (Respects cfg fun x v op =>
      (v = w.other → SparesFull (x v) v op) ∧ (v = w → SparesCwnd (x v) op)) (init cfg) es) :
    (run (step cfg) (init cfg) es).Unstuck w := by
  intro hst _ _ hout hroom now buf pos len hbuf hpos hlen
  have hok := ok_run cfg es
  have hsock : ((init cfg).ends cfg w).sock = openSocket cfg w := openedMan_conn cfg w
  have hinit : WindowOpen cfg w ((init cfg).ends cfg) (init cfg).wire := by
    obtain ⟨q, hq, hwire⟩ := init_wire cfg
    refine .inr ⟨?_, fun p hp _ hty => ?_⟩
    · rw [hsock]
      cases w <;> exact (by decide : (0 : Int) < TcpSocket.RECV_BUF_CAP)
    · rw [hwire] at hp
      rw [List.mem_singleton.mp hp, hq.type] at hty
      cases hty
  have hinitCwnd : TcpSocket.CWND_MIN_BYTES ≤ ((init cfg).ends cfg w).sock.cwnd := by
    rw [hsock]
    cases w <;> exact le_rfl
  obtain ⟨hopen, hcwnd⟩ := ends_rule
    (I := fun x wire => WindowOpen cfg w x wire ∧ TcpSocket.CWND_MIN_BYTES ≤ (x w).sock.cwnd)
    (G := fun x v op => (v = w.other → SparesFull (x v) v op) ∧ (v = w → SparesCwnd (x v) op))
    (fun _ _ _ h hsub => ⟨h.1.imp_right fun h => ⟨h.1, fun p hp => h.2 p (hsub p hp)⟩, h.2⟩)
    (fun x wire v op x' out hok hok' h hact harr hop =>
      ⟨h.1.act hok' hact (harr.imp fun _ _ h => h.1) hop.1,
        hact.min_le_cwnd_update (hok v) hop.2 h.2⟩) ⟨hinit, hinitCwnd⟩ hes
  set σ := run (step cfg) (init cfg) es
  have hne : (σ.sock w).state ≠ .CLOSED := by
    rw [hst]
    decide
  have hsender : SenderOk (σ.sock w) := (hok.ends w).sender
  have hlt := (σ.side w).man.lt_length_of_state hne
  obtain ⟨out, _, hwrite⟩ := (σ.side w).man.write_ok now hlt hst hbuf hpos hlen.le
    ((hok.side w).shape.sendable hne)
  rw [hwrite]
  -- nothing is unacknowledged, so the whole window is free
  have hfree := hsender.empty_iff.mp hout
  have hrwnd : 0 < (σ.sock w).rwnd := (hopen.resolve_left (Int.ne_of_gt hroom)).1
  have hcwnd : TcpSocket.CWND_MIN_BYTES ≤ (σ.sock w).cwnd := hcwnd
  rw [TcpSocket.CWND_MIN_BYTES_eq] at hcwnd
  have hone : 1 ≤ windowRoom (σ.sock w) len := by
    unfold windowRoom TcpSocket.effectiveWindow
    omega
  exact Int.ofNat_le.mpr hone

/-- The connection is set up and three bytes have arrived. -/
def threeArrived : List Event :=
  [.deliver 0 0, .deliver 0 0, .write .client 10 0 (some [7, 8, 9]) 0 3, .deliver 0 20,
    .deliver 0 30]

theorem write_not_stuck_three_bytes :
    1 ≤ (((run (step exampleConfig) (init exampleConfig) threeArrived).side .client).man.write 40 0
      (some [1]) 0 1).2 :=
  write_not_stuck exampleConfig .client threeArrived (by decide) (by decide) (by decide) (by decide)
    (by decide) (by decide) 40 (some [1]) 0 1 (by decide) (by decide) (by decide)

end Sys

/-! ### The sender stays within the buffer of the receiver -/

/-- No old acknowledgement enlarges the window. -/
def SparesWindow (x : End) : Op → Prop
  | .receive _ _ t =>
      t.type = .ACK → x.sock.Live → t.seqNum < x.sock.sndUna → t.window ≤ x.sock.rwnd
  | _ => True

instance (x : End) : ∀ op, Decidable (SparesWindow x op)
  | .receive _ _ t => inferInstanceAs (Decidable
      (t.type = .ACK → x.sock.Live → t.seqNum < x.sock.sndUna → t.window ≤ x.sock.rwnd))
  | .socket | .bind .. | .listen .. | .accept _ | .connect .. | .close _ | .release _ | .write .. |
    .read .. | .tick _ => inferInstanceAs (Decidable True)

/-- The sequence number up to which the receiver has room, once it has been connected. -/
def End.edge (x : End) : Int := 1 + x.readOut.length + TcpSocket.RECV_BUF_CAP

theorem Started.edge_eq {w : Party} {x : End} (hs : Started x) (hok : EndOk w x) :
    x.sock.rcvNxt + x.sock.getRecvBufAvailable = x.edge := by
  have hused := hok.used
  have hrcv := hs.rcvNxt
  rw [End.received, List.length_append] at hrcv
  unfold TcpSocket.getRecvBufAvailable End.edge
  push_cast at hrcv
  omega

theorem Act.edge_le {cfg : Config} {w : Party} {x x' : End} {op : Op} {out : List Sent}
    (hact : Act cfg w x op x' out) : x.edge ≤ x'.edge := by
  have hmore : ∀ bytes : List UInt8, x.edge ≤
      1 + ((x.readOut ++ bytes).length : Int) + TcpSocket.RECV_BUF_CAP := by
    intro bytes
    rw [List.length_append]
    unfold End.edge
    omega
  cases hact with
  | read => exact hmore _
  | readEnd => exact hmore _
  | idle | write | accept | acceptClosed | closePending | shutdown | shutdownFin | timeout | window |
    advance | advanceFin | finAcked | establish | establishClosed | refused | answer | store |
    peerFin | born => exact le_rfl

/-- The window of the sender and every acknowledgement on its way end within the edge. -/
structure WithinEdge (cfg : Config) (w : Party) (x : Party → End) (wire : List Sent) : Prop where
  window : (x w).sock.sndUna + (x w).sock.rwnd ≤ (x w.other).edge
  sndNxt : (x w).sock.sndNxt ≤ (x w.other).edge
  acks : ∀ p ∈ wire, cfg.From w.other p → p.seg.type = .ACK →
    p.seg.seqNum + p.seg.window ≤ (x w.other).edge ∨
      0 ≤ (x w).sock.finSeq ∧ p.seg.seqNum = (x w).sock.finSeq + 1

namespace WithinEdge

variable {cfg : Config} {w : Party} {x : Party → End} {wire : List Sent} {op : Op} {x' : End}
  {out : List Sent}

theorem bounds (h : WithinEdge cfg w x wire) (hok : EndOk w (x w))
    (hact : Act cfg w (x w) op x' out)
    (harr : ∀ now srcAddr t, op = .receive now srcAddr t → t.type = .ACK →
      t.seqNum + t.window ≤ (x w.other).edge ∨
        0 ≤ (x w).sock.finSeq ∧ t.seqNum = (x w).sock.finSeq + 1)
    (hop : SparesWindow (x w) op) :
    x'.sock.sndUna + x'.sock.rwnd ≤ (x w.other).edge ∧ x'.sock.sndNxt ≤ (x w.other).edge := by
  have hwin := h.window
  have hnxt := h.sndNxt
  have hle := hok.sender.sndUna_le
  have hrwnd := hok.sender.rwnd
  -- an acknowledgement within `sndNxt_` is not that of the FIN
  have hack : ∀ now srcAddr t, op = .receive now srcAddr t → t.type = .ACK →
      t.seqNum ≤ (x w).sock.sndNxt → t.seqNum + t.window ≤ (x w.other).edge := by
    intro now srcAddr t e hty hle
    obtain hedge | ⟨h0, hseq⟩ := harr now srcAddr t e hty
    · exact hedge
    · have := (hok.fin h0).1
      omega
  have hone : 1 + TcpSocket.RECV_BUF_CAP ≤ (x w.other).edge := by
    unfold End.edge
    omega
  have hcap := TcpSocket.RECV_BUF_CAP_eq
  cases hact with
  | @write now i buf pos len out hheld hst hpos hout =>
      refine ⟨hwin, ?_⟩
      show (x w).sock.sndNxt + ((windowRoom (x w).sock len : ℕ) : Int) ≤ _
      have hroom : ((windowRoom (x w).sock len : ℕ) : Int) ≤
          max 0 ((x w).sock.rwnd - ((x w).sock.sndNxt - (x w).sock.sndUna)) := by
        unfold windowRoom TcpSocket.effectiveWindow
        omega
      omega
  | @window now srcAddr ack hty hst hle' hold =>
      have hedge := hack _ _ _ rfl hty hle'
      have hold' := hop hty hst
      refine ⟨?_, hnxt⟩
      show (x w).sock.sndUna + max 0 ack.window ≤ _
      omega
  | @advance now srcAddr ack hty hst hlt hle' =>
      have hedge := hack _ _ _ rfl hty hle'
      obtain ⟨_, huna, hnxt', hrwnd', _⟩ :=
        advanced_sender ((x w).sock.setRwnd ack.window) now ack.seqNum
      constructor
      · show (advanced _ _ _).sndUna + (advanced _ _ _).rwnd ≤ _
        rw [huna, hrwnd']
        show ack.seqNum + max 0 ack.window ≤ _
        omega
      · exact hnxt'.le.trans hnxt
  | @advanceFin now srcAddr ack p hty hst hlt hle' hempty hp =>
      have hedge := hack _ _ _ rfl hty hle'
      obtain ⟨_, huna, hnxt', hrwnd', _⟩ :=
        advanced_sender ((x w).sock.setRwnd ack.window) now ack.seqNum
      constructor
      · show (advanced _ _ _).sndUna + (advanced _ _ _).rwnd ≤ _
        rw [huna, hrwnd']
        show ack.seqNum + max 0 ack.window ≤ _
        omega
      · exact hnxt'.le.trans hnxt
  | @establish now srcAddr ack hty hpend hst hseq =>
      have hf := hok.fresh_of_pending hpend
      have hsyn := hok.syn (hok.pending hpend)
      have hedge : ack.seqNum + ack.window ≤ (x w.other).edge :=
        (harr _ _ _ rfl hty).resolve_right fun h0 => absurd hf.finSeq (not_lt.mpr h0.1)
      have e := (x w).sock.markEstablished_of_synSent ack.window hst
      rw [e]
      constructor
      · show 1 + max 0 ack.window ≤ _
        omega
      · show (1 : Int) ≤ _
        omega
  | @establishClosed now srcAddr ack hty hpend hst hseq =>
      have hf := hok.fresh_of_pending hpend
      have hsyn := hok.syn (hok.pending hpend)
      have huna := hf.sndUna
      have hedge : ack.seqNum + ack.window ≤ (x w.other).edge :=
        (harr _ _ _ rfl hty).resolve_right fun h0 => absurd hf.finSeq (not_lt.mpr h0.1)
      refine ⟨?_, hnxt⟩
      show (x w).sock.sndUna + max 0 ack.window ≤ _
      omega
  | born hty hw hs hheld hout =>
      refine ⟨hone, ?_⟩
      show (1 : Int) ≤ _
      omega
  | idle | read | readEnd | accept | acceptClosed | closePending | shutdown | shutdownFin | timeout |
    finAcked | refused | answer | store | peerFin => exact ⟨hwin, hnxt⟩

theorem answers (hok' : EndOk w.other x')
    (hact : Act cfg w.other (x w.other) op x' out)
    (harr : ∀ now srcAddr t, op = .receive now srcAddr t →
      (t.type = .SYN → t.seqNum = 0) ∧
      (t.type = .FIN → 0 ≤ (x w).sock.finSeq ∧ t.seqNum = (x w).sock.finSeq)) :
    ∀ p ∈ out, p.seg.type = .ACK → p.seg.seqNum + p.seg.window ≤ x'.edge ∨
      0 ≤ (x w).sock.finSeq ∧ p.seg.seqNum = (x w).sock.finSeq + 1 := by
  intro p hp hty
  have hwindow := hact.window_eq p hp hty
  cases hact with
  | idle | read | readEnd | accept | acceptClosed | closePending | shutdown | window | advance |
    finAcked | establish | establishClosed | refused => cases hp
  | write hheld hst hpos hout =>
      obtain ⟨seg, _, hseg⟩ := exists_mem_of_forall₂ hout hp
      rw [hseg.type] at hty
      cases hty
  | shutdownFin hi hheld hst hempty hq =>
      rw [List.mem_singleton.mp hp, hq.type] at hty
      cases hty
  | timeout hout =>
      obtain ⟨seg, _, hseg⟩ := hout p hp
      rw [hseg.type] at hty
      cases hty
  | advanceFin hty' hst hlt hle hempty hq =>
      rw [List.mem_singleton.mp hp, hq.type] at hty
      cases hty
  | answer hty' hst hout =>
      left
      rw [(hout p hp).seqNum, hwindow, (hok'.started hst).edge_eq hok']
  | store hty' hst hseq hne hroom hout =>
      left
      rw [(hout p hp).seqNum, hwindow]
      exact ((hok'.started hst).edge_eq hok').le
  | peerFin hty' hreg hout =>
      obtain ⟨h0, hseq⟩ := (harr _ _ _ rfl).2 hty'
      right
      rw [(hout p hp).seqNum, hseq]
      exact ⟨h0, rfl⟩
  | born hty' hw hs hheld hout =>
      left
      have h0 := (harr _ _ _ rfl).1 hty'
      rw [(hout p hp).seqNum, (hout p hp).window, h0]
      unfold End.edge
      omega

theorem act {v : Party} (h : WithinEdge cfg w x wire) (hok : ∀ v, EndOk v (x v)) (hok' : EndOk v x')
    (hact : Act cfg v (x v) op x' out)
    (harr : Sys.Arrival cfg
      (fun x wire => (∃ c, Link cfg w x wire c) ∧ WithinEdge cfg w x wire) x wire v op)
    (hop : v = w → SparesWindow (x v) op) :
    WithinEdge cfg w (Function.update x v x') (wire ++ out) := by
  have hfrom := fun p hp => (hact.sends p hp).1
  obtain rfl | rfl := w.eq_or_eq_other v
  · have hself : Function.update x v x' v = x' := Function.update_self _ _ _
    have hother : Function.update x v x' v.other = x v.other := Function.update_of_ne v.other_ne _ _
    have hb := h.bounds (hok v) hact (fun now srcAddr t e hty => by
      obtain ⟨p, rfl, hp, _, _, hI⟩ := harr now srcAddr t e
      exact hI.acks p List.mem_cons_self hp hty) (hop rfl)
    refine ⟨?_, ?_, ?_⟩
    · rw [hself, hother]
      exact hb.1
    · rw [hself, hother]
      exact hb.2
    · intro p hp hr hty
      rw [hself, hother]
      obtain hp | hp := List.mem_append.mp hp
      · refine (h.acks p hp hr hty).imp_right fun h0 => ?_
        rw [hact.finSeq_eq (hok v) h0.1]
        exact h0
      · exact absurd ((hfrom p hp).unique hr) (Ne.symm v.other_ne)
  · have hself : Function.update x w.other x' w.other = x' := Function.update_self _ _ _
    have hw : Function.update x w.other x' w = x w := Function.update_of_ne (Ne.symm w.other_ne) _ _
    have hedge := hact.edge_le
    refine ⟨?_, ?_, ?_⟩
    · rw [hself, hw]
      exact h.window.trans hedge
    · rw [hself, hw]
      exact h.sndNxt.trans hedge
    · intro p hp hr hty
      rw [hself, hw]
      obtain hp | hp := List.mem_append.mp hp
      · exact (h.acks p hp hr hty).imp_left fun hle => hle.trans hedge
      · refine answers hok' hact ?_ p hp hty
        intro now srcAddr t e
        obtain ⟨q, rfl, hq, hsyn, ⟨c, hlink⟩, _⟩ := harr now srcAddr t e
        rw [Party.other_other] at hq
        exact ⟨hsyn, hlink.fins q List.mem_cons_self hq⟩

end WithinEdge

namespace Sys

/-- **Flow control**, in runs in which no old acknowledgement enlarges the window: the sender stays
within the buffer of the receiver, and no segment that is next in order is discarded. -/
theorem window_respected (cfg : Config) (w : Party) (es : List Event)
    (hes : Guarded (step cfg) (Respects cfg fun x v op => v = w → SparesWindow (x v) op)
      (init cfg) es) :
    let σ := run (step cfg) (init cfg) es
    (σ.sock w.other).Live →
      (σ.sock w).sndNxt ≤ (σ.sock w.other).rcvNxt + (σ.sock w.other).getRecvBufAvailable ∧
      ∀ p ∈ σ.wire, p.dest = cfg.addr w.other → p.seg.type = .DATA →
        p.seg.seqNum = (σ.sock w.other).rcvNxt →
        (p.seg.payload.length : Int) ≤ (σ.sock w.other).getRecvBufAvailable := by
  intro σ hlive
  have hok := ok_run cfg es
  have hinit : WithinEdge cfg w ((init cfg).ends cfg) (init cfg).wire := by
    obtain ⟨q, hq, hwire⟩ := init_wire cfg
    have hsock : ((init cfg).ends cfg w).sock = openSocket cfg w := openedMan_conn cfg w
    have hedge : ((init cfg).ends cfg w.other).edge = 1 + 0 + TcpSocket.RECV_BUF_CAP := rfl
    have hcap := TcpSocket.RECV_BUF_CAP_eq
    refine ⟨?_, ?_, fun p hp _ hty => ?_⟩
    · rw [hsock, hedge]
      cases w <;> exact (by decide : (0 : Int) + TcpSocket.RECV_BUF_CAP ≤ 1 + 0 + TcpSocket.RECV_BUF_CAP)
    · rw [(init_fresh cfg w).sndNxt, hedge]
      omega
    · rw [hwire] at hp
      rw [List.mem_singleton.mp hp, hq.type] at hty
      cases hty
  obtain ⟨⟨c, hlink⟩, hwithin⟩ := ends_rule
    (I := fun x wire => (∃ c, Link cfg w x wire c) ∧ WithinEdge cfg w x wire)
    (G := fun x v op => v = w → SparesWindow (x v) op)
    (fun x wire wire' h hsub => ⟨h.1.imp fun c hl => hl.subset hsub, h.2.window, h.2.sndNxt,
      fun p hp => h.2.acks p (hsub p hp)⟩)
    (fun x wire v op x' out hok hok' h hact harr hop =>
      ⟨link_act w x wire v op x' out hok h.1 hact (harr.imp fun _ _ h => h.1),
        h.2.act hok hok' hact harr hop⟩)
    ⟨⟨_, init_link cfg w⟩, hinit⟩ hes
  have hedge := ((hok.ends w.other).started hlive).edge_eq (hok.ends w.other)
  have hnxt : (σ.sock w).sndNxt ≤
      (σ.sock w.other).rcvNxt + (σ.sock w.other).getRecvBufAvailable :=
    hwithin.sndNxt.trans hedge.ge
  refine ⟨hnxt, fun p hp hdest hty hseq => ?_⟩
  obtain ⟨v, hv⟩ := hok.wire p hp
  have hfrom := hv.of_dest hdest
  rw [Party.other_other] at hfrom
  obtain ⟨off, hoff, hmem⟩ := hlink.data p hp hfrom hty
  have hslice := ((Channel.good_of_reachable hlink.reachable).pieces off _ hmem).length_le
  rw [hlink.written] at hslice
  -- a segment on its way is part of what has been written
  have hwritten : 1 + ((σ.side w).written.length : Int) ≤ max 1 (σ.sock w).sndNxt := by
    obtain hf | hs := (hok.ends w).phase
    · have hnil : (σ.side w).written = [] := hf.written
      rw [hnil]
      exact le_max_left _ _
    · exact hs.sndNxt.ge.trans (le_max_right _ _)
  have hslice : off + p.seg.payload.length ≤ (σ.side w).written.length := hslice
  have hrcv : 1 ≤ (σ.sock w.other).rcvNxt := by
    have hrcv : (σ.sock w.other).rcvNxt = 1 + ((σ.ends cfg w.other).received.length : Int) :=
      ((hok.ends w.other).started hlive).rcvNxt
    omega
  have hcap : (σ.sock w.other).recvBufUsed ≤ TcpSocket.RECV_BUF_CAP := (hok.ends w.other).cap
  unfold TcpSocket.getRecvBufAvailable at hnxt ⊢
  omega

theorem window_respected_three_bytes :
    let σ := run (step exampleConfig) (init exampleConfig) threeBytesRun
    (σ.sock .client).sndNxt ≤ (σ.sock .server).rcvNxt + (σ.sock .server).getRecvBufAvailable :=
  (window_respected exampleConfig .client threeBytesRun (by decide) (by decide)).1

end Sys

end NetBridge
