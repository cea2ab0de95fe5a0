import NetBridge.Ends
import NetBridge.GoBackN

/-! # Reliable delivery

Each direction of the connection is a go-back-N channel: `Link` relates the two ends and the wire
to a reachable `Channel`, and `link_run` says that every run of the system has such a channel.
What the receiver holds, which acknowledgements can arrive and what the FIN stands for is then read
off the channel. -/

namespace NetBridge

open TcpManager (written timedOut stored advanced finQueued)

/-! ### The pieces of a write -/

theorem chunks_slice (now : Int) (buf : Buf) (start pos : Int) (n : ℕ) (hpos : 0 ≤ pos) :
    ∀ seg ∈ chunks now buf start pos n,
      ∃ k : ℕ, seg.seqStart = start + k ∧ Slice (buf.slice pos n) k seg.data := by
  fun_induction chunks now buf start pos n with
  | case1 start pos => exact fun seg hseg => by cases hseg
  | case2 start pos n hn ih =>
      have hsplit : buf.slice pos n =
          buf.slice pos (min n 107) ++ buf.slice (pos + (min n 107 : ℕ)) (n - min n 107) := by
        rw [← Buf.slice_add buf hpos]
        congr 1
        omega
      intro seg hseg
      obtain rfl | hseg := List.mem_cons.mp hseg
      · refine ⟨0, by simp, ?_⟩
        rw [hsplit]
        exact .first _ _
      · obtain ⟨k, hk, hslice⟩ := ih (by omega) seg hseg
        refine ⟨min n 107 + k, by omega, ?_⟩
        have hlen := hslice.prepend (buf.slice pos (min n 107))
        rw [Buf.slice_length] at hlen
        rw [hsplit]
        exact hlen

/-! ### The channel of one direction -/

/-- The direction from `w` to the other side, as a go-back-N channel. -/
structure Link (cfg : Config) (w : Party) (x : Party → End) (wire : List Sent)
    (c : Channel UInt8) : Prop where
  reachable : c.Reachable
  written : c.written = (x w).written
  stored : c.stored = (x w.other).received
  acked : (x w).sock.sndUna ≤ 1 + c.acked
  queue : ∀ seg ∈ (x w).sock.outstanding,
    ∃ off : ℕ, seg.seqStart = 1 + off ∧ (off, seg.data) ∈ c.pieces
  data : ∀ p ∈ wire, cfg.From w p → p.seg.type = .DATA →
    ∃ off : ℕ, p.seg.seqNum = 1 + off ∧ (off, p.seg.payload) ∈ c.pieces
  acks : ∀ p ∈ wire, cfg.From w.other p → p.seg.type = .ACK →
    (∃ n ∈ c.acks, p.seg.seqNum = 1 + (n : ℕ)) ∨
      0 ≤ (x w).sock.finSeq ∧ p.seg.seqNum = (x w).sock.finSeq + 1
  fins : ∀ p ∈ wire, cfg.From w p → p.seg.type = .FIN →
    0 ≤ (x w).sock.finSeq ∧ p.seg.seqNum = (x w).sock.finSeq
  peer : (x w.other).sock.peerFinReceived = true → 0 ≤ (x w).sock.finSeq

/-- A segment that the sender of a direction may put on the wire. -/
def Link.Carries (c : Channel UInt8) (finSeq : Int) (p : Sent) : Prop :=
  (p.seg.type = .DATA → ∃ off : ℕ, p.seg.seqNum = 1 + off ∧ (off, p.seg.payload) ∈ c.pieces) ∧
    (p.seg.type = .FIN → 0 ≤ finSeq ∧ p.seg.seqNum = finSeq)

namespace Link

variable {cfg : Config} {w : Party} {x : Party → End} {wire : List Sent} {c : Channel UInt8}

theorem subset (h : Link cfg w x wire c) {wire' : List Sent} (hsub : ∀ p ∈ wire', p ∈ wire) :
    Link cfg w x wire' c :=
  ⟨h.reachable, h.written, h.stored, h.acked, h.queue, fun p hp => h.data p (hsub p hp),
    fun p hp => h.acks p (hsub p hp), fun p hp => h.fins p (hsub p hp), h.peer⟩

/-- The sender acts: the channel `c'` after it, and what it may send. -/
theorem sender (h : Link cfg w x wire c) {x' : End} {out : List Sent} {c' : Channel UInt8}
    (hreach : c'.Reachable) (hwritten : c'.written = x'.written) (hstored : c'.stored = c.stored)
    (hacked : x'.sock.sndUna ≤ 1 + c'.acked)
    (hqueue : ∀ seg ∈ x'.sock.outstanding,
      ∃ off : ℕ, seg.seqStart = 1 + off ∧ (off, seg.data) ∈ c'.pieces)
    (hpieces : c.pieces ⊆ c'.pieces) (hacks : c.acks ⊆ c'.acks)
    (hfin : 0 ≤ (x w).sock.finSeq → x'.sock.finSeq = (x w).sock.finSeq)
    (hfrom : ∀ p ∈ out, cfg.From w p) (hout : ∀ p ∈ out, Carries c' x'.sock.finSeq p) :
    Link cfg w (Function.update x w x') (wire ++ out) c' := by
  have hself : Function.update x w x' w = x' := Function.update_self _ _ _
  have hother : Function.update x w x' w.other = x w.other := Function.update_of_ne w.other_ne _ _
  refine ⟨hreach, ?_, ?_, ?_, ?_, ?_, ?_, ?_, ?_⟩
  · rw [hself, hwritten]
  · rw [hother, hstored, h.stored]
  · rw [hself]
    exact hacked
  · rw [hself]
    exact hqueue
  · intro p hp hw hty
    obtain hp | hp := List.mem_append.mp hp
    · obtain ⟨off, hoff, hmem⟩ := h.data p hp hw hty
      exact ⟨off, hoff, hpieces hmem⟩
    · exact (hout p hp).1 hty
  · intro p hp hw hty
    obtain hp | hp := List.mem_append.mp hp
    · rw [hself]
      obtain ⟨n, hn, hseq⟩ | ⟨h0, hseq⟩ := h.acks p hp hw hty
      · exact .inl ⟨n, hacks hn, hseq⟩
      · rw [hfin h0]
        exact .inr ⟨h0, hseq⟩
    · exact absurd ((hfrom p hp).unique hw) (Ne.symm w.other_ne)
  · intro p hp hw hty
    rw [hself]
    obtain hp | hp := List.mem_append.mp hp
    · obtain ⟨h0, hseq⟩ := h.fins p hp hw hty
      rw [hfin h0]
      exact ⟨h0, hseq⟩
    · exact (hout p hp).2 hty
  · rw [hother, hself]
    intro hpeer
    have h0 := h.peer hpeer
    rw [hfin h0]
    exact h0

theorem sender_same (h : Link cfg w x wire c) {x' : End} {out : List Sent}
    (hwritten : x'.written = (x w).written) (hacked : x'.sock.sndUna ≤ 1 + c.acked)
    (hqueue : ∀ seg ∈ x'.sock.outstanding, ∃ seg' ∈ (x w).sock.outstanding,
      seg.seqStart = seg'.seqStart ∧ seg.data = seg'.data)
    (hfin : x'.sock.finSeq = (x w).sock.finSeq) (hfrom : ∀ p ∈ out, cfg.From w p)
    (hout : ∀ p ∈ out, Carries c x'.sock.finSeq p) :
    Link cfg w (Function.update x w x') (wire ++ out) c := by
  refine h.sender h.reachable (h.written.trans hwritten.symm) rfl hacked ?_ subset_rfl subset_rfl
    (fun _ => hfin) hfrom hout
  intro seg hseg
  obtain ⟨seg', hseg', hstart, hdata⟩ := hqueue seg hseg
  rw [hstart, hdata]
  exact h.queue seg' hseg'

/-- The receiver acts: the channel `c'` after it, and the acknowledgements it may send. -/
theorem receiver (h : Link cfg w x wire c) {x' : End} {out : List Sent} {c' : Channel UInt8}
    (hreach : c'.Reachable) (hwritten : c'.written = c.written) (hstored : c'.stored = x'.received)
    (hacked : c'.acked = c.acked) (hpieces : c'.pieces = c.pieces) (hacks : c.acks ⊆ c'.acks)
    (hpeer : x'.sock.peerFinReceived = true → 0 ≤ (x w).sock.finSeq)
    (hfrom : ∀ p ∈ out, cfg.From w.other p)
    (hout : ∀ p ∈ out, p.seg.type = .ACK → (∃ n ∈ c'.acks, p.seg.seqNum = 1 + (n : ℕ)) ∨
      0 ≤ (x w).sock.finSeq ∧ p.seg.seqNum = (x w).sock.finSeq + 1) :
    Link cfg w (Function.update x w.other x') (wire ++ out) c' := by
  have hself : Function.update x w.other x' w.other = x' := Function.update_self _ _ _
  have hw : Function.update x w.other x' w = x w := Function.update_of_ne (Ne.symm w.other_ne) _ _
  refine ⟨hreach, ?_, ?_, ?_, ?_, ?_, ?_, ?_, ?_⟩
  · rw [hw, hwritten, h.written]
  · rw [hself, hstored]
  · rw [hw, hacked]
    exact h.acked
  · rw [hw, hpieces]
    exact h.queue
  · intro p hp hfw hty
    rw [hpieces]
    obtain hp | hp := List.mem_append.mp hp
    · exact h.data p hp hfw hty
    · exact absurd ((hfrom p hp).unique hfw) w.other_ne
  · intro p hp hfr hty
    rw [hw]
    obtain hp | hp := List.mem_append.mp hp
    · obtain ⟨n, hn, hseq⟩ | hseq := h.acks p hp hfr hty
      · exact .inl ⟨n, hacks hn, hseq⟩
      · exact .inr hseq
    · exact hout p hp hty
  · intro p hp hfw hty
    rw [hw]
    obtain hp | hp := List.mem_append.mp hp
    · exact h.fins p hp hfw hty
    · exact absurd ((hfrom p hp).unique hfw) w.other_ne
  · rw [hself, hw]
    exact hpeer

theorem Carries.of_ack {f : Int} {p : Sent} (hty : p.seg.type = .ACK) : Carries c f p := by
  constructor
  · intro h
    rw [hty] at h
    cases h
  · intro h
    rw [hty] at h
    cases h

theorem Carries.of_fin {f window : Int} {p : Sent} {payload : List UInt8}
    (hp : cfg.Sends w p .FIN window f payload) (hf : 0 ≤ f) : Carries c f p := by
  constructor
  · intro h
    rw [hp.type] at h
    cases h
  · exact fun _ => ⟨hf, hp.seqNum⟩

theorem Carries.of_data {f window : Int} {p : Sent} {seg : OutstandingSeg}
    (hp : cfg.Sends w p .DATA window seg.seqStart seg.data)
    (hseg : ∃ off : ℕ, seg.seqStart = 1 + off ∧ (off, seg.data) ∈ c.pieces) : Carries c f p := by
  constructor
  · intro _
    rw [hp.seqNum, hp.payload]
    exact hseg
  · intro h
    rw [hp.type] at h
    cases h

/-- An acknowledgement that moves the sender forward is one of the channel's. -/
theorem learns (h : Link cfg w x wire c) (hok : EndOk w (x w)) {t : Transport}
    (harr : (∃ n ∈ c.acks, t.seqNum = 1 + (n : ℕ)) ∨
      0 ≤ (x w).sock.finSeq ∧ t.seqNum = (x w).sock.finSeq + 1)
    (hle : t.seqNum ≤ (x w).sock.sndNxt) :
    ∃ n ∈ c.acks, t.seqNum = 1 + (n : ℕ) ∧ ({ c with acked := n }).Reachable := by
  obtain ⟨n, hn, hseq⟩ | ⟨h0, hseq⟩ := harr
  · exact ⟨n, hn, hseq, h.reachable.step (.learn hn)⟩
  · -- the FIN is acknowledged beyond `sndNxt_`
    have hfin := (hok.fin h0).1
    omega

theorem write (h : Link cfg w x wire c) (hok : EndOk w (x w)) {now : Int} {buf : Buf}
    {pos len : Int} {out : List Sent} (hst : (x w).sock.state = .ESTABLISHED) (hpos : 0 ≤ pos)
    (hfrom : ∀ p ∈ out, cfg.From w p)
    (hout : List.Forall₂ (fun p seg => cfg.Sends w p .DATA 0 seg.seqStart seg.data) out
      (chunks now buf (x w).sock.sndNxt pos (TcpManager.windowRoom (x w).sock len))) :
    ∃ c', Link cfg w
      (Function.update x w { x w with
        sock := TcpManager.written (x w).sock now buf pos (TcpManager.windowRoom (x w).sock len)
        written := (x w).written ++ buf.slice pos (TcpManager.windowRoom (x w).sock len) })
      (wire ++ out) c' := by
  have hs := hok.started (.inl hst)
  set n := TcpManager.windowRoom (x w).sock len
  -- the chunks of the write are slices of the longer stream
  have hslice : ∀ seg ∈ chunks now buf (x w).sock.sndNxt pos n,
      ∃ off : ℕ, seg.seqStart = 1 + off ∧
        Slice ((x w).written ++ buf.slice pos n) off seg.data := by
    intro seg hseg
    obtain ⟨k, hk, hslice⟩ := chunks_slice now buf _ pos n hpos seg hseg
    refine ⟨(x w).written.length + k, ?_, hslice.prepend _⟩
    have := hs.sndNxt
    push_cast
    omega
  let burst : Set (ℕ × List UInt8) :=
    fun q => Slice ((x w).written ++ buf.slice pos n) q.1 q.2
  have hwrite : ({ c with written := c.written ++ buf.slice pos n }).Reachable :=
    h.reachable.step (.write _)
  have hburst : ∀ off xs, (off, xs) ∈ burst → Slice (c.written ++ buf.slice pos n) off xs := by
    intro off xs hq
    rw [h.written]
    exact hq
  have hsend := hwrite.step (.send hburst)
  refine ⟨_, h.sender hsend ?_ rfl h.acked ?_ Set.subset_union_right subset_rfl ?_ hfrom ?_⟩
  · show c.written ++ _ = _
    rw [h.written]
  · intro seg hseg
    obtain hseg | hseg := List.mem_append.mp hseg
    · obtain ⟨off, hoff, hmem⟩ := h.queue seg hseg
      exact ⟨off, hoff, .inr hmem⟩
    · obtain ⟨off, hoff, hsl⟩ := hslice seg hseg
      exact ⟨off, hoff, .inl hsl⟩
  · exact fun h0 => absurd (hok.finSeq_neg hst) (not_lt.mpr h0)
  · intro p hp
    obtain ⟨seg, hseg, hsends⟩ := exists_mem_of_forall₂ hout hp
    obtain ⟨off, hoff, hsl⟩ := hslice seg hseg
    exact .of_data hsends ⟨off, hoff, .inl hsl⟩

/-- The FIN takes the next sequence number. -/
theorem shutdownFin (h : Link cfg w x wire c) (hok : EndOk w (x w)) {p : Sent}
    (hst : (x w).sock.state = .ESTABLISHED) (hfrom : ∀ q ∈ [p], cfg.From w q)
    (hp : cfg.Sends w p .FIN 0 (x w).sock.sndNxt []) :
    Link cfg w
      (Function.update x w
        { x w with sock := finQueued { (x w).sock with state := .SHUTDOWN } })
      (wire ++ [p]) c := by
  have hs := hok.started (.inl hst)
  have hneg := hok.finSeq_neg hst
  have hpos : 0 ≤ (x w).sock.sndNxt := by
    have := hs.sndNxt
    omega
  refine h.sender h.reachable h.written rfl h.acked h.queue subset_rfl subset_rfl ?_ hfrom ?_
  · exact fun h0 => absurd hneg (not_lt.mpr h0)
  · intro q hq
    rw [List.mem_singleton.mp hq]
    exact .of_fin hp hpos

theorem advance (h : Link cfg w x wire c) {now window seq : Int} {n : ℕ}
    (hreach : ({ c with acked := n }).Reachable) (hseq : seq = 1 + (n : ℕ)) :
    Link cfg w
      (Function.update x w
        { x w with sock := advanced ((x w).sock.setRwnd window) now seq })
      (wire ++ []) { c with acked := n } := by
  obtain ⟨hout, huna, _⟩ := advanced_sender ((x w).sock.setRwnd window) now seq
  obtain ⟨_, _, _, hfin, _⟩ := advanced_receiver ((x w).sock.setRwnd window) now seq
  refine h.sender hreach h.written rfl ?_ ?_ subset_rfl subset_rfl (fun _ => hfin) ?_ ?_
  · exact (huna.trans hseq).le
  · intro seg hseg
    rw [hout] at hseg
    exact h.queue seg ((List.dropWhile_sublist _).subset hseg)
  · exact fun p hp => by cases hp
  · exact fun p hp => by cases hp

/-- The last acknowledgement after a close lets the FIN go. -/
theorem advanceFin (h : Link cfg w x wire c) (hok : EndOk w (x w)) {now window seq : Int} {n : ℕ}
    {p : Sent} (hst : (x w).sock.state = .SHUTDOWN) (hneg : (x w).sock.finSeq < 0)
    (hreach : ({ c with acked := n }).Reachable) (hseq : seq = 1 + (n : ℕ))
    (hempty : (advanced ((x w).sock.setRwnd window) now seq).outstanding = [])
    (hfrom : ∀ q ∈ [p], cfg.From w q) (hp : cfg.Sends w p .FIN 0 (x w).sock.sndNxt []) :
    Link cfg w
      (Function.update x w
        { x w with sock := finQueued (advanced ((x w).sock.setRwnd window) now seq) })
      (wire ++ [p]) { c with acked := n } := by
  have hs := hok.started (.inr hst)
  obtain ⟨_, huna, hnxt, _⟩ := advanced_sender ((x w).sock.setRwnd window) now seq
  have hfin : (finQueued (advanced ((x w).sock.setRwnd window) now seq)).finSeq =
      (x w).sock.sndNxt := hnxt
  have hpos : 0 ≤ (x w).sock.sndNxt := by
    have := hs.sndNxt
    omega
  refine h.sender hreach h.written rfl ?_ ?_ subset_rfl subset_rfl ?_ hfrom ?_
  · exact (huna.trans hseq).le
  · intro seg hseg
    have hseg : seg ∈ (advanced ((x w).sock.setRwnd window) now seq).outstanding := hseg
    rw [hempty] at hseg
    cases hseg
  · exact fun h0 => absurd hneg (not_lt.mpr h0)
  · intro q hq
    rw [List.mem_singleton.mp hq, hfin]
    exact .of_fin hp hpos

/-- What an act of the sender does to the channel. -/
theorem act_sender (h : Link cfg w x wire c) (hok : EndOk w (x w)) {op : Op} {x' : End}
    {out : List Sent} (hact : Act cfg w (x w) op x' out)
    (harr : ∀ now srcAddr t, op = .receive now srcAddr t → t.type = .ACK →
      (∃ n ∈ c.acks, t.seqNum = 1 + (n : ℕ)) ∨
        0 ≤ (x w).sock.finSeq ∧ t.seqNum = (x w).sock.finSeq + 1) :
    ∃ c', Link cfg w (Function.update x w x') (wire ++ out) c' := by
  have hfrom : ∀ p ∈ out, cfg.From w p := fun p hp => (hact.sends p hp).1
  have hsame : ∀ seg ∈ (x w).sock.outstanding, ∃ seg' ∈ (x w).sock.outstanding,
      seg.seqStart = seg'.seqStart ∧ seg.data = seg'.data :=
    fun seg hseg => ⟨seg, hseg, rfl, rfl⟩
  have hnone : ∀ f : Int, ∀ p ∈ ([] : List Sent), Carries c f p := fun _ _ hp => by cases hp
  cases hact with
  | idle => exact ⟨c, h.sender_same rfl h.acked hsame rfl hfrom (hnone _)⟩
  | write hheld hst hpos hout => exact h.write hok hst hpos hfrom hout
  | read | readEnd | accept | acceptClosed | closePending | shutdown | window | finAcked |
    establishClosed | refused =>
      exact ⟨c, h.sender_same rfl h.acked hsame rfl hfrom (hnone _)⟩
  | shutdownFin hi hheld hst hempty hp => exact ⟨c, h.shutdownFin hok hst hfrom hp⟩
  | @timeout now out hout =>
      refine ⟨c, h.sender_same rfl h.acked ?_ rfl hfrom ?_⟩
      · intro seg hseg
        obtain ⟨seg', hseg', rfl⟩ := List.mem_map.mp hseg
        exact ⟨seg', hseg', rfl, rfl⟩
      · intro p hp
        obtain ⟨seg, hseg, hsends⟩ := hout p hp
        exact .of_data hsends (h.queue seg hseg)
  | advance hty hst hlt hle =>
      obtain ⟨n, hn, hseq, hreach⟩ := h.learns hok (harr _ _ _ rfl hty) hle
      exact ⟨_, h.advance hreach hseq⟩
  | advanceFin hty hst hlt hle hempty hp =>
      obtain ⟨n, hn, hseq, hreach⟩ := h.learns hok (harr _ _ _ rfl hty) hle
      have hneg := hok.finSeq_neg_of_lt (by omega)
      exact ⟨_, h.advanceFin hok hst hneg hreach hseq hempty hfrom hp⟩
  | @establish now srcAddr ack hty hpend hst hack =>
      have e := (x w).sock.markEstablished_of_synSent ack.window hst
      rw [e]
      refine ⟨c, h.sender_same rfl ?_ hsame rfl hfrom (hnone _)⟩
      show (1 : Int) ≤ 1 + c.acked
      omega
  | answer hty hst hout =>
      exact ⟨c, h.sender_same rfl h.acked hsame rfl hfrom fun p hp => .of_ack (hout p hp).type⟩
  | store hty hst hseq hne hroom hout =>
      exact ⟨c, h.sender_same rfl h.acked hsame rfl hfrom fun p hp => .of_ack (hout p hp).type⟩
  | peerFin hty hreg hout =>
      exact ⟨c, h.sender_same rfl h.acked hsame rfl hfrom fun p hp => .of_ack (hout p hp).type⟩
  | born hty hw hs hheld hout =>
      refine ⟨c, h.sender_same rfl ?_ ?_ ?_ hfrom fun p hp => .of_ack (hout p hp).type⟩
      · show (1 : Int) ≤ 1 + c.acked
        omega
      · exact fun seg hseg => by cases hseg
      · rw [hs]
        rfl

theorem receiver_same (h : Link cfg w x wire c) {x' : End} {out : List Sent}
    (hreceived : x'.received = (x w.other).received)
    (hpeer : x'.sock.peerFinReceived = true → (x w.other).sock.peerFinReceived = true)
    (hfrom : ∀ p ∈ out, cfg.From w.other p) (hout : ∀ p ∈ out, p.seg.type ≠ .ACK) :
    Link cfg w (Function.update x w.other x') (wire ++ out) c :=
  h.receiver h.reachable rfl (h.stored.trans hreceived.symm) rfl rfl subset_rfl
    (fun hp => h.peer (hpeer hp)) hfrom fun p hp hty => absurd hty (hout p hp)

theorem replies (h : Link cfg w x wire c) {n : ℕ} (hn : n ≤ (x w.other).received.length) :
    ({ c with acks := insert n c.acks }).Reachable := by
  refine h.reachable.step (.reply ?_)
  rw [h.stored]
  exact hn

/-- What an act of the receiver does to the channel. -/
theorem act_receiver (h : Link cfg w x wire c) (hok : EndOk w.other (x w.other)) {op : Op}
    {x' : End} {out : List Sent} (hact : Act cfg w.other (x w.other) op x' out)
    (harr : ∀ now srcAddr t, op = .receive now srcAddr t →
      (t.type = .SYN → t.seqNum = 0) ∧
      (t.type = .DATA → ∃ off : ℕ, t.seqNum = 1 + off ∧ (off, t.payload) ∈ c.pieces) ∧
      (t.type = .FIN → 0 ≤ (x w).sock.finSeq ∧ t.seqNum = (x w).sock.finSeq)) :
    ∃ c', Link cfg w (Function.update x w.other x') (wire ++ out) c' := by
  have hfrom : ∀ p ∈ out, cfg.From w.other p := fun p hp => (hact.sends p hp).1
  have hnone : ∀ p ∈ ([] : List Sent), p.seg.type ≠ .ACK := fun _ hp => by cases hp
  cases hact with
  | idle | accept | acceptClosed | closePending | shutdown | window | finAcked | establishClosed |
    refused => exact ⟨c, h.receiver_same rfl id hfrom hnone⟩
  | write hheld hst hpos hout =>
      refine ⟨c, h.receiver_same rfl id hfrom fun p hp => ?_⟩
      obtain ⟨seg, _, hsends⟩ := exists_mem_of_forall₂ hout hp
      rw [hsends.type]
      decide
  | read => exact ⟨c, h.receiver_same (received_taken _ _ _) id hfrom hnone⟩
  | readEnd => exact ⟨c, h.receiver_same (received_taken _ _ _) id hfrom hnone⟩
  | shutdownFin hi hheld hst hempty hp =>
      refine ⟨c, h.receiver_same rfl id hfrom fun q hq => ?_⟩
      rw [List.mem_singleton.mp hq, hp.type]
      decide
  | timeout hout =>
      refine ⟨c, h.receiver_same rfl id hfrom fun p hp => ?_⟩
      obtain ⟨seg, _, hsends⟩ := hout p hp
      rw [hsends.type]
      decide
  | @advance now srcAddr ack hty hst hlt hle =>
      obtain ⟨hbuf, _, _, _, hpeer⟩ :=
        advanced_receiver ((x w.other).sock.setRwnd ack.window) now ack.seqNum
      refine ⟨c, h.receiver_same ?_ (fun hp => hpeer ▸ hp) hfrom hnone⟩
      exact congrArg (fun l => (x w.other).readOut ++ l) hbuf
  | @advanceFin now srcAddr ack p hty hst hlt hle hempty hp =>
      obtain ⟨hbuf, _, _, _, hpeer⟩ :=
        advanced_receiver ((x w.other).sock.setRwnd ack.window) now ack.seqNum
      refine ⟨c, h.receiver_same ?_ (fun hp => hpeer ▸ hp) hfrom fun q hq => ?_⟩
      · exact congrArg (fun l => (x w.other).readOut ++ l) hbuf
      · rw [List.mem_singleton.mp hq, hp.type]
        decide
  | @establish now srcAddr ack hty hpend hst hack =>
      have e := (x w.other).sock.markEstablished_of_synSent ack.window hst
      rw [e]
      exact ⟨c, h.receiver_same rfl (fun hp => by cases hp) hfrom hnone⟩
  | answer hty hst hout =>
      have hs := hok.started hst
      refine ⟨_, h.receiver (h.replies le_rfl) rfl h.stored rfl rfl (Set.subset_insert _ _) h.peer
        hfrom fun p hp _ => .inl ⟨_, Set.mem_insert _ _, ?_⟩⟩
      exact (hout p hp).seqNum.trans hs.rcvNxt
  | @store now srcAddr data out hty hst hseq hne hroom hout =>
      have hs := hok.started hst
      obtain ⟨off, hoff, hmem⟩ := (harr _ _ _ rfl).2.1 hty
      have hlen : off = c.stored.length := by
        have := hs.rcvNxt
        rw [h.stored]
        omega
      have hstore : ({ c with stored := c.stored ++ data.payload }).Reachable :=
        h.reachable.step (.store (hlen ▸ hmem))
      have hreply := hstore.step (.reply (n := (c.stored ++ data.payload).length) le_rfl)
      refine ⟨_, h.receiver hreply rfl ?_ rfl rfl (Set.subset_insert _ _) h.peer hfrom
        fun p hp _ => .inl ⟨_, Set.mem_insert _ _, ?_⟩⟩
      · show c.stored ++ data.payload = (x w.other).readOut ++ ((x w.other).sock.recvBuf ++ _)
        rw [h.stored, End.received, List.append_assoc]
      · have hrcv := hs.rcvNxt
        rw [(hout p hp).seqNum, List.length_append, h.stored]
        show (x w.other).sock.rcvNxt + (data.payload.length : Int) = _
        push_cast
        omega
  | @peerFin now srcAddr fin out hty hreg hout =>
      obtain ⟨h0, hseq⟩ := (harr _ _ _ rfl).2.2 hty
      refine ⟨c, h.receiver h.reachable rfl h.stored rfl rfl subset_rfl (fun _ => h0) hfrom
        fun p hp _ => .inr ⟨h0, ?_⟩⟩
      rw [(hout p hp).seqNum, hseq]
  | @born now srcAddr syn out hty hw hs hheld hout =>
      have h0 := (harr _ _ _ rfl).1 hty
      have hstored : c.stored = (x w.other).readOut ++ [] := by
        rw [h.stored, End.received, hs]
        rfl
      refine ⟨_, h.receiver (h.replies (Nat.zero_le _)) rfl hstored rfl rfl (Set.subset_insert _ _)
        (fun hp => by cases hp) hfrom fun p hp _ => .inl ⟨0, Set.mem_insert _ _, ?_⟩⟩
      rw [(hout p hp).seqNum, h0]
      rfl

end Link

/-! ### All runs -/

namespace Sys

variable (cfg : Config)

theorem init_link (w : Party) :
    Link cfg w ((init cfg).ends cfg) (init cfg).wire Channel.empty := by
  obtain ⟨q, hq, hwire⟩ := init_wire cfg
  have hfresh := init_fresh cfg w
  have hsyn : ∀ p ∈ (init cfg).wire, p.seg.type = .SYN := by
    intro p hp
    rw [hwire] at hp
    rw [List.mem_singleton.mp hp]
    exact hq.type
  refine ⟨.refl, rfl, (init_fresh cfg w.other).received.symm, ?_, ?_, ?_, ?_, ?_, ?_⟩
  · rw [hfresh.sndUna]
    exact (by decide : (0 : Int) ≤ 1 + ((0 : ℕ) : Int))
  · intro seg hseg
    rw [(init_endOk cfg w).sender.empty_iff.mpr (hfresh.sndUna.trans hfresh.sndNxt.symm)] at hseg
    cases hseg
  · intro p hp _ hty
    rw [hsyn p hp] at hty
    cases hty
  · intro p hp _ hty
    rw [hsyn p hp] at hty
    cases hty
  · intro p hp _ hty
    rw [hsyn p hp] at hty
    cases hty
  · intro hpeer
    have hsock : ((init cfg).ends cfg w.other).sock = openSocket cfg w.other :=
      openedMan_conn cfg w.other
    rw [hsock] at hpeer
    cases w <;> cases hpeer

variable {cfg}

/-- **Refinement.** In every run each direction of the connection is a go-back-N channel. -/
theorem link_act (w : Party) (x : Party → End) (wire : List Sent) (v : Party) (op : Op) (x' : End)
    (out : List Sent) (hok : ∀ v, EndOk v (x v)) (h : ∃ c, Link cfg w x wire c)
    (hact : Act cfg v (x v) op x' out)
    (harr : Arrival cfg (fun x wire => ∃ c, Link cfg w x wire c) x wire v op) :
    ∃ c, Link cfg w (Function.update x v x') (wire ++ out) c := by
  obtain ⟨c, hlink, harr⟩ := Arrival.exists (I := fun c x wire => Link cfg w x wire c)
    (fun c x wire wire' hl hsub => hl.subset hsub) h harr
  obtain rfl | rfl := w.eq_or_eq_other v
  · refine hlink.act_sender (hok v) hact ?_
    rintro now srcAddr t rfl hty
    obtain ⟨p, rfl, hfrom, _, hp⟩ := harr now srcAddr t rfl
    exact hp.acks p List.mem_cons_self hfrom hty
  · refine hlink.act_receiver (hok w.other) hact ?_
    rintro now srcAddr t rfl
    obtain ⟨p, rfl, hfrom, hsyn, hp⟩ := harr now srcAddr t rfl
    rw [Party.other_other] at hfrom
    refine ⟨hsyn, ?_, ?_⟩
    · exact hp.data p List.mem_cons_self hfrom
    · exact hp.fins p List.mem_cons_self hfrom

theorem link_run (cfg : Config) (w : Party) (es : List Event) :
    ∃ c, Link cfg w ((run (step cfg) (init cfg) es).ends cfg) (run (step cfg) (init cfg) es).wire c := by
  refine ends_rule (I := fun x wire => ∃ c, Link cfg w x wire c) (G := fun _ _ _ => True) ?_ ?_
    ⟨_, init_link cfg w⟩ (guarded_trivial (fun _ _ _ => trivial) _ es)
  · rintro x wire wire' ⟨c, hl⟩ hsub
    exact ⟨c, hl.subset hsub⟩
  · exact fun x wire v op x' out hok _ h hact harr _ => link_act w x wire v op x' out hok h hact harr

/-! ### Delivery -/

end Sys

theorem Act.sndUna_le {cfg : Config} {w : Party} {x x' : End} {op : Op} {out : List Sent}
    (hok : EndOk w x) (hact : Act cfg w x op x' out) : x.sock.sndUna ≤ x'.sock.sndUna := by
  cases hact with
  | advance hty hst hlt hle =>
      rw [(advanced_sender _ _ _).2.1]
      exact hlt.le
  | advanceFin hty hst hlt hle hempty hp =>
      show _ ≤ (advanced _ _ _).sndUna
      rw [(advanced_sender _ _ _).2.1]
      exact hlt.le
  | @establish now srcAddr ack hty hpend hst hack =>
      have e := x.sock.markEstablished_of_synSent ack.window hst
      rw [e, (hok.fresh_of_pending hpend).sndUna]
      exact Int.zero_le_ofNat 1
  | born hty hw hs hheld hout =>
      rw [hs]
      exact Int.zero_le_ofNat 1
  | idle | write | read | readEnd | accept | acceptClosed | closePending | shutdown | shutdownFin |
    timeout | window | finAcked | establishClosed | refused | answer | store | peerFin => exact le_rfl

theorem Started.act {cfg : Config} {w : Party} {x x' : End} {op : Op} {out : List Sent}
    (hs : Started x) (hok : EndOk w x) (hok' : EndOk w x') (hact : Act cfg w x op x' out) :
    Started x' := by
  refine hok'.phase.resolve_left fun hf => ?_
  have h1 := hs.sndUna
  have h2 := hact.sndUna_le hok
  have h3 := hf.sndUna
  omega

namespace Sys

variable {cfg : Config}

theorem started_step (w : Party) (σ : Sys) (e : Event)
    (h : σ.Ok cfg ∧ Started (σ.ends cfg w)) :
    (σ.step cfg e).Ok cfg ∧ Started ((σ.step cfg e).ends cfg w) := by
  refine step_ends (I := fun x _ => Started (x w)) (G := fun _ _ _ => True) (fun _ _ _ hx _ => hx) ?_
    σ e h fun _ _ => trivial
  intro x wire v op x' out hok hok' hs hact _ _
  obtain rfl | rfl := v.eq_or_eq_other w
  · rw [Function.update_self]
    exact hs.act (hok w) hok' hact
  · rw [Function.update_of_ne v.other_ne]
    exact hs

theorem started_run {w : Party} {pre : List Event}
    (hst : ((run (step cfg) (init cfg) pre).sock w).state = .ESTABLISHED) (post : List Event) :
    Started ((run (step cfg) (init cfg) (pre ++ post)).ends cfg w) := by
  have hok := ok_run cfg pre
  rw [run_append]
  exact (run_induction (I := fun σ => σ.Ok cfg ∧ Started (σ.ends cfg w))
    (fun σ e h => started_step w σ e h) ⟨hok, (hok.ends w).started (.inl hst)⟩ post).2

/-- **Reliable delivery in order.** Whatever the network does, the bytes that have reached a side
are a prefix of those that the other side has written, `rcvNxt_` counts them once the socket has
been established, and the buffer is as long as it says and within its capacity. -/
theorem reliable_delivery (cfg : Config) (es : List Event) (w : Party) :
    let σ := run (step cfg) (init cfg) es
    σ.received w.other <+: (σ.side w).written ∧
      (∀ pre post, es = pre ++ post →
        ((run (step cfg) (init cfg) pre).sock w.other).state = .ESTABLISHED →
        (σ.sock w.other).rcvNxt = 1 + (σ.received w.other).length) ∧
      (σ.sock w.other).recvBufUsed = (σ.sock w.other).recvBuf.length ∧
      (σ.sock w.other).recvBufUsed ≤ TcpSocket.RECV_BUF_CAP := by
  intro σ
  have hok := (ok_run cfg es).ends w.other
  obtain ⟨c, hlink⟩ := link_run cfg w es
  refine ⟨?_, ?_, hok.used, hok.cap⟩
  · have hgood := (Channel.good_of_reachable hlink.reachable).stored
    rw [hlink.stored, hlink.written] at hgood
    exact hgood
  · rintro pre post rfl hst
    exact (started_run hst post).rcvNxt

end Sys

end NetBridge
