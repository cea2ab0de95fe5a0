import NetBridge.FlowControl
import NetBridge.Karn

/-! # Where the receiver stands

A receiver takes a segment in as a whole or not at all, and a segment that is sent again begins and ends
where it did the first time.  So the byte that a receiver waits for is the first one of a segment, or it
comes after all of them (`Aligned`).  What is outstanding fits into an empty buffer (`Capped`), and an
open connection is in the table of its side (`Entered`). -/

namespace NetBridge

open TcpManager (written timedOut stored advanced finQueued windowRoom)

variable {cfg : Config} {w : Party}

/-! ### Segments -/

section acts
variable {x x' : End} {op : Op} {out : List Sent}

theorem Act.received_cases (hact : Act cfg w x op x' out) :
    x'.received = x.received ∨
      ∃ now srcAddr data, op = .receive now srcAddr data ∧ data.type = .DATA ∧ x.sock.Live ∧
        data.seqNum = x.sock.rcvNxt ∧ x'.received = x.received ++ data.payload := by
  cases hact with
  | store hty hst hseq hne hroom hout =>
      refine .inr ⟨_, _, _, rfl, hty, hst, hseq, ?_⟩
      rw [End.received, End.received, List.append_assoc]
      rfl
  | read | readEnd => exact .inl (received_taken _ _ _)
  | @advance now srcAddr ack hty hst hlt hle =>
      obtain ⟨hbuf, _⟩ := advanced_receiver (x.sock.setRwnd ack.window) now ack.seqNum
      exact .inl (congrArg (fun l => x.readOut ++ l) hbuf)
  | @advanceFin now srcAddr ack p hty hst hlt hle hempty hp =>
      obtain ⟨hbuf, _⟩ := advanced_receiver (x.sock.setRwnd ack.window) now ack.seqNum
      exact .inl (congrArg (fun l => x.readOut ++ l) hbuf)
  | @establish now srcAddr ack hty hpend hst hack =>
      rw [x.sock.markEstablished_of_synSent ack.window hst]
      exact .inl rfl
  | born hty hw hs hheld hout =>
      left
      rw [End.received, End.received, hs]
      rfl
  | idle | write | accept | acceptClosed | closePending | shutdown | shutdownFin | timeout | window |
    finAcked | establishClosed | refused | answer | peerFin => exact .inl rfl

end acts

/-- The segments that `w` has cut its stream into are `spans`; the other side waits for the first byte
of one of them, or has all of them. -/
structure Aligned (cfg : Config) (w : Party) (spans : List Span) (x : Party → End)
    (wire : List Sent) : Prop where
  tiles : SpanTiles 1 spans (1 + (x w).written.length)
  queue : (x w).sock.outstanding.map OutstandingSeg.span <:+ spans
  data : ∀ p ∈ wire, cfg.From w p → p.seg.type = .DATA → p.seg.span ∈ spans
  border : Border Span.start spans (1 + (x w).written.length) (1 + (x w.other).received.length)

namespace Aligned

variable {spans : List Span} {x : Party → End} {wire : List Sent}

theorem subset (h : Aligned cfg w spans x wire) {wire' : List Sent} (hsub : ∀ p ∈ wire', p ∈ wire) :
    Aligned cfg w spans x wire' :=
  ⟨h.tiles, h.queue, fun p hp => h.data p (hsub p hp), h.border⟩

/-- The sender acts and sends no data but that of its segments. -/
theorem sender_same (h : Aligned cfg w spans x wire) {x' : End} {out : List Sent}
    (hwritten : x'.written = (x w).written)
    (hqueue : x'.sock.outstanding.map OutstandingSeg.span <:+
      (x w).sock.outstanding.map OutstandingSeg.span)
    (hout : ∀ p ∈ out, p.seg.type = .DATA → p.seg.span ∈ spans) :
    Aligned cfg w spans (Function.update x w x') (wire ++ out) := by
  have hself : Function.update x w x' w = x' := Function.update_self _ _ _
  have hother : Function.update x w x' w.other = x w.other := Function.update_of_ne w.other_ne _ _
  refine ⟨?_, ?_, ?_, ?_⟩
  · rw [hself, hwritten]
    exact h.tiles
  · rw [hself]
    exact hqueue.trans h.queue
  · intro p hp hfrom hty
    obtain hp | hp := List.mem_append.mp hp
    · exact h.data p hp hfrom hty
    · exact hout p hp hty
  · rw [hself, hother, hwritten]
    exact h.border

theorem act_write (h : Aligned cfg w spans x wire) (hok : EndOk w (x w)) {now : Int} {buf : Buf}
    {pos : Int} {n : ℕ} {out : List Sent} (hst : (x w).sock.state = .ESTABLISHED)
    (hout : List.Forall₂ (fun p seg => cfg.Sends w p .DATA 0 seg.seqStart seg.data) out
      (chunks now buf (x w).sock.sndNxt pos n)) :
    Aligned cfg w (spans ++ (chunks now buf (x w).sock.sndNxt pos n).map OutstandingSeg.span)
      (Function.update x w
        { x w with
          sock := written (x w).sock now buf pos n
          written := (x w).written ++ buf.slice pos n })
      (wire ++ out) := by
  have hnxt := (hok.started (.inl hst)).sndNxt
  have hchunks := chunks_span_tile now buf (x w).sock.sndNxt pos n
  have hlength : ((((x w).written ++ buf.slice pos n).length : ℕ) : Int) =
      (x w).written.length + n := by simp
  set segs := chunks now buf (x w).sock.sndNxt pos n with hsegs
  have htiles : SpanTiles (1 + (x w).written.length) (segs.map OutstandingSeg.span)
      (1 + ((x w).written ++ buf.slice pos n).length) := by
    rw [hlength, ← add_assoc, ← hnxt]
    exact hchunks
  refine ⟨?_, ?_, ?_, ?_⟩
  · rw [Function.update_self]
    exact h.tiles.append htiles
  · rw [Function.update_self]
    obtain ⟨acked, hacked⟩ := h.queue
    refine ⟨acked, ?_⟩
    show acked ++ ((x w).sock.outstanding ++ segs).map OutstandingSeg.span = _
    rw [List.map_append, ← List.append_assoc, hacked]
  · intro p hp hfrom hty
    obtain hp | hp := List.mem_append.mp hp
    · exact List.mem_append_left _ (h.data p hp hfrom hty)
    · obtain ⟨seg, hseg, hsends⟩ := exists_mem_of_forall₂ hout hp
      rw [hsends.span]
      exact List.mem_append_right _ (List.mem_map_of_mem hseg)
  · rw [Function.update_self, Function.update_of_ne w.other_ne]
    exact h.border.append htiles

theorem act_sender (h : Aligned cfg w spans x wire) (hok : EndOk w (x w)) {op : Op} {x' : End}
    {out : List Sent} (hact : Act cfg w (x w) op x' out) :
    ∃ spans', Aligned cfg w spans' (Function.update x w x') (wire ++ out) := by
  have hnone : ∀ p ∈ ([] : List Sent), p.seg.type = .DATA → p.seg.span ∈ spans :=
    fun _ hp => by cases hp
  have hsame : (x w).sock.outstanding.map OutstandingSeg.span <:+
      (x w).sock.outstanding.map OutstandingSeg.span := List.suffix_refl _
  cases hact with
  | idle | read | readEnd | accept | acceptClosed | closePending | shutdown | window | finAcked |
    establishClosed | refused => exact ⟨spans, h.sender_same rfl hsame hnone⟩
  | write hheld hst hpos hout => exact ⟨_, h.act_write hok hst hout⟩
  | shutdownFin hi hheld hst hempty hp =>
      refine ⟨spans, h.sender_same rfl hsame fun q hq hty => ?_⟩
      rw [List.mem_singleton.mp hq, hp.type] at hty
      cases hty
  | @timeout now out hout =>
      have hspan : (timedOut (x w).sock now).outstanding.map OutstandingSeg.span =
          (x w).sock.outstanding.map OutstandingSeg.span := List.map_map
      refine ⟨spans, h.sender_same rfl ?_ fun p hp _ => ?_⟩
      · rw [hspan]
      · obtain ⟨seg, hseg, hsends⟩ := hout p hp
        rw [hsends.span]
        exact h.queue.subset (List.mem_map_of_mem hseg)
  | @advance now srcAddr ack hty hst hlt hle =>
      obtain ⟨hout, _⟩ := advanced_sender ((x w).sock.setRwnd ack.window) now ack.seqNum
      refine ⟨spans, h.sender_same rfl ?_ hnone⟩
      rw [hout]
      exact (List.dropWhile_suffix _).map _
  | @advanceFin now srcAddr ack p hty hst hlt hle hempty hp =>
      refine ⟨spans, h.sender_same rfl ?_ fun q hq hty => ?_⟩
      · show (advanced _ _ _).outstanding.map _ <:+ _
        rw [hempty]
        exact List.nil_suffix
      · rw [List.mem_singleton.mp hq, hp.type] at hty
        cases hty
  | @establish now srcAddr ack hty hpend hst hack =>
      rw [(x w).sock.markEstablished_of_synSent ack.window hst]
      exact ⟨spans, h.sender_same rfl hsame hnone⟩
  | answer hty hst hout | store hty hst hseq hne hroom hout | peerFin hty hreg hout =>
      refine ⟨spans, h.sender_same rfl hsame fun p hp hty => ?_⟩
      rw [(hout p hp).type] at hty
      cases hty
  | born hty hw hs hheld hout =>
      refine ⟨spans, h.sender_same rfl List.nil_suffix fun p hp hty => ?_⟩
      rw [(hout p hp).type] at hty
      cases hty

theorem act_receiver (h : Aligned cfg w spans x wire) (hok : EndOk w.other (x w.other)) {op : Op}
    {x' : End} {out : List Sent} (hact : Act cfg w.other (x w.other) op x' out)
    (harr : ∀ now srcAddr t, op = .receive now srcAddr t → t.type = .DATA → t.span ∈ spans) :
    Aligned cfg w spans (Function.update x w.other x') (wire ++ out) := by
  have hw : Function.update x w.other x' w = x w := Function.update_of_ne (Ne.symm w.other_ne) _ _
  refine ⟨?_, ?_, ?_, ?_⟩
  · rw [hw]
    exact h.tiles
  · rw [hw]
    exact h.queue
  · intro p hp hfrom hty
    obtain hp | hp := List.mem_append.mp hp
    · exact h.data p hp hfrom hty
    · exact absurd ((hact.sends p hp).1.unique hfrom) w.other_ne
  · rw [hw, Function.update_self]
    obtain hsame | ⟨now, srcAddr, data, rfl, hty, hst, hseq, hreceived⟩ := hact.received_cases
    · rw [hsame]
      exact h.border
    · -- the segment ends where the next one begins
      have hrcv := (hok.started hst).rcvNxt
      have hstop : data.span.stop = 1 + x'.received.length := by
        rw [Span.stop, hreceived, List.length_append]
        show data.seqNum + (data.payload.length : Int) = _
        push_cast
        omega
      rw [← hstop]
      exact h.tiles.border (harr _ _ _ rfl hty)

/-- The queue of the sender: what the receiver has already, and what it waits for. -/
theorem queue_cut (h : Aligned cfg w spans x wire) (hok : EndOk w (x w)) (hs : Started (x w))
    (hknown : (x w).sock.sndUna ≤ 1 + (x w.other).received.length) :
    ∃ old new, (x w).sock.outstanding.map OutstandingSeg.span = old ++ new ∧
      (∀ a ∈ old, a.start < 1 + (x w.other).received.length) ∧
      SpanTiles (1 + (x w.other).received.length) new (x w).sock.sndNxt := by
  obtain ⟨acked, hacked⟩ := h.queue
  have htiles := h.tiles
  have hborder := h.border
  rw [← hacked] at htiles hborder
  rw [← hs.sndNxt] at htiles hborder
  obtain ⟨c, hold, hqueue⟩ := htiles.of_append
  have hc : c ≤ 1 + ((x w.other).received.length : Int) := by
    refine le_trans ?_ hknown
    cases hempty : (x w).sock.outstanding with
    | nil =>
        rw [hempty] at hqueue
        exact le_of_eq (hqueue.trans (hok.sender.empty_iff.mp hempty).symm)
    | cons seg segs =>
        rw [hempty] at hqueue
        obtain ⟨a, hsegs, hle⟩ := hok.sender.tiles
        rw [hempty] at hsegs
        have h1 : seg.seqStart = c := hqueue.1
        have h2 : seg.seqStart = a := hsegs.1
        omega
  have hmine : Border Span.start ((x w).sock.outstanding.map OutstandingSeg.span)
      (x w).sock.sndNxt (1 + (x w.other).received.length) := by
    obtain heq | ⟨a, ha, hstart⟩ := hborder
    · exact .inl heq
    · obtain ha | ha := List.mem_append.mp ha
      · have hlt := hold.lt_of_mem ha
        omega
      · exact .inr ⟨a, ha, hstart⟩
  obtain ⟨old, new, heq, hpast, hnew⟩ := hqueue.cut hmine
  refine ⟨old, new, heq, fun a ha => ?_, hnew⟩
  have hlt := hpast.lt_of_mem ha
  omega

end Aligned

/-! ### Windows -/

/-- No window is larger than a buffer. -/
structure Capped (cfg : Config) (w : Party) (x : Party → End) (wire : List Sent) : Prop where
  rwnd : (x w).sock.rwnd ≤ TcpSocket.RECV_BUF_CAP
  flight : (x w).sock.sndNxt - (x w).sock.sndUna ≤ TcpSocket.RECV_BUF_CAP
  acks : ∀ p ∈ wire, cfg.From w.other p → p.seg.type = .ACK → p.seg.window ≤ TcpSocket.RECV_BUF_CAP

theorem Act.flight_cases {x x' : End} {op : Op} {out : List Sent} (hok : EndOk w x)
    (hact : Act cfg w x op x' out) :
    x'.sock.sndNxt - x'.sock.sndUna ≤ max (x.sock.sndNxt - x.sock.sndUna) x.sock.rwnd := by
  cases hact with
  | @write now i buf pos len out hheld hst hpos hout =>
      show x.sock.sndNxt + ((windowRoom x.sock len : ℕ) : Int) - x.sock.sndUna ≤ _
      unfold windowRoom TcpSocket.effectiveWindow
      omega
  | @advance now srcAddr ack hty hst hlt hle =>
      obtain ⟨-, huna, hnxt, -⟩ := advanced_sender (x.sock.setRwnd ack.window) now ack.seqNum
      refine le_trans ?_ (le_max_left _ _)
      rw [huna, hnxt]
      exact sub_le_sub_left hlt.le _
  | @advanceFin now srcAddr ack p hty hst hlt hle hempty hp =>
      obtain ⟨-, huna, hnxt, -⟩ := advanced_sender (x.sock.setRwnd ack.window) now ack.seqNum
      refine le_trans ?_ (le_max_left _ _)
      show (advanced _ _ _).sndNxt - (advanced _ _ _).sndUna ≤ _
      rw [huna, hnxt]
      exact sub_le_sub_left hlt.le _
  | @establish now srcAddr ack hty hpend hst hack =>
      rw [x.sock.markEstablished_of_synSent ack.window hst]
      exact le_trans hok.sender.rwnd (le_max_right _ _)
  | born hty hw hs hheld hout => exact le_trans hok.sender.rwnd (le_max_right _ _)
  | idle | read | readEnd | accept | acceptClosed | closePending | shutdown | shutdownFin | timeout |
    window | finAcked | establishClosed | refused | answer | store | peerFin => exact le_max_left _ _

theorem Capped.act {x : Party → End} {wire : List Sent} {v : Party} {op : Op} {x' : End}
    {out : List Sent} (h : Capped cfg w x wire) (hok : ∀ v, EndOk v (x v)) (hok' : EndOk v x')
    (hact : Act cfg v (x v) op x' out) (harr : Sys.Arrival cfg (Capped cfg w) x wire v op) :
    Capped cfg w (Function.update x v x') (wire ++ out) := by
  obtain rfl | rfl := w.eq_or_eq_other v
  · refine ⟨?_, ?_, ?_⟩
    · rw [Function.update_self]
      obtain heq | ⟨now, srcAddr, ack, rfl, hty, heq⟩ := hact.rwnd_cases
      · rw [heq]
        exact h.rwnd
      · obtain ⟨p, rfl, hfrom, -, hp⟩ := harr now srcAddr ack rfl
        rw [heq]
        exact max_le (by decide) (hp.acks p List.mem_cons_self hfrom hty)
    · rw [Function.update_self]
      exact (hact.flight_cases (hok v)).trans (max_le h.flight h.rwnd)
    · intro p hp hfrom hty
      obtain hp | hp := List.mem_append.mp hp
      · exact h.acks p hp hfrom hty
      · exact absurd (hfrom.unique (hact.sends p hp).1) v.other_ne
  · have hw : Function.update x w.other x' w = x w := Function.update_of_ne (Ne.symm w.other_ne) _ _
    refine ⟨?_, ?_, ?_⟩
    · rw [hw]
      exact h.rwnd
    · rw [hw]
      exact h.flight
    · intro p hp hfrom hty
      obtain hp | hp := List.mem_append.mp hp
      · exact h.acks p hp hfrom hty
      · have hused := hok'.used
        rw [hact.window_eq p hp hty]
        unfold TcpSocket.getRecvBufAvailable
        omega

/-! ### Tables -/

/-- An end that is connected is in the table of its side. -/
def Entered (x : End) : Prop := x.sock.Live → x.registered = true

theorem Entered.act {x x' : End} {op : Op} {out : List Sent} (h : Entered x)
    (hact : Act cfg w x op x' out) : Entered x' := by
  cases hact with
  | idle | write | read | timeout | window | answer | store | acceptClosed => exact h
  | readEnd | closePending | finAcked | refused => exact fun hst => absurd rfl hst.ne.1
  | accept hw hheld hst => exact fun _ => h hst
  | shutdown hi hheld hst | shutdownFin hi hheld hst => exact fun _ => h (.inl hst)
  | advance hty hst => exact fun _ => h hst
  | advanceFin hty hst => exact fun _ => h (.inr hst)
  | establish | establishClosed | born => exact fun _ => rfl
  | peerFin hty hreg => exact fun _ => hreg

/-! ### Runs -/

namespace Sys

theorem init_aligned (cfg : Config) (w : Party) :
    Aligned cfg w [] ((init cfg).ends cfg) (init cfg).wire := by
  obtain ⟨q, hq, hwire⟩ := init_wire cfg
  have hfresh := init_fresh cfg w
  have hempty := (init_endOk cfg w).sender.empty_iff.mpr (hfresh.sndUna.trans hfresh.sndNxt.symm)
  refine ⟨?_, ?_, ?_, ?_⟩
  · rw [hfresh.written]
    exact rfl
  · rw [hempty]
    exact List.suffix_refl _
  · intro p hp _ hty
    rw [hwire] at hp
    rw [List.mem_singleton.mp hp, hq.type] at hty
    cases hty
  · rw [hfresh.written, (init_fresh cfg w.other).received]
    exact .inl rfl

theorem aligned_run (cfg : Config) (w : Party) (es : List Event) :
    ∃ spans, Aligned cfg w spans ((run (step cfg) (init cfg) es).ends cfg)
      (run (step cfg) (init cfg) es).wire := by
  refine ends_rule (I := fun x wire => ∃ spans, Aligned cfg w spans x wire) (G := fun _ _ _ => True)
    ?_ ?_ ⟨_, init_aligned cfg w⟩ (guarded_trivial (fun _ _ _ => trivial) _ es)
  · rintro x wire wire' ⟨spans, h⟩ hsub
    exact ⟨spans, h.subset hsub⟩
  · rintro x wire v op x' out hok - h hact harr -
    obtain ⟨spans, h, harr⟩ := Arrival.exists (I := fun spans x wire => Aligned cfg w spans x wire)
      (fun spans x wire wire' h hsub => h.subset hsub) h harr
    obtain rfl | rfl := w.eq_or_eq_other v
    · exact h.act_sender (hok v) hact
    · refine ⟨spans, h.act_receiver (hok w.other) hact ?_⟩
      rintro now srcAddr t rfl hty
      obtain ⟨p, rfl, hfrom, -, hp⟩ := harr now srcAddr t rfl
      rw [Party.other_other] at hfrom
      exact hp.data p List.mem_cons_self hfrom hty

theorem init_capped (cfg : Config) (w : Party) :
    Capped cfg w ((init cfg).ends cfg) (init cfg).wire := by
  obtain ⟨q, hq, hwire⟩ := init_wire cfg
  have hfresh := init_fresh cfg w
  have hsock : ((init cfg).ends cfg w).sock = openSocket cfg w := openedMan_conn cfg w
  refine ⟨?_, ?_, ?_⟩
  · rw [hsock]
    cases w <;> exact le_rfl
  · rw [hfresh.sndNxt, hfresh.sndUna]
    decide
  · intro p hp _ hty
    rw [hwire] at hp
    rw [List.mem_singleton.mp hp, hq.type] at hty
    cases hty

theorem capped_run (cfg : Config) (w : Party) (es : List Event) :
    Capped cfg w ((run (step cfg) (init cfg) es).ends cfg) (run (step cfg) (init cfg) es).wire := by
  refine ends_rule (I := Capped cfg w) (G := fun _ _ _ => True) ?_ ?_ (init_capped cfg w)
    (guarded_trivial (fun _ _ _ => trivial) _ es)
  · exact fun x wire wire' h hsub => ⟨h.rwnd, h.flight, fun p hp => h.acks p (hsub p hp)⟩
  · exact fun x wire v op x' out hok hok' h hact harr _ => h.act hok hok' hact harr

theorem entered_run (cfg : Config) (w : Party) (es : List Event) :
    Entered ((run (step cfg) (init cfg) es).ends cfg w) := by
  refine ends_rule (I := fun x _ => Entered (x w)) (G := fun _ _ _ => True) ?_ ?_ ?_
    (guarded_trivial (fun _ _ _ => trivial) _ es)
  · exact fun x wire wire' h _ => h
  · rintro x wire v op x' out - - h hact - -
    obtain rfl | rfl := v.eq_or_eq_other w
    · rw [Function.update_self]
      exact h.act hact
    · rw [Function.update_of_ne v.other_ne]
      exact h
  · exact fun hst => absurd hst (init_fresh cfg w).idle

end Sys

end NetBridge
