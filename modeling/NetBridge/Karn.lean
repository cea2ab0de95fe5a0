import NetBridge.Backoff
import NetBridge.Closing
import NetBridge.Contracts
import NetBridge.Effects
import NetBridge.Journal

/-! # Karn's rule

`onAck` takes a sample of the round-trip time from the last segment that the acknowledgement
covers, unless that segment has been sent again.  `Ledger` relates the queue of one direction to the
record of the run: the data of a segment that is not marked has been sent once, at
`firstSentAtMs`, and whatever acknowledgement covers a segment was sent by a receiver that had
taken the segment in.  A sample is then the time since the one transmission that the acknowledgement
can be an answer to (`Sys.sample_of_single_transmission`). -/

namespace NetBridge

open TcpManager (written timedOut stored advanced finQueued)

/-! ### Spans -/

/-- Data with the sequence number of its first byte. -/
structure Span where
  start : Int
  data : List UInt8
deriving DecidableEq

namespace Span

variable (a : Span)

/-- The sequence number after the data. -/
def stop : Int := a.start + a.data.length

/-- The data has a byte with number `y`. -/
def Holds (y : Int) : Prop := a.start ≤ y ∧ y < a.stop

instance (y : Int) : Decidable (a.Holds y) := inferInstanceAs (Decidable (_ ∧ _))

end Span

def OutstandingSeg.span (seg : OutstandingSeg) : Span := ⟨seg.seqStart, seg.data⟩

theorem OutstandingSeg.span_stop {seg : OutstandingSeg} (h : seg.len = seg.data.length) :
    seg.span.stop = seg.stop := by
  show seg.seqStart + (seg.data.length : Int) = seg.seqStart + seg.len
  rw [h]

def Transport.span (t : Transport) : Span := ⟨t.seqNum, t.payload⟩

theorem Config.Sends.span {cfg : Config} {w : Party} {p : Sent} {type : SegType} {window : Int}
    {seg : OutstandingSeg} (h : cfg.Sends w p type window seg.seqStart seg.data) :
    p.seg.span = seg.span := by
  rw [Transport.span, h.seqNum, h.payload]
  rfl

/-- The spans cover the sequence numbers from `a` to `b`. -/
abbrev SpanTiles (a : Int) (spans : List Span) (b : Int) : Prop :=
  Tiles Span.start Span.stop a spans b

theorem chunks_span_tile (now : Int) (buf : Buf) (start pos : Int) (n : ℕ) :
    SpanTiles start ((chunks now buf start pos n).map OutstandingSeg.span) (start + n) := by
  have hlen := chunks_len now buf start pos n
  have htiles := chunks_tile now buf start pos n
  generalize start + (n : Int) = b at htiles
  generalize chunks now buf start pos n = segs at hlen htiles
  induction segs generalizing start with
  | nil => exact htiles
  | cons seg segs ih =>
      obtain ⟨h1, h2, h3⟩ := htiles
      obtain ⟨hseg, hsegs⟩ := List.forall_mem_cons.mp hlen
      have hstop := OutstandingSeg.span_stop hseg.1
      refine ⟨h1, by rw [hstop]; exact h2, ?_⟩
      rw [hstop]
      exact ih seg.stop hsegs h3

/-! ### Transmissions -/

namespace Mark

/-- A transmission by `w` of the byte with number `y`. -/
def carries (w : Party) (y : Int) : Mark → Bool
  | sent v _ p => decide (v = w ∧ p.seg.type = .DATA ∧ p.seg.span.Holds y)
  | accepted .. => false

end Mark

variable {cfg : Config} {w : Party}

theorem filter_carries_nil {v : Party} {y : Int} {op : Op} {before after : List UInt8}
    {out : List Sent} (h : ∀ p ∈ out, v = w → p.seg.type = .DATA → ¬ p.seg.span.Holds y) :
    (marksOf v op before after out).filter (Mark.carries w y) = [] := by
  rw [List.filter_eq_nil_iff]
  intro mark hmark
  obtain hmark | hmark := List.mem_append.mp hmark
  · obtain ⟨t, _, rfl⟩ := List.mem_map.mp hmark
    exact Bool.false_ne_true
  · obtain ⟨p, hp, rfl⟩ := List.mem_map.mp hmark
    simp only [Mark.carries, decide_eq_true_eq, not_and]
    exact fun hv hty => h p hp hv hty

theorem filter_carries_chunks (now : Option Int) {out : List Sent} {segs : List OutstandingSeg}
    (hout : List.Forall₂ (fun p seg => cfg.Sends w p .DATA 0 seg.seqStart seg.data) out segs)
    {a b : Int} (htiles : SpanTiles a (segs.map OutstandingSeg.span) b) {seg : OutstandingSeg}
    (hseg : seg ∈ segs) :
    ∃ q, cfg.Sends w q .DATA 0 seg.seqStart seg.data ∧ ∀ y, seg.span.Holds y →
      (out.map (Mark.sent w now)).filter (Mark.carries w y) = [.sent w now q] := by
  induction hout generalizing a with
  | nil => cases hseg
  | @cons p head out segs hp hout ih =>
      obtain ⟨_, _, hrest⟩ := htiles
      have hcarries : ∀ y, Mark.carries w y (.sent w now p) = decide (head.span.Holds y) := by
        intro y
        simp only [Mark.carries, hp.type, hp.span, true_and]
      obtain rfl | hmem := List.mem_cons.mp hseg
      · refine ⟨p, hp, ?_⟩
        intro y hy
        rw [List.map_cons, List.filter_cons_of_pos (by rw [hcarries, decide_eq_true_eq]; exact hy)]
        congr 1
        rw [List.filter_eq_nil_iff]
        intro mark hmark
        obtain ⟨q, hq, rfl⟩ := List.mem_map.mp hmark
        obtain ⟨seg', hseg', hsends⟩ := exists_mem_of_forall₂ hout hq
        -- the later segments start where this one stops
        have hle := hrest.le_of_mem (List.mem_map_of_mem hseg')
        simp only [Mark.carries, hsends.span, decide_eq_true_eq, not_and]
        intro _ _ hholds
        have h1 := hy.2
        have h2 := hholds.1
        omega
      · obtain ⟨q, hq, hfilter⟩ := ih hrest hmem
        refine ⟨q, hq, ?_⟩
        intro y hy
        have hle := hrest.le_of_mem (List.mem_map_of_mem hmem)
        have hnot : ¬ head.span.Holds y := by
          intro hholds
          have h1 := hy.1
          have h2 := hholds.2
          omega
        rw [List.map_cons, List.filter_cons_of_neg (by rw [hcarries, decide_eq_true_eq]; exact hnot)]
        exact hfilter y hy

/-! ### Positions in the record -/

theorem getElem?_append_cases {α : Type*} {l new : List α} {k : ℕ} {a : α}
    (h : (l ++ new)[k]? = some a) : l[k]? = some a ∨ l.length ≤ k ∧ a ∈ new := by
  obtain hlt | hge := Nat.lt_or_ge k l.length
  · rw [List.getElem?_append_left hlt] at h
    exact .inl h
  · rw [List.getElem?_append_right hge] at h
    exact .inr ⟨hge, List.mem_of_getElem? h⟩

theorem getElem?_append_of_some {α : Type*} {l : List α} {k : ℕ} {a : α} (h : l[k]? = some a)
    (new : List α) : k < l.length ∧ (l ++ new)[k]? = some a := by
  obtain ⟨hlt, _⟩ := List.getElem?_eq_some_iff.mp h
  rw [List.getElem?_append_left hlt]
  exact ⟨hlt, h⟩

/-- Before position `k` the receiver has taken the span in. -/
def TakenBefore (w : Party) (log : List Mark) (k : ℕ) (a : Span) : Prop :=
  ∃ j < k, ∃ t, log[j]? = some (.accepted w t) ∧ t.span = a

theorem TakenBefore.mono {log : List Mark} {k k' : ℕ} {a : Span} (h : TakenBefore w log k a)
    (hk : k ≤ k') (new : List Mark) : TakenBefore w (log ++ new) k' a := by
  obtain ⟨j, hj, t, ht, rfl⟩ := h
  exact ⟨j, Nat.lt_of_lt_of_le hj hk, t, (getElem?_append_of_some ht new).2, rfl⟩

theorem takenBefore_of_mem {log : List Mark} {t : Transport} (h : Mark.accepted w t ∈ log) :
    TakenBefore w log log.length t.span := by
  obtain ⟨j, hj⟩ := List.mem_iff_getElem?.mp h
  exact ⟨j, (List.getElem?_eq_some_iff.mp hj).1, t, hj, rfl⟩

/-! ### The invariant -/

/-- The record of the direction from `w` to the other side; `spans` are the segments that `w` has
cut its stream into. -/
structure Ledger (cfg : Config) (w : Party) (spans : List Span) (log : List Mark) (x : Party → End)
    (wire : List Sent) : Prop where
  tiles : SpanTiles 1 spans (1 + (x w).written.length)
  queue : (x w).sock.outstanding.map OutstandingSeg.span <:+ spans
  onWire : ∀ v, ∀ p ∈ wire, cfg.From v p → p.seg.type ≠ .SYN → ∃ now, Mark.sent v now p ∈ log
  sent : ∀ now p, Mark.sent w now p ∈ log → p.seg.type = .DATA → p.seg.span ∈ spans
  once : ∀ seg ∈ (x w).sock.outstanding, seg.retransmitted = false →
    ∃ q, cfg.Sends w q .DATA 0 seg.seqStart seg.data ∧ ∀ y, seg.span.Holds y →
      log.filter (Mark.carries w y) = [.sent w (some seg.firstSentAtMs) q]
  accepted : ∀ (j : ℕ) (t : Transport), log[j]? = some (.accepted w.other t) →
    t.type = .DATA ∧ ∃ i < j, ∃ now p, log[i]? = some (.sent w now p) ∧ p.seg = t
  stored : ∀ a ∈ spans, a.stop ≤ 1 + (x w.other).received.length →
    TakenBefore w.other log log.length a
  acks : ∀ (k : ℕ) (now : Option Int) (p : Sent), log[k]? = some (.sent w.other now p) → p.seg.type = .ACK →
    p.seg.seqNum ≤ 1 + (x w.other).received.length ∧
        (∀ a ∈ spans, a.stop ≤ p.seg.seqNum → TakenBefore w.other log k a) ∨
      0 ≤ (x w).sock.finSeq ∧ p.seg.seqNum = (x w).sock.finSeq + 1

namespace Ledger

variable {spans : List Span} {log : List Mark} {x : Party → End} {wire : List Sent}

theorem subset (h : Ledger cfg w spans log x wire) {wire' : List Sent}
    (hsub : ∀ p ∈ wire', p ∈ wire) : Ledger cfg w spans log x wire' :=
  ⟨h.tiles, h.queue, fun v p hp => h.onWire v p (hsub p hp), h.sent, h.once, h.accepted, h.stored,
    h.acks⟩

theorem onWire_append (h : Ledger cfg w spans log x wire) {v : Party} {op : Op}
    {before after : List UInt8} {out : List Sent} (hfrom : ∀ p ∈ out, cfg.From v p) :
    ∀ u, ∀ p ∈ wire ++ out, cfg.From u p → p.seg.type ≠ .SYN →
      ∃ now, Mark.sent u now p ∈ log ++ marksOf v op before after out := by
  intro u p hp hu hty
  obtain hp | hp := List.mem_append.mp hp
  · obtain ⟨now, hmem⟩ := h.onWire u p hp hu hty
    exact ⟨now, List.mem_append_left _ hmem⟩
  · obtain rfl := hu.unique (hfrom p hp)
    refine ⟨op.reading, List.mem_append_right _ (List.mem_append_right _ ?_)⟩
    exact List.mem_map_of_mem hp

/-- The sender acts: `spans'` after it, and what it may send. -/
theorem sender (h : Ledger cfg w spans log x wire) {op : Op} {before after : List UInt8} {x' : End}
    {out : List Sent} {spans' : List Span}
    (hahead : (x w.other).received.length ≤ (x w).written.length)
    (htiles : SpanTiles 1 spans' (1 + x'.written.length))
    (hqueue : x'.sock.outstanding.map OutstandingSeg.span <:+ spans') (hsub : spans ⊆ spans')
    (hnew : ∀ a ∈ spans', a ∈ spans ∨ 1 + (x w).written.length < a.stop)
    (hfrom : ∀ p ∈ out, cfg.From w p)
    (hout : ∀ p ∈ out, p.seg.type = .DATA → p.seg.span ∈ spans')
    (honce : ∀ seg ∈ x'.sock.outstanding, seg.retransmitted = false →
      ∃ q, cfg.Sends w q .DATA 0 seg.seqStart seg.data ∧ ∀ y, seg.span.Holds y →
        (log ++ marksOf w op before after out).filter (Mark.carries w y) =
          [.sent w (some seg.firstSentAtMs) q])
    (hfin : 0 ≤ (x w).sock.finSeq → x'.sock.finSeq = (x w).sock.finSeq) :
    Ledger cfg w spans' (log ++ marksOf w op before after out) (Function.update x w x')
      (wire ++ out) := by
  have hself : Function.update x w x' w = x' := Function.update_self _ _ _
  have hother : Function.update x w x' w.other = x w.other := Function.update_of_ne w.other_ne _ _
  -- an entry of the other side is an old one
  have hold : ∀ {k : ℕ} {mark : Mark}, (log ++ marksOf w op before after out)[k]? = some mark →
      (∀ t, mark ≠ .accepted w t) → (∀ now p, mark ≠ .sent w now p) → log[k]? = some mark := by
    intro k mark hk haccepted hsent
    refine (getElem?_append_cases hk).resolve_right ?_
    rintro ⟨_, hmem⟩
    obtain hmem | hmem := List.mem_append.mp hmem
    · obtain ⟨t, _, rfl⟩ := List.mem_map.mp hmem
      exact haccepted t rfl
    · obtain ⟨p, _, rfl⟩ := List.mem_map.mp hmem
      exact hsent _ p rfl
  refine ⟨?_, ?_, h.onWire_append hfrom, ?_, ?_, ?_, ?_, ?_⟩
  · rw [hself]
    exact htiles
  · rw [hself]
    exact hqueue
  · intro now p hmem hty
    obtain hmem | hmem := List.mem_append.mp hmem
    · exact hsub (h.sent now p hmem hty)
    · obtain hmem | hmem := List.mem_append.mp hmem
      · obtain ⟨t, _, hmark⟩ := List.mem_map.mp hmem
        cases hmark
      · obtain ⟨q, hq, hmark⟩ := List.mem_map.mp hmem
        cases hmark
        exact hout p hq hty
  · rw [hself]
    exact honce
  · intro j t hj
    have hj := hold hj (fun _ e => w.other_ne (Mark.accepted.inj e).1) (fun _ _ e => by cases e)
    obtain ⟨hty, i, hi, now, p, hp, rfl⟩ := h.accepted j t hj
    exact ⟨hty, i, hi, now, p, (getElem?_append_of_some hp _).2, rfl⟩
  · rw [hother]
    intro a ha hstop
    obtain ha | hbeyond := hnew a ha
    · exact (h.stored a ha hstop).mono (by simp) _
    · omega
  · rw [hother, hself]
    intro k now p hk hty
    have hk := hold hk (fun _ e => by cases e) (fun _ _ e => w.other_ne (Mark.sent.inj e).1)
    obtain ⟨hle, htaken⟩ | ⟨h0, hseq⟩ := h.acks k now p hk hty
    · refine .inl ⟨hle, ?_⟩
      intro a ha hstop
      obtain ha | hbeyond := hnew a ha
      · exact (htaken a ha hstop).mono le_rfl _
      · omega
    · rw [hfin h0]
      exact .inr ⟨h0, hseq⟩

theorem sender_quiet (h : Ledger cfg w spans log x wire) {op : Op} {before after : List UInt8}
    {x' : End} {out : List Sent} (hahead : (x w.other).received.length ≤ (x w).written.length)
    (hwritten : x'.written = (x w).written)
    (hqueue : x'.sock.outstanding <:+ (x w).sock.outstanding)
    (hfin : 0 ≤ (x w).sock.finSeq → x'.sock.finSeq = (x w).sock.finSeq)
    (hfrom : ∀ p ∈ out, cfg.From w p) (hout : ∀ p ∈ out, p.seg.type ≠ .DATA) :
    Ledger cfg w spans (log ++ marksOf w op before after out) (Function.update x w x')
      (wire ++ out) := by
  refine h.sender hahead (by rw [hwritten]; exact h.tiles) ?_ (List.Subset.refl _) (fun a ha => .inl ha) hfrom
    (fun p hp hty => absurd hty (hout p hp)) ?_ hfin
  · exact (hqueue.map _).trans h.queue
  · intro seg hseg hfresh
    obtain ⟨q, hq, hfilter⟩ := h.once seg (hqueue.subset hseg) hfresh
    refine ⟨q, hq, ?_⟩
    intro y hy
    rw [List.filter_append, hfilter y hy,
      filter_carries_nil fun p hp _ hty => absurd hty (hout p hp), List.append_nil]

/-- The receiver acts: what it takes in, and the acknowledgements it may send. -/
theorem receiver (h : Ledger cfg w spans log x wire) {op : Op} {before after : List UInt8} {x' : End}
    {out : List Sent} (hle : (x w.other).received.length ≤ x'.received.length)
    (hfrom : ∀ p ∈ out, cfg.From w.other p)
    (haccepts : ∀ t ∈ op.accepts before after,
      t.type = .DATA ∧ ∃ now p, Mark.sent w now p ∈ log ∧ p.seg = t)
    (hstored : ∀ a ∈ spans, a.stop ≤ 1 + x'.received.length →
      a.stop ≤ 1 + (x w.other).received.length ∨ ∃ t ∈ op.accepts before after, t.span = a)
    (hacks : ∀ p ∈ out, p.seg.type = .ACK → p.seg.seqNum ≤ 1 + x'.received.length ∨
      0 ≤ (x w).sock.finSeq ∧ p.seg.seqNum = (x w).sock.finSeq + 1) :
    Ledger cfg w spans (log ++ marksOf w.other op before after out) (Function.update x w.other x')
      (wire ++ out) := by
  have hself : Function.update x w.other x' w.other = x' := Function.update_self _ _ _
  have hw : Function.update x w.other x' w = x w := Function.update_of_ne (Ne.symm w.other_ne) _ _
  set accs := (op.accepts before after).map (Mark.accepted w.other)
  set sents := out.map (Mark.sent w.other op.reading)
  have hlog : log ++ marksOf w.other op before after out = (log ++ accs) ++ sents := by
    rw [List.append_assoc]
    rfl
  have htaken : ∀ a ∈ spans, a.stop ≤ 1 + x'.received.length →
      TakenBefore w.other (log ++ accs) (log ++ accs).length a := by
    intro a ha hstop
    obtain hstop | ⟨t, ht, rfl⟩ := hstored a ha hstop
    · exact (h.stored a ha hstop).mono (by simp) _
    · exact takenBefore_of_mem (List.mem_append_right _ (List.mem_map_of_mem ht))
  refine ⟨?_, ?_, h.onWire_append hfrom, ?_, ?_, ?_, ?_, ?_⟩
  · rw [hw]
    exact h.tiles
  · rw [hw]
    exact h.queue
  · intro now p hmem hty
    rw [hlog, List.append_assoc] at hmem
    obtain hmem | hmem := List.mem_append.mp hmem
    · exact h.sent now p hmem hty
    · obtain hmem | hmem := List.mem_append.mp hmem
      · obtain ⟨t, _, hmark⟩ := List.mem_map.mp hmem
        cases hmark
      · obtain ⟨q, _, hmark⟩ := List.mem_map.mp hmem
        exact absurd (Mark.sent.inj hmark).1 w.other_ne
  · rw [hw]
    intro seg hseg hfresh
    obtain ⟨q, hq, hfilter⟩ := h.once seg hseg hfresh
    refine ⟨q, hq, ?_⟩
    intro y hy
    rw [List.filter_append, hfilter y hy,
      filter_carries_nil fun _ _ e => absurd e w.other_ne, List.append_nil]
  · intro j t hj
    rw [hlog, List.append_assoc] at hj ⊢
    obtain hj | ⟨hge, hmem⟩ := getElem?_append_cases hj
    · obtain ⟨hty, i, hi, now, p, hp, rfl⟩ := h.accepted j t hj
      exact ⟨hty, i, hi, now, p, (getElem?_append_of_some hp _).2, rfl⟩
    · obtain hmem | hmem := List.mem_append.mp hmem
      · obtain ⟨t', ht', hmark⟩ := List.mem_map.mp hmem
        cases hmark
        obtain ⟨hty, now, p, hp, hseg⟩ := haccepts t ht'
        obtain ⟨i, hi⟩ := List.mem_iff_getElem?.mp hp
        obtain ⟨hlt, hi⟩ := getElem?_append_of_some hi (accs ++ sents)
        exact ⟨hty, i, by omega, now, p, hi, hseg⟩
      · obtain ⟨p, _, hmark⟩ := List.mem_map.mp hmem
        cases hmark
  · rw [hself, hlog]
    intro a ha hstop
    exact (htaken a ha hstop).mono (by simp) _
  · rw [hself, hw, hlog]
    intro k now p hk hty
    obtain hk | ⟨hge, hmem⟩ := getElem?_append_cases hk
    · -- an entry of `accs` is no transmission
      have hk : log[k]? = some (.sent w.other now p) := by
        refine (getElem?_append_cases hk).resolve_right ?_
        rintro ⟨_, hmem⟩
        obtain ⟨t, _, hmark⟩ := List.mem_map.mp hmem
        cases hmark
      obtain ⟨hseq, hall⟩ | hfin := h.acks k now p hk hty
      · refine .inl ⟨by omega, ?_⟩
        intro a ha hstop
        exact ((hall a ha hstop).mono le_rfl accs).mono le_rfl sents
      · exact .inr hfin
    · obtain ⟨q, hq, hmark⟩ := List.mem_map.mp hmem
      obtain rfl : q = p := (Mark.sent.inj hmark).2.2
      obtain hseq | hfin := hacks q hq hty
      · refine .inl ⟨hseq, ?_⟩
        intro a ha hstop
        exact (htaken a ha (by omega)).mono hge sents
      · exact .inr hfin

theorem filter_beyond (h : Ledger cfg w spans log x wire) {y : Int}
    (hy : 1 + (x w).written.length ≤ y) : log.filter (Mark.carries w y) = [] := by
  rw [List.filter_eq_nil_iff]
  intro mark hmark
  cases mark with
  | accepted v t => exact Bool.false_ne_true
  | sent v now p =>
      simp only [Mark.carries, decide_eq_true_eq]
      rintro ⟨rfl, hty, hholds⟩
      have hstop := (h.tiles.lt_of_mem (h.sent now p hmark hty)).2
      have hlt := hholds.2
      omega

theorem act_write (h : Ledger cfg w spans log x wire) (hok : EndOk w (x w))
    (hahead : (x w.other).received.length ≤ (x w).written.length) {now : Int} {i : SockId}
    {buf : Buf} {pos len : Int} {n : ℕ} {out : List Sent} {before after : List UInt8}
    (hst : (x w).sock.state = .ESTABLISHED) (hfrom : ∀ p ∈ out, cfg.From w p)
    (hout : List.Forall₂ (fun p seg => cfg.Sends w p .DATA 0 seg.seqStart seg.data) out
      (chunks now buf (x w).sock.sndNxt pos n)) :
    Ledger cfg w
      (spans ++ (chunks now buf (x w).sock.sndNxt pos n).map OutstandingSeg.span)
      (log ++ marksOf w (.write now i buf pos len) before after out)
      (Function.update x w
        { x w with
          sock := written (x w).sock now buf pos n
          written := (x w).written ++ buf.slice pos n })
      (wire ++ out) := by
  have hnxt := (hok.started (.inl hst)).sndNxt
  have htiles := chunks_span_tile now buf (x w).sock.sndNxt pos n
  have hlength : ((((x w).written ++ buf.slice pos n).length : ℕ) : Int) =
      (x w).written.length + n := by simp
  set segs := chunks now buf (x w).sock.sndNxt pos n with hsegs
  -- the new segments begin where the old ones stop
  have hbeyond : ∀ seg ∈ segs, (x w).sock.sndNxt ≤ seg.seqStart ∧ seg.seqStart < seg.span.stop := by
    intro seg hseg
    have hmem := List.mem_map_of_mem (f := OutstandingSeg.span) hseg
    exact ⟨htiles.le_of_mem hmem, (htiles.lt_of_mem hmem).1⟩
  refine h.sender hahead ?_ ?_ (List.subset_append_left _ _) ?_ hfrom ?_ ?_ ?_
  · apply h.tiles.append
    rw [hlength, ← add_assoc, ← hnxt]
    exact htiles
  · obtain ⟨acked, hacked⟩ := h.queue
    refine ⟨acked, ?_⟩
    show acked ++ ((x w).sock.outstanding ++ segs).map OutstandingSeg.span = _
    rw [List.map_append, ← List.append_assoc, hacked]
  · intro a ha
    obtain ha | ha := List.mem_append.mp ha
    · exact .inl ha
    · obtain ⟨seg, hseg, rfl⟩ := List.mem_map.mp ha
      have := hbeyond seg hseg
      right
      omega
  · intro p hp _
    obtain ⟨seg, hseg, hsends⟩ := exists_mem_of_forall₂ hout hp
    rw [hsends.span]
    exact List.mem_append_right _ (List.mem_map_of_mem hseg)
  · intro seg hseg hfresh
    obtain hseg | hseg := List.mem_append.mp hseg
    · obtain ⟨q, hq, hfilter⟩ := h.once seg hseg hfresh
      refine ⟨q, hq, ?_⟩
      intro y hy
      rw [List.filter_append, hfilter y hy, filter_carries_nil, List.append_nil]
      intro p hp _ _ hholds
      obtain ⟨seg', hseg', hsends⟩ := exists_mem_of_forall₂ hout hp
      rw [hsends.span] at hholds
      have hstop := (h.tiles.lt_of_mem (h.queue.subset (List.mem_map_of_mem hseg))).2
      have hstart := (hbeyond seg' hseg').1
      have h1 : seg'.seqStart ≤ y := hholds.1
      have h2 := hy.2
      omega
    · obtain ⟨q, hq, hfilter⟩ := filter_carries_chunks (some now) hout htiles hseg
      refine ⟨q, hq, ?_⟩
      intro y hy
      have hstart := (hbeyond seg hseg).1
      have h1 : seg.seqStart ≤ y := hy.1
      rw [List.filter_append, h.filter_beyond (by omega), List.nil_append,
        (chunks_fresh now buf _ pos n seg hseg).1]
      exact hfilter y hy
  · exact fun h0 => absurd (hok.finSeq_neg hst) (not_lt.mpr h0)

/-- What an act of the sender does to the record. -/
theorem act_sender (h : Ledger cfg w spans log x wire) (hok : EndOk w (x w))
    (hahead : (x w.other).received.length ≤ (x w).written.length) {op : Op} {x' : End}
    {out : List Sent} (hact : Act cfg w (x w) op x' out) :
    ∃ spans', Ledger cfg w spans' (log ++ marksOf w op (x w).received x'.received out)
      (Function.update x w x') (wire ++ out) := by
  have hfrom : ∀ p ∈ out, cfg.From w p := fun p hp => (hact.sends p hp).1
  have hnone : ∀ p ∈ ([] : List Sent), p.seg.type ≠ .DATA := fun _ hp => by cases hp
  have hsame : (x w).sock.outstanding <:+ (x w).sock.outstanding := List.suffix_refl _
  cases hact with
  | idle | read | readEnd | accept | acceptClosed | closePending | shutdown | window | finAcked |
    establishClosed | refused =>
      exact ⟨spans, h.sender_quiet hahead rfl hsame (fun _ => rfl) hfrom hnone⟩
  | write hheld hst hpos hout => exact ⟨_, h.act_write hok hahead hst hfrom hout⟩
  | shutdownFin hi hheld hst hempty hp =>
      refine ⟨spans, h.sender_quiet hahead rfl hsame ?_ hfrom ?_⟩
      · exact fun h0 => absurd (hok.finSeq_neg hst) (not_lt.mpr h0)
      · intro q hq
        rw [List.mem_singleton.mp hq, hp.type]
        decide
  | @timeout now out hout =>
      have hspan : (timedOut (x w).sock now).outstanding.map OutstandingSeg.span =
          (x w).sock.outstanding.map OutstandingSeg.span := List.map_map
      refine ⟨spans, h.sender hahead h.tiles ?_ (List.Subset.refl _) (fun a ha => .inl ha) hfrom ?_ ?_
        fun _ => rfl⟩
      · rw [hspan]
        exact h.queue
      · intro p hp _
        obtain ⟨seg, hseg, hsends⟩ := hout p hp
        rw [hsends.span]
        exact h.queue.subset (List.mem_map_of_mem hseg)
      · -- every segment is marked
        intro seg hseg hfresh
        obtain ⟨seg', _, rfl⟩ := List.mem_map.mp hseg
        cases hfresh
  | @advance now srcAddr ack hty hst hlt hle =>
      obtain ⟨hout, _⟩ := advanced_sender ((x w).sock.setRwnd ack.window) now ack.seqNum
      obtain ⟨_, _, _, hfin, _⟩ := advanced_receiver ((x w).sock.setRwnd ack.window) now ack.seqNum
      refine ⟨spans, h.sender_quiet hahead rfl ?_ (fun _ => hfin) hfrom hnone⟩
      rw [hout]
      exact List.dropWhile_suffix _
  | @advanceFin now srcAddr ack p hty hst hlt hle hempty hp =>
      have hneg := hok.finSeq_neg_of_lt (by omega)
      refine ⟨spans, h.sender_quiet hahead rfl ?_ ?_ hfrom ?_⟩
      · show (advanced _ _ _).outstanding <:+ _
        rw [hempty]
        exact List.nil_suffix
      · exact fun h0 => absurd hneg (not_lt.mpr h0)
      · intro q hq
        rw [List.mem_singleton.mp hq, hp.type]
        decide
  | @establish now srcAddr ack hty hpend hst hack =>
      have e := (x w).sock.markEstablished_of_synSent ack.window hst
      rw [e]
      exact ⟨spans, h.sender_quiet hahead rfl hsame (fun _ => rfl) hfrom hnone⟩
  | answer hty hst hout | store hty hst hseq hne hroom hout | peerFin hty hreg hout =>
      refine ⟨spans, h.sender_quiet hahead rfl hsame (fun _ => rfl) hfrom ?_⟩
      intro p hp
      rw [(hout p hp).type]
      decide
  | born hty hw hs hheld hout =>
      refine ⟨spans, h.sender_quiet hahead rfl List.nil_suffix ?_ hfrom ?_⟩
      · intro _
        rw [hs]
        rfl
      · intro p hp
        rw [(hout p hp).type]
        decide

theorem receiver_same (h : Ledger cfg w spans log x wire) {op : Op} {x' : End} {out : List Sent}
    (hreceived : x'.received = (x w.other).received) (hfrom : ∀ p ∈ out, cfg.From w.other p)
    (hacks : ∀ p ∈ out, p.seg.type = .ACK →
      p.seg.seqNum ≤ 1 + (x w.other).received.length ∨
        0 ≤ (x w).sock.finSeq ∧ p.seg.seqNum = (x w).sock.finSeq + 1) :
    Ledger cfg w spans (log ++ marksOf w.other op (x w.other).received x'.received out)
      (Function.update x w.other x') (wire ++ out) := by
  have hnone : op.accepts (x w.other).received x'.received = [] := by
    rw [hreceived]
    exact op.accepts_self _
  rw [← hreceived] at hacks
  refine h.receiver (by rw [hreceived]) hfrom ?_ ?_ hacks
  · rw [hnone]
    exact fun t ht => by cases ht
  · rw [hreceived]
    exact fun a _ hstop => .inl hstop

/-- What an act of the receiver does to the record. -/
theorem act_receiver (h : Ledger cfg w spans log x wire) (hok : EndOk w.other (x w.other)) {op : Op}
    {x' : End} {out : List Sent} (hact : Act cfg w.other (x w.other) op x' out)
    (harr : ∀ now srcAddr t, op = .receive now srcAddr t →
      (t.type = .SYN → t.seqNum = 0) ∧
      (t.type = .DATA → ∃ now p, Mark.sent w now p ∈ log ∧ p.seg = t) ∧
      (t.type = .FIN → 0 ≤ (x w).sock.finSeq ∧ t.seqNum = (x w).sock.finSeq)) :
    Ledger cfg w spans (log ++ marksOf w.other op (x w.other).received x'.received out)
      (Function.update x w.other x') (wire ++ out) := by
  have hfrom : ∀ p ∈ out, cfg.From w.other p := fun p hp => (hact.sends p hp).1
  have hnone : ∀ p ∈ ([] : List Sent), p.seg.type = .ACK →
      p.seg.seqNum ≤ 1 + (x w.other).received.length ∨
        0 ≤ (x w).sock.finSeq ∧ p.seg.seqNum = (x w).sock.finSeq + 1 := fun _ hp => by cases hp
  cases hact with
  | idle | accept | acceptClosed | closePending | shutdown | window | finAcked | establishClosed |
    refused => exact h.receiver_same rfl hfrom hnone
  | write hheld hst hpos hout =>
      refine h.receiver_same rfl hfrom fun p hp hty => ?_
      obtain ⟨seg, _, hsends⟩ := exists_mem_of_forall₂ hout hp
      rw [hsends.type] at hty
      cases hty
  | read | readEnd => exact h.receiver_same (received_taken _ _ _) hfrom hnone
  | shutdownFin hi hheld hst hempty hp =>
      refine h.receiver_same rfl hfrom fun q hq hty => ?_
      rw [List.mem_singleton.mp hq, hp.type] at hty
      cases hty
  | timeout hout =>
      refine h.receiver_same rfl hfrom fun p hp hty => ?_
      obtain ⟨seg, _, hsends⟩ := hout p hp
      rw [hsends.type] at hty
      cases hty
  | @advance now srcAddr ack hty hst hlt hle =>
      obtain ⟨hbuf, _⟩ := advanced_receiver ((x w.other).sock.setRwnd ack.window) now ack.seqNum
      exact h.receiver_same (congrArg (fun l => (x w.other).readOut ++ l) hbuf) hfrom hnone
  | @advanceFin now srcAddr ack p hty hst hlt hle hempty hp =>
      obtain ⟨hbuf, _⟩ := advanced_receiver ((x w.other).sock.setRwnd ack.window) now ack.seqNum
      refine h.receiver_same (congrArg (fun l => (x w.other).readOut ++ l) hbuf) hfrom
        fun q hq hty => ?_
      rw [List.mem_singleton.mp hq, hp.type] at hty
      cases hty
  | @establish now srcAddr ack hty hpend hst hack =>
      have e := (x w.other).sock.markEstablished_of_synSent ack.window hst
      rw [e]
      exact h.receiver_same rfl hfrom hnone
  | answer hty hst hout =>
      have hrcv := (hok.started hst).rcvNxt
      refine h.receiver_same rfl hfrom fun p hp _ => .inl ?_
      rw [(hout p hp).seqNum, hrcv]
  | @store now srcAddr data out hty hst hseq hne hroom hout =>
      have hrcv := (hok.started hst).rcvNxt
      obtain ⟨at₀, p, hsent, rfl⟩ := (harr _ _ _ rfl).2.1 hty
      have hreceived : ({ x w.other with sock := TcpManager.stored (x w.other).sock p.seg.payload } :
          End).received = (x w.other).received ++ p.seg.payload := by
        rw [End.received, End.received, List.append_assoc]
        rfl
      rw [hreceived]
      have haccepts : (Op.receive now srcAddr p.seg).accepts (x w.other).received
          ((x w.other).received ++ p.seg.payload) = [p.seg] := if_pos ⟨hty, hne, rfl⟩
      have hspan := h.sent at₀ p hsent hty
      have hstart : p.seg.span.start = 1 + (x w.other).received.length := hseq.trans hrcv
      have hstop : p.seg.span.stop = 1 + ((x w.other).received ++ p.seg.payload).length := by
        rw [Span.stop, hstart, List.length_append]
        show _ + (p.seg.payload.length : Int) = _
        push_cast
        omega
      refine h.receiver ?_ hfrom ?_ ?_ ?_
      · rw [hreceived, List.length_append]
        omega
      · rw [haccepts]
        intro t ht
        rw [List.mem_singleton.mp ht]
        exact ⟨hty, at₀, p, hsent, rfl⟩
      · rw [haccepts, hreceived, ← hstop]
        intro a ha hle
        obtain hold | hnew := le_or_gt a.stop (1 + (x w.other).received.length)
        · exact .inl hold
        · -- the last byte of `a` is one of the segment
          refine .inr ⟨p.seg, List.mem_singleton.mpr rfl, ?_⟩
          have hpos := (h.tiles.lt_of_mem ha).1
          apply h.tiles.eq_of_mem hspan ha (p := a.stop - 1)
          · omega
          · omega
      · intro q hq _
        left
        have hnext : (TcpManager.stored (x w.other).sock p.seg.payload).rcvNxt = p.seg.span.stop := by
          show (x w.other).sock.rcvNxt + (p.seg.payload.length : Int) = p.seg.span.stop
          rw [← hseq]
          rfl
        rw [hreceived, ← hstop, (hout q hq).seqNum, hnext]
  | @peerFin now srcAddr fin out hty hreg hout =>
      obtain ⟨h0, hseq⟩ := (harr _ _ _ rfl).2.2 hty
      refine h.receiver_same rfl hfrom fun p hp _ => .inr ⟨h0, ?_⟩
      rw [(hout p hp).seqNum, hseq]
  | @born now srcAddr syn out hty hw hs hheld hout =>
      have h0 := (harr _ _ _ rfl).1 hty
      refine h.receiver_same ?_ hfrom fun p hp _ => .inl ?_
      · rw [End.received, End.received, hs]
        rfl
      · rw [(hout p hp).seqNum, h0]
        omega

end Ledger

/-! ### All runs -/

theorem Link.ahead {x : Party → End} {wire : List Sent} {c : Channel UInt8}
    (h : Link cfg w x wire c) : (x w.other).received.length ≤ (x w).written.length := by
  have hgood := (Channel.good_of_reachable h.reachable).stored
  rw [h.stored, h.written] at hgood
  exact hgood.length_le

namespace Sys

theorem init_ledger (cfg : Config) (w : Party) :
    Ledger cfg w [] [] ((init cfg).ends cfg) (init cfg).wire := by
  obtain ⟨q, hq, hwire⟩ := init_wire cfg
  have hfresh := init_fresh cfg w
  have hempty : ((init cfg).ends cfg w).sock.outstanding = [] :=
    (init_endOk cfg w).sender.empty_iff.mpr (hfresh.sndUna.trans hfresh.sndNxt.symm)
  refine ⟨?_, ?_, ?_, ?_, ?_, ?_, ?_, ?_⟩
  · rw [hfresh.written]
    rfl
  · rw [hempty]
    exact List.suffix_refl _
  · intro v p hp _ hty
    rw [hwire, List.mem_singleton] at hp
    subst hp
    exact absurd hq.type hty
  · exact fun now p hp => by cases hp
  · rw [hempty]
    exact fun seg hseg => by cases hseg
  · exact fun j t hj => by cases hj
  · exact fun a ha => by cases ha
  · exact fun k now p hk => by cases hk

theorem ledger_run (cfg : Config) (w : Party) (es : List Event) :
    ∃ spans, Ledger cfg w spans (journal cfg (init cfg) es)
      ((run (step cfg) (init cfg) es).ends cfg) (run (step cfg) (init cfg) es).wire := by
  have hrun := journal_rule cfg (I := fun log x wire => ∃ spans,
    (∃ c, Link cfg w x wire c) ∧ Ledger cfg w spans log x wire) ?_ ?_
    ⟨[], ⟨_, init_link cfg w⟩, init_ledger cfg w⟩ es
  · obtain ⟨spans, _, hledger⟩ := hrun
    exact ⟨spans, hledger⟩
  · rintro log x wire wire' ⟨spans, ⟨c, hlink⟩, hledger⟩ hsub
    exact ⟨spans, ⟨c, hlink.subset hsub⟩, hledger.subset hsub⟩
  · intro log x wire v op x' out hok _ hI hact harr
    obtain ⟨spans, ⟨hlink, hledger⟩, harr⟩ := Arrival.exists
      (I := fun spans x wire => (∃ c, Link cfg w x wire c) ∧ Ledger cfg w spans log x wire)
      (fun spans x wire wire' h hsub =>
        ⟨h.1.imp fun c hc => hc.subset hsub, h.2.subset hsub⟩) hI harr
    have hlink' := link_act w x wire v op x' out hok hlink hact fun now srcAddr t e => by
      obtain ⟨p, hp, hfrom, hsyn, hl, _⟩ := harr now srcAddr t e
      exact ⟨p, hp, hfrom, hsyn, hl⟩
    obtain rfl | rfl := w.eq_or_eq_other v
    · obtain ⟨c, hc⟩ := hlink
      obtain ⟨spans', hledger'⟩ := hledger.act_sender (hok v) hc.ahead hact
      exact ⟨spans', hlink', hledger'⟩
    · refine ⟨spans, hlink', hledger.act_receiver (hok w.other) hact ?_⟩
      rintro now srcAddr t rfl
      obtain ⟨p, rfl, hfrom, hsyn, ⟨c, hc⟩, hl⟩ := harr now srcAddr t rfl
      rw [Party.other_other] at hfrom
      refine ⟨hsyn, ?_, hc.fins p List.mem_cons_self hfrom⟩
      intro hty
      obtain ⟨now', hsent⟩ := hl.onWire w p List.mem_cons_self hfrom (by rw [hty]; decide)
      exact ⟨now', p, hsent, rfl⟩

end Sys

/-! ### The sample -/

namespace TcpSocket

/-- What is kept of the samples. -/
def estimates (s : TcpSocket) : Bool × ℚ × ℚ := (s.hasEstRTT, s.estRTTms, s.devRTTms)

theorem estimates_onSampleRTT {s s' : TcpSocket} (h : s.estimates = s'.estimates) (v : Int) :
    (s.onSampleRTT v).estimates = (s'.onSampleRTT v).estimates := by
  simp only [estimates, Prod.mk.injEq] at h
  obtain ⟨hhas, hest, hdev⟩ := h
  unfold onSampleRTT estimates
  rw [hhas, hest, hdev]
  split_ifs <;> rfl

/-- The last segment popped is one of the queue, and the acknowledgement covers it. -/
theorem popLoop_snd {ackNum : Int} {segs : List OutstandingSeg} {last : Option OutstandingSeg}
    {seg : OutstandingSeg} (h : (popLoop ackNum segs last).2 = some seg) :
    last = some seg ∨ seg ∈ segs ∧ seg.stop ≤ ackNum := by
  induction segs generalizing last with
  | nil => exact .inl h
  | cons head rest ih =>
      unfold popLoop at h
      split_ifs at h with hhead
      · obtain hlast | ⟨hmem, hstop⟩ := ih h
        · obtain rfl := Option.some.inj hlast
          exact .inr ⟨List.mem_cons_self, hhead⟩
        · exact .inr ⟨List.mem_cons_of_mem _ hmem, hstop⟩
      · exact .inl h

end TcpSocket

theorem advanced_sampled {s : TcpSocket} {now ackNum : Int} {seg : OutstandingSeg}
    (hpop : (TcpSocket.popLoop ackNum s.outstanding none).2 = some seg)
    (hfresh : seg.retransmitted = false) :
    (advanced s now ackNum).estimates = (s.onSampleRTT (now - seg.firstSentAtMs)).estimates := by
  have hpopped : (s.popAckedThrough now ackNum).2 = some seg := hpop
  simp only [advanced, hpopped, hfresh, Bool.false_eq_true, if_false]
  apply TcpSocket.estimates_onSampleRTT
  rfl

theorem advanced_unsampled {s : TcpSocket} {now ackNum : Int}
    (h : ¬ ((TcpSocket.popLoop ackNum s.outstanding none).2.any
      fun seg => !seg.retransmitted) = true) :
    (advanced s now ackNum).estimates = s.estimates := by
  have hpopped : (s.popAckedThrough now ackNum).2 =
    (TcpSocket.popLoop ackNum s.outstanding none).2 := rfl
  rw [← hpopped] at h
  simp only [advanced]
  cases hpop : (s.popAckedThrough now ackNum).2 with
  | none => rfl
  | some seg =>
      rw [hpop] at h
      have hmarked : seg.retransmitted = true := by simpa using h
      simp only [hmarked, if_true]
      rfl

theorem TcpManager.TakesSample.popped {m : TcpManager} {i : SockId} {srcAddr : Int}
    {ack : Transport} (h : m.TakesSample i srcAddr ack) :
    ∃ seg, (TcpSocket.popLoop ack.seqNum (m.sock i).outstanding none).2 = some seg ∧
      seg.retransmitted = false := by
  obtain ⟨_, _, _, _, _, _, _, hany⟩ := h
  rw [Option.any_eq_true] at hany
  simpa using hany

/-- The estimates after the ACK that gives the sample. -/
theorem TcpManager.TakesSample.estimates {m : TcpManager} {i : SockId} {srcAddr : Int}
    {ack : Transport} (h : m.TakesSample i srcAddr ack) (hi : i < m.allSockets.length) (now : Int)
    {seg : OutstandingSeg}
    (hpop : (TcpSocket.popLoop ack.seqNum (m.sock i).outstanding none).2 = some seg)
    (hfresh : seg.retransmitted = false) :
    ((m.step (.receive now srcAddr ack)).sock i).estimates =
      ((m.sock i).onSampleRTT (now - seg.firstSentAtMs)).estimates := by
  have hsampled : (advanced ((m.sock i).setRwnd ack.window) now ack.seqNum).estimates =
      ((m.sock i).onSampleRTT (now - seg.firstSentAtMs)).estimates := by
    have hpop : (TcpSocket.popLoop ack.seqNum ((m.sock i).setRwnd ack.window).outstanding none).2 =
      some seg := hpop
    rw [advanced_sampled hpop hfresh]
    apply TcpSocket.estimates_onSampleRTT
    rfl
  obtain e | e | e := h.sock hi now
  · rw [e]
    exact hsampled
  · rw [e]
    exact hsampled
  · rw [e]
    exact hsampled

/-- An operation that gives no sample keeps the estimates. -/
theorem Effect.estimates {m : TcpManager} {op : Op} {j : SockId} {s : TcpSocket}
    (h : Effect m op j s) (hj : m.allSockets.length ≤ j → m.sock j = TcpSocket.new)
    (hfin : 0 ≤ (m.sock j).finSeq → (m.sock j).finSeq = (m.sock j).sndNxt)
    (hno : ∀ now srcAddr ack, op = .receive now srcAddr ack → ¬ m.TakesSample j srcAddr ack) :
    s.estimates = (m.sock j).estimates := by
  have hadvanced : ∀ {now srcAddr : Int} {ack : Transport}, op = .receive now srcAddr ack →
      ack.type = .ACK → m.synPendingByKey.lookup (segKey srcAddr ack) = none →
      m.establishedByKey.lookup (segKey srcAddr ack) = some j → (m.sock j).Live →
      (m.sock j).sndUna < ack.seqNum → ack.seqNum ≤ (m.sock j).sndNxt →
      (advanced ((m.sock j).setRwnd ack.window) now ack.seqNum).estimates =
        (m.sock j).estimates := by
    intro now srcAddr ack hop hty hpend hest hst hlt hle
    refine advanced_unsampled fun hany => hno now srcAddr ack hop
      ⟨hty, hpend, hest, hst, ?_, hlt, hle, hany⟩
    rintro ⟨_, h0, hseq⟩
    have := hfin h0
    omega
  cases h with
  | @read _ buf pos len =>
      obtain ⟨_, _, e⟩ | ⟨_, _, _, e⟩ | ⟨_, _, e⟩ := (m.sock j).read_effect buf pos len
      · rw [e]
      · rw [e]
        rfl
      · rw [e]
        rfl
  | enqueue =>
      unfold TcpSocket.enqueueAccepted
      split_ifs <;> rfl
  | child =>
      rw [hj le_rfl]
      rfl
  | establish =>
      unfold TcpSocket.markEstablished
      split_ifs <;> rfl
  | advance hty hpend hest hst hlt hle hs =>
      rw [hs]
      exact hadvanced rfl hty hpend hest hst hlt hle
  | advanceFin hty hpend hest hlt hle hs hst | advanceFails hty hpend hest hlt hle hs hst =>
      subst hs
      rw [TcpManager.advanced_state] at hst
      exact hadvanced rfl hty hpend hest (.inr hst) hlt hle
  | same | bind | listen | dequeue | accept | address | connect | close | shutdown | shutdownFin |
    shutdownFails | release | write | finAcked | window | peerFin | refused | store | timeout => rfl

/-- The data of `seg` was transmitted once before, as `q` at `firstSentAtMs`, and whenever `ack` was
sent, the other side had taken in `q` by then. -/
structure SentOnce (cfg : Config) (w : Party) (log : List Mark) (seg : OutstandingSeg) (q : Sent)
    (ack : Transport) : Prop where
  sends : cfg.Sends w q .DATA 0 seg.seqStart seg.data
  once : ∀ y, seg.span.Holds y →
    log.filter (Mark.carries w y) = [.sent w (some seg.firstSentAtMs) q]
  acked : ∃ now p, Mark.sent w.other now p ∈ log ∧ p.seg = ack
  order : ∀ (k : ℕ) (now : Option Int) (p : Sent), log[k]? = some (.sent w.other now p) →
    p.seg = ack → ∃ j < k, ∃ l < j, log[l]? = some (.sent w (some seg.firstSentAtMs) q) ∧
      log[j]? = some (.accepted w.other q.seg)

namespace Sys

/-- The estimates of the connection change only when `onAck` takes a sample. -/
theorem estimates_step (cfg : Config) (es : List Event) (e : Event) (w : Party)
    (hno : ∀ now srcAddr ack,
      (run (step cfg) (init cfg) es).opOf cfg e = some (w, .receive now srcAddr ack) →
      ¬ ((run (step cfg) (init cfg) es).side w).man.TakesSample w.conn srcAddr ack) :
    (((run (step cfg) (init cfg) es).step cfg e).sock w).estimates =
      ((run (step cfg) (init cfg) es).sock w).estimates := by
  have hok := ok_run cfg es
  set σ := run (step cfg) (init cfg) es
  cases hop : σ.opOf cfg e with
  | none =>
      rw [step, hop]
      rfl
  | some y =>
      obtain ⟨v, op⟩ := y
      rw [step_of_opOf cfg hop]
      obtain rfl | rfl := v.eq_or_eq_other w
      · rw [sock, act_side_self]
        have hsteady := (hok.side w).steady
        have heffect := TcpManager.step_effect hsteady.bounded hsteady.fits op w.conn
        refine heffect.estimates (fun hle => TcpManager.sock_of_length_le _ hle)
          (fun h0 => ((hok.ends w).fin h0).1) ?_
        rintro now srcAddr ack rfl
        exact hno now srcAddr ack hop
      · rw [sock, act_side_other]
        rfl

/-- **Karn's rule.** Whenever `onAck` takes a sample, it takes it from a segment whose data has been
transmitted exactly once, the sample is the time since that transmission and not negative, and the
receiver had taken in that very transmission when it sent the acknowledgement. -/
theorem sample_of_single_transmission (cfg : Config) (es : List Event) (e : Event)
    (hforward : ClockForward (es ++ [e])) (w : Party) (i : SockId) (now srcAddr : Int) (ack : Transport)
    (hop : (run (step cfg) (init cfg) es).opOf cfg e = some (w, .receive now srcAddr ack))
    (hsample : ((run (step cfg) (init cfg) es).side w).man.TakesSample i srcAddr ack) :
    let σ := run (step cfg) (init cfg) es
    let s := (σ.side w).man.sock i
    ∃ seg q, (TcpSocket.popLoop ack.seqNum s.outstanding none).2 = some seg ∧
      seg.retransmitted = false ∧
      (((σ.step cfg e).side w).man.sock i).estimates =
        (s.onSampleRTT (now - seg.firstSentAtMs)).estimates ∧
      0 ≤ now - seg.firstSentAtMs ∧ SentOnce cfg w (journal cfg (init cfg) es) seg q ack := by
  intro σ s
  have hok := ok_run cfg es
  obtain ⟨spans, hledger⟩ := ledger_run cfg w es
  set log := journal cfg (init cfg) es
  obtain ⟨seg, hpop, hfresh⟩ := hsample.popped
  obtain ⟨hty, _, hest, _, _, _, hle, _⟩ := id hsample
  obtain rfl : i = w.conn := ((hok.side w).shape.established _ i hest).1
  have hi := (hok.side w).steady.bounded.established hest
  obtain ⟨hmem, hcovered⟩ := (TcpSocket.popLoop_snd hpop).resolve_left fun e => by cases e
  obtain ⟨q, hq, honce⟩ := hledger.once seg hmem hfresh
  obtain ⟨hlen, hdata, _⟩ := (hok.ends w).sender.segment seg hmem
  have hstop := OutstandingSeg.span_stop hdata
  have hfirst : seg.span.Holds seg.seqStart := by
    refine ⟨le_rfl, ?_⟩
    show seg.seqStart < seg.seqStart + (seg.data.length : Int)
    omega
  have hmark : Mark.sent w (some seg.firstSentAtMs) q ∈ log := by
    have hin : Mark.sent w (some seg.firstSentAtMs) q ∈ log.filter (Mark.carries w seg.seqStart) := by
      rw [honce _ hfirst]
      exact List.mem_singleton.mpr rfl
    exact List.mem_of_mem_filter hin
  have hpast : seg.firstSentAtMs ≤ now := by
    have hreading : e.reading = some now := (opOf_reading hop).symm
    rw [ClockForward, List.filterMap_append, List.pairwise_append] at hforward
    refine hforward.2.2 _ (reading_of_mem_journal hmark) now ?_
    rw [List.mem_filterMap]
    exact ⟨e, List.mem_singleton.mpr rfl, hreading⟩
  obtain ⟨p, hp, hfrom, rfl⟩ : ∃ p ∈ σ.wire, cfg.From w.other p ∧ p.seg = ack := by
    have hin := input_of_opOf cfg (Q := fun p => p ∈ σ.wire) hop fun _ _ p _ hp =>
      List.mem_of_getElem? hp
    cases hin with
    | receive now hp hdest =>
        obtain ⟨v, hv⟩ := hok.wire _ hp
        exact ⟨_, hp, hv.of_dest hdest, rfl⟩
  have hstep : ((σ.step cfg e).side w).man = (σ.side w).man.step (.receive now srcAddr p.seg) := by
    rw [step_of_opOf cfg hop, act_side_self]
    rfl
  refine ⟨seg, q, hpop, hfresh, ?_, by omega, hq, honce, ?_, ?_⟩
  · rw [hstep]
    exact hsample.estimates hi now hpop hfresh
  · obtain ⟨c, hsent⟩ := hledger.onWire w.other p hp hfrom (by rw [hty]; decide)
    exact ⟨c, p, hsent, rfl⟩
  · intro k c p' hk hseg
    rw [← hseg] at hty hle hcovered
    obtain ⟨_, htaken⟩ | ⟨h0, hseq⟩ := hledger.acks k c p' hk hty
    · have hspan := hledger.queue.subset (List.mem_map_of_mem hmem)
      obtain ⟨j, hj, t, ht, hsame⟩ := htaken _ hspan (by omega)
      obtain ⟨htype, l, hl, c', p'', hl'', rfl⟩ := hledger.accepted j t ht
      -- it is a copy of the one transmission
      have hin : Mark.sent w c' p'' ∈ log.filter (Mark.carries w seg.seqStart) := by
        refine List.mem_filter.mpr ⟨List.mem_of_getElem? hl'', ?_⟩
        simp only [Mark.carries, decide_eq_true_eq]
        refine ⟨trivial, htype, ?_⟩
        rw [hsame]
        exact hfirst
      rw [honce _ hfirst, List.mem_singleton] at hin
      obtain ⟨_, rfl, rfl⟩ := Mark.sent.inj hin
      exact ⟨j, hj, l, hl, hl'', ht⟩
    · -- the acknowledgement of the FIN is beyond `sndNxt_`
      have hfin : (σ.sock w).finSeq = (σ.sock w).sndNxt := ((hok.ends w).fin h0).1
      have hseq : p'.seg.seqNum = (σ.sock w).finSeq + 1 := hseq
      have hle : p'.seg.seqNum ≤ (σ.sock w).sndNxt := hle
      omega

/-- Three bytes are lost and sent again after a timeout, two more are written, and the
acknowledgement of the first three is lost. -/
def mixedRun : List Event :=
  [.deliver 0 0, .deliver 0 0, .write .client 10 0 (some [7, 8, 9]) 0 3, .drop 0,
    .tick .client 2000, .write .client 2010 0 (some [5, 6]) 0 2, .deliver 0 2020, .deliver 0 2030,
    .drop 0]

/-- One acknowledgement covers a segment that was sent twice and one that was sent once; the sample
is the time since the latter was sent. -/
theorem sample_of_single_transmission_mixed :
    let σ := run (step exampleConfig) (init exampleConfig) mixedRun
    let ack : Transport := ⟨80, 5, .ACK, 32763, 6, [], by decide⟩
    (σ.sock .client).outstanding.map (fun seg => (seg.firstSentAtMs, seg.retransmitted)) =
        [(10, true), (2010, false)] ∧
      ∃ seg q, seg.firstSentAtMs = 2010 ∧
        SentOnce exampleConfig .client (journal exampleConfig (init exampleConfig) mixedRun) seg q
          ack := by
  intro σ ack
  refine ⟨by decide, ?_⟩
  obtain ⟨seg, q, hpop, _, _, _, honce⟩ := sample_of_single_transmission exampleConfig mixedRun
    (.deliver 0 2100) (by decide) .client 0 2100 2 ack rfl (by decide)
  refine ⟨seg, q, ?_, honce⟩
  have hlast : (TcpSocket.popLoop ack.seqNum ((σ.side .client).man.sock 0).outstanding none).2 =
    some ⟨4, 2, [5, 6], 2010, false⟩ := by decide
  rw [hlast] at hpop
  obtain rfl := Option.some.inj hpop
  rfl

end Sys

end NetBridge
