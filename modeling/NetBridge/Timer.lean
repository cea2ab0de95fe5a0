import NetBridge.Effects
import NetBridge.StackNode

/-! # The retransmission timer

`nextRtoDeadlineMs_` is `0` while the timer is off.  It is set by `write` (when nothing was
outstanding), by `popAckedThrough` and by the tick, so it is on exactly while data is outstanding
(`TimerOk`).  Together with what a tick sends (`retransmissionTick_sends`) this says when data is
sent again. -/

namespace NetBridge

open TcpManager (written timedOut stored advanced finQueued released addressed)

/-! ### The deadline of a socket -/

/-- The timer of a socket at clock reading `now`. -/
structure TimerOk (now : Int) (s : TcpSocket) : Prop where
  armed : s.nextRtoDeadlineMs = 0 ↔ s.outstanding = []
  due : s.nextRtoDeadlineMs ≠ 0 → s.nextRtoDeadlineMs ≤ now + s.rtoMs
  rto : TcpSocket.RTO_INITIAL_MS ≤ s.rtoMs ∧ s.rtoMs ≤ TcpSocket.RTO_MAX_MS

/-- The fields that the timer is about are the same. -/
structure SameTimer (s s' : TcpSocket) : Prop where
  outstanding : s'.outstanding = s.outstanding
  deadline : s'.nextRtoDeadlineMs = s.nextRtoDeadlineMs
  rto : s'.rtoMs = s.rtoMs

theorem sameTimer_markEstablished (s : TcpSocket) (v : Int) :
    SameTimer s (s.setRwnd v).markEstablished := by
  unfold TcpSocket.markEstablished
  split_ifs <;> exact ⟨rfl, rfl, rfl⟩

/-- An acknowledgement stops the timer or sets it anew. -/
theorem advanced_timer (s : TcpSocket) (now ackNum : Int) :
    (advanced s now ackNum).nextRtoDeadlineMs =
        (if (advanced s now ackNum).outstanding = [] then 0 else now + s.rtoMs) ∧
      (advanced s now ackNum).rtoMs = s.rtoMs := by
  have hbase : (s.popAckedThrough now ackNum).1.additiveIncreaseCwnd.nextRtoDeadlineMs =
      if (s.popAckedThrough now ackNum).1.additiveIncreaseCwnd.outstanding = [] then 0
      else now + s.rtoMs := by
    simp [TcpSocket.popAckedThrough, TcpSocket.additiveIncreaseCwnd, List.isEmpty_iff]
  -- the sample of the round-trip time does not touch the timer
  have hsample : SameTimer (s.popAckedThrough now ackNum).1.additiveIncreaseCwnd
      (advanced s now ackNum) := by
    simp only [advanced]
    split
    · split_ifs
      · exact ⟨rfl, rfl, rfl⟩
      · unfold TcpSocket.onSampleRTT
        split_ifs <;> exact ⟨rfl, rfl, rfl⟩
    · exact ⟨rfl, rfl, rfl⟩
  rw [hsample.deadline, hsample.outstanding, hsample.rto]
  exact ⟨hbase, rfl⟩

namespace TimerOk

variable {now : Int} {s s' : TcpSocket}

theorem congr (h : TimerOk now s) (e : SameTimer s s') : TimerOk now s' := by
  refine ⟨?_, ?_, ?_⟩
  · rw [e.deadline, e.outstanding]
    exact h.armed
  · rw [e.deadline, e.rto]
    exact h.due
  · rw [e.rto]
    exact h.rto

theorem mono {now' : Int} (hnow : now ≤ now') (h : TimerOk now s) : TimerOk now' s := by
  refine ⟨h.armed, fun hd => ?_, h.rto⟩
  have := h.due hd
  omega

theorem new (now : Int) : TimerOk now TcpSocket.new := by
  refine ⟨⟨fun _ => rfl, fun _ => rfl⟩, fun hd => absurd rfl hd, by decide, by decide⟩

theorem initAccepted (now localPort remoteAddr remotePort : Int) :
    TimerOk now (TcpSocket.new.initAccepted localPort remoteAddr remotePort) :=
  (new now).congr ⟨rfl, rfl, rfl⟩

theorem of_set (hnow : 0 ≤ now) (hrto : TcpSocket.RTO_INITIAL_MS ≤ s.rtoMs ∧
    s.rtoMs ≤ TcpSocket.RTO_MAX_MS) (hout : s.outstanding ≠ [])
    (hd : s.nextRtoDeadlineMs = now + s.rtoMs) : TimerOk now s := by
  have hpos : s.nextRtoDeadlineMs ≠ 0 := by
    rw [hd]
    have : (1000 : Int) ≤ s.rtoMs := hrto.1
    omega
  exact ⟨⟨fun h => absurd h hpos, fun h => absurd h hout⟩, fun _ => le_of_eq hd, hrto⟩

theorem written (hnow : 0 ≤ now) (h : TimerOk now s) (buf : Buf) (pos : Int) (n : ℕ) :
    TimerOk now (written s now buf pos n) := by
  obtain rfl | hn := Nat.eq_zero_or_pos n
  · rw [TcpManager.written_zero]
    exact h
  · have hout : (TcpManager.written s now buf pos n).outstanding ≠ [] := by
      show s.outstanding ++ chunks now buf s.sndNxt pos n ≠ []
      rw [chunks_pos now buf s.sndNxt pos hn]
      simp
    by_cases hidle : s.outstanding = []
    · refine of_set hnow h.rto hout ?_
      exact if_pos ⟨hidle, hn⟩
    · -- the timer is on already
      have hd : (TcpManager.written s now buf pos n).nextRtoDeadlineMs = s.nextRtoDeadlineMs :=
        if_neg fun hc => hidle hc.1
      refine ⟨⟨fun e => ?_, fun e => absurd e hout⟩, fun hne => ?_, h.rto⟩
      · rw [hd] at e
        exact absurd (h.armed.mp e) hidle
      · rw [hd] at hne ⊢
        exact h.due hne

theorem advanced (hnow : 0 ≤ now) (h : TimerOk now s) (ackNum : Int) :
    TimerOk now (advanced s now ackNum) := by
  obtain ⟨hd, hrto⟩ := advanced_timer s now ackNum
  by_cases hout : (TcpManager.advanced s now ackNum).outstanding = []
  · rw [if_pos hout] at hd
    refine ⟨⟨fun _ => hout, fun _ => hd⟩, fun hne => absurd hd hne, ?_⟩
    rw [hrto]
    exact h.rto
  · rw [if_neg hout, ← hrto] at hd
    refine of_set hnow ?_ hout hd
    rw [hrto]
    exact h.rto

theorem acked (hnow : 0 ≤ now) (h : TimerOk now s) {v ackNum : Int}
    (hs : s' = TcpManager.advanced (s.setRwnd v) now ackNum) : TimerOk now s' := by
  have hwindow : TimerOk now (s.setRwnd v) := h.congr ⟨rfl, rfl, rfl⟩
  rw [hs]
  exact hwindow.advanced hnow ackNum

theorem timedOut (hnow : 0 ≤ now) (h : TimerOk now s) (hout : s.outstanding ≠ []) :
    TimerOk now (timedOut s now) := by
  obtain ⟨hlo, hhi⟩ := h.rto
  have hlo' : (1000 : Int) ≤ s.rtoMs := hlo
  refine of_set hnow ⟨?_, min_le_right _ _⟩ ?_ rfl
  · show (1000 : Int) ≤ min (s.rtoMs * 2) 64000
    omega
  · show s.outstanding.map _ ≠ []
    simpa using hout

end TimerOk

/-- What an operation at clock reading `now`, or one that takes no reading, makes of a socket. -/
theorem TimerOk.effect {now : Int} (hnow : 0 ≤ now) {m : TcpManager} {op : Op} {j : SockId}
    {s : TcpSocket} (hread : ∀ t ∈ op.reading, t = now) (h : TimerOk now (m.sock j))
    (he : Effect m op j s) : TimerOk now s := by
  cases he with
  | same => exact h
  | child => exact .initAccepted now _ _ _
  | write n hst hpos =>
      obtain rfl := hread _ rfl
      exact h.written hnow _ _ n
  | read =>
      refine h.congr ?_
      obtain ⟨_, _, e⟩ | ⟨_, _, _, e⟩ | ⟨_, _, e⟩ := (m.sock j).read_effect _ _ _
      all_goals
        rw [e]
        exact ⟨rfl, rfl, rfl⟩
  | enqueue hty hl =>
      unfold TcpSocket.enqueueAccepted
      split_ifs
      · exact h.congr ⟨rfl, rfl, rfl⟩
      · exact h
  | establish hty hpend hseq => exact h.congr (sameTimer_markEstablished _ _)
  | advance hty hpend hest hst hlt hle hs hwait =>
      obtain rfl := hread _ rfl
      exact h.acked hnow hs
  | advanceFin hty hpend hest hlt hle hs hst hfin hout =>
      obtain rfl := hread _ rfl
      exact (h.acked hnow hs).congr ⟨rfl, rfl, rfl⟩
  | advanceFails hty hpend hest hlt hle hs hst hfin hout hsend =>
      obtain rfl := hread _ rfl
      exact (h.acked hnow hs).congr ⟨rfl, rfl, rfl⟩
  | timeout hest hdue =>
      obtain rfl := hread _ rfl
      exact h.timedOut hnow hdue.1
  | bind | listen | dequeue | accept | address | connect | close | shutdown | shutdownFin |
    shutdownFails | release | finAcked | window | peerFin | refused | store =>
      exact h.congr ⟨rfl, rfl, rfl⟩

/-! ### All runs -/

/-- A station and its latest clock reading. -/
structure Clocked where
  station : Station
  clock : Int

namespace Clocked

def new (addr : Int) : Clocked := ⟨.new addr, 0⟩

variable (c : Clocked)

def step (e : NodeEvent) : Clocked := ⟨c.station.step e, e.reading.getD c.clock⟩

/-- The clock never goes back. -/
def Allowed (e : NodeEvent) : Prop := c.station.Allowed e ∧ ∀ now ∈ e.reading, c.clock ≤ now

instance (e : NodeEvent) : Decidable (c.Allowed e) :=
  match h : e.reading with
  | none => decidable_of_iff (c.station.Allowed e) (by simp [Allowed, h])
  | some now => decidable_of_iff (c.station.Allowed e ∧ c.clock ≤ now) (by simp [Allowed, h])

/-- What every run with a clock keeps. -/
structure Ok (addr : Int) (c : Clocked) : Prop where
  station : Station.Ok addr c.station.host
  clock : 0 ≤ c.clock
  timers : ∀ i, TimerOk c.clock (c.station.host.man.sock i)

theorem Ok.step {addr : Int} (haddr : Packet.validAddress addr = true) {c : Clocked}
    (ho : Ok addr c) {e : NodeEvent} (he : c.Allowed e) : Ok addr (c.step e) := by
  have hclock : c.clock ≤ e.reading.getD c.clock := by
    cases hr : e.reading with
    | none => exact le_rfl
    | some now => exact he.2 now hr
  have hnow : 0 ≤ e.reading.getD c.clock := ho.clock.trans hclock
  have htimers : ∀ j, TimerOk (e.reading.getD c.clock) (c.station.host.man.sock j) :=
    fun j => (ho.timers j).mono hclock
  obtain h | ⟨op, hop, hnet, hread, h⟩ := Station.step_host he.1
  · refine ⟨?_, hnow, ?_⟩
    · show Station.Ok addr (c.station.step e).host
      rw [h]
      exact ho.station
    · intro j
      show TimerOk _ ((c.station.step e).host.man.sock j)
      rw [h]
      exact htimers j
  · refine ⟨?_, hnow, ?_⟩
    · show Station.Ok addr (c.station.step e).host
      rw [h]
      exact ho.station.step haddr hop hnet
    · intro j
      show TimerOk _ ((c.station.step e).host.man.sock j)
      rw [h]
      refine TimerOk.effect hnow ?_ (htimers j) (TcpManager.step_effect ho.station.sound.bounded
        ho.station.sound.fits op j)
      intro t ht
      rw [hread, Option.mem_def] at ht
      rw [ht]
      rfl

theorem ok_run {addr : Int} (haddr : Packet.validAddress addr = true) {es : List NodeEvent}
    (hes : Guarded Clocked.step Clocked.Allowed (Clocked.new addr) es) :
    Ok addr (run Clocked.step (Clocked.new addr) es) := by
  refine guarded_induction (fun c e ho he => ho.step haddr he) ⟨.new addr, le_rfl, ?_⟩ hes
  intro j
  rw [show (Clocked.new addr).station.host.man.sock j = TcpSocket.new from
    TcpManager.sock_of_length_le _ (Nat.zero_le j)]
  exact .new _

/-- **The timer is on while data is outstanding.**  In every run with a clock that does not go
back, for every socket: the deadline is `0` exactly when nothing is outstanding, it is at most one
timeout away, and the timeout stays between its bounds.  A tick at or after the deadline of a
registered socket sends its queue once, in order, and sets the deadline one doubled timeout ahead;
a tick before the deadline sends nothing for it and leaves it alone. -/
theorem timer_armed_iff_outstanding (addr : Int) (haddr : Packet.validAddress addr = true)
    (es : List NodeEvent) (hes : Guarded Clocked.step Clocked.Allowed (Clocked.new addr) es) :
    let c := run Clocked.step (Clocked.new addr) es
    let m := c.station.node.tcpMan
    ∀ i,
      ((m.sock i).nextRtoDeadlineMs = 0 ↔ (m.sock i).outstanding = []) ∧
      ((m.sock i).nextRtoDeadlineMs ≠ 0 →
        (m.sock i).nextRtoDeadlineMs ≤ c.clock + (m.sock i).rtoMs) ∧
      (TcpSocket.RTO_INITIAL_MS ≤ (m.sock i).rtoMs ∧ (m.sock i).rtoMs ≤ TcpSocket.RTO_MAX_MS) ∧
      ∀ now key, c.clock ≤ now → m.establishedByKey.lookup key = some i →
        ((m.sock i).nextRtoDeadlineMs ≠ 0 → (m.sock i).nextRtoDeadlineMs ≤ now →
          List.Forall₂ (IsDataOf addr (m.sock i)) (sentTo m (m.retransmissionTick now) key)
            (m.sock i).outstanding ∧
          (m.sock i).outstanding.Pairwise (fun seg next => seg.seqStart < next.seqStart) ∧
          ((m.retransmissionTick now).sock i).nextRtoDeadlineMs =
            now + min ((m.sock i).rtoMs * 2) TcpSocket.RTO_MAX_MS ∧
          ((m.retransmissionTick now).sock i).rtoMs =
            min ((m.sock i).rtoMs * 2) TcpSocket.RTO_MAX_MS) ∧
        (now < (m.sock i).nextRtoDeadlineMs →
          sentTo m (m.retransmissionTick now) key = [] ∧
          (m.retransmissionTick now).sock i = m.sock i) := by
  intro c m i
  have ho : Ok addr c := ok_run haddr hes
  have htimer : TimerOk c.clock (m.sock i) := ho.timers i
  refine ⟨htimer.armed, htimer.due, htimer.rto, ?_⟩
  intro now key _ hkey
  obtain ⟨hsock, hsent⟩ := TcpManager.retransmissionTick_sends (m := m) ho.station.sound.fits now
    hkey
  rw [hsent, hsock]
  constructor
  · intro hon hle
    have hdue : Due now (m.sock i) := ⟨fun hout => hon (htimer.armed.mpr hout), hon, hle⟩
    have hsender : SenderOk (m.sock i) := ho.station.sender i
    have hroute : (m.sock i).key.Routes m.addr := ho.station.onLine (.inr (.inr ⟨key, hkey⟩))
    have haddr : m.addr = addr := ho.station.addr
    obtain ⟨a, htiles, _⟩ := hsender.tiles
    refine ⟨?_, htiles.pairwise, ?_, ?_⟩
    · rw [← haddr]
      refine resent_forall₂ hdue hroute ?_
      intro seg hseg
      obtain ⟨_, hlen, hmax⟩ := hsender.segment seg hseg
      rw [Transport.MAX_PAYLOAD_SIZE_eq] at hmax
      omega
    · rw [expired, if_pos hdue]
      rfl
    · rw [expired, if_pos hdue]
      rfl
  · intro hlt
    have hdue : ¬ Due now (m.sock i) := fun hdue => absurd hdue.2.2 (not_le.mpr hlt)
    rw [resent, if_neg hdue, expired, if_neg hdue]
    exact ⟨rfl, rfl⟩

/-- A client has written three bytes at time 10; its deadline is 1010. -/
theorem timer_armed_three_bytes :
    let c := run Clocked.step (Clocked.new 1) Station.threeBytesAtNode
    let m := c.station.node.tcpMan
    (m.sock 0).nextRtoDeadlineMs = 1010 ∧ c.clock = 10 ∧
      ((m.retransmissionTick 1010).sock 0).nextRtoDeadlineMs = 3010 := by
  intro c m
  refine ⟨by decide, by decide, ?_⟩
  have h := (timer_armed_iff_outstanding 1 (by decide) Station.threeBytesAtNode (by decide) 0).2.2.2
    1010 ⟨2, 80, 5⟩ (by decide) (by decide)
  exact (h.1 (by decide) (by decide)).2.2.1

end Clocked

end NetBridge
