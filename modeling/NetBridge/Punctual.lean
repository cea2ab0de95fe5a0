import NetBridge.Schedule

/-! # Retransmission on time

After a tick of the retransmission timer no registered socket has a deadline that has come: the tick
has sent the segments of those that were due and set their deadlines anew, and every operation sets a
deadline after its own time (`Prompt`).  With the ticks every 10 ms, a segment that is to be sent again
waits for less than 10 ms after its deadline (`retransmission_on_time`). -/

namespace NetBridge

open TcpManager (written timedOut stored advanced finQueued released addressed)

/-! ### New entries in the tables -/

namespace TcpManager

variable {m m₁ : TcpManager} {op : Op} {j : SockId} {k : ConnKey}

/-- A socket gets into `establishedByKey_` from `synPendingByKey_` or as a new child. -/
theorem Move.established_cases (hm : Move m op m₁) (h : m₁.establishedByKey.lookup k = some j) :
    m.establishedByKey.lookup k = some j ∨ (∃ k', m.synPendingByKey.lookup k' = some j) ∨
      j = m.allSockets.length := by
  cases hm with
  | release | releaseOnClose | releaseOnAck =>
      exact .inl ((Table.lookup_eraseValue_eq_some _).mp h).1
  | spawn hty hl =>
      obtain ⟨-, e⟩ | ⟨-, h⟩ := Table.lookup_insert_some _ h
      · exact .inr (.inr e)
      · exact .inl h
  | establish hty hpend hseq =>
      obtain ⟨-, rfl⟩ | ⟨-, h⟩ := Table.lookup_insert_some _ h
      · exact .inr (.inl ⟨_, hpend⟩)
      · exact .inl h
  | finAcked => exact .inl (Table.lookup_erase_some _ h).2
  | quiet | socket | bind | listen | acceptClosed | accept | address | connect | close | shutdown
    | endStream | peerFin | refused => exact .inl h

theorem Move.pending_cases (hm : Move m op m₁) (h : m₁.synPendingByKey.lookup k = some j) :
    m.synPendingByKey.lookup k = some j ∨ (Opens op ∧ op.target = some j) := by
  cases hm with
  | release | releaseOnClose | releaseOnAck =>
      exact .inl ((Table.lookup_eraseValue_eq_some _).mp h).1
  | connect hguard hs =>
      obtain ⟨-, rfl⟩ | ⟨-, h⟩ := Table.lookup_insert_some _ h
      · exact .inr ⟨trivial, rfl⟩
      · exact .inl h
  | establish | refused => exact .inl (Table.lookup_erase_some _ h).2
  | quiet | socket | bind | listen | acceptClosed | accept | address | close | shutdown
    | endStream | spawn | finAcked | peerFin => exact .inl h

theorem step_established_cases (hb : m.Bounded)
    (h : (m.step op).establishedByKey.lookup k = some j) :
    m.establishedByKey.lookup k = some j ∨ (∃ k', m.synPendingByKey.lookup k' = some j) ∨
      j = m.allSockets.length := by
  revert h
  refine m.step_induction (I := fun m' => m'.establishedByKey.lookup k = some j → _) .inl fun hv => ?_
  obtain ⟨m₁, hm, hq⟩ := m.exec_move hb hv
  rw [hq.establishedByKey]
  exact hm.established_cases

theorem step_pending_cases (hb : m.Bounded) (h : (m.step op).synPendingByKey.lookup k = some j) :
    m.synPendingByKey.lookup k = some j ∨ (Opens op ∧ op.target = some j) := by
  revert h
  refine m.step_induction (I := fun m' => m'.synPendingByKey.lookup k = some j → _) .inl fun hv => ?_
  obtain ⟨m₁, hm, hq⟩ := m.exec_move hb hv
  rw [hq.synPendingByKey]
  exact hm.pending_cases

end TcpManager

/-! ### What an operation does to a deadline -/

variable {m : TcpManager} {op : Op} {j : SockId} {s : TcpSocket} {now τ : Int}

/-- A deadline is kept, taken away, or set after the time of the operation. -/
theorem Effect.deadline (he : Effect m op j s) (h : TimerOk now (m.sock j)) :
    s.nextRtoDeadlineMs = (m.sock j).nextRtoDeadlineMs ∨ s.nextRtoDeadlineMs = 0 ∨
      ∃ t ∈ op.reading, t < s.nextRtoDeadlineMs := by
  have hrto : (1000 : Int) ≤ (m.sock j).rtoMs := h.rto.1
  have hadvanced : ∀ t v ackNum,
      (advanced ((m.sock j).setRwnd v) t ackNum).nextRtoDeadlineMs = 0 ∨
        t < (advanced ((m.sock j).setRwnd v) t ackNum).nextRtoDeadlineMs := by
    intro t v ackNum
    rw [(advanced_timer _ t ackNum).1]
    split_ifs
    · exact .inl rfl
    · exact .inr (Int.lt_add_of_pos_right t (by show 0 < (m.sock j).rtoMs; omega))
  cases he with
  | child => exact .inr (.inl rfl)
  | @write t _ buf pos len n hst hpos =>
      show (if (m.sock j).outstanding = [] ∧ 0 < n then t + (m.sock j).rtoMs
        else (m.sock j).nextRtoDeadlineMs) = _ ∨ _
      split_ifs with hidle
      · refine .inr (.inr ⟨t, rfl, ?_⟩)
        show t < (written (m.sock j) t buf pos n).nextRtoDeadlineMs
        rw [show (written (m.sock j) t buf pos n).nextRtoDeadlineMs = t + (m.sock j).rtoMs from
          if_pos hidle]
        omega
      · exact .inl rfl
  | read =>
      left
      obtain ⟨_, _, e⟩ | ⟨_, _, _, e⟩ | ⟨_, _, e⟩ := (m.sock j).read_effect _ _ _
      all_goals exact congrArg (fun r => r.1.nextRtoDeadlineMs) e
  | enqueue =>
      left
      unfold TcpSocket.enqueueAccepted
      split_ifs <;> rfl
  | establish => exact .inl (sameTimer_markEstablished _ _).deadline
  | advance hty hpend hest hst hlt hle hs hwait =>
      subst hs
      exact .inr ((hadvanced _ _ _).imp_right fun h => ⟨_, rfl, h⟩)
  | advanceFin hty hpend hest hlt hle hs hst hfin hout =>
      subst hs
      exact .inr ((hadvanced _ _ _).imp_right fun h => ⟨_, rfl, h⟩)
  | advanceFails hty hpend hest hlt hle hs hst hfin hout hsend =>
      subst hs
      exact .inr ((hadvanced _ _ _).imp_right fun h => ⟨_, rfl, h⟩)
  | @timeout t _ key hest hdue =>
      refine .inr (.inr ⟨t, rfl, ?_⟩)
      show t < t + min ((m.sock j).rtoMs * 2) 64000
      omega
  | same | bind | listen | dequeue | accept | address | connect | close | shutdown | shutdownFin |
    shutdownFails | release | finAcked | window | peerFin | refused | store => exact .inl rfl

theorem popLoop_nil (ackNum : Int) (last : Option OutstandingSeg) :
    (TcpSocket.popLoop ackNum [] last).1 = [] := by
  simp [TcpSocket.popLoop]

theorem advanced_outstanding_nil (hidle : s.outstanding = []) (ackNum : Int) :
    (advanced s now ackNum).outstanding = [] := by
  have hpop : (s.popAckedThrough now ackNum).1.additiveIncreaseCwnd.outstanding = [] := by
    simp [TcpSocket.popAckedThrough, TcpSocket.additiveIncreaseCwnd, hidle, popLoop_nil]
  simp only [advanced]
  split
  · split_ifs
    · exact hpop
    · unfold TcpSocket.onSampleRTT
      split_ifs <;> exact hpop
  · exact hpop

theorem Effect.idle (he : Effect m op j s) (hst : (m.sock j).state ≠ .ESTABLISHED)
    (hidle : (m.sock j).outstanding = []) : s.outstanding = [] := by
  have hadvanced : ∀ t v ackNum, (advanced ((m.sock j).setRwnd v) t ackNum).outstanding = [] :=
    fun t v ackNum => advanced_outstanding_nil (s := (m.sock j).setRwnd v) hidle ackNum
  cases he with
  | child => rfl
  | write n h => exact absurd h hst
  | read =>
      obtain ⟨_, _, e⟩ | ⟨_, _, _, e⟩ | ⟨_, _, e⟩ := (m.sock j).read_effect _ _ _
      all_goals
        rw [e]
        exact hidle
  | enqueue =>
      unfold TcpSocket.enqueueAccepted
      split_ifs <;> exact hidle
  | establish => exact (sameTimer_markEstablished _ _).outstanding.trans hidle
  | advance hty hpend hest hst hlt hle hs hwait =>
      subst hs
      exact hadvanced _ _ _
  | advanceFin hty hpend hest hlt hle hs hst hfin hout =>
      subst hs
      exact hadvanced _ _ _
  | advanceFails hty hpend hest hlt hle hs hst hfin hout hsend =>
      subst hs
      exact hadvanced _ _ _
  | timeout hest hdue => exact absurd hidle hdue.1
  | same | bind | listen | dequeue | accept | address | connect | close | shutdown | shutdownFin |
    shutdownFails | release | finAcked | window | peerFin | refused | store => exact hidle

/-! ### What ticks and other operations keep -/

/-- At the latest tick, at `τ`, or later: no registered socket has a deadline that had come then, and
a socket that waits for its SYN to be acknowledged has nothing outstanding. -/
structure Prompt (τ : Int) (m : TcpManager) : Prop where
  registered : ∀ {k j}, m.establishedByKey.lookup k = some j →
    (m.sock j).nextRtoDeadlineMs = 0 ∨ τ < (m.sock j).nextRtoDeadlineMs
  waiting : ∀ {k j}, m.synPendingByKey.lookup k = some j → (m.sock j).outstanding = []

theorem Prompt.new (addr : Int) : Prompt 0 (TcpManager.new addr) := by
  constructor
  · intro k j h
    cases h
  · intro k j h
    cases h

/-- Every operation, at a time that is not before the tick, keeps this. -/
theorem Prompt.step {h : Host} (hp : Prompt τ h.man) (hs : h.Sound)
    (ht : ∀ j, TimerOk now (h.man.sock j)) (hop : h.Allowed op) (hread : ∀ t ∈ op.reading, τ ≤ t) :
    Prompt τ (h.man.step op) := by
  have heffect := TcpManager.step_effect hs.bounded hs.fits op
  constructor
  · intro k j hk
    -- the deadline before the operation
    have hbefore : (h.man.sock j).nextRtoDeadlineMs = 0 ∨ τ < (h.man.sock j).nextRtoDeadlineMs := by
      obtain hold | ⟨k', hpend⟩ | rfl := TcpManager.step_established_cases hs.bounded hk
      · exact hp.registered hold
      · exact .inl ((ht j).armed.mpr (hp.waiting hpend))
      · left
        rw [h.man.sock_of_length_le le_rfl]
        rfl
    obtain hsame | hoff | ⟨t, hreading, hset⟩ := (heffect j).deadline (ht j)
    · rw [hsame]
      exact hbefore
    · exact .inl hoff
    · exact .inr ((hread t hreading).trans_lt hset)
  · intro k j hk
    refine (heffect j).idle ?_ ?_
    · obtain hold | ⟨hopens, htarget⟩ := TcpManager.step_pending_cases hs.bounded hk
      · obtain hst | hst := ((hs.fits j).pending k hold).2 <;> rw [hst] <;> decide
      · rw [(hs.unused j ((hs.opens_unheld hop).2 j hopens htarget).1).state]
        decide
    · obtain hold | ⟨hopens, htarget⟩ := TcpManager.step_pending_cases hs.bounded hk
      · exact hp.waiting hold
      · exact (hs.unused j ((hs.opens_unheld hop).2 j hopens htarget).1).outstanding

/-- After a tick no deadline of a registered socket has come. -/
theorem Prompt.tick {h : Host} (hp : Prompt τ h.man) (hs : h.Sound) {t : Int}
    (ht : ∀ j, TimerOk t (h.man.sock j)) (hle : τ ≤ now) :
    Prompt now (h.man.step (.tick now)) := by
  have htick : h.Allowed (.tick now) := trivial
  have hkept := hp.step hs ht htick fun t ht => (Option.mem_some.mp ht) ▸ hle
  refine ⟨?_, hkept.waiting⟩
  intro k j hk
  rw [TcpManager.step_tick] at hk ⊢
  rw [(h.man.tick_quiet now).establishedByKey] at hk
  rw [(TcpManager.retransmissionTick_sends hs.fits now hk).1]
  have hrto : (1000 : Int) ≤ (h.man.sock j).rtoMs := (ht j).rto.1
  unfold expired
  split_ifs with hdue
  · right
    show now < now + min ((h.man.sock j).rtoMs * 2) 64000
    omega
  · by_cases hon : (h.man.sock j).nextRtoDeadlineMs = 0
    · exact .inl hon
    · refine .inr (not_le.mp fun hcome => hdue ⟨?_, hon, hcome⟩)
      exact fun hout => hon ((ht j).armed.mpr hout)

theorem prompt_run {addr : Int} (haddr : Packet.validAddress addr = true) {es : List NodeEvent} :
    ∀ {c : Clocked} {τ : Int}, Clocked.Ok addr c → Prompt τ c.station.node.tcpMan → τ ≤ c.clock →
      Guarded Clocked.step Clocked.Allowed c es →
      Prompt (run NodeEvent.lastTick τ es) (run Clocked.step c es).station.node.tcpMan ∧
        run NodeEvent.lastTick τ es ≤ (run Clocked.step c es).clock := by
  induction es with
  | nil => exact fun _ hp hle _ => ⟨hp, hle⟩
  | cons e es ih =>
      intro c τ hok hp hle hes
      obtain ⟨he, hes⟩ := hes
      have hclock : c.clock ≤ e.reading.getD c.clock := by
        cases hr : e.reading with
        | none => exact le_rfl
        | some now => exact he.2 now hr
      have hreading : ∀ t ∈ e.reading, τ ≤ t := fun t ht => hle.trans (he.2 t ht)
      have hstep : Prompt τ (c.step e).station.node.tcpMan := by
        obtain hsame | ⟨op, hop, -, hread, heq⟩ := Station.step_host he.1
        · have htcp : (c.step e).station.node.tcpMan = c.station.node.tcpMan :=
            congrArg Host.man hsame
          rw [htcp]
          exact hp
        · have htcp : (c.step e).station.node.tcpMan = c.station.host.man.step op :=
            congrArg Host.man heq
          rw [htcp]
          refine Prompt.step hp hok.station.sound hok.timers hop ?_
          rw [hread]
          exact hreading
      have hnext : Prompt (NodeEvent.lastTick τ e) (c.step e).station.node.tcpMan ∧
          NodeEvent.lastTick τ e ≤ (c.step e).clock := by
        cases e with
        | arrive now sender msg => exact ⟨hstep, hle.trans hclock⟩
        | call op =>
            cases op with
            | tick now =>
                refine ⟨?_, le_rfl⟩
                exact Prompt.tick (h := c.station.host) hp hok.station.sound hok.timers
                  (hreading now rfl)
            | socket | bind | listen | accept | connect | close | release | write | read | receive =>
                exact ⟨hstep, hle.trans hclock⟩
      exact ih (hok.step haddr he) hnext.1 hnext.2 hes

theorem Reaches.prompt {addr t : Int} (haddr : Packet.validAddress addr = true)
    (h : Reaches addr τ t m) : Prompt τ m := by
  obtain ⟨es, hes, rfl, -, rfl⟩ := h
  have hempty : Guarded Clocked.step Clocked.Allowed (Clocked.new addr) [] := trivial
  have hnew : Clocked.Ok addr (Clocked.new addr) := Clocked.ok_run haddr hempty
  exact (prompt_run haddr hnew (.new addr) le_rfl hes).1

namespace Simulation

/-- **Retransmission on time.**  In a simulation without console input, in every state, for every
connection that its node knows: while it has segments that are not acknowledged, the clock has not
gone 10 ms past the deadline of its retransmission timer.  So whatever the topology, the tasks and the
losses are, a segment whose timer has run out is sent again within 10 ms. -/
theorem retransmission_on_time {δ : Type} [Zero δ] (S : Simulation δ)
    (hscaled : ∀ d, 0 ≤ d → 0 ≤ S.scaled d) (topoFile : List Str)
    (commandFile : Option (List Str)) (inputs : List (Option Str × Int))
    (helapsed : ∀ input ∈ inputs, 0 ≤ input.2) (hquiet : ∀ input ∈ inputs, input.1 = none)
    (hrunning : (S.after topoFile commandFile inputs).running = true) :
    let s := S.after topoFile commandFile inputs
    ∀ n ∈ s.world.rest.nodes, ∀ key i, n.stack.tcpMan.establishedByKey.lookup key = some i →
      (n.stack.tcpMan.sock i).outstanding ≠ [] →
        (n.stack.tcpMan.sock i).nextRtoDeadlineMs ≠ 0 ∧
          s.now < (n.stack.tcpMan.sock i).nextRtoDeadlineMs + TcpManager.RETRANS_TICK_MS := by
  intro s n hmem key i hkey hout
  obtain ⟨k, hn⟩ := List.getElem?_of_mem hmem
  obtain ⟨hlt, -⟩ := List.getElem?_eq_some_iff.mp hn
  have hstations := Stations.after S hscaled helapsed hrunning
  have hk : k < S.numNodes := hstations.1 ▸ hlt
  have hreaches : Reaches k (lastRun s.ownRan k .retransmissionTick) s.now n.stack.tcpMan :=
    (hstations.2 k n hn).reaches
  obtain ⟨c, hok, htcp, -⟩ := hreaches.ok (S.validAddress_of_lt hk)
  have harmed : (n.stack.tcpMan.sock i).nextRtoDeadlineMs ≠ 0 := by
    rw [← htcp] at hout ⊢
    exact fun hoff => hout ((hok.timers i).armed.mp hoff)
  refine ⟨harmed, ?_⟩
  -- the latest tick was at the latest multiple of 10 ms
  obtain ⟨j, hperiodic⟩ := Periodic.after S hscaled helapsed hquiet hrunning (k := k)
    (T := TcpManager.RETRANS_TICK_MS) hk (show NodeCallback.period .retransmissionTick = _ from rfl)
  have hlast : lastRun s.ownRan k .retransmissionTick = TcpManager.RETRANS_TICK_MS * j :=
    hperiodic.lastRun_eq
  have hprompt := (hreaches.prompt (S.validAddress_of_lt hk)).registered hkey
  have hnow : s.now ≤ TcpManager.RETRANS_TICK_MS * (j + 1) := hperiodic.now_le
  obtain hoff | hlate := hprompt
  · exact absurd hoff harmed
  · rw [hlast] at hlate
    unfold TcpManager.RETRANS_TICK_MS at *
    omega

/-- The same transfer with a client that looks after its socket every 8 ms. -/
def briskScript : List Str :=
  ["1 server 80 4 100 100 16".toList, "0 transfer 1 80 5 10 8 16".toList]

/-- The ten bytes have been written and are not acknowledged. -/
theorem retransmission_on_time_written :
    let s := pair.after ["edge 0 1".toList] (some briskScript) (List.replicate 12 (none, 0))
    ∃ n ∈ s.world.rest.nodes, (n.stack.tcpMan.sock 0).outstanding ≠ [] ∧
      s.now < (n.stack.tcpMan.sock 0).nextRtoDeadlineMs + 10 := by
  intro s
  have hwritten : ∃ n ∈ s.world.rest.nodes, n.stack.tcpMan.establishedByKey.lookup ⟨1, 80, 5⟩ = some 0 ∧
      (n.stack.tcpMan.sock 0).outstanding ≠ [] := by decide
  obtain ⟨n, hn, hkey, hout⟩ := hwritten
  exact ⟨n, hn, hout, (retransmission_on_time pair (fun d hd => hd) _ _ _ (by decide) (by decide)
    (by decide) n hn _ 0 hkey hout).2⟩

end Simulation

end NetBridge
