import NetBridge.Shipment

/-! # What a closed socket tells a task

A `TransferWorker` that finds its socket closed reports how many bytes it has received, and a
`TransferClient` how many it has sent.  Both numbers are then the amount that was asked for, and every
byte has arrived (`transfer_complete`): the client closes its socket only when it has written all of
them, the FIN is sent only when they have been acknowledged, and the worker is told of the end only when
it has read what came before it.  The server sends no FIN of its own, since it never closes.

The network is that of `Connection`: it delivers the SYN at most once.  If a second one came through,
the FIN of the client could go to another child of the listener. -/

namespace NetBridge

open TcpManager (written timedOut stored advanced finQueued released)

/-! ### The two ends -/

/-- The end of the client: it is open until the task is done, and closed only after its FIN. -/
structure ClientEnd (done : Prop) (x : End) : Prop where
  opened : done ∨ (x.sock.state = .SYN_SENT ∨ x.sock.state = .ESTABLISHED) ∧ x.sock.finSeq < 0
  closed : x.sock.state = .CLOSED → 0 ≤ x.sock.finSeq

/-- The end of the server: it sends nothing. -/
structure ServerEnd (x : End) : Prop where
  silent : x.written = []
  finSeq : x.sock.finSeq < 0

/-- The end of the server is closed by a `read` that has taken all there was. -/
def Ended (x : End) : Prop :=
  x.sock.state = .CLOSED → Started x → x.sock.peerFinReceived = true ∧ x.sock.recvBuf = []

/-- The calls that the tasks make. -/
def ByTasks (done : Prop) (x : Party → End) (w : Party) : Op → Prop
  | .write .. => w = .client
  | .read .. => w = .server
  | .close _ => w = .client ∧ done ∧ (x .client).sock.state = .ESTABLISHED
  | _ => True

theorem ClientEnd.mono {done done' : Prop} {x : End} (h : ClientEnd done x) (hdone : done → done') :
    ClientEnd done' x := ⟨h.opened.imp_left hdone, h.closed⟩

variable {cfg : Config} {done : Prop}

theorem ClientEnd.act {x : Party → End} {x' : End} {op : Op} {out : List Sent}
    (h : ClientEnd done (x .client)) (hact : Act cfg .client (x .client) op x' out)
    (hop : ByTasks done x .client op)
    (hfin : ∀ now srcAddr t, op = .receive now srcAddr t → t.type ≠ .FIN) : ClientEnd done x' := by
  -- the state and the FIN stay
  have hsame : x'.sock.state = (x .client).sock.state → x'.sock.finSeq = (x .client).sock.finSeq →
      ClientEnd done x' := by
    intro hstate hseq
    refine ⟨?_, ?_⟩
    · rw [hstate, hseq]
      exact h.opened
    · rw [hstate, hseq]
      exact h.closed
  have hdone : ∀ st : TcpState, (x .client).sock.state = st → st ≠ .SYN_SENT → st ≠ .ESTABLISHED →
      done := by
    intro st hst hsyn hest
    obtain hdone | ⟨hopen, -⟩ := h.opened
    · exact hdone
    · rw [hst] at hopen
      exact absurd hopen (by simp [hsyn, hest])
  cases hact with
  | idle | write | timeout | window | answer | store => exact hsame rfl rfl
  | read | readEnd => cases hop
  | accept hw | acceptClosed hw | born _ hw => cases hw
  | closePending hi hst =>
      have hest := hop.2.2
      rw [hst] at hest
      cases hest
  | shutdown hi hheld hst hwait => exact ⟨.inl hop.2.1, fun hst => by cases hst⟩
  | shutdownFin hi hheld hst hempty hp => exact ⟨.inl hop.2.1, fun hst => by cases hst⟩
  | @advance now srcAddr ack hty hst hlt hle =>
      refine hsame ?_ ?_
      · exact ((sameConn_setRwnd _ _).trans (sameConn_advanced _ now ack.seqNum)).state
      · exact (advanced_receiver _ now ack.seqNum).2.2.2.1
  | @advanceFin now srcAddr ack p hty hst hlt hle hempty hp =>
      refine ⟨.inl (hdone _ hst (by decide) (by decide)), fun hclosed => ?_⟩
      have hstate := ((sameConn_setRwnd (x .client).sock ack.window).trans
        (sameConn_advanced _ now ack.seqNum)).state
      exact absurd (hclosed.symm.trans (hstate.trans hst)) (by decide)
  | finAcked hty hst hsent hack =>
      exact ⟨.inl (hdone _ hst (by decide) (by decide)), fun _ => hsent⟩
  | @establish now srcAddr ack hty hpend hst hack =>
      have hnew := (x .client).sock.markEstablished_of_synSent ack.window hst
      refine ⟨h.opened.imp_right fun hopen => ?_, fun hclosed => ?_⟩
      · rw [hnew]
        exact ⟨.inr rfl, hopen.2⟩
      · rw [hnew] at hclosed
        cases hclosed
  | establishClosed hty hpend hst hack => exact hsame rfl rfl
  | refused hty | peerFin hty => exact absurd hty (hfin _ _ _ rfl)

/-- An end that has been connected was connected before, or is connected now. -/
theorem Started.before {w : Party} {x x' : End} (hok : EndOk w x) (hs : Started x')
    (hsame : x'.sock.sndUna = x.sock.sndUna) : Started x := by
  refine hok.phase.resolve_left fun hf => ?_
  have hone := hs.sndUna
  rw [hsame, hf.sndUna] at hone
  exact absurd hone (by decide)

theorem ServerEnd.act {x : Party → End} {x' : End} {op : Op} {out : List Sent}
    (h : ServerEnd (x .server)) (hok : EndOk .server (x .server))
    (hact : Act cfg .server (x .server) op x' out) (hop : ByTasks done x .server op) :
    ServerEnd x' := by
  have hclient : Party.server ≠ .client := by decide
  cases hact with
  | idle | read | readEnd | accept | acceptClosed | timeout | window | answer | store | peerFin =>
      exact ⟨h.silent, h.finSeq⟩
  | write => exact absurd hop hclient
  | closePending | shutdown | shutdownFin => exact absurd hop.1 hclient
  | @advance now srcAddr ack hty hst hlt hle =>
      exact ⟨h.silent, (advanced_receiver _ now ack.seqNum).2.2.2.1.trans_lt h.finSeq⟩
  | @advanceFin now srcAddr ack p hty hst hlt hle hempty hp =>
      -- nothing has been written, so nothing can be acknowledged
      have hs := hok.started (.inr hst)
      have hsnd := hs.sndNxt
      have huna := hs.sndUna
      rw [h.silent] at hsnd
      simp only [List.length_nil] at hsnd
      omega
  | finAcked hty hst hsent hack => exact absurd h.finSeq (not_lt.mpr hsent)
  | establish _ hpend | establishClosed _ hpend | refused _ hpend =>
      exact absurd (hok.pending hpend) hclient
  | born hty hw hs hheld hout => exact ⟨h.silent, by show (-1 : Int) < 0; decide⟩

theorem Ended.act {x : Party → End} {x' : End} {op : Op} {out : List Sent}
    (h : Ended (x .server)) (hserver : ServerEnd (x .server)) (hok : EndOk .server (x .server))
    (hact : Act cfg .server (x .server) op x' out) (hop : ByTasks done x .server op) : Ended x' := by
  have hclient : Party.server ≠ .client := by decide
  cases hact with
  | idle => exact h
  | write => exact absurd hop hclient
  | read hi hheld hst | window _ hst | answer _ hst | store _ hst =>
      exact fun hclosed => absurd hclosed hst.ne.1
  | @readEnd i buf pos len hi hheld hends hany =>
      have hused := hok.used
      refine fun _ _ => ⟨hends.2.2.2.2.1, ?_⟩
      show (x .server).sock.recvBuf.drop (x .server).sock.recvBufUsed.toNat = []
      exact List.drop_eq_nil_of_le (by omega)
  | accept | born => exact fun hclosed => by cases hclosed
  | acceptClosed | timeout => exact fun hclosed hs => h hclosed (hs.before hok rfl)
  | closePending | shutdown | shutdownFin => exact absurd hop.1 hclient
  | @advance now srcAddr ack hty hst hlt hle =>
      intro hclosed
      have hstate := ((sameConn_setRwnd (x .server).sock ack.window).trans
        (sameConn_advanced _ now ack.seqNum)).state
      exact absurd (hstate.symm.trans hclosed) hst.ne.1
  | @advanceFin now srcAddr ack p hty hst hlt hle hempty hp =>
      intro hclosed
      have hstate := ((sameConn_setRwnd (x .server).sock ack.window).trans
        (sameConn_advanced _ now ack.seqNum)).state
      exact absurd (hclosed.symm.trans (hstate.trans hst)) (by decide)
  | finAcked hty hst hsent hack => exact absurd hserver.finSeq (not_lt.mpr hsent)
  | establish _ hpend | establishClosed _ hpend | refused _ hpend =>
      exact absurd (hok.pending hpend) hclient
  | peerFin hty hreg hout =>
      intro hclosed hs
      have hbefore : (x .server).sock.state = .CLOSED := by
        have hclosed : (if (x .server).sock.state = .ESTABLISHED then TcpState.SHUTDOWN
          else (x .server).sock.state) = .CLOSED := hclosed
        split_ifs at hclosed
        exact hclosed
      exact ⟨rfl, (h hbefore (hs.before hok rfl)).2⟩

/-! ### The system -/

/-- An operation that makes no socket on request adds one that is connected, or none. -/
theorem TcpManager.newcomer_connected {m : TcpManager} (h : m.Bounded) (op : Op)
    (hsocket : op ≠ .socket) :
    (m.step op).allSockets.length = m.allSockets.length ∨
      ((m.step op).sock m.allSockets.length).state = .ESTABLISHED := by
  refine m.step_induction (I := fun m' => m'.allSockets.length = m.allSockets.length ∨
    (m'.sock m.allSockets.length).state = .ESTABLISHED) (.inl rfl) fun hv => ?_
  obtain ⟨m₁, hm, hq⟩ := m.exec_move h hv
  obtain hlen | hop | ⟨now, srcAddr, syn, listener, rfl, hty, hl⟩ := hm.length
  · exact .inl (hq.length.trans hlen)
  · exact absurd hop hsocket
  · right
    simp only [exec, receiveTransport, hty]
    rw [m.onSyn_admits hl (h.listener hl)]
    obtain ⟨out, e, _⟩ := (m.admitted listener srcAddr syn).sendAck_cases syn.destPort srcAddr
      syn.srcPort (syn.seqNum + 1) TcpSocket.RECV_BUF_CAP
    rw [e, emit_sock, m.admitted_sock_child listener srcAddr syn]
    rfl

theorem Started.given {x : End} (h : Started x) : Started x.given :=
  ⟨h.sndUna, h.sndNxt, h.rcvNxt, rfl, .inr rfl⟩

theorem ServerEnd.given {x : End} (h : ServerEnd x) : ServerEnd x.given := ⟨h.silent, h.finSeq⟩

theorem ClientEnd.given {x : End} (h : ClientEnd done x) (hst : x.sock.state = .CLOSED) :
    ClientEnd done x.given := by
  obtain hdone | ⟨hopen, -⟩ := h.opened
  · exact ⟨.inl hdone, fun _ => h.closed hst⟩
  · rw [hst] at hopen
    exact absurd hopen (by decide)

namespace Sys

variable {σ : Sys}

/-- The socket of the server is there only when it has been connected. -/
def Born (cfg : Config) (σ : Sys) : Prop :=
  1 < (σ.side .server).man.allSockets.length → Started (σ.ends cfg .server)

theorem Born.step (h : σ.Born cfg) (hok : σ.Ok cfg) (e : Event) : (σ.step cfg e).Born cfg := by
  refine (step_rule cfg (I := fun σ => σ.Ok cfg ∧ σ.Born cfg) (Q := Delivers cfg)
    (G := fun _ _ _ => True) ?_ ?_ σ e ⟨hok, h⟩ fun _ _ => trivial).2
  · rintro σ e ⟨hok, hborn⟩
    exact ⟨⟨(hok.network e).1, hborn⟩, (hok.network e).2⟩
  · rintro σ w op ⟨hok, hborn⟩ hin -
    have hok' := hok.act hin
    refine ⟨hok', ?_⟩
    obtain ⟨hside, hact⟩ := hok.acts hin
    intro hlen
    cases w with
    | server =>
        rw [act_side_self] at hlen
        have hend := hok'.ends .server
        rw [ends_act_self] at hend ⊢
        obtain hone | ⟨-, htwo⟩ := (hok.side .server).shape.length
        · -- the socket has just been made
          obtain hsame | hst := TcpManager.newcomer_connected (hok.side .server).steady.bounded op
            (by cases hin <;> exact fun e => by cases e)
          · have hlen : 1 < ((σ.side .server).man.step op).allSockets.length := hlen
            omega
          · rw [hone] at hst
            exact hend.started (.inl hst)
        · exact (hborn (by omega)).act (hok.ends .server) hend hact
    | client =>
        have hsame : (σ.act .client op).side .server = σ.side .server := act_side_other .client op
        rw [hsame] at hlen
        rw [Sys.ends, hsame]
        exact hborn hlen

theorem ends_release (hok : σ.Ok cfg) (w v : Party) :
    (σ.release w).ends cfg v = σ.ends cfg v ∨
      v = w ∧ (σ.release w).ends cfg v = (σ.ends cfg v).given := by
  obtain heq | ⟨-, hperforms, heq⟩ := release_cases hok w
  · exact .inl (by rw [heq])
  · rw [heq]
    obtain rfl | rfl := w.eq_or_eq_other v
    · right
      rw [ends_act_self, hperforms.view]
      exact ⟨rfl, rfl⟩
    · left
      rw [Sys.ends, act_side_other]
      rfl

theorem length_release (hok : σ.Ok cfg) (w v : Party) :
    ((σ.release w).side v).man.allSockets.length = (σ.side v).man.allSockets.length := by
  unfold release
  split_ifs
  · obtain rfl | rfl := w.eq_or_eq_other v
    · rw [act_side_self]
      refine (σ.side v).man.length_step (hok.side v).steady.bounded ?_ ?_
      · exact fun e => by cases e
      · exact fun _ _ _ e => by cases e
    · rw [act_side_other]
  · rfl

theorem Born.release (h : σ.Born cfg) (hok : σ.Ok cfg) (w : Party) : (σ.release w).Born cfg := by
  intro hlen
  rw [length_release hok] at hlen
  obtain heq | ⟨-, heq⟩ := ends_release hok w .server
  · rw [heq]
    exact h hlen
  · rw [heq]
    exact (h hlen).given

/-- What the tasks keep of the two ends: `done` says that all has been written, and `runs` that the
worker has not stopped. -/
structure Kept (cfg : Config) (done runs : Prop) (σ : Sys) : Prop where
  client : ClientEnd done (σ.ends cfg .client)
  server : ServerEnd (σ.ends cfg .server)
  born : σ.Born cfg
  ended : runs → Ended (σ.ends cfg .server)

variable {runs : Prop}

theorem Kept.mono (h : σ.Kept cfg done runs) {done' runs' : Prop} (hdone : done → done')
    (hruns : runs' → runs) : σ.Kept cfg done' runs' :=
  ⟨h.client.mono hdone, h.server, h.born, fun hr => h.ended (hruns hr)⟩

/-- The events that the tasks and the network cause. -/
def Caused (done : Prop) (σ : Sys) : Event → Prop
  | .write w .. => w = .client
  | .read w .. => w = .server
  | .close w _ => w = .client ∧ done ∧ (σ.sock .client).state = .ESTABLISHED
  | _ => True

theorem Caused.respects {e : Event} (h : σ.Caused done e) :
    Respects cfg (ByTasks done) σ e := by
  rintro ⟨w, op⟩ hop
  cases e with
  | write | read | close =>
      simp only [opOf, Option.mem_def, Option.ite_none_right_eq_some, Option.some.injEq,
        Prod.mk.injEq] at hop
      obtain ⟨-, rfl, rfl⟩ := hop
      exact h
  | accept =>
      simp only [opOf, Option.mem_def, Option.ite_none_right_eq_some, Option.some.injEq,
        Prod.mk.injEq] at hop
      obtain ⟨-, rfl, rfl⟩ := hop
      trivial
  | deliver n now =>
      simp only [opOf, Option.mem_def, Option.bind_eq_bind, Option.bind_eq_some_iff] at hop
      obtain ⟨p, -, v, -, hop⟩ := hop
      cases hop
      trivial
  | tick =>
      cases hop
      trivial
  | drop | duplicate => cases hop

theorem Kept.step (h : σ.Kept cfg done runs) (hok : σ.Ok cfg) (hlinked : σ.Linked cfg) {e : Event}
    (he : σ.Caused done e) : (σ.step cfg e).Kept cfg done runs := by
  suffices hkeep : (σ.step cfg e).Ok cfg ∧
      (∃ c, Link cfg .server ((σ.step cfg e).ends cfg) (σ.step cfg e).wire c) ∧
      ClientEnd done ((σ.step cfg e).ends cfg .client) ∧
      ServerEnd ((σ.step cfg e).ends cfg .server) ∧
      (runs → Ended ((σ.step cfg e).ends cfg .server)) by
    exact ⟨hkeep.2.2.1, hkeep.2.2.2.1, h.born.step hok e, hkeep.2.2.2.2⟩
  refine step_ends (I := fun x wire => (∃ c, Link cfg .server x wire c) ∧ ClientEnd done (x .client) ∧
    ServerEnd (x .server) ∧ (runs → Ended (x .server))) (G := ByTasks done) ?_ ?_ σ e
    ⟨hok, hlinked .server, h.client, h.server, h.ended⟩ he.respects
  · rintro x wire wire' ⟨⟨c, hlink⟩, hrest⟩ hsub
    exact ⟨⟨c, hlink.subset hsub⟩, hrest⟩
  · rintro x wire w op x' out hends - ⟨hlink, hclient, hserver, hended⟩ hact harr hby
    refine ⟨link_act .server x wire w op x' out hends hlink hact fun now srcAddr t hop => ?_, ?_⟩
    · obtain ⟨p, hp, hfrom, hsyn, hI, -⟩ := harr now srcAddr t hop
      exact ⟨p, hp, hfrom, hsyn, hI⟩
    · cases w with
      | client =>
          refine ⟨?_, hserver, hended⟩
          rw [Function.update_self]
          refine hclient.act hact hby ?_
          -- a FIN would be one that the server has sent
          rintro now srcAddr t rfl hty
          obtain ⟨p, rfl, hfrom, -, ⟨c, hl⟩, -, hserver, -⟩ := harr now srcAddr t rfl
          have hfin := (hl.fins p (List.mem_cons_self ..) hfrom hty).1
          exact absurd hserver.finSeq (not_lt.mpr hfin)
      | server =>
          refine ⟨hclient, ?_, ?_⟩
          · rw [Function.update_self]
            exact hserver.act (hends .server) hact hby
          · rw [Function.update_self]
            exact fun hr => (hended hr).act hserver (hends .server) hact hby

theorem kept_init (cfg : Config) : (init cfg).Kept cfg done runs := by
  have hclient := init_fresh cfg .client
  have hserver := init_fresh cfg .server
  have hsock : ((init cfg).ends cfg .client).sock = openSocket cfg .client := openedMan_conn cfg .client
  refine ⟨⟨.inr ⟨.inl ?_, hclient.finSeq⟩, ?_⟩, ⟨hserver.written, hserver.finSeq⟩, ?_, ?_⟩
  · rw [hsock]
    rfl
  · intro hst
    rw [hsock] at hst
    cases hst
  · intro hlen
    have hone : ((init cfg).side .server).man.allSockets.length = 1 := openedMan_length cfg .server
    omega
  · intro _ _ hs
    have huna := hs.sndUna
    rw [hserver.sndUna] at huna
    exact absurd huna (by decide)

theorem Kept.release_client (h : σ.Kept cfg done runs) (hok : σ.Ok cfg)
    (hst : (σ.sock .client).state = .CLOSED) : (σ.release .client).Kept cfg done runs := by
  have hserver : (σ.release .client).ends cfg .server = σ.ends cfg .server :=
    (ends_release hok .client .server).resolve_right fun h => by cases h.1
  refine ⟨?_, ?_, h.born.release hok _, ?_⟩
  · obtain heq | ⟨-, heq⟩ := ends_release hok .client .client
    · rw [heq]
      exact h.client
    · rw [heq]
      exact h.client.given hst
  · rw [hserver]
    exact h.server
  · rw [hserver]
    exact h.ended

theorem Kept.release_server (h : σ.Kept cfg done runs) (hok : σ.Ok cfg) :
    (σ.release .server).Kept cfg done False := by
  refine ⟨?_, ?_, h.born.release hok _, False.elim⟩
  · have hclient : (σ.release .server).ends cfg .client = σ.ends cfg .client :=
      (ends_release hok .server .client).resolve_right fun h => by cases h.1
    rw [hclient]
    exact h.client
  · obtain heq | ⟨-, heq⟩ := ends_release hok .server .server
    · rw [heq]
      exact h.server
    · rw [heq]
      exact h.server.given

/-- A `write` with good arguments on a connected socket does not fail. -/
theorem Ok.write_connected (h : σ.Ok cfg) {w : Party} (hst : (σ.sock w).state = .ESTABLISHED)
    (now : Int) (bytes : List UInt8) {pos len : Int} (hpos : 0 ≤ pos) (hlen : 0 ≤ len) :
    ((σ.side w).man.write now w.conn (some bytes) pos len).2 ≠ -1 := by
  have hne : (σ.sock w).state ≠ .CLOSED := by
    rw [hst]
    decide
  obtain ⟨out, -, hwrite⟩ := (σ.side w).man.write_ok now ((σ.side w).man.lt_length_of_state hne) hst
    (Option.some_ne_none bytes) hpos hlen ((h.side w).shape.sendable hne)
  rw [hwrite]
  simp only
  omega

end Sys

/-! ### The tasks -/

theorem Transfer.step_stopped {t : Transfer} (h : t.corrupted = true → t.worker.intervalMs ≤ 0)
    (e : Transfer.Event) :
    (t.step e).corrupted = true → (t.step e).worker.intervalMs ≤ 0 := by
  cases e with
  | client status nowMs count =>
      unfold Transfer.step
      simp only
      split_ifs
      · exact h
      · split <;> exact h
  | worker isClosed count =>
      by_cases hstopped : t.worker.intervalMs ≤ 0
      · rw [Transfer.step, if_pos hstopped]
        exact h
      · rw [Transfer.step, if_neg hstopped]
        have hclean : t.corrupted = false := by simpa using mt h hstopped
        split
        · exact h
        · next w calls corrupted hexec =>
            simp only [hclean, Bool.false_or]
            rintro rfl
            unfold TransferWorker.execute at hexec
            simp only at hexec
            split_ifs at hexec <;> cases hexec
            exact le_rfl

theorem Session.calls_kept {s : Session} {runs : Prop}
    (h : s.sys.Kept cfg (s.task.amount = 0) runs) (hok : s.sys.Ok cfg) (hlinked : s.sys.Linked cfg)
    (hindex : 0 ≤ s.task.index) (hlen : 0 ≤ s.task.len) {now : Int} {task : TransferClient}
    {calls : List SocketCall}
    (hexec : s.task.execute (s.sys.sock .client).status now (s.count now) = .ok (task, calls)) :
    (calls.foldl (Session.call cfg now) s.sys).Kept cfg (task.amount = 0) runs := by
  have hconnects : (s.sys.sock .client).status.isConnected = true →
      (s.sys.sock .client).state = .ESTABLISHED := eq_of_beq
  have hcloses : (s.sys.sock .client).status.isClosed = true →
      (s.sys.sock .client).state = .CLOSED := eq_of_beq
  generalize (s.sys.sock .client).status = status at hexec hconnects hcloses
  unfold TransferClient.execute at hexec
  simp only [TransferClient.begun_amount, TransferClient.begun_buf] at hexec
  split_ifs at hexec with hpending hconnected hamount hsize hcount hclosing hclosed <;>
    obtain ⟨rfl, rfl⟩ := Prod.mk.inj (Except.ok.inj hexec)
  · exact h
  · simp only [TransferClient.begun_amount]
    exact h.step hok hlinked (e := .close .client 0) ⟨rfl, hamount, hconnects hconnected⟩
  · exact absurd hcount (hok.write_connected (hconnects hconnected) now _ hindex hlen)
  · exact (h.step hok hlinked (e := .write .client ..) rfl).mono (absurd · hamount) id
  · exact h
  · exact h.release_client hok (hcloses hclosed)
  · exact h

namespace Shipment

variable {alloc : ℕ → Bool} {s : Shipment} {T : Terms}

theorem Carried.stopped (h : s.Carried T) :
    s.transfer.corrupted = true → s.transfer.worker.intervalMs ≤ 0 := by
  obtain ⟨es, -, hrun⟩ := h
  rw [← hrun]
  exact run_induction (I := fun t : Transfer => t.corrupted = true → t.worker.intervalMs ≤ 0)
    (fun t e ht => Transfer.step_stopped ht e) (fun hc => by cases hc) es

/-- The worker has not been stopped, or there is none. -/
def Runs (s : Shipment) : Prop := ∀ w ∈ s.worker, 0 < w.intervalMs

/-- The client has written all that it was asked to. -/
def Done (s : Shipment) : Prop := s.session.task.amount = 0

/-- The invariant of the tasks with their connection. -/
structure Whole (cfg : Config) (T : Terms) (s : Shipment) : Prop where
  good : Good cfg T s
  kept : s.sys.Kept cfg s.Done s.Runs

theorem Whole.start (n : ℕ) (amount interval : Int) (server : TransferServer) :
    Whole cfg ⟨n, server.bufSize.toNat, amount, interval, server.workerInterval⟩
      (start cfg n amount interval server) :=
  ⟨.start n amount interval server, Sys.kept_init cfg⟩

theorem Whole.system (h : Whole cfg T s) {e : NetBridge.Event} (he : s.sys.Caused s.Done e) :
    (s.system cfg e).sys.Kept cfg s.Done s.Runs :=
  h.kept.step h.good.sound.ok h.good.sound.linked he

theorem Whole.client_step (h : Whole cfg T s) (hn : 0 < T.n) (hamount : 0 ≤ T.amount) (now : Int) :
    Whole cfg T (s.step cfg alloc (.client now)) := by
  refine ⟨h.good.client_step hn now, ?_⟩
  have hok := h.good.carried.ok
  have hsound := h.good.sound
  have hindex : s.session.task.index = ((s.transfer.accepted.length % T.n : ℕ) : Int) := hok.index
  have hlen : 0 ≤ s.session.task.len := by
    have hsize : s.session.task.buf.length = T.n := hok.size
    have hsum : s.session.task.pos + s.session.task.amount = T.amount := hok.sum
    have hleft : 0 ≤ s.session.task.amount ∨ s.session.task.pos = 0 := hok.left
    have hlt := Nat.mod_lt s.transfer.accepted.length hn
    refine le_min ?_ ?_
    · omega
    · omega
  have hstep : s.step cfg alloc (.client now) = { s with session := s.session.step cfg (.task now) } :=
    rfl
  rw [hstep]
  by_cases hstopped : s.session.task.intervalMs ≤ 0
  · have hsame : s.session.step cfg (.task now) = s.session := if_pos hstopped
    rw [hsame]
    exact h.kept
  · cases hexec : s.session.task.execute (s.sys.sock .client).status now (s.session.count now) with
    | error err =>
        rw [Session.step_task_error cfg hstopped hexec]
        exact h.kept
    | ok r =>
        obtain ⟨task, calls⟩ := r
        rw [Session.step_task cfg hstopped hexec]
        exact Session.calls_kept h.kept hsound.ok hsound.linked (by omega) hlen hexec

theorem Whole.server_step (h : Whole cfg T s) : Whole cfg T (s.step cfg alloc .server) := by
  refine ⟨h.good.server_step, ?_⟩
  have haccept : (s.system cfg (.accept .server 0)).sys.Kept cfg s.Done s.Runs := h.system trivial
  unfold Shipment.step
  simp only
  split_ifs with hstopped
  · exact h.kept
  · unfold tickServer
    cases hclosed : (s.manager.sock 0).isClosed with
    | true => exact h.kept
    | false =>
        simp only [Bool.false_eq_true, if_false]
        cases hconn : (s.manager.accept 0).2 with
        | none => exact haccept
        | some conn =>
            obtain ⟨hnone, -⟩ := h.good.accepted hconn
            -- there was no worker before
            have hruns : s.Runs := by
              intro w hw
              rw [hnone] at hw
              cases hw
            simp only [TransferServer.execute, TransferWorker.make, makeBuffer, Option.isSome_some,
              if_true]
            split_ifs <;> exact haccept.mono id fun _ => hruns

theorem Whole.worker_step (h : Whole cfg T s) (hm : 0 < T.m) :
    Whole cfg T (s.step cfg alloc .worker) := by
  refine ⟨h.good.worker_step hm, ?_⟩
  unfold Shipment.step
  simp only
  split
  · exact h.kept
  · next w hw =>
      split_ifs with hstopped
      · exact h.kept
      · have hruns : s.Runs := by
          intro w' hw'
          rw [hw] at hw'
          cases hw'
          omega
        have hread := h.system (e := .read .server 1 true w.index w.len) rfl
        -- a worker that gives up its socket stops
        have hrelease := hread.release_server (h.good.sound.ok.step _)
        unfold tickWorker
        simp only
        cases hexec : w.execute (s.sys.sock .server).isClosed
            (s.manager.read 1 true w.index w.len).2.1 (s.manager.read 1 true w.index w.len).2.2 with
        | error err => exact h.kept.mono id fun _ => hruns
        | ok r =>
            obtain ⟨w', calls, corrupted⟩ := r
            unfold TransferWorker.execute at hexec
            simp only at hexec
            split_ifs at hexec <;> obtain ⟨rfl, hrest⟩ := Prod.mk.inj (Except.ok.inj hexec) <;>
              obtain ⟨rfl, rfl⟩ := Prod.mk.inj hrest
            · exact hrelease.mono id fun hr => lt_irrefl _ (hr _ rfl)
            · exact hrelease.mono id fun hr => lt_irrefl _ (hr _ rfl)
            · exact hread.mono id fun _ => hruns
            · exact h.kept.mono id fun _ => hruns

theorem Whole.step (h : Whole cfg T s) (hn : 0 < T.n) (hm : 0 < T.m) (hamount : 0 ≤ T.amount)
    (e : Event) : Whole cfg T (s.step cfg alloc e) := by
  cases e with
  | client now => exact h.client_step hn hamount now
  | server => exact h.server_step
  | worker => exact h.worker_step hm
  | tick | deliver | drop | duplicate => exact ⟨h.good.step hn hm _, h.system trivial⟩

/-- Once the client has sent its FIN, every byte has arrived. -/
theorem Whole.finished (h : Whole cfg T s) (hfin : 0 ≤ (s.sys.sock .client).finSeq) :
    s.session.task.pos = T.amount ∧ s.sys.received .server = stream T.n T.amount.toNat := by
  have hok := h.good.carried.ok
  have hdone : s.session.task.amount = 0 :=
    h.kept.client.opened.resolve_right fun hopen => absurd hopen.2 (not_lt.mpr hfin)
  have hsum : s.session.task.pos + s.session.task.amount = T.amount := hok.sum
  have hpos : s.session.task.pos = (s.sys.side .client).written.length := hok.pos
  have hwritten : (s.sys.side .client).written = stream T.n (s.sys.side .client).written.length :=
    hok.accepted
  have hlength : (s.sys.side .client).written.length = T.amount.toNat := by omega
  obtain ⟨c, hlink⟩ := h.good.sound.linked .client
  have hall : s.sys.received .server = (s.sys.side .client).written :=
    (hlink.all_stored (h.good.sound.ok.ends .client) hfin).1
  refine ⟨by omega, ?_⟩
  rw [hall, hwritten, hlength]

/-- A worker whose socket has been closed has read every byte. -/
theorem Whole.worker_closed (h : Whole cfg T s) {w : TransferWorker} (hw : s.worker = some w)
    (hruns : 0 < w.intervalMs) (hclosed : (s.sys.sock .server).isClosed = true) :
    w.pos = T.amount ∧ (s.sys.side .server).readOut = stream T.n T.amount.toNat ∧
      s.corrupted = false := by
  have hlen : 1 < (s.sys.side .server).man.allSockets.length :=
    (h.good.sound.ok.side .server).shape.held 1 (h.good.held w hw)
  have hended := h.kept.ended fun w' hw' => by
    rw [hw] at hw'
    cases hw'
    exact hruns
  obtain ⟨hpeer, hempty⟩ := hended (eq_of_beq hclosed) (h.kept.born hlen)
  obtain ⟨c, hlink⟩ := h.good.sound.linked .client
  obtain ⟨hpos, hreceived⟩ := h.finished (hlink.peer hpeer)
  have hread : (s.sys.side .server).readOut = stream T.n T.amount.toNat := by
    have hempty : (s.sys.sock .server).recvBuf = [] := hempty
    rw [Sys.received, hempty, List.append_nil] at hreceived
    exact hreceived
  -- the worker counts what it reads until it finds an error
  have hworker : s.transfer.worker = w := by
    show s.worker.getD _ = w
    rw [hw]
    rfl
  have hclean : s.transfer.corrupted = false := by
    have hstopped := h.good.carried.stopped
    rw [hworker] at hstopped
    by_contra hc
    have := hstopped (by simpa using hc)
    omega
  have hcount : w.pos = (s.sys.side .server).readOut.length :=
    hworker ▸ h.good.carried.ok.workerPos hclean
  have hnonneg : 0 ≤ T.amount := by
    have hclient : s.session.task.pos = (s.sys.side .client).written.length := h.good.carried.ok.pos
    omega
  refine ⟨?_, hread, hclean⟩
  rw [hcount, hread, stream, List.length_map, List.length_range]
  exact Int.toNat_of_nonneg hnonneg

/-- **What a closed socket tells a task.**  The amount is not negative and the buffers have a size.
Whatever the network does to the segments, but for a second SYN, and however the timers are
interleaved: when a worker that runs finds its socket closed, it has read the whole stream of
the client, so that the number of bytes which it reports is the amount that was asked for; and when the
client finds its socket closed, it has written the whole stream and all of it is at the server. -/
theorem transfer_complete (cfg : Config) (alloc : ℕ → Bool) {n : ℕ} (hn : 0 < n) {amount : Int}
    (hamount : 0 ≤ amount) (interval : Int) {server : TransferServer} (hm : 0 < server.bufSize)
    (es : List Event) :
    let s := run (Shipment.step cfg alloc) (Shipment.start cfg n amount interval server) es
    (∀ w, s.worker = some w → 0 < w.intervalMs → (s.sys.sock .server).isClosed = true →
      w.pos = amount ∧ (s.sys.side .server).readOut = stream n amount.toNat ∧ s.corrupted = false) ∧
    ((s.sys.sock .client).isClosed = true →
      s.session.task.pos = amount ∧ s.sys.received .server = stream n amount.toNat) := by
  intro s
  have hwhole : Whole cfg ⟨n, server.bufSize.toNat, amount, interval, server.workerInterval⟩ s :=
    run_induction (fun _ e h => h.step hn (Int.lt_toNat.mpr hm) hamount e)
      (.start n amount interval server) es
  refine ⟨fun w hw hruns hclosed => hwhole.worker_closed hw hruns hclosed, fun hclosed => ?_⟩
  exact hwhole.finished (hwhole.kept.client.closed (eq_of_beq hclosed))

/-- Four bytes are sent and read, the client closes, and both sockets are closed. -/
def closedTransfer : List Event :=
  [.deliver 0 0, .deliver 0 0, .server, .client 10, .deliver 0 20, .worker, .deliver 0 30, .client 40,
    .deliver 0 50, .deliver 0 60, .worker]

theorem transfer_complete_four_bytes :
    let s := run (step Sys.exampleConfig fun _ => true)
      (start Sys.exampleConfig 4 4 100 smallServer) closedTransfer
    ((s.sys.sock .server).isClosed = true ∧ (s.sys.side .server).readOut = stream 4 4) ∧
      (s.sys.sock .client).isClosed = true ∧ s.session.task.pos = 4 := by
  intro s
  have hn : 0 < 4 := by decide
  have hamount : (0 : Int) ≤ 4 := by decide
  have hm : 0 < smallServer.bufSize := by decide
  obtain ⟨hworker, hclient⟩ :=
    transfer_complete Sys.exampleConfig (fun _ => true) hn hamount 100 hm closedTransfer
  have hclosed : (s.sys.sock .server).isClosed = true := by decide
  have hclosed' : (s.sys.sock .client).isClosed = true := by decide
  have hw : s.worker = some ⟨[0, 1, 2, 3], 4, 100⟩ := by decide
  exact ⟨⟨hclosed, (hworker _ hw (by decide) hclosed).2.1⟩, hclosed', (hclient hclosed').1⟩

end Shipment

end NetBridge
