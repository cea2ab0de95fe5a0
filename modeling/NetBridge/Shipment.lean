import NetBridge.Closing
import NetBridge.Contracts
import NetBridge.Session

/-! # A transfer from end to end

The three tasks of a transfer over one connection: a `TransferClient` on the node that has connected,
a `TransferServer` on the node that listens, and the `TransferWorker` that the server starts for the
connection it accepts.  Between them are the two managers and the network of `Connection`, which loses,
delays, reorders and duplicates segments, but delivers the SYN at most once.

`Transfer` has the two ends of a stream that delivers what it has been given.  Here that stream is TCP:
every run of the tasks over the network is a run of `Transfer` (`transfer_carried`), so what holds there
holds here.  When the worker or the client finds its socket closed, every byte has arrived
(`transfer_complete`). -/

namespace NetBridge

/-! ### What the events of a connection leave alone -/

namespace TcpSocket

/-- `read` fails, or gives some of the bytes that it is asked for, from the front of the buffer. -/
theorem read_value (s : TcpSocket) (hused : s.recvBufUsed = s.recvBuf.length) (pos len : Int) :
    (s.read true pos len).2 = (-1, []) ∨
      ∃ count : ℕ, (s.read true pos len).2 = ((count : Int), s.recvBuf.take count) ∧
        (count : Int) ≤ len ∧ count ≤ s.recvBuf.length := by
  by_cases hguard : (s.state ≠ .ESTABLISHED ∧ s.state ≠ .SHUTDOWN) ∨ true = false ∨ pos < 0 ∨ len < 0
  · left
    rw [read, if_pos hguard]
  · right
    by_cases hnone : len = 0 ∨ s.recvBufUsed = 0
    · refine ⟨0, ?_, by simp only [not_or, not_lt] at hguard; exact hguard.2.2.2, Nat.zero_le _⟩
      rw [read, if_neg hguard, if_pos hnone]
      rfl
    · simp only [not_or, not_lt] at hguard
      refine ⟨(min len s.recvBufUsed).toNat, ?_, by omega, by omega⟩
      rw [read, if_neg (by simp only [not_or, not_lt]; exact hguard), if_neg hnone]
      simp only
      rw [Int.toNat_of_nonneg (by omega)]

end TcpSocket

namespace Sys

variable {cfg : Config} {σ : Sys}

theorem event_of_read {w : Party} {e : Event} {i : SockId} {buf : Bool} {pos len : Int}
    (hop : σ.opOf cfg e = some (w, .read i buf pos len)) : e = .read w i buf pos len := by
  cases e with
  | read =>
      simp only [opOf, Option.ite_none_right_eq_some, Option.some.injEq, Prod.mk.injEq,
        Op.read.injEq] at hop
      obtain ⟨-, rfl, rfl, rfl, rfl, rfl⟩ := hop
      rfl
  | deliver n now' =>
      simp only [opOf, Option.bind_eq_bind, Option.bind_eq_some_iff] at hop
      obtain ⟨p, -, v, -, hop⟩ := hop
      cases hop
  | write | accept | close => simp [opOf] at hop
  | tick | drop | duplicate => cases hop

theorem readOut_step {w : Party} {e : Event} (he : ∀ i buf pos len, e ≠ .read w i buf pos len) :
    ((σ.step cfg e).side w).readOut = (σ.side w).readOut := by
  cases hop : σ.opOf cfg e with
  | none => rw [step, hop]
  | some x =>
      obtain ⟨v, op⟩ := x
      rw [step_of_opOf cfg hop]
      obtain rfl | rfl := v.eq_or_eq_other w
      · rw [act_side_self]
        show (σ.side w).nextReadOut op = _
        cases op with
        | read => exact absurd (event_of_read hop) (he _ _ _ _)
        | socket | bind | listen | accept | connect | close | release | write | receive | tick => rfl
      · rw [act_side_other]

theorem readOut_release (w v : Party) : ((σ.release w).side v).readOut = (σ.side v).readOut := by
  unfold release
  split_ifs
  · obtain rfl | rfl := w.eq_or_eq_other v
    · rw [act_side_self]
      rfl
    · rw [act_side_other]
  · rfl

theorem handles_act (w v : Party) (op : Op) :
    (σ.side v).handles ⊆ ((σ.act w op).side v).handles := by
  obtain rfl | rfl := w.eq_or_eq_other v
  · rw [act_side_self]
    show (σ.side v).handles ⊆ (σ.side v).nextHandles op
    cases op with
    | accept i => exact List.subset_append_left _ _
    | socket | bind | listen | connect | close | release | write | read | receive | tick =>
        exact List.Subset.refl _
  · rw [act_side_other]
    exact List.Subset.refl _

theorem handles_step (v : Party) (e : Event) :
    (σ.side v).handles ⊆ ((σ.step cfg e).side v).handles := by
  cases hop : σ.opOf cfg e with
  | none =>
      rw [step, hop]
      exact List.Subset.refl _
  | some x =>
      rw [step_of_opOf cfg hop]
      exact handles_act (σ := { σ with wire := σ.remaining e }) x.1 v x.2

theorem handles_release (w v : Party) : (σ.side v).handles ⊆ ((σ.release w).side v).handles := by
  unfold release
  split_ifs
  · exact handles_act w v _
  · exact List.Subset.refl _

/-- What a `write` of the application adds. -/
theorem written_write_eq (cfg : Config) {w : Party} (hw : w.conn ∈ (σ.side w).handles) (now : Int) (buf : Buf)
    (pos len : Int) :
    ((σ.step cfg (.write w now w.conn buf pos len)).side w).written =
      (σ.side w).written ++
        buf.slice pos ((σ.side w).man.write now w.conn buf pos len).2.toNat := by
  have hop : σ.opOf cfg (.write w now w.conn buf pos len) =
      some (w, .write now w.conn buf pos len) := if_pos hw
  rw [step_of_opOf cfg hop, act_side_self]
  rfl

theorem readOut_read {w : Party} (hw : w.conn ∈ (σ.side w).handles) (buf : Bool) (pos len : Int) :
    ((σ.step cfg (.read w w.conn buf pos len)).side w).readOut =
      (σ.side w).readOut ++ ((σ.side w).man.read w.conn buf pos len).2.2 := by
  have hop : σ.opOf cfg (.read w w.conn buf pos len) = some (w, .read w.conn buf pos len) :=
    if_pos hw
  rw [step_of_opOf cfg hop, act_side_self]
  rfl

end Sys

namespace Session

variable {cfg : Config}

theorem step_task (cfg : Config) {s : Session} {now : Int} (hrun : ¬ s.task.intervalMs ≤ 0)
    {task : TransferClient} {calls : List SocketCall}
    (hexec : s.task.execute (s.sys.sock .client).status now (s.count now) = .ok (task, calls)) :
    s.step cfg (.task now) = ⟨task, calls.foldl (call cfg now) s.sys⟩ := by
  unfold step
  simp only [hrun, if_false]
  rw [hexec]

theorem step_task_error (cfg : Config) {s : Session} {now : Int} (hrun : ¬ s.task.intervalMs ≤ 0)
    {err : TaskFault}
    (hexec : s.task.execute (s.sys.sock .client).status now (s.count now) = .error err) :
    s.step cfg (.task now) = { s with task := { s.task with intervalMs := 0 } } := by
  unfold step
  simp only [hrun, if_false]
  rw [hexec]

/-- The task of the client leaves what the server has read and the sockets that are held. -/
theorem calls_frame (cfg : Config) (now : Int) (calls : List SocketCall) (σ : Sys) :
    ((calls.foldl (call cfg now) σ).side .server).readOut = (σ.side .server).readOut ∧
      ∀ v, (σ.side v).handles ⊆ ((calls.foldl (call cfg now) σ).side v).handles := by
  induction calls generalizing σ with
  | nil => exact ⟨rfl, fun v => List.Subset.refl _⟩
  | cons x calls ih =>
      obtain ⟨hread, hhandles⟩ := ih (call cfg now σ x)
      have hfirst : ((call cfg now σ x).side .server).readOut = (σ.side .server).readOut ∧
          ∀ v, (σ.side v).handles ⊆ ((call cfg now σ x).side v).handles := by
        cases x with
        | write buf pos len =>
            exact ⟨Sys.readOut_step fun _ _ _ _ e => (by cases e), fun v => Sys.handles_step v _⟩
        | read pos len =>
            exact ⟨Sys.readOut_step fun _ _ _ _ e => (by cases e), fun v => Sys.handles_step v _⟩
        | close =>
            exact ⟨Sys.readOut_step fun _ _ _ _ e => (by cases e), fun v => Sys.handles_step v _⟩
        | release => exact ⟨Sys.readOut_release _ _, fun v => Sys.handles_release _ v⟩
      exact ⟨hread.trans hfirst.1, fun v => List.Subset.trans (hfirst.2 v) (hhandles v)⟩

/-- What the `write` of the task adds is what it has offered. -/
theorem calls_written {s : Session} (hok : s.sys.Ok cfg) (hheld : 0 ∈ (s.sys.side .client).handles)
    (hindex : 0 ≤ s.task.index) {status : SocketStatus} {now : Int} {task : TransferClient}
    {calls : List SocketCall}
    (hexec : s.task.execute status now (s.count now) = .ok (task, calls)) :
    ((calls.foldl (call cfg now) s.sys).side .client).written =
      (s.sys.side .client).written ++ calls.flatMap (Transfer.written (s.count now)) := by
  have hwrite := Sys.written_write_eq cfg (w := .client) hheld now
    (some (s.task.begun now).fill.buf) s.task.index s.task.len
  change _ = _ ++ Buf.slice _ _ (s.count now).toNat at hwrite
  have hvalue := hok.write_value .client now (some (s.task.begun now).fill.buf) s.task.index
    s.task.len
  change (s.count now = -1 ∨ (0 ≤ s.count now ∧ s.count now ≤ s.task.len)) at hvalue
  have hclose : ((s.sys.step cfg (.close .client 0)).side .client).written =
      (s.sys.side .client).written := Sys.written_step fun _ _ _ _ _ e => by cases e
  have hrelease := fun σ : Sys => Sys.written_release (σ := σ) .client .client
  unfold TransferClient.execute at hexec
  simp only [TransferClient.begun_amount, TransferClient.begun_buf] at hexec
  split_ifs at hexec with hpending hconnected hamount hsize hcount hclosing hclosed <;>
    obtain ⟨rfl, rfl⟩ := Prod.mk.inj (Except.ok.inj hexec)
  · exact (List.append_nil _).symm
  · exact hclose.trans (List.append_nil _).symm
  · -- the call fails and the socket is released
    simp only [List.foldl_cons, List.foldl_nil, call, hrelease, TransferClient.fill_index,
      TransferClient.begun_index, TransferClient.fill_len, TransferClient.begun_len]
    refine hwrite.trans ?_
    rw [hcount]
    rfl
  · simp only [List.foldl_cons, List.foldl_nil, call, TransferClient.fill_index,
      TransferClient.begun_index, TransferClient.fill_len, TransferClient.begun_len,
      List.flatMap_cons, List.flatMap_nil, List.append_nil, Transfer.written]
    refine hwrite.trans (congrArg _ (Buf.slice_some ?_))
    have hlen : s.task.len ≤ s.task.buf.length - s.task.index := min_le_left _ _
    have hlength : (s.task.begun now).fill.buf.length = s.task.buf.length := by simp
    omega
  · exact (List.append_nil _).symm
  · exact (hrelease s.sys).trans (List.append_nil _).symm
  · exact (List.append_nil _).symm

end Session

/-! ### The tasks -/

/-- A client with its session, the server, the worker that it has started, and whether that has
reported corrupt data. -/
structure Shipment where
  session : Session
  server : TransferServer
  worker : Option TransferWorker
  corrupted : Bool

namespace Shipment

/-- The timer of a task fires, the retransmission timer of a node, or the network delivers, loses or
doubles a segment, other than a SYN. -/
inductive Event where
  | client (now : Int)
  | server
  | worker
  | tick (w : Party) (now : Int)
  | deliver (n : ℕ) (now : Int)
  | drop (n : ℕ)
  | duplicate (n : ℕ)

/-- A call of the worker on its socket. -/
def workerCall : SocketCall → Session.Event
  | .write buf pos len => .system (.write .server 0 1 (some buf) pos len)
  | .read pos len => .system (.read .server 1 true pos len)
  | .close => .system (.close .server 1)
  | .release => .release

variable (cfg : Config) (alloc : ℕ → Bool) (s : Shipment)

def sys : Sys := s.session.sys

/-- The manager of the node that listens. -/
def manager : TcpManager := (s.sys.side .server).man

def system (e : NetBridge.Event) : Shipment := { s with session := s.session.step cfg (.system e) }

/-- `tick` of the server.  The exception that leaves it before `schedule` stops it. -/
def tickServer : Shipment :=
  let isClosed := (s.manager.sock 0).isClosed
  let conn := if isClosed then none else (s.manager.accept 0).2
  let s' := if isClosed then s else s.system cfg (.accept .server 0)
  match s.server.execute alloc isClosed conn.isSome with
  | .error _ => { s' with server := { s.server with intervalMs := 0 } }
  | .ok (server, worker) => { s' with server, worker := worker.or s.worker }

/-- `tick` of the worker.  A division by zero ends the program. -/
def tickWorker (w : TransferWorker) : Shipment :=
  let (_, count, bytes) := s.manager.read 1 true w.index w.len
  match w.execute (s.sys.sock .server).isClosed count bytes with
  | .error _ => { s with worker := some { w with intervalMs := 0 } }
  | .ok (w, calls, corrupted) =>
      { s with
        session := (calls.map workerCall).foldl (Session.step cfg) s.session
        worker := some w
        corrupted := s.corrupted || corrupted }

def step : Event → Shipment
  | .client now => { s with session := s.session.step cfg (.task now) }
  | .server => if s.server.intervalMs ≤ 0 then s else s.tickServer cfg alloc
  | .worker =>
      match s.worker with
      | none => s
      | some w => if w.intervalMs ≤ 0 then s else s.tickWorker cfg w
  | .tick w now => s.system cfg (.tick w now)
  | .deliver n now => s.system cfg (.deliver n now)
  | .drop n => s.system cfg (.drop n)
  | .duplicate n => s.system cfg (.duplicate n)

/-- The SYN has just been sent: a client with a buffer of `n` bytes, and a server. -/
def start (n : ℕ) (amount interval : Int) (server : TransferServer) : Shipment :=
  ⟨.start cfg ⟨List.replicate n 0, amount, 0, 0, 0, interval⟩, server, none, false⟩

/-- The transfer that the tasks make, in which the worker of a connection that has not been accepted is
a new one. -/
def transfer : Transfer :=
  ⟨s.session.task,
    s.worker.getD ⟨List.replicate s.server.bufSize.toNat 0, 0, s.server.workerInterval⟩,
    (s.sys.side .client).written, (s.sys.side .server).readOut.length, s.corrupted⟩

/-! ### TCP carries the transfer -/

/-- The parameters of a transfer: the sizes of the buffers, and what the commands ask for. -/
structure Terms where
  n : ℕ
  m : ℕ
  amount : Int
  interval : Int
  workint : Int

/-- The transfer that the tasks make is reached by a run in which every socket answers as it can. -/
def Carried (T : Terms) : Prop :=
  ∃ es, Guarded Transfer.step Transfer.Possible
      (Transfer.start T.n T.m T.amount T.interval T.workint) es ∧
    run Transfer.step (Transfer.start T.n T.m T.amount T.interval T.workint) es = s.transfer

variable {cfg alloc s} {s' : Shipment} {T : Terms}

theorem Carried.same (h : s.Carried T) (heq : s'.transfer = s.transfer) : s'.Carried T := by
  obtain ⟨es, hes, hrun⟩ := h
  exact ⟨es, hes, hrun.trans heq.symm⟩

theorem Carried.step (h : s.Carried T) {e : Transfer.Event} (he : s.transfer.Possible e)
    (heq : s'.transfer = s.transfer.step e) : s'.Carried T := by
  obtain ⟨es, hes, hrun⟩ := h
  refine ⟨es ++ [e], guarded_append.mpr ⟨hes, ?_, trivial⟩, ?_⟩
  · rw [hrun]
    exact he
  · rw [run_append, hrun, heq]
    rfl

theorem Carried.ok (h : s.Carried T) : Transfer.Ok T.n T.m T.amount s.transfer := by
  obtain ⟨es, hes, hrun⟩ := h
  rw [← hrun]
  exact guarded_induction (fun t e ht he => ht.step he) (.start ..) hes

/-- The invariant of the tasks. -/
structure Good (cfg : Config) (T : Terms) (s : Shipment) : Prop where
  sound : s.session.Sound cfg T.amount
  carried : s.Carried T
  client : 0 ∈ (s.sys.side .client).handles
  listener : 0 ∈ (s.sys.side .server).handles
  held : ∀ w ∈ s.worker, 1 ∈ (s.sys.side .server).handles
  size : s.server.bufSize.toNat = T.m
  workint : s.server.workerInterval = T.workint

theorem Good.prefix (h : Good cfg T s) : s.sys.received .server <+: (s.sys.side .client).written := by
  obtain ⟨c, hlink⟩ := h.sound.linked .client
  have hgood := (Channel.good_of_reachable hlink.reachable).stored
  rw [hlink.stored, hlink.written] at hgood
  exact hgood

theorem Good.start (n : ℕ) (amount interval : Int) (server : TransferServer) :
    Good cfg ⟨n, server.bufSize.toNat, amount, interval, server.workerInterval⟩
      (start cfg n amount interval server) :=
  ⟨Session.sound_start cfg ⟨List.replicate n 0, amount, 0, 0, 0, interval⟩, ⟨[], trivial, rfl⟩,
    List.mem_singleton_self _, List.mem_singleton_self _, fun _ h => (by cases h), rfl, rfl⟩

theorem Good.system (h : Good cfg T s) {e : NetBridge.Event} (he : (Session.Event.system e).Honest)
    (hread : ∀ i buf pos len, e ≠ .read .server i buf pos len) : Good cfg T (s.system cfg e) := by
  have hwritten : ((s.sys.step cfg e).side .client).written = (s.sys.side .client).written := by
    refine Sys.written_step ?_
    rintro now i buf pos len rfl
    exact he
  have hreadOut : ((s.sys.step cfg e).side .server).readOut = (s.sys.side .server).readOut :=
    Sys.readOut_step hread
  refine ⟨h.sound.step he, h.carried.same ?_, Sys.handles_step _ e h.client,
    Sys.handles_step _ e h.listener, fun w hw => Sys.handles_step _ e (h.held w hw), h.size, h.workint⟩
  show (⟨_, _, ((s.sys.step cfg e).side .client).written, ((s.sys.step cfg e).side .server).readOut.length,
    _⟩ : Transfer) = _
  rw [hwritten, hreadOut]
  rfl

theorem Good.client_step (h : Good cfg T s) (hn : 0 < T.n) (now : Int) :
    Good cfg T (s.step cfg alloc (.client now)) := by
  have hsound := h.sound.step (e := .task now) trivial
  have hok := h.carried.ok
  have hvalue := h.sound.ok.write_value .client now
    (some (s.session.task.begun now).fill.buf) s.session.task.index s.session.task.len
  have hpossible : s.transfer.Possible
      (.client (s.sys.sock .client).status now (s.session.count now)) := hvalue
  have hindex : 0 ≤ s.session.task.index := by
    have := hok.index
    change s.session.task.index = _ at this
    omega
  have hsize : s.session.task.buf.length = T.n := hok.size
  have hstep : s.step cfg alloc (.client now) = { s with session := s.session.step cfg (.task now) } :=
    rfl
  rw [hstep]
  by_cases hstopped : s.session.task.intervalMs ≤ 0
  · have hsame : s.session.step cfg (.task now) = s.session := if_pos hstopped
    rw [hsame]
    exact h
  · cases hexec : s.session.task.execute (s.sys.sock .client).status now (s.session.count now) with
    | error err =>
        unfold TransferClient.execute at hexec
        simp only [TransferClient.begun_buf] at hexec
        split_ifs at hexec with hpending hconnected hamount hzero
        omega
    | ok r =>
        obtain ⟨task, calls⟩ := r
        have hsession := Session.step_task cfg hstopped hexec
        obtain ⟨hreadOut, hhandles⟩ := Session.calls_frame cfg now calls s.sys
        have hwritten : ((calls.foldl (Session.call cfg now) s.sys).side .client).written =
            (s.sys.side .client).written ++ calls.flatMap (Transfer.written (s.session.count now)) :=
          Session.calls_written h.sound.ok h.client hindex hexec
        rw [hsession] at hsound ⊢
        refine ⟨hsound, h.carried.step hpossible ?_, hhandles .client h.client,
          hhandles .server h.listener, fun w hw => hhandles .server (h.held w hw), h.size, h.workint⟩
        unfold Transfer.step
        have hexec' : s.transfer.client.execute (s.sys.sock .client).status now (s.session.count now) =
            .ok (task, calls) := hexec
        have hstopped' : ¬ s.transfer.client.intervalMs ≤ 0 := hstopped
        simp only [hstopped', if_false, hexec']
        show (⟨task, _, ((calls.foldl (Session.call cfg now) s.sys).side .client).written,
          ((calls.foldl (Session.call cfg now) s.sys).side .server).readOut.length, _⟩ : Transfer) = _
        rw [hwritten, hreadOut]
        rfl

/-- The calls of the worker: it reads, and may give up its socket after that. -/
theorem Good.calls (h : Good cfg T s) (hheld : 1 ∈ (s.sys.side .server).handles) {pos len : Int}
    {calls : List SocketCall} (hcalls : calls = [.read pos len] ∨ calls = [.read pos len, .release]) :
    let session := (calls.map workerCall).foldl (Session.step cfg) s.session
    session.Sound cfg T.amount ∧ session.task = s.session.task ∧
      (session.sys.side .client).written = (s.sys.side .client).written ∧
      (session.sys.side .server).readOut =
        (s.sys.side .server).readOut ++ (s.manager.read 1 true pos len).2.2 ∧
      ∀ v, (s.sys.side v).handles ⊆ (session.sys.side v).handles := by
  have hsound : (s.session.step cfg (.system (.read .server 1 true pos len))).Sound cfg T.amount :=
    h.sound.step rfl
  have hwritten : ((s.sys.step cfg (.read .server 1 true pos len)).side .client).written =
      (s.sys.side .client).written := Sys.written_step fun _ _ _ _ _ e => by cases e
  have hreadOut : ((s.sys.step cfg (.read .server 1 true pos len)).side .server).readOut =
      (s.sys.side .server).readOut ++ (s.manager.read 1 true pos len).2.2 :=
    Sys.readOut_read (w := .server) hheld true pos len
  have hhandles : ∀ v, (s.sys.side v).handles ⊆
      ((s.sys.step cfg (.read .server 1 true pos len)).side v).handles :=
    fun v => Sys.handles_step v _
  obtain rfl | rfl := hcalls
  · exact ⟨hsound, rfl, hwritten, hreadOut, hhandles⟩
  · exact ⟨hsound.step (e := .release) trivial, rfl, (Sys.written_release _ _).trans hwritten,
      (Sys.readOut_release _ _).trans hreadOut,
      fun v => List.Subset.trans (hhandles v) (Sys.handles_release _ v)⟩

theorem execute_calls {w w' : TransferWorker} {isClosed : Bool} {count : Int} {bytes : List UInt8}
    {calls : List SocketCall} {corrupted : Bool}
    (h : w.execute isClosed count bytes = .ok (w', calls, corrupted)) :
    (isClosed = true ∧ calls = []) ∨
      (isClosed = false ∧
        (calls = [.read w.index w.len] ∨ calls = [.read w.index w.len, .release])) := by
  unfold TransferWorker.execute at h
  simp only at h
  split_ifs at h with hopen hsize hfail hcorrupt <;>
    obtain ⟨-, hrest⟩ := Prod.mk.inj (Except.ok.inj h) <;> obtain ⟨rfl, -⟩ := Prod.mk.inj hrest
  · exact .inr ⟨hopen, .inr rfl⟩
  · exact .inr ⟨hopen, .inr rfl⟩
  · exact .inr ⟨hopen, .inl rfl⟩
  · exact .inl ⟨by simpa using hopen, rfl⟩

/-- What the socket of the worker gives is what comes next in the stream of the client. -/
theorem Good.read_possible (h : Good cfg T s) {w : TransferWorker} (hw : s.worker = some w)
    (isClosed : Bool) :
    let count := (s.manager.read 1 true w.index w.len).2.1
    s.transfer.Possible (.worker isClosed count) ∧
      (s.manager.read 1 true w.index w.len).2.2 =
        (s.transfer.accepted.drop s.transfer.delivered).take count.toNat ∧
      (s.manager.read 1 true w.index w.len).2.2.length = count.toNat := by
  have hworker : s.transfer.worker = w := by
    show s.worker.getD _ = w
    rw [hw]
    rfl
  have hused : (s.sys.sock .server).recvBufUsed = (s.sys.sock .server).recvBuf.length :=
    (h.sound.ok.ends .server).used
  have hread : (s.manager.read 1 true w.index w.len).2 =
      ((s.sys.sock .server).read true w.index w.len).2 := rfl
  obtain ⟨later, hlater⟩ := h.prefix
  simp only [hread]
  obtain hfail | ⟨count, hvalue, hlen, hthere⟩ := (s.sys.sock .server).read_value hused w.index w.len
  · rw [hfail]
    exact ⟨.inl rfl, by simp, rfl⟩
  · rw [hvalue]
    simp only [Int.toNat_natCast]
    have haccepted : s.transfer.accepted =
        (s.sys.side .server).readOut ++ (s.sys.sock .server).recvBuf ++ later := hlater.symm
    refine ⟨.inr ⟨Int.natCast_nonneg _, ?_, ?_⟩, ?_, ?_⟩
    · rw [hworker]
      exact hlen
    · rw [haccepted]
      show (((s.sys.side .server).readOut.length : ℕ) : Int) + count ≤ _
      simp only [List.length_append]
      omega
    · rw [haccepted]
      show _ = (List.drop (s.sys.side .server).readOut.length _).take count
      rw [List.append_assoc, List.drop_left, List.take_append_of_le_length hthere]
    · rw [List.length_take]
      omega

theorem Good.worker_step (h : Good cfg T s) (hm : 0 < T.m) :
    Good cfg T (s.step cfg alloc .worker) := by
  unfold Shipment.step
  simp only
  split
  · exact h
  · next w hw =>
      split_ifs with hstopped
      · exact h
      · have hworker : s.transfer.worker = w := by
          show s.worker.getD _ = w
          rw [hw]
          rfl
        have hsize : w.buf.length = T.m := hworker ▸ h.carried.ok.workerSize
        obtain ⟨hpossible, hbytes, hlength⟩ := h.read_possible hw (s.sys.sock .server).isClosed
        unfold tickWorker
        simp only
        cases hexec : w.execute (s.sys.sock .server).isClosed
            (s.manager.read 1 true w.index w.len).2.1 (s.manager.read 1 true w.index w.len).2.2 with
        | error err =>
            unfold TransferWorker.execute at hexec
            simp only at hexec
            split_ifs at hexec with hopen hzero
            omega
        | ok r =>
            obtain ⟨w', calls, corrupted⟩ := r
            have hstep : s.transfer.step (.worker (s.sys.sock .server).isClosed
                (s.manager.read 1 true w.index w.len).2.1) =
                { s.transfer with
                  worker := w'
                  delivered := if (s.sys.sock .server).isClosed then s.transfer.delivered
                    else s.transfer.delivered + (s.manager.read 1 true w.index w.len).2.1.toNat
                  corrupted := s.transfer.corrupted || corrupted } := by
              unfold Transfer.step
              simp only
              rw [hworker, if_neg hstopped, ← hbytes, hexec]
            simp only
            obtain ⟨hclosed, rfl⟩ | ⟨hopen, hcalls⟩ := execute_calls hexec
            · refine ⟨h.sound, h.carried.step hpossible ?_, h.client, h.listener,
                fun _ _ => h.held w hw, h.size, h.workint⟩
              rw [hstep, hclosed]
              rfl
            · obtain ⟨hsound, htask, hwritten, hreadOut, hhandles⟩ := h.calls (h.held w hw) hcalls
              refine ⟨hsound, h.carried.step hpossible ?_, hhandles .client h.client,
                hhandles .server h.listener, fun _ _ => hhandles .server (h.held w hw), h.size,
                h.workint⟩
              rw [hstep, hopen]
              show (⟨_, w', _, _, _⟩ : Transfer) = _
              rw [htask]
              unfold Shipment.sys
              rw [hwritten, hreadOut, List.length_append, hlength]
              rfl

theorem Good.stop (h : Good cfg T s) (intervalMs : Int) :
    Good cfg T { s with server := { s.server with intervalMs } } :=
  ⟨h.sound, h.carried.same rfl, h.client, h.listener, h.held, h.size, h.workint⟩

/-- The connection that the server accepts is the one that the client has asked for, and it is accepted
once. -/
theorem Good.accepted (h : Good cfg T s) {conn : SockId} (hconn : (s.manager.accept 0).2 = some conn) :
    s.worker = none ∧ 1 ∈ ((s.sys.step cfg (.accept .server 0)).side .server).handles := by
  obtain hnone | ⟨conn', rest, -, hqueue, hcases⟩ := s.manager.accept_effect 0
  · rw [hnone] at hconn
    cases hconn
  · have hqueues : (s.manager.sock 0).pendingConnQueue = [] ∨ Party.server = .server ∧ 0 = 0 ∧
        (s.manager.sock 0).pendingConnQueue = [1] ∧ 1 ∉ (s.sys.side .server).handles :=
      (h.sound.ok.side .server).shape.queue 0
    obtain hnil | ⟨-, -, hone, hnot⟩ := hqueues
    · rw [hnil] at hqueue
      cases hqueue
    · rw [hone] at hqueue
      cases hqueue
      have hfirst : (s.manager.accept 0).2 = some 1 := by
        obtain ⟨-, heq⟩ | ⟨-, heq⟩ := hcases
        · exact congrArg Prod.snd heq
        · exact congrArg Prod.snd heq
      have hop : s.sys.opOf cfg (.accept .server 0) = some (.server, .accept 0) := if_pos h.listener
      constructor
      · cases hw : s.worker with
        | none => rfl
        | some w => exact absurd (h.held w hw) hnot
      · rw [Sys.step_of_opOf cfg hop, Sys.act_side_self]
        show 1 ∈ (s.sys.side .server).handles ++ (s.manager.accept 0).2.toList
        rw [hfirst]
        exact List.mem_append_right _ (List.mem_singleton_self _)

theorem Good.server_step (h : Good cfg T s) : Good cfg T (s.step cfg alloc .server) := by
  have haccept : Good cfg T (s.system cfg (.accept .server 0)) :=
    h.system rfl fun _ _ _ _ e => by cases e
  unfold Shipment.step
  simp only
  split_ifs with hstopped
  · exact h
  · unfold tickServer
    cases hclosed : (s.manager.sock 0).isClosed with
    | true => exact h.stop 0
    | false =>
        simp only [Bool.false_eq_true, if_false]
        cases hconn : (s.manager.accept 0).2 with
        | none => exact haccept
        | some conn =>
            obtain ⟨hnone, hheld⟩ := h.accepted hconn
            simp only [TransferServer.execute, TransferWorker.make, makeBuffer, Option.isSome_some,
              if_true]
            split_ifs
            · exact haccept.stop 0
            · refine ⟨haccept.sound, haccept.carried.same ?_, haccept.client, haccept.listener,
                fun _ _ => hheld, h.size, h.workint⟩
              show (⟨_, _, _, _, _⟩ : Transfer) = ⟨_, s.worker.getD _, _, _, _⟩
              rw [hnone]
              rfl
            · exact haccept.stop 0

theorem eq_stream_of_prefix {l : List UInt8} {size k : ℕ} (h : l <+: stream size k) :
    l = stream size l.length := by
  have hlength : l.length ≤ k := by
    have := h.length_le
    rwa [stream, List.length_map, List.length_range] at this
  have htake := List.prefix_iff_eq_take.mp h
  rw [stream, ← List.map_take, List.take_range, min_eq_left hlength] at htake
  exact htake

theorem Good.step (h : Good cfg T s) (hn : 0 < T.n) (hm : 0 < T.m) (e : Event) :
    Good cfg T (s.step cfg alloc e) := by
  cases e with
  | client now => exact h.client_step hn now
  | server => exact h.server_step
  | worker => exact h.worker_step hm
  | tick w now => exact h.system trivial fun _ _ _ _ e => by cases e
  | deliver n now => exact h.system trivial fun _ _ _ _ e => by cases e
  | drop n => exact h.system trivial fun _ _ _ _ e => by cases e
  | duplicate n => exact h.system trivial fun _ _ _ _ e => by cases e

section runs
variable (cfg : Config) (alloc : ℕ → Bool) {n : ℕ} (hn : 0 < n) (amount interval : Int)
  {server : TransferServer} (hm : 0 < server.bufSize)
include hn hm

theorem Good.run (es : List Event) :
    Good cfg ⟨n, server.bufSize.toNat, amount, interval, server.workerInterval⟩
      (run (Shipment.step cfg alloc) (Shipment.start cfg n amount interval server) es) :=
  run_induction (fun _ e h => h.step hn (Int.lt_toNat.mpr hm) e) (.start n amount interval server) es

/-- **TCP carries the transfer.**  The buffers have a size.  Whatever the network does to the segments,
but for a second SYN, and however the timers of the tasks and of the two nodes are interleaved, what the
tasks make is a run of `Transfer`, in which the socket of the worker delivers exactly what the socket of
the client has taken: the bytes that the worker has been given are those of the client's stream.  If the
buffers fit, no corruption is ever reported. -/
theorem transfer_carried (es : List Event) :
    let m := server.bufSize.toNat
    let s := NetBridge.run (Shipment.step cfg alloc) (Shipment.start cfg n amount interval server) es
    (∃ ts, Guarded Transfer.step Transfer.Possible
        (Transfer.start n m amount interval server.workerInterval) ts ∧
      NetBridge.run Transfer.step (Transfer.start n m amount interval server.workerInterval) ts =
        s.transfer) ∧
      (s.sys.side .server).readOut = stream n (s.sys.side .server).readOut.length ∧
      (Transfer.Faithful n m amount interval server.workerInterval → s.corrupted = false) := by
  intro m s
  have hgood := Good.run cfg alloc hn amount interval hm es
  obtain ⟨ts, hts, hrun⟩ := hgood.carried
  refine ⟨⟨ts, hts, hrun⟩, ?_, ?_⟩
  · have hstream : (s.sys.side .client).written = stream n (s.sys.side .client).written.length :=
      hgood.carried.ok.accepted
    have hprefix : (s.sys.side .server).readOut <+: (s.sys.side .client).written :=
      (List.prefix_append _ (s.sys.sock .server).recvBuf).trans hgood.prefix
    rw [hstream] at hprefix
    exact eq_stream_of_prefix hprefix
  · intro hfaithful
    have hstart : Transfer.Clean n m amount
        (Transfer.start n m amount interval server.workerInterval) := by
      refine ⟨.start .., rfl, ?_⟩
      obtain hfits | hclient | hworker := hfaithful
      · exact .inl hfits
      · exact .inr (.inl ⟨hclient, rfl⟩)
      · exact .inr (.inr hworker)
    have hclean := guarded_induction (I := Transfer.Clean n m amount) (fun t e h he => h.step he)
      hstart hts
    rw [hrun] at hclean
    exact hclean.clean

end runs

/-- A server with a buffer of four bytes. -/
def smallServer : TransferServer := ⟨100, 4, 100⟩

/-- The connection is set up and accepted, the client sends four bytes, the segment is doubled, and the
worker reads. -/
def fourBytes : List Event :=
  [.deliver 0 0, .deliver 0 0, .server, .client 10, .duplicate 0, .deliver 0 20, .deliver 0 30, .worker]

theorem transfer_carried_four_bytes :
    let s := run (step Sys.exampleConfig fun _ => true)
      (start Sys.exampleConfig 4 6 100 smallServer) fourBytes
    (s.sys.side .server).readOut = [0, 1, 2, 3] ∧
      (s.sys.side .server).readOut = stream 4 (s.sys.side .server).readOut.length ∧
      s.corrupted = false := by
  intro s
  have hn : 0 < 4 := by decide
  have hm : 0 < smallServer.bufSize := by decide
  obtain ⟨-, hstream, hclean⟩ :=
    transfer_carried Sys.exampleConfig (fun _ => true) hn 6 100 hm fourBytes
  exact ⟨by decide, hstream, hclean (.inl (.inl rfl))⟩

end Shipment

end NetBridge
