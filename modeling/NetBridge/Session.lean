import NetBridge.Delivery
import NetBridge.NodeCommands

/-! # A transfer over its connection

The command `transfer` makes a socket, connects it and starts a `TransferClient` on it.  `Session` is
what comes of it: the task of the client and the system of `Connection.lean`, in which the socket of
the client is used by the task alone.  At the other end is a node that runs the same code, with an
application such as `TransferServer`: it accepts, reads, closes and releases its connection when it
likes, and writes nothing.

Both applications can give up their socket (`release`), which the events of `Connection.lean` do not
do.  The invariants of the two ends and the wire hold all the same. -/

namespace NetBridge

open TcpManager (released)

/-! ### Giving up a connection -/

/-- An end whose socket is released. -/
def End.given (x : End) : End := { x with sock := released x.sock, pending := false, registered := false }

theorem EndOk.given {w : Party} {x : End} (h : EndOk w x) (hsender : SenderOk (released x.sock)) :
    EndOk w x.given := by
  refine ⟨hsender, h.used, h.cap, ?_, h.free, h.syn, (fun hp => by cases hp), ?_⟩
  · intro hfin
    obtain ⟨hseq, hempty, -⟩ := h.fin hfin
    exact ⟨hseq, hempty, fun hst => by cases hst⟩
  · obtain hf | hs := h.phase
    · refine .inl ⟨hf.sndUna, hf.sndNxt, hf.rcvNxt, hf.written, hf.received, hf.finSeq, ?_⟩
      exact fun hlive => hlive.ne.1 rfl
    · exact .inr ⟨hs.sndUna, hs.sndNxt, hs.rcvNxt, rfl, .inr rfl⟩

namespace Side

variable {cfg : Config} {w : Party} {d : Side}

theorem shape_unregister {handles : List SockId} {m : TcpManager} (h : m.Shape cfg w handles) :
    ((m.unregisterSocket w.conn).setSock w.conn (released (m.sock w.conn))).Shape cfg w handles := by
  have hunregister : (m.unregisterSocket w.conn).Shape cfg w handles := by
    refine ⟨h.addr, ?_, ?_, ?_, ?_, h.others, h.notListening, h.key, h.queue, h.held, h.length⟩
    · intro p i hp
      exact h.listeners p i ((Table.lookup_eraseValue_eq_some _).mp hp).1
    · rintro rfl
      -- the listener is another socket
      exact (Table.lookup_eraseValue_eq_some _).mpr ⟨h.listening rfl, Nat.zero_ne_one⟩
    · intro k i hk
      exact h.pending k i ((Table.lookup_eraseValue_eq_some _).mp hk).1
    · intro k i hk
      exact h.established k i ((Table.lookup_eraseValue_eq_some _).mp hk).1
  have hqueue : (m.sock w.conn).pendingConnQueue = [] := by
    obtain hq | ⟨rfl, hconn, -⟩ := h.queue w.conn
    · exact hq
    · exact absurd hconn (by decide)
  refine hunregister.setConn (fun hst => by cases hst) (fun hst => absurd rfl hst) ?_
  exact hqueue.symm

theorem performs_release (h : SideOk cfg w d) (hi : w.conn ∈ d.handles)
    (hst : (d.man.sock w.conn).state ≠ .CLOSED) :
    d.Performs cfg w (.release w.conn) (d.view cfg w).given [] := by
  have hexec := step_eq_exec h (.release w.conn) fun j hj => by cases hj; exact hi
  have hstep : d.man.step (.release w.conn) =
      (d.man.unregisterSocket w.conn).setSock w.conn (released (d.man.sock w.conn)) :=
    hexec.trans (d.man.release_of_not_closed hst)
  have hlt : w.conn < (d.man.unregisterSocket w.conn).allSockets.length := h.shape.held _ hi
  refine ⟨?_, ?_, ?_⟩
  · show (d.man.step (.release w.conn)).Shape cfg w d.handles
    rw [hstep]
    exact shape_unregister h.shape
  · refine view_perform ?_ ?_ ?_ rfl rfl rfl
    · rw [hstep]
      exact TcpManager.sock_setSock_self _ hlt _
    · rw [hstep]
      apply Option.isSome_eq_false_iff.mpr
      rw [Option.isNone_iff_eq_none]
      apply Table.lookup_eraseValue_eq_none
      intro i hk
      obtain ⟨rfl, rfl, -⟩ := h.shape.pending _ i hk
      rfl
    · rw [hstep]
      apply Option.isSome_eq_false_iff.mpr
      rw [Option.isNone_iff_eq_none]
      apply Table.lookup_eraseValue_eq_none
      exact fun i hk => (h.shape.established _ i hk).1
  · refine emitted_eq (m := (d.man.unregisterSocket w.conn).setSock w.conn
      (released (d.man.sock w.conn))) ?_ rfl
    rw [hstep, TcpManager.emit_nil]

end Side

namespace Sys

variable {cfg : Config} {σ : Sys}

/-- The application of a side releases its connection. -/
def release (σ : Sys) (w : Party) : Sys :=
  if w.conn ∈ (σ.side w).handles then σ.act w (.release w.conn) else σ

theorem release_cases (h : σ.Ok cfg) (w : Party) :
    σ.release w = σ ∨
      (SideOk cfg w ((σ.side w).perform (.release w.conn)) ∧
        (σ.side w).Performs cfg w (.release w.conn) (σ.ends cfg w).given [] ∧
        σ.release w = σ.act w (.release w.conn)) := by
  unfold release
  split_ifs with hi
  · by_cases hst : (σ.sock w).state = .CLOSED
    · left
      have hexec := Side.step_eq_exec (h.side w) (.release w.conn) fun j hj => by cases hj; exact hi
      have hstep : (σ.side w).man.step (.release w.conn) = (σ.side w).man :=
        hexec.trans ((σ.side w).man.release_of_closed hst)
      have hperform : (σ.side w).perform (.release w.conn) = σ.side w := by
        rw [Side.perform, hstep]
        rfl
      have hout : (σ.side w).emitted (.release w.conn) = [] := by
        rw [Side.emitted, hstep, List.drop_length]
      rw [act, hperform, hout, Function.update_eq_self, List.append_nil]
    · right
      have hperforms := Side.performs_release (h.side w) hi hst
      have hsteady : ((σ.side w).man.step (.release w.conn)).Steady :=
        (h.side w).steady.step (fun _ _ e => by cases e) id
      exact ⟨⟨hsteady, hperforms.shape⟩, hperforms, rfl⟩
  · exact .inl rfl

theorem Ok.release (h : σ.Ok cfg) (w : Party) : (σ.release w).Ok cfg := by
  obtain heq | ⟨hside, hperforms, heq⟩ := release_cases h w
  · rw [heq]
    exact h
  · rw [heq]
    have hwire : (σ.act w (.release w.conn)).wire = σ.wire := by
      rw [act_wire, hperforms.out, List.append_nil]
    refine ⟨?_, ?_, ?_, ?_, ?_⟩
    · intro v
      obtain rfl | rfl := w.eq_or_eq_other v
      · rw [act_side_self]
        exact hside
      · rw [act_side_other]
        exact h.side _
    · intro v
      obtain rfl | rfl := w.eq_or_eq_other v
      · have hsock : ((σ.side v).perform (.release v.conn)).man.sock v.conn =
            released (σ.ends cfg v).sock := congrArg End.sock hperforms.view
        have hsender := hside.steady.senders v.conn
        rw [hsock] at hsender
        rw [ends_act_self, hperforms.view]
        exact (h.ends v).given hsender
      · rw [Sys.ends, act_side_other]
        exact h.ends _
    · rw [hwire]
      exact h.wire
    · rw [hwire]
      intro p hp hty
      obtain ⟨hseq, hsrc, hlen⟩ := h.syn p hp hty
      refine ⟨hseq, hsrc, ?_⟩
      obtain rfl | hother := w.eq_or_eq_other .server
      · rw [act_side_self]
        refine ((σ.side .server).man.length_step (h.side _).steady.bounded ?_ ?_).trans hlen
        · exact fun e => by cases e
        · exact fun _ _ _ e => by cases e
      · rw [hother, act_side_other, ← hother]
        exact hlen
    · rw [hwire]
      exact h.once

/-- Both directions of the connection are go-back-N channels. -/
def Linked (cfg : Config) (σ : Sys) : Prop := ∀ w, ∃ c, Link cfg w (σ.ends cfg) σ.wire c

theorem linked_init (cfg : Config) : (init cfg).Linked cfg := fun w => ⟨_, init_link cfg w⟩

theorem Linked.step (h : σ.Linked cfg) (hok : σ.Ok cfg) (e : Event) : (σ.step cfg e).Linked cfg := by
  intro w
  refine (step_ends (I := fun x wire => ∃ c, Link cfg w x wire c) (G := fun _ _ _ => True) ?_ ?_ σ e
    ⟨hok, h w⟩ fun _ _ => trivial).2
  · rintro x wire wire' ⟨c, hl⟩ hsub
    exact ⟨c, hl.subset hsub⟩
  · exact fun x wire v op x' out hok _ hl hact harr _ => link_act w x wire v op x' out hok hl hact harr

theorem Linked.release (h : σ.Linked cfg) (hok : σ.Ok cfg) (w : Party) :
    (σ.release w).Linked cfg := by
  obtain heq | ⟨hside, hperforms, heq⟩ := release_cases hok w
  · rw [heq]
    exact h
  · intro v
    obtain ⟨c, hlink⟩ := h v
    have hnone : ∀ p ∈ ([] : List Sent), False := fun p hp => by cases hp
    rw [heq, ends_act, hperforms.view, act_wire, hperforms.out]
    obtain rfl | rfl := v.eq_or_eq_other w
    · refine ⟨c, hlink.sender_same rfl hlink.acked ?_ rfl ?_ ?_⟩
      · exact fun seg hseg => ⟨seg, hseg, rfl, rfl⟩
      · exact fun p hp => (hnone p hp).elim
      · exact fun p hp => (hnone p hp).elim
    · refine ⟨c, hlink.receiver_same rfl id ?_ ?_⟩
      · exact fun p hp => (hnone p hp).elim
      · exact fun p hp => (hnone p hp).elim

/-! ### What has been written -/

theorem event_of_write {w : Party} {e : Event} {now : Int} {i : SockId} {buf : Buf} {pos len : Int}
    (hop : σ.opOf cfg e = some (w, .write now i buf pos len)) : e = .write w now i buf pos len := by
  cases e with
  | write =>
      simp only [opOf, Option.ite_none_right_eq_some, Option.some.injEq, Prod.mk.injEq,
        Op.write.injEq] at hop
      obtain ⟨-, rfl, rfl, rfl, rfl, rfl, rfl⟩ := hop
      rfl
  | deliver n now' =>
      simp only [opOf, Option.bind_eq_bind, Option.bind_eq_some_iff] at hop
      obtain ⟨p, -, v, -, hop⟩ := hop
      cases hop
  | read | accept | close => simp [opOf] at hop
  | tick | drop | duplicate => cases hop

theorem written_step {w : Party} {e : Event}
    (he : ∀ now i buf pos len, e ≠ .write w now i buf pos len) :
    ((σ.step cfg e).side w).written = (σ.side w).written := by
  cases hop : σ.opOf cfg e with
  | none => rw [step, hop]
  | some x =>
      obtain ⟨v, op⟩ := x
      rw [step_of_opOf cfg hop]
      obtain rfl | rfl := v.eq_or_eq_other w
      · rw [act_side_self]
        show (σ.side w).nextWritten op = _
        cases op with
        | write => exact absurd (event_of_write hop) (he _ _ _ _ _)
        | socket | bind | listen | accept | connect | close | release | read | receive | tick => rfl
      · rw [act_side_other]

theorem written_release (w v : Party) : ((σ.release w).side v).written = (σ.side v).written := by
  unfold release
  split_ifs
  · obtain rfl | rfl := w.eq_or_eq_other v
    · rw [act_side_self]
      rfl
    · rw [act_side_other]
  · rfl

/-- A `write` adds as many bytes as it returns. -/
theorem written_write (w : Party) (now : Int) (i : SockId) (buf : Buf) (pos len : Int) :
    ((σ.step cfg (.write w now i buf pos len)).side w).written.length ≤
      (σ.side w).written.length + ((σ.side w).man.write now i buf pos len).2.toNat := by
  by_cases hi : i ∈ (σ.side w).handles
  · have hop : σ.opOf cfg (.write w now i buf pos len) = some (w, .write now i buf pos len) :=
      if_pos hi
    rw [step_of_opOf cfg hop, act_side_self]
    show ((σ.side w).written ++ _).length ≤ _
    rw [List.length_append, Buf.slice_length]
  · have hop : σ.opOf cfg (.write w now i buf pos len) = none := if_neg hi
    rw [step, hop]
    exact Nat.le_add_right _ _

/-- A `write` fails, or takes some of the bytes that it is offered. -/
theorem Ok.write_value (h : σ.Ok cfg) (w : Party) (now : Int) (buf : Buf) (pos len : Int) :
    ((σ.side w).man.write now w.conn buf pos len).2 = -1 ∨
      (0 ≤ ((σ.side w).man.write now w.conn buf pos len).2 ∧
        ((σ.side w).man.write now w.conn buf pos len).2 ≤ len) := by
  by_cases hguard : (σ.sock w).state ≠ .ESTABLISHED ∨ buf = none ∨ pos < 0 ∨ len < 0
  · have hfails : (σ.side w).man.write now w.conn buf pos len = ((σ.side w).man, -1) :=
      if_pos hguard
    exact .inl (congrArg Prod.snd hfails)
  · simp only [not_or, not_not, not_lt] at hguard
    obtain ⟨hst, hbuf, hpos, hlen⟩ := hguard
    have hne : (σ.sock w).state ≠ .CLOSED := by
      rw [hst]
      decide
    obtain ⟨out, -, hwrite⟩ := (σ.side w).man.write_ok now
      ((σ.side w).man.lt_length_of_state hne) hst hbuf hpos hlen ((h.side w).shape.sendable hne)
    right
    rw [hwrite]
    unfold TcpManager.windowRoom
    simp only
    omega

end Sys

/-! ### The session -/

/-- What a socket tells its application. -/
def TcpSocket.status (s : TcpSocket) : SocketStatus :=
  ⟨s.isConnectionPending, s.isConnected, s.isClosurePending, s.isClosed⟩

/-- The task of a client and the connection that it uses. -/
structure Session where
  task : TransferClient
  sys : Sys

namespace Session

/-- The timer of the task fires, the application of the server gives up its connection, or something
happens in the system. -/
inductive Event where
  | task (now : Int)
  | release
  | system (e : NetBridge.Event)

/-- The socket of the client is used by the task alone, and the peer writes nothing. -/
def Event.Honest : Event → Prop
  | .system (.write ..) => False
  | .system (.read w ..) | .system (.accept w _) | .system (.close w _) => w = .server
  | _ => True

instance : DecidablePred Event.Honest
  | .task _ | .release => inferInstanceAs (Decidable True)
  | .system e =>
      match e with
      | .write .. => inferInstanceAs (Decidable False)
      | .read w .. | .accept w _ | .close w _ => inferInstanceAs (Decidable (w = .server))
      | .tick .. | .deliver .. | .drop _ | .duplicate _ => inferInstanceAs (Decidable True)

/-- A call of the task on its socket. -/
def call (cfg : Config) (now : Int) (σ : Sys) : SocketCall → Sys
  | .write buf pos len => σ.step cfg (.write .client now 0 (some buf) pos len)
  | .read pos len => σ.step cfg (.read .client 0 true pos len)
  | .close => σ.step cfg (.close .client 0)
  | .release => σ.release .client

/-- What the `write` of the task returns. -/
def count (s : Session) (now : Int) : Int :=
  ((s.sys.side .client).man.write now 0 (some (s.task.begun now).fill.buf) s.task.index
    s.task.len).2

def step (cfg : Config) (s : Session) : Event → Session
  | .task now =>
      if s.task.intervalMs ≤ 0 then s
      else
        match s.task.execute (s.sys.sock .client).status now (s.count now) with
        | .error _ => { s with task := { s.task with intervalMs := 0 } }
        | .ok (task, calls) => ⟨task, calls.foldl (call cfg now) s.sys⟩
  | .release => { s with sys := s.sys.release .server }
  | .system e => { s with sys := s.sys.step cfg e }

/-- The SYN has just been sent. -/
def start (cfg : Config) (task : TransferClient) : Session := ⟨task, Sys.init cfg⟩

/-- The invariant: both directions are channels, the client has sent no more than it was asked to, and
the server nothing. -/
structure Sound (cfg : Config) (amount : Int) (s : Session) : Prop where
  ok : s.sys.Ok cfg
  linked : s.sys.Linked cfg
  spent : (s.sys.side .client).written.length + s.task.amount ≤ amount
  left : 0 ≤ s.task.amount ∨ (s.sys.side .client).written = []
  silent : (s.sys.side .server).written = []

variable {cfg : Config} {amount : Int} {s : Session}

theorem sound_start (cfg : Config) (task : TransferClient) :
    Sound cfg task.amount (start cfg task) := by
  refine ⟨Sys.init_ok cfg, Sys.linked_init cfg, ?_, .inr rfl, rfl⟩
  exact (zero_add task.amount).le

theorem call_keeps {σ : Sys} (hok : σ.Ok cfg) (hlinked : σ.Linked cfg) (now : Int)
    (x : SocketCall) :
    (call cfg now σ x).Ok cfg ∧ (call cfg now σ x).Linked cfg ∧
      ((call cfg now σ x).side .server).written = (σ.side .server).written := by
  cases x with
  | write buf pos len =>
      exact ⟨hok.step _, hlinked.step hok _, Sys.written_step fun _ _ _ _ _ e => by cases e⟩
  | read pos len =>
      exact ⟨hok.step _, hlinked.step hok _, Sys.written_step fun _ _ _ _ _ e => by cases e⟩
  | close =>
      exact ⟨hok.step _, hlinked.step hok _, Sys.written_step fun _ _ _ _ _ e => by cases e⟩
  | release => exact ⟨hok.release _, hlinked.release hok _, Sys.written_release _ _⟩

theorem calls_keep (now : Int) (calls : List SocketCall) {σ : Sys} (hok : σ.Ok cfg)
    (hlinked : σ.Linked cfg) :
    (calls.foldl (call cfg now) σ).Ok cfg ∧ (calls.foldl (call cfg now) σ).Linked cfg ∧
      ((calls.foldl (call cfg now) σ).side .server).written = (σ.side .server).written := by
  induction calls generalizing σ with
  | nil => exact ⟨hok, hlinked, rfl⟩
  | cons x calls ih =>
      obtain ⟨hok', hlinked', hsilent⟩ := call_keeps hok hlinked now x
      obtain ⟨hok'', hlinked'', hsilent'⟩ := ih hok' hlinked'
      exact ⟨hok'', hlinked'', hsilent'.trans hsilent⟩

/-- What a run of the task writes is taken off what is left. -/
theorem Sound.spends (h : Sound cfg amount s) {status : SocketStatus} {now : Int}
    {task : TransferClient} {calls : List SocketCall}
    (hexec : s.task.execute status now (s.count now) = .ok (task, calls)) :
    ((calls.foldl (call cfg now) s.sys).side .client).written.length + task.amount ≤
        (s.sys.side .client).written.length + s.task.amount ∧
      (0 ≤ task.amount ∨ ((calls.foldl (call cfg now) s.sys).side .client).written = []) := by
  have hspent := h.spent
  have hleft := h.left
  have hclose : ((s.sys.step cfg (.close .client 0)).side .client).written =
      (s.sys.side .client).written := Sys.written_step fun _ _ _ _ _ e => by cases e
  have hrelease := fun σ : Sys => Sys.written_release (σ := σ) .client .client
  have hwritten := @Sys.written_write cfg s.sys .client now 0 (some (s.task.begun now).fill.buf)
    s.task.index s.task.len
  have hvalue := h.ok.write_value .client now (some (s.task.begun now).fill.buf) s.task.index
    s.task.len
  change (s.count now = -1 ∨ (0 ≤ s.count now ∧ s.count now ≤ s.task.len)) at hvalue
  change _ ≤ _ + (s.count now).toNat at hwritten
  unfold TransferClient.execute at hexec
  simp only [TransferClient.begun_amount, TransferClient.begun_buf] at hexec
  split_ifs at hexec with hpending hconnected hamount hsize hcount hclosing hclosed <;>
    obtain ⟨rfl, rfl⟩ := Prod.mk.inj (Except.ok.inj hexec)
  · exact ⟨le_rfl, hleft⟩
  · simp only [List.foldl_cons, List.foldl_nil, call, hclose, TransferClient.begun_amount]
    exact ⟨le_rfl, hleft⟩
  · -- the call fails and the socket is released
    simp only [List.foldl_cons, List.foldl_nil, call, hrelease, TransferClient.fill_amount,
      TransferClient.begun_amount, TransferClient.fill_index, TransferClient.begun_index,
      TransferClient.fill_len, TransferClient.begun_len]
    rw [hcount] at hwritten
    refine ⟨by omega, ?_⟩
    obtain hpos | hnone := hleft
    · exact .inl hpos
    · rw [hnone] at hwritten
      exact .inr (List.eq_nil_of_length_eq_zero (by simpa using hwritten))
  · simp only [List.foldl_cons, List.foldl_nil, call, TransferClient.fill_amount,
      TransferClient.begun_amount, TransferClient.fill_index, TransferClient.begun_index,
      TransferClient.fill_len, TransferClient.begun_len]
    obtain hfails | ⟨hnonneg, hle⟩ := hvalue
    · exact absurd hfails hcount
    · have hlen : s.task.len ≤ s.task.amount := min_le_right _ _
      exact ⟨by omega, .inl (by omega)⟩
  · exact ⟨le_rfl, hleft⟩
  · simp only [List.foldl_cons, List.foldl_nil, call, hrelease]
    exact ⟨le_rfl, hleft⟩
  · exact ⟨le_rfl, hleft⟩

theorem Sound.step (h : Sound cfg amount s) {e : Event} (he : e.Honest) :
    Sound cfg amount (s.step cfg e) := by
  cases e with
  | task now =>
      unfold Session.step
      simp only
      split_ifs
      · exact h
      · cases hexec : s.task.execute (s.sys.sock .client).status now (s.count now) with
        | error err => exact ⟨h.ok, h.linked, h.spent, h.left, h.silent⟩
        | ok r =>
            obtain ⟨task, calls⟩ := r
            obtain ⟨hok, hlinked, hsilent⟩ := calls_keep now calls h.ok h.linked
            obtain ⟨hspends, hleft⟩ := h.spends hexec
            exact ⟨hok, hlinked, hspends.trans h.spent, hleft, hsilent.trans h.silent⟩
  | release =>
      refine ⟨h.ok.release _, h.linked.release h.ok _, ?_, ?_, ?_⟩
      · show (((s.sys.release .server).side .client).written.length : Int) + _ ≤ _
        rw [Sys.written_release]
        exact h.spent
      · show _ ∨ ((s.sys.release .server).side .client).written = []
        rw [Sys.written_release]
        exact h.left
      · exact (Sys.written_release _ _).trans h.silent
  | system e =>
      have hsame : ∀ w, ((s.sys.step cfg e).side w).written = (s.sys.side w).written := by
        intro w
        refine Sys.written_step ?_
        rintro now i buf pos len rfl
        exact he
      refine ⟨h.ok.step e, h.linked.step h.ok e, ?_, ?_, (hsame _).trans h.silent⟩
      · show (((s.sys.step cfg e).side .client).written.length : Int) + _ ≤ _
        rw [hsame]
        exact h.spent
      · show _ ∨ ((s.sys.step cfg e).side .client).written = []
        rw [hsame]
        exact h.left

theorem sound_run (cfg : Config) (task : TransferClient) {events : List Event}
    (hevents : ∀ e ∈ events, e.Honest) :
    Sound cfg task.amount (run (Session.step cfg) (start cfg task) events) := by
  exact guarded_induction (fun s e h he => h.step he) (sound_start cfg task)
    (guarded_of_forall hevents _)

end Session

end NetBridge
