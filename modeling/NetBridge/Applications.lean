import NetBridge.NodeCommands
import NetBridge.Session
import NetBridge.Simulator
import NetBridge.Timer

/-! # A node and its applications

A `StackNode` with the tasks that its commands have started, and what it does when the runtime calls
it: a packet arrives (`onReceive`), a command comes (`onCommand`), or one of its timers fires, which is
the retransmission timer of TCP (`tcp_manager.cpp`), the timer of the ping service (`stack_node.cpp`)
or that of a task (`timer_task.cpp`).  A reaction of the node is its new state and the calls that it
makes on the runtime, in their order.

Whatever a node does, its TCP only ever makes the steps of a disciplined station with a clock that
does not go back (`Reaches`): the commands open every socket once, right after it is made. -/

namespace NetBridge

/-- A task at a node, with its socket. -/
inductive AppTask where
  | client (sock : SockId) (task : TransferClient)
  | server (sock : SockId) (task : TransferServer)
  | worker (sock : SockId) (task : TransferWorker)
deriving DecidableEq

namespace AppTask

def sock : AppTask → SockId
  | client sock _ | server sock _ | worker sock _ => sock

def intervalMs : AppTask → Int
  | client _ task => task.intervalMs
  | server _ task => task.intervalMs
  | worker _ task => task.intervalMs

def ofCommand : NodeTask → AppTask
  | .client sock task => client sock task
  | .server sock task => server sock task

end AppTask

/-- What a timer of a node calls. -/
inductive NodeCallback where
  | retransmissionTick
  | pingTimedOut
  | tick (task : ℕ)
deriving DecidableEq

/-- A call of a node on the runtime. -/
inductive NodeCall where
  | sendPkt (dest : Int) (pkt : List UInt8)
  | addTimer (deltaMs : Int) (cb : NodeCallback)
deriving DecidableEq

structure AppNode where
  stack : StackNode
  tasks : List AppTask

/-- What a node does when it is called. -/
structure NodeReaction where
  node : AppNode
  calls : List NodeCall
  outcome : Outcome

/-- The bytes that `manager_->sendPkt` is given for a segment. -/
def Sent.bytes (p : Sent) : List UInt8 :=
  match Packet.make p.dest p.src Packet.MAX_TTL Protocol.TRANSPORT_PKT 0 p.seg.pack with
  | .ok pkt => pkt.pack
  | .error _ => []

/-- The packets that have left the stack since it was `before`. -/
def StackNode.outgoing (before after : StackNode) : List NodeCall :=
  (after.tcpMan.sent.drop before.tcpMan.sent.length).map (fun p => .sendPkt p.dest p.bytes) ++
    (after.sent.drop before.sent.length).map fun p => .sendPkt p.1 p.2

/-- A call of a task on its socket. -/
def SocketCall.op (now : Int) (sock : SockId) : SocketCall → Op
  | .write buf pos len => .write now sock (some buf) pos len
  | .read pos len => .read sock true pos len
  | .close => .close sock
  | .release => .release sock

def TcpManager.RETRANS_TICK_MS : Int := 10

def StackNode.PING_TIMEOUT_MS : Int := 10000

namespace AppNode

/-- The constructor. -/
def new (addr : Int) : AppNode := ⟨.new addr, []⟩

variable (n : AppNode)

/-- `StackNode::start`: the calls that it makes. -/
def start : List NodeCall :=
  [.addTimer StackNode.PING_TIMEOUT_MS .pingTimedOut,
    .addTimer TcpManager.RETRANS_TICK_MS .retransmissionTick]

/-- The stack changes, its packets are sent, and then timers are asked for. -/
def becomes (stack : StackNode) (tasks : List AppTask) (timers : List NodeCall) : NodeReaction :=
  ⟨⟨stack, tasks⟩, n.stack.outgoing stack ++ timers, .returned⟩

def setTcp (tcpMan : TcpManager) : StackNode := { n.stack with tcpMan }

def onReceive (now sender : Int) (msg : List UInt8) : NodeReaction :=
  n.becomes (n.stack.onReceive now sender msg) n.tasks []

/-- `retransmissionTick`, with the timer for its next call. -/
def retransmissionTick (now : Int) : NodeReaction :=
  n.becomes (n.setTcp (n.stack.tcpMan.retransmissionTick now)) n.tasks
    [.addTimer TcpManager.RETRANS_TICK_MS .retransmissionTick]

/-- `pingTimedOut`: the pings that are too old go. -/
def pingTimedOut (now : Int) : NodeReaction :=
  n.becomes
    { n.stack with pings := n.stack.pings.filter fun it =>
        ¬ it.timeSentMs + StackNode.PING_TIMEOUT_MS < now }
    n.tasks [.addTimer StackNode.PING_TIMEOUT_MS .pingTimedOut]

/-- `schedule` of task `i`. -/
def schedule (i : ℕ) (intervalMs : Int) : List NodeCall :=
  if intervalMs ≤ 0 then [] else [.addTimer intervalMs (.tick i)]

/-- `onCommand`: a command starts at most one task. -/
def onCommand (alloc : ℕ → Bool) (now : Int) (command : Str) : NodeReaction :=
  let c := ((⟨n.stack, []⟩ : CommandedNode).onCommand alloc now command).1
  n.becomes c.stack (n.tasks ++ c.timers.map fun p => .ofCommand p.2)
    (c.timers.mapIdx fun j p => .addTimer p.1 (.tick (n.tasks.length + j)))

/-- The calls of a task on its socket, one after the other. -/
def callSocket (now : Int) (sock : SockId) (calls : List SocketCall) : TcpManager :=
  calls.foldl (fun m c => m.exec (c.op now sock)) n.stack.tcpMan

/-- `tick` of a client: `execute` and `schedule`.  A division by zero ends the program. -/
def tickClient (now : Int) (i : ℕ) (sock : SockId) (c : TransferClient) : NodeReaction :=
  let m := n.stack.tcpMan
  let offered := (c.begun now).fill
  let count := (m.write now sock (some offered.buf) offered.index offered.len).2
  match c.execute (m.sock sock).status now count with
  | .error _ => ⟨n, [], .exits⟩
  | .ok (c, calls) =>
      n.becomes (n.setTcp (n.callSocket now sock calls)) (n.tasks.set i (.client sock c))
        (schedule i c.intervalMs)

/-- `tick` of a worker. -/
def tickWorker (now : Int) (i : ℕ) (sock : SockId) (w : TransferWorker) : NodeReaction :=
  let m := n.stack.tcpMan
  let (_, count, bytes) := m.read sock true w.index w.len
  match w.execute (m.sock sock).isClosed count bytes with
  | .error _ => ⟨n, [], .exits⟩
  | .ok (w, calls, _) =>
      n.becomes (n.setTcp (n.callSocket now sock calls)) (n.tasks.set i (.worker sock w))
        (schedule i w.intervalMs)

/-- The worker of a connection that is accepted, unless its timer is never started. -/
def startedWorker : Option SockId → Option TransferWorker → List AppTask
  | some conn, some worker => if worker.intervalMs ≤ 0 then [] else [.worker conn worker]
  | _, _ => []

/-- `tick` of a server: a connection that is accepted gets a worker, which is started.  If its buffer
cannot be made, the exception leaves `tick` before `schedule`. -/
def tickServer (alloc : ℕ → Bool) (i : ℕ) (sock : SockId) (s : TransferServer) : NodeReaction :=
  let m := n.stack.tcpMan
  let isClosed := (m.sock sock).isClosed
  let (m, conn) := if isClosed then (m, none) else m.accept sock
  match s.execute alloc isClosed conn.isSome with
  | .error _ => { n.becomes (n.setTcp m) n.tasks [] with outcome := .threw }
  | .ok (s, worker) =>
      let started := startedWorker conn worker
      n.becomes (n.setTcp m) (n.tasks.set i (.server sock s) ++ started)
        (started.mapIdx (fun j task => .addTimer task.intervalMs (.tick (n.tasks.length + j))) ++
          schedule i s.intervalMs)

/-- `TimerTask::tick`. -/
def tick (alloc : ℕ → Bool) (now : Int) (i : ℕ) : NodeReaction :=
  match n.tasks[i]? with
  | none => ⟨n, [], .returned⟩
  | some (.client sock c) => n.tickClient now i sock c
  | some (.worker sock w) => n.tickWorker now i sock w
  | some (.server sock s) => n.tickServer alloc i sock s

/-- A timer of the node fires. -/
def callback (alloc : ℕ → Bool) (now : Int) : NodeCallback → NodeReaction
  | .retransmissionTick => n.retransmissionTick now
  | .pingTimedOut => n.pingTimedOut now
  | .tick i => n.tick alloc now i

end AppNode

/-! ### The TCP of a node is that of a disciplined station -/

/-- What a datagram does to TCP does not depend on the ping service. -/
theorem StackNode.onReceive_congr {n n' : StackNode} (h : n.tcpMan = n'.tcpMan) (now sender : Int)
    (msg : List UInt8) :
    (n.onReceive now sender msg).tcpMan = (n'.onReceive now sender msg).tcpMan := by
  have hping : ∀ (n : StackNode) (p : Packet), (n.receivePing p).tcpMan = n.tcpMan := by
    intro n p
    unfold receivePing
    split
    · exact n.sendPacket_tcpMan _ _
    · rfl
  unfold onReceive
  split
  · exact h
  · unfold receivePacket
    split_ifs
    · rw [hping, hping, h]
    · exact h
    · unfold receiveTransport
      split
      · exact h
      · simp only [h]
    · exact h

/-- The time of the latest tick of the retransmission timer, which was `τ` before the event. -/
def NodeEvent.lastTick (τ : Int) : NodeEvent → Int
  | .call (.tick now) => now
  | _ => τ

/-- Some run of a station at `addr`, with a clock that does not go back and has not passed `t`
milliseconds, ends with this TCP.  The latest tick of its retransmission timer was at `τ`. -/
def Reaches (addr τ t : Int) (m : TcpManager) : Prop :=
  ∃ es, Guarded Clocked.step Clocked.Allowed (Clocked.new addr) es ∧
    (run Clocked.step (Clocked.new addr) es).station.node.tcpMan = m ∧
    (run Clocked.step (Clocked.new addr) es).clock ≤ t ∧
    run NodeEvent.lastTick 0 es = τ

namespace Reaches

variable {addr τ t : Int} {m : TcpManager}

theorem new (addr : Int) : Reaches addr 0 0 (TcpManager.new addr) :=
  ⟨[], trivial, rfl, le_rfl, rfl⟩

theorem mono (h : Reaches addr τ t m) {t' : Int} (hle : t ≤ t') : Reaches addr τ t' m := by
  obtain ⟨es, hes, hm, hclock, htick⟩ := h
  exact ⟨es, hes, hm, hclock.trans hle, htick⟩

theorem ok (haddr : Packet.validAddress addr = true) (h : Reaches addr τ t m) :
    ∃ c : Clocked, Clocked.Ok addr c ∧ c.station.node.tcpMan = m ∧ c.clock ≤ t := by
  obtain ⟨es, hes, hm, hclock, -⟩ := h
  exact ⟨_, Clocked.ok_run haddr hes, hm, hclock⟩

theorem bounded (haddr : Packet.validAddress addr = true) (h : Reaches addr τ t m) : m.Bounded := by
  obtain ⟨c, hok, rfl, -⟩ := h.ok haddr
  exact hok.station.sound.bounded

theorem append (h : Reaches addr τ t m) (es : List NodeEvent) {m' : TcpManager} {t' : Int}
    (hes : ∀ c : Clocked, c.station.node.tcpMan = m → c.clock ≤ t →
      Guarded Clocked.step Clocked.Allowed c es ∧
        (run Clocked.step c es).station.node.tcpMan = m' ∧ (run Clocked.step c es).clock ≤ t') :
    Reaches addr (run NodeEvent.lastTick τ es) t' m' := by
  obtain ⟨es₀, hes₀, hm, hclock, htick⟩ := h
  obtain ⟨hes, hm', hclock'⟩ := hes _ hm hclock
  refine ⟨es₀ ++ es, guarded_append.mpr ⟨hes₀, hes⟩, ?_, ?_, ?_⟩
  · rw [run_append]
    exact hm'
  · rw [run_append]
    exact hclock'
  · rw [run_append, htick]

theorem step (h : Reaches addr τ t m) {op : Op} (hop : ∀ host : Host, host.Allowed op)
    (hin : op.incoming = false) (hread : ∀ now ∈ op.reading, now = t) :
    Reaches addr (NodeEvent.lastTick τ (.call op)) t (m.step op) := by
  refine h.append [.call op] ?_
  rintro c rfl hclock
  refine ⟨⟨⟨⟨hop _, hin⟩, ?_⟩, trivial⟩, rfl, ?_⟩
  · intro now hnow
    rw [hread now hnow]
    exact hclock
  · show op.reading.getD c.clock ≤ t
    cases hr : op.reading with
    | none => exact hclock
    | some now => exact (hread now hr).le

theorem exec (h : Reaches addr τ t m) {op : Op} (hv : m.Valid op)
    (hop : ∀ host : Host, host.Allowed op) (hin : op.incoming = false)
    (hread : ∀ now ∈ op.reading, now = t) :
    Reaches addr (NodeEvent.lastTick τ (.call op)) t (m.exec op) := by
  rw [← m.step_of_valid hv]
  exact h.step hop hin hread

theorem onReceive {n : StackNode} (h : Reaches addr τ t n.tcpMan) (sender : Int) (msg : List UInt8) :
    Reaches addr τ t (n.onReceive t sender msg).tcpMan := by
  refine h.append [.arrive t sender msg] ?_
  intro c hc hclock
  refine ⟨⟨⟨trivial, ?_⟩, trivial⟩, StackNode.onReceive_congr hc t sender msg, le_rfl⟩
  intro now hnow
  obtain rfl := Option.mem_some.mp hnow
  exact hclock

theorem opened (h : Reaches addr τ t m) (localPort : Int) {op : Op}
    (hop : (∃ backlog, op = .listen m.allSockets.length backlog) ∨
      ∃ destAddr destPort, op = .connect m.allSockets.length destAddr destPort) :
    Reaches addr τ t ((m.socket.1.bind m.allSockets.length localPort).exec op) := by
  have hτ : run NodeEvent.lastTick τ
      [.call .socket, .call (.bind m.allSockets.length localPort), .call op] = τ := by
    obtain ⟨backlog, rfl⟩ | ⟨destAddr, destPort, rfl⟩ := hop <;> rfl
  rw [← hτ]
  refine h.append [.call .socket, .call (.bind m.allSockets.length localPort), .call op] ?_
  rintro c rfl hclock
  have hlen : c.station.node.tcpMan.allSockets.length <
      c.station.node.tcpMan.socket.1.allSockets.length := by simp [TcpManager.socket]
  have hsocket := c.station.node.tcpMan.step_socket
  have hbind : c.station.node.tcpMan.socket.1.step
      (.bind c.station.node.tcpMan.allSockets.length localPort) =
        c.station.node.tcpMan.socket.1.bind c.station.node.tcpMan.allSockets.length localPort := by
    refine TcpManager.step_of_valid _ ?_
    rintro i hi
    obtain rfl := Option.mem_some.mp hi
    exact hlen
  have hopen : (c.station.node.tcpMan.socket.1.bind c.station.node.tcpMan.allSockets.length
      localPort).Valid op := by
    intro i hi
    have hlen' : c.station.node.tcpMan.allSockets.length < (c.station.node.tcpMan.socket.1.bind
        c.station.node.tcpMan.allSockets.length localPort).allSockets.length := by
      simp [TcpManager.bind, TcpManager.setSock, TcpManager.socket]
    obtain ⟨backlog, rfl⟩ | ⟨destAddr, destPort, rfl⟩ := hop
    · obtain rfl := Option.mem_some.mp hi
      exact hlen'
    · obtain rfl := Option.mem_some.mp hi
      exact hlen'
  have hphase : Function.update (Function.update c.station.phase
      c.station.node.tcpMan.allSockets.length .fresh) c.station.node.tcpMan.allSockets.length
      .bound c.station.node.tcpMan.allSockets.length ≠ .opened := by
    rw [Function.update_self]
    decide
  refine ⟨⟨⟨⟨trivial, rfl⟩, fun _ hnow => (by cases hnow)⟩,
    ⟨⟨?_, rfl⟩, fun _ hnow => (by cases hnow)⟩, ⟨⟨?_, ?_⟩, ?_⟩, trivial⟩, ?_, ?_⟩
  · exact Function.update_self _ _ _
  · obtain ⟨backlog, rfl⟩ | ⟨destAddr, destPort, rfl⟩ := hop
    · exact hphase
    · exact hphase
  · obtain ⟨backlog, rfl⟩ | ⟨destAddr, destPort, rfl⟩ := hop <;> rfl
  · obtain ⟨backlog, rfl⟩ | ⟨destAddr, destPort, rfl⟩ := hop <;> exact fun _ hnow => (by cases hnow)
  · show ((c.station.node.tcpMan.step .socket).step (.bind _ localPort)).step op = _
    rw [hsocket, hbind, TcpManager.step_of_valid _ hopen]
  · obtain ⟨backlog, rfl⟩ | ⟨destAddr, destPort, rfl⟩ := hop <;> exact hclock

end Reaches

namespace AppNode

/-- What holds of a node at `t` milliseconds: its TCP is that of a station, and its tasks have sockets
of its TCP. -/
structure Ok (addr τ t : Int) (n : AppNode) : Prop where
  reaches : Reaches addr τ t n.stack.tcpMan
  socks : ∀ task ∈ n.tasks, task.sock < n.stack.tcpMan.allSockets.length

variable {addr τ t : Int} {n : AppNode}

theorem Ok.new (addr : Int) : Ok addr 0 0 (new addr) :=
  ⟨.new addr, fun _ h => absurd h List.not_mem_nil⟩

theorem Ok.mono (h : Ok addr τ t n) {t' : Int} (hle : t ≤ t') : Ok addr τ t' n :=
  ⟨h.reaches.mono hle, h.socks⟩

theorem Ok.longer (haddr : Packet.validAddress addr = true) (h : Ok addr τ t n) (op : Op) :
    ∀ task ∈ n.tasks, task.sock < (n.stack.tcpMan.step op).allSockets.length := by
  intro task htask
  exact (h.socks task htask).trans_le
    (n.stack.tcpMan.length_le_step (h.reaches.bounded haddr) op)

theorem Ok.onReceive (haddr : Packet.validAddress addr = true) (h : Ok addr τ t n) (sender : Int)
    (msg : List UInt8) : Ok addr τ t (n.onReceive t sender msg).node := by
  refine ⟨h.reaches.onReceive sender msg, ?_⟩
  show ∀ task ∈ n.tasks, task.sock < (n.stack.onReceive t sender msg).tcpMan.allSockets.length
  obtain hsame | ⟨srcAddr, seg, -, hstep⟩ := n.stack.onReceive_tcpMan t sender msg
  · rw [hsame]
    exact h.socks
  · rw [hstep, ← TcpManager.step_receive]
    exact h.longer haddr _

theorem Ok.retransmissionTick (haddr : Packet.validAddress addr = true) (h : Ok addr τ t n) :
    Ok addr t t (n.retransmissionTick t).node := by
  have hstep : n.stack.tcpMan.step (.tick t) = n.stack.tcpMan.retransmissionTick t :=
    n.stack.tcpMan.step_tick t
  refine ⟨?_, ?_⟩
  · show Reaches addr t t (n.stack.tcpMan.retransmissionTick t)
    rw [← hstep]
    exact h.reaches.step (fun _ => trivial) rfl fun now hnow => (Option.mem_some.mp hnow).symm
  · show ∀ task ∈ n.tasks, task.sock < (n.stack.tcpMan.retransmissionTick t).allSockets.length
    rw [← hstep]
    exact h.longer haddr _

theorem Ok.pingTimedOut (h : Ok addr τ t n) : Ok addr τ t (n.pingTimedOut t).node :=
  ⟨h.reaches, h.socks⟩

theorem Ok.callSocket (haddr : Packet.validAddress addr = true) (h : Ok addr τ t n) {sock : SockId}
    (hsock : sock < n.stack.tcpMan.allSockets.length) (calls : List SocketCall) :
    Reaches addr τ t (n.callSocket t sock calls) ∧
      n.stack.tcpMan.allSockets.length ≤ (n.callSocket t sock calls).allSockets.length := by
  have hreaches := h.reaches
  unfold AppNode.callSocket
  generalize n.stack.tcpMan = m at hsock hreaches
  induction calls generalizing m with
  | nil => exact ⟨hreaches, le_rfl⟩
  | cons c calls ih =>
      have hvalid : m.Valid (c.op t sock) := by
        intro i hi
        cases c <;> obtain rfl := Option.mem_some.mp hi <;> exact hsock
      have hlonger := m.length_le_step (hreaches.bounded haddr) (c.op t sock)
      rw [m.step_of_valid hvalid] at hlonger
      have hnext : Reaches addr τ t (m.exec (c.op t sock)) := by
        have hτ : NodeEvent.lastTick τ (.call (c.op t sock)) = τ := by cases c <;> rfl
        rw [← hτ]
        refine hreaches.exec hvalid ?_ ?_ ?_
        · intro host
          cases c <;> trivial
        · cases c <;> rfl
        · intro now hnow
          cases c with
          | write => exact (Option.mem_some.mp hnow).symm
          | read | close | release => cases hnow
      obtain ⟨hlast, hlength⟩ := ih (m.exec (c.op t sock)) (hsock.trans_le hlonger) hnext
      exact ⟨hlast, hlonger.trans hlength⟩

theorem mem_tasks_set {i : ℕ} {old : AppTask} (hold : n.tasks[i]? = some old) (new : AppTask)
    (hsock : new.sock = old.sock) {k : ℕ} (hsocks : ∀ task ∈ n.tasks, task.sock < k) :
    ∀ task ∈ n.tasks.set i new, task.sock < k := by
  intro task htask
  obtain hmem | rfl := List.mem_or_eq_of_mem_set htask
  · exact hsocks task hmem
  · rw [hsock]
    exact hsocks old (List.mem_of_getElem? hold)

theorem Ok.called (haddr : Packet.validAddress addr = true) (h : Ok addr τ t n) {i : ℕ}
    {old : AppTask} (hold : n.tasks[i]? = some old) (new : AppTask) (hsock : new.sock = old.sock)
    (calls : List SocketCall) (timers : List NodeCall) :
    Ok addr τ t (n.becomes (n.setTcp (n.callSocket t old.sock calls)) (n.tasks.set i new)
      timers).node := by
  obtain ⟨hreaches, hlength⟩ :=
    h.callSocket haddr (h.socks old (List.mem_of_getElem? hold)) calls
  exact ⟨hreaches, mem_tasks_set hold new hsock fun task htask => (h.socks task htask).trans_le hlength⟩

theorem mem_startedWorker {conn : Option SockId} {worker : Option TransferWorker} {task : AppTask}
    (h : task ∈ startedWorker conn worker) :
    ∃ conn' worker', conn = some conn' ∧ worker = some worker' ∧ 0 < worker'.intervalMs ∧
      task = .worker conn' worker' := by
  unfold startedWorker at h
  split at h
  · next conn' worker' =>
      split_ifs at h with hinterval
      · cases h
      · exact ⟨conn', worker', rfl, rfl, not_le.mp hinterval, List.mem_singleton.mp h⟩
  · cases h

theorem Ok.tickServer (haddr : Packet.validAddress addr = true) (h : Ok addr τ t n)
    (alloc : ℕ → Bool) {i : ℕ} {sock : SockId} {s : TransferServer}
    (hi : n.tasks[i]? = some (.server sock s)) : Ok addr τ t (n.tickServer alloc i sock s).node := by
  have hsock : sock < n.stack.tcpMan.allSockets.length := h.socks _ (List.mem_of_getElem? hi)
  -- the connection that is accepted waits in the queue of the listener
  have haccept : ∀ m conn, (if (n.stack.tcpMan.sock sock).isClosed then (n.stack.tcpMan, none)
      else n.stack.tcpMan.accept sock) = (m, conn) →
      Reaches addr τ t m ∧ n.stack.tcpMan.allSockets.length ≤ m.allSockets.length ∧
        ∀ c ∈ conn, c < m.allSockets.length := by
    intro m conn hm
    split_ifs at hm with hclosed
    · obtain ⟨rfl, rfl⟩ := Prod.mk.inj hm
      exact ⟨h.reaches, le_rfl, fun c hc => by cases hc⟩
    · have hvalid : n.stack.tcpMan.Valid (.accept sock) := by
        intro i hi
        obtain rfl := Option.mem_some.mp hi
        exact hsock
      have hlonger := n.stack.tcpMan.length_le_step (h.reaches.bounded haddr) (.accept sock)
      have hexec : n.stack.tcpMan.exec (.accept sock) = m := congrArg Prod.fst hm
      have hreaches := h.reaches.exec hvalid (fun _ => trivial) rfl fun now hnow => by cases hnow
      rw [n.stack.tcpMan.step_of_valid hvalid] at hlonger
      rw [hexec] at hreaches hlonger
      refine ⟨hreaches, hlonger, ?_⟩
      intro c hc
      obtain hnone | ⟨conn', rest, -, hqueue, hcases⟩ := n.stack.tcpMan.accept_effect sock
      · rw [hnone] at hm
        rw [← (Prod.mk.inj hm).2] at hc
        cases hc
      · have hconn : conn = some conn' := by
          obtain ⟨-, heq⟩ | ⟨-, heq⟩ := hcases
          · exact (congrArg Prod.snd hm).symm.trans (congrArg Prod.snd heq)
          · exact (congrArg Prod.snd hm).symm.trans (congrArg Prod.snd heq)
        rw [hconn] at hc
        obtain rfl := Option.mem_some.mp hc
        refine ((h.reaches.bounded haddr).queued (i := sock) ?_).trans_le hlonger
        rw [hqueue]
        exact List.mem_cons_self
  unfold AppNode.tickServer
  simp only
  generalize hm : (if (n.stack.tcpMan.sock sock).isClosed then (n.stack.tcpMan, none)
    else n.stack.tcpMan.accept sock) = r
  obtain ⟨m, conn⟩ := r
  obtain ⟨hreaches, hlonger, hconn⟩ := haccept m conn hm
  have hold : ∀ task ∈ n.tasks, task.sock < m.allSockets.length :=
    fun task htask => (h.socks task htask).trans_le hlonger
  simp only
  split
  · exact ⟨hreaches, hold⟩
  · next s' worker _ =>
      refine ⟨hreaches, ?_⟩
      intro task htask
      obtain htask | hstarted := List.mem_append.mp htask
      · exact mem_tasks_set hi (.server sock s') rfl hold task htask
      · obtain ⟨conn, worker, rfl, -, -, rfl⟩ := mem_startedWorker hstarted
        exact hconn conn rfl

theorem Ok.tick (haddr : Packet.validAddress addr = true) (h : Ok addr τ t n) (alloc : ℕ → Bool)
    (i : ℕ) : Ok addr τ t (n.tick alloc t i).node := by
  unfold AppNode.tick
  split
  · exact h
  · next sock c hi =>
      unfold AppNode.tickClient
      simp only
      split
      · exact h
      · next c' calls _ => exact h.called haddr hi (.client sock c') rfl calls _
  · next sock w hi =>
      unfold AppNode.tickWorker
      simp only
      split
      · exact h
      · next w' calls _ _ => exact h.called haddr hi (.worker sock w') rfl calls _
  · next sock s hi => exact h.tickServer haddr alloc hi

/-- What the matchers of `onCommand` keep: `k` sockets at least, and those of the tasks that they
start. -/
structure Commanded (addr τ t : Int) (k : ℕ) (c : CommandedNode) : Prop where
  reaches : Reaches addr τ t c.stack.tcpMan
  longer : k ≤ c.stack.tcpMan.allSockets.length
  socks : ∀ p ∈ c.timers, (AppTask.ofCommand p.2).sock < c.stack.tcpMan.allSockets.length

variable {k : ℕ}

theorem Commanded.setTcp {c : CommandedNode} (h : Commanded addr τ t k c)
    {m : TcpManager} (hreaches : Reaches addr τ t m)
    (hlength : m.allSockets.length = c.stack.tcpMan.allSockets.length + 1) :
    Commanded addr τ t k (c.setTcp m) := by
  refine ⟨hreaches, ?_, fun p hp => ?_⟩
  · show k ≤ m.allSockets.length
    rw [hlength]
    exact Nat.le_succ_of_le h.longer
  · show (AppTask.ofCommand p.2).sock < m.allSockets.length
    rw [hlength]
    exact Nat.lt_succ_of_lt (h.socks p hp)

theorem Commanded.schedule {c : CommandedNode} (h : Commanded addr τ t k c) {task : NodeTask}
    (htask : (AppTask.ofCommand task).sock < c.stack.tcpMan.allSockets.length) (intervalMs : Int) :
    Commanded addr τ t k (c.schedule intervalMs task) := by
  unfold CommandedNode.schedule
  split_ifs
  · exact h
  · refine ⟨h.reaches, h.longer, fun p hp => ?_⟩
    obtain hp | hp := List.mem_append.mp hp
    · exact h.socks p hp
    · obtain rfl := List.mem_singleton.mp hp
      exact htask

theorem Commanded.matchTransferCommand {c : CommandedNode} (h : Commanded addr τ t k c)
    (alloc : ℕ → Bool) (command : Str) :
    Commanded addr τ t k (c.matchTransferCommand alloc command).1 := by
  unfold CommandedNode.matchTransferCommand
  split
  · exact h
  · exact h
  · next a _ =>
      have hlength := c.clientSocket_length a
      have hopened := h.setTcp (m := (c.clientSocket a).1)
        (h.reaches.opened a.localPort (.inr ⟨a.destAddr, a.port, rfl⟩)) hlength
      simp only
      split
      · exact hopened
      · refine hopened.schedule ?_ a.interval
        show c.stack.tcpMan.allSockets.length < (c.clientSocket a).1.allSockets.length
        omega

theorem serverSocket_length (c : CommandedNode) (a : ServerArgs) :
    (c.serverSocket a).1.allSockets.length = c.stack.tcpMan.allSockets.length + 1 := by
  unfold CommandedNode.serverSocket TcpManager.socket TcpManager.bind TcpManager.listen
  simp only
  split_ifs
  · simp
  · simp [TcpManager.registerListener]

theorem Commanded.matchServerCommand {c : CommandedNode} (h : Commanded addr τ t k c)
    (command : Str) : Commanded addr τ t k (c.matchServerCommand command).1 := by
  unfold CommandedNode.matchServerCommand
  split
  · exact h
  · exact h
  · next a _ =>
      have hlength := serverSocket_length c a
      have hopened := h.setTcp (m := (c.serverSocket a).1)
        (h.reaches.opened a.port (.inl ⟨a.backlog, rfl⟩)) hlength
      refine hopened.schedule ?_ a.servint
      show c.stack.tcpMan.allSockets.length < (c.serverSocket a).1.allSockets.length
      omega

theorem Commanded.matchPingCommand {c : CommandedNode} (h : Commanded addr τ t k c) (now : Int)
    (command : Str) : Commanded addr τ t k (c.matchPingCommand now command).1 := by
  unfold CommandedNode.matchPingCommand
  split
  · exact h
  · split
    · exact h
    · simp only
      split
      · exact h
      · next dest _ _ pkt _ =>
          have hsame := c.stack.sendPacket_tcpMan dest pkt
          refine ⟨?_, ?_, ?_⟩
          · show Reaches addr τ t (c.stack.sendPacket dest pkt).tcpMan
            rw [hsame]
            exact h.reaches
          · show k ≤ (c.stack.sendPacket dest pkt).tcpMan.allSockets.length
            rw [hsame]
            exact h.longer
          · show ∀ p ∈ c.timers,
              (AppTask.ofCommand p.2).sock < (c.stack.sendPacket dest pkt).tcpMan.allSockets.length
            rw [hsame]
            exact h.socks

/-- What the three matchers keep, `onCommand` keeps. -/
theorem onCommand_induction {I : CommandedNode → Prop} {alloc : ℕ → Bool} {now : Int} {command : Str}
    (htransfer : ∀ c, I c → I (c.matchTransferCommand alloc command).1)
    (hserver : ∀ c, I c → I (c.matchServerCommand command).1)
    (hping : ∀ c, I c → I (c.matchPingCommand now command).1) {c : CommandedNode} (h : I c) :
    I (c.onCommand alloc now command).1 := by
  have hfirst := htransfer c h
  unfold CommandedNode.onCommand
  generalize c.matchTransferCommand alloc command = r₁ at hfirst
  obtain ⟨c₁, accepted⟩ := r₁
  cases accepted with
  | true => exact hfirst
  | false =>
      have hsecond := hserver c₁ hfirst
      simp only
      generalize c₁.matchServerCommand command = r₂ at hsecond
      obtain ⟨c₂, accepted⟩ := r₂
      cases accepted with
      | true => exact hsecond
      | false => exact hping c₂ hsecond

theorem Commanded.onCommand {c : CommandedNode} (h : Commanded addr τ t k c) (alloc : ℕ → Bool)
    (now : Int) (command : Str) : Commanded addr τ t k (c.onCommand alloc now command).1 :=
  onCommand_induction (fun _ h => h.matchTransferCommand alloc command)
    (fun _ h => h.matchServerCommand command) (fun _ h => h.matchPingCommand now command) h

theorem Ok.onCommand (h : Ok addr τ t n) (alloc : ℕ → Bool) (command : Str) :
    Ok addr τ t (n.onCommand alloc t command).node := by
  have hstart : Commanded addr τ t n.stack.tcpMan.allSockets.length ⟨n.stack, []⟩ :=
    ⟨h.reaches, le_rfl, fun p hp => absurd hp List.not_mem_nil⟩
  have hcommanded := hstart.onCommand alloc t command
  refine ⟨hcommanded.reaches, ?_⟩
  intro task htask
  obtain htask | htask := List.mem_append.mp htask
  · exact (h.socks task htask).trans_le hcommanded.longer
  · obtain ⟨p, hp, rfl⟩ := List.mem_map.mp htask
    exact hcommanded.socks p hp

/-- The time of the latest tick after a timer of the node has fired at `t`. -/
def lastTick (τ t : Int) : NodeCallback → Int
  | .retransmissionTick => t
  | _ => τ

theorem Ok.callback (haddr : Packet.validAddress addr = true) (h : Ok addr τ t n) (alloc : ℕ → Bool)
    (cb : NodeCallback) : Ok addr (lastTick τ t cb) t (n.callback alloc t cb).node := by
  cases cb with
  | retransmissionTick => exact h.retransmissionTick haddr
  | pingTimedOut => exact h.pingTimedOut
  | tick i => exact h.tick haddr alloc i

end AppNode

end NetBridge
