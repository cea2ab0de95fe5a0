import NetBridge.Connection
import NetBridge.Sender

/-! # One end of the connection

`End` is what matters of one side of the system for the connection, and `Act` lists what an
operation can do to it, together with the segments it sends.  What holds of both ends together is
proved by cases on `Act`; `Refinement.lean` shows that every operation of a side is one of these
acts in the states the system can reach, which `SideOk` describes. -/

namespace NetBridge

open TcpManager (written timedOut stored advanced finQueued windowRoom)

namespace Config

variable (cfg : Config) (w : Party)

/-- The key of the connection at one side. -/
def key : ConnKey := ⟨cfg.addr w.other, cfg.port w.other, cfg.port w⟩

/-- A segment from one side to the other. -/
def Sends (p : Sent) (type : SegType) (window seqNum : Int) (payload : List UInt8) : Prop :=
  p.Is (cfg.addr w) (cfg.addr w.other) (cfg.port w) (cfg.port w.other) type window seqNum payload

/-- The addresses of a segment from one side to the other. -/
structure From (p : Sent) : Prop where
  src : p.src = cfg.addr w
  dest : p.dest = cfg.addr w.other
  srcPort : p.seg.srcPort = cfg.port w
  destPort : p.seg.destPort = cfg.port w.other

variable {cfg w}

theorem Sends.from {p : Sent} {type : SegType} {window seqNum : Int} {payload : List UInt8}
    (h : cfg.Sends w p type window seqNum payload) : cfg.From w p :=
  ⟨h.src, h.dest, h.srcPort, h.destPort⟩

variable (cfg w)

theorem sendable : Sendable (cfg.addr w) (cfg.addr w.other) (cfg.port w) (cfg.port w.other) :=
  ⟨cfg.addr_range w, cfg.addr_range w.other, cfg.port_range w, cfg.port_range w.other⟩

end Config

/-- One end of the connection: its socket, whether the tables of the manager hold it as pending or
as established, whether the application holds it, and the history of its calls. -/
structure End where
  sock : TcpSocket
  pending : Bool
  registered : Bool
  held : Bool
  written : List UInt8
  readOut : List UInt8

/-- The end of the connection that a side holds. -/
def Side.view (cfg : Config) (w : Party) (d : Side) : End where
  sock := d.man.sock w.conn
  pending := (d.man.synPendingByKey.lookup (cfg.key w)).isSome
  registered := (d.man.establishedByKey.lookup (cfg.key w)).isSome
  held := decide (w.conn ∈ d.handles)
  written := d.written
  readOut := d.readOut

/-- The bytes that have reached an end: read by the application or waiting in its buffer. -/
def End.received (x : End) : List UInt8 := x.readOut ++ x.sock.recvBuf

/-! ### What happens to an end -/

/-- The effects of an operation on one end, with the segments it sends. -/
inductive Act (cfg : Config) (w : Party) (x : End) : Op → End → List Sent → Prop
  | idle {op : Op} : Act cfg w x op x []
  | write {now : Int} {i : SockId} {buf : Buf} {pos len : Int} {out : List Sent}
      (hheld : x.held = true) (hst : x.sock.state = .ESTABLISHED) (hpos : 0 ≤ pos)
      (hout : List.Forall₂ (fun p seg => cfg.Sends w p .DATA 0 seg.seqStart seg.data) out
        (chunks now buf x.sock.sndNxt pos (windowRoom x.sock len))) :
      Act cfg w x (.write now i buf pos len)
        { x with
          sock := written x.sock now buf pos (windowRoom x.sock len)
          written := x.written ++ buf.slice pos (windowRoom x.sock len) } out
  | read {i : SockId} {buf : Bool} {pos len : Int} (hi : i = w.conn) (hheld : x.held = true)
      (hst : x.sock.Live) (hlen : 0 < len) (hused : x.sock.recvBufUsed ≠ 0) :
      Act cfg w x (.read i buf pos len)
        { x with
          sock := x.sock.taken (min len x.sock.recvBufUsed)
          readOut := x.readOut ++ x.sock.recvBuf.take (min len x.sock.recvBufUsed).toNat } []
  | readEnd {i : SockId} {buf : Bool} {pos len : Int} (hi : i = w.conn) (hheld : x.held = true)
      (hends : x.sock.EndsStream buf pos len) (hany : x.sock.recvBufUsed = 0 ∨ 0 < len) :
      Act cfg w x (.read i buf pos len)
        { x with
          sock := (x.sock.taken x.sock.recvBufUsed).markClosed
          readOut := x.readOut ++ x.sock.recvBuf.take x.sock.recvBufUsed.toNat } []
  | accept {i : SockId} (hw : w = .server) (hheld : x.held = false) (hst : x.sock.Live) :
      Act cfg w x (.accept i)
        { x with sock := { x.sock with state := .ESTABLISHED }, held := true } []
  | acceptClosed {i : SockId} (hw : w = .server) (hheld : x.held = false)
      (hst : x.sock.state = .CLOSED) : Act cfg w x (.accept i) { x with held := true } []
  | closePending {i : SockId} (hi : i = w.conn) (hst : x.sock.state = .SYN_SENT) :
      Act cfg w x (.close i) { x with sock := x.sock.markClosed } []
  | shutdown {i : SockId} (hi : i = w.conn) (hheld : x.held = true)
      (hst : x.sock.state = .ESTABLISHED) (hwait : 0 ≤ x.sock.finSeq ∨ x.sock.outstanding ≠ []) :
      Act cfg w x (.close i) { x with sock := { x.sock with state := .SHUTDOWN } } []
  | shutdownFin {i : SockId} {p : Sent} (hi : i = w.conn) (hheld : x.held = true)
      (hst : x.sock.state = .ESTABLISHED) (hempty : x.sock.outstanding = [])
      (hp : cfg.Sends w p .FIN 0 x.sock.sndNxt []) :
      Act cfg w x (.close i)
        { x with sock := finQueued { x.sock with state := .SHUTDOWN } } [p]
  | timeout {now : Int} {out : List Sent}
      (hout : ∀ p ∈ out, ∃ seg ∈ x.sock.outstanding,
        cfg.Sends w p .DATA 0 seg.seqStart seg.data) :
      Act cfg w x (.tick now) { x with sock := timedOut x.sock now } out
  | window {now srcAddr : Int} {ack : Transport} (hty : ack.type = .ACK) (hst : x.sock.Live)
      (hle : ack.seqNum ≤ x.sock.sndNxt) (hold : ack.seqNum ≤ x.sock.sndUna) :
      Act cfg w x (.receive now srcAddr ack) { x with sock := x.sock.setRwnd ack.window } []
  | advance {now srcAddr : Int} {ack : Transport} (hty : ack.type = .ACK) (hst : x.sock.Live)
      (hlt : x.sock.sndUna < ack.seqNum) (hle : ack.seqNum ≤ x.sock.sndNxt) :
      Act cfg w x (.receive now srcAddr ack)
        { x with sock := advanced (x.sock.setRwnd ack.window) now ack.seqNum } []
  | advanceFin {now srcAddr : Int} {ack : Transport} {p : Sent} (hty : ack.type = .ACK)
      (hst : x.sock.state = .SHUTDOWN) (hlt : x.sock.sndUna < ack.seqNum)
      (hle : ack.seqNum ≤ x.sock.sndNxt)
      (hempty : (advanced (x.sock.setRwnd ack.window) now ack.seqNum).outstanding = [])
      (hp : cfg.Sends w p .FIN 0 x.sock.sndNxt []) :
      Act cfg w x (.receive now srcAddr ack)
        { x with sock := finQueued (advanced (x.sock.setRwnd ack.window) now ack.seqNum) } [p]
  | finAcked {now srcAddr : Int} {ack : Transport} (hty : ack.type = .ACK)
      (hst : x.sock.state = .SHUTDOWN) (hfin : 0 ≤ x.sock.finSeq)
      (hack : ack.seqNum = x.sock.finSeq + 1) :
      Act cfg w x (.receive now srcAddr ack)
        { x with sock := x.sock.markClosed, registered := false } []
  | establish {now srcAddr : Int} {ack : Transport} (hty : ack.type = .ACK)
      (hpend : x.pending = true) (hst : x.sock.state = .SYN_SENT)
      (hack : ack.seqNum = x.sock.synSeq + 1) :
      Act cfg w x (.receive now srcAddr ack)
        { x with
          sock := (x.sock.setRwnd ack.window).markEstablished
          pending := false
          registered := true } []
  | establishClosed {now srcAddr : Int} {ack : Transport} (hty : ack.type = .ACK)
      (hpend : x.pending = true) (hst : x.sock.state = .CLOSED)
      (hack : ack.seqNum = x.sock.synSeq + 1) :
      Act cfg w x (.receive now srcAddr ack)
        { x with sock := x.sock.setRwnd ack.window, pending := false, registered := true } []
  | refused {now srcAddr : Int} {fin : Transport} (hty : fin.type = .FIN)
      (hpend : x.pending = true) :
      Act cfg w x (.receive now srcAddr fin)
        { x with sock := x.sock.markClosed, pending := false } []
  | answer {now srcAddr : Int} {data : Transport} {out : List Sent} (hty : data.type = .DATA)
      (hst : x.sock.Live)
      (hout : ∀ p ∈ out, cfg.Sends w p .ACK x.sock.getRecvBufAvailable x.sock.rcvNxt []) :
      Act cfg w x (.receive now srcAddr data) x out
  | store {now srcAddr : Int} {data : Transport} {out : List Sent} (hty : data.type = .DATA)
      (hst : x.sock.Live) (hseq : data.seqNum = x.sock.rcvNxt) (hne : data.payload ≠ [])
      (hroom : (data.payload.length : Int) ≤ x.sock.getRecvBufAvailable)
      (hout : ∀ p ∈ out, cfg.Sends w p .ACK (stored x.sock data.payload).getRecvBufAvailable
        (stored x.sock data.payload).rcvNxt []) :
      Act cfg w x (.receive now srcAddr data) { x with sock := stored x.sock data.payload } out
  | peerFin {now srcAddr : Int} {fin : Transport} {out : List Sent} (hty : fin.type = .FIN)
      (hreg : x.registered = true)
      (hout : ∀ p ∈ out,
        cfg.Sends w p .ACK x.sock.getRecvBufAvailable (fin.seqNum + 1) []) :
      Act cfg w x (.receive now srcAddr fin) { x with sock := x.sock.markPeerFinReceived } out
  | born {now srcAddr : Int} {syn : Transport} {out : List Sent} (hty : syn.type = .SYN)
      (hw : w = .server) (hs : x.sock = TcpSocket.new) (hheld : x.held = false)
      (hout : ∀ p ∈ out, cfg.Sends w p .ACK TcpSocket.RECV_BUF_CAP (syn.seqNum + 1) []) :
      Act cfg w x (.receive now srcAddr syn)
        { x with
          sock := TcpSocket.new.initAccepted (cfg.port w) (cfg.addr w.other) (cfg.port w.other)
          registered := true } out

/-! ### The reachable states of one side -/

namespace TcpManager

/-- What every operation other than the opening ones keeps. -/
structure Steady (m : TcpManager) : Prop where
  bounded : m.Bounded
  fits : ∀ j, m.Fits j (m.sock j)
  senders : ∀ j, SenderOk (m.sock j)

theorem Steady.step {m : TcpManager} (h : m.Steady) {op : Op} (hbind : ∀ i p, op ≠ .bind i p)
    (hop : ¬ Opens op) : (m.step op).Steady := by
  refine ⟨h.bounded.step op, ?_, ?_⟩
  · refine m.step_induction (I := fun m => ∀ j, m.Fits j (m.sock j)) h.fits fun hv => ?_
    obtain ⟨m₁, hm, hq⟩ := m.exec_move h.bounded hv
    have hf := fits_move h.bounded hv h.fits (fun i p e => absurd e (hbind i p))
      (fun _ ho _ => absurd ho hop) hm
    exact fun j => (Fewer.quiet hq).fits ((hf j).congr (hq.sock j).state (hq.sock j).key)
  · exact m.step_sockets .new .initAccepted (fun _ _ hu hP => hP.update hu) h.bounded
      (fun k i hk => ((h.fits i).pending k hk).2) (fun _ ho _ => absurd ho hop) h.senders

/-- The tables and sockets of one side. -/
structure Shape (cfg : Config) (w : Party) (handles : List SockId) (m : TcpManager) : Prop where
  addr : m.addr = cfg.addr w
  listeners : ∀ p i, m.listenersByPort.lookup p = some i → w = .server ∧ i = 0
  listening : w = .server → m.listenersByPort.lookup (cfg.port .server) = some 0
  pending : ∀ k i, m.synPendingByKey.lookup k = some i → w = .client ∧ i = 0 ∧ k = cfg.key w
  established : ∀ k i, m.establishedByKey.lookup k = some i → i = w.conn ∧ k = cfg.key w
  others : ∀ j, j ≠ w.conn → (m.sock j).state = .LISTEN ∨ (m.sock j).state = .CLOSED
  notListening : (m.sock w.conn).state ≠ .LISTEN
  key : (m.sock w.conn).state ≠ .CLOSED → (m.sock w.conn).key = cfg.key w
  queue : ∀ j, (m.sock j).pendingConnQueue = [] ∨
    w = .server ∧ j = 0 ∧ (m.sock j).pendingConnQueue = [1] ∧ 1 ∉ handles
  held : ∀ i ∈ handles, i < m.allSockets.length
  length : m.allSockets.length = 1 ∨ w = .server ∧ m.allSockets.length = 2

namespace Shape

variable {cfg : Config} {w : Party} {handles : List SockId} {m : TcpManager}

theorem emit (h : m.Shape cfg w handles) (out : List Sent) : (m.emit out).Shape cfg w handles :=
  ⟨h.addr, h.listeners, h.listening, h.pending, h.established, h.others, h.notListening, h.key,
    h.queue, h.held, h.length⟩

theorem tables (h : m.Shape cfg w handles) {pending established : Table ConnKey SockId}
    (hp : ∀ k i, pending.lookup k = some i → w = .client ∧ i = 0 ∧ k = cfg.key w)
    (he : ∀ k i, established.lookup k = some i → i = w.conn ∧ k = cfg.key w) :
    ({ m with synPendingByKey := pending, establishedByKey := established } :
      TcpManager).Shape cfg w handles :=
  ⟨h.addr, h.listeners, h.listening, hp, he, h.others, h.notListening, h.key, h.queue, h.held,
    h.length⟩

theorem setConn (h : m.Shape cfg w handles) {s : TcpSocket} (hst : s.state ≠ .LISTEN)
    (hkey : s.state ≠ .CLOSED → s.key = cfg.key w)
    (hq : s.pendingConnQueue = (m.sock w.conn).pendingConnQueue) :
    (m.setSock w.conn s).Shape cfg w handles := by
  refine ⟨h.addr, h.listeners, h.listening, h.pending, h.established, ?_, ?_, ?_, ?_, ?_, ?_⟩
  · intro j hj
    rw [m.sock_setSock_ne hj]
    exact h.others j hj
  · obtain e | ⟨_, e⟩ := m.sock_setSock_cases w.conn s w.conn
    · rw [e]
      exact h.notListening
    · rw [e]
      exact hst
  · obtain e | ⟨_, e⟩ := m.sock_setSock_cases w.conn s w.conn
    · rw [e]
      exact h.key
    · rw [e]
      exact hkey
  · intro j
    obtain e | ⟨rfl, e⟩ := m.sock_setSock_cases w.conn s j
    · rw [e]
      exact h.queue j
    · rw [e, hq]
      exact h.queue w.conn
  · simpa using h.held
  · simpa using h.length

theorem setOther (h : m.Shape cfg w handles) {j : SockId} (hj : j ≠ w.conn) {s : TcpSocket}
    (hst : s.state = .LISTEN ∨ s.state = .CLOSED)
    (hq : s.pendingConnQueue = (m.sock j).pendingConnQueue) :
    (m.setSock j s).Shape cfg w handles := by
  have hconn : (m.setSock j s).sock w.conn = m.sock w.conn := m.sock_setSock_ne (Ne.symm hj) s
  refine ⟨h.addr, h.listeners, h.listening, h.pending, h.established, ?_, ?_, ?_, ?_, ?_, ?_⟩
  · intro k hk
    obtain e | ⟨_, e⟩ := m.sock_setSock_cases j s k
    · rw [e]
      exact h.others k hk
    · rw [e]
      exact hst
  · rw [hconn]
    exact h.notListening
  · rw [hconn]
    exact h.key
  · intro k
    obtain e | ⟨rfl, e⟩ := m.sock_setSock_cases j s k
    · rw [e]
      exact h.queue k
    · rw [e, hq]
      exact h.queue k
  · simpa using h.held
  · simpa using h.length

theorem dequeue (h : m.Shape cfg .server handles) (hlt : 1 < m.allSockets.length) :
    (m.setSock 0 { m.sock 0 with pendingConnQueue := [] }).Shape cfg .server (handles ++ [1]) := by
  have hconn : (m.setSock 0 { m.sock 0 with pendingConnQueue := [] }).sock 1 = m.sock 1 :=
    m.sock_setSock_ne (by decide) _
  refine ⟨h.addr, h.listeners, h.listening, h.pending, h.established, ?_, ?_, ?_, ?_, ?_, ?_⟩
  · intro k hk
    obtain e | ⟨rfl, e⟩ := m.sock_setSock_cases 0 { m.sock 0 with pendingConnQueue := [] } k
    · rw [e]
      exact h.others k hk
    · rw [e]
      exact h.others 0 hk
  · show ((m.setSock 0 _).sock 1).state ≠ .LISTEN
    rw [hconn]
    exact h.notListening
  · show ((m.setSock 0 _).sock 1).state ≠ .CLOSED → ((m.setSock 0 _).sock 1).key = _
    rw [hconn]
    exact h.key
  · intro k
    left
    obtain e | ⟨rfl, e⟩ := m.sock_setSock_cases 0 { m.sock 0 with pendingConnQueue := [] } k
    · rw [e]
      obtain e' | ⟨_, rfl, _⟩ := h.queue k
      · exact e'
      · rw [m.sock_setSock_self (Nat.lt_trans Nat.zero_lt_one hlt)] at e
        exact (congrArg TcpSocket.pendingConnQueue e).symm
    · rw [e]
  · intro i hi
    rw [TcpManager.setSock_length]
    obtain hi | hi := List.mem_append.mp hi
    · exact h.held i hi
    · rw [List.mem_singleton.mp hi]
      exact hlt
  · simpa using h.length

theorem sends (h : m.Shape cfg w handles) (hkey : (m.sock w.conn).key = cfg.key w) {p : Sent}
    {type : SegType} {window seqNum : Int} {payload : List UInt8}
    (hp : p.Is m.addr (m.sock w.conn).remoteAddr (m.sock w.conn).localPort
      (m.sock w.conn).remotePort type window seqNum payload) :
    cfg.Sends w p type window seqNum payload := by
  rw [TcpSocket.key, Config.key, ConnKey.mk.injEq] at hkey
  rw [h.addr, hkey.1, hkey.2.1, hkey.2.2] at hp
  exact hp

theorem sendable (h : m.Shape cfg w handles) (hst : (m.sock w.conn).state ≠ .CLOSED) :
    Sendable m.addr (m.sock w.conn).remoteAddr (m.sock w.conn).localPort
      (m.sock w.conn).remotePort := by
  have hkey := h.key hst
  rw [TcpSocket.key, Config.key, ConnKey.mk.injEq] at hkey
  rw [h.addr, hkey.1, hkey.2.1, hkey.2.2]
  exact cfg.sendable w

end Shape

end TcpManager

/-- The reachable states of one side. -/
structure SideOk (cfg : Config) (w : Party) (d : Side) : Prop where
  steady : d.man.Steady
  shape : d.man.Shape cfg w d.handles

end NetBridge
