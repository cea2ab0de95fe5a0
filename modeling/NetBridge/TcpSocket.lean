import Mathlib.Algebra.Order.Ring.Rat
import NetBridge.Transport

/-! # TCP sockets

The state of a `TcpSocket` (`tcp_socket.hpp`) and those of its methods that touch no other
object.  The methods that send, that change the manager's tables or that follow a pointer to
another socket are in `TcpManager.lean`.

A socket is referred to by its position in the manager's `allSockets_` (`SockId`); the source's
`TcpSocket*` never dangles, since the manager only ever appends to that vector.  A `const
std::uint8_t*` argument is a `Buf`: `none` is the null pointer.  The RTT estimates are exact
rationals. -/

namespace NetBridge

/-- A `TcpSocket*`: the socket's index in the manager's `allSockets_`. -/
abbrev SockId := ℕ

/-- A `const std::uint8_t*` argument with the memory behind it; `none` is `nullptr`. -/
abbrev Buf := Option (List UInt8)

/-- The `n` bytes of memory from position `pos` on. -/
def Buf.slice (buf : Buf) (pos : Int) (n : ℕ) : List UInt8 :=
  (List.range n).map fun i => (buf.getD []).getD (pos.toNat + i) 0

@[simp] theorem Buf.slice_length (buf : Buf) (pos : Int) (n : ℕ) : (buf.slice pos n).length = n := by
  simp [Buf.slice]

theorem Buf.slice_add (buf : Buf) {pos : Int} (hpos : 0 ≤ pos) (m n : ℕ) :
    buf.slice pos (m + n) = buf.slice pos m ++ buf.slice (pos + m) n := by
  have e : ∀ i, (pos + m).toNat + i = pos.toNat + (m + i) := by intro i; omega
  simp only [Buf.slice, List.range_add, List.map_append, List.map_map, Function.comp_def, e]

theorem Buf.slice_some_zero (l : List UInt8) : Buf.slice (some l) 0 l.length = l := by
  apply List.ext_getElem
  · simp
  · intro i h1 h2
    simp [Buf.slice, List.getElem?_eq_getElem h2]

/-- `TcpSocket::State`. -/
inductive TcpState where
  | CLOSED
  | LISTEN
  | SYN_SENT
  | ESTABLISHED
  | SHUTDOWN
deriving DecidableEq, Repr

/-- A segment sent and not yet acknowledged in full. -/
structure OutstandingSeg where
  seqStart : Int := 0
  len : Int := 0
  data : List UInt8 := []
  firstSentAtMs : Int := 0
  retransmitted : Bool := false
deriving DecidableEq

structure TcpSocket where
  timeoutCount : Int
  state : TcpState
  localPort : Int
  remoteAddr : Int
  remotePort : Int
  backlog : Int
  pendingConnQueue : List SockId
  sndUna : Int
  sndNxt : Int
  rcvNxt : Int
  recvBuf : List UInt8
  recvBufUsed : Int
  synSeq : Int
  finSeq : Int
  estRTTms : ℚ
  devRTTms : ℚ
  hasEstRTT : Bool
  peerFinReceived : Bool
  outstanding : List OutstandingSeg
  nextRtoDeadlineMs : Int
  rtoMs : Int
  rwnd : Int
  cwnd : Int
deriving DecidableEq

namespace TcpSocket

def RECV_BUF_CAP : Int := 32 * 1024
def ALPHA : ℚ := 1 / 8
def BETA : ℚ := 1 / 4
def RTO_INITIAL_MS : Int := 1000
def RTO_MIN_MS : Int := 1
def RTO_MAX_MS : Int := 64000
def INITIAL_CWND_BYTES : Int := Transport.MAX_PAYLOAD_SIZE
def CWND_MIN_BYTES : Int := Transport.MAX_PAYLOAD_SIZE

theorem RECV_BUF_CAP_eq : RECV_BUF_CAP = 32768 := rfl

theorem CWND_MIN_BYTES_eq : CWND_MIN_BYTES = 107 := rfl

/-- The constructor: a closed socket with the default member values. -/
def new : TcpSocket where
  timeoutCount := 0
  state := .CLOSED
  localPort := -1
  remoteAddr := -1
  remotePort := -1
  backlog := 0
  pendingConnQueue := []
  sndUna := 0
  sndNxt := 0
  rcvNxt := 0
  recvBuf := []
  recvBufUsed := 0
  synSeq := -1
  finSeq := -1
  estRTTms := 1000
  devRTTms := 0
  hasEstRTT := false
  peerFinReceived := false
  outstanding := []
  nextRtoDeadlineMs := 0
  rtoMs := RTO_INITIAL_MS
  rwnd := RECV_BUF_CAP
  cwnd := INITIAL_CWND_BYTES

section methods
variable (s : TcpSocket)

def isConnectionPending : Bool := s.state == .SYN_SENT
def isClosed : Bool := s.state == .CLOSED
def isConnected : Bool := s.state == .ESTABLISHED
def isClosurePending : Bool := s.state == .SHUTDOWN

/-- `bind` on the socket itself; the call always returns `0`. -/
def bind (localPort : Int) : TcpSocket := { s with localPort := localPort }

/-! ### Receiving -/

def getRecvBufAvailable : Int := RECV_BUF_CAP - s.recvBufUsed

/-- `read` into a buffer (`buf = false` is the null pointer): the socket, the return value and
the bytes stored from `buf[pos]` on. -/
def read (buf : Bool) (pos len : Int) : TcpSocket × Int × List UInt8 :=
  if (s.state ≠ .ESTABLISHED ∧ s.state ≠ .SHUTDOWN) ∨ buf = false ∨ pos < 0 ∨ len < 0 then
    (s, -1, [])
  else if len = 0 ∨ s.recvBufUsed = 0 then
    (if s.peerFinReceived = true ∧ s.recvBufUsed = 0 then { s with state := .CLOSED } else s, 0, [])
  else
    let n := min len s.recvBufUsed
    let s' := { s with
      recvBuf := s.recvBuf.drop n.toNat
      recvBufUsed := s.recvBufUsed - n }
    (if s'.peerFinReceived = true ∧ s'.recvBufUsed = 0 then { s' with state := .CLOSED } else s',
      n, s.recvBuf.take n.toNat)

/-- `appendToRecvBuf`: the socket and the number of bytes taken. -/
def appendToRecvBuf (payload : Buf) (pos len : Int) : TcpSocket × Int :=
  if payload = none ∨ len ≤ 0 then (s, 0)
  else
    let space := RECV_BUF_CAP - s.recvBufUsed
    let n := min len space
    ({ s with
        recvBuf := s.recvBuf ++ payload.slice pos n.toNat
        recvBufUsed := s.recvBufUsed + n }, n)

def setRcvNxt (v : Int) : TcpSocket := { s with rcvNxt := v }

/-! ### Connection lifecycle -/

def initAccepted (localPort remoteAddr remotePort : Int) : TcpSocket :=
  { s with
    localPort := localPort
    remoteAddr := remoteAddr
    remotePort := remotePort
    sndUna := 1
    sndNxt := 1
    rcvNxt := 1
    cwnd := INITIAL_CWND_BYTES
    state := .ESTABLISHED }

/-- `enqueueAccepted`: a full queue drops the child without a word. -/
def enqueueAccepted (child : SockId) : TcpSocket :=
  if (s.pendingConnQueue.length : Int) < s.backlog then
    { s with pendingConnQueue := s.pendingConnQueue ++ [child] }
  else s

def markEstablished : TcpSocket :=
  if s.state ≠ .CLOSED then
    { s with
      sndUna := 1
      sndNxt := 1
      rcvNxt := 1
      cwnd := INITIAL_CWND_BYTES
      peerFinReceived := false
      state := .ESTABLISHED }
  else s

def markClosed : TcpSocket := { s with state := .CLOSED }

def markPeerFinReceived : TcpSocket :=
  { s with
    peerFinReceived := true
    state := if s.state = .ESTABLISHED then .SHUTDOWN else s.state }

/-! ### Sending -/

def effectiveWindow : Int := min s.rwnd s.cwnd

def setRwnd (v : Int) : TcpSocket := { s with rwnd := max 0 v }

def hasOutstanding : Bool := !s.outstanding.isEmpty

def pushOutstanding (seg : OutstandingSeg) : TcpSocket :=
  { s with outstanding := s.outstanding ++ [seg] }

/-- What `additiveIncreaseCwnd` adds. -/
def cwndInc : Int :=
  let base := max s.cwnd CWND_MIN_BYTES
  max 1 (Transport.MAX_PAYLOAD_SIZE * Transport.MAX_PAYLOAD_SIZE / base)

/-- `additiveIncreaseCwnd`.  Nothing bounds `cwnd_`; when the sum is no `int` any more, which C++ does
not define, it wraps around as it does on the machine. -/
def additiveIncreaseCwnd : TcpSocket := { s with cwnd := wrap32 (s.cwnd + s.cwndInc) }

/-- `multiplicativeDecreaseCwnd`: the factor `0.5` and the floor are a division by two. -/
def multiplicativeDecreaseCwnd : TcpSocket := { s with cwnd := max CWND_MIN_BYTES (s.cwnd / 2) }

/-- The loop of `popAckedThrough` over the queue: what is left and the last segment popped. -/
def popLoop (ackNum : Int) :
    List OutstandingSeg → Option OutstandingSeg → List OutstandingSeg × Option OutstandingSeg
  | [], lastPopped => ([], lastPopped)
  | head :: rest, lastPopped =>
      if head.seqStart + head.len ≤ ackNum then popLoop ackNum rest (some head)
      else (head :: rest, lastPopped)

/-- `popAckedThrough` at clock reading `now`. -/
def popAckedThrough (now ackNum : Int) : TcpSocket × Option OutstandingSeg :=
  let (rest, lastPopped) := popLoop ackNum s.outstanding none
  ({ s with
      outstanding := rest
      sndUna := ackNum
      nextRtoDeadlineMs := if rest.isEmpty then 0 else now + s.rtoMs }, lastPopped)

def onSampleRTT (sampleMs : Int) : TcpSocket :=
  if s.hasEstRTT = false then
    { s with estRTTms := sampleMs, devRTTms := sampleMs / 2, hasEstRTT := true }
  else
    { s with
      estRTTms := (1 - ALPHA) * s.estRTTms + ALPHA * sampleMs
      devRTTms := (1 - BETA) * s.devRTTms + BETA * |(sampleMs : ℚ) - s.estRTTms| }

def doubleRto : TcpSocket := { s with rtoMs := min (s.rtoMs * 2) RTO_MAX_MS }

def setNextRtoDeadlineMs (d : Int) : TcpSocket := { s with nextRtoDeadlineMs := d }

end methods

/-- Connected, or waiting for the end of a connection. -/
def Live (s : TcpSocket) : Prop := s.state = .ESTABLISHED ∨ s.state = .SHUTDOWN

instance (s : TcpSocket) : Decidable s.Live := inferInstanceAs (Decidable (_ ∨ _))

theorem Live.ne {s : TcpSocket} (h : s.Live) :
    s.state ≠ .CLOSED ∧ s.state ≠ .LISTEN ∧ s.state ≠ .SYN_SENT := by
  rcases h with h | h <;> rw [h] <;> decide

/-! ### Fields that the updates keep -/

section fields
variable (s : TcpSocket)

@[simp] theorem markEstablished_localPort : s.markEstablished.localPort = s.localPort := by
  unfold markEstablished
  split <;> rfl

@[simp] theorem markEstablished_remoteAddr : s.markEstablished.remoteAddr = s.remoteAddr := by
  unfold markEstablished
  split <;> rfl

@[simp] theorem markEstablished_remotePort : s.markEstablished.remotePort = s.remotePort := by
  unfold markEstablished
  split <;> rfl

@[simp] theorem markEstablished_backlog : s.markEstablished.backlog = s.backlog := by
  unfold markEstablished
  split <;> rfl

@[simp] theorem markEstablished_pendingConnQueue :
    s.markEstablished.pendingConnQueue = s.pendingConnQueue := by
  unfold markEstablished
  split <;> rfl

theorem markEstablished_of_closed (h : s.state = .CLOSED) : s.markEstablished = s :=
  if_neg (not_not.mpr h)

/-- A connection that waits for its SYN-ACK and gets it with window `v`. -/
theorem markEstablished_of_synSent (v : Int) (h : s.state = .SYN_SENT) :
    (s.setRwnd v).markEstablished =
      { s.setRwnd v with
        sndUna := 1
        sndNxt := 1
        rcvNxt := 1
        cwnd := INITIAL_CWND_BYTES
        peerFinReceived := false
        state := .ESTABLISHED } := by
  have hne : (s.setRwnd v).state ≠ .CLOSED := by
    show s.state ≠ .CLOSED
    rw [h]
    decide
  exact if_pos hne

theorem markEstablished_state :
    s.markEstablished.state = if s.state = .CLOSED then .CLOSED else .ESTABLISHED := by
  unfold markEstablished
  by_cases h : s.state = .CLOSED
  · simp [h]
  · simp [h]

@[simp] theorem enqueueAccepted_state (c : SockId) : (s.enqueueAccepted c).state = s.state := by
  unfold enqueueAccepted
  split <;> rfl

@[simp] theorem enqueueAccepted_localPort (c : SockId) :
    (s.enqueueAccepted c).localPort = s.localPort := by
  unfold enqueueAccepted
  split <;> rfl

@[simp] theorem enqueueAccepted_remoteAddr (c : SockId) :
    (s.enqueueAccepted c).remoteAddr = s.remoteAddr := by
  unfold enqueueAccepted
  split <;> rfl

@[simp] theorem enqueueAccepted_remotePort (c : SockId) :
    (s.enqueueAccepted c).remotePort = s.remotePort := by
  unfold enqueueAccepted
  split <;> rfl

@[simp] theorem enqueueAccepted_backlog (c : SockId) :
    (s.enqueueAccepted c).backlog = s.backlog := by
  unfold enqueueAccepted
  split <;> rfl

end fields

end TcpSocket

end NetBridge
