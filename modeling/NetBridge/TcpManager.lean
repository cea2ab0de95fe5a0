import NetBridge.Table
import NetBridge.TcpSocket

/-! # The TCP manager

`TcpManager` (`tcp_manager.hpp`/`tcp_manager.cpp`) and the methods of `TcpSocket` that go through
it.  The state is passed explicitly: the manager owns its sockets (`allSockets`), the three
demultiplexing tables and `sent`, the segments that `manager_->sendPkt` has accepted so far,
oldest first.  A call that reads the clock takes the reading as its argument `now`.

A method `sock->f(...)` of the source is `m.f i ...` here, where `i` is the socket's `SockId`.
An unordered map is iterated in the order of its table; nothing below depends on that order
except the order of `sent`.  The progress marks on `std::cout` and the text given to
`node_->logError` after a failed send are not part of the state. -/

namespace NetBridge

/-- `TcpManager::ConnKey`. -/
structure ConnKey where
  remoteAddr : Int
  remotePort : Int
  localPort : Int
deriving DecidableEq, Repr

/-- A segment handed to the network, with the addresses of its packet. -/
structure Sent where
  src : Int
  dest : Int
  seg : Transport
deriving DecidableEq

structure TcpManager where
  addr : Int
  allSockets : List TcpSocket
  listenersByPort : Table Int SockId
  synPendingByKey : Table ConnKey SockId
  establishedByKey : Table ConnKey SockId
  sent : List Sent
deriving DecidableEq

namespace TcpManager

/-- The constructor. -/
def new (addr : Int) : TcpManager := ⟨addr, [], ∅, ∅, ∅, []⟩

variable (m : TcpManager)

/-- The socket a pointer points to. -/
def sock (i : SockId) : TcpSocket := m.allSockets.getD i TcpSocket.new

def setSock (i : SockId) (s : TcpSocket) : TcpManager :=
  { m with allSockets := m.allSockets.set i s }

/-- `socket()`: a new socket and the pointer to it. -/
def socket : TcpManager × SockId :=
  ({ m with allSockets := m.allSockets ++ [TcpSocket.new] }, m.allSockets.length)

/-! ### Sending -/

/-- The body of the `try` block shared by the send helpers: build the packet around the segment,
hand its bytes to `sendPkt`, and report `false` when any of the three steps throws. -/
def trySend (destAddr : Int) (segment : Except String Transport) : TcpManager × Bool :=
  let attempt : Except String TcpManager := do
    let t ← segment
    let pkt ← Packet.make destAddr m.addr Packet.MAX_TTL Protocol.TRANSPORT_PKT 0 t.pack
    RuntimeManager.sendPkt m.addr destAddr pkt.pack
    return { m with sent := m.sent ++ [⟨m.addr, destAddr, t⟩] }
  match attempt with
  | .ok m' => (m', true)
  | .error _ => (m, false)

def sendSyn (i : SockId) (destAddr destPort : Int) : TcpManager × Bool :=
  m.trySend destAddr
    (Transport.make (m.sock i).localPort destPort SegType.SYN.code 0 (m.sock i).synSeq [])

def sendFin (i : SockId) (destAddr destPort : Int) : TcpManager × Bool :=
  m.trySend destAddr
    (Transport.make (m.sock i).localPort destPort SegType.FIN.code 0 (m.sock i).finSeq [])

def sendData (i : SockId) (destAddr destPort seqNum : Int) (payload : List UInt8) :
    TcpManager × Bool :=
  m.trySend destAddr
    (Transport.make (m.sock i).localPort destPort SegType.DATA.code 0 seqNum payload)

def sendAck (srcPort destAddr destPort ackNum window : Int) : TcpManager × Bool :=
  m.trySend destAddr (Transport.make srcPort destPort SegType.ACK.code window ackNum [])

def sendFinFromPorts (srcPort destAddr destPort : Int) : TcpManager × Bool :=
  m.trySend destAddr (Transport.make srcPort destPort SegType.FIN.code 0 0 [])

/-! ### Registration -/

def registerListener (i : SockId) (localPort : Int) : TcpManager :=
  { m with listenersByPort := m.listenersByPort.insert localPort i }

def registerSynPending (i : SockId) (remoteAddr remotePort : Int) : TcpManager :=
  { m with synPendingByKey :=
      m.synPendingByKey.insert ⟨remoteAddr, remotePort, (m.sock i).localPort⟩ i }

def registerEstablished (i : SockId) (remoteAddr remotePort : Int) : TcpManager :=
  { m with establishedByKey :=
      m.establishedByKey.insert ⟨remoteAddr, remotePort, (m.sock i).localPort⟩ i }

def unregisterSocket (i : SockId) : TcpManager :=
  { m with
    listenersByPort := m.listenersByPort.eraseValue i
    synPendingByKey := m.synPendingByKey.eraseValue i
    establishedByKey := m.establishedByKey.eraseValue i }

/-! ### Application calls -/

def bind (i : SockId) (localPort : Int) : TcpManager := m.setSock i ((m.sock i).bind localPort)

def listen (i : SockId) (backlog : Int) : TcpManager × Int :=
  if (m.sock i).state ≠ .CLOSED then (m, -1)
  else
    ((m.setSock i { m.sock i with state := .LISTEN, backlog := backlog }).registerListener i
      (m.sock i).localPort, 0)

/-- `accept`: the front of the queue, put back to `ESTABLISHED` unless it is closed. -/
def accept (i : SockId) : TcpManager × Option SockId :=
  if (m.sock i).state ≠ .LISTEN then (m, none)
  else
    match (m.sock i).pendingConnQueue with
    | [] => (m, none)
    | conn :: rest =>
        let m := m.setSock i { m.sock i with pendingConnQueue := rest }
        if (m.sock conn).state ≠ .CLOSED then
          (m.setSock conn { m.sock conn with state := .ESTABLISHED }, some conn)
        else (m, some conn)

def connect (i : SockId) (destAddr destPort : Int) : TcpManager × Int :=
  if (m.sock i).localPort < 0 ∨ destPort < 0 ∨ destPort > Transport.MAX_PORT_NUM then (m, -1)
  else
    let m := m.setSock i { m.sock i with
      remoteAddr := destAddr
      remotePort := destPort
      synSeq := (m.sock i).sndNxt }
    match m.sendSyn i destAddr destPort with
    | (m, false) => (m, -1)
    | (m, true) =>
        let m := m.registerSynPending i destAddr destPort
        (m.setSock i { m.sock i with state := .SYN_SENT }, 0)

def release (i : SockId) : TcpManager :=
  if (m.sock i).state = .CLOSED then m
  else
    (m.unregisterSocket i).setSock i { m.sock i with
      pendingConnQueue := []
      backlog := 0
      remoteAddr := -1
      remotePort := -1
      localPort := -1
      state := .CLOSED }

def maybeSendFinOnDrain (i : SockId) : TcpManager :=
  if (m.sock i).state ≠ .SHUTDOWN then m
  else if 0 ≤ (m.sock i).finSeq then m
  else if (m.sock i).hasOutstanding then m
  else
    let m := m.setSock i { m.sock i with finSeq := (m.sock i).sndNxt }
    match m.sendFin i (m.sock i).remoteAddr (m.sock i).remotePort with
    | (m, true) => m
    | (m, false) => m.release i

def close (i : SockId) : TcpManager :=
  match (m.sock i).state with
  | .CLOSED => m
  | .LISTEN | .SYN_SENT => m.setSock i { m.sock i with state := .CLOSED }
  | .ESTABLISHED => (m.setSock i { m.sock i with state := .SHUTDOWN }).maybeSendFinOnDrain i
  | .SHUTDOWN => m

/-- The loop of `write`; `none` is the `return -1` after a failed `sendData`.  Every round sends
at least one byte, so `len` rounds are enough. -/
def writeLoop (now : Int) (i : SockId) (buf : Buf) :
    ℕ → TcpManager → Int → Int → Int → TcpManager × Option Int
  | 0, m, _, _, totalWritten => (m, some totalWritten)
  | rounds + 1, m, pos, len, totalWritten =>
      if 0 < len then
        let s := m.sock i
        let flight := s.sndNxt - s.sndUna
        let eff := s.effectiveWindow
        if eff ≤ flight then (m, some totalWritten)
        else
          let space := eff - flight
          let chunk := min len (min space Transport.MAX_PAYLOAD_SIZE)
          if chunk ≤ 0 then (m, some totalWritten)
          else
            let payload := buf.slice pos chunk.toNat
            match m.sendData i s.remoteAddr s.remotePort s.sndNxt payload with
            | (m, false) => (m, none)
            | (m, true) =>
                let seg : OutstandingSeg := ⟨s.sndNxt, chunk, payload, now, false⟩
                let m := m.setSock i { (m.sock i).pushOutstanding seg with
                  sndNxt := (m.sock i).sndNxt + chunk }
                writeLoop now i buf rounds m (pos + chunk) (len - chunk) (totalWritten + chunk)
      else (m, some totalWritten)

def write (now : Int) (i : SockId) (buf : Buf) (pos len : Int) : TcpManager × Int :=
  if (m.sock i).state ≠ .ESTABLISHED ∨ buf = none ∨ pos < 0 ∨ len < 0 then (m, -1)
  else if len = 0 then (m, 0)
  else
    let wasIdle := !(m.sock i).hasOutstanding
    match writeLoop now i buf len.toNat m pos len 0 with
    | (m, none) => (m, -1)
    | (m, some totalWritten) =>
        if wasIdle = true ∧ 0 < totalWritten then
          (m.setSock i ((m.sock i).setNextRtoDeadlineMs (now + (m.sock i).rtoMs)), totalWritten)
        else (m, totalWritten)

def read (i : SockId) (buf : Bool) (pos len : Int) : TcpManager × Int × List UInt8 :=
  let (s, n, bytes) := (m.sock i).read buf pos len
  (m.setSock i s, n, bytes)

/-! ### Incoming segments -/

def onSyn (srcAddr : Int) (syn : Transport) : TcpManager :=
  match m.listenersByPort.lookup syn.destPort with
  | none => (m.sendFinFromPorts syn.destPort srcAddr syn.srcPort).1
  | some listener =>
      let (m, child) := m.socket
      let m := m.setSock child ((m.sock child).initAccepted syn.destPort srcAddr syn.srcPort)
      let m := m.setSock listener ((m.sock listener).enqueueAccepted child)
      let m := m.registerEstablished child srcAddr syn.srcPort
      (m.sendAck syn.destPort srcAddr syn.srcPort (syn.seqNum + 1)
        (m.sock child).getRecvBufAvailable).1

/-- The branch of `onAck` for a pending connection. -/
def onAckPending (srcAddr : Int) (ack : Transport) (key : ConnKey) (pending : SockId) :
    TcpManager :=
  if ack.seqNum = (m.sock pending).synSeq + 1 then
    let m := m.setSock pending ((m.sock pending).setRwnd ack.window).markEstablished
    let m := { m with synPendingByKey := m.synPendingByKey.erase key }
    m.registerEstablished pending srcAddr ack.srcPort
  else m

/-- The part of `onAck` after the window is stored: advance, sample the RTT, maybe close. -/
def onAckAdvance (now : Int) (ack : Transport) (established : SockId) : TcpManager :=
  let (s, popped) := (m.sock established).popAckedThrough now ack.seqNum
  let s := s.additiveIncreaseCwnd
  let s := match popped with
    | some seg => if seg.retransmitted then s else s.onSampleRTT (now - seg.firstSentAtMs)
    | none => s
  (m.setSock established s).maybeSendFinOnDrain established

/-- The branches of `onAck` for a socket found in `establishedByKey_`. -/
def onAckEstablished (now : Int) (ack : Transport) (key : ConnKey) (established : SockId) :
    TcpManager :=
  let s := m.sock established
  if s.isClosurePending = true ∧ 0 ≤ s.finSeq ∧ ack.seqNum = s.finSeq + 1 then
    { m.setSock established s.markClosed with
      establishedByKey := m.establishedByKey.erase key }
  else if s.isConnected = true ∨ s.isClosurePending = true then
    if s.sndNxt < ack.seqNum then m
    else
      let m := m.setSock established (s.setRwnd ack.window)
      if ack.seqNum ≤ s.sndUna then m
      else m.onAckAdvance now ack established
  else m

def onAck (now srcAddr : Int) (ack : Transport) : TcpManager :=
  let key : ConnKey := ⟨srcAddr, ack.srcPort, ack.destPort⟩
  match m.synPendingByKey.lookup key with
  | some pending => m.onAckPending srcAddr ack key pending
  | none =>
      match m.establishedByKey.lookup key with
      | some established => m.onAckEstablished now ack key established
      | none => m

def onFin (srcAddr : Int) (fin : Transport) : TcpManager :=
  let key : ConnKey := ⟨srcAddr, fin.srcPort, fin.destPort⟩
  match m.establishedByKey.lookup key with
  | some established =>
      let m := m.setSock established (m.sock established).markPeerFinReceived
      (m.sendAck fin.destPort srcAddr fin.srcPort (fin.seqNum + 1)
        (m.sock established).getRecvBufAvailable).1
  | none =>
      match m.synPendingByKey.lookup key with
      | some pending =>
          { m.setSock pending (m.sock pending).markClosed with
            synPendingByKey := m.synPendingByKey.erase key }
      | none => m

/-- The answer of `onData`: the next byte expected and the space left. -/
def ackData (srcAddr : Int) (data : Transport) (established : SockId) : TcpManager :=
  (m.sendAck (m.sock established).localPort srcAddr data.srcPort (m.sock established).rcvNxt
    (m.sock established).getRecvBufAvailable).1

def onData (srcAddr : Int) (data : Transport) : TcpManager :=
  let key : ConnKey := ⟨srcAddr, data.srcPort, data.destPort⟩
  match m.establishedByKey.lookup key with
  | none => m
  | some established =>
      let s := m.sock established
      if s.isConnected = false ∧ s.isClosurePending = false then m
      else
        let segLen : Int := data.payload.length
        if segLen = 0 then m.ackData srcAddr data established
        else if data.seqNum = s.rcvNxt then
          if s.getRecvBufAvailable < segLen then m.ackData srcAddr data established
          else
            let (s, accepted) := s.appendToRecvBuf (some data.payload) 0 segLen
            let m := m.setSock established (s.setRcvNxt (s.rcvNxt + accepted))
            m.ackData srcAddr data established
        else m.ackData srcAddr data established

def receiveTransport (now srcAddr : Int) (transport : Transport) : TcpManager :=
  match transport.type with
  | .SYN => m.onSyn srcAddr transport
  | .ACK => m.onAck now srcAddr transport
  | .FIN => m.onFin srcAddr transport
  | .DATA => m.onData srcAddr transport

/-! ### The retransmission timer -/

/-- One round of the loop of `retransmissionTick`: on a timeout every outstanding segment is sent
again and marked. -/
def retransmitSocket (now : Int) (i : SockId) : TcpManager :=
  let s := m.sock i
  if s.hasOutstanding = false then m
  else if s.nextRtoDeadlineMs = 0 ∨ now < s.nextRtoDeadlineMs then m
  else
    let s := ({ s with timeoutCount := s.timeoutCount + 1 }).doubleRto.multiplicativeDecreaseCwnd
    let m := m.setSock i s
    let m := s.outstanding.foldl
      (fun m seg => (m.sendData i s.remoteAddr s.remotePort seg.seqStart seg.data).1) m
    m.setSock i { s with
      outstanding := s.outstanding.map fun seg => { seg with retransmitted := true }
      nextRtoDeadlineMs := now + s.rtoMs }

/-- `retransmissionTick`, less the timer it adds for its next call. -/
def retransmissionTick (now : Int) : TcpManager :=
  m.establishedByKey.entries.foldl (fun m kv => m.retransmitSocket now kv.2) m

end TcpManager

end NetBridge
