import NetBridge.Isolation
import NetBridge.Retransmission
import NetBridge.Routes
import NetBridge.Sender
import NetBridge.Wire

/-! # The protocol stack of a node

`StackNode` (`stack_node.hpp`/`stack_node.cpp`) decodes what the runtime delivers and hands it to
the ping service or to TCP.  A `Station` is a node whose applications open each socket once; its
segments come from decoded packets only, so their addresses need no assumption.

The main result is that no send of a connection can fail at a station and that the bytes it sends
arrive, with or without the emulator's envelope, as the same call of `receiveTransport` at the
other node. -/

namespace NetBridge

structure PingRequest where
  destAddr : Int
  msg : List UInt8
  timeSentMs : Int
deriving DecidableEq

/-- A node: its pings that wait for a reply, its TCP, and the packets of its ping service that
`manager_->sendPkt` has accepted, with their destinations. -/
structure StackNode where
  addr : Int
  tcpMan : TcpManager
  pings : List PingRequest
  sent : List (Int × List UInt8)

namespace StackNode

/-- The constructor. -/
def new (addr : Int) : StackNode := ⟨addr, TcpManager.new addr, [], []⟩

variable (n : StackNode)

/-- `sendPacket`: an exception is logged and nothing is sent. -/
def sendPacket (destAddr : Int) (packet : Packet) : StackNode :=
  match RuntimeManager.sendPkt n.addr destAddr packet.pack with
  | .ok () => { n with sent := n.sent ++ [(destAddr, packet.pack)] }
  | .error _ => n

def receivePing (packet : Packet) : StackNode :=
  match Packet.make packet.src n.addr Packet.MAX_TTL Protocol.PING_REPLY_PKT 0 packet.payload with
  | .ok reply => n.sendPacket packet.src reply
  | .error _ => n

/-- `receivePingReply`: the oldest ping with this destination and text is answered. -/
def receivePingReply (packet : Packet) : StackNode :=
  { n with pings := n.pings.eraseP fun it =>
      it.destAddr == packet.src && it.msg == packet.payload }

def receiveTransport (now : Int) (packet : Packet) : StackNode :=
  match Transport.unpack packet.payload with
  | none => n
  | some t => { n with tcpMan := n.tcpMan.receiveTransport now packet.src t }

def receivePacket (now : Int) (_from : Int) (packet : Packet) : StackNode :=
  if packet.protocol = Protocol.PING_PKT then n.receivePing packet
  else if packet.protocol = Protocol.PING_REPLY_PKT then n.receivePingReply packet
  else if packet.protocol = Protocol.TRANSPORT_PKT then n.receiveTransport now packet
  else n

/-- `onReceive` at clock reading `now`: what does not decode is dropped. -/
def onReceive (now : Int) (sender : Int) (msg : List UInt8) : StackNode :=
  match Packet.unpack msg with
  | none => n
  | some pkt => n.receivePacket now sender pkt

theorem sendPacket_tcpMan (destAddr : Int) (packet : Packet) :
    (n.sendPacket destAddr packet).tcpMan = n.tcpMan := by
  unfold sendPacket
  split <;> rfl

/-- A datagram reaches TCP as a segment from an address that a packet can carry, or not at all. -/
theorem onReceive_tcpMan (now sender : Int) (msg : List UInt8) :
    (n.onReceive now sender msg).tcpMan = n.tcpMan ∨
      ∃ srcAddr t, Packet.validAddress srcAddr = true ∧
        (n.onReceive now sender msg).tcpMan = n.tcpMan.receiveTransport now srcAddr t := by
  unfold onReceive
  split
  · exact .inl rfl
  · rename_i pkt _
    unfold receivePacket
    split_ifs
    · left
      unfold receivePing
      split
      · exact n.sendPacket_tcpMan _ _
      · rfl
    · exact .inl rfl
    · unfold receiveTransport
      split
      · exact .inl rfl
      · rename_i t _
        have hsrc := (Packet.isValid_iff.mp pkt.valid).2.1
        exact .inr ⟨pkt.src, t, Packet.validAddress_iff.mpr hsrc, rfl⟩
    · exact .inl rfl

end StackNode

/-! ### What a segment meets on its way -/

/-- The segment passes every check between the two TCPs: its packet is built and accepted by
`sendPkt`, it fits the emulator's envelope, and the node that receives the envelope's payload or
the bare bytes calls `receiveTransport` with the sender's address and this segment. -/
def Sent.Survives (p : Sent) : Prop :=
  ∃ pkt e,
    Packet.make p.dest p.src Packet.MAX_TTL Protocol.TRANSPORT_PKT 0 p.seg.pack = .ok pkt ∧
    RuntimeManager.sendPkt p.src p.dest pkt.pack = .ok () ∧
    EmulatorPacket.make p.dest p.src pkt.pack = .ok e ∧
    EmulatorPacket.unpack e.pack = some e ∧
    (e.srcAddr = p.src ∧ e.destAddr = p.dest ∧ e.payload = pkt.pack) ∧
    (InInt32 p.seg.window → InInt32 p.seg.seqNum → ∀ (n : StackNode) (now sender : Int),
      n.onReceive now sender pkt.pack =
        { n with tcpMan := n.tcpMan.receiveTransport now p.src p.seg })

theorem Sent.survives (p : Sent) (hsrc : 0 ≤ p.src ∧ p.src ≤ 255)
    (hdest : 0 ≤ p.dest ∧ p.dest ≤ 255) : p.Survives := by
  have hsize := p.seg.legal.2.2
  have hlen := p.seg.pack_length
  have hv : Packet.isValid p.dest p.src Packet.MAX_TTL Protocol.TRANSPORT_PKT
      (p.seg.pack.length + Packet.HEADER_SIZE) = true := by
    rw [Packet.isValid_iff]
    refine ⟨hdest, hsrc, rfl, by decide, ?_⟩
    rw [Transport.MAX_PAYLOAD_SIZE_eq] at hsize
    rw [hlen]
    simp only [Transport.HEADER_SIZE, Packet.HEADER_SIZE]
    omega
  have hseq : InInt32 0 := by decide
  set pkt : Packet :=
    ⟨p.dest, p.src, Packet.MAX_TTL, Protocol.TRANSPORT_PKT, 0, p.seg.pack, hv⟩ with hpkt
  obtain ⟨e, he, hed, hes, hep⟩ := EmulatorPacket.make_packet p.dest p.src pkt
  have httl : 0 < pkt.ttl := (by decide : 0 < Packet.MAX_TTL)
  have hproto : pkt.protocol = Protocol.TRANSPORT_PKT := rfl
  refine ⟨pkt, e, dif_pos hv, RuntimeManager.sendPkt_pack pkt hseq httl, he, ?_,
    ⟨hes, hed, hep⟩, ?_⟩
  · exact e.unpack_pack (by rw [hed]; exact hdest) (by rw [hes]; exact hsrc)
  · intro hwindow hnum n now sender
    unfold StackNode.onReceive
    rw [pkt.unpack_pack hseq]
    show n.receivePacket now sender pkt = _
    unfold StackNode.receivePacket
    rw [hproto, if_neg (by decide), if_neg (by decide), if_pos rfl]
    unfold StackNode.receiveTransport
    rw [show Transport.unpack pkt.payload = some p.seg from p.seg.unpack_pack hwindow hnum]

/-! ### Stations -/

/-- What happens at a node: a call of its applications or a tick, or a datagram. -/
inductive NodeEvent where
  | call (op : Op)
  | arrive (now sender : Int) (msg : List UInt8)

/-- The clock reading of an operation that takes one. -/
def Op.reading : Op → Option Int
  | .write now .. | .receive now .. | .tick now => some now
  | _ => none

def NodeEvent.reading : NodeEvent → Option Int
  | .call op => op.reading
  | .arrive now .. => some now

/-- The operation is an incoming segment. -/
def Op.incoming : Op → Bool
  | .receive .. => true
  | _ => false

/-- A node and the phases that its applications have reached with the sockets. -/
structure Station where
  node : StackNode
  phase : SockId → Phase

namespace Station

def new (addr : Int) : Station := ⟨.new addr, fun _ => .opened⟩

variable (st : Station)

/-- The station's TCP. -/
def host : Host := ⟨st.node.tcpMan, st.phase⟩

def step : NodeEvent → Station
  | .call op => ⟨{ st.node with tcpMan := st.node.tcpMan.step op }, st.host.nextPhase op⟩
  | .arrive now sender msg => ⟨st.node.onReceive now sender msg, st.phase⟩

/-- The applications keep the discipline, and segments come from the network only. -/
def Allowed : NodeEvent → Prop
  | .call op => st.host.Allowed op ∧ op.incoming = false
  | .arrive .. => True

instance : ∀ e, Decidable (st.Allowed e)
  | .call op => inferInstanceAs (Decidable (st.host.Allowed op ∧ op.incoming = false))
  | .arrive .. => inferInstanceAs (Decidable True)

/-- An event is one operation of the host at the same clock reading, on a segment from the network,
or leaves it alone. -/
theorem step_host {st : Station} {e : NodeEvent} (he : st.Allowed e) :
    (st.step e).host = st.host ∨
      ∃ op, st.host.Allowed op ∧ Host.FromNetwork op ∧ op.reading = e.reading ∧
        (st.step e).host = st.host.step op := by
  cases e with
  | call op =>
      refine .inr ⟨op, he.1, ?_, rfl, rfl⟩
      cases op with
      | receive => exact Bool.noConfusion he.2
      | socket | bind | listen | accept | connect | close | release | write | read | tick =>
          trivial
  | arrive now sender msg =>
      obtain h | ⟨srcAddr, t, hsrc, h⟩ := st.node.onReceive_tcpMan now sender msg
      · left
        simp only [host, step, h]
      · refine .inr ⟨.receive now srcAddr t, trivial, hsrc, rfl, ?_⟩
        simp only [host, step, h, Host.step, Host.nextPhase]
        rw [TcpManager.step_receive]

/-- What the host of a station keeps. -/
structure Ok (addr : Int) (h : Host) : Prop where
  sound : h.Sound
  sender : ∀ i, SenderOk (h.man.sock i)
  routed : h.man.Routed
  addr : h.man.addr = addr

theorem Ok.step {addr : Int} (haddr : Packet.validAddress addr = true) {h : Host} (ho : Ok addr h)
    {op : Op} (hop : h.Allowed op) (hnet : Host.FromNetwork op) : Ok addr (h.step op) := by
  refine ⟨ho.sound.step hop, Host.senderOk_step ho.sound ho.sender hop, ?_, ?_⟩
  · exact Host.routed_step ho.sound ho.routed (by rw [ho.addr]; exact haddr) hop hnet
  · rw [Host.step_addr ho.sound]
    exact ho.addr

theorem Ok.new (addr : Int) : Ok addr (Station.new addr).host := by
  refine ⟨.new addr, ?_, .new addr, rfl⟩
  intro i
  rw [show (Station.new addr).host.man.sock i = TcpSocket.new from
    TcpManager.sock_of_length_le _ (Nat.zero_le i)]
  exact .new

/-- Every run of a station keeps its connections in order. -/
theorem ok_run {addr : Int} (haddr : Packet.validAddress addr = true) {es : List NodeEvent}
    (hes : Guarded Station.step Station.Allowed (Station.new addr) es) :
    Ok addr (run Station.step (Station.new addr) es).host := by
  refine guarded_induction (I := fun st => Ok addr st.host) ?_ (.new addr) hes
  intro st e ho he
  obtain h | ⟨op, hop, hnet, _, h⟩ := step_host he
  · rw [h]
    exact ho
  · rw [h]
    exact ho.step haddr hop hnet

end Station

/-! ### No send fails -/

namespace TcpManager

variable (m : TcpManager)

/-- The socket is open or registered as a connection. -/
def OnLine (i : SockId) : Prop :=
  (m.sock i).Open ∨ (∃ k, m.synPendingByKey.lookup k = some i) ∨
    ∃ k, m.establishedByKey.lookup k = some i

/-- No send of a connection fails, and what is sent survives.  A send happens somewhere inside a
call, so its state `m'` is any one with the address of `m` and the local port of the socket. -/
structure Unfailing : Prop where
  sendData : ∀ {i}, m.OnLine i → ∀ m' : TcpManager, m'.addr = m.addr →
    (m'.sock i).localPort = (m.sock i).localPort → ∀ (seqNum : Int) (payload : List UInt8),
      (payload.length : Int) ≤ Transport.MAX_PAYLOAD_SIZE → ∃ p : Sent,
        p.Is m.addr (m.sock i).remoteAddr (m.sock i).localPort (m.sock i).remotePort .DATA 0
          seqNum payload ∧
        m'.sendData i (m.sock i).remoteAddr (m.sock i).remotePort seqNum payload =
          (m'.emit [p], true) ∧ p.Survives
  sendFin : ∀ {i}, m.OnLine i → ∀ m' : TcpManager, m'.addr = m.addr →
    (m'.sock i).localPort = (m.sock i).localPort → ∃ p : Sent,
      p.Is m.addr (m.sock i).remoteAddr (m.sock i).localPort (m.sock i).remotePort .FIN 0
        (m'.sock i).finSeq [] ∧
      m'.sendFin i (m.sock i).remoteAddr (m.sock i).remotePort = (m'.emit [p], true) ∧ p.Survives
  sendAck : ∀ {srcAddr : Int} (t : Transport), Packet.validAddress srcAddr = true →
    ∀ m' : TcpManager, m'.addr = m.addr → ∀ ackNum window : Int, ∃ p : Sent,
      p.Is m.addr srcAddr t.destPort t.srcPort .ACK window ackNum [] ∧
      m'.sendAck t.destPort srcAddr t.srcPort ackNum window = (m'.emit [p], true) ∧ p.Survives
  sendFinFromPorts : ∀ {srcAddr : Int} (t : Transport), Packet.validAddress srcAddr = true →
    ∀ m' : TcpManager, m'.addr = m.addr → ∃ p : Sent,
      p.Is m.addr srcAddr t.destPort t.srcPort .FIN 0 0 [] ∧
      m'.sendFinFromPorts t.destPort srcAddr t.srcPort = (m'.emit [p], true) ∧ p.Survives
  /-- DATA is acknowledged from the port it was sent to. -/
  ackData : ∀ {srcAddr t i}, m.establishedByKey.lookup (segKey srcAddr t) = some i →
    (m.sock i).localPort = t.destPort
  /-- What a tick sends again is a payload of a segment. -/
  outstanding : ∀ i, ∀ seg ∈ (m.sock i).outstanding,
    (seg.data.length : Int) ≤ Transport.MAX_PAYLOAD_SIZE
  /-- The loop of `write` does not return `-1`. -/
  write : ∀ (now : Int) {i : SockId} (buf : Buf) {pos : Int} (len : Int),
    (m.sock i).state = .ESTABLISHED → i < m.allSockets.length → buf ≠ none → 0 ≤ pos → 0 ≤ len →
      0 ≤ (m.write now i buf pos len).2
  /-- `maybeSendFinOnDrain` does not release the socket. -/
  maybeSendFin : ∀ {i}, m.OnLine i → ∀ m' : TcpManager, m'.addr = m.addr →
    (m'.sock i).key = (m.sock i).key → i < m'.allSockets.length →
      ((m'.maybeSendFinOnDrain i).sock i).state = (m'.sock i).state

end TcpManager

namespace Station

variable {addr : Int} {h : Host}

theorem Ok.onLine (ho : Ok addr h) {i : SockId} (hi : h.man.OnLine i) :
    (h.man.sock i).key.Routes h.man.addr := by
  obtain hi | ⟨k, hk⟩ | ⟨k, hk⟩ := hi
  · exact ho.routed.opened i hi
  · rw [((ho.sound.fits i).pending k hk).1]
    exact ho.routed.pending hk
  · rw [((ho.sound.fits i).established k hk).1]
    exact ho.routed.established hk

theorem send_survives {m : TcpManager} {destAddr srcPort destPort : Int}
    (hs : Sendable m.addr destAddr srcPort destPort) (type : SegType) (window seqNum : Int)
    {payload : List UInt8} (hp : (payload.length : Int) ≤ Transport.MAX_PAYLOAD_SIZE) :
    ∃ p : Sent, p.Is m.addr destAddr srcPort destPort type window seqNum payload ∧
      m.trySend destAddr (Transport.make srcPort destPort type.code window seqNum payload) =
        (m.emit [p], true) ∧ p.Survives := by
  rw [Transport.MAX_PAYLOAD_SIZE_eq] at hp
  obtain ⟨p, his, hsend⟩ := m.trySend_ok hs type window seqNum payload (by omega)
  refine ⟨p, his, hsend, p.survives ?_ ?_⟩
  · rw [his.src]
    exact hs.addr
  · rw [his.dest]
    exact hs.dest

theorem Ok.unfailing (haddr : Packet.validAddress addr = true) (ho : Ok addr h) :
    h.man.Unfailing := by
  have hempty : (([] : List UInt8).length : Int) ≤ Transport.MAX_PAYLOAD_SIZE := by decide
  have haddr' : Packet.validAddress h.man.addr = true := by
    rw [ho.addr]
    exact haddr
  refine ⟨?_, ?_, ?_, ?_, ?_, ?_, ?_, ?_⟩
  · intro i hi m' ha hport seqNum payload hp
    have hs := ho.onLine hi
    rw [← ha] at hs ⊢
    rw [TcpManager.sendData, hport]
    exact send_survives hs .DATA 0 seqNum hp
  · intro i hi m' ha hport
    have hs := ho.onLine hi
    rw [← ha] at hs ⊢
    rw [TcpManager.sendFin, hport]
    exact send_survives hs .FIN 0 _ hempty
  · intro srcAddr t hsrc m' ha ackNum window
    have hs := TcpManager.Routed.segKey_routes haddr' hsrc t
    rw [← ha] at hs ⊢
    exact send_survives hs .ACK window ackNum hempty
  · intro srcAddr t hsrc m' ha
    have hs := TcpManager.Routed.segKey_routes haddr' hsrc t
    rw [← ha] at hs ⊢
    exact send_survives hs .FIN 0 0 hempty
  · intro srcAddr t i hk
    exact congrArg ConnKey.localPort ((ho.sound.fits i).established _ hk).1
  · intro i seg hseg
    obtain ⟨_, hlen, hmax⟩ := (ho.sender i).segment seg hseg
    rw [← hlen]
    exact hmax
  · intro now i buf pos len hst hi hbuf hpos hlen
    obtain ⟨out, _, e⟩ := h.man.write_ok now hi hst hbuf hpos hlen
      (ho.routed.opened i (.inr (.inl hst)))
    rw [e]
    exact Int.natCast_nonneg _
  · intro i hi m' ha hkey hlen
    have hs := ho.onLine hi
    rw [← ha, ← hkey] at hs
    obtain ⟨_, e⟩ | ⟨_, _, _, ⟨p, _, e⟩ | ⟨hns, _⟩⟩ := m'.maybeSendFin_effect hlen
    · rw [e]
    · rw [e, TcpManager.emit_sock, TcpManager.sock_setSock_self _ hlen]
      rfl
    · exact absurd hs hns

/-! ### What has been sent -/

/-- The segment left the node `addr` for an address that a packet can carry. -/
def Left (addr : Int) (p : Sent) : Prop := p.src = addr ∧ 0 ≤ p.dest ∧ p.dest ≤ 255

theorem Left.survives (haddr : 0 ≤ addr ∧ addr ≤ 255) {p : Sent} (h : Left addr p) : p.Survives := by
  refine p.survives ?_ h.2
  rw [h.1]
  exact haddr

theorem left_of_is (ho : Ok addr h) {p : Sent} {destAddr srcPort destPort : Int} {type : SegType}
    {window seqNum : Int} {payload : List UInt8}
    (hs : Sendable h.man.addr destAddr srcPort destPort)
    (hp : p.Is h.man.addr destAddr srcPort destPort type window seqNum payload) : Left addr p := by
  refine ⟨hp.src.trans ho.addr, ?_⟩
  rw [hp.dest]
  exact hs.dest

theorem Ok.maybeSendFin_left (ho : Ok addr h) {i : SockId} (hi : i < h.man.allSockets.length)
    (hopen : (h.man.sock i).Open) {s : TcpSocket} (hs : s.key = (h.man.sock i).key) :
    ∀ p ∈ ((h.man.setSock i s).maybeSendFinOnDrain i).sent, p ∈ h.man.sent ∨ Left addr p := by
  have hself := h.man.sock_setSock_self hi s
  have hlen : i < (h.man.setSock i s).allSockets.length := by simpa using hi
  have hroute := ho.routed.opened i hopen
  rw [← hs] at hroute
  obtain ⟨_, e⟩ | ⟨_, _, _, ⟨q, hq, e⟩ | ⟨_, e⟩⟩ := (h.man.setSock i s).maybeSendFin_effect hlen
  · rw [e]
    exact fun p hp => .inl hp
  · rw [e]
    intro p hp
    obtain hp | hp := List.mem_append.mp hp
    · exact .inl hp
    · obtain rfl := List.mem_singleton.mp hp
      rw [hself] at hq
      exact .inr (left_of_is ho hroute hq)
  · rw [e]
    exact fun p hp => .inl hp

theorem Ok.sent_exec (ho : Ok addr h) {op : Op} (hv : h.man.Valid op) (hop : h.Allowed op)
    (hnet : Host.FromNetwork op) :
    ∀ p ∈ (h.man.exec op).sent, p ∈ h.man.sent ∨ Left addr p := by
  cases op with
  | socket => exact fun p hp => .inl hp
  | bind i localPort => exact fun p hp => .inl hp
  | listen i backlog =>
      intro p hp
      simp only [TcpManager.exec, TcpManager.listen] at hp
      split_ifs at hp <;> exact .inl hp
  | accept i =>
      intro p hp
      simp only [TcpManager.exec] at hp
      obtain e | ⟨conn, rest, _, _, ⟨_, e⟩ | ⟨_, e⟩⟩ := h.man.accept_effect i
      all_goals
        rw [e] at hp
        exact .inl hp
  | connect i destAddr destPort =>
      intro p hp
      have hi := hv i rfl
      simp only [TcpManager.exec] at hp
      by_cases hguard : TcpManager.Rejected (h.man.sock i) destPort
      · rw [h.man.connect_rejected destAddr hguard] at hp
        exact .inl hp
      · by_cases hs : Sendable h.man.addr destAddr (h.man.sock i).localPort destPort
        · obtain ⟨q, hq, e⟩ := h.man.connect_ok hi hguard hs
          rw [e] at hp
          obtain hp | hp := List.mem_append.mp hp
          · exact .inl hp
          · obtain rfl := List.mem_singleton.mp hp
            exact .inr (left_of_is ho hs hq)
        · rw [h.man.connect_fails hi hguard hs] at hp
          exact .inl hp
  | close i =>
      simp only [TcpManager.exec, TcpManager.close]
      cases hst : (h.man.sock i).state with
      | ESTABLISHED => exact ho.maybeSendFin_left (hv i rfl) (.inr (.inl hst)) rfl
      | CLOSED | LISTEN | SYN_SENT | SHUTDOWN => exact fun p hp => .inl hp
  | release i =>
      intro p hp
      simp only [TcpManager.exec, TcpManager.release] at hp
      split_ifs at hp <;> exact .inl hp
  | write now i buf pos len =>
      intro p hp
      simp only [TcpManager.exec] at hp
      obtain e | ⟨hst, _, n, out, hout, e⟩ := h.man.write_effect now buf pos len (hv i rfl)
      · rw [e] at hp
        exact .inl hp
      · rw [e] at hp
        obtain hp | hp := List.mem_append.mp hp
        · exact .inl hp
        · obtain ⟨seg, _, hq⟩ := exists_mem_of_forall₂ hout hp
          exact .inr (left_of_is ho (ho.routed.opened i (.inr (.inl hst))) hq)
  | read i buf pos len => exact fun p hp => .inl hp
  | receive now srcAddr t =>
      intro p hp
      obtain ⟨out, e, hout⟩ := (ho.sound.onlyUnder now srcAddr t).sent
      rw [show (h.man.exec (.receive now srcAddr t)).sent =
        (h.man.receiveTransport now srcAddr t).sent from rfl, e] at hp
      obtain hp | hp := List.mem_append.mp hp
      · exact .inl hp
      · right
        refine ⟨(hout p hp).src.trans ho.addr, ?_⟩
        rw [(hout p hp).dest]
        exact Packet.validAddress_iff.mp hnet
  | tick now =>
      intro p hp
      obtain ⟨out, e, hout⟩ := h.man.tick_sends now
      rw [show (h.man.exec (.tick now)).sent = (h.man.retransmissionTick now).sent from rfl, e] at hp
      obtain hp | hp := List.mem_append.mp hp
      · exact .inl hp
      · obtain ⟨k, i, hk, seg, _, hq⟩ := hout p hp
        exact .inr (left_of_is ho (ho.onLine (.inr (.inr ⟨k, hk⟩))) hq)

theorem sent_run {addr : Int} (haddr : Packet.validAddress addr = true) {es : List NodeEvent}
    (hes : Guarded Station.step Station.Allowed (Station.new addr) es) :
    ∀ p ∈ (run Station.step (Station.new addr) es).host.man.sent, Left addr p := by
  have h : Ok addr (run Station.step (Station.new addr) es).host ∧
      ∀ p ∈ (run Station.step (Station.new addr) es).host.man.sent, Left addr p := by
    refine guarded_induction (I := fun st => Ok addr st.host ∧ ∀ p ∈ st.host.man.sent, Left addr p)
      ?_ ⟨.new addr, ?_⟩ hes
    rotate_left
    · intro p hp
      cases hp
    rintro st e ⟨ho, hsent⟩ he
    obtain h | ⟨op, hop, hnet, _, h⟩ := step_host he
    · rw [h]
      exact ⟨ho, hsent⟩
    · rw [h]
      refine ⟨ho.step haddr hop hnet, ?_⟩
      show ∀ p ∈ (st.host.man.step op).sent, Left addr p
      refine st.host.man.step_induction (I := fun m => ∀ p ∈ m.sent, Left addr p) hsent fun hv => ?_
      intro p hp
      obtain hp | hp := ho.sent_exec hv hop hnet p hp
      · exact hsent p hp
      · exact hp
  exact h.2

/-- **Every segment survives the stack.**  At every station with an address below the broadcast
address, no send of a connection fails, and every segment sent so far arrives as it was sent. -/
theorem segments_survive (addr : Int) (haddr : 0 ≤ addr ∧ addr ≤ 254) (es : List NodeEvent)
    (hes : Guarded Station.step Station.Allowed (Station.new addr) es) :
    let m := (run Station.step (Station.new addr) es).node.tcpMan
    m.Unfailing ∧ ∀ p ∈ m.sent, p.src = addr ∧ p.Survives := by
  have hvalid : Packet.validAddress addr = true := Packet.validAddress_iff.mpr ⟨haddr.1, by omega⟩
  have ho := ok_run hvalid hes
  refine ⟨ho.unfailing hvalid, ?_⟩
  intro p hp
  have hleft := sent_run hvalid hes p hp
  exact ⟨hleft.1, hleft.survives ⟨haddr.1, by omega⟩⟩

/-- The packet with the SYN-ACK of node 2's port 80 for port 5 of node 1. -/
def synAckDatagram : List UInt8 :=
  [1, 2, 15, 4, 21, 0, 0, 0, 0, 80, 5, 1, 0, 0, 3, 232, 0, 0, 0, 1, 12]

/-- A client connects and writes three bytes. -/
def threeBytesAtNode : List NodeEvent :=
  [.call .socket, .call (.bind 0 5), .call (.connect 0 2 80), .arrive 0 2 synAckDatagram,
    .call (.write 10 0 (some [7, 8, 9]) 0 3)]

theorem segments_survive_three_bytes :
    let m := (run Station.step (Station.new 1) threeBytesAtNode).node.tcpMan
    (m.sock 0).state = .ESTABLISHED ∧ (m.sent.map fun p => p.seg.payload) = [[], [7, 8, 9]] ∧
      ∀ p ∈ m.sent, p.src = 1 ∧ p.Survives :=
  ⟨by decide, by decide, (segments_survive 1 (by decide) threeBytesAtNode (by decide)).2⟩

end Station

end NetBridge
