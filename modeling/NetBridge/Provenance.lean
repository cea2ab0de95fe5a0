import NetBridge.Simulation

/-! # Where packets come from

The stack of a node knows what it has sent (`posted`): whatever happens at a node, the packets that
leave it are added to this record, and nothing is taken out (`Honest`).  The network hands a packet on
at most once to each node that it was sent to (`performAll_deliveries`).  So in every state of a
simulation a packet has been handed from one node to another, or is on its way between them, no more
often than it was sent, and the TCP of a node is given no segment that the TCP of another one has not
sent: see `Simulation.packets_genuine`. -/

namespace NetBridge

open scoped List

/-! ### What has been sent stays sent -/

namespace TcpManager

variable (m : TcpManager) {m₁ : TcpManager}

theorem trySend_sent (destAddr : Int) (segment : Except String Transport) (h : m₁.sent = m.sent) :
    m.sent <+: (m₁.trySend destAddr segment).1.sent := by
  rw [trySend_fst, ← h]
  exact List.prefix_append _ _

theorem sent_of_trySend {destAddr : Int} {segment : Except String Transport} {m' : TcpManager}
    {ok : Bool} (hsend : m₁.trySend destAddr segment = (m', ok)) (h : m₁.sent = m.sent) :
    m.sent <+: m'.sent := by
  have hsent := m.trySend_sent destAddr segment h
  rwa [hsend] at hsent

theorem connect_sent (i : SockId) (destAddr destPort : Int) :
    m.sent <+: (m.connect i destAddr destPort).1.sent := by
  unfold connect sendSyn
  split_ifs
  · exact List.prefix_rfl
  · simp only
    split
    · next hsend => exact m.sent_of_trySend hsend rfl
    · next hsend =>
        have hsent := m.sent_of_trySend hsend rfl
        exact hsent

theorem release_sent (i : SockId) : (m.release i).sent = m.sent := by
  unfold release
  split_ifs <;> rfl

theorem maybeSendFinOnDrain_sent (i : SockId) (h : m₁.sent = m.sent) :
    m.sent <+: (m₁.maybeSendFinOnDrain i).sent := by
  have hsame : m.sent <+: m₁.sent := by rw [h]
  unfold maybeSendFinOnDrain sendFin
  split_ifs
  · exact hsame
  · exact hsame
  · exact hsame
  · simp only
    split
    · next hsend => exact m.sent_of_trySend hsend h
    · next hsend =>
        rw [release_sent]
        exact m.sent_of_trySend hsend h

theorem close_sent (i : SockId) : m.sent <+: (m.close i).sent := by
  unfold close
  split
  · exact List.prefix_rfl
  · exact List.prefix_rfl
  · exact List.prefix_rfl
  · exact m.maybeSendFinOnDrain_sent i rfl
  · exact List.prefix_rfl

theorem writeLoop_sent (now : Int) (i : SockId) (buf : Buf) (rounds : ℕ) (pos len total : Int) :
    m.sent <+: (writeLoop now i buf rounds m pos len total).1.sent := by
  induction rounds generalizing m pos len total with
  | zero => exact List.prefix_rfl
  | succ rounds ih =>
      unfold writeLoop sendData
      split_ifs
      · simp only
        split_ifs
        · exact List.prefix_rfl
        · exact List.prefix_rfl
        · split
          · next hsend => exact m.sent_of_trySend hsend rfl
          · next hsend =>
              have hsent := m.sent_of_trySend hsend rfl
              exact hsent.trans (ih (setSock _ _ _) _ _ _)
      · exact List.prefix_rfl

theorem write_sent (now : Int) (i : SockId) (buf : Buf) (pos len : Int) :
    m.sent <+: (m.write now i buf pos len).1.sent := by
  have hloop := m.writeLoop_sent now i buf len.toNat pos len 0
  unfold write
  split_ifs
  · exact List.prefix_rfl
  · exact List.prefix_rfl
  · simp only
    generalize writeLoop now i buf len.toNat m pos len 0 = r at hloop
    obtain ⟨m', _ | total⟩ := r
    · exact hloop
    · simp only
      split_ifs <;> exact hloop

theorem receiveTransport_sent (now srcAddr : Int) (t : Transport) :
    m.sent <+: (m.receiveTransport now srcAddr t).sent := by
  unfold receiveTransport
  split
  · unfold onSyn sendFinFromPorts sendAck
    split
    · exact m.trySend_sent _ _ rfl
    · exact m.trySend_sent _ _ rfl
  · unfold onAck
    simp only
    split
    · unfold onAckPending
      split_ifs <;> exact List.prefix_rfl
    · split
      · unfold onAckEstablished onAckAdvance
        simp only
        split_ifs
        · exact List.prefix_rfl
        · exact List.prefix_rfl
        · exact List.prefix_rfl
        · exact m.maybeSendFinOnDrain_sent _ rfl
        · exact List.prefix_rfl
      · exact List.prefix_rfl
  · unfold onFin sendAck
    simp only
    split
    · exact m.trySend_sent _ _ rfl
    · split <;> exact List.prefix_rfl
  · unfold onData ackData sendAck
    simp only
    split
    · exact List.prefix_rfl
    · split_ifs
      · exact List.prefix_rfl
      · exact m.trySend_sent _ _ rfl
      · exact m.trySend_sent _ _ rfl
      · exact m.trySend_sent _ _ rfl
      · exact m.trySend_sent _ _ rfl

theorem foldl_sent {α : Type} {f : TcpManager → α → TcpManager}
    (hf : ∀ m x, m.sent <+: (f m x).sent) (xs : List α) : m.sent <+: (xs.foldl f m).sent := by
  induction xs generalizing m with
  | nil => exact List.prefix_rfl
  | cons x xs ih => exact (hf m x).trans (ih _)

theorem retransmissionTick_sent (now : Int) : m.sent <+: (m.retransmissionTick now).sent := by
  refine m.foldl_sent ?_ _
  intro m kv
  unfold retransmitSocket
  simp only
  split_ifs
  · exact List.prefix_rfl
  · exact List.prefix_rfl
  · exact foldl_sent (m.setSock kv.2 _) (fun m _ => m.trySend_sent _ _ rfl) _

/-- Whatever is called, the record of what has been sent is only added to. -/
theorem exec_sent (op : Op) : m.sent <+: (m.exec op).sent := by
  cases op with
  | socket | bind | read => exact List.prefix_rfl
  | listen i backlog =>
      simp only [exec, listen]
      split_ifs <;> exact List.prefix_rfl
  | accept i =>
      simp only [exec, accept]
      split_ifs
      · exact List.prefix_rfl
      · split
        · exact List.prefix_rfl
        · split_ifs <;> exact List.prefix_rfl
  | connect i destAddr destPort => exact m.connect_sent i destAddr destPort
  | close i => exact m.close_sent i
  | release i => exact ⟨[], by simp only [exec, release_sent, List.append_nil]⟩
  | write now i buf pos len => exact m.write_sent now i buf pos len
  | receive now srcAddr t => exact m.receiveTransport_sent now srcAddr t
  | tick now => exact m.retransmissionTick_sent now

end TcpManager

/-! ### What leaves a node -/

/-- The segment that a packet brings to the TCP of the node that receives it, with the address that it
is said to come from. -/
def arrival (pkt : List UInt8) : Option (Int × Transport) :=
  (Packet.unpack pkt).bind fun p =>
    if p.protocol = Protocol.TRANSPORT_PKT then (Transport.unpack p.payload).map (p.src, ·)
    else none

/-- A packet for `dest`: one that is sent to it, or to all. -/
def NodeCall.offered (dest : Int) : NodeCall → Option (List UInt8)
  | .sendPkt d pkt => if d = dest ∨ d = Packet.BROADCAST_ADDRESS then some pkt else none
  | .addTimer .. => none

theorem Packet.of_make {dest src ttl protocol seq : Int} {payload : List UInt8} {p : Packet}
    (h : Packet.make dest src ttl protocol seq payload = .ok p) :
    p.src = src ∧ p.protocol = protocol ∧ p.seq = seq ∧ p.payload = payload := by
  unfold Packet.make at h
  split_ifs at h
  obtain rfl := Except.ok.inj h
  exact ⟨rfl, rfl, rfl, rfl⟩

namespace StackNode

/-- The packets for `dest` that the node has sent. -/
def posted (n : StackNode) (dest : Int) : List (List UInt8) :=
  ((StackNode.new n.addr).outgoing n).filterMap (NodeCall.offered dest)

/-- The segments for `dest` that the TCP of the node has sent, as they are read at the other end. -/
def segments (n : StackNode) (dest : Int) : List (Int × Transport) :=
  n.tcpMan.sent.filterMap fun p =>
    if p.dest = dest ∨ p.dest = Packet.BROADCAST_ADDRESS then
      (Transport.unpack p.seg.pack).map (n.addr, ·)
    else none

/-- What a node gives to its TCP. -/
theorem onReceive_arrival (n : StackNode) (now sender : Int) (msg : List UInt8) :
    (n.onReceive now sender msg).tcpMan =
      (arrival msg).elim n.tcpMan fun a => n.tcpMan.receiveTransport now a.1 a.2 := by
  unfold onReceive arrival
  cases Packet.unpack msg with
  | none => rfl
  | some p =>
      simp only [Option.bind_some]
      unfold receivePacket
      by_cases htransport : p.protocol = Protocol.TRANSPORT_PKT
      · rw [htransport, if_neg (by decide), if_neg (by decide), if_pos rfl, if_pos rfl]
        unfold receiveTransport
        cases Transport.unpack p.payload <;> rfl
      · rw [if_neg htransport, if_neg htransport]
        split_ifs
        · unfold receivePing
          split
          · exact n.sendPacket_tcpMan _ _
          · rfl
        · rfl
        · rfl

/-- The node sends more, and its pings are no segments. -/
structure Extends (n n' : StackNode) : Prop where
  addr : n'.addr = n.addr
  tcp : n.tcpMan.sent <+: n'.tcpMan.sent
  pings : ∃ out, n'.sent = n.sent ++ out ∧ ∀ e ∈ out, arrival e.2 = none

namespace Extends

variable {n n' : StackNode}

theorem refl (n : StackNode) : n.Extends n :=
  ⟨rfl, List.prefix_rfl, [], (List.append_nil _).symm, fun _ h => absurd h List.not_mem_nil⟩

theorem trans {n'' : StackNode} (h : n.Extends n') (h' : n'.Extends n'') : n.Extends n'' := by
  obtain ⟨out, hout, hpings⟩ := h.pings
  obtain ⟨out', hout', hpings'⟩ := h'.pings
  refine ⟨h'.addr.trans h.addr, h.tcp.trans h'.tcp, out ++ out', ?_, ?_⟩
  · rw [hout', hout, List.append_assoc]
  · intro e he
    obtain he | he := List.mem_append.mp he
    · exact hpings e he
    · exact hpings' e he

theorem setTcp (n : StackNode) {m : TcpManager} (h : n.tcpMan.sent <+: m.sent) :
    n.Extends { n with tcpMan := m } :=
  ⟨rfl, h, (refl n).pings⟩

theorem setPings (n : StackNode) (pings : List PingRequest) : n.Extends { n with pings } :=
  ⟨rfl, List.prefix_rfl, (refl n).pings⟩

theorem sendPacket (n : StackNode) (destAddr : Int) {packet : Packet}
    (hprotocol : packet.protocol ≠ Protocol.TRANSPORT_PKT) (hseq : packet.seq = 0) :
    n.Extends (n.sendPacket destAddr packet) := by
  unfold StackNode.sendPacket
  split
  · refine ⟨rfl, List.prefix_rfl, _, rfl, ?_⟩
    intro e he
    obtain rfl := List.mem_singleton.mp he
    have hunpack := packet.unpack_pack (by rw [hseq]; decide)
    show arrival packet.pack = none
    rw [arrival, hunpack, Option.bind_some, if_neg hprotocol]
  · exact refl n

theorem onReceive (n : StackNode) (now sender : Int) (msg : List UInt8) :
    n.Extends (n.onReceive now sender msg) := by
  unfold StackNode.onReceive
  split
  · exact refl n
  · unfold StackNode.receivePacket
    split_ifs
    · unfold receivePing
      split
      · next reply hreply =>
          obtain ⟨-, hprotocol, hseq, -⟩ := Packet.of_make hreply
          exact sendPacket n _ (by rw [hprotocol]; decide) hseq
      · exact refl n
    · exact setPings n _
    · unfold StackNode.receiveTransport
      split
      · exact refl n
      · exact setTcp n (n.tcpMan.receiveTransport_sent _ _ _)
    · exact refl n

/-- A command makes a socket and sends a SYN, or makes a socket, or sends a ping. -/
theorem onCommand (n : StackNode) (alloc : ℕ → Bool) (now : Int) (command : Str) :
    n.Extends ((⟨n, []⟩ : CommandedNode).onCommand alloc now command).1.stack := by
  refine AppNode.onCommand_induction (I := fun c => n.Extends c.stack) ?_ ?_ ?_ (refl n)
  · intro c h
    unfold CommandedNode.matchTransferCommand
    have hclient : ∀ a, c.stack.tcpMan.sent <+: (c.clientSocket a).1.sent := fun a =>
      (c.stack.tcpMan.socket.1.bind _ a.localPort).connect_sent _ a.destAddr a.port
    split
    · exact h
    · exact h
    · next a _ =>
        simp only
        split
        · exact h.trans (setTcp c.stack (hclient a))
        · unfold CommandedNode.schedule
          split_ifs <;> exact h.trans (setTcp c.stack (hclient a))
  · intro c h
    unfold CommandedNode.matchServerCommand
    have hserver : ∀ a, c.stack.tcpMan.sent <+: (c.serverSocket a).1.sent := fun a =>
      (c.stack.tcpMan.socket.1.bind _ a.port).exec_sent (.listen _ a.backlog)
    split
    · exact h
    · exact h
    · next a _ =>
        simp only
        unfold CommandedNode.schedule
        split_ifs <;> exact h.trans (setTcp c.stack (hserver a))
  · intro c h
    unfold CommandedNode.matchPingCommand
    split
    · exact h
    · split
      · exact h
      · simp only
        split
        · exact h
        · next dest _ _ pkt hpkt =>
            obtain ⟨-, hprotocol, hseq, -⟩ := Packet.of_make hpkt
            have hsent := sendPacket c.stack dest (by rw [hprotocol]; decide) hseq
            exact (h.trans hsent).trans (setPings _ _)

theorem posted (h : n.Extends n') (dest : Int) :
    n'.posted dest ~ n.posted dest ++ (n.outgoing n').filterMap (NodeCall.offered dest) := by
  obtain ⟨segs, hsegs⟩ := h.tcp
  obtain ⟨out, hout, -⟩ := h.pings
  unfold StackNode.posted outgoing
  rw [← hsegs, hout, List.drop_left, List.drop_left]
  simp only [StackNode.new, TcpManager.new, List.length_nil, List.drop_zero, List.map_append,
    List.filterMap_append, List.append_assoc]
  refine List.Perm.append_left _ ?_
  rw [← List.append_assoc, ← List.append_assoc]
  exact List.perm_append_comm.append_right _

end Extends

end StackNode

/-- The node sends what it says. -/
structure NodeReaction.Honest (n : AppNode) (r : NodeReaction) : Prop where
  sends : n.stack.Extends r.node.stack
  calls : ∀ dest, r.calls.filterMap (NodeCall.offered dest) =
    (n.stack.outgoing r.node.stack).filterMap (NodeCall.offered dest)

namespace AppNode

variable (n : AppNode)

theorem honest_idle (outcome : Outcome) : NodeReaction.Honest n ⟨n, [], outcome⟩ := by
  refine ⟨.refl _, ?_⟩
  intro dest
  simp only [StackNode.outgoing, List.drop_length]
  rfl

theorem honest_becomes {stack : StackNode} (h : n.stack.Extends stack) (tasks : List AppTask)
    {timers : List NodeCall} (htimers : ∀ c ∈ timers, ∀ dest, c.offered dest = none) :
    (n.becomes stack tasks timers).Honest n := by
  refine ⟨h, ?_⟩
  intro dest
  have hnone : timers.filterMap (NodeCall.offered dest) = [] :=
    List.filterMap_eq_nil_iff.mpr fun c hc => htimers c hc dest
  show (n.stack.outgoing stack ++ timers).filterMap _ = _
  rw [List.filterMap_append, hnone, List.append_nil]
  rfl

theorem schedule_offered (i : ℕ) (intervalMs : Int) :
    ∀ c ∈ schedule i intervalMs, ∀ dest, c.offered dest = none := by
  intro c hc
  unfold schedule at hc
  split_ifs at hc
  · cases hc
  · obtain rfl := List.mem_singleton.mp hc
    exact fun _ => rfl

theorem honest_onReceive (now sender : Int) (msg : List UInt8) :
    (n.onReceive now sender msg).Honest n :=
  n.honest_becomes (.onReceive n.stack now sender msg) _ fun _ h => absurd h List.not_mem_nil

theorem honest_onCommand (alloc : ℕ → Bool) (now : Int) (command : Str) :
    (n.onCommand alloc now command).Honest n := by
  refine n.honest_becomes (.onCommand n.stack alloc now command) _ ?_
  intro c hc
  obtain ⟨j, p, rfl⟩ := List.mem_mapIdx.mp hc
  exact fun _ => rfl

theorem callSocket_sent (now : Int) (sock : SockId) (calls : List SocketCall) :
    n.stack.tcpMan.sent <+: (n.callSocket now sock calls).sent :=
  TcpManager.foldl_sent _ (fun m c => m.exec_sent (c.op now sock)) calls

theorem honest_tick (alloc : ℕ → Bool) (now : Int) (i : ℕ) : (n.tick alloc now i).Honest n := by
  unfold tick
  split
  · exact n.honest_idle _
  · unfold tickClient
    simp only
    split
    · exact n.honest_idle _
    · exact n.honest_becomes (.setTcp _ (n.callSocket_sent ..)) _ (schedule_offered _ _)
  · unfold tickWorker
    simp only
    split
    · exact n.honest_idle _
    · exact n.honest_becomes (.setTcp _ (n.callSocket_sent ..)) _ (schedule_offered _ _)
  · next sock s _ =>
      have haccept : n.stack.tcpMan.sent <+: (if (n.stack.tcpMan.sock sock).isClosed then
          (n.stack.tcpMan, none) else n.stack.tcpMan.accept sock).1.sent := by
        split_ifs
        · exact List.prefix_rfl
        · exact n.stack.tcpMan.exec_sent (.accept sock)
      unfold tickServer
      simp only
      generalize (if (n.stack.tcpMan.sock sock).isClosed then (n.stack.tcpMan, none) else
        n.stack.tcpMan.accept sock) = r at haccept
      obtain ⟨m, conn⟩ := r
      simp only
      split
      · have hthrew : (n.becomes (n.setTcp m) n.tasks []).Honest n :=
          n.honest_becomes (.setTcp _ haccept) _ fun _ h => absurd h List.not_mem_nil
        exact ⟨hthrew.sends, hthrew.calls⟩
      · refine n.honest_becomes (.setTcp _ haccept) _ ?_
        intro c hc
        obtain hc | hc := List.mem_append.mp hc
        · obtain ⟨j, task, rfl⟩ := List.mem_mapIdx.mp hc
          exact fun _ => rfl
        · exact schedule_offered _ _ c hc

theorem honest_callback (alloc : ℕ → Bool) (now : Int) (cb : NodeCallback) :
    (n.callback alloc now cb).Honest n := by
  cases cb with
  | retransmissionTick =>
      refine n.honest_becomes (.setTcp _ (n.stack.tcpMan.retransmissionTick_sent now)) _ ?_
      intro c hc
      obtain rfl := List.mem_singleton.mp hc
      exact fun _ => rfl
  | pingTimedOut =>
      refine n.honest_becomes (.setPings _ _) _ ?_
      intro c hc
      obtain rfl := List.mem_singleton.mp hc
      exact fun _ => rfl
  | tick i => exact n.honest_tick alloc now i

end AppNode

/-! ### What the network hands on -/

/-- A packet from `src` for `dest`. -/
def NetCall.offered {δ κ : Type} (src dest : Int) : NetCall δ κ → Option (List UInt8)
  | .sendPkt s d pkt _ =>
      if s = src ∧ (d = dest ∨ d = Packet.BROADCAST_ADDRESS) then some pkt else none
  | _ => none

theorem Request.packet_of_event_map {κ : Type} (r : Request κ) {now : Int}
    {ev : ScheduledEvent (Callback κ)} (h : (r.map Callback.other).event now = some ev)
    {src dest : Int} : ev.packet src dest = none := by
  cases r with
  | addTimerAt tMs cb | addTimer deltaMs cb =>
      simp only [Request.map, Request.event, Option.map_map] at h
      obtain ⟨cb, -, rfl⟩ := Option.map_eq_some_iff.mp h
      rfl
  | addEventAtMicros timeMicros cb =>
      simp only [Request.map, Request.event, Option.map_map] at h
      split_ifs at h
      obtain ⟨cb, -, rfl⟩ := Option.map_eq_some_iff.mp h
      rfl

namespace Net

variable {δ ω κ : Type}

/-- The packets that requests will hand from `src` to `dest`. -/
def deliveries (now src dest : Int) (requests : List (Request (Callback κ))) : List (List UInt8) :=
  (requests.filterMap (Request.event now)).filterMap (ScheduledEvent.packet src dest)

theorem deliveries_append (now src dest : Int) (rs rs' : List (Request (Callback κ))) :
    deliveries now src dest (rs ++ rs') =
      deliveries now src dest rs ++ deliveries now src dest rs' := by
  simp [deliveries]

variable [Zero δ] (now nowMicros src dest : Int)

theorem transmit_deliveries (src' dest' : Int) (pkt : List UInt8) (draw : Bool) (n : Net δ ω) :
    deliveries now src dest (n.transmit (κ := κ) nowMicros src' dest' pkt draw).2.1 <+
      if src' = src ∧ dest' = dest then [pkt] else [] := by
  have hrequest : ∀ time, deliveries (κ := κ) now src dest
      [.addEventAtMicros time (some (.deliverPkt src' dest' pkt))] <+
        if src' = src ∧ dest' = dest then [pkt] else [] := by
    intro time
    simp only [deliveries, List.filterMap_cons, List.filterMap_nil, Request.event]
    split_ifs with htime hpair hpair
    · exact List.nil_sublist _
    · exact List.Sublist.refl _
    · simp only [Option.map_some, List.filterMap_cons, ScheduledEvent.packet, if_pos hpair,
        List.filterMap_nil, List.Sublist.refl]
    · simp only [Option.map_some, List.filterMap_cons, ScheduledEvent.packet, if_neg hpair,
        List.filterMap_nil, List.Sublist.refl]
  unfold transmit
  split
  · exact List.nil_sublist _
  · split
    · exact List.nil_sublist _
    · next outcome e _ =>
        simp only
        by_cases hvalue : outcome.value = -1
        · rw [if_pos hvalue]
          exact List.nil_sublist _
        · rw [if_neg hvalue]
          exact hrequest _

/-- Every node gets a packet that is sent to all at most once. -/
theorem broadcast_deliveries (src' : Int) (pkt : List UInt8) (draw : Int → Bool) {is : List Int}
    (his : is.Nodup) (n : Net δ ω) :
    deliveries now src dest (n.broadcast (κ := κ) nowMicros src' pkt draw is).2.1 <+
      if src' = src ∧ dest ∈ is then [pkt] else [] := by
  induction is generalizing n with
  | nil => exact List.nil_sublist _
  | cons i is ih =>
      obtain ⟨hi, his⟩ := List.nodup_cons.mp his
      have hfirst := n.transmit_deliveries (κ := κ) now nowMicros src dest src' i pkt (draw i)
      have hone : (if src' = src ∧ i = dest then [pkt] else []) ++
          (if src' = src ∧ dest ∈ is then [pkt] else []) =
            if src' = src ∧ dest ∈ i :: is then [pkt] else [] := by
        by_cases hdest : i = dest
        · subst hdest
          simp [hi]
        · simp [hdest, Ne.symm hdest]
      rw [← hone]
      unfold broadcast
      split
      · next n₁ requests err heq =>
          rw [heq] at hfirst
          exact hfirst.trans (List.sublist_append_left _ _)
      · next n₁ requests ok heq =>
          rw [heq] at hfirst
          simp only [deliveries_append]
          exact hfirst.append (ih his n₁)

theorem sendPkt_deliveries (numNodes : ℕ) (src' dest' : Int) (pkt : List UInt8) (draw : Int → Bool)
    (n : Net δ ω) :
    deliveries now src dest (n.sendPkt (κ := κ) numNodes nowMicros src' dest' pkt draw).2.1 <+
      if src' = src ∧ (dest' = dest ∨ dest' = Packet.BROADCAST_ADDRESS) then [pkt] else [] := by
  unfold sendPkt
  split
  · exact List.nil_sublist _
  · have hnodup : ((List.range numNodes).map Int.ofNat).Nodup :=
      List.nodup_range.map fun _ _ h => Int.ofNat.inj h
    split_ifs with hbroadcast hoffered hoffered
    · refine (n.broadcast_deliveries now nowMicros src dest src' pkt draw hnodup).trans ?_
      split_ifs
      · exact List.Sublist.refl _
      · exact List.nil_sublist _
    · refine (n.broadcast_deliveries now nowMicros src dest src' pkt draw hnodup).trans ?_
      rw [if_neg fun h => hoffered ⟨h.1, .inr hbroadcast⟩]
    · refine (n.transmit_deliveries now nowMicros src dest src' dest' pkt _).trans ?_
      split_ifs
      · exact List.Sublist.refl _
      · exact List.nil_sublist _
    · refine (n.transmit_deliveries now nowMicros src dest src' dest' pkt _).trans ?_
      rw [if_neg fun h => hoffered ⟨h.1, .inl h.2⟩]

theorem perform_deliveries (numNodes : ℕ) (n : Net δ ω) (c : NetCall δ κ) :
    deliveries now src dest (n.perform numNodes nowMicros c).2 <+ (c.offered src dest).toList := by
  cases c with
  | request r =>
      have hnone : deliveries now src dest [r.map Callback.other] = [] := by
        unfold deliveries
        rw [List.filterMap_eq_nil_iff]
        intro ev hev
        obtain ⟨r', hr', hev⟩ := List.mem_filterMap.mp hev
        obtain rfl := List.mem_singleton.mp hr'
        exact r.packet_of_event_map hev
      exact hnone ▸ List.nil_sublist _
  | sendPkt src' dest' pkt draw =>
      refine (n.sendPkt_deliveries now nowMicros src dest numNodes src' dest' pkt draw).trans ?_
      simp only [NetCall.offered]
      split_ifs <;> exact List.Sublist.refl _
  | newEdge | failEdge | restartEdge | failNode | restartNode => exact List.nil_sublist _

/-- A node is handed no packet from another node that this one has not sent. -/
theorem performAll_deliveries (numNodes : ℕ) (calls : List (NetCall δ κ)) (n : Net δ ω) :
    deliveries now src dest (n.performAll numNodes nowMicros calls).2 <+
      calls.filterMap (NetCall.offered src dest) := by
  induction calls generalizing n with
  | nil => exact List.nil_sublist _
  | cons c calls ih =>
      have hfirst := n.perform_deliveries now nowMicros src dest numNodes c
      have hrest := ih (n.perform numNodes nowMicros c).1
      show deliveries now src dest ((n.perform numNodes nowMicros c).2 ++
        ((n.perform numNodes nowMicros c).1.performAll numNodes nowMicros calls).2) <+ _
      rw [deliveries_append]
      refine (hfirst.append hrest).trans ?_
      cases hoffered : c.offered src dest with
      | none =>
          rw [List.filterMap_cons_none hoffered]
          exact List.Sublist.refl _
      | some pkt =>
          rw [List.filterMap_cons_some hoffered]
          exact List.Sublist.refl _

end Net

/-! ### What the nodes of a simulation have sent -/

namespace SimNodes

variable (w : SimNodes)

def node (addr : Int) : Option AppNode := if 0 ≤ addr then w.nodes[addr.toNat]? else none

/-- The packets that node `src` has sent to `dest`, or to all. -/
def posted (src dest : Int) : List (List UInt8) := (w.node src).elim [] (·.stack.posted dest)

/-- The segments that the TCP of node `src` has sent to `dest`, or to all. -/
def segments (src dest : Int) : List (Int × Transport) :=
  (w.node src).elim [] (·.stack.segments dest)

/-- The nodes have their addresses, and their pings are no segments. -/
def Plain : Prop :=
  ∀ (k : ℕ) (n : AppNode), w.nodes[k]? = some n →
    n.stack.addr = k ∧ ∀ e ∈ n.stack.sent, arrival e.2 = none

end SimNodes

namespace Simulation

variable {δ : Type} (S : Simulation δ)

/-- The nodes send what they say. -/
structure Honest (w : SimNodes) (r : Reaction δ) : Prop where
  posted : ∀ src dest,
    r.rest.posted src dest ~ w.posted src dest ++ r.calls.filterMap (NetCall.offered src dest)
  sends : ∀ (k : ℕ) (n' : AppNode), r.rest.nodes[k]? = some n' →
    ∃ n, w.nodes[k]? = some n ∧ n.stack.Extends n'.stack

namespace Honest

variable {S} {w w' : SimNodes} {r : Reaction δ}

theorem idle (hnodes : w'.nodes = w.nodes) {calls : List (NetCall δ SimCallback)}
    (hcalls : ∀ c ∈ calls, ∀ src dest, c.offered src dest = none) (outcome : Outcome) :
    Honest w (⟨w', calls, outcome⟩ : Reaction δ) := by
  refine ⟨?_, ?_⟩
  · intro src dest
    have hnone : calls.filterMap (NetCall.offered src dest) = [] :=
      List.filterMap_eq_nil_iff.mpr fun c hc => hcalls c hc src dest
    simp only [SimNodes.posted, SimNodes.node, hnodes, hnone, List.append_nil, List.Perm.refl]
  · intro k n hn
    exact ⟨n, hnodes ▸ hn, .refl _⟩

theorem silent (w : SimNodes) (outcome : Outcome) :
    Honest w (⟨w, [], outcome⟩ : Reaction δ) :=
  idle rfl (fun _ h => absurd h List.not_mem_nil) outcome

theorem andThen (h : Honest w r) {f : SimNodes → Reaction δ} (hf : ∀ w, Honest w (f w)) :
    Honest w (r.andThen f) := by
  unfold NetReaction.andThen
  split_ifs
  · exact h
  · refine ⟨?_, ?_⟩
    · intro src dest
      have hboth := ((hf r.rest).posted src dest).trans ((h.posted src dest).append_right _)
      rwa [List.append_assoc, ← List.filterMap_append] at hboth
    · intro k n'' hn''
      obtain ⟨n', hn', hsecond⟩ := (hf r.rest).sends k n'' hn''
      obtain ⟨n, hn, hfirst⟩ := h.sends k n' hn'
      exact ⟨n, hn, hfirst.trans hsecond⟩

theorem inTurn {fs : List (SimNodes → Reaction δ)} (hfs : ∀ f ∈ fs, ∀ w, Honest w (f w)) :
    Honest w (inTurn fs w) := by
  have hfold : ∀ r : Reaction δ, Honest w r → Honest w (fs.foldl NetReaction.andThen r) := by
    induction fs with
    | nil => exact fun r hr => hr
    | cons f fs ih =>
        obtain ⟨hf, hfs⟩ := List.forall_mem_cons.mp hfs
        exact fun r hr => ih hfs _ (hr.andThen hf)
  exact hfold _ (silent w _)

end Honest

theorem netCalls_offered (k i : ℕ) (calls : List NodeCall) (src dest : Int) :
    (S.netCalls k i calls).filterMap (NetCall.offered src dest) =
      if (k : Int) = src then calls.filterMap (NodeCall.offered dest) else [] := by
  induction calls generalizing i with
  | nil => exact (ite_self _).symm
  | cons c calls ih =>
      cases c with
      | addTimer deltaMs cb => exact ih i
      | sendPkt d pkt =>
          simp only [netCalls, List.filterMap_cons, NetCall.offered, NodeCall.offered, ih]
          by_cases hk : (k : Int) = src
          · simp only [hk, true_and, if_true]
          · simp only [hk, false_and, if_false]

theorem honest_atNode (k : ℕ) {f : AppNode → NodeReaction} (hf : ∀ n, (f n).Honest n)
    (w : SimNodes) : Honest w (S.atNode k f w) := by
  unfold Simulation.atNode
  split
  · exact .silent w _
  · next n hn =>
      obtain ⟨hlt, -⟩ := List.getElem?_eq_some_iff.mp hn
      refine ⟨?_, ?_⟩
      · intro src dest
        simp only [netCalls_offered]
        by_cases hk : (k : Int) = src
        · subst hk
          have hself : w.node k = some n := hn
          have hset : ({ w with
              nodes := w.nodes.set k (f n).node
              sends := w.sends + (f n).calls.countP isSend } : SimNodes).node k =
                some (f n).node := by
            simp [SimNodes.node, hlt]
          simp only [SimNodes.posted, hself, hset, Option.elim_some, if_true, (hf n).calls]
          exact (hf n).sends.posted dest
        · have hother : ({ w with
              nodes := w.nodes.set k (f n).node
              sends := w.sends + (f n).calls.countP isSend } : SimNodes).node src =
                w.node src := by
            unfold SimNodes.node
            split_ifs with hsrc
            · exact List.getElem?_set_ne (by omega)
            · rfl
          simp only [SimNodes.posted, hother, if_neg hk, List.append_nil, List.Perm.refl]
      · intro j n' hn'
        simp only [List.getElem?_set] at hn'
        split_ifs at hn' with hj
        · obtain rfl := hj
          obtain rfl := Option.some.inj hn'
          exact ⟨n, hn, (hf n).sends⟩
        · exact ⟨n', hn', .refl _⟩

theorem honest_hook (clock : Int) (h : Hook δ) (w : SimNodes) : Honest w (S.hook clock h w) := by
  cases h with
  | parseNodeCmd cmd =>
      unfold Simulation.hook
      simp only
      split
      · exact S.honest_atNode _ (fun n => n.honest_onCommand ..) w
      · exact .silent w _
      · exact .silent w _
  | createNewEdge | failEdgeHook | failNodeHook | restartEdgeHook | restartNodeHook =>
      refine .idle rfl ?_ _
      intro c hc
      obtain rfl := List.mem_singleton.mp hc
      exact fun _ _ => rfl
  | exitCmd | echo | error => exact .silent w _

section parser
variable [Zero δ]

theorem honest_line (clock nowMicros : Int) (text : Str) (w : SimNodes) :
    Honest w (S.line clock nowMicros text w) := by
  refine .inTurn ?_
  intro f hf w
  obtain ⟨h, -, rfl⟩ := List.mem_map.mp hf
  exact S.honest_hook clock h w

theorem honest_parseTopology (nowMicros : Int) (w : SimNodes) :
    Honest w (S.parseTopology nowMicros w) := by
  unfold Simulation.parseTopology
  generalize CommandsParser.parseRemainder S.floats nowMicros w.topoFile = file
  obtain ⟨parsed, unread, result⟩ := file
  refine .andThen ?_ ?_
  · have hlines : Honest { w with topoFile := unread }
        (inTurn (parsed.map (S.line nowMicros nowMicros)) { w with topoFile := unread }) := by
      refine .inTurn ?_
      intro f hf w
      obtain ⟨text, -, rfl⟩ := List.mem_map.mp hf
      exact S.honest_line nowMicros nowMicros text w
    exact ⟨hlines.posted, hlines.sends⟩
  · intro w
    split
    · exact .silent w _
    · split_ifs
      · refine .idle rfl ?_ _
        intro c hc
        obtain rfl := List.mem_singleton.mp hc
        exact fun _ _ => rfl
      · exact .silent w _

theorem honest_callback (nowMicros : Int) (w : SimNodes) (cb : Callback SimCallback) :
    Honest w (S.callback nowMicros w cb) := by
  cases cb with
  | deliverPkt src dest pkt =>
      simp only [Simulation.callback]
      split_ifs
      · exact S.honest_atNode _ (fun n => n.honest_onReceive ..) w
      · exact .silent w _
  | other cb =>
      cases cb with
      | node k cb => exact S.honest_atNode k (fun n => n.honest_callback ..) w
      | parseRestOfTopoFile => exact S.honest_parseTopology nowMicros w

end parser

/-! ### What is under way has been sent -/

/-- What is under way between two nodes, or has been handed over, has been sent. -/
structure Genuine (s : Simulator (Net δ SimNodes) (Callback SimCallback)) : Prop where
  posted : ∀ src dest, s.handed src dest ++ s.inFlight src dest <+~ s.world.rest.posted src dest
  plain : s.world.rest.Plain

namespace Genuine

variable [Zero δ] {s : Simulator (Net δ SimNodes) (Callback SimCallback)}

theorem respond (h : Genuine s) (numNodes : ℕ) {r : Reaction δ} (hr : Honest s.world.rest r) :
    Genuine (s.respond (s.world.react numNodes s.nowMicros r)) := by
  obtain ⟨hrest, -⟩ := s.respond_react numNodes r
  have hasks := s.respond_asks (s.world.react numNodes s.nowMicros r)
  have hevents := Simulator.foldl_request_events (s.world.react numNodes s.nowMicros r).requests
    { s with world := (s.world.react numNodes s.nowMicros r).world }
  refine ⟨?_, ?_⟩
  · intro src dest
    have hflight : (s.respond (s.world.react numNodes s.nowMicros r)).inFlight src dest ~
        s.inFlight src dest ++
          Net.deliveries s.now src dest (s.world.react numNodes s.nowMicros r).requests := by
      have hfilter := hevents.filterMap (ScheduledEvent.packet src dest)
      rwa [List.filterMap_append] at hfilter
    have hdeliveries : Net.deliveries s.now src dest
        (s.world.react numNodes s.nowMicros r).requests <+
          r.calls.filterMap (NetCall.offered src dest) :=
      Net.performAll_deliveries s.now s.nowMicros src dest numNodes r.calls _
    have hhanded : (s.respond (s.world.react numNodes s.nowMicros r)).handed src dest =
        s.handed src dest := by
      unfold Simulator.handed
      rw [hasks.ran]
    rw [hhanded, hrest]
    have hmore : s.handed src dest ++ (s.respond (s.world.react numNodes s.nowMicros r)).inFlight
        src dest ~ s.handed src dest ++ s.inFlight src dest ++
          Net.deliveries s.now src dest (s.world.react numNodes s.nowMicros r).requests := by
      rw [List.append_assoc]
      exact hflight.append_left _
    have hsent : s.handed src dest ++ s.inFlight src dest ++
        Net.deliveries s.now src dest (s.world.react numNodes s.nowMicros r).requests <+~
          s.world.rest.posted src dest ++ r.calls.filterMap (NetCall.offered src dest) :=
      ((List.subperm_append_right _).mpr (h.posted src dest)).trans
        ((List.subperm_append_left _).mpr hdeliveries.subperm)
    exact hmore.subperm.trans (hsent.trans (hr.posted src dest).symm.subperm)
  · rw [hrest]
    intro k n' hn'
    obtain ⟨n, hn, hsends⟩ := hr.sends k n' hn'
    obtain ⟨haddr, hpings⟩ := h.plain k n hn
    obtain ⟨out, hout, hnone⟩ := hsends.pings
    refine ⟨hsends.addr.trans haddr, ?_⟩
    intro e he
    rw [hout] at he
    obtain he | he := List.mem_append.mp he
    · exact hpings e he
    · exact hnone e he

omit [Zero δ] in
theorem handOver (h : Genuine s) {ev : ScheduledEvent (Callback SimCallback)}
    {sortedEvents : OrderedEventQueue (Callback SimCallback)}
    (hnext : s.sortedEvents.removeNextEvent = some (ev, sortedEvents)) :
    Genuine { s with sortedEvents, ran := s.ran ++ [(ev, s.nowMicros)] } := by
  refine ⟨?_, h.plain⟩
  intro src dest
  have hsame : s.handed src dest ++ s.inFlight src dest =
      (s.ran ++ [(ev, s.nowMicros)]).filterMap (fun p => p.1.packet src dest) ++
        sortedEvents.events.filterMap (ScheduledEvent.packet src dest) := by
    unfold Simulator.handed Simulator.inFlight
    rw [(OrderedEventQueue.removeNextEvent_spec hnext).1, List.filterMap_append]
    cases hpacket : ev.packet src dest with
    | none => simp [hpacket]
    | some pkt => simp [hpacket]
  exact hsame ▸ h.posted src dest

theorem step (S : Simulation δ) (hscaled : ∀ d, 0 ≤ d → 0 ≤ S.scaled d) (h : Genuine s)
    {input : Option Str × Int} (helapsed : 0 ≤ input.2) :
    Genuine (s.step S.program.behaviour input) := by
  refine Simulator.step_rule (B := S.program.behaviour) hscaled ?_ ?_ ?_ h helapsed
  · exact fun _ _ _ _ _ _ h _ => ⟨h.posted, h.plain⟩
  · exact fun s line nowMicros h => h.respond _ (S.honest_line s.nowMicros nowMicros line _)
  · exact fun s ev _ h hnext =>
      (h.handOver hnext).respond _ (S.honest_callback s.nowMicros _ ev.callback)

theorem start (S : Simulation δ) (topoFile : List Str) (commandFile : Option (List Str)) :
    Genuine (S.start topoFile commandFile) := by
  have hnew : Genuine (.new ⟨.new false, [], S.newNodes topoFile⟩ commandFile :
      Simulator (Net δ SimNodes) (Callback SimCallback)) := by
    refine ⟨fun _ _ => List.nil_subperm, ?_⟩
    intro k n hn
    obtain ⟨-, rfl⟩ := S.newNodes_getElem? topoFile hn
    exact ⟨rfl, fun _ h => absurd h List.not_mem_nil⟩
  have htopology := S.honest_parseTopology 0 (S.newNodes topoFile)
  have hread := hnew.respond S.numNodes htopology
  have hrest := (Simulator.respond_react S.numNodes (.new ⟨.new false, [], S.newNodes topoFile⟩
    commandFile) (S.parseTopology 0 (S.newNodes topoFile))).1
  have hnone : ∀ c ∈ S.startNodes, ∀ src dest, c.offered src dest = none := by
    intro c hc
    obtain ⟨k, -, hc⟩ := List.mem_flatMap.mp hc
    simp only [AppNode.start, netCalls, List.mem_cons, List.not_mem_nil, or_false] at hc
    obtain rfl | rfl := hc
    · exact fun _ _ => rfl
    · exact fun _ _ => rfl
  have hstarted := hread.respond S.numNodes
    (Honest.idle (congrArg SimNodes.nodes hrest.symm) hnone
      (S.parseTopology 0 (S.newNodes topoFile)).outcome)
  exact ⟨hstarted.posted, hstarted.plain⟩

theorem after (S : Simulation δ) (hscaled : ∀ d, 0 ≤ d → 0 ≤ S.scaled d) (topoFile : List Str)
    (commandFile : Option (List Str)) {inputs : List (Option Str × Int)}
    (helapsed : ∀ input ∈ inputs, 0 ≤ input.2) :
    Genuine (S.after topoFile commandFile inputs) := by
  unfold Simulation.after
  generalize S.start topoFile commandFile = s, start S topoFile commandFile = h
  induction inputs generalizing s with
  | nil => exact h
  | cons input inputs ih =>
      obtain ⟨hinput, hinputs⟩ := List.forall_mem_cons.mp helapsed
      exact ih hinputs _ (h.step S hscaled hinput)

end Genuine

end Simulation

/-! ### Segments -/

theorem Clocked.run_station {c : Clocked} {es : List NodeEvent}
    (hes : Guarded Clocked.step Clocked.Allowed c es) :
    (run Clocked.step c es).station = run Station.step c.station es ∧
      Guarded Station.step Station.Allowed c.station es := by
  induction es generalizing c with
  | nil => exact ⟨rfl, trivial⟩
  | cons e es ih =>
      obtain ⟨hrun, hguarded⟩ := ih hes.2
      exact ⟨hrun, hes.1.1, hguarded⟩

/-- The TCP of a node sends its segments from its own address. -/
theorem Reaches.left {addr τ t : Int} {m : TcpManager} (haddr : Packet.validAddress addr = true)
    (h : Reaches addr τ t m) : ∀ p ∈ m.sent, Station.Left addr p := by
  obtain ⟨es, hes, rfl, -⟩ := h
  obtain ⟨hrun, hguarded⟩ := Clocked.run_station hes
  rw [hrun]
  exact Station.sent_run haddr hguarded

theorem Sent.arrival_bytes {p : Sent} (h : p.Survives) :
    arrival p.bytes = (Transport.unpack p.seg.pack).map (p.src, ·) := by
  obtain ⟨pkt, e, hpkt, -⟩ := h
  obtain ⟨hsrc, hprotocol, hseq, hpayload⟩ := Packet.of_make hpkt
  have hbytes : p.bytes = pkt.pack := by
    unfold Sent.bytes
    rw [hpkt]
  rw [hbytes, arrival, pkt.unpack_pack (by rw [hseq]; decide), Option.bind_some, if_pos hprotocol,
    hpayload, hsrc]

/-- The segments among the packets of a node are those of its TCP. -/
theorem StackNode.posted_arrival {n : StackNode}
    (hsent : ∀ p ∈ n.tcpMan.sent, Station.Left n.addr p)
    (haddr : 0 ≤ n.addr ∧ n.addr ≤ 255) (hpings : ∀ e ∈ n.sent, arrival e.2 = none) (dest : Int) :
    (n.posted dest).filterMap arrival = n.segments dest := by
  have htcp : n.tcpMan.sent.filterMap
      (fun p => (NodeCall.offered dest (.sendPkt p.dest p.bytes)).bind arrival) =
        n.segments dest := by
    refine List.filterMap_congr ?_
    intro p hp
    have hleft := hsent p hp
    have harrival := Sent.arrival_bytes (hleft.survives haddr)
    rw [hleft.1] at harrival
    simp only [NodeCall.offered]
    split_ifs
    · exact harrival
    · rfl
  have hping : n.sent.filterMap
      (fun p => (NodeCall.offered dest (.sendPkt p.1 p.2)).bind arrival) = [] := by
    rw [List.filterMap_eq_nil_iff]
    intro p hp
    simp only [NodeCall.offered]
    split_ifs
    · exact hpings p hp
    · rfl
  have hposted : (n.posted dest).filterMap arrival =
      n.tcpMan.sent.filterMap
          (fun p => (NodeCall.offered dest (.sendPkt p.dest p.bytes)).bind arrival) ++
        n.sent.filterMap fun p => (NodeCall.offered dest (.sendPkt p.1 p.2)).bind arrival := by
    simp only [posted, outgoing, StackNode.new, TcpManager.new, List.length_nil, List.drop_zero,
      List.filterMap_append, List.filterMap_map, List.filterMap_filterMap]
    rfl
  rw [hposted, htcp, hping, List.append_nil]

theorem SimNodes.posted_arrival {w : SimNodes} (hplain : w.Plain)
    (hleft : ∀ (k : ℕ) (n : AppNode), w.nodes[k]? = some n →
      k ≤ 254 ∧ ∀ p ∈ n.stack.tcpMan.sent, Station.Left k p) (src dest : Int) :
    (w.posted src dest).filterMap arrival = w.segments src dest := by
  unfold SimNodes.posted SimNodes.segments
  cases hn : w.node src with
  | none => rfl
  | some n =>
      unfold SimNodes.node at hn
      split_ifs at hn
      obtain ⟨haddr, hpings⟩ := hplain _ n hn
      obtain ⟨hmax, hsent⟩ := hleft _ n hn
      rw [← haddr] at hsent
      exact n.stack.posted_arrival hsent (by omega) hpings dest

theorem subperm_filterMap {α β : Type} {xs ys : List α} (h : xs <+~ ys) (f : α → Option β) :
    xs.filterMap f <+~ ys.filterMap f := by
  obtain ⟨zs, hperm, hsub⟩ := h
  exact ⟨zs.filterMap f, hperm.filterMap f, hsub.filterMap f⟩

namespace Simulation

/-- **The network brings only what has been sent.**  In every state of a simulation, the packets that
have been handed from one node to another, with those on their way between them, are among the packets
that the first node has sent to the second one or to all, each no more often than it was sent; and the
segments that the TCP of the second node is given from them, with those on their way, are among the
segments that the TCP of the first node has sent.  So whatever is lost, and whatever the topology and
the commands are, no packet is made up, altered or doubled, and no ping is taken for a segment.  As for
`nodes_are_stations`, the timescale is not negative and the wall clock does not go back. -/
theorem packets_genuine {δ : Type} [Zero δ] (S : Simulation δ)
    (hscaled : ∀ d, 0 ≤ d → 0 ≤ S.scaled d) (topoFile : List Str) (commandFile : Option (List Str))
    (inputs : List (Option Str × Int)) (helapsed : ∀ input ∈ inputs, 0 ≤ input.2)
    (hrunning : (S.after topoFile commandFile inputs).running = true) (src dest : Int) :
    let s := S.after topoFile commandFile inputs
    s.handed src dest ++ s.inFlight src dest <+~ s.world.rest.posted src dest ∧
      (s.handed src dest ++ s.inFlight src dest).filterMap arrival <+~
        s.world.rest.segments src dest := by
  intro s
  have hgenuine := Genuine.after S hscaled topoFile commandFile helapsed
  have hstations := Stations.after S hscaled helapsed hrunning
  have hleft : ∀ (k : ℕ) (n : AppNode), s.world.rest.nodes[k]? = some n →
      k ≤ 254 ∧ ∀ p ∈ n.stack.tcpMan.sent, Station.Left k p := by
    intro k n hn
    obtain ⟨hlt, -⟩ := List.getElem?_eq_some_iff.mp hn
    have hk : k < S.numNodes := hstations.1 ▸ hlt
    have hmax := S.admitted.2
    exact ⟨by omega, (hstations.2 k n hn).reaches.left (S.validAddress_of_lt hk)⟩
  have hposted := hgenuine.posted src dest
  refine ⟨hposted, ?_⟩
  rw [← SimNodes.posted_arrival hgenuine.plain hleft src dest]
  exact subperm_filterMap hposted arrival

/-- Node 1 has been handed the SYN of node 0, and its answer is on its way. -/
theorem packets_genuine_connect :
    let s := pair.after ["edge 0 1".toList] (some transferScript) (List.replicate 6 (none, 0))
    (s.handed 0 1).length = 1 ∧ (s.inFlight 1 0).length = 1 ∧
      (s.handed 0 1 ++ s.inFlight 0 1).filterMap arrival <+~ s.world.rest.segments 0 1 ∧
      (s.handed 1 0 ++ s.inFlight 1 0).filterMap arrival <+~ s.world.rest.segments 1 0 := by
  intro s
  have hrunning : s.running = true := by decide
  have hgenuine := packets_genuine pair (fun d hd => hd) ["edge 0 1".toList] (some transferScript)
    (List.replicate 6 (none, 0)) (by decide) hrunning
  exact ⟨by decide, by decide, (hgenuine 0 1).2, (hgenuine 1 0).2⟩

end Simulation

end NetBridge
