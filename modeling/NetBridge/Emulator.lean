import NetBridge.ArpCommands
import NetBridge.Wire
import NetBridge.Run

/-! # The emulator of one node

`Emulator` (`emulator.cpp`) runs one node against real sockets.  Its neighbour table `arp` has two
writers: the lines of the trawler, which `refreshARP` takes off the TCP stream, and
`processUdpPacket`, which learns the endpoint of whoever sends a packet.  `sendPkt` reads the
table: an entry with a link is paced by it (`EmulatedLink`), an entry without one is sent to at
once.

An event of a run is one call with what it gets from outside.  What the node does with a packet is
not part of the model: whatever it sends is a later `sendPkt`.  A `Notice` is what an event tells
the emulator about its neighbours, and the table is determined by the notices, up to the clocks of
the links (`neighbour_run`). -/

namespace NetBridge

/-! ### Pacing -/

/-- `EmulatedLink::schedulePkt`: the time of delivery, or `-1` for a packet that is dropped or
lost.  `lost` is the outcome of the draw against the loss rate. -/
def EmulatedLink.schedulePkt {δ : Type} (l : EmulatedLink δ) (size nowMicros : Int) (lost : Bool) :
    Int × EmulatedLink δ :=
  let currentPktSendTime := max nowMicros l.nextSendTime
  let finishTime := currentPktSendTime + (size * 1000000).tdiv l.options.bwBytesPerSec
  if finishTime - nowMicros > l.options.bufferingMs * 1000 then (-1, l)
  else
    let l := { l with nextSendTime := finishTime }
    if lost then (-1, l) else (finishTime + l.options.delayMs * 1000, l)

theorem EmulatedLink.schedulePkt_options {δ : Type} (l : EmulatedLink δ) (size nowMicros : Int)
    (lost : Bool) : (l.schedulePkt size nowMicros lost).2.options = l.options := by
  unfold schedulePkt
  simp only
  split_ifs <;> rfl

/-! ### The state and the calls -/

/-- The arguments of `physicalSend`. -/
structure Datagram where
  pkt : List UInt8
  ipAddress : Str
  udpPort : Int
deriving DecidableEq

/-- What `schedulePkt` does with a packet for `destAddr`: it is sent at once, or an event sends it
at the time that the link has given. -/
inductive Dispatch (δ : Type) where
  | direct (destAddr : Int) (datagram : Datagram)
  | paced (destAddr : Int) (link : EmulatedLink δ) (timeToDeliver : Int) (datagram : Datagram)
deriving DecidableEq

/-- The neighbour that a packet is sent to. -/
def Dispatch.destAddr {δ : Type} : Dispatch δ → Int
  | .direct destAddr _ => destAddr
  | .paced destAddr _ _ _ => destAddr

/-- An emulator, with the packets it has handed to the network (`dispatched`) and to its node
(`received`), in order. -/
structure Emulator (δ : Type) where
  assignedNodeId : Int
  trawlerBuf : Str
  arp : ArpTable δ
  dispatched : List (Dispatch δ)
  received : List (Int × List UInt8)

variable {δ : Type}

namespace Emulator

/-- The state after the handshake. -/
def new (assignedNodeId : Int) : Emulator δ := ⟨assignedNodeId, [], ∅, [], []⟩

/-- `refreshARP`, where `received` is what the socket has to give. -/
def refreshARP (F : Floats δ) (e : Emulator δ) (received : Str) : Emulator δ :=
  let (trawlerBuf, arp) := feed '\n' (arpLine F) (e.trawlerBuf, e.arp) received
  { e with trawlerBuf, arp }

/-- The entry for a sender is new if there is none or if it has another endpoint. -/
def newArp (arp : ArpTable δ) (srcAddr : Int) (ip : Str) (port : Int) : Bool :=
  match AList.lookup srcAddr arp with
  | none => true
  | some data => data.ipAddress ≠ ip || data.udpPort ≠ port

/-- `processUdpPacket` on a datagram from `ip` and `port`. -/
def processUdpPacket (e : Emulator δ) (data : List UInt8) (ip : Str) (port : Int) : Emulator δ :=
  match EmulatorPacket.unpack data with
  | none => e
  | some packet =>
      let e :=
        if newArp e.arp packet.srcAddr ip port then
          { e with arp := AList.insert packet.srcAddr ⟨ip, port, none⟩ e.arp }
        else e
      if packet.destAddr = e.assignedNodeId ∨ packet.destAddr = Packet.BROADCAST_ADDRESS then
        { e with received := e.received ++ [(packet.srcAddr, packet.payload)] }
      else e

/-- `schedulePkt`, where `draw` is the time on the clock and whether the link loses the packet. -/
def schedulePkt (pkt : List UInt8) (draw : Int → Int × Bool) (e : Emulator δ) (destAddr : Int) :
    Emulator δ :=
  match AList.lookup destAddr e.arp with
  | none => e
  | some data =>
      match data.link with
      | none =>
          { e with
            dispatched := e.dispatched ++ [.direct destAddr ⟨pkt, data.ipAddress, data.udpPort⟩] }
      | some link =>
          let size := pkt.length - EmulatorPacket.HEADER_SIZE
          let size := if size < 0 then (pkt.length : Int) else size
          let (currentTime, lost) := draw destAddr
          let (timeToDeliver, link') := link.schedulePkt size currentTime lost
          let e := { e with arp := AList.insert destAddr { data with link := some link' } e.arp }
          if timeToDeliver = -1 then e
          else
            let usecFraction := timeToDeliver.tmod 1000
            let timeToDeliver :=
              if usecFraction ≠ 0 then timeToDeliver + (1000 - usecFraction) else timeToDeliver
            -- `addEventAtMicros` refuses a time before the epoch
            if timeToDeliver < 0 then e
            else
              { e with
                dispatched := e.dispatched ++
                  [.paced destAddr link timeToDeliver ⟨pkt, data.ipAddress, data.udpPort⟩] }

/-- `sendPkt`.  An unordered map gives its keys in an order of its own: `order` is the order in
which the loop of a broadcast meets them. -/
def sendPkt (F : Floats δ) (e : Emulator δ) (src dest : Int) (pkt : List UInt8) (received : Str)
    (order : List Int) (draw : Int → Int × Bool) : Emulator δ × Except String Bool :=
  match RuntimeManager.sendPkt src dest pkt with
  | .error err => (e, .error err)
  | .ok () =>
      let e := e.refreshARP F received
      match EmulatorPacket.make dest src pkt with
      | .error err => (e, .error err)
      | .ok epkt =>
          let payload := epkt.pack
          if payload.isEmpty then (e, .ok false)
          else if dest = Packet.BROADCAST_ADDRESS then
            (order.foldl (schedulePkt payload draw) e, .ok true)
          else if (AList.lookup dest e.arp).isSome then (schedulePkt payload draw e dest, .ok true)
          else (e, .ok false)

/-- What happens to an emulator. -/
inductive Event where
  | refreshARP (received : Str)
  | processUdpPacket (data : List UInt8) (ip : Str) (port : Int)
  | sendPkt (src dest : Int) (pkt : List UInt8) (received : Str) (order : List Int)
      (draw : Int → Int × Bool)

def step (F : Floats δ) (e : Emulator δ) : Event → Emulator δ
  | .refreshARP received => e.refreshARP F received
  | .processUdpPacket data ip port => e.processUdpPacket data ip port
  | .sendPkt src dest pkt received order draw => (e.sendPkt F src dest pkt received order draw).1

end Emulator

/-! ### What the emulator is told -/

/-- A command of the trawler, or a packet from a node and the endpoint it came from. -/
inductive Notice (δ : Type) where
  | command (c : ArpCommand δ)
  | packet (src : Int) (ipAddress : Str) (udpPort : Int)
deriving DecidableEq

/-- The notices that concern a node. -/
def Notice.About (n : Int) : Notice δ → Prop
  | .command (.add nodeId _ _ _) => nodeId = n
  | .command (.remove nodeId) => nodeId = n
  | .command .reset => True
  | .packet src _ _ => src = n

instance (n : Int) : DecidablePred (Notice.About n : Notice δ → Prop)
  | .command (.add nodeId _ _ _) => inferInstanceAs (Decidable (nodeId = n))
  | .command (.remove nodeId) => inferInstanceAs (Decidable (nodeId = n))
  | .command .reset => inferInstanceAs (Decidable True)
  | .packet src _ _ => inferInstanceAs (Decidable (src = n))

namespace Emulator

section notices
variable (F : Floats δ)

/-- The commands that `refreshARP` takes. -/
def commands (e : Emulator δ) (received : Str) : List (ArpCommand δ) :=
  (lines '\n' (e.trawlerBuf ++ received)).filterMap (arpCommand F)

/-- What an event tells. -/
def notices (e : Emulator δ) : Event → List (Notice δ)
  | .refreshARP received => (e.commands F received).map .command
  | .processUdpPacket data ip port =>
      match EmulatorPacket.unpack data with
      | none => []
      | some packet => [.packet packet.srcAddr ip port]
  | .sendPkt src dest pkt received _ _ =>
      match RuntimeManager.sendPkt src dest pkt with
      | .error _ => []
      | .ok () => (e.commands F received).map .command

/-- What a run tells, in order. -/
def history (e : Emulator δ) : List Event → List (Notice δ)
  | [] => []
  | ev :: evs => e.notices F ev ++ history (e.step F ev) evs

end notices

/-! ### The lines of the trawler -/

section stream
variable {F : Floats δ}

theorem refreshARP_eq (e : Emulator δ) (received : Str) :
    e.refreshARP F received =
      { e with
        trawlerBuf := rest '\n' (e.trawlerBuf ++ received)
        arp := (e.commands F received).foldl ArpCommand.apply e.arp } := by
  unfold refreshARP commands
  simp only [feed_eq, foldl_arpLine]

/-- What has been read is decided by the bytes that have arrived, however they were cut. -/
theorem refreshARP_run {e : Emulator δ} (he : '\n' ∉ e.trawlerBuf) (pieces : List Str) :
    run (refreshARP F) e pieces =
        { e with
          trawlerBuf := rest '\n' (e.trawlerBuf ++ pieces.flatten)
          arp := (e.commands F pieces.flatten).foldl ArpCommand.apply e.arp } ∧
      e.history F (pieces.map .refreshARP) = (e.commands F pieces.flatten).map .command := by
  induction pieces generalizing e with
  | nil =>
      simp only [run_nil, List.flatten_nil, List.append_nil, commands, lines_of_not_mem he,
        rest_of_not_mem he, List.map_nil, List.filterMap_nil, List.foldl_nil, history]
      exact ⟨trivial, trivial⟩
  | cons piece pieces ih =>
      have hnext : '\n' ∉ (e.refreshARP F piece).trawlerBuf := by
        rw [refreshARP_eq]
        exact not_mem_rest _
      have hcommands : e.commands F (piece ++ pieces.flatten) =
          e.commands F piece ++ (e.refreshARP F piece).commands F pieces.flatten := by
        unfold commands
        rw [refreshARP_eq, ← List.append_assoc, (lines_append _ _).1, List.filterMap_append]
      obtain ⟨hrun, hhistory⟩ := ih hnext
      rw [run_cons, hrun, List.flatten_cons, hcommands, List.map_cons, history, step, hhistory,
        notices, List.map_append]
      refine ⟨?_, rfl⟩
      rw [refreshARP_eq, ← List.append_assoc, List.foldl_append]
      simp only [← (lines_append (e.trawlerBuf ++ piece) pieces.flatten).2]

/-- **The line protocol**: however the lines of a list of commands are cut on their way, exactly
these commands are taken, in order, and nothing is left over. -/
theorem lines_decoded_exactly (hstod : ∀ d, F.stod (F.javaDouble d) = some d)
    (e : Emulator δ) (he : e.trawlerBuf = []) (cs : List (ArpCommand δ))
    (hcs : ∀ c ∈ cs, c.WellFormed) (pieces : List Str)
    (hpieces : pieces.flatten = cs.flatMap fun c => c.encode F ++ ['\n']) :
    run (refreshARP F) e pieces = { e with arp := cs.foldl ArpCommand.apply e.arp } ∧
      e.history F (pieces.map .refreshARP) = cs.map .command := by
  have hnot : '\n' ∉ e.trawlerBuf := by
    rw [he]
    exact List.not_mem_nil
  have hlines : ∀ line ∈ cs.map fun c => c.encode F, '\n' ∉ line := by
    intro line hline
    obtain ⟨c, hc, rfl⟩ := List.mem_map.mp hline
    exact c.not_mem_encode (hcs c hc) (by decide)
  have hstream : cs.flatMap (fun c => c.encode F ++ ['\n']) =
      (cs.map fun c => c.encode F).flatMap (· ++ ['\n']) := by
    rw [List.flatMap_map]
  obtain ⟨hread, hrest⟩ := lines_flatMap hlines
  have hcommands : e.commands F pieces.flatten = cs := by
    rw [commands, he, List.nil_append, hpieces, hstream, hread]
    exact ArpCommand.filterMap_arpCommand hstod hcs
  obtain ⟨hrun, hhistory⟩ := refreshARP_run hnot pieces
  rw [hrun, hhistory, hcommands, he, List.nil_append, hpieces, hstream, hrest]
  cases e
  subst he
  exact ⟨rfl, rfl⟩

theorem lines_decoded_exactly_cut_lines :
    (let pieces := ["add 2 10.0.0.7 5000 lossRate 0".toList,
      ".5 delay 1 bw 10000 bt 250\nrem".toList, "ove 3\n".toList]
    let cs := [.add 2 "10.0.0.7".toList 5000 (some ⟨true, 1, 10000, 250⟩), .remove 3]
    run (refreshARP Floats.halves) (new 1) pieces =
        { new 1 with arp := cs.foldl ArpCommand.apply ∅ } ∧
      (new 1).history Floats.halves (pieces.map .refreshARP) = cs.map .command) := by
  exact lines_decoded_exactly (F := Floats.halves) (by decide) (new 1) rfl
    [.add 2 "10.0.0.7".toList 5000 (some ⟨true, 1, 10000, 250⟩), .remove 3] (by decide) _
    (by decide)

end stream

end Emulator

/-! ### What the emulator knows of a neighbour -/

/-- An entry of the table, without the clock of its link. -/
structure Neighbour (δ : Type) where
  ipAddress : Str
  udpPort : Int
  options : Option (EdgeOptions δ)
deriving DecidableEq

def EmulatorARPData.neighbour (data : EmulatorARPData δ) : Neighbour δ :=
  ⟨data.ipAddress, data.udpPort, data.link.map EmulatedLink.options⟩

/-- The packet goes to the endpoint that is known, and through a link with the options that are
known, if there are any. -/
def Dispatch.Follows (k : Neighbour δ) : Dispatch δ → Prop
  | .direct _ datagram =>
      k.options = none ∧ datagram.ipAddress = k.ipAddress ∧ datagram.udpPort = k.udpPort
  | .paced _ link _ datagram =>
      k.options = some link.options ∧ datagram.ipAddress = k.ipAddress ∧
        datagram.udpPort = k.udpPort

/-- What is known of `n` after a notice.  A packet leaves an entry with its endpoint alone. -/
def Notice.after (n : Int) (old : Option (Neighbour δ)) : Notice δ → Option (Neighbour δ)
  | .command (.add nodeId ipAddress port options) =>
      if n = nodeId then some ⟨ipAddress, port, options⟩ else old
  | .command (.remove nodeId) => if n = nodeId then none else old
  | .command .reset => none
  | .packet src ipAddress udpPort =>
      if n = src ∧ ∀ k ∈ old, k.ipAddress ≠ ipAddress ∨ k.udpPort ≠ udpPort then
        some ⟨ipAddress, udpPort, none⟩
      else old

theorem Notice.after_of_not_about {n : Int} {x : Notice δ} (h : ¬ x.About n)
    (old : Option (Neighbour δ)) : x.after n old = old := by
  match x with
  | .command (.add nodeId _ _ _) => exact if_neg fun e => h e.symm
  | .command (.remove nodeId) => exact if_neg fun e => h e.symm
  | .command .reset => exact absurd trivial h
  | .packet src _ _ => exact if_neg fun e => h e.1.symm

theorem Notice.foldl_after_fixed {n : Int} {old : Option (Neighbour δ)} {xs : List (Notice δ)}
    (h : ∀ x ∈ xs, x.after n old = old) : xs.foldl (Notice.after n) old = old := by
  induction xs with
  | nil => rfl
  | cons x xs ih =>
      rw [List.foldl_cons, h x List.mem_cons_self]
      exact ih fun y hy => h y (List.mem_cons_of_mem _ hy)

/-- After a remove or a reset nothing is known of a node until it is heard of again. -/
theorem Notice.foldl_after_removed {n : Int} {c : ArpCommand δ} (hc : c = .remove n ∨ c = .reset)
    {after : List (Notice δ)} (hafter : ∀ x ∈ after, ¬ x.About n) (before : List (Notice δ))
    (old : Option (Neighbour δ)) :
    (before ++ .command c :: after).foldl (Notice.after n) old = none := by
  have hgone : ∀ old, Notice.after n old (.command c) = none := by
    intro old
    obtain rfl | rfl := hc
    · exact if_pos rfl
    · rfl
  rw [List.foldl_append, List.foldl_cons, hgone]
  exact foldl_after_fixed fun x hx => after_of_not_about (hafter x hx) none

/-- After an add the entry stays while packets come from its endpoint only. -/
theorem Notice.foldl_after_added {n : Int} {ipAddress : Str} {udpPort : Int}
    {options : Option (EdgeOptions δ)} {after : List (Notice δ)}
    (hafter : ∀ x ∈ after, x.About n → x = .packet n ipAddress udpPort)
    (before : List (Notice δ)) (old : Option (Neighbour δ)) :
    (before ++ .command (.add n ipAddress udpPort options) :: after).foldl (Notice.after n) old =
      some ⟨ipAddress, udpPort, options⟩ := by
  have hadd : ∀ old, Notice.after n old (.command (.add n ipAddress udpPort options)) =
      some ⟨ipAddress, udpPort, options⟩ := fun old => if_pos rfl
  rw [List.foldl_append, List.foldl_cons, hadd]
  apply foldl_after_fixed
  intro x hx
  by_cases habout : x.About n
  · rw [hafter x hx habout]
    refine if_neg ?_
    rintro ⟨-, h⟩
    exact (h _ rfl).elim (fun h => h rfl) fun h => h rfl
  · exact after_of_not_about habout _

namespace Emulator

/-- What an emulator knows of `n`. -/
def neighbour (e : Emulator δ) (n : Int) : Option (Neighbour δ) :=
  (AList.lookup n e.arp).map EmulatorARPData.neighbour

theorem neighbour_insert (arp : ArpTable δ) (n k : Int) (data : EmulatorARPData δ) :
    (AList.lookup n (AList.insert k data arp)).map EmulatorARPData.neighbour =
      if n = k then some data.neighbour
      else (AList.lookup n arp).map EmulatorARPData.neighbour := by
  rw [Table.lookup_insert_eq]
  split_ifs <;> rfl

theorem neighbour_commands (cs : List (ArpCommand δ)) (arp : ArpTable δ) (n : Int) :
    (AList.lookup n (cs.foldl ArpCommand.apply arp)).map EmulatorARPData.neighbour =
      (cs.map Notice.command).foldl (Notice.after n)
        ((AList.lookup n arp).map EmulatorARPData.neighbour) := by
  induction cs generalizing arp with
  | nil => rfl
  | cons c cs ih =>
      rw [List.foldl_cons, ih, List.map_cons, List.foldl_cons]
      congr 1
      cases c with
      | add nodeId ipAddress port options =>
          rw [ArpCommand.apply, neighbour_insert]
          cases options <;> rfl
      | remove nodeId =>
          rw [ArpCommand.lookup_apply, ArpCommand.after, Notice.after]
          split_ifs <;> rfl
      | reset => rfl

section neighbours
variable {F : Floats δ}

theorem neighbour_refreshARP (e : Emulator δ) (received : Str) (n : Int) :
    (e.refreshARP F received).neighbour n =
      ((e.commands F received).map Notice.command).foldl (Notice.after n) (e.neighbour n) := by
  rw [refreshARP_eq]
  exact neighbour_commands _ _ _

/-- An entry is learned exactly if none is known with the endpoint of the packet. -/
theorem newArp_iff (e : Emulator δ) (srcAddr : Int) (ip : Str) (port : Int) :
    newArp e.arp srcAddr ip port = true ↔
      ∀ k ∈ e.neighbour srcAddr, k.ipAddress ≠ ip ∨ k.udpPort ≠ port := by
  unfold newArp neighbour
  cases AList.lookup srcAddr e.arp with
  | none => simp
  | some data => simp [EmulatorARPData.neighbour]

theorem neighbour_processUdpPacket (e : Emulator δ) (data : List UInt8) (ip : Str) (port : Int)
    (n : Int) :
    (e.processUdpPacket data ip port).neighbour n =
      (e.notices F (.processUdpPacket data ip port)).foldl (Notice.after n) (e.neighbour n) := by
  unfold processUdpPacket
  simp only [notices]
  cases EmulatorPacket.unpack data with
  | none => rfl
  | some packet =>
      -- handing the packet to the node does not touch the table
      have hlearn : ∀ e' : Emulator δ,
          (if packet.destAddr = e'.assignedNodeId ∨ packet.destAddr = Packet.BROADCAST_ADDRESS then
            { e' with received := e'.received ++ [(packet.srcAddr, packet.payload)] }
          else e').neighbour n = e'.neighbour n := by
        intro e'
        split_ifs <;> rfl
      simp only [hlearn, List.foldl_cons, List.foldl_nil, Notice.after]
      by_cases hn : n = packet.srcAddr
      · subst hn
        by_cases hnew : newArp e.arp packet.srcAddr ip port = true
        · rw [if_pos hnew, if_pos ⟨rfl, (e.newArp_iff ..).mp hnew⟩, neighbour, neighbour_insert,
            if_pos rfl]
          rfl
        · rw [if_neg hnew, if_neg fun h => hnew ((e.newArp_iff ..).mpr h.2)]
      · simp only [hn, false_and, if_false]
        split_ifs with hnew
        · rw [neighbour, neighbour_insert, if_neg hn]
          rfl
        · rfl

/-- From `e` to `e'` packets are sent, each as its destination is known, and nothing is learned. -/
structure Sends (e e' : Emulator δ) : Prop where
  neighbour : ∀ n, e'.neighbour n = e.neighbour n
  dispatched : ∃ sent, e'.dispatched = e.dispatched ++ sent ∧
    ∀ d ∈ sent, ∃ k, e.neighbour d.destAddr = some k ∧ d.Follows k

theorem Sends.refl (e : Emulator δ) : Sends e e :=
  ⟨fun _ => rfl, [], (List.append_nil _).symm, fun _ h => absurd h List.not_mem_nil⟩

theorem Sends.trans {e₁ e₂ e₃ : Emulator δ} (h : Sends e₁ e₂) (h' : Sends e₂ e₃) : Sends e₁ e₃ := by
  obtain ⟨hknown, sent, hsent, hall⟩ := h
  obtain ⟨hknown', sent', hsent', hall'⟩ := h'
  refine ⟨fun n => (hknown' n).trans (hknown n), sent ++ sent', ?_, ?_⟩
  · rw [hsent', hsent, List.append_assoc]
  · intro d hd
    obtain hd | hd := List.mem_append.mp hd
    · exact hall d hd
    · rw [← hknown]
      exact hall' d hd

/-- What `schedulePkt` does: nothing, a packet that is sent at once, or a packet that the link takes
or refuses, whose clock has then moved. -/
theorem schedulePkt_cases (pkt : List UInt8) (draw : Int → Int × Bool) (e : Emulator δ)
    (destAddr : Int) :
    schedulePkt pkt draw e destAddr = e ∨
    ∃ data, AList.lookup destAddr e.arp = some data ∧
      (data.link = none ∧ schedulePkt pkt draw e destAddr =
          { e with
            dispatched := e.dispatched ++
              [.direct destAddr ⟨pkt, data.ipAddress, data.udpPort⟩] } ∨
        ∃ link link' sent, data.link = some link ∧ link'.options = link.options ∧
          (∀ d ∈ sent, ∃ timeToDeliver,
            d = .paced destAddr link timeToDeliver ⟨pkt, data.ipAddress, data.udpPort⟩) ∧
          schedulePkt pkt draw e destAddr =
            { e with
              arp := AList.insert destAddr { data with link := some link' } e.arp
              dispatched := e.dispatched ++ sent }) := by
  unfold schedulePkt
  cases hdata : AList.lookup destAddr e.arp with
  | none => exact .inl rfl
  | some data =>
      refine .inr ⟨data, rfl, ?_⟩
      simp only
      cases hlink : data.link with
      | none => exact .inl ⟨rfl, rfl⟩
      | some link =>
          simp only
          generalize (if (pkt.length : Int) - EmulatorPacket.HEADER_SIZE < 0 then (pkt.length : Int)
            else pkt.length - EmulatorPacket.HEADER_SIZE) = size
          obtain ⟨currentTime, lost⟩ := draw destAddr
          have hoptions := link.schedulePkt_options size currentTime lost
          simp only
          generalize link.schedulePkt size currentTime lost = r at hoptions ⊢
          obtain ⟨timeToDeliver, link'⟩ := r
          simp only
          generalize (if timeToDeliver.tmod 1000 ≠ 0 then
            timeToDeliver + (1000 - timeToDeliver.tmod 1000) else timeToDeliver) = rounded
          -- the link refuses the packet, the event is refused, or the event is added
          split_ifs
          · exact .inr ⟨link, link', [], rfl, hoptions, fun d hd => absurd hd List.not_mem_nil,
              by rw [List.append_nil]⟩
          · exact .inr ⟨link, link', [], rfl, hoptions, fun d hd => absurd hd List.not_mem_nil,
              by rw [List.append_nil]⟩
          · exact .inr ⟨link, link', _, rfl, hoptions, fun d hd => ⟨_, List.mem_singleton.mp hd⟩, rfl⟩

theorem schedulePkt_sends (pkt : List UInt8) (draw : Int → Int × Bool) (e : Emulator δ)
    (destAddr : Int) : Sends e (schedulePkt pkt draw e destAddr) := by
  rcases schedulePkt_cases pkt draw e destAddr with
    h | ⟨data, hdata, ⟨hlink, h⟩ | ⟨link, link', sent, hlink, hoptions, hsent, h⟩⟩
  · rw [h]
    exact Sends.refl e
  · have hknown : e.neighbour destAddr = some data.neighbour := congrArg (Option.map _) hdata
    rw [h]
    refine ⟨fun _ => rfl, _, rfl, ?_⟩
    intro d hd
    obtain rfl := List.mem_singleton.mp hd
    exact ⟨data.neighbour, hknown, by simp [EmulatorARPData.neighbour, hlink], rfl, rfl⟩
  · have hknown : e.neighbour destAddr = some data.neighbour := congrArg (Option.map _) hdata
    rw [h]
    refine ⟨?_, sent, rfl, ?_⟩
    · intro n
      rw [neighbour, neighbour_insert]
      split_ifs with hn
      · rw [hn, hknown]
        simp [EmulatorARPData.neighbour, hlink, hoptions]
      · rfl
    · intro d hd
      obtain ⟨timeToDeliver, rfl⟩ := hsent d hd
      exact ⟨data.neighbour, hknown, by simp [EmulatorARPData.neighbour, hlink], rfl, rfl⟩

theorem schedulePkts_sends (pkt : List UInt8) (draw : Int → Int × Bool) (order : List Int)
    (e : Emulator δ) : Sends e (order.foldl (schedulePkt pkt draw) e) := by
  induction order generalizing e with
  | nil => exact Sends.refl e
  | cons destAddr order ih => exact (schedulePkt_sends pkt draw e destAddr).trans (ih _)

/-- A call that passes the check reads the trawler's lines and then sends. -/
theorem sendPkt_sends {e : Emulator δ} {src dest : Int} {pkt : List UInt8}
    (h : RuntimeManager.sendPkt src dest pkt = .ok ()) (received : Str) (order : List Int)
    (draw : Int → Int × Bool) :
    Sends (e.refreshARP F received) (e.sendPkt F src dest pkt received order draw).1 := by
  unfold sendPkt
  simp only [h]
  cases EmulatorPacket.make dest src pkt with
  | error err => exact Sends.refl _
  | ok epkt =>
      simp only
      split_ifs
      · exact Sends.refl _
      · exact schedulePkts_sends _ _ _ _
      · exact schedulePkt_sends _ _ _ _
      · exact Sends.refl _

theorem neighbour_sendPkt (e : Emulator δ) (src dest : Int) (pkt : List UInt8) (received : Str)
    (order : List Int) (draw : Int → Int × Bool) (n : Int) :
    (e.sendPkt F src dest pkt received order draw).1.neighbour n =
      (e.notices F (.sendPkt src dest pkt received order draw)).foldl (Notice.after n)
        (e.neighbour n) := by
  simp only [notices]
  cases h : RuntimeManager.sendPkt src dest pkt with
  | error err =>
      unfold sendPkt
      simp only [h]
      rfl
  | ok _ =>
      rw [(sendPkt_sends h received order draw).neighbour n]
      exact e.neighbour_refreshARP received n

theorem neighbour_step (e : Emulator δ) (ev : Event) (n : Int) :
    (e.step F ev).neighbour n = (e.notices F ev).foldl (Notice.after n) (e.neighbour n) := by
  cases ev with
  | refreshARP received => exact e.neighbour_refreshARP received n
  | processUdpPacket data ip port => exact e.neighbour_processUdpPacket data ip port n
  | sendPkt src dest pkt received order draw => exact e.neighbour_sendPkt ..

/-- The notices of a run decide what is known of every node. -/
theorem neighbour_run (e : Emulator δ) (evs : List Event) (n : Int) :
    (run (step F) e evs).neighbour n = (e.history F evs).foldl (Notice.after n) (e.neighbour n) := by
  induction evs generalizing e with
  | nil => rfl
  | cons ev evs ih => rw [run_cons, ih, history, List.foldl_append, neighbour_step]

theorem sendPkt_dispatched (e : Emulator δ) (src dest : Int) (pkt : List UInt8) (received : Str)
    (order : List Int) (draw : Int → Int × Bool) :
    ∃ sent, (e.step F (.sendPkt src dest pkt received order draw)).dispatched =
        e.dispatched ++ sent ∧
      ∀ d ∈ sent, ∃ k, (e.step F (.sendPkt src dest pkt received order draw)).neighbour d.destAddr =
        some k ∧ d.Follows k := by
  simp only [step]
  cases h : RuntimeManager.sendPkt src dest pkt with
  | error err =>
      refine ⟨[], ?_, fun _ hd => absurd hd List.not_mem_nil⟩
      simp only [sendPkt, h, List.append_nil]
  | ok _ =>
      obtain ⟨hknown, sent, hsent, hall⟩ := sendPkt_sends (F := F) h received order draw
      refine ⟨sent, by rw [hsent, refreshARP_eq], ?_⟩
      intro d hd
      rw [hknown]
      exact hall d hd

/-- **Removal and pacing.**  Nothing is sent to a node whose last notice was a remove or a reset, and
what is sent to a node added with options goes through a link with these options, as long as its
packets come from the endpoint it was added with. -/
theorem removed_or_paced (F : Floats δ) (node : Int) (evs : List Event) (src dest : Int)
    (pkt : List UInt8) (received : Str) (order : List Int) (draw : Int → Int × Bool) (n : Int) :
    ∃ sent, (run (step F) (new node)
          (evs ++ [.sendPkt src dest pkt received order draw])).dispatched =
        (run (step F) (new node) evs).dispatched ++ sent ∧
      (∀ before c after,
        (new node).history F (evs ++ [.sendPkt src dest pkt received order draw]) =
          before ++ .command c :: after →
        (c = .remove n ∨ c = .reset) → (∀ x ∈ after, ¬ x.About n) →
        ∀ d ∈ sent, d.destAddr ≠ n) ∧
      ∀ before ipAddress udpPort options after,
        (new node).history F (evs ++ [.sendPkt src dest pkt received order draw]) =
          before ++ .command (.add n ipAddress udpPort (some options)) :: after →
        (∀ x ∈ after, x.About n → x = .packet n ipAddress udpPort) →
        ∀ d ∈ sent, d.destAddr = n → ∃ link timeToDeliver datagram,
          d = .paced n link timeToDeliver datagram ∧ link.options = options := by
  obtain ⟨sent, hsent, hall⟩ :=
    sendPkt_dispatched (F := F) (run (step F) (new node) evs) src dest pkt received order draw
  have hknown : ∀ n, ((run (step F) (new node) evs).step F
      (.sendPkt src dest pkt received order draw)).neighbour n =
        ((new node).history F (evs ++ [.sendPkt src dest pkt received order draw])).foldl
          (Notice.after n) none := by
    intro n
    have h := (new node).neighbour_run (F := F)
      (evs ++ [.sendPkt src dest pkt received order draw]) n
    rwa [run_append] at h
  rw [run_append]
  refine ⟨sent, hsent, ?_, ?_⟩
  · intro before c after hhistory hc hafter d hd hdest
    obtain ⟨k, hk, _⟩ := hall d hd
    rw [hdest, hknown, hhistory, Notice.foldl_after_removed hc hafter] at hk
    cases hk
  · intro before ipAddress udpPort options after hhistory hafter d hd hdest
    obtain ⟨k, hk, hfollows⟩ := hall d hd
    rw [hdest, hknown, hhistory, Notice.foldl_after_added hafter] at hk
    obtain rfl := Option.some.inj hk
    cases d with
    | direct destAddr datagram => cases hfollows.1
    | paced destAddr link timeToDeliver datagram =>
        have hdest : destAddr = n := hdest
        subst hdest
        exact ⟨link, timeToDeliver, datagram, rfl, (Option.some.inj hfollows.1).symm⟩

/-- A neighbour that is removed, and one whose packet comes from the endpoint it was added with. -/
theorem removed_or_paced_two_runs :
    (let add := .refreshARP "add 2 10.0.0.7 5000 lossRate 0.5 delay 1 bw 10000 bt 250\n".toList
    let packet := .processUdpPacket [1, 2, 12, 1, 2, 15, 0, 9, 0, 0, 0, 0] "10.0.0.7".toList 5000
    let remove := .refreshARP "remove 2\n".toList
    let send := .sendPkt 1 2 [2, 1, 15, 0, 9, 0, 0, 0, 0] [] [] fun _ => (0, false)
    (∃ sent, (run (step Floats.halves) (new 1) ([add, packet, remove] ++ [send])).dispatched =
        (run (step Floats.halves) (new 1) [add, packet, remove]).dispatched ++ sent ∧
      ∀ d ∈ sent, d.destAddr ≠ 2) ∧
    ∃ sent, (run (step Floats.halves) (new 1) ([add, packet] ++ [send])).dispatched =
        (run (step Floats.halves) (new 1) [add, packet]).dispatched ++ sent ∧
      ∀ d ∈ sent, d.destAddr = 2 → ∃ link timeToDeliver datagram,
        d = .paced 2 link timeToDeliver datagram ∧ link.options = ⟨true, 1, 10000, 250⟩) := by
  constructor
  · obtain ⟨sent, hsent, hgone, _⟩ := removed_or_paced Floats.halves 1
      [.refreshARP "add 2 10.0.0.7 5000 lossRate 0.5 delay 1 bw 10000 bt 250\n".toList,
        .processUdpPacket [1, 2, 12, 1, 2, 15, 0, 9, 0, 0, 0, 0] "10.0.0.7".toList 5000,
        .refreshARP "remove 2\n".toList]
      1 2 [2, 1, 15, 0, 9, 0, 0, 0, 0] [] [] (fun _ => (0, false)) 2
    exact ⟨sent, hsent, hgone
      [.command (.add 2 "10.0.0.7".toList 5000 (some ⟨true, 1, 10000, 250⟩)),
        .packet 2 "10.0.0.7".toList 5000]
      (.remove 2) [] (by decide) (.inl rfl) (by decide)⟩
  · obtain ⟨sent, hsent, _, hpaced⟩ := removed_or_paced Floats.halves 1
      [.refreshARP "add 2 10.0.0.7 5000 lossRate 0.5 delay 1 bw 10000 bt 250\n".toList,
        .processUdpPacket [1, 2, 12, 1, 2, 15, 0, 9, 0, 0, 0, 0] "10.0.0.7".toList 5000]
      1 2 [2, 1, 15, 0, 9, 0, 0, 0, 0] [] [] (fun _ => (0, false)) 2
    exact ⟨sent, hsent, hpaced [] "10.0.0.7".toList 5000 ⟨true, 1, 10000, 250⟩
      [.packet 2 "10.0.0.7".toList 5000] (by decide) (by decide)⟩

/-- A packet that is received after a remove, or from another port after an add, is learned from: the
last command about node `2` removes it, or adds it with options, and the next packet for it is sent
at once. -/
theorem packet_undoes_commands :
    (let add := .refreshARP "add 2 10.0.0.7 5000 lossRate 0.5 delay 1 bw 10000 bt 250\n".toList
    let packet := .processUdpPacket [1, 2, 12, 1, 2, 15, 0, 9, 0, 0, 0, 0] "10.0.0.7".toList 6000
    let remove := .refreshARP "remove 2\n".toList
    let send := .sendPkt 1 2 [2, 1, 15, 0, 9, 0, 0, 0, 0] [] [] fun _ => (0, false)
    (new 1).history Floats.halves [add, remove, packet, send] =
        [.command (.add 2 "10.0.0.7".toList 5000 (some ⟨true, 1, 10000, 250⟩)), .command (.remove 2),
          .packet 2 "10.0.0.7".toList 6000] ∧
      (run (step Floats.halves) (new 1) [add, remove, packet, send]).dispatched =
        [.direct 2 ⟨[2, 1, 12, 2, 1, 15, 0, 9, 0, 0, 0, 0], "10.0.0.7".toList, 6000⟩] ∧
      (new 1).history Floats.halves [add, packet, send] =
        [.command (.add 2 "10.0.0.7".toList 5000 (some ⟨true, 1, 10000, 250⟩)),
          .packet 2 "10.0.0.7".toList 6000] ∧
      (run (step Floats.halves) (new 1) [add, packet, send]).dispatched =
        [.direct 2 ⟨[2, 1, 12, 2, 1, 15, 0, 9, 0, 0, 0, 0], "10.0.0.7".toList, 6000⟩]) := by
  decide

end neighbours

end Emulator

end NetBridge
