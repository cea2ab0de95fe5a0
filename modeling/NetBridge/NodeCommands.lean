import NetBridge.StackNode
import NetBridge.Text
import NetBridge.Transfer

/-! # The commands of a node

`StackNode::onCommand` (`stack_node.cpp`) tries a line from the console or the command file as a
`transfer`, as a `server` and as a ping.  A matcher that throws on the way is taken as not matching,
so what it has done by then stays: `matchTransferCommand` makes its socket and sends the SYN before
it makes the buffer of the client, which is where a bad size throws. -/

namespace NetBridge

/-- A task that a command starts, with its socket. -/
inductive NodeTask where
  | client (sock : SockId) (task : TransferClient)
  | server (sock : SockId) (task : TransferServer)

/-- A node, and the timers that its commands have asked for. -/
structure CommandedNode where
  stack : StackNode
  timers : List (Int × NodeTask)

/-- The arguments of `transfer`. -/
structure TransferArgs where
  destAddr : Int
  port : Int
  localPort : Int
  amount : Int
  interval : Int
  sz : Int
deriving DecidableEq

/-- The arguments of `server`. -/
structure ServerArgs where
  port : Int
  backlog : Int
  servint : Int
  workint : Int
  sz : Int
deriving DecidableEq

def splitSpaceVec (s : Str) : List Str := s.splitOn ' '

/-- An argument that may be missing. -/
def optionalArg (args : List Str) (i : ℕ) (parse : Str → Option Int) (default : Int) : Option Int :=
  if i < args.length then parse (args.getD i []) else some default

/-- What `matchTransferCommand` reads from a line: nothing if it is not a transfer command, `none` if
a number cannot be read. -/
def transferArgs (command : Str) : Option (Option TransferArgs) :=
  let args := splitSpaceVec command
  if args.length < 5 ∨ args.length > 7 ∨ args.getD 0 [] ≠ "transfer".toList then none
  else
    some do
      let destAddr ← stoi (args.getD 1 [])
      let port ← stoi (args.getD 2 [])
      let localPort ← stoi (args.getD 3 [])
      let amount ← stoi (args.getD 4 [])
      let interval ← optionalArg args 5 stoll 1000
      let sz ← optionalArg args 6 stoi 65536
      return ⟨destAddr, port, localPort, amount, interval, sz⟩

/-- What `matchServerCommand` reads from a line. -/
def serverArgs (command : Str) : Option (Option ServerArgs) :=
  let args := splitSpaceVec command
  if args.length < 3 ∨ args.length > 6 ∨ args.getD 0 [] ≠ "server".toList then none
  else
    some do
      let port ← stoi (args.getD 1 [])
      let backlog ← stoi (args.getD 2 [])
      let servint ← optionalArg args 3 stoll 1000
      let workint ← optionalArg args 4 stoll 1000
      let sz ← optionalArg args 5 stoi 65536
      return ⟨port, backlog, servint, workint, sz⟩

/-- `stringToBytes`. -/
def stringToBytes (s : Str) : List UInt8 := s.map fun c => UInt8.ofNat c.toNat

namespace CommandedNode

variable (n : CommandedNode)

def setTcp (tcpMan : TcpManager) : CommandedNode := { n with stack := { n.stack with tcpMan } }

/-- `TimerTask::schedule`. -/
def schedule (intervalMs : Int) (task : NodeTask) : CommandedNode :=
  if intervalMs ≤ 0 then n else { n with timers := n.timers ++ [(intervalMs, task)] }

/-- The socket of a client: it is bound and its SYN is sent. -/
def clientSocket (a : TransferArgs) : TcpManager × SockId :=
  let (m, sock) := n.stack.tcpMan.socket
  let m := m.bind sock a.localPort
  ((m.connect sock a.destAddr a.port).1, sock)

/-- The socket of a server. -/
def serverSocket (a : ServerArgs) : TcpManager × SockId :=
  let (m, sock) := n.stack.tcpMan.socket
  let m := m.bind sock a.port
  ((m.listen sock a.backlog).1, sock)

/-- `matchTransferCommand`, where `alloc` tells for which sizes there is memory. -/
def matchTransferCommand (alloc : ℕ → Bool) (command : Str) : CommandedNode × Bool :=
  match transferArgs command with
  | none => (n, false)
  | some none => (n, false)
  | some (some a) =>
      let (m, sock) := n.clientSocket a
      let n := n.setTcp m
      match TransferClient.make alloc a.amount a.interval a.sz with
      | .error _ => (n, false)
      | .ok client => (n.schedule a.interval (.client sock client), true)

/-- `matchServerCommand`. -/
def matchServerCommand (command : Str) : CommandedNode × Bool :=
  match serverArgs command with
  | none => (n, false)
  | some none => (n, false)
  | some (some a) =>
      let (m, sock) := n.serverSocket a
      let n := n.setTcp m
      (n.schedule a.servint (.server sock ⟨a.workint, a.sz, a.servint⟩), true)

/-- `matchPingCommand` at clock reading `now`. -/
def matchPingCommand (now : Int) (command : Str) : CommandedNode × Bool :=
  match command.span (· ≠ ' ') with
  | (_, []) => (n, false)
  | (dest, _ :: msg) =>
      match stoi dest with
      | none => (n, false)
      | some dest =>
          let bytes := stringToBytes msg
          match Packet.make dest n.stack.addr Packet.MAX_TTL Protocol.PING_PKT 0 bytes with
          | .error _ => (n, false)
          | .ok pkt =>
              let stack := n.stack.sendPacket dest pkt
              ({ n with stack := { stack with pings := stack.pings ++ [⟨dest, bytes, now⟩] } }, true)

/-- `onCommand`; the result `false` is an unrecognized command. -/
def onCommand (alloc : ℕ → Bool) (now : Int) (command : Str) : CommandedNode × Bool :=
  match n.matchTransferCommand alloc command with
  | (n, true) => (n, true)
  | (n, false) =>
      match n.matchServerCommand command with
      | (n, true) => (n, true)
      | (n, false) => n.matchPingCommand now command

/-! ### What a rejected command leaves behind -/

/-- There is no buffer of this size. -/
def NoBuffer (alloc : ℕ → Bool) (sz : Int) : Prop := sz < 0 ∨ alloc sz.toNat = false

instance (alloc : ℕ → Bool) (sz : Int) : Decidable (NoBuffer alloc sz) :=
  inferInstanceAs (Decidable (_ ∨ _))

variable {n} {alloc : ℕ → Bool} {now : Int} {command : Str}

theorem makeBuffer_cases (alloc : ℕ → Bool) (sz : Int) :
    (NoBuffer alloc sz ∧ ∃ err, makeBuffer alloc sz = .error err) ∨
      (¬ NoBuffer alloc sz ∧ makeBuffer alloc sz = .ok (List.replicate sz.toNat 0)) := by
  unfold makeBuffer NoBuffer
  split_ifs with hneg hmem
  · exact .inl ⟨.inl hneg, _, rfl⟩
  · exact .inr ⟨by simp [hneg, hmem], rfl⟩
  · exact .inl ⟨.inr (by simpa using hmem), _, rfl⟩

theorem connect_length (m : TcpManager) {i : SockId} (hi : i < m.allSockets.length)
    (destAddr destPort : Int) :
    (m.connect i destAddr destPort).1.allSockets.length = m.allSockets.length := by
  by_cases hrejected : TcpManager.Rejected (m.sock i) destPort
  · rw [m.connect_rejected destAddr hrejected]
  · by_cases hs : Sendable m.addr destAddr (m.sock i).localPort destPort
    · obtain ⟨p, -, e⟩ := m.connect_ok hi hrejected hs
      simp [e]
    · simp [m.connect_fails hi hrejected hs]

theorem clientSocket_length (n : CommandedNode) (a : TransferArgs) :
    (n.clientSocket a).1.allSockets.length = n.stack.tcpMan.allSockets.length + 1 := by
  unfold clientSocket TcpManager.socket TcpManager.bind
  simp only
  rw [connect_length]
  · simp
  · simp

theorem matchServerCommand_rejected (h : (n.matchServerCommand command).2 = false) :
    (n.matchServerCommand command).1 = n := by
  unfold matchServerCommand at h ⊢
  split at h
  · rfl
  · rfl
  · cases h

theorem matchPingCommand_rejected (h : (n.matchPingCommand now command).2 = false) :
    (n.matchPingCommand now command).1 = n := by
  unfold matchPingCommand at h ⊢
  split at h
  · rfl
  · split at h
    · rfl
    · simp only at h ⊢
      split at h
      · rfl
      · cases h

/-- A `transfer` is accepted, or has no effect, or leaves its socket behind. -/
theorem matchTransferCommand_cases (n : CommandedNode) (alloc : ℕ → Bool) (command : Str) :
    (n.matchTransferCommand alloc command).2 = true ∨
    ((¬ ∃ a, transferArgs command = some (some a) ∧ NoBuffer alloc a.sz) ∧
      n.matchTransferCommand alloc command = (n, false)) ∨
    ∃ a, transferArgs command = some (some a) ∧ NoBuffer alloc a.sz ∧
      n.matchTransferCommand alloc command = (n.setTcp (n.clientSocket a).1, false) := by
  unfold matchTransferCommand
  cases hargs : transferArgs command with
  | none => exact .inr (.inl ⟨by simp, rfl⟩)
  | some args =>
      cases args with
      | none => exact .inr (.inl ⟨by simp, rfl⟩)
      | some a =>
          simp only [TransferClient.make]
          obtain ⟨hno, err, hbuf⟩ | ⟨hbuffer, hbuf⟩ := makeBuffer_cases alloc a.sz
          · refine .inr (.inr ⟨a, rfl, hno, ?_⟩)
            rw [hbuf]
            rfl
          · left
            rw [hbuf]
            rfl

/-- **When a rejected command has no effect**: unless it is a `transfer` with readable arguments whose
buffer cannot be made. -/
theorem rejected_command_leaves_all (n : CommandedNode) (alloc : ℕ → Bool) (now : Int)
    (command : Str) (h : (n.onCommand alloc now command).2 = false) :
    (n.onCommand alloc now command).1 = n ↔
      ¬ ∃ a, transferArgs command = some (some a) ∧ NoBuffer alloc a.sz := by
  unfold onCommand at h ⊢
  have hcases := n.matchTransferCommand_cases alloc command
  generalize n.matchTransferCommand alloc command = r at h hcases
  obtain ⟨n₁, accepted⟩ := r
  cases accepted with
  | true => cases h
  | false =>
      simp only at h ⊢
      -- the other two matchers leave the node as it is when they do not match
      have hrest : (match n₁.matchServerCommand command with
          | (n, true) => (n, true)
          | (n, false) => n.matchPingCommand now command).1 = n₁ := by
        cases hserver : n₁.matchServerCommand command with
        | mk n₂ accepted =>
            rw [hserver] at h
            cases accepted with
            | true => cases h
            | false =>
                have hsame : (n₁.matchServerCommand command).1 = n₁ :=
                  matchServerCommand_rejected (by rw [hserver])
                rw [hserver] at hsame
                obtain rfl : n₂ = n₁ := hsame
                exact matchPingCommand_rejected h
      rw [hrest]
      obtain haccepted | ⟨hno, heq⟩ | ⟨a, hargs, hbuffer, heq⟩ := hcases
      · cases haccepted
      · simp [(Prod.mk.inj heq).1, hno]
      · have hchanged : n₁ ≠ n := by
          intro hsame
          have hlength := n.clientSocket_length a
          rw [(Prod.mk.inj heq).1] at hsame
          have := congrArg (fun n : CommandedNode => n.stack.tcpMan.allSockets.length) hsame
          simp only [setTcp] at this
          omega
        simp only [hchanged, false_iff, not_not]
        exact ⟨a, hargs, hbuffer⟩

/-- A new node. -/
def new (addr : Int) : CommandedNode := ⟨.new addr, []⟩

/-- A command with a port that is not a number. -/
theorem rejected_command_bad_port :
    ((new 1).onCommand (fun _ => true) 0 "transfer 2 80 five 100".toList).2 = false ∧
      ((new 1).onCommand (fun _ => true) 0 "transfer 2 80 five 100".toList).1 = new 1 := by
  have hrejected : ((new 1).onCommand (fun _ => true) 0 "transfer 2 80 five 100".toList).2 =
      false := by decide
  refine ⟨hrejected, (rejected_command_leaves_all _ _ _ _ hrejected).mpr ?_⟩
  rintro ⟨a, hargs, -⟩
  have hnone : transferArgs "transfer 2 80 five 100".toList = some none := by decide
  rw [hnone] at hargs
  cases hargs

/-- A command with a negative size is rejected when its socket is there and its SYN is sent. -/
theorem rejected_transfer_leaves_socket :
    let r := (new 1).onCommand (fun _ => true) 0 "transfer 2 80 5 100 1000 -1".toList
    r.2 = false ∧ r.1.stack.tcpMan.allSockets.length = 1 ∧ r.1.stack.tcpMan.sent.length = 1 ∧
      (new 1).stack.tcpMan.allSockets.length = 0 := by
  decide

end CommandedNode

namespace TransferClient

theorem make_eq_ok {alloc : ℕ → Bool} {amount interval sz : Int} {c : TransferClient}
    (h : make alloc amount interval sz = .ok c) :
    0 ≤ sz ∧ c = ⟨List.replicate sz.toNat 0, amount, 0, 0, 0, interval⟩ := by
  unfold make at h
  obtain ⟨-, err, hbuf⟩ | ⟨hbuffer, hbuf⟩ := CommandedNode.makeBuffer_cases alloc sz
  · rw [hbuf] at h
    cases h
  · rw [hbuf] at h
    refine ⟨?_, (Except.ok.inj h).symm⟩
    exact not_lt.mp fun hneg => hbuffer (.inl hneg)

end TransferClient

end NetBridge
