import NetBridge.Calls

/-! # Two managers and a network

The system of one connection: a client node and a server node, each with its manager, the
applications that use them, and the segments on their way between the two.

The client has made, bound and connected its socket (number 0), the server has made and bound its
listener (number 0) and listens; the child that `onSyn` makes is the server's number 1.  From then
on the applications `write`, `read`, `accept` and `close` on the sockets they hold, the timers
fire, and the network delivers, drops and duplicates segments in any order.  A segment that is
never delivered is late for ever.  Only the SYN is never duplicated.

`Side.written` and `Side.readOut` are the history of a side: the bytes that its `write` calls have
accepted and those that its `read` calls have returned. -/

namespace NetBridge

/-- The two ends. -/
inductive Party where
  | client
  | server
deriving DecidableEq, Repr

namespace Party

def other : Party → Party
  | client => server
  | server => client

@[simp] theorem other_other (w : Party) : w.other.other = w := by cases w <;> rfl

theorem other_ne (w : Party) : w.other ≠ w := by cases w <;> decide

theorem eq_or_eq_other (w v : Party) : v = w ∨ v = w.other := by
  cases w <;> cases v <;> simp [other]

/-- The socket of the connection. -/
def conn : Party → SockId
  | client => 0
  | server => 1

end Party

/-- The addresses and ports of a connection and the backlog of its listener. -/
structure Config where
  addr : Party → Int
  port : Party → Int
  backlog : Int
  addr_range : ∀ w, 0 ≤ addr w ∧ addr w ≤ 255
  port_range : ∀ w, 0 ≤ port w ∧ port w ≤ 255
  addr_ne : addr .client ≠ addr .server

/-- One node: its manager, the sockets its application holds, and the history of its calls. -/
structure Side where
  man : TcpManager
  handles : List SockId
  written : List UInt8
  readOut : List UInt8

namespace Side

variable (s : Side)

/-- The socket an application holds after a call: `accept` hands out another one. -/
def nextHandles : Op → List SockId
  | .accept i => s.handles ++ (s.man.accept i).2.toList
  | _ => s.handles

/-- The bytes accepted after a call. -/
def nextWritten : Op → List UInt8
  | .write now i buf pos len =>
      s.written ++ buf.slice pos (s.man.write now i buf pos len).2.toNat
  | _ => s.written

/-- The bytes returned after a call. -/
def nextReadOut : Op → List UInt8
  | .read i buf pos len => s.readOut ++ (s.man.read i buf pos len).2.2
  | _ => s.readOut

def perform (op : Op) : Side :=
  ⟨s.man.step op, s.nextHandles op, s.nextWritten op, s.nextReadOut op⟩

/-- The segments that an operation sends. -/
def emitted (op : Op) : List Sent := (s.man.step op).sent.drop s.man.sent.length

end Side

/-- What can happen in the system. -/
inductive Event where
  | write (w : Party) (now : Int) (i : SockId) (buf : Buf) (pos len : Int)
  | read (w : Party) (i : SockId) (buf : Bool) (pos len : Int)
  | accept (w : Party) (i : SockId)
  | close (w : Party) (i : SockId)
  | tick (w : Party) (now : Int)
  | deliver (n : ℕ) (now : Int)
  | drop (n : ℕ)
  | duplicate (n : ℕ)

/-- Both sides and the segments on their way. -/
structure Sys where
  side : Party → Side
  wire : List Sent

namespace Sys

variable (cfg : Config)

/-- The calls that open the connection. -/
def opening : Party → List Op
  | .client => [.socket, .bind 0 (cfg.port .client), .connect 0 (cfg.addr .server) (cfg.port .server)]
  | .server => [.socket, .bind 0 (cfg.port .server), .listen 0 cfg.backlog]

def openedMan (w : Party) : TcpManager := run TcpManager.step (.new (cfg.addr w)) (opening cfg w)

/-- The SYN has just been sent. -/
def init : Sys :=
  ⟨fun w => ⟨openedMan cfg w, [0], [], []⟩, (openedMan cfg .client).sent⟩

variable (σ : Sys)

/-- An operation at one side; what it sends goes onto the wire. -/
def act (w : Party) (op : Op) : Sys :=
  ⟨Function.update σ.side w ((σ.side w).perform op), σ.wire ++ (σ.side w).emitted op⟩

/-- The node with a given address. -/
def nodeAt (addr : Int) : Option Party :=
  if addr = cfg.addr .client then some .client
  else if addr = cfg.addr .server then some .server
  else none

/-- The operation that an event performs, and the side it performs it at. -/
def opOf : Event → Option (Party × Op)
  | .write w now i buf pos len =>
      if i ∈ (σ.side w).handles then some (w, .write now i buf pos len) else none
  | .read w i buf pos len =>
      if i ∈ (σ.side w).handles then some (w, .read i buf pos len) else none
  | .accept w i => if i ∈ (σ.side w).handles then some (w, .accept i) else none
  | .close w i => if i ∈ (σ.side w).handles then some (w, .close i) else none
  | .tick w now => some (w, .tick now)
  | .deliver n now => do
      let p ← σ.wire[n]?
      let w ← nodeAt cfg p.dest
      return (w, .receive now p.src p.seg)
  | .drop _ | .duplicate _ => none

/-- What the event leaves on the wire, before the operation sends anything. -/
def remaining : Event → List Sent
  | .deliver n _ | .drop n => σ.wire.eraseIdx n
  | .duplicate n => σ.wire ++ (σ.wire[n]?.filter fun p => p.seg.type ≠ .SYN).toList
  | .write .. | .read .. | .accept .. | .close .. | .tick .. => σ.wire

def step (e : Event) : Sys :=
  let σ' : Sys := { σ with wire := σ.remaining e }
  match σ.opOf cfg e with
  | some (w, op) => σ'.act w op
  | none => σ'

/-- The socket of the connection at one side. -/
def sock (w : Party) : TcpSocket := (σ.side w).man.sock w.conn

/-- The bytes that have reached a side: read by the application or waiting in its buffer. -/
def received (w : Party) : List UInt8 := (σ.side w).readOut ++ (σ.sock w).recvBuf

/-! ### One side at a time -/

variable {σ}

@[simp] theorem act_side_self (w : Party) (op : Op) :
    (σ.act w op).side w = (σ.side w).perform op := by simp [act]

theorem act_side_other (w : Party) (op : Op) :
    (σ.act w op).side w.other = σ.side w.other := by
  simp [act, Function.update_of_ne w.other_ne]

@[simp] theorem act_wire (w : Party) (op : Op) :
    (σ.act w op).wire = σ.wire ++ (σ.side w).emitted op := rfl

/-- An operation that an event can perform at one side; `Q` is what is known of a segment that is
delivered. -/
inductive Input (side : Side) (addr : Int) (Q : Sent → Prop) : Op → Prop
  | write (now : Int) {i : SockId} (hi : i ∈ side.handles) (buf : Buf) (pos len : Int) :
      Input side addr Q (.write now i buf pos len)
  | read {i : SockId} (hi : i ∈ side.handles) (buf : Bool) (pos len : Int) :
      Input side addr Q (.read i buf pos len)
  | accept {i : SockId} (hi : i ∈ side.handles) : Input side addr Q (.accept i)
  | close {i : SockId} (hi : i ∈ side.handles) : Input side addr Q (.close i)
  | tick (now : Int) : Input side addr Q (.tick now)
  | receive (now : Int) {p : Sent} (hp : Q p) (hdest : p.dest = addr) :
      Input side addr Q (.receive now p.src p.seg)

theorem Input.imp {side : Side} {addr : Int} {Q R : Sent → Prop} {op : Op}
    (h : Input side addr Q op) (hQR : ∀ p, Q p → R p) : Input side addr R op := by
  cases h with
  | write now hi buf pos len => exact .write now hi buf pos len
  | read hi buf pos len => exact .read hi buf pos len
  | accept hi => exact .accept hi
  | close hi => exact .close hi
  | tick now => exact .tick now
  | receive now hp hdest => exact .receive now (hQR _ hp) hdest

/-- Every operation of an event meets `G`. -/
def Meets (G : (Party → Side) → Party → Op → Prop) (σ : Sys) (e : Event) : Prop :=
  ∀ x ∈ σ.opOf cfg e, G σ.side x.1 x.2

instance (G : (Party → Side) → Party → Op → Prop) [∀ f w op, Decidable (G f w op)] (σ : Sys)
    (e : Event) : Decidable (Meets cfg G σ e) :=
  inferInstanceAs (Decidable (∀ x ∈ σ.opOf cfg e, _))

theorem nodeAt_eq_some {addr : Int} {w : Party} (h : nodeAt cfg addr = some w) :
    addr = cfg.addr w := by
  unfold nodeAt at h
  split_ifs at h with h1 h2
  · cases h
    exact h1
  · cases h
    exact h2

theorem input_of_opOf {σ : Sys} {e : Event} {w : Party} {op : Op} {Q : Sent → Prop}
    (hop : σ.opOf cfg e = some (w, op))
    (hQ : ∀ n now p, e = .deliver n now → σ.wire[n]? = some p → Q p) :
    Input (σ.side w) (cfg.addr w) Q op := by
  cases e with
  | write w' now i buf pos len =>
      simp only [opOf, Option.ite_none_right_eq_some, Option.some.injEq, Prod.mk.injEq] at hop
      obtain ⟨hi, rfl, rfl⟩ := hop
      exact .write now hi buf pos len
  | read w' i buf pos len =>
      simp only [opOf, Option.ite_none_right_eq_some, Option.some.injEq, Prod.mk.injEq] at hop
      obtain ⟨hi, rfl, rfl⟩ := hop
      exact .read hi buf pos len
  | accept w' i =>
      simp only [opOf, Option.ite_none_right_eq_some, Option.some.injEq, Prod.mk.injEq] at hop
      obtain ⟨hi, rfl, rfl⟩ := hop
      exact .accept hi
  | close w' i =>
      simp only [opOf, Option.ite_none_right_eq_some, Option.some.injEq, Prod.mk.injEq] at hop
      obtain ⟨hi, rfl, rfl⟩ := hop
      exact .close hi
  | tick w' now =>
      simp only [opOf, Option.some.injEq, Prod.mk.injEq] at hop
      obtain ⟨rfl, rfl⟩ := hop
      exact .tick now
  | deliver n now =>
      simp only [opOf, Option.bind_eq_bind, Option.bind_eq_some_iff] at hop
      obtain ⟨p, hp, w', hw', hop⟩ := hop
      cases hop
      exact .receive now (hQ n now p rfl hp) (nodeAt_eq_some cfg hw')
  | drop n => cases hop
  | duplicate n => cases hop

/-- An event performs its operation once the network has done its part. -/
theorem step_of_opOf {σ : Sys} {e : Event} {w : Party} {op : Op}
    (hop : σ.opOf cfg e = some (w, op)) :
    σ.step cfg e = ({ σ with wire := σ.remaining e } : Sys).act w op := by
  rw [step, hop]

/-- The rule for invariants of the system: the network keeps the invariant, and says `Q` of a
segment that it delivers; every operation that meets the condition keeps it. -/
theorem step_rule {I : Sys → Prop} {Q : Sys → Sent → Prop}
    {G : (Party → Side) → Party → Op → Prop}
    (hnet : ∀ σ e, I σ → I { σ with wire := σ.remaining e } ∧
      ∀ n now p, e = .deliver n now → σ.wire[n]? = some p →
        Q { σ with wire := σ.remaining e } p)
    (hact : ∀ σ w op, I σ → Input (σ.side w) (cfg.addr w) (Q σ) op → G σ.side w op →
      I (σ.act w op))
    (σ : Sys) (e : Event) (h : I σ) (hG : Meets cfg G σ e) : I (σ.step cfg e) := by
  obtain ⟨hI, hQ⟩ := hnet σ e h
  cases hop : σ.opOf cfg e with
  | none =>
      rw [step, hop]
      exact hI
  | some x =>
      obtain ⟨w, op⟩ := x
      have hin := input_of_opOf cfg hop hQ
      rw [step_of_opOf cfg hop]
      exact hact _ w op hI hin (hG (w, op) hop)

end Sys

end NetBridge
