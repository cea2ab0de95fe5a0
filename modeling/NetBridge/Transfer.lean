import Mathlib.Data.Nat.ModEq
import NetBridge.Run

/-! # The transfer application

`TransferClient`, `TransferServer` and `TransferWorker` (`transfer_client.cpp`,
`transfer_server.cpp`) are tasks that a timer runs again and again (`timer_task.cpp`).  A client
writes `amount` bytes to its socket, which it takes from a buffer that holds its own indices; a
worker reads them into a buffer of its own and compares each byte with the index at which it stands.

What a task gets from its socket is an argument of `execute`: the state of the connection, and the
value of `write` or `read` with the bytes that were read.  In a `Transfer` the worker is given the
bytes that the socket of the client has taken, in order, cut into pieces in any way.  The byte at a
position of the stream is the position modulo the size of the client's buffer, and the worker expects
the position modulo the size of its own, so the two sizes have to go together (`Compatible`). -/

namespace NetBridge

/-! ### The tasks -/

/-- What can go wrong in a task. -/
inductive TaskFault where
  | divisionByZero
  | threw (what : String)
deriving DecidableEq

/-- What a socket answers to a task. -/
structure SocketStatus where
  isConnectionPending : Bool
  isConnected : Bool
  isClosurePending : Bool
  isClosed : Bool
deriving DecidableEq

/-- A call of a task on its socket. -/
inductive SocketCall where
  | write (buf : List UInt8) (pos len : Int)
  | read (pos len : Int)
  | close
  | release
deriving DecidableEq

/-- `std::vector<std::uint8_t>(bufSize)`, where `bufSize` is an `int`.  `alloc` tells for which sizes
there is memory. -/
def makeBuffer (alloc : ℕ → Bool) (bufSize : Int) : Except TaskFault (List UInt8) :=
  if bufSize < 0 then .error (.threw "cannot create std::vector larger than max_size()")
  else if alloc bufSize.toNat then .ok (List.replicate bufSize.toNat 0)
  else .error (.threw "std::bad_alloc")

structure TransferClient where
  buf : List UInt8
  amount : Int
  startTime : Int
  finishTime : Int
  pos : Int
  intervalMs : Int
deriving DecidableEq

structure TransferWorker where
  buf : List UInt8
  pos : Int
  intervalMs : Int
deriving DecidableEq

structure TransferServer where
  workerInterval : Int
  bufSize : Int
  intervalMs : Int
deriving DecidableEq

/-- The buffer that a client fills with its indices. -/
def indices (size : ℕ) : List UInt8 := (List.range size).map UInt8.ofNat

namespace TransferClient

/-- The constructor. -/
def make (alloc : ℕ → Bool) (amount intervalMs bufSize : Int) : Except TaskFault TransferClient :=
  (makeBuffer alloc bufSize).map fun buf => ⟨buf, amount, 0, 0, 0, intervalMs⟩

variable (c : TransferClient)

/-- Where the next byte stands in the buffer. -/
def index : Int := c.pos.tmod c.buf.length

/-- How many bytes are offered to the socket. -/
def len : Int := min (c.buf.length - c.index) c.amount

/-- The first run on a connection stores the time. -/
def begun (nowMs : Int) : TransferClient :=
  if c.startTime = 0 then { c with startTime := nowMs } else c

/-- At the begin of the buffer it is filled with its indices. -/
def fill : TransferClient := if c.index = 0 then { c with buf := indices c.buf.length } else c

/-- `TransferClient::execute`, where `count` is what `write` returns. -/
def execute (status : SocketStatus) (nowMs count : Int) :
    Except TaskFault (TransferClient × List SocketCall) :=
  if status.isConnectionPending then .ok (c, [])
  else if status.isConnected then
    let c := c.begun nowMs
    if c.amount = 0 then .ok (c, [.close])
    else if c.buf.length = 0 then .error .divisionByZero
    else
      let c := c.fill
      let call : SocketCall := .write c.buf c.index c.len
      if count = -1 then .ok ({ c with intervalMs := 0 }, [call, .release])
      else .ok ({ c with pos := c.pos + count, amount := c.amount - count }, [call])
  else if status.isClosurePending then .ok (c, [])
  else if status.isClosed then .ok ({ c with finishTime := nowMs, intervalMs := 0 }, [.release])
  else .ok (c, [])

end TransferClient

namespace TransferWorker

/-- The constructor. -/
def make (alloc : ℕ → Bool) (intervalMs bufSize : Int) : Except TaskFault TransferWorker :=
  (makeBuffer alloc bufSize).map fun buf => ⟨buf, 0, intervalMs⟩

variable (w : TransferWorker)

/-- Where the next byte is put in the buffer. -/
def index : Int := w.pos.tmod w.buf.length

/-- How many bytes the socket is asked for. -/
def len : Int := w.buf.length - w.index

/-- The buffer after `read` has put bytes into it. -/
def received (bytes : List UInt8) : List UInt8 :=
  w.buf.take w.index.toNat ++ bytes ++ w.buf.drop (w.index.toNat + bytes.length)

/-- The loop that looks for a byte that is not its index. -/
def corrupt (buf : List UInt8) (index count : ℕ) : Bool :=
  (List.range count).any fun i => buf.getD (index + i) 0 ≠ UInt8.ofNat (index + i)

/-- `TransferWorker::execute`, where `count` is what `read` returns and `bytes` is what it puts into
the buffer, and whether it reports corrupt data. -/
def execute (isClosed : Bool) (count : Int) (bytes : List UInt8) :
    Except TaskFault (TransferWorker × List SocketCall × Bool) :=
  if isClosed = false then
    if w.buf.length = 0 then .error .divisionByZero
    else
      let call : SocketCall := .read w.index w.len
      if count = -1 then .ok ({ w with intervalMs := 0 }, [call, .release], false)
      else
        let index := w.index.toNat
        let w := { w with buf := w.received bytes }
        if count > 0 ∧ corrupt w.buf index count.toNat then
          .ok ({ w with intervalMs := 0 }, [call, .release], true)
        else .ok ({ w with pos := w.pos + count }, [call], false)
  else .ok ({ w with intervalMs := 0 }, [], false)

end TransferWorker

/-- `TransferServer::execute`, where `accepted` tells whether `accept` returns a connection: the
worker that is started for it, if any. -/
def TransferServer.execute (s : TransferServer) (alloc : ℕ → Bool) (isClosed accepted : Bool) :
    Except TaskFault (TransferServer × Option TransferWorker) :=
  if isClosed = false then
    if accepted then
      (TransferWorker.make alloc s.workerInterval s.bufSize).map fun worker => (s, some worker)
    else .ok (s, none)
  else .ok ({ s with intervalMs := 0 }, none)

/-! ### A transfer -/

/-- A client and a worker at the two ends of a connection, with the bytes that the socket of the client
has taken and how many of them the socket of the worker has delivered. -/
structure Transfer where
  client : TransferClient
  worker : TransferWorker
  accepted : List UInt8
  delivered : ℕ
  corrupted : Bool

namespace Transfer

inductive Event where
  | client (status : SocketStatus) (nowMs count : Int)
  | worker (isClosed : Bool) (count : Int)

/-- The bytes that a call hands to the socket if it takes `count` of them. -/
def written (count : Int) : SocketCall → List UInt8
  | .write buf pos _ => (buf.drop pos.toNat).take count.toNat
  | _ => []

variable (t : Transfer)

/-- A task that is stopped is not run again. -/
def step : Event → Transfer
  | .client status nowMs count =>
      if t.client.intervalMs ≤ 0 then t
      else
        match t.client.execute status nowMs count with
        | .error _ => t
        | .ok (client, calls) =>
            { t with client, accepted := t.accepted ++ calls.flatMap (written count) }
  | .worker isClosed count =>
      if t.worker.intervalMs ≤ 0 then t
      else
        match t.worker.execute isClosed count ((t.accepted.drop t.delivered).take count.toNat) with
        | .error _ => t
        | .ok (worker, _, corrupted) =>
            { t with
              worker
              delivered := if isClosed then t.delivered else t.delivered + count.toNat
              corrupted := t.corrupted || corrupted }

/-- A socket fails or takes some of the bytes that it is offered; it fails or delivers some of the
bytes that it is asked for and that are there. -/
def Possible : Event → Prop
  | .client _ _ count => count = -1 ∨ 0 ≤ count ∧ count ≤ t.client.len
  | .worker _ count =>
      count = -1 ∨ 0 ≤ count ∧ count ≤ t.worker.len ∧ t.delivered + count ≤ t.accepted.length

instance : DecidablePred t.Possible
  | .client _ _ _ => inferInstanceAs (Decidable (_ ∨ _))
  | .worker _ _ => inferInstanceAs (Decidable (_ ∨ _))

/-- A transfer before its first byte: buffers of `n` and `m` bytes. -/
def start (n m : ℕ) (amount interval workint : Int) : Transfer :=
  ⟨⟨List.replicate n 0, amount, 0, 0, 0, interval⟩, ⟨List.replicate m 0, 0, workint⟩, [], 0, false⟩

end Transfer

/-! ### What a task does -/

@[simp] theorem length_indices (size : ℕ) : (indices size).length = size := by simp [indices]

namespace TransferClient

variable (c : TransferClient) (nowMs : Int)

@[simp] theorem begun_pos : (c.begun nowMs).pos = c.pos := by unfold begun; split_ifs <;> rfl

@[simp] theorem begun_amount : (c.begun nowMs).amount = c.amount := by
  unfold begun; split_ifs <;> rfl

@[simp] theorem begun_buf : (c.begun nowMs).buf = c.buf := by unfold begun; split_ifs <;> rfl

@[simp] theorem begun_intervalMs : (c.begun nowMs).intervalMs = c.intervalMs := by
  unfold begun; split_ifs <;> rfl

@[simp] theorem begun_index : (c.begun nowMs).index = c.index := by simp [index]

@[simp] theorem begun_len : (c.begun nowMs).len = c.len := by simp [len]

@[simp] theorem fill_pos : c.fill.pos = c.pos := by unfold fill; split_ifs <;> rfl

@[simp] theorem fill_amount : c.fill.amount = c.amount := by unfold fill; split_ifs <;> rfl

@[simp] theorem fill_intervalMs : c.fill.intervalMs = c.intervalMs := by
  unfold fill; split_ifs <;> rfl

theorem fill_buf : c.fill.buf = if c.index = 0 then indices c.buf.length else c.buf := by
  unfold fill; split_ifs <;> rfl

@[simp] theorem length_fill_buf : c.fill.buf.length = c.buf.length := by
  rw [fill_buf]; split_ifs <;> simp

@[simp] theorem fill_index : c.fill.index = c.index := by simp [index]

@[simp] theorem fill_len : c.fill.len = c.len := by simp [len]

variable {c nowMs}

/-- A client leaves its stream alone, or it offers bytes of its buffer to the socket, which takes some
of them. -/
theorem execute_cases {c' : TransferClient} {status : SocketStatus} {count : Int}
    {calls : List SocketCall} (h : c.execute status nowMs count = .ok (c', calls)) :
    (calls.flatMap (Transfer.written count) = [] ∧ c'.pos = c.pos ∧ c'.amount = c.amount ∧
      (c'.buf = c.buf ∨ c'.buf = c.fill.buf)) ∨
    (c.buf.length ≠ 0 ∧ count ≠ -1 ∧ calls = [.write c.fill.buf c.index c.len] ∧
      c'.pos = c.pos + count ∧ c'.amount = c.amount - count ∧ c'.buf = c.fill.buf) := by
  have hfill : (c.begun nowMs).fill.buf = c.fill.buf := by simp [fill_buf]
  unfold execute at h
  simp only [begun_amount, begun_buf] at h
  split_ifs at h with hpending hconnected hamount hsize hcount <;>
    obtain ⟨rfl, rfl⟩ := Prod.mk.inj (Except.ok.inj h)
  · exact .inl ⟨rfl, rfl, rfl, .inl rfl⟩
  · exact .inl ⟨rfl, by simp, by simp, .inl (by simp)⟩
  · refine .inl ⟨?_, by simp, by simp, .inr hfill⟩
    simp [Transfer.written, hcount]
  · refine .inr ⟨hsize, hcount, ?_, by simp, by simp, hfill⟩
    simp [hfill]
  · exact .inl ⟨rfl, rfl, rfl, .inl rfl⟩
  · exact .inl ⟨rfl, rfl, rfl, .inl rfl⟩
  · exact .inl ⟨rfl, rfl, rfl, .inl rfl⟩

end TransferClient

/-! ### The stream -/

/-- The byte at position `p` of a stream from a buffer of `size` bytes. -/
def byteAt (size p : ℕ) : UInt8 := UInt8.ofNat (p % size)

/-- The first bytes of a stream. -/
def stream (size count : ℕ) : List UInt8 := (List.range count).map (byteAt size)

theorem byteAt_eq_iff {n m p : ℕ} : byteAt n p = byteAt m p ↔ p % n % 256 = p % m % 256 := by
  unfold byteAt
  rw [← UInt8.toNat_inj, UInt8.toNat_ofNat', UInt8.toNat_ofNat']

theorem add_mod_of_lt {p i size : ℕ} (h : p % size + i < size) :
    (p + i) % size = p % size + i := by
  rw [← Nat.mod_add_mod, Nat.mod_eq_of_lt h]

/-- A part of a buffer of indices, from the place of position `p` on, is the stream from there on. -/
theorem stream_add {size p count : ℕ} (h : p % size + count ≤ size) :
    stream size (p + count) =
      stream size p ++ ((indices size).drop (p % size)).take count := by
  have hpart : ((indices size).drop (p % size)).take count =
      (List.range count).map fun i => byteAt size (p + i) := by
    apply List.ext_getElem
    · simp
      omega
    · intro i hi hi'
      have hi : i < count := by simpa using hi'
      have hmod : (p + i) % size = p % size + i := add_mod_of_lt (by omega)
      simp [indices, byteAt, hmod]
  rw [hpart]
  unfold stream
  rw [List.range_add, List.map_append, List.map_map]
  rfl

/-- The two streams agree on the first bytes. -/
def Compatible (n m : ℕ) (amount : Int) : Prop :=
  n = m ∨ ((amount ≤ n ∨ 256 ∣ n) ∧ (amount ≤ m ∨ 256 ∣ m))

instance (n m : ℕ) (amount : Int) : Decidable (Compatible n m amount) :=
  inferInstanceAs (Decidable (_ ∨ _))

/-- A buffer that is not used up, or whose size is a multiple of 256, does not show in the stream. -/
theorem byteAt_of {size p : ℕ} {amount : Int} (h : amount ≤ size ∨ 256 ∣ size) (hp : (p : Int) < amount) :
    p % size % 256 = p % 256 := by
  obtain h | h := h
  · have hlt : p < size := by omega
    rw [Nat.mod_eq_of_lt hlt]
  · exact Nat.mod_mod_of_dvd p h

theorem compatible_of_lt {n m : ℕ} {amount : Int} (hlt : n < m)
    (h : ∀ p : ℕ, (p : Int) < amount → byteAt n p = byteAt m p) :
    (amount ≤ n ∨ 256 ∣ n) ∧ (amount ≤ m ∨ 256 ∣ m) := by
  -- the streams part where the shorter buffer begins again, and then where the longer one does
  have hshort : amount ≤ n ∨ 256 ∣ n := by
    by_cases ha : amount ≤ n
    · exact .inl ha
    · have hsame := byteAt_eq_iff.mp (h n (by omega))
      rw [Nat.mod_self, Nat.mod_eq_of_lt hlt] at hsame
      exact .inr (Nat.dvd_of_mod_eq_zero hsame.symm)
  refine ⟨hshort, ?_⟩
  by_cases ha : amount ≤ m
  · exact .inl ha
  · have hsame := byteAt_eq_iff.mp (h m (by omega))
    rw [byteAt_of hshort (by omega), Nat.mod_self] at hsame
    exact .inr (Nat.dvd_of_mod_eq_zero hsame)

theorem compatible_iff {n m : ℕ} {amount : Int} :
    Compatible n m amount ↔ ∀ p : ℕ, (p : Int) < amount → byteAt n p = byteAt m p := by
  constructor
  · rintro (rfl | ⟨h, h'⟩) p hp
    · rfl
    · rw [byteAt_eq_iff, byteAt_of h hp, byteAt_of h' hp]
  · intro h
    obtain hlt | heq | hlt := lt_trichotomy n m
    · exact .inr (compatible_of_lt hlt h)
    · exact .inl heq
    · exact .inr (compatible_of_lt hlt fun p hp => (h p hp).symm).symm

namespace Transfer

/-- The invariant.  The bytes that the socket of the client has taken are those of its stream, and the
worker is where the delivery is. -/
structure Ok (n m : ℕ) (amount : Int) (t : Transfer) : Prop where
  size : t.client.buf.length = n
  filled : t.client.pos ≠ 0 → t.client.buf = indices n
  pos : t.client.pos = t.accepted.length
  sum : t.client.pos + t.client.amount = amount
  left : 0 ≤ t.client.amount ∨ t.client.pos = 0
  accepted : t.accepted = stream n t.accepted.length
  workerSize : t.worker.buf.length = m
  workerNonneg : 0 ≤ t.worker.pos
  workerPos : t.corrupted = false → t.worker.pos = t.delivered
  delivered : t.delivered ≤ t.accepted.length

variable {n m : ℕ} {amount : Int} {t : Transfer}

theorem Ok.start (n m : ℕ) (amount interval workint : Int) :
    Ok n m amount (start n m amount interval workint) := by
  refine ⟨List.length_replicate, ?_, rfl, ?_, .inr rfl, rfl, List.length_replicate, le_rfl,
    fun _ => rfl, le_rfl⟩
  · intro h
    exact absurd rfl h
  · exact zero_add amount

theorem Ok.fill_buf (h : Ok n m amount t) : t.client.fill.buf = indices n := by
  rw [TransferClient.fill_buf, h.size]
  split_ifs with hindex
  · rfl
  · apply h.filled
    intro hpos
    exact hindex (by simp [TransferClient.index, hpos])

theorem Ok.index (h : Ok n m amount t) : t.client.index = ((t.accepted.length % n : ℕ) : Int) := by
  unfold TransferClient.index
  rw [h.pos, h.size, Int.ofNat_tmod]

theorem Ok.workerIndex (h : Ok n m amount t) (hc : t.corrupted = false) :
    t.worker.index = ((t.delivered % m : ℕ) : Int) := by
  unfold TransferWorker.index
  rw [h.workerPos hc, h.workerSize, Int.ofNat_tmod]

theorem Ok.client (h : Ok n m amount t) {status : SocketStatus} {nowMs count : Int}
    (hcount : t.Possible (.client status nowMs count)) :
    Ok n m amount (t.step (.client status nowMs count)) := by
  unfold step
  simp only
  split_ifs with hstopped
  · exact h
  · cases hexec : t.client.execute status nowMs count with
    | error err => exact h
    | ok r =>
        obtain ⟨c, calls⟩ := r
        simp only
        obtain ⟨hcalls, hpos, hamount, hbuf⟩ | ⟨hsize, hok, hcalls, hpos, hamount, hbuf⟩ :=
          TransferClient.execute_cases hexec
        · rw [hcalls, List.append_nil]
          have hlength : c.buf.length = n := by
            obtain hbuf | hbuf := hbuf
            · rw [hbuf, h.size]
            · rw [hbuf, TransferClient.length_fill_buf, h.size]
          refine ⟨hlength, ?_, hpos.trans h.pos, by rw [hpos, hamount, h.sum],
            by rw [hpos, hamount]; exact h.left, h.accepted, h.workerSize, h.workerNonneg,
            h.workerPos, h.delivered⟩
          intro hne
          obtain hbuf | hbuf := hbuf
          · rw [hbuf]
            exact h.filled (hpos ▸ hne)
          · rw [hbuf, h.fill_buf]
        · obtain hfail | ⟨hnonneg, hlen⟩ := hcount
          · exact absurd hfail hok
          · have hindex := h.index
            have hsum := h.sum
            have hposn := h.pos
            simp only [TransferClient.len, h.size, hindex, le_min_iff] at hlen
            -- the socket takes the next bytes of the stream
            have htaken : calls.flatMap (written count) =
                ((indices n).drop (t.accepted.length % n)).take count.toNat := by
              simp only [hcalls, List.flatMap_cons, List.flatMap_nil, List.append_nil, written, hindex,
                Int.toNat_natCast, h.fill_buf]
            have hstream : t.accepted ++ calls.flatMap (written count) =
                stream n (t.accepted.length + count.toNat) := by
              rw [htaken, stream_add (by omega), ← h.accepted]
            have hlength : (t.accepted ++ calls.flatMap (written count)).length =
                t.accepted.length + count.toNat := by
              rw [hstream, stream, List.length_map, List.length_range]
            refine ⟨by simp [hbuf, h.size], fun _ => hbuf.trans h.fill_buf, ?_, ?_, ?_, ?_,
              h.workerSize, h.workerNonneg, h.workerPos, ?_⟩
            · simp only
              omega
            · simp only
              omega
            · simp only
              omega
            · simp only
              rw [hlength, hstream]
            · simp only
              have := h.delivered
              omega

/-- The bytes at the end of the worker are those of the client, and it expects those of its own
stream. -/
theorem Ok.corrupt_eq (h : Ok n m amount t) (hc : t.corrupted = false) {count : Int}
    (hnonneg : 0 ≤ count) (hlen : count ≤ t.worker.len)
    (hthere : t.delivered + count ≤ t.accepted.length) :
    TransferWorker.corrupt (t.worker.received ((t.accepted.drop t.delivered).take count.toNat))
        t.worker.index.toNat count.toNat =
      (List.range count.toNat).any fun i =>
        byteAt n (t.delivered + i) ≠ byteAt m (t.delivered + i) := by
  have hindex := h.workerIndex hc
  simp only [TransferWorker.len, h.workerSize, hindex] at hlen
  unfold TransferWorker.corrupt
  rw [Bool.eq_iff_iff, List.any_eq_true, List.any_eq_true]
  refine exists_congr fun i => and_congr_right fun hi => ?_
  have hi : i < count.toNat := List.mem_range.mp hi
  have hget : (t.worker.received ((t.accepted.drop t.delivered).take count.toNat)).getD
      (t.worker.index.toNat + i) 0 = byteAt n (t.delivered + i) := by
    have htake : (t.worker.buf.take t.worker.index.toNat).length = t.worker.index.toNat := by
      rw [List.length_take, h.workerSize]
      omega
    have hbyte : (t.accepted.drop t.delivered)[i]? = some (byteAt n (t.delivered + i)) := by
      rw [List.getElem?_drop, h.accepted, stream, List.getElem?_map, List.getElem?_range (by omega)]
      rfl
    rw [List.getD_eq_getElem?_getD, TransferWorker.received, List.append_assoc,
      List.getElem?_append_right (by omega), htake, Nat.add_sub_cancel_left,
      List.getElem?_append_left (by simp; omega), List.getElem?_take_of_lt hi, hbyte]
    rfl
  have hexpected : UInt8.ofNat (t.worker.index.toNat + i) = byteAt m (t.delivered + i) := by
    unfold byteAt
    rw [hindex, Int.toNat_natCast, add_mod_of_lt (by omega)]
  rw [hget, hexpected]

theorem length_received {w : TransferWorker} {bytes : List UInt8} (hpos : 0 ≤ w.pos)
    (hlen : (bytes.length : Int) ≤ w.len) : (w.received bytes).length = w.buf.length := by
  have hindex : 0 ≤ w.index := Int.tmod_nonneg _ hpos
  unfold TransferWorker.len at hlen
  unfold TransferWorker.received
  simp only [List.length_append, List.length_take, List.length_drop]
  omega

/-- What becomes of a transfer when its worker takes the next bytes and compares them. -/
def afterRead (t : Transfer) (count : Int) : Transfer :=
  let buf := t.worker.received ((t.accepted.drop t.delivered).take count.toNat)
  let delivered := t.delivered + count.toNat
  if count > 0 ∧ TransferWorker.corrupt buf t.worker.index.toNat count.toNat then
    { t with worker := { t.worker with buf, intervalMs := 0 }, delivered, corrupted := true }
  else { t with worker := { t.worker with buf, pos := t.worker.pos + count }, delivered }

theorem step_worker_read (hrun : ¬ t.worker.intervalMs ≤ 0) (hsize : t.worker.buf.length ≠ 0)
    {count : Int} (hok : count ≠ -1) : t.step (.worker false count) = t.afterRead count := by
  unfold step TransferWorker.execute afterRead
  simp only [hrun, hsize, hok, if_true, if_false, Bool.false_eq_true]
  split_ifs <;> simp

theorem step_worker_cases (t : Transfer) (isClosed : Bool) (count : Int) :
    t.step (.worker isClosed count) = t ∨
    t.step (.worker isClosed count) = { t with worker := { t.worker with intervalMs := 0 } } ∨
    (count ≠ -1 ∧ t.step (.worker isClosed count) = t.afterRead count) := by
  by_cases hstopped : t.worker.intervalMs ≤ 0
  · exact .inl (if_pos hstopped)
  · cases isClosed with
    | true =>
        refine .inr (.inl ?_)
        simp [step, TransferWorker.execute, hstopped]
    | false =>
        by_cases hsize : t.worker.buf.length = 0
        · left
          simp [step, TransferWorker.execute, hsize]
        · by_cases hfail : count = -1
          · refine .inr (.inl ?_)
            simp [step, TransferWorker.execute, hstopped, hsize, hfail]
          · exact .inr (.inr ⟨hfail, step_worker_read hstopped hsize hfail⟩)

theorem Ok.worker (h : Ok n m amount t) {isClosed : Bool} {count : Int}
    (hcount : t.Possible (.worker isClosed count)) :
    Ok n m amount (t.step (.worker isClosed count)) := by
  obtain heq | heq | ⟨hok, heq⟩ := t.step_worker_cases isClosed count
  · rw [heq]
    exact h
  · rw [heq]
    exact ⟨h.size, h.filled, h.pos, h.sum, h.left, h.accepted, h.workerSize, h.workerNonneg,
      h.workerPos, h.delivered⟩
  · obtain hfail | ⟨hnonneg, hlen, hthere⟩ := hcount
    · exact absurd hfail hok
    · have hreceived : (t.worker.received ((t.accepted.drop t.delivered).take count.toNat)).length =
          m := by
        rw [length_received h.workerNonneg, h.workerSize]
        simp only [List.length_take, List.length_drop]
        omega
      rw [heq]
      unfold afterRead
      simp only
      split_ifs with hcorrupt
      · exact ⟨h.size, h.filled, h.pos, h.sum, h.left, h.accepted, hreceived, h.workerNonneg,
          fun hc => (by cases hc), by simp only; omega⟩
      · refine ⟨h.size, h.filled, h.pos, h.sum, h.left, h.accepted, hreceived, ?_, ?_, ?_⟩
        · have := h.workerNonneg
          simp only
          omega
        · intro hc
          have := h.workerPos hc
          simp only
          omega
        · simp only
          omega

theorem Ok.worker_clean (h : Ok n m amount t) {isClosed : Bool} {count : Int}
    (hcount : t.Possible (.worker isClosed count)) (hc : t.corrupted = false)
    (hsame : ∀ p : ℕ, p < t.accepted.length → byteAt n p = byteAt m p) :
    (t.step (.worker isClosed count)).corrupted = false := by
  obtain heq | heq | ⟨hok, heq⟩ := t.step_worker_cases isClosed count
  · rw [heq, hc]
  · rw [heq]
    exact hc
  · obtain hfail | ⟨hnonneg, hlen, hthere⟩ := hcount
    · exact absurd hfail hok
    · have hclean : TransferWorker.corrupt
          (t.worker.received ((t.accepted.drop t.delivered).take count.toNat))
          t.worker.index.toNat count.toNat = false := by
        rw [h.corrupt_eq hc hnonneg hlen hthere, List.any_eq_false]
        intro i hi
        have hi := List.mem_range.mp hi
        have := hsame (t.delivered + i) (by omega)
        simpa using this
      rw [heq]
      unfold afterRead
      simp only [hclean, Bool.false_eq_true, and_false, if_false]
      exact hc

theorem Ok.step (h : Ok n m amount t) {e : Event} (he : t.Possible e) : Ok n m amount (t.step e) := by
  cases e with
  | client status nowMs count => exact h.client he
  | worker isClosed count => exact h.worker he

@[simp] theorem step_client_corrupted (status : SocketStatus) (nowMs count : Int) :
    (t.step (.client status nowMs count)).corrupted = t.corrupted := by
  unfold Transfer.step
  simp only
  split_ifs
  · rfl
  · split <;> rfl

theorem Ok.lt_amount (h : Ok n m amount t) {p : ℕ} (hp : p < t.accepted.length) :
    (p : Int) < amount := by
  have hpos := h.pos
  have hsum := h.sum
  have hleft := h.left
  omega

/-- When no corruption can be reported: the streams agree, or one of the tasks is never run. -/
def Faithful (n m : ℕ) (amount interval workint : Int) : Prop :=
  Compatible n m amount ∨ interval ≤ 0 ∨ workint ≤ 0

instance (n m : ℕ) (amount interval workint : Int) :
    Decidable (Faithful n m amount interval workint) :=
  inferInstanceAs (Decidable (_ ∨ _))

/-- What holds in a run in which nothing is reported, and why. -/
structure Clean (n m : ℕ) (amount : Int) (t : Transfer) : Prop where
  ok : Ok n m amount t
  clean : t.corrupted = false
  why : Compatible n m amount ∨ (t.client.intervalMs ≤ 0 ∧ t.accepted = []) ∨
    t.worker.intervalMs ≤ 0

theorem Clean.step (h : Clean n m amount t) {e : Event} (he : t.Possible e) :
    Clean n m amount (t.step e) := by
  have hok := h.ok.step he
  cases e with
  | client status nowMs count =>
      refine ⟨hok, by simpa using h.clean, ?_⟩
      obtain hsame | ⟨hstopped, hnone⟩ | hstopped := h.why
      · exact .inl hsame
      · refine .inr (.inl ?_)
        unfold Transfer.step
        simp only [if_pos hstopped]
        exact ⟨hstopped, hnone⟩
      · refine .inr (.inr ?_)
        unfold Transfer.step
        simp only
        split_ifs
        · exact hstopped
        · split <;> exact hstopped
  | worker isClosed count =>
      obtain hsame | ⟨hstopped, hnone⟩ | hstopped := h.why
      · refine ⟨hok, h.ok.worker_clean he h.clean fun p hp => ?_, .inl hsame⟩
        exact compatible_iff.mp hsame p (h.ok.lt_amount hp)
      · refine ⟨hok, h.ok.worker_clean he h.clean fun p hp => ?_, .inr (.inl ?_)⟩
        · rw [hnone] at hp
          cases hp
        · obtain heq | heq | ⟨-, heq⟩ := t.step_worker_cases isClosed count
          · rw [heq]
            exact ⟨hstopped, hnone⟩
          · rw [heq]
            exact ⟨hstopped, hnone⟩
          · rw [heq]
            unfold afterRead
            simp only
            split_ifs <;> exact ⟨hstopped, hnone⟩
      · have hsame : t.step (.worker isClosed count) = t := if_pos hstopped
        rw [hsame]
        exact h

/-! ### A transfer byte by byte -/

/-- The status of a socket that can send. -/
def connected : SocketStatus := ⟨false, true, false, false⟩

/-- The client sends a byte and the worker reads it. -/
def byteByByte : ℕ → List Event
  | 0 => []
  | k + 1 => byteByByte k ++ [.client connected 1 1, .worker false 1]

/-- Between two rounds all that was sent has been read. -/
structure Even (n m : ℕ) (amount : Int) (k : ℕ) (t : Transfer) : Prop where
  ok : Ok n m amount t
  accepted : t.accepted.length = k
  delivered : t.delivered = k
  client : 0 < t.client.intervalMs
  worker : 0 < t.worker.intervalMs

variable {k : ℕ}

theorem Even.possible_client (h : Even n m amount k t) (hn : 0 < n) (hk : (k : Int) < amount) :
    t.Possible (.client connected 1 1) := by
  have hindex := h.ok.index
  have hpos := h.ok.pos
  have hsum := h.ok.sum
  have hlt : t.accepted.length % n < n := Nat.mod_lt _ hn
  have haccepted := h.accepted
  refine .inr ⟨Int.one_nonneg, ?_⟩
  simp only [TransferClient.len, h.ok.size, hindex, le_min_iff]
  omega

theorem Even.client_step (h : Even n m amount k t) (hn : 0 < n) (hk : (k : Int) < amount) :
    (t.step (.client connected 1 1)).accepted.length = k + 1 ∧
      (t.step (.client connected 1 1)).delivered = k ∧
      (t.step (.client connected 1 1)).worker = t.worker ∧
      0 < (t.step (.client connected 1 1)).client.intervalMs := by
  have hok := h.ok.client (h.possible_client hn hk)
  have hpos := h.ok.pos
  have hsum := h.ok.sum
  have haccepted := h.accepted
  have hamount : t.client.amount ≠ 0 := by omega
  have hsize : t.client.buf.length ≠ 0 := by
    rw [h.ok.size]
    omega
  have hexec : t.client.execute connected 1 1 = .ok
      ({ (t.client.begun 1).fill with pos := t.client.pos + 1, amount := t.client.amount - 1 },
        [.write (t.client.begun 1).fill.buf t.client.index t.client.len]) := by
    simp [TransferClient.execute, connected, hamount, hsize]
  have hrun := h.client
  have hposn := hok.pos
  unfold Transfer.step at hposn ⊢
  simp only [if_neg (not_le.mpr hrun), hexec] at hposn ⊢
  refine ⟨by omega, h.delivered, trivial, ?_⟩
  simpa using hrun

/-- A byte that is sent and read without a report is the one that the worker expects. -/
theorem Even.round (h : Even n m amount k t) (hn : 0 < n) (hm : 0 < m) (hk : (k : Int) < amount)
    (hclean : t.corrupted = false) :
    Guarded step Possible t [.client connected 1 1, .worker false 1] ∧
      ((run step t [.client connected 1 1, .worker false 1]).corrupted = false →
        Even n m amount (k + 1) (run step t [.client connected 1 1, .worker false 1]) ∧
          byteAt n k = byteAt m k) := by
  have hclient := h.possible_client hn hk
  obtain ⟨haccepted, hdelivered, hworker, hrun⟩ := h.client_step hn hk
  have hok := h.ok.client hclient
  have hclean' : (t.step (.client connected 1 1)).corrupted = false := by simpa using hclean
  simp only [Guarded, run_cons, run_nil, and_true]
  generalize t.step (.client connected 1 1) = t₁ at *
  have hindex := hok.workerIndex hclean'
  have hlt : t₁.delivered % m < m := Nat.mod_lt _ hm
  have hlen : 1 ≤ t₁.worker.len := by
    simp only [TransferWorker.len, hok.workerSize, hindex]
    omega
  have hthere : t₁.delivered + (1 : Int) ≤ t₁.accepted.length := by omega
  have hpossible : t₁.Possible (.worker false 1) := .inr ⟨Int.one_nonneg, hlen, hthere⟩
  refine ⟨⟨hclient, hpossible⟩, ?_⟩
  intro hresult
  have hok' := hok.worker hpossible
  have hwrun : ¬ t₁.worker.intervalMs ≤ 0 := by
    rw [hworker]
    exact not_le.mpr h.worker
  have hwsize : t₁.worker.buf.length ≠ 0 := by
    rw [hok.workerSize]
    omega
  rw [step_worker_read hwrun hwsize (by decide)] at hresult hok' ⊢
  unfold afterRead at hresult hok' ⊢
  simp only at hresult hok' ⊢
  split_ifs at hresult hok' ⊢ with hcorrupt
  refine ⟨⟨hok', haccepted, by simp only; omega, hrun, not_le.mp hwrun⟩, ?_⟩
  rw [hok.corrupt_eq hclean' Int.one_nonneg hlen hthere, hdelivered] at hcorrupt
  simpa using hcorrupt

/-- If nothing is ever reported, the streams agree as far as the transfer goes. -/
theorem even_byteByByte (hn : 0 < n) (hm : 0 < m) {interval workint : Int} (hrun : 0 < interval)
    (hwork : 0 < workint)
    (hclean : ∀ events, Guarded step Possible (start n m amount interval workint) events →
      (run step (start n m amount interval workint) events).corrupted = false)
    (hk : (k : Int) ≤ amount) :
    Guarded step Possible (start n m amount interval workint) (byteByByte k) ∧
      Even n m amount k (run step (start n m amount interval workint) (byteByByte k)) ∧
      ∀ p < k, byteAt n p = byteAt m p := by
  induction k with
  | zero =>
      exact ⟨trivial, ⟨.start .., rfl, rfl, hrun, hwork⟩, fun p hp => absurd hp p.not_lt_zero⟩
  | succ k ih =>
      obtain ⟨hguard, heven, hsame⟩ := ih (by omega)
      obtain ⟨hround, hnext⟩ := heven.round hn hm (by omega) (hclean _ hguard)
      have hguard' := guarded_append.mpr ⟨hguard, hround⟩
      have hend := hclean _ hguard'
      rw [run_append] at hend
      obtain ⟨heven', hbyte⟩ := hnext hend
      refine ⟨hguard', ?_, ?_⟩
      · rw [byteByByte, run_append]
        exact heven'
      · intro p hp
        obtain hp | rfl := Nat.lt_succ_iff_lt_or_eq.mp hp
        · exact hsame p hp
        · exact hbyte

/-- **When a transfer reports no false corruption**: for all sizes of the buffers, in every run the
worker takes every byte for good and the client's position and what is left add up to what was asked
for, exactly if the streams agree or one of the tasks is never run. -/
theorem no_false_corruption_iff {n m : ℕ} (hn : 0 < n) (hm : 0 < m) (amount interval workint : Int) :
    (∀ events, Guarded step Possible (start n m amount interval workint) events →
      let t := run step (start n m amount interval workint) events
      t.corrupted = false ∧ t.client.pos + t.client.amount = amount) ↔
    Faithful n m amount interval workint := by
  constructor
  · intro hall
    by_cases hstopped : interval ≤ 0 ∨ workint ≤ 0
    · exact .inr hstopped
    · obtain ⟨hrun, hwork⟩ := not_or.mp hstopped
      refine .inl (compatible_iff.mpr fun p hp => ?_)
      have h := even_byteByByte hn hm (not_le.mp hrun) (not_le.mp hwork)
        (fun events hevents => (hall events hevents).1) (show ((p + 1 : ℕ) : Int) ≤ amount by omega)
      exact h.2.2 p p.lt_succ_self
  · intro h
    have hstart : Clean n m amount (start n m amount interval workint) := by
      refine ⟨.start .., rfl, ?_⟩
      obtain h | h | h := h
      · exact .inl h
      · exact .inr (.inl ⟨h, rfl⟩)
      · exact .inr (.inr h)
    intro events hevents
    have hclean := guarded_induction (I := Clean n m amount) (fun t e h he => h.step he) hstart hevents
    exact ⟨hclean.clean, hclean.ok.sum⟩

/-- Five bytes from a buffer of four bytes to another, cut in different ways. -/
theorem no_false_corruption_four_bytes :
    let events : List Event := [.client connected 1 3, .worker false 2, .client connected 2 1,
      .client connected 3 1, .worker false 2, .worker false 1]
    let t := run step (start 4 4 5 1000 1000) events
    t.accepted = [0, 1, 2, 3, 0] ∧ t.delivered = 5 ∧ t.corrupted = false ∧
      t.client.pos + t.client.amount = 5 := by
  intro events t
  have hsize : 0 < 4 := by decide
  have h := (no_false_corruption_iff hsize hsize 5 1000 1000).mpr (.inl (.inl rfl)) events
    (by decide)
  exact ⟨by decide, by decide, h⟩

/-- Three bytes from a buffer of two bytes to one of four: the third byte is `0` again, and the worker
expects `2`. -/
theorem short_buffer_reported_corrupt :
    Guarded step Possible (start 2 4 3 1000 1000) (byteByByte 3) ∧
      (run step (start 2 4 3 1000 1000) (byteByByte 3)).accepted = [0, 1, 0] ∧
      (run step (start 2 4 3 1000 1000) (byteByByte 3)).corrupted = true := by
  exact ⟨by decide, by decide, by decide⟩

end Transfer

end NetBridge
