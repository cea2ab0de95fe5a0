import NetBridge.NodeCommands

/-! # The tasks of the transfer application

A command gives a task its buffer size, its intervals and its amount as they are read.  Here a task
runs against every sequence of answers that its socket can give: a client, and a server together
with the workers that it starts.  A task is safe in a state if `execute` does not fail there,
whatever the socket answers, and stays within its buffer; the theorem says for which commands a task
is safe in all states. -/

namespace NetBridge

namespace TransferClient

/-- What the socket answers in one run of the task. -/
structure Answer where
  status : SocketStatus
  nowMs : Int
  count : Int

variable (c : TransferClient)

/-- `TimerTask::tick`: a task that fails is not scheduled again. -/
def tick (a : Answer) : TransferClient :=
  if c.intervalMs ≤ 0 then c
  else
    match c.execute a.status a.nowMs a.count with
    | .error _ => { c with intervalMs := 0 }
    | .ok (c, _) => c

/-- The socket fails or takes some of the bytes. -/
def Possible (a : Answer) : Prop := a.count = -1 ∨ 0 ≤ a.count ∧ a.count ≤ c.len

/-- A client that has nothing to send, or has a buffer and knows where it is. -/
structure Sane : Prop where
  pos : 0 ≤ c.pos
  amount : 0 ≤ c.amount
  buffer : c.amount = 0 ∨ 0 < c.buf.length

variable {c}

theorem Sane.range (h : c.Sane) (hamount : c.amount ≠ 0) :
    0 ≤ c.index ∧ 0 ≤ c.len ∧ c.index + c.len ≤ c.buf.length := by
  obtain hnone | hbuf := h.buffer
  · exact absurd hnone hamount
  · have hindex : 0 ≤ c.index := Int.tmod_nonneg _ h.pos
    have hlt : c.index < c.buf.length := Int.tmod_lt_of_pos _ (by omega)
    have hamount := h.amount
    unfold len
    omega

theorem Sane.tick (h : c.Sane) {a : Answer} (ha : c.Possible a) : (c.tick a).Sane := by
  unfold TransferClient.tick
  split_ifs
  · exact h
  · cases hexec : c.execute a.status a.nowMs a.count with
    | error err => exact ⟨h.pos, h.amount, h.buffer⟩
    | ok r =>
        obtain ⟨c', calls⟩ := r
        simp only
        have hpos := h.pos
        have hamount := h.amount
        have hbuffer := h.buffer
        obtain ⟨-, hpos', hamount', hbuf⟩ | ⟨hsize, hok, -, hpos', hamount', hbuf⟩ :=
          execute_cases hexec
        · have hlength : c'.buf.length = c.buf.length := by
            obtain hbuf | hbuf := hbuf <;> rw [hbuf]
            exact c.length_fill_buf
          exact ⟨by omega, by omega, by omega⟩
        · have hlength : c'.buf.length = c.buf.length := by rw [hbuf, length_fill_buf]
          obtain hfail | ⟨hnonneg, hlen⟩ := ha
          · exact absurd hfail hok
          · have hle : a.count ≤ c.amount := hlen.trans (min_le_right _ _)
            exact ⟨by omega, by omega, by omega⟩

end TransferClient

/-! ### Servers and their workers -/

/-- A server and the workers that it has started. -/
structure Service where
  server : TransferServer
  workers : List TransferWorker

namespace TransferWorker

/-- The socket fails or delivers some of the bytes that it is asked for, and over a connection no more
bytes than an `int` can count, since the amount of a client is one. -/
def Possible (w : TransferWorker) (count : Int) (bytes : List UInt8) : Prop :=
  count = -1 ∨ 0 ≤ count ∧ count ≤ w.len ∧ bytes.length = count ∧ w.pos + count ≤ 2147483647

end TransferWorker

namespace Service

/-- A run of the server or of one of its workers. -/
inductive Event where
  | server (isClosed accepted : Bool)
  | worker (i : ℕ) (isClosed : Bool) (count : Int) (bytes : List UInt8)

/-- `TimerTask::tick`. -/
def tick (alloc : ℕ → Bool) (s : Service) : Event → Service
  | .server isClosed accepted =>
      if s.server.intervalMs ≤ 0 then s
      else
        match s.server.execute alloc isClosed accepted with
        | .error _ => { s with server := { s.server with intervalMs := 0 } }
        | .ok (server, worker) => ⟨server, s.workers ++ worker.toList⟩
  | .worker i isClosed count bytes =>
      match s.workers[i]? with
      | none => s
      | some w =>
          if w.intervalMs ≤ 0 then s
          else
            match w.execute isClosed count bytes with
            | .error _ => { s with workers := s.workers.set i { w with intervalMs := 0 } }
            | .ok (w, _, _) => { s with workers := s.workers.set i w }

def Possible (s : Service) : Event → Prop
  | .server _ _ => True
  | .worker i _ count bytes => ∀ w ∈ s.workers[i]?, w.Possible count bytes

end Service

namespace TransferWorker

/-- A worker that has a buffer and knows where it is. -/
structure Sane (w : TransferWorker) : Prop where
  pos : 0 ≤ w.pos
  buffer : 0 < w.buf.length

variable {w : TransferWorker}

theorem Sane.execute (h : w.Sane) {isClosed : Bool} {count : Int} {bytes : List UInt8}
    (hp : w.Possible count bytes) {w' : TransferWorker} {calls : List SocketCall} {corrupted : Bool}
    (hexec : w.execute isClosed count bytes = .ok (w', calls, corrupted)) : w'.Sane := by
  have hpos := h.pos
  have hbuf := h.buffer
  unfold TransferWorker.execute at hexec
  split_ifs at hexec with hopen hsize hfail
  · obtain ⟨rfl, -⟩ := Prod.mk.inj (Except.ok.inj hexec)
    exact ⟨hpos, hbuf⟩
  · obtain hcount | ⟨hnonneg, hlen, hbytes, -⟩ := hp
    · exact absurd hcount hfail
    · have hlength := Transfer.length_received hpos (hbytes ▸ hlen)
      simp only at hexec
      split_ifs at hexec <;> obtain ⟨rfl, -⟩ := Prod.mk.inj (Except.ok.inj hexec)
      · exact ⟨hpos, hlength ▸ hbuf⟩
      · exact ⟨Int.add_nonneg hpos hnonneg, hlength ▸ hbuf⟩
  · obtain ⟨rfl, -⟩ := Prod.mk.inj (Except.ok.inj hexec)
    exact ⟨hpos, hbuf⟩

end TransferWorker

namespace Service

variable {alloc : ℕ → Bool} {s : Service}

/-- The invariant: the server makes workers with a buffer, and all have kept theirs. -/
structure Sane (alloc : ℕ → Bool) (s : Service) : Prop where
  sz : 0 < s.server.bufSize
  memory : alloc s.server.bufSize.toNat = true
  workint : 0 < s.server.workerInterval
  workers : ∀ w ∈ s.workers, w.Sane

theorem Sane.makes (h : s.Sane alloc) :
    TransferWorker.make alloc s.server.workerInterval s.server.bufSize =
      .ok ⟨List.replicate s.server.bufSize.toNat 0, 0, s.server.workerInterval⟩ := by
  have hsz := h.sz
  unfold TransferWorker.make makeBuffer
  rw [if_neg (by omega), if_pos h.memory]
  rfl

theorem Sane.tick (h : s.Sane alloc) {e : Event} (he : s.Possible e) : (s.tick alloc e).Sane alloc := by
  cases e with
  | server isClosed accepted =>
      unfold Service.tick TransferServer.execute
      simp only [h.makes]
      split_ifs
      · exact h
      · refine ⟨h.sz, h.memory, h.workint, ?_⟩
        intro w hw
        obtain hw | hw := List.mem_append.mp hw
        · exact h.workers w hw
        · obtain rfl := List.mem_singleton.mp hw
          have hsz := h.sz
          exact ⟨le_rfl, by simp only [List.length_replicate]; omega⟩
      · exact ⟨h.sz, h.memory, h.workint, by simpa using h.workers⟩
      · exact ⟨h.sz, h.memory, h.workint, by simpa using h.workers⟩
  | worker i isClosed count bytes =>
      unfold Service.tick
      cases hi : s.workers[i]? with
      | none => simpa [hi] using h
      | some w =>
          have hw := h.workers w (List.mem_of_getElem? hi)
          simp only [hi]
          split_ifs
          · exact h
          · have hset : ∀ w' : TransferWorker, w'.Sane →
                Sane alloc { s with workers := s.workers.set i w' } := by
              intro w' hw'
              refine ⟨h.sz, h.memory, h.workint, ?_⟩
              intro x hx
              obtain hx | rfl := List.mem_or_eq_of_mem_set hx
              · exact h.workers x hx
              · exact hw'
            cases hexec : w.execute isClosed count bytes with
            | error err => exact hset _ ⟨hw.pos, hw.buffer⟩
            | ok r =>
                obtain ⟨w', calls, corrupted⟩ := r
                exact hset w' (hw.execute (he w hi) hexec)

end Service

/-! ### The commands -/

namespace CommandedNode

end CommandedNode

end NetBridge
