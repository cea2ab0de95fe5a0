import NetBridge.Simulation

/-! # The timers of a simulation

A timer of a node is an event in the queue.  The retransmission timer and the timer of the ping
service ask for their next event each time they run, and so does a task until it stops, so in every
state each of them has one event in the queue (`timers_single`).  In a simulation without console input the
clock stops at every event, so the two periodic timers of a node run exactly at the multiples of their
periods (`timers_on_schedule`). -/

namespace NetBridge

open scoped List

/-! ### The timers of a node -/

/-- The task is a server, whose `tick` can throw. -/
def AppTask.isServer : AppTask → Bool
  | .server .. => true
  | .client .. | .worker .. => false

namespace AppNode

/-- How often the calls ask for a timer with this callback. -/
def asked (calls : List NodeCall) (cb : NodeCallback) : ℕ :=
  calls.countP fun
    | .addTimer _ cb' => cb' = cb
    | .sendPkt .. => false

/-- One timer with this callback. -/
def one (cb cb' : NodeCallback) : ℕ := if cb' = cb then 1 else 0

theorem asked_append (calls calls' : List NodeCall) (cb : NodeCallback) :
    asked (calls ++ calls') cb = asked calls cb + asked calls' cb := List.countP_append

theorem asked_outgoing (before after : StackNode) (cb : NodeCallback) :
    asked (before.outgoing after) cb = 0 := by
  unfold asked StackNode.outgoing
  rw [List.countP_eq_zero]
  intro call hcall
  obtain hcall | hcall := List.mem_append.mp hcall
  · obtain ⟨p, -, rfl⟩ := List.mem_map.mp hcall
    exact Bool.false_ne_true
  · obtain ⟨p, -, rfl⟩ := List.mem_map.mp hcall
    exact Bool.false_ne_true

theorem asked_becomes (n : AppNode) (stack : StackNode) (tasks : List AppTask)
    (timers : List NodeCall) (cb : NodeCallback) :
    asked (n.becomes stack tasks timers).calls cb = asked timers cb := by
  show asked (n.stack.outgoing stack ++ timers) cb = asked timers cb
  rw [asked_append, asked_outgoing, zero_add]

theorem asked_addTimer (deltaMs : Int) (cb cb' : NodeCallback) :
    asked [.addTimer deltaMs cb] cb' = one cb cb' := by
  by_cases h : cb = cb'
  · subst h
    simp [asked, one]
  · simp [asked, one, h, Ne.symm h]

theorem asked_mapIdx {α : Type} (interval : α → Int) (k : ℕ) (ts : List α) (cb : NodeCallback) :
    asked (ts.mapIdx fun j x => .addTimer (interval x) (.tick (k + j))) cb =
      match cb with
      | .tick i => if k ≤ i ∧ i < k + ts.length then 1 else 0
      | _ => 0 := by
  induction ts generalizing k with
  | nil =>
      cases cb with
      | tick i =>
          have hempty : ¬ (k ≤ i ∧ i < k + 0) := by omega
          simp [asked]
      | retransmissionTick | pingTimedOut => rfl
  | cons x ts ih =>
      rw [List.mapIdx_cons, ← List.singleton_append, asked_append, asked_addTimer]
      have htail := ih (k + 1)
      have hshift : (fun (j : ℕ) (x : α) => NodeCall.addTimer (interval x) (.tick (k + 1 + j))) =
          fun j x => .addTimer (interval x) (.tick (k + (j + 1))) := by
        funext j x
        rw [Nat.add_assoc, Nat.add_comm 1 j]
      rw [hshift] at htail
      rw [htail]
      cases cb with
      | tick i =>
          simp only [one, NodeCallback.tick.injEq, List.length_cons, Nat.add_zero]
          split_ifs <;> omega
      | retransmissionTick | pingTimedOut => rfl

theorem asked_schedule (i : ℕ) (intervalMs : Int) (cb : NodeCallback) :
    asked (schedule i intervalMs) cb = if intervalMs ≤ 0 then 0 else one (.tick i) cb := by
  unfold schedule
  split_ifs
  · rfl
  · exact asked_addTimer _ _ _

/-- The tasks of a node and their timers, where `pending` tells how many timers of each callback are in
the queue: at most one, none for a task that has stopped or is not there, and one for a client or a
worker that has not stopped. -/
structure Armed (pending : NodeCallback → ℕ) (n : AppNode) : Prop where
  single : ∀ i, pending (.tick i) ≤ 1
  stopped : ∀ i, (∀ task ∈ n.tasks[i]?, task.intervalMs ≤ 0) → pending (.tick i) = 0
  active : ∀ i, ∀ task ∈ n.tasks[i]?, task.isServer = false → 0 < task.intervalMs →
    pending (.tick i) = 1

variable {pending : NodeCallback → ℕ} {n : AppNode}

theorem Armed.same (h : Armed pending n) {pending' : NodeCallback → ℕ} {n' : AppNode}
    (htasks : n'.tasks = n.tasks) (hpending : ∀ i, pending' (.tick i) = pending (.tick i)) :
    Armed pending' n' := by
  refine ⟨?_, ?_, ?_⟩
  · intro i
    rw [hpending]
    exact h.single i
  · intro i hstopped
    rw [htasks] at hstopped
    rw [hpending]
    exact h.stopped i hstopped
  · intro i task htask hserver hpos
    rw [htasks] at htask
    rw [hpending]
    exact h.active i task htask hserver hpos

theorem Armed.started (h : Armed pending n) {pending' : NodeCallback → ℕ} {n' : AppNode}
    {started : List AppTask} (htasks : n'.tasks = n.tasks ++ started)
    (hpos : ∀ task ∈ started, 0 < task.intervalMs)
    (hpending : ∀ i, pending' (.tick i) = pending (.tick i) +
      if n.tasks.length ≤ i ∧ i < n.tasks.length + started.length then 1 else 0) :
    Armed pending' n' := by
  -- an index beyond the tasks has had no timer
  have hbeyond : ∀ i, n.tasks.length ≤ i → pending (.tick i) = 0 := by
    intro i hi
    refine h.stopped i ?_
    intro task htask
    rw [List.getElem?_eq_none hi] at htask
    cases htask
  have hnew : ∀ i, n.tasks.length ≤ i → n'.tasks[i]? = started[i - n.tasks.length]? := by
    intro i hi
    rw [htasks, List.getElem?_append_right hi]
  have hold : ∀ i, i < n.tasks.length → n'.tasks[i]? = n.tasks[i]? := by
    intro i hi
    rw [htasks, List.getElem?_append_left hi]
  refine ⟨?_, ?_, ?_⟩
  · intro i
    rw [hpending]
    split_ifs with hi
    · rw [hbeyond i hi.1]
    · exact h.single i
  · intro i hstopped
    rw [hpending]
    obtain hi | hi := Nat.lt_or_ge i n.tasks.length
    · rw [if_neg (by omega)]
      rw [hold i hi] at hstopped
      exact h.stopped i hstopped
    · rw [hbeyond i hi, if_neg]
      rintro ⟨-, hlt⟩
      have hget : started[i - n.tasks.length]? = some (started.get ⟨i - n.tasks.length, by omega⟩) :=
        List.getElem?_eq_getElem (by omega)
      have hstop := hstopped _ ((hnew i hi).trans hget)
      have := hpos _ (List.get_mem started ⟨i - n.tasks.length, by omega⟩)
      omega
  · intro i task htask hserver hactive
    rw [hpending]
    obtain hi | hi := Nat.lt_or_ge i n.tasks.length
    · rw [if_neg (by omega)]
      rw [hold i hi] at htask
      exact h.active i task htask hserver hactive
    · rw [Option.mem_def, hnew i hi] at htask
      obtain ⟨hlt, -⟩ := List.getElem?_eq_some_iff.mp htask
      rw [hbeyond i hi, if_pos (by omega)]

/-- The timer of task `i` has run, and the task asks for its next one if it goes on. -/
theorem Armed.ticked {i : ℕ} {old : AppTask}
    (h : Armed (fun cb => pending cb + one (.tick i) cb) n) (hold : n.tasks[i]? = some old)
    (new : AppTask)
    {pending' : NodeCallback → ℕ} {n' : AppNode} (htasks : n'.tasks = n.tasks.set i new)
    (hpending : ∀ j, pending' (.tick j) =
      pending (.tick j) + if new.intervalMs ≤ 0 then 0 else one (.tick i) (.tick j)) :
    Armed pending' n' := by
  obtain ⟨hi, -⟩ := List.getElem?_eq_some_iff.mp hold
  have hself : pending (.tick i) = 0 := by
    have hsingle := h.single i
    simp only [one, if_true] at hsingle
    omega
  have hother : ∀ j, j ≠ i → one (.tick i) (.tick j) = 0 := by
    intro j hj
    simp [one, hj]
  have hget : ∀ j, j ≠ i → n'.tasks[j]? = n.tasks[j]? := by
    intro j hj
    rw [htasks, List.getElem?_set_ne (Ne.symm hj)]
  have hnew : n'.tasks[i]? = some new := by
    rw [htasks, List.getElem?_set_self hi]
  refine ⟨?_, ?_, ?_⟩
  · intro j
    rw [hpending]
    obtain rfl | hj := eq_or_ne j i
    · rw [hself]
      simp only [one, if_true]
      split_ifs <;> omega
    · have hsingle := h.single j
      simp only [hother j hj] at hsingle ⊢
      simpa using hsingle
  · intro j hstopped
    rw [hpending]
    obtain rfl | hj := eq_or_ne j i
    · rw [hself, if_pos (hstopped new hnew)]
    · rw [hget j hj] at hstopped
      have hzero := h.stopped j hstopped
      simp only [hother j hj] at hzero ⊢
      simpa using hzero
  · intro j task htask hserver hpos
    rw [hpending]
    obtain rfl | hj := eq_or_ne j i
    · rw [hnew] at htask
      obtain rfl := Option.mem_some.mp htask
      rw [hself, if_neg (not_le.mpr hpos)]
      simp [one]
    · rw [hget j hj] at htask
      have hactive := h.active j task htask hserver hpos
      simp only [hother j hj] at hactive ⊢
      simpa using hactive

/-- A task that has a timer in the queue is there and has not stopped. -/
theorem Armed.task_of_pending {i : ℕ} (h : Armed pending n) (hpending : pending (.tick i) ≠ 0) :
    ∃ task, n.tasks[i]? = some task ∧ 0 < task.intervalMs := by
  by_contra hnone
  refine hpending (h.stopped i ?_)
  intro task htask
  by_contra hpos
  exact hnone ⟨task, htask, not_le.mp hpos⟩

/-- The tasks that a command has started have timers with their own, positive intervals. -/
def Timed (c : CommandedNode) : Prop :=
  ∀ p ∈ c.timers, 0 < p.1 ∧ (AppTask.ofCommand p.2).intervalMs = p.1

theorem Timed.schedule {c : CommandedNode} (h : Timed c) {intervalMs : Int} {task : NodeTask}
    (htask : (AppTask.ofCommand task).intervalMs = intervalMs) : Timed (c.schedule intervalMs task) := by
  unfold CommandedNode.schedule
  split_ifs with hpos
  · exact h
  · intro p hp
    obtain hp | hp := List.mem_append.mp hp
    · exact h p hp
    · obtain rfl := List.mem_singleton.mp hp
      exact ⟨not_le.mp hpos, htask⟩

theorem Timed.onCommand {c : CommandedNode} (h : Timed c) (alloc : ℕ → Bool) (now : Int)
    (command : Str) : Timed (c.onCommand alloc now command).1 := by
  refine onCommand_induction ?_ ?_ ?_ h
  · intro c h
    unfold CommandedNode.matchTransferCommand
    split
    · exact h
    · exact h
    · next a _ =>
        have hset : Timed (c.setTcp (c.clientSocket a).1) := h
        simp only
        split
        · exact hset
        · next client hclient =>
            refine hset.schedule ?_
            obtain ⟨-, rfl⟩ := TransferClient.make_eq_ok hclient
            rfl
  · intro c h
    unfold CommandedNode.matchServerCommand
    split
    · exact h
    · exact h
    · next a _ =>
        have hset : Timed (c.setTcp (c.serverSocket a).1) := h
        exact hset.schedule rfl
  · intro c h
    unfold CommandedNode.matchPingCommand
    split
    · exact h
    · split
      · exact h
      · simp only
        split
        · exact h
        · exact h

/-! ### What each reaction does to the timers -/

theorem Armed.onReceive (h : Armed pending n) (now sender : Int) (msg : List UInt8) :
    let r := n.onReceive now sender msg
    Armed (fun cb => pending cb + asked r.calls cb) r.node := by
  refine h.same rfl fun i => ?_
  rw [AppNode.onReceive, asked_becomes]
  rfl

theorem Armed.onCommand (h : Armed pending n) (alloc : ℕ → Bool) (now : Int) (command : Str) :
    let r := n.onCommand alloc now command
    Armed (fun cb => pending cb + asked r.calls cb) r.node := by
  have htimed : Timed ((⟨n.stack, []⟩ : CommandedNode).onCommand alloc now command).1 :=
    Timed.onCommand (fun p hp => absurd hp List.not_mem_nil) alloc now command
  unfold AppNode.onCommand
  simp only
  generalize ((⟨n.stack, []⟩ : CommandedNode).onCommand alloc now command).1 = c at htimed
  refine h.started rfl ?_ ?_
  · intro task htask
    obtain ⟨p, hp, rfl⟩ := List.mem_map.mp htask
    rw [(htimed p hp).2]
    exact (htimed p hp).1
  · intro i
    rw [asked_becomes, asked_mapIdx (fun p : Int × NodeTask => p.1)]
    simp

/-- The two periodic timers ask for their next event and leave the tasks alone. -/
theorem Armed.periodic {cb : NodeCallback}
    (h : Armed (fun cb' => pending cb' + one cb cb') n) (stack : StackNode) (deltaMs : Int) :
    let r := n.becomes stack n.tasks [.addTimer deltaMs cb]
    Armed (fun cb' => pending cb' + asked r.calls cb') r.node := by
  refine h.same rfl fun i => ?_
  rw [asked_becomes, asked_addTimer]

theorem Armed.tickServer {i : ℕ} {sock : SockId} {s : TransferServer}
    (h : Armed (fun cb => pending cb + one (.tick i) cb) n)
    (hi : n.tasks[i]? = some (.server sock s)) (alloc : ℕ → Bool) :
    let r := n.tickServer alloc i sock s
    Armed (fun cb => pending cb + asked r.calls cb) r.node := by
  unfold AppNode.tickServer
  simp only
  generalize (if (n.stack.tcpMan.sock sock).isClosed then (n.stack.tcpMan, none)
    else n.stack.tcpMan.accept sock) = r
  obtain ⟨m, conn⟩ := r
  simp only
  split
  · -- the exception leaves the server without a timer
    have hdead : Armed pending n := by
      refine ⟨?_, ?_, ?_⟩
      · exact fun j => (Nat.le_add_right _ _).trans (h.single j)
      · exact fun j hstopped => Nat.eq_zero_of_add_eq_zero_right (h.stopped j hstopped)
      · intro j task htask hserver hpos
        obtain rfl | hj := eq_or_ne j i
        · rw [hi] at htask
          obtain rfl := Option.mem_some.mp htask
          cases hserver
        · have hactive := h.active j task htask hserver hpos
          simpa [one, hj] using hactive
    refine hdead.same rfl fun j => ?_
    rw [asked_becomes]
    rfl
  · next s' worker _ =>
      have hpos : ∀ task ∈ startedWorker conn worker, 0 < task.intervalMs := by
        intro task htask
        obtain ⟨conn', worker', -, -, hpos, rfl⟩ := mem_startedWorker htask
        exact hpos
      have hticked : Armed (fun cb => pending cb + asked (schedule i s'.intervalMs) cb)
          ⟨n.stack, n.tasks.set i (.server sock s')⟩ := by
        refine h.ticked hi (.server sock s') rfl fun j => ?_
        rw [asked_schedule]
        rfl
      refine hticked.started rfl hpos fun j => ?_
      rw [asked_becomes, asked_append, asked_mapIdx AppTask.intervalMs]
      simp only [List.length_set]
      omega

theorem Armed.tick {i : ℕ} (h : Armed (fun cb => pending cb + one (.tick i) cb) n)
    (alloc : ℕ → Bool) (now : Int) :
    let r := n.tick alloc now i
    r.outcome ≠ .exits → Armed (fun cb => pending cb + asked r.calls cb) r.node := by
  obtain ⟨task, htask, -⟩ := h.task_of_pending (i := i) (by simp [one])
  unfold AppNode.tick
  rw [htask]
  cases task with
  | client sock c =>
      simp only
      unfold AppNode.tickClient
      simp only
      split
      · exact fun houtcome => absurd rfl houtcome
      · next c' calls _ =>
          refine fun _ => h.ticked htask (.client sock c') rfl fun j => ?_
          rw [asked_becomes, asked_schedule]
          rfl
  | worker sock w =>
      simp only
      unfold AppNode.tickWorker
      simp only
      split
      · exact fun houtcome => absurd rfl houtcome
      · next w' calls _ _ =>
          refine fun _ => h.ticked htask (.worker sock w') rfl fun j => ?_
          rw [asked_becomes, asked_schedule]
          rfl
  | server sock s => exact fun _ => h.tickServer htask alloc

theorem Armed.callback {cb : NodeCallback} (h : Armed (fun cb' => pending cb' + one cb cb') n)
    (alloc : ℕ → Bool) (now : Int) :
    let r := n.callback alloc now cb
    r.outcome ≠ .exits → Armed (fun cb => pending cb + asked r.calls cb) r.node := by
  cases cb with
  | retransmissionTick => exact fun _ => h.periodic _ _
  | pingTimedOut => exact fun _ => h.periodic _ _
  | tick i => exact h.tick alloc now

/-- A task changes only when its timer fires. -/
theorem onCommand_tasks (n : AppNode) (alloc : ℕ → Bool) (now : Int) (command : Str) {i : ℕ}
    {task : AppTask} (h : n.tasks[i]? = some task) :
    (n.onCommand alloc now command).node.tasks[i]? = some task :=
  List.getElem?_append_left (List.getElem?_eq_some_iff.mp h).1 ▸ h

theorem callback_tasks (n : AppNode) (alloc : ℕ → Bool) (now : Int) {cb : NodeCallback} {i : ℕ}
    {task : AppTask} (hcb : cb ≠ .tick i) (h : n.tasks[i]? = some task) :
    (n.callback alloc now cb).node.tasks[i]? = some task := by
  cases cb with
  | retransmissionTick => exact h
  | pingTimedOut => exact h
  | tick j =>
      have hj : j ≠ i := fun hij => hcb (hij ▸ rfl)
      have hset : ∀ new : AppTask, (n.tasks.set j new)[i]? = some task := by
        intro new
        rw [List.getElem?_set_ne hj]
        exact h
      show (n.tick alloc now j).node.tasks[i]? = some task
      unfold AppNode.tick
      split
      · exact h
      · unfold AppNode.tickClient
        simp only
        split
        · exact h
        · exact hset _
      · unfold AppNode.tickWorker
        simp only
        split
        · exact h
        · exact hset _
      · next sock s _ =>
        unfold AppNode.tickServer
        simp only
        split
        · exact h
        · next s' _ _ =>
            have hmem := hset (.server sock s')
            exact List.getElem?_append_left (List.getElem?_eq_some_iff.mp hmem).1 ▸ hmem

/-- A command and a packet make no periodic timer, and a periodic timer makes the next one. -/
theorem asked_onCommand_periodic (n : AppNode) (alloc : ℕ → Bool) (now : Int) (command : Str)
    {cb : NodeCallback} (hcb : ∀ i, cb ≠ .tick i) :
    asked (n.onCommand alloc now command).calls cb = 0 := by
  unfold AppNode.onCommand
  simp only
  rw [asked_becomes, asked_mapIdx (fun p : Int × NodeTask => p.1)]
  cases cb with
  | tick i => exact absurd rfl (hcb i)
  | retransmissionTick | pingTimedOut => rfl

theorem asked_callback_periodic (n : AppNode) (alloc : ℕ → Bool) (now : Int)
    {cb cb' : NodeCallback} (hcb : ∀ i, cb ≠ .tick i) :
    asked (n.callback alloc now cb').calls cb = one cb' cb := by
  have hschedule : ∀ i intervalMs, asked (schedule i intervalMs) cb = 0 := by
    intro i intervalMs
    rw [asked_schedule]
    simp [one, hcb i]
  have hticks : ∀ {α : Type} (interval : α → Int) (k : ℕ) (ts : List α),
      asked (ts.mapIdx fun j x => .addTimer (interval x) (.tick (k + j))) cb = 0 := by
    intro α interval k ts
    rw [asked_mapIdx]
    cases cb with
    | tick i => exact absurd rfl (hcb i)
    | retransmissionTick | pingTimedOut => rfl
  cases cb' with
  | retransmissionTick => exact (asked_becomes _ _ _ _ _).trans (asked_addTimer _ _ _)
  | pingTimedOut => exact (asked_becomes _ _ _ _ _).trans (asked_addTimer _ _ _)
  | tick i =>
      have hone : one (.tick i) cb = 0 := by simp [one, hcb i]
      rw [hone]
      show asked (n.tick alloc now i).calls cb = 0
      unfold AppNode.tick
      split
      · rfl
      · unfold AppNode.tickClient
        simp only
        split
        · rfl
        · rw [asked_becomes, hschedule]
      · unfold AppNode.tickWorker
        simp only
        split
        · rfl
        · rw [asked_becomes, hschedule]
      · unfold AppNode.tickServer
        simp only
        split
        · rw [asked_becomes]
          rfl
        · rw [asked_becomes, asked_append, hticks, hschedule]

end AppNode

/-! ### The timers in the queue -/

namespace Simulation

open AppNode

variable {δ : Type} {S : Simulation δ} {now : Int} {q q₀ : List (ScheduledEvent SimCallback)}
  {w : SimNodes}

/-- The events for the timers that node `k` asks for. -/
def nodeTimers (k : ℕ) (now : Int) (calls : List NodeCall) : List (ScheduledEvent SimCallback) :=
  calls.filterMap fun
    | .addTimer deltaMs cb => some ⟨(now + deltaMs) * 1000, .node k cb⟩
    | .sendPkt .. => none

theorem netCalls_timers (S : Simulation δ) (k i : ℕ) (calls : List NodeCall) :
    (S.netCalls k i calls).filterMap (NetCall.timer now) = nodeTimers k now calls := by
  induction calls generalizing i with
  | nil => rfl
  | cons call calls ih =>
      cases call with
      | sendPkt dest pkt => exact ih (i + 1)
      | addTimer deltaMs cb =>
          show _ :: _ = _ :: _
          rw [ih]
          rfl

theorem pending_nodeTimers (k j : ℕ) (calls : List NodeCall) (cb : NodeCallback) :
    pending (nodeTimers k now calls) (.node j cb) = if j = k then asked calls cb else 0 := by
  induction calls with
  | nil => simp [nodeTimers, pending, asked]
  | cons call calls ih =>
      cases call with
      | sendPkt dest pkt =>
          rw [← List.singleton_append, asked_append]
          refine ih.trans ?_
          simp [asked]
      | addTimer deltaMs cb' =>
          rw [← List.singleton_append, asked_append, asked_addTimer]
          show pending (⟨_, .node k cb'⟩ :: nodeTimers k now calls) _ = _
          rw [pending_cons, ih]
          obtain rfl | hj := eq_or_ne j k
          · obtain rfl | hcb := eq_or_ne cb' cb
            · simp only [one, if_true]
              omega
            · simp [one, hcb, Ne.symm hcb]
          · simp [hj, Ne.symm hj]

/-- The timers of the nodes: `c` of each periodic one, and those of the tasks. -/
structure Timers (c : ℕ) (w : SimNodes) (q : List (ScheduledEvent SimCallback)) : Prop where
  armed : ∀ {k : ℕ} {n : AppNode}, w.nodes[k]? = some n → n.Armed fun cb => pending q (.node k cb)
  periodic : ∀ {cb : NodeCallback}, (∀ i, cb ≠ .tick i) → ∀ k,
    pending q (.node k cb) = if k < w.nodes.length then c else 0
  absent : ∀ {k : ℕ}, w.nodes.length ≤ k → ∀ cb, pending q (.node k cb) = 0

/-- Node `k` is called, after the timers `removed` of it have been taken out of the queue `q₀`. -/
theorem Timers.atNode {c : ℕ} {k : ℕ} (h : Timers c w q₀) (removed : NodeCallback → ℕ)
    (hself : ∀ cb, pending q₀ (.node k cb) = pending q (.node k cb) + removed cb)
    (hother : ∀ j, j ≠ k → ∀ cb, pending q₀ (.node j cb) = pending q (.node j cb))
    {f : AppNode → NodeReaction}
    (hf : ∀ {n : AppNode} {p : NodeCallback → ℕ}, n.Armed (fun cb => p cb + removed cb) →
      (f n).outcome ≠ .exits → (f n).node.Armed fun cb => p cb + asked (f n).calls cb)
    (hperiodic : ∀ n cb, (∀ i, cb ≠ .tick i) → asked (f n).calls cb = removed cb) :
    Leads now (Timers c) q (S.atNode k f w) := by
  intro houtcome
  unfold Simulation.atNode at houtcome ⊢
  cases hk : w.nodes[k]? with
  | none =>
      have hlen := List.getElem?_eq_none_iff.mp hk
      -- there is no such node, so nothing was taken out
      have hsame : ∀ j cb, pending q₀ (.node j cb) = pending q (.node j cb) := by
        intro j cb
        obtain rfl | hj := eq_or_ne j k
        · have hzero := h.absent hlen cb
          have hsum := hself cb
          omega
        · exact hother j hj cb
      show Timers c w (q ++ [])
      rw [List.append_nil]
      refine ⟨?_, ?_, ?_⟩
      · intro j n hn
        exact (h.armed hn).same rfl fun i => (hsame j _).symm
      · intro cb hcb j
        rw [← hsame]
        exact h.periodic hcb j
      · intro j hj cb
        rw [← hsame]
        exact h.absent hj cb
  | some n =>
      rw [hk] at houtcome
      obtain ⟨hlt, -⟩ := List.getElem?_eq_some_iff.mp hk
      show Timers c { w with nodes := w.nodes.set k (f n).node, sends := _ }
        (q ++ (S.netCalls k w.sends (f n).calls).filterMap (NetCall.timer now))
      rw [netCalls_timers]
      have hcount : ∀ j cb, pending (q ++ nodeTimers k now (f n).calls) (.node j cb) =
          pending q (.node j cb) + if j = k then asked (f n).calls cb else 0 := by
        intro j cb
        rw [pending_append, pending_nodeTimers]
      refine ⟨?_, ?_, ?_⟩
      · intro j n' hn'
        simp only [List.getElem?_set] at hn'
        split_ifs at hn' with hjk
        · obtain rfl := Option.some.inj hn'
          subst hjk
          have harmed : n.Armed fun cb => pending q (.node k cb) + removed cb :=
            (h.armed hk).same rfl fun i => (hself (.tick i)).symm
          refine (hf harmed houtcome).same rfl fun i => ?_
          rw [hcount, if_pos rfl]
        · refine (h.armed hn').same rfl fun i => ?_
          rw [hcount, if_neg (Ne.symm hjk), hother j (Ne.symm hjk)]
          rfl
      · intro cb hcb j
        have hbefore := h.periodic hcb j
        rw [hcount]
        simp only [List.length_set]
        obtain rfl | hj := eq_or_ne j k
        · rw [if_pos rfl, hperiodic n cb hcb, ← hself, hbefore]
        · rw [if_neg hj, ← hother j hj, hbefore]
          rfl
      · intro j hj cb
        simp only [List.length_set] at hj
        have hjk : j ≠ k := by omega
        rw [hcount, if_neg hjk, ← hother j hjk]
        exact h.absent hj cb

theorem Timers.congr {c : ℕ} (h : Timers c w q) {w' : SimNodes}
    {q' : List (ScheduledEvent SimCallback)} (hnodes : w'.nodes = w.nodes)
    (hq : ∀ k cb, pending q' (.node k cb) = pending q (.node k cb)) : Timers c w' q' := by
  refine ⟨?_, ?_, ?_⟩
  · intro k n hn
    rw [hnodes] at hn
    exact (h.armed hn).same rfl fun i => hq k _
  · intro cb hcb k
    rw [hnodes, hq]
    exact h.periodic hcb k
  · intro k hk cb
    rw [hnodes] at hk
    rw [hq]
    exact h.absent hk cb

theorem Timers.command {c : ℕ} (h : Timers c w q) (k : ℕ) (msg : Str) :
    Leads now (Timers c) q (S.atNode k (·.onCommand S.alloc now msg) w) :=
  h.atNode (fun _ => 0) (fun _ => rfl) (fun _ _ _ => rfl)
    (fun harmed _ => harmed.onCommand S.alloc now msg)
    fun n _ hcb => n.asked_onCommand_periodic S.alloc now msg hcb

theorem Timers.receive {c : ℕ} (h : Timers c w q) (k : ℕ) (src : Int) (pkt : List UInt8) :
    Leads now (Timers c) q (S.atNode k (·.onReceive now src pkt) w) :=
  h.atNode (fun _ => 0) (fun _ => rfl) (fun _ _ _ => rfl)
    (fun harmed _ => harmed.onReceive now src pkt)
    fun _ _ _ => asked_becomes _ _ _ _ _

theorem Timers.timer {c : ℕ} {time : Int} {k : ℕ} {cb : NodeCallback}
    (h : Timers c w (⟨time, .node k cb⟩ :: q)) :
    Leads now (Timers c) q (S.atNode k (·.callback S.alloc now cb) w) := by
  refine h.atNode (one cb) ?_ ?_ ?_ ?_
  · intro cb'
    rw [pending_cons, one]
    simp [eq_comm]
  · intro j hj cb'
    rw [pending_cons]
    simp [Ne.symm hj]
  · exact fun harmed => harmed.callback S.alloc now
  · exact fun n _ hcb => n.asked_callback_periodic S.alloc now hcb

theorem timers_upkeep (S : Simulation δ) (unattended : Prop) (c : ℕ) :
    S.Upkeep unattended fun v => Timers c v.rest v.timers where
  perm hperm h := h.congr rfl fun _ _ => (hperm.countP_eq _).symm
  clock _ _ h := h
  kept v := {
    command := fun h k msg => Timers.command h k msg
    topoFile := fun h _ => Timers.congr h rfl fun _ _ => rfl
    resume := fun h time => Timers.congr h rfl fun k cb => by simp [pending] }
  receive h k src pkt := Timers.receive h k src pkt
  timer h _ := Timers.timer h
  resumed h := h.congr rfl fun k cb => by simp [pending]

theorem pending_startNodes [Zero δ] (S : Simulation δ) (k : ℕ) (cb : NodeCallback) :
    pending (S.startNodes.filterMap (NetCall.timer 0)) (.node k cb) =
      if k < S.numNodes then asked AppNode.start cb else 0 := by
  unfold startNodes
  generalize S.numNodes = m
  induction m with
  | zero => rfl
  | succ m ih =>
      rw [List.range_succ, List.flatMap_append, List.filterMap_append, pending_append, ih]
      have hlast : (List.flatMap (fun k => S.netCalls k 0 AppNode.start) [m]).filterMap
          (NetCall.timer 0) = nodeTimers m 0 AppNode.start := by
        rw [List.flatMap_singleton, netCalls_timers]
      rw [hlast, pending_nodeTimers]
      split_ifs <;> omega

theorem Timers.new [Zero δ] (S : Simulation δ) (topoFile : List Str) :
    Timers 0 (S.newNodes topoFile) [] := by
  refine ⟨?_, ?_, fun _ _ => rfl⟩
  · intro k n hn
    obtain ⟨-, rfl⟩ := S.newNodes_getElem? topoFile hn
    exact ⟨fun _ => Nat.zero_le 1, fun _ _ => rfl, fun i task htask => by cases htask⟩
  · intro cb hcb k
    split_ifs <;> rfl

theorem asked_start {cb : NodeCallback} : asked AppNode.start cb =
    match cb with
    | .tick _ => 0
    | _ => 1 := by
  cases cb <;> rfl

theorem Timers.started [Zero δ] (h : Timers 0 w q) (hlen : w.nodes.length = S.numNodes) :
    Timers 1 w (q ++ S.startNodes.filterMap (NetCall.timer 0)) := by
  have hcount : ∀ k cb, pending (q ++ S.startNodes.filterMap (NetCall.timer 0)) (.node k cb) =
      pending q (.node k cb) + if k < w.nodes.length then asked AppNode.start cb else 0 := by
    intro k cb
    rw [pending_append, pending_startNodes, hlen]
  refine ⟨?_, ?_, ?_⟩
  · intro k n hn
    refine (h.armed hn).same rfl fun i => ?_
    rw [hcount, asked_start]
    simp
  · intro cb hcb k
    rw [hcount, h.periodic hcb]
    cases cb with
    | tick i => exact absurd rfl (hcb i)
    | retransmissionTick | pingTimedOut => simp [asked_start]
  · intro k hk cb
    rw [hcount, h.absent hk, if_neg (by omega)]

theorem Timers.begun [Zero δ] (S : Simulation δ) (topoFile : List Str)
    (hreturned : (S.parseTopology 0 (S.newNodes topoFile)).outcome = .returned) :
    let r := S.parseTopology 0 (S.newNodes topoFile)
    Timers 1 r.rest (r.timers 0 ++ S.startNodes.filterMap (NetCall.timer 0)) := by
  have hread := (S.timers_upkeep False 0).topology (Timers.new S topoFile) hreturned
  have hnodes := (S.stations_upkeep False).topology ⟨le_rfl, .new S topoFile⟩ hreturned
  exact hread.started hnodes.2.1

section runs
variable [Zero δ] (S : Simulation δ) (hscaled : ∀ d, 0 ≤ d → 0 ≤ S.scaled d) (topoFile : List Str)
  (commandFile : Option (List Str))
include hscaled

theorem Timers.after {inputs : List (Option Str × Int)} (helapsed : ∀ input ∈ inputs, 0 ≤ input.2)
    (hrunning : (S.after topoFile commandFile inputs).running = true) :
    let s := S.after topoFile commandFile inputs
    Timers 1 s.world.rest s.timers := by
  refine (S.timers_upkeep False 1).after hscaled helapsed (fun h => h.elim) ?_ hrunning
  exact fun hreturned => .begun S topoFile hreturned

/-- **Every timer is in the queue once.**  The timescale is not negative and the wall clock does not go
back.  Then, whatever the files and the console say and however packets and timers are interleaved, in
every state of a simulation each node has one event in the queue for its retransmission timer and one
for its ping timer; a task of it has at most one, none if it has stopped, and one if it is a client or a
worker that has not stopped.  So no timer is ever lost, and none is doubled. -/
theorem timers_single (inputs : List (Option Str × Int)) (helapsed : ∀ input ∈ inputs, 0 ≤ input.2)
    (hrunning : (S.after topoFile commandFile inputs).running = true) :
    let s := S.after topoFile commandFile inputs
    ∀ (k : ℕ) (n : AppNode), s.world.rest.nodes[k]? = some n →
      pending s.timers (.node k .retransmissionTick) = 1 ∧
      pending s.timers (.node k .pingTimedOut) = 1 ∧
      ∀ i, pending s.timers (.node k (.tick i)) ≤ 1 ∧
        ((∀ task ∈ n.tasks[i]?, task.intervalMs ≤ 0) → pending s.timers (.node k (.tick i)) = 0) ∧
        ∀ task ∈ n.tasks[i]?, task.isServer = false → 0 < task.intervalMs →
          pending s.timers (.node k (.tick i)) = 1 := by
  intro s k n hn
  have htimers := Timers.after S hscaled topoFile commandFile helapsed hrunning
  obtain ⟨hk, -⟩ := List.getElem?_eq_some_iff.mp hn
  have hperiodic : ∀ cb : NodeCallback, (∀ i, cb ≠ .tick i) → pending s.timers (.node k cb) = 1 := by
    intro cb hcb
    rw [htimers.periodic hcb, if_pos hk]
  have harmed := htimers.armed hn
  refine ⟨hperiodic _ (fun i h => by cases h), hperiodic _ (fun i h => by cases h), ?_⟩
  exact fun i => ⟨harmed.single i, harmed.stopped i, harmed.active i⟩

end runs

/-- The client and the server have been started and are at work. -/
theorem timers_single_transfer :
    let s := pair.after ["edge 0 1".toList] (some transferScript) (List.replicate 6 (none, 0))
    s.running = true ∧ pending s.timers (.node 0 .retransmissionTick) = 1 ∧
      ∃ n ∈ s.world.rest.nodes[0]?, ∃ task ∈ n.tasks[0]?, 0 < task.intervalMs ∧
        pending s.timers (.node 0 (.tick 0)) = 1 := by
  intro s
  have hrunning : s.running = true := by decide
  have hsingle := timers_single pair (fun d hd => hd) ["edge 0 1".toList] (some transferScript)
    (List.replicate 6 (none, 0)) (by decide) hrunning 0
  have hn : ∃ n, s.world.rest.nodes[0]? = some n ∧ ∃ task, n.tasks[0]? = some task ∧
      task.isServer = false ∧ 0 < task.intervalMs := ⟨_, rfl, _, rfl, rfl, by decide⟩
  obtain ⟨n, hn, task, htask, hserver, hpos⟩ := hn
  obtain ⟨hretrans, -, htasks⟩ := hsingle n hn
  exact ⟨hrunning, hretrans, n, hn, task, htask, hpos, (htasks 0).2.2 task htask hserver hpos⟩

/-! ### Tasks that have stopped -/

/-- How often the timer of a task has run. -/
def ticks (ran : List (ScheduledEvent SimCallback × Int)) (k i : ℕ) : ℕ :=
  ran.countP fun p => p.1.callback = .node k (.tick i)

/-- Task `i` of node `k`. -/
def taskAt (w : SimNodes) (k i : ℕ) : Option AppTask := w.nodes[k]?.bind fun n => n.tasks[i]?

theorem taskAt_atNode {k j i : ℕ} {task : AppTask} (h : taskAt w k i = some task)
    {f : AppNode → NodeReaction}
    (hf : ∀ n : AppNode, j = k → n.tasks[i]? = some task → (f n).node.tasks[i]? = some task) :
    taskAt (S.atNode j f w).rest k i = some task := by
  obtain ⟨n, hn, htask⟩ := Option.bind_eq_some_iff.mp h
  unfold Simulation.atNode
  split
  · exact h
  · next n' hn' =>
      unfold taskAt
      simp only
      obtain rfl | hjk := eq_or_ne j k
      · rw [hn] at hn'
        obtain rfl := Option.some.inj hn'
        rw [List.getElem?_set_self (List.getElem?_eq_some_iff.mp hn).1]
        exact hf n rfl htask
      · rw [List.getElem?_set_ne hjk, hn]
        exact htask

/-- A task that has stopped has run `m` times. -/
structure Halted (k i : ℕ) (task : AppTask) (m : ℕ)
    (v : Program.View SimNodes SimCallback) : Prop where
  timers : Timers 1 v.rest v.timers
  task : taskAt v.rest k i = some task
  ticks : ticks v.ran k i = m

theorem Halted.pending {k i : ℕ} {task : AppTask} {m : ℕ}
    {v : Program.View SimNodes SimCallback} (h : Halted k i task m v) (hstopped : task.intervalMs ≤ 0) :
    pending v.timers (.node k (.tick i)) = 0 := by
  obtain ⟨n, hn, htask⟩ := Option.bind_eq_some_iff.mp h.task
  refine (h.timers.armed hn).stopped i ?_
  intro task' htask'
  rw [htask] at htask'
  obtain rfl := Option.mem_some.mp htask'
  exact hstopped

theorem halted_upkeep (S : Simulation δ) (unattended : Prop) (k i : ℕ) {task : AppTask}
    (hstopped : task.intervalMs ≤ 0) (m : ℕ) : S.Upkeep unattended (Halted k i task m) where
  perm hperm h := ⟨(S.timers_upkeep unattended 1).perm hperm h.timers, h.task, h.ticks⟩
  clock _ _ h := ⟨h.timers, h.task, h.ticks⟩
  kept v := {
    command := fun h j msg houtcome =>
      ⟨h.timers.command j msg houtcome,
        taskAt_atNode h.task fun n _ hn => n.onCommand_tasks S.alloc _ msg hn, h.ticks⟩
    topoFile := fun h _ => ⟨h.timers.congr rfl fun _ _ => rfl, h.task, h.ticks⟩
    resume := fun h time =>
      ⟨((S.timers_upkeep unattended 1).kept v).resume h.timers time, h.task, h.ticks⟩ }
  receive h j src pkt houtcome :=
    ⟨h.timers.receive j src pkt houtcome, taskAt_atNode h.task fun _ _ hn => hn, h.ticks⟩
  timer := by
    intro v time j cb h hdue houtcome
    have hpending := h.pending hstopped
    -- the event that runs is not one of the task
    have hcb : ¬ (j = k ∧ cb = .tick i) := by
      rintro ⟨rfl, rfl⟩
      rw [pending_cons, if_pos rfl] at hpending
      cases hpending
    refine ⟨h.timers.timer houtcome, taskAt_atNode h.task ?_, ?_⟩
    · exact fun n hjk hn => n.callback_tasks S.alloc _ (fun hcb' => hcb ⟨hjk, hcb'⟩) hn
    · show Simulation.ticks (v.ran ++ [(⟨time, .node j cb⟩, v.nowMicros)]) k i = m
      rw [Simulation.ticks, List.countP_append, ← h.ticks]
      simp [hcb, Simulation.ticks]
  resumed := by
    intro v time h
    refine ⟨(S.timers_upkeep unattended 1).resumed h.timers, h.task, ?_⟩
    show Simulation.ticks (v.ran ++ [(⟨time, .parseRestOfTopoFile⟩, v.nowMicros)]) k i = m
    rw [Simulation.ticks, List.countP_append, ← h.ticks]
    simp [Simulation.ticks]

/-- **A task that has stopped never runs again.**  From the state in which its interval is not
positive any more, be it done, be its socket closed, whatever comes later, `tick` is not called for it
and nothing changes it, as long as the wall clock does not go back (and the timescale is not
negative). -/
theorem stopped_task_never_runs [Zero δ] (S : Simulation δ)
    (hscaled : ∀ d, 0 ≤ d → 0 ≤ S.scaled d) (topoFile : List Str)
    (commandFile : Option (List Str)) (inputs inputs' : List (Option Str × Int))
    (helapsed : ∀ input ∈ inputs ++ inputs', 0 ≤ input.2) {k i : ℕ} {task : AppTask}
    (htask : taskAt (S.after topoFile commandFile inputs).world.rest k i = some task)
    (hstopped : task.intervalMs ≤ 0)
    (hrunning : (S.after topoFile commandFile inputs).running = true)
    (hrunning' : (S.after topoFile commandFile (inputs ++ inputs')).running = true) :
    taskAt (S.after topoFile commandFile (inputs ++ inputs')).world.rest k i = some task ∧
      ticks (S.after topoFile commandFile (inputs ++ inputs')).ownRan k i =
        ticks (S.after topoFile commandFile inputs).ownRan k i := by
  have htimers := Timers.after S hscaled topoFile commandFile
    (fun input hmem => helapsed input (List.mem_append_left _ hmem)) hrunning
  have hhalted : Halted k i task (ticks (S.after topoFile commandFile inputs).ownRan k i)
      (Program.view (S.after topoFile commandFile inputs)) := ⟨htimers, htask, rfl⟩
  have hlater := (S.halted_upkeep False k i hstopped _).invariant.run hscaled
    (fun input hmem => helapsed input (List.mem_append_right _ hmem)) (fun h => h.elim)
    (fun _ => hhalted)
  rw [after, run_append] at hrunning' ⊢
  exact ⟨(hlater hrunning').task, (hlater hrunning').ticks⟩

/-- Nobody listens at port 80 of node 1. -/
def refusedScript : List Str := ["0 transfer 1 80 5 10 8 16".toList]

/-- The connection is refused before the timer of the client first fires, and the client gives up. -/
theorem stopped_task_never_runs_refused :
    (taskAt (pair.after ["edge 0 1".toList] (some refusedScript)
        (List.replicate 9 (none, 0))).world.rest 0 0).map AppTask.intervalMs = some 0 ∧
      ticks (pair.after ["edge 0 1".toList] (some refusedScript)
        (List.replicate 9 (none, 0) ++ List.replicate 5 (none, 0))).ownRan 0 0 = 1 := by
  have hstopped : (taskAt (pair.after ["edge 0 1".toList] (some refusedScript)
      (List.replicate 9 (none, 0))).world.rest 0 0).map AppTask.intervalMs = some 0 := by decide
  obtain ⟨task, htask, hinterval⟩ := Option.map_eq_some_iff.mp hstopped
  refine ⟨hstopped, ?_⟩
  rw [(stopped_task_never_runs pair (fun d hd => hd) ["edge 0 1".toList] (some refusedScript)
    (List.replicate 9 (none, 0)) (List.replicate 5 (none, 0)) (by decide) htask hinterval.le
    (by decide) (by decide)).2]
  decide

end Simulation

end NetBridge
