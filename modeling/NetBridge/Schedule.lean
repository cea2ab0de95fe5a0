import Mathlib.Tactic.Ring
import NetBridge.NodeTimers

/-! # Timers on time

Without console input the clock of a simulation stops at every event, so a timer that asks for its next
event each time it runs keeps to its period: the retransmission timer of a node runs exactly at the
multiples of 10 ms and the ping timer at those of 10 s (`timers_on_schedule`).  What waits for one of
them then waits no longer than a bounded time, which for a ping without an answer is 20 s
(`pings_expire`). -/

namespace NetBridge

/-- The period of a timer, in milliseconds. -/
def NodeCallback.period : NodeCallback → Option Int
  | .retransmissionTick => some TcpManager.RETRANS_TICK_MS
  | .pingTimedOut => some StackNode.PING_TIMEOUT_MS
  | .tick _ => none

theorem NodeCallback.period_pos {cb : NodeCallback} {T : Int} (h : cb.period = some T) : 0 < T := by
  cases cb with
  | retransmissionTick => obtain rfl := Option.some.inj h; decide
  | pingTimedOut => obtain rfl := Option.some.inj h; decide
  | tick i => cases h

theorem NodeCallback.ne_tick {cb : NodeCallback} {T : Int} (h : cb.period = some T) :
    ∀ i, cb ≠ .tick i := by
  rintro i rfl
  cases h

namespace AppNode

theorem not_mem_of_asked {calls : List NodeCall} {cb : NodeCallback} (h : asked calls cb = 0)
    (deltaMs : Int) : .addTimer deltaMs cb ∉ calls := by
  intro hmem
  have hnot := List.countP_eq_zero.mp h _ hmem
  simp at hnot

theorem mem_callback_calls {n : AppNode} {alloc : ℕ → Bool} {now deltaMs : Int}
    {cb cb' : NodeCallback} {T : Int} (hT : cb.period = some T)
    (h : .addTimer deltaMs cb ∈ (n.callback alloc now cb').calls) : cb' = cb ∧ deltaMs = T := by
  have hcb : cb' = cb := by
    by_contra hne
    have hasked : asked (n.callback alloc now cb').calls cb = one cb' cb :=
      n.asked_callback_periodic alloc now (NodeCallback.ne_tick hT)
    rw [one, if_neg (Ne.symm hne)] at hasked
    exact not_mem_of_asked hasked deltaMs h
  subst hcb
  -- the packets come first, and the timer is the last call
  have hlast : ∀ (stack : StackNode) (period : Int),
      .addTimer deltaMs cb' ∈ (n.becomes stack n.tasks [.addTimer period cb']).calls →
        deltaMs = period := by
    intro stack period hmem
    obtain hmem | hmem := List.mem_append.mp hmem
    · exact absurd hmem (not_mem_of_asked (asked_outgoing _ _ _) _)
    · cases List.mem_singleton.mp hmem
      rfl
  refine ⟨rfl, ?_⟩
  cases cb' with
  | retransmissionTick =>
      obtain rfl := Option.some.inj hT
      exact hlast _ _ h
  | pingTimedOut =>
      obtain rfl := Option.some.inj hT
      exact hlast _ _ h
  | tick i => cases hT

/-! ### The pings of a node -/

theorem sendPacket_pings (n : StackNode) (dest : Int) (p : Packet) :
    (n.sendPacket dest p).pings = n.pings := by
  unfold StackNode.sendPacket
  split <;> rfl

theorem mem_pings_onReceive {n : AppNode} {now sender : Int} {msg : List UInt8} {ping : PingRequest}
    (h : ping ∈ (n.onReceive now sender msg).node.stack.pings) : ping ∈ n.stack.pings := by
  have h : ping ∈ (n.stack.onReceive now sender msg).pings := h
  unfold StackNode.onReceive at h
  split at h
  · exact h
  · unfold StackNode.receivePacket at h
    split_ifs at h
    · unfold StackNode.receivePing at h
      split at h
      · rwa [sendPacket_pings] at h
      · exact h
    · exact List.mem_of_mem_eraseP h
    · unfold StackNode.receiveTransport at h
      split at h
      · exact h
      · exact h
    · exact h

/-- A timer adds no ping, and the ping timer leaves none that is too old. -/
theorem mem_pings_callback {n : AppNode} {alloc : ℕ → Bool} {now : Int} {cb : NodeCallback}
    {ping : PingRequest} (h : ping ∈ (n.callback alloc now cb).node.stack.pings) :
    ping ∈ n.stack.pings ∧
      (cb = .pingTimedOut → now ≤ ping.timeSentMs + StackNode.PING_TIMEOUT_MS) := by
  cases cb with
  | retransmissionTick => exact ⟨h, fun hcb => by cases hcb⟩
  | pingTimedOut =>
      obtain ⟨hmem, hyoung⟩ := List.mem_filter.mp h
      exact ⟨hmem, fun _ => not_lt.mp (of_decide_eq_true hyoung)⟩
  | tick i =>
      refine ⟨?_, fun hcb => by cases hcb⟩
      have h : ping ∈ (n.tick alloc now i).node.stack.pings := h
      unfold AppNode.tick at h
      split at h
      · exact h
      · unfold AppNode.tickClient at h
        simp only at h
        split at h
        · exact h
        · exact h
      · unfold AppNode.tickWorker at h
        simp only at h
        split at h
        · exact h
        · exact h
      · unfold AppNode.tickServer at h
        simp only at h
        split at h
        · exact h
        · exact h

theorem mem_pings_onCommand {n : AppNode} {alloc : ℕ → Bool} {now : Int} {command : Str}
    {ping : PingRequest} (h : ping ∈ (n.onCommand alloc now command).node.stack.pings) :
    ping ∈ n.stack.pings ∨ ping.timeSentMs = now := by
  have hschedule : ∀ (c : CommandedNode) (intervalMs : Int) (task : NodeTask),
      (c.schedule intervalMs task).stack = c.stack := by
    intro c intervalMs task
    unfold CommandedNode.schedule
    split_ifs <;> rfl
  refine onCommand_induction
    (I := fun c => ∀ ping ∈ c.stack.pings, ping ∈ n.stack.pings ∨ ping.timeSentMs = now)
    ?_ ?_ ?_ (c := ⟨n.stack, []⟩) (fun ping hping => .inl hping) ping h
  · intro c hc
    unfold CommandedNode.matchTransferCommand
    split
    · exact hc
    · exact hc
    · simp only
      split
      · exact hc
      · rw [hschedule]
        exact hc
  · intro c hc
    unfold CommandedNode.matchServerCommand
    split
    · exact hc
    · exact hc
    · simp only [hschedule]
      exact hc
  · intro c hc
    unfold CommandedNode.matchPingCommand
    split
    · exact hc
    · split
      · exact hc
      · simp only
        split
        · exact hc
        · intro ping hping
          obtain hping | hping := List.mem_append.mp hping
          · rw [sendPacket_pings] at hping
            exact hc ping hping
          · right
            rw [List.mem_singleton.mp hping]

end AppNode

namespace Simulation

open AppNode

variable {δ : Type} {S : Simulation δ} {now : Int} {w : SimNodes}

theorem mem_atNode_timers {j k : ℕ} {f : AppNode → NodeReaction} {ev : ScheduledEvent SimCallback}
    {cb : NodeCallback} (h : ev ∈ (S.atNode j f w).timers now) (hev : ev.callback = .node k cb) :
    j = k ∧ ∃ n, w.nodes[k]? = some n ∧ ∃ deltaMs, .addTimer deltaMs cb ∈ (f n).calls ∧
      ev.timeToOccur = (now + deltaMs) * 1000 := by
  unfold Simulation.atNode at h
  split at h
  · cases h
  · next n hn =>
      have h : ev ∈ (S.netCalls j w.sends (f n).calls).filterMap (NetCall.timer now) := h
      rw [netCalls_timers] at h
      obtain ⟨call, hcall, hsome⟩ := List.mem_filterMap.mp h
      cases call with
      | sendPkt dest pkt => cases hsome
      | addTimer deltaMs cb' =>
          obtain rfl := Option.some.inj hsome
          obtain ⟨rfl, rfl⟩ := SimCallback.node.inj hev
          exact ⟨rfl, n, hn, deltaMs, hcall, rfl⟩

/-- The timer of node `k` with the period `T` has run at the first `j` multiples of its period, and
will run at the next. -/
structure Periodic (k : ℕ) (cb : NodeCallback) (T : Int) (j : ℕ)
    (v : Program.View SimNodes SimCallback) : Prop where
  timers : Timers 1 v.rest v.timers
  node : k < v.rest.nodes.length
  fired : fired v.ran k cb = (List.range j).map fun i : ℕ => T * 1000 * (i + 1)
  next : ∀ ev ∈ v.timers, ev.callback = .node k cb → ev.timeToOccur = T * 1000 * (j + 1)
  since : T * 1000 * j ≤ v.nowMicros
  upTo : v.nowMicros ≤ T * 1000 * (j + 1)

variable {k j : ℕ} {cb : NodeCallback} {T : Int} {v : Program.View SimNodes SimCallback}

theorem Periodic.once (h : Periodic k cb T j v) (hT : cb.period = some T) :
    pending v.timers (.node k cb) = 1 := by
  rw [h.timers.periodic (NodeCallback.ne_tick hT), if_pos h.node]

theorem Periodic.clock (h : Periodic k cb T j v) (hT : cb.period = some T) {t : Int}
    (hle : v.nowMicros ≤ t) (hevents : ∀ ev ∈ v.timers, t ≤ max v.nowMicros ev.timeToOccur) :
    Periodic k cb T j { v with nowMicros := t } := by
  have hpos : 0 < pending v.timers (.node k cb) := by
    rw [h.once hT]
    decide
  obtain ⟨ev, hev, hcb⟩ := List.countP_pos_iff.mp hpos
  have htime := h.next ev hev (of_decide_eq_true hcb)
  have hbound := hevents ev hev
  have hupTo := h.upTo
  refine ⟨h.timers, h.node, h.fired, h.next, h.since.trans hle, ?_⟩
  show t ≤ T * 1000 * (j + 1)
  rw [htime] at hbound
  omega

/-- Nodes are called, with no event of the timer. -/
theorem Periodic.leads (h : Periodic k cb T j v) {r : Reaction δ}
    (htimers : Leads (v.nowMicros.tdiv 1000) (Timers 1) v.timers r)
    (hlength : r.rest.nodes.length = v.rest.nodes.length)
    (hnone : ∀ ev ∈ r.timers (v.nowMicros.tdiv 1000), ev.callback ≠ .node k cb) :
    Leads (v.nowMicros.tdiv 1000) (onNodes (Periodic k cb T j) v) v.timers r := by
  intro houtcome
  refine ⟨htimers houtcome, ?_, h.fired, ?_, h.since, h.upTo⟩
  · show k < r.rest.nodes.length
    rw [hlength]
    exact h.node
  · intro ev hev hcb
    obtain hev | hev := List.mem_append.mp hev
    · exact h.next ev hev hcb
    · exact absurd hcb (hnone ev hev)

/-- The timer runs, when its time has come and not later, and asks for its next event. -/
theorem Periodic.tick (hT : cb.period = some T) {time : Int}
    (h : Periodic k cb T j { v with timers := ⟨time, .node k cb⟩ :: v.timers })
    (hdue : time ≤ v.nowMicros) :
    v.nowMicros = T * 1000 * (j + 1) ∧
      Leads (v.nowMicros.tdiv 1000)
        (onNodes (Periodic k cb T (j + 1))
          { v with ran := v.ran ++ [(⟨time, .node k cb⟩, v.nowMicros)] })
        v.timers (S.atNode k (·.callback S.alloc (v.nowMicros.tdiv 1000) cb) v.rest) := by
  have hTpos := NodeCallback.period_pos hT
  have htime : time = T * 1000 * (j + 1) := h.next _ List.mem_cons_self rfl
  have hnow : v.nowMicros = T * 1000 * (j + 1) := le_antisymm h.upTo (htime ▸ hdue)
  have hnext : T * 1000 * ((j + 1 : ℕ) + 1) = T * 1000 * (j + 1) + T * 1000 := by
    push_cast
    ring
  -- there was one event, which has been taken out
  have hnone : pending v.timers (.node k cb) = 0 := by
    have honce := h.once hT
    rw [pending_cons, if_pos rfl] at honce
    omega
  refine ⟨hnow, fun houtcome => ⟨h.timers.timer houtcome, ?_, ?_, ?_, ?_, ?_⟩⟩
  · show k < (S.atNode k _ v.rest).rest.nodes.length
    rw [atNode_length]
    exact h.node
  · show Simulation.fired (v.ran ++ [(⟨time, .node k cb⟩, v.nowMicros)]) k cb = _
    rw [fired_append, if_pos rfl, show Simulation.fired v.ran k cb = _ from h.fired,
      List.range_succ, List.map_append, hnow]
    rfl
  · intro ev hev hcb
    obtain hev | hev := List.mem_append.mp hev
    · exact absurd (decide_eq_true hcb) (List.countP_eq_zero.mp hnone ev hev)
    · obtain ⟨-, n, -, deltaMs, hcall, hevTime⟩ := mem_atNode_timers hev hcb
      have hdelta := (mem_callback_calls hT hcall).2
      have hms : (T * 1000 * (j + 1 : Int)).tdiv 1000 = T * (j + 1) := by
        rw [show T * 1000 * (j + 1 : Int) = T * (j + 1) * 1000 by ring]
        exact Int.mul_tdiv_cancel _ (by decide)
      rw [hevTime, hnow, hms, hdelta]
      push_cast
      ring
  · show T * 1000 * ((j + 1 : ℕ) : Int) ≤ v.nowMicros
    rw [hnow]
    push_cast
    exact le_rfl
  · show v.nowMicros ≤ T * 1000 * ((j + 1 : ℕ) + 1)
    rw [hnext, hnow]
    omega

theorem Periodic.other (hT : cb.period = some T) {time : Int} {k' : ℕ} {cb' : NodeCallback}
    (h : Periodic k cb T j { v with timers := ⟨time, .node k' cb'⟩ :: v.timers })
    (hne : ¬ (k' = k ∧ cb' = cb)) :
    Leads (v.nowMicros.tdiv 1000)
      (onNodes (Periodic k cb T j) { v with ran := v.ran ++ [(⟨time, .node k' cb'⟩, v.nowMicros)] })
      v.timers (S.atNode k' (·.callback S.alloc (v.nowMicros.tdiv 1000) cb') v.rest) := by
  intro houtcome
  refine ⟨h.timers.timer houtcome, ?_, ?_, ?_, h.since, h.upTo⟩
  · show k < (S.atNode k' _ v.rest).rest.nodes.length
    rw [atNode_length]
    exact h.node
  · show Simulation.fired (v.ran ++ [(⟨time, .node k' cb'⟩, v.nowMicros)]) k cb = _
    rw [fired_append, if_neg fun heq => hne (SimCallback.node.inj heq), List.append_nil]
    exact h.fired
  · intro ev hev hcb
    obtain hev | hev := List.mem_append.mp hev
    · exact h.next ev (List.mem_cons_of_mem _ hev) hcb
    · obtain ⟨rfl, n, -, deltaMs, hcall, -⟩ := mem_atNode_timers hev hcb
      exact absurd ⟨rfl, (mem_callback_calls hT hcall).1⟩ hne

theorem periodic_upkeep (S : Simulation δ) (k : ℕ) (hT : cb.period = some T) :
    S.Upkeep True fun v => ∃ j, Periodic k cb T j v where
  perm := by
    rintro v q hperm ⟨j, h⟩
    exact ⟨j, (S.timers_upkeep True 1).perm hperm h.timers, h.node, h.fired,
      fun ev hev => h.next ev (hperm.mem_iff.mpr hev), h.since, h.upTo⟩
  clock := by
    rintro v t hle hevents ⟨j, h⟩
    exact ⟨j, h.clock hT hle (hevents trivial)⟩
  kept v := {
    command := by
      rintro w q ⟨j, h⟩ k' msg houtcome
      refine ⟨j, h.leads (v := { v with rest := w, timers := q }) (h.timers.command k' msg)
        (S.atNode_length _ _ _) ?_ houtcome⟩
      intro ev hev hcb
      obtain ⟨-, n, -, deltaMs, hcall, -⟩ := mem_atNode_timers hev hcb
      exact not_mem_of_asked
        (n.asked_onCommand_periodic S.alloc _ msg (NodeCallback.ne_tick hT)) deltaMs hcall
    topoFile := by
      rintro w q ⟨j, h⟩ lines
      exact ⟨j, h.timers.congr rfl fun _ _ => rfl, h.node, h.fired, h.next, h.since, h.upTo⟩
    resume := by
      rintro w q ⟨j, h⟩ time
      refine ⟨j, ((S.timers_upkeep True 1).kept v).resume h.timers time, h.node, h.fired, ?_,
        h.since, h.upTo⟩
      intro ev hev hcb
      obtain hev | hev := List.mem_append.mp hev
      · exact h.next ev hev hcb
      · rw [List.mem_singleton.mp hev] at hcb
        cases hcb }
  receive := by
    rintro v ⟨j, h⟩ k' src pkt houtcome
    refine ⟨j, h.leads (h.timers.receive k' src pkt) (S.atNode_length _ _ _) ?_ houtcome⟩
    intro ev hev hcb
    obtain ⟨-, n, -, deltaMs, hcall, -⟩ := mem_atNode_timers hev hcb
    exact not_mem_of_asked (asked_becomes _ _ _ _ _) deltaMs hcall
  timer := by
    rintro v time k' cb' ⟨j, h⟩ hdue houtcome
    by_cases heq : k' = k ∧ cb' = cb
    · obtain ⟨rfl, rfl⟩ := heq
      exact ⟨j + 1, (h.tick hT hdue).2 houtcome⟩
    · exact ⟨j, h.other hT heq houtcome⟩
  resumed := by
    rintro v time ⟨j, h⟩
    refine ⟨j, (S.timers_upkeep True 1).resumed h.timers, h.node, ?_,
      fun ev hev => h.next ev (List.mem_cons_of_mem _ hev), h.since, h.upTo⟩
    show Simulation.fired (v.ran ++ [(⟨time, .parseRestOfTopoFile⟩, v.nowMicros)]) k cb = _
    rw [fired_append, if_neg (fun heq => by cases heq), List.append_nil]
    exact h.fired

theorem mem_startNodes [Zero δ] {ev : ScheduledEvent SimCallback} (hT : cb.period = some T)
    (h : ev ∈ S.startNodes.filterMap (NetCall.timer 0)) (hev : ev.callback = .node k cb) :
    ev.timeToOccur = T * 1000 := by
  unfold startNodes at h
  rw [List.filterMap_flatMap, List.mem_flatMap] at h
  obtain ⟨k', -, h⟩ := h
  rw [netCalls_timers] at h
  obtain ⟨call, hcall, hsome⟩ := List.mem_filterMap.mp h
  cases call with
  | sendPkt dest pkt => cases hsome
  | addTimer deltaMs cb' =>
      obtain rfl := Option.some.inj hsome
      obtain ⟨rfl, rfl⟩ := SimCallback.node.inj hev
      show (0 + deltaMs) * 1000 = T * 1000
      rw [zero_add]
      congr 1
      unfold AppNode.start at hcall
      simp only [List.mem_cons, List.not_mem_nil, or_false] at hcall
      obtain hcall | hcall := hcall
      · cases hcall
        exact Option.some.inj hT
      · cases hcall
        exact Option.some.inj hT

theorem Periodic.begun [Zero δ] (S : Simulation δ) (topoFile : List Str) (hk : k < S.numNodes)
    (hT : cb.period = some T)
    (hreturned : (S.parseTopology 0 (S.newNodes topoFile)).outcome = .returned) :
    let r := S.parseTopology 0 (S.newNodes topoFile)
    Periodic k cb T 0 ⟨r.rest, r.timers 0 ++ S.startNodes.filterMap (NetCall.timer 0), [], 1⟩ := by
  intro r
  have hTpos := NodeCallback.period_pos hT
  have hread := (S.timers_upkeep True 0).topology (Timers.new S topoFile) hreturned
  have hnodes := (S.stations_upkeep True).topology ⟨le_rfl, .new S topoFile⟩ hreturned
  refine ⟨.begun S topoFile hreturned, ?_, rfl, ?_, ?_, ?_⟩
  · show k < r.rest.nodes.length
    rw [hnodes.2.1]
    exact hk
  · intro ev hev hcb
    obtain hev | hev := List.mem_append.mp hev
    · -- the topology file asks for no such timer
      have hnone : pending (r.timers 0) (.node k cb) = 0 := by
        rw [hread.periodic (NodeCallback.ne_tick hT)]
        split_ifs <;> rfl
      exact absurd (decide_eq_true hcb) (List.countP_eq_zero.mp hnone ev hev)
    · rw [mem_startNodes hT hev hcb]
      simp
  · show T * 1000 * ((0 : ℕ) : Int) ≤ 1
    simp
  · show 1 ≤ T * 1000 * ((0 : ℕ) + 1)
    push_cast
    omega

theorem Periodic.after [Zero δ] (S : Simulation δ) (hscaled : ∀ d, 0 ≤ d → 0 ≤ S.scaled d)
    {topoFile : List Str} {commandFile : Option (List Str)} {inputs : List (Option Str × Int)}
    (helapsed : ∀ input ∈ inputs, 0 ≤ input.2) (hquiet : ∀ input ∈ inputs, input.1 = none)
    (hrunning : (S.after topoFile commandFile inputs).running = true) (hk : k < S.numNodes)
    (hT : cb.period = some T) :
    ∃ j, Periodic k cb T j (Program.view (S.after topoFile commandFile inputs)) :=
  (S.periodic_upkeep k hT).after hscaled helapsed (fun _ => hquiet)
    (fun hreturned => ⟨0, .begun S topoFile hk hT hreturned⟩) hrunning

section unattended
variable [Zero δ] (S : Simulation δ) (hscaled : ∀ d, 0 ≤ d → 0 ≤ S.scaled d) (topoFile : List Str)
  (commandFile : Option (List Str)) (inputs : List (Option Str × Int))
  (helapsed : ∀ input ∈ inputs, 0 ≤ input.2) (hquiet : ∀ input ∈ inputs, input.1 = none)
  (hrunning : (S.after topoFile commandFile inputs).running = true)
include hscaled helapsed hquiet hrunning

/-- **The periodic timers keep to their periods.**  In a simulation without console input, whatever its
files say and whatever is lost, the retransmission timer of every node has run exactly at the first
multiples of 10 ms, its ping timer at those of 10 s, none has been left out or come late, and the clock
has not passed the one event of the timer in the queue, which is at the next multiple. -/
theorem timers_on_schedule (k : ℕ) (hk : k < S.numNodes) (cb : NodeCallback) (T : Int)
    (hT : cb.period = some T) :
    let s := S.after topoFile commandFile inputs
    ∃ j : ℕ, fired s.ownRan k cb = (List.range j).map (fun i : ℕ => T * 1000 * (i + 1)) ∧
      T * 1000 * j ≤ s.nowMicros ∧ s.nowMicros ≤ T * 1000 * (j + 1) ∧
      pending s.timers (.node k cb) = 1 ∧
      ∀ ev ∈ s.timers, ev.callback = .node k cb → ev.timeToOccur = T * 1000 * (j + 1) := by
  intro s
  obtain ⟨j, h⟩ := Periodic.after S hscaled helapsed hquiet hrunning hk hT
  exact ⟨j, h.fired, h.since, h.upTo, h.once hT, h.next⟩

end unattended

/-- The two ticks in the first 20 ms of a transfer. -/
theorem timers_on_schedule_transfer :
    let s := pair.after ["edge 0 1".toList] (some transferScript) (List.replicate 14 (none, 0))
    fired s.ownRan 0 .retransmissionTick = [10000, 20000] ∧ s.nowMicros = 20000 ∧
      ∃ j : ℕ, fired s.ownRan 0 .retransmissionTick =
          (List.range j).map (fun i : ℕ => 10 * 1000 * ((i : Int) + 1)) ∧
        pending s.timers (.node 0 .retransmissionTick) = 1 := by
  intro s
  obtain ⟨j, hfired, -, -, honce, -⟩ := timers_on_schedule pair (fun d hd => hd)
    ["edge 0 1".toList] (some transferScript) (List.replicate 14 (none, 0)) (by decide) (by decide)
    (by decide) 0 (by decide) .retransmissionTick 10 rfl
  exact ⟨by decide, by decide, j, hfired, honce⟩

/-! ### Pings -/

/-- Every ping of node `k` was sent at most one timeout before the ping timer last ran. -/
structure Young (k : ℕ) (v : Program.View SimNodes SimCallback) : Prop where
  last : lastRun v.ran k .pingTimedOut ≤ v.nowMicros.tdiv 1000
  pings : ∀ n, v.rest.nodes[k]? = some n → ∀ ping ∈ n.stack.pings,
    lastRun v.ran k .pingTimedOut ≤ ping.timeSentMs + StackNode.PING_TIMEOUT_MS ∧
      ping.timeSentMs ≤ v.nowMicros.tdiv 1000

theorem young_upkeep (S : Simulation δ) (unattended : Prop) (k : ℕ) :
    S.Upkeep unattended (Young k) where
  perm _ h := ⟨h.last, h.pings⟩
  clock := by
    intro v t hle _ h
    have hms := Int.tdiv_le_tdiv (c := 1000) (by decide) hle
    exact ⟨h.last.trans hms, fun n hn ping hping =>
      ⟨(h.pings n hn ping hping).1, (h.pings n hn ping hping).2.trans hms⟩⟩
  kept v := {
    command := by
      intro w q h j msg _
      refine ⟨h.last, ?_⟩
      intro n' hn' ping hping
      obtain ⟨-, hn'⟩ | ⟨rfl, n, hn, rfl⟩ := atNode_node hn'
      · exact h.pings n' hn' ping hping
      · obtain hold | hnew := mem_pings_onCommand hping
        · exact h.pings n hn ping hold
        · -- the timer has not run after now
          have hlast := h.last
          rw [hnew]
          refine ⟨hlast.trans ?_, le_rfl⟩
          exact Int.le_add_of_nonneg_right (by decide)
    topoFile := fun h _ => ⟨h.last, h.pings⟩
    resume := fun h _ => ⟨h.last, h.pings⟩ }
  receive := by
    intro v h j src pkt _
    refine ⟨h.last, ?_⟩
    intro n' hn' ping hping
    obtain ⟨-, hn'⟩ | ⟨rfl, n, hn, rfl⟩ := atNode_node hn'
    · exact h.pings n' hn' ping hping
    · exact h.pings n hn ping (mem_pings_onReceive hping)
  timer := by
    intro v time j cb h _ _
    refine ⟨?_, ?_⟩
    · show lastRun (v.ran ++ [(⟨time, .node j cb⟩, v.nowMicros)]) k .pingTimedOut ≤ _
      rw [lastRun_append]
      split_ifs
      · exact le_rfl
      · exact h.last
    · intro n' hn' ping hping
      show lastRun (v.ran ++ [(⟨time, .node j cb⟩, v.nowMicros)]) k .pingTimedOut ≤ _ ∧ _
      rw [lastRun_append]
      obtain ⟨hk, hn'⟩ | ⟨rfl, n, hn, rfl⟩ := atNode_node hn'
      · rw [if_neg (by simp [Ne.symm hk])]
        exact h.pings n' hn' ping hping
      · obtain ⟨hold, hkept⟩ := mem_pings_callback hping
        obtain ⟨hyoung, hsent⟩ := h.pings n hn ping hold
        refine ⟨?_, hsent⟩
        split_ifs with hcb
        · exact hkept (SimCallback.node.inj hcb).2
        · exact hyoung
  resumed := by
    intro v time h
    have hlast : lastRun (v.ran ++ [(⟨time, .parseRestOfTopoFile⟩, v.nowMicros)]) k .pingTimedOut =
        lastRun v.ran k .pingTimedOut := by
      rw [lastRun_append, if_neg (by simp)]
    refine ⟨?_, ?_⟩
    · rw [hlast]
      exact h.last
    · rw [hlast]
      exact h.pings

theorem Periodic.lastRun_eq (h : Periodic k cb T j v) : lastRun v.ran k cb = T * j := by
  unfold lastRun
  rw [h.fired]
  cases j with
  | zero => simp
  | succ j =>
      rw [List.range_succ, List.map_append, List.map_singleton, List.getLastD_concat,
        show T * 1000 * ((j : Int) + 1) = T * (j + 1) * 1000 by ring]
      exact Int.mul_tdiv_cancel _ (by decide)

theorem Periodic.now_le (h : Periodic k cb T j v) : v.nowMicros.tdiv 1000 ≤ T * (j + 1) := by
  have hms := Int.tdiv_le_tdiv (c := 1000) (by decide) h.upTo
  rwa [show T * 1000 * ((j : Int) + 1) = T * (j + 1) * 1000 by ring,
    Int.mul_tdiv_cancel _ (by decide)] at hms

theorem Young.begun [Zero δ] (S : Simulation δ) (topoFile : List Str) (k : ℕ)
    (hreturned : (S.parseTopology 0 (S.newNodes topoFile)).outcome = .returned)
    (q : List (ScheduledEvent SimCallback)) :
    Young k ⟨(S.parseTopology 0 (S.newNodes topoFile)).rest, q, [], 1⟩ := by
  have hnew : Young k ⟨S.newNodes topoFile, [], [], 0⟩ := by
    refine ⟨le_rfl, ?_⟩
    intro n hn ping hping
    obtain ⟨-, rfl⟩ := S.newNodes_getElem? topoFile hn
    cases hping
  have hread := (S.young_upkeep False k).topology hnew hreturned
  exact ⟨hread.last, hread.pings⟩

/-- **Pings expire.**  In a simulation without console input a ping that waits for its answer is never
older than 20 s: it is answered, or the second run of the ping timer after it was sent drops it. -/
theorem pings_expire [Zero δ] (S : Simulation δ) (hscaled : ∀ d, 0 ≤ d → 0 ≤ S.scaled d)
    (topoFile : List Str) (commandFile : Option (List Str)) (inputs : List (Option Str × Int))
    (helapsed : ∀ input ∈ inputs, 0 ≤ input.2) (hquiet : ∀ input ∈ inputs, input.1 = none)
    (hrunning : (S.after topoFile commandFile inputs).running = true) :
    let s := S.after topoFile commandFile inputs
    ∀ n ∈ s.world.rest.nodes, ∀ ping ∈ n.stack.pings,
      ping.timeSentMs ≤ s.now ∧ s.now ≤ ping.timeSentMs + 2 * StackNode.PING_TIMEOUT_MS := by
  intro s n hmem ping hping
  obtain ⟨k, hn⟩ := List.getElem?_of_mem hmem
  obtain ⟨hlt, -⟩ := List.getElem?_eq_some_iff.mp hn
  have hnodes := (Stations.after S hscaled helapsed hrunning).1
  obtain ⟨j, hperiodic⟩ := Periodic.after S hscaled helapsed hquiet hrunning
    (k := k) (T := StackNode.PING_TIMEOUT_MS) (hnodes ▸ hlt) (show NodeCallback.period .pingTimedOut = _ from rfl)
  have hyoung := (S.young_upkeep False k).after hscaled helapsed (fun h => h.elim)
    (fun hreturned => .begun S topoFile k hreturned _) hrunning
  obtain ⟨hlast, hsent⟩ := hyoung.pings n hn ping hping
  rw [hperiodic.lastRun_eq] at hlast
  have hnow : s.now ≤ StackNode.PING_TIMEOUT_MS * (j + 1) := hperiodic.now_le
  refine ⟨hsent, ?_⟩
  unfold StackNode.PING_TIMEOUT_MS at *
  omega

/-- There is no edge, so the ping is lost; it is there until the ping timer finds it. -/
theorem pings_expire_lost :
    let s := pair.after [] (some ["0 1 hello".toList]) (List.replicate 4 (none, 0))
    ∃ n ∈ s.world.rest.nodes, ∃ ping ∈ n.stack.pings, ping.destAddr = 1 ∧
      s.now ≤ ping.timeSentMs + 20000 := by
  intro s
  have hlost : ∃ n ∈ s.world.rest.nodes, ∃ ping ∈ n.stack.pings, ping.destAddr = 1 := by decide
  obtain ⟨n, hn, ping, hping, hdest⟩ := hlost
  refine ⟨n, hn, ping, hping, hdest, ?_⟩
  exact (pings_expire pair (fun d hd => hd) [] (some ["0 1 hello".toList])
    (List.replicate 4 (none, 0)) (by decide) (by decide) (by decide) n hn ping hping).2

end Simulation

end NetBridge
