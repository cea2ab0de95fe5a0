import NetBridge.Emulation
import NetBridge.Schedule

/-! # How long the emulator sleeps

The loop of `Emulator::start` sleeps in `poll` till its next event, or till the command file is to be
read again.  A node always has its retransmission timer in the queue, which is due at most 10 ms from
now, so `poll` is never called without a timeout or with one of more than 10 ms, and it returns before
anything is due (`sleeps_till_next`). -/

namespace NetBridge

open scoped List

namespace Emulation

open AppNode

variable {δ : Type} (E : Emulation δ)

/-! ### The timers of the node -/

theorem pending_timer (time : Int) (cb cb' : NodeCallback) (q : List (ScheduledEvent NodeCallback)) :
    pending (⟨time, cb⟩ :: q) cb' = pending q cb' + one cb cb' := by
  rw [pending_cons, one]
  exact congrArg _ (if_congr eq_comm rfl rfl)

theorem pending_timersOf (now : Int) (calls : List NodeCall) (cb : NodeCallback) :
    pending (timersOf now calls) cb = asked calls cb := by
  induction calls with
  | nil => rfl
  | cons c calls ih =>
      rw [← List.singleton_append, asked_append, ← ih]
      cases c with
      | sendPkt dest pkt =>
          have hnone : asked [.sendPkt dest pkt] cb = 0 := rfl
          rw [hnone, zero_add]
          rfl
      | addTimer deltaMs cb' =>
          rw [asked_addTimer, add_comm]
          exact pending_timer _ _ _ _

/-- The timers of the node: each periodic one is there once, and those of the tasks are as the tasks
need them. -/
structure Timers (n : AppNode) (q : List (ScheduledEvent NodeCallback)) : Prop where
  armed : n.Armed (pending q)
  periodic : ∀ {cb : NodeCallback}, (∀ i, cb ≠ .tick i) → pending q cb = 1

section timers
variable {n : AppNode} {q : List (ScheduledEvent NodeCallback)}

theorem Timers.asked {r : NodeReaction} {now : Int}
    (harmed : r.node.Armed fun cb => pending q cb + asked r.calls cb)
    (hperiodic : ∀ {cb : NodeCallback}, (∀ i, cb ≠ .tick i) →
      pending q cb + AppNode.asked r.calls cb = 1) :
    Timers r.node (q ++ timersOf now r.calls) := by
  have hpending : pending (q ++ timersOf now r.calls) =
      fun cb => pending q cb + AppNode.asked r.calls cb := by
    funext cb
    rw [pending_append, pending_timersOf]
  refine ⟨?_, ?_⟩
  · rw [hpending]
    exact harmed
  · intro cb hcb
    rw [hpending]
    exact hperiodic hcb

theorem timers_upkeep : E.Upkeep fun n q _ => Timers n q where
  perm := by
    intro n q q' _ hperm h
    have hpending : pending q = pending q' := by
      funext cb
      exact hperm.countP_eq _
    exact ⟨hpending ▸ h.armed, fun hcb => hpending ▸ h.periodic hcb⟩
  clock h _ _ _ := h
  receive h sender msg := by
    refine .asked (h.armed.onReceive _ sender msg) fun hcb => ?_
    rw [AppNode.onReceive, asked_becomes]
    exact h.periodic hcb
  command h msg := by
    refine .asked (h.armed.onCommand E.alloc _ msg) fun hcb => ?_
    rw [asked_onCommand_periodic _ _ _ _ hcb]
    exact h.periodic hcb
  timer := by
    intro n q t time cb h _ r hexits
    have hpending : pending (⟨time, cb⟩ :: q) = fun cb' => pending q cb' + one cb cb' := by
      funext cb'
      exact pending_timer time cb cb' q
    have harmed := h.armed
    rw [hpending] at harmed
    refine .asked (harmed.callback E.alloc _ hexits) fun hcb => ?_
    rw [asked_callback_periodic _ _ _ hcb, ← pending_timer time]
    exact h.periodic hcb

end timers

theorem mem_timersOf {now : Int} {calls : List NodeCall} {ev : ScheduledEvent NodeCallback} :
    ev ∈ timersOf now calls ↔
      ∃ deltaMs, .addTimer deltaMs ev.callback ∈ calls ∧ ev.timeToOccur = (now + deltaMs) * 1000 := by
  unfold timersOf
  rw [List.mem_filterMap]
  constructor
  · rintro ⟨c, hc, hev⟩
    cases c with
    | sendPkt => cases hev
    | addTimer deltaMs cb =>
        obtain rfl := Option.some.inj hev
        exact ⟨deltaMs, hc, rfl⟩
  · rintro ⟨deltaMs, hc, htime⟩
    refine ⟨_, hc, ?_⟩
    obtain ⟨time, cb⟩ := ev
    obtain rfl := htime
    rfl

/-- The clock and the timers are in whole milliseconds, and the retransmission timer is due in 10 ms at
the latest. -/
structure Soon (q : List (ScheduledEvent NodeCallback)) (t : Int) : Prop where
  nonneg : 0 ≤ t
  clock : t % 1000 = 0
  whole : ∀ ev ∈ q, ev.timeToOccur % 1000 = 0
  soon : ∀ ev ∈ q, ev.callback = .retransmissionTick → ev.timeToOccur ≤ t + 10000

theorem Soon.asked {q : List (ScheduledEvent NodeCallback)} {t : Int} (h : Soon q t)
    {calls : List NodeCall} (hcalls : ∀ deltaMs, .addTimer deltaMs .retransmissionTick ∈ calls →
      deltaMs = TcpManager.RETRANS_TICK_MS) :
    Soon (q ++ timersOf (t.tdiv 1000) calls) t := by
  refine ⟨h.nonneg, h.clock, ?_, ?_⟩
  · intro ev hev
    obtain hev | hev := List.mem_append.mp hev
    · exact h.whole ev hev
    · obtain ⟨deltaMs, -, htime⟩ := mem_timersOf.mp hev
      rw [htime]
      exact Int.mul_emod_left _ _
  · intro ev hev hcb
    obtain hev | hev := List.mem_append.mp hev
    · exact h.soon ev hev hcb
    · obtain ⟨deltaMs, hmem, htime⟩ := mem_timersOf.mp hev
      rw [hcb] at hmem
      have hnow : t.tdiv 1000 * 1000 = t := Int.tdiv_mul_cancel (Int.dvd_of_emod_eq_zero h.clock)
      rw [htime, hcalls deltaMs hmem, TcpManager.RETRANS_TICK_MS]
      omega

theorem soon_upkeep : E.Upkeep fun _ q t => Soon q t where
  perm hperm h := ⟨h.nonneg, h.clock, fun ev hev => h.whole ev (hperm.mem_iff.mpr hev),
    fun ev hev => h.soon ev (hperm.mem_iff.mpr hev)⟩
  clock := by
    intro n q t h t' hle hwhole
    exact ⟨h.nonneg.trans hle, hwhole, h.whole,
      fun ev hev hcb => (h.soon ev hev hcb).trans (by omega)⟩
  receive h sender msg := by
    refine h.asked fun deltaMs hmem => absurd hmem (not_mem_of_asked ?_ deltaMs)
    rw [AppNode.onReceive, asked_becomes]
    rfl
  command h msg := by
    refine h.asked fun deltaMs hmem => absurd hmem (not_mem_of_asked ?_ deltaMs)
    exact asked_onCommand_periodic _ _ _ _ fun i hi => by cases hi
  timer := by
    intro n q t time cb h _ r _
    have hrest : Soon q t := ⟨h.nonneg, h.clock,
      fun ev hev => h.whole ev (List.mem_cons_of_mem _ hev),
      fun ev hev => h.soon ev (List.mem_cons_of_mem _ hev)⟩
    exact hrest.asked fun deltaMs hmem => (mem_callback_calls rfl hmem).2

end Emulation

/-! ### The times that the links give -/

/-- A packet that waits is due at a whole millisecond. -/
def Dispatch.Whole {δ : Type} (d : Dispatch δ) : Prop :=
  ∀ ev ∈ d.waits, ev.timeToOccur % 1000 = 0

namespace Emulator

variable {δ : Type} {F : Floats δ}

theorem roundUp_whole (t : Int) :
    (if t.tmod 1000 ≠ 0 then t + (1000 - t.tmod 1000) else t) % 1000 = 0 := by
  have hdiv := Int.mul_tdiv_add_tmod t 1000
  split_ifs <;> omega

theorem forall_whole_append {ds : List (Dispatch δ)} (h : ∀ d ∈ ds, d.Whole) {d : Dispatch δ}
    (hd : d.Whole) : ∀ d' ∈ ds ++ [d], d'.Whole := by
  intro d' hd'
  obtain hd' | hd' := List.mem_append.mp hd'
  · exact h d' hd'
  · obtain rfl := List.mem_singleton.mp hd'
    exact hd

theorem schedulePkt_whole (pkt : List UInt8) (draw : Int → Int × Bool) {e : Emulator δ}
    (h : ∀ d ∈ e.dispatched, d.Whole) (destAddr : Int) :
    ∀ d ∈ (schedulePkt pkt draw e destAddr).dispatched, d.Whole := by
  unfold schedulePkt
  split
  · exact h
  · split
    · exact forall_whole_append h fun ev hev => by cases hev
    · simp only
      generalize EmulatedLink.schedulePkt _ _ _ _ = r
      obtain ⟨time, link'⟩ := r
      have hwhole := roundUp_whole time
      simp only
      generalize (if time.tmod 1000 ≠ 0 then time + (1000 - time.tmod 1000) else time) = rounded
        at hwhole ⊢
      split_ifs
      · exact h
      · exact h
      · refine forall_whole_append h ?_
        intro ev hev
        obtain rfl := Option.mem_some.mp hev
        exact hwhole

theorem sendPkt_whole {e : Emulator δ} (h : ∀ d ∈ e.dispatched, d.Whole) (src dest : Int)
    (pkt : List UInt8) (received : Str) (order : List Int) (draw : Int → Int × Bool) :
    ∀ d ∈ (e.sendPkt F src dest pkt received order draw).1.dispatched, d.Whole := by
  have hfold : ∀ (payload : List UInt8) (e : Emulator δ), (∀ d ∈ e.dispatched, d.Whole) →
      ∀ d ∈ (order.foldl (schedulePkt payload draw) e).dispatched, d.Whole := by
    intro payload e he
    induction order generalizing e with
    | nil => exact he
    | cons destAddr order ih => exact ih _ (schedulePkt_whole payload draw he destAddr)
  have hrefresh : ∀ d ∈ (e.refreshARP F received).dispatched, d.Whole := h
  unfold sendPkt
  split
  · exact h
  · simp only
    split
    · exact h
    · split_ifs
      · exact h
      · exact hfold _ _ h
      · exact schedulePkt_whole _ draw hrefresh dest
      · exact h

theorem step_whole {e : Emulator δ} (h : ∀ d ∈ e.dispatched, d.Whole) (ev : Event) :
    ∀ d ∈ (e.step F ev).dispatched, d.Whole := by
  cases ev with
  | refreshARP received => exact h
  | processUdpPacket data ip port =>
      show ∀ d ∈ (e.processUdpPacket data ip port).dispatched, d.Whole
      rwa [processUdpPacket_dispatched]
  | sendPkt src dest pkt received order draw => exact sendPkt_whole h src dest pkt received order draw

end Emulator

/-! ### Sleeping -/

namespace Emulation

open AppNode

variable {δ : Type} (E : Emulation δ)

/-- Every event in the queue is due at a whole millisecond. -/
theorem events_whole {s : EmuState δ} (htimers : Soon (timers s) s.clock)
    (hfollows : E.Follows (.new E.assignedNodeId) s.emulator)
    (haccounts : Accounts E s s.emulator.dispatched) :
    ∀ ev ∈ s.sortedEvents.events, ev.timeToOccur % 1000 = 0 := by
  intro ev hev
  cases hcb : ev.callback with
  | node cb =>
      have hmem : (⟨ev.timeToOccur, cb⟩ : ScheduledEvent NodeCallback) ∈ timers s := by
        refine List.mem_filterMap.mpr ⟨ev, hev, ?_⟩
        unfold nodeTimer
        rw [hcb]
      exact htimers.whole _ hmem
  | physicalSend datagram =>
      have hmem : (⟨ev.timeToOccur, datagram⟩ : ScheduledEvent Datagram) ∈ packets s := by
        refine List.mem_filterMap.mpr ⟨ev, hev, ?_⟩
        unfold packet
        rw [hcb]
      obtain ⟨log, waiting, hds, -, -, hwaiting⟩ := haccounts
      obtain ⟨d, hd, hwaits⟩ := List.mem_map.mp (hwaiting.mem_iff.mpr (List.mem_map_of_mem hmem))
      obtain ⟨evs, hevs⟩ := hfollows
      have hall := run_induction (I := fun e : Emulator δ => ∀ d ∈ e.dispatched, d.Whole)
        (fun _ ev h => Emulator.step_whole (F := E.floats) h ev) (s := .new E.assignedNodeId)
        (fun _ h => absurd h List.not_mem_nil) evs
      rw [hevs] at hall
      exact hall d (hds.mem_iff.mpr (List.mem_append_right _ hd)) _ hwaits

/-- When the loop is about to wait, nothing is left that was due when the round began. -/
def Settled (s : EmuState δ) : Prop :=
  match s.phase with
  | .wait nowMicros => ∀ ev ∈ s.sortedEvents.events, nowMicros < ev.timeToOccur
  | _ => True

theorem stretch_settled (s : EmuState δ) (i : EmuInput) : Settled (stretch E s i) := by
  unfold stretch
  split
  · trivial
  · trivial
  · split
    · next hnone =>
        intro ev hev
        have hempty : s.sortedEvents.events = [] := OrderedEventQueue.removeNextEvent_eq_none hnone
        rw [hempty] at hev
        cases hev
    · next ev q hq =>
        obtain ⟨hevents, hfirst⟩ := OrderedEventQueue.removeNextEvent_spec hq
        split_ifs with hdue
        · trivial
        · intro other hother
          have hother : other ∈ s.sortedEvents.events := hother
          rw [hevents] at hother
          obtain rfl | hother := List.mem_cons.mp hother
          · exact not_le.mp hdue
          · exact (not_le.mp hdue).trans_le (hfirst other hother)
  · trivial
  · next hphase =>
      split_ifs
      · unfold Settled
        simp only [hphase]
      · trivial
  · split_ifs
    · trivial
    · trivial
  · split_ifs
    · trivial
    · trivial

theorem step_settled {s : EmuState δ} (h : Settled s) (i : EmuInput) : Settled (step E s i) := by
  unfold step
  split_ifs
  · exact stretch_settled E _ i
  · exact h

theorem timeoutMs_of_next {s : EmuState δ} {next : ScheduledEvent EmuCallback}
    (hnext : s.sortedEvents.getNextEvent = some next) (hclock : 0 ≤ s.clock)
    (hwhole : s.clock % 1000 = 0) (hnextWhole : next.timeToOccur % 1000 = 0)
    (hsoon : next.timeToOccur ≤ s.clock + 10000) (hsleeps : Sleeps s) :
    ∃ k, timeoutMs s (waitTill s) = some k ∧ 0 < k ∧ k ≤ 10 ∧
      s.clock + 1000 * k ≤ next.timeToOccur ∧
      (0 ≤ s.deferParsingTill →
        0 < s.deferParsingTill ∧ s.clock + 1000 * k < s.deferParsingTill + 1000) := by
  have htill : waitTill s = if s.deferParsingTill = -1 then next.timeToOccur
      else if s.deferParsingTill = 0 then s.clock
      else min next.timeToOccur s.deferParsingTill := by
    unfold waitTill
    rw [hnext]
  have hlater : s.clock < waitTill s := by
    obtain hforever | hlater := hsleeps
    · rw [htill] at hforever
      split_ifs at hforever <;> omega
    · exact hlater
  have htimeout : timeoutMs s (waitTill s) = some ((waitTill s - s.clock + 999) / 1000) := by
    unfold timeoutMs
    rw [if_neg (by omega), max_eq_left (by omega), Int.tdiv_eq_ediv_of_nonneg (by omega)]
  refine ⟨_, htimeout, ?_⟩
  rw [htill] at hlater ⊢
  split_ifs at hlater ⊢ <;> omega

section runs
variable {clock : Int} (hclock : 0 ≤ clock) (hwhole : clock % 1000 = 0)
  (commandFile : Option (List Str)) {is : List EmuInput}
  (his : Guarded (step E) Allowed (start E clock commandFile) is)
include hclock hwhole his

theorem timers_after (hrunning : (E.after clock commandFile is).running = true) :
    let s := E.after clock commandFile is
    Timers s.node (timers s) ∧ Soon (timers s) s.clock := by
  have harmed : (AppNode.new E.assignedNodeId).Armed fun cb => pending [] cb + asked AppNode.start cb :=
    ⟨fun i => Nat.zero_le 1, fun i _ => rfl, fun i task htask => by cases htask⟩
  have hstart : Timers (.new E.assignedNodeId) ([] ++ timersOf (clock.tdiv 1000) AppNode.start) := by
    refine .asked (r := ⟨.new E.assignedNodeId, AppNode.start, .returned⟩) harmed fun {cb} hcb => ?_
    cases cb with
    | tick i => exact absurd rfl (hcb i)
    | retransmissionTick | pingTimedOut => rfl
  have hnone : Soon [] clock :=
    ⟨hclock, hwhole, fun _ h => absurd h List.not_mem_nil, fun _ h => absurd h List.not_mem_nil⟩
  have hsoon : Soon ([] ++ timersOf (clock.tdiv 1000) AppNode.start) clock := by
    refine hnone.asked fun deltaMs hmem => ?_
    simp only [AppNode.start, List.mem_cons, NodeCall.addTimer.injEq, reduceCtorEq, and_false,
      and_true, false_or, List.not_mem_nil, or_false] at hmem
    exact hmem
  exact ⟨(timers_upkeep E).after hstart his hrunning, (soon_upkeep E).after hsoon his hrunning⟩

/-- **The loop wakes up in time.**  The wall clock reads whole milliseconds and does not go back
(`Allowed`).  Whenever the loop comes to its wait, everything that was due when the round began has been
run.  If it then calls `poll`, it does so with a timeout of at most 10 ms, never
an infinite one, and the timeout ends before anything in the queue is due; if another line of the command
file is to be read, it does not sleep before a line without a time, and it sleeps no full millisecond past
the time of a `time` directive. -/
theorem sleeps_till_next {i : EmuInput} {nowMicros : Int}
    (hrunning : (E.after clock commandFile is).running = true)
    (hphase : (E.after clock commandFile is).phase = .wait nowMicros)
    (hi : Allowed (E.after clock commandFile is) i) :
    let s := { E.after clock commandFile is with clock := i.clock }
    (∀ ev ∈ s.sortedEvents.events, nowMicros < ev.timeToOccur) ∧
      (Sleeps s → ∃ k, timeoutMs s (waitTill s) = some k ∧ 0 < k ∧ k ≤ 10 ∧
        (∀ ev ∈ s.sortedEvents.events, s.clock + 1000 * k ≤ ev.timeToOccur) ∧
        (0 ≤ s.deferParsingTill →
          0 < s.deferParsingTill ∧ s.clock + 1000 * k < s.deferParsingTill + 1000)) := by
  intro s
  obtain ⟨htimers, hsoon⟩ := timers_after E hclock hwhole commandFile his hrunning
  have hsettled := run_induction (I := Settled) (fun _ i h => step_settled E h i)
    (s := start E clock commandFile) trivial is
  refine ⟨?_, fun hsleeps => ?_⟩
  · unfold Settled at hsettled
    rw [show (run (step E) (start E clock commandFile) is).phase = .wait nowMicros from hphase]
      at hsettled
    exact hsettled
  · -- the retransmission timer is in the queue
    have hpos : 0 < pending (timers (E.after clock commandFile is)) .retransmissionTick := by
      rw [htimers.periodic (fun i hi => by cases hi)]
      exact Nat.one_pos
    obtain ⟨timer, hmem, hcb⟩ := List.countP_pos_iff.mp hpos
    have hdue := hsoon.soon timer hmem (of_decide_eq_true hcb)
    obtain ⟨ev, hev, htimer⟩ := List.mem_filterMap.mp hmem
    have htime : ev.timeToOccur = timer.timeToOccur := by
      unfold nodeTimer at htimer
      split at htimer
      · exact congrArg ScheduledEvent.timeToOccur (Option.some.inj htimer)
      · cases htimer
    obtain ⟨next, hnext, hfirst⟩ := OrderedEventQueue.getNextEvent_of_mem hev
    have hfollows := ((follows_kept (.new E.assignedNodeId)).run (s := start E clock commandFile)
      (.refl _) trivial his).1
    have hwholes := events_whole E hsoon hfollows (accounts_after E commandFile his)
    have hnextMem : next ∈ (E.after clock commandFile is).sortedEvents.events :=
      List.mem_of_mem_head? hnext
    obtain ⟨k, hk, hpos, hten, hbefore, hdefer⟩ := timeoutMs_of_next (s := s) hnext
      (hsoon.nonneg.trans hi.1) hi.2 (hwholes next hnextMem)
      ((hfirst ev hev).trans (by rw [htime]; exact hdue.trans (Int.add_le_add_right hi.1 _))) hsleeps
    exact ⟨k, hk, hpos, hten, fun other hother => hbefore.trans (hfirst other hother), hdefer⟩

end runs

/-- Without a command file the first sleep lasts till the first tick of the retransmission timer. -/
theorem sleeps_till_next_first :
    let s := { nodeOne.after 1000000 none (List.replicate 3 (passes 1000000)) with clock := 1003000 }
    Sleeps s ∧ timeoutMs s (waitTill s) = some 7 ∧
      ∃ k, timeoutMs s (waitTill s) = some k ∧ 0 < k ∧ k ≤ 10 ∧
        ∀ ev ∈ s.sortedEvents.events, s.clock + 1000 * k ≤ ev.timeToOccur := by
  intro s
  have hsleeps : Sleeps s := by decide
  have his : Guarded (step nodeOne) Allowed (start nodeOne 1000000 none)
      (List.replicate 3 (passes 1000000)) := by decide
  have hphase : (nodeOne.after 1000000 none (List.replicate 3 (passes 1000000))).phase =
      .wait 1000000 := by decide
  have hi : Allowed (nodeOne.after 1000000 none (List.replicate 3 (passes 1000000)))
      (passes 1003000) := by decide
  obtain ⟨k, hk, hpos, hten, hbefore, -⟩ :=
    (nodeOne.sleeps_till_next (by decide) (by decide) none his (by decide) hphase hi).2 hsleeps
  exact ⟨hsleeps, by decide, k, hk, hpos, hten, hbefore⟩

end Emulation

end NetBridge
