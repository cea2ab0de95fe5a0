import NetBridge.Run
import NetBridge.StableSort

/-! # The event queue

`OrderedEventQueue` (`ordered_event_queue.cpp`): the scheduled events in the order of their times,
and of their insertion where the times are equal.  The order is a field of the structure, so every
queue has it; `addEvent` adds one event (`addEvent_perm`), and `removeNextEvent` takes one off the
front, than which no event is earlier (`removeNextEvent_spec`).

What the queue is for is said by a list of the events that are pending, in the order in which they
were added: an event is added at its end, and the first of the earliest is removed.  `QueueHistory`
runs the two side by side; the queue is always the stable sort of the list (`Refines`). -/

namespace NetBridge

open scoped List

/-- A callback and the time in microseconds at which it is due. -/
structure ScheduledEvent (κ : Type) where
  timeToOccur : Int
  callback : κ
deriving DecidableEq

/-- How many events have this callback. -/
def pending {κ : Type} [DecidableEq κ] (q : List (ScheduledEvent κ)) (cb : κ) : ℕ :=
  q.countP fun ev => ev.callback = cb

section pending
variable {κ : Type} [DecidableEq κ]

theorem pending_append (q q' : List (ScheduledEvent κ)) (cb : κ) :
    pending (q ++ q') cb = pending q cb + pending q' cb := List.countP_append

theorem pending_cons (ev : ScheduledEvent κ) (q : List (ScheduledEvent κ)) (cb : κ) :
    pending (ev :: q) cb = pending q cb + if ev.callback = cb then 1 else 0 := by
  simp [pending, List.countP_cons]

end pending

/-- A list of events, sorted by their times. -/
structure OrderedEventQueue (κ : Type) where
  events : List (ScheduledEvent κ)
  sorted : events.Pairwise fun a b => a.timeToOccur ≤ b.timeToOccur

variable {κ : Type}

theorem pairwise_orderedInsert {event : ScheduledEvent κ} {events : List (ScheduledEvent κ)}
    (h : events.Pairwise fun a b => a.timeToOccur ≤ b.timeToOccur) :
    (events.orderedInsert (fun a b => a.timeToOccur < b.timeToOccur) event).Pairwise
      fun a b => a.timeToOccur ≤ b.timeToOccur := by
  induction events with
  | nil => exact List.pairwise_singleton _ _
  | cons it events ih =>
      obtain ⟨hit, hevents⟩ := List.pairwise_cons.mp h
      rw [List.orderedInsert_cons]
      split_ifs with hlt
      · refine List.pairwise_cons.mpr ⟨?_, h⟩
        intro other hother
        obtain rfl | hother := List.mem_cons.mp hother
        · exact Int.le_of_lt hlt
        · exact (Int.le_of_lt hlt).trans (hit other hother)
      · refine List.pairwise_cons.mpr ⟨?_, ih hevents⟩
        intro other hother
        obtain rfl | hother := (List.mem_orderedInsert _).mp hother
        · exact not_lt.mp hlt
        · exact hit other hother

namespace OrderedEventQueue

def empty : OrderedEventQueue κ := ⟨[], List.Pairwise.nil⟩

/-- `addEvent`: before the first event that is strictly later. -/
def addEvent (q : OrderedEventQueue κ) (event : ScheduledEvent κ) : OrderedEventQueue κ :=
  ⟨q.events.orderedInsert (fun a b => a.timeToOccur < b.timeToOccur) event,
    pairwise_orderedInsert q.sorted⟩

def getNextEvent (q : OrderedEventQueue κ) : Option (ScheduledEvent κ) := q.events.head?

/-- `removeNextEvent`; the caller has looked whether there is an event. -/
def removeNextEvent : OrderedEventQueue κ → Option (ScheduledEvent κ × OrderedEventQueue κ)
  | ⟨[], _⟩ => none
  | ⟨ev :: events, sorted⟩ => some (ev, ⟨events, sorted.of_cons⟩)

theorem addEvent_perm (q : OrderedEventQueue κ) (event : ScheduledEvent κ) :
    (q.addEvent event).events.Perm (event :: q.events) := List.perm_orderedInsert _ event q.events

/-- The events of a kind keep their order, and a new one comes last, unless one of its kind is
later. -/
theorem filterMap_addEvent {α : Type} {f : ScheduledEvent κ → Option α} {q : OrderedEventQueue κ}
    {event : ScheduledEvent κ}
    (h : (f event).isSome → ∀ ev ∈ q.events, (f ev).isSome → ev.timeToOccur ≤ event.timeToOccur) :
    (q.addEvent event).events.filterMap f = q.events.filterMap f ++ (f event).toList := by
  obtain ⟨events, sorted⟩ := q
  unfold addEvent
  simp only at h ⊢
  induction events with
  | nil => cases hf : f event <;> simp [hf]
  | cons it events ih =>
      obtain ⟨hit, hevents⟩ := List.pairwise_cons.mp sorted
      rw [List.orderedInsert_cons]
      split_ifs with hlt
      · cases hf : f event with
        | none => simp [hf]
        | some a =>
            -- all that is behind the new event is later, so nothing of its kind is there
            have hlater : ∀ ev ∈ it :: events, event.timeToOccur < ev.timeToOccur := by
              intro ev hev
              obtain rfl | hev := List.mem_cons.mp hev
              · exact hlt
              · exact lt_of_lt_of_le hlt (hit ev hev)
            have hnone : (it :: events).filterMap f = [] := by
              rw [List.filterMap_eq_nil_iff]
              intro ev hev
              by_contra hsome
              have hle := h (by simp [hf]) ev hev (Option.isSome_iff_ne_none.mpr hsome)
              exact absurd hle (not_le.mpr (hlater ev hev))
            rw [List.filterMap_cons_some hf, hnone]
            rfl
      · have hrest := ih hevents fun hf ev hev => h hf ev (List.mem_cons_of_mem it hev)
        simp only [List.filterMap_cons, hrest]
        cases f it <;> rfl

theorem removeNextEvent_spec {q q' : OrderedEventQueue κ} {ev : ScheduledEvent κ}
    (h : q.removeNextEvent = some (ev, q')) :
    q.events = ev :: q'.events ∧ ∀ other ∈ q'.events, ev.timeToOccur ≤ other.timeToOccur := by
  obtain ⟨events, sorted⟩ := q
  cases events with
  | nil => cases h
  | cons first events =>
      obtain ⟨rfl, rfl⟩ := Prod.mk.inj (Option.some.inj h)
      exact ⟨rfl, (List.pairwise_cons.mp sorted).1⟩

theorem removeNextEvent_eq_none {q : OrderedEventQueue κ} (h : q.removeNextEvent = none) :
    q.events = [] := by
  obtain ⟨events, sorted⟩ := q
  cases events with
  | nil => rfl
  | cons first events => cases h

theorem removeNextEvent_of_nil {q : OrderedEventQueue κ} (h : q.events = []) :
    q.removeNextEvent = none := by
  obtain ⟨events, sorted⟩ := q
  subst h
  rfl

/-- A queue that is not empty has a next event, and it is the earliest. -/
theorem getNextEvent_of_mem {q : OrderedEventQueue κ} {ev : ScheduledEvent κ} (h : ev ∈ q.events) :
    ∃ next, q.getNextEvent = some next ∧ ∀ other ∈ q.events, next.timeToOccur ≤ other.timeToOccur := by
  obtain ⟨events, sorted⟩ := q
  cases events with
  | nil => cases h
  | cons first events =>
      refine ⟨first, rfl, List.forall_mem_cons.mpr ⟨le_rfl, ?_⟩⟩
      exact (List.pairwise_cons.mp sorted).1

/-- `addEvent` sorts one more event. -/
theorem addEvent_stableSort {q : OrderedEventQueue κ} {pending : List (ScheduledEvent κ)}
    (h : StableSort ScheduledEvent.timeToOccur pending q.events) (event : ScheduledEvent κ) :
    StableSort ScheduledEvent.timeToOccur (pending ++ [event]) (q.addEvent event).events := by
  refine ⟨(q.addEvent event).sorted, ?_⟩
  intro k
  have hkind : (q.addEvent event).events.filterMap
      (fun ev => if ev.timeToOccur = k then some ev else none) =
        q.events.filterMap (fun ev => if ev.timeToOccur = k then some ev else none) ++
          (if event.timeToOccur = k then some event else none).toList := by
    apply filterMap_addEvent
    intro hevent ev _ hev
    simp only [Option.isSome_ite] at hevent hev
    omega
  have hfilter : ∀ l : List (ScheduledEvent κ), (l.filter fun ev => ev.timeToOccur = k) =
      l.filterMap fun ev => if ev.timeToOccur = k then some ev else none := by
    intro l
    rw [← List.filterMap_eq_filter]
    simp [Option.guard_def]
  rw [hfilter, hkind, ← hfilter, h.filter, List.filter_append]
  by_cases hk : event.timeToOccur = k <;> simp [hk]

end OrderedEventQueue

/-! ### The queue as a stable priority queue -/

inductive QueueCall (κ : Type) where
  | addEvent (event : ScheduledEvent κ)
  | removeNextEvent
deriving DecidableEq

/-- A queue with the events that have been added and removed so far, and those that are pending, in
the order in which they were added. -/
structure QueueHistory (κ : Type) where
  queue : OrderedEventQueue κ
  added : List (ScheduledEvent κ)
  removed : List (ScheduledEvent κ)
  pending : List (ScheduledEvent κ)

namespace QueueHistory

def new : QueueHistory κ := ⟨.empty, [], [], []⟩

/-- One call.  Nobody removes an event from an empty queue; such a call is skipped. -/
def step (s : QueueHistory κ) : QueueCall κ → QueueHistory κ
  | .addEvent event =>
      { s with
        queue := s.queue.addEvent event
        added := s.added ++ [event]
        pending := s.pending ++ [event] }
  | .removeNextEvent =>
      match s.queue.removeNextEvent with
      | none => s
      | some (ev, queue) =>
          { s with
            queue
            removed := s.removed ++ [ev]
            pending := ((takeFirst ScheduledEvent.timeToOccur s.pending).map Prod.snd).getD [] }

/-- The queue is the stable sort of the pending events, and none is lost. -/
structure Refines (s : QueueHistory κ) : Prop where
  stable : StableSort ScheduledEvent.timeToOccur s.pending s.queue.events
  conserved : s.added.Perm (s.removed ++ s.queue.events)

theorem Refines.removeNextEvent {s : QueueHistory κ} (h : s.Refines) {ev : ScheduledEvent κ}
    {queue : OrderedEventQueue κ} (hsome : s.queue.removeNextEvent = some (ev, queue)) :
    ∃ rest, takeFirst ScheduledEvent.timeToOccur s.pending = some (ev, rest) ∧
      StableSort ScheduledEvent.timeToOccur rest queue.events := by
  obtain ⟨hevents, -⟩ := OrderedEventQueue.removeNextEvent_spec hsome
  cases hfirst : takeFirst ScheduledEvent.timeToOccur s.pending with
  | none =>
      have hmem : ev ∈ s.pending := h.stable.mem_iff.mp (by simp [hevents])
      rw [takeFirst_eq_none hfirst] at hmem
      exact absurd hmem List.not_mem_nil
  | some p =>
      obtain ⟨first, rest⟩ := p
      have hrest := @stableSort_mergeSort _ _ _ ScheduledEvent.timeToOccur rest
      have heq := h.stable.unique (stableSort_takeFirst hfirst hrest)
      rw [hevents] at heq
      obtain ⟨rfl, htail⟩ := List.cons.inj heq
      exact ⟨rest, rfl, htail ▸ hrest⟩

theorem Refines.step {s : QueueHistory κ} (h : s.Refines) (call : QueueCall κ) :
    (s.step call).Refines := by
  cases call with
  | addEvent event =>
      refine ⟨OrderedEventQueue.addEvent_stableSort h.stable event, ?_⟩
      calc s.added ++ [event]
        _ ~ event :: s.added := List.perm_append_singleton _ _
        _ ~ event :: (s.removed ++ s.queue.events) := h.conserved.cons event
        _ ~ s.removed ++ event :: s.queue.events := List.perm_middle.symm
        _ ~ _ := (s.queue.addEvent_perm event).symm.append_left _
  | removeNextEvent =>
      unfold QueueHistory.step
      cases hsome : s.queue.removeNextEvent with
      | none => exact h
      | some p =>
          obtain ⟨ev, queue⟩ := p
          obtain ⟨rest, hfirst, hstable⟩ := h.removeNextEvent hsome
          obtain ⟨hevents, -⟩ := OrderedEventQueue.removeNextEvent_spec hsome
          constructor
          · simpa [hfirst] using hstable
          · simpa [hevents] using h.conserved

theorem refines_run (calls : List (QueueCall κ)) :
    (run QueueHistory.step .new calls).Refines := by
  refine run_induction (fun s call h => h.step call) ⟨⟨List.Pairwise.nil, ?_⟩, .nil⟩ calls
  simp [new, OrderedEventQueue.empty]

theorem drain_eq (s : QueueHistory κ) :
    (run QueueHistory.step s
      (List.replicate s.queue.events.length .removeNextEvent)).removed =
        s.removed ++ s.queue.events := by
  induction hevents : s.queue.events generalizing s with
  | nil => simp
  | cons ev events ih =>
      cases hsome : s.queue.removeNextEvent with
      | none =>
          rw [OrderedEventQueue.removeNextEvent_eq_none hsome] at hevents
          cases hevents
      | some p =>
          obtain ⟨hsplit, -⟩ := OrderedEventQueue.removeNextEvent_spec hsome
          obtain ⟨rfl, rfl⟩ := List.cons.inj (hevents.symm.trans hsplit)
          rw [List.length_cons, List.replicate_succ, run_cons, ih]
          · simp [QueueHistory.step, hsome]
          · simp [QueueHistory.step, hsome]

theorem run_addEvent (s : QueueHistory κ) (events : List (ScheduledEvent κ)) :
    (run QueueHistory.step s (events.map .addEvent)).pending = s.pending ++ events ∧
      (run QueueHistory.step s (events.map .addEvent)).removed = s.removed := by
  induction events generalizing s with
  | nil => simp
  | cons event events ih =>
      rw [List.map_cons, run_cons, (ih _).1, (ih _).2]
      simp [QueueHistory.step]

/-- **The queue is a stable priority queue.**  After every sequence of calls its list is sorted and
holds what was added and not removed; what it removes next is the first added of the earliest
events; and what comes out of it in the end is the stable sort of what was put in. -/
theorem stable_priority_queue (calls : List (QueueCall κ)) :
    let s := run QueueHistory.step .new calls
    (s.queue.events.Pairwise fun a b => a.timeToOccur ≤ b.timeToOccur) ∧
    s.added.Perm (s.removed ++ s.queue.events) ∧ s.pending.Perm s.queue.events ∧
    (∀ ev queue, s.queue.removeNextEvent = some (ev, queue) → ∃ before after,
      s.pending = before ++ ev :: after ∧
      (s.step .removeNextEvent).pending = before ++ after ∧
      (∀ other ∈ before, ev.timeToOccur < other.timeToOccur) ∧
      ∀ other ∈ after, ev.timeToOccur ≤ other.timeToOccur) ∧
    ∀ events : List (ScheduledEvent κ),
      (run QueueHistory.step .new (events.map .addEvent ++
        List.replicate events.length .removeNextEvent)).removed =
          events.mergeSort fun a b => a.timeToOccur ≤ b.timeToOccur := by
  intro s
  have h : s.Refines := refines_run calls
  have hmerge : ∀ {s : QueueHistory κ}, s.Refines →
      s.queue.events = s.pending.mergeSort fun a b => a.timeToOccur ≤ b.timeToOccur :=
    fun h => h.stable.unique (stableSort_mergeSort _)
  refine ⟨s.queue.sorted, h.conserved, ?_, ?_, ?_⟩
  · rw [hmerge h]
    exact (List.mergeSort_perm _ _).symm
  · intro ev queue hsome
    obtain ⟨rest, hfirst, -⟩ := h.removeNextEvent hsome
    obtain ⟨before, after, hpending, rfl, hbefore, hafter⟩ := takeFirst_spec hfirst
    refine ⟨before, after, hpending, ?_, hbefore, hafter⟩
    simp [QueueHistory.step, hsome, hfirst]
  · intro events
    obtain ⟨hpending, hremoved⟩ := run_addEvent (new : QueueHistory κ) events
    have hsorted := hmerge (refines_run (events.map .addEvent))
    rw [hpending] at hsorted
    have hlength : events.length =
        (run QueueHistory.step .new (events.map .addEvent)).queue.events.length := by
      rw [hsorted, List.length_mergeSort]
      rfl
    rw [run_append, hlength, drain_eq, hremoved, hsorted]
    rfl

end QueueHistory

end NetBridge
