import NetBridge.Network

/-! # Programs on the simulated network

A program on the simulator sees its own state (`ω`), its own timers in the queue and the clock; the
topology and the packets on their way are the network's business.  `Program.View` is what it sees.
An assertion about the view is an `Invariant` if it is kept by the reactions of the program to a line,
to a packet and to one of its timers, and when the clock goes forward; then it holds in every state of
a run (`Invariant.run`).  Without console input the clock never passes a timer. -/

namespace NetBridge

open scoped List

variable {δ ω κ : Type}

/-- The event, if it is a timer of the program. -/
def ScheduledEvent.own (ev : ScheduledEvent (Callback κ)) : Option (ScheduledEvent κ) :=
  match ev.callback with
  | .deliverPkt .. => none
  | .other cb => some ⟨ev.timeToOccur, cb⟩

theorem ScheduledEvent.own_eq_some {ev : ScheduledEvent (Callback κ)} {ev' : ScheduledEvent κ} :
    ev.own = some ev' ↔ ev = ⟨ev'.timeToOccur, .other ev'.callback⟩ := by
  obtain ⟨time, cb⟩ := ev
  obtain ⟨time', cb'⟩ := ev'
  cases cb with
  | deliverPkt => simp [own]
  | other cb => simp [own]

/-- The timers of the program that are in the queue. -/
def Simulator.timers (s : Simulator (Net δ ω) (Callback κ)) : List (ScheduledEvent κ) :=
  s.sortedEvents.events.filterMap ScheduledEvent.own

/-- The timer that a call asks for at `now` milliseconds. -/
def NetCall.timer (now : Int) : NetCall δ κ → Option (ScheduledEvent κ)
  | .request r => r.event now
  | _ => none

/-- The timers of the program that have run, with the clock then. -/
def Simulator.ownRan (s : Simulator (Net δ ω) (Callback κ)) : List (ScheduledEvent κ × Int) :=
  s.ran.filterMap fun p => p.1.own.map (·, p.2)

/-- The timers that a reaction asks for. -/
def NetReaction.timers (now : Int) (r : NetReaction δ ω κ) : List (ScheduledEvent κ) :=
  r.calls.filterMap (NetCall.timer now)

/-! ### What a reaction does to the queue -/

theorem Request.event_map (r : Request κ) (now : Int) :
    ((r.map Callback.other).event now).bind ScheduledEvent.own = r.event now := by
  cases r with
  | addTimerAt tMs cb => cases cb <;> rfl
  | addTimer deltaMs cb => cases cb <;> rfl
  | addEventAtMicros timeMicros cb =>
      simp only [Request.map, Request.event]
      split_ifs
      · rfl
      · cases cb <;> rfl

namespace Simulator

theorem foldl_request_events {ω' κ' : Type} (requests : List (Request κ')) (s : Simulator ω' κ') :
    (requests.foldl request s).sortedEvents.events ~
      s.sortedEvents.events ++ requests.filterMap (Request.event s.now) := by
  induction requests generalizing s with
  | nil => simp
  | cons r requests ih =>
      have hnow : (s.request r).now = s.now := by rw [request_eq]; rfl
      have hevents : (s.request r).sortedEvents.events ~
          s.sortedEvents.events ++ (r.event s.now).toList := by
        rw [request_eq]
        cases r.event s.now with
        | none => simp
        | some ev =>
            exact (s.sortedEvents.addEvent_perm ev).trans (List.perm_append_singleton ev _).symm
      have htail := (ih (s.request r)).trans (hevents.append_right _)
      rw [hnow, List.append_assoc] at htail
      refine htail.trans (.of_eq ?_)
      cases hev : r.event s.now with
      | none => rw [List.filterMap_cons_none hev]; rfl
      | some ev => rw [List.filterMap_cons_some hev]; rfl

end Simulator

section react
variable [Zero δ]

namespace Net

/-- The events of the requests that are timers of the program. -/
def ownEvents (now : Int) (requests : List (Request (Callback κ))) : List (ScheduledEvent κ) :=
  (requests.filterMap (Request.event now)).filterMap ScheduledEvent.own

omit [Zero δ] in
theorem ownEvents_append (now : Int) (rs rs' : List (Request (Callback κ))) :
    ownEvents now (rs ++ rs') = ownEvents now rs ++ ownEvents now rs' := by
  simp [ownEvents]

theorem transmit_frame (now nowMicros src dest : Int) (pkt : List UInt8) (draw : Bool)
    (n : Net δ ω) :
    (n.transmit (κ := κ) nowMicros src dest pkt draw).1.rest = n.rest ∧
      ownEvents now (n.transmit (κ := κ) nowMicros src dest pkt draw).2.1 = [] := by
  unfold transmit
  split
  · exact ⟨rfl, rfl⟩
  · split
    · exact ⟨rfl, rfl⟩
    · simp only
      split_ifs
      · exact ⟨rfl, rfl⟩
      · refine ⟨rfl, ?_⟩
        simp only [ownEvents, List.filterMap_cons, List.filterMap_nil, Request.event]
        split_ifs <;> rfl

theorem broadcast_frame (now nowMicros src : Int) (pkt : List UInt8) (draw : Int → Bool)
    (is : List Int) (n : Net δ ω) :
    (n.broadcast (κ := κ) nowMicros src pkt draw is).1.rest = n.rest ∧
      ownEvents now (n.broadcast (κ := κ) nowMicros src pkt draw is).2.1 = [] := by
  induction is generalizing n with
  | nil => exact ⟨rfl, rfl⟩
  | cons i is ih =>
      obtain ⟨hrest, hown⟩ := n.transmit_frame (κ := κ) now nowMicros src i pkt (draw i)
      unfold broadcast
      split
      · next n₁ requests err heq =>
          rw [heq] at hrest hown
          exact ⟨hrest, hown⟩
      · next n₁ requests ok heq =>
          rw [heq] at hrest hown
          obtain ⟨hrest', hown'⟩ := ih n₁
          exact ⟨hrest'.trans hrest, by rw [ownEvents_append, hown, hown']; rfl⟩

theorem sendPkt_frame (now : Int) (numNodes : ℕ) (nowMicros src dest : Int) (pkt : List UInt8)
    (draw : Int → Bool) (n : Net δ ω) :
    (n.sendPkt (κ := κ) numNodes nowMicros src dest pkt draw).1.rest = n.rest ∧
      ownEvents now (n.sendPkt (κ := κ) numNodes nowMicros src dest pkt draw).2.1 = [] := by
  unfold sendPkt
  split
  · exact ⟨rfl, rfl⟩
  · split_ifs
    · exact n.broadcast_frame now nowMicros src pkt draw _
    · exact n.transmit_frame now nowMicros src dest pkt _

theorem perform_frame (now : Int) (numNodes : ℕ) (nowMicros : Int) (n : Net δ ω)
    (c : NetCall δ κ) :
    (n.perform numNodes nowMicros c).1.rest = n.rest ∧
      ownEvents now (n.perform numNodes nowMicros c).2 = (c.timer now).toList := by
  cases c with
  | request r =>
      refine ⟨rfl, ?_⟩
      have hmap := r.event_map now
      show ownEvents now [r.map Callback.other] = (r.event now).toList
      unfold ownEvents
      cases hev : (r.map Callback.other).event now with
      | none =>
          rw [hev] at hmap
          simp [hev, ← hmap]
      | some ev =>
          rw [hev] at hmap
          rw [List.filterMap_cons_some hev, ← hmap]
          cases hown : ev.own <;> simp [hown]
  | sendPkt src dest pkt draw => exact n.sendPkt_frame now numNodes nowMicros src dest pkt draw
  | newEdge | failEdge | restartEdge | failNode | restartNode => exact ⟨rfl, rfl⟩

theorem performAll_frame (now : Int) (numNodes : ℕ) (nowMicros : Int) (calls : List (NetCall δ κ))
    (n : Net δ ω) :
    (n.performAll numNodes nowMicros calls).1.rest = n.rest ∧
      ownEvents now (n.performAll numNodes nowMicros calls).2 =
        calls.filterMap (NetCall.timer now) := by
  induction calls generalizing n with
  | nil => exact ⟨rfl, rfl⟩
  | cons c calls ih =>
      obtain ⟨hrest, hown⟩ := n.perform_frame now numNodes nowMicros c
      obtain ⟨hrest', hown'⟩ := ih (n.perform numNodes nowMicros c).1
      refine ⟨hrest'.trans hrest, ?_⟩
      show ownEvents now ((n.perform numNodes nowMicros c).2 ++
        ((n.perform numNodes nowMicros c).1.performAll numNodes nowMicros calls).2) = _
      rw [ownEvents_append, hown, hown']
      cases htimer : c.timer now with
      | none => rw [List.filterMap_cons_none htimer]; rfl
      | some ev => rw [List.filterMap_cons_some htimer]; rfl

end Net

namespace Simulator

theorem respond_react (numNodes : ℕ) (s : Simulator (Net δ ω) (Callback κ))
    (r : NetReaction δ ω κ) :
    (s.respond (s.world.react numNodes s.nowMicros r)).world.rest = r.rest ∧
      (s.respond (s.world.react numNodes s.nowMicros r)).timers ~ s.timers ++ r.timers s.now := by
  obtain ⟨hrest, hown⟩ :=
    { s.world with rest := r.rest }.performAll_frame s.now numNodes s.nowMicros r.calls
  constructor
  · have hworld := (Program.foldl_request (s.world.react numNodes s.nowMicros r).requests
      { s with world := (s.world.react numNodes s.nowMicros r).world } s.world).2.2
    exact (congrArg Net.rest hworld).trans hrest
  · have hevents := foldl_request_events
      (s.world.react numNodes s.nowMicros r).requests
      { s with world := (s.world.react numNodes s.nowMicros r).world }
    have hfilter := hevents.filterMap ScheduledEvent.own
    rw [List.filterMap_append] at hfilter
    refine hfilter.trans (.of_eq (congrArg _ ?_))
    exact hown

omit [Zero δ] in
/-- The timers after an event has been taken out of the queue. -/
theorem timers_of_removeNextEvent {s : Simulator (Net δ ω) (Callback κ)}
    {ev : ScheduledEvent (Callback κ)} {sortedEvents : OrderedEventQueue (Callback κ)}
    (h : s.sortedEvents.removeNextEvent = some (ev, sortedEvents)) :
    s.timers = ev.own.toList ++ sortedEvents.events.filterMap ScheduledEvent.own := by
  rw [timers, (OrderedEventQueue.removeNextEvent_spec h).1]
  cases hown : ev.own with
  | none => rw [List.filterMap_cons_none hown]; rfl
  | some ev' => rw [List.filterMap_cons_some hown]; rfl

omit [Zero δ] in
/-- Without an event before it, the clock goes to the next event, so it passes none. -/
theorem deltaTime_le {s : Simulator (Net δ ω) (Callback κ)} {ev : ScheduledEvent κ}
    (hev : ev ∈ s.timers) :
    max s.nowMicros (s.nowMicros + s.deltaTime) ≤ max s.nowMicros ev.timeToOccur := by
  obtain ⟨ev', hev', hown⟩ := List.mem_filterMap.mp hev
  have htime : ev'.timeToOccur = ev.timeToOccur := by
    rw [ScheduledEvent.own_eq_some] at hown
    rw [hown]
  have hsorted := s.sortedEvents.sorted
  unfold deltaTime OrderedEventQueue.getNextEvent
  cases hevents : s.sortedEvents.events with
  | nil =>
      rw [hevents] at hev'
      cases hev'
  | cons first rest =>
      rw [hevents] at hev' hsorted
      have hfirst : first.timeToOccur ≤ ev'.timeToOccur := by
        obtain rfl | hrest := List.mem_cons.mp hev'
        · exact le_rfl
        · exact (List.pairwise_cons.mp hsorted).1 ev' hrest
      simp only [List.head?_cons]
      omega

end Simulator

/-! ### A rule for programs -/

namespace Program

/-- What a program can see: its state, its timers, those that have run and when, and the clock. -/
structure View (ω κ : Type) where
  rest : ω
  timers : List (ScheduledEvent κ)
  ran : List (ScheduledEvent κ × Int)
  nowMicros : Int

/-- The view after a reaction. -/
def View.after (v : View ω κ) (r : NetReaction δ ω κ) : View ω κ :=
  { v with rest := r.rest, timers := v.timers ++ r.timers (v.nowMicros.tdiv 1000) }

def view (s : Simulator (Net δ ω) (Callback κ)) : View ω κ :=
  ⟨s.world.rest, s.timers, s.ownRan, s.nowMicros⟩

/-- The assertion holds as long as the program runs. -/
def Meets (I : View ω κ → Prop) (s : Simulator (Net δ ω) (Callback κ)) : Prop :=
  s.running = true → I (view s)

/-- What an assertion needs in order to hold in every state of a run. -/
structure Invariant (P : Program δ ω κ) (unattended : Prop) (I : View ω κ → Prop) : Prop where
  perm : ∀ {v : View ω κ} {q}, v.timers ~ q → I v → I { v with timers := q }
  clock : ∀ {v : View ω κ} {t}, v.nowMicros ≤ t →
    (unattended → ∀ ev ∈ v.timers, t ≤ max v.nowMicros ev.timeToOccur) →
    I v → I { v with nowMicros := t }
  line : ∀ {n : Net δ ω} {v : View ω κ} {line nowMicros}, n.rest = v.rest → I v →
    (P.parseLine n line nowMicros v.nowMicros).2.outcome = .returned →
    I (v.after (P.parseLine n line nowMicros v.nowMicros).2)
  deliver : ∀ {n : Net δ ω} {v : View ω κ} {src dest pkt}, n.rest = v.rest → I v →
    (P.callback n (.deliverPkt src dest pkt) v.nowMicros).outcome ≠ .exits →
    I (v.after (P.callback n (.deliverPkt src dest pkt) v.nowMicros))
  timer : ∀ {n : Net δ ω} {v : View ω κ} (ev), n.rest = v.rest →
    I { v with timers := ev :: v.timers } → ev.timeToOccur ≤ v.nowMicros →
    (P.callback n (.other ev.callback) v.nowMicros).outcome ≠ .exits →
    I ({ v with ran := v.ran ++ [(ev, v.nowMicros)] }.after
      (P.callback n (.other ev.callback) v.nowMicros))

variable {P : Program δ ω κ} {I : View ω κ → Prop} {unattended : Prop}

theorem Invariant.respond (hI : P.Invariant unattended I)
    {s : Simulator (Net δ ω) (Callback κ)} {r : NetReaction δ ω κ} (h : I ((view s).after r)) :
    I (view (s.respond (s.world.react P.numNodes s.nowMicros r))) := by
  obtain ⟨hrest, htimers⟩ := s.respond_react P.numNodes r
  have hasks := s.respond_asks (s.world.react P.numNodes s.nowMicros r)
  have hview := hI.perm htimers.symm h
  unfold view Simulator.ownRan
  rw [hrest, hasks.nowMicros, hasks.ran]
  exact hview

theorem Invariant.parseLine (hI : P.Invariant unattended I)
    {s : Simulator (Net δ ω) (Callback κ)} (h : I (view s)) (line : Str) (nowMicros : Int) :
    Meets I (s.parseLine P.behaviour line nowMicros).1 := by
  intro hrun
  exact hI.respond (hI.line (n := s.world) (v := view s) rfl h (of_decide_eq_true hrun))

theorem Invariant.readCommandFile (hI : P.Invariant unattended I)
    {s : Simulator (Net δ ω) (Callback κ)} (h : I (view s)) :
    Meets I (s.readCommandFile P.behaviour) := by
  unfold Simulator.readCommandFile
  split
  · exact fun _ => h
  · next lines _ =>
      split_ifs
      · cases lines with
        | nil => exact fun _ => h
        | cons line lines =>
            exact hI.parseLine (s := { s with commandFile := some lines }) h line (s.now * 1000)
      · exact fun _ => h

theorem Invariant.innerLoop (hI : P.Invariant unattended I)
    {s : Simulator (Net δ ω) (Callback κ)} (h : I (view s)) :
    Meets I (s.innerLoop P.behaviour) := by
  unfold Simulator.innerLoop
  split
  · exact fun _ => h
  · next ev sortedEvents hnext =>
      split_ifs with hlate
      · exact fun _ => h
      · intro hrun
        have houtcome : (P.callback s.world ev.callback s.nowMicros).outcome ≠ .exits :=
          of_decide_eq_true hrun
        have htimers := Simulator.timers_of_removeNextEvent hnext
        obtain ⟨time, cb⟩ := ev
        set s₁ : Simulator (Net δ ω) (Callback κ) :=
          { s with sortedEvents, ran := s.ran ++ [(⟨time, cb⟩, s.nowMicros)] } with hs₁
        apply hI.respond (s := s₁)
        cases cb with
        | deliverPkt src dest pkt =>
            have hview : view s = view s₁ := by
              simp only [view, Simulator.ownRan, htimers, hs₁, List.filterMap_append]
              simp [ScheduledEvent.own, Simulator.timers]
            rw [hview] at h
            exact hI.deliver (n := s.world) (v := view s₁) rfl h houtcome
        | other cb =>
            have hran : s₁.ownRan = s.ownRan ++ [(⟨time, cb⟩, s.nowMicros)] := by
              simp [Simulator.ownRan, hs₁, ScheduledEvent.own]
            have hview : view s₁ = { view s with
                timers := s₁.timers, ran := (view s).ran ++ [(⟨time, cb⟩, (view s).nowMicros)] } := by
              rw [view, hran]
              rfl
            rw [hview]
            refine hI.timer (n := s.world) (v := { view s with timers := s₁.timers })
              ⟨time, cb⟩ rfl ?_ (not_lt.mp hlate) houtcome
            have hold : view s = { view s with timers := ⟨time, cb⟩ :: s₁.timers } := by
              rw [view, htimers]
              rfl
            rwa [hold] at h

/-- **The rule.**  One round keeps an invariant of the program. -/
theorem Invariant.step (hI : P.Invariant unattended I) (hscaled : ∀ d, 0 ≤ d → 0 ≤ P.scaled d)
    {input : Option Str × Int} (helapsed : 0 ≤ input.2) (hinput : unattended → input.1 = none)
    {s : Simulator (Net δ ω) (Callback κ)} (h : Meets I s) :
    Meets I (s.step P.behaviour input) := by
  unfold Simulator.step
  split_ifs with hstopped hdraining
  · exact h
  · exact hI.innerLoop (h (by simpa using hstopped))
  · have hread := hI.readCommandFile (h (by simpa using hstopped))
    unfold Simulator.outerLoop
    generalize s.readCommandFile P.behaviour = s₁ at hread
    simp only
    split_ifs with hended
    · exact hread
    · have h₁ := hread (by simpa using hended)
      obtain ⟨userInput, elapsed⟩ := input
      cases userInput with
      | some line =>
          have hforward : s₁.nowMicros ≤ s₁.nowMicros + P.scaled elapsed := by
            have := hscaled elapsed helapsed
            omega
          refine hI.parseLine (s := { s₁ with nowMicros := s₁.nowMicros + P.scaled elapsed })
            (hI.clock (v := view s₁) hforward ?_ h₁) line _
          intro hun
          cases hinput hun
      | none =>
          exact fun _ => hI.clock (v := view s₁) (le_max_left _ _)
            (fun _ ev hev => Simulator.deltaTime_le hev) h₁

/-- An invariant holds in every state of a run if it holds when the loop is entered. -/
theorem Invariant.run (hI : P.Invariant unattended I) (hscaled : ∀ d, 0 ≤ d → 0 ≤ P.scaled d)
    {inputs : List (Option Str × Int)} (helapsed : ∀ input ∈ inputs, 0 ≤ input.2)
    (hinputs : unattended → ∀ input ∈ inputs, input.1 = none)
    {s : Simulator (Net δ ω) (Callback κ)} (h : Meets I s) :
    Meets I (run (Simulator.step P.behaviour) s inputs) := by
  refine guarded_induction (P := fun _ input => 0 ≤ input.2 ∧ (unattended → input.1 = none))
    (fun s input h hinput => hI.step hscaled hinput.1 hinput.2 h) h ?_
  exact guarded_of_forall (fun input hmem => ⟨helapsed input hmem, fun hun => hinputs hun input hmem⟩) s

/-- The view when the loop is entered: what the topology file and then the nodes ask for, at time 0. -/
theorem Invariant.start (hI : P.Invariant unattended I) (rest : ω)
    (commandFile : Option (List Str)) {topology nodes : NetReaction δ ω κ}
    (h : nodes.outcome = .returned →
      I { ((⟨rest, [], [], 0⟩ : View ω κ).after topology).after nodes with nowMicros := 1 }) :
    Meets I (P.start rest commandFile topology nodes) := by
  intro hrun
  have houtcome : nodes.outcome = .returned := of_decide_eq_true hrun
  unfold Program.start
  simp only
  set s₀ : Simulator (Net δ ω) (Callback κ) := .new ⟨.new false, [], rest⟩ commandFile
  set s₁ := s₀.respond (s₀.world.react P.numNodes s₀.nowMicros topology)
  have h₁ := s₀.respond_react P.numNodes topology
  have hasks₁ := s₀.respond_asks (s₀.world.react P.numNodes s₀.nowMicros topology)
  have h₂ := s₁.respond_react P.numNodes nodes
  have hasks₂ := s₁.respond_asks (s₁.world.react P.numNodes s₁.nowMicros nodes)
  have hnow : s₁.now = 0 := by
    unfold Simulator.now
    rw [show s₁.nowMicros = 0 from hasks₁.nowMicros]
    rfl
  have htimers := h₂.2.trans (h₁.2.append_right _)
  have hview := hI.perm htimers.symm (v := { rest := nodes.rest, timers := _, ran := [], nowMicros := 1 })
    (by rw [hnow]; exact h houtcome)
  unfold view Simulator.ownRan
  have hran : (s₁.respond (s₁.world.react P.numNodes s₁.nowMicros nodes)).ran = [] :=
    hasks₂.ran.trans hasks₁.ran
  have hrest := h₂.1
  simp only [Simulator.start, hran, hrest]
  exact hview

end Program

end react

end NetBridge
