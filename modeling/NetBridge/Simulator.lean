import NetBridge.OrderedEventQueue
import NetBridge.Run
import NetBridge.Text

/-! # The simulator's loop

`Simulator::start` (`simulator.cpp`) with the parts of `RuntimeManager` that it uses: the queue of
scheduled events, the command file and the simulated clock `nowMicros`.  A step of the model is one
round of the outer loop (`outerLoop`), which reads a line of the command file and waits for a line
from the console, or one round of the inner loop (`innerLoop`), which runs an event that is due.

What a callback or a line does is a parameter (`Behaviour`): it may change everything else of the
program (`ω`), ask for timers and events, throw, or end the program.  How long the outer loop waits
is left out: a step is given the line that came, if any, and the time that has passed on the wall
clock.  `requests` and `ran` record what was asked for and what has run. -/

namespace NetBridge

open scoped List

/-- A call that schedules a callback; `none` is an empty `std::function`. -/
inductive Request (κ : Type) where
  | addTimerAt (tMs : Int) (cb : Option κ)
  | addTimer (deltaMs : Int) (cb : Option κ)
  | addEventAtMicros (timeMicros : Int) (cb : Option κ)
deriving DecidableEq

/-- How a call ends: it returns, it throws an `std::exception`, or it ends the program (`exit`, or an
exception of another kind). -/
inductive Outcome where
  | returned
  | threw
  | exits
deriving DecidableEq

/-- What a call does to the simulator. -/
structure Response (ω κ : Type) where
  world : ω
  requests : List (Request κ)
  outcome : Outcome

/-- The rest of the program: what a line does, with the value of `parseLine`, given the time that
`parseLine` is called with and the time on the clock; what a callback does, given the clock;
and `static_cast<std::int64_t>(d * timescale_)`. -/
structure Behaviour (ω κ : Type) where
  parseLine : ω → Str → Int → Int → Int × Response ω κ
  callback : ω → κ → Int → Response ω κ
  scaled : Int → Int

/-- The simulator; `draining` says that the inner loop is entered. -/
structure Simulator (ω κ : Type) where
  nowMicros : Int
  sortedEvents : OrderedEventQueue κ
  commandFile : Option (List Str)
  deferParsingTill : Int
  draining : Bool
  running : Bool
  world : ω
  requests : List (Int × Request κ)
  ran : List (ScheduledEvent κ × Int)

variable {ω κ : Type}

namespace Simulator

def now (s : Simulator ω κ) : Int := s.nowMicros.tdiv 1000

def addTimerAt (s : Simulator ω κ) (tMs : Int) (cb : Option κ) : Simulator ω κ :=
  match cb with
  | none => s
  | some cb => { s with sortedEvents := s.sortedEvents.addEvent ⟨tMs * 1000, cb⟩ }

def addTimer (s : Simulator ω κ) (deltaMs : Int) (cb : Option κ) : Simulator ω κ :=
  s.addTimerAt (s.now + deltaMs) cb

def addEventAtMicros (s : Simulator ω κ) (timeMicros : Int) (cb : Option κ) : Simulator ω κ :=
  match cb with
  | none => s
  | some cb =>
      if timeMicros < 0 then s
      else { s with sortedEvents := s.sortedEvents.addEvent ⟨timeMicros, cb⟩ }

/-- A call, recorded with the time in milliseconds at which it is made. -/
def request (s : Simulator ω κ) (r : Request κ) : Simulator ω κ :=
  let s := { s with requests := s.requests ++ [(s.now, r)] }
  match r with
  | .addTimerAt tMs cb => s.addTimerAt tMs cb
  | .addTimer deltaMs cb => s.addTimer deltaMs cb
  | .addEventAtMicros timeMicros cb => s.addEventAtMicros timeMicros cb

def respond (s : Simulator ω κ) (r : Response ω κ) : Simulator ω κ :=
  r.requests.foldl request { s with world := r.world }

section loop
variable (B : Behaviour ω κ)

/-- A line is parsed outside of any `try`: an exception ends the run. -/
def parseLine (s : Simulator ω κ) (line : Str) (nowMicros : Int) : Simulator ω κ × Int :=
  let (deferTill, r) := B.parseLine s.world line nowMicros s.nowMicros
  ({ s.respond r with running := r.outcome = .returned }, deferTill)

/-- `readCommandFile`, which leaves its result in `deferParsingTill`. -/
def readCommandFile (s : Simulator ω κ) : Simulator ω κ :=
  match s.commandFile with
  | none => { s with deferParsingTill := -1 }
  | some lines =>
      if s.deferParsingTill ≤ s.now * 1000 then
        match lines with
        | line :: lines =>
            let (s, r) := { s with commandFile := some lines }.parseLine B line (s.now * 1000)
            { s with deferParsingTill := max r 0 }
        | [] => { s with commandFile := none, deferParsingTill := -1 }
      else s

/-- The time to the next event, or to the next line of the command file. -/
def deltaTime (s : Simulator ω κ) : Int :=
  match s.sortedEvents.getNextEvent with
  | some nextEvent => nextEvent.timeToOccur - s.nowMicros
  | none => if 0 ≤ s.deferParsingTill then s.deferParsingTill - s.nowMicros else 0

/-- A round of the outer loop, up to the inner loop. -/
def outerLoop (s : Simulator ω κ) (userInput : Option Str) (elapsed : Int) : Simulator ω κ :=
  let s := s.readCommandFile B
  if s.running = false then s
  else
    match userInput with
    | some line =>
        let s := { s with nowMicros := s.nowMicros + B.scaled elapsed }
        (s.parseLine B line s.nowMicros).1
    | none =>
        { s with nowMicros := max s.nowMicros (s.nowMicros + s.deltaTime), draining := true }

/-- A round of the inner loop. -/
def innerLoop (s : Simulator ω κ) : Simulator ω κ :=
  match s.sortedEvents.removeNextEvent with
  | none => { s with draining := false }
  | some (ev, sortedEvents) =>
      if ev.timeToOccur > s.nowMicros then { s with draining := false }
      else
        let s := { s with sortedEvents, ran := s.ran ++ [(ev, s.nowMicros)] }
        let r := B.callback s.world ev.callback s.nowMicros
        { s.respond r with running := r.outcome ≠ .exits }

/-- One round, with the line that `waitForLine` gives and the time that this takes. -/
def step (s : Simulator ω κ) (input : Option Str × Int) : Simulator ω κ :=
  if s.running = false then s
  else if s.draining then s.innerLoop B
  else s.outerLoop B input.1 input.2

end loop

/-- Before the constructor has read the topology file. -/
def new (world : ω) (commandFile : Option (List Str)) : Simulator ω κ :=
  ⟨0, .empty, commandFile, 0, false, false, world, [], []⟩

/-- `start`, up to the outer loop, where `r` is what the nodes do when they are started. -/
def start (s : Simulator ω κ) (r : Response ω κ) : Simulator ω κ :=
  { s.respond r with
    nowMicros := 1, deferParsingTill := 0, draining := false, running := r.outcome = .returned }

/-! ### What is asked for is queued -/

end Simulator

/-- The event that a call adds if it is made at `now`: none without a callback, and none at a
negative time in microseconds. -/
def Request.event (now : Int) : Request κ → Option (ScheduledEvent κ)
  | .addTimerAt tMs cb => cb.map fun cb => ⟨tMs * 1000, cb⟩
  | .addTimer deltaMs cb => cb.map fun cb => ⟨(now + deltaMs) * 1000, cb⟩
  | .addEventAtMicros timeMicros cb =>
      if timeMicros < 0 then none else cb.map fun cb => ⟨timeMicros, cb⟩

namespace Simulator

/-- The events that have been added. -/
def added (s : Simulator ω κ) : List (ScheduledEvent κ) :=
  s.requests.filterMap fun p => p.2.event p.1

/-- Every event that has been added has run once or is queued. -/
def Conserved (s : Simulator ω κ) : Prop :=
  s.added.Perm (s.ran.map Prod.fst ++ s.sortedEvents.events)

/-- From `s` to `s'` calls are made, but time stands still and nothing runs. -/
structure Asks (s s' : Simulator ω κ) : Prop where
  nowMicros : s'.nowMicros = s.nowMicros
  ran : s'.ran = s.ran
  draining : s'.draining = s.draining
  conserved : s.Conserved → s'.Conserved

theorem Asks.refl (s : Simulator ω κ) : Asks s s := ⟨rfl, rfl, rfl, id⟩

theorem Asks.trans {s₁ s₂ s₃ : Simulator ω κ} (h : Asks s₁ s₂) (h' : Asks s₂ s₃) : Asks s₁ s₃ :=
  ⟨h'.nowMicros.trans h.nowMicros, h'.ran.trans h.ran, h'.draining.trans h.draining,
    h'.conserved ∘ h.conserved⟩

theorem request_eq (s : Simulator ω κ) (r : Request κ) :
    s.request r =
      { s with
        requests := s.requests ++ [(s.now, r)]
        sortedEvents := (r.event s.now).elim s.sortedEvents s.sortedEvents.addEvent } := by
  cases r with
  | addTimerAt tMs cb => cases cb <;> rfl
  | addTimer deltaMs cb => cases cb <;> rfl
  | addEventAtMicros timeMicros cb =>
      simp only [request, addEventAtMicros, Request.event]
      cases cb with
      | none => split_ifs <;> rfl
      | some cb => split_ifs <;> rfl

theorem request_asks (s : Simulator ω κ) (r : Request κ) : Asks s (s.request r) := by
  rw [request_eq]
  refine ⟨rfl, rfl, rfl, ?_⟩
  intro h
  unfold Conserved added at *
  cases hevent : r.event s.now with
  | none =>
      simp only [List.filterMap_append, List.filterMap_cons, hevent, List.filterMap_nil,
        List.append_nil]
      exact h
  | some ev =>
      simp only [List.filterMap_append, List.filterMap_cons, hevent, List.filterMap_nil]
      calc _ ++ [ev] ~ ev :: _ := List.perm_append_singleton _ _
        _ ~ ev :: (s.ran.map Prod.fst ++ s.sortedEvents.events) := h.cons ev
        _ ~ s.ran.map Prod.fst ++ ev :: s.sortedEvents.events := List.perm_middle.symm
        _ ~ _ := (s.sortedEvents.addEvent_perm ev).symm.append_left _

theorem respond_asks (s : Simulator ω κ) (r : Response ω κ) : Asks s (s.respond r) := by
  have hfold : ∀ (rs : List (Request κ)) (s : Simulator ω κ), Asks s (rs.foldl request s) := by
    intro rs
    induction rs with
    | nil => exact Asks.refl
    | cons r rs ih => exact fun s => (request_asks s r).trans (ih _)
  obtain ⟨h1, h2, h3, h4⟩ := hfold r.requests { s with world := r.world }
  exact ⟨h1, h2, h3, h4⟩

section loop
variable {B : Behaviour ω κ}

theorem parseLine_asks (s : Simulator ω κ) (line : Str) (nowMicros : Int) :
    Asks s (s.parseLine B line nowMicros).1 := by
  obtain ⟨h1, h2, h3, h4⟩ := s.respond_asks (B.parseLine s.world line nowMicros s.nowMicros).2
  exact ⟨h1, h2, h3, h4⟩

theorem readCommandFile_asks (s : Simulator ω κ) : Asks s (s.readCommandFile B) := by
  unfold readCommandFile
  split
  · exact ⟨rfl, rfl, rfl, id⟩
  · split_ifs
    · split
      · next line lines _ =>
          obtain ⟨h1, h2, h3, h4⟩ :=
            parseLine_asks (B := B) { s with commandFile := some lines } line (s.now * 1000)
          exact ⟨h1, h2, h3, h4⟩
      · exact ⟨rfl, rfl, rfl, id⟩
    · exact Asks.refl s

/-! ### A rule for invariants -/

/-- What holds when the clock is put forward, after the calls of a line and after those of a callback,
holds after every round. -/
theorem step_rule {I : Simulator ω κ → Prop} (hscaled : ∀ d, 0 ≤ d → 0 ≤ B.scaled d)
    (hclock : ∀ s nowMicros commandFile deferParsingTill draining running, I s →
      s.nowMicros ≤ nowMicros →
      I { s with nowMicros, commandFile, deferParsingTill, draining, running })
    (hline : ∀ s line nowMicros, I s →
      I (s.respond (B.parseLine s.world line nowMicros s.nowMicros).2))
    (hcallback : ∀ s ev sortedEvents, I s →
      s.sortedEvents.removeNextEvent = some (ev, sortedEvents) →
      I ({ s with sortedEvents, ran := s.ran ++ [(ev, s.nowMicros)] }.respond
        (B.callback s.world ev.callback s.nowMicros)))
    {s : Simulator ω κ} (h : I s) {input : Option Str × Int} (helapsed : 0 ≤ input.2) :
    I (s.step B input) := by
  have hparse : ∀ s line nowMicros, I s → I (s.parseLine B line nowMicros).1 :=
    fun s line nowMicros h => hclock _ _ _ _ _ _ (hline s line nowMicros h) le_rfl
  have hread : I (s.readCommandFile B) := by
    unfold readCommandFile
    split
    · exact hclock s _ _ _ _ _ h le_rfl
    · split_ifs
      · split
        · apply hclock _ _ _ _ _ _ _ le_rfl
          exact hparse _ _ _ (hclock s _ _ _ _ _ h le_rfl)
        · exact hclock s _ _ _ _ _ h le_rfl
      · exact h
  unfold step
  split_ifs
  · exact h
  · unfold innerLoop
    split
    · exact hclock s _ _ _ _ _ h le_rfl
    · next hsome =>
        split_ifs
        · exact hclock s _ _ _ _ _ h le_rfl
        · exact hclock _ _ _ _ _ _ (hcallback s _ _ h hsome) le_rfl
  · unfold outerLoop
    simp only
    split_ifs
    · exact hread
    · split
      · apply hparse
        apply hclock _ _ _ _ _ _ hread
        have := hscaled input.2 helapsed
        omega
      · exact hclock _ _ _ _ _ _ hread (le_max_left _ _)

/-! ### Time and the events that run -/

/-- What holds in every state: an event has run when it was due, and none is lost. -/
structure Causal (s : Simulator ω κ) : Prop where
  due : ∀ p ∈ s.ran, p.1.timeToOccur ≤ p.2
  conserved : s.Conserved

theorem Causal.of_asks {s s' : Simulator ω κ} (h : s.Causal) (ha : Asks s s') : s'.Causal := by
  refine ⟨?_, ha.conserved h.conserved⟩
  rw [ha.ran]
  exact h.due

/-- A round of the outer loop moves the clock forward and runs nothing. -/
theorem outerLoop_spec (hscaled : ∀ d, 0 ≤ d → 0 ≤ B.scaled d) (s : Simulator ω κ)
    (userInput : Option Str) {elapsed : Int} (helapsed : 0 ≤ elapsed) :
    s.nowMicros ≤ (s.outerLoop B userInput elapsed).nowMicros ∧
      (s.Causal → (s.outerLoop B userInput elapsed).Causal) := by
  have hread := s.readCommandFile_asks (B := B)
  unfold outerLoop
  generalize s.readCommandFile B = s₁ at hread
  simp only
  split_ifs
  · exact ⟨hread.nowMicros.ge, fun h => h.of_asks hread⟩
  · cases userInput with
    | none =>
        refine ⟨hread.nowMicros.ge.trans (le_max_left _ _), ?_⟩
        intro h
        have hc := h.of_asks hread
        exact ⟨hc.due, hc.conserved⟩
    | some line =>
        have hparse := parseLine_asks (B := B)
          { s₁ with nowMicros := s₁.nowMicros + B.scaled elapsed } line
          (s₁.nowMicros + B.scaled elapsed)
        constructor
        · have hscale := hscaled elapsed helapsed
          calc s.nowMicros = s₁.nowMicros := hread.nowMicros.symm
            _ ≤ s₁.nowMicros + B.scaled elapsed := by omega
            _ = _ := hparse.nowMicros.symm
        · intro h
          have hc := h.of_asks hread
          have hmoved : Causal { s₁ with nowMicros := s₁.nowMicros + B.scaled elapsed } :=
            ⟨hc.due, hc.conserved⟩
          exact hmoved.of_asks hparse

/-- A round of the inner loop leaves the clock alone.  It runs an event that is due, or it ends the
loop when all events are later. -/
theorem innerLoop_spec (s : Simulator ω κ) :
    (s.innerLoop B).nowMicros = s.nowMicros ∧ (s.Causal → (s.innerLoop B).Causal) ∧
      (s.draining = true → (s.innerLoop B).draining = false →
        ∀ ev ∈ (s.innerLoop B).sortedEvents.events, s.nowMicros < ev.timeToOccur) := by
  unfold innerLoop
  split
  · next hnone =>
      refine ⟨rfl, fun h => ⟨h.due, h.conserved⟩, ?_⟩
      intro _ _ ev hev
      rw [OrderedEventQueue.removeNextEvent_eq_none hnone] at hev
      exact absurd hev List.not_mem_nil
  · next ev rest hsome =>
      obtain ⟨hevents, hfirst⟩ := OrderedEventQueue.removeNextEvent_spec hsome
      split_ifs with hlate
      · refine ⟨rfl, fun h => ⟨h.due, h.conserved⟩, ?_⟩
        intro _ _ other hother
        rw [hevents] at hother
        obtain rfl | hother := List.mem_cons.mp hother
        · exact hlate
        · exact lt_of_lt_of_le hlate (hfirst other hother)
      · have hreact := respond_asks
          { s with sortedEvents := rest, ran := s.ran ++ [(ev, s.nowMicros)] }
          (B.callback s.world ev.callback s.nowMicros)
        refine ⟨hreact.nowMicros, ?_, ?_⟩
        · intro h
          have hran : Causal
              { s with sortedEvents := rest, ran := s.ran ++ [(ev, s.nowMicros)] } := by
            constructor
            · intro p hp
              obtain hp | hp := List.mem_append.mp hp
              · exact h.due p hp
              · obtain rfl := List.mem_singleton.mp hp
                exact not_lt.mp hlate
            · have hc := h.conserved
              unfold Conserved added at *
              rw [hevents] at hc
              simp only [List.map_append, List.map_cons, List.map_nil, List.append_assoc,
                List.singleton_append]
              exact hc
          have hc := hran.of_asks hreact
          exact ⟨hc.due, hc.conserved⟩
        · intro hdraining hended
          have h := hreact.draining
          simp only at h hended
          rw [h, hdraining] at hended
          cases hended

theorem step_spec (hscaled : ∀ d, 0 ≤ d → 0 ≤ B.scaled d) (s : Simulator ω κ)
    {input : Option Str × Int} (helapsed : 0 ≤ input.2) :
    s.nowMicros ≤ (s.step B input).nowMicros ∧ (s.Causal → (s.step B input).Causal) := by
  unfold step
  split_ifs
  · exact ⟨le_rfl, id⟩
  · exact ⟨s.innerLoop_spec.1.ge, s.innerLoop_spec.2.1⟩
  · exact s.outerLoop_spec hscaled input.1 helapsed

theorem run_spec (hscaled : ∀ d, 0 ≤ d → 0 ≤ B.scaled d) (s : Simulator ω κ)
    {inputs : List (Option Str × Int)} (hclock : ∀ input ∈ inputs, 0 ≤ input.2) :
    s.nowMicros ≤ (run (step B) s inputs).nowMicros ∧
      (s.Causal → (run (step B) s inputs).Causal) := by
  induction inputs generalizing s with
  | nil => exact ⟨le_rfl, id⟩
  | cons input inputs ih =>
      obtain ⟨htime, hcausal⟩ := s.step_spec hscaled (hclock input List.mem_cons_self)
      obtain ⟨htime', hcausal'⟩ := ih (s.step B input) fun i hi => hclock i (List.mem_cons_of_mem _ hi)
      exact ⟨htime.trans htime', hcausal' ∘ hcausal⟩

theorem start_causal (world : ω) (commandFile : Option (List Str)) (topology nodes : Response ω κ) :
    (((new world commandFile).respond topology).start nodes).Causal := by
  have hnew : (new world commandFile : Simulator ω κ).Causal :=
    ⟨fun p hp => absurd hp List.not_mem_nil, List.Perm.nil⟩
  have h := (hnew.of_asks (respond_asks _ topology)).of_asks (respond_asks _ nodes)
  exact ⟨h.due, h.conserved⟩

/-- **Simulated time is causal**: the clock never goes back, an event runs when it is due, every event
that was added has run once or is queued, and the inner loop ends when all events are later. -/
theorem time_is_causal (B : Behaviour ω κ) (hscaled : ∀ d, 0 ≤ d → 0 ≤ B.scaled d) (world : ω)
    (commandFile : Option (List Str)) (topology nodes : Response ω κ)
    (inputs : List (Option Str × Int)) (hclock : ∀ input ∈ inputs, 0 ≤ input.2) :
    let s₀ := ((new world commandFile).respond topology).start nodes
    let s := run (step B) s₀ inputs
    (∀ before after, inputs = before ++ after →
      (run (step B) s₀ before).nowMicros ≤ s.nowMicros) ∧
    (∀ p ∈ s.ran, p.1.timeToOccur ≤ p.2) ∧
    (s.requests.filterMap fun p => p.2.event p.1).Perm
      (s.ran.map Prod.fst ++ s.sortedEvents.events) ∧
    (∀ input, s.draining = true → (s.step B input).draining = false →
      ∀ ev ∈ (s.step B input).sortedEvents.events,
        (s.step B input).nowMicros < ev.timeToOccur) := by
  intro s₀ s
  have hcausal : s.Causal := (run_spec hscaled s₀ hclock).2 (start_causal ..)
  refine ⟨?_, hcausal.due, hcausal.conserved, ?_⟩
  · intro before after hinputs
    have h := run_spec hscaled (run (step B) s₀ before) fun i hi =>
      hclock i (hinputs ▸ List.mem_append_right before hi)
    rw [← run_append, ← hinputs] at h
    exact h.1
  · intro input hdraining hended ev hev
    obtain ⟨htime, _, hlater⟩ := s.innerLoop_spec (B := B)
    unfold step at hended hev ⊢
    split_ifs at hended hev ⊢ with hrunning
    · rw [hdraining] at hended
      cases hended
    · rw [htime]
      exact hlater hdraining hended ev hev

/-- Callback `0` asks for callback `1` in the past and throws; every line asks for callback `1` a
millisecond later; the timescale is `2`. -/
def throwingCallback : Behaviour Unit ℕ where
  parseLine _ _ _ _ := (-1, ⟨(), [.addTimer 1 (some 1)], .returned⟩)
  callback _ cb _ :=
    if cb = 0 then ⟨(), [.addTimerAt 0 (some 1), .addEventAtMicros (-5) (some 2)], .threw⟩
    else ⟨(), [], .returned⟩
  scaled d := 2 * d

theorem time_is_causal_throwing_callback :
    let s₀ := ((new () none).respond ⟨(), [.addTimerAt 3 (some 0)], .returned⟩).start
      ⟨(), [], .returned⟩
    let s := run (step throwingCallback) s₀
      [(some [], 10), (none, 0), (none, 0), (none, 0), (none, 0), (none, 0)]
    s.ran = [(⟨1000, 1⟩, 1000), (⟨3000, 0⟩, 3000)] ∧
      (s.requests.filterMap fun p => p.2.event p.1).Perm
        (s.ran.map Prod.fst ++ s.sortedEvents.events) := by
  have h := time_is_causal throwingCallback (fun d hd => Int.mul_nonneg (by decide) hd) () none
    ⟨(), [.addTimerAt 3 (some 0)], .returned⟩ ⟨(), [], .returned⟩
    [(some [], 10), (none, 0), (none, 0), (none, 0), (none, 0), (none, 0)] (by decide)
  exact ⟨by decide, h.2.2.1⟩

end loop

end Simulator

end NetBridge
