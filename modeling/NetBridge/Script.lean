import NetBridge.CommandsParser
import NetBridge.Simulator

/-! # The command file in simulated time

`readCommandFile` runs one line of the command file in each round of the outer loop, unless a `time`
directive has put it off.  The round then moves the clock to the next event; it moves it to the time
at which the file goes on only if there is no event.  `Scripted` is the simulator with the clock
reading of the last line that has run, `OnTime` says that the next line does not wait for an event
that is later than its time, and `Prompt` is the condition under which the choice of the outer loop is
the right one. -/

namespace NetBridge

variable {ω κ : Type}

namespace Simulator

/-- The command file has a line left. -/
def LineLeft (s : Simulator ω κ) : Prop := s.commandFile ≠ none ∧ s.commandFile ≠ some []

instance (s : Simulator ω κ) : Decidable s.LineLeft := inferInstanceAs (Decidable (_ ∧ _))

/-- The next round of the outer loop runs a line. -/
def RunsLine (s : Simulator ω κ) : Prop :=
  s.running = true ∧ s.draining = false ∧ s.LineLeft ∧ s.deferParsingTill ≤ s.now * 1000

instance (s : Simulator ω κ) : Decidable s.RunsLine := inferInstanceAs (Decidable (_ ∧ _))

/-! ### What the calls leave alone -/

/-- The calls of a callback or a line do not touch the command file. -/
theorem respond_script (s : Simulator ω κ) (r : Response ω κ) :
    (s.respond r).commandFile = s.commandFile ∧
      (s.respond r).deferParsingTill = s.deferParsingTill ∧ (s.respond r).running = s.running := by
  have hfold : ∀ (rs : List (Request κ)) (s : Simulator ω κ),
      (rs.foldl request s).commandFile = s.commandFile ∧
        (rs.foldl request s).deferParsingTill = s.deferParsingTill ∧
        (rs.foldl request s).running = s.running := by
    intro rs
    induction rs with
    | nil => simp
    | cons r rs ih =>
        intro s
        simp [List.foldl_cons, ih, request_eq]
  exact hfold r.requests { s with world := r.world }

section loop
variable (B : Behaviour ω κ)

/-- What `readCommandFile` leaves: no line is left, a line has run now, or the file waits. -/
theorem readCommandFile_script (s : Simulator ω κ) (hrun : s.running = true)
    (hdrain : s.draining = false) :
    ¬ (s.readCommandFile B).LineLeft ∨ s.RunsLine ∧ 0 ≤ (s.readCommandFile B).deferParsingTill ∨
      ¬ s.RunsLine ∧ s.readCommandFile B = s ∧ s.now * 1000 < s.deferParsingTill := by
  unfold readCommandFile RunsLine LineLeft
  cases hfile : s.commandFile with
  | none => simp
  | some lines =>
      cases lines with
      | nil =>
          by_cases hdue : s.deferParsingTill ≤ s.now * 1000
          · simp [hdue]
          · simp [hdue, hfile]
      | cons line lines =>
          by_cases hdue : s.deferParsingTill ≤ s.now * 1000
          · simp [hdue, hrun, hdrain]
          · simp [hdue]
            omega

end loop

end Simulator

/-- The simulator, and the time on its clock when a line of the command file was last run. -/
structure Scripted (ω κ : Type) where
  sim : Simulator ω κ
  lineAt : Int

namespace Scripted

variable (B : Behaviour ω κ)

/-- A round without a line from the console. -/
def step (s : Scripted ω κ) (_ : Unit) : Scripted ω κ :=
  ⟨s.sim.step B (none, 0), if s.sim.RunsLine then s.sim.nowMicros else s.lineAt⟩

/-- `start`, with a queue and a command file of any contents. -/
def start (s : Simulator ω κ) (nodes : Response ω κ) : Scripted ω κ := ⟨s.start nodes, 1⟩

/-- While a line is left, the event that the next round runs is not later than the time at which the
file goes on, or than the last line. -/
def OnTime (s : Scripted ω κ) : Prop :=
  s.sim.LineLeft → ∀ ev now, (s.sim.step B (none, 0)).ran = s.sim.ran ++ [(ev, now)] →
    ev.timeToOccur ≤ max s.sim.deferParsingTill s.lineAt

/-- Where the outer loop chooses what to wait for and a line is left, the first event in the queue is
no later than that line, or due. -/
def Prompt (s : Scripted ω κ) (_ : Unit) : Prop :=
  s.sim.running = true → s.sim.draining = false →
    (s.sim.readCommandFile B).running = true → (s.sim.readCommandFile B).LineLeft →
      ∀ ev ∈ (s.sim.readCommandFile B).sortedEvents.getNextEvent,
        ev.timeToOccur ≤
          max (s.sim.readCommandFile B).deferParsingTill (s.sim.readCommandFile B).nowMicros

instance (s : Scripted ω κ) (u : Unit) : Decidable (Prompt B s u) :=
  inferInstanceAs (Decidable (_ → _ → _ → _ → ∀ ev ∈ _, _))

/-- The invariant: the inner loop does not run ahead of the file, and the outer loop is entered when
all that is due has run, or to run a line. -/
structure Paced (s : Scripted ω κ) : Prop where
  inner : s.sim.draining = true → s.sim.LineLeft →
    s.sim.nowMicros ≤ max s.sim.deferParsingTill s.lineAt ∨ s.sim.sortedEvents.events = []
  outer : s.sim.running = true → s.sim.draining = false →
    s.sim.deferParsingTill ≤ s.sim.now * 1000 ∨
      ∀ ev ∈ s.sim.sortedEvents.events, s.sim.nowMicros < ev.timeToOccur

variable {B}

/-- A round of the outer loop moves the clock no further than to the next line. -/
theorem Paced.outerLoop {s : Scripted ω κ} (h : s.Paced) (hrun : s.sim.running = true)
    (hdrain : s.sim.draining = false) (hprompt : Prompt B s ()) : (s.step B ()).Paced := by
  have hread := s.sim.readCommandFile_asks (B := B)
  have hscript := s.sim.readCommandFile_script B hrun hdrain
  have hprompt := hprompt hrun hdrain
  have houter := h.outer hrun hdrain
  have hstep : s.sim.step B (none, 0) = s.sim.outerLoop B none 0 := by
    simp [Simulator.step, hrun, hdrain]
  unfold step
  rw [hstep, Simulator.outerLoop]
  generalize s.sim.readCommandFile B = s₁ at hread hscript hprompt ⊢
  have hnow := hread.nowMicros
  by_cases hrun₁ : s₁.running = true
  · constructor
    · intro _ hleft
      have hleft : s₁.LineLeft := by
        unfold Simulator.LineLeft at hleft ⊢
        simpa [hrun₁] using hleft
      simp only [hrun₁, Bool.true_eq_false, if_false, Simulator.deltaTime,
        OrderedEventQueue.getNextEvent]
      have hfirst := hprompt hrun₁ hleft
      unfold OrderedEventQueue.getNextEvent at hfirst
      cases hevents : s₁.sortedEvents.events with
      | nil => simp
      | cons ev events =>
          left
          have hev : ev.timeToOccur ≤ max s₁.deferParsingTill s₁.nowMicros :=
            hfirst ev (by simp [hevents])
          obtain hnone | ⟨hline, hdefer⟩ | ⟨hline, hsame, hwait⟩ := hscript
          · exact absurd hleft hnone
          · -- a line has run: the last line is from now
            simp [hline]
            omega
          · -- the file waits: what is queued is later than now, so the event is not later than the line
            have hlater := houter.resolve_left (by omega) ev (by rw [← hsame, hevents]; simp)
            simp [hline]
            omega
    · intro _ hdraining
      simp [hrun₁] at hdraining
  · constructor
    · intro hdraining
      have : s₁.draining = true := by simpa [hrun₁] using hdraining
      rw [hread.draining, hdrain] at this
      simp at this
    · intro hrunning
      simp [hrun₁] at hrunning

theorem Paced.innerLoop {s : Scripted ω κ} (h : s.Paced) (hrun : s.sim.running = true)
    (hdrain : s.sim.draining = true) : (s.step B ()).Paced := by
  obtain ⟨hnow, _, hdone⟩ := s.sim.innerLoop_spec (B := B)
  have hstep : s.sim.step B (none, 0) = s.sim.innerLoop B := by
    simp [Simulator.step, hrun, hdrain]
  have hnot : ¬ s.sim.RunsLine := by simp [Simulator.RunsLine, hdrain]
  have hfile : (s.sim.innerLoop B).commandFile = s.sim.commandFile ∧
      (s.sim.innerLoop B).deferParsingTill = s.sim.deferParsingTill := by
    unfold Simulator.innerLoop
    split
    · simp
    · split_ifs
      · simp
      · simp [Simulator.respond_script]
  unfold step
  rw [hstep, if_neg hnot]
  constructor
  · intro hdraining hleft
    have hleft : s.sim.LineLeft := by
      unfold Simulator.LineLeft at hleft ⊢
      rwa [hfile.1] at hleft
    rw [hnow, hfile.2]
    obtain hle | hempty := h.inner hdrain hleft
    · exact .inl hle
    · -- without an event the loop ends
      have hnone := OrderedEventQueue.removeNextEvent_of_nil hempty
      simp [Simulator.innerLoop, hnone] at hdraining
  · intro _ hdraining
    right
    rw [hnow]
    exact hdone hdrain hdraining

theorem Paced.step {s : Scripted ω κ} (h : s.Paced) (hprompt : Prompt B s ()) :
    (s.step B ()).Paced := by
  by_cases hrun : s.sim.running = true
  · by_cases hdrain : s.sim.draining = true
    · exact h.innerLoop hrun hdrain
    · exact h.outerLoop hrun (by simpa using hdrain) hprompt
  · -- the run has ended
    have hsame : s.step B () = s := by
      simp [Scripted.step, Simulator.step, Simulator.RunsLine, hrun]
    rw [hsame]
    exact h

theorem Paced.start (s : Simulator ω κ) (nodes : Response ω κ) : (start s nodes).Paced := by
  constructor
  · intro hdraining
    simp [Scripted.start, Simulator.start] at hdraining
  · intro _ _
    left
    simp [Scripted.start, Simulator.start, Simulator.now]

/-- In a paced state an event runs that is not later than the clock. -/
theorem Paced.onTime {s : Scripted ω κ} (h : s.Paced) : s.OnTime B := by
  intro hleft ev now hran
  have hgrows : (s.sim.step B (none, 0)).ran ≠ s.sim.ran := by simp [hran]
  unfold Simulator.step at hran hgrows
  split_ifs at hran hgrows with hrun hdrain
  · simp at hgrows
  · -- a round of the inner loop
    unfold Simulator.innerLoop at hran hgrows
    split at hran
    · simp at hran
    · next first rest hsome =>
        obtain ⟨hevents, _⟩ := OrderedEventQueue.removeNextEvent_spec hsome
        split_ifs at hran with hlate
        · simp at hran
        · have hlast := (Simulator.respond_asks
            { s.sim with sortedEvents := rest, ran := s.sim.ran ++ [(first, s.sim.nowMicros)] }
            (B.callback s.sim.world first.callback s.sim.nowMicros)).ran
          simp only at hran
          rw [hlast] at hran
          obtain ⟨rfl, _⟩ : first = ev ∧ s.sim.nowMicros = now := by simpa using hran
          obtain hle | hempty := h.inner hdrain hleft
          · omega
          · rw [hevents] at hempty
            simp at hempty
  · -- the outer loop runs no event
    have hread := (s.sim.readCommandFile_asks (B := B)).ran
    unfold Simulator.outerLoop at hgrows
    simp only at hgrows
    split_ifs at hgrows <;> exact absurd hread hgrows

/-- **Scripted commands are not run late** in a run in which the outer loop never chooses an event
that is later than the next line. -/
theorem lines_run_on_time (s : Simulator ω κ) (nodes : Response ω κ) (rounds : List Unit)
    (hprompt : Guarded (step B) (Prompt B) (start s nodes) rounds) :
    (run (step B) (start s nodes) rounds).OnTime B := by
  apply Paced.onTime
  exact guarded_induction (I := Paced) (fun s _ h hp => h.step hp) (.start s nodes) hprompt

/-- Callback `0` is a timer that sets itself again every 10 ms, like the retransmission timer of a
node; the lines have no effect on the simulator but for the `time` directive. -/
def periodic : Behaviour Unit ℕ where
  parseLine _ line nowMicros _ :=
    ((CommandsParser.parseLine Floats.whole line nowMicros).2, ⟨(), [], .returned⟩)
  callback _ cb _ := ⟨(), if cb = 0 then [.addTimer 10 (some 0)] else [], .returned⟩
  scaled d := d

/-- An event at 3 ms, and nothing after it: `echo done` runs at 5 ms. -/
theorem lines_run_on_time_single_event :
    let s := start (.new () (some ["time 5".toList, "echo done".toList]))
      ⟨(), [.addTimer 3 (some 1)], .returned⟩
    (run (step periodic) s [()]).OnTime periodic ∧
      (run (step periodic) s [(), (), (), (), (), ()]).lineAt = 5000 := by
  exact ⟨lines_run_on_time _ _ [()] (by decide), by decide⟩

/-- The timer of a node at 10 ms runs before the line that is put off till 5 ms, and before a line
that is not put off at all. -/
theorem timer_runs_before_line :
    (¬ (run (step periodic) (start (.new () (some ["time 5".toList, "echo done".toList]))
      ⟨(), [.addTimer 10 (some 0)], .returned⟩) [()]).OnTime periodic) ∧
    ¬ (run (step periodic) (start (.new () (some ["echo one".toList, "echo two".toList]))
      ⟨(), [.addTimer 10 (some 0)], .returned⟩) [()]).OnTime periodic := by
  constructor
  · intro h
    have hle := h (by decide) ⟨10000, 0⟩ 10000 (by decide)
    revert hle
    decide
  · intro h
    have hle := h (by decide) ⟨10000, 0⟩ 10000 (by decide)
    revert hle
    decide

end Scripted

end NetBridge
