import NetBridge.CommandLines
import NetBridge.Emulator
import NetBridge.NodeTimers

/-! # The emulation

The program `netstack emulate` after its handshake with the trawler (`Emulator::start`): the loop that
reads the command file, runs the events that are due, sleeps in `poll`, and then takes what the
trawler, the UDP socket and the console have to give.  The node is that of `Applications`, the
neighbour table and the links are those of `Emulator`.

A step of the model is one stretch of the loop (`LoopPhase`).  It is given what comes from outside: the
wall clock, which is taken to stand still during one call of the node, and what the sockets and the
console have to give.  What a call of `sendPkt` meets is given by the number of the call. -/

namespace NetBridge

open CommandsParser

open scoped List

/-- What an event of the emulator's queue calls. -/
inductive EmuCallback where
  | node (cb : NodeCallback)
  | physicalSend (datagram : Datagram)
deriving DecidableEq

/-- Where the loop is. -/
inductive LoopPhase where
  | top
  | command (nowMicros : Int)
  | events (nowMicros : Int)
  | wait (nowMicros : Int)
  | refresh
  | udp
  | stdin
deriving DecidableEq

/-- What a call of `sendPkt` meets: what the trawler has sent, and whether it has closed the
connection; the order of the neighbour table; and whether the link to a neighbour loses the packet. -/
structure SendInput where
  received : Str
  closed : Bool
  order : List Int
  lost : Int → Bool

/-- What the emulation is given; `inetPton` says which addresses `inet_pton` can read. -/
structure Emulation (δ : Type) where
  assignedNodeId : Int
  floats : Floats δ
  alloc : ℕ → Bool
  sends : ℕ → SendInput
  inetPton : Str → Bool

/-- What a stretch of the loop gets from outside: the clock; what `poll` reports if it is called
(whether UDP and the console have something to read, and whether the console is closed), or `none` if
it times out; what the trawler has sent, and whether it has closed the connection; a datagram with its
sender; and what can be read from the console, and whether it has ended there. -/
structure EmuInput where
  clock : Int
  ready : Option (Bool × Bool × Bool)
  received : Str
  closed : Bool
  datagram : Option (List UInt8 × Str × Int)
  typed : Str
  eof : Bool

/-- The emulator with its node and the loop's variables; `sent` are the datagrams that `sendto` was
given, each with the clock then, and `clock` is the latest reading. -/
structure EmuState (δ : Type) where
  emulator : Emulator δ
  node : AppNode
  sortedEvents : OrderedEventQueue EmuCallback
  commandFile : Option (List Str)
  deferParsingTill : Int
  udpReady : Bool
  stdinReady : Bool
  stdinEof : Bool
  stdinBuf : Str
  sent : List (Datagram × Int)
  sends : ℕ
  clock : Int
  phase : LoopPhase
  running : Bool

namespace Emulation

variable {δ : Type} (E : Emulation δ) (s : EmuState δ)

/-! ### The calls of the node -/

/-- `physicalSend`: an address that cannot be read is reported, and nothing is sent. -/
def physicalSend (datagram : Datagram) : EmuState δ :=
  if E.inetPton datagram.ipAddress then { s with sent := s.sent ++ [(datagram, s.clock)] } else s

theorem physicalSend_frame (datagram : Datagram) :
    let s' := physicalSend E s datagram
    s'.node = s.node ∧ s'.clock = s.clock ∧ s'.running = s.running ∧ s'.emulator = s.emulator ∧
      s'.sortedEvents = s.sortedEvents := by
  unfold physicalSend
  split_ifs <;> exact ⟨rfl, rfl, rfl, rfl, rfl⟩

/-- `addEventAtMicros` and `addTimerAt`, which puts milliseconds into microseconds. -/
def addEvent (time : Int) (cb : EmuCallback) : EmuState δ :=
  { s with sortedEvents := s.sortedEvents.addEvent ⟨time, cb⟩ }

/-- What `schedulePkt` does with a packet. -/
def dispatch : Dispatch δ → EmuState δ
  | .direct _ datagram => physicalSend E s datagram
  | .paced _ _ timeToDeliver datagram => addEvent s timeToDeliver (.physicalSend datagram)

/-- A call of the node on the runtime.  When the trawler has closed the connection, the program ends
in `refreshARP`. -/
def perform : NodeCall → EmuState δ
  | .addTimer deltaMs cb => addEvent s ((s.clock.tdiv 1000 + deltaMs) * 1000) (.node cb)
  | .sendPkt dest pkt =>
      let i := E.sends s.sends
      if i.closed ∧ (RuntimeManager.sendPkt E.assignedNodeId dest pkt).isOk then
        { s with running := false }
      else
        let e := (s.emulator.sendPkt E.floats E.assignedNodeId dest pkt i.received i.order
          fun destAddr => (s.clock, i.lost destAddr)).1
        (e.dispatched.drop s.emulator.dispatched.length).foldl (dispatch E)
          { s with emulator := e, sends := s.sends + 1 }

/-- The calls of a reaction; what comes after the end of the program is not done. -/
def performAll (calls : List NodeCall) : EmuState δ :=
  calls.foldl (fun s c => if s.running then perform E s c else s) s

/-- The node reacts. -/
def react (r : NodeReaction) : EmuState δ := performAll E { s with node := r.node } r.calls

/-! ### Lines -/

/-- What a call of the parser does. -/
def hook (s : EmuState δ) : Hook δ → EmuState δ
  | .exitCmd cmd => if arg cmd 0 = "exit".toList then { s with running := false } else s
  | .parseNodeCmd cmd =>
      match EmulationCommandsParser.parseNodeCmd cmd with
      | .onCommand _ msg => react E s (s.node.onCommand E.alloc (s.clock.tdiv 1000) msg)
      | .ignored | .error _ => s
  | _ => s

/-- `parseLine` of the emulator's parser. -/
def parseLine (line : Str) (nowMicros : Int) : EmuState δ × Int :=
  let parsed := EmulationCommandsParser.parseLine line nowMicros
  (parsed.1.foldl (fun s h => if s.running then hook E s h else s) s, parsed.2)

/-- `readCommandFile`, which leaves its result in `deferParsingTill`. -/
def readCommandFile : EmuState δ :=
  match s.commandFile with
  | none => { s with deferParsingTill := -1 }
  | some lines =>
      if s.deferParsingTill ≤ s.clock.tdiv 1000 * 1000 then
        match lines with
        | line :: lines =>
            let (s, r) := parseLine E { s with commandFile := some lines } line
              (s.clock.tdiv 1000 * 1000)
            { s with deferParsingTill := max r 0 }
        | [] => { s with commandFile := none, deferParsingTill := -1 }
      else s

def handleStdinLine (line : Str) : EmuState δ :=
  if line.isEmpty then s else (parseLine E s line s.clock).1

/-- A line from the console, without its carriage return. -/
def stripCr (line : Str) : Str := if line.getLast? = some '\r' then line.dropLast else line

/-! ### The loop -/

/-- An event that is due runs; an exception of it is caught. -/
def runEvent (ev : ScheduledEvent EmuCallback) (sortedEvents : OrderedEventQueue EmuCallback) :
    EmuState δ :=
  let s := { s with sortedEvents }
  match ev.callback with
  | .physicalSend datagram => physicalSend E s datagram
  | .node cb =>
      let r := s.node.callback E.alloc (s.clock.tdiv 1000) cb
      if r.outcome = .exits then { s with running := false } else react E s r

/-- Till when the loop may sleep; `-1` stands for ever. -/
def waitTill : Int :=
  match s.sortedEvents.getNextEvent with
  | none => s.deferParsingTill
  | some next =>
      if s.deferParsingTill = -1 then next.timeToOccur
      else if s.deferParsingTill = 0 then s.clock
      else min next.timeToOccur s.deferParsingTill

/-- The timeout that `pollIO` gives to `poll`, in milliseconds; `none` stands for `-1`. -/
def timeoutMs (deadlineMicros : Int) : Option Int :=
  if deadlineMicros = -1 then none
  else some ((max (deadlineMicros - s.clock) 0 + 999).tdiv 1000)

/-- `poll` is called. -/
def Sleeps : Prop := waitTill s = -1 ∨ s.clock < waitTill s

instance : Decidable (Sleeps s) := inferInstanceAs (Decidable (_ ∨ _))

/-- What `pollIO` notes when `poll` returns. -/
def pollIO (ready : Option (Bool × Bool × Bool)) : EmuState δ :=
  match ready with
  | none => s
  | some (udp, stdin, hangup) =>
      if s.stdinEof then { s with udpReady := udp }
      else { s with udpReady := udp, stdinReady := s.stdinReady || stdin, stdinEof := hangup }

def processUdpPacket (datagram : Option (List UInt8 × Str × Int)) : EmuState δ :=
  match datagram with
  | none => s
  | some (data, ip, port) =>
      let e := s.emulator.processUdpPacket data ip port
      let given := e.received.drop s.emulator.received.length
      given.foldl (fun s p => react E s (s.node.onReceive (s.clock.tdiv 1000) p.1 p.2))
        { s with emulator := e }

/-- What has been read from the console, line by line. -/
def readStdin (typed : Str) (eof : Bool) : EmuState δ :=
  let (stdinBuf, s) := feed '\n'
    (fun s line => if s.running then handleStdinLine E s (stripCr line) else s) (s.stdinBuf, s) typed
  { s with stdinBuf, stdinEof := s.stdinEof || eof }

/-- One stretch of the loop. -/
def stretch (i : EmuInput) : EmuState δ :=
  match s.phase with
  | .top => { s with phase := .command s.clock }
  | .command nowMicros => { readCommandFile E s with phase := .events nowMicros }
  | .events nowMicros =>
      match s.sortedEvents.removeNextEvent with
      | none => { s with phase := .wait nowMicros }
      | some (ev, sortedEvents) =>
          if ev.timeToOccur ≤ nowMicros then
            { runEvent E s ev sortedEvents with phase := .events nowMicros }
          else { s with phase := .wait nowMicros }
  | .wait _ => { (if Sleeps s then pollIO s i.ready else s) with phase := .refresh }
  | .refresh =>
      if i.closed then { s with running := false }
      else { s with emulator := s.emulator.refreshARP E.floats i.received, phase := .udp }
  | .udp =>
      if s.udpReady then
        { processUdpPacket E { s with udpReady := false } i.datagram with phase := .stdin }
      else { s with phase := .stdin }
  | .stdin =>
      if s.stdinReady then
        { readStdin E { s with stdinReady := false } i.typed i.eof with phase := .top }
      else { s with phase := .top }

def step (i : EmuInput) : EmuState δ :=
  if s.running then stretch E { s with clock := i.clock } i else s

/-- The state after the handshake, at `clock`: the node has been made. -/
def made (clock : Int) (commandFile : Option (List Str)) : EmuState δ :=
  ⟨.new E.assignedNodeId, .new E.assignedNodeId, .empty, commandFile, 0, false, false, false, [], [], 0,
    clock, .top, true⟩

/-- The state in which the loop is entered: the node has been started. -/
def start (clock : Int) (commandFile : Option (List Str)) : EmuState δ :=
  performAll E (made E clock commandFile) AppNode.start

/-- The emulator after some stretches of its loop. -/
def after (clock : Int) (commandFile : Option (List Str)) (is : List EmuInput) : EmuState δ :=
  run (step E) (start E clock commandFile) is

/-- The clock of the machine does not go back, and shows whole milliseconds. -/
def Allowed (i : EmuInput) : Prop := s.clock ≤ i.clock ∧ i.clock % 1000 = 0

instance (i : EmuInput) : Decidable (Allowed s i) := inferInstanceAs (Decidable (_ ∧ _))

/-! ### The calls of a reaction -/

/-- The timer of the node that an event of the queue stands for. -/
def nodeTimer (ev : ScheduledEvent EmuCallback) : Option (ScheduledEvent NodeCallback) :=
  match ev.callback with
  | .node cb => some ⟨ev.timeToOccur, cb⟩
  | .physicalSend _ => none

/-- The timers of the node that are in the queue. -/
def timers : List (ScheduledEvent NodeCallback) := s.sortedEvents.events.filterMap nodeTimer

/-- The timers that calls of the node ask for at `now` milliseconds. -/
def timersOf (now : Int) (calls : List NodeCall) : List (ScheduledEvent NodeCallback) :=
  calls.filterMap fun
    | .addTimer deltaMs cb => some ⟨(now + deltaMs) * 1000, cb⟩
    | .sendPkt .. => none

theorem addEvent_timers (time : Int) (cb : EmuCallback) :
    timers (addEvent s time cb) ~ timers s ++ (nodeTimer ⟨time, cb⟩).toList := by
  have hperm := (s.sortedEvents.addEvent_perm ⟨time, cb⟩).filterMap nodeTimer
  refine hperm.trans ?_
  cases h : nodeTimer ⟨time, cb⟩ with
  | none => simp [h, timers]
  | some timer => simpa [h, timers] using (List.perm_append_singleton _ _).symm

theorem foldl_dispatch_frame (ds : List (Dispatch δ)) :
    let s' := ds.foldl (dispatch E) s
    timers s' ~ timers s ∧ s'.node = s.node ∧ s'.clock = s.clock ∧ s'.running = s.running ∧
      s'.emulator = s.emulator := by
  induction ds generalizing s with
  | nil => exact ⟨.refl _, rfl, rfl, rfl, rfl⟩
  | cons d ds ih =>
      obtain ⟨htimers, hrest⟩ := ih (dispatch E s d)
      have hfirst : timers (dispatch E s d) ~ timers s ∧ (dispatch E s d).node = s.node ∧
          (dispatch E s d).clock = s.clock ∧ (dispatch E s d).running = s.running ∧
          (dispatch E s d).emulator = s.emulator := by
        cases d with
        | direct destAddr datagram =>
            obtain ⟨hnode, hclock, hrunning, hemulator, hevents⟩ := physicalSend_frame E s datagram
            refine ⟨.of_eq ?_, hnode, hclock, hrunning, hemulator⟩
            exact congrArg (fun q : OrderedEventQueue EmuCallback => q.events.filterMap nodeTimer) hevents
        | paced destAddr link time datagram =>
            refine ⟨(addEvent_timers s time _).trans ?_, rfl, rfl, rfl, rfl⟩
            simp [nodeTimer]
      obtain ⟨hfirst, hnode, hclock, hrunning, hemulator⟩ := hfirst
      rw [hnode, hclock, hrunning, hemulator] at hrest
      exact ⟨htimers.trans hfirst, hrest⟩

/-- A call puts the timer that it asks for into the queue, unless it ends the program. -/
theorem perform_frame (c : NodeCall) :
    let s' := perform E s c
    s'.node = s.node ∧ s'.clock = s.clock ∧
      (s'.running = true → s.running = true ∧
        timers s' ~ timers s ++ timersOf (s.clock.tdiv 1000) [c]) := by
  cases c with
  | addTimer deltaMs cb => exact ⟨rfl, rfl, fun h => ⟨h, addEvent_timers s _ _⟩⟩
  | sendPkt dest pkt =>
      unfold perform
      simp only
      split_ifs with hclosed
      · exact ⟨rfl, rfl, fun h => by cases h⟩
      · obtain ⟨htimers, hnode, hclock, hrunning, -⟩ := foldl_dispatch_frame _ _ _
        refine ⟨hnode, hclock, fun h => ⟨hrunning ▸ h, htimers.trans ?_⟩⟩
        exact .of_eq (List.append_nil _).symm

theorem performAll_frame (calls : List NodeCall) :
    let s' := performAll E s calls
    s'.node = s.node ∧ s'.clock = s.clock ∧
      (s'.running = true → s.running = true ∧
        timers s' ~ timers s ++ timersOf (s.clock.tdiv 1000) calls) := by
  induction calls generalizing s with
  | nil => exact ⟨rfl, rfl, fun h => ⟨h, .of_eq (List.append_nil _).symm⟩⟩
  | cons c calls ih =>
      obtain ⟨hnode, hclock, htimers⟩ := perform_frame E s c
      have hcons : performAll E s (c :: calls) =
          performAll E (if s.running then perform E s c else s) calls := rfl
      rw [hcons]
      split_ifs with hrunning
      · obtain ⟨hnode', hclock', htimers'⟩ := ih (perform E s c)
        refine ⟨hnode'.trans hnode, hclock'.trans hclock, fun h => ⟨hrunning, ?_⟩⟩
        obtain ⟨hfirst, hrest⟩ := htimers' h
        rw [hclock] at hrest
        refine hrest.trans (((htimers hfirst).2.append_right _).trans (.of_eq ?_))
        rw [List.append_assoc, timersOf, timersOf, ← List.filterMap_append]
        rfl
      · obtain ⟨hnode', hclock', htimers'⟩ := ih s
        exact ⟨hnode', hclock', fun h => absurd (htimers' h).1 hrunning⟩

theorem react_clock (r : NodeReaction) : (react E s r).clock = s.clock :=
  (performAll_frame E { s with node := r.node } r.calls).2.1

theorem hook_clock (c : Hook δ) : (hook E s c).clock = s.clock := by
  unfold hook
  split
  · split_ifs <;> rfl
  · exact react_clock E s _
  · rfl

theorem parseLine_clock (line : Str) (nowMicros : Int) :
    (parseLine E s line nowMicros).1.clock = s.clock := by
  unfold parseLine
  generalize EmulationCommandsParser.parseLine line nowMicros = parsed
  obtain ⟨hooks, deferTill⟩ := parsed
  simp only
  induction hooks generalizing s with
  | nil => rfl
  | cons c hooks ih =>
      rw [List.foldl_cons, ih]
      split_ifs
      · exact hook_clock E s c
      · rfl

theorem readCommandFile_clock : (readCommandFile E s).clock = s.clock := by
  unfold readCommandFile
  split
  · rfl
  · split_ifs
    · split
      · exact parseLine_clock E _ _ _
      · rfl
    · rfl

theorem runEvent_clock (ev : ScheduledEvent EmuCallback) (q : OrderedEventQueue EmuCallback) :
    (runEvent E s ev q).clock = s.clock := by
  unfold runEvent
  simp only
  split
  · exact (physicalSend_frame E _ _).2.1
  · split_ifs
    · rfl
    · exact react_clock E _ _

/-! ### What the loop keeps -/

/-- An assertion that the loop keeps: it is not about the variables of the loop, and it is kept when
the clock goes forward, when the program ends, when the trawler's lines are read, by the reactions of
the node, and when an event runs, which has been taken out of the queue. -/
structure Kept (I : EmuState δ → Prop) : Prop where
  loop : ∀ {s}, I s → ∀ commandFile deferParsingTill udpReady stdinReady stdinEof stdinBuf phase,
    I { s with commandFile, deferParsingTill, udpReady, stdinReady, stdinEof, stdinBuf, phase }
  clock : ∀ {s}, I s → ∀ clock, s.clock ≤ clock → clock % 1000 = 0 → I { s with clock }
  ends : ∀ {s}, I s → I { s with running := false }
  refresh : ∀ {s}, I s → ∀ received,
    I { s with emulator := s.emulator.refreshARP E.floats received }
  udp : ∀ {s}, I s → ∀ data ip port,
    I { s with emulator := s.emulator.processUdpPacket data ip port }
  receive : ∀ {s}, I s → ∀ sender msg,
    I (react E s (s.node.onReceive (s.clock.tdiv 1000) sender msg))
  command : ∀ {s}, I s → ∀ msg,
    I (react E s (s.node.onCommand E.alloc (s.clock.tdiv 1000) msg))
  event : ∀ {s}, I s → s.running = true → ∀ {ev q}, s.sortedEvents.removeNextEvent = some (ev, q) →
    ev.timeToOccur ≤ s.clock → I (runEvent E s ev q)

/-- The time of the round that the loop is in is past. -/
def InTime : Prop :=
  match s.phase with
  | .command nowMicros | .events nowMicros | .wait nowMicros => nowMicros ≤ s.clock
  | _ => True

namespace Kept

variable {E} {s} {I : EmuState δ → Prop} (hI : E.Kept I)
include hI

theorem hook (h : I s) (c : Hook δ) : I (hook E s c) := by
  cases c with
  | exitCmd cmd =>
      unfold Emulation.hook
      simp only
      split_ifs
      · exact hI.ends h
      · exact h
  | parseNodeCmd cmd => exact hI.command h _
  | createNewEdge | failEdgeHook | failNodeHook | restartEdgeHook | restartNodeHook | echo | error =>
      exact h

omit hI in
/-- Steps are made one after the other, as long as the program runs. -/
theorem foldl {α : Type} {f : EmuState δ → α → EmuState δ} (hf : ∀ s a, I s → I (f s a))
    (as : List α) (h : I s) : I (as.foldl (fun s a => if s.running then f s a else s) s) := by
  induction as generalizing s with
  | nil => exact h
  | cons a as ih =>
      refine ih ?_
      simp only
      split_ifs
      · exact hf s a h
      · exact h

theorem parseLine (h : I s) (line : Str) (nowMicros : Int) :
    I (parseLine E s line nowMicros).1 :=
  foldl (I := I) (fun _ c h => hI.hook h c) _ h

theorem readCommandFile (h : I s) : I (readCommandFile E s) := by
  unfold Emulation.readCommandFile
  split
  · exact hI.loop h _ _ _ _ _ _ _
  · split_ifs
    · split
      · exact hI.loop (hI.parseLine (hI.loop h _ _ _ _ _ _ _) _ _) _ _ _ _ _ _ _
      · exact hI.loop h _ _ _ _ _ _ _
    · exact h

theorem handleStdinLine (h : I s) (line : Str) : I (handleStdinLine E s line) := by
  unfold Emulation.handleStdinLine
  split_ifs
  · exact h
  · exact hI.parseLine h _ _

theorem readStdin (h : I s) (typed : Str) (eof : Bool) : I (readStdin E s typed eof) := by
  unfold Emulation.readStdin
  rw [feed_eq]
  exact hI.loop (foldl (I := I) (fun _ line h => hI.handleStdinLine h (stripCr line)) _ h)
    _ _ _ _ _ _ _

theorem processUdpPacket (h : I s) (datagram : Option (List UInt8 × Str × Int)) :
    I (processUdpPacket E s datagram) := by
  unfold Emulation.processUdpPacket
  split
  · exact h
  · next data ip port =>
      have hudp := hI.udp h data ip port
      simp only
      generalize List.drop _ _ = given
      generalize { s with emulator := s.emulator.processUdpPacket data ip port } = s' at hudp
      induction given generalizing s' with
      | nil => exact hudp
      | cons p given ih => exact ih _ (hI.receive hudp p.1 p.2)

theorem pollIO (h : I s) (ready : Option (Bool × Bool × Bool)) : I <| pollIO s ready := by
  unfold Emulation.pollIO
  split
  · exact h
  · split_ifs
    · exact hI.loop h _ _ _ _ _ _ _
    · exact hI.loop h _ _ _ _ _ _ _

theorem stretch (h : I s) (hrunning : s.running = true) (htime : InTime s) (i : EmuInput) :
    I (stretch E s i) ∧ InTime (stretch E s i) := by
  unfold InTime at htime
  unfold Emulation.stretch
  split
  · exact ⟨hI.loop h _ _ _ _ _ _ _, le_rfl⟩
  · next nowMicros hphase =>
      rw [hphase] at htime
      refine ⟨hI.loop (hI.readCommandFile h) _ _ _ _ _ _ _, ?_⟩
      exact htime.trans_eq (readCommandFile_clock E s).symm
  · next nowMicros hphase =>
      rw [hphase] at htime
      split
      · exact ⟨hI.loop h _ _ _ _ _ _ _, htime⟩
      · next ev q hq =>
          split_ifs with hdue
          · refine ⟨hI.loop (hI.event h hrunning hq (hdue.trans htime)) _ _ _ _ _ _ _, ?_⟩
            exact htime.trans_eq (runEvent_clock E s ev q).symm
          · exact ⟨hI.loop h _ _ _ _ _ _ _, htime⟩
  · refine ⟨hI.loop ?_ _ _ _ _ _ _ _, trivial⟩
    split_ifs
    · exact Kept.pollIO hI h _
    · exact h
  · next hphase =>
      split_ifs
      · refine ⟨hI.ends h, ?_⟩
        unfold InTime
        simp only [hphase]
      · exact ⟨hI.loop (hI.refresh h i.received) _ _ _ _ _ _ _, trivial⟩
  · split_ifs
    · exact ⟨hI.loop (hI.processUdpPacket (hI.loop h _ _ _ _ _ _ _) i.datagram) _ _ _ _ _ _ _,
        trivial⟩
    · exact ⟨hI.loop h _ _ _ _ _ _ _, trivial⟩
  · split_ifs
    · exact ⟨hI.loop (hI.readStdin (hI.loop h _ _ _ _ _ _ _) i.typed i.eof) _ _ _ _ _ _ _, trivial⟩
    · exact ⟨hI.loop h _ _ _ _ _ _ _, trivial⟩

theorem step (h : I s) (htime : InTime s) {i : EmuInput} (hi : Allowed s i) :
    I (step E s i) ∧ InTime (step E s i) := by
  unfold Emulation.step
  split_ifs with hrunning
  · refine hI.stretch (hI.clock h i.clock hi.1 hi.2) hrunning ?_ i
    unfold InTime at htime ⊢
    simp only
    split
    · next hphase => rw [hphase] at htime; exact htime.trans hi.1
    · next hphase => rw [hphase] at htime; exact htime.trans hi.1
    · next hphase => rw [hphase] at htime; exact htime.trans hi.1
    · trivial
  · exact ⟨h, htime⟩

/-- What holds when the loop is entered holds in every state of a run. -/
theorem run (h : I s) (htime : InTime s) {is : List EmuInput}
    (his : Guarded (Emulation.step E) Allowed s is) :
    I (run (Emulation.step E) s is) ∧ InTime (NetBridge.run (Emulation.step E) s is) :=
  guarded_induction (I := fun s => I s ∧ InTime s)
    (fun _ _ hs hi => hI.step hs.1 hs.2 hi) ⟨h, htime⟩ his

end Kept

/-! ### What the node keeps -/

/-- What an assertion about the node, its timers in the queue and the clock needs in order to be kept by
the loop. -/
structure Upkeep (J : AppNode → List (ScheduledEvent NodeCallback) → Int → Prop) : Prop where
  perm : ∀ {n q q' t}, q ~ q' → J n q t → J n q' t
  clock : ∀ {n q t}, J n q t → ∀ t', t ≤ t' → t' % 1000 = 0 → J n q t'
  receive : ∀ {n q t}, J n q t → ∀ sender msg,
    let r := n.onReceive (t.tdiv 1000) sender msg
    J r.node (q ++ timersOf (t.tdiv 1000) r.calls) t
  command : ∀ {n q t}, J n q t → ∀ msg,
    let r := n.onCommand E.alloc (t.tdiv 1000) msg
    J r.node (q ++ timersOf (t.tdiv 1000) r.calls) t
  timer : ∀ {n q t time cb}, J n (⟨time, cb⟩ :: q) t → time ≤ t →
    let r := n.callback E.alloc (t.tdiv 1000) cb
    r.outcome ≠ .exits → J r.node (q ++ timersOf (t.tdiv 1000) r.calls) t

section upkeep
variable {E} {J : AppNode → List (ScheduledEvent NodeCallback) → Int → Prop} (hJ : E.Upkeep J)
include hJ

theorem Upkeep.react {s : EmuState δ} {r : NodeReaction} {q : List (ScheduledEvent NodeCallback)}
    (hq : timers s = q)
    (h : s.running = true → J r.node (q ++ timersOf (s.clock.tdiv 1000) r.calls) s.clock)
    (hrunning : (react E s r).running = true) :
    J (react E s r).node (timers (react E s r)) (react E s r).clock := by
  obtain ⟨hnode, hclock, htimers⟩ := performAll_frame E { s with node := r.node } r.calls
  obtain ⟨hbefore, hperm⟩ := htimers hrunning
  show J (performAll E _ r.calls).node _ (performAll E _ r.calls).clock
  rw [hnode, hclock]
  refine hJ.perm hperm.symm ?_
  subst hq
  exact h hbefore

theorem Upkeep.kept : E.Kept fun s => s.running = true → J s.node (timers s) s.clock where
  loop h _ _ _ _ _ _ _ := h
  clock h t hle hwhole hrunning := hJ.clock (h hrunning) t hle hwhole
  ends _ h := by cases h
  refresh h _ := h
  udp h _ _ _ := h
  receive h sender msg := hJ.react rfl fun hrunning => hJ.receive (h hrunning) sender msg
  command h msg := hJ.react rfl fun hrunning => hJ.command (h hrunning) msg
  event := by
    intro s h hrunning ev q hq hdue
    obtain ⟨hevents, -⟩ := OrderedEventQueue.removeNextEvent_spec hq
    have hbefore := h hrunning
    unfold timers at hbefore
    rw [hevents] at hbefore
    unfold runEvent
    simp only
    split
    · next datagram hcb =>
        rw [List.filterMap_cons_none (by unfold nodeTimer; rw [hcb])] at hbefore
        obtain ⟨hnode, hclock, -, -, hqueue⟩ := physicalSend_frame E { s with sortedEvents := q } datagram
        intro _
        unfold timers
        rw [hnode, hclock, hqueue]
        exact hbefore
    · next cb hcb =>
        rw [List.filterMap_cons_some (b := ⟨ev.timeToOccur, cb⟩) (by unfold nodeTimer; rw [hcb])]
          at hbefore
        split_ifs with hexits
        · exact fun h => by cases h
        · exact hJ.react rfl fun _ => hJ.timer hbefore hdue hexits

theorem Upkeep.after {clock : Int} {commandFile : Option (List Str)} {is : List EmuInput}
    (hstart : J (.new E.assignedNodeId) (timersOf (clock.tdiv 1000) AppNode.start) clock)
    (his : Guarded (step E) Allowed (start E clock commandFile) is)
    (hrunning : (E.after clock commandFile is).running = true) :
    let s := E.after clock commandFile is
    J s.node (timers s) s.clock := by
  refine (hJ.kept.run (s := start E clock commandFile) ?_ trivial his).1 hrunning
  exact hJ.react (s := made E clock commandFile)
    (r := ⟨.new E.assignedNodeId, AppNode.start, .returned⟩) rfl fun _ => hstart

end upkeep

/-! ### The node and the emulator -/

theorem station_upkeep (haddr : Packet.validAddress E.assignedNodeId = true) :
    E.Upkeep fun n _ t => ∃ τ, n.Ok E.assignedNodeId τ (t.tdiv 1000) where
  perm _ h := h
  clock h t' hle _ := by
    obtain ⟨τ, h⟩ := h
    exact ⟨τ, h.mono (Int.tdiv_le_tdiv (by decide) hle)⟩
  receive h sender msg := by
    obtain ⟨τ, h⟩ := h
    exact ⟨τ, h.onReceive haddr sender msg⟩
  command h msg := by
    obtain ⟨τ, h⟩ := h
    exact ⟨τ, h.onCommand E.alloc msg⟩
  timer h _ _ := by
    obtain ⟨τ, h⟩ := h
    exact ⟨_, h.callback haddr E.alloc _⟩

/-- The emulator `e'` comes from `e` by calls that `Emulator.step` models. -/
def Follows (e e' : Emulator δ) : Prop := ∃ evs, run (Emulator.step E.floats) e evs = e'

section follows
variable {E}

theorem Follows.refl (e : Emulator δ) : E.Follows e e := ⟨[], rfl⟩

theorem Follows.step {e e' : Emulator δ} (h : E.Follows e e') (ev : Emulator.Event) :
    E.Follows e (e'.step E.floats ev) := by
  obtain ⟨evs, rfl⟩ := h
  exact ⟨evs ++ [ev], by rw [run_append]; rfl⟩

theorem Follows.perform {e : Emulator δ} {s : EmuState δ} (h : E.Follows e s.emulator)
    (c : NodeCall) : E.Follows e (perform E s c).emulator := by
  cases c with
  | addTimer deltaMs cb => exact h
  | sendPkt dest pkt =>
      unfold Emulation.perform
      simp only
      split_ifs
      · exact h
      · rw [(foldl_dispatch_frame _ _ _).2.2.2.2]
        exact h.step (.sendPkt E.assignedNodeId dest pkt _ _ _)

theorem Follows.react {e : Emulator δ} {s : EmuState δ} (h : E.Follows e s.emulator)
    (r : NodeReaction) : E.Follows e (react E s r).emulator := by
  refine Kept.foldl (I := fun s => E.Follows e s.emulator) ?_ r.calls h
  exact fun s c h => h.perform c

theorem follows_kept (e : Emulator δ) : E.Kept fun s => E.Follows e s.emulator where
  loop h _ _ _ _ _ _ _ := h
  clock h _ _ _ := h
  ends h := h
  refresh h received := h.step (.refreshARP received)
  udp h data ip port := h.step (.processUdpPacket data ip port)
  receive h _ _ := h.react _
  command h _ := h.react _
  event := by
    intro s h _ ev q _ _
    unfold runEvent
    simp only
    split
    · rw [(physicalSend_frame E _ _).2.2.2.1]
      exact h
    · split_ifs
      · exact h
      · exact Follows.react (s := { s with sortedEvents := q }) h _

end follows

end Emulation

/-! ### The datagrams -/

namespace Dispatch

variable {δ : Type}

def datagram : Dispatch δ → Datagram
  | direct _ datagram => datagram
  | paced _ _ _ datagram => datagram

/-- What waits in the queue, if the packet is not sent at once. -/
def waits : Dispatch δ → Option (ScheduledEvent Datagram)
  | direct _ _ => none
  | paced _ _ timeToDeliver datagram => some ⟨timeToDeliver, datagram⟩

/-- It may have been sent at `t`. -/
def Due (t : Int) : Dispatch δ → Prop
  | direct _ _ => True
  | paced _ _ timeToDeliver _ => timeToDeliver ≤ t

theorem due_of_waits {d : Dispatch δ} {ev : ScheduledEvent Datagram} (h : d.waits = some ev) :
    d.datagram = ev.callback ∧ ∀ t, ev.timeToOccur ≤ t → d.Due t := by
  cases d with
  | direct => cases h
  | paced =>
      obtain rfl := Option.some.inj h
      exact ⟨rfl, fun t ht => ht⟩

end Dispatch

theorem Emulator.processUdpPacket_dispatched {δ : Type} (e : Emulator δ) (data : List UInt8)
    (ip : Str) (port : Int) : (e.processUdpPacket data ip port).dispatched = e.dispatched := by
  unfold processUdpPacket
  split
  · rfl
  · simp only
    split_ifs <;> rfl

namespace Emulation

variable {δ : Type} (E : Emulation δ) (s : EmuState δ)

/-- The datagram that an event of the queue sends. -/
def packet (ev : ScheduledEvent EmuCallback) : Option (ScheduledEvent Datagram) :=
  match ev.callback with
  | .node _ => none
  | .physicalSend datagram => some ⟨ev.timeToOccur, datagram⟩

/-- The datagrams that wait in the queue. -/
def packets : List (ScheduledEvent Datagram) := s.sortedEvents.events.filterMap packet

/-- The packets `ds` have been given to `physicalSend`, none of them before its time, or they wait in the
queue: `log` are those that it was given, with the clock then.  It has sent those whose address can be
read. -/
def Accounts (ds : List (Dispatch δ)) : Prop :=
  ∃ (log : List (Dispatch δ × Int)) (waiting : List (Dispatch δ)),
    ds ~ log.map Prod.fst ++ waiting ∧
    s.sent = (log.filter fun p => E.inetPton p.1.datagram.ipAddress).map
      (fun p => (p.1.datagram, p.2)) ∧
    (∀ p ∈ log, p.1.Due p.2) ∧
    waiting.map Dispatch.waits ~ (packets s).map some

section accounts
variable {E} {s} {ds : List (Dispatch δ)}

theorem addEvent_packets (time : Int) (cb : EmuCallback) :
    packets (addEvent s time cb) ~ (packet ⟨time, cb⟩).toList ++ packets s := by
  refine ((s.sortedEvents.addEvent_perm ⟨time, cb⟩).filterMap packet).trans (.of_eq ?_)
  cases h : packet ⟨time, cb⟩ with
  | none => simp [h, packets]
  | some ev => simp [h, packets]

theorem Accounts.physicalSend (h : Accounts E s ds) {d : Dispatch δ} (hd : d.Due s.clock) :
    Accounts E (physicalSend E s d.datagram) (ds ++ [d]) := by
  obtain ⟨log, waiting, hds, hsent, hdue, hwaiting⟩ := h
  have hqueue := (physicalSend_frame E s d.datagram).2.2.2.2
  refine ⟨log ++ [(d, s.clock)], waiting, ?_, ?_, ?_, ?_⟩
  · refine (hds.append_right [d]).trans ?_
    simp only [List.map_append, List.append_assoc]
    exact List.Perm.append_left _ List.perm_append_comm
  · rw [List.filter_append, List.map_append, ← hsent]
    unfold Emulation.physicalSend
    split_ifs with hreadable
    · rw [List.filter_cons_of_pos (by exact hreadable)]
      rfl
    · rw [List.filter_cons_of_neg (by exact hreadable)]
      exact (List.append_nil _).symm
  · intro p hp
    obtain hp | hp := List.mem_append.mp hp
    · exact hdue p hp
    · obtain rfl := List.mem_singleton.mp hp
      exact hd
  · unfold packets
    rwa [hqueue]

theorem Accounts.dispatch (h : Accounts E s ds) (d : Dispatch δ) :
    Accounts E (dispatch E s d) (ds ++ [d]) := by
  cases d with
  | direct destAddr datagram => exact h.physicalSend (d := .direct destAddr datagram) trivial
  | paced destAddr link time datagram =>
      obtain ⟨log, waiting, hds, hsent, hdue, hwaiting⟩ := h
      refine ⟨log, waiting ++ [.paced destAddr link time datagram], ?_, hsent, hdue, ?_⟩
      · rw [← List.append_assoc]
        exact hds.append_right _
      · rw [List.map_append]
        refine (hwaiting.append_right _).trans (List.perm_append_comm.trans ?_)
        exact ((addEvent_packets time (.physicalSend datagram)).map some).symm

theorem Accounts.foldl (h : Accounts E s ds) (ds' : List (Dispatch δ)) :
    Accounts E (ds'.foldl (Emulation.dispatch E) s) (ds ++ ds') := by
  induction ds' generalizing s ds with
  | nil => rwa [List.append_nil]
  | cons d ds' ih =>
      have htail := ih (h.dispatch d)
      rwa [List.append_assoc] at htail

theorem Accounts.perform (h : Accounts E s s.emulator.dispatched) (c : NodeCall) :
    Accounts E (perform E s c) (perform E s c).emulator.dispatched := by
  cases c with
  | addTimer deltaMs cb =>
      obtain ⟨log, waiting, hds, hsent, hdue, hwaiting⟩ := h
      refine ⟨log, waiting, hds, hsent, hdue, hwaiting.trans ?_⟩
      exact ((addEvent_packets _ (.node cb)).map some).symm
  | sendPkt dest pkt =>
      unfold Emulation.perform
      simp only
      split_ifs
      · exact h
      · obtain ⟨sent, hsent, -⟩ := Emulator.sendPkt_dispatched (F := E.floats) s.emulator
          E.assignedNodeId dest pkt (E.sends s.sends).received (E.sends s.sends).order
          fun destAddr => (s.clock, (E.sends s.sends).lost destAddr)
        have hsent : (s.emulator.sendPkt E.floats E.assignedNodeId dest pkt
            (E.sends s.sends).received (E.sends s.sends).order
            fun destAddr => (s.clock, (E.sends s.sends).lost destAddr)).1.dispatched =
              s.emulator.dispatched ++ sent := hsent
        rw [(foldl_dispatch_frame _ _ _).2.2.2.2, hsent, List.drop_left]
        exact Accounts.foldl (s := { s with emulator := _, sends := s.sends + 1 }) h sent

theorem Accounts.react (h : Accounts E s s.emulator.dispatched) (r : NodeReaction) :
    Accounts E (react E s r) (react E s r).emulator.dispatched := by
  refine Kept.foldl (I := fun s => Accounts E s s.emulator.dispatched) ?_ r.calls h
  exact fun s c h => h.perform c

theorem Accounts.sends (h : Accounts E s ds) {ev : ScheduledEvent EmuCallback} {datagram : Datagram}
    (hcb : ev.callback = .physicalSend datagram) {q : OrderedEventQueue EmuCallback}
    (hevents : s.sortedEvents.events = ev :: q.events) (hdue : ev.timeToOccur ≤ s.clock) :
    Accounts E (Emulation.physicalSend E { s with sortedEvents := q } datagram) ds := by
  obtain ⟨log, waiting, hds, hsent, hlog, hwaiting⟩ := h
  have hpackets : packets s = ⟨ev.timeToOccur, datagram⟩ :: q.events.filterMap packet := by
    unfold packets
    rw [hevents, List.filterMap_cons_some]
    unfold packet
    rw [hcb]
  rw [hpackets] at hwaiting
  -- the packet of the event is one of those that wait
  obtain ⟨d, hd, hwaits⟩ := List.mem_map.mp (hwaiting.mem_iff.mpr List.mem_cons_self)
  obtain ⟨before, after, rfl⟩ := List.append_of_mem hd
  have hrest : (before ++ after).map Dispatch.waits ~ (q.events.filterMap packet).map some := by
    have hcons := (List.perm_middle.map Dispatch.waits).symm.trans hwaiting
    rw [List.map_cons, List.map_cons, hwaits] at hcons
    exact hcons.cons_inv
  obtain ⟨hdatagram, hdued⟩ := Dispatch.due_of_waits hwaits
  have hlast : Accounts E { s with sortedEvents := q } (log.map Prod.fst ++ (before ++ after)) :=
    ⟨log, before ++ after, .refl _, hsent, hlog, hrest⟩
  have hnow := hlast.physicalSend (hdued s.clock hdue)
  rw [hdatagram] at hnow
  obtain ⟨log', waiting', hds', hrest'⟩ := hnow
  refine ⟨log', waiting', ?_, hrest'⟩
  refine hds.trans (.trans ?_ hds')
  rw [List.append_assoc]
  refine List.Perm.append_left _ (List.perm_middle.trans ?_)
  exact (List.perm_append_singleton _ _).symm

theorem accounts_kept : E.Kept fun s => Accounts E s s.emulator.dispatched where
  loop h _ _ _ _ _ _ _ := h
  clock h _ _ _ := h
  ends h := h
  refresh h received := h
  udp := by
    intro s h data ip port
    show Accounts E _ (s.emulator.processUdpPacket data ip port).dispatched
    rw [Emulator.processUdpPacket_dispatched]
    exact h
  receive h _ _ := h.react _
  command h _ := h.react _
  event := by
    intro s h _ ev q hq hdue
    obtain ⟨hevents, -⟩ := OrderedEventQueue.removeNextEvent_spec hq
    unfold runEvent
    simp only
    split
    · next datagram hcb =>
        rw [(physicalSend_frame E _ datagram).2.2.2.1]
        exact h.sends hcb hevents hdue
    · next cb hcb =>
        have hsame : Accounts E { s with sortedEvents := q } s.emulator.dispatched := by
          obtain ⟨log, waiting, hds, hsent, hlog, hwaiting⟩ := h
          refine ⟨log, waiting, hds, hsent, hlog, ?_⟩
          unfold packets at hwaiting
          rw [hevents, List.filterMap_cons_none] at hwaiting
          · exact hwaiting
          · unfold packet
            rw [hcb]
        split_ifs
        · exact hsame
        · exact Accounts.react (s := { s with sortedEvents := q }) hsame _

end accounts

/-! ### Runs -/

section runs
variable {clock : Int} (commandFile : Option (List Str)) {is : List EmuInput}
  (his : Guarded (step E) Allowed (start E clock commandFile) is)
include his

/-- **The node of the emulator is a disciplined station.**  The trawler has given it a valid address, and
the wall clock reads whole milliseconds and does not go back (`Allowed`).  Whatever the trawler, the
other nodes and the console send, and whenever: in every state of the loop the TCP of the node is one
that a run of a station at its address reaches in which every socket is opened once, segments come from
decoded packets only, and the clock does not go back.  Its neighbour table and its links are those of a
run of the emulator's calls. -/
theorem emulated_node_is_station (haddr : Packet.validAddress E.assignedNodeId = true)
    (hclock : 0 ≤ clock) (hrunning : (E.after clock commandFile is).running = true) :
    let s := E.after clock commandFile is
    (∃ τ, Reaches E.assignedNodeId τ (s.clock.tdiv 1000) s.node.stack.tcpMan) ∧
      s.node.stack.tcpMan.Unfailing ∧
      (∀ i, (s.node.stack.tcpMan.sock i).nextRtoDeadlineMs = 0 ↔
        (s.node.stack.tcpMan.sock i).outstanding = []) ∧
      ∃ evs, s.emulator = run (Emulator.step E.floats) (.new E.assignedNodeId) evs := by
  intro s
  have hstart : ∃ τ, (AppNode.new E.assignedNodeId).Ok E.assignedNodeId τ (clock.tdiv 1000) :=
    ⟨0, (AppNode.Ok.new _).mono (Int.tdiv_nonneg hclock (by decide))⟩
  obtain ⟨τ, hok⟩ := (E.station_upkeep haddr).after hstart his hrunning
  obtain ⟨c, hstation, htcp, -⟩ := hok.reaches.ok haddr
  obtain ⟨evs, hevs⟩ := ((follows_kept (.new E.assignedNodeId)).run
    (s := start E clock commandFile) (.refl _) trivial his).1
  refine ⟨⟨τ, hok.reaches⟩, ?_, ?_, evs, hevs.symm⟩
  · rw [← htcp]
    exact hstation.station.unfailing haddr
  · intro i
    rw [← htcp]
    exact (hstation.timers i).armed

theorem accounts_after : Accounts E (E.after clock commandFile is)
    (E.after clock commandFile is).emulator.dispatched := by
  have hmade : Accounts E (made E clock commandFile) [] :=
    ⟨[], [], .refl _, rfl, fun _ h => absurd h List.not_mem_nil, .refl _⟩
  have hstart : Accounts E (start E clock commandFile) (start E clock commandFile).emulator.dispatched :=
    Accounts.react (s := made E clock commandFile) hmade
      ⟨.new E.assignedNodeId, AppNode.start, .returned⟩
  exact (accounts_kept.run hstart trivial his).1

/-- **Every datagram leaves once, and not before its time.**  In every state of the loop the packets
that the emulator has dispatched are those that `physicalSend` was given (`log`) and those that wait in
the queue, and of the former those have been sent whose address `inet_pton` can read: no other packet is
lost between the two, none is sent twice, and none that a link has paced is sent before the time that
the link has given it. -/
theorem datagrams_leave_once :
    ∃ (log : List (Dispatch δ × Int)) (waiting : List (Dispatch δ)),
      (E.after clock commandFile is).emulator.dispatched ~ log.map Prod.fst ++ waiting ∧
      (E.after clock commandFile is).sent =
        (log.filter fun p => E.inetPton p.1.datagram.ipAddress).map (fun p => (p.1.datagram, p.2)) ∧
      (∀ p ∈ log, p.1.Due p.2) ∧
      waiting.map Dispatch.waits ~ (packets (E.after clock commandFile is)).map some :=
  E.accounts_after commandFile his

end runs

/-- Node 1, which loses no packet; host names are no addresses. -/
def nodeOne : Emulation Bool :=
  ⟨1, Floats.halves, fun _ => true, fun _ => ⟨[], false, [], fun _ => false⟩,
    fun ip => ip.all fun c => c.isDigit || c == '.'⟩

/-- Only time passes. -/
def passes (clock : Int) : EmuInput := ⟨clock, none, [], false, none, [], false⟩

/-- The trawler adds node 2 in the first round of the loop, the second line of the command file sends a
ping to it in the next one, and in the third one it is 4 ms later. -/
def pingInputs : List EmuInput :=
  List.replicate 4 (passes 1000000) ++
    [⟨1000000, none, "add 2 10.0.0.7 5000 lossRate 0.5 delay 1 bw 10000 bt 250\n".toList, false, none, [],
      false⟩] ++
    List.replicate 9 (passes 1000000) ++ List.replicate 4 (passes 1004000)

def pingScript : Option (List Str) := some ["".toList, "2 hello".toList]

theorem emulated_node_is_station_ping :
    let s := nodeOne.after 1000000 pingScript pingInputs
    s.running = true ∧ s.node.stack.pings.length = 1 ∧
      ∃ τ, Reaches 1 τ (s.clock.tdiv 1000) s.node.stack.tcpMan := by
  intro s
  have hrunning : s.running = true := by decide
  exact ⟨hrunning, by decide, (nodeOne.emulated_node_is_station pingScript (by decide) (by decide)
    (by decide) hrunning).1⟩

/-- The link has given the ping 3 ms, and the first round of the loop after that sends it. -/
theorem datagrams_leave_once_ping :
    let s := nodeOne.after 1000000 pingScript pingInputs
    s.sent.map Prod.snd = [1004000] ∧
      ∃ (log : List (Dispatch Bool × Int)) (waiting : List (Dispatch Bool)),
        s.emulator.dispatched ~ log.map Prod.fst ++ waiting ∧
        s.sent = (log.filter fun p => nodeOne.inetPton p.1.datagram.ipAddress).map
          (fun p => (p.1.datagram, p.2)) ∧
        (∀ p ∈ log, p.1.Due p.2) ∧
        waiting.map Dispatch.waits ~ (packets s).map some :=
  ⟨by decide, nodeOne.datagrams_leave_once pingScript (by decide)⟩

end Emulation

end NetBridge
