import NetBridge.Applications
import NetBridge.CommandLines
import NetBridge.Directives
import NetBridge.Reactions

/-! # The simulation

The program `netstack simulate` (`simulator.cpp`): the simulator with its nodes, the parser of its
command file and of its console, and its topology file, which may hold commands for the nodes, too.
Nothing is left open but what comes from outside: the files, the console, the draws against the loss
rates, and the sizes for which there is memory.

The reactions of the nodes are those of `Applications`, and the simulator is that of `Network`, with
this program in it. -/

namespace NetBridge

open CommandsParser

open scoped List

/-- A callback in the queue other than the delivery of a packet. -/
inductive SimCallback where
  | node (k : ℕ) (cb : NodeCallback)
  | parseRestOfTopoFile
deriving DecidableEq

/-- The nodes, the lines of the topology file that have not been read, and how many packets have been
sent. -/
structure SimNodes where
  nodes : List AppNode
  topoFile : List Str
  sends : ℕ

/-- What the simulation is given.  `draws i` are the draws for the packet number `i`; the constructor
of the simulator throws if there are no nodes or too many. -/
structure Simulation (δ : Type) where
  numNodes : ℕ
  floats : Floats δ
  alloc : ℕ → Bool
  draws : ℕ → Int → Bool
  scaled : Int → Int
  admitted : 0 < numNodes ∧ numNodes ≤ 254

variable {δ : Type}

/-- One reaction after another; what comes after an `exit` or an exception is not done. -/
def NetReaction.andThen {ω κ : Type} (r : NetReaction δ ω κ) (f : ω → NetReaction δ ω κ) :
    NetReaction δ ω κ :=
  if r.outcome ≠ .returned then r
  else ⟨(f r.rest).rest, r.calls ++ (f r.rest).calls, (f r.rest).outcome⟩

namespace Simulation

abbrev Reaction (δ : Type) := NetReaction δ SimNodes SimCallback

variable (S : Simulation δ)

/-- The calls of node `k`, the first packet of which has the number `i`. -/
def netCalls (k : ℕ) : ℕ → List NodeCall → List (NetCall δ SimCallback)
  | _, [] => []
  | i, .sendPkt dest pkt :: calls => .sendPkt k dest pkt (S.draws i) :: netCalls k (i + 1) calls
  | i, .addTimer deltaMs cb :: calls =>
      .request (.addTimer deltaMs (some (.node k cb))) :: netCalls k i calls

def isSend : NodeCall → Bool
  | .sendPkt .. => true
  | .addTimer .. => false

/-- Node `k` is called. -/
def atNode (k : ℕ) (f : AppNode → NodeReaction) (w : SimNodes) : Reaction δ :=
  match w.nodes[k]? with
  | none => ⟨w, [], .returned⟩
  | some n =>
      let r := f n
      ⟨{ w with nodes := w.nodes.set k r.node, sends := w.sends + r.calls.countP isSend },
        S.netCalls k w.sends r.calls, r.outcome⟩

/-- What a call of the parser does, at time `clock`. -/
def hook (clock : Int) (h : Hook δ) (w : SimNodes) : Reaction δ :=
  match h with
  | .createNewEdge a b options => ⟨w, [.newEdge a b options], .returned⟩
  | .failEdgeHook a b => ⟨w, [.failEdge a b], .returned⟩
  | .failNodeHook a => ⟨w, [.failNode a], .returned⟩
  | .restartEdgeHook a b => ⟨w, [.restartEdge a b], .returned⟩
  | .restartNodeHook a => ⟨w, [.restartNode a], .returned⟩
  | .exitCmd cmd => ⟨w, [], if arg cmd 0 = "exit".toList then .exits else .returned⟩
  | .echo _ | .error _ _ => ⟨w, [], .returned⟩
  | .parseNodeCmd cmd =>
      match SimulationCommandsParser.parseNodeCmd S.numNodes cmd with
      | .onCommand nodeAddr msg =>
          S.atNode nodeAddr.toNat (·.onCommand S.alloc (clock.tdiv 1000) msg) w
      | .ignored | .error _ => ⟨w, [], .returned⟩

/-- Reactions one after the other. -/
def inTurn (fs : List (SimNodes → Reaction δ)) (w : SimNodes) : Reaction δ :=
  fs.foldl NetReaction.andThen ⟨w, [], .returned⟩

section parser
variable [Zero δ]

/-- `parseLine` with the time `nowMicros`, when the clock shows `clock`. -/
def line (clock nowMicros : Int) (text : Str) (w : SimNodes) : Reaction δ :=
  inTurn ((parseLine S.floats text nowMicros).1.map (S.hook clock)) w

/-- `parseFile` in the constructor, and `parseRestOfTopoFile`. -/
def parseTopology (nowMicros : Int) (w : SimNodes) : Reaction δ :=
  let (parsed, unread, result) := parseRemainder S.floats nowMicros w.topoFile
  let r := inTurn (parsed.map (S.line nowMicros nowMicros)) { w with topoFile := unread }
  r.andThen fun w =>
    match result with
    | none => ⟨w, [], .exits⟩
    | some deferTill =>
        if 0 ≤ deferTill then
          ⟨w, [.request (.addEventAtMicros deferTill (some .parseRestOfTopoFile))], .returned⟩
        else ⟨w, [], .returned⟩

/-- A callback runs at time `nowMicros`. -/
def callback (nowMicros : Int) (w : SimNodes) : Callback SimCallback → Reaction δ
  | .deliverPkt src dest pkt =>
      if 0 ≤ dest ∧ dest < S.numNodes then
        S.atNode dest.toNat (·.onReceive (nowMicros.tdiv 1000) src pkt) w
      else ⟨w, [], .returned⟩
  | .other (.node k cb) => S.atNode k (·.callback S.alloc (nowMicros.tdiv 1000) cb) w
  | .other .parseRestOfTopoFile => S.parseTopology nowMicros w

def program : Program δ SimNodes SimCallback where
  numNodes := S.numNodes
  parseLine n text nowMicros clock :=
    ((parseLine S.floats text nowMicros).2, S.line clock nowMicros text n.rest)
  callback n cb nowMicros := S.callback nowMicros n.rest cb
  scaled := S.scaled

/-- The nodes when the simulator is made. -/
def newNodes (topoFile : List Str) : SimNodes :=
  ⟨(List.range S.numNodes).map fun k : ℕ => AppNode.new k, topoFile, 0⟩

/-- What the loop of `start` asks for. -/
def startNodes : List (NetCall δ SimCallback) :=
  (List.range S.numNodes).flatMap fun k => S.netCalls k 0 AppNode.start

/-- The simulator when it enters its loop: the constructor has read the topology file, unless a line of
it has ended the program, and the nodes have been started. -/
def start (topoFile : List Str) (commandFile : Option (List Str)) :
    Simulator (Net δ SimNodes) (Callback SimCallback) :=
  let topology := S.parseTopology 0 (S.newNodes topoFile)
  S.program.start (S.newNodes topoFile) commandFile topology
    ⟨topology.rest, S.startNodes, topology.outcome⟩

/-- The simulator after some rounds of its loop; an input is a line from the console, if there is one,
and the time that has passed. -/
def after (topoFile : List Str) (commandFile : Option (List Str))
    (inputs : List (Option Str × Int)) : Simulator (Net δ SimNodes) (Callback SimCallback) :=
  run (Simulator.step S.program.behaviour) (S.start topoFile commandFile) inputs

end parser

/-! ### What lines and the topology file keep -/

/-- An assertion about the nodes and the timers in the queue. -/
abbrev Assertion := SimNodes → List (ScheduledEvent SimCallback) → Prop

/-- The reaction, made at `now` milliseconds with the timers `q` in the queue, leads to a state that
meets the assertion, unless it ends the program. -/
def Leads (now : Int) (J : Assertion) (q : List (ScheduledEvent SimCallback)) (r : Reaction δ) : Prop :=
  r.outcome ≠ .exits → J r.rest (q ++ r.timers now)

variable {S} {now : Int} {J : Assertion} {q : List (ScheduledEvent SimCallback)} {w : SimNodes}

theorem Leads.idle (h : J w q) (calls : List (NetCall δ SimCallback))
    (hcalls : calls.filterMap (NetCall.timer now) = []) (outcome : Outcome) :
    Leads now J q (⟨w, calls, outcome⟩ : Reaction δ) := by
  intro _
  show J w (q ++ calls.filterMap (NetCall.timer now))
  rwa [hcalls, List.append_nil]

theorem Leads.andThen {r : Reaction δ} (h : Leads now J q r) {f : SimNodes → Reaction δ}
    (hf : ∀ w q, J w q → Leads now J q (f w)) : Leads now J q (r.andThen f) := by
  unfold NetReaction.andThen
  split_ifs with hreturned
  · exact h
  · intro houtcome
    have hfirst := h (by rw [not_not.mp hreturned]; decide)
    have hboth := hf r.rest (q ++ r.timers now) hfirst houtcome
    rw [List.append_assoc] at hboth
    show J _ (q ++ (r.calls ++ (f r.rest).calls).filterMap (NetCall.timer now))
    rwa [List.filterMap_append]

theorem Leads.inTurn {fs : List (SimNodes → Reaction δ)} (h : J w q)
    (hfs : ∀ f ∈ fs, ∀ w q, J w q → Leads now J q (f w)) : Leads now J q (inTurn fs w) := by
  have hfold : ∀ r : Reaction δ, Leads now J q r →
      Leads now J q (fs.foldl NetReaction.andThen r) := by
    induction fs with
    | nil => exact fun r hr => hr
    | cons f fs ih =>
        obtain ⟨hf, hfs⟩ := List.forall_mem_cons.mp hfs
        exact fun r hr => ih hfs _ (hr.andThen hf)
  exact hfold _ (.idle h [] rfl _)

/-- What such an assertion needs in order to be kept by lines and by the topology file. -/
structure Kept (S : Simulation δ) (now : Int) (J : Assertion) : Prop where
  command : ∀ {w q}, J w q → ∀ k msg,
    Leads now J q (S.atNode k (·.onCommand S.alloc now msg) w)
  topoFile : ∀ {w q}, J w q → ∀ lines, J { w with topoFile := lines } q
  resume : ∀ {w q}, J w q → ∀ time, J w (q ++ [⟨time, .parseRestOfTopoFile⟩])

theorem Kept.hook {clock : Int} (hJ : S.Kept (clock.tdiv 1000) J) (h : J w q) (hk : Hook δ) :
    Leads (clock.tdiv 1000) J q (S.hook clock hk w) := by
  cases hk with
  | createNewEdge | failEdgeHook | failNodeHook | restartEdgeHook | restartNodeHook | exitCmd | echo
  | error => exact .idle h _ rfl _
  | parseNodeCmd cmd =>
      unfold Simulation.hook
      simp only
      split
      · exact hJ.command h _ _
      · exact .idle h _ rfl _
      · exact .idle h _ rfl _

theorem Kept.line [Zero δ] {clock : Int} (hJ : S.Kept (clock.tdiv 1000) J) (h : J w q)
    (nowMicros : Int) (text : Str) :
    Leads (clock.tdiv 1000) J q (S.line clock nowMicros text w) := by
  refine Leads.inTurn h ?_
  intro f hf w q h
  obtain ⟨hk, -, rfl⟩ := List.mem_map.mp hf
  exact hJ.hook h hk

theorem Kept.parseTopology [Zero δ] {nowMicros : Int} (hJ : S.Kept (nowMicros.tdiv 1000) J)
    (h : J w q) : Leads (nowMicros.tdiv 1000) J q (S.parseTopology nowMicros w) := by
  unfold Simulation.parseTopology
  simp only
  refine Leads.andThen ?_ ?_
  · refine Leads.inTurn (hJ.topoFile h _) ?_
    intro f hf w q h
    obtain ⟨text, -, rfl⟩ := List.mem_map.mp hf
    exact hJ.line h nowMicros text
  · intro w q h
    split
    · exact .idle h _ rfl _
    · next deferTill _ =>
        split_ifs with hnonneg
        · intro _
          have htimer : NetReaction.timers (nowMicros.tdiv 1000) (⟨w, [.request
              (.addEventAtMicros deferTill (some .parseRestOfTopoFile))], .returned⟩ : Reaction δ) =
              [⟨deferTill, .parseRestOfTopoFile⟩] := by
            simp [NetReaction.timers, NetCall.timer, Request.event, not_lt.mpr hnonneg]
          rw [htimer]
          exact hJ.resume h deferTill
        · exact .idle h _ rfl _

/-- What an assertion about the view says of the nodes and the timers. -/
def onNodes (I : Program.View SimNodes SimCallback → Prop) (v : Program.View SimNodes SimCallback) :
    Assertion :=
  fun w q => I { v with rest := w, timers := q }

/-- What an assertion needs in order to hold throughout a simulation. -/
structure Upkeep (S : Simulation δ) (unattended : Prop)
    (I : Program.View SimNodes SimCallback → Prop) : Prop where
  perm : ∀ {v : Program.View SimNodes SimCallback} {q}, v.timers ~ q → I v →
    I { v with timers := q }
  clock : ∀ {v : Program.View SimNodes SimCallback} {t}, v.nowMicros ≤ t →
    (unattended → ∀ ev ∈ v.timers, t ≤ max v.nowMicros ev.timeToOccur) →
    I v → I { v with nowMicros := t }
  kept : ∀ v, S.Kept (v.nowMicros.tdiv 1000) (onNodes I v)
  receive : ∀ {v}, I v → ∀ k src pkt, Leads (v.nowMicros.tdiv 1000) (onNodes I v) v.timers
    (S.atNode k (·.onReceive (v.nowMicros.tdiv 1000) src pkt) v.rest)
  timer : ∀ {v : Program.View SimNodes SimCallback} {time k cb},
    I { v with timers := ⟨time, .node k cb⟩ :: v.timers } → time ≤ v.nowMicros →
    Leads (v.nowMicros.tdiv 1000)
      (onNodes I { v with ran := v.ran ++ [(⟨time, .node k cb⟩, v.nowMicros)] }) v.timers
      (S.atNode k (·.callback S.alloc (v.nowMicros.tdiv 1000) cb) v.rest)
  resumed : ∀ {v : Program.View SimNodes SimCallback} {time},
    I { v with timers := ⟨time, .parseRestOfTopoFile⟩ :: v.timers } →
    I { v with ran := v.ran ++ [(⟨time, .parseRestOfTopoFile⟩, v.nowMicros)] }

section upkeep
variable [Zero δ] {unattended : Prop} {I : Program.View SimNodes SimCallback → Prop}

theorem Upkeep.invariant (hI : S.Upkeep unattended I) : S.program.Invariant unattended I where
  perm := hI.perm
  clock := hI.clock
  line := by
    intro n v text nowMicros hn h houtcome
    have hline := (hI.kept v).line (q := v.timers) (w := v.rest) h nowMicros text
    rw [← hn] at hline
    refine hline ?_
    intro hexits
    rw [show (S.line v.nowMicros nowMicros text n.rest).outcome = .returned from houtcome] at hexits
    cases hexits
  deliver := by
    intro n v src dest pkt hn h houtcome
    have hreceive := hI.receive h dest.toNat src pkt
    rw [← hn] at hreceive
    by_cases hdest : 0 ≤ dest ∧ dest < S.numNodes
    · have heq : S.program.callback n (.deliverPkt src dest pkt) v.nowMicros =
          S.atNode dest.toNat (·.onReceive (v.nowMicros.tdiv 1000) src pkt) n.rest := if_pos hdest
      rw [heq] at houtcome ⊢
      exact hreceive houtcome
    · have heq : S.program.callback n (.deliverPkt src dest pkt) v.nowMicros =
          ⟨n.rest, [], .returned⟩ := if_neg hdest
      rw [heq, hn]
      show I { v with timers := v.timers ++ [] }
      rwa [List.append_nil]
  timer := by
    intro n v ev hn h hdue houtcome
    obtain ⟨time, cb⟩ := ev
    cases cb with
    | node k cb =>
        have htimer := hI.timer h hdue
        rw [← hn] at htimer
        exact htimer houtcome
    | parseRestOfTopoFile =>
        have hrest := (hI.kept { v with ran := v.ran ++
          [(⟨time, .parseRestOfTopoFile⟩, v.nowMicros)] }).parseTopology (q := v.timers)
          (w := v.rest) (hI.resumed h)
        rw [← hn] at hrest
        exact hrest houtcome

/-- What is kept and holds of new nodes holds when the constructor has read the topology file. -/
theorem Upkeep.topology (hI : S.Upkeep unattended I) {topoFile : List Str}
    (hnew : I ⟨S.newNodes topoFile, [], [], 0⟩)
    (hreturned : (S.parseTopology 0 (S.newNodes topoFile)).outcome = .returned) :
    let r := S.parseTopology 0 (S.newNodes topoFile)
    I ⟨r.rest, r.timers 0, [], 0⟩ := by
  have hread := (hI.kept ⟨S.newNodes topoFile, [], [], 0⟩).parseTopology (q := [])
    (w := S.newNodes topoFile) hnew
  refine hread ?_
  intro hexits
  rw [show (S.parseTopology 0 (S.newNodes topoFile)).outcome = .returned from hreturned] at hexits
  cases hexits

/-- The rule for simulations: what is kept and holds of the nodes when they have been started holds in
every state. -/
theorem Upkeep.after (hI : S.Upkeep unattended I) (hscaled : ∀ d, 0 ≤ d → 0 ≤ S.scaled d)
    {topoFile : List Str} {commandFile : Option (List Str)} {inputs : List (Option Str × Int)}
    (helapsed : ∀ input ∈ inputs, 0 ≤ input.2)
    (hinputs : unattended → ∀ input ∈ inputs, input.1 = none)
    (hstart : let r := S.parseTopology 0 (S.newNodes topoFile)
      r.outcome = .returned →
        I ⟨r.rest, r.timers 0 ++ S.startNodes.filterMap (NetCall.timer 0), [], 1⟩)
    (hrunning : (S.after topoFile commandFile inputs).running = true) :
    I (Program.view (S.after topoFile commandFile inputs)) := by
  refine hI.invariant.run hscaled helapsed hinputs ?_ hrunning
  refine hI.invariant.start _ _ ?_
  intro hreturned
  have hview := hstart hreturned
  rwa [← List.nil_append (NetReaction.timers 0 _)] at hview

end upkeep

/-! ### The nodes of a simulation are stations -/

/-- When the timer of node `k` with this callback has run, in microseconds. -/
def fired (ran : List (ScheduledEvent SimCallback × Int)) (k : ℕ) (cb : NodeCallback) : List Int :=
  (ran.filter fun p => p.1.callback = .node k cb).map Prod.snd

/-- When it has last run, in milliseconds. -/
def lastRun (ran : List (ScheduledEvent SimCallback × Int)) (k : ℕ) (cb : NodeCallback) : Int :=
  ((fired ran k cb).getLastD 0).tdiv 1000

theorem fired_append (ran : List (ScheduledEvent SimCallback × Int)) (time t : Int)
    (cb' : SimCallback) (k : ℕ) (cb : NodeCallback) :
    fired (ran ++ [(⟨time, cb'⟩, t)]) k cb =
      fired ran k cb ++ if cb' = .node k cb then [t] else [] := by
  unfold fired
  rw [List.filter_append, List.map_append]
  split_ifs with h <;> simp [h]

theorem lastRun_append (ran : List (ScheduledEvent SimCallback × Int)) (time t : Int)
    (cb' : SimCallback) (k : ℕ) (cb : NodeCallback) :
    lastRun (ran ++ [(⟨time, cb'⟩, t)]) k cb =
      if cb' = .node k cb then t.tdiv 1000 else lastRun ran k cb := by
  unfold lastRun
  rw [fired_append]
  split_ifs with h <;> simp

/-- Every node has what `Applications` says of it. -/
def Stations (S : Simulation δ) (t : Int) (τ : ℕ → Int) (w : SimNodes) : Prop :=
  w.nodes.length = S.numNodes ∧ ∀ (k : ℕ) (n : AppNode), w.nodes[k]? = some n → n.Ok k (τ k) t

theorem validAddress_of_lt (S : Simulation δ) {k : ℕ} (hk : k < S.numNodes) :
    Packet.validAddress k = true := by
  have hmax := S.admitted.2
  rw [Packet.validAddress_iff]
  omega

theorem atNode_length (S : Simulation δ) (k : ℕ) (f : AppNode → NodeReaction) (w : SimNodes) :
    (S.atNode k f w).rest.nodes.length = w.nodes.length := by
  unfold Simulation.atNode
  split
  · rfl
  · exact List.length_set

theorem atNode_node {j k : ℕ} {f : AppNode → NodeReaction} {n' : AppNode}
    (h : (S.atNode k f w).rest.nodes[j]? = some n') :
    (j ≠ k ∧ w.nodes[j]? = some n') ∨ (j = k ∧ ∃ n, w.nodes[k]? = some n ∧ n' = (f n).node) := by
  unfold Simulation.atNode at h
  split at h
  · next hnone =>
      refine .inl ⟨?_, h⟩
      rintro rfl
      rw [h] at hnone
      cases hnone
  · next n hn =>
      simp only [List.getElem?_set] at h
      split_ifs at h with hkj
      · exact .inr ⟨hkj.symm, n, hn, (Option.some.inj h).symm⟩
      · exact .inl ⟨Ne.symm hkj, h⟩

theorem Stations.atNode {t : Int} {τ τ' : ℕ → Int} (h : S.Stations t τ w) (k : ℕ)
    (hτ : ∀ j, j ≠ k → τ' j = τ j) {f : AppNode → NodeReaction}
    (hf : ∀ n : AppNode, Packet.validAddress k = true → n.Ok k (τ k) t →
      (f n).node.Ok k (τ' k) t) :
    S.Stations t τ' (S.atNode k f w).rest := by
  refine ⟨(S.atNode_length k f w).trans h.1, ?_⟩
  intro j n' hn'
  obtain ⟨hj, hn'⟩ | ⟨rfl, n, hn, rfl⟩ := atNode_node hn'
  · rw [hτ j hj]
    exact h.2 j n' hn'
  · obtain ⟨hlt, -⟩ := List.getElem?_eq_some_iff.mp hn
    exact hf n (S.validAddress_of_lt (h.1 ▸ hlt)) (h.2 j n hn)

theorem stations_upkeep (S : Simulation δ) (unattended : Prop) :
    S.Upkeep unattended fun v => 0 ≤ v.nowMicros ∧
      S.Stations (v.nowMicros.tdiv 1000) (lastRun v.ran · .retransmissionTick) v.rest where
  perm _ h := h
  clock := by
    intro v t hle _ h
    refine ⟨h.1.trans hle, h.2.1, ?_⟩
    intro k n hn
    exact (h.2.2 k n hn).mono (Int.tdiv_le_tdiv (by decide) hle)
  kept v := {
    command := fun h k msg _ =>
      ⟨h.1, h.2.atNode k (fun _ _ => rfl) fun n _ hn => hn.onCommand S.alloc msg⟩
    topoFile := fun h _ => h
    resume := fun h _ => h }
  receive h k src pkt _ :=
    ⟨h.1, h.2.atNode k (fun _ _ => rfl) fun n haddr hn => hn.onReceive haddr src pkt⟩
  timer := by
    intro v time k cb h _ _
    refine ⟨h.1, h.2.atNode k ?_ ?_⟩
    · intro j hj
      rw [lastRun_append, if_neg (by simp [Ne.symm hj])]
    · intro n haddr hn
      have hlast : lastRun (v.ran ++ [(⟨time, .node k cb⟩, v.nowMicros)]) k .retransmissionTick =
          AppNode.lastTick (lastRun v.ran k .retransmissionTick) (v.nowMicros.tdiv 1000) cb := by
        rw [lastRun_append]
        cases cb <;> simp [AppNode.lastTick]
      rw [hlast]
      exact hn.callback haddr S.alloc cb
  resumed := by
    intro v time h
    refine ⟨h.1, h.2.1, ?_⟩
    intro k n hn
    show n.Ok k (lastRun (v.ran ++ [(⟨time, .parseRestOfTopoFile⟩, v.nowMicros)]) k _) _
    rw [lastRun_append, if_neg (by simp)]
    exact h.2.2 k n hn

theorem newNodes_getElem? [Zero δ] (S : Simulation δ) (topoFile : List Str) {k : ℕ} {n : AppNode}
    (h : (S.newNodes topoFile).nodes[k]? = some n) : k < S.numNodes ∧ n = AppNode.new k := by
  unfold newNodes at h
  rw [List.getElem?_map] at h
  obtain ⟨j, hj, rfl⟩ := Option.map_eq_some_iff.mp h
  obtain ⟨hk, rfl⟩ := List.getElem?_eq_some_iff.mp hj
  rw [List.getElem_range]
  exact ⟨by simpa using hk, rfl⟩

theorem Stations.new [Zero δ] (S : Simulation δ) (topoFile : List Str) :
    S.Stations 0 (fun _ => 0) (S.newNodes topoFile) := by
  refine ⟨by simp [newNodes], ?_⟩
  intro k n hn
  obtain ⟨-, rfl⟩ := S.newNodes_getElem? topoFile hn
  exact .new k

theorem Stations.after [Zero δ] (S : Simulation δ) (hscaled : ∀ d, 0 ≤ d → 0 ≤ S.scaled d)
    {topoFile : List Str} {commandFile : Option (List Str)} {inputs : List (Option Str × Int)}
    (helapsed : ∀ input ∈ inputs, 0 ≤ input.2)
    (hrunning : (S.after topoFile commandFile inputs).running = true) :
    let s := S.after topoFile commandFile inputs
    S.Stations s.now (lastRun s.ownRan · .retransmissionTick) s.world.rest := by
  refine ((S.stations_upkeep False).after hscaled helapsed (fun h => h.elim) ?_ hrunning).2
  intro r hreturned
  have hnodes := (S.stations_upkeep False).topology ⟨le_rfl, .new S topoFile⟩ hreturned
  exact ⟨Int.one_nonneg, hnodes.2⟩

/-- **Every node of a simulation is a disciplined station.**  All that is asked for is a timescale that
is not negative and a wall clock that does not go back.  Whatever the topology file, the command file
and the console say, which packets are lost and how the tasks are interleaved: in every state the TCP of
node `k` is one that a run of a station at address `k` reaches in which every socket is opened once,
segments come from decoded packets only, the clock does not go back, and the latest tick was when the
retransmission timer of the node has last run.  So what holds of those runs holds in a simulation: no
send of a connection fails, and the retransmission timer of a socket is on exactly while it has
something outstanding. -/
theorem nodes_are_stations [Zero δ] (S : Simulation δ) (hscaled : ∀ d, 0 ≤ d → 0 ≤ S.scaled d)
    (topoFile : List Str) (commandFile : Option (List Str)) (inputs : List (Option Str × Int))
    (helapsed : ∀ input ∈ inputs, 0 ≤ input.2)
    (hrunning : (S.after topoFile commandFile inputs).running = true) :
    let s := S.after topoFile commandFile inputs
    s.world.rest.nodes.length = S.numNodes ∧
      ∀ (k : ℕ) (n : AppNode), s.world.rest.nodes[k]? = some n →
        Reaches k (lastRun s.ownRan k .retransmissionTick) s.now n.stack.tcpMan ∧
          n.stack.tcpMan.Unfailing ∧
          ∀ i, (n.stack.tcpMan.sock i).nextRtoDeadlineMs = 0 ↔
            (n.stack.tcpMan.sock i).outstanding = [] := by
  intro s
  have hstations := Stations.after S hscaled helapsed hrunning
  refine ⟨hstations.1, ?_⟩
  intro k n hn
  obtain ⟨hk, -⟩ := List.getElem?_eq_some_iff.mp hn
  have haddr := S.validAddress_of_lt (hstations.1 ▸ hk)
  have hreaches := (hstations.2 k n hn).reaches
  obtain ⟨c, hok, htcp, -⟩ := hreaches.ok haddr
  refine ⟨hreaches, ?_, ?_⟩
  · rw [← htcp]
    exact hok.station.unfailing haddr
  · intro i
    rw [← htcp]
    exact (hok.timers i).armed

/-- Two nodes that are connected, where everything arrives and nothing takes time on the wall clock. -/
def pair : Simulation ℕ :=
  ⟨2, Floats.whole, fun _ => true, fun _ _ => false, fun d => d, by decide⟩

/-- A server at node 1, and a client at node 0 that wants to send ten bytes to it. -/
def transferScript : List Str :=
  ["1 server 80 4 100 100 16".toList, "0 transfer 1 80 5 10 100 16".toList]

/-- The two commands have been read: the client has sent its SYN. -/
theorem nodes_are_stations_after_commands :
    let s := pair.after ["edge 0 1".toList] (some transferScript) (List.replicate 6 (none, 0))
    s.running = true ∧ (s.world.rest.nodes.map fun n => n.tasks.length) = [1, 1] ∧
      ∀ (k : ℕ) (n : AppNode), s.world.rest.nodes[k]? = some n →
        Reaches k (lastRun s.ownRan k .retransmissionTick) s.now n.stack.tcpMan := by
  intro s
  have hrunning : s.running = true := by decide
  refine ⟨hrunning, by decide, ?_⟩
  intro k n hn
  exact ((nodes_are_stations pair (fun d hd => hd) _ _ _ (by decide) hrunning).2 k n hn).1

end Simulation

end NetBridge
