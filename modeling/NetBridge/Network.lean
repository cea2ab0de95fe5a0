import NetBridge.Links
import NetBridge.Simulator

/-! # The simulated network

`Simulator::sendPkt` (`simulator.cpp`) gives a packet to the edge of the two nodes, or to all edges of
the sender for a broadcast, and queues an event that hands it to the receiver when the edge says so.
The rest of the program (`Program`) makes calls: it sends packets, changes the topology and asks for
timers.

A new packet from `src` to `dest` never overtakes one that is queued: its time is the end of its
transmission and a fixed delay, and the edge has finished the earlier ones before it.  So the queue,
in which an event stands behind those of the same time, keeps their order (`InOrder`). -/

namespace NetBridge

/-- A callback in the queue: the delivery that `sendPkt` makes, or one of the rest of the program. -/
inductive Callback (κ : Type) where
  | deliverPkt (src dest : Int) (pkt : List UInt8)
  | other (cb : κ)
deriving DecidableEq

def Request.map {κ κ' : Type} (f : κ → κ') : Request κ → Request κ'
  | .addTimerAt tMs cb => .addTimerAt tMs (cb.map f)
  | .addTimer deltaMs cb => .addTimer deltaMs (cb.map f)
  | .addEventAtMicros timeMicros cb => .addEventAtMicros timeMicros (cb.map f)

/-- The topology and the rest of the program.  `sent` are the packets for which an edge has given a
time of arrival, in the order in which they were sent. -/
structure Net (δ ω : Type) where
  topology : Topology δ
  sent : List (Int × Int × List UInt8)
  rest : ω

/-- What the rest of the program can ask for.  `draw` tells whether the edge to a node loses the
packet. -/
inductive NetCall (δ κ : Type) where
  | request (r : Request κ)
  | sendPkt (src dest : Int) (pkt : List UInt8) (draw : Int → Bool)
  | newEdge (a b : Int) (options : EdgeOptions δ)
  | failEdge (a b : Int)
  | restartEdge (a b : Int)
  | failNode (a : Int)
  | restartNode (a : Int)

/-- What a line or a callback does. -/
structure NetReaction (δ ω κ : Type) where
  rest : ω
  calls : List (NetCall δ κ)
  outcome : Outcome

variable {δ ω κ : Type} [Zero δ]

namespace Net

/-- The body of the loop of `sendPkt`, and of what comes after it for a single receiver. -/
def transmit (nowMicros src dest : Int) (pkt : List UInt8) (draw : Bool) (n : Net δ ω) :
    Net δ ω × List (Request (Callback κ)) × Except String Bool :=
  match n.topology.getLiveEdge src dest with
  | (t, none) => ({ n with topology := t }, [], .ok false)
  | (t, some i) =>
      match (t.edge i).schedulePkt src pkt.length nowMicros draw with
      | .error err => ({ n with topology := t }, [], .error err)
      | .ok (outcome, e) =>
          let n := { n with topology := t.modifyEdge i fun _ => e }
          if outcome.value = -1 then (n, [], .ok true)
          else
            ({ n with sent := n.sent ++ [(src, dest, pkt)] },
              [.addEventAtMicros outcome.value (some (.deliverPkt src dest pkt))], .ok true)

/-- The loop of a broadcast. -/
def broadcast (nowMicros src : Int) (pkt : List UInt8) (draw : Int → Bool) :
    List Int → Net δ ω → Net δ ω × List (Request (Callback κ)) × Except String Bool
  | [], n => (n, [], .ok true)
  | i :: is, n =>
      match n.transmit nowMicros src i pkt (draw i) with
      | (n, requests, .error err) => (n, requests, .error err)
      | (n, requests, .ok _) =>
          let (n, requests', r) := broadcast nowMicros src pkt draw is n
          (n, requests ++ requests', r)

/-- `Simulator::sendPkt`. -/
def sendPkt (numNodes : ℕ) (nowMicros src dest : Int) (pkt : List UInt8) (draw : Int → Bool)
    (n : Net δ ω) : Net δ ω × List (Request (Callback κ)) × Except String Bool :=
  match RuntimeManager.sendPkt src dest pkt with
  | .error err => (n, [], .error err)
  | .ok () =>
      if dest = Packet.BROADCAST_ADDRESS then
        n.broadcast nowMicros src pkt draw ((List.range numNodes).map Int.ofNat)
      else n.transmit nowMicros src dest pkt (draw dest)

def perform (numNodes : ℕ) (nowMicros : Int) (n : Net δ ω) :
    NetCall δ κ → Net δ ω × List (Request (Callback κ))
  | .request r => (n, [r.map .other])
  | .sendPkt src dest pkt draw =>
      let (n, requests, _) := n.sendPkt numNodes nowMicros src dest pkt draw
      (n, requests)
  | .newEdge a b options => ({ n with topology := n.topology.newEdge a b options }, [])
  | .failEdge a b => ({ n with topology := (n.topology.failEdge a b).1 }, [])
  | .restartEdge a b => ({ n with topology := (n.topology.restartEdge a b).1 }, [])
  | .failNode a => ({ n with topology := n.topology.failNode a }, [])
  | .restartNode a => ({ n with topology := n.topology.restartNode a }, [])

def performAll (numNodes : ℕ) (nowMicros : Int) :
    Net δ ω → List (NetCall δ κ) → Net δ ω × List (Request (Callback κ))
  | n, [] => (n, [])
  | n, c :: calls =>
      let (n, requests) := n.perform numNodes nowMicros c
      let (n, requests') := performAll numNodes nowMicros n calls
      (n, requests ++ requests')

/-- What a reaction does to the simulator. -/
def react (numNodes : ℕ) (nowMicros : Int) (n : Net δ ω) (r : NetReaction δ ω κ) :
    Response (Net δ ω) (Callback κ) :=
  let (n, requests) := performAll numNodes nowMicros { n with rest := r.rest } r.calls
  ⟨n, requests, r.outcome⟩

end Net

/-- The program: what a line does and what a callback does, a delivery among them. -/
structure Program (δ ω κ : Type) where
  numNodes : ℕ
  parseLine : Net δ ω → Str → Int → Int → Int × NetReaction δ ω κ
  callback : Net δ ω → Callback κ → Int → NetReaction δ ω κ
  scaled : Int → Int

namespace Program

variable (P : Program δ ω κ)

def behaviour : Behaviour (Net δ ω) (Callback κ) where
  parseLine n line nowMicros clock :=
    let (deferTill, r) := P.parseLine n line nowMicros clock
    (deferTill, n.react P.numNodes clock r)
  callback n cb nowMicros := n.react P.numNodes nowMicros (P.callback n cb nowMicros)
  scaled := P.scaled

/-- The simulator when it enters its loop: it has read the topology file and started the nodes. -/
def start (rest : ω) (commandFile : Option (List Str)) (topology nodes : NetReaction δ ω κ) :
    Simulator (Net δ ω) (Callback κ) :=
  let s : Simulator (Net δ ω) (Callback κ) := .new ⟨.new false, [], rest⟩ commandFile
  let s := s.respond (s.world.react P.numNodes s.nowMicros topology)
  s.start (s.world.react P.numNodes s.nowMicros nodes)

end Program

/-! ### The edge of a pair of nodes -/

namespace Topology

variable {t t' : Topology δ} {a b src dest : Int} {i : EdgeId} {f : Edge δ → Edge δ}
  {o : EdgeOptions δ}

/-- The edge that `getEdge` finds. -/
def edgeOf (t : Topology δ) (a b : Int) : Option (Edge δ) := t.edges.find? (·.isEdge a b)

omit [Zero δ] in
theorem edgeOf_none (h : t.edges.findIdx? (·.isEdge a b) = none) : t.edgeOf a b = none := by
  rw [edgeOf, List.find?_eq_none]
  simpa using List.findIdx?_eq_none_iff.mp h

theorem edgeOf_some (h : t.edges.findIdx? (·.isEdge a b) = some i) :
    t.edgeOf a b = some (t.edge i) := by
  have hlt : i < t.edges.length := (List.findIdx?_eq_some_iff_getElem.mp h).1
  rw [edgeOf, find?_eq_getElem? h]
  simp [Topology.edge, hlt]

omit [Zero δ] in
theorem edgeOf_congr {c d : Int} (h : s(a, b) = s(c, d)) : t.edgeOf c d = t.edgeOf a b := by
  have hpred : (fun e : Edge δ => e.isEdge c d) = fun e => e.isEdge a b := funext (Edge.isEdge_eq h)
  unfold edgeOf
  rw [hpred]

omit [Zero δ] in
theorem edgeOf_modifyEdge (hf : ∀ e, (f e).a = e.a ∧ (f e).b = e.b)
    (hidx : t.edges.findIdx? (·.isEdge a b) = some i) (c d : Int) :
    (t.modifyEdge i f).edgeOf c d =
      if s(a, b) = s(c, d) then (t.edgeOf c d).map f else t.edgeOf c d := by
  have hedge : ∀ (e : Edge δ) (c d : Int), (f e).isEdge c d = e.isEdge c d := by
    intro e c d
    unfold Edge.isEdge
    rw [(hf e).1, (hf e).2]
  split_ifs with h
  · rw [edgeOf_congr h, edgeOf_congr h]
    exact find?_modify_self (fun e => hedge e a b) hidx
  · exact find?_modify_other (fun e => hedge e c d) (fun e he => Edge.isEdge_ne h he) hidx

theorem modifyEdge_edge (t : Topology δ) (i : EdgeId) (f : Edge δ → Edge δ) :
    t.modifyEdge i (fun _ => f (t.edge i)) = t.modifyEdge i f := by
  unfold modifyEdge
  congr 1
  apply List.ext_getElem?
  intro j
  rw [List.getElem?_modify, List.getElem?_modify]
  by_cases hij : i = j
  · subst hij
    cases h : t.edges[i]? with
    | none => rfl
    | some e => simp [Topology.edge, h]
  · simp [hij]

theorem getEdge_eq (h : t.allToAll = false) (a b : Int) :
    t.getEdge a b = (t, t.edges.findIdx? (·.isEdge a b)) := by
  unfold getEdge
  cases t.edges.findIdx? (·.isEdge a b) <;> simp [h]

theorem getLiveEdge_cases (h : t.allToAll = false) (a b : Int) :
    t.getLiveEdge a b = (t, none) ∨
      ∃ i, t.edges.findIdx? (·.isEdge a b) = some i ∧ t.getLiveEdge a b = (t, some i) := by
  unfold getLiveEdge
  rw [getEdge_eq h]
  cases hidx : t.edges.findIdx? (·.isEdge a b) with
  | none => exact .inl rfl
  | some i =>
      simp only
      split_ifs
      · exact .inl rfl
      · exact .inr ⟨i, rfl, rfl⟩

/-- From `t` to `t'` the edge of the pair keeps its options `o`, and the time at which `src` may send
over it does not go back. -/
structure Advances (src dest : Int) (o : EdgeOptions δ) (t t' : Topology δ) : Prop where
  allToAll : t'.allToAll = t.allToAll
  options : (∀ e ∈ t.edgeOf src dest, e.options = o) → ∀ e ∈ t'.edgeOf src dest, e.options = o
  sendTime : ∀ e ∈ t.edgeOf src dest, ∃ e' ∈ t'.edgeOf src dest, e.sendTime src ≤ e'.sendTime src

omit [Zero δ] in
theorem Advances.of_edgeOf (hall : t'.allToAll = t.allToAll)
    (h : t'.edgeOf src dest = t.edgeOf src dest) : Advances src dest o t t' := by
  refine ⟨hall, ?_, ?_⟩
  · rw [h]
    exact id
  · intro e he
    exact ⟨e, h ▸ he, le_rfl⟩

omit [Zero δ] in
theorem Advances.modifyEdge (hidx : t.edges.findIdx? (·.isEdge a b) = some i)
    (hf : ∀ e, (f e).a = e.a ∧ (f e).b = e.b)
    (hoptions : s(a, b) = s(src, dest) → ∀ e, e.options = o → (f e).options = o)
    (htime : ∀ e ∈ t.edgeOf src dest, s(a, b) = s(src, dest) → e.sendTime src ≤ (f e).sendTime src) :
    Advances src dest o t (t.modifyEdge i f) := by
  have hedge := edgeOf_modifyEdge hf hidx src dest
  by_cases hpair : s(a, b) = s(src, dest)
  · rw [if_pos hpair] at hedge
    refine ⟨rfl, ?_, ?_⟩
    · intro h e he
      rw [hedge] at he
      obtain ⟨e₀, he₀, rfl⟩ := Option.mem_map.mp he
      exact hoptions hpair e₀ (h e₀ he₀)
    · intro e he
      exact ⟨f e, hedge ▸ Option.mem_map_of_mem f he, htime e he hpair⟩
  · rw [if_neg hpair] at hedge
    exact .of_edgeOf rfl hedge

theorem Advances.newEdge (hall : t.allToAll = false) {options : EdgeOptions δ}
    (hfixed : s(a, b) = s(src, dest) → options = o) :
    Advances src dest o t (t.newEdge a b options) := by
  unfold Topology.newEdge
  rw [getEdge_eq hall]
  cases hidx : t.edges.findIdx? (·.isEdge a b) with
  | some i => exact .modifyEdge hidx (fun e => ⟨rfl, rfl⟩) (fun h e _ => hfixed h) fun e _ _ => le_rfl
  | none =>
      have hnone : s(a, b) = s(src, dest) → t.edgeOf src dest = none :=
        fun hpair => (edgeOf_congr hpair).trans (edgeOf_none hidx)
      have hedge : ({ t with edges := t.edges ++ [.new a b options] } : Topology δ).edgeOf src dest =
          if s(a, b) = s(src, dest) then some (.new a b options) else t.edgeOf src dest := by
        unfold edgeOf at hnone ⊢
        rw [List.find?_append, List.find?_singleton]
        split_ifs with hedge hpair hpair
        · rw [hnone hpair]
          rfl
        · exact absurd ((Edge.isEdge_iff _).mp hedge) hpair
        · exact absurd ((Edge.isEdge_iff _).mpr hpair) hedge
        · exact Option.or_none
      by_cases hpair : s(a, b) = s(src, dest)
      · rw [if_pos hpair] at hedge
        refine ⟨rfl, ?_, ?_⟩
        · intro _ e he
          rw [hedge] at he
          obtain rfl := Option.mem_some.mp he
          exact hfixed hpair
        · intro e he
          rw [hnone hpair] at he
          cases he
      · rw [if_neg hpair] at hedge
        exact .of_edgeOf rfl hedge

theorem Advances.changeEdge (hall : t.allToAll = false) (a b : Int) (state : Bool) :
    Advances src dest o t (t.changeEdge a b state).1 := by
  unfold Topology.changeEdge
  rw [getEdge_eq hall]
  cases hidx : t.edges.findIdx? (·.isEdge a b) with
  | none => exact .of_edgeOf rfl rfl
  | some i => exact .modifyEdge hidx (fun e => ⟨rfl, rfl⟩) (fun _ e h => h) fun e _ _ => le_rfl

end Topology

/-! ### The order of the packets from one node to another -/

/-- The packet that an event hands from `src` to `dest`. -/
def ScheduledEvent.packet (src dest : Int) (ev : ScheduledEvent (Callback κ)) :
    Option (List UInt8) :=
  match ev.callback with
  | .deliverPkt src' dest' pkt => if src' = src ∧ dest' = dest then some pkt else none
  | .other _ => none

/-- The packets that are sent from `src` to `dest`. -/
def Net.sentTo (n : Net δ ω) (src dest : Int) : List (List UInt8) :=
  n.sent.filterMap fun p => if p.1 = src ∧ p.2.1 = dest then some p.2.2 else none

/-- The packets that have been handed from `src` to `dest`. -/
def Simulator.handed (s : Simulator (Net δ ω) (Callback κ)) (src dest : Int) : List (List UInt8) :=
  s.ran.filterMap fun p => p.1.packet src dest

/-- The packets on their way from `src` to `dest`. -/
def Simulator.inFlight (s : Simulator (Net δ ω) (Callback κ)) (src dest : Int) :
    List (List UInt8) :=
  s.sortedEvents.events.filterMap (ScheduledEvent.packet src dest)

/-- The call gives the edge between `src` and `dest` no other options than `o`. -/
def NetCall.Fixes (src dest : Int) (o : EdgeOptions δ) : NetCall δ κ → Prop
  | .newEdge a b options => s(a, b) = s(src, dest) → options = o
  | _ => True

namespace Program

variable {src dest : Int} {o : EdgeOptions δ}

/-- The packets from `src` to `dest` arrive in the order in which they are sent: no packet on its way
is due after one that `src` has finished now. -/
structure InOrder (src dest : Int) (o : EdgeOptions δ) (s : Simulator (Net δ ω) (Callback κ)) :
    Prop where
  clock : 0 ≤ s.nowMicros
  allToAll : s.world.topology.allToAll = false
  options : ∀ e ∈ s.world.topology.edgeOf src dest, e.options = o
  due : ∀ ev ∈ s.sortedEvents.events, (ev.packet src dest).isSome →
    ∃ e ∈ s.world.topology.edgeOf src dest,
      ev.timeToOccur ≤ e.sendTime src + o.delayMs * 1000
  order : s.handed src dest ++ s.inFlight src dest = s.world.sentTo src dest

omit [Zero δ] in
theorem InOrder.due_of_advances {s : Simulator (Net δ ω) (Callback κ)} (h : InOrder src dest o s)
    {t : Topology δ} (hadv : Topology.Advances src dest o s.world.topology t) :
    ∀ ev ∈ s.sortedEvents.events, (ev.packet src dest).isSome →
      ∃ e ∈ t.edgeOf src dest, ev.timeToOccur ≤ e.sendTime src + o.delayMs * 1000 := by
  intro ev hev hpacket
  obtain ⟨e, he, hle⟩ := h.due ev hev hpacket
  obtain ⟨e', he', hle'⟩ := hadv.sendTime e he
  exact ⟨e', he', by omega⟩

omit [Zero δ] in
/-- The world may change if the edge advances and no packet is sent. -/
theorem InOrder.of_advances {s : Simulator (Net δ ω) (Callback κ)} (h : InOrder src dest o s)
    {n : Net δ ω} (hadv : Topology.Advances src dest o s.world.topology n.topology)
    (hsent : n.sentTo src dest = s.world.sentTo src dest) :
    InOrder src dest o { s with world := n } :=
  ⟨h.clock, hadv.allToAll.trans h.allToAll, hadv.options h.options, h.due_of_advances hadv,
    h.order.trans hsent.symm⟩

omit [Zero δ] in
/-- A request may be made if the packet that it delivers, if any, is the one that is sent and has just
been finished. -/
theorem InOrder.request {s : Simulator (Net δ ω) (Callback κ)} (h : InOrder src dest o s)
    {n : Net δ ω} (hadv : Topology.Advances src dest o s.world.topology n.topology)
    {r : Request (Callback κ)}
    (hsent : n.sentTo src dest = s.world.sentTo src dest ++
      ((r.event s.now).bind (ScheduledEvent.packet src dest)).toList)
    (htime : ∀ ev ∈ r.event s.now, (ev.packet src dest).isSome →
      ∃ e ∈ n.topology.edgeOf src dest, ev.timeToOccur = e.sendTime src + o.delayMs * 1000) :
    InOrder src dest o ({ s with world := n }.request r) := by
  have heq : { s with world := n }.request r = { s with
      world := n
      requests := s.requests ++ [(s.now, r)]
      sortedEvents := (r.event s.now).elim s.sortedEvents s.sortedEvents.addEvent } :=
    Simulator.request_eq _ r
  rw [heq]
  cases hevent : r.event s.now with
  | none =>
      have hsame := h.of_advances hadv (by simpa [hevent] using hsent)
      exact ⟨hsame.clock, hsame.allToAll, hsame.options, hsame.due, hsame.order⟩
  | some event =>
      rw [hevent] at hsent htime
      have hdue := h.due_of_advances hadv
      refine ⟨h.clock, hadv.allToAll.trans h.allToAll, hadv.options h.options, ?_, ?_⟩
      · intro ev hev hpacket
        obtain rfl | hev := List.mem_cons.mp ((s.sortedEvents.addEvent_perm event).mem_iff.mp hev)
        · obtain ⟨e, he, htime⟩ := htime ev rfl hpacket
          exact ⟨e, he, htime.le⟩
        · exact hdue ev hev hpacket
      · -- the packets on their way are due no later than the new one
        have hlast : (event.packet src dest).isSome → ∀ ev ∈ s.sortedEvents.events,
            (ev.packet src dest).isSome → ev.timeToOccur ≤ event.timeToOccur := by
          intro hnew ev hev hpacket
          obtain ⟨e, he, htime⟩ := htime event rfl hnew
          obtain ⟨e', he', hle⟩ := hdue ev hev hpacket
          obtain rfl := Option.mem_unique he he'
          exact htime ▸ hle
        have hqueue := OrderedEventQueue.filterMap_addEvent hlast
        calc s.handed src dest ++ (s.sortedEvents.addEvent event).events.filterMap
              (ScheduledEvent.packet src dest)
            = s.handed src dest ++ s.inFlight src dest ++ (event.packet src dest).toList := by
              rw [hqueue, List.append_assoc]
              rfl
          _ = n.sentTo src dest := by
              rw [h.order, hsent]
              rfl

omit [Zero δ] in
/-- A packet between any two nodes is sent and queued; if they are `src` and `dest`, it has just been
finished. -/
theorem InOrder.arrives {s : Simulator (Net δ ω) (Callback κ)} (h : InOrder src dest o s)
    {t : Topology δ} (hadv : Topology.Advances src dest o s.world.topology t) {src' dest' : Int}
    {pkt : List UInt8} {arrival : Int}
    (htime : src' = src ∧ dest' = dest → 0 ≤ arrival ∧
      ∃ e ∈ t.edgeOf src dest, arrival = e.sendTime src + o.delayMs * 1000) :
    InOrder src dest o
      ({ s with world := { s.world with
          topology := t, sent := s.world.sent ++ [(src', dest', pkt)] } }.request
        (.addEventAtMicros arrival (some (.deliverPkt src' dest' pkt)))) := by
  have hpacket : ∀ time, ScheduledEvent.packet (κ := κ) src dest
      ⟨time, .deliverPkt src' dest' pkt⟩ = if src' = src ∧ dest' = dest then some pkt else none :=
    fun _ => rfl
  apply h.request hadv
  · by_cases heq : src' = src ∧ dest' = dest
    · have hnonneg := not_lt.mpr (htime heq).1
      obtain ⟨rfl, rfl⟩ := heq
      simp [Net.sentTo, Request.event, hnonneg, hpacket]
    · simp only [Net.sentTo, Request.event, List.filterMap_append, List.filterMap_cons, heq,
        if_false, List.filterMap_nil, List.append_nil]
      split_ifs <;> simp [hpacket, heq]
  · intro ev hev hsome
    simp only [Request.event, Option.map_some] at hev
    split_ifs at hev
    · cases hev
    · obtain rfl := Option.mem_some.mp hev
      rw [hpacket] at hsome
      by_cases heq : src' = src ∧ dest' = dest
      · exact (htime heq).2
      · simp [heq] at hsome

/-- What a call does to the world and the queue keeps the order. -/
def Keeps (src dest : Int) (o : EdgeOptions δ) (nowMicros : Int) (n n' : Net δ ω)
    (requests : List (Request (Callback κ))) : Prop :=
  ∀ s : Simulator (Net δ ω) (Callback κ), s.world = n → s.nowMicros = nowMicros →
    InOrder src dest o s → InOrder src dest o (requests.foldl Simulator.request { s with world := n' })

omit [Zero δ] in
theorem foldl_request {ω' : Type} (requests : List (Request (Callback κ)))
    (s : Simulator ω' (Callback κ)) (w : ω') :
    requests.foldl Simulator.request { s with world := w } =
        { requests.foldl Simulator.request s with world := w } ∧
      (requests.foldl Simulator.request s).nowMicros = s.nowMicros ∧
      (requests.foldl Simulator.request s).world = s.world := by
  induction requests generalizing s with
  | nil => exact ⟨rfl, rfl, rfl⟩
  | cons r requests ih =>
      obtain ⟨h1, hnow, hworld⟩ := ih (s.request r)
      have hnow' : (s.request r).nowMicros = s.nowMicros := by rw [Simulator.request_eq]
      have hworld' : (s.request r).world = s.world := by rw [Simulator.request_eq]
      refine ⟨?_, hnow.trans hnow', hworld.trans hworld'⟩
      rw [List.foldl_cons, List.foldl_cons, ← h1, Simulator.request_eq, Simulator.request_eq]
      rfl

omit [Zero δ] in
theorem Keeps.trans {nowMicros : Int} {n₁ n₂ n₃ : Net δ ω} {rs rs' : List (Request (Callback κ))}
    (h : Keeps src dest o nowMicros n₁ n₂ rs) (h' : Keeps src dest o nowMicros n₂ n₃ rs') :
    Keeps src dest o nowMicros n₁ n₃ (rs ++ rs') := by
  intro s hworld hnow hin
  obtain ⟨-, hnow', hworld'⟩ := foldl_request rs { s with world := n₂ } n₂
  have hlast := h' _ hworld' (hnow'.trans hnow) (h s hworld hnow hin)
  rw [← (foldl_request rs { s with world := n₂ } n₃).1] at hlast
  rw [List.foldl_append]
  exact hlast

omit [Zero δ] in
theorem Keeps.of_advances {nowMicros : Int} {n n' : Net δ ω}
    (hadv : n.topology.allToAll = false → Topology.Advances src dest o n.topology n'.topology)
    (hsent : n'.sentTo src dest = n.sentTo src dest) :
    Keeps (κ := κ) src dest o nowMicros n n' [] := by
  intro s hworld _ hin
  subst hworld
  exact hin.of_advances (hadv hin.allToAll) hsent

omit [Zero δ] in
/-- The requests of the rest of the program deliver no packets. -/
theorem Keeps.request (nowMicros : Int) (n : Net δ ω) (r : Request κ) :
    Keeps src dest o nowMicros n n [r.map .other] := by
  intro s hworld _ hin
  subst hworld
  have hnone : ∀ ev ∈ (r.map .other).event s.now, ev.packet src dest = none := by
    intro ev hev
    cases r <;> simp only [Request.map, Request.event, Option.map_map] at hev
    · obtain ⟨cb, -, rfl⟩ := Option.mem_map.mp hev
      rfl
    · obtain ⟨cb, -, rfl⟩ := Option.mem_map.mp hev
      rfl
    · split_ifs at hev
      · cases hev
      · obtain ⟨cb, -, rfl⟩ := Option.mem_map.mp hev
        rfl
  apply hin.request (.of_edgeOf rfl rfl)
  · rw [Option.bind_eq_none_iff.mpr hnone]
    simp
  · intro ev hev hpacket
    simp [hnone ev hev] at hpacket

theorem advances_setSendTime {t : Topology δ} {src' dest' : Int} {i : EdgeId}
    (hidx : t.edges.findIdx? (·.isEdge src' dest') = some i)
    (hsrc' : src' = (t.edge i).a ∨ src' = (t.edge i).b) {time : Int}
    (htime : s(src', dest') = s(src, dest) → (t.edge i).sendTime src' ≤ time) :
    Topology.Advances src dest o t (t.modifyEdge i fun e => e.setSendTime src' time) := by
  apply Topology.Advances.modifyEdge hidx
  · exact fun e => ⟨by simp, by simp⟩
  · intro _ e he
    simpa using he
  · intro e he hpair
    rw [Topology.edgeOf_congr hpair, Topology.edgeOf_some hidx] at he
    obtain rfl := Option.mem_some.mp he
    by_cases heq : src' = src
    · subst heq
      simpa using htime hpair
    · have hedge : s((t.edge i).a, (t.edge i).b) = s(src', dest') := by
        obtain ⟨hlt, hedge, -⟩ := List.findIdx?_eq_some_iff_getElem.mp hidx
        rw [Edge.isEdge_iff] at hedge
        simpa [Topology.edge, hlt] using hedge
      have hsrc : src = (t.edge i).a ∨ src = (t.edge i).b := by
        have hmem : src ∈ s((t.edge i).a, (t.edge i).b) := by
          rw [hedge, hpair]
          exact Sym2.mem_mk_left src dest
        exact Sym2.mem_iff.mp hmem
      rw [Edge.sendTime_setSendTime_of_ne hsrc hsrc' heq]

theorem transmit_keeps (hbw : 0 < o.bwBytesPerSec) (hdelay : 0 ≤ o.delayMs)
    {nowMicros src' dest' : Int} {pkt : List UInt8} {draw : Bool} {n n' : Net δ ω}
    {requests : List (Request (Callback κ))} {res : Except String Bool}
    (h : n.transmit nowMicros src' dest' pkt draw = (n', requests, res)) :
    Keeps src dest o nowMicros n n' requests := by
  intro s hworld hnow hin
  subst hworld
  unfold Net.transmit at h
  obtain hnone | ⟨i, hidx, hsome⟩ := Topology.getLiveEdge_cases hin.allToAll src' dest'
  · rw [hnone] at h
    simp only [Prod.mk.injEq] at h
    obtain ⟨rfl, rfl, -⟩ := h
    exact hin.of_advances (.of_edgeOf rfl rfl) rfl
  · rw [hsome] at h
    simp only at h
    cases hsched : (s.world.topology.edge i).schedulePkt src' pkt.length nowMicros draw with
    | error err =>
        simp only [hsched, Prod.mk.injEq] at h
        obtain ⟨rfl, rfl, -⟩ := h
        exact hin.of_advances (.of_edgeOf rfl rfl) rfl
    | ok r =>
        obtain ⟨hsrc', time, htime, hr⟩ := Edge.schedulePkt_ok hsched
        -- if it is the edge of the two nodes, it has the fixed options
        have hspec : s(src', dest') = s(src, dest) →
            (s.world.topology.edge i).sendTime src' ≤ time ∧
              ∀ arrival, r.1 = .arrives arrival →
                arrival = time + o.delayMs * 1000 ∧ nowMicros ≤ time := by
          intro hpair
          have ho : (s.world.topology.edge i).options = o := by
            apply hin.options
            rw [Topology.edgeOf_congr hpair]
            exact Topology.edgeOf_some hidx
          rw [ho] at htime
          exact EdgeOptions.schedulePkt_spec hbw _ _ _ _ htime
        have hmodify : s.world.topology.modifyEdge i (fun _ => r.2) =
            s.world.topology.modifyEdge i fun e => e.setSendTime src' time := by
          rw [hr, s.world.topology.modifyEdge_edge i fun e => e.setSendTime src' time]
        have hadv : Topology.Advances src dest o s.world.topology
            (s.world.topology.modifyEdge i fun e => e.setSendTime src' time) :=
          advances_setSendTime hidx hsrc' fun hpair => (hspec hpair).1
        simp only [hsched, hmodify] at h
        split_ifs at h with hvalue <;> simp only [Prod.mk.injEq] at h <;> obtain ⟨rfl, rfl, -⟩ := h
        · exact hin.of_advances hadv rfl
        · obtain ⟨arrival, harrival⟩ : ∃ arrival, r.1 = .arrives arrival := by
            cases houtcome : r.1 with
            | dropped => simp [houtcome, PktOutcome.value] at hvalue
            | lost => simp [houtcome, PktOutcome.value] at hvalue
            | arrives arrival => exact ⟨arrival, rfl⟩
          have hval : r.1.value = arrival := by
            rw [harrival]
            rfl
          rw [hval]
          apply hin.arrives hadv
          rintro ⟨rfl, rfl⟩
          obtain ⟨harr, hle⟩ := (hspec rfl).2 arrival harrival
          have hclock := hin.clock
          refine ⟨by omega, (s.world.topology.edge i).setSendTime src' time, ?_, ?_⟩
          · rw [Topology.edgeOf_modifyEdge (fun e => ⟨by simp, by simp⟩) hidx, if_pos rfl,
              Topology.edgeOf_some hidx]
            rfl
          · rw [Edge.sendTime_setSendTime]
            exact harr

theorem broadcast_keeps (hbw : 0 < o.bwBytesPerSec) (hdelay : 0 ≤ o.delayMs)
    {nowMicros src' : Int} {pkt : List UInt8} {draw : Int → Bool} {is : List Int} {n n' : Net δ ω}
    {requests : List (Request (Callback κ))} {res : Except String Bool}
    (h : n.broadcast nowMicros src' pkt draw is = (n', requests, res)) :
    Keeps src dest o nowMicros n n' requests := by
  induction is generalizing n requests res with
  | nil =>
      simp only [Net.broadcast, Prod.mk.injEq] at h
      obtain ⟨rfl, rfl, -⟩ := h
      exact .of_advances (fun _ => .of_edgeOf rfl rfl) rfl
  | cons i is ih =>
      unfold Net.broadcast at h
      split at h
      · next htransmit =>
          simp only [Prod.mk.injEq] at h
          obtain ⟨rfl, rfl, -⟩ := h
          exact transmit_keeps hbw hdelay htransmit
      · next htransmit =>
          simp only [Prod.mk.injEq] at h
          obtain ⟨rfl, rfl, -⟩ := h
          exact (transmit_keeps hbw hdelay htransmit).trans (ih rfl)

theorem sendPkt_keeps (hbw : 0 < o.bwBytesPerSec) (hdelay : 0 ≤ o.delayMs) {numNodes : ℕ}
    {nowMicros src' dest' : Int} {pkt : List UInt8} {draw : Int → Bool} {n n' : Net δ ω}
    {requests : List (Request (Callback κ))} {res : Except String Bool}
    (h : n.sendPkt numNodes nowMicros src' dest' pkt draw = (n', requests, res)) :
    Keeps src dest o nowMicros n n' requests := by
  unfold Net.sendPkt at h
  split at h
  · simp only [Prod.mk.injEq] at h
    obtain ⟨rfl, rfl, -⟩ := h
    exact .of_advances (fun _ => .of_edgeOf rfl rfl) rfl
  · split_ifs at h
    · exact broadcast_keeps hbw hdelay h
    · exact transmit_keeps hbw hdelay h

theorem perform_keeps (hbw : 0 < o.bwBytesPerSec) (hdelay : 0 ≤ o.delayMs) (numNodes : ℕ)
    (nowMicros : Int) (n : Net δ ω) {c : NetCall δ κ} (hfixed : c.Fixes src dest o) :
    Keeps src dest o nowMicros n (n.perform numNodes nowMicros c).1
      (n.perform numNodes nowMicros c).2 := by
  cases c with
  | request r => exact .request nowMicros n r
  | sendPkt src' dest' pkt draw => exact sendPkt_keeps hbw hdelay rfl
  | newEdge a b options => exact .of_advances (fun hall => .newEdge hall hfixed) rfl
  | failEdge a b => exact .of_advances (fun hall => .changeEdge hall a b false) rfl
  | restartEdge a b => exact .of_advances (fun hall => .changeEdge hall a b true) rfl
  | failNode a => exact .of_advances (fun _ => .of_edgeOf rfl rfl) rfl
  | restartNode a => exact .of_advances (fun _ => .of_edgeOf rfl rfl) rfl

theorem performAll_keeps (hbw : 0 < o.bwBytesPerSec) (hdelay : 0 ≤ o.delayMs) (numNodes : ℕ)
    (nowMicros : Int) (n : Net δ ω) {calls : List (NetCall δ κ)}
    (hfixed : ∀ c ∈ calls, c.Fixes src dest o) :
    Keeps src dest o nowMicros n (n.performAll numNodes nowMicros calls).1
      (n.performAll numNodes nowMicros calls).2 := by
  induction calls generalizing n with
  | nil => exact .of_advances (fun _ => .of_edgeOf rfl rfl) rfl
  | cons c calls ih =>
      obtain ⟨hc, hcalls⟩ := List.forall_mem_cons.mp hfixed
      exact (perform_keeps hbw hdelay numNodes nowMicros n hc).trans (ih _ hcalls)

theorem InOrder.respond (hbw : 0 < o.bwBytesPerSec) (hdelay : 0 ≤ o.delayMs)
    {s : Simulator (Net δ ω) (Callback κ)} (h : InOrder src dest o s) (numNodes : ℕ)
    {r : NetReaction δ ω κ} (hfixed : ∀ c ∈ r.calls, c.Fixes src dest o) :
    InOrder src dest o (s.respond (s.world.react numNodes s.nowMicros r)) := by
  have hrest : InOrder src dest o { s with world := { s.world with rest := r.rest } } :=
    h.of_advances (.of_edgeOf rfl rfl) rfl
  exact performAll_keeps hbw hdelay numNodes s.nowMicros _ hfixed
    { s with world := { s.world with rest := r.rest } } rfl rfl hrest

/-- The program gives the edge between `src` and `dest` no other options than `o`. -/
structure Fixes (P : Program δ ω κ) (src dest : Int) (o : EdgeOptions δ) : Prop where
  parseLine : ∀ n line nowMicros clock, ∀ c ∈ (P.parseLine n line nowMicros clock).2.calls,
    c.Fixes src dest o
  callback : ∀ n cb nowMicros, ∀ c ∈ (P.callback n cb nowMicros).calls, c.Fixes src dest o

variable {P : Program δ ω κ}

theorem InOrder.step (hbw : 0 < o.bwBytesPerSec) (hdelay : 0 ≤ o.delayMs)
    (hfixed : P.Fixes src dest o) (hscaled : ∀ d, 0 ≤ d → 0 ≤ P.scaled d)
    {s : Simulator (Net δ ω) (Callback κ)} (h : InOrder src dest o s) {input : Option Str × Int}
    (helapsed : 0 ≤ input.2) : InOrder src dest o (s.step P.behaviour input) := by
  apply Simulator.step_rule (B := P.behaviour) hscaled _ _ _ h helapsed
  · intro s nowMicros commandFile deferParsingTill draining running h hle
    exact ⟨h.clock.trans hle, h.allToAll, h.options, h.due, h.order⟩
  · intro s line nowMicros h
    exact h.respond hbw hdelay P.numNodes (hfixed.parseLine s.world line nowMicros s.nowMicros)
  · intro s ev sortedEvents h hnext
    obtain ⟨hevents, -⟩ := OrderedEventQueue.removeNextEvent_spec hnext
    have hran : InOrder src dest o
        { s with sortedEvents, ran := s.ran ++ [(ev, s.nowMicros)] } := by
      refine ⟨h.clock, h.allToAll, h.options, ?_, ?_⟩
      · intro ev' hev'
        apply h.due
        rw [hevents]
        exact List.mem_cons_of_mem ev hev'
      · have horder := h.order
        unfold Simulator.handed Simulator.inFlight at horder ⊢
        rw [hevents, List.filterMap_cons] at horder
        rw [← horder, List.filterMap_append, List.append_assoc]
        cases hpacket : ev.packet src dest <;> simp [hpacket]
    exact hran.respond hbw hdelay P.numNodes (hfixed.callback s.world ev.callback s.nowMicros)

theorem InOrder.start (hbw : 0 < o.bwBytesPerSec) (hdelay : 0 ≤ o.delayMs) (rest : ω)
    (commandFile : Option (List Str)) {topology nodes : NetReaction δ ω κ}
    (htopology : ∀ c ∈ topology.calls, c.Fixes src dest o)
    (hnodes : ∀ c ∈ nodes.calls, c.Fixes src dest o) :
    InOrder src dest o (P.start rest commandFile topology nodes) := by
  have hnew : InOrder src dest o
      (.new ⟨.new false, [], rest⟩ commandFile : Simulator (Net δ ω) (Callback κ)) :=
    ⟨le_rfl, rfl, fun e he => (by cases he), fun ev hev => absurd hev List.not_mem_nil, rfl⟩
  have hread := hnew.respond hbw hdelay P.numNodes htopology
  have hstarted := hread.respond hbw hdelay P.numNodes hnodes
  exact ⟨Int.zero_le_ofNat 1, hstarted.allToAll, hstarted.options, hstarted.due, hstarted.order⟩

theorem InOrder.run (hbw : 0 < o.bwBytesPerSec) (hdelay : 0 ≤ o.delayMs)
    (hfixed : P.Fixes src dest o) (hscaled : ∀ d, 0 ≤ d → 0 ≤ P.scaled d)
    {s : Simulator (Net δ ω) (Callback κ)} (h : InOrder src dest o s)
    {inputs : List (Option Str × Int)} (hclock : ∀ input ∈ inputs, 0 ≤ input.2) :
    InOrder src dest o (run (Simulator.step P.behaviour) s inputs) := by
  induction inputs generalizing s with
  | nil => exact h
  | cons input inputs ih =>
      obtain ⟨hinput, hinputs⟩ := List.forall_mem_cons.mp hclock
      exact ih (h.step hbw hdelay hfixed hscaled hinput) hinputs

end Program

/-- **Links are FIFO, paced and bounded.**  The packets from one endpoint of an edge, and those over an
emulated link, are sent one after the other, refused if the buffer is full, and arrive after the
delay; the packets from the other endpoint make no difference; and in the simulator the packets from
one node to another are handed over in the order in which they were sent. -/
theorem links_fifo_paced_bounded {o : EdgeOptions δ} (hbw : 0 < o.bwBytesPerSec)
    (hdelay : 0 ≤ o.delayMs) :
    (∀ (e : Edge δ) (src : Int) (calls : List Edge.Call), e.options = o → src = e.a ∨ src = e.b →
      Paced (Edge.sendTime src) o (e.transmissions src calls) ∧
      e.results src (calls.filter (Edge.Call.concerns src)) = e.results src calls) ∧
    (∀ (l : EmulatedLink δ) (calls : List (ℕ × Int × Bool)), l.options = o →
      Paced EmulatedLink.nextSendTime o (l.transmissions calls)) ∧
    (∀ (P : Program δ ω κ) (src dest : Int) (rest : ω) (commandFile : Option (List Str))
      (topology nodes : NetReaction δ ω κ) (inputs : List (Option Str × Int)),
      P.Fixes src dest o → (∀ c ∈ topology.calls, c.Fixes src dest o) →
      (∀ c ∈ nodes.calls, c.Fixes src dest o) → (∀ d, 0 ≤ d → 0 ≤ P.scaled d) →
      (∀ input ∈ inputs, 0 ≤ input.2) →
      let s := run (Simulator.step P.behaviour) (P.start rest commandFile topology nodes) inputs
      s.handed src dest ++ s.inFlight src dest = s.world.sentTo src dest) := by
  refine ⟨?_, ?_, ?_⟩
  · intro e src calls ho hsrc
    obtain ⟨hscheduled, hcons⟩ := Edge.transmissions_consecutive hsrc ho calls
    exact ⟨paced_of_consecutive hbw hdelay hscheduled hcons, Edge.results_eq hsrc calls⟩
  · intro l calls ho
    obtain ⟨hscheduled, hcons⟩ := EmulatedLink.transmissions_consecutive ho calls
    exact paced_of_consecutive hbw hdelay hscheduled hcons
  · intro P src dest rest commandFile topology nodes inputs hfixed htopology hnodes hscaled hclock
    have hstart : Program.InOrder src dest o (P.start rest commandFile topology nodes) :=
      .start hbw hdelay rest commandFile htopology hnodes
    exact (hstart.run hbw hdelay hfixed hscaled hclock).order

/-- A packet of ten bytes from node 1 to node 2. -/
def pktFrom1To2 (byte : UInt8) : List UInt8 := [2, 1, 5, 4, 10, 0, 0, 0, 0, byte]

/-- A program that does nothing with the packets. -/
def quiet : Program ℕ Unit Unit where
  numNodes := 3
  parseLine _ _ _ _ := (-1, ⟨(), [], .returned⟩)
  callback _ _ _ := ⟨(), [], .returned⟩
  scaled d := d

/-- Node 1 sends two packets at once, and node 2 gets the first of them first. -/
theorem links_fifo_paced_bounded_two_packets :
    let o : EdgeOptions ℕ := .new
    let edge : NetReaction ℕ Unit Unit := ⟨(), [.newEdge 1 2 o], .returned⟩
    let sends : NetReaction ℕ Unit Unit :=
      ⟨(), [.sendPkt 1 2 (pktFrom1To2 7) fun _ => false, .sendPkt 1 2 (pktFrom1To2 8) fun _ => false],
        .returned⟩
    let s := run (Simulator.step quiet.behaviour) (quiet.start () none edge sends)
      [(none, 0), (none, 0)]
    s.handed 1 2 = [pktFrom1To2 7] ∧ s.inFlight 1 2 = [pktFrom1To2 8] ∧
      s.handed 1 2 ++ s.inFlight 1 2 = s.world.sentTo 1 2 ∧
      Paced (Edge.sendTime 1) o ((Edge.new 1 2 o).transmissions 1
        [.schedulePkt 1 10 0 false, .schedulePkt 2 10 0 false, .schedulePkt 1 10 500 true]) ∧
      Paced EmulatedLink.nextSendTime o ((EmulatedLink.new o).transmissions [(10, 0, false)]) := by
  intro o edge sends s
  obtain ⟨hedge, hlink, hfifo⟩ := links_fifo_paced_bounded (ω := Unit) (κ := Unit) (o := o)
    (by decide) (by decide)
  refine ⟨by decide, by decide, ?_, (hedge (.new 1 2 o) 1 _ rfl (.inl rfl)).1, hlink _ _ rfl⟩
  apply hfifo quiet 1 2 () none edge sends
  · exact ⟨fun _ _ _ _ c hc => absurd hc List.not_mem_nil, fun _ _ _ c hc => absurd hc List.not_mem_nil⟩
  · intro c hc
    obtain rfl := List.mem_singleton.mp hc
    exact fun _ => rfl
  · intro c hc
    obtain rfl | rfl := List.mem_pair.mp hc
    · trivial
    · trivial
  · exact fun d hd => hd
  · decide

end NetBridge
