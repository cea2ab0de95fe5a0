import NetBridge.TrawlerRun
import NetBridge.Emulator

/-! # The trawler and its nodes

A trawler and the emulators that have registered with it.  What the trawler writes to a node arrives
at its emulator in order, but in pieces of any size and at any time, and meanwhile packets come to
the emulator from anywhere.  Nodes come and go, and an address that has become free is given to the
next client, with a new connection and a new emulator behind it.

An emulator is what its events have made of a new one (`log`), so all that has to be known of a node
is how far it has read (`Linked`).  Once it has read everything that was written to it, it knows its
neighbours as the topology has them: see `nodes_follow_topology`. -/

namespace NetBridge

variable {δ : Type}

/-- What the trawler has sent to a node. -/
def EmulatedNode.stream (F : Floats δ) (n : EmulatedNode δ) : Str :=
  n.written.flatMap fun c => c.encode F ++ ['\n']

/-! ### What an emulator reads -/

namespace Emulator

/-- What an event takes off the connection to the trawler.  A call of `sendPkt` that is refused does
not come to read. -/
def Event.taken : Event → Str
  | .refreshARP received => received
  | .processUdpPacket .. => []
  | .sendPkt src dest pkt received _ _ =>
      match RuntimeManager.sendPkt src dest pkt with
      | .ok () => received
      | .error _ => []

/-- What a run takes off the connection. -/
def takenBy (evs : List Event) : Str := evs.flatMap Event.taken

theorem takenBy_cons (ev : Event) (evs : List Event) :
    takenBy (ev :: evs) = ev.taken ++ takenBy evs := List.flatMap_cons

theorem takenBy_append (evs evs' : List Event) :
    takenBy (evs ++ evs') = takenBy evs ++ takenBy evs' := List.flatMap_append

end Emulator

/-- The command that a notice is, if it is one. -/
def Notice.command? : Notice δ → Option (ArpCommand δ)
  | .command c => some c
  | .packet .. => none

namespace Emulator

section reading
variable {F : Floats δ}

theorem schedulePkt_trawlerBuf (pkt : List UInt8) (draw : Int → Int × Bool) (e : Emulator δ)
    (destAddr : Int) : (schedulePkt pkt draw e destAddr).trawlerBuf = e.trawlerBuf := by
  rcases schedulePkt_cases pkt draw e destAddr with
    h | ⟨data, -, ⟨-, h⟩ | ⟨link, link', sent, -, -, -, h⟩⟩ <;> rw [h]

theorem sendPkt_trawlerBuf {e : Emulator δ} {src dest : Int} {pkt : List UInt8}
    (h : RuntimeManager.sendPkt src dest pkt = .ok ()) (received : Str) (order : List Int)
    (draw : Int → Int × Bool) :
    (e.sendPkt F src dest pkt received order draw).1.trawlerBuf =
      (e.refreshARP F received).trawlerBuf := by
  have hall : ∀ (payload : List UInt8) (order : List Int) (e : Emulator δ),
      (order.foldl (schedulePkt payload draw) e).trawlerBuf = e.trawlerBuf := by
    intro payload order
    induction order with
    | nil => exact fun _ => rfl
    | cons destAddr order ih => exact fun e => (ih _).trans (schedulePkt_trawlerBuf ..)
  unfold sendPkt
  simp only [h]
  cases EmulatorPacket.make dest src pkt with
  | error err => rfl
  | ok epkt =>
      simp only
      split_ifs
      · rfl
      · exact hall _ _ _
      · exact schedulePkt_trawlerBuf ..
      · rfl

/-- An event reads what it takes, and nothing else changes what is left over. -/
theorem step_reads {e : Emulator δ} (he : '\n' ∉ e.trawlerBuf) (ev : Event) :
    (e.step F ev).trawlerBuf = rest '\n' (e.trawlerBuf ++ ev.taken) ∧
      (e.notices F ev).filterMap Notice.command? = e.commands F ev.taken := by
  have hnone : e.commands F [] = [] := by
    rw [commands, List.append_nil, lines_of_not_mem he]
    rfl
  have hcommands : ∀ cs : List (ArpCommand δ),
      (cs.map Notice.command).filterMap Notice.command? = cs := by
    intro cs
    rw [List.filterMap_map]
    exact List.filterMap_some
  cases ev with
  | refreshARP received =>
      simp only [step, notices, refreshARP_eq, Event.taken, hcommands, and_self]
  | processUdpPacket data ip port =>
      simp only [step, notices, Event.taken, List.append_nil, rest_of_not_mem he, hnone]
      unfold processUdpPacket
      cases EmulatorPacket.unpack data with
      | none => exact ⟨rfl, rfl⟩
      | some packet =>
          refine ⟨?_, rfl⟩
          simp only
          split_ifs <;> rfl
  | sendPkt src dest pkt received order draw =>
      simp only [step, notices, Event.taken]
      cases h : RuntimeManager.sendPkt src dest pkt with
      | error err =>
          unfold sendPkt
          simp only [h, List.append_nil, rest_of_not_mem he, hnone, List.filterMap_nil, and_self]
      | ok _ =>
          rw [sendPkt_trawlerBuf h, refreshARP_eq]
          exact ⟨rfl, hcommands _⟩

theorem not_mem_trawlerBuf (x : Int) (evs : List Event) :
    '\n' ∉ (run (step F) (new x : Emulator δ) evs).trawlerBuf := by
  refine run_induction (I := fun e : Emulator δ => '\n' ∉ e.trawlerBuf) ?_ List.not_mem_nil evs
  intro e ev he
  rw [(step_reads he ev).1]
  exact not_mem_rest _

theorem sendPkt_follows {e : Emulator δ} (he : '\n' ∉ e.trawlerBuf) (src dest : Int)
    (pkt : List UInt8) (order : List Int) (draw : Int → Int × Bool) :
    ∃ sent, (e.step F (.sendPkt src dest pkt [] order draw)).dispatched = e.dispatched ++ sent ∧
      ∀ d ∈ sent, ∃ k, e.neighbour d.destAddr = some k ∧ d.Follows k := by
  obtain ⟨sent, hsent, hall⟩ := sendPkt_dispatched (F := F) e src dest pkt [] order draw
  refine ⟨sent, hsent, fun d hd => ?_⟩
  obtain ⟨k, hk, hfollows⟩ := hall d hd
  refine ⟨k, ?_, hfollows⟩
  have hnone : e.commands F [] = [] := by
    rw [commands, List.append_nil, lines_of_not_mem he]
    rfl
  have hnotices : e.notices F (.sendPkt src dest pkt [] order draw) = [] := by
    simp only [notices]
    cases RuntimeManager.sendPkt src dest pkt with
    | error err => rfl
    | ok _ => simp only [hnone, List.map_nil]
  rw [neighbour_step, hnotices] at hk
  exact hk

/-- The commands of a run are those of the lines that it has taken. -/
theorem history_commands {e : Emulator δ} (he : '\n' ∉ e.trawlerBuf) (evs : List Event) :
    (e.history F evs).filterMap Notice.command? = e.commands F (takenBy evs) := by
  induction evs generalizing e with
  | nil =>
      rw [commands, takenBy, List.flatMap_nil, List.append_nil, lines_of_not_mem he]
      rfl
  | cons ev evs ih =>
      obtain ⟨hbuf, hnotices⟩ := step_reads (F := F) he ev
      have hnext : '\n' ∉ (e.step F ev).trawlerBuf := by
        rw [hbuf]
        exact not_mem_rest _
      rw [history, List.filterMap_append, hnotices, ih hnext, takenBy_cons]
      unfold commands
      rw [hbuf, ← List.append_assoc, (lines_append (e.trawlerBuf ++ ev.taken) _).1,
        List.filterMap_append]

theorem history_of_drained (hstod : ∀ d, F.stod (F.javaDouble d) = some d) {x : Int}
    {n : EmulatedNode δ} (hn : ∀ c ∈ n.written, c.WellFormed) {evs : List Event}
    (hdrained : takenBy evs = n.stream F) :
    (((new x : Emulator δ).history F evs).filterMap Notice.command?) = n.written := by
  have hlines : ∀ line ∈ n.written.map fun c => c.encode F, '\n' ∉ line := by
    intro line hline
    obtain ⟨c, hc, rfl⟩ := List.mem_map.mp hline
    exact c.not_mem_encode (hn c hc) (by decide)
  have hstream : n.stream F = (n.written.map fun c => c.encode F).flatMap (· ++ ['\n']) := by
    rw [EmulatedNode.stream, List.flatMap_map]
  have hread := (lines_flatMap hlines).1
  rw [history_commands (e := new x) List.not_mem_nil, hdrained, hstream, commands]
  show (lines '\n' ([] ++ _)).filterMap (arpCommand F) = _
  rw [List.nil_append, hread]
  exact ArpCommand.filterMap_arpCommand hstod hn

end reading

end Emulator

/-! ### What packets add -/

namespace Notice

/-- The endpoints from which packets of `y` have come, after a notice; a command about `y` makes what
has been heard before of no account. -/
def hear (y : Int) (heard : List (Str × Int)) (x : Notice δ) : List (Str × Int) :=
  match x with
  | .command _ => if x.About y then [] else heard
  | .packet src ipAddress udpPort => if src = y then heard ++ [(ipAddress, udpPort)] else heard

/-- The endpoints from which packets of `y` have come since the last command about it. -/
def heard (y : Int) (told : List (Notice δ)) : List (Str × Int) := told.foldl (hear y) []

/-- What is known of `y` after a packet from it. -/
def learn (y : Int) (old : Option (Neighbour δ)) (endpoint : Str × Int) : Option (Neighbour δ) :=
  Notice.after y old (.packet y endpoint.1 endpoint.2)

theorem after_command {y : Int} {c : ArpCommand δ} (h : (Notice.command c).About y)
    (old old' : Option (Neighbour δ)) :
    Notice.after y old (.command c) = Notice.after y old' (.command c) := by
  cases c with
  | add nodeId ipAddress port options =>
      obtain rfl : nodeId = y := h
      simp only [Notice.after, if_true]
  | remove nodeId =>
      obtain rfl : nodeId = y := h
      simp only [Notice.after, if_true]
  | reset => rfl

/-- What is known of a node: what the commands say, and what has been heard since. -/
theorem foldl_after_eq (y : Int) (told : List (Notice δ)) :
    told.foldl (Notice.after y) none = (heard y told).foldl (learn y)
      (((told.filterMap Notice.command?).map Notice.command).foldl (Notice.after y) none) := by
  induction told using List.reverseRecOn with
  | nil => rfl
  | append_singleton told x ih =>
      rw [heard, List.foldl_append, List.foldl_append, List.filterMap_append, List.map_append,
        List.foldl_append]
      cases x with
      | command c =>
          simp only [List.foldl_cons, List.foldl_nil, List.filterMap_cons, List.filterMap_nil,
            command?, List.map_cons, List.map_nil, hear]
          split_ifs with habout
          · exact after_command habout _ _
          · rw [after_of_not_about habout, after_of_not_about habout, ih]
            rfl
      | packet src ipAddress udpPort =>
          simp only [List.foldl_cons, List.foldl_nil, List.filterMap_cons, List.filterMap_nil,
            command?, List.map_nil, hear]
          split_ifs with hsrc
          · subst hsrc
            rw [List.foldl_append, ih]
            rfl
          · rw [after_of_not_about (x := .packet src ipAddress udpPort) hsrc, ih]
            rfl

/-- Packets from the endpoint that is known change nothing; if none is known, the first one makes an
entry without a link. -/
theorem foldl_learn {y : Int} {ipAddress : Str} {udpPort : Int} {endpoints : List (Str × Int)}
    (h : ∀ p ∈ endpoints, p = (ipAddress, udpPort)) :
    (∀ options, endpoints.foldl (learn y) (some ⟨ipAddress, udpPort, options⟩ : Option (Neighbour δ)) =
        some ⟨ipAddress, udpPort, options⟩) ∧
      endpoints.foldl (learn y) (none : Option (Neighbour δ)) =
        if endpoints = [] then none else some ⟨ipAddress, udpPort, none⟩ := by
  induction endpoints with
  | nil => exact ⟨fun _ => rfl, rfl⟩
  | cons p endpoints ih =>
      obtain ⟨rfl, htail⟩ := List.forall_mem_cons.mp h
      obtain ⟨hknown, -⟩ := ih htail
      have hstays : ∀ options, learn y (some ⟨ipAddress, udpPort, options⟩ : Option (Neighbour δ))
          (ipAddress, udpPort) = some ⟨ipAddress, udpPort, options⟩ := by
        intro options
        simp [learn, Notice.after]
      have hnew : learn y (none : Option (Neighbour δ)) (ipAddress, udpPort) =
          some ⟨ipAddress, udpPort, none⟩ := by
        simp [learn, Notice.after]
      refine ⟨fun options => ?_, ?_⟩
      · rw [List.foldl_cons, hstays, hknown]
      · rw [List.foldl_cons, hnew, hknown, if_neg (List.cons_ne_nil _ _)]

/-- A packet never makes a link. -/
theorem foldl_learn_unlinked {y : Int} (endpoints : List (Str × Int)) {old : Option (Neighbour δ)}
    (h : ∀ k ∈ old, k.options = none) : ∀ k ∈ endpoints.foldl (learn y) old, k.options = none := by
  induction endpoints generalizing old with
  | nil => exact h
  | cons p endpoints ih =>
      refine ih fun k hk => ?_
      simp only [learn, Notice.after] at hk
      split_ifs at hk
      · obtain rfl := Option.some.inj hk
        rfl
      · exact h k hk

end Notice

/-! ### The system -/

/-- The service, and what has happened so far at the emulator behind each address. -/
structure Attached (δ : Type) where
  service : TrawlerService δ
  log : Int → List Emulator.Event

/-- A trawler with its topology file, and the nodes. -/
structure Overlay (δ : Type) where
  net : Attached δ
  file : CommandsParser.TopoFile

/-- What can happen: a client connects to the trawler, a write to a node fails, or the emulator of a
node does something. -/
inductive Overlay.Event where
  | client (c : Client)
  | lost (a : Int)
  | node (x : Int) (ev : Emulator.Event)

/-- What the trawler sees of it. -/
def Overlay.Event.input : Overlay.Event → Option TrawlerRun.Input
  | .client c => some (.client c)
  | .lost a => some (.lost a)
  | .node .. => none

section system
variable [Zero δ]

/-- An event of the service.  There is no emulator behind an address that is free, and so the one of
a node that joins is new. -/
def Attached.step (s : Attached δ) (e : TrawlerEvent δ) : Attached δ :=
  ⟨s.service.step e, fun a => if (s.service.getEmulatedNode a).isNone then [] else s.log a⟩

namespace Overlay

variable (F : Floats δ) (σ : Overlay δ)

def trawler : TrawlerRun δ := ⟨σ.net.service, σ.file⟩

/-- The emulator of the node at `x`. -/
def emulator (x : Int) : Emulator δ := run (Emulator.step F) (.new x) (σ.net.log x)

/-- What has been written to the node at `x`. -/
def stream (x : Int) : Str := (σ.net.service.getEmulatedNode x).elim [] (·.stream F)

/-- The endpoints from which packets of `y` have come to `x` since `x` read the last line about `y`. -/
def heard (x y : Int) : List (Str × Int) :=
  Notice.heard y ((Emulator.new x : Emulator δ).history F (σ.net.log x))

/-- The trawler has read its file up to the first directive, and no client has come. -/
def start (allToAll : Bool) (lines : List Str) (now : Int) : Overlay δ :=
  ⟨⟨(TrawlerRun.start F allToAll lines now).service, fun _ => []⟩, .start F lines now⟩

def step : Event → Overlay δ
  | .client c =>
      if σ.file.ended then σ
      else ⟨run Attached.step σ.net (σ.trawler.events F c), σ.trawler.readOn F c.now⟩
  | .lost a => ⟨σ.net.step (.lost a), σ.file⟩
  | .node x ev =>
      ⟨⟨σ.net.service, Function.update σ.net.log x (σ.net.log x ++ [ev])⟩, σ.file⟩

/-- What happens is possible, and the topology file does not ask for what the trawler gets wrong.  A
node reads what has been written to it, in order, and the IP address of a client is one. -/
def Allowed : Event → Prop
  | .client c => Plain c.ipAddress ∧ (σ.file.ended = false →
      Guarded TrawlerService.step TrawlerService.Allowed σ.net.service (σ.trawler.events F c))
  | .lost _ => True
  | .node x ev => Emulator.takenBy (σ.net.log x) ++ ev.taken <+: σ.stream F x

instance : ∀ e, Decidable (σ.Allowed F e)
  | .client c => inferInstanceAs (Decidable (Plain c.ipAddress ∧ (σ.file.ended = false →
      Guarded TrawlerService.step TrawlerService.Allowed σ.net.service (σ.trawler.events F c))))
  | .lost _ => inferInstanceAs (Decidable True)
  | .node x ev =>
      inferInstanceAs (Decidable (Emulator.takenBy (σ.net.log x) ++ ev.taken <+: σ.stream F x))

end Overlay

/-! ### How far the nodes have read -/

theorem Attached.run_service (s : Attached δ) (es : List (TrawlerEvent δ)) :
    (run Attached.step s es).service = run TrawlerService.step s.service es := by
  induction es generalizing s with
  | nil => rfl
  | cons e es ih => rw [run_cons, ih, run_cons]; rfl

namespace Overlay

theorem step_client (F : Floats δ) (σ : Overlay δ) (c : Client) :
    (σ.step F (.client c)).trawler = σ.trawler.accept F c := by
  unfold Overlay.step TrawlerRun.accept
  split_ifs with hended hended' hended'
  · rfl
  · exact absurd hended hended'
  · exact absurd hended' hended
  · exact congrArg (TrawlerRun.mk · _) (Attached.run_service _ _)

theorem run_trawler (F : Floats δ) (σ : Overlay δ) (es : List Event) :
    (NetBridge.run (Overlay.step F) σ es).trawler =
      NetBridge.run (TrawlerRun.step F) σ.trawler (es.filterMap Event.input) := by
  induction es generalizing σ with
  | nil => rfl
  | cons e es ih =>
      rw [run_cons, ih]
      cases e with
      | client c =>
          rw [step_client]
          rfl
      | lost a => rfl
      | node x ev => rfl

end Overlay

omit [Zero δ] in
theorem EmulatedNode.stream_mono {F : Floats δ} {n n' : EmulatedNode δ}
    (h : n.written <+: n'.written) : n.stream F <+: n'.stream F := by
  obtain ⟨cs, hcs⟩ := h
  refine ⟨cs.flatMap fun c => c.encode F ++ ['\n'], ?_⟩
  rw [EmulatedNode.stream, EmulatedNode.stream, ← hcs, List.flatMap_append]

/-- The tables that the trawler has in mind agree with the topology, every line can be read, and each
node has read the beginning of what has been written to it. -/
structure Linked (F : Floats δ) (s : Attached δ) : Prop where
  agrees : s.service.Agrees
  proper : s.service.Proper
  reads : ∀ x n, s.service.getEmulatedNode x = some n →
    Emulator.takenBy (s.log x) <+: n.stream F

namespace Linked

variable {F : Floats δ} {s : Attached δ}

theorem step (h : Linked F s) {e : TrawlerEvent δ} (he : e.Typed) (hallowed : s.service.Allowed e) :
    Linked F (s.step e) := by
  obtain ⟨hproper, hwritten⟩ := h.proper.step he
  refine ⟨h.agrees.step hallowed, hproper, ?_⟩
  intro x n' hn'
  simp only [Attached.step]
  obtain hfree | ⟨n, hn, honward⟩ := hwritten x n' hn'
  · rw [hfree, if_pos Option.isNone_none]
    exact List.nil_prefix
  · rw [hn, if_neg (by simp)]
    exact (h.reads x n hn).trans (EmulatedNode.stream_mono honward)

theorem run (h : Linked F s) {es : List (TrawlerEvent δ)} (htyped : ∀ e ∈ es, e.Typed)
    (hes : Guarded TrawlerService.step TrawlerService.Allowed s.service es) :
    Linked F (NetBridge.run Attached.step s es) := by
  induction es generalizing s with
  | nil => exact h
  | cons e es ih =>
      obtain ⟨he, htyped⟩ := List.forall_mem_cons.mp htyped
      exact ih (h.step he hes.1) htyped hes.2

theorem node (h : Linked F s) {x : Int} {ev : Emulator.Event}
    (hev : Emulator.takenBy (s.log x) ++ ev.taken <+:
      (s.service.getEmulatedNode x).elim [] (·.stream F)) :
    Linked F ⟨s.service, Function.update s.log x (s.log x ++ [ev])⟩ := by
  refine ⟨h.agrees, h.proper, ?_⟩
  intro y n hn
  show Emulator.takenBy (Function.update s.log x (s.log x ++ [ev]) y) <+: n.stream F
  by_cases hy : y = x
  · subst hy
    rw [Function.update_self, Emulator.takenBy_append, Emulator.takenBy_cons]
    rw [show s.service.getEmulatedNode y = some n from hn] at hev
    simpa [Emulator.takenBy] using hev
  · rw [Function.update_of_ne hy]
    exact h.reads y n hn

end Linked

theorem TrawlerRun.typed_of_mem_events {F : Floats δ} {s : TrawlerRun δ} {c : Client}
    (hip : Plain c.ipAddress) : ∀ e ∈ s.events F c, e.Typed := by
  intro e he
  unfold TrawlerRun.events at he
  simp only at he
  rw [List.mem_append, List.mem_cons] at he
  obtain (rfl | he) | he := he
  · trivial
  · exact typed_of_mem_lineEvents he
  · split_ifs at he
    · cases he
    · obtain ⟨portLine, -, rfl⟩ := Option.mem_map.mp (Option.mem_toList.mp he)
      exact hip

theorem Overlay.linked_step {F : Floats δ} (σ : Overlay δ) (e : Overlay.Event)
    (h : Linked F σ.net) (he : σ.Allowed F e) : Linked F (σ.step F e).net := by
  cases e with
  | client c =>
      unfold Overlay.step
      cases hended : σ.file.ended with
      | true => exact h
      | false => exact h.run (TrawlerRun.typed_of_mem_events he.1) (he.2 hended)
  | lost a => exact h.step (e := .lost a) trivial trivial
  | node x ev => exact h.node he

theorem linked_new (F : Floats δ) (allToAll : Bool) :
    Linked F (⟨.new allToAll, fun _ => []⟩ : Attached δ) := by
  refine ⟨.new allToAll, ⟨?_, ?_⟩, ?_⟩
  · intro a n hn
    cases hn
  · intro e he
    cases he
  · intro x n hn
    cases hn

theorem Overlay.linked_run {F : Floats δ} {allToAll : Bool} {lines : List Str} {now : Int}
    (hstart : Guarded TrawlerService.step TrawlerService.Allowed (.new allToAll)
      (TrawlerRun.lineEvents F now (CommandsParser.parseRemainder F now lines).1))
    {es : List Overlay.Event}
    (hes : Guarded (Overlay.step F) (Overlay.Allowed F) (.start F allToAll lines now) es) :
    Linked F (NetBridge.run (Overlay.step F) (.start F allToAll lines now) es).net := by
  refine guarded_induction (I := fun σ => Linked F σ.net) Overlay.linked_step ?_ hes
  have hread := (linked_new F allToAll).run (fun e he => TrawlerRun.typed_of_mem_lineEvents he) hstart
  have hservice := Attached.run_service (⟨.new allToAll, fun _ => []⟩ : Attached δ)
    (TrawlerRun.lineEvents F now (CommandsParser.parseRemainder F now lines).1)
  refine ⟨?_, ?_, fun _ _ _ => List.nil_prefix⟩
  · have h := hread.agrees
    rwa [hservice] at h
  · have h := hread.proper
    rwa [hservice] at h

/-- What the node at `x` knows of `y` once it has read all that has been written to it. -/
theorem Linked.knows {F : Floats δ} {s : Attached δ} (h : Linked F s)
    (hstod : ∀ d, F.stod (F.javaDouble d) = some d) {x : Int} {n : EmulatedNode δ}
    (hn : s.service.getEmulatedNode x = some n)
    (hdrained : Emulator.takenBy (s.log x) = n.stream F) (y : Int) :
    (NetBridge.run (Emulator.step F) (.new x) (s.log x)).neighbour y =
      (Notice.heard y ((Emulator.new x : Emulator δ).history F (s.log x))).foldl (Notice.learn y)
        ((s.service.entry x y).map EmulatorARPData.neighbour) := by
  have hcommands := Emulator.history_of_drained hstod (x := x) (h.proper.nodes x n hn).written hdrained
  rw [Emulator.neighbour_run]
  show ((Emulator.new x : Emulator δ).history F (s.log x)).foldl (Notice.after y) none = _
  rw [Notice.foldl_after_eq, hcommands, TrawlerService.entry, hn, Option.bind_some,
    EmulatedNode.neighbours, Emulator.neighbour_commands]
  rfl

/-- **The nodes follow the topology.**  Take any run of a trawler and its nodes: clients come and go, the
topology file is read on when its time has come, the lines of the trawler are cut in any way and read
at any time, and packets come from anywhere.  When a live node has read what has been written to it,
it knows every other live node to which it has a live edge, at the endpoint that this node has
registered and with the options of the edge.  An address without a node and a node without a live
edge it knows only if it has heard of it since, and then without a link; and it sends its packets as
it knows its neighbours.  The trawler runs as if nothing happened at its nodes. -/
theorem Overlay.nodes_follow_topology (F : Floats δ)
    (hstod : ∀ d, F.stod (F.javaDouble d) = some d) (allToAll : Bool) (lines : List Str) (now : Int)
    (hstart : Guarded TrawlerService.step TrawlerService.Allowed (.new allToAll)
      (TrawlerRun.lineEvents F now (CommandsParser.parseRemainder F now lines).1))
    (es : List Overlay.Event)
    (hes : Guarded (Overlay.step F) (Overlay.Allowed F) (.start F allToAll lines now) es)
    (x : Int) (n : EmulatedNode δ) :
    let σ := NetBridge.run (Overlay.step F) (.start F allToAll lines now) es
    σ.net.service.getEmulatedNode x = some n → n.alive = true →
    Emulator.takenBy (σ.net.log x) = n.stream F →
    (∀ y m, y ≠ x → σ.net.service.getEmulatedNode y = some m → m.alive = true →
      (∀ p ∈ σ.heard F x y, p = (m.ipAddress, m.udpPort)) →
        (σ.emulator F x).neighbour y =
          match σ.net.service.topology.link x y with
          | some o => some ⟨m.ipAddress, m.udpPort, some o⟩
          | none => if σ.heard F x y = [] then none else some ⟨m.ipAddress, m.udpPort, none⟩) ∧
    (∀ y, (∀ m, σ.net.service.getEmulatedNode y = some m →
        σ.net.service.topology.link x y = none) →
      (σ.heard F x y = [] → (σ.emulator F x).neighbour y = none) ∧
        ∀ k, (σ.emulator F x).neighbour y = some k → k.options = none) ∧
    (∀ src dest pkt order draw, ∃ sent,
      ((σ.emulator F x).step F (.sendPkt src dest pkt [] order draw)).dispatched =
        (σ.emulator F x).dispatched ++ sent ∧
      ∀ d ∈ sent, ∃ k, (σ.emulator F x).neighbour d.destAddr = some k ∧ d.Follows k) ∧
    σ.trawler = NetBridge.run (TrawlerRun.step F) (.start F allToAll lines now)
      (es.filterMap Overlay.Event.input) := by
  intro σ hn halive hdrained
  have h : Linked F σ.net := Overlay.linked_run hstart hes
  have hx : σ.net.service.Alive x := (TrawlerService.alive_iff hn).mpr halive
  refine ⟨?_, ?_, Emulator.sendPkt_follows (Emulator.not_mem_trawlerBuf x _),
    Overlay.run_trawler F _ es⟩
  · intro y m hne hm hmalive hheard
    have hy : σ.net.service.Alive y := (TrawlerService.alive_iff hm).mpr hmalive
    obtain ⟨hknown, hunknown⟩ := Notice.foldl_learn (δ := δ) (y := y) hheard
    rw [show σ.emulator F x = NetBridge.run (Emulator.step F) (.new x) (σ.net.log x) from rfl,
      h.knows hstod hn hdrained y, h.agrees.agree x y hne.symm hx hy, TrawlerService.expected,
      TrawlerService.peer_of_getEmulatedNode hm, Option.bind_some]
    cases σ.net.service.topology.link x y with
    | some o => exact hknown (some o)
    | none => exact hunknown
  · intro y hy
    have hentry : σ.net.service.entry x y = none := by
      cases he : σ.net.service.entry x y with
      | none => rfl
      | some data =>
          -- a table entry needs a node and a live edge
          obtain ⟨-, hexpected⟩ := h.agrees.stale x y hx (by rw [he]; rfl)
          cases hm : σ.net.service.getEmulatedNode y with
          | none =>
              rw [TrawlerService.expected, TrawlerService.peer_eq_none hm] at hexpected
              cases hexpected
          | some m =>
              rw [TrawlerService.expected, hy m hm, TrawlerService.peer_of_getEmulatedNode hm]
                at hexpected
              cases hexpected
    have hknows : (σ.emulator F x).neighbour y =
        (σ.heard F x y).foldl (Notice.learn y) none := by
      rw [show σ.emulator F x = NetBridge.run (Emulator.step F) (.new x) (σ.net.log x) from rfl,
        h.knows hstod hn hdrained y, hentry]
      rfl
    rw [hknows]
    refine ⟨fun hheard => by rw [hheard]; rfl, ?_⟩
    exact Notice.foldl_learn_unlinked _ fun k hk => by cases hk

end system

/-- The only double of the example, `0.0`. -/
inductive ZeroDouble where
  | zero
deriving DecidableEq

instance : Zero ZeroDouble := ⟨.zero⟩

def Floats.zero : Floats ZeroDouble where
  isnan _ := false
  isinf _ := false
  negative _ := false
  format _ _ := "0".toList
  stod s := if s = "0".toList ∨ s = "0.0".toList then some .zero else none
  equal _ _ := true
  plain _ _ := by simp

/-- Two nodes join; the line about the second one reaches the first one in two pieces, and a packet of
the second node comes between them. -/
def twoNodes : List Overlay.Event :=
  [.client ⟨10, "10.0.0.1".toList, some "5000".toList⟩,
    .client ⟨20, "10.0.0.2".toList, some "6000".toList⟩,
    .node 0 (.refreshARP "add 1 10.0.0.2 6000 lossRa".toList),
    .node 0 (.processUdpPacket [0, 1, 12, 0, 1, 15, 0, 9, 0, 0, 0, 0] "10.0.0.2".toList 6000),
    .node 0 (.refreshARP "te 0.0 delay 5 bw 10000 bt 250\n".toList)]

theorem nodes_follow_topology_two_nodes :
    let σ := run (Overlay.step Floats.zero)
      (.start Floats.zero false ["edge 0 1 lossRate 0 delay 5".toList] 0) twoNodes
    (σ.emulator Floats.zero 0).neighbour 1 =
      some ⟨"10.0.0.2".toList, 6000, some ⟨0, 5, 10000, 250⟩⟩ := by
  intro σ
  have hlink : σ.net.service.topology.link 0 1 = some ⟨0, 5, 10000, 250⟩ := by decide
  obtain ⟨hknown, -, -, -⟩ := Overlay.nodes_follow_topology Floats.zero (by rintro ⟨⟩; decide) false
    ["edge 0 1 lossRate 0 delay 5".toList] 0 (by decide) twoNodes (by decide) 0
    ⟨0, "10.0.0.1".toList, 5000, true,
      [.add 1 "10.0.0.2".toList 6000 (some ⟨0, 5, 10000, 250⟩)]⟩ (by decide) rfl (by decide)
  have h := hknown 1 ⟨1, "10.0.0.2".toList, 6000, true,
    [.add 0 "10.0.0.1".toList 5000 (some ⟨0, 5, 10000, 250⟩)]⟩ (by decide) (by decide) rfl (by decide)
  rw [hlink] at h
  exact h

end NetBridge
