import NetBridge.ArpCommands
import NetBridge.Run

/-! # The trawler

`TrawlerService` (`trawler_service.cpp`) keeps the topology and one `EmulatedNode` for each node
that has joined; the hooks of `TrawlerCommandsParser` change the topology and tell the nodes.  A
node's neighbour table is what the lines written to it make of an empty table.

The trawler is right when the table of each node holds exactly the nodes to which it has a live
edge, with the options of the edge (`Agrees`).  Every step keeps that, except that `startEdge`
does not ask whether the edge is live: a failed edge that is declared again, and an edge of a
failed node that is declared or restarted, put the two nodes into each other's tables.  See
`TrawlerService.Allowed` for the condition and `tables_agree` for the result.

All writes succeed, except that nothing more reaches a node whose connection is lost. -/

namespace NetBridge

/-- `EmulatedNode`, with the commands written to it so far. -/
structure EmulatedNode (δ : Type) where
  fishAddr : Int
  ipAddress : Str
  udpPort : Int
  alive : Bool
  written : List (ArpCommand δ)
deriving DecidableEq

structure TrawlerService (δ : Type) where
  topology : Topology δ
  emulatedNodes : Table Int (EmulatedNode δ)

variable {δ : Type}

/-- The table of a node. -/
def EmulatedNode.neighbours (n : EmulatedNode δ) : ArpTable δ := n.written.foldl ArpCommand.apply ∅

/-- The constructor. -/
def EmulatedNode.new (fishAddr : Int) (ipAddress : Str) (udpPort : Int) : EmulatedNode δ :=
  ⟨fishAddr, ipAddress, udpPort, true, []⟩

namespace TrawlerService

/-- The constructor. -/
def new (allToAll : Bool) : TrawlerService δ := ⟨.new allToAll, ∅⟩

section operations
variable [Zero δ] (t : TrawlerService δ)

def getEmulatedNode (fishAddr : Int) : Option (EmulatedNode δ) :=
  AList.lookup fishAddr t.emulatedNodes

/-! ### Writing to a node -/

/-- `writeLine` to the node at `a`. -/
def writeLine (a : Int) (line : ArpCommand δ) : TrawlerService δ :=
  match t.getEmulatedNode a with
  | none => t
  | some n =>
      if n.alive then
        { t with emulatedNodes :=
            AList.insert a { n with written := n.written ++ [line] } t.emulatedNodes }
      else t

def sendAddNeighbor (a : Int) (peer : EmulatedNode δ) : TrawlerService δ :=
  match t.getEmulatedNode a with
  | none => t
  | some n =>
      let (topology, e) := t.topology.getLiveEdge n.fishAddr peer.fishAddr
      let options := e.map fun i => (topology.edge i).options
      ({ t with topology := topology }).writeLine a
        (.add peer.fishAddr peer.ipAddress peer.udpPort options)

def sendRemoveNeighbor (a : Int) (peerFishAddr : Int) : TrawlerService δ :=
  t.writeLine a (.remove peerFishAddr)

def sendReset (a : Int) : TrawlerService δ := t.writeLine a .reset

/-! ### The service -/

def startEdge (a b : Int) : TrawlerService δ :=
  match t.getEmulatedNode a, t.getEmulatedNode b with
  | some nA, some nB => (t.sendAddNeighbor a nB).sendAddNeighbor b nA
  | _, _ => t

def failEdge (a b : Int) : TrawlerService δ :=
  match t.getEmulatedNode a, t.getEmulatedNode b with
  | some _, some _ => (t.sendRemoveNeighbor a b).sendRemoveNeighbor b a
  | _, _ => t

/-- One round of the loops that take a node out of the others' tables. -/
def dropNeighbor (dyingAddr : Int) (t : TrawlerService δ) (k : Int) : TrawlerService δ :=
  match t.getEmulatedNode k with
  | none => t
  | some node =>
      if k = dyingAddr then t
      else
        let (topology, e) := t.topology.getLiveEdge node.fishAddr dyingAddr
        let t := { t with topology := topology }
        if e.isSome = true ∧ node.alive = true then t.sendRemoveNeighbor k dyingAddr else t

def removeAsNeighbor (dyingAddr : Int) : TrawlerService δ :=
  t.emulatedNodes.keys.foldl (dropNeighbor dyingAddr) t

def failNode (a : Int) : TrawlerService δ :=
  match t.getEmulatedNode a with
  | some _ => (t.sendReset a).removeAsNeighbor a
  | none => t

/-- One round of the loop of `updateNeighbors`. -/
def meetNeighbor (fishAddr : Int) (t : TrawlerService δ) (k : Int) : TrawlerService δ :=
  match t.getEmulatedNode k, t.getEmulatedNode fishAddr with
  | some node, some startingNode =>
      if node.fishAddr = fishAddr then t
      else
        let (topology, e) := t.topology.getLiveEdge node.fishAddr startingNode.fishAddr
        let t := { t with topology := topology }
        if e.isSome = true ∧ node.alive = true then
          (t.sendAddNeighbor k startingNode).sendAddNeighbor fishAddr node
        else t
  | _, _ => t

def updateNeighbors (fishAddr : Int) : TrawlerService δ :=
  t.emulatedNodes.keys.foldl (meetNeighbor fishAddr) t

def restartNode (a : Int) : TrawlerService δ := t.updateNeighbors a

/-- One round of the loop of `checkNodesQuit`: a node that is gone is erased and taken out of the
tables of the others. -/
def quitNode (t : TrawlerService δ) (k : Int) : TrawlerService δ :=
  match t.getEmulatedNode k with
  | none => t
  | some n =>
      if n.alive then t
      else
        let t := { t with emulatedNodes := AList.erase k t.emulatedNodes }
        t.emulatedNodes.keys.foldl (dropNeighbor k) t

def checkNodesQuit : TrawlerService δ := t.emulatedNodes.keys.foldl quitNode t

def freeFishAddr : Int :=
  (((List.range 255).map Int.ofNat).find? fun i => (t.getEmulatedNode i).isNone).getD (-1)

def portConflict (ipAddress : Str) (udpPort : Int) : Bool :=
  t.emulatedNodes.entries.any fun kv => kv.2.ipAddress == ipAddress && kv.2.udpPort == udpPort

/-- What `run` does with the line of a client that has connected, after `checkNodesQuit`. -/
def join (ipAddress : Str) (portLine : Str) : TrawlerService δ :=
  match stoi portLine with
  | none => t
  | some port =>
      if port < 1024 ∨ t.portConflict ipAddress port = true then t
      else
        let fishAddr := t.freeFishAddr
        if fishAddr = -1 then t
        else
          ({ t with emulatedNodes :=
              AList.insert fishAddr (.new fishAddr ipAddress port) t.emulatedNodes }).updateNeighbors
            fishAddr

/-! ### The hooks of the parser -/

def createNewEdge (a b : Int) (opts : EdgeOptions δ) : TrawlerService δ :=
  ({ t with topology := t.topology.newEdge a b opts }).startEdge a b

def failEdgeHook (a b : Int) : TrawlerService δ :=
  let (topology, ok) := t.topology.failEdge a b
  let t := { t with topology := topology }
  if ok then t.failEdge a b else t

def failNodeHook (a : Int) : TrawlerService δ :=
  let t := t.failNode a
  { t with topology := t.topology.failNode a }

def restartEdgeHook (a b : Int) : TrawlerService δ :=
  let (topology, ok) := t.topology.restartEdge a b
  let t := { t with topology := topology }
  if ok then t.startEdge a b else t

def restartNodeHook (a : Int) : TrawlerService δ :=
  ({ t with topology := t.topology.restartNode a }).restartNode a

end operations

end TrawlerService

/-- What can happen to the trawler. -/
inductive TrawlerEvent (δ : Type) where
  | join (ipAddress portLine : Str)
  /-- A write to the node has failed. -/
  | lost (a : Int)
  | checkNodesQuit
  | edge (a b : Int) (opts : EdgeOptions δ)
  | failEdge (a b : Int)
  | failNode (a : Int)
  | restartEdge (a b : Int)
  | restartNode (a : Int)

namespace TrawlerService

variable [Zero δ] (t : TrawlerService δ)

def step : TrawlerEvent δ → TrawlerService δ
  | .join ipAddress portLine => t.join ipAddress portLine
  | .lost a =>
      match t.getEmulatedNode a with
      | none => t
      | some n =>
          { t with emulatedNodes := AList.insert a { n with alive := false } t.emulatedNodes }
  | .checkNodesQuit => t.checkNodesQuit
  | .edge a b opts => t.createNewEdge a b opts
  | .failEdge a b => t.failEdgeHook a b
  | .failNode a => t.failNodeHook a
  | .restartEdge a b => t.restartEdgeHook a b
  | .restartNode a => t.restartNodeHook a

/-- Both nodes have joined. -/
def BothJoined (a b : Int) : Prop :=
  (t.getEmulatedNode a).isSome = true ∧ (t.getEmulatedNode b).isSome = true

/-- An edge of two nodes that have joined is declared only when it is not failed, and declared or
restarted only when neither node is failed. -/
def Allowed : TrawlerEvent δ → Prop
  | .edge a b _ => a ≠ b ∧ (t.BothJoined a b →
      (∀ e ∈ t.topology.find a b, e.1 = true) ∧
        t.topology.isNodeAlive a = true ∧ t.topology.isNodeAlive b = true)
  | .restartEdge a b => a ≠ b ∧ (t.BothJoined a b → (t.topology.find a b).isSome = true →
      t.topology.isNodeAlive a = true ∧ t.topology.isNodeAlive b = true)
  | .failEdge a b => a ≠ b
  | .join .. | .lost _ | .checkNodesQuit | .failNode _ | .restartNode _ => True

instance (a b : Int) : Decidable (t.BothJoined a b) := inferInstanceAs (Decidable (_ ∧ _))

instance : ∀ e, Decidable (t.Allowed e)
  | .edge a b _ => inferInstanceAs (Decidable (a ≠ b ∧ (t.BothJoined a b →
      (∀ e ∈ t.topology.find a b, e.1 = true) ∧
        t.topology.isNodeAlive a = true ∧ t.topology.isNodeAlive b = true)))
  | .restartEdge a b => inferInstanceAs (Decidable (a ≠ b ∧ (t.BothJoined a b →
      (t.topology.find a b).isSome = true →
        t.topology.isNodeAlive a = true ∧ t.topology.isNodeAlive b = true)))
  | .failEdge a b => inferInstanceAs (Decidable (a ≠ b))
  | .join .. | .lost _ | .checkNodesQuit | .failNode _ | .restartNode _ =>
      inferInstanceAs (Decidable True)

/-! ### What the tables should be -/

/-- The node that has joined at an address, without the lines written to it. -/
def peer (a : Int) : Option (EmulatedNode δ) :=
  (t.getEmulatedNode a).map fun n => { n with written := [] }

/-- A node has joined and its connection is not lost. -/
def Alive (a : Int) : Prop := ∃ n ∈ t.peer a, n.alive = true

/-- Every node is kept under its own address. -/
def Keyed : Prop := ∀ a, ∀ n ∈ t.peer a, n.fishAddr = a

/-- The entry of `y` in the table of `x`. -/
def entry (x y : Int) : Option (EmulatorARPData δ) :=
  (t.getEmulatedNode x).bind fun n => AList.lookup y n.neighbours

/-- The entry that `y` should have in the table of `x`. -/
def expected (x y : Int) : Option (EmulatorARPData δ) :=
  (t.peer y).bind fun p =>
    (t.topology.link x y).map fun o => ⟨p.ipAddress, p.udpPort, some (.new o)⟩

/-- The tables are right.  A node whose connection is lost may miss from a table, but none is in a
table without a live edge. -/
structure Agrees (t : TrawlerService δ) : Prop where
  keyed : t.Keyed
  agree : ∀ x y, x ≠ y → t.Alive x → t.Alive y → t.entry x y = t.expected x y
  stale : ∀ x y, t.Alive x → (t.entry x y).isSome = true →
    x ≠ y ∧ (t.expected x y).isSome = true

/-- The topology and the nodes are the same; only lines have been written. -/
structure World (t t' : TrawlerService δ) : Prop where
  topology : Topology.Same t.topology t'.topology
  peer : ∀ a, t'.peer a = t.peer a

variable {t} {t' : TrawlerService δ}

namespace World

theorem refl (t : TrawlerService δ) : World t t := ⟨.refl _, fun _ => rfl⟩

theorem trans {t₁ t₂ t₃ : TrawlerService δ} (h₁ : World t₁ t₂) (h₂ : World t₂ t₃) : World t₁ t₃ :=
  ⟨h₁.topology.trans h₂.topology, fun a => (h₂.peer a).trans (h₁.peer a)⟩

theorem alive (h : World t t') (a : Int) : t'.Alive a ↔ t.Alive a := by
  unfold Alive
  rw [h.peer]

theorem expected (h : World t t') (x y : Int) : t'.expected x y = t.expected x y := by
  unfold TrawlerService.expected
  rw [h.peer, h.topology.link]

theorem keyed (h : World t t') (hk : t.Keyed) : t'.Keyed := by
  intro a n hn
  rw [h.peer] at hn
  exact hk a n hn

end World

theorem expected_of_link {x y : Int} (h : t.topology.link x y = none) : t.expected x y = none := by
  unfold expected
  rw [h]
  cases t.peer y <;> rfl

theorem expected_isSome {x y : Int} :
    (t.expected x y).isSome = true ↔
      (t.peer y).isSome = true ∧ (t.topology.link x y).isSome = true := by
  unfold expected
  cases t.peer y with
  | none => simp
  | some p => simp

omit [Zero δ] in
theorem not_alive_of_peer {a : Int} (h : t.peer a = none) : ¬ t.Alive a := by
  rintro ⟨n, hn, _⟩
  rw [h] at hn
  cases hn

omit [Zero δ] in
theorem peer_eq_none {a : Int} (h : t.getEmulatedNode a = none) : t.peer a = none := by
  rw [peer, h]
  rfl

omit [Zero δ] in
theorem peer_of_getEmulatedNode {a : Int} {n : EmulatedNode δ} (h : t.getEmulatedNode a = some n) :
    t.peer a = some { n with written := [] } := by
  rw [peer, h]
  rfl

omit [Zero δ] in
theorem fishAddr_eq (hk : t.Keyed) {a : Int} {n : EmulatedNode δ}
    (h : t.getEmulatedNode a = some n) : n.fishAddr = a :=
  hk a { n with written := [] } (peer_of_getEmulatedNode h)

omit [Zero δ] in
theorem alive_iff {a : Int} {n : EmulatedNode δ} (h : t.getEmulatedNode a = some n) :
    t.Alive a ↔ n.alive = true := by
  unfold Alive
  rw [peer_of_getEmulatedNode h]
  simp

/-! ### Lines -/

theorem writeLine_world (t : TrawlerService δ) (a : Int) (line : ArpCommand δ) :
    World t (t.writeLine a line) := by
  constructor
  · unfold writeLine
    split
    · exact .refl _
    · split_ifs <;> exact .refl _
  · intro b
    unfold writeLine
    cases hn : t.getEmulatedNode a with
    | none => rfl
    | some n =>
        simp only
        split_ifs
        · simp only [peer, getEmulatedNode, Table.lookup_insert_eq]
          split_ifs with hb
          · rw [hb, show AList.lookup a t.emulatedNodes = some n from hn]
            rfl
          · rfl
        · rfl

omit [Zero δ] in
theorem writeLine_entry (a : Int) (line : ArpCommand δ) {x : Int} (hx : t.Alive x) (y : Int) :
    (t.writeLine a line).entry x y =
      if x = a then line.after y (t.entry x y) else t.entry x y := by
  unfold writeLine
  cases hn : t.getEmulatedNode a with
  | none =>
      have hne : x ≠ a := by
        rintro rfl
        exact not_alive_of_peer (peer_eq_none hn) hx
      rw [if_neg hne]
  | some n =>
      simp only
      by_cases hxa : x = a
      · subst hxa
        rw [if_pos ((alive_iff hn).mp hx), if_pos rfl]
        simp only [entry, getEmulatedNode, AList.lookup_insert,
          show AList.lookup x t.emulatedNodes = some n from hn, Option.bind_some,
          EmulatedNode.neighbours, List.foldl_append, List.foldl_cons, List.foldl_nil,
          ArpCommand.lookup_apply]
      · rw [if_neg hxa]
        split_ifs
        · simp only [entry, getEmulatedNode, AList.lookup_insert_ne hxa]
        · rfl

theorem query_world (t : TrawlerService δ) (a b : Int) :
    World t { t with topology := (t.topology.getLiveEdge a b).1 } :=
  ⟨(t.topology.getLiveEdge_spec a b).1, fun _ => rfl⟩

theorem sendAddNeighbor_world (t : TrawlerService δ) (a : Int) (p : EmulatedNode δ) :
    World t (t.sendAddNeighbor a p) := by
  unfold sendAddNeighbor
  cases hn : t.getEmulatedNode a with
  | none => exact .refl t
  | some n => exact (t.query_world n.fishAddr p.fishAddr).trans (writeLine_world _ _ _)

theorem sendAddNeighbor_entry (hk : t.Keyed) (a : Int)
    (p : EmulatedNode δ) {x : Int} (hx : t.Alive x) (y : Int) :
    (t.sendAddNeighbor a p).entry x y =
      if x = a ∧ y = p.fishAddr then
        some ⟨p.ipAddress, p.udpPort, (t.topology.link a p.fishAddr).map .new⟩
      else t.entry x y := by
  unfold sendAddNeighbor
  cases hn : t.getEmulatedNode a with
  | none =>
      have hne : x ≠ a := by
        rintro rfl
        exact not_alive_of_peer (peer_eq_none hn) hx
      rw [if_neg fun h => hne h.1]
  | some n =>
      simp only
      rw [writeLine_entry a _ (((t.query_world n.fishAddr p.fishAddr).alive x).mpr hx)]
      rw [(t.topology.getLiveEdge_spec n.fishAddr p.fishAddr).2, fishAddr_eq hk hn]
      by_cases hxa : x = a
      · by_cases hy : y = p.fishAddr
        · rw [if_pos hxa, if_pos ⟨hxa, hy⟩]
          exact if_pos hy
        · rw [if_pos hxa, if_neg fun h => hy h.2]
          exact if_neg hy
      · rw [if_neg hxa, if_neg fun h => hxa h.1]
        rfl

/-! ### Adding neighbours -/

/-- Lines have been written, and every entry that they changed is now as it should be. -/
structure Gains (t t' : TrawlerService δ) : Prop where
  world : World t t'
  entry : ∀ x y, t.Alive x → t'.entry x y = t.entry x y ∨
    x ≠ y ∧ t'.entry x y = t.expected x y ∧ (t.expected x y).isSome = true

namespace Gains

theorem refl (t : TrawlerService δ) : Gains t t := ⟨.refl t, fun _ _ _ => .inl rfl⟩

theorem trans {t₁ t₂ t₃ : TrawlerService δ} (h₁ : Gains t₁ t₂) (h₂ : Gains t₂ t₃) :
    Gains t₁ t₃ := by
  refine ⟨h₁.world.trans h₂.world, ?_⟩
  intro x y hx
  obtain e | ⟨hne, e, hsome⟩ := h₂.entry x y ((h₁.world.alive x).mpr hx)
  · rw [e]
    exact h₁.entry x y hx
  · rw [h₁.world.expected] at e hsome
    exact .inr ⟨hne, e, hsome⟩

theorem keeps (h : Gains t t') {x y : Int} (hx : t.Alive x) (e : t.entry x y = t.expected x y) :
    t'.entry x y = t.expected x y := by
  obtain e' | ⟨_, e', _⟩ := h.entry x y hx
  · exact e'.trans e
  · exact e'

end Gains

theorem sendAddNeighbor_gains (hk : t.Keyed) {a b : Int} (hab : a ≠ b)
    {p : EmulatedNode δ} (hp : t.peer b = some { p with written := [] })
    (hlink : (t.topology.link a b).isSome = true) :
    Gains t (t.sendAddNeighbor a p) ∧
      (t.Alive a → (t.sendAddNeighbor a p).entry a b = t.expected a b) := by
  have hb : p.fishAddr = b := hk b { p with written := [] } hp
  obtain ⟨o, ho⟩ := Option.isSome_iff_exists.mp hlink
  have hexp : t.expected a b = some ⟨p.ipAddress, p.udpPort, some (.new o)⟩ := by
    rw [expected, hp, ho]
    rfl
  have hentry : ∀ x y, t.Alive x → x = a ∧ y = b →
      (t.sendAddNeighbor a p).entry x y = t.expected a b := by
    rintro x y hx ⟨hxa, hyb⟩
    rw [sendAddNeighbor_entry hk a p hx y, if_pos ⟨hxa, hyb.trans hb.symm⟩, hb, ho, hexp]
    rfl
  refine ⟨⟨t.sendAddNeighbor_world a p, ?_⟩, fun ha => hentry a b ha ⟨rfl, rfl⟩⟩
  intro x y hx
  by_cases h : x = a ∧ y = b
  · obtain ⟨rfl, rfl⟩ := h
    refine .inr ⟨hab, hentry x y hx ⟨rfl, rfl⟩, ?_⟩
    rw [hexp]
    rfl
  · rw [sendAddNeighbor_entry hk a p hx y, if_neg (by rw [hb]; exact h)]
    exact .inl rfl

theorem greet_gains (hk : t.Keyed) {a b : Int} (hab : a ≠ b)
    {nA nB : EmulatedNode δ} (ha : t.peer a = some { nA with written := [] })
    (hb : t.peer b = some { nB with written := [] })
    (hlink : (t.topology.link a b).isSome = true) :
    let t' := (t.sendAddNeighbor a nB).sendAddNeighbor b nA
    Gains t t' ∧ (t.Alive a → t'.entry a b = t.expected a b) ∧
      (t.Alive b → t'.entry b a = t.expected b a) := by
  intro t'
  obtain ⟨h1, h1'⟩ := sendAddNeighbor_gains hk hab hb hlink
  have hw := h1.world
  obtain ⟨h2, h2'⟩ := sendAddNeighbor_gains (hw.keyed hk) hab.symm ((hw.peer a).trans ha)
    (by rw [hw.topology.link, Topology.link_comm]; exact hlink)
  refine ⟨h1.trans h2, ?_, ?_⟩
  · intro halive
    have := h2.keeps ((hw.alive a).mpr halive) (by rw [hw.expected]; exact h1' halive)
    rwa [hw.expected] at this
  · intro halive
    have := h2' ((hw.alive b).mpr halive)
    rwa [hw.expected] at this

theorem query_gains (t : TrawlerService δ) (a b : Int) :
    Gains t { t with topology := (t.topology.getLiveEdge a b).1 } :=
  ⟨t.query_world a b, fun _ _ _ => .inl rfl⟩

/-- One round of `updateNeighbors`. -/
theorem meetNeighbor_gains (hk : t.Keyed) (a k : Int) :
    Gains t (meetNeighbor a t k) ∧
      (k ≠ a → t.Alive k → t.Alive a → (t.topology.link k a).isSome = true →
        (meetNeighbor a t k).entry k a = t.expected k a ∧
          (meetNeighbor a t k).entry a k = t.expected a k) := by
  unfold meetNeighbor
  cases hnode : t.getEmulatedNode k with
  | none =>
      exact ⟨.refl t, fun _ halive _ _ => absurd halive (not_alive_of_peer (peer_eq_none hnode))⟩
  | some node =>
      cases hstart : t.getEmulatedNode a with
      | none =>
          exact ⟨.refl t, fun _ _ halive _ => absurd halive (not_alive_of_peer (peer_eq_none hstart))⟩
      | some startingNode =>
          have hkeyk : node.fishAddr = k := fishAddr_eq hk hnode
          have hkeya : startingNode.fishAddr = a := fishAddr_eq hk hstart
          simp only [hkeyk, hkeya]
          split_ifs with hka hsend
          · exact ⟨.refl t, fun hne => absurd hka hne⟩
          · have hw := t.query_world k a
            have hlink : (t.topology.link k a).isSome = true := by
              rw [← Topology.getLiveEdge_isSome]
              exact hsend.1
            obtain ⟨h, hka', hak'⟩ := greet_gains (t := { t with topology :=
              (t.topology.getLiveEdge k a).1 }) (hw.keyed hk) hka (peer_of_getEmulatedNode hnode)
              (peer_of_getEmulatedNode hstart) (by rw [hw.topology.link]; exact hlink)
            refine ⟨(query_gains t k a).trans h, fun _ halive hstarting _ => ⟨?_, ?_⟩⟩
            · rw [hka' ((hw.alive k).mpr halive), hw.expected]
            · rw [hak' ((hw.alive a).mpr hstarting), hw.expected]
          · refine ⟨query_gains t k a, fun _ halive _ hlink => ?_⟩
            rw [← Topology.getLiveEdge_isSome] at hlink
            exact absurd ⟨hlink, (alive_iff hnode).mp halive⟩ hsend

theorem meetNeighbors_gains (hk : t.Keyed) (a : Int) (ks : List Int) :
    Gains t (ks.foldl (meetNeighbor a) t) ∧
      ∀ k ∈ ks, k ≠ a → t.Alive k → t.Alive a → (t.topology.link k a).isSome = true →
        (ks.foldl (meetNeighbor a) t).entry k a = t.expected k a ∧
          (ks.foldl (meetNeighbor a) t).entry a k = t.expected a k := by
  induction ks generalizing t with
  | nil => exact ⟨.refl t, fun k hmem => absurd hmem List.not_mem_nil⟩
  | cons k ks ih =>
      obtain ⟨h1, h1'⟩ := meetNeighbor_gains hk a k
      have hw := h1.world
      obtain ⟨h2, h2'⟩ := ih (hw.keyed hk)
      rw [List.foldl_cons]
      refine ⟨h1.trans h2, ?_⟩
      intro k' hk' hne halive hstarting hlink
      have halive' := (hw.alive k').mpr halive
      have hstarting' := (hw.alive a).mpr hstarting
      obtain rfl | hmem := List.mem_cons.mp hk'
      · -- right after this round, and the later ones keep it
        obtain ⟨e1, e2⟩ := h1' hne halive hstarting hlink
        constructor
        · rw [h2.keeps halive' (by rw [hw.expected, e1]), hw.expected]
        · rw [h2.keeps hstarting' (by rw [hw.expected, e2]), hw.expected]
      · obtain ⟨e1, e2⟩ := h2' k' hmem hne halive' hstarting' (by rw [hw.topology.link]; exact hlink)
        rw [hw.expected] at e1 e2
        exact ⟨e1, e2⟩

/-- The tables are right but for those entries of `a`, in its own table and in the others', that
are missing. -/
structure AgreesBut (a : Int) (t : TrawlerService δ) : Prop where
  keyed : t.Keyed
  agree : ∀ x y, x ≠ y → t.Alive x → t.Alive y → t.entry x y = t.expected x y ∨
    (x = a ∨ y = a) ∧ t.entry x y = none
  stale : ∀ x y, t.Alive x → (t.entry x y).isSome = true →
    x ≠ y ∧ (t.expected x y).isSome = true

omit [Zero δ] in
theorem mem_keys_of_peer {a : Int} {n : EmulatedNode δ} (hn : n ∈ t.peer a) :
    a ∈ t.emulatedNodes.keys := by
  obtain ⟨n', hn', _⟩ := Option.map_eq_some_iff.mp hn
  have hsome : (AList.lookup a t.emulatedNodes).isSome = true := Option.isSome_of_mem hn'
  exact AList.mem_keys.mpr (AList.lookup_isSome.mp hsome)

omit [Zero δ] in
theorem Alive.mem_keys {a : Int} (h : t.Alive a) : a ∈ t.emulatedNodes.keys := by
  obtain ⟨n, hn, _⟩ := h
  exact mem_keys_of_peer hn

/-- `updateNeighbors` adds what is missing. -/
theorem AgreesBut.updateNeighbors {a : Int} (h : AgreesBut a t) : (t.updateNeighbors a).Agrees := by
  obtain ⟨hg, hmet⟩ := meetNeighbors_gains h.keyed a t.emulatedNodes.keys
  have hw : World t (t.updateNeighbors a) := hg.world
  refine ⟨hw.keyed h.keyed, ?_, ?_⟩
  · intro x y hne hx hy
    rw [hw.alive] at hx hy
    rw [hw.expected]
    obtain e | ⟨hside, e⟩ := h.agree x y hne hx hy
    · exact hg.keeps hx e
    · by_cases hlink : (t.topology.link x y).isSome = true
      · obtain rfl | rfl := hside
        · exact (hmet y hy.mem_keys hne.symm hy hx (by rw [Topology.link_comm]; exact hlink)).2
        · exact (hmet x hx.mem_keys hne hx hy hlink).1
      · -- there is no live edge, so nothing is missing
        have hnone : t.expected x y = none :=
          expected_of_link (Option.not_isSome_iff_eq_none.mp hlink)
        exact hg.keeps hx (e.trans hnone.symm)
  · intro x y hx hsome
    rw [hw.alive] at hx
    rw [hw.expected]
    obtain e | ⟨hne, _, hexp⟩ := hg.entry x y hx
    · rw [show (t.updateNeighbors a).entry x y = t.entry x y from e] at hsome
      exact h.stale x y hx hsome
    · exact ⟨hne, hexp⟩

/-! ### Removing a neighbour -/

/-- Lines have been written, and every entry that they changed is one of `a` that is gone. -/
structure Loses (a : Int) (t t' : TrawlerService δ) : Prop where
  world : World t t'
  entry : ∀ x y, t.Alive x → t'.entry x y = t.entry x y ∨ y = a ∧ t'.entry x y = none

namespace Loses

variable {a : Int}

theorem refl (t : TrawlerService δ) : Loses a t t := ⟨.refl t, fun _ _ _ => .inl rfl⟩

theorem trans {t₁ t₂ t₃ : TrawlerService δ} (h₁ : Loses a t₁ t₂) (h₂ : Loses a t₂ t₃) :
    Loses a t₁ t₃ := by
  refine ⟨h₁.world.trans h₂.world, ?_⟩
  intro x y hx
  obtain e | e := h₂.entry x y ((h₁.world.alive x).mpr hx)
  · rw [e]
    exact h₁.entry x y hx
  · exact .inr e

theorem of_ne (h : Loses a t t') {x y : Int} (hx : t.Alive x) (hy : y ≠ a) :
    t'.entry x y = t.entry x y :=
  (h.entry x y hx).resolve_right fun hc => hy hc.1

theorem keeps (h : Loses a t t') {x y : Int} (hx : t.Alive x) (e : t.entry x y = none) :
    t'.entry x y = none := by
  obtain e' | ⟨_, e'⟩ := h.entry x y hx
  · exact e'.trans e
  · exact e'

end Loses

theorem dropNeighbor_loses (hk : t.Keyed) (a k : Int) :
    Loses a t (dropNeighbor a t k) ∧
      (k ≠ a → t.Alive k → (t.topology.link k a).isSome = true →
        (dropNeighbor a t k).entry k a = none) := by
  unfold dropNeighbor
  cases hnode : t.getEmulatedNode k with
  | none =>
      exact ⟨.refl t, fun _ halive _ => absurd halive (not_alive_of_peer (peer_eq_none hnode))⟩
  | some node =>
      simp only [fishAddr_eq hk hnode]
      have hw := t.query_world k a
      split_ifs with hka hsend
      · exact ⟨.refl t, fun hne => absurd hka hne⟩
      · refine ⟨⟨hw.trans (writeLine_world _ _ _), ?_⟩, ?_⟩
        · intro x y hx
          rw [sendRemoveNeighbor, writeLine_entry k _ ((hw.alive x).mpr hx)]
          split_ifs with hxk
          · by_cases hy : y = a
            · exact .inr ⟨hy, if_pos hy⟩
            · exact .inl (if_neg hy)
          · exact .inl rfl
        · intro _ halive _
          rw [sendRemoveNeighbor, writeLine_entry k _ ((hw.alive k).mpr halive), if_pos rfl]
          exact if_pos rfl
      · refine ⟨⟨hw, fun _ _ _ => .inl rfl⟩, fun _ halive hlink => ?_⟩
        rw [← Topology.getLiveEdge_isSome] at hlink
        exact absurd ⟨hlink, (alive_iff hnode).mp halive⟩ hsend

theorem dropNeighbors_loses (hk : t.Keyed) (a : Int) (ks : List Int) :
    Loses a t (ks.foldl (dropNeighbor a) t) ∧
      ∀ k ∈ ks, k ≠ a → t.Alive k → (t.topology.link k a).isSome = true →
        (ks.foldl (dropNeighbor a) t).entry k a = none := by
  induction ks generalizing t with
  | nil => exact ⟨.refl t, fun k hmem => absurd hmem List.not_mem_nil⟩
  | cons k ks ih =>
      obtain ⟨h1, h1'⟩ := dropNeighbor_loses hk a k
      have hw := h1.world
      obtain ⟨h2, h2'⟩ := ih (hw.keyed hk)
      rw [List.foldl_cons]
      refine ⟨h1.trans h2, ?_⟩
      intro k' hk' hne halive hlink
      have halive' := (hw.alive k').mpr halive
      obtain rfl | hmem := List.mem_cons.mp hk'
      · exact h2.keeps halive' (h1' hne halive hlink)
      · exact h2' k' hmem hne halive' (by rw [hw.topology.link]; exact hlink)

/-- After the loop over all nodes no table holds `a`, if only tables with a live edge did. -/
theorem dropAll_entry (hk : t.Keyed) {a x : Int} (hx : t.Alive x)
    (hne : x ≠ a) (hstale : (t.entry x a).isSome = true → (t.topology.link x a).isSome = true) :
    (t.emulatedNodes.keys.foldl (dropNeighbor a) t).entry x a = none := by
  obtain ⟨h, hgone⟩ := dropNeighbors_loses hk a t.emulatedNodes.keys
  by_cases hlink : (t.topology.link x a).isSome = true
  · exact hgone x hx.mem_keys hne hx hlink
  · refine h.keeps hx ?_
    rw [← Option.not_isSome_iff_eq_none]
    exact fun hsome => hlink (hstale hsome)

/-! ### The steps -/

omit [Zero δ] in
theorem erase_peer_ne (t : TrawlerService δ) {k x : Int} (hx : x ≠ k) :
    ({ t with emulatedNodes := AList.erase k t.emulatedNodes } : TrawlerService δ).peer x =
      t.peer x := by
  unfold peer getEmulatedNode
  rw [AList.lookup_erase_ne hx]

omit [Zero δ] in
theorem erase_peer_self (t : TrawlerService δ) (k : Int) :
    ({ t with emulatedNodes := AList.erase k t.emulatedNodes } : TrawlerService δ).peer k = none := by
  unfold peer getEmulatedNode
  rw [AList.lookup_erase]
  rfl

omit [Zero δ] in
theorem Keyed.erase (h : t.Keyed) (k : Int) :
    ({ t with emulatedNodes := AList.erase k t.emulatedNodes } : TrawlerService δ).Keyed := by
  intro a n hn
  by_cases ha : a = k
  · rw [ha, t.erase_peer_self] at hn
    cases hn
  · rw [t.erase_peer_ne ha] at hn
    exact h a n hn

/-- The trawler with the node `n` at `a`. -/
def put (t : TrawlerService δ) (a : Int) (n : EmulatedNode δ) : TrawlerService δ :=
  { t with emulatedNodes := AList.insert a n t.emulatedNodes }

section put
variable {a : Int} {n : EmulatedNode δ}

omit [Zero δ] in
theorem put_getEmulatedNode_self : (t.put a n).getEmulatedNode a = some n := AList.lookup_insert _

omit [Zero δ] in
theorem put_getEmulatedNode_ne {x : Int} (hx : x ≠ a) :
    (t.put a n).getEmulatedNode x = t.getEmulatedNode x := AList.lookup_insert_ne hx

omit [Zero δ] in
theorem put_alive {x : Int} (hx : x ≠ a) : (t.put a n).Alive x ↔ t.Alive x := by
  unfold Alive peer
  rw [put_getEmulatedNode_ne hx]

omit [Zero δ] in
theorem put_entry {x : Int} (hx : x ≠ a) (y : Int) : (t.put a n).entry x y = t.entry x y := by
  unfold entry
  rw [put_getEmulatedNode_ne hx]

theorem put_expected (x : Int) {y : Int} (hy : y ≠ a) :
    (t.put a n).expected x y = t.expected x y := by
  unfold expected peer
  rw [put_getEmulatedNode_ne hy]
  rfl

omit [Zero δ] in
theorem Keyed.put (h : t.Keyed) (hn : n.fishAddr = a) : (t.put a n).Keyed := by
  intro x m hm
  by_cases hx : x = a
  · subst hx
    rw [peer_of_getEmulatedNode put_getEmulatedNode_self] at hm
    obtain rfl := Option.some.inj hm
    exact hn
  · unfold peer at hm
    rw [put_getEmulatedNode_ne hx] at hm
    exact h x m hm

end put

omit [Zero δ] in
theorem joined_cases {α : Type} (t : TrawlerService δ) (a b : Int)
    (tell : EmulatedNode δ → EmulatedNode δ → α) (otherwise : α) :
    (t.peer a = none ∨ t.peer b = none) ∧
        (match t.getEmulatedNode a, t.getEmulatedNode b with
          | some nA, some nB => tell nA nB
          | _, _ => otherwise) = otherwise ∨
      ∃ nA nB, t.getEmulatedNode a = some nA ∧ t.getEmulatedNode b = some nB ∧
        (match t.getEmulatedNode a, t.getEmulatedNode b with
          | some nA, some nB => tell nA nB
          | _, _ => otherwise) = tell nA nB := by
  cases ha : t.getEmulatedNode a with
  | none => exact .inl ⟨.inl (peer_eq_none ha), rfl⟩
  | some nA =>
      cases hb : t.getEmulatedNode b with
      | none => exact .inl ⟨.inr (peer_eq_none hb), rfl⟩
      | some nB => exact .inr ⟨nA, nB, rfl, rfl, rfl⟩

namespace Agrees

theorem entry_of_absent (h : t.Agrees) {x y : Int} (hx : t.Alive x) (hy : t.peer y = none) :
    t.entry x y = none := by
  rw [← Option.not_isSome_iff_eq_none]
  intro hsome
  have hpeer := (expected_isSome.mp (h.stale x y hx hsome).2).1
  rw [hy] at hpeer
  cases hpeer

/-- Once a node has left, what remains is to take it out of the tables. -/
theorem quitNode (h : t.Agrees) (k : Int) : (t.quitNode k).Agrees := by
  unfold TrawlerService.quitNode
  cases hn : t.getEmulatedNode k with
  | none => exact h
  | some n =>
      simp only
      split_ifs with halive
      · exact h
      · set t₁ : TrawlerService δ := { t with emulatedNodes := AList.erase k t.emulatedNodes } with ht₁
        have hpeer : ∀ x, x ≠ k → t₁.peer x = t.peer x := fun x hx => t.erase_peer_ne hx
        have hpeerk : t₁.peer k = none := t.erase_peer_self k
        have halive₁ : ∀ x, t₁.Alive x → x ≠ k ∧ t.Alive x := by
          rintro x ⟨m, hm, hma⟩
          have hx : x ≠ k := by
            rintro rfl
            rw [hpeerk] at hm
            cases hm
          rw [hpeer x hx] at hm
          exact ⟨hx, m, hm, hma⟩
        have hentry : ∀ x y, x ≠ k → t₁.entry x y = t.entry x y := by
          intro x y hx
          simp only [entry, getEmulatedNode, ht₁, AList.lookup_erase_ne hx]
        have hexp : ∀ x y, y ≠ k → t₁.expected x y = t.expected x y := by
          intro x y hy
          unfold expected
          rw [hpeer y hy]
        have hk₁ : t₁.Keyed := h.keyed.erase k
        obtain ⟨hl, _⟩ := dropNeighbors_loses hk₁ k t₁.emulatedNodes.keys
        have hw := hl.world
        refine ⟨hw.keyed hk₁, ?_, ?_⟩
        · intro x y hne hx hy
          obtain ⟨hxk, hx'⟩ := halive₁ x ((hw.alive x).mp hx)
          obtain ⟨hyk, hy'⟩ := halive₁ y ((hw.alive y).mp hy)
          rw [hl.of_ne ((hw.alive x).mp hx) hyk, hentry x y hxk, hw.expected, hexp x y hyk]
          exact h.agree x y hne hx' hy'
        · intro x y hx hsome
          have hx₁ := (hw.alive x).mp hx
          obtain ⟨hxk, hx'⟩ := halive₁ x hx₁
          by_cases hy : y = k
          · subst hy
            rw [dropAll_entry hk₁ hx₁ hxk] at hsome
            · cases hsome
            · intro hs
              rw [hentry x y hxk] at hs
              exact (expected_isSome.mp (h.stale x y hx' hs).2).2
          · rw [hl.of_ne hx₁ hy, hentry x y hxk] at hsome
            rw [hw.expected, hexp x y hy]
            exact h.stale x y hx' hsome

theorem checkNodesQuit (h : t.Agrees) : t.checkNodesQuit.Agrees := by
  unfold TrawlerService.checkNodesQuit
  induction t.emulatedNodes.keys generalizing t with
  | nil => exact h
  | cons k ks ih => exact ih (h.quitNode k)

/-- A lost connection: the tables of that node no longer matter, and it may be in others'. -/
theorem lost (h : t.Agrees) {a : Int} {n : EmulatedNode δ} (hn : t.getEmulatedNode a = some n) :
    (t.put a { n with alive := false }).Agrees := by
  have halive : ∀ x, (t.put a { n with alive := false }).Alive x → x ≠ a ∧ t.Alive x := by
    intro x hx
    have hxa : x ≠ a := by
      rintro rfl
      have hdead := (alive_iff put_getEmulatedNode_self).mp hx
      cases hdead
    exact ⟨hxa, (put_alive hxa).mp hx⟩
  -- the address of a node does not depend on its being alive
  have hexp : ∀ x y, (t.put a { n with alive := false }).expected x y = t.expected x y := by
    intro x y
    by_cases hy : y = a
    · subst hy
      unfold expected
      rw [peer_of_getEmulatedNode put_getEmulatedNode_self, peer_of_getEmulatedNode hn]
      rfl
    · exact put_expected x hy
  refine ⟨h.keyed.put (fishAddr_eq (n := n) h.keyed hn), ?_, ?_⟩
  · intro x y hne hx hy
    obtain ⟨hxa, hx'⟩ := halive x hx
    rw [put_entry hxa, hexp]
    exact h.agree x y hne hx' (halive y hy).2
  · intro x y hx hsome
    obtain ⟨hxa, hx'⟩ := halive x hx
    rw [put_entry hxa] at hsome
    rw [hexp]
    exact h.stale x y hx' hsome

theorem joined (h : t.Agrees) {a : Int} (hfree : t.getEmulatedNode a = none) (ipAddress : Str)
    (udpPort : Int) : AgreesBut a (t.put a (.new a ipAddress udpPort)) := by
  have hempty : ∀ y, (t.put a (.new a ipAddress udpPort)).entry a y = none := by
    intro y
    unfold entry
    rw [put_getEmulatedNode_self]
    rfl
  -- no table holds an address that nobody has
  have hnone : ∀ x, t.Alive x → t.entry x a = none :=
    fun x hx => h.entry_of_absent hx (peer_eq_none hfree)
  refine ⟨h.keyed.put rfl, ?_, ?_⟩
  · intro x y hne hx hy
    by_cases hxa : x = a
    · exact .inr ⟨.inl hxa, by rw [hxa]; exact hempty y⟩
    · rw [put_alive hxa] at hx
      by_cases hya : y = a
      · refine .inr ⟨.inr hya, ?_⟩
        rw [hya, put_entry hxa]
        exact hnone x hx
      · rw [put_entry hxa, put_expected x hya]
        exact .inl (h.agree x y hne hx ((put_alive hya).mp hy))
  · intro x y hx hsome
    by_cases hxa : x = a
    · rw [hxa, hempty] at hsome
      cases hsome
    · rw [put_alive hxa] at hx
      rw [put_entry hxa] at hsome
      by_cases hya : y = a
      · rw [hya, hnone x hx] at hsome
        cases hsome
      · rw [put_expected x hya]
        exact h.stale x y hx hsome

end Agrees

omit [Zero δ] in
theorem freeFishAddr_free (h : t.freeFishAddr ≠ -1) : t.getEmulatedNode t.freeFishAddr = none := by
  unfold freeFishAddr at h ⊢
  cases hf : ((List.range 255).map Int.ofNat).find? fun i => (t.getEmulatedNode i).isNone with
  | none =>
      rw [hf] at h
      exact absurd rfl h
  | some i => simpa using List.find?_some hf

namespace Agrees

theorem join (h : t.Agrees) (ipAddress portLine : Str) : (t.join ipAddress portLine).Agrees := by
  unfold TrawlerService.join
  cases stoi portLine with
  | none => exact h
  | some port =>
      simp only
      split_ifs with hport hfull
      · exact h
      · exact h
      · exact (h.joined (freeFishAddr_free hfull) ipAddress port).updateNeighbors

/-- Restarting a node can only add links of that node. -/
theorem restartNodeHook (h : t.Agrees) (a : Int) : (t.restartNodeHook a).Agrees := by
  have hexp : ∀ x y, t.expected x y =
        ({ t with topology := t.topology.restartNode a } : TrawlerService δ).expected x y ∨
      (x = a ∨ y = a) ∧ t.expected x y = none := by
    intro x y
    by_cases hside : x = a ∨ y = a
    · cases hlink : t.topology.link x y with
      | none => exact .inr ⟨hside, expected_of_link hlink⟩
      | some o =>
          refine .inl ?_
          unfold expected
          rw [hlink, Topology.restartNode_link_of_some hlink]
          rfl
    · rw [not_or] at hside
      refine .inl ?_
      unfold expected
      rw [Topology.restartNode_link_of_ne hside.1 hside.2]
      rfl
  refine AgreesBut.updateNeighbors ⟨h.keyed, ?_, ?_⟩
  · intro x y hne hx hy
    have e := h.agree x y hne hx hy
    obtain e' | ⟨hside, e'⟩ := hexp x y
    · exact .inl (e.trans e')
    · exact .inr ⟨hside, e.trans e'⟩
  · intro x y hx hsome
    obtain ⟨hne, hs⟩ := h.stale x y hx hsome
    refine ⟨hne, ?_⟩
    obtain e' | ⟨_, e'⟩ := hexp x y
    · rw [← e']
      exact hs
    · rw [e'] at hs
      cases hs

/-- A node that fails empties its table and leaves those of the others; the rest is as before. -/
theorem failNode_entry (h : t.Agrees) (a : Int) :
    World t (t.failNode a) ∧
      (∀ x y, t.Alive x → x ≠ a → y ≠ a → (t.failNode a).entry x y = t.entry x y) ∧
      ∀ x y, t.Alive x → x = a ∨ y = a → (t.failNode a).entry x y = none := by
  unfold TrawlerService.failNode
  cases hn : t.getEmulatedNode a with
  | none =>
      have hpeer := peer_eq_none hn
      refine ⟨.refl t, fun _ _ _ _ _ => rfl, ?_⟩
      intro x y hx hside
      obtain rfl | rfl := hside
      · exact absurd hx (not_alive_of_peer hpeer)
      · exact h.entry_of_absent hx hpeer
  | some n =>
      have hw : World t (t.sendReset a) := t.writeLine_world a .reset
      have hk := hw.keyed h.keyed
      obtain ⟨hl, _⟩ := dropNeighbors_loses hk a (t.sendReset a).emulatedNodes.keys
      have hreset : ∀ x y, t.Alive x → (t.sendReset a).entry x y =
          if x = a then none else t.entry x y := fun x y hx => writeLine_entry a .reset hx y
      refine ⟨hw.trans hl.world, ?_, ?_⟩
      · intro x y hx hxa hya
        rw [show ((t.sendReset a).removeAsNeighbor a).entry x y = (t.sendReset a).entry x y from
          hl.of_ne ((hw.alive x).mpr hx) hya, hreset x y hx, if_neg hxa]
      · intro x y hx hside
        by_cases hxa : x = a
        · refine hl.keeps ((hw.alive x).mpr hx) ?_
          rw [hreset x y hx, if_pos hxa]
        · obtain rfl : y = a := hside.resolve_left hxa
          refine dropAll_entry hk ((hw.alive x).mpr hx) hxa ?_
          intro hsome
          rw [hreset x y hx, if_neg hxa] at hsome
          rw [hw.topology.link]
          exact (expected_isSome.mp (h.stale x y hx hsome).2).2

theorem failNodeHook (h : t.Agrees) (a : Int) : (t.failNodeHook a).Agrees := by
  obtain ⟨hw, hother, hgone⟩ := h.failNode_entry a
  have hexp : ∀ x y, x ≠ a → y ≠ a → (t.failNodeHook a).expected x y = t.expected x y := by
    intro x y hx hy
    rw [← hw.expected]
    unfold expected
    rw [show (t.failNodeHook a).topology.link x y = (t.failNode a).topology.link x y from
      Topology.failNode_link_of_ne hx hy]
    rfl
  have hexpa : ∀ x y, x = a ∨ y = a → (t.failNodeHook a).expected x y = none := by
    intro x y hside
    exact expected_of_link (Topology.failNode_link_of_eq hside)
  have halive : ∀ x, (t.failNodeHook a).Alive x → t.Alive x := fun x hx => (hw.alive x).mp hx
  refine ⟨hw.keyed h.keyed, ?_, ?_⟩
  · intro x y hne hx hy
    show (t.failNode a).entry x y = _
    by_cases hside : x = a ∨ y = a
    · rw [hgone x y (halive x hx) hside, hexpa x y hside]
    · rw [not_or] at hside
      rw [hother x y (halive x hx) hside.1 hside.2, hexp x y hside.1 hside.2]
      exact h.agree x y hne (halive x hx) (halive y hy)
  · intro x y hx hsome
    change ((t.failNode a).entry x y).isSome = true at hsome
    by_cases hside : x = a ∨ y = a
    · rw [hgone x y (halive x hx) hside] at hsome
      cases hsome
    · rw [not_or] at hside
      rw [hother x y (halive x hx) hside.1 hside.2] at hsome
      rw [hexp x y hside.1 hside.2]
      exact h.stale x y (halive x hx) hsome

/-- A change of the edge between `a` and `b` and of their entries in each other's tables. -/
theorem of_pair (h : t.Agrees) {a b : Int} (hab : a ≠ b) (hpeer : ∀ x, t'.peer x = t.peer x)
    (hlink : ∀ x y, s(a, b) ≠ s(x, y) → t'.topology.link x y = t.topology.link x y)
    (hentry : ∀ x y, t.Alive x → s(a, b) ≠ s(x, y) → t'.entry x y = t.entry x y)
    (hpair : ∀ x y, s(a, b) = s(x, y) → t.Alive x →
      (t.Alive y → t'.entry x y = t'.expected x y) ∧
        ((t'.entry x y).isSome = true → (t'.expected x y).isSome = true)) : t'.Agrees := by
  have halive : ∀ x, t'.Alive x → t.Alive x := by
    intro x hx
    unfold Alive at hx ⊢
    rwa [hpeer] at hx
  have hexp : ∀ x y, s(a, b) ≠ s(x, y) → t'.expected x y = t.expected x y := by
    intro x y hne
    unfold expected
    rw [hpeer, hlink x y hne]
  refine ⟨?_, ?_, ?_⟩
  · intro x n hn
    rw [hpeer] at hn
    exact h.keyed x n hn
  · intro x y hne hx hy
    by_cases hs : s(a, b) = s(x, y)
    · exact (hpair x y hs (halive x hx)).1 (halive y hy)
    · rw [hentry x y (halive x hx) hs, hexp x y hs]
      exact h.agree x y hne (halive x hx) (halive y hy)
  · intro x y hx hsome
    by_cases hs : s(a, b) = s(x, y)
    · refine ⟨?_, (hpair x y hs (halive x hx)).2 hsome⟩
      rintro rfl
      obtain ⟨rfl, rfl⟩ | ⟨rfl, rfl⟩ := Sym2.eq_iff.mp hs
      · exact hab rfl
      · exact hab rfl
    · rw [hentry x y (halive x hx) hs] at hsome
      rw [hexp x y hs]
      exact h.stale x y (halive x hx) hsome

/-- Nothing is written when one of the two nodes has not joined, and nothing needs to be. -/
theorem of_pair_apart (h : t.Agrees) {a b : Int} (hab : a ≠ b) (hpeer : ∀ x, t'.peer x = t.peer x)
    (hlink : ∀ x y, s(a, b) ≠ s(x, y) → t'.topology.link x y = t.topology.link x y)
    (hentry : ∀ x y, t.Alive x → t'.entry x y = t.entry x y)
    (hapart : t.peer a = none ∨ t.peer b = none) : t'.Agrees := by
  refine h.of_pair hab hpeer hlink (fun x y hx _ => hentry x y hx) ?_
  intro x y hs hx
  -- `x` has joined, so `y` has not
  have hy : t.peer y = none := by
    obtain ⟨rfl, rfl⟩ | ⟨rfl, rfl⟩ := Sym2.eq_iff.mp hs
    · exact hapart.resolve_left fun e => not_alive_of_peer e hx
    · exact hapart.resolve_right fun e => not_alive_of_peer e hx
  refine ⟨fun halive => absurd halive (not_alive_of_peer hy), fun hsome => ?_⟩
  rw [hentry x y hx, h.entry_of_absent hx hy] at hsome
  cases hsome

theorem startEdge (h : t.Agrees) {a b : Int} (hab : a ≠ b) {topology : Topology δ}
    (hlink : ∀ x y, s(a, b) ≠ s(x, y) → topology.link x y = t.topology.link x y)
    (hup : t.BothJoined a b → (topology.link a b).isSome = true) :
    (({ t with topology := topology } : TrawlerService δ).startEdge a b).Agrees := by
  set t₁ : TrawlerService δ := { t with topology := topology } with ht₁
  unfold TrawlerService.startEdge
  rcases t₁.joined_cases a b (fun nA nB => (t₁.sendAddNeighbor a nB).sendAddNeighbor b nA) t₁ with
    ⟨hapart, e⟩ | ⟨nA, nB, ha, hb, e⟩
  · rw [e]
    exact h.of_pair_apart hab (fun _ => rfl) hlink (fun _ _ _ => rfl) hapart
  · rw [e]
    have hjoined : t.BothJoined a b :=
      ⟨Option.isSome_of_mem (show nA ∈ t.getEmulatedNode a from ha),
        Option.isSome_of_mem (show nB ∈ t.getEmulatedNode b from hb)⟩
    obtain ⟨hg, hga, hgb⟩ := greet_gains (t := t₁) h.keyed hab (peer_of_getEmulatedNode ha)
      (peer_of_getEmulatedNode hb) (hup hjoined)
    have hw := hg.world
    refine h.of_pair hab hw.peer (fun x y hs => (hw.topology.link x y).trans (hlink x y hs)) ?_ ?_
    · intro x y hx hs
      have hw₁ := t₁.sendAddNeighbor_world a nB
      rw [sendAddNeighbor_entry (hw₁.keyed h.keyed) b nA ((hw₁.alive x).mpr hx), if_neg,
        sendAddNeighbor_entry (t := t₁) h.keyed a nB hx, if_neg]
      · rfl
      · rintro ⟨rfl, rfl⟩
        rw [fishAddr_eq (t := t₁) h.keyed hb] at hs
        exact hs rfl
      · rintro ⟨rfl, rfl⟩
        rw [fishAddr_eq (t := t₁) h.keyed ha] at hs
        exact hs Sym2.eq_swap
    · intro x y hs hx
      have hright : ((t₁.sendAddNeighbor a nB).sendAddNeighbor b nA).entry x y =
          t₁.expected x y := by
        obtain ⟨rfl, rfl⟩ | ⟨rfl, rfl⟩ := Sym2.eq_iff.mp hs
        · exact hga hx
        · exact hgb hx
      rw [hright, hw.expected]
      exact ⟨fun _ => rfl, id⟩

theorem createNewEdge (h : t.Agrees) {a b : Int} {opts : EdgeOptions δ}
    (hop : t.Allowed (.edge a b opts)) : (t.createNewEdge a b opts).Agrees := by
  refine h.startEdge hop.1 (fun x y hs => Topology.newEdge_link_ne hs opts) ?_
  intro hjoined
  obtain ⟨hup, ha, hb⟩ := hop.2 hjoined
  rw [Topology.newEdge_link_self opts hup ha hb]
  rfl

theorem of_world (h : t.Agrees) (hw : World t t') (hentry : ∀ x y, t'.entry x y = t.entry x y) :
    t'.Agrees := by
  refine ⟨hw.keyed h.keyed, ?_, ?_⟩
  · intro x y hne hx hy
    rw [hentry, hw.expected]
    exact h.agree x y hne ((hw.alive x).mp hx) ((hw.alive y).mp hy)
  · intro x y hx hsome
    rw [hentry] at hsome
    rw [hw.expected]
    exact h.stale x y ((hw.alive x).mp hx) hsome

theorem restartEdgeHook (h : t.Agrees) {a b : Int} (hop : t.Allowed (.restartEdge a b)) :
    (t.restartEdgeHook a b).Agrees := by
  have hok : (t.topology.restartEdge a b).2 = (t.topology.find a b).isSome :=
    (t.topology.changeEdge_spec a b true).2.1
  unfold TrawlerService.restartEdgeHook
  simp only
  cases hsome : (t.topology.find a b).isSome with
  | true =>
      rw [if_pos (hok.trans hsome)]
      refine h.startEdge hop.1 (fun x y hs => Topology.changeEdge_link_ne hs true) ?_
      intro hjoined
      obtain ⟨ha, hb⟩ := hop.2 hjoined hsome
      exact Topology.restartEdge_link_self hsome ha hb
  | false =>
      rw [if_neg (by rw [hok, hsome]; decide)]
      exact h.of_world ⟨Topology.changeEdge_same hsome true, fun _ => rfl⟩ fun _ _ => rfl

theorem failEdgeHook (h : t.Agrees) {a b : Int} (hab : a ≠ b) : (t.failEdgeHook a b).Agrees := by
  have hok : (t.topology.failEdge a b).2 = (t.topology.find a b).isSome :=
    (t.topology.changeEdge_spec a b false).2.1
  unfold TrawlerService.failEdgeHook
  simp only
  cases hsome : (t.topology.find a b).isSome with
  | false =>
      rw [if_neg (by rw [hok, hsome]; decide)]
      exact h.of_world ⟨Topology.changeEdge_same hsome false, fun _ => rfl⟩ fun _ _ => rfl
  | true =>
      rw [if_pos (hok.trans hsome)]
      set t₁ : TrawlerService δ := { t with topology := (t.topology.failEdge a b).1 } with ht₁
      have hlink : ∀ x y, s(a, b) ≠ s(x, y) → t₁.topology.link x y = t.topology.link x y :=
        fun x y hs => Topology.changeEdge_link_ne hs false
      unfold TrawlerService.failEdge
      rcases t₁.joined_cases a b
        (fun _ _ => (t₁.sendRemoveNeighbor a b).sendRemoveNeighbor b a) t₁ with
        ⟨hapart, e⟩ | ⟨_, _, _, _, e⟩
      · rw [e]
        exact h.of_pair_apart hab (fun _ => rfl) hlink (fun _ _ _ => rfl) hapart
      · rw [e]
        have hw₁ : World t₁ (t₁.sendRemoveNeighbor a b) := writeLine_world _ _ _
        have hw : World t₁ ((t₁.sendRemoveNeighbor a b).sendRemoveNeighbor b a) :=
          hw₁.trans (writeLine_world _ _ _)
        have hentry : ∀ x y, t.Alive x →
            ((t₁.sendRemoveNeighbor a b).sendRemoveNeighbor b a).entry x y =
              if s(a, b) = s(x, y) then none else t.entry x y := by
          intro x y hx
          rw [sendRemoveNeighbor, writeLine_entry b _ ((hw₁.alive x).mpr hx), sendRemoveNeighbor,
            writeLine_entry (t := t₁) a _ hx, show t₁.entry x y = t.entry x y from rfl]
          simp only [ArpCommand.after, Sym2.eq_iff]
          grind
        refine h.of_pair hab hw.peer (fun x y hs => (hw.topology.link x y).trans (hlink x y hs))
          (fun x y hx hs => (hentry x y hx).trans (if_neg hs)) ?_
        intro x y hs hx
        rw [show ((t₁.sendRemoveNeighbor a b).sendRemoveNeighbor b a).entry x y = none from
          (hentry x y hx).trans (if_pos hs)]
        refine ⟨fun _ => ?_, fun hc => by cases hc⟩
        have hnone : t₁.topology.link x y = none := by
          obtain ⟨rfl, rfl⟩ | ⟨rfl, rfl⟩ := Sym2.eq_iff.mp hs
          · exact Topology.failEdge_link_self _ _ _
          · rw [Topology.link_comm]
            exact Topology.failEdge_link_self _ _ _
        rw [hw.expected, expected_of_link hnone]

/-- One step. -/
theorem step (h : t.Agrees) {e : TrawlerEvent δ} (he : t.Allowed e) : (t.step e).Agrees := by
  cases e with
  | join ipAddress portLine => exact h.join ipAddress portLine
  | lost a =>
      unfold TrawlerService.step
      simp only
      cases hn : t.getEmulatedNode a with
      | none => exact h
      | some n => exact h.lost hn
  | checkNodesQuit => exact h.checkNodesQuit
  | edge a b opts => exact h.createNewEdge he
  | failEdge a b => exact h.failEdgeHook he
  | failNode a => exact h.failNodeHook a
  | restartEdge a b => exact h.restartEdgeHook he
  | restartNode a => exact h.restartNodeHook a

theorem new (allToAll : Bool) : (TrawlerService.new allToAll : TrawlerService δ).Agrees := by
  have hnone : ∀ a, (TrawlerService.new allToAll : TrawlerService δ).peer a = none := fun _ => rfl
  refine ⟨?_, ?_, ?_⟩
  · intro a n hn
    rw [hnone] at hn
    cases hn
  · intro x y _ hx
    exact absurd hx (not_alive_of_peer (hnone x))
  · intro x y hx
    exact absurd hx (not_alive_of_peer (hnone x))

end Agrees

theorem agrees_run (allToAll : Bool) {es : List (TrawlerEvent δ)}
    (hes : Guarded TrawlerService.step TrawlerService.Allowed (.new allToAll) es) :
    (run TrawlerService.step (.new allToAll) es).Agrees :=
  guarded_induction (fun _ _ h he => h.step he) (.new allToAll) hes

theorem quitNode_dead (hk : t.Keyed) {k a : Int} {n : EmulatedNode δ}
    (hn : n ∈ (t.quitNode k).peer a) (hdead : n.alive = false) : n ∈ t.peer a ∧ a ≠ k := by
  unfold quitNode at hn
  cases hnode : t.getEmulatedNode k with
  | none =>
      rw [hnode] at hn
      refine ⟨hn, ?_⟩
      rintro rfl
      simp only [peer, hnode] at hn
      cases hn
  | some node =>
      rw [hnode] at hn
      simp only at hn
      split_ifs at hn with halive
      · refine ⟨hn, ?_⟩
        rintro rfl
        rw [peer_of_getEmulatedNode hnode] at hn
        obtain rfl := Option.some.inj hn
        rw [show node.alive = false from hdead] at halive
        cases halive
      · rw [(dropNeighbors_loses (hk.erase k) k _).1.world.peer] at hn
        by_cases ha : a = k
        · rw [ha, t.erase_peer_self] at hn
          cases hn
        · rw [t.erase_peer_ne ha] at hn
          exact ⟨hn, ha⟩

/-- After `checkNodesQuit` every registered node is alive. -/
theorem checkNodesQuit_alive (h : t.Agrees) {a : Int} {n : EmulatedNode δ}
    (hn : n ∈ t.checkNodesQuit.peer a) : n.alive = true := by
  have hrounds : ∀ (ks : List Int) (t : TrawlerService δ), t.Agrees →
      n ∈ (ks.foldl quitNode t).peer a → n.alive = false → n ∈ t.peer a ∧ a ∉ ks := by
    intro ks
    induction ks with
    | nil => exact fun t _ hn _ => ⟨hn, List.not_mem_nil⟩
    | cons k ks ih =>
        intro t h hn hdead
        obtain ⟨hmem, hks⟩ := ih (t.quitNode k) (h.quitNode k) hn hdead
        obtain ⟨hmem', hne⟩ := quitNode_dead h.keyed hmem hdead
        exact ⟨hmem', List.not_mem_cons_of_ne_of_not_mem hne hks⟩
  by_contra hdead
  rw [Bool.not_eq_true] at hdead
  obtain ⟨hmem, hkeys⟩ := hrounds t.emulatedNodes.keys t h hn hdead
  exact hkeys (mem_keys_of_peer hmem)

/-- **The tables agree with the topology.**  In every run whose steps meet `Allowed`, the table of
each node holds exactly the other nodes to which it has a live edge, at their addresses and with
the options of the edge.  (A node whose connection is lost counts until `checkNodesQuit` finds
out; after it all registered nodes are alive.) -/
theorem tables_agree (allToAll : Bool) (es : List (TrawlerEvent δ))
    (hes : Guarded TrawlerService.step TrawlerService.Allowed (.new allToAll) es) :
    let t := run TrawlerService.step (.new allToAll) es
    (∀ a b nA nB, a ≠ b → t.getEmulatedNode a = some nA → nA.alive = true →
      t.getEmulatedNode b = some nB → nB.alive = true →
        AList.lookup b nA.neighbours = (t.topology.getLiveEdge a b).2.map fun i =>
          ⟨nB.ipAddress, nB.udpPort, some (.new ((t.topology.getLiveEdge a b).1.edge i).options)⟩) ∧
    ∀ a n, t.checkNodesQuit.getEmulatedNode a = some n → n.alive = true := by
  intro t
  have h : t.Agrees := agrees_run allToAll hes
  constructor
  · intro a b nA nB hab ha hA hb hB
    have e := h.agree a b hab ((alive_iff ha).mpr hA) ((alive_iff hb).mpr hB)
    rw [entry, ha, Option.bind_some] at e
    rw [e, expected, peer_of_getEmulatedNode hb, Option.bind_some,
      ← (t.topology.getLiveEdge_spec a b).2, Option.map_map]
    rfl
  · intro a n hn
    exact checkNodesQuit_alive (n := { n with written := [] }) h (peer_of_getEmulatedNode hn)

/-- Two nodes join; their edge is declared, fails and is restarted. -/
def restartedEdge : List (TrawlerEvent ℕ) :=
  [.join "10.0.0.1".toList "5000".toList, .join "10.0.0.2".toList "5000".toList,
    .edge 0 1 ⟨0, 20, 9000, 100⟩, .failEdge 0 1, .restartEdge 0 1]

theorem tables_agree_restarted_edge :
    let t := run TrawlerService.step (.new false) restartedEdge
    ∃ nA nB, t.getEmulatedNode 0 = some nA ∧ t.getEmulatedNode 1 = some nB ∧
      AList.lookup 1 nA.neighbours = some ⟨nB.ipAddress, nB.udpPort,
        some (.new ⟨0, 20, 9000, 100⟩)⟩ := by
  intro t
  have ha : (t.getEmulatedNode 0).isSome = true := by decide
  have hb : (t.getEmulatedNode 1).isSome = true := by decide
  have hA : ((t.getEmulatedNode 0).get ha).alive = true := rfl
  have hB : ((t.getEmulatedNode 1).get hb).alive = true := rfl
  refine ⟨_, _, (Option.some_get ha).symm, (Option.some_get hb).symm, ?_⟩
  rw [(tables_agree false restartedEdge (by decide)).1 0 1 _ _ (by decide) (Option.some_get ha).symm
    hA (Option.some_get hb).symm hB]
  rfl

/-- Two nodes have joined and have an edge. -/
def linkedNodes : List (TrawlerEvent ℕ) :=
  [.join "10.0.0.1".toList "5000".toList, .join "10.0.0.2".toList "5000".toList, .edge 0 1 .new]

/-- A failed edge that is declared again puts the nodes into each other's tables, and so does the
restart of an edge of a failed node. -/
theorem started_edge_not_live :
    (let t := run TrawlerService.step (.new false) (linkedNodes ++ [.failEdge 0 1, .edge 0 1 .new])
     (t.topology.getLiveEdge 0 1).2 = none ∧ (t.entry 0 1).isSome = true ∧
       (t.entry 1 0).isSome = true) ∧
    (let t := run TrawlerService.step (.new false) (linkedNodes ++ [.failNode 1, .restartEdge 0 1])
     (t.topology.getLiveEdge 0 1).2 = none ∧ (t.entry 0 1).isSome = true ∧
       (t.entry 1 0).isSome = true) := by
  decide

end TrawlerService

end NetBridge
