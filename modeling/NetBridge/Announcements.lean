import NetBridge.Handshakes

/-! # What the trawler has written

The lines on the connection of a node are only ever added to, until the connection is dropped
(`Onward`), and each of them is one that the node can read (`Proper`): the addresses are those that
the trawler gives out, and the options of an edge have the types of the source.  `Proper.step` says
so of every event; where the text of the lines matters, no other module has to look at what the
trawler does. -/

namespace NetBridge

variable {δ : Type}

/-- The values that the types of the source allow. -/
def EdgeOptions.Typed (o : EdgeOptions δ) : Prop :=
  InInt64 o.delayMs ∧ InInt32 o.bwBytesPerSec ∧ InInt64 o.bufferingMs

instance (o : EdgeOptions δ) : Decidable o.Typed := inferInstanceAs (Decidable (_ ∧ _))

theorem EdgeOptions.typed_new [Zero δ] : (.new : EdgeOptions δ).Typed :=
  ⟨(by decide : InInt64 1), (by decide : InInt32 10000), (by decide : InInt64 250)⟩

/-! ### Options of edges -/

namespace Topology

/-- Every edge has typed options. -/
def Typed (t : Topology δ) : Prop := ∀ e ∈ t.edges, e.options.Typed

namespace Typed

variable [Zero δ] {t : Topology δ}

omit [Zero δ] in
theorem append (h : t.Typed) (a b : Int) {o : EdgeOptions δ} (ho : o.Typed) :
    ({ t with edges := t.edges ++ [.new a b o] } : Topology δ).Typed := by
  intro e he
  obtain he | he := List.mem_append.mp he
  · exact h e he
  · obtain rfl := List.mem_singleton.mp he
    exact ho

theorem getEdge (h : t.Typed) (a b : Int) : (t.getEdge a b).1.Typed := by
  unfold Topology.getEdge
  split
  · exact h
  · split_ifs
    · exact h.append a b EdgeOptions.typed_new
    · exact h

theorem getLiveEdge (h : t.Typed) (a b : Int) : (t.getLiveEdge a b).1.Typed := by
  have hgot := h.getEdge a b
  unfold Topology.getLiveEdge
  generalize t.getEdge a b = r at hgot
  obtain ⟨t', _ | i⟩ := r
  · exact hgot
  · simp only
    split_ifs <;> exact hgot

omit [Zero δ] in
theorem modifyEdge (h : t.Typed) (i : EdgeId) {f : Edge δ → Edge δ}
    (hf : ∀ e : Edge δ, e.options.Typed → (f e).options.Typed) : (t.modifyEdge i f).Typed := by
  intro e he
  obtain ⟨j, hj, rfl⟩ := List.getElem_of_mem (show e ∈ t.edges.modify i f from he)
  rw [List.getElem_modify]
  rw [List.length_modify] at hj
  split_ifs
  · exact hf _ (h _ (List.getElem_mem hj))
  · exact h _ (List.getElem_mem hj)

theorem newEdge (h : t.Typed) (a b : Int) {o : EdgeOptions δ} (ho : o.Typed) :
    (t.newEdge a b o).Typed := by
  have hgot := h.getEdge a b
  unfold Topology.newEdge
  generalize t.getEdge a b = r at hgot
  obtain ⟨t', _ | i⟩ := r
  · exact append hgot a b ho
  · exact modifyEdge hgot i fun _ _ => ho

theorem changeEdge (h : t.Typed) (a b : Int) (state : Bool) : (t.changeEdge a b state).1.Typed := by
  have hgot := h.getEdge a b
  unfold Topology.changeEdge
  generalize t.getEdge a b = r at hgot
  obtain ⟨t', _ | i⟩ := r
  · exact hgot
  · exact modifyEdge hgot i fun _ he => he

theorem edge (h : t.Typed) (i : EdgeId) : (t.edge i).options.Typed := by
  unfold Topology.edge
  rw [List.getD_eq_getElem?_getD]
  cases hi : t.edges[i]? with
  | none => exact EdgeOptions.typed_new
  | some e => exact h e (List.mem_of_getElem? hi)

end Typed

end Topology

/-! ### Lines that can be read -/

theorem inInt32_of_stoi {s : Str} {v : Int} (h : stoi s = some v) : InInt32 v := by
  obtain ⟨w, -, hw⟩ := Option.bind_eq_some_iff.mp h
  split_ifs at hw with hrange
  obtain rfl := Option.some.inj hw
  exact hrange

theorem inInt64_of_stoll {s : Str} {v : Int} (h : stoll s = some v) : InInt64 v := by
  obtain ⟨w, -, hw⟩ := Option.bind_eq_some_iff.mp h
  split_ifs at hw with hrange
  obtain rfl := Option.some.inj hw
  exact hrange

/-- The text holds no space and no line end, as no IP address does. -/
def Plain (s : Str) : Prop := ∀ c ∈ [' ', '\r', '\n'], c ∉ s

instance (s : Str) : Decidable (Plain s) := List.decidableBAll _ _

/-- The node has an address that a line can name, and every line written to it can be read. -/
structure EmulatedNode.Proper (a : Int) (n : EmulatedNode δ) : Prop where
  fishAddr : n.fishAddr = a
  address : Packet.validAddress a = true
  udpPort : InInt32 n.udpPort
  ipAddress : Plain n.ipAddress
  written : ∀ c ∈ n.written, c.WellFormed

/-- What comes from outside has the types of the source, and addresses are as `inet_ntop` prints
them. -/
def TrawlerEvent.Typed : TrawlerEvent δ → Prop
  | .join ipAddress _ => Plain ipAddress
  | .edge _ _ opts => opts.Typed
  | _ => True

instance : ∀ e : TrawlerEvent δ, Decidable e.Typed
  | .join ipAddress _ => inferInstanceAs (Decidable (Plain ipAddress))
  | .edge _ _ opts => inferInstanceAs (Decidable opts.Typed)
  | .lost _ | .checkNodesQuit | .failEdge .. | .failNode _ | .restartEdge .. | .restartNode _ =>
      inferInstanceAs (Decidable True)

namespace TrawlerService

structure Proper (t : TrawlerService δ) : Prop where
  nodes : ∀ a n, t.getEmulatedNode a = some n → n.Proper a
  topology : t.topology.Typed

/-- From `t` to `t'` lines have been written and nodes may have been dropped. -/
structure Onward (t t' : TrawlerService δ) : Prop where
  proper : t'.Proper
  written : ∀ a n', t'.getEmulatedNode a = some n' →
    ∃ n, t.getEmulatedNode a = some n ∧ n.written <+: n'.written

variable [Zero δ] {t t' : TrawlerService δ}

omit [Zero δ] in
theorem Onward.refl (h : t.Proper) : Onward t t :=
  ⟨h, fun _ n' hn => ⟨n', hn, List.prefix_rfl⟩⟩

omit [Zero δ] in
theorem Onward.trans {t₁ t₂ t₃ : TrawlerService δ} (h₁ : Onward t₁ t₂) (h₂ : Onward t₂ t₃) :
    Onward t₁ t₃ := by
  refine ⟨h₂.proper, ?_⟩
  intro a n₃ hn₃
  obtain ⟨n₂, hn₂, hp₂⟩ := h₂.written a n₃ hn₃
  obtain ⟨n₁, hn₁, hp₁⟩ := h₁.written a n₂ hn₂
  exact ⟨n₁, hn₁, hp₁.trans hp₂⟩

namespace Proper

omit [Zero δ] in
theorem foldl {f : TrawlerService δ → Int → TrawlerService δ}
    (hf : ∀ t k, t.Proper → Onward t (f t k)) (h : t.Proper) (ks : List Int) :
    Onward t (ks.foldl f t) := by
  induction ks generalizing t with
  | nil => exact .refl h
  | cons k ks ih => exact (hf t k h).trans (ih (hf t k h).proper)

omit [Zero δ] in
theorem setTopology (h : t.Proper) {topology : Topology δ} (ht : topology.Typed) :
    Onward t { t with topology := topology } :=
  ⟨⟨h.nodes, ht⟩, fun _ n' hn => ⟨n', hn, List.prefix_rfl⟩⟩

omit [Zero δ] in
/-- The node at `a` is replaced by one to which the same or more has been written. -/
theorem put (h : t.Proper) {a : Int} {n n' : EmulatedNode δ} (hn : t.getEmulatedNode a = some n)
    (hproper : n'.Proper a) (hwritten : n.written <+: n'.written) : Onward t (t.put a n') := by
  refine ⟨⟨?_, h.topology⟩, ?_⟩
  · intro b m hm
    by_cases hb : b = a
    · subst hb
      rw [put_getEmulatedNode_self] at hm
      obtain rfl := Option.some.inj hm
      exact hproper
    · rw [put_getEmulatedNode_ne hb] at hm
      exact h.nodes b m hm
  · intro b m hm
    by_cases hb : b = a
    · subst hb
      rw [put_getEmulatedNode_self] at hm
      obtain rfl := Option.some.inj hm
      exact ⟨n, hn, hwritten⟩
    · rw [put_getEmulatedNode_ne hb] at hm
      exact ⟨m, hm, List.prefix_rfl⟩

omit [Zero δ] in
theorem writeLine (h : t.Proper) (a : Int) {c : ArpCommand δ} (hc : c.WellFormed) :
    Onward t (t.writeLine a c) := by
  unfold TrawlerService.writeLine
  cases hn : t.getEmulatedNode a with
  | none => exact .refl h
  | some n =>
      simp only
      split_ifs
      · have hproper := h.nodes a n hn
        refine h.put hn ⟨hproper.fishAddr, hproper.address, hproper.udpPort, hproper.ipAddress, ?_⟩
          (List.prefix_append _ _)
        intro c' hc'
        obtain hc' | hc' := List.mem_append.mp hc'
        · exact hproper.written c' hc'
        · obtain rfl := List.mem_singleton.mp hc'
          exact hc
      · exact .refl h

theorem sendAddNeighbor (h : t.Proper) (a : Int) {b : Int} {p : EmulatedNode δ}
    (hp : p.Proper b) : Onward t (t.sendAddNeighbor a p) := by
  unfold TrawlerService.sendAddNeighbor
  cases hn : t.getEmulatedNode a with
  | none => exact .refl h
  | some n =>
      have htyped := h.topology.getLiveEdge n.fishAddr p.fishAddr
      simp only
      refine (h.setTopology htyped).trans ((h.setTopology htyped).proper.writeLine a ?_)
      refine ⟨hp.fishAddr ▸ hp.address, hp.udpPort, hp.ipAddress, ?_⟩
      intro o ho
      obtain ⟨i, -, rfl⟩ := Option.mem_map.mp ho
      exact htyped.edge i

/-! ### The service -/

theorem startEdge (h : t.Proper) (a b : Int) : Onward t (t.startEdge a b) := by
  unfold TrawlerService.startEdge
  split
  · next nA nB hA hB =>
      have hfirst := h.sendAddNeighbor a (h.nodes b nB hB)
      exact hfirst.trans (hfirst.proper.sendAddNeighbor b (h.nodes a nA hA))
  · exact .refl h

omit [Zero δ] in
theorem failEdge (h : t.Proper) (a b : Int) : Onward t (t.failEdge a b) := by
  unfold TrawlerService.failEdge
  split
  · next nA nB hA hB =>
      have hfirst := h.writeLine a (c := .remove b) (h.nodes b nB hB).address
      exact hfirst.trans (hfirst.proper.writeLine b (h.nodes a nA hA).address)
  · exact .refl h

theorem dropNeighbor {dyingAddr : Int} (hvalid : Packet.validAddress dyingAddr = true)
    (t : TrawlerService δ) (k : Int) (h : t.Proper) : Onward t (dropNeighbor dyingAddr t k) := by
  unfold TrawlerService.dropNeighbor
  cases t.getEmulatedNode k with
  | none => exact .refl h
  | some node =>
      have hquery := h.setTopology (h.topology.getLiveEdge node.fishAddr dyingAddr)
      simp only
      split_ifs
      · exact .refl h
      · exact hquery.trans (hquery.proper.writeLine k hvalid)
      · exact hquery

theorem failNode (h : t.Proper) (a : Int) : Onward t (t.failNode a) := by
  unfold TrawlerService.failNode
  cases hn : t.getEmulatedNode a with
  | none => exact .refl h
  | some n =>
      have hreset := h.writeLine a (c := .reset) trivial
      exact hreset.trans (hreset.proper.foldl (dropNeighbor (h.nodes a n hn).address) _)

theorem meetNeighbor (fishAddr : Int) (t : TrawlerService δ) (k : Int) (h : t.Proper) :
    Onward t (meetNeighbor fishAddr t k) := by
  unfold TrawlerService.meetNeighbor
  cases hk : t.getEmulatedNode k with
  | none => exact .refl h
  | some node =>
      cases ha : t.getEmulatedNode fishAddr with
      | none => exact .refl h
      | some startingNode =>
          have hquery := h.setTopology
            (h.topology.getLiveEdge node.fishAddr startingNode.fishAddr)
          simp only
          split_ifs
          · exact .refl h
          · have hfirst := hquery.proper.sendAddNeighbor k (h.nodes fishAddr startingNode ha)
            exact (hquery.trans hfirst).trans
              (hfirst.proper.sendAddNeighbor fishAddr (h.nodes k node hk))
          · exact hquery

theorem updateNeighbors (h : t.Proper) (fishAddr : Int) : Onward t (t.updateNeighbors fishAddr) :=
  h.foldl (meetNeighbor fishAddr) _

theorem quitNode (t : TrawlerService δ) (k : Int) (h : t.Proper) : Onward t (t.quitNode k) := by
  unfold TrawlerService.quitNode
  cases hn : t.getEmulatedNode k with
  | none => exact .refl h
  | some n =>
      simp only
      split_ifs
      · exact .refl h
      · have herase : Onward t { t with emulatedNodes := AList.erase k t.emulatedNodes } := by
          have hlookup : ∀ a n', AList.lookup a (AList.erase k t.emulatedNodes) = some n' →
              t.getEmulatedNode a = some n' := by
            intro a n' hn'
            rw [Table.lookup_erase_eq] at hn'
            split_ifs at hn'
            exact hn'
          exact ⟨⟨fun a n' hn' => h.nodes a n' (hlookup a n' hn'), h.topology⟩,
            fun a n' hn' => ⟨n', hlookup a n' hn', List.prefix_rfl⟩⟩
        exact herase.trans (herase.proper.foldl (dropNeighbor (h.nodes k n hn).address) _)

theorem checkNodesQuit (h : t.Proper) : Onward t t.checkNodesQuit := h.foldl quitNode _

theorem join (h : t.Proper) (ipAddress portLine : Str) (hip : Plain ipAddress) :
    (t.join ipAddress portLine).Proper ∧
      ∀ a n', (t.join ipAddress portLine).getEmulatedNode a = some n' →
        t.getEmulatedNode a = none ∨
          ∃ n, t.getEmulatedNode a = some n ∧ n.written <+: n'.written := by
  have hsame : t.Proper ∧ ∀ a n', t.getEmulatedNode a = some n' → t.getEmulatedNode a = none ∨
      ∃ n, t.getEmulatedNode a = some n ∧ n.written <+: n'.written :=
    ⟨h, fun _ n' hn => .inr ⟨n', hn, List.prefix_rfl⟩⟩
  unfold TrawlerService.join
  cases hport : stoi portLine with
  | none => exact hsame
  | some port =>
      simp only
      split_ifs with hbad hfull
      · exact hsame
      · exact hsame
      · -- the new node is in the table, and then the neighbours are told
        set t₁ := t.put t.freeFishAddr (.new t.freeFishAddr ipAddress port) with ht₁
        have hnode : (EmulatedNode.new t.freeFishAddr ipAddress port : EmulatedNode δ).Proper
            t.freeFishAddr := by
          obtain ⟨hlow, hhigh⟩ := freeFishAddr_range hfull
          refine ⟨rfl, Packet.validAddress_iff.mpr ⟨hlow, by omega⟩, inInt32_of_stoi hport, hip, ?_⟩
          exact fun c hc => absurd hc List.not_mem_nil
        have hput : ∀ a n', t₁.getEmulatedNode a = some n' →
            n'.Proper a ∧ (t.getEmulatedNode a = none ∨ t.getEmulatedNode a = some n') := by
          intro a n' hn'
          by_cases ha : a = t.freeFishAddr
          · subst ha
            rw [put_getEmulatedNode_self] at hn'
            obtain rfl := Option.some.inj hn'
            exact ⟨hnode, .inl (freeFishAddr_free hfull)⟩
          · rw [put_getEmulatedNode_ne ha] at hn'
            exact ⟨h.nodes a n' hn', .inr hn'⟩
        have hproper : t₁.Proper := ⟨fun a n' hn' => (hput a n' hn').1, h.topology⟩
        have htold : Onward t₁ (t₁.updateNeighbors t.freeFishAddr) := hproper.updateNeighbors _
        refine ⟨htold.proper, ?_⟩
        intro a n' hn'
        obtain ⟨n, hn, hwritten⟩ := htold.written a n' hn'
        obtain ⟨-, hfree | hn⟩ := hput a n hn
        · exact .inl hfree
        · exact .inr ⟨n, hn, hwritten⟩

/-- One event.  A node that is registered afterwards has been registered before, and only lines have
been added, or its address was free. -/
theorem step (h : t.Proper) {e : TrawlerEvent δ} (he : e.Typed) :
    (t.step e).Proper ∧ ∀ a n', (t.step e).getEmulatedNode a = some n' →
      t.getEmulatedNode a = none ∨ ∃ n, t.getEmulatedNode a = some n ∧ n.written <+: n'.written := by
  have honward : ∀ {t'}, Onward t t' → t'.Proper ∧ ∀ a n', t'.getEmulatedNode a = some n' →
      t.getEmulatedNode a = none ∨
        ∃ n, t.getEmulatedNode a = some n ∧ n.written <+: n'.written :=
    fun h' => ⟨h'.proper, fun a n' hn => .inr (h'.written a n' hn)⟩
  cases e with
  | join ipAddress portLine => exact h.join ipAddress portLine he
  | lost a =>
      cases hn : t.getEmulatedNode a with
      | none =>
          simp only [TrawlerService.step, hn]
          exact honward (.refl h)
      | some n =>
          obtain ⟨haddr, hvalid, hport, hip, hwritten⟩ := h.nodes a n hn
          have hlost : ({ n with alive := false } : EmulatedNode δ).Proper a :=
            ⟨haddr, hvalid, hport, hip, hwritten⟩
          simp only [TrawlerService.step, hn]
          exact honward (h.put hn hlost List.prefix_rfl)
  | checkNodesQuit => exact honward h.checkNodesQuit
  | edge a b opts =>
      have hnew := h.setTopology (h.topology.newEdge a b he)
      exact honward (hnew.trans (hnew.proper.startEdge a b))
  | failEdge a b =>
      have hfail := h.setTopology (h.topology.changeEdge a b false)
      unfold TrawlerService.step failEdgeHook
      simp only
      split_ifs
      · exact honward (hfail.trans (hfail.proper.failEdge a b))
      · exact honward hfail
  | failNode a =>
      have hfail := h.failNode a
      exact honward (hfail.trans (hfail.proper.setTopology hfail.proper.topology))
  | restartEdge a b =>
      have hrestart := h.setTopology (h.topology.changeEdge a b true)
      unfold TrawlerService.step restartEdgeHook
      simp only
      split_ifs
      · exact honward (hrestart.trans (hrestart.proper.startEdge a b))
      · exact honward hrestart
  | restartNode a =>
      have hrestart : Onward t { t with topology := t.topology.restartNode a } :=
        h.setTopology h.topology
      exact honward (hrestart.trans (hrestart.proper.updateNeighbors a))

end Proper

end TrawlerService

end NetBridge
