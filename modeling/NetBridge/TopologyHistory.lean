import NetBridge.Run
import NetBridge.Topology

/-! # The topology and its history

What a `Topology` should answer is a matter of the calls made so far.  A pair of nodes has an edge if
it was declared, or in all-to-all mode; the edge is down if the last of its failures and restarts
was a failure; its options are those of its last declaration; a node is down if it failed and was
not restarted since.  These are functions of the list of calls, the latest first (`declared`,
`lastChange`, `lastOptions`, `nodeFailed`).

`Recalls` says that the edges and the failed nodes are what the history makes of them, and every
call keeps that. -/

namespace NetBridge

variable {δ : Type}

/-- The public functions of `Topology`. -/
inductive TopologyCall (δ : Type) where
  | newEdge (a b : Int) (options : EdgeOptions δ)
  | failEdge (a b : Int)
  | restartEdge (a b : Int)
  | failNode (a : Int)
  | restartNode (a : Int)
  | getLiveEdge (a b : Int)
deriving DecidableEq

/-- The unordered pair of nodes that an edge joins. -/
def Edge.pair (e : Edge δ) : Sym2 Int := s(e.a, e.b)

namespace Topology

def call [Zero δ] (t : Topology δ) : TopologyCall δ → Topology δ
  | .newEdge a b options => t.newEdge a b options
  | .failEdge a b => (t.failEdge a b).1
  | .restartEdge a b => (t.restartEdge a b).1
  | .failNode a => t.failNode a
  | .restartNode a => t.restartNode a
  | .getLiveEdge a b => (t.getLiveEdge a b).1

/-! ### The history -/

def declares (p : Sym2 Int) : TopologyCall δ → Bool
  | .newEdge a b _ => s(a, b) = p
  | _ => false

/-- The pair exists: it was declared, or every pair does. -/
def declared (allToAll : Bool) (p : Sym2 Int) (past : List (TopologyCall δ)) : Bool :=
  allToAll || past.any (declares p)

/-- The last failure (`false`) or restart (`true`) of a pair that existed then. -/
def lastChange (allToAll : Bool) (p : Sym2 Int) : List (TopologyCall δ) → Option Bool
  | [] => none
  | .failEdge a b :: past =>
      if s(a, b) = p ∧ declared allToAll p past then some false else lastChange allToAll p past
  | .restartEdge a b :: past =>
      if s(a, b) = p ∧ declared allToAll p past then some true else lastChange allToAll p past
  | _ :: past => lastChange allToAll p past

/-- The options of the last declaration of a pair. -/
def lastOptions [Zero δ] (p : Sym2 Int) : List (TopologyCall δ) → EdgeOptions δ
  | [] => .new
  | .newEdge a b options :: past => if s(a, b) = p then options else lastOptions p past
  | _ :: past => lastOptions p past

/-- The node has failed and was not restarted since. -/
def nodeFailed (node : Int) : List (TopologyCall δ) → Bool
  | [] => false
  | .failNode a :: past => if a = node then true else nodeFailed node past
  | .restartNode a :: past => if a = node then false else nodeFailed node past
  | _ :: past => nodeFailed node past

theorem declared_cons {allToAll : Bool} {p : Sym2 Int} {c : TopologyCall δ}
    {past : List (TopologyCall δ)} :
    declared allToAll p (c :: past) = (declares p c || declared allToAll p past) := by
  simp [declared, Bool.or_left_comm]

/-- A pair that does not exist can neither fail nor be restarted. -/
theorem lastChange_of_not_declared {allToAll : Bool} {p : Sym2 Int} {past : List (TopologyCall δ)}
    (h : declared allToAll p past = false) : lastChange allToAll p past = none := by
  induction past with
  | nil => rfl
  | cons c past ih =>
      rw [declared_cons, Bool.or_eq_false_iff] at h
      cases c <;> simp [lastChange, h.2, ih h.2]

/-! ### One edge for each pair -/

section distinct
variable [Zero δ] {t : Topology δ}

/-- No two edges join the same nodes. -/
def Distinct (t : Topology δ) : Prop := (t.edges.map Edge.pair).Nodup

omit [Zero δ] in
theorem Distinct.append (h : t.Distinct) {a b : Int}
    (hidx : t.edges.findIdx? (·.isEdge a b) = none) (options : EdgeOptions δ) :
    Distinct { t with edges := t.edges ++ [.new a b options] } := by
  have hnew : s(a, b) ∉ t.edges.map Edge.pair := by
    intro hmem
    obtain ⟨e, he, hpair⟩ := List.mem_map.mp hmem
    have hnone := List.findIdx?_eq_none_iff.mp hidx e he
    rw [e.isEdge_iff.mpr hpair] at hnone
    cases hnone
  have hlist := List.nodup_append.mpr ⟨h, List.nodup_singleton s(a, b), by
    intro p hp q hq
    rw [List.mem_singleton.mp hq]
    rintro rfl
    exact hnew hp⟩
  simpa [Distinct, Edge.pair, Edge.new] using hlist

omit [Zero δ] in
theorem Distinct.modifyEdge (h : t.Distinct) {f : Edge δ → Edge δ} (hf : ∀ e, (f e).pair = e.pair)
    (i : EdgeId) : (t.modifyEdge i f).Distinct := by
  have hmap : (t.edges.modify i f).map Edge.pair = t.edges.map Edge.pair := by
    refine List.ext_getElem (by simp) ?_
    intro j _ _
    simp only [List.getElem_map, List.getElem_modify]
    split_ifs
    · exact hf _
    · rfl
  unfold Distinct Topology.modifyEdge
  rwa [hmap]

theorem Distinct.getEdge (h : t.Distinct) (a b : Int) : (t.getEdge a b).1.Distinct := by
  unfold Topology.getEdge
  split
  · exact h
  · next hidx =>
      split_ifs
      · exact h.append hidx .new
      · exact h

theorem Distinct.getLiveEdge (h : t.Distinct) (a b : Int) : (t.getLiveEdge a b).1.Distinct := by
  have hget := h.getEdge a b
  unfold Topology.getLiveEdge
  split
  · next e => simpa [e] using hget
  · next e =>
      split_ifs <;> simpa [e] using hget

theorem Distinct.newEdge (h : t.Distinct) (a b : Int) (options : EdgeOptions δ) :
    (t.newEdge a b options).Distinct := by
  have hget := h.getEdge a b
  have hspec := t.getEdge_spec a b
  unfold Topology.newEdge
  generalize t.getEdge a b = r at hget hspec
  cases hspec with
  | none hidx hfind => exact h.append hidx options
  | some hsame hidx hfind => exact Distinct.modifyEdge hget (f := (·.setOptions options)) (fun _ => rfl) _

theorem Distinct.changeEdge (h : t.Distinct) (a b : Int) (state : Bool) :
    (t.changeEdge a b state).1.Distinct := by
  have hget := h.getEdge a b
  unfold Topology.changeEdge
  generalize t.getEdge a b = r at hget
  obtain ⟨t', e⟩ := r
  cases e with
  | none => exact hget
  | some i => exact Distinct.modifyEdge hget (f := (·.setState state)) (fun _ => rfl) i

end distinct

/-! ### The topology recalls its history -/

section recalls
variable [Zero δ] {t : Topology δ} {allToAll : Bool} {past : List (TopologyCall δ)}

/-- The edges and the failed nodes are what the calls of the past make of them. -/
structure Recalls (allToAll : Bool) (past : List (TopologyCall δ)) (t : Topology δ) : Prop where
  distinct : t.Distinct
  find : ∀ a b, t.find a b =
    if declared allToAll s(a, b) past then
      some ((lastChange allToAll s(a, b) past).getD true, lastOptions s(a, b) past)
    else none
  failedNodes : ∀ a, a ∈ t.failedNodes ↔ nodeFailed a past = true

theorem Recalls.new (allToAll : Bool) : Recalls allToAll [] (.new allToAll : Topology δ) := by
  refine ⟨List.nodup_nil, fun a b => ?_, by simp [Topology.new, nodeFailed]⟩
  cases allToAll <;> rfl

theorem Recalls.newEdge (h : Recalls allToAll past t) (a b : Int) (options : EdgeOptions δ) :
    Recalls allToAll (.newEdge a b options :: past) (t.newEdge a b options) := by
  obtain ⟨hfailed, hfind⟩ := t.newEdge_spec a b options
  refine ⟨h.distinct.newEdge a b options, fun c d => ?_, ?_⟩
  · rw [hfind, h.find, h.find, declared_cons]
    by_cases hp : s(a, b) = s(c, d)
    · cases hd : declared allToAll s(c, d) past with
      | true => simp [hp, hd, declares, lastChange, lastOptions]
      | false =>
          simp [hp, hd, declares, lastChange, lastOptions, lastChange_of_not_declared hd]
    · simp [hp, declares, lastChange, lastOptions]
  · rw [hfailed]
    exact h.failedNodes

theorem Recalls.changeEdge (h : Recalls allToAll past t) (a b : Int) (state : Bool)
    {c : TopologyCall δ} (hdeclares : ∀ p, declares p c = false)
    (hchange : ∀ p, lastChange allToAll p (c :: past) =
      if s(a, b) = p ∧ declared allToAll p past then some state else lastChange allToAll p past)
    (hoptions : ∀ p, lastOptions p (c :: past) = lastOptions p past)
    (hnode : ∀ n, nodeFailed n (c :: past) = nodeFailed n past) :
    Recalls allToAll (c :: past) (t.changeEdge a b state).1 := by
  obtain ⟨hfailed, -, hfind⟩ := t.changeEdge_spec a b state
  refine ⟨h.distinct.changeEdge a b state, fun x y => ?_, ?_⟩
  · rw [hfind, h.find, h.find, declared_cons, hdeclares, hchange, hoptions, Bool.false_or]
    by_cases hp : s(a, b) = s(x, y)
    · cases hd : declared allToAll s(x, y) past with
      | true => cases state <;> simp [hp, hd]
      | false => simp [hp, hd]
    · simp [hp]
  · rw [hfailed]
    simpa [hnode] using h.failedNodes

theorem Recalls.frame {t' : Topology δ} (h : Recalls allToAll past t) {c : TopologyCall δ}
    (hdistinct : t'.Distinct) (hfind : ∀ a b, t'.find a b = t.find a b)
    (hdeclares : ∀ p, declares p c = false)
    (hchange : ∀ p, lastChange allToAll p (c :: past) = lastChange allToAll p past)
    (hoptions : ∀ p, lastOptions p (c :: past) = lastOptions p past)
    (hnode : ∀ n, n ∈ t'.failedNodes ↔ nodeFailed n (c :: past) = true) :
    Recalls allToAll (c :: past) t' := by
  refine ⟨hdistinct, fun a b => ?_, hnode⟩
  rw [hfind, h.find, declared_cons, hdeclares, hchange, hoptions, Bool.false_or]

theorem Recalls.call (h : Recalls allToAll past t) (c : TopologyCall δ) :
    Recalls allToAll (c :: past) (t.call c) := by
  have hnodes := h.failedNodes
  cases c with
  | newEdge a b options => exact h.newEdge a b options
  | failEdge a b =>
      exact h.changeEdge a b false (fun _ => rfl) (fun _ => rfl) (fun _ => rfl) fun _ => rfl
  | restartEdge a b =>
      exact h.changeEdge a b true (fun _ => rfl) (fun _ => rfl) (fun _ => rfl) fun _ => rfl
  | failNode a =>
      refine h.frame h.distinct (fun _ _ => rfl) (fun _ => rfl) (fun _ => rfl) (fun _ => rfl) ?_
      intro n
      by_cases hn : a = n
      · simp [Topology.call, Topology.failNode, nodeFailed, hn]
      · simp [Topology.call, Topology.failNode, nodeFailed, hn, hnodes, Ne.symm hn]
  | restartNode a =>
      refine h.frame h.distinct (fun _ _ => rfl) (fun _ => rfl) (fun _ => rfl) (fun _ => rfl) ?_
      intro n
      by_cases hn : a = n
      · simp [Topology.call, Topology.restartNode, nodeFailed, hn]
      · simp [Topology.call, Topology.restartNode, nodeFailed, hn, hnodes, Ne.symm hn]
  | getLiveEdge a b =>
      obtain ⟨hsame, -⟩ := t.getLiveEdge_spec a b
      refine h.frame (h.distinct.getLiveEdge a b) hsame.find (fun _ => rfl) (fun _ => rfl)
        (fun _ => rfl) ?_
      intro n
      exact (congrArg (n ∈ ·) hsame.failedNodes).to_iff.trans (hnodes n)

theorem recalls_run (allToAll : Bool) (calls : List (TopologyCall δ)) :
    Recalls allToAll calls.reverse (run call (.new allToAll) calls) := by
  induction calls using List.reverseRecOn with
  | nil => exact .new allToAll
  | append_singleton calls c ih =>
      rw [run_append, List.reverse_append]
      exact ih.call c

/-! ### The answers -/

theorem getEdge_swap (t : Topology δ) (a b : Int) :
    (t.getEdge a b).1.getEdge b a = t.getEdge a b := by
  have hswap : ∀ l : List (Edge δ), l.findIdx? (·.isEdge b a) = l.findIdx? (·.isEdge a b) := by
    intro l
    rw [show (fun e : Edge δ => e.isEdge b a) = fun e => e.isEdge a b from
      funext (Edge.isEdge_eq Sym2.eq_swap)]
  have hspec := t.getEdge_spec a b
  cases hget : t.getEdge a b with
  | mk t' r =>
      rw [hget] at hspec
      cases hspec with
      | none hidx hfind =>
          cases hall : t.allToAll with
          | true => simp [Topology.getEdge, hidx, hall] at hget
          | false => simp [Topology.getEdge, hswap, hidx, hall]
      | some hsame hidx hfind => simp [Topology.getEdge, hswap, hidx]

/-- A query and the query with the nodes exchanged return the same edge. -/
theorem getLiveEdge_swap (t : Topology δ) (a b : Int) :
    (t.getLiveEdge a b).1.getLiveEdge b a = t.getLiveEdge a b := by
  have hswap := t.getEdge_swap a b
  have hfst : (t.getLiveEdge a b).1 = (t.getEdge a b).1 := by
    unfold Topology.getLiveEdge
    split
    · next e => rw [e]
    · next e => split_ifs <;> rw [e]
  rw [hfst]
  cases hget : t.getEdge a b with
  | mk t' r =>
      rw [hget] at hswap
      cases r with
      | none => simp only [Topology.getLiveEdge, hswap, hget]
      | some i =>
          simp only [Topology.getLiveEdge, hswap, hget]
          simp only [or_comm]

theorem getLiveEdge_pair {a b : Int} {i : EdgeId} (h : (t.getLiveEdge a b).2 = some i) :
    ∃ e, (t.getLiveEdge a b).1.edges[i]? = some e ∧ e.pair = s(a, b) := by
  have hspec := t.getEdge_spec a b
  unfold Topology.getLiveEdge at h ⊢
  generalize t.getEdge a b = r at hspec h
  cases hspec with
  | none hidx hfind => cases h
  | some hsame hidx hfind =>
      simp only at h ⊢
      split_ifs at h ⊢ with hdown
      obtain rfl := Option.some.inj h
      obtain ⟨hlt, he, -⟩ := List.findIdx?_eq_some_iff_getElem.mp hidx
      exact ⟨_, List.getElem?_eq_getElem hlt, (Edge.isEdge_iff _).mp he⟩

theorem changeEdge_of_none {a b : Int} (h : t.find a b = none) (state : Bool) :
    t.changeEdge a b state = (t, false) := by
  have hspec := t.getEdge_spec a b
  unfold Topology.changeEdge
  generalize t.getEdge a b = r at hspec
  cases hspec with
  | none hidx hfind => rfl
  | some hsame hidx hfind =>
      rw [h] at hfind
      cases hfind

/-- **The topology refines its specification.**  After every sequence of calls, no two edges join the
same nodes; a query finds the edge of a pair, in either order of its nodes, exactly if the pair
exists, was not failed last, and neither node is failed; the edge has the options of its last
declaration; and to fail or restart a pair that does not exist returns `false` and does nothing. -/
theorem refines_history (allToAll : Bool) (calls : List (TopologyCall δ)) :
    let t := run call (.new allToAll) calls
    let past := calls.reverse
    (t.edges.map Edge.pair).Nodup ∧
    (∀ a b, (t.getLiveEdge a b).1.getLiveEdge b a = t.getLiveEdge a b) ∧
    (∀ a b, (t.getLiveEdge a b).2.isSome = true ↔
      declared allToAll s(a, b) past = true ∧ lastChange allToAll s(a, b) past ≠ some false ∧
        nodeFailed a past = false ∧ nodeFailed b past = false) ∧
    (∀ a b i, (t.getLiveEdge a b).2 = some i →
      ∃ e, (t.getLiveEdge a b).1.edges[i]? = some e ∧ e.pair = s(a, b) ∧
        e.options = lastOptions s(a, b) past) ∧
    (∀ a b, if declared allToAll s(a, b) past = true then (t.failEdge a b).2 = true
      else t.failEdge a b = (t, false)) ∧
    ∀ a b, if declared allToAll s(a, b) past = true then (t.restartEdge a b).2 = true
      else t.restartEdge a b = (t, false) := by
  intro t past
  have h : Recalls allToAll past t := recalls_run allToAll calls
  have hlink : ∀ a b o, t.link a b = some o ↔
      (declared allToAll s(a, b) past = true ∧ lastChange allToAll s(a, b) past ≠ some false ∧
        nodeFailed a past = false ∧ nodeFailed b past = false) ∧ lastOptions s(a, b) past = o := by
    intro a b o
    have hup : (lastChange allToAll s(a, b) past).getD true = true ↔
        lastChange allToAll s(a, b) past ≠ some false := by
      cases hlast : lastChange allToAll s(a, b) past with
      | none => simp
      | some state => cases state <;> simp
    have halive : ∀ n, t.isNodeAlive n = true ↔ nodeFailed n past = false := by
      intro n
      simp [isNodeAlive, h.failedNodes]
    rw [link, h.find]
    by_cases hd : declared allToAll s(a, b) past = true
    · simp [hd, hup, halive]
    · simp [hd]
  have hchange : ∀ a b state, if declared allToAll s(a, b) past = true
      then (t.changeEdge a b state).2 = true else t.changeEdge a b state = (t, false) := by
    intro a b state
    split_ifs with hd
    · rw [(t.changeEdge_spec a b state).2.1, h.find, if_pos hd]
      rfl
    · apply changeEdge_of_none
      rw [h.find, if_neg hd]
  refine ⟨h.distinct, t.getLiveEdge_swap, ?_, ?_, fun a b => hchange a b false,
    fun a b => hchange a b true⟩
  · intro a b
    rw [getLiveEdge_isSome, Option.isSome_iff_exists]
    simp [hlink]
  · intro a b i hi
    obtain ⟨e, he, hpair⟩ := getLiveEdge_pair hi
    refine ⟨e, he, hpair, ?_⟩
    have hoptions := (t.getLiveEdge_spec a b).2
    rw [hi, Option.map_some, edge, List.getD_eq_getElem?_getD, he, eq_comm, hlink] at hoptions
    exact hoptions.2.symm

end recalls

end Topology

end NetBridge
