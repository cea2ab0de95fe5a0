import Mathlib.Algebra.GroupWithZero.Nat
import Mathlib.Data.Finset.Insert
import Mathlib.Data.Sym.Sym2

/-! # The topology

`Topology` (`topology.hpp`/`topology.cpp`): the edges declared so far and the failed nodes.  A
lookup of a missing edge in all-to-all mode adds it to `edges_`, so `getEdge` returns the topology
along with the edge.  An `Edge*` is the edge's position in `edges_` (`EdgeId`), a vector that only
grows.

What a topology means is a partial map on unordered pairs of nodes: `find` is the edge of a pair
with its state and its options, `link` the options of the edge if packets can pass.  One lemma for
each operation says what it does to them. -/

namespace NetBridge

/-- `EdgeOptions`.  The loss rate is only stored, copied and printed here, so the type `δ` of the
doubles is left open. -/
structure EdgeOptions (δ : Type) where
  lossRate : δ
  delayMs : Int
  bwBytesPerSec : Int
  bufferingMs : Int
deriving DecidableEq

/-- The default member values. -/
def EdgeOptions.new {δ : Type} [Zero δ] : EdgeOptions δ := ⟨0, 1, 10000, 250⟩

/-- `Edge`, less its random number generator. -/
structure Edge (δ : Type) where
  a : Int
  b : Int
  live : Bool
  nextSendTimeA : Int
  nextSendTimeB : Int
  options : EdgeOptions δ
deriving DecidableEq

/-- An `Edge*`: the position of the edge in `edges_`. -/
abbrev EdgeId := ℕ

structure Topology (δ : Type) where
  allToAll : Bool
  edges : List (Edge δ)
  failedNodes : Finset Int
deriving DecidableEq

variable {δ : Type}

namespace Edge

/-- The constructor: a new edge is live. -/
def new (a b : Int) (options : EdgeOptions δ) : Edge δ := ⟨a, b, true, 0, 0, options⟩

variable (e : Edge δ)

def isEdge (a b : Int) : Bool := (e.a == a && e.b == b) || (e.a == b && e.b == a)

def setState (live : Bool) : Edge δ := { e with live := live }

def setOptions (options : EdgeOptions δ) : Edge δ := { e with options := options }

theorem isEdge_iff {a b : Int} : e.isEdge a b = true ↔ s(e.a, e.b) = s(a, b) := by
  simp [isEdge]

/-- Two pairs of nodes are the same pair, or no edge belongs to both. -/
theorem isEdge_eq {a b c d : Int} (h : s(a, b) = s(c, d)) (e : Edge δ) :
    e.isEdge c d = e.isEdge a b := by
  rw [Bool.eq_iff_iff, e.isEdge_iff, e.isEdge_iff, h]

theorem isEdge_ne {a b c d : Int} (h : s(a, b) ≠ s(c, d)) {e : Edge δ} (he : e.isEdge a b = true) :
    e.isEdge c d = false := by
  rw [Bool.eq_false_iff]
  intro he'
  exact h ((e.isEdge_iff.mp he).symm.trans (e.isEdge_iff.mp he'))

end Edge

namespace Topology

/-- The constructor. -/
def new (allToAll : Bool) : Topology δ := ⟨allToAll, [], ∅⟩

section operations
variable [Zero δ] (t : Topology δ)

/-- The edge that an `Edge*` points to. -/
def edge (i : EdgeId) : Edge δ := t.edges.getD i (.new 0 0 .new)

def modifyEdge (i : EdgeId) (f : Edge δ → Edge δ) : Topology δ :=
  { t with edges := t.edges.modify i f }

def isNodeAlive (node : Int) : Bool := decide (node ∉ t.failedNodes)

/-- `getEdge`: the first edge of the pair; all-to-all mode makes a missing one. -/
def getEdge (a b : Int) : Topology δ × Option EdgeId :=
  match t.edges.findIdx? (·.isEdge a b) with
  | some i => (t, some i)
  | none =>
      if t.allToAll then ({ t with edges := t.edges ++ [.new a b .new] }, some t.edges.length)
      else (t, none)

def getLiveEdge (a b : Int) : Topology δ × Option EdgeId :=
  match t.getEdge a b with
  | (t, none) => (t, none)
  | (t, some i) =>
      if (t.edge i).live = false ∨ t.isNodeAlive a = false ∨ t.isNodeAlive b = false then (t, none)
      else (t, some i)

def newEdge (a b : Int) (options : EdgeOptions δ) : Topology δ :=
  match t.getEdge a b with
  | (t, some i) => t.modifyEdge i (·.setOptions options)
  | (t, none) => { t with edges := t.edges ++ [.new a b options] }

def changeEdge (a b : Int) (state : Bool) : Topology δ × Bool :=
  match t.getEdge a b with
  | (t, some i) => (t.modifyEdge i (·.setState state), true)
  | (t, none) => (t, false)

def failEdge (a b : Int) : Topology δ × Bool := t.changeEdge a b false

def restartEdge (a b : Int) : Topology δ × Bool := t.changeEdge a b true

def failNode (a : Int) : Topology δ := { t with failedNodes := insert a t.failedNodes }

def restartNode (a : Int) : Topology δ := { t with failedNodes := t.failedNodes.erase a }

/-! ### What a topology means -/

/-- The edge of a pair, as far as it can be told from outside: whether it is up, and its options. -/
def find (a b : Int) : Option (Bool × EdgeOptions δ) :=
  match t.edges.find? (·.isEdge a b) with
  | some e => some (e.live, e.options)
  | none => if t.allToAll then some (true, .new) else none

/-- The options of the edge, if it and both its nodes are up. -/
def link (a b : Int) : Option (EdgeOptions δ) :=
  (t.find a b).bind fun e =>
    if e.1 = true ∧ t.isNodeAlive a = true ∧ t.isNodeAlive b = true then some e.2 else none

end operations

/-! ### The first element of a list that meets a condition -/

section first
variable {α : Type} {p q : α → Bool} {f : α → α} {l : List α} {i : ℕ}

theorem find?_eq_getElem? (h : l.findIdx? p = some i) : l.find? p = l[i]? := by
  induction l generalizing i with
  | nil => cases h
  | cons x xs ih =>
      by_cases hx : p x = true
      · have hi : i = 0 := by simpa [List.findIdx?_cons, hx] using h.symm
        simp [hi, hx]
      · obtain ⟨j, hj, rfl⟩ : ∃ j, xs.findIdx? p = some j ∧ j + 1 = i := by
          simpa [List.findIdx?_cons, hx] using h
        simpa [hx] using ih hj

theorem find?_modify_self (hf : ∀ x, p (f x) = p x) (h : l.findIdx? p = some i) :
    (l.modify i f).find? p = (l.find? p).map f := by
  induction l generalizing i with
  | nil => cases h
  | cons x xs ih =>
      by_cases hx : p x = true
      · have hi : i = 0 := by simpa [List.findIdx?_cons, hx] using h.symm
        simp [hi, hx, hf]
      · obtain ⟨j, hj, rfl⟩ : ∃ j, xs.findIdx? p = some j ∧ j + 1 = i := by
          simpa [List.findIdx?_cons, hx] using h
        simpa [hx] using ih hj

/-- A change of the first element that meets `p` is nothing to a condition that no such element meets. -/
theorem find?_modify_other (hf : ∀ x, q (f x) = q x) (hpq : ∀ x, p x = true → q x = false)
    (h : l.findIdx? p = some i) : (l.modify i f).find? q = l.find? q := by
  induction l generalizing i with
  | nil => cases h
  | cons x xs ih =>
      by_cases hx : p x = true
      · have hi : i = 0 := by simpa [List.findIdx?_cons, hx] using h.symm
        simp [hi, hf, hpq x hx]
      · obtain ⟨j, hj, rfl⟩ : ∃ j, xs.findIdx? p = some j ∧ j + 1 = i := by
          simpa [List.findIdx?_cons, hx] using h
        simp only [List.modify_succ_cons, List.find?_cons]
        rw [ih hj]

end first

/-! ### The operations -/

section meaning
variable [Zero δ] {t t' : Topology δ}

/-- Nothing that can be told from outside has changed. -/
structure Same (t t' : Topology δ) : Prop where
  find : ∀ a b, t'.find a b = t.find a b
  failedNodes : t'.failedNodes = t.failedNodes

theorem Same.refl (t : Topology δ) : Same t t := ⟨fun _ _ => rfl, rfl⟩

theorem Same.trans {t₁ t₂ t₃ : Topology δ} (h₁ : Same t₁ t₂) (h₂ : Same t₂ t₃) : Same t₁ t₃ :=
  ⟨fun a b => (h₂.find a b).trans (h₁.find a b), h₂.failedNodes.trans h₁.failedNodes⟩

theorem Same.isNodeAlive (h : Same t t') (a : Int) : t'.isNodeAlive a = t.isNodeAlive a := by
  unfold Topology.isNodeAlive
  rw [h.failedNodes]

theorem Same.link (h : Same t t') (a b : Int) : t'.link a b = t.link a b := by
  unfold Topology.link
  rw [h.find, h.isNodeAlive, h.isNodeAlive]

theorem find_eq {a b c d : Int} (h : s(a, b) = s(c, d)) : t.find c d = t.find a b := by
  have e : (fun e : Edge δ => e.isEdge c d) = fun e => e.isEdge a b := funext (Edge.isEdge_eq h)
  unfold Topology.find
  rw [e]

theorem find_comm (t : Topology δ) (a b : Int) : t.find a b = t.find b a := find_eq Sym2.eq_swap

theorem link_comm (t : Topology δ) (a b : Int) : t.link a b = t.link b a := by
  unfold Topology.link
  rw [find_comm]
  simp only [and_comm]

theorem find_append {a b : Int} {o : EdgeOptions δ} (hnone : t.edges.findIdx? (·.isEdge a b) = none)
    (c d : Int) :
    ({ t with edges := t.edges ++ [.new a b o] } : Topology δ).find c d =
      if s(a, b) = s(c, d) then some (true, o) else t.find c d := by
  by_cases h : s(a, b) = s(c, d)
  · have hfind : t.edges.find? (·.isEdge c d) = none := by
      rw [show (fun e : Edge δ => e.isEdge c d) = fun e => e.isEdge a b from
        funext (Edge.isEdge_eq h)]
      rw [List.find?_eq_none]
      simpa using List.findIdx?_eq_none_iff.mp hnone
    have hself : (Edge.new a b o).isEdge c d = true := (Edge.isEdge_iff _).mpr h
    simp only [Topology.find, List.find?_append, hfind, List.find?_singleton, hself, if_pos h]
    rfl
  · have hother : (Edge.new a b o).isEdge c d = false := by
      rw [Bool.eq_false_iff]
      exact fun he => h ((Edge.isEdge_iff _).mp he)
    simp [Topology.find, List.find?_append, hother, h]

/-- What `getEdge` returns stands for the edge of the pair. -/
inductive Got (t : Topology δ) (a b : Int) : Topology δ × Option EdgeId → Prop
  | none (hidx : t.edges.findIdx? (·.isEdge a b) = none) (hfind : t.find a b = .none) :
      Got t a b (t, .none)
  | some {t' : Topology δ} {i : EdgeId} (hsame : Same t t')
      (hidx : t'.edges.findIdx? (·.isEdge a b) = .some i)
      (hfind : t.find a b = .some ((t'.edge i).live, (t'.edge i).options)) :
      Got t a b (t', .some i)

theorem find_of_findIdx? {a b : Int} {i : EdgeId} (h : t.edges.findIdx? (·.isEdge a b) = some i) :
    t.find a b = some ((t.edge i).live, (t.edge i).options) := by
  have hlt : i < t.edges.length := (List.findIdx?_eq_some_iff_getElem.mp h).1
  simp [Topology.find, find?_eq_getElem? h, Topology.edge, hlt]

theorem getEdge_spec (t : Topology δ) (a b : Int) : Got t a b (t.getEdge a b) := by
  unfold getEdge
  cases hidx : t.edges.findIdx? (·.isEdge a b) with
  | some i => exact .some (.refl t) hidx (find_of_findIdx? hidx)
  | none =>
      have hfind : t.find a b = if t.allToAll then some (true, .new) else none := by
        have : t.edges.find? (·.isEdge a b) = none := by
          rw [List.find?_eq_none]
          simpa using List.findIdx?_eq_none_iff.mp hidx
        simp [Topology.find, this]
      simp only
      split_ifs with hall
      · -- the edge made on the way has the defaults that `find` gives the pair anyway
        rw [if_pos hall] at hfind
        have hsame : Same t { t with edges := t.edges ++ [.new a b .new] } := by
          refine ⟨fun c d => ?_, rfl⟩
          rw [find_append hidx]
          split_ifs with h
          · rw [find_eq h, hfind]
          · rfl
        have hnew : (Edge.new a b (.new : EdgeOptions δ)).isEdge a b = true :=
          (Edge.isEdge_iff _).mpr rfl
        refine .some hsame ?_ ?_
        · simp [List.findIdx?_append, hidx, hnew]
        · rw [hfind]
          simp [Topology.edge, Edge.new]
      · rw [if_neg hall] at hfind
        exact .none hidx hfind

/-- A query changes nothing and finds the options of the edge if packets can pass. -/
theorem getLiveEdge_spec (t : Topology δ) (a b : Int) :
    Same t (t.getLiveEdge a b).1 ∧
      (t.getLiveEdge a b).2.map (fun i => ((t.getLiveEdge a b).1.edge i).options) = t.link a b := by
  unfold getLiveEdge
  have h := t.getEdge_spec a b
  generalize t.getEdge a b = r at h
  cases h with
  | none hidx hfind =>
      refine ⟨.refl t, ?_⟩
      simp [link, hfind]
  | @some t' i hsame hidx hfind =>
      simp only
      split_ifs with hdown
      · refine ⟨hsame, ?_⟩
        rw [hsame.isNodeAlive, hsame.isNodeAlive] at hdown
        rw [link, hfind, Option.bind_some, if_neg]
        · rfl
        · rintro ⟨h1, h2, h3⟩
          rw [show (t'.edge i).live = true from h1, h2, h3] at hdown
          simp at hdown
      · refine ⟨hsame, ?_⟩
        simp only [not_or, Bool.not_eq_false] at hdown
        rw [hsame.isNodeAlive, hsame.isNodeAlive] at hdown
        rw [link, hfind, Option.bind_some, if_pos hdown]
        rfl

theorem getLiveEdge_isSome (t : Topology δ) (a b : Int) :
    (t.getLiveEdge a b).2.isSome = (t.link a b).isSome := by
  rw [← (t.getLiveEdge_spec a b).2, Option.isSome_map]

theorem find_modifyEdge {a b : Int} {i : EdgeId} {f : Edge δ → Edge δ}
    (hf : ∀ e, (f e).a = e.a ∧ (f e).b = e.b) (hidx : t.edges.findIdx? (·.isEdge a b) = some i)
    (c d : Int) :
    (t.modifyEdge i f).find c d =
      if s(a, b) = s(c, d) then some ((f (t.edge i)).live, (f (t.edge i)).options)
      else t.find c d := by
  have hedge : ∀ (e : Edge δ) (c d : Int), (f e).isEdge c d = e.isEdge c d := by
    intro e c d
    unfold Edge.isEdge
    rw [(hf e).1, (hf e).2]
  split_ifs with h
  · have hlt : i < t.edges.length := (List.findIdx?_eq_some_iff_getElem.mp hidx).1
    rw [find_eq h]
    simp only [Topology.find, modifyEdge, find?_modify_self (fun e => hedge e a b) hidx,
      find?_eq_getElem? hidx]
    simp [Topology.edge, hlt]
  · simp only [Topology.find, modifyEdge,
      find?_modify_other (fun e => hedge e c d) (fun e he => Edge.isEdge_ne h he) hidx]
    rfl

/-- `newEdge` sets the options of a pair and leaves its state; a new edge is up. -/
theorem newEdge_spec (t : Topology δ) (a b : Int) (o : EdgeOptions δ) :
    (t.newEdge a b o).failedNodes = t.failedNodes ∧
      ∀ c d, (t.newEdge a b o).find c d =
        if s(a, b) = s(c, d) then some (((t.find a b).map (·.1)).getD true, o) else t.find c d := by
  unfold newEdge
  have h := t.getEdge_spec a b
  generalize t.getEdge a b = r at h
  cases h with
  | none hidx hfind =>
      refine ⟨rfl, fun c d => ?_⟩
      simp only
      rw [find_append hidx, hfind]
      rfl
  | some hsame hidx hfind =>
      refine ⟨hsame.failedNodes, fun c d => ?_⟩
      simp only
      rw [find_modifyEdge (f := fun e => e.setOptions o) (fun e => ⟨rfl, rfl⟩) hidx, hsame.find, hfind]
      rfl

/-- `failEdge` and `restartEdge` set the state of a pair that has an edge. -/
theorem changeEdge_spec (t : Topology δ) (a b : Int) (state : Bool) :
    (t.changeEdge a b state).1.failedNodes = t.failedNodes ∧
      ((t.changeEdge a b state).2 = (t.find a b).isSome) ∧
      ∀ c d, (t.changeEdge a b state).1.find c d =
        if s(a, b) = s(c, d) then (t.find a b).map (fun e => (state, e.2)) else t.find c d := by
  unfold changeEdge
  have h := t.getEdge_spec a b
  generalize t.getEdge a b = r at h
  cases h with
  | none hidx hfind =>
      refine ⟨rfl, by rw [hfind]; rfl, fun c d => ?_⟩
      simp only
      split_ifs with hcd
      · rw [find_eq hcd, hfind]
        rfl
      · rfl
  | some hsame hidx hfind =>
      refine ⟨hsame.failedNodes, by rw [hfind]; rfl, fun c d => ?_⟩
      simp only
      rw [find_modifyEdge (f := fun e => e.setState state) (fun e => ⟨rfl, rfl⟩) hidx, hsame.find,
        hfind]
      rfl

theorem changeEdge_same {a b : Int} (h : (t.find a b).isSome = false) (state : Bool) :
    Same t (t.changeEdge a b state).1 := by
  obtain ⟨hfailed, _, hfind⟩ := t.changeEdge_spec a b state
  refine ⟨fun c d => ?_, hfailed⟩
  rw [hfind]
  split_ifs with hcd
  · rw [find_eq hcd, Option.isSome_eq_false_iff.mp h |> Option.isNone_iff_eq_none.mp]
    rfl
  · rfl

/-! ### Links -/

theorem link_congr {a b : Int} (hfind : t'.find a b = t.find a b)
    (ha : t'.isNodeAlive a = t.isNodeAlive a) (hb : t'.isNodeAlive b = t.isNodeAlive b) :
    t'.link a b = t.link a b := by
  unfold link
  rw [hfind, ha, hb]

omit [Zero δ] in
theorem isNodeAlive_congr (hfailed : t'.failedNodes = t.failedNodes) (a : Int) :
    t'.isNodeAlive a = t.isNodeAlive a := by
  unfold isNodeAlive
  rw [hfailed]

theorem newEdge_link_ne {a b c d : Int} (h : s(a, b) ≠ s(c, d)) (o : EdgeOptions δ) :
    (t.newEdge a b o).link c d = t.link c d := by
  obtain ⟨hfailed, hfind⟩ := t.newEdge_spec a b o
  exact link_congr ((hfind c d).trans (if_neg h)) (isNodeAlive_congr hfailed c)
    (isNodeAlive_congr hfailed d)

theorem changeEdge_link_ne {a b c d : Int} (h : s(a, b) ≠ s(c, d)) (state : Bool) :
    (t.changeEdge a b state).1.link c d = t.link c d := by
  obtain ⟨hfailed, _, hfind⟩ := t.changeEdge_spec a b state
  exact link_congr ((hfind c d).trans (if_neg h)) (isNodeAlive_congr hfailed c)
    (isNodeAlive_congr hfailed d)

theorem newEdge_link_self {a b : Int} (o : EdgeOptions δ) (hup : ∀ e ∈ t.find a b, e.1 = true)
    (ha : t.isNodeAlive a = true) (hb : t.isNodeAlive b = true) :
    (t.newEdge a b o).link a b = some o := by
  obtain ⟨hfailed, hfind⟩ := t.newEdge_spec a b o
  have hlive : ((t.find a b).map (·.1)).getD true = true := by
    cases hf : t.find a b with
    | none => rfl
    | some e => exact hup e hf
  rw [link, hfind a b, if_pos rfl, hlive, Option.bind_some, isNodeAlive_congr hfailed,
    isNodeAlive_congr hfailed, if_pos ⟨rfl, ha, hb⟩]

theorem failEdge_link_self (t : Topology δ) (a b : Int) : (t.failEdge a b).1.link a b = none := by
  obtain ⟨_, _, hfind⟩ := t.changeEdge_spec a b false
  rw [failEdge, link, hfind a b, if_pos rfl]
  cases t.find a b <;> rfl

theorem restartEdge_link_self {a b : Int} (hsome : (t.find a b).isSome = true)
    (ha : t.isNodeAlive a = true) (hb : t.isNodeAlive b = true) :
    ((t.restartEdge a b).1.link a b).isSome = true := by
  obtain ⟨hfailed, _, hfind⟩ := t.changeEdge_spec a b true
  obtain ⟨e, he⟩ := Option.isSome_iff_exists.mp hsome
  rw [restartEdge, link, hfind a b, if_pos rfl, he, Option.map_some, Option.bind_some,
    isNodeAlive_congr hfailed, isNodeAlive_congr hfailed, if_pos ⟨rfl, ha, hb⟩]
  rfl

theorem failNode_link_of_ne {a x y : Int} (hx : x ≠ a) (hy : y ≠ a) :
    (t.failNode a).link x y = t.link x y := by
  refine link_congr rfl ?_ ?_
  · simp [isNodeAlive, failNode, hx]
  · simp [isNodeAlive, failNode, hy]

theorem failNode_link_of_eq {a x y : Int} (h : x = a ∨ y = a) : (t.failNode a).link x y = none := by
  have hdown : ¬ ((t.failNode a).isNodeAlive x = true ∧ (t.failNode a).isNodeAlive y = true) := by
    rintro ⟨hx, hy⟩
    obtain rfl | rfl := h
    · simp [isNodeAlive, failNode] at hx
    · simp [isNodeAlive, failNode] at hy
  unfold link
  cases (t.failNode a).find x y with
  | none => rfl
  | some e => exact if_neg fun hc => hdown hc.2

theorem restartNode_link_of_ne {a x y : Int} (hx : x ≠ a) (hy : y ≠ a) :
    (t.restartNode a).link x y = t.link x y := by
  refine link_congr rfl ?_ ?_
  · simp [isNodeAlive, restartNode, hx]
  · simp [isNodeAlive, restartNode, hy]

/-- Restarting a node takes no link away. -/
theorem restartNode_link_of_some {a x y : Int} {o : EdgeOptions δ} (h : t.link x y = some o) :
    (t.restartNode a).link x y = some o := by
  obtain ⟨e, he, hup⟩ := Option.bind_eq_some_iff.mp h
  split_ifs at hup with hc
  have hmono : ∀ n, t.isNodeAlive n = true → (t.restartNode a).isNodeAlive n = true := by
    intro n hn
    unfold isNodeAlive at hn ⊢
    rw [decide_eq_true_iff] at hn ⊢
    exact fun hmem => hn (Finset.mem_of_mem_erase hmem)
  rw [link, show (t.restartNode a).find x y = some e from he, Option.bind_some,
    if_pos ⟨hc.1, hmono x hc.2.1, hmono y hc.2.2⟩]
  exact hup

end meaning

end Topology

end NetBridge
