import Mathlib.Data.List.Infix
import Mathlib.Data.Set.Insert
import Mathlib.Logic.Relation

/-! # Go-back-N, abstractly

One direction of a reliable stream over a network that may lose, repeat, delay and reorder
whatever is sent.  A `Channel` holds what the writer has handed over, what the receiver has taken
over, how much of it the sender knows to be taken over, and everything that has ever been sent:
since the network may keep any copy back for as long as it likes, what has been sent once can
arrive at any later time.

`Channel.Good` is the invariant of the protocol, and `Channel.good_of_reachable` says that every
execution keeps it: the receiver holds a prefix of the stream, and no acknowledgement, used or on
its way, runs ahead of the receiver. -/

namespace NetBridge

variable {α : Type*}

/-- `xs` is the part of `stream` from position `off` on. -/
def Slice (stream : List α) (off : ℕ) (xs : List α) : Prop :=
  ∃ before after, stream = before ++ xs ++ after ∧ before.length = off

namespace Slice

variable {stream : List α} {off : ℕ} {xs : List α}

theorem append (h : Slice stream off xs) (more : List α) : Slice (stream ++ more) off xs := by
  obtain ⟨before, after, rfl, hlen⟩ := h
  exact ⟨before, after ++ more, by simp, hlen⟩

theorem first (xs rest : List α) : Slice (xs ++ rest) 0 xs := ⟨[], rest, rfl, rfl⟩

theorem prepend (h : Slice stream off xs) (pre : List α) :
    Slice (pre ++ stream) (pre.length + off) xs := by
  obtain ⟨before, after, rfl, hlen⟩ := h
  exact ⟨pre ++ before, after, by simp, by simp [hlen]⟩

theorem length_le (h : Slice stream off xs) : off + xs.length ≤ stream.length := by
  obtain ⟨before, after, rfl, hlen⟩ := h
  simp only [List.length_append]
  omega

theorem getElem? (h : Slice stream off xs) {i : ℕ} (hi : i < xs.length) :
    stream[off + i]? = xs[i]? := by
  obtain ⟨before, after, rfl, rfl⟩ := h
  rw [List.append_assoc, List.getElem?_append_right (by omega), Nat.add_sub_cancel_left,
    List.getElem?_append_left hi]

theorem continues {pre : List α} (hpre : pre <+: stream) (h : Slice stream pre.length xs) :
    pre ++ xs <+: stream := by
  obtain ⟨rest, rfl⟩ := hpre
  obtain ⟨before, after, heq, hlen⟩ := h
  rw [List.append_assoc] at heq
  obtain ⟨rfl, rfl⟩ := List.append_inj heq hlen.symm
  exact ⟨after, by simp⟩

end Slice

/-- The state of one direction. -/
structure Channel (α : Type*) where
  /-- What the writer has handed over. -/
  written : List α
  /-- What the receiver has taken over. -/
  stored : List α
  /-- How much of it the sender knows to be taken over. -/
  acked : ℕ
  /-- The pieces of the stream sent so far, with their positions. -/
  pieces : Set (ℕ × List α)
  /-- The acknowledgements sent so far. -/
  acks : Set ℕ

namespace Channel

def empty : Channel α := ⟨[], [], 0, ∅, ∅⟩

/-- The steps of the protocol. -/
inductive Step (c : Channel α) : Channel α → Prop
  /-- The writer hands over more. -/
  | write (xs : List α) : Step c { c with written := c.written ++ xs }
  /-- The sender sends some pieces, for the first time or again. -/
  | send {burst : Set (ℕ × List α)} (h : ∀ off xs, (off, xs) ∈ burst → Slice c.written off xs) :
      Step c { c with pieces := burst ∪ c.pieces }
  /-- The next piece arrives. -/
  | store {xs : List α} (h : (c.stored.length, xs) ∈ c.pieces) :
      Step c { c with stored := c.stored ++ xs }
  /-- The receiver acknowledges some of what it holds. -/
  | reply {n : ℕ} (h : n ≤ c.stored.length) : Step c { c with acks := insert n c.acks }
  /-- An acknowledgement arrives. -/
  | learn {n : ℕ} (h : n ∈ c.acks) : Step c { c with acked := n }

/-- The reachable states. -/
def Reachable (c : Channel α) : Prop := Relation.ReflTransGen Step empty c

theorem Reachable.step {c c' : Channel α} (h : c.Reachable) (hs : Step c c') : c'.Reachable :=
  Relation.ReflTransGen.tail h hs

/-- The invariant of the protocol. -/
structure Good (c : Channel α) : Prop where
  stored : c.stored <+: c.written
  acked : c.acked ≤ c.stored.length
  pieces : ∀ off xs, (off, xs) ∈ c.pieces → Slice c.written off xs
  acks : ∀ n ∈ c.acks, n ≤ c.stored.length

theorem good_empty : (empty : Channel α).Good :=
  ⟨List.prefix_refl _, le_rfl, fun _ _ h => h.elim, fun _ h => h.elim⟩

theorem Good.step {c c' : Channel α} (h : c.Good) (hs : Step c c') : c'.Good := by
  cases hs with
  | write xs =>
      refine ⟨h.stored.trans (List.prefix_append _ _), h.acked, ?_, h.acks⟩
      exact fun off ys hp => (h.pieces off ys hp).append xs
  | send hslice =>
      refine ⟨h.stored, h.acked, ?_, h.acks⟩
      intro off ys hp
      obtain hp | hp := hp
      · exact hslice off ys hp
      · exact h.pieces off ys hp
  | @store xs hp =>
      have hle : c.stored.length ≤ (c.stored ++ xs).length := by simp
      refine ⟨(h.pieces _ _ hp).continues h.stored, h.acked.trans hle, h.pieces, ?_⟩
      exact fun n hn => (h.acks n hn).trans hle
  | reply hle =>
      refine ⟨h.stored, h.acked, h.pieces, ?_⟩
      intro n hn
      obtain rfl | hn := hn
      · exact hle
      · exact h.acks n hn
  | learn hn => exact ⟨h.stored, h.acks _ hn, h.pieces, h.acks⟩

/-- **Safety of go-back-N.** -/
theorem good_of_reachable {c : Channel α} (h : c.Reachable) : c.Good := by
  induction h with
  | refl => exact good_empty
  | tail _ hs ih => exact ih.step hs

/-- When everything is acknowledged, everything is stored. -/
theorem Good.stored_eq {c : Channel α} (h : c.Good) (hall : c.written.length ≤ c.acked) :
    c.stored = c.written :=
  h.stored.eq_of_length (le_antisymm h.stored.length_le (hall.trans h.acked))

end Channel

end NetBridge
