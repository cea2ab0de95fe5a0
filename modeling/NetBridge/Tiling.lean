import Mathlib.Algebra.Order.Group.Int
import Mathlib.Data.List.Chain

/-! # Tilings of an interval

A list tiles the interval from `a` to `b` when its elements are non-empty intervals `[lo x, hi x)`
that follow one another without gap, the first from `a` on and the last up to `b`.  A queue of
this shape is extended at its end by another tiling (`Tiles.append`) and shortened at its front by
dropping the elements that end at or before a cut (`Tiles.dropWhile`); every point of the interval
lies in one element (`Tiles.covers`).  Where an element begins it is cut in two (`Tiles.cut`). -/

namespace NetBridge

variable {α : Type*} (lo hi : α → Int)

/-- The list tiles the interval from `a` to `b`. -/
def Tiles : Int → List α → Int → Prop
  | a, [], b => a = b
  | a, x :: xs, b => lo x = a ∧ lo x < hi x ∧ Tiles (hi x) xs b

namespace Tiles

variable {lo hi} {a b c : Int} {xs ys : List α}

theorem append (hxs : Tiles lo hi a xs b) (hys : Tiles lo hi b ys c) :
    Tiles lo hi a (xs ++ ys) c := by
  induction xs generalizing a with
  | nil =>
      obtain rfl : a = b := hxs
      exact hys
  | cons x xs ih => exact ⟨hxs.1, hxs.2.1, ih hxs.2.2⟩

theorem map {f : α → α} (hlo : ∀ x, lo (f x) = lo x) (hhi : ∀ x, hi (f x) = hi x)
    (h : Tiles lo hi a xs b) : Tiles lo hi a (xs.map f) b := by
  induction xs generalizing a with
  | nil => exact h
  | cons x xs ih =>
      obtain ⟨h1, h2, h3⟩ := h
      refine ⟨(hlo x).trans h1, ?_, ?_⟩
      · rw [hlo, hhi]
        exact h2
      · rw [hhi]
        exact ih h3

theorem le (h : Tiles lo hi a xs b) : a ≤ b := by
  induction xs generalizing a with
  | nil => exact le_of_eq h
  | cons x xs ih =>
      obtain ⟨h1, h2, h3⟩ := h
      have := ih h3
      omega

theorem isChain (h : Tiles lo hi a xs b) : xs.IsChain fun x y => hi x = lo y := by
  induction xs generalizing a with
  | nil => exact .nil
  | cons x xs ih =>
      cases xs with
      | nil => exact .singleton x
      | cons y ys =>
          have hy : lo y = hi x := h.2.2.1
          exact .cons_cons hy.symm (ih h.2.2)

theorem le_of_mem (h : Tiles lo hi a xs b) {x : α} (hx : x ∈ xs) : a ≤ lo x := by
  induction xs generalizing a with
  | nil => cases hx
  | cons y xs ih =>
      obtain ⟨h1, h2, h3⟩ := h
      obtain rfl | hx := List.mem_cons.mp hx
      · exact le_of_eq h1.symm
      · have := ih h3 hx
        omega

theorem lt_of_mem (h : Tiles lo hi a xs b) {x : α} (hx : x ∈ xs) : lo x < hi x ∧ hi x ≤ b := by
  induction xs generalizing a with
  | nil => cases hx
  | cons y xs ih =>
      obtain ⟨_, h2, h3⟩ := h
      obtain rfl | hx := List.mem_cons.mp hx
      · exact ⟨h2, h3.le⟩
      · exact ih h3 hx

theorem pairwise (h : Tiles lo hi a xs b) : xs.Pairwise fun x y => lo x < lo y := by
  induction xs generalizing a with
  | nil => exact .nil
  | cons x xs ih =>
      obtain ⟨h1, h2, h3⟩ := h
      refine .cons (fun y hy => ?_) (ih h3)
      have := h3.le_of_mem hy
      omega

theorem getLast (h : Tiles lo hi a xs b) : ∀ x ∈ xs.getLast?, hi x = b := by
  induction xs generalizing a with
  | nil =>
      intro x hx
      cases hx
  | cons y ys ih =>
      intro x hx
      cases ys with
      | nil =>
          obtain rfl : y = x := Option.some.inj hx
          exact h.2.2
      | cons z zs => exact ih h.2.2 x (by simpa using hx)

theorem head (h : Tiles lo hi a xs b) : ∀ x ∈ xs.head?, lo x = a := by
  intro x hx
  cases xs with
  | nil => cases hx
  | cons y ys =>
      obtain rfl : y = x := Option.some.inj hx
      exact h.1

/-- Every point of the interval lies in one of its elements. -/
theorem covers (h : Tiles lo hi a xs b) {p : Int} (hap : a ≤ p) (hpb : p < b) :
    ∃ x ∈ xs, lo x ≤ p ∧ p < hi x := by
  induction xs generalizing a with
  | nil =>
      obtain rfl : a = b := h
      omega
  | cons x xs ih =>
      obtain ⟨h1, _, h3⟩ := h
      obtain hlt | hge := lt_or_ge p (hi x)
      · exact ⟨x, List.mem_cons_self, by omega, hlt⟩
      · obtain ⟨y, hy, hp⟩ := ih h3 hge
        exact ⟨y, List.mem_cons_of_mem _ hy, hp⟩

/-- No point lies in two elements. -/
theorem eq_of_mem (h : Tiles lo hi a xs b) {x y : α} (hx : x ∈ xs) (hy : y ∈ xs) {p : Int}
    (hxp : lo x ≤ p ∧ p < hi x) (hyp : lo y ≤ p ∧ p < hi y) : x = y := by
  induction xs generalizing a with
  | nil => cases hx
  | cons z xs ih =>
      obtain ⟨_, _, h3⟩ := h
      obtain rfl | hxs := List.mem_cons.mp hx
      · obtain rfl | hys := List.mem_cons.mp hy
        · rfl
        · have := h3.le_of_mem hys
          omega
      · obtain rfl | hys := List.mem_cons.mp hy
        · have := h3.le_of_mem hxs
          omega
        · exact ih h3 hxs hys

/-- Dropping the elements that end at or before the cut `c` leaves a tiling whose first element
contains `c`. -/
theorem dropWhile (h : Tiles lo hi a xs b) (hac : a ≤ c) :
    ∃ a', Tiles lo hi a' (xs.dropWhile fun x => decide (hi x ≤ c)) b ∧ a' ≤ c ∧
      ∀ x ∈ (xs.dropWhile fun x => decide (hi x ≤ c)).head?, c < hi x := by
  induction xs generalizing a with
  | nil =>
      refine ⟨a, h, hac, ?_⟩
      intro x hx
      cases hx
  | cons x xs ih =>
      by_cases hx : hi x ≤ c
      · rw [List.dropWhile_cons_of_pos (by simpa using hx)]
        exact ih h.2.2 hx
      · rw [List.dropWhile_cons_of_neg (by simpa using hx)]
        refine ⟨a, h, hac, ?_⟩
        intro y hy
        obtain rfl : x = y := Option.some.inj hy
        omega

theorem of_append (h : Tiles lo hi a (xs ++ ys) b) : ∃ c, Tiles lo hi a xs c ∧ Tiles lo hi c ys b := by
  induction xs generalizing a with
  | nil => exact ⟨a, rfl, h⟩
  | cons x xs ih =>
      obtain ⟨h1, h2, h3⟩ := h
      obtain ⟨c, hxs, hys⟩ := ih h3
      exact ⟨c, ⟨h1, h2, hxs⟩, hys⟩

end Tiles

/-! ### Borders -/

/-- An element begins at `p`, or the last one ends there. -/
def Border (lo : α → Int) (xs : List α) (b p : Int) : Prop := p = b ∨ ∃ x ∈ xs, lo x = p

theorem Border.append {lo hi : α → Int} {b c p : Int} {xs ys : List α} (h : Border lo xs b p)
    (hys : Tiles lo hi b ys c) : Border lo (xs ++ ys) c p := by
  obtain rfl | ⟨x, hx, hp⟩ := h
  · cases ys with
    | nil => exact .inl hys
    | cons y ys => exact .inr ⟨y, List.mem_append_right _ List.mem_cons_self, hys.1⟩
  · exact .inr ⟨x, List.mem_append_left _ hx, hp⟩

namespace Tiles

variable {lo hi} {a b p : Int} {xs : List α}

theorem border (h : Tiles lo hi a xs b) {x : α} (hx : x ∈ xs) : Border lo xs b (hi x) := by
  induction xs generalizing a with
  | nil => cases hx
  | cons y xs ih =>
      obtain rfl | hx := List.mem_cons.mp hx
      · cases xs with
        | nil => exact .inl h.2.2
        | cons z zs => exact .inr ⟨z, List.mem_cons_of_mem _ List.mem_cons_self, h.2.2.1⟩
      · obtain heq | ⟨z, hz, hlo⟩ := ih h.2.2 hx
        · exact .inl heq
        · exact .inr ⟨z, List.mem_cons_of_mem _ hz, hlo⟩

/-- A tiling is cut at a border. -/
theorem cut (h : Tiles lo hi a xs b) (hp : Border lo xs b p) :
    ∃ ys zs, xs = ys ++ zs ∧ Tiles lo hi a ys p ∧ Tiles lo hi p zs b := by
  obtain rfl | ⟨x, hx, hlo⟩ := hp
  · exact ⟨xs, [], (List.append_nil _).symm, h, rfl⟩
  · induction xs generalizing a with
    | nil => cases hx
    | cons y xs ih =>
        obtain rfl | hx := List.mem_cons.mp hx
        · refine ⟨[], x :: xs, rfl, h.1.symm.trans hlo, ?_⟩
          rw [← hlo, h.1]
          exact h
        · obtain ⟨ys, zs, rfl, hys, hzs⟩ := ih h.2.2 hx
          exact ⟨y :: ys, zs, rfl, ⟨h.1, h.2.1, hys⟩, hzs⟩

end Tiles

end NetBridge
