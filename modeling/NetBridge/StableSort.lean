import Mathlib.Data.List.Sort
import Mathlib.Order.Defs.LinearOrder
import Mathlib.Tactic.Common

/-! # Stable sorting

A list `l'` is the stable sort of `l` by `key` if its keys increase and it has, for each key, the same
elements as `l` in the same order (`StableSort`).  There is only one such list (`StableSort.unique`),
and `mergeSort` computes it (`stableSort_mergeSort`).

`takeFirst` takes the first element of the least key out of a list: it is the head of the stable
sort, and what it leaves sorts to the tail (`stableSort_takeFirst`). -/

namespace NetBridge

variable {α β : Type*} [LinearOrder β] (key : α → β)

/-- The keys increase, and the elements of one key are in their order. -/
structure StableSort (l l' : List α) : Prop where
  sorted : l'.Pairwise fun a b => key a ≤ key b
  filter : ∀ k, (l'.filter fun a => key a = k) = l.filter fun a => key a = k

variable {key} {l l' l₁ l₂ : List α}

theorem StableSort.mem_iff (h : StableSort key l l') {a : α} : a ∈ l' ↔ a ∈ l := by
  have hmem : ∀ {l : List α}, a ∈ l ↔ a ∈ l.filter fun b => key b = key a := by simp
  rw [hmem, h.filter, ← hmem]

theorem StableSort.tail {a : α} {rest : List α} (h : StableSort key (a :: l) (a :: rest)) :
    StableSort key l rest := by
  refine ⟨h.sorted.of_cons, ?_⟩
  intro k
  have hk := h.filter k
  rw [List.filter_cons, List.filter_cons] at hk
  split_ifs at hk
  · exact (List.cons.inj hk).2
  · exact hk

theorem StableSort.unique (h₁ : StableSort key l l₁) (h₂ : StableSort key l l₂) : l₁ = l₂ := by
  have hsame : StableSort key l₂ l₁ := ⟨h₁.sorted, fun k => (h₁.filter k).trans (h₂.filter k).symm⟩
  have hsorted := h₂.sorted
  clear h₁ h₂
  induction l₁ generalizing l₂ with
  | nil =>
      cases l₂ with
      | nil => rfl
      | cons b l₂ => exact absurd (hsame.mem_iff.mpr List.mem_cons_self) List.not_mem_nil
  | cons a l₁ ih =>
      cases l₂ with
      | nil => exact absurd (hsame.mem_iff.mp List.mem_cons_self) List.not_mem_nil
      | cons b l₂ =>
          obtain ⟨ha, -⟩ := List.pairwise_cons.mp hsame.sorted
          obtain ⟨hb, hsorted₂⟩ := List.pairwise_cons.mp hsorted
          have hle : key a ≤ key b := by
            obtain e | hmem := List.mem_cons.mp (hsame.mem_iff.mpr (List.mem_cons_self (a := b)))
            · rw [e]
            · exact ha b hmem
          have hge : key b ≤ key a := by
            obtain e | hmem := List.mem_cons.mp (hsame.mem_iff.mp (List.mem_cons_self (a := a)))
            · rw [e]
            · exact hb a hmem
          have hkey : key b = key a := le_antisymm hge hle
          -- both lists begin with the first element of the least key
          obtain rfl : a = b := by
            have hfirst := hsame.filter (key a)
            simp only [List.filter_cons, hkey, decide_true, if_true] at hfirst
            exact (List.cons.inj hfirst).1
          rw [ih hsame.tail hsorted₂]

theorem stableSort_mergeSort (l : List α) :
    StableSort key l (l.mergeSort fun a b => key a ≤ key b) := by
  have htrans : ∀ a b c : α, decide (key a ≤ key b) = true → decide (key b ≤ key c) = true →
      decide (key a ≤ key c) = true := by
    simp only [decide_eq_true_eq]
    exact fun a b c => le_trans
  have htotal : ∀ a b : α, (decide (key a ≤ key b) || decide (key b ≤ key a)) = true := by
    intro a b
    simpa using le_total (key a) (key b)
  refine ⟨?_, ?_⟩
  · simpa using List.pairwise_mergeSort htrans htotal l
  · intro k
    have hperm := (List.mergeSort_perm l fun a b => decide (key a ≤ key b)).filter
      fun a => decide (key a = k)
    have hequal : (l.filter fun a => key a = k).Pairwise
        fun a b => decide (key a ≤ key b) = true := by
      rw [List.pairwise_iff_forall_sublist]
      intro a b hab
      have ha : key a = k := by simpa using List.of_mem_filter (hab.subset List.mem_cons_self)
      have hb : key b = k := by simpa using List.of_mem_filter (hab.subset (by simp : b ∈ [a, b]))
      simp [ha, hb]
    have hsub := (List.sublist_mergeSort htrans htotal hequal List.filter_sublist).filter
      fun a => decide (key a = k)
    rw [List.filter_filter] at hsub
    simp only [Bool.and_self] at hsub
    exact (hsub.eq_of_length hperm.length_eq.symm).symm

variable (key) in
/-- The first of the elements of the least key, and the others. -/
def takeFirst : List α → Option (α × List α)
  | [] => none
  | a :: l =>
      match takeFirst l with
      | none => some (a, [])
      | some (b, rest) => if key b < key a then some (b, a :: rest) else some (a, l)

theorem takeFirst_eq_none (h : takeFirst key l = none) : l = [] := by
  cases l with
  | nil => rfl
  | cons a l =>
      unfold takeFirst at h
      split at h
      · cases h
      · split_ifs at h

/-- Nothing has a smaller key, and what is in front has a greater one. -/
theorem takeFirst_spec {a : α} {rest : List α} (h : takeFirst key l = some (a, rest)) :
    ∃ before after, l = before ++ a :: after ∧ rest = before ++ after ∧
      (∀ b ∈ before, key a < key b) ∧ ∀ b ∈ after, key a ≤ key b := by
  induction l generalizing a rest with
  | nil => cases h
  | cons c l ih =>
      unfold takeFirst at h
      split at h
      · next hnone =>
          obtain ⟨rfl, rfl⟩ := Prod.mk.inj (Option.some.inj h)
          refine ⟨[], [], ?_, rfl, by simp, by simp⟩
          rw [takeFirst_eq_none hnone]
          rfl
      · next b others hsome =>
          obtain ⟨before, after, rfl, rfl, hbefore, hafter⟩ := ih hsome
          split_ifs at h with hlt
          · obtain ⟨rfl, rfl⟩ := Prod.mk.inj (Option.some.inj h)
            exact ⟨c :: before, after, rfl, rfl, List.forall_mem_cons.mpr ⟨hlt, hbefore⟩, hafter⟩
          · obtain ⟨rfl, rfl⟩ := Prod.mk.inj (Option.some.inj h)
            refine ⟨[], before ++ b :: after, rfl, rfl, by simp, ?_⟩
            have hle : key c ≤ key b := not_lt.mp hlt
            simp only [List.mem_append, List.mem_cons]
            rintro d (hd | rfl | hd)
            · exact hle.trans (hbefore d hd).le
            · exact hle
            · exact hle.trans (hafter d hd)

/-- It is the head of the stable sort, of which the others have the tail. -/
theorem stableSort_takeFirst {a : α} {rest : List α} (h : takeFirst key l = some (a, rest))
    (hrest : StableSort key rest l') : StableSort key l (a :: l') := by
  obtain ⟨before, after, rfl, rfl, hbefore, hafter⟩ := takeFirst_spec h
  constructor
  · refine List.pairwise_cons.mpr ⟨?_, hrest.sorted⟩
    intro b hb
    obtain hmem | hmem := List.mem_append.mp (hrest.mem_iff.mp hb)
    · exact (hbefore b hmem).le
    · exact hafter b hmem
  · intro k
    rw [List.filter_cons, hrest.filter, List.filter_append, List.filter_append, List.filter_cons]
    by_cases hk : key a = k
    · have hnone : (before.filter fun b => key b = k) = [] := by
        rw [List.filter_eq_nil_iff]
        intro b hb
        simpa [← hk] using (hbefore b hb).ne'
      simp [hk, hnone]
    · simp [hk]

end NetBridge
