import Mathlib.Data.List.AList

/-! # Finite tables

A table is an association list with distinct keys (`AList`), the model of an unordered map: find
is `AList.lookup`, `t[k] = v` is `AList.insert`, erasing an iterator is `AList.erase`.  This
module adds the loop that erases every entry with a given value (`Table.eraseValue`) and states
the lookups after each operation in one form. -/

namespace NetBridge

/-- A finite map from `κ` to `ν`. -/
abbrev Table (κ ν : Type) := AList fun _ : κ => ν

namespace Table

variable {κ ν : Type} [DecidableEq κ] (t : Table κ ν)

theorem lookup_insert_eq (k k' : κ) (v : ν) :
    AList.lookup k' (AList.insert k v t) = if k' = k then some v else AList.lookup k' t := by
  split_ifs with h
  · subst h
    exact AList.lookup_insert t
  · exact AList.lookup_insert_ne h

theorem lookup_erase_eq (k k' : κ) :
    AList.lookup k' (AList.erase k t) = if k' = k then none else AList.lookup k' t := by
  split_ifs with h
  · subst h
    exact AList.lookup_erase k' t
  · exact AList.lookup_erase_ne h

theorem lookup_insert_some {k k' : κ} {u v : ν}
    (h : AList.lookup k' (AList.insert k v t) = some u) :
    k' = k ∧ u = v ∨ k' ≠ k ∧ AList.lookup k' t = some u := by
  rw [lookup_insert_eq] at h
  split_ifs at h with hk
  · exact .inl ⟨hk, (Option.some.inj h).symm⟩
  · exact .inr ⟨hk, h⟩

theorem lookup_erase_some {k k' : κ} {u : ν} (h : AList.lookup k' (AList.erase k t) = some u) :
    k' ≠ k ∧ AList.lookup k' t = some u := by
  rw [lookup_erase_eq] at h
  split_ifs at h with hk
  exact ⟨hk, h⟩

theorem lookup_eq_some_iff {k : κ} {v : ν} :
    AList.lookup k t = some v ↔ Sigma.mk k v ∈ t.entries := by
  rw [← AList.mem_lookup_iff, Option.mem_def]

theorem entries_of_unique {k₀ : κ} {v₀ : ν}
    (h : ∀ k v, AList.lookup k t = some v → v = v₀ ∧ k = k₀) :
    t.entries = [] ∨ t.entries = [⟨k₀, v₀⟩] := by
  have hmem : ∀ e ∈ t.entries, e = ⟨k₀, v₀⟩ := by
    rintro ⟨k, v⟩ he
    obtain ⟨rfl, rfl⟩ := h k v ((lookup_eq_some_iff t).mpr he)
    rfl
  have hnodup := t.nodupKeys
  cases hent : t.entries with
  | nil => exact .inl rfl
  | cons e rest =>
      rw [hent] at hmem hnodup
      right
      cases rest with
      | nil => rw [hmem e List.mem_cons_self]
      | cons e' rest =>
          -- two entries would have the same key
          have hkeys := (List.nodupKeys_cons.mp hnodup).1
          rw [hmem e List.mem_cons_self, hmem e' (List.mem_cons_of_mem _ List.mem_cons_self)] at hkeys
          exact absurd (List.mem_cons_self) hkeys

/-- Erase every entry whose value is `v`. -/
def eraseValue [DecidableEq ν] (v : ν) : Table κ ν :=
  ⟨t.entries.filter fun e => e.2 ≠ v, t.nodupKeys.sublist List.filter_sublist⟩

theorem lookup_eraseValue_eq_some [DecidableEq ν] {k : κ} {u v : ν} :
    AList.lookup k (eraseValue t v) = some u ↔ AList.lookup k t = some u ∧ u ≠ v := by
  rw [lookup_eq_some_iff, lookup_eq_some_iff]
  simp [eraseValue]

theorem lookup_eraseValue_eq_none [DecidableEq ν] {k : κ} {v : ν}
    (h : ∀ u, AList.lookup k t = some u → u = v) : AList.lookup k (eraseValue t v) = none := by
  rw [Option.eq_none_iff_forall_ne_some]
  intro u hu
  obtain ⟨hu, hne⟩ := (lookup_eraseValue_eq_some t).mp hu
  exact hne (h u hu)

end Table

end NetBridge
