import Mathlib.Algebra.Order.Group.Defs
import Mathlib.Algebra.Order.Group.Unbundled.Basic
import Mathlib.Algebra.Order.Sub.Defs
import Mathlib.Order.Basic
import Mathlib.Tactic.Common

/-! # A server that does one job at a time

A server works on its jobs in the order in which they are brought.  A job that is brought at `now`
begins when it is brought or when the server is free, whichever is later, and takes its `cost`; it
is turned away if that would not be over within `limit` of `now`.  A `Visit` records what happens to
one job, with the times from which the server is free before and after it.  Where each job finds the
server as the one before has left it (`Consecutive`), the intervals in which the server works do not
overlap (`disjoint`).  Times are the elements of any linearly ordered group. -/

namespace NetBridge.Pacing

variable {T : Type*} [AddCommGroup T] [LinearOrder T]

/-- A job and what becomes of it: `before` and `after` are the times from which the server is
free. -/
structure Visit (T : Type*) where
  now : T
  cost : T
  before : T
  after : T
  accepted : Bool

namespace Visit

/-- When the job is over if it is accepted. -/
def finish (v : Visit T) : T := max v.now v.before + v.cost

/-- The server turns away what would take too long, and is then as it was; else it is free again at
the end of the job. -/
structure Served (limit : T) (v : Visit T) : Prop where
  accepted_iff : v.accepted = true ↔ v.finish - v.now ≤ limit
  after_eq : v.after = if v.accepted then v.finish else v.before

variable {limit : T} {v : Visit T}

theorem Served.after_of_accepted (h : v.Served limit) (ha : v.accepted = true) :
    v.after = max v.now v.before + v.cost := by
  rw [h.after_eq, if_pos ha, finish]

theorem Served.now_le (h : v.Served limit) (ha : v.accepted = true) :
    v.now ≤ v.after - v.cost := by
  rw [h.after_of_accepted ha, add_sub_cancel_right]
  exact le_max_left _ _

theorem Served.before_le (h : v.Served limit) (ha : v.accepted = true) :
    v.before ≤ v.after - v.cost := by
  rw [h.after_of_accepted ha, add_sub_cancel_right]
  exact le_max_right _ _

theorem Served.before_le_after [IsOrderedAddMonoid T] (h : v.Served limit) (hcost : 0 ≤ v.cost) :
    v.before ≤ v.after := by
  by_cases ha : v.accepted = true
  · exact (h.before_le ha).trans (sub_le_self _ hcost)
  · rw [h.after_eq, if_neg ha]

end Visit

/-- Each job finds the server as the one before has left it, and the first finds it free from `free`
on. -/
def Consecutive : T → List (Visit T) → Prop
  | _, [] => True
  | free, v :: vs => v.before = free ∧ Consecutive v.after vs

variable [IsOrderedAddMonoid T] {limit free : T} {vs : List (Visit T)}

theorem Consecutive.free_le (h : Consecutive free vs) (hserved : ∀ v ∈ vs, v.Served limit)
    (hcost : ∀ v ∈ vs, 0 ≤ v.cost) : ∀ v ∈ vs, v.accepted = true → free ≤ v.after - v.cost := by
  induction vs generalizing free with
  | nil => exact fun v hv => absurd hv List.not_mem_nil
  | cons u vs ih =>
      obtain ⟨hbefore, hrest⟩ := h
      have hu := hserved u List.mem_cons_self
      intro v hv ha
      obtain rfl | hv := List.mem_cons.mp hv
      · exact hbefore ▸ hu.before_le ha
      · calc free = u.before := hbefore.symm
          _ ≤ u.after := hu.before_le_after (hcost u List.mem_cons_self)
          _ ≤ v.after - v.cost := ih hrest (fun v hv => hserved v (List.mem_cons_of_mem u hv))
              (fun v hv => hcost v (List.mem_cons_of_mem u hv)) v hv ha

/-- **One job at a time**: the interval of an accepted job is over before that of the next begins. -/
theorem Consecutive.disjoint (h : Consecutive free vs) (hserved : ∀ v ∈ vs, v.Served limit)
    (hcost : ∀ v ∈ vs, 0 ≤ v.cost) :
    vs.Pairwise fun v w => w.accepted = true → v.after ≤ w.after - w.cost := by
  induction vs generalizing free with
  | nil => exact List.Pairwise.nil
  | cons v vs ih =>
      have hserved' := fun w hw => hserved w (List.mem_cons_of_mem v hw)
      have hcost' := fun w hw => hcost w (List.mem_cons_of_mem v hw)
      exact List.pairwise_cons.mpr ⟨h.2.free_le hserved' hcost', ih h.2 hserved' hcost'⟩

end NetBridge.Pacing
