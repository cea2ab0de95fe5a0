import NetBridge.Delivery
import NetBridge.StackNode

/-! # What has happened on the connection

`Sys.journal` is the record of a run: which segments each side has sent, with the clock reading of
the call, and which segments each side has taken into its receive buffer, in the order in which the
code does these things.  The record is not part of the system and nothing depends on it; it is what
statements about the past of a run are about.

`Sys.journal_rule` extends the rule for invariants of the two ends and the wire (`Sys.ends_rule`) to
invariants that also speak about the record. -/

namespace NetBridge

/-- An entry of the record. -/
inductive Mark where
  | sent (w : Party) (now : Option Int) (p : Sent)
  | accepted (w : Party) (t : Transport)
deriving DecidableEq

/-- The clock reading of an event that takes one. -/
def Event.reading : Event → Option Int
  | .write _ now .. | .tick _ now | .deliver _ now => some now
  | .read .. | .accept .. | .close .. | .drop _ | .duplicate _ => none

/-- The clock never goes back. -/
def ClockForward (es : List Event) : Prop := (es.filterMap Event.reading).Pairwise (· ≤ ·)

instance (es : List Event) : Decidable (ClockForward es) :=
  inferInstanceAs (Decidable (List.Pairwise _ _))

/-- The segment whose data the operation has appended to what had been received. -/
def Op.accepts (before after : List UInt8) : Op → List Transport
  | .receive _ _ t =>
      if t.type = .DATA ∧ t.payload ≠ [] ∧ after = before ++ t.payload then [t] else []
  | _ => []

theorem Op.accepts_self (op : Op) (before : List UInt8) : op.accepts before before = [] := by
  cases op with
  | receive now srcAddr t =>
      rw [Op.accepts, if_neg]
      rintro ⟨_, hne, hsame⟩
      exact hne (List.self_eq_append_right.mp hsame)
  | socket | bind | listen | accept | connect | close | release | write | read | tick => rfl

/-- The entries of an operation at side `w`: `onData` stores before it acknowledges. -/
def marksOf (w : Party) (op : Op) (before after : List UInt8) (out : List Sent) : List Mark :=
  (op.accepts before after).map (.accepted w) ++ out.map (.sent w op.reading)

namespace Sys

variable (cfg : Config)

/-- The entries of one event. -/
def marks (σ : Sys) (e : Event) : List Mark :=
  match σ.opOf cfg e with
  | none => []
  | some (w, op) =>
      marksOf w op (σ.received w) ((σ.step cfg e).received w) ((σ.side w).emitted op)

/-- The record of the run from `σ`. -/
def journal : Sys → List Event → List Mark
  | _, [] => []
  | σ, e :: es => σ.marks cfg e ++ journal (σ.step cfg e) es

variable {cfg}

theorem journal_append (σ : Sys) (es : List Event) (e : Event) :
    journal cfg σ (es ++ [e]) =
      journal cfg σ es ++ (run (step cfg) σ es).marks cfg e := by
  induction es generalizing σ with
  | nil => simp [journal]
  | cons f es ih => simp [journal, ih]

theorem opOf_reading {σ : Sys} {e : Event} {w : Party} {op : Op}
    (hop : σ.opOf cfg e = some (w, op)) : op.reading = e.reading := by
  cases e with
  | write | read | accept | close =>
      simp only [opOf, Option.ite_none_right_eq_some, Option.some.injEq, Prod.mk.injEq] at hop
      obtain ⟨_, _, rfl⟩ := hop
      rfl
  | tick =>
      simp only [opOf, Option.some.injEq, Prod.mk.injEq] at hop
      obtain ⟨_, rfl⟩ := hop
      rfl
  | deliver n now =>
      simp only [opOf, Option.bind_eq_bind, Option.bind_eq_some_iff] at hop
      obtain ⟨p, _, w', _, hop⟩ := hop
      cases hop
      rfl
  | drop n => cases hop
  | duplicate n => cases hop

theorem reading_of_mem_journal {σ : Sys} {es : List Event} {w : Party} {now : Int} {p : Sent}
    (h : Mark.sent w (some now) p ∈ journal cfg σ es) : now ∈ es.filterMap Event.reading := by
  induction es generalizing σ with
  | nil => cases h
  | cons e es ih =>
      rw [List.mem_filterMap]
      obtain h | h := List.mem_append.mp h
      · refine ⟨e, List.mem_cons_self, ?_⟩
        unfold marks at h
        cases hop : σ.opOf cfg e with
        | none =>
            rw [hop] at h
            cases h
        | some x =>
            obtain ⟨v, op⟩ := x
            rw [hop] at h
            simp only [marksOf, List.mem_append, List.mem_map, reduceCtorEq, and_false, exists_false,
              Mark.sent.injEq, false_or] at h
            obtain ⟨_, _, _, hreading, _⟩ := h
            rw [← opOf_reading hop]
            exact hreading
      · obtain ⟨e', he', hreading⟩ := List.mem_filterMap.mp (ih h)
        exact ⟨e', List.mem_cons_of_mem _ he', hreading⟩

/-- **The rule for invariants of the two ends, the wire and the record.** -/
theorem journal_rule (cfg : Config) {I : List Mark → (Party → End) → List Sent → Prop}
    (hsub : ∀ log x wire wire', I log x wire → (∀ p ∈ wire', p ∈ wire) → I log x wire')
    (hact : ∀ log x wire w op x' out, (∀ v, EndOk v (x v)) → EndOk w x' → I log x wire →
      Act cfg w (x w) op x' out → Arrival cfg (I log) x wire w op →
      I (log ++ marksOf w op (x w).received x'.received out) (Function.update x w x') (wire ++ out))
    (hinit : I [] ((init cfg).ends cfg) (init cfg).wire) (es : List Event) :
    I (journal cfg (init cfg) es) ((run (step cfg) (init cfg) es).ends cfg)
      (run (step cfg) (init cfg) es).wire := by
  induction es using List.reverseRecOn with
  | nil => exact hinit
  | append_singleton es e ih =>
      rw [journal_append, run_append, run_cons, run_nil]
      have hok := ok_run cfg es
      set σ := run (step cfg) (init cfg) es
      set log := journal cfg (init cfg) es
      obtain ⟨hnet, hQ⟩ := hok.network e
      have hrest : I log (σ.ends cfg) (σ.remaining e) := hsub _ _ _ _ ih (remaining_subset e)
      cases hop : σ.opOf cfg e with
      | none =>
          have hmarks : σ.marks cfg e = [] := by simp only [marks, hop]
          have hstep : σ.step cfg e = { σ with wire := σ.remaining e } := by rw [step, hop]
          rw [hmarks, hstep, List.append_nil]
          exact hrest
      | some y =>
          obtain ⟨w, op⟩ := y
          have hin : Input (σ.side w) (cfg.addr w)
              (fun p => Delivers cfg { σ with wire := σ.remaining e } p ∧
                I log (σ.ends cfg) (p :: σ.remaining e)) op := by
            apply input_of_opOf cfg hop
            intro n now p he hp
            refine ⟨hQ n now p he hp, hsub _ _ _ _ ih ?_⟩
            intro q hq
            obtain rfl | hq := List.mem_cons.mp hq
            · exact List.mem_of_getElem? hp
            · exact remaining_subset e q hq
          have hmarks : σ.marks cfg e = marksOf w op (σ.received w) ((σ.step cfg e).received w)
              ((σ.side w).emitted op) := by simp only [marks, hop]
          obtain ⟨hside, ha⟩ := hnet.acts (hin.imp fun p hp => hp.1)
          rw [hmarks, step_of_opOf cfg hop, ends_act, act_wire]
          have hreceived : (({ σ with wire := σ.remaining e } : Sys).act w op).received w =
              (((σ.side w).perform op).view cfg w).received := by
            rw [received, sock, act_side_self]
            rfl
          rw [hreceived]
          refine hact _ _ _ _ _ _ _ hok.ends ((hok.ends w).act ha (hside.steady.senders _)) hrest ha ?_
          rintro now srcAddr t rfl
          cases hin with
          | @receive _ p hp hdest =>
              obtain ⟨v, hv⟩ := hp.1.sender
              exact ⟨p, rfl, hv.of_dest hdest, fun hty => (hp.1.syn hty).1, hp.2⟩

end Sys

end NetBridge
