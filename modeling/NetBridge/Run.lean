import Mathlib.Data.List.Basic

/-! # Runs of a labelled transition function

A system is given by a step function `step : σ → ε → σ` that takes a state and an event.
`run step s es` is the state after the events `es`, and `Guarded step P s es` says that every
event of that run meets `P` in the state in which it happens.  The rules of this module are the
only inductions over runs: an invariant is shown for the initial state and for one step
(`run_induction`, `guarded_induction`), and holds after every run. -/

namespace NetBridge

variable {σ ε : Type*} (step : σ → ε → σ)

/-- The state reached from `s` by the events `es`. -/
def run (s : σ) (es : List ε) : σ := es.foldl step s

@[simp] theorem run_nil (s : σ) : run step s [] = s := rfl

@[simp] theorem run_cons (s : σ) (e : ε) (es : List ε) :
    run step s (e :: es) = run step (step s e) es := rfl

theorem run_append (s : σ) (es fs : List ε) :
    run step s (es ++ fs) = run step (run step s es) fs := List.foldl_append

/-- Every event of the run from `s` meets `P` in the state in which it happens. -/
def Guarded (P : σ → ε → Prop) : σ → List ε → Prop
  | _, [] => True
  | s, e :: es => P s e ∧ Guarded P (step s e) es

instance Guarded.decidable (P : σ → ε → Prop) [∀ s e, Decidable (P s e)] :
    ∀ (s : σ) (es : List ε), Decidable (Guarded step P s es)
  | _, [] => inferInstanceAs (Decidable True)
  | s, e :: es =>
      have := Guarded.decidable P (step s e) es
      inferInstanceAs (Decidable (P s e ∧ Guarded step P (step s e) es))

variable {step}

theorem guarded_append {P : σ → ε → Prop} {s : σ} {es fs : List ε} :
    Guarded step P s (es ++ fs) ↔ Guarded step P s es ∧ Guarded step P (run step s es) fs := by
  induction es generalizing s with
  | nil => simp [Guarded]
  | cons e es ih => simp [Guarded, ih, and_assoc]

/-- A condition on the events alone. -/
theorem guarded_of_forall {P : ε → Prop} {es : List ε} (h : ∀ e ∈ es, P e) (s : σ) :
    Guarded step (fun _ => P) s es := by
  induction es generalizing s with
  | nil => trivial
  | cons e es ih =>
      obtain ⟨he, hes⟩ := List.forall_mem_cons.mp h
      exact ⟨he, ih hes _⟩

/-- An invariant of the guarded steps holds after every guarded run. -/
theorem guarded_induction {P : σ → ε → Prop} {I : σ → Prop}
    (hstep : ∀ s e, I s → P s e → I (step s e)) {s : σ} (hs : I s) {es : List ε}
    (hes : Guarded step P s es) : I (run step s es) := by
  induction es generalizing s with
  | nil => exact hs
  | cons e es ih => exact ih (hstep s e hs hes.1) hes.2

/-- An invariant of all steps holds after every run. -/
theorem run_induction {I : σ → Prop} (hstep : ∀ s e, I s → I (step s e)) {s : σ} (hs : I s)
    (es : List ε) : I (run step s es) := by
  induction es generalizing s with
  | nil => exact hs
  | cons e es ih => exact ih (hstep s e hs)

/-- In runs whose steps meet `G` and so keep `J`: where a step keeps the invariant `I` exactly if it
meets `P`, all states of a run have it exactly if all steps of the run meet `P`. -/
theorem guarded_iff_of {G P : σ → ε → Prop} {I J : σ → Prop}
    (hkeep : ∀ s e, J s → G s e → J (step s e))
    (hstep : ∀ s e, J s → G s e → I s → (I (step s e) ↔ P s e)) {s : σ} (hJ : J s) (hs : I s)
    {es : List ε} (hes : Guarded step G s es) :
    Guarded step P s es ↔ ∀ before after, es = before ++ after → I (run step s before) := by
  induction es generalizing s with
  | nil => simp [Guarded, hs]
  | cons e es ih =>
      have hnext := hstep s e hJ hes.1 hs
      have hrest := fun h : I (step s e) => ih (hkeep s e hJ hes.1) h hes.2
      constructor
      · rintro ⟨he, hes⟩ before after hsplit
        cases before with
        | nil => exact hs
        | cons e' before =>
            obtain ⟨rfl, rfl⟩ := List.cons.inj hsplit
            exact (hrest (hnext.mpr he)).mp hes before after rfl
      · intro h
        have hI : I (step s e) := h [e] es rfl
        refine ⟨hnext.mp hI, (hrest hI).mpr ?_⟩
        intro before after hsplit
        exact h (e :: before) after (by rw [hsplit]; rfl)

/-- The same in all runs. -/
theorem guarded_iff {P : σ → ε → Prop} {I : σ → Prop}
    (hstep : ∀ s e, I s → (I (step s e) ↔ P s e)) {s : σ} (hs : I s) {es : List ε} :
    Guarded step P s es ↔ ∀ before after, es = before ++ after → I (run step s before) :=
  guarded_iff_of (G := fun _ _ => True) (J := fun _ => True) (fun _ _ _ _ => trivial)
    (fun s e _ _ => hstep s e) trivial hs (guarded_of_forall (fun _ _ => trivial) s)

/-- If every guarded step lowers a measure, a guarded run has no more steps than the measure. -/
theorem guarded_length_le {P : σ → ε → Prop} {I : σ → Prop} {μ : σ → ℕ}
    (hstep : ∀ s e, I s → P s e → I (step s e) ∧ μ (step s e) + 1 ≤ μ s) {s : σ} (hs : I s)
    {es : List ε} (hes : Guarded step P s es) : es.length + μ (run step s es) ≤ μ s := by
  induction es generalizing s with
  | nil => simp
  | cons e es ih =>
      obtain ⟨hnext, hless⟩ := hstep s e hs hes.1
      have hrest := ih hnext hes.2
      rw [run_cons, List.length_cons]
      omega

end NetBridge
