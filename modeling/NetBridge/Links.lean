import Mathlib.Algebra.Order.Group.Int
import NetBridge.Emulator
import NetBridge.Pacing
import NetBridge.Topology

/-! # Links

`Edge::schedulePkt` (`edge.cpp`) and `EmulatedLink::schedulePkt` (`emulated_link.cpp`) pace the
packets of a link by its options.  They are the same but for the checks and the two endpoints of an
edge: `EdgeOptions.schedulePkt` is what they share.

To the packets from one endpoint a link is a server that does one job at a time (`Pacing`), so the
transmissions of a sequence of packets do not overlap (`Paced`).  What happens at one endpoint does
not depend on the packets from the other (`Edge.results_eq`). -/

namespace NetBridge

variable {δ : Type}

/-- What becomes of a packet: it raises one of the counters of the manager, or it arrives. -/
inductive PktOutcome where
  | dropped
  | lost
  | arrives (time : Int)
deriving DecidableEq

/-- The value of `schedulePkt`. -/
def PktOutcome.value : PktOutcome → Int
  | .dropped => -1
  | .lost => -1
  | .arrives time => time

/-- How long it takes to send a packet. -/
def EdgeOptions.cost (o : EdgeOptions δ) (size : Int) : Int :=
  (size * 1000000).tdiv o.bwBytesPerSec

/-- What becomes of a packet from an endpoint that may send again at `sendTime`, and when the
endpoint may send after it. -/
def EdgeOptions.schedulePkt (o : EdgeOptions δ) (sendTime size nowMicros : Int) (lost : Bool) :
    PktOutcome × Int :=
  let currentPktSendTime := max nowMicros sendTime
  let finishTime := currentPktSendTime + o.cost size
  if finishTime - nowMicros > o.bufferingMs * 1000 then (.dropped, sendTime)
  else if lost then (.lost, finishTime)
  else (.arrives (finishTime + o.delayMs * 1000), finishTime)

namespace Edge

/-- `nextSendTimeA_` or `nextSendTimeB_`. -/
def sendTime (src : Int) (e : Edge δ) : Int := if src = e.a then e.nextSendTimeA else e.nextSendTimeB

def setSendTime (src : Int) (e : Edge δ) (time : Int) : Edge δ :=
  if src = e.a then { e with nextSendTimeA := time } else { e with nextSendTimeB := time }

/-- `Edge::schedulePkt`, where `draw` is the outcome of the draw against the loss rate. -/
def schedulePkt (e : Edge δ) (src size nowMicros : Int) (draw : Bool) :
    Except String (PktOutcome × Edge δ) :=
  if size > Packet.MAX_PACKET_SIZE then
    .error ("Packet size must be less than Packet.MAX_PACKET_SIZE. Size = " ++ toString size)
  else if src ≠ e.a ∧ src ≠ e.b then .error "Src specified is not part of this edge"
  else
    let (outcome, time) :=
      e.options.schedulePkt (e.sendTime src) size nowMicros (!e.live || draw)
    .ok (outcome, e.setSendTime src time)

end Edge

/-- `EmulatedLink::schedulePkt` with what becomes of the packet. -/
def EmulatedLink.transmit (l : EmulatedLink δ) (size nowMicros : Int) (lost : Bool) :
    PktOutcome × EmulatedLink δ :=
  let (outcome, time) := l.options.schedulePkt l.nextSendTime size nowMicros lost
  (outcome, { l with nextSendTime := time })

theorem EmulatedLink.schedulePkt_eq (l : EmulatedLink δ) (size nowMicros : Int) (lost : Bool) :
    l.schedulePkt size nowMicros lost =
      ((l.transmit size nowMicros lost).1.value, (l.transmit size nowMicros lost).2) := by
  unfold EmulatedLink.schedulePkt transmit EdgeOptions.schedulePkt EdgeOptions.cost
  simp only
  split_ifs <;> rfl

/-! ### Sequences of packets -/

/-- A packet that is given to a link of type `Λ`, the link before and after it, and what becomes of
it. -/
structure Transmission (Λ : Type) where
  size : ℕ
  now : Int
  before : Λ
  after : Λ
  outcome : PktOutcome

section paced
variable {Λ : Type} (sendTime : Λ → Int) (o : EdgeOptions δ)

/-- What the options promise about the packets from one endpoint.  The transmission of an accepted
packet takes its `cost` and ends at the time from which the endpoint may send again. -/
structure Paced (ts : List (Transmission Λ)) : Prop where
  disjoint : (ts.filter (·.outcome ≠ .dropped)).Pairwise fun t u =>
    sendTime t.after ≤ sendTime u.after - o.cost u.size
  begins : ∀ t ∈ ts, t.outcome ≠ .dropped →
    t.now ≤ sendTime t.after - o.cost t.size ∧ sendTime t.after - o.cost t.size ≤ sendTime t.after
  refused_iff : ∀ t ∈ ts, t.outcome = .dropped ↔
    max t.now (sendTime t.before) + o.cost t.size - t.now > o.bufferingMs * 1000
  unchanged : ∀ t ∈ ts, t.outcome = .dropped → t.after = t.before
  arrives : ∀ t ∈ ts, ∀ time, t.outcome = .arrives time →
    time = sendTime t.after + o.delayMs * 1000 ∧ t.now ≤ time

/-- What happens to a packet of an endpoint is what happens to a job. -/
def Transmission.visit (t : Transmission Λ) : Pacing.Visit Int where
  now := t.now
  cost := o.cost t.size
  before := sendTime t.before
  after := sendTime t.after
  accepted := t.outcome ≠ .dropped

/-- The packet is scheduled by the options, and the rest of the link is left alone. -/
structure Transmission.Scheduled (t : Transmission Λ) : Prop where
  eq : ∃ lost, (t.outcome, sendTime t.after) = o.schedulePkt (sendTime t.before) t.size t.now lost
  unchanged : sendTime t.after = sendTime t.before → t.after = t.before

variable {sendTime o}

theorem EdgeOptions.cost_nonneg (hbw : 0 < o.bwBytesPerSec) (size : ℕ) : 0 ≤ o.cost size := by
  apply Int.tdiv_nonneg
  · omega
  · exact hbw.le

theorem Transmission.Scheduled.served {t : Transmission Λ} (h : t.Scheduled sendTime o) :
    (t.visit sendTime o).Served (o.bufferingMs * 1000) := by
  obtain ⟨lost, heq⟩ := h.eq
  unfold EdgeOptions.schedulePkt at heq
  simp only at heq
  split_ifs at heq with hlate hlost <;> obtain ⟨houtcome, hafter⟩ := Prod.mk.inj heq
  · exact ⟨by simp [visit, Pacing.Visit.finish, houtcome]; omega, by simp [visit, houtcome, hafter]⟩
  · exact ⟨by simp [visit, Pacing.Visit.finish, houtcome]; omega,
      by simp [visit, Pacing.Visit.finish, houtcome, hafter]⟩
  · exact ⟨by simp [visit, Pacing.Visit.finish, houtcome]; omega,
      by simp [visit, Pacing.Visit.finish, houtcome, hafter]⟩

theorem Transmission.Scheduled.arrives {t : Transmission Λ} (h : t.Scheduled sendTime o) {time : Int}
    (harrives : t.outcome = .arrives time) : time = sendTime t.after + o.delayMs * 1000 := by
  obtain ⟨lost, heq⟩ := h.eq
  unfold EdgeOptions.schedulePkt at heq
  simp only at heq
  split_ifs at heq <;> obtain ⟨houtcome, hafter⟩ := Prod.mk.inj heq <;>
    rw [harrives] at houtcome
  · cases houtcome
  · cases houtcome
  · rw [hafter]
    exact PktOutcome.arrives.inj houtcome

/-- A packet puts off the next one, and arrives after a delay when it is finished. -/
theorem EdgeOptions.schedulePkt_spec (hbw : 0 < o.bwBytesPerSec) (sendTime : Int) (size : ℕ)
    (nowMicros : Int) (lost : Bool) {outcome : PktOutcome} {after : Int}
    (h : o.schedulePkt sendTime size nowMicros lost = (outcome, after)) :
    sendTime ≤ after ∧
      ∀ time, outcome = .arrives time → time = after + o.delayMs * 1000 ∧ nowMicros ≤ after := by
  have hscheduled : Transmission.Scheduled id o ⟨size, nowMicros, sendTime, after, outcome⟩ :=
    ⟨⟨lost, h.symm⟩, id⟩
  have hcost := cost_nonneg hbw size
  refine ⟨hscheduled.served.before_le_after hcost, ?_⟩
  intro time harrives
  have hnow := hscheduled.served.now_le (by simp [Transmission.visit, harrives])
  simp only [Transmission.visit, id] at hnow
  exact ⟨hscheduled.arrives harrives, by omega⟩

/-- Packets that are scheduled one after the other are paced. -/
theorem paced_of_consecutive (hbw : 0 < o.bwBytesPerSec) (hdelay : 0 ≤ o.delayMs)
    {ts : List (Transmission Λ)} (hscheduled : ∀ t ∈ ts, t.Scheduled sendTime o) {free : Int}
    (hcons : Pacing.Consecutive free (ts.map (·.visit sendTime o))) : Paced sendTime o ts := by
  have hserved : ∀ v ∈ ts.map (·.visit sendTime o), v.Served (o.bufferingMs * 1000) := by
    rw [List.forall_mem_map]
    exact fun t ht => (hscheduled t ht).served
  have hcost : ∀ v ∈ ts.map (·.visit sendTime o), 0 ≤ v.cost := by
    rw [List.forall_mem_map]
    exact fun t _ => EdgeOptions.cost_nonneg hbw t.size
  have hbegins : ∀ t ∈ ts, t.outcome ≠ .dropped → t.now ≤ sendTime t.after - o.cost t.size :=
    fun t ht ha => (hscheduled t ht).served.now_le (by simpa [Transmission.visit] using ha)
  constructor
  · have h := hcons.disjoint hserved hcost
    rw [List.pairwise_map] at h
    refine List.pairwise_filter.mpr (h.imp ?_)
    intro t u htu _ hu
    exact htu (by simpa [Transmission.visit] using hu)
  · intro t ht ha
    have hc := EdgeOptions.cost_nonneg hbw t.size
    exact ⟨hbegins t ht ha, by omega⟩
  · intro t ht
    have h := (hscheduled t ht).served.accepted_iff
    simp only [Transmission.visit, Pacing.Visit.finish, decide_eq_true_eq] at h
    rw [gt_iff_lt, ← not_le, ← h, not_not]
  · intro t ht hdropped
    apply (hscheduled t ht).unchanged
    have h := (hscheduled t ht).served.after_eq
    simpa [Transmission.visit, hdropped] using h
  · intro t ht time harrives
    have hb := hbegins t ht (by simp [harrives])
    have hc := EdgeOptions.cost_nonneg hbw t.size
    have htime := (hscheduled t ht).arrives harrives
    exact ⟨htime, by omega⟩

end paced

/-! ### The endpoints of an edge -/

namespace Edge

variable {e e' : Edge δ} {src other : Int}

@[simp] theorem setSendTime_options (src : Int) (e : Edge δ) (time : Int) :
    (e.setSendTime src time).options = e.options := by
  unfold setSendTime
  split_ifs <;> rfl

@[simp] theorem setSendTime_a (src : Int) (e : Edge δ) (time : Int) :
    (e.setSendTime src time).a = e.a := by
  unfold setSendTime
  split_ifs <;> rfl

@[simp] theorem setSendTime_b (src : Int) (e : Edge δ) (time : Int) :
    (e.setSendTime src time).b = e.b := by
  unfold setSendTime
  split_ifs <;> rfl

@[simp] theorem setSendTime_live (src : Int) (e : Edge δ) (time : Int) :
    (e.setSendTime src time).live = e.live := by
  unfold setSendTime
  split_ifs <;> rfl

@[simp] theorem sendTime_setSendTime (src : Int) (e : Edge δ) (time : Int) :
    (e.setSendTime src time).sendTime src = time := by
  unfold sendTime setSendTime
  split_ifs <;> simp_all

theorem setSendTime_sendTime (src : Int) (e : Edge δ) : e.setSendTime src (e.sendTime src) = e := by
  unfold sendTime setSendTime
  split_ifs <;> rfl

theorem sendTime_setSendTime_of_ne (hsrc : src = e.a ∨ src = e.b) (hother : other = e.a ∨ other = e.b)
    (hne : other ≠ src) (time : Int) :
    (e.setSendTime other time).sendTime src = e.sendTime src := by
  unfold sendTime setSendTime
  grind

@[simp] theorem sendTime_setState (src : Int) (e : Edge δ) (live : Bool) :
    (e.setState live).sendTime src = e.sendTime src := rfl

/-- A packet is scheduled by the options of the edge at the endpoint that it comes from. -/
theorem schedulePkt_ok {size nowMicros : Int} {draw : Bool} {outcome : PktOutcome}
    (h : e.schedulePkt src size nowMicros draw = .ok (outcome, e')) :
    (src = e.a ∨ src = e.b) ∧
      ∃ time, e.options.schedulePkt (e.sendTime src) size nowMicros (!e.live || draw) =
        (outcome, time) ∧ e' = e.setSendTime src time := by
  unfold schedulePkt at h
  split_ifs at h with hsize hsrc
  obtain ⟨rfl, rfl⟩ := Prod.mk.inj (Except.ok.inj h)
  exact ⟨by tauto, _, rfl, rfl⟩

/-- A call on an edge whose options stay as they are. -/
inductive Call where
  | schedulePkt (src : Int) (size : ℕ) (nowMicros : Int) (draw : Bool)
  | setState (live : Bool)
deriving DecidableEq

/-- The calls that are not packets from another node. -/
def Call.concerns (src : Int) : Call → Bool
  | .schedulePkt src' _ _ _ => src' = src
  | .setState _ => true

/-- The packets from `src` that are scheduled by a sequence of calls.  A call that throws changes
nothing. -/
def transmissions (src : Int) : Edge δ → List Call → List (Transmission (Edge δ))
  | _, [] => []
  | e, .setState live :: calls => transmissions src (e.setState live) calls
  | e, .schedulePkt src' size nowMicros draw :: calls =>
      match e.schedulePkt src' size nowMicros draw with
      | .error _ => transmissions src e calls
      | .ok (outcome, e') =>
          if src' = src then ⟨size, nowMicros, e, e', outcome⟩ :: transmissions src e' calls
          else transmissions src e' calls

/-- The packets from `src` are scheduled one after the other, whatever the other node sends. -/
theorem transmissions_consecutive {o : EdgeOptions δ} (hsrc : src = e.a ∨ src = e.b)
    (ho : e.options = o) (calls : List Call) :
    (∀ t ∈ e.transmissions src calls, t.Scheduled (sendTime src) o) ∧
      Pacing.Consecutive (e.sendTime src)
        ((e.transmissions src calls).map (·.visit (sendTime src) o)) := by
  induction calls generalizing e with
  | nil => exact ⟨fun t ht => absurd ht List.not_mem_nil, trivial⟩
  | cons c calls ih =>
      cases c with
      | setState live => exact ih (e := e.setState live) hsrc ho
      | schedulePkt src' size nowMicros draw =>
          unfold transmissions
          cases h : e.schedulePkt src' size nowMicros draw with
          | error err => exact ih hsrc ho
          | ok r =>
              obtain ⟨hsrc', time, htime, hr⟩ := schedulePkt_ok h
              obtain ⟨hscheduled, hcons⟩ := ih (e := r.2) (by simpa [hr] using hsrc)
                (by simpa [hr] using ho)
              simp only
              split_ifs with heq
              · subst heq
                refine ⟨List.forall_mem_cons.mpr ⟨⟨⟨!e.live || draw, ?_⟩, ?_⟩, hscheduled⟩, rfl, hcons⟩
                · rw [← ho, htime, hr, sendTime_setSendTime]
                · intro hsame
                  simp only [hr, sendTime_setSendTime] at hsame ⊢
                  rw [hsame, setSendTime_sendTime]
              · refine ⟨hscheduled, ?_⟩
                rw [hr, sendTime_setSendTime_of_ne hsrc hsrc' heq] at hcons
                rw [hr]
                exact hcons

/-- What happens to the packets from `src`. -/
def results (src : Int) (e : Edge δ) (calls : List Call) : List (Int × PktOutcome) :=
  (e.transmissions src calls).map fun t => (t.now, t.outcome)

/-- Two edges that differ in the time of the other node only. -/
structure SameFor (src : Int) (e e' : Edge δ) : Prop where
  a : e'.a = e.a
  b : e'.b = e.b
  live : e'.live = e.live
  options : e'.options = e.options
  sendTime : e'.sendTime src = e.sendTime src

theorem SameFor.trans {e₁ e₂ e₃ : Edge δ} (h : SameFor src e₁ e₂) (h' : SameFor src e₂ e₃) :
    SameFor src e₁ e₃ :=
  ⟨h'.a.trans h.a, h'.b.trans h.b, h'.live.trans h.live, h'.options.trans h.options,
    h'.sendTime.trans h.sendTime⟩

theorem SameFor.symm (h : SameFor src e e') : SameFor src e' e :=
  ⟨h.a.symm, h.b.symm, h.live.symm, h.options.symm, h.sendTime.symm⟩

theorem results_cons_of_ne (hsrc : src = e.a ∨ src = e.b) (hne : other ≠ src) (size : ℕ)
    (nowMicros : Int) (draw : Bool) (calls : List Call) :
    ∃ e₁, SameFor src e e₁ ∧
      e.results src (.schedulePkt other size nowMicros draw :: calls) = e₁.results src calls := by
  unfold results
  rw [transmissions]
  cases h : e.schedulePkt other size nowMicros draw with
  | error err => exact ⟨e, ⟨rfl, rfl, rfl, rfl, rfl⟩, rfl⟩
  | ok r =>
      obtain ⟨hother, time, -, hr⟩ := schedulePkt_ok h
      refine ⟨r.2, ?_, by simp only [if_neg hne]⟩
      rw [hr]
      exact ⟨by simp, by simp, by simp, by simp, sendTime_setSendTime_of_ne hsrc hother hne time⟩

theorem SameFor.results_eq (h : SameFor src e e') (hsrc : src = e.a ∨ src = e.b)
    (calls : List Call) :
    e'.results src (calls.filter (Call.concerns src)) = e.results src calls := by
  induction calls generalizing e e' with
  | nil => rfl
  | cons c calls ih =>
      cases c with
      | setState live =>
          have hstate : SameFor src (e.setState live) (e'.setState live) :=
            ⟨h.a, h.b, rfl, h.options, h.sendTime⟩
          exact ih hstate hsrc
      | schedulePkt src' size nowMicros draw =>
          by_cases heq : src' = src
          · subst heq
            simp only [List.filter_cons, Call.concerns, decide_true, if_true, results, transmissions]
            unfold schedulePkt
            rw [h.a, h.b, h.live, h.options, h.sendTime]
            split_ifs with hsize hnone
            · exact ih h hsrc
            · exact ih h hsrc
            · simp only [List.map_cons, List.cons.injEq, true_and]
              apply ih _ (by simpa using hsrc)
              exact ⟨by simp [h.a], by simp [h.b], by simp [h.live], by simp [h.options], by simp⟩
          · have hc : Call.concerns src (.schedulePkt src' size nowMicros draw) = false := by
              simpa [Call.concerns] using heq
            rw [List.filter_cons, hc, if_neg Bool.false_ne_true]
            obtain ⟨e₁, hsame, hresults⟩ := results_cons_of_ne hsrc heq size nowMicros draw calls
            rw [hresults]
            apply ih (hsame.symm.trans h)
            rw [hsame.a, hsame.b]
            exact hsrc

/-- **The endpoints of an edge are independent**: without the packets from the other node, those from
`src` fare as they do with them. -/
theorem results_eq (hsrc : src = e.a ∨ src = e.b) (calls : List Call) :
    e.results src (calls.filter (Call.concerns src)) = e.results src calls :=
  SameFor.results_eq ⟨rfl, rfl, rfl, rfl, rfl⟩ hsrc calls

end Edge

/-! ### An emulated link -/

namespace EmulatedLink

/-- The packets that are given to a link, with their sizes, times and draws. -/
def transmissions : EmulatedLink δ → List (ℕ × Int × Bool) → List (Transmission (EmulatedLink δ))
  | _, [] => []
  | l, (size, nowMicros, lost) :: calls =>
      let (outcome, l') := l.transmit size nowMicros lost
      ⟨size, nowMicros, l, l', outcome⟩ :: l'.transmissions calls

theorem transmit_scheduled (l : EmulatedLink δ) (size : ℕ) (nowMicros : Int) (lost : Bool) :
    (⟨size, nowMicros, l, (l.transmit size nowMicros lost).2,
      (l.transmit size nowMicros lost).1⟩ : Transmission _).Scheduled nextSendTime l.options := by
  refine ⟨⟨lost, rfl⟩, ?_⟩
  intro hsame
  have heta : (l.transmit size nowMicros lost).2 =
      { l with nextSendTime := (l.transmit size nowMicros lost).2.nextSendTime } := rfl
  simp only at hsame ⊢
  rw [heta, hsame]

theorem transmissions_consecutive {l : EmulatedLink δ} {o : EdgeOptions δ} (ho : l.options = o)
    (calls : List (ℕ × Int × Bool)) :
    (∀ t ∈ l.transmissions calls, t.Scheduled nextSendTime o) ∧
      Pacing.Consecutive l.nextSendTime
        ((l.transmissions calls).map (·.visit nextSendTime o)) := by
  induction calls generalizing l with
  | nil => exact ⟨fun t ht => absurd ht List.not_mem_nil, trivial⟩
  | cons c calls ih =>
      obtain ⟨size, nowMicros, lost⟩ := c
      obtain ⟨hscheduled, hcons⟩ := ih (l := (l.transmit size nowMicros lost).2) ho
      have hfirst := l.transmit_scheduled size nowMicros lost
      rw [ho] at hfirst
      exact ⟨List.forall_mem_cons.mpr ⟨hfirst, hscheduled⟩, rfl, hcons⟩

end EmulatedLink

end NetBridge
