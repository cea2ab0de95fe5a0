import NetBridge.CommandsParser
import NetBridge.Network

/-! # The arithmetic of the links

`Links` reckons with the integers.  Here `schedulePkt` is done in `std::int64_t`: a division by zero
and a result that does not fit are faults, and apart from them the two agree (`checked_ok`).  The
options of a link come unchecked from a command, so a fault depends on them, on the packets before
and on the time: `Schedulable` says when there is none and the packet arrives or is counted. -/

namespace NetBridge

variable {δ : Type}

/-- What goes wrong in a call: an exception, or behaviour that is not defined. -/
inductive Fault where
  | invalidArgument (what : String)
  | divisionByZero
  | overflow
deriving DecidableEq

/-- The result of an operation in `std::int64_t`. -/
def int64 (v : Int) : Except Fault Int := if InInt64 v then .ok v else .error .overflow

namespace EdgeOptions

/-- `EdgeOptions.schedulePkt` in `std::int64_t`. -/
def checkedSchedulePkt (o : EdgeOptions δ) (sendTime size nowMicros : Int) (lost : Bool) :
    Except Fault (PktOutcome × Int) := do
  let currentPktSendTime := max nowMicros sendTime
  let bits ← int64 (size * 1000000)
  if o.bwBytesPerSec = 0 then .error .divisionByZero
  else do
    let finishTime ← int64 (currentPktSendTime + bits.tdiv o.bwBytesPerSec)
    let waiting ← int64 (finishTime - nowMicros)
    let bt ← int64 (o.bufferingMs * 1000)
    if waiting > bt then .ok (.dropped, sendTime)
    else if lost then .ok (.lost, finishTime)
    else do
      let delay ← int64 (o.delayMs * 1000)
      let arrival ← int64 (finishTime + delay)
      .ok (.arrives arrival, finishTime)

end EdgeOptions

/-- `Edge::schedulePkt` in `std::int64_t`. -/
def Edge.checkedSchedulePkt (e : Edge δ) (src size nowMicros : Int) (draw : Bool) :
    Except Fault (PktOutcome × Edge δ) :=
  if size > Packet.MAX_PACKET_SIZE then
    .error (.invalidArgument
      ("Packet size must be less than Packet.MAX_PACKET_SIZE. Size = " ++ toString size))
  else if src ≠ e.a ∧ src ≠ e.b then
    .error (.invalidArgument "Src specified is not part of this edge")
  else
    (e.options.checkedSchedulePkt (e.sendTime src) size nowMicros (!e.live || draw)).map
      fun (outcome, time) => (outcome, e.setSendTime src time)

/-- `EmulatedLink::schedulePkt` in `std::int64_t`. -/
def EmulatedLink.checkedSchedulePkt (l : EmulatedLink δ) (size nowMicros : Int) (lost : Bool) :
    Except Fault (PktOutcome × EmulatedLink δ) :=
  (l.options.checkedSchedulePkt l.nextSendTime size nowMicros lost).map
    fun (outcome, time) => (outcome, { l with nextSendTime := time })

/-! ### The two arithmetics -/

theorem int64_eq_ok {v w : Int} : int64 v = .ok w ↔ InInt64 v ∧ v = w := by
  unfold int64
  split_ifs with h <;> simp [h]

section bind
variable {α β : Type}

theorem bind_eq_ok {x : Except Fault α} {f : α → Except Fault β} {b : β} :
    x >>= f = .ok b ↔ ∃ a, x = .ok a ∧ f a = .ok b := by
  cases x with
  | error err => simp [bind, Except.bind]
  | ok a => simp [bind, Except.bind]

theorem map_eq_ok {x : Except Fault α} {f : α → β} {b : β} :
    x.map f = .ok b ↔ ∃ a, x = .ok a ∧ f a = b := by
  cases x <;> simp [Except.map]

end bind

/-- The condition for a packet, on the options of the link, on when the endpoint may send again and on
the time.  The bounds are `INT64_MAX / 1000` and `INT64_MAX`. -/
structure Schedulable (o : EdgeOptions δ) (sendTime size nowMicros : Int) (lost : Bool) : Prop where
  bw : o.bwBytesPerSec ≠ 0
  bt : -9223372036854775 ≤ o.bufferingMs ∧ o.bufferingMs ≤ 9223372036854775
  finish : max nowMicros sendTime + o.cost size ≤ 9223372036854775807
  arrival : lost = false →
    max nowMicros sendTime + o.cost size - nowMicros ≤ o.bufferingMs * 1000 →
      (-9223372036854775 ≤ o.delayMs ∧ o.delayMs ≤ 9223372036854775) ∧
        nowMicros ≤ max nowMicros sendTime + o.cost size + o.delayMs * 1000 ∧
        max nowMicros sendTime + o.cost size + o.delayMs * 1000 ≤ 9223372036854775807

/-- A packet is dealt with as it should be: there is no fault, a packet that is not counted arrives,
no earlier than it is sent, and `addEventAtMicros` takes its delivery. -/
def Sound {α : Type} (nowMicros : Int) (r : Except Fault (PktOutcome × α)) : Prop :=
  ∃ outcome a, r = .ok (outcome, a) ∧
    (outcome.value = -1 → outcome = .dropped ∨ outcome = .lost) ∧
    (outcome.value ≠ -1 → nowMicros ≤ outcome.value ∧
      ∀ now (cb : Callback Unit), ((Request.addEventAtMicros outcome.value (some cb)).event now).isSome)

namespace EdgeOptions

variable {o : EdgeOptions δ} {sendTime size nowMicros : Int} {lost : Bool}

/-- There is no fault if all results fit, and then the outcome is the one that `Links` reckons. -/
theorem checkedSchedulePkt_eq_ok {r : PktOutcome × Int} :
    o.checkedSchedulePkt sendTime size nowMicros lost = .ok r ↔
      InInt64 (size * 1000000) ∧ o.bwBytesPerSec ≠ 0 ∧
      InInt64 (max nowMicros sendTime + o.cost size) ∧
      InInt64 (max nowMicros sendTime + o.cost size - nowMicros) ∧
      InInt64 (o.bufferingMs * 1000) ∧
      (max nowMicros sendTime + o.cost size - nowMicros ≤ o.bufferingMs * 1000 → lost = false →
        InInt64 (o.delayMs * 1000) ∧
          InInt64 (max nowMicros sendTime + o.cost size + o.delayMs * 1000)) ∧
      o.schedulePkt sendTime size nowMicros lost = r := by
  unfold checkedSchedulePkt schedulePkt cost
  simp only [bind_eq_ok, int64_eq_ok]
  by_cases hbw : o.bwBytesPerSec = 0
  · simp [hbw]
  · by_cases hlate : max nowMicros sendTime + (size * 1000000).tdiv o.bwBytesPerSec - nowMicros >
        o.bufferingMs * 1000
    · simp [hbw, hlate, bind_eq_ok, int64_eq_ok, not_le.mpr hlate]
    · cases lost with
      | false => simp [hbw, hlate, bind_eq_ok, int64_eq_ok, not_lt.mp hlate, and_assoc]
      | true => simp [hbw, hlate, bind_eq_ok, int64_eq_ok, not_lt.mp hlate]

/-- It takes at most 128 seconds to send a packet, whatever the bandwidth. -/
theorem cost_bounds (hsize : 0 ≤ size) (hmax : size ≤ Packet.MAX_PACKET_SIZE) :
    -128000000 ≤ o.cost size ∧ o.cost size ≤ 128000000 := by
  unfold cost
  have habs := Int.natAbs_tdiv_le_natAbs (size * 1000000) o.bwBytesPerSec
  rw [Packet.MAX_PACKET_SIZE] at hmax
  omega

theorem sound_iff (hsize : 0 ≤ size) (hmax : size ≤ Packet.MAX_PACKET_SIZE) (hnow : 0 ≤ nowMicros) :
    Sound nowMicros (o.checkedSchedulePkt sendTime size nowMicros lost) ↔
      Schedulable o sendTime size nowMicros lost := by
  obtain ⟨hlow, hhigh⟩ := o.cost_bounds hsize hmax
  rw [Packet.MAX_PACKET_SIZE] at hmax
  constructor
  · rintro ⟨outcome, after, hok, hcounted, harrives⟩
    obtain ⟨-, hbw, hfinish, -, hbt, hdelay, heq⟩ := checkedSchedulePkt_eq_ok.mp hok
    refine ⟨hbw, ?_, hfinish.2, ?_⟩
    · unfold InInt64 at hbt
      omega
    · intro hlost hin
      obtain ⟨hd, ha⟩ := hdelay hin hlost
      -- the packet is not counted, so it arrives
      have houtcome : outcome =
          .arrives (max nowMicros sendTime + o.cost size + o.delayMs * 1000) := by
        unfold schedulePkt at heq
        simp only [hlost, gt_iff_lt, not_lt.mpr hin, if_false, Bool.false_eq_true] at heq
        exact (Prod.mk.inj heq).1.symm
      have hvalue : outcome.value ≠ -1 := by
        intro hvalue
        obtain h | h := hcounted hvalue <;> rw [houtcome] at h <;> cases h
      have hge := (harrives hvalue).1
      rw [houtcome] at hge
      unfold InInt64 at hd
      exact ⟨by omega, hge, ha.2⟩
  · intro h
    obtain ⟨hbw, hbt, hfinish, harrival⟩ := h
    refine ⟨(o.schedulePkt sendTime size nowMicros lost).1,
      (o.schedulePkt sendTime size nowMicros lost).2, ?_, ?_⟩
    · rw [checkedSchedulePkt_eq_ok]
      unfold InInt64
      refine ⟨by omega, hbw, by omega, by omega, by omega, ?_, rfl⟩
      intro hin hlost
      obtain ⟨hd, hge, hle⟩ := harrival hlost hin
      omega
    · unfold schedulePkt
      simp only
      split_ifs with hlate hlost
      · simp [PktOutcome.value]
      · simp [PktOutcome.value]
      · obtain ⟨-, hge, -⟩ := harrival (by simpa using hlost) (not_lt.mp hlate)
        have hnonneg : ¬ max nowMicros sendTime + o.cost size + o.delayMs * 1000 < 0 := by omega
        refine ⟨fun h => ?_, fun _ => ⟨hge, fun now cb => ?_⟩⟩
        · simp only [PktOutcome.value] at h
          omega
        · simp [PktOutcome.value, Request.event, hnonneg]

end EdgeOptions

theorem sound_map {α β : Type} {nowMicros : Int} {x : Except Fault (PktOutcome × α)} (f : α → β) :
    Sound nowMicros (x.map fun (outcome, a) => (outcome, f a)) ↔ Sound nowMicros x := by
  cases x with
  | error err => simp [Sound, Except.map]
  | ok r =>
      obtain ⟨outcome, a⟩ := r
      simp [Sound, Except.map]

/-- Where there is no fault, an edge does what `Links` says. -/
theorem Edge.checkedSchedulePkt_ok {e : Edge δ} {src size nowMicros : Int} {draw : Bool}
    {r : PktOutcome × Edge δ} (h : e.checkedSchedulePkt src size nowMicros draw = .ok r) :
    e.schedulePkt src size nowMicros draw = .ok r := by
  unfold Edge.checkedSchedulePkt at h
  unfold Edge.schedulePkt
  split_ifs at h ⊢
  obtain ⟨r', hok, rfl⟩ := map_eq_ok.mp h
  rw [(EdgeOptions.checkedSchedulePkt_eq_ok.mp hok).2.2.2.2.2.2]

theorem EmulatedLink.checkedSchedulePkt_ok {l : EmulatedLink δ} {size nowMicros : Int} {lost : Bool}
    {r : PktOutcome × EmulatedLink δ} (h : l.checkedSchedulePkt size nowMicros lost = .ok r) :
    l.transmit size nowMicros lost = r := by
  unfold EmulatedLink.checkedSchedulePkt at h
  unfold EmulatedLink.transmit
  obtain ⟨r', hok, rfl⟩ := map_eq_ok.mp h
  rw [(EdgeOptions.checkedSchedulePkt_eq_ok.mp hok).2.2.2.2.2.2]

/-- **When the options of a link do not break it**: a packet over an edge or an emulated link, in any
state and at any time, is dealt with as it should be exactly if it is `Schedulable`. -/
theorem packet_sound_iff {size nowMicros : Int} (hsize : 0 ≤ size)
    (hmax : size ≤ Packet.MAX_PACKET_SIZE) (hnow : 0 ≤ nowMicros) (draw : Bool) :
    (∀ (e : Edge δ) (src : Int), src = e.a ∨ src = e.b →
      (Sound nowMicros (e.checkedSchedulePkt src size nowMicros draw) ↔
        Schedulable e.options (e.sendTime src) size nowMicros (!e.live || draw))) ∧
    (∀ l : EmulatedLink δ,
      Sound nowMicros (l.checkedSchedulePkt size nowMicros draw) ↔
        Schedulable l.options l.nextSendTime size nowMicros draw) := by
  constructor
  · intro e src hsrc
    unfold Edge.checkedSchedulePkt
    rw [if_neg (not_lt.mpr hmax), if_neg (by tauto), sound_map]
    exact EdgeOptions.sound_iff hsize hmax hnow
  · intro l
    exact (sound_map fun time : Int => { l with nextSendTime := time }).trans
      (EdgeOptions.sound_iff hsize hmax hnow)

/-- A packet over a new edge with the default options. -/
theorem packet_sound_iff_defaults :
    Sound 0 ((Edge.new 1 2 (.new : EdgeOptions ℕ)).checkedSchedulePkt 1 10 0 false) := by
  apply ((packet_sound_iff (by decide) (by decide) le_rfl false).1 _ 1 (.inl rfl)).mpr
  exact ⟨by decide, by decide, by decide, by decide⟩

/-- A bandwidth of zero is accepted and divides by zero; a negative delay is accepted and gives a time
in the past, at which no delivery is queued. -/
theorem accepted_options_break_link :
    CommandsParser.parseEdge Floats.whole
        (CommandsParser.splitSpaces "edge 0 1 lossRate 0 delay 1 bw 0".toList) =
      some [.createNewEdge 0 1 ⟨0, 1, 0, 250⟩] ∧
    (Edge.new 0 1 (⟨0, 1, 0, 250⟩ : EdgeOptions ℕ)).checkedSchedulePkt 0 10 0 false =
      .error .divisionByZero ∧
    ¬ Sound 0 ((Edge.new 0 1 (⟨0, 1, 0, 250⟩ : EdgeOptions ℕ)).checkedSchedulePkt 0 10 0 false) ∧
    receiveAddNeighborOptions Floats.whole
        "add 2 host 5000 lossRate 0 delay -2 bw 10000 bt 250".toList =
      some ⟨2, "host".toList, 5000, some ⟨0, -2, 10000, 250⟩⟩ ∧
    ¬ Sound 0 ((EmulatedLink.new (⟨0, -2, 10000, 250⟩ : EdgeOptions ℕ)).checkedSchedulePkt 10 0
      false) := by
  have hzero : (Edge.new 0 1 (⟨0, 1, 0, 250⟩ : EdgeOptions ℕ)).checkedSchedulePkt 0 10 0 false =
      .error .divisionByZero := by decide
  refine ⟨by decide, hzero, ?_, by decide, ?_⟩
  · rintro ⟨outcome, e, hok, -⟩
    rw [hzero] at hok
    cases hok
  · rintro ⟨outcome, l, hok, -, harrives⟩
    have hpast : (EmulatedLink.new (⟨0, -2, 10000, 250⟩ : EdgeOptions ℕ)).checkedSchedulePkt 10 0
        false = .ok (.arrives (-1000), ⟨⟨0, -2, 10000, 250⟩, 1000⟩) := by decide
    rw [hpast] at hok
    obtain ⟨rfl, -⟩ := Prod.mk.inj (Except.ok.inj hok)
    exact absurd (harrives (by decide)).1 (by decide)

end NetBridge
