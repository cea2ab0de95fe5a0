import Mathlib.Algebra.BigOperators.Group.List.Basic
import Mathlib.Algebra.GroupWithZero.Nat
import Mathlib.Data.List.Perm.Basic
import NetBridge.Sender

/-! # An exchange of segments comes to rest

A manager answers a segment with at most one segment of its own.  Data and a FIN are answered with an
ACK, a SYN with an ACK or a FIN, and an ACK with nothing, except that the ACK of the last byte lets a
socket that is shut down send its FIN, which each socket does once.  So hosts whose applications and
timers are silent come to rest, whatever is on its way between them, in whatever order it arrives and
whatever of it is lost: every arrival lowers a potential, which counts the segments on their way and
the sockets that have not sent their FIN (`exchange_ends`).

A segment to the broadcast address arrives at several hosts; `fanout` bounds at how many. -/

namespace NetBridge

open TcpManager (finQueued released advanced stored)

/-! ### The potential -/

/-- What the arrival of a segment can cause. -/
def SegType.weight (fanout : ℕ) : SegType → ℕ
  | .SYN => 2 * (fanout * (fanout + 1)) + 1
  | .ACK => 1
  | .FIN | .DATA => fanout + 1

theorem SegType.weight_pos (fanout : ℕ) (type : SegType) : 1 ≤ type.weight fanout := by
  cases type <;> simp [weight]

namespace TcpManager

variable {m : TcpManager}

/-- The sockets that have not sent a FIN. -/
def unfinished (m : TcpManager) : ℕ := m.allSockets.countP fun s => s.finSeq < 0

/-- The weight of segments. -/
def outWeight (fanout : ℕ) (out : List Sent) : ℕ :=
  (out.map fun p => p.seg.type.weight fanout).sum

theorem sock_eq_getElem {i : SockId} (hi : i < m.allSockets.length) :
    m.sock i = m.allSockets.get ⟨i, hi⟩ := by
  simp [sock, List.getElem?_eq_getElem hi]

theorem unfinished_setSock (i : SockId) {s : TcpSocket}
    (hs : s.finSeq < 0 → (m.sock i).finSeq < 0) : (m.setSock i s).unfinished ≤ m.unfinished := by
  unfold unfinished setSock
  obtain hi | hi := Nat.lt_or_ge i m.allSockets.length
  · rw [sock_eq_getElem hi] at hs
    have hpos : 0 < m.allSockets.countP (fun s => decide (s.finSeq < 0)) ∨
        ¬ (m.allSockets.get ⟨i, hi⟩).finSeq < 0 := by
      by_cases hfin : (m.allSockets.get ⟨i, hi⟩).finSeq < 0
      · exact .inl (List.countP_pos_iff.mpr ⟨_, List.get_mem _ _, decide_eq_true hfin⟩)
      · exact .inr hfin
    rw [List.countP_set hi]
    simp only [List.get_eq_getElem] at hs hpos
    by_cases hnew : s.finSeq < 0
    · have hold := hs hnew
      simp only [hnew, hold, decide_true, if_true]
      omega
    · simp only [hnew, decide_false]
      simp
  · rw [List.set_eq_of_length_le hi]

theorem unfinished_fin {i : SockId} (hi : i < m.allSockets.length) {s : TcpSocket}
    (hold : (m.sock i).finSeq < 0) (hs : 0 ≤ s.finSeq) :
    (m.setSock i s).unfinished + 1 ≤ m.unfinished := by
  unfold unfinished setSock
  rw [sock_eq_getElem hi] at hold
  have hpos : 0 < m.allSockets.countP (fun s => decide (s.finSeq < 0)) :=
    List.countP_pos_iff.mpr ⟨_, List.get_mem _ _, decide_eq_true hold⟩
  rw [List.countP_set hi]
  simp only [List.get_eq_getElem] at hold
  simp only [not_lt.mpr hs, hold, decide_true, decide_false, if_true, Bool.false_eq_true, if_false]
  omega

/-- At most one segment, of this type, has been sent. -/
def Answers (m m' : TcpManager) (type : SegType) : Prop :=
  ∃ out : List Sent, m'.sent = m.sent ++ out ∧ out.length ≤ 1 ∧ ∀ p ∈ out, p.seg.type = type

theorem Answers.refl (m : TcpManager) (type : SegType) : Answers m m type :=
  ⟨[], by simp, by simp, by simp⟩

theorem trySend_answers (m : TcpManager) (destAddr srcPort destPort : Int) (type : SegType)
    (window seqNum : Int) (payload : List UInt8) :
    let m' := (m.trySend destAddr
      (Transport.make srcPort destPort type.code window seqNum payload)).1
    Answers m m' type ∧ m'.allSockets = m.allSockets := by
  obtain h | ⟨p, hp, h⟩ := m.trySend_cases destAddr srcPort destPort type window seqNum payload
  · rw [h]
    exact ⟨.refl m type, rfl⟩
  · rw [h]
    exact ⟨⟨[p], rfl, le_rfl, by simpa using hp.type⟩, rfl⟩

theorem unfinished_congr {m m' : TcpManager} (h : m'.allSockets = m.allSockets) :
    m'.unfinished = m.unfinished := by
  rw [unfinished, h, unfinished]

section
variable (fanout : ℕ)

/-- What the manager has sent since `m` and can still send weighs less than what it has received and
what it could send then. -/
def Spends (type : SegType) (m m' : TcpManager) : Prop :=
  ∃ out, m'.sent = m.sent ++ out ∧
    fanout * outWeight fanout out + fanout * (fanout + 1) * m'.unfinished + 1 ≤
      type.weight fanout + fanout * (fanout + 1) * m.unfinished

theorem outWeight_le {type : SegType} {out : List Sent}
    (hlen : out.length ≤ 1) (htype : ∀ p ∈ out, p.seg.type = type) :
    outWeight fanout out ≤ type.weight fanout := by
  cases out with
  | nil => exact Nat.zero_le _
  | cons p out =>
      obtain rfl : out = [] := by
        rw [List.length_cons] at hlen
        exact List.eq_nil_of_length_eq_zero (by omega)
      simp [outWeight, htype p List.mem_cons_self]

/-- An answer that no socket has spent its FIN for. -/
theorem Answers.spends {m m' : TcpManager} {type answer : SegType} {k : ℕ}
    (h : Answers m m' answer) (hk : m'.unfinished ≤ m.unfinished + k)
    (hweight : fanout * answer.weight fanout + fanout * (fanout + 1) * k + 1 ≤ type.weight fanout) :
    Spends fanout type m m' := by
  obtain ⟨out, hsent, hlen, htype⟩ := h
  refine ⟨out, hsent, ?_⟩
  have hout : fanout * outWeight fanout out ≤ fanout * answer.weight fanout :=
    Nat.mul_le_mul_left _ (outWeight_le fanout hlen htype)
  have hopen : fanout * (fanout + 1) * m'.unfinished ≤
      fanout * (fanout + 1) * m.unfinished + fanout * (fanout + 1) * k := by
    rw [← Nat.mul_add]
    exact Nat.mul_le_mul_left _ hk
  omega

theorem Spends.silent {m m' : TcpManager} (type : SegType) (hsent : m'.sent = m.sent)
    (hopen : m'.unfinished ≤ m.unfinished) : Spends fanout type m m' := by
  refine ⟨[], by rw [hsent, List.append_nil], ?_⟩
  have hpos := type.weight_pos fanout
  have hle : fanout * (fanout + 1) * m'.unfinished ≤ fanout * (fanout + 1) * m.unfinished :=
    Nat.mul_le_mul_left _ hopen
  simp only [outWeight, List.map_nil, List.sum_nil, Nat.mul_zero]
  omega

theorem Answers.spends_ack {m m' : TcpManager} {type : SegType} (h : Answers m m' .ACK)
    (hopen : m'.unfinished ≤ m.unfinished) (htype : type = .DATA ∨ type = .FIN) :
    Spends fanout type m m' := by
  refine h.spends fanout (k := 0) hopen ?_
  obtain rfl | rfl := htype <;> simp [SegType.weight]

theorem onSyn_spends (hb : m.Bounded) (srcAddr : Int) (syn : Transport) :
    Spends fanout .SYN m (m.onSyn srcAddr syn) := by
  cases hl : m.listenersByPort.lookup syn.destPort with
  | none =>
      obtain ⟨hanswer, hsocks⟩ := m.trySend_answers srcAddr syn.destPort syn.srcPort .FIN 0 0 []
      rw [onSyn, hl]
      refine hanswer.spends fanout (k := 0) (unfinished_congr hsocks).le ?_
      simp only [SegType.weight]
      omega
  | some listener =>
      rw [m.onSyn_admits hl (hb.listener hl)]
      obtain ⟨⟨out, hsent, hlen, htype⟩, hsocks⟩ := (m.admitted listener srcAddr syn).trySend_answers
        srcAddr syn.destPort syn.srcPort .ACK TcpSocket.RECV_BUF_CAP (syn.seqNum + 1) []
      have hanswer : Answers _ _ .ACK := ⟨out, hsent, hlen, htype⟩
      refine hanswer.spends fanout (k := 1) ?_ ?_
      · -- the child is the only new socket
        refine (unfinished_congr hsocks).le.trans ?_
        have hqueue := m.unfinished_setSock listener
          (s := (m.sock listener).enqueueAccepted m.allSockets.length)
          (by unfold TcpSocket.enqueueAccepted; split_ifs <;> exact id)
        unfold unfinished admitted
        rw [List.countP_append]
        exact Nat.add_le_add hqueue List.countP_le_length
      · simp only [SegType.weight]
        have : fanout ≤ fanout * (fanout + 1) := Nat.le_mul_of_pos_right _ (by omega)
        omega

theorem onFin_spends (srcAddr : Int) (fin : Transport) :
    Spends fanout .FIN m (m.onFin srcAddr fin) := by
  unfold onFin
  simp only
  split
  · next i _ =>
      set m₁ := m.setSock i (m.sock i).markPeerFinReceived
      obtain ⟨hanswer, hsocks⟩ := m₁.trySend_answers srcAddr fin.destPort fin.srcPort .ACK
        (m₁.sock i).getRecvBufAvailable (fin.seqNum + 1) []
      refine Answers.spends_ack fanout hanswer ?_ (.inr rfl)
      exact (unfinished_congr hsocks).le.trans (m.unfinished_setSock i id)
  · split
    · next i _ => exact .silent fanout _ rfl (m.unfinished_setSock i id)
    · exact .silent fanout _ rfl le_rfl

theorem ackData_spends (m₁ : TcpManager) (hsent : m₁.sent = m.sent)
    (hopen : m₁.unfinished ≤ m.unfinished) (srcAddr : Int) (data : Transport) (i : SockId) :
    Spends fanout .DATA m (m₁.ackData srcAddr data i) := by
  obtain ⟨⟨out, hout, hlen, htype⟩, hsocks⟩ := m₁.trySend_answers srcAddr (m₁.sock i).localPort
    data.srcPort .ACK (m₁.sock i).getRecvBufAvailable (m₁.sock i).rcvNxt []
  rw [hsent] at hout
  exact Answers.spends_ack fanout ⟨out, hout, hlen, htype⟩ ((unfinished_congr hsocks).le.trans hopen)
    (.inl rfl)

theorem onData_spends (srcAddr : Int) (data : Transport) :
    Spends fanout .DATA m (m.onData srcAddr data) := by
  cases hest : m.establishedByKey.lookup ⟨srcAddr, data.srcPort, data.destPort⟩ with
  | none =>
      have hdropped : m.onData srcAddr data = m := by
        simp only [onData, hest]
      rw [hdropped]
      exact .silent fanout _ rfl le_rfl
  | some i =>
      obtain h | ⟨-, h | ⟨-, -, -, h⟩⟩ := m.onData_effect hest
      · rw [h]
        exact .silent fanout _ rfl le_rfl
      · rw [h]
        exact ackData_spends fanout m rfl le_rfl srcAddr data i
      · rw [h]
        exact ackData_spends (m := m) fanout (m.setSock i (stored (m.sock i) data.payload)) rfl
          (m.unfinished_setSock i id) srcAddr data i

/-- An ACK is answered with nothing, or with a FIN that the socket has not sent before. -/
theorem onAck_spends (hb : m.Bounded) (hnxt : ∀ j, 0 ≤ (m.sock j).sndNxt) (now srcAddr : Int)
    (ack : Transport) : Spends fanout .ACK m (m.onAck now srcAddr ack) := by
  unfold onAck
  simp only
  split
  · next i hpend =>
      by_cases hseq : ack.seqNum = (m.sock i).synSeq + 1
      · rw [m.onAckPending_completes (hb.pending hpend) srcAddr _ hseq]
        refine .silent fanout _ rfl (m.unfinished_setSock i ?_)
        unfold TcpSocket.markEstablished
        split_ifs <;> exact id
      · rw [onAckPending, if_neg hseq]
        exact .silent fanout _ rfl le_rfl
  · split
    · next i hest =>
        have hi := hb.established hest
        obtain h | ⟨-, -, -, h⟩ | ⟨-, -, ⟨-, h⟩ | ⟨-, h⟩⟩ := m.onAckEstablished_effect now ack _ hi
        · rw [h]
          exact .silent fanout _ rfl le_rfl
        · rw [h]
          exact .silent fanout _ rfl (m.unfinished_setSock i id)
        · rw [h]
          exact .silent fanout _ rfl (m.unfinished_setSock i id)
        · rw [h]
          have hsndNxt := (advanced_sender ((m.sock i).setRwnd ack.window) now ack.seqNum).2.2.1
          have hfinSeq := (advanced_receiver ((m.sock i).setRwnd ack.window) now ack.seqNum).2.2.2.1
          set s := advanced ((m.sock i).setRwnd ack.window) now ack.seqNum
          have hself := m.sock_setSock_self hi s
          have hopen : (m.setSock i s).unfinished ≤ m.unfinished :=
            m.unfinished_setSock i (hfinSeq ▸ id)
          obtain ⟨-, hidle⟩ | ⟨-, hfin, -, hcases⟩ :=
            (m.setSock i s).maybeSendFin_effect (i := i) (by simpa using hi)
          · rw [hidle]
            exact .silent fanout _ rfl hopen
          · -- the FIN is sent, or given up with the socket
            have hless : ∀ s', s'.finSeq = s.sndNxt → 
                ((m.setSock i s).setSock i s').unfinished + 1 ≤ m.unfinished := by
              intro s' hs'
              refine (unfinished_fin (by simpa using hi) hfin ?_).trans hopen
              rw [hs', hsndNxt]
              exact hnxt i
            obtain ⟨p, hp, hsends⟩ | ⟨-, hgone⟩ := hcases
            · rw [hsends]
              refine ⟨[p], rfl, ?_⟩
              have hlow : (((m.setSock i s).setSock i
                  (finQueued ((m.setSock i s).sock i))).emit [p]).unfinished + 1 ≤ m.unfinished :=
                hless (finQueued ((m.setSock i s).sock i)) (by rw [hself]; rfl)
              have hmul := Nat.mul_le_mul_left (fanout * (fanout + 1)) hlow
              rw [Nat.mul_add, Nat.mul_one] at hmul
              have hweight : outWeight fanout [p] = fanout + 1 := by
                simp [outWeight, hp.type, SegType.weight]
              rw [hweight]
              simp only [SegType.weight]
              refine le_trans ?_ (Nat.add_le_add_left hmul 1)
              omega
            · rw [hgone]
              refine .silent fanout _ rfl ?_
              have hlow := hless (released (finQueued ((m.setSock i s).sock i))) (by rw [hself]; rfl)
              exact (Nat.le_succ _).trans hlow
    · exact .silent fanout _ rfl le_rfl

theorem receiveTransport_spends (hb : m.Bounded) (hnxt : ∀ j, 0 ≤ (m.sock j).sndNxt)
    (now srcAddr : Int) (t : Transport) :
    Spends fanout t.type m (m.receiveTransport now srcAddr t) := by
  unfold receiveTransport
  split
  · next h => exact h ▸ onSyn_spends fanout hb srcAddr t
  · next h => exact h ▸ onAck_spends fanout hb hnxt now srcAddr t
  · next h => exact h ▸ onFin_spends fanout srcAddr t
  · next h => exact h ▸ onData_spends fanout srcAddr t

end

theorem robust_sndNxt : Robust fun s => 0 ≤ s.sndNxt := by
  have hestablish : ∀ (s : TcpSocket) (v : Int), 0 ≤ s.sndNxt → 
      0 ≤ (s.setRwnd v).markEstablished.sndNxt := by
    intro s v h
    unfold TcpSocket.markEstablished
    split_ifs
    · exact Int.one_nonneg
    · exact h
  refine ⟨le_rfl, fun _ _ _ => Int.one_nonneg, ?_, fun _ _ h => h, fun _ _ _ h => h,
    fun _ _ _ h => h, hestablish⟩
  intro s s' hu h
  cases hu with
  | write now buf n hst hpos =>
      show 0 ≤ s.sndNxt + n
      omega
  | establish v hst => exact hestablish s v h
  | advance now hst hlt hle =>
      rw [(advanced_sender s now _).2.2.1]
      exact h
  | bind | queue | accept | close | shutdown | fin | release | take | window | store | peerFin
    | timeout => exact h

end TcpManager

/-! ### Hosts that exchange segments -/

/-- Some hosts and the segments that are on their way, each with the host at which it will arrive. -/
structure Exchange where
  mans : List TcpManager
  flight : List (ℕ × Sent)

/-- A segment arrives, and `route` tells at which hosts the answer will; or it is lost. -/
inductive Arrival where
  | deliver (i : ℕ) (now : Int) (route : Sent → List ℕ)
  | lose (i : ℕ)

namespace Exchange

variable (x : Exchange)

def step : Arrival → Exchange
  | .lose i => { x with flight := x.flight.eraseIdx i }
  | .deliver i now route =>
      match x.flight[i]? with
      | none => x
      | some (k, p) =>
          match x.mans[k]? with
          | none => { x with flight := x.flight.eraseIdx i }
          | some m =>
              let m' := m.receiveTransport now p.src p.seg
              let out := m'.sent.drop m.sent.length
              ⟨x.mans.set k m',
                x.flight.eraseIdx i ++ out.flatMap fun p => (route p).map fun k => (k, p)⟩

/-- Something is there to arrive, and no answer arrives at more than `fanout` hosts. -/
def Allowed (fanout : ℕ) : Arrival → Prop
  | .lose i => i < x.flight.length
  | .deliver i _ route => i < x.flight.length ∧ ∀ p, (route p).length ≤ fanout

/-- The segments on their way and the FINs that can still be sent, weighted with what they cause. -/
def potential (fanout : ℕ) : ℕ :=
  (x.flight.map fun p => p.2.seg.type.weight fanout).sum +
    fanout * (fanout + 1) * (x.mans.map TcpManager.unfinished).sum

variable {x}

theorem potential_eraseIdx (fanout : ℕ) {i : ℕ} (hi : i < x.flight.length) :
    ({ x with flight := x.flight.eraseIdx i } : Exchange).potential fanout +
      (x.flight.get ⟨i, hi⟩).2.seg.type.weight fanout = x.potential fanout := by
  have hperm := (List.getElem_cons_eraseIdx_perm hi).map fun p : ℕ × Sent => p.2.seg.type.weight fanout
  have hsum := hperm.sum_eq
  rw [List.map_cons, List.sum_cons] at hsum
  simp only [potential, ← hsum, List.get_eq_getElem]
  omega

/-- The routes multiply what is sent. -/
theorem routed_weight_le (fanout : ℕ) (out : List Sent) {route : Sent → List ℕ}
    (hroute : ∀ p, (route p).length ≤ fanout) :
    ((out.flatMap fun p => (route p).map fun k => (k, p)).map fun p : ℕ × Sent =>
      p.2.seg.type.weight fanout).sum ≤ fanout * TcpManager.outWeight fanout out := by
  induction out with
  | nil => simp
  | cons p out ih =>
      rw [List.flatMap_cons, List.map_append, List.sum_append]
      have hone : (((route p).map fun k => (k, p)).map fun p : ℕ × Sent =>
          p.2.seg.type.weight fanout).sum = (route p).length * p.seg.type.weight fanout := by
        rw [List.map_map]
        show ((route p).map fun _ => p.seg.type.weight fanout).sum = _
        rw [List.map_const', List.sum_replicate_nat]
      have hcopies := Nat.mul_le_mul_right (p.seg.type.weight fanout) (hroute p)
      rw [hone, TcpManager.outWeight, List.map_cons, List.sum_cons, Nat.mul_add]
      exact Nat.add_le_add hcopies ih

theorem sum_unfinished_set {mans : List TcpManager} {k : ℕ} {m : TcpManager}
    (hk : mans[k]? = some m) (m' : TcpManager) :
    ((mans.set k m').map TcpManager.unfinished).sum + m.unfinished =
      (mans.map TcpManager.unfinished).sum + m'.unfinished := by
  obtain ⟨hlt, rfl⟩ := List.getElem?_eq_some_iff.mp hk
  have hset := ((List.set_perm_cons_eraseIdx hlt m').map TcpManager.unfinished).sum_eq
  have hold := ((List.getElem_cons_eraseIdx_perm hlt).map TcpManager.unfinished).sum_eq
  rw [List.map_cons, List.sum_cons] at hset hold
  omega

/-- The managers are ones that their applications and the network have brought where they are. -/
def Ok (x : Exchange) : Prop := ∀ m ∈ x.mans, m.Bounded ∧ ∀ j, 0 ≤ (m.sock j).sndNxt

/-- An arrival or a loss lowers the potential. -/
theorem step_lowers (fanout : ℕ) (hok : x.Ok) {e : Arrival} (he : x.Allowed fanout e) :
    (x.step e).Ok ∧ (x.step e).potential fanout + 1 ≤ x.potential fanout := by
  have hpos : ∀ {i} (hi : i < x.flight.length), 1 ≤ (x.flight.get ⟨i, hi⟩).2.seg.type.weight fanout :=
    fun hi => SegType.weight_pos fanout _
  cases e with
  | lose i =>
      refine ⟨hok, ?_⟩
      have hsum := potential_eraseIdx fanout he
      have := hpos he
      show ({ x with flight := x.flight.eraseIdx i } : Exchange).potential fanout + 1 ≤ _
      omega
  | deliver i now route =>
      obtain ⟨hi, hroute⟩ := he
      have hsum := potential_eraseIdx fanout hi
      have hget : x.flight[i]? = some (x.flight.get ⟨i, hi⟩) := List.getElem?_eq_getElem hi
      have hweight := hpos hi
      generalize x.flight.get ⟨i, hi⟩ = arriving at hsum hget hweight
      obtain ⟨k, p⟩ := arriving
      cases hk : x.mans[k]? with
      | none =>
          have hstep : x.step (.deliver i now route) = { x with flight := x.flight.eraseIdx i } := by
            simp only [step, hget, hk]
          rw [hstep]
          refine ⟨hok, ?_⟩
          show ({ x with flight := x.flight.eraseIdx i } : Exchange).potential fanout + 1 ≤ _
          simp only at hweight hsum
          omega
      | some m =>
          obtain ⟨hb, hnxt⟩ := hok m (List.mem_of_getElem? hk)
          obtain ⟨out, hsent, hspends⟩ :=
            TcpManager.receiveTransport_spends fanout hb hnxt now p.src p.seg
          have hnext : (m.receiveTransport now p.src p.seg).Bounded ∧
              ∀ j, 0 ≤ ((m.receiveTransport now p.src p.seg).sock j).sndNxt := by
            rw [← m.step_receive]
            exact ⟨hb.step _, TcpManager.robust_sndNxt.step hb hnxt _⟩
          have hrouted := routed_weight_le fanout out hroute
          have hmans := sum_unfinished_set hk (m.receiveTransport now p.src p.seg)
          have hstep : x.step (.deliver i now route) =
              ⟨x.mans.set k (m.receiveTransport now p.src p.seg),
                x.flight.eraseIdx i ++ out.flatMap fun p => (route p).map fun k => (k, p)⟩ := by
            simp only [step, hget, hk, hsent, List.drop_left]
          rw [hstep]
          refine ⟨?_, ?_⟩
          · intro m₁ hm₁
            obtain hm₁ | rfl := List.mem_or_eq_of_mem_set hm₁
            · exact hok m₁ hm₁
            · exact hnext
          · simp only [potential, List.map_append, List.sum_append] at hsum ⊢
            generalize fanout * (fanout + 1) = c at hsum hspends ⊢
            have hmul := congrArg (c * ·) hmans
            simp only [Nat.mul_add] at hmul
            omega

theorem flight_length_le_potential (x : Exchange) (fanout : ℕ) :
    x.flight.length ≤ x.potential fanout := by
  have hsum : x.flight.length ≤ (x.flight.map fun p => p.2.seg.type.weight fanout).sum := by
    induction x.flight with
    | nil => exact le_rfl
    | cons p flight ih =>
        have := SegType.weight_pos fanout p.2.seg.type
        rw [List.length_cons, List.map_cons, List.sum_cons]
        omega
  exact hsum.trans (Nat.le_add_right _ _)

/-- The hosts after what has happened at each of them. -/
def ofHistories (hosts : List (Int × List Op)) : List TcpManager :=
  hosts.map fun h => run TcpManager.step (TcpManager.new h.1) h.2

/-- **An exchange of segments comes to rest.**  Take any number of hosts, whatever has happened at each
of them, and any segments on their way between them.  As long as the applications and the timers are
silent, at most as many segments can arrive or be lost as the potential says, in whatever order they
arrive, whatever the clocks show and whatever answers are lost; after that many nothing is on its
way.  Where a segment arrives at one host at most, a SYN counts 5, data and a FIN 2, an ACK 1 and a
socket that has not sent its FIN 2. -/
theorem exchange_ends (fanout : ℕ) (hosts : List (Int × List Op)) (flight : List (ℕ × Sent))
    (es : List Arrival)
    (hes : Guarded Exchange.step (Exchange.Allowed · fanout) ⟨ofHistories hosts, flight⟩ es) :
    let x : Exchange := ⟨ofHistories hosts, flight⟩
    es.length + (run Exchange.step x es).potential fanout ≤ x.potential fanout ∧
      (es.length = x.potential fanout → (run Exchange.step x es).flight = []) := by
  intro x
  have hok : x.Ok := by
    intro m hm
    obtain ⟨h, -, rfl⟩ := List.mem_map.mp hm
    exact ⟨TcpManager.bounded_run h.1 h.2, TcpManager.robust_sndNxt.run h.1 h.2⟩
  have hlength : es.length + (run Exchange.step x es).potential fanout ≤ x.potential fanout :=
    guarded_length_le (P := fun x e => x.Allowed fanout e) (I := Exchange.Ok)
      (μ := fun x => x.potential fanout) (fun x e hok he => step_lowers fanout hok he) hok hes
  refine ⟨hlength, ?_⟩
  intro hall
  have hflight := (run Exchange.step x es).flight_length_le_potential fanout
  have hall : es.length = x.potential fanout := hall
  exact List.eq_nil_of_length_eq_zero (by omega)

/-- A client that has sent its SYN and a server that listens. -/
def dialling : List (Int × List Op) :=
  [(0, [.socket, .bind 0 5, .connect 0 1 80]), (1, [.socket, .bind 0 80, .listen 0 4])]

/-- The SYN is answered, and the answer ends the exchange long before its potential is used up. -/
theorem exchange_ends_handshake :
    let sent := (ofHistories dialling).flatMap fun m => m.sent
    let x : Exchange := ⟨ofHistories dialling, sent.map fun p => (1, p)⟩
    let es := [Arrival.deliver 0 20 fun _ => [0], .deliver 0 40 fun _ => [1]]
    x.potential 1 = 9 ∧ (run Exchange.step x es).flight = [] ∧
      es.length + (run Exchange.step x es).potential 1 ≤ 9 := by
  intro sent x es
  have hpotential : x.potential 1 = 9 := by decide
  have hes : Guarded Exchange.step (Exchange.Allowed · 1) x es :=
    ⟨⟨by decide, fun _ => le_rfl⟩, ⟨by decide, fun _ => le_rfl⟩, trivial⟩
  refine ⟨hpotential, by decide, ?_⟩
  rw [← hpotential]
  exact (exchange_ends 1 dialling (sent.map fun p => (1, p)) es hes).1

end Exchange

end NetBridge
