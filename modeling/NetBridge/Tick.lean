import NetBridge.Isolation
import NetBridge.Routes

/-! # The tick

`retransmissionTick` goes through `establishedByKey_` and sends the queue of every socket whose
deadline has passed.  The entries point to different sockets, so each round stands alone: `expired`
is a socket after the tick, `resent` is what is sent for it. -/

namespace NetBridge

open TcpManager (timedOut)

/-- The timer of the socket has run out. -/
def Due (now : Int) (s : TcpSocket) : Prop :=
  s.outstanding ≠ [] ∧ s.nextRtoDeadlineMs ≠ 0 ∧ s.nextRtoDeadlineMs ≤ now

instance (now : Int) (s : TcpSocket) : Decidable (Due now s) := inferInstanceAs (Decidable (_ ∧ _))

/-- The socket after a tick. -/
def expired (now : Int) (s : TcpSocket) : TcpSocket := if Due now s then timedOut s now else s

/-- What the node `addr` sends again for the socket at a tick. -/
def resent (addr now : Int) (s : TcpSocket) : List Sent :=
  if Due now s then
    s.outstanding.flatMap fun seg => attempt addr s.remoteAddr
      (Transport.make s.localPort s.remotePort SegType.DATA.code 0 seg.seqStart seg.data)
  else []

theorem resent_forall₂ {addr now : Int} {s : TcpSocket} (hdue : Due now s) (hs : s.key.Routes addr)
    (hlen : ∀ seg ∈ s.outstanding, seg.data.length ≤ 107) :
    List.Forall₂ (IsDataOf addr s) (resent addr now s) s.outstanding := by
  rw [resent, if_pos hdue]
  clear hdue
  generalize s.outstanding = segs at hlen
  induction segs with
  | nil => exact .nil
  | cons seg segs ih =>
      obtain ⟨p, hp, hsend⟩ := (TcpManager.new addr).trySend_ok hs .DATA 0 seg.seqStart seg.data
        (hlen seg List.mem_cons_self)
      have hone : attempt addr s.remoteAddr (Transport.make s.localPort s.remotePort
          SegType.DATA.code 0 seg.seqStart seg.data) = [p] := by
        unfold attempt
        rw [show s.remoteAddr = s.key.remoteAddr from rfl]
        exact congrArg (fun r : TcpManager × Bool => r.1.sent) hsend
      rw [List.flatMap_cons, hone]
      exact .cons hp (ih fun seg' hseg' => hlen seg' (List.mem_cons_of_mem _ hseg'))

theorem resent_key {addr now : Int} {s : TcpSocket} : ∀ p ∈ resent addr now s,
    (⟨p.dest, p.seg.destPort, p.seg.srcPort⟩ : ConnKey) = s.key := by
  intro p hp
  unfold resent at hp
  split_ifs at hp
  · obtain ⟨seg, _, hp⟩ := List.mem_flatMap.mp hp
    have his := attempt_is p hp
    rw [his.dest, his.destPort, his.srcPort]
    rfl
  · cases hp

namespace TcpManager

variable (m : TcpManager)

theorem foldl_sendData_eq (i : SockId) (destAddr destPort : Int) (segs : List OutstandingSeg) :
    segs.foldl (fun m seg => (m.sendData i destAddr destPort seg.seqStart seg.data).1) m =
      m.emit (segs.flatMap fun seg => attempt m.addr destAddr (Transport.make (m.sock i).localPort
        destPort SegType.DATA.code 0 seg.seqStart seg.data)) := by
  induction segs generalizing m with
  | nil => simp
  | cons seg segs ih =>
      rw [List.foldl_cons, sendData, trySend_fst, ih]
      simp

theorem retransmitSocket_eq (now : Int) (i : SockId) :
    m.retransmitSocket now i =
      (m.setSock i (expired now (m.sock i))).emit (resent m.addr now (m.sock i)) := by
  by_cases hdue : Due now (m.sock i)
  · have hi : i < m.allSockets.length := by
      by_contra hi
      rw [m.sock_of_length_le (Nat.le_of_not_lt hi)] at hdue
      exact hdue.1 rfl
    obtain ⟨hout, hon, hle⟩ := id hdue
    have hho : ¬ (m.sock i).hasOutstanding = false := by
      simp [TcpSocket.hasOutstanding, hout]
    have hon' : ¬ ((m.sock i).nextRtoDeadlineMs = 0 ∨ now < (m.sock i).nextRtoDeadlineMs) := by
      omega
    simp only [retransmitSocket, if_neg hho, if_neg hon']
    rw [foldl_sendData_eq, sock_setSock_self m hi, emit_setSock, setSock_setSock]
    rw [expired, if_pos hdue, resent, if_pos hdue]
    rfl
  · rw [expired, if_neg hdue, resent, if_neg hdue, setSock_sock, emit_nil]
    unfold retransmitSocket
    unfold Due at hdue
    simp only
    split_ifs with hho hon
    · rfl
    · rfl
    · exfalso
      refine hdue ⟨?_, by omega, by omega⟩
      simpa [TcpSocket.hasOutstanding] using hho

theorem rounds_eq (now : Int) (entries : List (Sigma fun _ : ConnKey => SockId))
    (hnodup : (entries.map fun e => e.2).Nodup) :
    (∀ j, (entries.foldl (fun m kv => m.retransmitSocket now kv.2) m).sock j =
      if j ∈ entries.map fun e => e.2 then expired now (m.sock j) else m.sock j) ∧
    (entries.foldl (fun m kv => m.retransmitSocket now kv.2) m).sent =
      m.sent ++ entries.flatMap fun e => resent m.addr now (m.sock e.2) := by
  induction entries generalizing m with
  | nil => simp
  | cons e entries ih =>
      rw [List.map_cons, List.nodup_cons] at hnodup
      obtain ⟨hnotin, hnodup⟩ := hnodup
      obtain ⟨hsock, hsent⟩ := ih (m.retransmitSocket now e.2) hnodup
      -- the round for `e` leaves the sockets of the others alone
      have hother : ∀ j, j ≠ e.2 → (m.retransmitSocket now e.2).sock j = m.sock j := by
        intro j hj
        rw [retransmitSocket_eq, emit_sock, m.sock_setSock_ne hj]
      have hself : (m.retransmitSocket now e.2).sock e.2 = expired now (m.sock e.2) := by
        rw [retransmitSocket_eq, emit_sock]
        by_cases hi : e.2 < m.allSockets.length
        · exact m.sock_setSock_self hi _
        · have hnew := m.sock_of_length_le (Nat.le_of_not_lt hi)
          rw [sock_of_length_le _ (by simpa using Nat.le_of_not_lt hi), hnew, expired,
            if_neg fun hdue => hdue.1 rfl]
      constructor
      · intro j
        rw [List.foldl_cons, hsock j, List.map_cons]
        by_cases hj : j = e.2
        · subst hj
          rw [if_neg hnotin, if_pos List.mem_cons_self, hself]
        · rw [hother j hj]
          simp only [List.mem_cons, hj, false_or]
      · rw [List.foldl_cons, hsent, List.flatMap_cons]
        have haddr : (m.retransmitSocket now e.2).addr = m.addr := by
          rw [retransmitSocket_eq]
          rfl
        have hsent' : (m.retransmitSocket now e.2).sent =
            m.sent ++ resent m.addr now (m.sock e.2) := by
          rw [retransmitSocket_eq]
          rfl
        rw [hsent', haddr, List.append_assoc]
        congr 2
        apply List.flatMap_congr
        intro e' he'
        rw [hother]
        rintro heq
        exact hnotin (heq ▸ List.mem_map_of_mem he')

theorem Fits.established_nodup {m : TcpManager} (hf : ∀ j, m.Fits j (m.sock j)) :
    (m.establishedByKey.entries.map fun e => e.2).Nodup := by
  refine List.Nodup.map_on ?_ m.establishedByKey.nodupKeys.nodup
  rintro ⟨k, i⟩ hk ⟨k', i'⟩ hk' rfl
  have hkey := ((hf i).established k ((Table.lookup_eq_some_iff _).mpr hk)).1
  have hkey' := ((hf i).established k' ((Table.lookup_eq_some_iff _).mpr hk')).1
  rw [hkey.symm.trans hkey']

end TcpManager

theorem flatMap_eq_of_unique {α β : Type*} {l : List α} {f : α → List β} {x : α} (hx : x ∈ l)
    (hnodup : l.Nodup) (h : ∀ y ∈ l, y ≠ x → f y = []) : l.flatMap f = f x := by
  induction l with
  | nil => cases hx
  | cons y l ih =>
      rw [List.nodup_cons] at hnodup
      rw [List.flatMap_cons]
      obtain rfl | hx := List.mem_cons.mp hx
      · have hrest : l.flatMap f = [] := by
          refine List.flatMap_eq_nil_iff.mpr fun y hy => h y (List.mem_cons_of_mem _ hy) ?_
          rintro rfl
          exact hnodup.1 hy
        rw [hrest, List.append_nil]
      · have hne : y ≠ x := by
          rintro rfl
          exact hnodup.1 hx
        rw [h y List.mem_cons_self hne, List.nil_append]
        exact ih hx hnodup.2 fun z hz => h z (List.mem_cons_of_mem _ hz)

/-- What a manager has sent to a connection since `m`. -/
def sentTo (m m' : TcpManager) (key : ConnKey) : List Sent :=
  (m'.sent.drop m.sent.length).filter fun p =>
    (⟨p.dest, p.seg.destPort, p.seg.srcPort⟩ : ConnKey) = key

/-- **A tick sends the queues that are due**, and each socket is handled on its own. -/
theorem TcpManager.retransmissionTick_sends {m : TcpManager} (hf : ∀ j, m.Fits j (m.sock j))
    (now : Int) {k : ConnKey} {i : SockId} (hk : m.establishedByKey.lookup k = some i) :
    (m.retransmissionTick now).sock i = expired now (m.sock i) ∧
      sentTo m (m.retransmissionTick now) k = resent m.addr now (m.sock i) := by
  have hmem := (Table.lookup_eq_some_iff _).mp hk
  obtain ⟨hsock, hsent⟩ := m.rounds_eq now m.establishedByKey.entries (Fits.established_nodup hf)
  refine ⟨(hsock i).trans (if_pos (List.mem_map_of_mem hmem)), ?_⟩
  have hkey := ((hf i).established k hk).1
  unfold sentTo
  rw [show (m.retransmissionTick now).sent = _ from hsent, List.drop_left, List.filter_flatMap,
    flatMap_eq_of_unique hmem m.establishedByKey.nodupKeys.nodup]
  · refine List.filter_eq_self.mpr fun p hp => ?_
    exact decide_eq_true ((resent_key p hp).trans hkey)
  · -- the other entries are other connections
    rintro ⟨k', i'⟩ he hne
    have hkey' := ((hf i').established k' ((Table.lookup_eq_some_iff _).mpr he)).1
    refine List.filter_eq_nil_iff.mpr fun p hp hpk => hne ?_
    have hkk : k' = k := hkey'.symm.trans ((resent_key p hp).symm.trans (of_decide_eq_true hpk))
    subst hkk
    rw [(Table.lookup_eq_some_iff _).mpr he] at hk
    rw [Option.some.inj hk]

end NetBridge
