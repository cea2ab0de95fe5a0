import NetBridge.Discipline

/-! # Isolation of connections

What `receiveTransport` does with a segment that is not a SYN depends only on the entries under
the segment's own key and on the sockets they point to, and changes nothing else.  `View` is that
part of the manager, `View.react` is the handlers seen from there, and `receive_reacts` says that
the manager does exactly what the view says.  Two segments of different connections have views
that the other one leaves alone, so they can be processed in either order. -/

namespace NetBridge

open TcpManager (advanced stored finQueued released)

/-! ### Sends -/

/-- The segments that a send of the node `addr` puts on the network: one or none. -/
def attempt (addr destAddr : Int) (segment : Except String Transport) : List Sent :=
  ((TcpManager.new addr).trySend destAddr segment).1.sent

namespace TcpManager

variable (m : TcpManager)

theorem trySend_fst (destAddr : Int) (segment : Except String Transport) :
    (m.trySend destAddr segment).1 = m.emit (attempt m.addr destAddr segment) := by
  cases segment with
  | error => simp [attempt, trySend, Bind.bind, Except.bind, new]
  | ok t =>
      cases hmake : Packet.make destAddr m.addr Packet.MAX_TTL Protocol.TRANSPORT_PKT 0 t.pack with
      | error => simp [attempt, trySend, Bind.bind, Except.bind, new, hmake]
      | ok pkt =>
          cases hsend : RuntimeManager.sendPkt m.addr destAddr pkt.pack with
          | error => simp [attempt, trySend, Bind.bind, Except.bind, new, hmake, hsend]
          | ok => simp [attempt, trySend, Bind.bind, Except.bind, Pure.pure, Except.pure, new, emit,
              hmake, hsend]

end TcpManager

theorem attempt_is {addr destAddr srcPort destPort : Int} {type : SegType} {window seqNum : Int}
    {payload : List UInt8} :
    ∀ p ∈ attempt addr destAddr (Transport.make srcPort destPort type.code window seqNum payload),
      p.Is addr destAddr srcPort destPort type window seqNum payload := by
  rcases (TcpManager.new addr).trySend_cases destAddr srcPort destPort type window seqNum payload
    with h | ⟨q, hq, h⟩
  · intro p hp
    rw [attempt, h] at hp
    cases hp
  · intro p hp
    rw [attempt, h] at hp
    obtain rfl := List.mem_singleton.mp hp
    exact hq

theorem attempt_eq {addr destAddr srcPort destPort : Int} {type : SegType} {window seqNum : Int}
    {p : Sent} (hs : Sendable addr destAddr srcPort destPort)
    (hp : p.Is addr destAddr srcPort destPort type window seqNum []) :
    attempt addr destAddr (Transport.make srcPort destPort type.code window seqNum []) = [p] := by
  obtain ⟨q, hq, hsend⟩ := (TcpManager.new addr).trySend_ok hs type window seqNum [] (by simp)
  rw [attempt, hsend, hp.unique hq]
  rfl

/-! ### The part of the manager that a segment sees -/

/-- The node's address, and the entries under one key with the sockets they point to. -/
structure View where
  addr : Int
  pending : Option (SockId × TcpSocket)
  established : Option (SockId × TcpSocket)

/-- What a segment does: the socket it changes, the entries under its key afterwards and the
segments sent. -/
structure Reaction where
  update : Option (SockId × TcpSocket)
  pending : Option SockId
  established : Option SockId
  out : List Sent

/-- The view of a manager under a key. -/
def TcpManager.view (m : TcpManager) (key : ConnKey) : View :=
  ⟨m.addr, (m.synPendingByKey.lookup key).map fun i => (i, m.sock i),
    (m.establishedByKey.lookup key).map fun i => (i, m.sock i)⟩

namespace View

variable (v : View)

/-- Nothing changes. -/
def idle : Reaction := ⟨none, v.pending.map (·.1), v.established.map (·.1), []⟩

/-- Socket `i` becomes `s` and `out` is sent. -/
def change (i : SockId) (s : TcpSocket) (out : List Sent) : Reaction :=
  { v.idle with update := some (i, s), out := out }

/-- `maybeSendFinOnDrain` on socket `i`, which has become `s`. -/
def drain (i : SockId) (s : TcpSocket) : Reaction :=
  if s.state = .SHUTDOWN ∧ s.finSeq < 0 ∧ s.outstanding = [] then
    if Sendable v.addr s.remoteAddr s.localPort s.remotePort then
      v.change i (finQueued s) (attempt v.addr s.remoteAddr
        (Transport.make s.localPort s.remotePort SegType.FIN.code 0 s.sndNxt []))
    else ⟨some (i, released (finQueued s)), none, none, []⟩
  else v.change i s []

def onAck (now : Int) (ack : Transport) : Reaction :=
  match v.pending with
  | some (i, s) =>
      if ack.seqNum = s.synSeq + 1 then
        ⟨some (i, (s.setRwnd ack.window).markEstablished), none, some i, []⟩
      else v.idle
  | none =>
      match v.established with
      | none => v.idle
      | some (i, s) =>
          if s.state = .SHUTDOWN ∧ 0 ≤ s.finSeq ∧ ack.seqNum = s.finSeq + 1 then
            ⟨some (i, s.markClosed), none, none, []⟩
          else if s.Live ∧ ack.seqNum ≤ s.sndNxt then
            if ack.seqNum ≤ s.sndUna then v.change i (s.setRwnd ack.window) []
            else v.drain i (advanced (s.setRwnd ack.window) now ack.seqNum)
          else v.idle

/-- The acknowledgement that a segment from `srcAddr` is answered with. -/
def answer (srcAddr : Int) (t : Transport) (srcPort ackNum window : Int) : List Sent :=
  attempt v.addr srcAddr (Transport.make srcPort t.srcPort SegType.ACK.code window ackNum [])

def onFin (srcAddr : Int) (fin : Transport) : Reaction :=
  match v.established with
  | some (i, s) =>
      v.change i s.markPeerFinReceived
        (v.answer srcAddr fin fin.destPort (fin.seqNum + 1) s.getRecvBufAvailable)
  | none =>
      match v.pending with
      | some (i, s) => ⟨some (i, s.markClosed), none, none, []⟩
      | none => v.idle

def onData (srcAddr : Int) (data : Transport) : Reaction :=
  match v.established with
  | none => v.idle
  | some (i, s) =>
      if s.Live then
        let s' := if data.payload ≠ [] ∧ data.seqNum = s.rcvNxt ∧
          (data.payload.length : Int) ≤ s.getRecvBufAvailable then stored s data.payload else s
        v.change i s' (v.answer srcAddr data s'.localPort s'.rcvNxt s'.getRecvBufAvailable)
      else v.idle

/-- The handlers, seen from the view. -/
def react (now srcAddr : Int) (t : Transport) : Reaction :=
  match t.type with
  | .SYN => v.idle
  | .ACK => v.onAck now t
  | .FIN => v.onFin srcAddr t
  | .DATA => v.onData srcAddr t

end View

/-- `m'` is `m` after the reaction `r` under `key`; the tables are compared entry by entry. -/
structure Reacts (m : TcpManager) (key : ConnKey) (r : Reaction) (m' : TcpManager) : Prop where
  addr : m'.addr = m.addr
  sockets : m'.allSockets = match r.update with
    | some (i, s) => m.allSockets.set i s
    | none => m.allSockets
  listener : ∀ p, m'.listenersByPort.lookup p = m.listenersByPort.lookup p
  pending : ∀ k, m'.synPendingByKey.lookup k =
    if k = key then r.pending else m.synPendingByKey.lookup k
  established : ∀ k, m'.establishedByKey.lookup k =
    if k = key then r.established else m.establishedByKey.lookup k
  sent : m'.sent = m.sent ++ r.out

namespace TcpManager

variable {m : TcpManager}

/-! ### The handlers are the reactions -/

theorem lookup_pending_idle (m : TcpManager) (key k : ConnKey) :
    m.synPendingByKey.lookup k =
      if k = key then (m.view key).idle.pending else m.synPendingByKey.lookup k := by
  split_ifs with hk
  · subst hk
    simp [view, View.idle, Function.comp_def]
  · rfl

theorem lookup_established_idle (m : TcpManager) (key k : ConnKey) :
    m.establishedByKey.lookup k =
      if k = key then (m.view key).idle.established else m.establishedByKey.lookup k := by
  split_ifs with hk
  · subst hk
    simp [view, View.idle, Function.comp_def]
  · rfl

theorem reacts_idle (key : ConnKey) : Reacts m key (m.view key).idle m :=
  ⟨rfl, rfl, fun _ => rfl, m.lookup_pending_idle key, m.lookup_established_idle key,
    by simp [View.idle]⟩

theorem reacts_change (key : ConnKey) (i : SockId) (s : TcpSocket) (out : List Sent) :
    Reacts m key ((m.view key).change i s out) ((m.setSock i s).emit out) :=
  ⟨rfl, rfl, fun _ => rfl, m.lookup_pending_idle key, m.lookup_established_idle key, rfl⟩

theorem view_established {key : ConnKey} {i : SockId}
    (h : m.establishedByKey.lookup key = some i) :
    (m.view key).established = some (i, m.sock i) := by simp [view, h]

theorem view_pending {key : ConnKey} {i : SockId} (h : m.synPendingByKey.lookup key = some i) :
    (m.view key).pending = some (i, m.sock i) := by simp [view, h]

/-- Taking a socket out of all tables takes it out from under its key, and nothing else when it is
connected. -/
theorem reacts_unregister (hf : ∀ j, m.Fits j (m.sock j)) {key : ConnKey} {i : SockId}
    (hpend : m.synPendingByKey.lookup key = none)
    (hest : m.establishedByKey.lookup key = some i) (hlive : (m.sock i).Live) (s : TcpSocket) :
    Reacts m key ⟨some (i, s), none, none, []⟩ ((m.unregisterSocket i).setSock i s) := by
  obtain ⟨hc, hl, hp⟩ := hlive.ne
  have hkey := ((hf i).established key hest).1
  refine ⟨rfl, rfl, ?_, ?_, ?_, by simp [unregisterSocket]⟩
  · intro p
    apply Option.ext
    intro j
    refine Iff.trans (Table.lookup_eraseValue_eq_some _) ⟨fun h => h.1, fun h => ⟨h, ?_⟩⟩
    rintro rfl
    obtain e | e := ((hf j).listener p h).2
    · exact hl e
    · exact hc e
  · intro k
    apply Option.ext
    intro j
    refine Iff.trans (Table.lookup_eraseValue_eq_some _) ?_
    split_ifs with hk
    · subst hk
      rw [hpend]
      simp
    · refine ⟨fun h => h.1, fun h => ⟨h, ?_⟩⟩
      rintro rfl
      obtain e | e := ((hf j).pending k h).2
      · exact hp e
      · exact hc e
  · intro k
    apply Option.ext
    intro j
    refine Iff.trans (Table.lookup_eraseValue_eq_some _) ?_
    split_ifs with hk
    · subst hk
      rw [hest]
      simp only [Option.some.injEq, iff_false, not_and, not_not]
      exact Eq.symm
    · refine ⟨fun h => h.1, fun h => ⟨h, ?_⟩⟩
      rintro rfl
      exact hk (((hf j).established k h).1.symm.trans hkey)

theorem reacts_drain (hf : ∀ j, m.Fits j (m.sock j)) {key : ConnKey} {i : SockId}
    (hi : i < m.allSockets.length) (hpend : m.synPendingByKey.lookup key = none)
    (hest : m.establishedByKey.lookup key = some i) (hlive : (m.sock i).Live) (s : TcpSocket) :
    Reacts m key ((m.view key).drain i s) ((m.setSock i s).maybeSendFinOnDrain i) := by
  have hself := m.sock_setSock_self hi s
  have hlen : i < (m.setSock i s).allSockets.length := by simpa using hi
  unfold View.drain
  split_ifs with hdrained hs
  · obtain ⟨hst, hfin, hout⟩ := hdrained
    obtain ⟨p, hp, e⟩ := (m.setSock i s).maybeSendFin_sends hlen (by rwa [hself]) (by rwa [hself])
      (by rwa [hself]) (by rwa [hself])
    rw [hself] at hp e
    rw [e, setSock_setSock, attempt_eq hs hp]
    exact reacts_change key i (finQueued s) [p]
  · obtain ⟨hst, hfin, hout⟩ := hdrained
    rw [(m.setSock i s).maybeSendFin_releases hlen (by rwa [hself]) (by rwa [hself])
      (by rwa [hself]) (by rwa [hself]), hself]
    have h := reacts_unregister hf hpend hest hlive (released (finQueued s))
    simpa [unregisterSocket, setSock, List.set_set] using h
  · rw [(m.setSock i s).maybeSendFin_idle ?_]
    · simpa using reacts_change (m := m) key i s []
    · rw [hself]
      by_contra hno
      simp only [not_or, not_not, not_le] at hno
      exact hdrained hno

/-- The branches of `onAck` for a socket found in `establishedByKey_`. -/
theorem onAckEstablished_reacts (hb : m.Bounded) (hf : ∀ j, m.Fits j (m.sock j)) (now : Int)
    (ack : Transport) {key : ConnKey} {i : SockId}
    (hpend : m.synPendingByKey.lookup key = none)
    (hest : m.establishedByKey.lookup key = some i) :
    Reacts m key
      (if (m.sock i).state = .SHUTDOWN ∧ 0 ≤ (m.sock i).finSeq ∧
          ack.seqNum = (m.sock i).finSeq + 1 then
        ⟨some (i, (m.sock i).markClosed), none, none, []⟩
      else if (m.sock i).Live ∧ ack.seqNum ≤ (m.sock i).sndNxt then
        if ack.seqNum ≤ (m.sock i).sndUna then
          (m.view key).change i ((m.sock i).setRwnd ack.window) []
        else
          (m.view key).drain i (advanced ((m.sock i).setRwnd ack.window) now ack.seqNum)
      else (m.view key).idle)
      (m.onAckEstablished now ack key i) := by
  have hi := hb.established hest
  have hclosing : (m.sock i).isClosurePending = true ↔ (m.sock i).state = .SHUTDOWN := by
    simp [TcpSocket.isClosurePending]
  have hlive : ((m.sock i).isConnected = true ∨ (m.sock i).isClosurePending = true) ↔
      (m.sock i).Live := by
    simp [TcpSocket.isClosurePending, TcpSocket.isConnected, TcpSocket.Live]
  unfold onAckEstablished
  simp only [hlive]
  simp only [hclosing]
  by_cases hfin : (m.sock i).state = .SHUTDOWN ∧ 0 ≤ (m.sock i).finSeq ∧
      ack.seqNum = (m.sock i).finSeq + 1
  · -- our FIN is acknowledged
    rw [if_pos hfin, if_pos hfin]
    refine ⟨rfl, rfl, fun _ => rfl, ?_, fun k => Table.lookup_erase_eq _ key k, by simp⟩
    intro k
    split_ifs with hk
    · rw [hk]
      exact hpend
    · rfl
  · rw [if_neg hfin, if_neg hfin]
    by_cases hopen : (m.sock i).Live
    · rw [if_pos hopen]
      by_cases hnew : ack.seqNum ≤ (m.sock i).sndNxt
      · rw [if_pos ⟨hopen, hnew⟩, if_neg (not_lt.mpr hnew)]
        by_cases hold : ack.seqNum ≤ (m.sock i).sndUna
        · rw [if_pos hold, if_pos hold]
          simpa using reacts_change (m := m) key i ((m.sock i).setRwnd ack.window) []
        · rw [if_neg hold, if_neg hold, onAckAdvance_eq, setSock_setSock, m.sock_setSock_self hi]
          exact reacts_drain hf hi hpend hest hopen _
      · rw [if_neg fun h => hnew h.2, if_pos (not_le.mp hnew)]
        exact reacts_idle key
    · rw [if_neg hopen, if_neg fun h => hopen h.1]
      exact reacts_idle key

theorem onAck_reacts (hb : m.Bounded) (hf : ∀ j, m.Fits j (m.sock j)) (now srcAddr : Int)
    (ack : Transport) :
    Reacts m (segKey srcAddr ack) ((m.view (segKey srcAddr ack)).onAck now ack)
      (m.onAck now srcAddr ack) := by
  set key := segKey srcAddr ack with hkey
  cases hpend : m.synPendingByKey.lookup key with
  | some i =>
      have hview := view_pending hpend
      have e : m.onAck now srcAddr ack = m.onAckPending srcAddr ack key i := by
        simp only [onAck]
        rw [show m.synPendingByKey.lookup ⟨srcAddr, ack.srcPort, ack.destPort⟩ = some i from hpend]
        rfl
      rw [e]
      simp only [View.onAck, hview]
      split_ifs with hseq
      · -- the socket moves to the other table under the same key
        obtain ⟨hk, _⟩ := (hf i).pending key hpend
        have hport : (m.sock i).localPort = ack.destPort := congrArg ConnKey.localPort hk
        rw [m.onAckPending_completes (hb.pending hpend) srcAddr key hseq, hport]
        refine ⟨rfl, rfl, fun _ => rfl, ?_, ?_, by simp⟩
        · exact fun k => Table.lookup_erase_eq _ key k
        · exact fun k => Table.lookup_insert_eq _ key k i
      · rw [onAckPending, if_neg hseq]
        exact reacts_idle key
  | none =>
      have hview : (m.view key).pending = none := by simp [view, hpend]
      cases hest : m.establishedByKey.lookup key with
      | none =>
          have hview' : (m.view key).established = none := by simp [view, hest]
          have e : m.onAck now srcAddr ack = m := by
            simp only [onAck]
            rw [show m.synPendingByKey.lookup ⟨srcAddr, ack.srcPort, ack.destPort⟩ = none from hpend,
              show m.establishedByKey.lookup ⟨srcAddr, ack.srcPort, ack.destPort⟩ = none from hest]
          rw [e]
          simp only [View.onAck, hview, hview']
          exact reacts_idle key
      | some i =>
          have hview' := view_established hest
          have e : m.onAck now srcAddr ack = m.onAckEstablished now ack key i := by
            simp only [onAck]
            rw [show m.synPendingByKey.lookup ⟨srcAddr, ack.srcPort, ack.destPort⟩ = none from hpend,
              show m.establishedByKey.lookup ⟨srcAddr, ack.srcPort, ack.destPort⟩ = some i from hest]
            rfl
          rw [e]
          simp only [View.onAck, hview, hview']
          exact onAckEstablished_reacts hb hf now ack hpend hest

theorem onFin_reacts (hb : m.Bounded) (srcAddr : Int) (fin : Transport) :
    Reacts m (segKey srcAddr fin) ((m.view (segKey srcAddr fin)).onFin srcAddr fin)
      (m.onFin srcAddr fin) := by
  set key := segKey srcAddr fin with hkey
  cases hest : m.establishedByKey.lookup key with
  | some i =>
      have hi := hb.established hest
      simp only [View.onFin, view_established hest, onFin]
      rw [show m.establishedByKey.lookup ⟨srcAddr, fin.srcPort, fin.destPort⟩ = some i from hest]
      show Reacts m key _ (trySend _ _ _).1
      rw [trySend_fst, m.sock_setSock_self hi]
      exact reacts_change key i _ _
  | none =>
      have hview : (m.view key).established = none := by simp [view, hest]
      cases hpend : m.synPendingByKey.lookup key with
      | some i =>
          simp only [View.onFin, hview, view_pending hpend, onFin]
          rw [show m.establishedByKey.lookup ⟨srcAddr, fin.srcPort, fin.destPort⟩ = none from hest,
            show m.synPendingByKey.lookup ⟨srcAddr, fin.srcPort, fin.destPort⟩ = some i from hpend]
          refine ⟨rfl, rfl, fun _ => rfl, fun k => Table.lookup_erase_eq _ key k, ?_, by simp⟩
          intro k
          split_ifs with hk
          · rw [hk]
            exact hest
          · rfl
      | none =>
          have hview' : (m.view key).pending = none := by simp [view, hpend]
          simp only [View.onFin, hview, hview', onFin]
          rw [show m.establishedByKey.lookup ⟨srcAddr, fin.srcPort, fin.destPort⟩ = none from hest,
            show m.synPendingByKey.lookup ⟨srcAddr, fin.srcPort, fin.destPort⟩ = none from hpend]
          exact reacts_idle key

theorem ackData_eq (srcAddr : Int) (data : Transport) (i : SockId) :
    m.ackData srcAddr data i = m.emit ((m.view (segKey srcAddr data)).answer srcAddr data
      (m.sock i).localPort (m.sock i).rcvNxt (m.sock i).getRecvBufAvailable) :=
  m.trySend_fst srcAddr _

theorem onData_reacts (hb : m.Bounded) (srcAddr : Int) (data : Transport) :
    Reacts m (segKey srcAddr data) ((m.view (segKey srcAddr data)).onData srcAddr data)
      (m.onData srcAddr data) := by
  set key := segKey srcAddr data with hkey
  cases hest : m.establishedByKey.lookup key with
  | none =>
      have hview : (m.view key).established = none := by simp [view, hest]
      simp only [View.onData, hview, onData]
      rw [show m.establishedByKey.lookup ⟨srcAddr, data.srcPort, data.destPort⟩ = none from hest]
      exact reacts_idle key
  | some i =>
      have hi := hb.established hest
      have hfound : m.establishedByKey.lookup ⟨srcAddr, data.srcPort, data.destPort⟩ = some i := hest
      simp only [View.onData, view_established hest]
      by_cases hlive : (m.sock i).Live
      · rw [if_pos hlive]
        by_cases hnext : data.payload ≠ [] ∧ data.seqNum = (m.sock i).rcvNxt ∧
            (data.payload.length : Int) ≤ (m.sock i).getRecvBufAvailable
        · rw [if_pos hnext, m.onData_stores hfound hlive hnext.1 hnext.2.1 hnext.2.2, ackData_eq,
            m.sock_setSock_self hi]
          exact reacts_change key i _ _
        · rw [if_neg hnext, m.onData_answers hfound hlive hnext, ackData_eq]
          have h := reacts_change (m := m) key i (m.sock i) ((m.view key).answer srcAddr data
            (m.sock i).localPort (m.sock i).rcvNxt (m.sock i).getRecvBufAvailable)
          rwa [setSock_sock] at h
      · rw [if_neg hlive, m.onData_drops hfound hlive]
        exact reacts_idle key

/-- **The handlers are local**: what a segment other than a SYN does is decided by the view of its
own connection. -/
theorem receive_reacts (hb : m.Bounded) (hf : ∀ j, m.Fits j (m.sock j)) (now srcAddr : Int)
    {t : Transport} (hty : t.type ≠ .SYN) :
    Reacts m (segKey srcAddr t) ((m.view (segKey srcAddr t)).react now srcAddr t)
      (m.receiveTransport now srcAddr t) := by
  unfold receiveTransport View.react
  cases h : t.type with
  | SYN => exact absurd h hty
  | ACK => exact onAck_reacts hb hf now srcAddr t
  | FIN => exact onFin_reacts hb srcAddr t
  | DATA => exact onData_reacts hb srcAddr t

end TcpManager

/-! ### What a reaction touches -/

/-- The socket is under the view's key. -/
def View.Has (v : View) (i : SockId) : Prop :=
  (∃ s, v.pending = some (i, s)) ∨ ∃ s, v.established = some (i, s)

/-- The segment goes from the node `addr` back to where `t` came from. -/
structure Sent.Answers (p : Sent) (addr srcAddr : Int) (t : Transport) : Prop where
  src : p.src = addr
  dest : p.dest = srcAddr
  destPort : p.seg.destPort = t.srcPort
  srcPort : p.seg.srcPort = t.destPort

theorem Sent.Is.answers {p : Sent} {addr srcAddr srcPort destPort : Int} {type : SegType}
    {window seqNum : Int} {payload : List UInt8} {t : Transport}
    (h : p.Is addr srcAddr srcPort destPort type window seqNum payload)
    (hdest : destPort = t.srcPort) (hsrc : srcPort = t.destPort) : p.Answers addr srcAddr t :=
  ⟨h.src, h.dest, h.destPort.trans hdest, h.srcPort.trans hsrc⟩

/-- A reaction changes a socket of the view only and answers the sender only. -/
structure Reaction.Local (r : Reaction) (v : View) (srcAddr : Int) (t : Transport) : Prop where
  update : ∀ e, r.update = some e → v.Has e.1
  out : ∀ p ∈ r.out, p.Answers v.addr srcAddr t

namespace Reaction.Local

variable {v : View} {srcAddr : Int} {t : Transport} {i : SockId} {s : TcpSocket}

theorem idle : v.idle.Local v srcAddr t := ⟨(fun _ h => by cases h), (fun _ h => by cases h)⟩

theorem silent (hi : v.Has i) (pending established : Option SockId) :
    (⟨some (i, s), pending, established, []⟩ : Reaction).Local v srcAddr t := by
  refine ⟨?_, fun p hp => by cases hp⟩
  rintro _ ⟨⟩
  exact hi

theorem change (hi : v.Has i) {out : List Sent} (hout : ∀ p ∈ out, p.Answers v.addr srcAddr t) :
    (v.change i s out).Local v srcAddr t := by
  refine ⟨?_, hout⟩
  rintro _ ⟨⟩
  exact hi

theorem drain (hi : v.Has i) (hkey : s.key = segKey srcAddr t) :
    (v.drain i s).Local v srcAddr t := by
  unfold View.drain
  split_ifs
  · refine change hi ?_
    intro p hp
    have his := attempt_is p hp
    rw [show s.remoteAddr = srcAddr from congrArg ConnKey.remoteAddr hkey] at his
    exact his.answers (congrArg ConnKey.remotePort hkey) (congrArg ConnKey.localPort hkey)
  · exact silent hi _ _
  · exact change hi fun p hp => by cases hp

theorem answer {srcPort ackNum window : Int} (hport : srcPort = t.destPort) :
    ∀ p ∈ v.answer srcAddr t srcPort ackNum window, p.Answers v.addr srcAddr t :=
  fun p hp => (attempt_is p hp).answers rfl hport

/-- Every handler is local to the connection of its segment. -/
theorem react (now : Int) (hkey : ∀ i s, v.established = some (i, s) → s.key = segKey srcAddr t) :
    (v.react now srcAddr t).Local v srcAddr t := by
  unfold View.react
  split
  · exact idle
  · unfold View.onAck
    split
    · rename_i i s hpend
      split_ifs
      · exact silent (.inl ⟨s, hpend⟩) _ _
      · exact idle
    · split
      · exact idle
      · rename_i i s hest
        have hi : v.Has i := .inr ⟨s, hest⟩
        split_ifs
        · exact silent hi _ _
        · exact change hi fun p hp => by cases hp
        · refine drain hi ?_
          rw [(sameConn_advanced _ _ _).key, (sameConn_setRwnd s t.window).key]
          exact hkey i s hest
        · exact idle
  · unfold View.onFin
    split
    · rename_i i s hest
      exact change (.inr ⟨s, hest⟩) (answer rfl)
    · split
      · rename_i i s hpend
        exact silent (.inl ⟨s, hpend⟩) _ _
      · exact idle
  · unfold View.onData
    split
    · exact idle
    · rename_i i s hest
      have hport : s.localPort = t.destPort := congrArg ConnKey.localPort (hkey i s hest)
      split_ifs
      · exact change (.inr ⟨s, hest⟩) (answer hport)
      · exact change (.inr ⟨s, hest⟩) (answer hport)
      · exact idle

end Reaction.Local

namespace TcpManager

variable {m m₁ : TcpManager} {key : ConnKey}

theorem Fits.view_has (hf : ∀ j, m.Fits j (m.sock j)) {i : SockId} (hi : (m.view key).Has i) :
    (m.sock i).key = key ∧
      (m.synPendingByKey.lookup key = some i ∨ m.establishedByKey.lookup key = some i) := by
  obtain ⟨s, hi⟩ | ⟨s, hi⟩ := hi
  · obtain ⟨j, hj, e⟩ := Option.map_eq_some_iff.mp hi
    obtain ⟨rfl, rfl⟩ := Prod.mk.inj e
    exact ⟨((hf j).pending key hj).1, .inl hj⟩
  · obtain ⟨j, hj, e⟩ := Option.map_eq_some_iff.mp hi
    obtain ⟨rfl, rfl⟩ := Prod.mk.inj e
    exact ⟨((hf j).established key hj).1, .inr hj⟩

/-- The reaction of the manager to a segment other than a SYN is local. -/
theorem Fits.local_react (hf : ∀ j, m.Fits j (m.sock j)) (now srcAddr : Int) (t : Transport) :
    ((m.view (segKey srcAddr t)).react now srcAddr t).Local (m.view (segKey srcAddr t)) srcAddr t := by
  refine .react now ?_
  intro i s hi
  obtain ⟨j, hj, e⟩ := Option.map_eq_some_iff.mp hi
  obtain ⟨rfl, rfl⟩ := Prod.mk.inj e
  exact ((hf j).established _ hj).1

end TcpManager

namespace Reacts

variable {m m' : TcpManager} {key : ConnKey} {r : Reaction}

theorem sock_ne (h : Reacts m key r m') {j : SockId} (hj : ∀ e, r.update = some e → e.1 ≠ j) :
    m'.sock j = m.sock j := by
  have hs := h.sockets
  cases hu : r.update with
  | none =>
      rw [hu] at hs
      simp only [TcpManager.sock, hs]
  | some e =>
      rw [hu] at hs
      have hne := hj e hu
      simp only [TcpManager.sock, hs, List.getD_eq_getElem?_getD]
      rw [List.getElem?_set_ne hne]

theorem length (h : Reacts m key r m') : m'.allSockets.length = m.allSockets.length := by
  rw [h.sockets]
  split
  · exact List.length_set
  · rfl

theorem update_ne (hf : ∀ j, m.Fits j (m.sock j)) {srcAddr : Int} {t : Transport}
    (hr : r.Local (m.view key) srcAddr t) {key' : ConnKey} (hne : key ≠ key') {j : SockId}
    (hj : (m.view key').Has j) : ∀ e, r.update = some e → e.1 ≠ j := by
  rintro e he rfl
  exact hne ((TcpManager.Fits.view_has hf (hr.update e he)).1.symm.trans
    (TcpManager.Fits.view_has hf hj).1)

theorem view_ne (h : Reacts m key r m') (hf : ∀ j, m.Fits j (m.sock j)) {srcAddr : Int}
    {t : Transport} (hr : r.Local (m.view key) srcAddr t) {key' : ConnKey} (hne : key ≠ key') :
    m'.view key' = m.view key' := by
  have hp := h.pending key'
  have he := h.established key'
  rw [if_neg (Ne.symm hne)] at hp he
  unfold TcpManager.view
  rw [h.addr, hp, he]
  congr 1
  · apply Option.map_congr
    intro j hj
    rw [h.sock_ne (update_ne hf hr hne (.inl ⟨m.sock j, TcpManager.view_pending hj⟩))]
  · apply Option.map_congr
    intro j hj
    rw [h.sock_ne (update_ne hf hr hne (.inr ⟨m.sock j, TcpManager.view_established hj⟩))]

/-- Two reactions under different keys that change different sockets commute. -/
theorem comm {m₁ m₂ m₁₂ m₂₁ : TcpManager} {key₁ key₂ : ConnKey} {r₁ r₂ : Reaction}
    (h₁ : Reacts m key₁ r₁ m₁) (h₁₂ : Reacts m₁ key₂ r₂ m₁₂) (h₂ : Reacts m key₂ r₂ m₂)
    (h₂₁ : Reacts m₂ key₁ r₁ m₂₁) (hkey : key₁ ≠ key₂)
    (hsock : ∀ e₁ e₂, r₁.update = some e₁ → r₂.update = some e₂ → e₁.1 ≠ e₂.1) :
    m₁₂.allSockets = m₂₁.allSockets ∧
      (∀ p, m₁₂.listenersByPort.lookup p = m₂₁.listenersByPort.lookup p) ∧
      (∀ k, m₁₂.synPendingByKey.lookup k = m₂₁.synPendingByKey.lookup k) ∧
      ∀ k, m₁₂.establishedByKey.lookup k = m₂₁.establishedByKey.lookup k := by
  refine ⟨?_, ?_, ?_, ?_⟩
  · rw [h₁₂.sockets, h₁.sockets, h₂₁.sockets, h₂.sockets]
    cases hu₁ : r₁.update with
    | none => cases hu₂ : r₂.update <;> rfl
    | some e₁ =>
        cases hu₂ : r₂.update with
        | none => rfl
        | some e₂ => exact List.set_comm e₁.2 e₂.2 (hsock e₁ e₂ hu₁ hu₂)
  · intro p
    rw [h₁₂.listener, h₁.listener, h₂₁.listener, h₂.listener]
  · intro k
    rw [h₁₂.pending, h₁.pending, h₂₁.pending, h₂.pending]
    apply ite_ite_comm
    intro hk₂ hk₁
    exact hkey (hk₁.symm.trans hk₂)
  · intro k
    rw [h₁₂.established, h₁.established, h₂₁.established, h₂.established]
    apply ite_ite_comm
    intro hk₂ hk₁
    exact hkey (hk₁.symm.trans hk₂)

end Reacts

/-! ### All runs -/

/-- `m'` differs from `m` under the key of a segment from `srcAddr` only: in the sockets found
there, in the listener and one new child when it is a SYN, and in answers to its sender. -/
structure OnlyUnder (m m' : TcpManager) (srcAddr : Int) (t : Transport) : Prop where
  sock : ∀ j < m.allSockets.length, m'.sock j ≠ m.sock j →
    m.synPendingByKey.lookup (segKey srcAddr t) = some j ∨
      m.establishedByKey.lookup (segKey srcAddr t) = some j ∨
      t.type = .SYN ∧ m.listenersByPort.lookup t.destPort = some j
  created : m'.allSockets.length = m.allSockets.length ∨
    t.type = .SYN ∧ m'.allSockets.length = m.allSockets.length + 1
  listener : ∀ p, m'.listenersByPort.lookup p = m.listenersByPort.lookup p
  pending : ∀ k, k ≠ segKey srcAddr t → m'.synPendingByKey.lookup k = m.synPendingByKey.lookup k
  established : ∀ k, k ≠ segKey srcAddr t →
    m'.establishedByKey.lookup k = m.establishedByKey.lookup k
  sent : ∃ out, m'.sent = m.sent ++ out ∧ ∀ p ∈ out, p.Answers m.addr srcAddr t

/-- A SYN changes the listener, adds a child and registers it under its own key. -/
theorem OnlyUnder.onSyn {m : TcpManager} (hb : m.Bounded) (srcAddr : Int) {syn : Transport}
    (hty : syn.type = .SYN) : OnlyUnder m (m.onSyn srcAddr syn) srcAddr syn := by
  cases hl : m.listenersByPort.lookup syn.destPort with
  | none =>
      obtain ⟨out, e, hout⟩ := m.onSyn_refused srcAddr hl
      rw [e]
      refine ⟨fun j _ hj => absurd rfl hj, .inl rfl, fun _ => rfl, fun _ _ => rfl, fun _ _ => rfl,
        out, rfl, ?_⟩
      exact fun p hp => (hout p hp).answers rfl rfl
  | some listener =>
      obtain ⟨out, e, hout⟩ := (m.admitted listener srcAddr syn).sendAck_cases syn.destPort srcAddr
        syn.srcPort (syn.seqNum + 1) TcpSocket.RECV_BUF_CAP
      rw [m.onSyn_admits hl (hb.listener hl), e]
      refine ⟨?_, .inr ⟨hty, m.admitted_length listener srcAddr syn⟩, fun _ => rfl, fun _ _ => rfl,
        fun k hk => ?_, out, rfl, ?_⟩
      · intro j hlen hj
        refine .inr (.inr ⟨hty, ?_⟩)
        by_cases hjl : j = listener
        · rw [hjl]
          exact hl
        · exact absurd (m.admitted_sock_ne hjl (Nat.ne_of_lt hlen) srcAddr syn) hj
      · exact (Table.lookup_insert_eq _ _ _ _).trans (if_neg hk)
      · exact fun p hp => (hout p hp).answers rfl rfl

theorem Reacts.onlyUnder {m m' : TcpManager} {srcAddr : Int} {t : Transport} {r : Reaction}
    (hf : ∀ j, m.Fits j (m.sock j)) (h : Reacts m (segKey srcAddr t) r m')
    (hr : r.Local (m.view (segKey srcAddr t)) srcAddr t) : OnlyUnder m m' srcAddr t := by
  refine ⟨?_, .inl h.length, h.listener, ?_, ?_, r.out, h.sent, hr.out⟩
  · intro j _ hj
    obtain ⟨e, he, rfl⟩ : ∃ e, r.update = some e ∧ e.1 = j := by
      by_contra hno
      exact hj (h.sock_ne fun e he hej => hno ⟨e, he, hej⟩)
    obtain hk | hk := (TcpManager.Fits.view_has hf (hr.update e he)).2
    · exact .inl hk
    · exact .inr (.inl hk)
  · intro k hk
    rw [h.pending, if_neg hk]
  · intro k hk
    rw [h.established, if_neg hk]

namespace Host

theorem Sound.reacts {h : Host} (hs : h.Sound) (now srcAddr : Int) {t : Transport}
    (hty : t.type ≠ .SYN) :
    Reacts h.man (segKey srcAddr t) ((h.man.view (segKey srcAddr t)).react now srcAddr t)
      (h.man.receiveTransport now srcAddr t) :=
  TcpManager.receive_reacts hs.bounded hs.fits now srcAddr hty

theorem Sound.receive {h : Host} (hs : h.Sound) (now srcAddr : Int) (t : Transport) :
    (⟨h.man.receiveTransport now srcAddr t, h.phase⟩ : Host).Sound := by
  have heq : h.step (.receive now srcAddr t) = ⟨h.man.receiveTransport now srcAddr t, h.phase⟩ := by
    rw [Host.step, TcpManager.step_receive]
    rfl
  rw [← heq]
  exact hs.step trivial

theorem Sound.onlyUnder {h : Host} (hs : h.Sound) (now srcAddr : Int) (t : Transport) :
    OnlyUnder h.man (h.man.receiveTransport now srcAddr t) srcAddr t := by
  by_cases hty : t.type = .SYN
  · rw [show h.man.receiveTransport now srcAddr t = h.man.onSyn srcAddr t by
      simp only [TcpManager.receiveTransport, hty]]
    exact .onSyn hs.bounded srcAddr hty
  · exact (hs.reacts now srcAddr hty).onlyUnder hs.fits
      (TcpManager.Fits.local_react hs.fits now srcAddr t)

/-- What two managers have sent, seen by the receivers. -/
structure SameSent (m m' : TcpManager) : Prop where
  /-- Every destination gets the same segments. -/
  dest : ∀ destAddr destPort : Int,
    (m.sent.filter fun p => p.dest = destAddr ∧ p.seg.destPort = destPort).Perm
      (m'.sent.filter fun p => p.dest = destAddr ∧ p.seg.destPort = destPort)
  /-- Every connection gets them in the same order. -/
  conn : ∀ key : ConnKey,
    (m.sent.filter fun p => (⟨p.dest, p.seg.destPort, p.seg.srcPort⟩ : ConnKey) = key) =
      m'.sent.filter fun p => (⟨p.dest, p.seg.destPort, p.seg.srcPort⟩ : ConnKey) = key

/-- Two batches of answers to different connections, sent in either order. -/
theorem SameSent.swap {m m' : TcpManager} {sent out₁ out₂ : List Sent} {addr a₁ a₂ : Int}
    {t₁ t₂ : Transport} (hkey : segKey a₁ t₁ ≠ segKey a₂ t₂)
    (h₁ : ∀ p ∈ out₁, p.Answers addr a₁ t₁) (h₂ : ∀ p ∈ out₂, p.Answers addr a₂ t₂)
    (hm : m.sent = sent ++ out₁ ++ out₂) (hm' : m'.sent = sent ++ out₂ ++ out₁) :
    SameSent m m' := by
  have hperm : m.sent.Perm m'.sent := by
    rw [hm, hm', List.append_assoc, List.append_assoc]
    exact List.Perm.append_left _ List.perm_append_comm
  refine ⟨fun _ _ => hperm.filter _, ?_⟩
  intro key
  rw [hm, hm']
  simp only [List.filter_append]
  -- one of the two batches has nothing for this connection
  have hnone : ∀ {out : List Sent} {a : Int} {t : Transport}, (∀ p ∈ out, p.Answers addr a t) →
      segKey a t ≠ key →
      out.filter (fun p => (⟨p.dest, p.seg.destPort, p.seg.srcPort⟩ : ConnKey) = key) = [] := by
    intro out a t hout hne
    refine List.filter_eq_nil_iff.mpr ?_
    intro p hp hk
    have hans := hout p hp
    rw [decide_eq_true_eq, hans.dest, hans.destPort, hans.srcPort] at hk
    exact hne hk
  by_cases hk : segKey a₁ t₁ = key
  · rw [hnone h₂ fun h => hkey (hk.trans h.symm)]
    simp
  · rw [hnone h₁ hk]
    simp

/-- **Connections are isolated.**  A segment changes nothing but its own connection, and two
segments of different connections, neither a SYN, can be processed in either order. -/
theorem connections_isolated (addr : Int) (ops : List Op)
    (hops : Guarded Host.step Host.Allowed (Host.new addr) ops) :
    let m := (run Host.step (Host.new addr) ops).man
    (∀ (now srcAddr : Int) (t : Transport),
      OnlyUnder m (m.receiveTransport now srcAddr t) srcAddr t) ∧
    ∀ (now a₁ a₂ : Int) (t₁ t₂ : Transport), t₁.type ≠ .SYN → t₂.type ≠ .SYN →
      segKey a₁ t₁ ≠ segKey a₂ t₂ →
      let m₁₂ := (m.receiveTransport now a₁ t₁).receiveTransport now a₂ t₂
      let m₂₁ := (m.receiveTransport now a₂ t₂).receiveTransport now a₁ t₁
      m₁₂.allSockets = m₂₁.allSockets ∧
      (∀ p, m₁₂.listenersByPort.lookup p = m₂₁.listenersByPort.lookup p) ∧
      (∀ k, m₁₂.synPendingByKey.lookup k = m₂₁.synPendingByKey.lookup k) ∧
      (∀ k, m₁₂.establishedByKey.lookup k = m₂₁.establishedByKey.lookup k) ∧
      SameSent m₁₂ m₂₁ := by
  intro m
  have hs : (run Host.step (Host.new addr) ops).Sound := sound_run addr hops
  refine ⟨fun now srcAddr t => hs.onlyUnder now srcAddr t, ?_⟩
  intro now a₁ a₂ t₁ t₂ hty₁ hty₂ hkey m₁₂ m₂₁
  have hr₁ := TcpManager.Fits.local_react hs.fits now a₁ t₁
  have hr₂ := TcpManager.Fits.local_react hs.fits now a₂ t₂
  have h₁ := hs.reacts now a₁ hty₁
  have h₂ := hs.reacts now a₂ hty₂
  have h₁₂ := (hs.receive now a₁ t₁).reacts now a₂ hty₂
  have h₂₁ := (hs.receive now a₂ t₂).reacts now a₁ hty₁
  -- each segment finds the view it would have found without the other
  rw [h₁.view_ne hs.fits hr₁ hkey] at h₁₂
  rw [h₂.view_ne hs.fits hr₂ hkey.symm] at h₂₁
  have hsock : ∀ e₁ e₂, ((m.view (segKey a₁ t₁)).react now a₁ t₁).update = some e₁ →
      ((m.view (segKey a₂ t₂)).react now a₂ t₂).update = some e₂ → e₁.1 ≠ e₂.1 :=
    fun e₁ e₂ he₁ he₂ => Reacts.update_ne hs.fits hr₁ hkey (hr₂.update e₂ he₂) e₁ he₁
  obtain ⟨hall, hlist, hpend, hest⟩ := Reacts.comm h₁ h₁₂ h₂ h₂₁ hkey hsock
  have hsent₁₂ := h₁₂.sent
  have hsent₂₁ := h₂₁.sent
  rw [h₁.sent] at hsent₁₂
  rw [h₂.sent] at hsent₂₁
  exact ⟨hall, hlist, hpend, hest, .swap hkey hr₁.out hr₂.out hsent₁₂ hsent₂₁⟩

theorem legal_firstSyn : Transport.Legal 5 80 [] := by decide

theorem legal_secondSyn : Transport.Legal 6 80 [] := by decide

/-- A server with two clients. -/
def twoClients : List Op :=
  [.socket, .bind 0 80, .listen 0 5, .receive 0 2 ⟨5, 80, .SYN, 0, 0, [], legal_firstSyn⟩,
    .receive 0 2 ⟨6, 80, .SYN, 0, 0, [], legal_secondSyn⟩]

/-- The first data of the client on port `srcPort`. -/
def firstData (srcPort : Int) (h : Transport.Legal srcPort 80 [7]) : Transport :=
  ⟨srcPort, 80, .DATA, 0, 1, [7], h⟩

/-- The data of the two clients can arrive in either order. -/
theorem connections_isolated_two_clients :
    Guarded Host.step Host.Allowed (Host.new 1) twoClients ∧
    let m := (run Host.step (Host.new 1) twoClients).man
    let t₁ := firstData 5 (by decide)
    let t₂ := firstData 6 (by decide)
    t₁.type ≠ .SYN ∧ t₂.type ≠ .SYN ∧ segKey 2 t₁ ≠ segKey 2 t₂ ∧
    ((m.receiveTransport 9 2 t₁).receiveTransport 9 2 t₂).allSockets =
      ((m.receiveTransport 9 2 t₂).receiveTransport 9 2 t₁).allSockets := by
  refine ⟨by decide, by decide, by decide, by decide, ?_⟩
  exact ((connections_isolated 1 twoClients (by decide)).2 9 2 2 _ _ (by decide) (by decide)
    (by decide)).1

end Host

end NetBridge
