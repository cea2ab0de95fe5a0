import NetBridge.Trawler

/-! # The registered nodes

What `emulatedNodes_` can be after any history of clients that join and leave.  Of a node only the
address that it has been given and its UDP endpoint matter here (`registered`); `step_registered`
says what an event does to them: some nodes are dropped, or one is added at a free address.

The trawler compares the ports that the clients send as numbers, but a node sends to the last 16 bits
of the number (`htons`).  So two nodes get the same endpoint if and only if a client comes with a port
that differs from one that is registered by a multiple of 65536 (`KeepsEndpoints`). -/

namespace NetBridge

namespace TrawlerService

variable {δ : Type}

/-- The port that a datagram is sent to, as `htons` takes it from an `int`. -/
def htons (udpPort : Int) : Int := udpPort % 65536

/-- No two nodes have the same UDP endpoint. -/
def Unambiguous (t : TrawlerService δ) : Prop :=
  ∀ a b nA nB, t.getEmulatedNode a = some nA → t.getEmulatedNode b = some nB →
    nA.ipAddress = nB.ipAddress → htons nA.udpPort = htons nB.udpPort → a = b

/-- A client that is given an address comes with no port that a node at its own IP address has in the
last 16 bits only. -/
def KeepsEndpoints (t : TrawlerService δ) : TrawlerEvent δ → Prop
  | .join ipAddress portLine => ∀ port a n, stoi portLine = some port → 1024 ≤ port →
      t.freeFishAddr ≠ -1 → t.getEmulatedNode a = some n → n.ipAddress = ipAddress →
        htons n.udpPort = htons port → n.udpPort = port
  | _ => True

/-! ### Lines change no node -/

section peers
variable [Zero δ] {t t' : TrawlerService δ}

/-- The nodes are the same, but for the lines written to them. -/
def SamePeers (t t' : TrawlerService δ) : Prop := ∀ a, t'.peer a = t.peer a

omit [Zero δ] in
theorem SamePeers.refl (t : TrawlerService δ) : SamePeers t t := fun _ => rfl

omit [Zero δ] in
theorem SamePeers.trans {t₁ t₂ t₃ : TrawlerService δ} (h₁ : SamePeers t₁ t₂)
    (h₂ : SamePeers t₂ t₃) : SamePeers t₁ t₃ := fun a => (h₂ a).trans (h₁ a)

omit [Zero δ] in
theorem samePeers_foldl {f : TrawlerService δ → Int → TrawlerService δ}
    (h : ∀ t k, SamePeers t (f t k)) (ks : List Int) (t : TrawlerService δ) :
    SamePeers t (ks.foldl f t) := by
  induction ks generalizing t with
  | nil => exact .refl t
  | cons k ks ih => exact (h t k).trans (ih (f t k))

theorem dropNeighbor_samePeers (dyingAddr : Int) (t : TrawlerService δ) (k : Int) :
    SamePeers t (dropNeighbor dyingAddr t k) := by
  unfold dropNeighbor
  cases t.getEmulatedNode k with
  | none => exact .refl t
  | some node =>
      simp only
      split_ifs
      · exact .refl t
      · exact fun a => (writeLine_world _ _ _).peer a
      · exact fun _ => rfl

theorem meetNeighbor_samePeers (fishAddr : Int) (t : TrawlerService δ) (k : Int) :
    SamePeers t (meetNeighbor fishAddr t k) := by
  unfold meetNeighbor
  cases t.getEmulatedNode k with
  | none => exact .refl t
  | some node =>
      cases t.getEmulatedNode fishAddr with
      | none => exact .refl t
      | some startingNode =>
          simp only
          split_ifs
          · exact .refl t
          · intro a
            rw [(sendAddNeighbor_world _ _ _).peer, (sendAddNeighbor_world _ _ _).peer]
            rfl
          · exact fun _ => rfl

theorem updateNeighbors_samePeers (t : TrawlerService δ) (fishAddr : Int) :
    SamePeers t (t.updateNeighbors fishAddr) :=
  samePeers_foldl (meetNeighbor_samePeers fishAddr) _ t

theorem startEdge_samePeers (t : TrawlerService δ) (a b : Int) : SamePeers t (t.startEdge a b) := by
  unfold startEdge
  split
  · exact fun x => ((sendAddNeighbor_world _ _ _).trans (sendAddNeighbor_world _ _ _)).peer x
  · exact .refl t

theorem failEdge_samePeers (t : TrawlerService δ) (a b : Int) : SamePeers t (t.failEdge a b) := by
  unfold failEdge
  split
  · exact fun x => ((writeLine_world _ _ _).trans (writeLine_world _ _ _)).peer x
  · exact .refl t

theorem failNode_samePeers (t : TrawlerService δ) (a : Int) : SamePeers t (t.failNode a) := by
  unfold failNode
  split
  · exact .trans (writeLine_world t a .reset).peer (samePeers_foldl (dropNeighbor_samePeers a) _ _)
  · exact .refl t

/-- `checkNodesQuit` drops nodes that have left, and no others. -/
def Departs (t t' : TrawlerService δ) : Prop :=
  ∀ a, t'.peer a = t.peer a ∨ t'.peer a = none ∧ ∃ n ∈ t.peer a, n.alive = false

theorem quitNode_departs (t : TrawlerService δ) (k : Int) : Departs t (t.quitNode k) := by
  unfold quitNode
  cases hnode : t.getEmulatedNode k with
  | none => exact fun _ => .inl rfl
  | some n =>
      simp only
      split_ifs with halive
      · exact fun _ => .inl rfl
      · intro a
        rw [samePeers_foldl (dropNeighbor_samePeers k) _ _ a]
        by_cases ha : a = k
        · subst ha
          refine .inr ⟨t.erase_peer_self a, _, peer_of_getEmulatedNode hnode, ?_⟩
          simpa using halive
        · exact .inl (t.erase_peer_ne ha)

theorem checkNodesQuit_departs (t : TrawlerService δ) : Departs t t.checkNodesQuit := by
  have hrounds : ∀ (ks : List Int) (t : TrawlerService δ), Departs t (ks.foldl quitNode t) := by
    intro ks
    induction ks with
    | nil => exact fun t _ => .inl rfl
    | cons k ks ih =>
        intro t a
        rw [List.foldl_cons]
        obtain e | ⟨e, hdead⟩ := ih (t.quitNode k) a
        · rw [e]
          exact t.quitNode_departs k a
        · obtain e' | ⟨e', hdead'⟩ := t.quitNode_departs k a
          · exact .inr ⟨e, e' ▸ hdead⟩
          · exact .inr ⟨e, hdead'⟩
  exact hrounds _ t

/-! ### What an event does -/

omit [Zero δ] in
theorem freeFishAddr_range (h : t.freeFishAddr ≠ -1) :
    0 ≤ t.freeFishAddr ∧ t.freeFishAddr ≤ 254 := by
  unfold freeFishAddr at h ⊢
  cases hfind : ((List.range 255).map Int.ofNat).find? fun i => (t.getEmulatedNode i).isNone with
  | none =>
      rw [hfind] at h
      exact absurd rfl h
  | some i =>
      obtain ⟨j, hj, rfl⟩ := List.mem_map.mp (List.mem_of_find?_eq_some hfind)
      rw [List.mem_range] at hj
      simp only [Option.getD_some, Int.ofNat_eq_natCast]
      omega

omit [Zero δ] in
theorem portConflict_iff {ipAddress : Str} {udpPort : Int} :
    t.portConflict ipAddress udpPort = true ↔
      ∃ a n, t.getEmulatedNode a = some n ∧ n.ipAddress = ipAddress ∧ n.udpPort = udpPort := by
  unfold portConflict getEmulatedNode
  simp only [List.any_eq_true, Bool.and_eq_true, beq_iff_eq]
  constructor
  · rintro ⟨⟨a, n⟩, hmem, hip, hport⟩
    exact ⟨a, n, AList.mem_lookup_iff.mpr hmem, hip, hport⟩
  · rintro ⟨a, n, hmem, hip, hport⟩
    exact ⟨⟨a, n⟩, AList.mem_lookup_iff.mp hmem, hip, hport⟩

/-- The client is given an address. -/
structure Accepted (t : TrawlerService δ) (ipAddress portLine : Str) (port : Int) : Prop where
  reads : stoi portLine = some port
  low : 1024 ≤ port
  conflict : t.portConflict ipAddress port = false
  free : t.freeFishAddr ≠ -1

theorem join_cases (t : TrawlerService δ) (ipAddress portLine : Str) :
    t.join ipAddress portLine = t ∧ (∀ port, ¬ t.Accepted ipAddress portLine port) ∨
      ∃ port, t.Accepted ipAddress portLine port ∧
        ∀ b, (t.join ipAddress portLine).peer b =
          if b = t.freeFishAddr then some (.new t.freeFishAddr ipAddress port) else t.peer b := by
  unfold join
  cases hport : stoi portLine with
  | none => exact .inl ⟨rfl, fun port h => by simp [h.reads] at hport⟩
  | some port =>
      have heq : ∀ port', t.Accepted ipAddress portLine port' → port' = port := by
        intro port' h
        simpa [hport] using h.reads.symm
      simp only
      split_ifs with hbad hfull
      · refine .inl ⟨rfl, fun port' h => ?_⟩
        obtain rfl := heq port' h
        obtain hlow | hconflict := hbad
        · exact absurd h.low (not_le.mpr hlow)
        · rw [h.conflict] at hconflict
          cases hconflict
      · exact .inl ⟨rfl, fun port' h => h.free hfull⟩
      · rw [not_or, not_lt, Bool.not_eq_true] at hbad
        refine .inr ⟨port, ⟨hport, hbad.1, hbad.2, hfull⟩, fun b => ?_⟩
        rw [updateNeighbors_samePeers]
        simp only [peer, getEmulatedNode, Table.lookup_insert_eq]
        split_ifs <;> rfl

/-- The address and the endpoint of the node at `a`. -/
def registered (t : TrawlerService δ) (a : Int) : Option (Int × Str × Int) :=
  (t.peer a).map fun n => (n.fishAddr, n.ipAddress, n.udpPort)

omit [Zero δ] in
theorem registered_eq_some {a fishAddr : Int} {ipAddress : Str} {udpPort : Int} :
    t.registered a = some (fishAddr, ipAddress, udpPort) ↔
      ∃ n, t.getEmulatedNode a = some n ∧ n.fishAddr = fishAddr ∧ n.ipAddress = ipAddress ∧
        n.udpPort = udpPort := by
  simp [registered, peer]

/-- What an event can do: nothing but drop nodes, or register a client at a free address. -/
theorem step_registered (t : TrawlerService δ) (e : TrawlerEvent δ) :
    (∀ a, (t.step e).registered a = t.registered a ∨ (t.step e).registered a = none) ∨
      ∃ ipAddress portLine port, e = .join ipAddress portLine ∧
        t.Accepted ipAddress portLine port ∧ ∀ a, (t.step e).registered a =
          if a = t.freeFishAddr then some (t.freeFishAddr, ipAddress, port) else t.registered a := by
  have hsame : ∀ {t' : TrawlerService δ}, SamePeers t t' → ∀ a, t'.registered a = t.registered a :=
    fun h a => by rw [registered, h a, registered]
  have htopology : ∀ topology, SamePeers t { t with topology := topology } := fun _ _ => rfl
  cases e with
  | join ipAddress portLine =>
      obtain ⟨hreject, -⟩ | ⟨port, haccept, hpeer⟩ := t.join_cases ipAddress portLine
      · left
        intro a
        rw [step, hreject]
        exact .inl rfl
      · right
        refine ⟨ipAddress, portLine, port, rfl, haccept, fun a => ?_⟩
        rw [step, registered, hpeer a]
        split_ifs <;> rfl
  | lost a =>
      left
      intro b
      left
      cases hnode : t.getEmulatedNode a with
      | none => simp only [step, hnode]
      | some n =>
          simp only [step, hnode]
          simp only [registered, peer, getEmulatedNode, Table.lookup_insert_eq]
          split_ifs with hb
          · rw [hb, show AList.lookup a t.emulatedNodes = some n from hnode]
            rfl
          · rfl
  | checkNodesQuit =>
      left
      intro a
      obtain e | ⟨e, -⟩ := t.checkNodesQuit_departs a
      · left
        rw [step, registered, e, registered]
      · right
        rw [step, registered, e]
        rfl
  | edge a b opts =>
      exact .inl fun x => .inl (hsame ((htopology _).trans (startEdge_samePeers _ a b)) x)
  | failEdge a b =>
      left
      intro x
      left
      unfold step failEdgeHook
      simp only
      split_ifs
      · exact hsame ((htopology _).trans (failEdge_samePeers _ a b)) x
      · rfl
  | failNode a => exact .inl fun x => .inl (hsame (failNode_samePeers t a) x)
  | restartEdge a b =>
      left
      intro x
      left
      unfold step restartEdgeHook
      simp only
      split_ifs
      · exact hsame ((htopology _).trans (startEdge_samePeers _ a b)) x
      · rfl
  | restartNode a =>
      exact .inl fun x => .inl (hsame ((htopology _).trans (updateNeighbors_samePeers _ a)) x)

/-! ### The nodes after any history -/

omit [Zero δ] in
theorem unambiguous_iff : t.Unambiguous ↔ ∀ a b r r', t.registered a = some r →
    t.registered b = some r' → r.2.1 = r'.2.1 → htons r.2.2 = htons r'.2.2 → a = b := by
  constructor
  · rintro h a b ⟨fishA, ipA, portA⟩ ⟨fishB, ipB, portB⟩ hr hr' hip hport
    obtain ⟨nA, hA, -, rfl, rfl⟩ := registered_eq_some.mp hr
    obtain ⟨nB, hB, -, rfl, rfl⟩ := registered_eq_some.mp hr'
    exact h a b nA nB hA hB hip hport
  · intro h a b nA nB hA hB hip hport
    exact h a b _ _ (registered_eq_some.mpr ⟨nA, hA, rfl, rfl, rfl⟩)
      (registered_eq_some.mpr ⟨nB, hB, rfl, rfl, rfl⟩) hip hport

/-- A client leaves the endpoints distinct exactly if it keeps to `KeepsEndpoints`. -/
theorem unambiguous_join (h : t.Unambiguous) (ipAddress portLine : Str) :
    (t.join ipAddress portLine).Unambiguous ↔ t.KeepsEndpoints (.join ipAddress portLine) := by
  obtain ⟨hreject, hnot⟩ | ⟨port, haccept, hpeer⟩ := t.join_cases ipAddress portLine
  · rw [hreject]
    refine ⟨fun _ => ?_, fun _ => h⟩
    intro port a n hport hlow hfree hn hip hhtons
    -- what turned the client away is that the very port is taken, and by this node
    have hconflict : t.portConflict ipAddress port = true := by
      by_contra hno
      exact hnot port ⟨hport, hlow, by simpa using hno, hfree⟩
    obtain ⟨b, m, hm, hmip, hmport⟩ := portConflict_iff.mp hconflict
    obtain rfl := h a b n m hn hm (hip.trans hmip.symm) (by rw [hhtons, hmport])
    rw [hn] at hm
    obtain rfl := Option.some.inj hm
    exact hmport
  · have hfree : t.getEmulatedNode t.freeFishAddr = none := freeFishAddr_free haccept.free
    have hregistered : ∀ b, (t.join ipAddress portLine).registered b =
        if b = t.freeFishAddr then some (t.freeFishAddr, ipAddress, port) else t.registered b := by
      intro b
      rw [registered, hpeer b]
      split_ifs <;> rfl
    constructor
    · intro hjoin port' a n hport' _ _ hn hip hhtons
      obtain rfl : port' = port := by simpa [hport'] using haccept.reads
      have hne : a ≠ t.freeFishAddr := by
        rintro rfl
        rw [hn] at hfree
        cases hfree
      refine absurd ?_ hne
      refine unambiguous_iff.mp hjoin a t.freeFishAddr (n.fishAddr, n.ipAddress, n.udpPort) _ ?_
        ((hregistered _).trans (if_pos rfl)) hip hhtons
      rw [hregistered, if_neg hne]
      exact registered_eq_some.mpr ⟨n, hn, rfl, rfl, rfl⟩
    · intro hkeeps
      -- an old node with the endpoint of the new one would have made the trawler turn it away
      have hnew : ∀ b r, t.registered b = some r → r.2.1 = ipAddress →
          htons r.2.2 ≠ htons port := by
        rintro b ⟨fishAddr, ip, udpPort⟩ hr rfl hhtons
        obtain ⟨n, hn, -, hip, rfl⟩ := registered_eq_some.mp hr
        have hsame := hkeeps port b n haccept.reads haccept.low haccept.free hn hip hhtons
        have hconflict := portConflict_iff.mpr ⟨b, n, hn, hip, hsame⟩
        rw [haccept.conflict] at hconflict
        cases hconflict
      rw [unambiguous_iff]
      intro a b r r' hr hr' hip hport
      rw [hregistered] at hr hr'
      split_ifs at hr hr' with ha hb
      · rw [ha, hb]
      · obtain rfl := Option.some.inj hr
        exact absurd hport.symm (hnew b r' hr' hip.symm)
      · obtain rfl := Option.some.inj hr'
        exact absurd hport (hnew a r hr hip)
      · exact unambiguous_iff.mp h a b r r' hr hr' hip hport

theorem unambiguous_step (h : t.Unambiguous) (e : TrawlerEvent δ) :
    (t.step e).Unambiguous ↔ t.KeepsEndpoints e := by
  by_cases hjoin : ∃ ipAddress portLine, e = .join ipAddress portLine
  · obtain ⟨ipAddress, portLine, rfl⟩ := hjoin
    exact unambiguous_join h ipAddress portLine
  · have hkeeps : t.KeepsEndpoints e := by
      cases e <;> first | trivial | exact absurd ⟨_, _, rfl⟩ hjoin
    refine ⟨fun _ => hkeeps, fun _ => ?_⟩
    obtain hdrop | ⟨ipAddress, portLine, _, rfl, -⟩ := t.step_registered e
    · have hold : ∀ {a r}, (t.step e).registered a = some r → t.registered a = some r := by
        intro a r hr
        obtain e' | e' := hdrop a
        · rwa [e'] at hr
        · rw [e'] at hr
          cases hr
      rw [unambiguous_iff] at h ⊢
      exact fun a b r r' hr hr' => h a b r r' (hold hr) (hold hr')
    · exact absurd ⟨_, _, rfl⟩ hjoin

/-- Every node is kept under its own address, which is no broadcast address. -/
def Addressed (t : TrawlerService δ) : Prop :=
  ∀ a n, t.getEmulatedNode a = some n → n.fishAddr = a ∧ 0 ≤ a ∧ a ≤ 254

theorem Addressed.step (h : t.Addressed) (e : TrawlerEvent δ) : (t.step e).Addressed := by
  have hold : ∀ {a r}, t.registered a = some r → r.1 = a ∧ 0 ≤ a ∧ a ≤ 254 := by
    rintro a ⟨fishAddr, ipAddress, udpPort⟩ hr
    obtain ⟨n, hn, rfl, -, -⟩ := registered_eq_some.mp hr
    exact h a n hn
  intro a n hn
  have hr : (t.step e).registered a = some (n.fishAddr, n.ipAddress, n.udpPort) :=
    registered_eq_some.mpr ⟨n, hn, rfl, rfl, rfl⟩
  obtain hdrop | ⟨ipAddress, portLine, port, rfl, haccept, hjoin⟩ := t.step_registered e
  · obtain e' | e' := hdrop a
    · rw [e'] at hr
      exact hold hr
    · rw [e'] at hr
      cases hr
  · rw [hjoin] at hr
    split_ifs at hr with ha
    · obtain ⟨hfish, -⟩ := Prod.mk.inj (Option.some.inj hr)
      obtain ⟨hlow, hhigh⟩ := freeFishAddr_range haccept.free
      exact ⟨hfish.symm.trans ha.symm, ha ▸ hlow, ha ▸ hhigh⟩
    · exact hold hr

/-- **Registrations are unambiguous** where no client comes with a port that an IP address has in its
last 16 bits only.  After any history of clients that join and leave, every node is kept under its own
address in 0..254; nodes go only when they have left; a client is turned away and nothing changes, or
it gets an address that nobody has; and all states of the history are without a shared endpoint if and
only if every client keeps to the condition. -/
theorem registrations_unambiguous_iff (allToAll : Bool) (es : List (TrawlerEvent δ)) :
    let t := run TrawlerService.step (.new allToAll) es
    let t₁ := t.checkNodesQuit
    (∀ a n, t.getEmulatedNode a = some n → n.fishAddr = a ∧ 0 ≤ a ∧ a ≤ 254) ∧
    (∀ a, t₁.peer a = t.peer a ∨ t₁.peer a = none ∧ ∃ n ∈ t.peer a, n.alive = false) ∧
    (∀ ipAddress portLine, t₁.join ipAddress portLine = t₁ ∨
      ∃ a port, stoi portLine = some port ∧ 0 ≤ a ∧ a ≤ 254 ∧ t₁.getEmulatedNode a = none ∧
        ∀ b, (t₁.join ipAddress portLine).peer b =
          if b = a then some (.new a ipAddress port) else t₁.peer b) ∧
    ((∀ before after, es = before ++ after →
      (run TrawlerService.step (.new allToAll) before).Unambiguous) ↔
        Guarded TrawlerService.step KeepsEndpoints (.new allToAll) es) := by
  intro t t₁
  refine ⟨?_, t.checkNodesQuit_departs, ?_, ?_⟩
  · refine run_induction (I := Addressed) (fun t e h => h.step e) ?_ es
    intro a n hn
    cases hn
  · intro ipAddress portLine
    obtain ⟨hreject, -⟩ | ⟨port, haccept, hpeer⟩ := t₁.join_cases ipAddress portLine
    · exact .inl hreject
    · obtain ⟨hlow, hhigh⟩ := freeFishAddr_range haccept.free
      exact .inr ⟨t₁.freeFishAddr, port, haccept.reads, hlow, hhigh, freeFishAddr_free haccept.free,
        hpeer⟩
  · have hnew : (.new allToAll : TrawlerService δ).Unambiguous := by
      intro a b nA nB hA
      cases hA
    exact (guarded_iff (I := Unambiguous) (fun t e h => unambiguous_step h e) hnew).symm

end peers

/-- Two clients at one IP address whose ports differ by 65536 get the same endpoint. -/
theorem shared_endpoint :
    ¬ (run TrawlerService.step (.new false : TrawlerService ℕ)
      [.join "10.0.0.1".toList "5000".toList, .join "10.0.0.1".toList "70536".toList]).Unambiguous := by
  intro h
  have hnodes : ∃ nA nB, (run TrawlerService.step (.new false : TrawlerService ℕ)
      [.join "10.0.0.1".toList "5000".toList, .join "10.0.0.1".toList "70536".toList]).getEmulatedNode
        0 = some nA ∧ (run TrawlerService.step (.new false : TrawlerService ℕ)
      [.join "10.0.0.1".toList "5000".toList, .join "10.0.0.1".toList "70536".toList]).getEmulatedNode
        1 = some nB ∧ nA.ipAddress = nB.ipAddress ∧ htons nA.udpPort = htons nB.udpPort :=
    ⟨_, _, rfl, rfl, by decide, by decide⟩
  obtain ⟨nA, nB, hA, hB, hip, hport⟩ := hnodes
  cases h 0 1 nA nB hA hB hip hport

end TrawlerService

end NetBridge
