import NetBridge.Announcements
import NetBridge.Directives
import NetBridge.EdgeCommand

/-! # The loop of the trawler

`TrawlerService::run` (`trawler_service.cpp`) reads the topology file up to its first `time` directive
and then waits for clients.  For each of them it looks for nodes that have left, reads on in the file
if the time has come, and registers the client.  So the file is read on only when a client comes,
however late that is.

A round is a list of events of the service (`events`); what the rest of the development shows about
these events holds of the loop. -/

namespace NetBridge

open CommandsParser

variable {δ : Type}

/-- What a call of its parser makes the trawler do (`TrawlerCommandsParser`).  The other calls print,
but for `exit`, which does not return. -/
def Hook.trawlerEvent : Hook δ → Option (TrawlerEvent δ)
  | .createNewEdge a b options => some (.edge a b options)
  | .failEdgeHook a b => some (.failEdge a b)
  | .failNodeHook a => some (.failNode a)
  | .restartEdgeHook a b => some (.restartEdge a b)
  | .restartNodeHook a => some (.restartNode a)
  | .exitCmd _ | .echo _ | .parseNodeCmd _ | .error .. => none

/-- The service and its topology file. -/
structure TrawlerRun (δ : Type) where
  service : TrawlerService δ
  file : TopoFile

/-- A client that has connected: the time, its IP address, and the line it sends, unless it closes the
connection before. -/
structure Client where
  now : Int
  ipAddress : Str
  portLine : Option Str

namespace TrawlerRun

section loop
variable [Zero δ] (F : Floats δ)

/-- What lines that are read at `nowMicros` make the trawler do. -/
def lineEvents (nowMicros : Int) (lines : List Str) : List (TrawlerEvent δ) :=
  lines.flatMap fun line => (parseLine F line nowMicros).1.filterMap Hook.trawlerEvent

/-- `run` up to its loop; without a topology file there are no lines. -/
def start (allToAll : Bool) (lines : List Str) (now : Int) : TrawlerRun δ :=
  ⟨run TrawlerService.step (.new allToAll) (lineEvents F now (parseRemainder F now lines).1),
    .start F lines now⟩

/-- `deferParsingTill > -1 && deferParsingTill < now`. -/
def due (s : TrawlerRun δ) (now : Int) : Bool :=
  match s.file.scheduled with
  | some deferParsingTill => deferParsingTill < now
  | none => false

/-- The file after the look at the clock. -/
def readOn (s : TrawlerRun δ) (now : Int) : TopoFile :=
  if s.due now then s.file.resume F now else s.file

/-- What a round does with the service.  An `exit` in the file ends the program before the client is
looked at. -/
def events (s : TrawlerRun δ) (client : Client) : List (TrawlerEvent δ) :=
  let lines := if s.due client.now then (parseRemainder F client.now s.file.unread).1 else []
  let join :=
    if (s.readOn F client.now).ended then []
    else (client.portLine.map (TrawlerEvent.join client.ipAddress)).toList
  .checkNodesQuit :: lineEvents F client.now lines ++ join

/-- One round of the loop. -/
def accept (s : TrawlerRun δ) (client : Client) : TrawlerRun δ :=
  if s.file.ended then s
  else ⟨run TrawlerService.step s.service (s.events F client), s.readOn F client.now⟩

/-- What comes to the service from outside: a client, or a node to which a write fails. -/
inductive Input where
  | client (c : Client)
  | lost (a : Int)

def step (s : TrawlerRun δ) : Input → TrawlerRun δ
  | .client c => s.accept F c
  | .lost a => ⟨s.service.step (.lost a), s.file⟩

end loop

/-! ### What is read has the types of the source -/

section typed
variable [Zero δ] {F : Floats δ}

theorem slotValue_cases {α : Type} {cmd : List Str} {i : ℕ} {keyword : Str}
    {parse : Str → Option α} {d v : α} (h : slotValue cmd i keyword parse d = some v) :
    v = d ∨ ∃ s, parse s = some v := by
  unfold slotValue at h
  split_ifs at h
  · exact .inr ⟨_, h⟩
  · exact .inl (Option.some.inj h).symm

theorem edgeArgs_typed {cmd : List Str} {a b : Int} {options : EdgeOptions δ}
    (h : edgeArgs F cmd = some (a, b, options)) : options.Typed := by
  obtain ⟨-, hbt, hbw, hdelay, -, -, -⟩ := edgeArgs_eq_some.mp h
  refine ⟨?_, ?_, ?_⟩
  · obtain e | ⟨s, hs⟩ := slotValue_cases hdelay
    · rw [e]
      decide
    · exact inInt64_of_stoll hs
  · obtain e | ⟨s, hs⟩ := slotValue_cases hbw
    · rw [e]
      decide
    · exact inInt32_of_stoi hs
  · obtain e | ⟨s, hs⟩ := slotValue_cases hbt
    · rw [e]
      decide
    · exact inInt64_of_stoll hs

omit [Zero δ] in
theorem mem_parseToggle {keyword message : Str} {edgeHook : Int → Int → Hook δ}
    {nodeHook : Int → Hook δ} {cmd : List Str} {hooks : List (Hook δ)}
    (h : parseToggle keyword message edgeHook nodeHook cmd = some hooks) {hook : Hook δ}
    (hmem : hook ∈ hooks) :
    (∃ c d, hook = edgeHook c d) ∨ (∃ c, hook = nodeHook c) ∨ hook = .error message cmd := by
  unfold parseToggle at h
  by_cases hkeyword : arg cmd 0 ≠ keyword
  · rw [if_pos hkeyword] at h
    cases h
  · rw [if_neg hkeyword] at h
    simp only at h
    split at h
    · obtain rfl := Option.some.inj h
      obtain rfl := List.mem_singleton.mp hmem
      split_ifs
      · exact .inl ⟨_, _, rfl⟩
      · exact .inr (.inl ⟨_, rfl⟩)
    · obtain rfl := Option.some.inj h
      exact .inr (.inr (List.mem_singleton.mp hmem))

theorem mem_parseEdge {cmd : List Str} {hooks : List (Hook δ)} (h : parseEdge F cmd = some hooks)
    {a b : Int} {options : EdgeOptions δ} (hmem : .createNewEdge a b options ∈ hooks) :
    edgeArgs F cmd = some (a, b, options) := by
  unfold parseEdge at h
  split_ifs at h
  cases hargs : edgeArgs F cmd with
  | none =>
      rw [hargs] at h
      obtain rfl := Option.some.inj h
      cases List.mem_singleton.mp hmem
  | some args =>
      rw [hargs] at h
      obtain rfl := Option.some.inj h
      cases List.mem_singleton.mp hmem
      rfl

omit [Zero δ] in
theorem not_mem_parseTime (cmd : List Str) (nowMicros : Int) {a b : Int}
    {options : EdgeOptions δ} : .createNewEdge a b options ∉ (parseTime cmd nowMicros).1 := by
  unfold parseTime
  by_cases htime : arg cmd 0 ≠ "time".toList
  · rw [if_pos htime]
    exact List.not_mem_nil
  · rw [if_neg htime]
    simp only
    split
    · exact List.not_mem_nil
    · intro hmem
      cases List.mem_singleton.mp hmem

omit [Zero δ] in
theorem not_mem_parseCommonCmds (cmd : List Str) (nowMicros : Int) {a b : Int}
    {options : EdgeOptions δ} :
    .createNewEdge a b options ∉ (parseCommonCmds cmd nowMicros).1 := by
  have htime : .createNewEdge a b options ∉ (parseTime cmd nowMicros).1 :=
    not_mem_parseTime cmd nowMicros
  unfold parseCommonCmds
  split_ifs
  · simp
  · simp [htime]

theorem edgeArgs_of_mem {line : Str} {nowMicros a b : Int} {options : EdgeOptions δ}
    (h : .createNewEdge a b options ∈ (parseLine F line nowMicros).1) :
    edgeArgs F (splitSpaces line) = some (a, b, options) := by
  unfold parseLine at h
  split_ifs at h
  · cases h
  · cases hedge : parseEdge F (splitSpaces line) with
    | some hooks =>
        simp only [hedge] at h
        exact mem_parseEdge hedge h
    | none =>
        cases hfail : parseFail (δ := δ) (splitSpaces line) with
        | some hooks =>
            simp only [hedge, hfail] at h
            obtain ⟨c, d, e⟩ | ⟨c, e⟩ | e := mem_parseToggle hfail h <;> cases e
        | none =>
            cases hrestart : parseRestart (δ := δ) (splitSpaces line) with
            | some hooks =>
                simp only [hedge, hfail, hrestart] at h
                obtain ⟨c, d, e⟩ | ⟨c, e⟩ | e := mem_parseToggle hrestart h <;> cases e
            | none =>
                simp only [hedge, hfail, hrestart] at h
                exact absurd h (not_mem_parseCommonCmds _ _)

/-- Whatever a file holds, the events are typed. -/
theorem typed_of_mem_lineEvents {nowMicros : Int} {lines : List Str} {e : TrawlerEvent δ}
    (he : e ∈ lineEvents F nowMicros lines) : e.Typed := by
  obtain ⟨line, -, he⟩ := List.mem_flatMap.mp he
  obtain ⟨hook, hhook, he⟩ := List.mem_filterMap.mp he
  cases hook with
  | createNewEdge a b options =>
      obtain rfl := Option.some.inj he
      exact edgeArgs_typed (edgeArgs_of_mem hhook)
  | failEdgeHook a b => obtain rfl := Option.some.inj he; trivial
  | failNodeHook a => obtain rfl := Option.some.inj he; trivial
  | restartEdgeHook a b => obtain rfl := Option.some.inj he; trivial
  | restartNodeHook a => obtain rfl := Option.some.inj he; trivial
  | exitCmd | echo | parseNodeCmd | error => cases he

end typed

end TrawlerRun

end NetBridge
