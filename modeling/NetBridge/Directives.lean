import NetBridge.Script

/-! # The time directives of files

A line `time N` or `time + N` puts off the lines behind it (`Directive`).  The file that is read on is a
topology file, which the simulator and the trawler read as far as they can and then schedule the rest
of it, or the command file, of which the simulator reads one line at a time.

The two readers take the value of `parseLine` in different ways.  `parseRemainder` stops at any value
but `-1`, and its callers schedule the rest only if the value is not negative: a directive with a
negative time cuts the file short.  `readCommandFile` takes a negative value for zero, and no line is
lost. -/

namespace NetBridge

namespace CommandsParser

/-- The line is a `time` directive: read at `nowMicros`, it puts the next line off till `resume`. -/
def Directive (line : Str) (nowMicros resume : Int) : Prop :=
  ∃ n others v, stoll n = some v ∧
    (splitSpaces line = "time".toList :: n :: others ∧ resume = v * 1000 ∨
      splitSpaces line = "time".toList :: "+".toList :: n :: others ∧
        resume = nowMicros + v * 1000)

variable {δ : Type}

theorem skipLine_of_time {line : Str} (h : arg (splitSpaces line) 0 = "time".toList) :
    skipLine line = false := by
  have hne : line ≠ [] := by
    rintro rfl
    exact absurd h (by decide)
  unfold skipLine
  rw [h]
  simp [hne]

/-- The value of `parseLine` is that of `parseTime`. -/
theorem parseLine_deferTill [Zero δ] (F : Floats δ) (line : Str) (nowMicros : Int) :
    (parseLine F line nowMicros).2 = (parseTime (δ := δ) (splitSpaces line) nowMicros).2 := by
  by_cases htime : arg (splitSpaces line) 0 = "time".toList
  · have hedge : parseEdge F (splitSpaces line) = none := if_pos (by rw [htime]; decide)
    have hfail : parseFail (δ := δ) (splitSpaces line) = none := if_pos (by rw [htime]; decide)
    have hrestart : parseRestart (δ := δ) (splitSpaces line) = none :=
      if_pos (by rw [htime]; decide)
    have hecho : arg (splitSpaces line) 0 ≠ "echo".toList := by rw [htime]; decide
    have hline : parseLine F line nowMicros = parseCommonCmds (splitSpaces line) nowMicros := by
      simp [parseLine, skipLine_of_time htime, hedge, hfail, hrestart]
    rw [hline, parseCommonCmds, if_neg hecho]
  · have hnone : (parseTime (δ := δ) (splitSpaces line) nowMicros).2 = -1 := by
      rw [parseTime, if_pos htime]
    rw [hnone, parseLine]
    split_ifs
    · rfl
    · simp only
      split
      · rfl
      · rw [parseCommonCmds]
        split_ifs
        · rfl
        · exact hnone

theorem parseTime_directive {line : Str} {nowMicros resume : Int}
    (h : Directive line nowMicros resume) :
    (parseTime (δ := δ) (splitSpaces line) nowMicros).2 = resume := by
  obtain ⟨n, others, v, hv, ⟨hsplit, rfl⟩ | ⟨hsplit, rfl⟩⟩ := h
  · have hne : n ≠ "+".toList := by
      rintro rfl
      have hnone : stoll "+".toList = none := by decide
      rw [hnone] at hv
      cases hv
    rw [hsplit, parseTime, if_neg (by simp [arg])]
    simp only [List.getElem?_cons_succ, List.getElem?_cons_zero, Option.bind_eq_bind,
      Option.bind_some, if_neg hne, hv, Option.pure_def]
  · rw [hsplit, parseTime, if_neg (by simp [arg])]
    simp [hv]

theorem parseTime_of_not_directive {line : Str} {nowMicros : Int}
    (h : ∀ resume, ¬ Directive line nowMicros resume) :
    (parseTime (δ := δ) (splitSpaces line) nowMicros).2 = -1 := by
  unfold Directive at h
  generalize splitSpaces line = cmd at h
  unfold parseTime
  split_ifs with htime
  · rfl
  · obtain _ | ⟨first, others⟩ := cmd
    · simp
    · obtain rfl : first = "time".toList := not_not.mp htime
      obtain _ | ⟨n, others⟩ := others
      · simp
      · by_cases hplus : n = "+".toList
        · subst hplus
          obtain _ | ⟨m, others⟩ := others
          · simp
          · cases hm : stoll m with
            | none => simp [hm]
            | some v => exact absurd ⟨m, others, v, hm, .inr ⟨rfl, rfl⟩⟩ (h _)
        · cases hn : stoll n with
          | none =>
              simp only [List.getElem?_cons_succ, List.getElem?_cons_zero, Option.bind_eq_bind,
                Option.bind_some, if_neg hplus, hn, Option.bind_none]
          | some v => exact absurd ⟨n, others, v, hn, .inl ⟨rfl, rfl⟩⟩ (h _)

theorem parseLine_directive [Zero δ] (F : Floats δ) {line : Str} {nowMicros resume : Int}
    (h : Directive line nowMicros resume) : (parseLine F line nowMicros).2 = resume := by
  rw [parseLine_deferTill, parseTime_directive h]

theorem parseLine_of_not_directive [Zero δ] (F : Floats δ) {line : Str} {nowMicros : Int}
    (h : ∀ resume, ¬ Directive line nowMicros resume) : (parseLine F line nowMicros).2 = -1 := by
  rw [parseLine_deferTill, parseTime_of_not_directive h]

/-! ### The topology file -/

/-- What is left of a topology file that the callers of `parseFile` and `parseRemainder` read: the
lines that have not been read, those that have been parsed, the time for which the rest of the file
is scheduled, and whether a line has ended the program. -/
structure TopoFile where
  unread : List Str
  parsed : List Str
  scheduled : Option Int
  ended : Bool
deriving DecidableEq

/-- The line is an `exit` command, which does not return. -/
def exits (line : Str) : Bool := arg (splitSpaces line) 0 == "exit".toList

/-- The loop of `parseRemainder`: the lines that are parsed, those that are left, and the result;
`none` says that the program has ended. -/
def parseRemainder [Zero δ] (F : Floats δ) (nowMicros : Int) :
    List Str → List Str × List Str × Option Int
  | [] => ([], [], some (-1))
  | line :: lines =>
      if exits line then ([line], lines, none)
      else
        let deferTill := (parseLine F line nowMicros).2
        if deferTill = -1 then
          let (parsed, unread, result) := parseRemainder F nowMicros lines
          (line :: parsed, unread, result)
        else ([line], lines, some deferTill)

namespace TopoFile

section step
variable [Zero δ] (F : Floats δ)

/-- A call of `parseRemainder`; the rest of the file is scheduled if the result is not negative. -/
def resume (s : TopoFile) (nowMicros : Int) : TopoFile :=
  let (parsed, unread, result) := parseRemainder F nowMicros s.unread
  ⟨unread, s.parsed ++ parsed, result.filter (0 ≤ ·), result.isNone⟩

/-- `parseFile`. -/
def start (lines : List Str) (nowMicros : Int) : TopoFile :=
  (⟨lines, [], none, false⟩ : TopoFile).resume F nowMicros

/-- The time comes at which the rest of the file is scheduled, if it is. -/
def step (s : TopoFile) (nowMicros : Int) : TopoFile :=
  match s.scheduled with
  | none => s
  | some _ => s.resume F nowMicros

end step

/-- Every line of the file has been parsed once, in order, or is still to be read; and if the rest is
not scheduled, there is none. -/
structure Whole (lines : List Str) (s : TopoFile) : Prop where
  lines : s.parsed ++ s.unread = lines
  done : s.ended = false → s.scheduled = none → s.unread = []

end TopoFile

/-- The first directive among the lines that are left gives a time that is not negative and fits into
64 bits, unless it is the last line.  (A directive that gives exactly `-1` is passed over.) -/
def Forward (unread : List Str) (nowMicros : Int) : Prop :=
  ∀ before line after resume, unread = before ++ line :: after → after ≠ [] →
    (∀ l ∈ before, exits l = false ∧ ∀ r, Directive l nowMicros r → r = -1) →
    Directive line nowMicros resume → -1 ≤ resume ∧ resume ≤ 9223372036854775807


section remainder
variable [Zero δ] {F : Floats δ} {nowMicros : Int} {lines : List Str}

theorem parseRemainder_lines (F : Floats δ) (nowMicros : Int) (lines : List Str) :
    (parseRemainder F nowMicros lines).1 ++ (parseRemainder F nowMicros lines).2.1 = lines := by
  induction lines with
  | nil => rfl
  | cons line lines ih =>
      unfold parseRemainder
      split_ifs
      · rfl
      · simp only
        split_ifs
        · simpa using ih
        · rfl

theorem Forward.tail {line : Str} (h : Forward (line :: lines) nowMicros)
    (hexits : exits line = false) (hline : (parseLine F line nowMicros).2 = -1) :
    Forward lines nowMicros := by
  intro before l after resume hlines hafter hbefore hdirective
  refine h (line :: before) l after resume (by rw [hlines]; rfl) hafter ?_ hdirective
  refine List.forall_mem_cons.mpr ⟨⟨hexits, ?_⟩, hbefore⟩
  intro r hr
  rw [← parseLine_directive F hr, hline]

/-- A negative result says that the file has been read. -/
theorem parseRemainder_negative (h : Forward lines nowMicros) {deferTill : Int}
    (hresult : (parseRemainder F nowMicros lines).2.2 = some deferTill) (hneg : deferTill < 0) :
    (parseRemainder F nowMicros lines).2.1 = [] := by
  induction lines with
  | nil => rfl
  | cons line lines ih =>
      unfold parseRemainder at hresult ⊢
      split_ifs at hresult ⊢ with hexits
      simp only at hresult ⊢
      split_ifs at hresult ⊢ with hline
      · exact ih (h.tail (by simpa using hexits) hline) hresult
      · -- the line defers the rest to a negative time, so it is the last one
        obtain rfl := Option.some.inj hresult
        by_contra hlines
        have hdirective : ∃ r, Directive line nowMicros r := by
          by_contra hnone
          exact hline (parseLine_of_not_directive F (not_exists.mp hnone))
        obtain ⟨r, hr⟩ := hdirective
        have hforward := h [] line lines r rfl hlines (by simp) hr
        rw [parseLine_directive F hr] at hneg hline
        omega

theorem TopoFile.Whole.resume {s : TopoFile} (h : s.parsed ++ s.unread = lines)
    (hforward : Forward s.unread nowMicros) : (s.resume F nowMicros).Whole lines := by
  have hlines := parseRemainder_lines F nowMicros s.unread
  have hnegative := @parseRemainder_negative δ _ F nowMicros s.unread hforward
  unfold TopoFile.resume
  generalize parseRemainder F nowMicros s.unread = r at hlines hnegative
  obtain ⟨parsed, unread, result⟩ := r
  constructor
  · simp only at hlines ⊢
    rw [List.append_assoc, hlines, h]
  · intro hended hscheduled
    simp only at hended hscheduled ⊢
    cases result with
    | none => cases hended
    | some deferTill =>
        refine hnegative rfl ?_
        simpa [Option.filter] using hscheduled

/-- **A topology file is not cut short** in a run in which each call of `parseRemainder` finds a
directive with a time that is not negative: every line is parsed once, in order, and the rest is
scheduled until there is none. -/
theorem topology_file_whole (F : Floats δ) (lines : List Str) (nowMicros : Int) (times : List Int)
    (hstart : Forward lines nowMicros)
    (htimes : Guarded (TopoFile.step F)
      (fun s now => s.scheduled ≠ none → Forward s.unread now) (.start F lines nowMicros) times) :
    (run (TopoFile.step F) (.start F lines nowMicros) times).Whole lines := by
  refine guarded_induction (I := TopoFile.Whole lines) ?_ (.resume rfl hstart) htimes
  intro s now h hforward
  unfold TopoFile.step
  cases hscheduled : s.scheduled with
  | none => exact h
  | some _ => exact .resume h.lines (hforward (by simp [hscheduled]))

end remainder

theorem forward_of_forall {unread : List Str} {nowMicros : Int}
    (h : ∀ line ∈ unread, ∀ r, Directive line nowMicros r → -1 ≤ r ∧ r ≤ 9223372036854775807) :
    Forward unread nowMicros := by
  rintro before line after resume rfl - - hdirective
  exact h line (by simp) resume hdirective

/-- An edge that is declared after 5 ms. -/
theorem topology_file_whole_deferred :
    let lines := ["edge 0 1".toList, "time 5".toList, "edge 1 2".toList]
    let s := run (TopoFile.step Floats.whole) (.start Floats.whole lines 0) [5000]
    s.Whole lines ∧ s.parsed = lines := by
  have hforward : ∀ nowMicros ∈ [0, 5000], ∀ lines : List Str, lines ⊆
      ["edge 0 1".toList, "time 5".toList, "edge 1 2".toList] → Forward lines nowMicros := by
    intro nowMicros hnow lines hlines
    apply forward_of_forall
    intro line hline r hr
    have hvalue := parseTime_directive (δ := ℕ) hr
    have hline := hlines hline
    simp only [List.mem_cons, List.not_mem_nil, or_false] at hline hnow
    obtain rfl | rfl := hnow <;> obtain rfl | rfl | rfl := hline
    all_goals
      rw [← hvalue]
      decide
  refine ⟨topology_file_whole Floats.whole _ 0 [5000] (hforward 0 (by simp) _ (by simp))
    ⟨?_, trivial⟩, by decide⟩
  intro _
  exact hforward 5000 (by simp) _ (by decide)

/-- A directive with a negative time: the edge behind it is never read. -/
theorem topology_file_cut_short :
    let lines := ["time -2".toList, "edge 0 1".toList]
    let s := TopoFile.start Floats.whole lines 0
    s = ⟨["edge 0 1".toList], ["time -2".toList], none, false⟩ ∧ ¬ s.Whole lines := by
  have hstart : TopoFile.start Floats.whole ["time -2".toList, "edge 0 1".toList] 0 =
      ⟨["edge 0 1".toList], ["time -2".toList], none, false⟩ := by decide
  refine ⟨hstart, ?_⟩
  intro h
  rw [hstart] at h
  have hdone := h.done rfl rfl
  cases hdone

end CommandsParser

/-! ### The command file -/

open CommandsParser

variable {δ ω κ : Type}

/-- A simulator with its own parser; what the calls of a line do is left open. -/
def Behaviour.ofParser [Zero δ] (F : Floats δ) (react : ω → List (Hook δ) → Int → Response ω κ)
    (callback : ω → κ → Int → Response ω κ) (scaled : Int → Int) : Behaviour ω κ where
  parseLine world line nowMicros clock :=
    ((CommandsParser.parseLine F line nowMicros).2,
      react world (CommandsParser.parseLine F line nowMicros).1 clock)
  callback := callback
  scaled := scaled

namespace Simulator

/-- The line that `readCommandFile` passes to `parseLine` in the next round. -/
def nextLine (s : Simulator ω κ) : Option Str :=
  if s.running = true ∧ s.draining = false ∧ s.deferParsingTill ≤ s.now * 1000 then
    s.commandFile.bind List.head?
  else none

variable (B : Behaviour ω κ)

/-- The file and the time for which it waits change only where the outer loop reads a line. -/
theorem step_file (s : Simulator ω κ) (input : Option Str × Int) :
    let s₁ := if s.running = true ∧ s.draining = false then s.readCommandFile B else s
    (s.step B input).commandFile = s₁.commandFile ∧
      (s.step B input).deferParsingTill = s₁.deferParsingTill := by
  intro s₁
  unfold step
  split_ifs with hrun hdrain
  · simp [s₁, hrun]
  · have hsame : s₁ = s := by simp [s₁, hdrain]
    rw [hsame]
    unfold innerLoop
    split
    · simp
    · split_ifs
      · simp
      · simp [respond_script]
  · have hread : s₁ = s.readCommandFile B := by simp [s₁, hrun, hdrain]
    rw [hread]
    unfold outerLoop
    simp only
    split_ifs
    · simp
    · split
      · simp [parseLine, respond_script]
      · simp

/-- A line is passed to `parseLine`: it comes off the file, which then waits. -/
theorem step_nextLine {s : Simulator ω κ} {line : Str} (h : s.nextLine = some line)
    (input : Option Str × Int) :
    ∃ rest, s.commandFile = some (line :: rest) ∧ (s.step B input).commandFile = some rest ∧
      (s.step B input).deferParsingTill =
        max (B.parseLine s.world line (s.now * 1000) s.nowMicros).1 0 := by
  unfold nextLine at h
  split_ifs at h with hdue
  obtain ⟨hrun, hdrain, hdue⟩ := hdue
  obtain ⟨lines, hfile, hhead⟩ := Option.bind_eq_some_iff.mp h
  obtain ⟨rest, rfl⟩ := List.head?_eq_some_iff.mp hhead
  obtain ⟨hcommand, hdefer⟩ := s.step_file B input
  rw [if_pos ⟨hrun, hdrain⟩] at hcommand hdefer
  refine ⟨rest, hfile, ?_, ?_⟩
  · rw [hcommand]
    simp [readCommandFile, hfile, hdue, parseLine, respond_script]
  · rw [hdefer]
    simp [readCommandFile, hfile, hdue, parseLine]

theorem step_of_nextLine_eq_none {s : Simulator ω κ} (h : s.nextLine = none)
    (input : Option Str × Int) :
    (s.step B input).commandFile = s.commandFile ∧
        ((s.step B input).deferParsingTill = s.deferParsingTill ∨ s.commandFile = none) ∨
      s.commandFile = some [] ∧ (s.step B input).commandFile = none := by
  obtain ⟨hcommand, hdefer⟩ := s.step_file B input
  rw [hcommand, hdefer]
  split_ifs with houter
  · unfold nextLine at h
    unfold readCommandFile
    cases hfile : s.commandFile with
    | none => simp
    | some lines =>
        by_cases hdue : s.deferParsingTill ≤ s.now * 1000
        · rw [if_pos ⟨houter.1, houter.2, hdue⟩, hfile] at h
          obtain rfl := List.head?_eq_none_iff.mp (Option.bind_some _ _ ▸ h)
          simp [hdue]
        · simp [hdue, hfile]
  · simp

end Simulator

/-- The simulator, with the lines that `readCommandFile` has passed to `parseLine` and the time on the
clock then. -/
structure ScriptLog (ω κ : Type) where
  sim : Simulator ω κ
  passed : List (Str × Int)

namespace ScriptLog

/-- `start`, with a queue and a command file of any contents. -/
def start (s : Simulator ω κ) (nodes : Response ω κ) : ScriptLog ω κ := ⟨s.start nodes, []⟩

def step (B : Behaviour ω κ) (s : ScriptLog ω κ) (input : Option Str × Int) : ScriptLog ω κ :=
  ⟨s.sim.step B input, s.passed ++ (s.sim.nextLine.map fun line => (line, s.sim.nowMicros)).toList⟩

/-- A line is not passed before the time that a directive in front of it gives; both are read on the
millisecond clock. -/
def NotBefore (p q : Str × Int) : Prop :=
  ∀ resume, Directive p.1 (p.2.tdiv 1000 * 1000) resume → resume ≤ q.2.tdiv 1000 * 1000

/-- The invariant: what has been passed and what is left are the lines of the file, and the file waits
as long as the last line wants it to. -/
structure InStep (lines : List Str) (s : ScriptLog ω κ) : Prop where
  lines : s.passed.map Prod.fst ++ s.sim.commandFile.getD [] = lines
  notBefore : s.passed.IsChain NotBefore
  nonneg : s.sim.commandFile ≠ none → 0 ≤ s.sim.deferParsingTill
  waits : s.sim.commandFile ≠ none → ∀ p ∈ s.passed.getLast?, ∀ resume,
    Directive p.1 (p.2.tdiv 1000 * 1000) resume → resume ≤ s.sim.deferParsingTill

variable {B : Behaviour ω κ} {lines : List Str}

theorem InStep.step [Zero δ] {F : Floats δ}
    (hB : ∀ world line nowMicros clock, (B.parseLine world line nowMicros clock).1 =
      (CommandsParser.parseLine F line nowMicros).2)
    {s : ScriptLog ω κ} (h : s.InStep lines) (input : Option Str × Int) :
    (s.step B input).InStep lines := by
  have hlines := h.lines
  cases hnext : s.sim.nextLine with
  | none =>
      have hpassed : (s.step B input).passed = s.passed := by simp [ScriptLog.step, hnext]
      have hfile := Simulator.step_of_nextLine_eq_none B hnext input
      constructor
      · rw [hpassed, ← hlines]
        obtain ⟨hsame, -⟩ | ⟨hempty, hnone⟩ := hfile
        · simp [ScriptLog.step, hsame]
        · simp [ScriptLog.step, hempty, hnone]
      · rw [hpassed]
        exact h.notBefore
      · intro hopen
        obtain ⟨hsame, hdefer | hnone⟩ | ⟨hempty, hnone⟩ := hfile
        · simpa [ScriptLog.step, hdefer] using h.nonneg (hsame ▸ hopen)
        · exact absurd (hsame.trans hnone) hopen
        · exact absurd hnone hopen
      · intro hopen
        rw [hpassed]
        obtain ⟨hsame, hdefer | hnone⟩ | ⟨hempty, hnone⟩ := hfile
        · simpa [ScriptLog.step, hdefer] using h.waits (hsame ▸ hopen)
        · exact absurd (hsame.trans hnone) hopen
        · exact absurd hnone hopen
  | some line =>
      obtain ⟨rest, hfile, hrest, hdefer⟩ := Simulator.step_nextLine B hnext input
      have hpassed : (s.step B input).passed = s.passed ++ [(line, s.sim.nowMicros)] := by
        simp [ScriptLog.step, hnext]
      have hdue : s.sim.deferParsingTill ≤ s.sim.nowMicros.tdiv 1000 * 1000 := by
        unfold Simulator.nextLine at hnext
        split_ifs at hnext with hcond
        exact hcond.2.2
      constructor
      · rw [hpassed, ← hlines, hfile]
        simp [ScriptLog.step, hrest]
      · rw [hpassed, List.isChain_append]
        refine ⟨h.notBefore, List.isChain_singleton _, ?_⟩
        intro p hp q hq resume hresume
        obtain rfl : (line, s.sim.nowMicros) = q := by simpa using hq
        exact (h.waits (by simp [hfile]) p hp resume hresume).trans hdue
      · intro _
        simp [ScriptLog.step, hdefer]
      · intro _ p hp resume hresume
        rw [hpassed, List.getLast?_concat] at hp
        obtain rfl : (line, s.sim.nowMicros) = p := by simpa using hp
        have hvalue := parseLine_directive F hresume
        simp only [ScriptLog.step, hdefer, hB]
        rw [← hvalue]
        exact le_max_left _ _

theorem InStep.start (s : Simulator ω κ) (nodes : Response ω κ) :
    (start s nodes).InStep (s.commandFile.getD []) := by
  constructor
  · simp [ScriptLog.start, Simulator.start, Simulator.respond_script]
  · exact List.isChain_nil
  · simp [ScriptLog.start, Simulator.start]
  · simp [ScriptLog.start]

/-- What holds while the clock does not go back: the lines are passed one after the other. -/
structure Timed (s : ScriptLog ω κ) : Prop where
  positive : 1 ≤ s.sim.nowMicros
  past : ∀ p ∈ s.passed, 1 ≤ p.2 ∧ p.2 ≤ s.sim.nowMicros
  sorted : s.passed.Pairwise fun p q => p.2 ≤ q.2

theorem Timed.step (hscaled : ∀ d, 0 ≤ d → 0 ≤ B.scaled d) {s : ScriptLog ω κ} (h : s.Timed)
    {input : Option Str × Int} (hclock : 0 ≤ input.2) : (s.step B input).Timed := by
  have htime := (s.sim.step_spec hscaled hclock).1
  have hpassed : ∀ p ∈ (s.sim.nextLine.map fun line => (line, s.sim.nowMicros)).toList,
      p.2 = s.sim.nowMicros := by
    intro p hp
    obtain ⟨line, -, rfl⟩ := Option.map_eq_some_iff.mp (Option.mem_toList.mp hp)
    rfl
  refine ⟨h.positive.trans htime, ?_, ?_⟩
  · intro p hp
    obtain hp | hp := List.mem_append.mp hp
    · exact ⟨(h.past p hp).1, (h.past p hp).2.trans htime⟩
    · rw [hpassed p hp]
      exact ⟨h.positive, htime⟩
  · refine List.pairwise_append.mpr ⟨h.sorted, ?_, ?_⟩
    · cases s.sim.nextLine <;> simp
    · intro p hp q hq
      rw [hpassed q hq]
      exact (h.past p hp).2

/-- A directive holds back all lines that follow. -/
theorem Timed.notBefore {s : ScriptLog ω κ} (h : s.Timed) (hchain : s.passed.IsChain NotBefore)
    {before after : List (Str × Int)} {p : Str × Int} (hsplit : s.passed = before ++ p :: after)
    {q : Str × Int} (hq : q ∈ after) : NotBefore p q := by
  obtain _ | ⟨next, after⟩ := after
  · exact absurd hq List.not_mem_nil
  · intro resume hresume
    rw [hsplit] at hchain
    have hnext : NotBefore p next := (List.isChain_append_cons_cons.mp hchain).2.1
    have hle : next.2 ≤ q.2 := by
      obtain rfl | hq := List.mem_cons.mp hq
      · exact le_rfl
      · have hsorted := h.sorted
        rw [hsplit, List.pairwise_append, List.pairwise_cons, List.pairwise_cons] at hsorted
        exact hsorted.2.1.2.1 q hq
    have hpos := (h.past next (by simp [hsplit])).1
    have hmono : next.2.tdiv 1000 ≤ q.2.tdiv 1000 := by
      rw [Int.tdiv_eq_ediv_of_nonneg (by omega), Int.tdiv_eq_ediv_of_nonneg (by omega)]
      omega
    have hresume := hnext resume hresume
    omega

/-- **A command script is run completely, in order and never early.**  At any time of a run, what has
been passed to `parseLine` and what is left are the lines of the file; `-1` says that nothing is
left; and no line is parsed before the time that the directive in front of it gives, nor, while the
clock does not go back, before that of any earlier directive. -/
theorem script_in_order [Zero δ] (F : Floats δ) (react : ω → List (Hook δ) → Int → Response ω κ)
    (callback : ω → κ → Int → Response ω κ) (scaled : Int → Int) (s : Simulator ω κ)
    (nodes : Response ω κ) (inputs : List (Option Str × Int)) :
    let B := Behaviour.ofParser F react callback scaled
    let log := run (step B) (start s nodes) inputs
    let lines := s.commandFile.getD []
    (log.passed.map Prod.fst ++ log.sim.commandFile.getD [] = lines) ∧
    ((log.sim.readCommandFile B).deferParsingTill = -1 →
      (log.sim.readCommandFile B).commandFile = none ∧ log.passed.map Prod.fst = lines) ∧
    (∀ before p q after, log.passed = before ++ p :: q :: after → NotBefore p q) ∧
    ((∀ d, 0 ≤ d → 0 ≤ scaled d) → (∀ input ∈ inputs, 0 ≤ input.2) →
      ∀ before p after n others N, log.passed = before ++ p :: after → stoll n = some N →
        (splitSpaces p.1 = "time".toList :: n :: others → 0 ≤ N →
          ∀ q ∈ after, N * 1000 ≤ q.2) ∧
        (splitSpaces p.1 = "time".toList :: "+".toList :: n :: others →
          ∀ q ∈ after, p.2.tdiv 1000 + N ≤ q.2.tdiv 1000)) := by
  intro B log lines
  have h : log.InStep lines :=
    run_induction (I := InStep lines)
      (fun _ input h => h.step (F := F) (B := B) (fun _ _ _ _ => rfl) input) (.start s nodes) inputs
  refine ⟨h.lines, ?_, ?_, ?_⟩
  · intro hminus
    have hnonneg := h.nonneg
    have hlines := h.lines
    unfold Simulator.readCommandFile at hminus ⊢
    cases hfile : log.sim.commandFile with
    | none => simpa [hfile] using hlines
    | some rest =>
        simp only [hfile] at hminus hnonneg ⊢
        split_ifs at hminus ⊢
        · cases rest with
          | nil => simpa [hfile] using hlines
          | cons line rest =>
              simp only at hminus
              omega
        · have := hnonneg (by simp)
          omega
  · intro before p q after hsplit
    have hchain := h.notBefore
    rw [hsplit] at hchain
    exact (List.isChain_append_cons_cons.mp hchain).2.1
  · intro hscaled hclock before p after n others N hsplit hN
    have htimed : log.Timed := by
      have hinputs : Guarded (step B) (fun _ input => 0 ≤ input.2) (start s nodes) inputs :=
        guarded_of_forall hclock (start s nodes)
      refine guarded_induction (fun _ input h hc => h.step (B := B) hscaled hc) ?_ hinputs
      exact ⟨le_rfl, by simp [start], List.Pairwise.nil⟩
    constructor
    · intro htime hpos q hq
      have hbound := htimed.notBefore h.notBefore hsplit hq (N * 1000)
        ⟨n, others, N, hN, .inl ⟨htime, rfl⟩⟩
      have hq₁ := (htimed.past q (by simp [hsplit, hq])).1
      rw [Int.tdiv_eq_ediv_of_nonneg (by omega)] at hbound
      omega
    · intro htime q hq
      have hbound := htimed.notBefore h.notBefore hsplit hq _
        ⟨n, others, N, hN, .inr ⟨htime, rfl⟩⟩
      omega

end ScriptLog

end NetBridge
