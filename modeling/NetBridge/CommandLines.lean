import NetBridge.CommandsParser

/-! # The text of commands

What becomes of the text of a line.  `splitSpaces` cuts it at its spaces and drops the empty tokens at
the end; the parsers of the simulator and of the emulator put the tokens of a node command together
again (`nodeMsg`).  The tokens joined by single spaces are the line without the spaces at its end
(`intercalate_splitSpaces`), so the node gets the text as it was written. -/

namespace NetBridge

open CommandsParser

/-! ### Words and spaces -/

/-- A text without the spaces at its end. -/
def trimEnd (text : Str) : Str := text.rdropWhile (· == ' ')

theorem not_mem_of_mem_splitOn {text w : Str} (h : w ∈ text.splitOn ' ') : ' ' ∉ w := by
  induction text using line_induction ' ' with
  | hrest s hs =>
      rw [List.splitOn_eq_singleton hs] at h
      rwa [List.mem_singleton.mp h]
  | hline line s hline ih =>
      rw [List.splitOn_append_cons_self_of_not_mem hline] at h
      obtain rfl | h := List.mem_cons.mp h
      · exact hline
      · exact ih h

theorem intercalate_concat {ws : List Str} (hws : ws ≠ []) (w : Str) :
    [' '].intercalate (ws ++ [w]) = [' '].intercalate ws ++ ' ' :: w := by
  induction ws with
  | nil => exact absurd rfl hws
  | cons v ws ih =>
      cases ws with
      | nil => simp [List.intercalate_cons_cons]
      | cons v' ws =>
          have hrest := ih (List.cons_ne_nil _ _)
          simp only [List.cons_append, List.intercalate_cons_cons] at hrest ⊢
          rw [hrest]
          simp

/-- Empty words at the end are spaces at the end. -/
theorem trimEnd_intercalate {ws : List Str} (hspace : ∀ w ∈ ws, ' ' ∉ w) :
    trimEnd ([' '].intercalate ws) = [' '].intercalate (ws.rdropWhile List.isEmpty) := by
  induction ws using List.reverseRecOn with
  | nil => rfl
  | append_singleton ws w ih =>
      obtain rfl | hw := eq_or_ne w []
      · rw [List.rdropWhile_concat_pos _ _ _ rfl, ← ih fun v hv => hspace v (by simp [hv])]
        obtain rfl | hws := eq_or_ne ws []
        · rfl
        · rw [intercalate_concat hws]
          exact List.rdropWhile_concat_pos _ _ _ rfl
      · rw [List.rdropWhile_concat_neg _ _ _ (by simpa using hw)]
        -- the text ends with the last character of a word
        unfold trimEnd
        rw [List.rdropWhile_eq_self_iff]
        have hlast : (w.getLast hw == ' ') = false := by
          rw [beq_eq_false_iff_ne]
          intro e
          exact hspace w (by simp) (e ▸ List.getLast_mem hw)
        obtain rfl | hws := eq_or_ne ws []
        · simpa using fun _ => hlast
        · rw [intercalate_concat hws]
          intro _
          rw [List.getLast_append_of_ne_nil _ (List.cons_ne_nil _ _), List.getLast_cons hw]
          simpa using hlast

theorem intercalate_splitSpaces (line : Str) :
    [' '].intercalate (splitSpaces line) = trimEnd line := by
  have h : trimEnd ([' '].intercalate (line.splitOn ' ')) =
      [' '].intercalate ((line.splitOn ' ').rdropWhile List.isEmpty) := by
    apply trimEnd_intercalate
    exact fun w hw => not_mem_of_mem_splitOn hw
  rw [List.intercalate_splitOn] at h
  rw [h, splitSpaces, splitSpace]
  split_ifs with hempty
  · rw [List.isEmpty_iff.mp hempty]
    rfl
  · rfl

theorem not_mem_of_mem_splitSpaces {line w : Str} (h : w ∈ splitSpaces line) : ' ' ∉ w := by
  unfold splitSpaces splitSpace at h
  simp only at h
  split_ifs at h
  · rw [List.mem_singleton.mp h]
    exact List.not_mem_nil
  · exact not_mem_of_mem_splitOn ((List.rdropWhile_prefix _ _).subset h)

theorem splitSpaces_ne_nil (line : Str) : splitSpaces line ≠ [] := by
  unfold splitSpaces splitSpace
  simp only
  split_ifs with hempty
  · exact List.cons_ne_nil _ _
  · simpa using hempty

/-- There is only one way to read a line. -/
theorem splitSpaces_unique {line : Str} {ws : List Str} (hws : ws ≠ []) (hspace : ∀ w ∈ ws, ' ' ∉ w)
    (htext : [' '].intercalate ws = trimEnd line) : ws = splitSpaces line := by
  rw [← intercalate_splitSpaces] at htext
  have hsplit := congrArg (List.splitOn ' ') htext
  rwa [List.splitOn_intercalate ' ' hspace hws,
    List.splitOn_intercalate ' ' (fun w hw => not_mem_of_mem_splitSpaces hw)
      (splitSpaces_ne_nil line)] at hsplit

/-! ### Commands to nodes -/

/-- What `parseNodeCmd` does: nothing, a call of the node's `onCommand`, or a text on `std::cerr`. -/
inductive NodeCmd where
  | ignored
  | onCommand (nodeAddr : Int) (msg : Str)
  | error (message : Str)
deriving DecidableEq

namespace CommandsParser

def printStrArray (arr : List Str) : Str := arr.flatMap (· ++ [' ']) ++ ['\n']

/-- The loop that puts the tokens together, and the `pop_back` after it. -/
def nodeMsg (cmd : List Str) : Str := (cmd.flatMap (· ++ [' '])).dropLast

/-- What the calls of `parseNodeCmd` for a line do. -/
def nodeCmds {δ : Type} (parseNodeCmd : List Str → NodeCmd) (hooks : List (Hook δ)) : List NodeCmd :=
  hooks.filterMap fun
    | .parseNodeCmd cmd => some (parseNodeCmd cmd)
    | _ => none

/-- The first tokens that a parser keeps for itself. -/
def reserved : List Str :=
  ["edge".toList, "fail".toList, "restart".toList, "echo".toList, "time".toList, "exit".toList]

end CommandsParser

/-- `parseNodeCmd` of the simulator's parser, with `sendNodeMsg` for `numNodes` nodes. -/
def SimulationCommandsParser.parseNodeCmd (numNodes : ℕ) (cmd : List Str) : NodeCmd :=
  if cmd.length < 2 then .ignored
  else
    match stoi (arg cmd 0) with
    | none => .error ("Error parsing command to node: ".toList ++ printStrArray cmd)
    | some nodeAddr =>
        if 0 ≤ nodeAddr ∧ nodeAddr < numNodes then .onCommand nodeAddr (nodeMsg (cmd.drop 1))
        else .error ("Node address: ".toList ++ printInt nodeAddr ++ " does not exist!\n".toList)

namespace EmulationCommandsParser

def parseLine {δ : Type} (line : Str) (nowMicros : Int) : List (Hook δ) × Int :=
  if skipLine line then ([], -1) else parseCommonCmds (splitSpaces line) nowMicros

/-- `parseNodeCmd` of the emulator's parser: there is one node. -/
def parseNodeCmd (cmd : List Str) : NodeCmd := .onCommand 0 (nodeMsg cmd)

end EmulationCommandsParser

theorem nodeMsg_eq_intercalate (cmd : List Str) : nodeMsg cmd = [' '].intercalate cmd := by
  unfold nodeMsg
  induction cmd using List.reverseRecOn with
  | nil => rfl
  | append_singleton ws w ih =>
      obtain rfl | hws := eq_or_ne ws []
      · simp
      · rw [intercalate_concat hws, ← ih, List.flatMap_append]
        obtain ⟨text, htext⟩ : ∃ text, ws.flatMap (· ++ [' ']) = text ++ [' '] := by
          obtain ⟨init, last, rfl⟩ := List.eq_nil_or_concat ws |>.resolve_left hws
          exact ⟨init.flatMap (· ++ [' ']) ++ last, by simp⟩
        have hword : [w].flatMap (· ++ [' ']) = w ++ [' '] := by simp
        rw [htext, hword, ← List.append_assoc, List.dropLast_concat, List.dropLast_concat]
        simp

variable {δ : Type}

theorem parseCommonCmds_nodeCmds {cmd : List Str}
    (h : ∀ w ∈ ["echo".toList, "time".toList], arg cmd 0 ≠ w) (nowMicros : Int)
    (parseNodeCmd : List Str → NodeCmd) :
    nodeCmds parseNodeCmd (parseCommonCmds (δ := δ) cmd nowMicros).1 = [parseNodeCmd cmd] := by
  have hecho := h "echo".toList (by simp)
  have htime := h "time".toList (by simp)
  have hparse : parseTime (δ := δ) cmd nowMicros = ([], -1) := by rw [parseTime, if_pos htime]
  have hhooks : (parseCommonCmds (δ := δ) cmd nowMicros).1 = [.exitCmd cmd, .parseNodeCmd cmd] := by
    rw [parseCommonCmds, if_neg hecho, hparse]
    simp only
    rw [if_pos ⟨trivial, htime⟩]
    rfl
  rw [hhooks]
  rfl

theorem parseLine_nodeCmds [Zero δ] (F : Floats δ) {line : Str} (hskip : skipLine line = false)
    (h : arg (splitSpaces line) 0 ∉ reserved) (nowMicros : Int)
    (parseNodeCmd : List Str → NodeCmd) :
    nodeCmds parseNodeCmd (parseLine F line nowMicros).1 = [parseNodeCmd (splitSpaces line)] := by
  have hne : ∀ w ∈ reserved, arg (splitSpaces line) 0 ≠ w := by
    rintro w hw rfl
    exact h hw
  have hedge : parseEdge F (splitSpaces line) = none :=
    if_pos (hne "edge".toList (by simp [reserved]))
  have hfail : parseFail (δ := δ) (splitSpaces line) = none :=
    if_pos (hne "fail".toList (by simp [reserved]))
  have hrestart : parseRestart (δ := δ) (splitSpaces line) = none :=
    if_pos (hne "restart".toList (by simp [reserved]))
  have hcommon : CommandsParser.parseLine F line nowMicros =
      parseCommonCmds (splitSpaces line) nowMicros := by
    simp [CommandsParser.parseLine, hskip, hedge, hfail, hrestart]
  rw [hcommon]
  apply parseCommonCmds_nodeCmds
  intro w hw
  apply hne w
  obtain rfl | rfl := List.mem_pair.mp hw
  · simp [reserved]
  · simp [reserved]

theorem trimEnd_of_splitSpaces {line first : Str} {others : List Str}
    (h : splitSpaces line = first :: others) (hothers : others ≠ []) :
    trimEnd line = first ++ ' ' :: nodeMsg others := by
  rw [← intercalate_splitSpaces, h, nodeMsg_eq_intercalate,
    List.intercalate_cons_of_ne_nil hothers]
  simp

/-- **Command text reaches the node unaltered.**  The tokens of a line have no spaces and make up the
line but for the spaces at its end, and no other words do; so what follows the number of a node is
what the simulator gives to that node, and the whole line is what the emulator gives to its own. -/
theorem command_text_unaltered [Zero δ] (F : Floats δ) (numNodes : ℕ) (line : Str)
    (nowMicros : Int) :
    (splitSpaces line ≠ [] ∧ (∀ w ∈ splitSpaces line, ' ' ∉ w) ∧
      [' '].intercalate (splitSpaces line) = trimEnd line ∧
      ∀ ws, ws ≠ [] → (∀ w ∈ ws, ' ' ∉ w) → [' '].intercalate ws = trimEnd line →
        ws = splitSpaces line) ∧
    (∀ first others A, skipLine line = false → splitSpaces line = first :: others →
      first ∉ reserved → others ≠ [] → stoi first = some A → 0 ≤ A → A < numNodes →
        ∃ msg, trimEnd line = first ++ ' ' :: msg ∧
          nodeCmds (SimulationCommandsParser.parseNodeCmd numNodes)
            (CommandsParser.parseLine F line nowMicros).1 = [.onCommand A msg]) ∧
    (skipLine line = false → arg (splitSpaces line) 0 ∉ ["echo".toList, "time".toList, "exit".toList] →
      nodeCmds EmulationCommandsParser.parseNodeCmd
        (EmulationCommandsParser.parseLine (δ := δ) line nowMicros).1 =
          [.onCommand 0 (trimEnd line)]) := by
  refine ⟨⟨splitSpaces_ne_nil line, fun w hw => not_mem_of_mem_splitSpaces hw,
    intercalate_splitSpaces line, fun ws => splitSpaces_unique⟩, ?_, ?_⟩
  · intro first others A hskip hsplit hreserved hothers hA hlow hhigh
    refine ⟨nodeMsg others, trimEnd_of_splitSpaces hsplit hothers, ?_⟩
    have hfirst : arg (splitSpaces line) 0 = first := by rw [hsplit]; rfl
    have hlength : ¬ (first :: others).length < 2 := by
      have := List.length_pos_iff.mpr hothers
      rw [List.length_cons]
      omega
    rw [parseLine_nodeCmds F hskip (by rwa [hfirst]), SimulationCommandsParser.parseNodeCmd, hfirst,
      hsplit, if_neg hlength, hA]
    simp [hlow, hhigh]
  · intro hskip hfirst
    have hline : EmulationCommandsParser.parseLine (δ := δ) line nowMicros =
        parseCommonCmds (splitSpaces line) nowMicros := by
      simp [EmulationCommandsParser.parseLine, hskip]
    have hwords : ∀ w ∈ ["echo".toList, "time".toList], arg (splitSpaces line) 0 ≠ w := by
      rintro w hw rfl
      exact hfirst (List.mem_append_left ["exit".toList] hw)
    rw [hline, parseCommonCmds_nodeCmds hwords, EmulationCommandsParser.parseNodeCmd,
      nodeMsg_eq_intercalate, intercalate_splitSpaces]

/-- Inner runs of spaces stay, the spaces at the end go. -/
example : nodeCmds (SimulationCommandsParser.parseNodeCmd 2)
    (CommandsParser.parseLine Floats.whole "1  ping   0 ".toList 0).1 =
      [.onCommand 1 " ping   0".toList] := by decide

end NetBridge
