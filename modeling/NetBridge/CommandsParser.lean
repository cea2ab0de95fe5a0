import NetBridge.ArpCommands

/-! # Command scripts

`CommandsParser` (`commands_parser.cpp`): one line of a topology file, of a command file or of the
console.  What a line does is a list of calls of the parser's virtual functions (`Hook`), which the
simulator, the emulator and the trawler override; besides, `parseLine` returns the time in
microseconds at which parsing should resume, or `-1`.

The sum and the product of a `time` directive are taken in `ℤ`: where they leave the 64 bits, the
behaviour of the source is undefined. -/

namespace NetBridge

variable {δ : Type}

/-- What the parser calls for a line.  `error` is a text on `std::cerr`, with the tokens of the line
after it. -/
inductive Hook (δ : Type) where
  | createNewEdge (a b : Int) (options : EdgeOptions δ)
  | failEdgeHook (a b : Int)
  | failNodeHook (a : Int)
  | restartEdgeHook (a b : Int)
  | restartNodeHook (a : Int)
  | exitCmd (cmd : List Str)
  | echo (words : List Str)
  | parseNodeCmd (cmd : List Str)
  | error (message : Str) (cmd : List Str)
deriving DecidableEq

namespace CommandsParser

/-- `splitSpaces` is the same loop as `splitSpace`. -/
def splitSpaces (line : Str) : List Str := splitSpace line

/-- `cmd[i]`; the callers have looked at the size. -/
def arg (cmd : List Str) (i : ℕ) : Str := cmd.getD i []

def skipLine (line : Str) : Bool :=
  line.isEmpty || (arg (splitSpaces line) 0).take 2 == "//".toList ||
    (arg (splitSpaces line) 0).take 1 == "#".toList

/-- One option of `edge`: the value after its keyword, if the keyword stands where the `switch` looks
for it.  `none` is an exception. -/
def edgeOption {α : Type} (cmd : List Str) (i : ℕ) (keyword : Str) (parse : Str → Option α)
    (set : EdgeOptions δ → α → EdgeOptions δ) (options : EdgeOptions δ) :
    Option (EdgeOptions δ) :=
  if i + 1 < cmd.length ∧ arg cmd i = keyword then (parse (arg cmd (i + 1))).map (set options)
  else some options

section edge
variable [Zero δ] (F : Floats δ)

/-- The arguments of `createNewEdge`, or `none` if the `try` block throws. -/
def edgeArgs (cmd : List Str) : Option (Int × Int × EdgeOptions δ) := do
  guard (cmd.length ∈ [3, 5, 7, 9, 11])
  let options ← edgeOption cmd 9 "bt".toList stoll (fun o v => { o with bufferingMs := v }) .new
  let options ← edgeOption cmd 7 "bw".toList stoi (fun o v => { o with bwBytesPerSec := v }) options
  let options ← edgeOption cmd 5 "delay".toList stoll (fun o v => { o with delayMs := v }) options
  let options ← edgeOption cmd 3 "lossRate".toList F.stod (fun o v => { o with lossRate := v })
    options
  let nodeA ← stoi (arg cmd 1)
  let nodeB ← stoi (arg cmd 2)
  return (nodeA, nodeB, options)

/-- `parseEdge`; `none` is the result `false`. -/
def parseEdge (cmd : List Str) : Option (List (Hook δ)) :=
  if arg cmd 0 ≠ "edge".toList then none
  else
    match edgeArgs F cmd with
    | some (nodeA, nodeB, options) => some [.createNewEdge nodeA nodeB options]
    | none => some [.error "Error parsing edge command: ".toList cmd]

end edge

/-- `parseFail` and `parseRestart`: a node, or the edge between two of them; `-1` stands for no second
node. -/
def parseToggle (keyword message : Str) (edgeHook : Int → Int → Hook δ) (nodeHook : Int → Hook δ)
    (cmd : List Str) : Option (List (Hook δ)) :=
  if arg cmd 0 ≠ keyword then none
  else
    let args : Option (Int × Int) := do
      let a ← stoi (← cmd[1]?)
      let b ← if 2 < cmd.length then stoi (arg cmd 2) else some (-1)
      return (a, b)
    match args with
    | some (a, b) => some [if b ≠ -1 then edgeHook a b else nodeHook a]
    | none => some [.error message cmd]

def parseFail (cmd : List Str) : Option (List (Hook δ)) :=
  parseToggle "fail".toList "Error parsing fail command: ".toList .failEdgeHook .failNodeHook cmd

def parseRestart (cmd : List Str) : Option (List (Hook δ)) :=
  parseToggle "restart".toList "Error parsing restart command: ".toList .restartEdgeHook
    .restartNodeHook cmd

def parseTime (cmd : List Str) (nowMicros : Int) : List (Hook δ) × Int :=
  if arg cmd 0 ≠ "time".toList then ([], -1)
  else
    let resume : Option Int := do
      let first ← cmd[1]?
      if first = "+".toList then
        let v ← stoll (← cmd[2]?)
        return nowMicros + v * 1000
      else
        let v ← stoll first
        return v * 1000
    match resume with
    | some deferTill => ([], deferTill)
    | none => ([.error "Error parsing time command: ".toList cmd], -1)

/-- `parseCommonCmds`.  `exitCmd` is called for every command and looks at the first token itself. -/
def parseCommonCmds (cmd : List Str) (nowMicros : Int) : List (Hook δ) × Int :=
  if arg cmd 0 = "echo".toList then ([.exitCmd cmd, .echo (cmd.drop 1)], -1)
  else
    let (hooks, deferTill) := parseTime cmd nowMicros
    let node : List (Hook δ) :=
      if deferTill = -1 ∧ arg cmd 0 ≠ "time".toList then [.parseNodeCmd cmd] else []
    ([.exitCmd cmd] ++ hooks ++ node, deferTill)

def parseLine [Zero δ] (F : Floats δ) (line : Str) (nowMicros : Int) : List (Hook δ) × Int :=
  if skipLine line then ([], -1)
  else
    let cmd := splitSpaces line
    match parseEdge F cmd <|> parseFail cmd <|> parseRestart cmd with
    | some hooks => (hooks, -1)
    | none => parseCommonCmds cmd nowMicros

end CommandsParser

/-- The doubles that are natural numbers, written without a dot. -/
def Floats.whole : Floats ℕ where
  isnan _ := false
  isinf _ := false
  negative _ := false
  format _ d := printInt d
  stod s := (strtoll s).bind fun v => if 0 ≤ v then some v.toNat else none
  equal d d' := d == d'
  plain _ d := by
    intro c hc
    simp only [List.mem_cons, List.not_mem_nil, or_false] at hc
    obtain rfl | rfl | rfl := hc <;> exact not_mem_printInt (by decide) (by decide) d

end NetBridge
