import NetBridge.Table
import NetBridge.Text
import NetBridge.Topology
import NetBridge.Packet

/-! # The commands of the trawler

`TrawlerNodeARPCommands` (`trawler_node_arp_commands.cpp`): the lines by which the trawler tells a
node who its neighbours are.  `ArpCommand` is what a line means and `ArpCommand.encode` the text
of it; `receiveReset`, `receiveRemoveNeighbor` and `receiveAddNeighbor` read the text, and
`arpLine` is the body of the loop of `Emulator::refreshARP` that tries them in turn.  A line is
read back as the command it was made from (`arpCommand_encode`).

The C library's operations on doubles are a parameter (`Floats`). -/

namespace NetBridge

/-! ### Neighbour tables -/

/-- `EmulatedLink`, less its random number generator. -/
structure EmulatedLink (δ : Type) where
  options : EdgeOptions δ
  nextSendTime : Int
deriving DecidableEq

/-- `EmulatorARPData`: the UDP endpoint of a neighbour, and the link that paces what is sent. -/
structure EmulatorARPData (δ : Type) where
  ipAddress : Str
  udpPort : Int
  link : Option (EmulatedLink δ)
deriving DecidableEq

/-- What a line from the trawler says. -/
inductive ArpCommand (δ : Type) where
  | add (nodeId : Int) (ipAddress : Str) (port : Int) (options : Option (EdgeOptions δ))
  | remove (nodeId : Int)
  | reset
deriving DecidableEq

/-- The neighbours of a node. -/
abbrev ArpTable (δ : Type) := Table Int (EmulatorARPData δ)

variable {δ : Type}

/-- The constructor. -/
def EmulatedLink.new (options : EdgeOptions δ) : EmulatedLink δ := ⟨options, 0⟩

/-- What a command does to a table: an add replaces the entry, a remove takes it out, a reset
empties the table. -/
def ArpCommand.apply (arp : ArpTable δ) : ArpCommand δ → ArpTable δ
  | .add nodeId ipAddress port options =>
      AList.insert nodeId ⟨ipAddress, port, options.map .new⟩ arp
  | .remove nodeId => AList.erase nodeId arp
  | .reset => ∅

/-- The entry of `y` after a command, from the one before it. -/
def ArpCommand.after (y : Int) (old : Option (EmulatorARPData δ)) :
    ArpCommand δ → Option (EmulatorARPData δ)
  | .add nodeId ipAddress port options =>
      if y = nodeId then some ⟨ipAddress, port, options.map .new⟩ else old
  | .remove nodeId => if y = nodeId then none else old
  | .reset => none

theorem ArpCommand.lookup_apply (c : ArpCommand δ) (arp : ArpTable δ) (y : Int) :
    AList.lookup y (c.apply arp) = c.after y (AList.lookup y arp) := by
  cases c with
  | add nodeId ipAddress port options => exact Table.lookup_insert_eq arp nodeId y _
  | remove nodeId => exact Table.lookup_erase_eq arp nodeId y
  | reset => rfl

/-! ### Doubles -/

/-- What the program uses of the C library's doubles: `format prec d` is `%.*g`, whose text holds no
space and no line end, and `stod` gives `none` for an exception. -/
structure Floats (δ : Type) where
  isnan : δ → Bool
  isinf : δ → Bool
  negative : δ → Bool
  format : ℕ → δ → Str
  stod : Str → Option δ
  equal : δ → δ → Bool
  plain : ∀ prec d, ∀ c ∈ [' ', '\r', '\n'], c ∉ format prec d

namespace Floats

variable (F : Floats δ)

/-- The loop of `javaDouble`: the first precision from which the value is read back. -/
def shortest (d : δ) : List ℕ → Str → Str
  | [], s => s
  | prec :: precs, _ =>
      let s := F.format prec d
      match F.stod s with
      | none => shortest d precs s
      | some back => if F.equal back d then s else shortest d precs s

def javaDouble (d : δ) : Str :=
  if F.isnan d then "NaN".toList
  else if F.isinf d then (if F.negative d then "-Infinity".toList else "Infinity".toList)
  else
    let s := F.shortest d (List.range' 1 17) []
    let hasDot := s.contains '.'
    let hasExp := s.contains 'e' || s.contains 'E'
    if !hasDot && !hasExp then s ++ ".0".toList else s

variable {F}

theorem not_mem_shortest {c : Char} {d : δ} (h : ∀ prec, c ∉ F.format prec d) (precs : List ℕ)
    {s : Str} (hs : c ∉ s) : c ∉ F.shortest d precs s := by
  induction precs generalizing s with
  | nil => exact hs
  | cons prec precs ih =>
      unfold shortest
      simp only
      cases F.stod (F.format prec d) with
      | none => exact ih (h prec)
      | some back =>
          simp only
          split_ifs
          · exact h prec
          · exact ih (h prec)

theorem not_mem_javaDouble (d : δ) : ∀ c ∈ [' ', '\r', '\n'], c ∉ F.javaDouble d := by
  intro c hc
  have hs : c ∉ F.shortest d (List.range' 1 17) [] :=
    not_mem_shortest (fun prec => F.plain prec d c hc) _ List.not_mem_nil
  have hword : ∀ c ∈ [' ', '\r', '\n'], c ∉ "NaN".toList ∧ c ∉ "-Infinity".toList ∧
      c ∉ "Infinity".toList ∧ c ∉ ".0".toList := by simp
  obtain ⟨h1, h2, h3, h4⟩ := hword c hc
  unfold Floats.javaDouble
  split_ifs
  · exact h1
  · exact h2
  · exact h3
  · simp only
    split_ifs
    · rw [List.mem_append]
      exact fun hmem => hmem.elim hs h4
    · exact hs

end Floats

/-! ### Encoding -/

section encode
variable (F : Floats δ)

def addNeighbor (nodeId : Int) (ipAddress : Str) (port : Int) : Str :=
  "add ".toList ++ printInt nodeId ++ " ".toList ++ ipAddress ++ " ".toList ++ printInt port

def addNeighborOptions (nodeId : Int) (ipAddress : Str) (port : Int) (options : EdgeOptions δ) :
    Str :=
  addNeighbor nodeId ipAddress port ++
    " lossRate ".toList ++ F.javaDouble options.lossRate ++
    " delay ".toList ++ printInt options.delayMs ++
    " bw ".toList ++ printInt options.bwBytesPerSec ++
    " bt ".toList ++ printInt options.bufferingMs

def removeNeighbor (nodeId : Int) : Str := "remove ".toList ++ printInt nodeId

def reset : Str := "reset".toList

/-- The line for a command. -/
def ArpCommand.encode : ArpCommand δ → Str
  | .add nodeId ipAddress port none => addNeighbor nodeId ipAddress port
  | .add nodeId ipAddress port (some options) => addNeighborOptions F nodeId ipAddress port options
  | .remove nodeId => removeNeighbor nodeId
  | .reset => NetBridge.reset

end encode

/-! ### Decoding -/

/-- `splitSpace`: the pieces between single spaces, less the empty ones at the end. -/
def splitSpace (s : Str) : List Str :=
  let out := (s.splitOn ' ').rdropWhile List.isEmpty
  if out.isEmpty then [[]] else out

/-- `AddNeighborResult`. -/
structure AddNeighborResult (δ : Type) where
  nodeId : Int
  ipAddress : Str
  port : Int
  options : Option (EdgeOptions δ)
deriving DecidableEq

section decode
variable (F : Floats δ)

def receiveAddNeighborOptions (cmd : Str) : Option (AddNeighborResult δ) :=
  match splitSpace cmd with
  | [a0, a1, a2, a3, a4, a5, a6, a7, a8, a9, a10, a11] =>
      if a0 ≠ "add".toList ∨ a4 ≠ "lossRate".toList ∨ a6 ≠ "delay".toList ∨ a8 ≠ "bw".toList ∨
          a10 ≠ "bt".toList then none
      else do
        let nodeId ← stoi a1
        let port ← stoi a3
        let lossRate ← F.stod a5
        let delay ← stoll a7
        let bw ← stoi a9
        let bt ← stoll a11
        return ⟨nodeId, a2, port, some ⟨lossRate, delay, bw, bt⟩⟩
  | _ => none

def receiveAddNeighbor (cmd : Str) : Option (AddNeighborResult δ) :=
  match receiveAddNeighborOptions F cmd with
  | some withOpts => some withOpts
  | none =>
      match splitSpace cmd with
      | [a0, a1, a2, a3] =>
          if a0 ≠ "add".toList then none
          else do
            let nodeId ← stoi a1
            let port ← stoi a3
            return ⟨nodeId, a2, port, none⟩
      | _ => none

/-- `receiveRemoveNeighbor`: `-1` if the line is no remove. -/
def receiveRemoveNeighbor (cmd : Str) : Int :=
  match splitSpace cmd with
  | [a0, a1] => if a0 ≠ "remove".toList then -1 else (stoi a1).getD (-1)
  | _ => -1

def receiveReset (cmd : Str) : Bool := cmd = NetBridge.reset

/-- One round of the loop of `refreshARP`; a line that no reader takes is only reported. -/
def arpLine (arp : ArpTable δ) (line : Str) : ArpTable δ :=
  let line := if line.getLast? = some '\r' then line.dropLast else line
  if line.isEmpty then arp
  else if receiveReset line then ∅
  else
    let rm := receiveRemoveNeighbor line
    if 0 ≤ rm then AList.erase rm arp
    else
      match receiveAddNeighbor F line with
      | some r =>
          if Packet.validAddress r.nodeId then
            AList.insert r.nodeId ⟨r.ipAddress, r.port, r.options.map .new⟩ arp
          else arp
      | none => arp

/-- The command that the round takes from a line, if a reader takes one. -/
def arpCommand (line : Str) : Option (ArpCommand δ) :=
  let line := if line.getLast? = some '\r' then line.dropLast else line
  if line.isEmpty then none
  else if receiveReset line then some .reset
  else
    let rm := receiveRemoveNeighbor line
    if 0 ≤ rm then some (.remove rm)
    else
      match receiveAddNeighbor F line with
      | some r =>
          if Packet.validAddress r.nodeId then some (.add r.nodeId r.ipAddress r.port r.options)
          else none
      | none => none

/-- A round applies the command of its line. -/
theorem arpLine_eq (arp : ArpTable δ) (line : Str) :
    arpLine F arp line = (arpCommand F line).elim arp fun c => c.apply arp := by
  unfold arpLine arpCommand
  simp only
  generalize (if line.getLast? = some '\r' then line.dropLast else line) = line
  split_ifs
  · rfl
  · rfl
  · rfl
  · cases receiveAddNeighbor F line with
    | none => rfl
    | some r =>
        simp only
        split_ifs <;> rfl

theorem foldl_arpLine (ls : List Str) (arp : ArpTable δ) :
    ls.foldl (arpLine F) arp = (ls.filterMap (arpCommand F)).foldl ArpCommand.apply arp := by
  induction ls generalizing arp with
  | nil => rfl
  | cons line ls ih =>
      rw [List.foldl_cons, ih, arpLine_eq, List.filterMap_cons]
      cases arpCommand F line <;> rfl

end decode

/-! ### What is written is read back -/

/-- A value of a 64-bit integer. -/
def InInt64 (v : Int) : Prop := -9223372036854775808 ≤ v ∧ v ≤ 9223372036854775807

instance (v : Int) : Decidable (InInt64 v) := inferInstanceAs (Decidable (_ ∧ _))

/-- The arguments with which the trawler makes its lines. -/
def ArpCommand.WellFormed : ArpCommand δ → Prop
  | .add nodeId ipAddress port options =>
      Packet.validAddress nodeId = true ∧ InInt32 port ∧
        (∀ c ∈ [' ', '\r', '\n'], c ∉ ipAddress) ∧
        ∀ o ∈ options, InInt64 o.delayMs ∧ InInt32 o.bwBytesPerSec ∧ InInt64 o.bufferingMs
  | .remove nodeId => Packet.validAddress nodeId = true
  | .reset => True

instance (c : ArpCommand δ) : Decidable c.WellFormed :=
  match c with
  | .add _ ipAddress _ _ =>
      have : Decidable (∀ c ∈ [' ', '\r', '\n'], c ∉ ipAddress) := List.decidableBAll _ _
      inferInstanceAs (Decidable (_ ∧ _ ∧ _ ∧ _))
  | .remove _ => inferInstanceAs (Decidable (_ = true))
  | .reset => inferInstanceAs (Decidable True)

/-- Words without spaces, joined by single spaces, are split at them. -/
theorem splitSpace_intercalate {ws : List Str} (hws : ws ≠ []) (hspace : ∀ w ∈ ws, ' ' ∉ w)
    (hlast : ws.getLast hws ≠ []) : splitSpace ([' '].intercalate ws) = ws := by
  have hdrop : ws.rdropWhile List.isEmpty = ws := by
    rw [List.rdropWhile_eq_self_iff]
    intro _
    simpa using hlast
  simp only [splitSpace, List.splitOn_intercalate ' ' hspace hws, hdrop]
  rw [if_neg (by simpa using hws)]

theorem inInt32_of_validAddress {a : Int} (h : Packet.validAddress a = true) : InInt32 a := by
  rw [Packet.validAddress_iff] at h
  unfold InInt32
  omega

section words
variable (F : Floats δ)

/-- The words of a line. -/
def ArpCommand.words : ArpCommand δ → List Str
  | .add nodeId ipAddress port none =>
      ["add".toList, printInt nodeId, ipAddress, printInt port]
  | .add nodeId ipAddress port (some o) =>
      ["add".toList, printInt nodeId, ipAddress, printInt port, "lossRate".toList,
        F.javaDouble o.lossRate, "delay".toList, printInt o.delayMs, "bw".toList,
        printInt o.bwBytesPerSec, "bt".toList, printInt o.bufferingMs]
  | .remove nodeId => ["remove".toList, printInt nodeId]
  | .reset => ["reset".toList]

theorem ArpCommand.encode_eq (c : ArpCommand δ) : c.encode F = [' '].intercalate (c.words F) := by
  cases c with
  | add nodeId ipAddress port options =>
      have hadd : addNeighbor nodeId ipAddress port =
          "add".toList ++ [' '] ++ printInt nodeId ++ [' '] ++ ipAddress ++ [' '] ++ printInt port :=
        rfl
      cases options with
      | none =>
          simp only [encode, words, hadd, List.intercalate_cons_cons,
            List.intercalate_singleton, List.append_assoc]
      | some o =>
          have hloss : " lossRate ".toList = [' '] ++ ("lossRate".toList ++ [' ']) := rfl
          have hdelay : " delay ".toList = [' '] ++ ("delay".toList ++ [' ']) := rfl
          have hbw : " bw ".toList = [' '] ++ ("bw".toList ++ [' ']) := rfl
          have hbt : " bt ".toList = [' '] ++ ("bt".toList ++ [' ']) := rfl
          simp only [encode, words, addNeighborOptions, hadd, hloss, hdelay, hbw, hbt,
            List.intercalate_cons_cons, List.intercalate_singleton, List.append_assoc]
  | remove nodeId =>
      have hremove : "remove ".toList = "remove".toList ++ [' '] := rfl
      unfold encode words removeNeighbor
      simp only [hremove, List.intercalate_cons_cons, List.intercalate_singleton]
  | reset => exact List.intercalate_singleton.symm

variable {F}

theorem ArpCommand.not_mem_words {c : ArpCommand δ} (hc : c.WellFormed) {x : Char}
    (hx : x ∈ [' ', '\r', '\n']) : ∀ w ∈ c.words F, x ∉ w := by
  have hsign : ∀ x ∈ [' ', '\r', '\n'], x ≠ '-' ∧ x.isDigit = false := by simp
  have hint : ∀ n, x ∉ printInt n := not_mem_printInt (hsign x hx).1 (hsign x hx).2
  have hword : ∀ x ∈ [' ', '\r', '\n'], x ∉ "add".toList ∧ x ∉ "lossRate".toList ∧
      x ∉ "delay".toList ∧ x ∉ "bw".toList ∧ x ∉ "bt".toList ∧ x ∉ "remove".toList ∧
      x ∉ "reset".toList := by simp
  obtain ⟨hadd, hloss, hdelay, hbw, hbt, hremove, hreset⟩ := hword x hx
  cases c with
  | add nodeId ipAddress port options =>
      obtain ⟨_, _, hip, _⟩ := hc
      cases options with
      | none =>
          simp only [words, List.forall_mem_cons]
          exact ⟨hadd, hint _, hip x hx, hint _, fun _ h => absurd h List.not_mem_nil⟩
      | some o =>
          simp only [words, List.forall_mem_cons]
          exact ⟨hadd, hint _, hip x hx, hint _, hloss, F.not_mem_javaDouble _ x hx, hdelay, hint _, hbw,
            hint _, hbt, hint _, fun _ h => absurd h List.not_mem_nil⟩
  | remove nodeId =>
      simp only [words, List.forall_mem_cons]
      exact ⟨hremove, hint _, fun _ h => absurd h List.not_mem_nil⟩
  | reset =>
      simp only [words, List.forall_mem_cons]
      exact ⟨hreset, fun _ h => absurd h List.not_mem_nil⟩

theorem ArpCommand.words_ne_nil (c : ArpCommand δ) : c.words F ≠ [] := by
  cases c with
  | add nodeId ipAddress port options => cases options <;> exact List.cons_ne_nil _ _
  | remove | reset => exact List.cons_ne_nil _ _

theorem ArpCommand.getLast_words (c : ArpCommand δ) : (c.words F).getLast c.words_ne_nil ≠ [] := by
  cases c with
  | add nodeId ipAddress port options => cases options <;> exact printInt_ne_nil _
  | remove nodeId => exact printInt_ne_nil _
  | reset => exact List.cons_ne_nil _ _

variable (F) in
theorem ArpCommand.splitSpace_encode {c : ArpCommand δ} (hc : c.WellFormed) :
    splitSpace (c.encode F) = c.words F := by
  rw [c.encode_eq F]
  exact splitSpace_intercalate c.words_ne_nil (c.not_mem_words hc (by decide)) c.getLast_words

theorem not_mem_intercalate {x : Char} (hx : x ≠ ' ') {ws : List Str} (h : ∀ w ∈ ws, x ∉ w) :
    x ∉ [' '].intercalate ws := by
  induction ws with
  | nil => exact List.not_mem_nil
  | cons w ws ih =>
      have hw := h w List.mem_cons_self
      have hws := ih fun w' hw' => h w' (List.mem_cons_of_mem _ hw')
      cases ws with
      | nil => rwa [List.intercalate_singleton]
      | cons w' ws =>
          rw [List.intercalate_cons_cons]
          simp only [List.mem_append, List.mem_singleton]
          rintro ((hmem | rfl) | hmem)
          · exact hw hmem
          · exact hx rfl
          · exact hws hmem

theorem ArpCommand.not_mem_encode {c : ArpCommand δ} (hc : c.WellFormed) {x : Char}
    (hx : x ∈ ['\r', '\n']) : x ∉ c.encode F := by
  have hne : ∀ x ∈ ['\r', '\n'], x ≠ ' ' := by simp
  rw [c.encode_eq F]
  exact not_mem_intercalate (hne x hx) (c.not_mem_words hc (List.mem_cons_of_mem _ hx))

/-- Only a reset is read as one: the other lines have more than one word. -/
theorem ArpCommand.receiveReset_encode {c : ArpCommand δ} (hc : c.WellFormed)
    (hne : (c.words F).length ≠ 1) : receiveReset (c.encode F) = false := by
  rw [receiveReset, decide_eq_false_iff_not]
  intro e
  have hreset : splitSpace NetBridge.reset = ["reset".toList] :=
    ArpCommand.splitSpace_encode F (c := .reset) trivial
  rw [← c.splitSpace_encode F hc, e, hreset] at hne
  exact hne rfl

theorem ArpCommand.receiveRemoveNeighbor_add {nodeId port : Int} {ipAddress : Str}
    {options : Option (EdgeOptions δ)}
    (hc : (ArpCommand.add nodeId ipAddress port options).WellFormed) :
    receiveRemoveNeighbor ((ArpCommand.add nodeId ipAddress port options).encode F) = -1 := by
  rw [receiveRemoveNeighbor, splitSpace_encode F hc]
  cases options <;> rfl

theorem ArpCommand.receiveRemoveNeighbor_remove {nodeId : Int}
    (hc : (ArpCommand.remove nodeId : ArpCommand δ).WellFormed) :
    receiveRemoveNeighbor ((ArpCommand.remove nodeId : ArpCommand δ).encode F) = nodeId := by
  rw [receiveRemoveNeighbor, splitSpace_encode F hc]
  simp only [words]
  rw [if_neg (not_not.mpr rfl), stoi_printInt (inInt32_of_validAddress hc), Option.getD_some]

theorem ArpCommand.receiveAddNeighbor_encode 
    (hstod : ∀ d, F.stod (F.javaDouble d) = some d) {nodeId port : Int} {ipAddress : Str}
    {options : Option (EdgeOptions δ)}
    (hc : (ArpCommand.add nodeId ipAddress port options).WellFormed) :
    receiveAddNeighbor F ((ArpCommand.add nodeId ipAddress port options).encode F) =
      some ⟨nodeId, ipAddress, port, options⟩ := by
  have hsplit := splitSpace_encode F hc
  obtain ⟨hnode, hport, _, hoptions⟩ := hc
  have hid := stoi_printInt (inInt32_of_validAddress hnode)
  have hp := stoi_printInt hport
  cases options with
  | none =>
      have hnot : receiveAddNeighborOptions F
          ((ArpCommand.add nodeId ipAddress port none).encode F) = none := by
        rw [receiveAddNeighborOptions, hsplit]
        rfl
      rw [receiveAddNeighbor, hnot]
      simp only
      rw [hsplit]
      simp only [words]
      rw [if_neg (not_not.mpr rfl), hid, hp]
      rfl
  | some o =>
      obtain ⟨hdelay, hbw, hbt⟩ := hoptions o rfl
      have hsome : receiveAddNeighborOptions F
          ((ArpCommand.add nodeId ipAddress port (some o)).encode F) =
            some ⟨nodeId, ipAddress, port, some o⟩ := by
        rw [receiveAddNeighborOptions, hsplit]
        simp only [words]
        rw [if_neg (by rintro (h | h | h | h | h) <;> exact h rfl), hid, hp, hstod,
          stoll_printInt hdelay, stoi_printInt hbw, stoll_printInt hbt]
        rfl
      rw [receiveAddNeighbor, hsome]

/-- **A line is read as the command it was made from.** -/
theorem ArpCommand.arpCommand_encode 
    (hstod : ∀ d, F.stod (F.javaDouble d) = some d) {c : ArpCommand δ} (hc : c.WellFormed) :
    arpCommand F (c.encode F) = some c := by
  have hcr : ¬ (c.encode F).getLast? = some '\r' := by
    intro h
    exact c.not_mem_encode hc (by decide) (List.mem_of_getLast? h)
  have hne : (c.encode F).isEmpty = false := by
    rw [List.isEmpty_eq_false_iff]
    intro h
    have hsplit := c.splitSpace_encode F hc
    have hlast := c.getLast_words (F := F)
    rw [h] at hsplit
    simp only [← hsplit] at hlast
    exact hlast rfl
  unfold arpCommand
  rw [if_neg hcr]
  simp only [hne, Bool.false_eq_true, if_false]
  cases c with
  | reset => rw [if_pos (by exact decide_eq_true rfl)]
  | remove nodeId =>
      have hnot := receiveReset_encode (F := F) hc (show 2 ≠ 1 by decide)
      rw [hnot, receiveRemoveNeighbor_remove hc]
      simp only [Bool.false_eq_true, if_false]
      rw [if_pos (Packet.validAddress_iff.mp hc).1]
  | add nodeId ipAddress port options =>
      have hnot := receiveReset_encode (F := F) hc (by cases options <;> exact fun e => by cases e)
      rw [hnot, receiveRemoveNeighbor_add hc, receiveAddNeighbor_encode hstod hc]
      simp only [Bool.false_eq_true, if_false]
      rw [if_neg (by decide), if_pos hc.1]

theorem ArpCommand.filterMap_arpCommand (hstod : ∀ d, F.stod (F.javaDouble d) = some d)
    {cs : List (ArpCommand δ)} (hcs : ∀ c ∈ cs, c.WellFormed) :
    (cs.map fun c => c.encode F).filterMap (arpCommand F) = cs := by
  induction cs with
  | nil => rfl
  | cons c cs ih =>
      have hc := arpCommand_encode hstod (hcs c List.mem_cons_self)
      have hrest := ih fun c' hc' => hcs c' (List.mem_cons_of_mem _ hc')
      rw [List.map_cons, List.filterMap_cons_some hc, hrest]

end words

/-- The doubles `0.0` and `0.5`. -/
def Floats.halves : Floats Bool where
  isnan _ := false
  isinf _ := false
  negative _ := false
  format _ d := if d then "0.5".toList else "0".toList
  stod s :=
    if s = "0.5".toList then some true
    else if s = "0".toList ∨ s = "0.0".toList then some false
    else none
  equal d d' := d == d'
  plain _ d := by cases d <;> simp

end NetBridge
