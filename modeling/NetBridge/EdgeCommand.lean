import NetBridge.CommandsParser

/-! # The `edge` command

`parseEdge` looks for each option at one place of the line: `lossRate` behind the nodes, then `delay`,
`bw` and `bt`.  Where another word stands there, it and the word behind it are passed over without an
error.  `Honoured` says what a reader of the line expects of an edge that is made from it: each keyword
has set its option, the others have their defaults, and no number is without effect.  That is so for
the lines that have their keywords in the places the parser looks at (`InOrder`), and for no other line
that is accepted. -/

namespace NetBridge

namespace CommandsParser

variable {δ : Type}

/-! ### What an accepted line should mean -/

/-- A keyword and its value, and the option that they set. -/
def SetTo (F : Floats δ) (options : EdgeOptions δ) (keyword value : Str) : Prop :=
  keyword = "lossRate".toList ∧ F.stod value = some options.lossRate ∨
  keyword = "delay".toList ∧ stoll value = some options.delayMs ∨
  keyword = "bw".toList ∧ stoi value = some options.bwBytesPerSec ∨
  keyword = "bt".toList ∧ stoll value = some options.bufferingMs

/-- The options whose keyword is not among `keywords` have their defaults. -/
structure DefaultsBut [Zero δ] (keywords : List Str) (options : EdgeOptions δ) : Prop where
  lossRate : "lossRate".toList ∉ keywords → options.lossRate = EdgeOptions.new.lossRate
  delay : "delay".toList ∉ keywords → options.delayMs = (EdgeOptions.new : EdgeOptions δ).delayMs
  bw : "bw".toList ∉ keywords →
    options.bwBytesPerSec = (EdgeOptions.new : EdgeOptions δ).bwBytesPerSec
  bt : "bt".toList ∉ keywords →
    options.bufferingMs = (EdgeOptions.new : EdgeOptions δ).bufferingMs

section spec
variable [Zero δ] (F : Floats δ) (cmd : List Str)

/-- Whatever stands in the place of a token, the line does the same. -/
def Ignored (i : ℕ) : Prop := ∀ w, parseEdge F (cmd.set i w) = parseEdge F cmd

/-- The edge is what the line says: what follows the two nodes are keywords with their values, each
has set its option, the other options have their defaults, and no token but a keyword is ignored. -/
structure Honoured (nodeA nodeB : Int) (options : EdgeOptions δ) : Prop where
  nodeA : stoi (arg cmd 1) = some nodeA
  nodeB : stoi (arg cmd 2) = some nodeB
  options : ∃ pairs : List (Str × Str), cmd.drop 3 = pairs.flatMap (fun p => [p.1, p.2]) ∧
    (∀ p ∈ pairs, SetTo F options p.1 p.2) ∧ DefaultsBut (pairs.map Prod.fst) options
  used : ∀ i < cmd.length, i = 1 ∨ i % 2 = 0 → ¬ Ignored F cmd i

/-- The line is refused with an error, or one edge is made as the line says. -/
def HonoursLine : Prop :=
  parseEdge F cmd = some [.error "Error parsing edge command: ".toList cmd] ∨
    ∃ nodeA nodeB options, parseEdge F cmd = some [.createNewEdge nodeA nodeB options] ∧
      Honoured F cmd nodeA nodeB options

end spec

/-! ### What the parser accepts -/

/-- The keyword stands in its place, but no value behind it. -/
def BadValue {α : Type} (cmd : List Str) (i : ℕ) (keyword : Str) (parse : Str → Option α) : Prop :=
  i + 1 < cmd.length ∧ arg cmd i = keyword ∧ parse (arg cmd (i + 1)) = none

/-- The number of tokens is wrong, or a number that the parser reads is none. -/
def Unreadable (F : Floats δ) (cmd : List Str) : Prop :=
  cmd.length ∉ [3, 5, 7, 9, 11] ∨ stoi (arg cmd 1) = none ∨ stoi (arg cmd 2) = none ∨
    BadValue cmd 3 "lossRate".toList F.stod ∨ BadValue cmd 5 "delay".toList stoll ∨
    BadValue cmd 7 "bw".toList stoi ∨ BadValue cmd 9 "bt".toList stoll

/-- The places at which the parser looks for the keywords. -/
def edgeSlots : List (ℕ × Str) :=
  [(3, "lossRate".toList), (5, "delay".toList), (7, "bw".toList), (9, "bt".toList)]

/-- Every keyword stands in its place. -/
def InOrder (cmd : List Str) : Prop :=
  ∀ slot ∈ edgeSlots, slot.1 < cmd.length → arg cmd slot.1 = slot.2

/-- The value of an option: the one behind the keyword, or the default. -/
def slotValue {α : Type} (cmd : List Str) (i : ℕ) (keyword : Str) (parse : Str → Option α)
    (default : α) : Option α :=
  if i + 1 < cmd.length ∧ arg cmd i = keyword then parse (arg cmd (i + 1)) else some default

theorem edgeOption_eq {α : Type} {cmd : List Str} {i : ℕ} {keyword : Str} {parse : Str → Option α}
    {set : EdgeOptions δ → α → EdgeOptions δ} {options : EdgeOptions δ} {d : α}
    (h : set options d = options) :
    edgeOption cmd i keyword parse set options =
      (slotValue cmd i keyword parse d).map (set options) := by
  unfold edgeOption slotValue
  split_ifs
  · rfl
  · rw [Option.map_some, h]

theorem slotValue_eq_none {α : Type} {cmd : List Str} {i : ℕ} {keyword : Str}
    {parse : Str → Option α} {d : α} :
    slotValue cmd i keyword parse d = none ↔ BadValue cmd i keyword parse := by
  unfold slotValue BadValue
  split_ifs with h
  · simp [h]
  · simp only [false_iff]
    exact fun hbad => h ⟨hbad.1, hbad.2.1⟩

section args
variable [Zero δ] {F : Floats δ} {cmd : List Str}

theorem edgeArgs_eq (F : Floats δ) (cmd : List Str) :
    edgeArgs F cmd = do
      guard (cmd.length ∈ [3, 5, 7, 9, 11])
      let bt ← slotValue cmd 9 "bt".toList stoll 250
      let bw ← slotValue cmd 7 "bw".toList stoi 10000
      let delay ← slotValue cmd 5 "delay".toList stoll 1
      let lossRate ← slotValue cmd 3 "lossRate".toList F.stod 0
      let nodeA ← stoi (arg cmd 1)
      let nodeB ← stoi (arg cmd 2)
      return (nodeA, nodeB, ⟨lossRate, delay, bw, bt⟩) := by
  unfold edgeArgs
  rw [edgeOption_eq (d := 250) rfl]
  cases slotValue cmd 9 "bt".toList stoll 250 with
  | none => rfl
  | some bt =>
      simp only [Option.map_some, Option.bind_eq_bind, Option.bind_some]
      rw [edgeOption_eq (d := 10000) rfl]
      cases slotValue cmd 7 "bw".toList stoi 10000 with
      | none => rfl
      | some bw =>
          simp only [Option.map_some, Option.bind_some]
          rw [edgeOption_eq (d := 1) rfl]
          cases slotValue cmd 5 "delay".toList stoll 1 with
          | none => rfl
          | some delay =>
              simp only [Option.map_some, Option.bind_some]
              rw [edgeOption_eq (d := 0) rfl]
              cases slotValue cmd 3 "lossRate".toList F.stod 0 <;> rfl

theorem edgeArgs_eq_some {nodeA nodeB : Int} {options : EdgeOptions δ} :
    edgeArgs F cmd = some (nodeA, nodeB, options) ↔
      cmd.length ∈ [3, 5, 7, 9, 11] ∧
      slotValue cmd 9 "bt".toList stoll 250 = some options.bufferingMs ∧
      slotValue cmd 7 "bw".toList stoi 10000 = some options.bwBytesPerSec ∧
      slotValue cmd 5 "delay".toList stoll 1 = some options.delayMs ∧
      slotValue cmd 3 "lossRate".toList F.stod 0 = some options.lossRate ∧
      stoi (arg cmd 1) = some nodeA ∧ stoi (arg cmd 2) = some nodeB := by
  rw [edgeArgs_eq]
  obtain ⟨lossRate, delay, bw, bt⟩ := options
  by_cases hlength : cmd.length ∈ [3, 5, 7, 9, 11]
  · simp only [hlength, guard_true, Option.bind_eq_bind, Option.pure_def, Option.bind_some,
      Option.bind_eq_some_iff, Option.some.injEq, Prod.mk.injEq, EdgeOptions.mk.injEq, true_and]
    constructor
    · rintro ⟨bt, hbt, bw, hbw, delay, hdelay, lossRate, hloss, a, ha, b, hb, rfl, rfl, rfl, rfl,
        rfl, rfl⟩
      exact ⟨hbt, hbw, hdelay, hloss, ha, hb⟩
    · rintro ⟨hbt, hbw, hdelay, hloss, ha, hb⟩
      exact ⟨bt, hbt, bw, hbw, delay, hdelay, lossRate, hloss, _, ha, _, hb, rfl, rfl, rfl, rfl,
        rfl, rfl⟩
  · simp [hlength, guard_false]

theorem edgeArgs_eq_none : edgeArgs F cmd = none ↔ Unreadable F cmd := by
  rw [edgeArgs_eq]
  unfold Unreadable
  by_cases hlength : cmd.length ∈ [3, 5, 7, 9, 11]
  · rw [← slotValue_eq_none (d := (0 : δ)), ← slotValue_eq_none (i := 5) (d := 1),
      ← slotValue_eq_none (i := 7) (d := 10000), ← slotValue_eq_none (i := 9) (d := 250)]
    cases slotValue cmd 9 "bt".toList stoll 250 <;>
      cases slotValue cmd 7 "bw".toList stoi 10000 <;>
      cases slotValue cmd 5 "delay".toList stoll 1 <;>
      cases slotValue cmd 3 "lossRate".toList F.stod 0 <;>
      cases stoi (arg cmd 1) <;> cases stoi (arg cmd 2) <;> simp [hlength]
  · simp [hlength]

theorem parseEdge_eq_error (hedge : arg cmd 0 = "edge".toList) (h : Unreadable F cmd) :
    parseEdge F cmd = some [.error "Error parsing edge command: ".toList cmd] := by
  rw [parseEdge, if_neg (not_not.mpr hedge), edgeArgs_eq_none.mpr h]

theorem parseEdge_of_edgeArgs (hedge : arg cmd 0 = "edge".toList) {nodeA nodeB : Int}
    {options : EdgeOptions δ} (h : edgeArgs F cmd = some (nodeA, nodeB, options)) :
    parseEdge F cmd = some [.createNewEdge nodeA nodeB options] := by
  rw [parseEdge, if_neg (not_not.mpr hedge), h]

/-! ### Another token in a place -/

theorem arg_set_ne {i j : ℕ} (h : i ≠ j) (w : Str) : arg (cmd.set j w) i = arg cmd i := by
  simp [arg, List.getD_eq_getElem?_getD, List.getElem?_set_ne (Ne.symm h)]

theorem arg_set_self {i : ℕ} (h : i < cmd.length) (w : Str) : arg (cmd.set i w) i = w := by
  simp [arg, List.getD_eq_getElem?_getD, h]

/-- A token has no influence on an option unless it is its keyword or the value behind it. -/
theorem slotValue_set {α : Type} {i j : ℕ} {keyword : Str} {parse : Str → Option α} {d : α}
    (hi : j ≠ i) (hvalue : j = i + 1 → arg cmd i ≠ keyword) (w : Str) :
    slotValue (cmd.set j w) i keyword parse d = slotValue cmd i keyword parse d := by
  unfold slotValue
  rw [List.length_set, arg_set_ne (Ne.symm hi)]
  split_ifs with h
  · have hne : i + 1 ≠ j := by
      rintro rfl
      exact hvalue rfl h.2
    rw [arg_set_ne hne]
  · rfl

/-- In a line that is accepted, what stands behind a word that is not the keyword of its place is
ignored. -/
theorem ignored_of_not_keyword (hread : ¬ Unreadable F cmd) {slot : ℕ × Str}
    (hslot : slot ∈ edgeSlots) (hne : arg cmd slot.1 ≠ slot.2) : Ignored F cmd (slot.1 + 1) := by
  intro w
  have hargs : edgeArgs F (cmd.set (slot.1 + 1) w) = edgeArgs F cmd := by
    rw [edgeArgs_eq, edgeArgs_eq, List.length_set]
    simp only [edgeSlots, List.mem_cons, List.not_mem_nil, or_false] at hslot
    obtain rfl | rfl | rfl | rfl := hslot
    all_goals
      rw [slotValue_set (by simp) (by simp_all) w, slotValue_set (by simp) (by simp_all) w,
        slotValue_set (by simp) (by simp_all) w, slotValue_set (by simp) (by simp_all) w,
        arg_set_ne (by simp) w, arg_set_ne (by simp) w]
  unfold parseEdge
  rw [arg_set_ne (by omega) w, hargs]
  cases h : edgeArgs F cmd with
  | none => exact absurd (edgeArgs_eq_none.mp h) hread
  | some args => rfl

omit [Zero δ] in
theorem unreadable_set_nil (hstod : F.stod [] = none) (hlength : cmd.length ∈ [3, 5, 7, 9, 11])
    (horder : InOrder cmd) {i : ℕ} (hi : i < cmd.length) (hnumber : i = 1 ∨ 0 < i ∧ i % 2 = 0) :
    Unreadable F (cmd.set i []) := by
  have hstoi : stoi [] = none := rfl
  have hstoll : stoll [] = none := rfl
  have hbad : ∀ {α : Type} {parse : Str → Option α} (slot : ℕ × Str), slot ∈ edgeSlots →
      parse [] = none → i = slot.1 + 1 → BadValue (cmd.set i []) slot.1 slot.2 parse := by
    rintro α parse slot hslot hparse rfl
    refine ⟨by rwa [List.length_set], ?_, ?_⟩
    · rw [arg_set_ne (by omega)]
      exact horder slot hslot (by omega)
    · rw [arg_set_self hi, hparse]
  have hcases : i = 1 ∨ i = 2 ∨ i = 4 ∨ i = 6 ∨ i = 8 ∨ i = 10 := by
    simp only [List.mem_cons, List.not_mem_nil, or_false] at hlength
    omega
  unfold Unreadable
  obtain rfl | rfl | rfl | rfl | rfl | rfl := hcases
  · exact .inr (.inl (by rw [arg_set_self hi, hstoi]))
  · exact .inr (.inr (.inl (by rw [arg_set_self hi, hstoi])))
  · exact .inr (.inr (.inr (.inl (hbad (3, "lossRate".toList) (by simp [edgeSlots]) hstod rfl))))
  · exact .inr (.inr (.inr (.inr (.inl
      (hbad (5, "delay".toList) (by simp [edgeSlots]) hstoll rfl)))))
  · exact .inr (.inr (.inr (.inr (.inr (.inl
      (hbad (7, "bw".toList) (by simp [edgeSlots]) hstoi rfl))))))
  · exact .inr (.inr (.inr (.inr (.inr (.inr
      (hbad (9, "bt".toList) (by simp [edgeSlots]) hstoll rfl))))))

/-- So no number of a line with its keywords in order is ignored. -/
theorem not_ignored_of_inOrder (hstod : F.stod [] = none) (hedge : arg cmd 0 = "edge".toList)
    (hread : ¬ Unreadable F cmd) (horder : InOrder cmd) {i : ℕ} (hi : i < cmd.length)
    (hnumber : i = 1 ∨ i % 2 = 0) : ¬ Ignored F cmd i := by
  intro hignored
  obtain ⟨⟨nodeA, nodeB, options⟩, hargs⟩ :=
    Option.ne_none_iff_exists'.mp (mt edgeArgs_eq_none.mp hread)
  have hsame := (hignored []).trans (parseEdge_of_edgeArgs hedge hargs)
  obtain rfl | hpos := Nat.eq_zero_or_pos i
  · -- without its first word it is no `edge` command
    rw [parseEdge, arg_set_self hi, if_pos (by decide)] at hsame
    cases hsame
  · have hlength : cmd.length ∈ [3, 5, 7, 9, 11] := by
      by_contra hnot
      exact hread (.inl hnot)
    have hunread := unreadable_set_nil hstod hlength horder hi (by omega)
    have hfirst : arg (cmd.set i []) 0 = "edge".toList := by rw [arg_set_ne (by omega), hedge]
    rw [parseEdge_eq_error hfirst hunread] at hsame
    cases hsame

theorem eq_flatMap_pairs {n : ℕ} {l : List Str} (h : l.length = 2 * n) :
    l = (List.range n).flatMap fun j => [l.getD (2 * j) [], l.getD (2 * j + 1) []] := by
  induction n generalizing l with
  | zero =>
      rw [List.length_eq_zero_iff.mp h]
      rfl
  | succ n ih =>
      obtain _ | ⟨a, _ | ⟨b, l⟩⟩ := l
      · simp at h
      · simp at h
        omega
      · have hl : l.length = 2 * n := by
          simp only [List.length_cons] at h
          omega
        rw [List.range_succ_eq_map, List.flatMap_cons, List.flatMap_map]
        simpa [Nat.mul_succ, Nat.add_right_comm] using ih hl

theorem options_of_inOrder {nodeA nodeB : Int} {options : EdgeOptions δ}
    (hargs : edgeArgs F cmd = some (nodeA, nodeB, options)) (horder : InOrder cmd) :
    ∃ pairs : List (Str × Str), cmd.drop 3 = pairs.flatMap (fun p => [p.1, p.2]) ∧
      (∀ p ∈ pairs, SetTo F options p.1 p.2) ∧ DefaultsBut (pairs.map Prod.fst) options := by
  obtain ⟨hlength, hbt, hbw, hdelay, hloss, -, -⟩ := edgeArgs_eq_some.mp hargs
  obtain ⟨n, hn, hn4⟩ : ∃ n, cmd.length = 3 + 2 * n ∧ n ≤ 4 := by
    refine ⟨(cmd.length - 3) / 2, ?_, ?_⟩ <;>
      simp only [List.mem_cons, List.not_mem_nil, or_false] at hlength <;> omega
  -- an option is the value behind its keyword if the line is long enough, and else the default
  have hset : ∀ {α : Type} {parse : Str → Option α} {d v : α} (slot : ℕ × Str), slot ∈ edgeSlots →
      slot.1 + 1 < cmd.length → slotValue cmd slot.1 slot.2 parse d = some v →
        arg cmd slot.1 = slot.2 ∧ parse (arg cmd (slot.1 + 1)) = some v := by
    intro α parse d v slot hslot hlt hvalue
    have hkeyword := horder slot hslot (by omega)
    rw [slotValue, if_pos ⟨hlt, hkeyword⟩] at hvalue
    exact ⟨hkeyword, hvalue⟩
  have hdefault : ∀ {α : Type} {parse : Str → Option α} {d v : α} {i : ℕ} {keyword : Str},
      cmd.length ≤ i + 1 → slotValue cmd i keyword parse d = some v → v = d := by
    intro α parse d v i keyword hle hvalue
    rw [slotValue, if_neg (by omega)] at hvalue
    exact (Option.some.inj hvalue).symm
  refine ⟨(List.range n).map fun j => (arg cmd (3 + 2 * j), arg cmd (4 + 2 * j)), ?_, ?_, ?_⟩
  · rw [List.flatMap_map]
    have hdrop := eq_flatMap_pairs (n := n) (l := cmd.drop 3) (by rw [List.length_drop]; omega)
    refine hdrop.trans (congrArg (fun f => (List.range n).flatMap f) (funext fun j => ?_))
    simp only [arg, List.getD_eq_getElem?_getD, List.getElem?_drop]
    rw [show 3 + (2 * j + 1) = 4 + 2 * j by omega]
  · simp only [List.mem_map, List.mem_range]
    rintro p ⟨j, hj, rfl⟩
    obtain rfl | rfl | rfl | rfl : j = 0 ∨ j = 1 ∨ j = 2 ∨ j = 3 := by omega
    · exact .inl (hset (3, "lossRate".toList) (by simp [edgeSlots]) (by simp; omega) hloss)
    · exact .inr (.inl (hset (5, "delay".toList) (by simp [edgeSlots]) (by simp; omega) hdelay))
    · exact .inr (.inr (.inl (hset (7, "bw".toList) (by simp [edgeSlots]) (by simp; omega) hbw)))
    · exact .inr (.inr (.inr (hset (9, "bt".toList) (by simp [edgeSlots]) (by simp; omega) hbt)))
  · have hshort : ∀ {j : ℕ} {keyword : Str}, (3 + 2 * j, keyword) ∈ edgeSlots →
        keyword ∉ ((List.range n).map fun j => (arg cmd (3 + 2 * j), arg cmd (4 + 2 * j))).map
          Prod.fst → cmd.length ≤ 3 + 2 * j + 1 := by
      intro j keyword hslot hmissing
      by_contra hlong
      apply hmissing
      rw [List.map_map, List.mem_map]
      exact ⟨j, List.mem_range.mpr (by omega), horder _ hslot (by simp; omega)⟩
    constructor
    · exact fun h => hdefault (hshort (j := 0) (by simp [edgeSlots]) h) hloss
    · exact fun h => hdefault (hshort (j := 1) (by simp [edgeSlots]) h) hdelay
    · exact fun h => hdefault (hshort (j := 2) (by simp [edgeSlots]) h) hbw
    · exact fun h => hdefault (hshort (j := 3) (by simp [edgeSlots]) h) hbt

/-- **Which `edge` lines are honoured**: those that are refused, and those that have each keyword in
the place at which the parser looks for it. -/
theorem edge_line_honoured_iff (hstod : F.stod [] = none) (hedge : arg cmd 0 = "edge".toList) :
    HonoursLine F cmd ↔ Unreadable F cmd ∨ InOrder cmd := by
  by_cases hread : Unreadable F cmd
  · exact ⟨fun _ => .inl hread, fun _ => .inl (parseEdge_eq_error hedge hread)⟩
  obtain ⟨⟨nodeA, nodeB, options⟩, hargs⟩ :=
    Option.ne_none_iff_exists'.mp (mt edgeArgs_eq_none.mp hread)
  have hparse := parseEdge_of_edgeArgs hedge hargs
  constructor
  · rintro (herror | ⟨_, _, _, -, hhonoured⟩)
    · rw [hparse] at herror
      cases herror
    · right
      intro slot hslot hlt
      by_contra hne
      -- the value of the place is ignored
      have heven : (slot.1 + 1) % 2 = 0 := by
        simp only [edgeSlots, List.mem_cons, List.not_mem_nil, or_false] at hslot
        obtain rfl | rfl | rfl | rfl := hslot <;> rfl
      have hlength : cmd.length % 2 = 1 := by
        have hmem := (edgeArgs_eq_some.mp hargs).1
        simp only [List.mem_cons, List.not_mem_nil, or_false] at hmem
        omega
      exact hhonoured.used (slot.1 + 1) (by omega) (.inr heven)
        (ignored_of_not_keyword hread hslot hne)
  · intro h
    have horder := h.resolve_left hread
    obtain ⟨-, -, -, -, -, hA, hB⟩ := edgeArgs_eq_some.mp hargs
    exact .inr ⟨nodeA, nodeB, options, hparse, hA, hB, options_of_inOrder hargs horder,
      fun i hi hnumber => not_ignored_of_inOrder hstod hedge hread horder hi hnumber⟩

end args

/-- A delay and a bandwidth in their places behind a loss rate. -/
theorem edge_line_honoured_in_order :
    HonoursLine Floats.whole
      (["edge", "0", "1", "lossRate", "0", "delay", "20", "bw", "9000"].map String.toList) :=
  (edge_line_honoured_iff rfl rfl).mpr (.inr (by simp [InOrder, edgeSlots, arg]))

/-- A delay without a loss rate is passed over: the edge has the default delay. -/
theorem edge_line_delay_ignored :
    ¬ HonoursLine Floats.whole (splitSpaces "edge 0 1 delay 20".toList) ∧
      parseEdge Floats.whole (splitSpaces "edge 0 1 delay 20".toList) =
        some [.createNewEdge 0 1 .new] := by
  have hparse : parseEdge Floats.whole (splitSpaces "edge 0 1 delay 20".toList) =
      some [.createNewEdge 0 1 .new] := by decide
  refine ⟨?_, hparse⟩
  rintro (herror | ⟨nodeA, nodeB, options, hedge, hhonoured⟩)
  · rw [hparse] at herror
    cases herror
  · obtain rfl : options = .new := by
      rw [hparse] at hedge
      have hargs : nodeA = 0 ∧ nodeB = 1 ∧ options = .new := by simpa using hedge.symm
      exact hargs.2.2
    obtain ⟨pairs, hpairs, hset, -⟩ := hhonoured.options
    have hdrop : (splitSpaces "edge 0 1 delay 20".toList).drop 3 =
        ["delay".toList, "20".toList] := by decide
    rw [hdrop] at hpairs
    cases pairs with
    | nil => simp at hpairs
    | cons p pairs =>
        obtain ⟨keyword, value⟩ := p
        obtain ⟨rfl, rfl, -⟩ : "delay".toList = keyword ∧ "20".toList = value ∧
            [] = pairs.flatMap fun p => [p.1, p.2] := by simpa using hpairs
        -- the value on the line is not the one that the edge has
        have hdelay := hset _ List.mem_cons_self
        revert hdelay
        unfold SetTo
        decide

end CommandsParser

end NetBridge
