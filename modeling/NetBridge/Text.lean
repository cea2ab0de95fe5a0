import Mathlib.Data.List.DropRight
import Mathlib.Data.List.TakeDrop
import Mathlib.Tactic.Common

/-! # Text

A `std::string` is the list of its characters (`Str`).  This module has what the text protocols of
the program share: decimal numbers as `operator<<` prints them and `std::stoi`/`std::stoll` read
them, and the reassembly of lines from a stream that arrives in pieces.

For the latter, `lines sep s` are the complete lines of a stream and `rest sep s` is what follows
the last separator.  `drain` is the loop that takes one line after another off a buffer, and `feed`
runs it on a buffer to which a piece has been added; since the lines of a stream are those of a
part of it and those of what is left over with the remainder (`lines_append`), it does not matter
how the stream is cut. -/

namespace NetBridge

/-- A `std::string`. -/
abbrev Str := List Char

/-! ### Lines -/

section lines
variable {α σ : Type} [DecidableEq α] (sep : α)

/-- The complete lines of a stream, without their separators. -/
def lines (s : List α) : List (List α) := (s.splitOn sep).dropLast

/-- What follows the last separator. -/
def rest (s : List α) : List α := (s.splitOn sep).getLast (List.splitOn_ne_nil _ _)

variable {sep}

theorem lines_of_not_mem {s : List α} (h : sep ∉ s) : lines sep s = [] := by
  simp [lines, List.splitOn_eq_singleton h]

theorem rest_of_not_mem {s : List α} (h : sep ∉ s) : rest sep s = s := by
  simp [rest, List.splitOn_eq_singleton h]

theorem lines_append_cons {line : List α} (h : sep ∉ line) (s : List α) :
    lines sep (line ++ sep :: s) = line :: lines sep s := by
  simp [lines, List.splitOn_append_cons_self_of_not_mem h,
    List.dropLast_cons_of_ne_nil (List.splitOn_ne_nil _ _)]

theorem rest_append_cons {line : List α} (h : sep ∉ line) (s : List α) :
    rest sep (line ++ sep :: s) = rest sep s := by
  simp [rest, List.splitOn_append_cons_self_of_not_mem h, List.getLast_cons]

theorem line_cases (sep : α) (s : List α) :
    sep ∉ s ∨ ∃ line s', s = line ++ sep :: s' ∧ sep ∉ line := by
  by_cases h : sep ∈ s
  · obtain ⟨line, s', e, hline⟩ := List.eq_append_cons_of_mem h
    exact .inr ⟨line, s', e, hline⟩
  · exact .inl h

variable (sep) in
/-- Induction on a stream: line by line, and then what follows the last separator. -/
theorem line_induction {P : List α → Prop} (hrest : ∀ s, sep ∉ s → P s)
    (hline : ∀ line s, sep ∉ line → P s → P (line ++ sep :: s)) (s : List α) : P s := by
  induction hn : s.length using Nat.strong_induction_on generalizing s with
  | _ n ih =>
      obtain h | ⟨line, s', rfl, h⟩ := line_cases sep s
      · exact hrest s h
      · have hlt : s'.length < n := by
          rw [← hn]
          simp
          omega
        exact hline line s' h (ih s'.length hlt s' rfl)

theorem not_mem_rest (s : List α) : sep ∉ rest sep s := by
  induction s using line_induction sep with
  | hrest s h => rwa [rest_of_not_mem h]
  | hline line s h ih => rwa [rest_append_cons h]

theorem lines_append (s t : List α) :
    lines sep (s ++ t) = lines sep s ++ lines sep (rest sep s ++ t) ∧
      rest sep (s ++ t) = rest sep (rest sep s ++ t) := by
  induction s using line_induction sep with
  | hrest s h =>
      rw [lines_of_not_mem h, rest_of_not_mem h]
      exact ⟨rfl, rfl⟩
  | hline line s h ih =>
      rw [List.append_assoc, List.cons_append, lines_append_cons h, lines_append_cons h,
        rest_append_cons h, rest_append_cons h, ih.1]
      exact ⟨rfl, ih.2⟩

theorem lines_flatMap {ls : List (List α)} (h : ∀ line ∈ ls, sep ∉ line) :
    lines sep (ls.flatMap (· ++ [sep])) = ls ∧ rest sep (ls.flatMap (· ++ [sep])) = [] := by
  induction ls with
  | nil => exact ⟨rfl, rfl⟩
  | cons line ls ih =>
      have hline := h line List.mem_cons_self
      obtain ⟨h1, h2⟩ := ih fun l hl => h l (List.mem_cons_of_mem _ hl)
      rw [List.flatMap_cons, List.append_assoc, List.singleton_append, lines_append_cons hline,
        rest_append_cons hline, h1, h2]
      exact ⟨rfl, rfl⟩

/-- The loop that takes complete lines off the front of a buffer and handles each.  Every round
shortens the buffer, so `buf.length` rounds are enough. -/
def drain (sep : α) (handle : σ → List α → σ) : ℕ → List α → σ → List α × σ
  | 0, buf, s => (buf, s)
  | rounds + 1, buf, s =>
      match buf.span (· ≠ sep) with
      | (_, []) => (buf, s)
      | (line, _ :: buf) => drain sep handle rounds buf (handle s line)

theorem drain_eq (handle : σ → List α → σ) {rounds : ℕ} {buf : List α} (h : buf.length ≤ rounds)
    (s : σ) : drain sep handle rounds buf s = (rest sep buf, (lines sep buf).foldl handle s) := by
  have hall : ∀ {line : List α}, sep ∉ line → ∀ x ∈ line, decide (x ≠ sep) = true := by
    intro line hline x hx
    rw [decide_eq_true_iff]
    rintro rfl
    exact hline hx
  induction rounds generalizing buf s with
  | zero =>
      obtain rfl : buf = [] := List.length_eq_zero_iff.mp (Nat.le_zero.mp h)
      rfl
  | succ rounds ih =>
      obtain hnot | ⟨line, buf', rfl, hline⟩ := line_cases sep buf
      · have hspan : buf.span (· ≠ sep) = (buf, []) := by
          rw [List.span_eq_takeWhile_dropWhile, List.takeWhile_eq_self_iff.mpr (hall hnot),
            List.dropWhile_eq_nil_iff.mpr (hall hnot)]
        rw [drain, hspan, rest_of_not_mem hnot, lines_of_not_mem hnot]
        rfl
      · have hspan : (line ++ sep :: buf').span (· ≠ sep) = (line, sep :: buf') := by
          rw [List.span_eq_takeWhile_dropWhile, List.takeWhile_append_of_pos (hall hline),
            List.dropWhile_append_of_pos (hall hline)]
          simp
        have hlen : buf'.length ≤ rounds := by
          simp at h
          omega
        rw [drain, hspan, rest_append_cons hline, lines_append_cons hline]
        exact ih hlen (handle s line)

/-- A buffer that is given the next piece of a stream. -/
def feed (sep : α) (handle : σ → List α → σ) (bs : List α × σ) (piece : List α) : List α × σ :=
  drain sep handle (bs.1 ++ piece).length (bs.1 ++ piece) bs.2

/-- Every complete line is handled, and the rest stays. -/
theorem feed_eq (handle : σ → List α → σ) (buf : List α) (s : σ) (piece : List α) :
    feed sep handle (buf, s) piece =
      (rest sep (buf ++ piece), (lines sep (buf ++ piece)).foldl handle s) :=
  drain_eq handle le_rfl s

end lines

/-! ### Decimal numbers -/

/-- `operator<<` and `std::to_string` on an integer. -/
def printInt : Int → Str
  | .ofNat n => Nat.toDigits 10 n
  | .negSucc n => '-' :: Nat.toDigits 10 (n + 1)

/-- `std::isspace` in the default locale. -/
def isSpace (c : Char) : Bool := c ∈ [' ', '\t', '\n', '\x0b', '\x0c', '\r']

/-- The number that `strtoll` finds at the start of a text, before the check of its range: white
space, a sign, digits; what follows is not looked at. -/
def strtoll (s : Str) : Option Int :=
  match s.dropWhile isSpace with
  | '-' :: s => (number s).map fun n => -(n : Int)
  | '+' :: s => (number s).map fun n => (n : Int)
  | s => (number s).map fun n => (n : Int)
where
  /-- The digits at the start of a text. -/
  number (s : Str) : Option ℕ :=
    let digits := s.takeWhile Char.isDigit
    if digits.isEmpty then none else some (Nat.ofDigitChars 10 digits 0)

/-- `std::stoi`; `none` is an exception. -/
def stoi (s : Str) : Option Int :=
  (strtoll s).bind fun v => if -2147483648 ≤ v ∧ v ≤ 2147483647 then some v else none

/-- `std::stoll`. -/
def stoll (s : Str) : Option Int :=
  (strtoll s).bind fun v =>
    if -9223372036854775808 ≤ v ∧ v ≤ 9223372036854775807 then some v else none

theorem printInt_chars {n : Int} {c : Char} (h : c ∈ printInt n) : c = '-' ∨ c.isDigit = true := by
  cases n with
  | ofNat n => exact .inr (Nat.isDigit_of_mem_toDigits (by decide) (by decide) h)
  | negSucc n =>
      obtain rfl | h := List.mem_cons.mp h
      · exact .inl rfl
      · exact .inr (Nat.isDigit_of_mem_toDigits (by decide) (by decide) h)

theorem printInt_ne_nil (n : Int) : printInt n ≠ [] := by
  cases n with
  | ofNat n => exact Nat.toDigits_ne_nil
  | negSucc n => exact List.cons_ne_nil _ _

theorem not_mem_printInt {c : Char} (hsign : c ≠ '-') (hdigit : c.isDigit = false) (n : Int) :
    c ∉ printInt n := by
  intro h
  obtain e | e := printInt_chars h
  · exact hsign e
  · rw [hdigit] at e
    cases e

theorem number_toDigits (n : ℕ) : strtoll.number (Nat.toDigits 10 n) = some n := by
  have hall : ∀ c ∈ Nat.toDigits 10 n, c.isDigit = true :=
    fun c hc => Nat.isDigit_of_mem_toDigits (by decide) (by decide) hc
  simp [strtoll.number, List.takeWhile_eq_self_iff.mpr hall]

/-- What is printed is read back. -/
theorem strtoll_printInt (n : Int) : strtoll (printInt n) = some n := by
  cases n with
  | ofNat n =>
      have hnumber := number_toDigits n
      cases hdigits : Nat.toDigits 10 n with
      | nil => exact absurd hdigits Nat.toDigits_ne_nil
      | cons c cs =>
          -- the first character is a digit, so there is no white space and no sign to skip
          have hc : c.isDigit = true := by
            refine Nat.isDigit_of_mem_toDigits (b := 10) (n := n) (by decide) (by decide) ?_
            rw [hdigits]
            exact List.mem_cons_self
          have hne : ∀ d ∈ [' ', '\t', '\n', '\x0b', '\x0c', '\r', '-', '+'], c ≠ d := by
            intro d hd e
            have hdigit : ∀ d ∈ [' ', '\t', '\n', '\x0b', '\x0c', '\r', '-', '+'],
                d.isDigit = false := by simp
            have := hdigit d hd
            rw [← e, hc] at this
            cases this
          have hspace : isSpace c = false := by
            simp only [isSpace, decide_eq_false_iff_not]
            exact fun hmem => hne c (List.mem_append_left ['-', '+'] hmem) rfl
          have hdrop : (printInt (.ofNat n)).dropWhile isSpace = c :: cs := by
            rw [printInt, hdigits, List.dropWhile_cons_of_neg (by rw [hspace]; decide)]
          rw [strtoll, hdrop]
          rw [hdigits] at hnumber
          split
          · next h => exact absurd (List.cons.inj h).1 (hne '-' (by decide))
          · next h => exact absurd (List.cons.inj h).1 (hne '+' (by decide))
          · rw [hnumber]
            rfl
  | negSucc n =>
      have hdrop : (printInt (.negSucc n)).dropWhile isSpace = '-' :: Nat.toDigits 10 (n + 1) := rfl
      rw [strtoll, hdrop]
      simp only [number_toDigits]
      rfl

theorem stoi_printInt {n : Int} (h : -2147483648 ≤ n ∧ n ≤ 2147483647) :
    stoi (printInt n) = some n := by
  rw [stoi, strtoll_printInt, Option.bind_some, if_pos h]

theorem stoll_printInt {n : Int} (h : -9223372036854775808 ≤ n ∧ n ≤ 9223372036854775807) :
    stoll (printInt n) = some n := by
  rw [stoll, strtoll_printInt, Option.bind_some, if_pos h]

end NetBridge
