/-
Printed traces, read back.

A frame is printed as a line with its number and symbol, and a line with its place behind that if the place is known
(`PrintedFrame`, `PrintedPlace`). Each line may be indented in any way. A symbol may hold anything that stands in one
line and has no blank at either end, a path anything that stands in one line and does not begin with a blank: colons,
numbers and the mark between number and symbol included.
- `readLine_numbered`, `readLine_place`: what one line does to the frames read so far.
- `parse_printed`: a printed trace is read back.
-/
import Mathlib.Data.List.DropRight
import Mathlib.Tactic
import LogRelay.Proofs.Text.Natural
import LogRelay.Proofs.Text.Split
import LogRelay.Trace

namespace LogRelay

/-! ## Texts -/

namespace Text

theorem isBlank_of_isDigit {c : Char} (h : c.isDigit = true) : isBlank c = false := by
  have hrange : 48 ≤ c.toNat ∧ c.toNat ≤ 57 := by
    rw [Char.isDigit, Bool.and_eq_true, decide_eq_true_eq, decide_eq_true_eq, ge_iff_le, UInt32.le_iff_toNat_le,
      UInt32.le_iff_toNat_le] at h
    exact h
  simp only [isBlank, blankRanges, List.any_cons, List.any_nil, Bool.or_false, Bool.or_eq_false_iff,
    Bool.and_eq_false_iff, decide_eq_false_iff_not]
  omega

/-- what begins and ends with no blank is left alone by trimming -/
theorem trim_eq_self {s : List Char} (hstart : ∀ c, s.head? = some c → isBlank c = false)
    (hend : ∀ c, s.getLast? = some c → isBlank c = false) : trim s = s := by
  have hhead : trimStart s = s := by
    cases s with
    | nil => rfl
    | cons c s => exact List.dropWhile_cons_of_neg (by rw [hstart c rfl]; exact Bool.false_ne_true)
  rw [trim, hhead]
  refine List.rdropWhile_eq_self_iff.2 fun hne => ?_
  rw [hend _ (List.getLast?_eq_some_getLast hne)]
  exact Bool.false_ne_true

/-- blanks before a text that begins with none are dropped -/
theorem trimStart_append {blanks : List Char} (h : ∀ c ∈ blanks, isBlank c = true) {c : Char} (hc : isBlank c = false)
    (s : List Char) : trimStart (blanks ++ c :: s) = c :: s := by
  rw [trimStart, List.dropWhile_append_of_pos h, List.dropWhile_cons_of_neg (by rw [hc]; exact Bool.false_ne_true)]

end Text

namespace Trace

open Text

/-! ## Printed frames -/

/-- the place of a frame as it is printed -/
structure PrintedPlace where
  indent : List Char
  path : List Char
  line : Nat
  column : Nat
  indent_blank : ∀ c ∈ indent, isBlank c = true
  indent_line : '\n' ∉ indent
  path_line : '\n' ∉ path
  path_start : ∀ c, path.head? = some c → isBlank c = false
  line_lt : line < UInt32.size
  column_lt : column < UInt32.size

/-- a frame as it is printed: its number, its symbol and its place -/
structure PrintedFrame where
  indent : List Char
  index : List Char
  symbol : List Char
  place : Option PrintedPlace
  indent_blank : ∀ c ∈ indent, isBlank c = true
  indent_line : '\n' ∉ indent
  index_ne_nil : index ≠ []
  index_digits : ∀ c ∈ index, c.isDigit = true
  symbol_line : '\n' ∉ symbol
  symbol_start : ∀ c, symbol.head? = some c → isBlank c = false
  symbol_end : ∀ c, symbol.getLast? = some c → isBlank c = false

/-- `path:line:column` -/
def PrintedPlace.spot (p : PrintedPlace) : List Char :=
  p.path ++ ':' :: (toString p.line).toList ++ ':' :: (toString p.column).toList

def PrintedPlace.text (p : PrintedPlace) : List Char := p.indent ++ ("at ".toList ++ p.spot)

namespace PrintedFrame

/-- the line with number and symbol -/
def numbered (f : PrintedFrame) : List Char := f.indent ++ (f.index ++ (": ".toList ++ f.symbol))

def lines (f : PrintedFrame) : List (List Char) := f.numbered :: (f.place.map PrintedPlace.text).toList

def frame (f : PrintedFrame) : Frame := ⟨f.symbol, f.place.map fun p => (p.path, p.line)⟩

end PrintedFrame

/-- a trace as it is printed, with a line feed behind each line -/
def printed (fs : List PrintedFrame) : List Char := (fs.flatMap PrintedFrame.lines).flatMap fun l => l ++ ['\n']

/-! ## One line -/

theorem number?_digits {n : Nat} (h : n < UInt32.size) : number? (toString n).toList = some n := natural?_digits h

/-- a place ends with a digit -/
theorem PrintedPlace.isDigit_of_spot_end {p : PrintedPlace} {c : Char} (h : p.spot.getLast? = some c) :
    c.isDigit = true := by
  rw [spot, List.getLast?_append_of_ne_nil _ (List.cons_ne_nil _ _),
    List.getLast?_cons_of_ne_nil (toString_ne_nil p.column)] at h
  exact isDigit_toString p.column c (List.mem_of_getLast? h)

theorem location?_spot (p : PrintedPlace) : location? p.spot = some (p.path, p.line) := by
  have hstart : ∀ c, p.spot.head? = some c → isBlank c = false := by
    intro c hc
    cases hpath : p.path with
    | nil =>
      rw [PrintedPlace.spot, hpath] at hc
      cases hc
      rfl
    | cons d ds =>
      refine p.path_start c ?_
      rw [PrintedPlace.spot, hpath] at hc
      rw [hpath]
      exact hc
  have hend : ∀ c, p.spot.getLast? = some c → isBlank c = false :=
    fun c hc => isBlank_of_isDigit (PrintedPlace.isDigit_of_spot_end hc)
  have hcolumn : breakLast? [':'] p.spot =
      some (p.path ++ ':' :: (toString p.line).toList, (toString p.column).toList) :=
    breakLast?_append (not_mem_digits (isDigit_toString p.column) rfl) _
  have hline : breakLast? [':'] (p.path ++ ':' :: (toString p.line).toList) = some (p.path, (toString p.line).toList) :=
    breakLast?_append (not_mem_digits (isDigit_toString p.line) rfl) _
  rw [location?, trim_eq_self hstart hend, hcolumn]
  simp only [Option.bind_eq_bind, Option.bind_some, number?_digits p.column_lt, hline, number?_digits p.line_lt]
  rfl

theorem readLine_numbered (frames : List Frame) (f : PrintedFrame) :
    readLine frames f.numbered = ⟨f.symbol, none⟩ :: frames := by
  have hdigits : f.index.all Char.isDigit = true := List.all_eq_true.2 f.index_digits
  have hindex : f.index.isEmpty = false := List.isEmpty_eq_false_iff.2 f.index_ne_nil
  obtain ⟨d, ds, hds⟩ := List.exists_cons_of_ne_nil f.index_ne_nil
  have hd : d.isDigit = true := f.index_digits d (by rw [hds]; exact List.mem_cons_self)
  have htrim : trimStart f.numbered = f.index ++ (": ".toList ++ f.symbol) := by
    rw [PrintedFrame.numbered, hds]
    exact trimStart_append f.indent_blank (isBlank_of_isDigit hd) _
  have hat : afterPrefix? "at ".toList (f.index ++ (": ".toList ++ f.symbol)) = none := by
    refine if_neg fun hprefix => ?_
    obtain ⟨t, ht⟩ := List.isPrefixOf_iff_prefix.1 hprefix
    rw [hds] at ht
    obtain ⟨rfl, -⟩ := List.cons.inj ht
    exact absurd hd (by decide)
  have hclear : Clear ": ".toList f.index := clear_of_not_mem rfl (not_mem_digits f.index_digits rfl)
  have hcut : breakAt? ": ".toList (f.index ++ (": ".toList ++ f.symbol)) = some (f.index, f.symbol) :=
    breakAt?_append (by decide) hclear f.symbol
  rw [readLine]
  simp only [htrim, hat, hcut, hindex, hdigits, Bool.not_false, Bool.and_self, if_true,
    trim_eq_self f.symbol_start f.symbol_end]

theorem readLine_place (symbol : List Char) (frames : List Frame) (p : PrintedPlace) :
    readLine (⟨symbol, none⟩ :: frames) p.text = ⟨symbol, some (p.path, p.line)⟩ :: frames := by
  have htrim : trimStart p.text = "at ".toList ++ p.spot := trimStart_append p.indent_blank rfl _
  rw [readLine]
  simp only [htrim, afterPrefix?_append, place, Option.isNone_none, if_true, location?_spot]

/-! ## All lines -/

theorem foldl_lines (frames : List Frame) (f : PrintedFrame) : f.lines.foldl readLine frames = f.frame :: frames := by
  rw [PrintedFrame.lines, List.foldl_cons, readLine_numbered, PrintedFrame.frame]
  cases f.place with
  | none => rfl
  | some p => exact readLine_place f.symbol frames p

theorem foldl_flatMap_lines (fs : List PrintedFrame) (frames : List Frame) :
    (fs.flatMap PrintedFrame.lines).foldl readLine frames = (fs.map PrintedFrame.frame).reverse ++ frames := by
  induction fs generalizing frames with
  | nil => rfl
  | cons f fs ih =>
    rw [List.flatMap_cons, List.foldl_append, foldl_lines, ih, List.map_cons, List.reverse_cons, List.append_assoc,
      List.singleton_append]

/-! ## Lines as they stand in the text -/

theorem PrintedFrame.feed_not_mem_numbered (f : PrintedFrame) : '\n' ∉ f.numbered := by
  have hindex : '\n' ∉ f.index := not_mem_digits f.index_digits rfl
  simp [numbered, f.indent_line, f.symbol_line, hindex]

theorem PrintedPlace.feed_not_mem_text (p : PrintedPlace) : '\n' ∉ p.text := by
  have hline : '\n' ∉ Nat.toDigits 10 p.line := not_mem_digits (isDigit_toDigits p.line) rfl
  have hcolumn : '\n' ∉ Nat.toDigits 10 p.column := not_mem_digits (isDigit_toDigits p.column) rfl
  simp [text, spot, p.indent_line, p.path_line, hline, hcolumn]

theorem PrintedFrame.numbered_end (f : PrintedFrame) : f.numbered.getLast? ≠ some '\r' := by
  intro hlast
  rw [numbered, List.getLast?_append_of_ne_nil _ (by simp), List.getLast?_append_of_ne_nil _ (by simp)] at hlast
  cases hsymbol : f.symbol with
  | nil =>
    rw [hsymbol] at hlast
    exact absurd hlast (by decide)
  | cons c cs =>
    rw [List.getLast?_append_of_ne_nil _ (by simp [hsymbol])] at hlast
    exact absurd (f.symbol_end '\r' hlast) (by decide)

theorem PrintedPlace.text_end (p : PrintedPlace) : p.text.getLast? ≠ some '\r' := by
  intro hlast
  have hspot : p.spot ≠ [] := by simp [spot]
  rw [text, ← List.append_assoc, List.getLast?_append_of_ne_nil _ hspot] at hlast
  exact absurd (isDigit_of_spot_end hlast) (by decide)

/-- a line of a frame holds no line feed and ends with no carriage return -/
theorem PrintedFrame.line_ok {f : PrintedFrame} {l : List Char} (h : l ∈ f.lines) :
    '\n' ∉ l ∧ l.getLast? ≠ some '\r' := by
  rcases List.mem_cons.1 h with rfl | hplace
  · exact ⟨f.feed_not_mem_numbered, f.numbered_end⟩
  · obtain ⟨p, -, rfl⟩ := Option.map_eq_some_iff.1 (Option.mem_toList.1 hplace)
    exact ⟨p.feed_not_mem_text, p.text_end⟩

theorem lines_printed (fs : List PrintedFrame) : Text.lines (printed fs) = fs.flatMap PrintedFrame.lines := by
  refine lines_flatMap (fun l hl => ?_) (fun l hl => ?_)
  all_goals
    obtain ⟨f, -, hmem⟩ := List.mem_flatMap.1 hl
  · exact (PrintedFrame.line_ok hmem).1
  · exact (PrintedFrame.line_ok hmem).2

/-! ## The trace -/

/-- **A printed trace is read back.** Each frame comes with its symbol, and with its path and line where they were
printed. -/
theorem parse_printed (fs : List PrintedFrame) : parse (printed fs) = fs.map PrintedFrame.frame := by
  calc parse (printed fs)
      = ((fs.flatMap PrintedFrame.lines).foldl readLine []).reverse := by rw [parse, lines_printed]
    _ = ((fs.map PrintedFrame.frame).reverse ++ []).reverse := by rw [foldl_flatMap_lines]
    _ = fs.map PrintedFrame.frame := by rw [List.append_nil, List.reverse_reverse]

/-- a symbol that begins like a place and holds the mark, and a path with the mark, colons and numbers -/
def oddFrame : PrintedFrame where
  indent := "   ".toList
  index := "12".toList
  symbol := "at app: 3: main".toList
  place := some {
    indent := "\t".toList
    path := "C:\\a: 7:9".toList
    line := 42
    column := 5
    indent_blank := List.all_eq_true.1 rfl
    indent_line := by decide
    path_line := by decide
    path_start := fun _ h => by cases h; rfl
    line_lt := by decide
    column_lt := by decide }
  indent_blank := List.all_eq_true.1 rfl
  indent_line := by decide
  index_ne_nil := by decide
  index_digits := List.all_eq_true.1 rfl
  symbol_line := by decide
  symbol_start := fun _ h => by cases h; rfl
  symbol_end := fun _ h => by cases h; rfl

example : printed [oddFrame] = "   12: at app: 3: main\n\tat C:\\a: 7:9:42:5\n".toList ∧
    parse (printed [oddFrame]) = [⟨"at app: 3: main".toList, some ("C:\\a: 7:9".toList, 42)⟩] := by
  constructor <;> decide +kernel

end Trace

end LogRelay
