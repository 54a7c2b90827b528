import ClosedSwitch.CommandLine.Run
import Mathlib.Data.List.Basic
import Mathlib.Data.Prod.Lex

/-!
# Lines and columns of all offsets

The line of an offset is found by bisection, which needs the starts of the lines to
increase.  They do as long as the offsets after all newline bytes fit into 32 bits.  Then the
line counts the newline bytes below the offset, and the column counts the bytes from the
start of the line.  Only the largest offset in a text without newlines has no position.
-/

namespace ClosedSwitch

/-! ## What a position has to say -/

def textBytes (text : String) : List UInt8 := text.toUTF8.data.toList

/-- The number of newline bytes below an offset. -/
def newlinesBelow (bytes : List UInt8) (offset : Nat) : Nat := (bytes.take offset).count 10

/-- Where the line of an offset starts: at zero, or just after the last newline byte below
the offset. -/
inductive IsLineStart (bytes : List UInt8) (offset : Nat) : Nat → Prop
  | first (clear : ∀ i < offset, bytes[i]? ≠ some 10) : IsLineStart bytes offset 0
  | after {i : Nat} (below : i < offset) (newline : bytes[i]? = some 10)
      (clear : ∀ j, i < j → j < offset → bytes[j]? ≠ some 10) :
      IsLineStart bytes offset (i + 1)

/-- The position `p` is that of `offset` in the text. -/
structure Position.Marks (p : Position) (text : String) (offset : Nat) : Prop where
  line_eq : p.line = 1 + newlinesBelow (textBytes text) offset
  line_le : p.line ≤ (LineIndex.ofText text).lineCount
  line_past_end : text.utf8ByteSize ≤ offset → p.line = (LineIndex.ofText text).lineCount
  column_pos : 1 ≤ p.column
  column_eq : ∃ start, IsLineStart (textBytes text) offset start ∧
    (LineIndex.ofText text).starts[p.line - 1]? = some start ∧
    start + p.column - 1 = offset

theorem length_textBytes (text : String) : (textBytes text).length = text.utf8ByteSize := rfl

theorem newlinesBelow_mono (bytes : List UInt8) {a b : Nat} (h : a ≤ b) :
    newlinesBelow bytes a ≤ newlinesBelow bytes b :=
  (List.take_sublist_take_left h).count_le 10

theorem toOffset_of_le {n : Nat} (h : n ≤ maxOffset) : toOffset n = n :=
  Nat.mod_eq_of_lt (Nat.lt_succ_of_le h)

theorem next?_eq_none_iff {n : Nat} : next? n = none ↔ maxOffset ≤ n := by
  simp [next?]

theorem next?_eq_some_iff {n m : Nat} : next? n = some m ↔ n < maxOffset ∧ m = n + 1 := by
  simp [next?, eq_comm]

namespace LineIndex

/-! ## Bisection -/

/-- What holds between any two rounds of the bisection: every line before `low` starts at or
before the offset, and every line from `high` on starts after it. -/
structure Splits (index : LineIndex) (offset low high : Nat) : Prop where
  le : low ≤ high
  within : high ≤ index.lineCount
  before : ∀ i < low, index.starts.getD i 0 ≤ offset
  after : ∀ i, high ≤ i → i < index.lineCount → offset < index.starts.getD i 0

def IsIncreasing (index : LineIndex) : Prop := index.starts.toList.Pairwise (· < ·)

theorem length_starts (index : LineIndex) :
    index.starts.toList.length = index.lineCount := rfl

theorem getD_eq_getElem
    {index : LineIndex} {i : Nat} (hi : i < index.starts.toList.length) :
    index.starts.getD i 0 = index.starts.toList[i] := by
  rw [length_starts, lineCount] at hi
  simp [hi]

theorem IsIncreasing.getD_le_getD
    {index : LineIndex} (h : index.IsIncreasing) {i j : Nat} (hij : i ≤ j)
    (hj : j < index.lineCount) : index.starts.getD i 0 ≤ index.starts.getD j 0 := by
  rw [← length_starts] at hj
  rw [getD_eq_getElem (by omega), getD_eq_getElem hj]
  rcases Nat.lt_or_eq_of_le hij with hlt | rfl
  · exact Nat.le_of_lt (List.pairwise_iff_getElem.mp h i j _ _ hlt)
  · exact Nat.le_refl _

section Bisection

variable {index : LineIndex} (hindex : index.IsIncreasing) {offset low high middle : Nat}

include hindex

/-- The line in the middle starts at or before the offset, and so do all lines before it. -/
theorem Splits.raise
    (h : index.Splits offset low high) (hmiddle : middle < high)
    (hle : index.starts.getD middle 0 ≤ offset) : index.Splits offset (middle + 1) high := by
  refine ⟨hmiddle, h.within, ?_, h.after⟩
  intro i hi
  have hlines : middle < index.lineCount := Nat.lt_of_lt_of_le hmiddle h.within
  exact (hindex.getD_le_getD (Nat.le_of_lt_succ hi) hlines).trans hle

/-- The line in the middle starts after the offset, and so do all lines behind it. -/
theorem Splits.reduce
    (h : index.Splits offset low high) (hlow : low ≤ middle) (hmiddle : middle < high)
    (hgt : offset < index.starts.getD middle 0) : index.Splits offset low middle := by
  refine ⟨hlow, (Nat.le_of_lt hmiddle).trans h.within, h.before, ?_⟩
  intro i hi hlines
  exact hgt.trans_le (hindex.getD_le_getD hi hlines)

theorem Splits.firstAfter
    (h : index.Splits offset low high) :
    index.Splits offset (index.firstAfter offset low high)
      (index.firstAfter offset low high) := by
  fun_induction LineIndex.firstAfter index offset low high with
  | case1 low high hlt middle hle ih => exact ih (h.raise hindex (by omega) hle)
  | case2 low high hlt middle hgt ih =>
      exact ih (h.reduce hindex (by omega) (by omega) (Nat.lt_of_not_le hgt))
  | case3 low high hstop =>
      obtain rfl : low = high := Nat.le_antisymm h.le (Nat.le_of_not_lt hstop)
      exact h

theorem splits_linesUpTo (offset : Nat) :
    index.Splits offset (index.linesUpTo offset) (index.linesUpTo offset) := by
  refine Splits.firstAfter hindex ⟨Nat.zero_le _, Nat.le_refl _, ?_, ?_⟩
  · intro i hi
    exact absurd hi (Nat.not_lt_zero i)
  · intro i hle hlt
    exact absurd hlt (Nat.not_lt_of_le hle)

/-- The bisection counts the lines that start at or before the offset. -/
theorem linesUpTo_eq_countP :
    index.linesUpTo offset = index.starts.toList.countP (· ≤ offset) := by
  obtain ⟨-, hwithin, hbefore, hafter⟩ := splits_linesUpTo hindex offset
  rw [← length_starts] at hwithin hafter
  generalize index.linesUpTo offset = count at hwithin hbefore hafter ⊢
  have hfront : (index.starts.toList.take count).countP (· ≤ offset) = count := by
    conv_rhs => rw [← List.length_take_of_le hwithin]
    refine List.countP_eq_length.mpr ?_
    intro start hstart
    obtain ⟨i, hi, rfl⟩ := List.mem_take_iff_getElem.mp hstart
    rw [← getD_eq_getElem (by omega)]
    exact decide_eq_true (hbefore i (by omega))
  have hback : (index.starts.toList.drop count).countP (· ≤ offset) = 0 := by
    refine List.countP_eq_zero.mpr ?_
    intro start hstart
    obtain ⟨i, hi, rfl⟩ := List.mem_drop_iff_getElem.mp hstart
    rw [← getD_eq_getElem (by omega), decide_eq_true_eq, Nat.not_le]
    exact hafter (count + i) (Nat.le_add_right count i) (by omega)
  rw [← List.take_append_drop count index.starts.toList, List.countP_append, hfront, hback,
    Nat.add_zero]

/-- The last of these lines is the one whose start is nearest to the offset. -/
theorem le_of_getElem?_linesUpTo
    {last start start' : Nat} (hlast : index.linesUpTo offset = last + 1)
    (hstart : index.starts[last]? = some start) (hmem : start' ∈ index.starts.toList)
    (hle : start' ≤ offset) : start ≤ offset ∧ start' ≤ start := by
  have hsplits := splits_linesUpTo hindex offset
  rw [hlast] at hsplits
  have hget : index.starts.getD last 0 = start := by
    rw [Array.getD_eq_getD_getElem?, hstart, Option.getD_some]
  refine ⟨hget ▸ hsplits.before last (Nat.lt_succ_self last), ?_⟩
  obtain ⟨i, hi, rfl⟩ := List.mem_iff_getElem.mp hmem
  rw [← getD_eq_getElem hi] at hle ⊢
  -- A line behind the last one would start after the offset.
  have hlines : i ≤ last := by
    by_contra hgt
    exact absurd hle (Nat.not_le_of_lt (hsplits.after i (Nat.lt_of_not_le hgt) hi))
  rw [← hget]
  exact hindex.getD_le_getD hlines hsplits.within

end Bisection

/-! ## The starts of the lines of a text -/

section Table

variable {bytes : List UInt8}

theorem mem_startsFrom_iff
    {offset start : Nat} (h : offset + bytes.length ≤ maxOffset) :
    start ∈ startsFrom offset bytes ↔ ∃ i, bytes[i]? = some 10 ∧ start = offset + i + 1 := by
  induction bytes generalizing offset with
  | nil => simp [startsFrom]
  | cons byte rest ih =>
      rw [List.length_cons] at h
      have hfits : offset + 1 + rest.length ≤ maxOffset := by omega
      have hrest := ih hfits
      have hnext : toOffset (offset + 1) = offset + 1 := toOffset_of_le (by omega)
      have hsplit : (∃ i, (byte :: rest)[i]? = some 10 ∧ start = offset + i + 1) ↔
          (byte = 10 ∧ start = offset + 1) ∨
            ∃ i, rest[i]? = some 10 ∧ start = offset + 1 + i + 1 := by
        constructor
        · rintro ⟨i, hi, rfl⟩
          cases i with
          | zero => exact Or.inl ⟨by simpa using hi, rfl⟩
          | succ i => exact Or.inr ⟨i, by simpa using hi, by omega⟩
        · rintro (⟨rfl, rfl⟩ | ⟨i, hi, rfl⟩)
          · exact ⟨0, rfl, rfl⟩
          · exact ⟨i + 1, by simpa using hi, by omega⟩
      rw [hsplit, ← hrest, startsFrom]
      by_cases hbyte : byte = 10
      · simp [hbyte, hnext]
      · simp [hbyte]

theorem pairwise_startsFrom
    {offset : Nat} (h : offset + bytes.length ≤ maxOffset) :
    (startsFrom offset bytes).Pairwise (· < ·) := by
  induction bytes generalizing offset with
  | nil => exact List.Pairwise.nil
  | cons byte rest ih =>
      rw [List.length_cons] at h
      have hfits : offset + 1 + rest.length ≤ maxOffset := by omega
      rw [startsFrom]
      split
      · refine List.Pairwise.cons ?_ (ih hfits)
        intro start hstart
        obtain ⟨i, -, rfl⟩ := (mem_startsFrom_iff hfits).mp hstart
        rw [toOffset_of_le (by omega)]
        omega
      · exact ih hfits

/-- Of the lines after newline bytes, those that start within some distance have their
newline byte below it. -/
theorem countP_startsFrom
    {offset : Nat} (h : offset + bytes.length ≤ maxOffset) (distance : Nat) :
    (startsFrom offset bytes).countP (· ≤ offset + distance) =
      newlinesBelow bytes distance := by
  induction bytes generalizing offset distance with
  | nil => simp [startsFrom, newlinesBelow]
  | cons byte rest ih =>
      cases distance with
      | zero =>
          rw [newlinesBelow, List.take_zero, List.count_nil, List.countP_eq_zero]
          intro start hstart
          obtain ⟨i, -, rfl⟩ := (mem_startsFrom_iff h).mp hstart
          rw [decide_eq_true_eq]
          omega
      | succ distance =>
          rw [List.length_cons] at h
          have hfits : offset + 1 + rest.length ≤ maxOffset := by omega
          have hrest := ih hfits distance
          rw [Nat.add_assoc, Nat.add_comm 1 distance] at hrest
          rw [startsFrom, newlinesBelow, List.take_succ_cons, List.count_cons,
            ← newlinesBelow, ← hrest]
          by_cases hbyte : byte = 10
          · have hnext : toOffset (offset + 1) ≤ offset + (distance + 1) := by
              rw [toOffset_of_le (by omega)]
              omega
            simp [hbyte, hnext]
          · simp [hbyte]

theorem length_startsFrom (offset : Nat) :
    (startsFrom offset bytes).length = bytes.count 10 := by
  induction bytes generalizing offset with
  | nil => rfl
  | cons byte rest ih =>
      rw [startsFrom, List.count_cons, ← ih (offset + 1)]
      by_cases hbyte : byte = 10
      · simp [hbyte]
      · simp [hbyte]

theorem lineCount_ofBytes : (ofBytes bytes).lineCount = 1 + bytes.count 10 := by
  rw [lineCount, ofBytes, List.size_toArray, List.length_cons, length_startsFrom, Nat.add_comm]

variable (hsize : bytes.length ≤ maxOffset)

include hsize

theorem mem_starts_ofBytes_iff {start : Nat} :
    start ∈ (ofBytes bytes).starts.toList ↔
      start = 0 ∨ ∃ i, bytes[i]? = some 10 ∧ start = i + 1 := by
  have hfits : 0 + bytes.length ≤ maxOffset := by omega
  simp only [ofBytes, List.mem_cons, mem_startsFrom_iff hfits, Nat.zero_add]

theorem isIncreasing_ofBytes : (ofBytes bytes).IsIncreasing := by
  have hfits : 0 + bytes.length ≤ maxOffset := by omega
  refine List.Pairwise.cons ?_ (pairwise_startsFrom hfits)
  intro start hstart
  obtain ⟨i, -, rfl⟩ := (mem_startsFrom_iff hfits).mp hstart
  omega

theorem linesUpTo_ofBytes (offset : Nat) :
    (ofBytes bytes).linesUpTo offset = newlinesBelow bytes offset + 1 := by
  have hfits : 0 + bytes.length ≤ maxOffset := by omega
  have hcount := countP_startsFrom hfits offset
  rw [Nat.zero_add] at hcount
  rw [linesUpTo_eq_countP (isIncreasing_ofBytes hsize), ofBytes,
    List.countP_cons_of_pos (by simp), hcount]

/-- The last line that starts at or before an offset starts where it should. -/
theorem exists_isLineStart (offset : Nat) :
    ∃ start, (ofBytes bytes).starts[newlinesBelow bytes offset]? = some start ∧
      start ≤ offset ∧ IsLineStart bytes offset start := by
  have hindex := isIncreasing_ofBytes hsize
  have hlast := linesUpTo_ofBytes hsize offset
  have hwithin := (splits_linesUpTo hindex offset).within
  rw [hlast] at hwithin
  obtain ⟨start, hstart⟩ : ∃ start,
      (ofBytes bytes).starts[newlinesBelow bytes offset]? = some start :=
    ⟨_, Array.getElem?_eq_getElem hwithin⟩
  have hnearest : ∀ start' ∈ (ofBytes bytes).starts.toList, start' ≤ offset →
      start ≤ offset ∧ start' ≤ start := by
    intro start' hmem hle
    exact le_of_getElem?_linesUpTo hindex hlast hstart hmem hle
  have hle : start ≤ offset :=
    (hnearest 0 ((mem_starts_ofBytes_iff hsize).mpr (Or.inl rfl)) (Nat.zero_le _)).1
  -- A newline byte below the offset starts a line that is not behind this one.
  have hclear : ∀ i < offset, bytes[i]? = some 10 → i + 1 ≤ start := by
    intro i hi hnewline
    exact (hnearest (i + 1) ((mem_starts_ofBytes_iff hsize).mpr (Or.inr ⟨i, hnewline, rfl⟩)) hi).2
  refine ⟨start, hstart, hle, ?_⟩
  have hmem : start ∈ (ofBytes bytes).starts.toList :=
    Array.mem_toList_iff.mpr (Array.mem_of_getElem? hstart)
  rcases (mem_starts_ofBytes_iff hsize).mp hmem with rfl | ⟨i, hnewline, rfl⟩
  · refine .first ?_
    intro j hj hnewline
    exact absurd (hclear j hj hnewline) (by omega)
  · refine .after hle hnewline ?_
    intro j hij hj hnewline'
    exact absurd (hclear j hj hnewline') (by omega)

end Table

/-! ## Positions -/

section Positions

variable {bytes : List UInt8} (hsize : bytes.length < maxOffset)

include hsize

/-- The line never exceeds the largest offset, so that only the last step of the column
can. -/
theorem exists_position?_eq (offset : Nat) :
    ∃ start, IsLineStart bytes offset start ∧ start ≤ offset ∧
      (ofBytes bytes).starts[newlinesBelow bytes offset]? = some start ∧
      (ofBytes bytes).position? offset =
        (next? (offset - start)).map (Position.mk (1 + newlinesBelow bytes offset)) := by
  obtain ⟨start, hstart, hle, hline⟩ := exists_isLineStart (Nat.le_of_lt hsize) offset
  refine ⟨start, hline, hle, hstart, ?_⟩
  have hbelow : newlinesBelow bytes offset < maxOffset :=
    ((List.take_sublist offset bytes).count_le 10 |>.trans List.count_le_length).trans_lt hsize
  have hnext : next? (toOffset (newlinesBelow bytes offset)) =
      some (newlinesBelow bytes offset + 1) := by
    rw [toOffset_of_le (Nat.le_of_lt hbelow), next?_eq_some_iff]
    exact ⟨hbelow, rfl⟩
  have hlength : Span.length? ⟨start, offset⟩ = some (offset - start) :=
    Span.length?_of_isOrdered hle
  rw [position?, linesUpTo_ofBytes (Nat.le_of_lt hsize), Nat.add_sub_cancel, hnext, hstart,
    Nat.add_comm 1]
  simp only [Option.bind_eq_bind, Option.bind_some, hlength]
  cases next? (offset - start) with
  | none => rfl
  | some column => rfl

theorem position?_eq_none_iff {offset : Nat} (hoffset : offset ≤ maxOffset) :
    (ofBytes bytes).position? offset = none ↔ offset = maxOffset ∧ 10 ∉ bytes := by
  obtain ⟨start, hline, hle, -, hposition⟩ := exists_position?_eq hsize offset
  rw [hposition, Option.map_eq_none_iff, next?_eq_none_iff]
  constructor
  · intro hfull
    obtain rfl : offset = maxOffset := by omega
    obtain rfl : start = 0 := by omega
    refine ⟨rfl, ?_⟩
    intro hmem
    obtain ⟨i, hi, hnewline⟩ := List.mem_iff_getElem.mp hmem
    cases hline with
    | first clear =>
        exact clear i (hi.trans hsize) (by rw [List.getElem?_eq_getElem hi, hnewline])
  · rintro ⟨rfl, hmem⟩
    cases hline with
    | first _ => exact Nat.le_refl maxOffset
    | after _ newline _ => exact absurd (List.mem_of_getElem? newline) hmem

/-- Later offsets are on later lines, or on the same line in later columns. -/
theorem position?_lt_position?
    {a b : Nat} {p q : Position} (hab : a < b) (hp : (ofBytes bytes).position? a = some p)
    (hq : (ofBytes bytes).position? b = some q) :
    toLex (p.line, p.column) < toLex (q.line, q.column) := by
  obtain ⟨start, -, hle, hstart, hposition⟩ := exists_position?_eq hsize a
  obtain ⟨start', -, hle', hstart', hposition'⟩ := exists_position?_eq hsize b
  rw [hposition, Option.map_eq_some_iff] at hp
  rw [hposition', Option.map_eq_some_iff] at hq
  obtain ⟨column, hcolumn, rfl⟩ := hp
  obtain ⟨column', hcolumn', rfl⟩ := hq
  rw [next?_eq_some_iff] at hcolumn hcolumn'
  rw [Prod.Lex.toLex_lt_toLex]
  rcases Nat.lt_or_eq_of_le (newlinesBelow_mono bytes (Nat.le_of_lt hab)) with hlt | heq
  · exact Or.inl (Nat.add_lt_add_left hlt 1)
  · -- With as many newline bytes below them, both lines start at one entry of the table.
    rw [heq, hstart', Option.some.injEq] at hstart
    refine Or.inr ⟨congrArg (1 + ·) heq, ?_⟩
    change column < column'
    omega

end Positions

theorem marks_of_position?
    {text : String} (hsize : text.utf8ByteSize < maxOffset) {offset : Nat} {p : Position}
    (h : (ofText text).position? offset = some p) : p.Marks text offset := by
  rw [← length_textBytes] at hsize
  obtain ⟨start, hline, hle, hstart, hposition⟩ := exists_position?_eq hsize offset
  change (ofBytes (textBytes text)).position? offset = some p at h
  rw [hposition, Option.map_eq_some_iff] at h
  obtain ⟨column, hcolumn, rfl⟩ := h
  obtain ⟨-, rfl⟩ := next?_eq_some_iff.mp hcolumn
  have hcount : (ofText text).lineCount = 1 + (textBytes text).count 10 := lineCount_ofBytes
  refine ⟨rfl, ?_, ?_, Nat.le_add_left 1 _, start, hline, ?_, ?_⟩
  · rw [hcount]
    exact Nat.add_le_add_left ((List.take_sublist offset _).count_le 10) 1
  · intro hpast
    rw [← length_textBytes] at hpast
    rw [hcount, newlinesBelow, List.take_of_length_le hpast]
  · rw [Nat.add_sub_cancel_left]
    exact hstart
  · change start + (offset - start + 1) - 1 = offset
    omega

end LineIndex

namespace CommandLine

/-- An offset that is clamped to the size of the text is not the largest one. -/
theorem exists_startPosition?_eq
    {text : String} (hsize : text.utf8ByteSize < maxOffset) (d : Diagnostic) :
    ∃ p, startPosition? text d = some p ∧
      (LineIndex.ofText text).position?
        (min d.location.span.start text.utf8ByteSize) = some p := by
  have hbytes : (textBytes text).length < maxOffset := hsize
  have hclamped : min d.location.span.start text.utf8ByteSize < maxOffset :=
    (Nat.min_le_right _ _).trans_lt hsize
  have hsome : (LineIndex.ofText text).position?
      (min d.location.span.start text.utf8ByteSize) ≠ none := by
    intro hnone
    have hfull := (LineIndex.position?_eq_none_iff hbytes (Nat.le_of_lt hclamped)).mp hnone
    omega
  obtain ⟨p, hp⟩ := Option.ne_none_iff_exists'.mp hsome
  refine ⟨p, ?_, hp⟩
  rw [startPosition?, toOffset_of_le (Nat.le_of_lt hsize), hp]

theorem exists_showSuppression_eq_ok
    {P : Program} {options : CheckOptions} {s : Suppression} {file : SourceFile}
    (hfile : P.file? s.diagnostic.location.file = some file)
    (hsize : (file.text.getD "").utf8ByteSize < maxOffset) :
    ∃ shown, showSuppression P options s = .ok shown := by
  obtain ⟨p, hp, -⟩ := exists_startPosition?_eq hsize s.diagnostic
  rw [showSuppression, hfile]
  simp only [hp, Except.ok.injEq, exists_eq']

end CommandLine

/-- In a text that fits into 32 bits, only the largest offset can be without a position, and
only if there are no newlines.  Every position counts newlines and the bytes behind the last
one, and positions increase with their offsets.  A check finds the position of every
suppression in such a text, so that it shows the suppression. -/
theorem positions_follow_newlines
    {text : String} (hsize : text.utf8ByteSize < maxOffset) :
    (∀ offset ≤ maxOffset, (LineIndex.ofText text).position? offset = none ↔
      offset = maxOffset ∧ 10 ∉ textBytes text) ∧
    (∀ offset ≤ maxOffset, ∀ p, (LineIndex.ofText text).position? offset = some p →
      p.Marks text offset) ∧
    (∀ a b p q, a < b → b ≤ maxOffset → (LineIndex.ofText text).position? a = some p →
      (LineIndex.ofText text).position? b = some q →
      toLex (p.line, p.column) < toLex (q.line, q.column)) ∧
    (∀ d : Diagnostic, ∃ p, CommandLine.startPosition? text d = some p ∧
      (LineIndex.ofText text).position?
        (min d.location.span.start text.utf8ByteSize) = some p) ∧
    (∀ (P : Program) (options : CommandLine.CheckOptions) (s : Suppression)
      (file : SourceFile), P.file? s.diagnostic.location.file = some file →
        file.text.getD "" = text →
        ∃ shown, CommandLine.showSuppression P options s = .ok shown) := by
  have hbytes : (textBytes text).length < maxOffset := hsize
  refine ⟨?_, ?_, ?_, ?_, ?_⟩
  · intro offset hoffset
    exact LineIndex.position?_eq_none_iff hbytes hoffset
  · intro offset _ p hp
    exact LineIndex.marks_of_position? hsize hp
  · intro a b p q hab _ hp hq
    exact LineIndex.position?_lt_position? hbytes hab hp hq
  · exact CommandLine.exists_startPosition?_eq hsize
  · rintro P options s file hfile rfl
    exact CommandLine.exists_showSuppression_eq_ok hfile hsize

/-- A newline gives the largest offset a position, on the line behind it. -/
theorem largest_offset_after_newline :
    "ab\ncd".utf8ByteSize < maxOffset ∧ 10 ∈ textBytes "ab\ncd" ∧
      (∃ p, (LineIndex.ofText "ab\ncd").position? maxOffset = some p ∧ p.line = 2 ∧
        p.column = maxOffset - 2) ∧
      "ab".utf8ByteSize < maxOffset ∧ (LineIndex.ofText "ab").position? maxOffset = none := by
  have hsize : "ab\ncd".utf8ByteSize < maxOffset := by decide
  have hsize' : "ab".utf8ByteSize < maxOffset := by decide
  have hnewline : 10 ∈ textBytes "ab\ncd" := by decide
  obtain ⟨hnone, hmarks, -⟩ := positions_follow_newlines hsize
  obtain ⟨hnone', -⟩ := positions_follow_newlines hsize'
  refine ⟨hsize, hnewline, ?_, hsize', ?_⟩
  · have hsome : (LineIndex.ofText "ab\ncd").position? maxOffset ≠ none :=
      fun h => ((hnone maxOffset (Nat.le_refl _)).mp h).2 hnewline
    obtain ⟨p, hp⟩ := Option.ne_none_iff_exists'.mp hsome
    obtain ⟨-, -, hlast, hpos, start, -, hstart, hcolumn⟩ := hmarks _ (Nat.le_refl _) p hp
    have hline : p.line = 2 := hlast (Nat.le_of_lt hsize)
    rw [hline] at hstart
    have hthird : start = 3 := Option.some.inj (hstart.symm.trans (by decide))
    exact ⟨p, hp, hline, by omega⟩
  · exact (hnone' maxOffset (Nat.le_refl _)).mpr ⟨rfl, by decide⟩

end ClosedSwitch
