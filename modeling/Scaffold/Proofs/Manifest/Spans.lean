import Mathlib.Data.List.Induction
import Scaffold.Manifest.Document

/-!
# Places in a text

A line and a column lead back to the byte they were counted from.  Lines and columns are counted in
bytes, so that this holds of every offset, also of one inside a character.  Both are words, and so
is their sum: a column from elsewhere may be so large that the sum is not.
-/

namespace Scaffold

open Data

variable {c : Char} {source : String} {offset : Nat}

/-! ## Lines of bytes -/

def newlineByte : UInt8 := 10

def lengthOfLines : Nat → List UInt8 → Nat
  | 0, _ => 0
  | _, [] => 0
  | lines + 1, b :: bytes => 1 + lengthOfLines (if b = newlineByte then lines else lines + 1) bytes

@[simp] theorem lengthOfLines_zero (bytes : List UInt8) : lengthOfLines 0 bytes = 0 := by
  rw [lengthOfLines]

theorem lengthOfLines_append {bytes : List UInt8} (h : newlineByte ∉ bytes) (lines : Nat)
    (rest : List UInt8) :
    lengthOfLines (lines + 1) (bytes ++ rest) = bytes.length + lengthOfLines (lines + 1) rest := by
  induction bytes with
  | nil => simp
  | cons b bytes ih =>
      rw [List.mem_cons, not_or] at h
      rw [List.cons_append, lengthOfLines, if_neg (Ne.symm h.1), ih h.2, List.length_cons]
      omega

/-- The lines up to a newline are the bytes up to it. -/
theorem lengthOfLines_newline (before after : List UInt8) :
    lengthOfLines (before.count newlineByte + 1) (before ++ newlineByte :: after) =
      before.length + 1 := by
  induction before with
  | nil => simp [lengthOfLines]
  | cons b before ih =>
      rw [List.cons_append, lengthOfLines, List.count_cons, List.length_cons]
      by_cases hb : b = newlineByte
      · rw [if_pos hb, if_pos (by simpa using hb), ih]
        omega
      · rw [if_neg hb, if_neg (by simpa using hb), Nat.add_zero, ih]
        omega

/-- The bytes in front of a place are those of the lines that have ended, and those of its line. -/
theorem lengthOfLines_add_takeWhile (before after : List UInt8) :
    lengthOfLines (before.count newlineByte) (before ++ after) +
      (before.reverse.takeWhile (· != newlineByte)).length = before.length := by
  induction before using List.reverseRecOn generalizing after with
  | nil => simp
  | append_singleton before b ih =>
      rw [List.reverse_concat, List.append_assoc, List.singleton_append, List.length_append,
        List.length_singleton]
      by_cases hb : b = newlineByte
      · subst hb
        rw [List.count_append, List.count_singleton_self, lengthOfLines_newline,
          List.takeWhile_cons_of_neg (by simp), List.length_nil]
      · have hcount : [b].count newlineByte = 0 :=
          List.count_eq_zero.mpr (by simpa using Ne.symm hb)
        rw [List.count_append, hcount, Nat.add_zero, List.takeWhile_cons_of_pos (by simpa using hb),
          List.length_cons, ← Nat.add_assoc, ih]

/-! ## Lines of characters -/

/-- A newline byte is only in the newline character. -/
theorem newline_mem_utf8EncodeChar : newlineByte ∈ String.utf8EncodeChar c ↔ c = '\n' := by
  have hbyte : ∀ n, newlineByte = UInt8.ofNat n ↔ n % 256 = 10 := by
    intro n
    rw [← UInt8.toNat_inj, UInt8.toNat_ofNat', eq_comm]
    rfl
  have hchar : c = '\n' ↔ c.val.toNat = 10 := by
    rw [Char.ext_iff, ← UInt32.toNat_inj]
    rfl
  rw [hchar]
  change newlineByte ∈ ite _ _ _ ↔ _
  -- Every byte of a longer character is 128 or more.
  split_ifs <;> simp only [List.mem_cons, List.not_mem_nil, or_false, hbyte] <;> omega

/-- The first lines of a text are as long as the first lines of its bytes. -/
theorem bytesOfLines_eq (lines : Nat) (cs : List Char) :
    bytesOfLines lines cs = lengthOfLines lines (cs.flatMap String.utf8EncodeChar) := by
  induction cs generalizing lines with
  | nil => cases lines <;> rfl
  | cons c cs ih =>
      cases lines with
      | zero => rw [bytesOfLines, lengthOfLines_zero]
      | succ lines =>
          rw [bytesOfLines, List.flatMap_cons, ih]
          by_cases hc : c = '\n'
          · subst hc
            rw [if_pos rfl]
            rfl
          · rw [if_neg hc, lengthOfLines_append (newline_mem_utf8EncodeChar.not.mpr hc),
              String.length_utf8EncodeChar]

/-! ## Offsets -/

def bytesBefore (source : String) (offset : Nat) : List UInt8 :=
  source.toUTF8.data.toList.take offset

/-- The line of an offset: one more than there are newlines in front of it. -/
def lineAt (source : String) (offset : Nat) : Nat :=
  1 + (bytesBefore source offset).count newlineByte

/-- The column of an offset: one more than there are bytes in front of it on its line. -/
def columnAt (source : String) (offset : Nat) : Nat :=
  1 + ((bytesBefore source offset).reverse.takeWhile (· != newlineByte)).length

theorem toList_toUTF8 (source : String) :
    source.toUTF8.data.toList = source.toList.flatMap String.utf8EncodeChar := by
  have hbytes := String.toByteArray_ofList (l := source.toList)
  rw [String.ofList_toList] at hbytes
  rw [String.toUTF8_eq_toByteArray, hbytes, List.utf8Encode, List.data_toByteArray]

theorem length_toUTF8 (source : String) :
    source.toUTF8.data.toList.length = source.utf8ByteSize := by
  rw [Array.length_toList]
  rfl

theorem lineAt_le_and_columnAt_le (h : offset ≤ source.utf8ByteSize) :
    lineAt source offset ≤ offset + 1 ∧ columnAt source offset ≤ offset + 1 := by
  have hlength : (bytesBefore source offset).length = offset := by
    rw [bytesBefore, List.length_take, length_toUTF8, Nat.min_eq_left h]
  have hcount := (bytesBefore source offset).count_le_length (a := newlineByte)
  have htake := ((bytesBefore source offset).reverse.takeWhile_prefix (· != newlineByte)).length_le
  rw [List.length_reverse] at htake
  rw [lineAt, columnAt]
  omega

/-- A line starts behind the lines in front of it, and a column is counted from there. -/
theorem bytesOfLines_add_columnAt (h : offset ≤ source.utf8ByteSize) :
    bytesOfLines (lineAt source offset - 1) source.toList + (columnAt source offset - 1) =
      offset := by
  have hlines := lengthOfLines_add_takeWhile (bytesBefore source offset)
    (source.toUTF8.data.toList.drop offset)
  rw [bytesBefore, List.take_append_drop, List.length_take, length_toUTF8, Nat.min_eq_left h]
    at hlines
  rw [bytesOfLines_eq, ← toList_toUTF8, lineAt, columnAt, Nat.add_sub_cancel_left,
    Nat.add_sub_cancel_left]
  exact hlines

/-! ## Sums of words -/

/-- Where the program stops, it would have gone on with less than the sum. -/
theorem Overflow.add_eq_some_iff {o : Overflow} {a b c : UInt64} :
    o.add a b = some c ↔ c = a + b ∧ (o = .stops → a.toNat + b.toNat < UInt64.size) := by
  rw [add]
  split
  · next h => simp [h.1, Nat.not_lt.mpr h.2]
  · next h =>
      rw [not_and, Nat.not_le] at h
      rw [Option.some_inj, eq_comm]
      exact (and_iff_left h).symm

theorem toNat_wordBefore (a : UInt64) : (wordBefore a).toNat = a.toNat - 1 := by
  rw [wordBefore]
  split
  · next h => rw [h]; rfl
  · next h =>
      have hne : a.toNat ≠ 0 := fun hzero ↦ h (UInt64.toNat_inj.mp hzero)
      have hone : (1 : UInt64) ≤ a := UInt64.le_iff_toNat_le.mpr (Nat.one_le_iff_ne_zero.mpr hne)
      rw [UInt64.toNat_sub_of_le _ _ hone]
      rfl

theorem lengthOfLines_le (lines : Nat) (bytes : List UInt8) :
    lengthOfLines lines bytes ≤ bytes.length := by
  induction bytes generalizing lines with
  | nil => cases lines <;> exact Nat.le_refl 0
  | cons b bytes ih =>
      cases lines with
      | zero => exact Nat.zero_le _
      | succ lines =>
          have hrest := ih (if b = newlineByte then lines else lines + 1)
          rw [lengthOfLines, List.length_cons]
          omega

theorem bytesOfLines_le (source : String) (lines : Nat) :
    bytesOfLines lines source.toList ≤ source.utf8ByteSize := by
  rw [bytesOfLines_eq, ← toList_toUTF8, ← length_toUTF8]
  exact lengthOfLines_le _ _

/-- Where the sum of a line's start and a column fits into a word, it is the offset, in every
build. -/
theorem spanAt_of_lt (o : Overflow) {line column : UInt64} (hline : line ≠ 0)
    (h : bytesOfLines (line.toNat - 1) source.toList + (column.toNat - 1) < UInt64.size) :
    spanAt o source line column =
      some (some (.byteAt source
        (bytesOfLines (line.toNat - 1) source.toList + (column.toNat - 1)))) := by
  have hstart : (UInt64.ofNat (bytesOfLines (line.toNat - 1) source.toList)).toNat =
      bytesOfLines (line.toNat - 1) source.toList :=
    UInt64.toNat_ofNat_of_lt' (Nat.lt_of_le_of_lt (Nat.le_add_right _ _) h)
  have hsum : (UInt64.ofNat (bytesOfLines (line.toNat - 1) source.toList)).toNat +
      (wordBefore column).toNat =
        bytesOfLines (line.toNat - 1) source.toList + (column.toNat - 1) := by
    rw [hstart, toNat_wordBefore]
  have hadd := Overflow.add_eq_some_iff (o := o).mpr ⟨rfl, fun _ ↦ hsum ▸ h⟩
  have hoffset := (UInt64.toNat_add _ _).trans ((congrArg (· % 2 ^ 64) hsum).trans
    (Nat.mod_eq_of_lt h))
  simp only [spanAt, if_neg hline, hadd, Option.map_some, hoffset]

theorem spanAt_lineAt (o : Overflow) (hsize : source.utf8ByteSize < UInt64.size)
    (h : offset ≤ source.utf8ByteSize) {line column : UInt64}
    (hline : line.toNat = lineAt source offset) (hcolumn : column.toNat = columnAt source offset) :
    spanAt o source line column =
      some (some ⟨offset, min (offset + 1) source.utf8ByteSize - offset⟩) := by
  have hne : line ≠ 0 := by
    rintro rfl
    rw [lineAt] at hline
    exact absurd hline (by simp; omega)
  have hoffset := bytesOfLines_add_columnAt h
  rw [← hline, ← hcolumn] at hoffset
  rw [spanAt_of_lt o hne (by omega), hoffset, Span.byteAt, Nat.min_eq_left h]

/-- A stretch of one byte at most lies in the text wherever it is asked for. -/
theorem Span.byteAt_within (source : String) (offset : Nat) :
    (byteAt source offset).offset + (byteAt source offset).length ≤ source.utf8ByteSize ∧
      (byteAt source offset).length ≤ 1 := by
  dsimp only [byteAt]
  omega

theorem spanAt_wraps_within {line : UInt64} (h : line ≠ 0) (column : UInt64) :
    ∃ span, spanAt .wraps source line column = some (some span) ∧
      span.offset + span.length ≤ source.utf8ByteSize ∧ span.length ≤ 1 := by
  rw [spanAt, if_neg h]
  exact ⟨_, rfl, Span.byteAt_within _ _⟩

/-- A program that stops at large sums stops exactly there, and else does the same. -/
theorem spanAt_stops (hsize : source.utf8ByteSize < UInt64.size) {line : UInt64} (h : line ≠ 0)
    (column : UInt64) : spanAt .stops source line column =
      if UInt64.size ≤ bytesOfLines (line.toNat - 1) source.toList + (column.toNat - 1) then none
      else spanAt .wraps source line column := by
  have hstart : (UInt64.ofNat (bytesOfLines (line.toNat - 1) source.toList)).toNat =
      bytesOfLines (line.toNat - 1) source.toList :=
    UInt64.toNat_ofNat_of_lt' (Nat.lt_of_le_of_lt (bytesOfLines_le source _) hsize)
  simp only [spanAt, if_neg h, Overflow.add, hstart, toNat_wordBefore, true_and]
  split <;> rfl

/-- The line and the column of a byte give back that byte, and those of the end of a text the empty
stretch there; so a failure that is reported at an offset is shown at it.  Every other place gives
at most one byte of the text too, as long as large sums wrap.  Where they stop the program instead,
that happens exactly for the columns that lead beyond the largest word. -/
theorem spans_point_back (source : String) (hsize : source.utf8ByteSize < UInt64.size - 1) :
    (∀ o, ∀ offset ≤ source.utf8ByteSize, ∀ line column : UInt64,
      line.toNat = lineAt source offset → column.toNat = columnAt source offset →
        spanAt o source line column =
          some (some ⟨offset, min (offset + 1) source.utf8ByteSize - offset⟩)) ∧
    (∀ line column : UInt64, 1 ≤ line → ∃ span,
      spanAt .wraps source line column = some (some span) ∧
        span.offset + span.length ≤ source.utf8ByteSize ∧ span.length ≤ 1) ∧
    (∀ line column : UInt64, 1 ≤ line → spanAt .stops source line column =
      if UInt64.size ≤ bytesOfLines (line.toNat - 1) source.toList + (column.toNat - 1) then none
      else spanAt .wraps source line column) ∧
    ∀ offset ≤ source.utf8ByteSize, ∀ failure : Failure,
      failure.position = some ⟨lineAt source offset, columnAt source offset⟩ →
        jsonSpan source failure =
          some ⟨offset, min (offset + 1) source.utf8ByteSize - offset⟩ := by
  have hsize' : source.utf8ByteSize < UInt64.size := by omega
  have hne {line : UInt64} (h : 1 ≤ line) : line ≠ 0 := by
    rintro rfl
    exact absurd h (by decide)
  refine ⟨fun o offset h line column ↦ spanAt_lineAt o hsize' h,
    fun line column h ↦ spanAt_wraps_within (hne h) column,
    fun line column h ↦ spanAt_stops hsize' (hne h) column, fun offset h failure hfailure ↦ ?_⟩
  · have hbounds := lineAt_le_and_columnAt_le h
    rw [jsonSpan, hfailure]
    dsimp only
    rw [spanAt_lineAt .wraps hsize' h (UInt64.toNat_ofNat_of_lt' (by omega))
      (UInt64.toNat_ofNat_of_lt' (by omega)), Option.join_some]

/-- A document with a character of two bytes on its second line. -/
def accented : String := "[\n\"é\"]"

theorem spans_point_back_accented :
    accented.utf8ByteSize = 7 ∧ lineAt accented 4 = 2 ∧ columnAt accented 4 = 3 ∧
      (∀ o, spanAt o accented 2 3 = some (some ⟨4, 1⟩)) ∧
      (∃ span, spanAt .wraps accented 2 18446744073709551615 = some (some span) ∧
        span.offset + span.length ≤ accented.utf8ByteSize ∧ span.length ≤ 1) ∧
      spanAt .stops accented 2 18446744073709551615 = none ∧
      jsonSpan accented ⟨.malformed .expectedValue, some ⟨2, 3⟩⟩ = some ⟨4, 1⟩ := by
  obtain ⟨hback, hwithin, hstops, hshown⟩ := spans_point_back accented (by decide)
  refine ⟨rfl, rfl, rfl, fun o ↦ hback o 4 (by decide) 2 3 rfl rfl, hwithin _ _ (by decide),
    ?_, hshown 4 (by decide) _ rfl⟩
  rw [hstops _ _ (by decide), if_pos (by decide)]

end Scaffold
